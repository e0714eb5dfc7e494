import DavQuery.Number.Shortest
import DavQuery.Text.Quoted

/-!
Values of structured data, as a file of settings holds them: whether they count as given, their
text, and how they are shown to the person.
-/

namespace DavQuery.Json

open Number Text

inductive Value where
  | null
  | bool (b : Bool)
  | integer (n : Int)
  | real (x : Binary)
  | text (s : RawText)
  | list (items : List Value)
  | object (members : List (RawText × Value))
  deriving Repr

namespace Value

def isGiven : Value → Bool
  | .null => false
  | .bool b => b
  | .integer n => n != 0
  | .real x => !x.isZero
  | .text s => !s.isEmpty
  | .list items => !items.isEmpty
  | .object members => !members.isEmpty

def text? : Value → Option RawText
  | .text s => some s
  | _ => none

mutual

/-- The value as it is shown within a list or an object, where texts are in quotes. -/
def inside : Value → String
  | .null => "None"
  | .bool true => "True"
  | .bool false => "False"
  | .integer n => toString n
  | .real x => String.ofList x.text
  | .text s => quoted s
  | .list items => "[" ++ ", ".intercalate (insideItems items) ++ "]"
  | .object members => "\x7b" ++ ", ".intercalate (insideMembers members) ++ "\x7d"

def insideItems : List Value → List String
  | [] => []
  | v :: r => inside v :: insideItems r

def insideMembers : List (RawText × Value) → List String
  | [] => []
  | (name, v) :: r => (quoted name ++ ": " ++ inside v) :: insideMembers r

end

def shown : Value → RawText
  | .text s => s
  | v => inside v

end Value

def member? (members : List (RawText × Value)) (name : String) : Option Value :=
  members.lookup (RawText.ofString name)

end DavQuery.Json
