import DavQuery.Text.Digit
import DavQuery.Text.Pieces
import DavQuery.Xml.Character

/-!
The small parts of which markup is made: names, references, comments and instructions. Each reader
takes its part from the start of a text and gives what follows it.
-/

namespace DavQuery.Xml

open Text

def skipSpace (s : List Char) : List Char := s.dropWhile isSpace

def startsWithSpace (s : List Char) : Bool := (s.head?.map isSpace).getD false

def after? (start s : List Char) : Option (List Char) :=
  if start.isPrefixOf s then some (s.drop start.length) else none

def spanPlainName : List Char → Option (List Char × List Char)
  | [] => none
  | c :: r =>
    if isNameStart c then some (c :: r.takeWhile isNameChar, r.dropWhile isNameChar) else none

def spanName (s : List Char) : Option (List Char × List Char) := do
  let (first, r) ← spanPlainName s
  match r with
  | ':' :: r' =>
    let (second, rest) ← spanPlainName r'
    if rest.head? = some ':' then none else pure (first ++ ':' :: second, rest)
  | _ => pure (first, r)

def charOfCode? (n : Nat) : Option Char :=
  if n.isValidChar ∧ isAllowed (Char.ofNat n) = true then some (Char.ofNat n) else none

def codeOf? (base : Nat) (value? : Char → Option Nat) : List Char → Option Nat
  | [] => none
  | ds => (ds.mapM value?).map fun ns => ns.foldl (base * · + ·) 0

def decimalValue? (c : Char) : Option Nat := if c.isDigit then some (c.toNat - 48) else none

/-- A reference: to a character by its code point, or to an entity by its name. -/
inductive Reference where
  | char (c : Char)
  | entity (name : List Char)
  deriving Repr, DecidableEq

def Reference.read? (s : List Char) : Option Reference :=
  match s with
  | '#' :: 'x' :: ds => (codeOf? 16 hexValue? ds).bind charOfCode? |>.map .char
  | '#' :: ds => (codeOf? 10 decimalValue? ds).bind charOfCode? |>.map .char
  | _ =>
    match spanPlainName s with
    | some (name, []) => some (.entity name)
    | _ => none

def spanReference (s : List Char) : Option (Reference × List Char) := do
  let (inside, rest) ← cutFirst ';' s
  pure (← Reference.read? inside, rest)

def predefined? (name : List Char) : Option Char :=
  if name = ['l', 't'] then some '<'
  else if name = ['g', 't'] then some '>'
  else if name = ['a', 'm', 'p'] then some '&'
  else if name = ['a', 'p', 'o', 's'] then some '\''
  else if name = ['q', 'u', 'o', 't'] then some '"'
  else none

def skipComment (s : List Char) : Option (List Char) := do
  let (_, rest) ← cutAt ['-', '-'] s
  after? ['>'] rest

def skipInstruction (s : List Char) : Option (List Char) := do
  let (target, rest) ← spanPlainName s
  if target.map Char.toLower = ['x', 'm', 'l'] then none
  else if startsWithSpace rest then (cutAt ['?', '>'] rest).map (·.2)
  else after? ['?', '>'] rest

def skipRemark (s : List Char) : Option (List Char) :=
  match after? ['<', '!', '-', '-'] s with
  | some r => skipComment r
  | none => (after? ['<', '?'] s).bind skipInstruction

def skipRemarks (s : List Char) : List Char :=
  let r := skipSpace s
  match skipRemark r with
  | some rest => if _ : rest.length < s.length then skipRemarks rest else r
  | none => r
termination_by s.length

end DavQuery.Xml
