import DavQuery.Text.Blank
import DavQuery.Text.Digit

/-!
Whole numbers in texts: digits of any script, with a sign before them and single underscores
between them. A number of more than `digitLimit` digits is not read.
-/

namespace DavQuery.Text

def digitLimit : Nat := 4300

def ofDigits (ds : List Nat) : Nat := ds.foldl (fun n d => 10 * n + d) 0

def spanDigits : List Char → List Nat × List Char
  | [] => ([], [])
  | c :: r =>
    match digitValue? c with
    | some d => let (ds, rest) := spanDigits r; (d :: ds, rest)
    | none => ([], c :: r)

/-- Digits with single underscores between them; nothing else may stand in the text. -/
def digitGroups? : List Char → Option (List Nat)
  | [] => none
  | [c] => (digitValue? c).map ([·])
  | c :: '_' :: r => do return (← digitValue? c) :: (← digitGroups? r)
  | c :: r => do return (← digitValue? c) :: (← digitGroups? r)

def spanSign : List Char → Bool × List Char
  | '-' :: r => (true, r)
  | '+' :: r => (false, r)
  | r => (false, r)

def signed (negative : Bool) (n : Nat) : Int := if negative then -n else n

def integer? (s : List Char) : Option Int :=
  let (negative, r) := spanSign (trimChars s)
  match digitGroups? r with
  | some ds => if ds.length ≤ digitLimit then some (signed negative (ofDigits ds)) else none
  | none => none

inductive Leading where
  | absent
  | tooLong
  | number (n : Int)
  deriving Repr, DecidableEq

/-- The whole number that a text starts with, after white space. No underscores here. -/
def leadingInteger (s : List Char) : Leading :=
  let (negative, r) := spanSign (s.dropWhile isBlank)
  match spanDigits r with
  | ([], _) => .absent
  | (ds, _) => if ds.length ≤ digitLimit then .number (signed negative (ofDigits ds)) else .tooLong

end DavQuery.Text
