import DavQuery.Json.Value
import DavQuery.Text.Digit
import DavQuery.Text.Integer

/-!
Reading structured data. Beyond the standard the names of what is no number and of the infinities
are let in; a whole number of too many digits is not. Of two members of one name the last counts.
Lists and objects stand within each other up to a number of levels.
-/

namespace DavQuery.Json

open Number Text

inductive Fault where
  | malformed
  /-- A list or an object stands within too many others. -/
  | nested
  deriving Repr, DecidableEq

def isSpace (c : Char) : Bool := c == ' ' || c == '\t' || c == '\n' || c == '\r'

def skipSpace (s : List Char) : List Char := s.dropWhile isSpace

def after? (start : String) (s : List Char) : Option (List Char) :=
  if start.toList.isPrefixOf s then some (s.drop start.toList.length) else none

/-- The members with the value under the name, in the place of an earlier one. -/
def put (name : RawText) (v : Value) : List (RawText × Value) → List (RawText × Value)
  | [] => [(name, v)]
  | p :: r => if p.1 = name then (name, v) :: r else p :: put name v r

def spanUnit : List Char → Option (Nat × List Char)
  | a :: b :: c :: d :: r => do
    let digits ← [a, b, c, d].mapM hexValue?
    pure (digits.foldl (16 * · + ·) 0, r)
  | _ => none

def isHigh (n : Nat) : Bool := 0xD800 ≤ n && n < 0xDC00

def isLow (n : Nat) : Bool := 0xDC00 ≤ n && n < 0xE000

def unitPoint (n : Nat) : Point :=
  if h : 0xD800 ≤ n ∧ n < 0xE000 then .half ⟨n - 0xD800, by omega⟩ else .char (Char.ofNat n)

/-- The point of an escape by code units: two halves that belong together are one character. -/
def spanUnits (s : List Char) : Option (Point × List Char) := do
  let (n, r) ← spanUnit s
  let other := ((after? "\\u" r).bind spanUnit).filter fun p => isHigh n && isLow p.1
  match other with
  | some (m, rest) =>
    pure (.char (Char.ofNat (0x10000 + (n - 0xD800) * 0x400 + (m - 0xDC00))), rest)
  | none => pure (unitPoint n, r)

def escaped? (c : Char) : Option Char :=
  [('"', '"'), ('\\', '\\'), ('/', '/'), ('b', Char.ofNat 8), ('f', Char.ofNat 12), ('n', '\n'),
    ('r', '\r'), ('t', '\t')].lookup c

def spanText (s : List Char) : Option (RawText × List Char) :=
  match s with
  | [] => none
  | c :: r =>
    if c = '"' then some ([], r)
    else if c.toNat < 32 then none
    else if c = '\\' then
      let next :=
        match r with
        | 'u' :: r => spanUnits r
        | e :: r => (escaped? e).map fun d => (.char d, r)
        | [] => none
      match next with
      | some (d, rest) =>
        if _ : rest.length < r.length + 1 then (spanText rest).map fun p => (d :: p.1, p.2)
        else none
      | none => none
    else (spanText r).map fun p => (.char c :: p.1, p.2)
termination_by s.length

def spanDigits (s : List Char) : List Char × List Char :=
  (s.takeWhile Char.isDigit, s.dropWhile Char.isDigit)

def spanPlaces (s : List Char) : Option (List Char × List Char) :=
  match s with
  | '.' :: r => if (spanDigits r).1.isEmpty then none else some (spanDigits r)
  | _ => none

def spanExponent (s : List Char) : Option (Int × List Char) :=
  match s with
  | c :: r =>
    if c = 'e' ∨ c = 'E' then
      let (negative, r) := spanSign r
      let (digits, rest) := spanDigits r
      if digits.isEmpty then none
      else some (signed negative (ofDigits (digits.map fun c => c.toNat - 48)), rest)
    else none
  | [] => none

def spanNumber (s : List Char) : Option (Value × List Char) :=
  let (negative, r) :=
    match s with
    | '-' :: r => (true, r)
    | r => (false, r)
  let (whole, r) :=
    match r with
    | '0' :: r => (['0'], r)
    | r => spanDigits r
  let digits (s : List Char) := s.map fun c => c.toNat - 48
  if whole.isEmpty then none
  else
    match spanPlaces r, spanExponent (((spanPlaces r).map (·.2)).getD r) with
    | none, none =>
      if whole.length ≤ digitLimit then
        some (.integer (signed negative (ofDigits (digits whole))), r)
      else none
    | places, power =>
      let fraction := (places.map (·.1)).getD []
      let rest := (power.map (·.2)).getD ((places.map (·.2)).getD r)
      let all := (digits (whole ++ fraction)).dropWhile (· == 0)
      let exponent := (power.map (·.1)).getD 0 - fraction.length
      some (.real (.ofDecimal negative (ofDigits all) all.length exponent), rest)

def words : List (String × Value) :=
  [("null", .null), ("true", .bool true), ("false", .bool false), ("NaN", .real .undefined),
    ("Infinity", .real (.infinite false)), ("-Infinity", .real (.infinite true))]

def spanKeyword (s : List Char) : Option (Value × List Char) :=
  words.findSome? fun (word, v) => (after? word s).map (v, ·)

mutual

/-- The value at the start of a text; lists and objects may stand within each other on so many
levels. -/
def spanValue (levels : Nat) (s : List Char) : Except Fault (Value × List Char) :=
  match s with
  | '"' :: r =>
    match spanText r with
    | some (t, rest) => .ok (.text t, rest)
    | none => .error .malformed
  | '[' :: r =>
    match levels, skipSpace r with
    | 0, _ => .error .nested
    | _ + 1, ']' :: rest => .ok (.list [], rest)
    | levels + 1, t =>
      if _ : t.length < r.length + 1 then
        (spanItems levels t).map fun p => (.list p.1, p.2)
      else .error .malformed
  | '\x7b' :: r =>
    match levels, skipSpace r with
    | 0, _ => .error .nested
    | _ + 1, '\x7d' :: rest => .ok (.object [], rest)
    | levels + 1, t =>
      if _ : t.length < r.length + 1 then
        (spanMembers levels [] t).map fun p => (.object p.1, p.2)
      else .error .malformed
  | s =>
    match (spanKeyword s).or (spanNumber s) with
    | some p => .ok p
    | none => .error .malformed
termination_by 2 * s.length
decreasing_by all_goals (simp only [List.length_cons] at *; omega)

def spanItems (levels : Nat) (s : List Char) : Except Fault (List Value × List Char) :=
  match spanValue levels s with
  | .error f => .error f
  | .ok (v, rest) =>
    match skipSpace rest with
    | ']' :: rest => .ok ([v], rest)
    | ',' :: rest =>
      if _ : (skipSpace rest).length < s.length then
        (spanItems levels (skipSpace rest)).map fun p => (v :: p.1, p.2)
      else .error .malformed
    | _ => .error .malformed
termination_by 2 * s.length + 1
decreasing_by all_goals omega

def spanMembers (levels : Nat) (found : List (RawText × Value)) (s : List Char) :
    Except Fault (List (RawText × Value) × List Char) :=
  match s with
  | '"' :: r =>
    match spanText r with
    | some (name, rest) =>
      match skipSpace rest with
      | ':' :: rest =>
        if _ : (skipSpace rest).length < r.length + 1 then
          match spanValue levels (skipSpace rest) with
          | .error f => .error f
          | .ok (v, rest) =>
            let found := put name v found
            match skipSpace rest with
            | '\x7d' :: rest => .ok (found, rest)
            | ',' :: rest =>
              if _ : (skipSpace rest).length < r.length + 1 then
                spanMembers levels found (skipSpace rest)
              else .error .malformed
            | _ => .error .malformed
        else .error .malformed
      | _ => .error .malformed
    | none => .error .malformed
  | _ => .error .malformed
termination_by 2 * s.length + 1
decreasing_by all_goals (simp only [List.length_cons] at *; omega)

end

def read (levels : Nat) (s : List Char) : Except Fault Value :=
  match spanValue levels (skipSpace s) with
  | .error f => .error f
  | .ok (v, rest) => if (skipSpace rest).isEmpty then .ok v else .error .malformed

end DavQuery.Json
