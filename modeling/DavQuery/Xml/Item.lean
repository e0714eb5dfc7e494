import DavQuery.Xml.Entity

/-!
The items of which the content of an element is made: text, tags and references to entities.
Comments and instructions are no items.
-/

namespace DavQuery.Xml

open Text

inductive Item where
  | text (s : List Char)
  | entity (name : List Char)
  /-- A start tag; `closed` tells that it ends its element too. -/
  | opens (name : List Char) (attributes : List (List Char × List ValuePiece)) (closed : Bool)
  | closes (name : List Char)
  deriving Repr, DecidableEq

namespace Item

def ofReference : Reference → Item
  | .char c => .text [c]
  | .entity name =>
    match predefined? name with
    | some c => .text [c]
    | none => .entity name

def depthAfter (depth : Nat) : Item → Nat
  | .opens _ _ false => depth + 1
  | .closes _ => depth - 1
  | _ => depth

def isTag : Item → Bool
  | .opens _ _ _ | .closes _ => true
  | _ => false

def spanAttribute (s : List Char) : Option ((List Char × List ValuePiece) × List Char) := do
  let (name, r) ← spanName s
  match skipSpace (← after? ['='] (skipSpace r)) with
  | [] => none
  | quote :: r =>
    if quote = '"' ∨ quote = '\'' then
      let (value, rest) ← cutFirst quote r
      pure ((name, ← valuePieces? value), rest)
    else none

/-- The attributes of a start tag, and what follows them; white space stands before each. -/
def spanAttributes (s : List Char) :
    Option (List (List Char × List ValuePiece) × List Char) :=
  match skipSpace s with
  | [] => none
  | c :: r =>
    if c = '>' ∨ c = '/' then some ([], c :: r)
    else if startsWithSpace s then
      match spanAttribute (c :: r) with
      | some (a, rest) =>
        if _ : rest.length < s.length then (spanAttributes rest).map fun p => (a :: p.1, p.2)
        else none
      | none => none
    else none
termination_by s.length

def areDistinct (names : List (List Char)) : Bool :=
  match names with
  | [] => true
  | n :: r => !r.contains n && areDistinct r

def spanStartTag (s : List Char) : Option (Item × List Char) := do
  let (name, r) ← spanName s
  let (attributes, r) ← spanAttributes r
  if !areDistinct (attributes.map (·.1)) then none
  else
    match r with
    | '>' :: rest => pure (.opens name attributes false, rest)
    | '/' :: '>' :: rest => pure (.opens name attributes true, rest)
    | _ => none

def spanEndTag (s : List Char) : Option (Item × List Char) := do
  let (name, r) ← spanName s
  pure (.closes name, ← after? ['>'] (skipSpace r))

def spanText (s : List Char) : Option (Item × List Char) :=
  let isText (c : Char) := c != '<' && c != '&'
  let run := s.takeWhile isText
  if occurs [']', ']', '>'] run then none else some (.text run, s.dropWhile isText)

def span (s : List Char) : Option (Option Item × List Char) :=
  match s with
  | '<' :: '/' :: r => (spanEndTag r).map fun p => (some p.1, p.2)
  | '<' :: '!' :: '[' :: r => do
    let (inside, rest) ← cutAt [']', ']', '>'] (← after? "CDATA[".toList r)
    pure (some (.text inside), rest)
  | '<' :: c :: r =>
    if c = '!' ∨ c = '?' then (skipRemark s).map (none, ·)
    else (spanStartTag (c :: r)).map fun p => (some p.1, p.2)
  | '&' :: r => (spanReference r).map fun p => (some (ofReference p.1), p.2)
  | s => (spanText s).map fun p => (some p.1, p.2)

def readAll? (s : List Char) : Option (List Item) :=
  if s.isEmpty then some []
  else
    match span s with
    | some (item, rest) =>
      if _ : rest.length < s.length then (readAll? rest).map (item.toList ++ ·) else none
    | none => none
termination_by s.length

/-- The items up to the tag with which one stands at the top again, and what follows it. -/
def spanElement (depth : Nat) (s : List Char) : Option (List Item × List Char) :=
  match span s with
  | some (some item, rest) =>
    let depth := item.depthAfter depth
    if item.isTag && depth == 0 then some ([item], rest)
    else if _ : rest.length < s.length then
      (spanElement depth rest).map fun p => (item :: p.1, p.2)
    else none
  | some (none, rest) => if _ : rest.length < s.length then spanElement depth rest else none
  | none => none
termination_by s.length

end Item

end DavQuery.Xml
