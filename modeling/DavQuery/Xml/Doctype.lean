import DavQuery.Xml.Entity

/-!
The document type declaration: which entities it declares, and which attributes its elements have
by default. Declarations of other kinds are checked for their form and forgotten. Parameter
entities are not followed; after a reference to one, declarations no longer count, unless the
document stands alone.
-/

namespace DavQuery.Xml

open Text

structure Doctype where
  /-- Whether the document is said to stand alone. -/
  standalone : Bool := false
  entities : List (List Char × Entity) := []
  /-- The default attributes: the element, the attribute and perhaps a value. -/
  defaults : List (List Char × List Char × Option (List Char)) := []
  /-- Whether other declarations may stand outside of the document. -/
  hasOthers : Bool := false
  /-- Whether declarations still count. -/
  counts : Bool := true
  deriving Repr, DecidableEq

namespace Doctype

def known (d : Doctype) : Entities := ⟨d.entities, d.hasOthers && !d.standalone⟩

inductive Part where
  /-- A name, be it with a colon inside. -/
  | name (s : List Char)
  /-- A word that is no name. -/
  | word (s : List Char)
  /-- A name with a sign of repetition. -/
  | repeated (s : List Char)
  | keyword (s : List Char)
  | literal (s : List Char)
  | percent
  | opens
  /-- A closing bracket, perhaps with a sign of repetition. -/
  | closes (sign : Option Char)
  | bar
  | comma
  deriving Repr, DecidableEq

def isRepetition (c : Char) : Bool := c == '?' || c == '*' || c == '+'

def isFollowedBy (marks : List Char) (s : List Char) : Bool :=
  match s with
  | c :: _ => isSpace c || marks.contains c
  | [] => false

def isWordChar (c : Char) : Bool := isNameChar c || c == ':'

def isName (s : List Char) : Bool := (spanName s).map (·.2) == some []

def spanWord (s : List Char) : Option (Part × List Char) :=
  let text := s.takeWhile isWordChar
  match s.dropWhile isWordChar with
  | [] => none
  | c :: r =>
    if text.isEmpty then none
    else if isRepetition c then if isName text then some (.repeated text, r) else none
    else if isFollowedBy ['>', ')', ',', '|', '[', '%'] (c :: r) then
      some (if isName text then .name text else .word text, c :: r)
    else none

def spanPart (s : List Char) : Option (Part × List Char) :=
  match s with
  | [] => none
  | '(' :: r => some (.opens, r)
  | '|' :: r => some (.bar, r)
  | ',' :: r => some (.comma, r)
  | ')' :: r =>
    match r with
    | [] => none
    | c :: r' =>
      if isRepetition c then some (.closes (some c), r')
      else if isFollowedBy ['>', ',', '|', ')'] r then some (.closes none, r)
      else none
  | '%' :: r => if isFollowedBy ['%'] r then some (.percent, r) else none
  | '#' :: r => do
    let (word, rest) ← spanPlainName r
    if isFollowedBy [')', '>', '%', '|'] rest then pure (.keyword word, rest) else none
  | c :: r =>
    if c = '"' ∨ c = '\'' then do
      let (text, rest) ← cutFirst c r
      if isFollowedBy ['>', '%', '['] rest then pure (.literal text, rest) else none
    else spanWord (c :: r)

def spanParts (s : List Char) : Option (List Part × List Char) :=
  match skipSpace s with
  | [] => none
  | c :: r =>
    if c = '>' ∨ c = '[' then some ([], c :: r)
    else
      match spanPart (c :: r) with
      | some (part, rest) =>
        if _ : rest.length < s.length then (spanParts rest).map fun p => (part :: p.1, p.2)
        else none
      | none => none
termination_by s.length

def isPublicId (s : List Char) : Bool :=
  s.all fun c =>
    c.isAlphanum || c == ' ' || c == '\n' || "-'()+,./:=?;!*#@$_%".toList.contains c

def isOutsideId (parts : List Part) : Bool :=
  match parts with
  | [.name n, .literal _] => n == "SYSTEM".toList
  | [.name n, .literal p, .literal _] => n == "PUBLIC".toList && isPublicId p
  | _ => false

def isNotationId (parts : List Part) : Bool :=
  match parts with
  | [.name n, .literal p] => n == "SYSTEM".toList || n == "PUBLIC".toList && isPublicId p
  | parts => isOutsideId parts

/-- The parts before a note of the notation of what is outside of the document. -/
def beforeNotation (parts : List Part) : List Part :=
  match parts.reverse with
  | .name kind :: .name n :: r =>
    if n = "NDATA".toList ∧ !kind.contains ':' then r.reverse else parts
  | _ => parts

/-- The text of a reference within the text of an entity: a character is put in, a reference to an
entity is kept. -/
def referenceText : Reference → List Char
  | .char c => [c]
  | .entity name => '&' :: name ++ [';']

def entityText? (s : List Char) : Option (List Char) :=
  match s with
  | [] => some []
  | c :: r =>
    if c = '%' then none
    else if c = '&' then
      match spanReference r with
      | some (reference, rest) =>
        if _ : rest.length < r.length + 1 then
          (entityText? rest).map (referenceText reference ++ ·)
        else none
      | none => none
    else (entityText? r).map (c :: ·)
termination_by s.length

def addEntity (d : Doctype) (name : List Char) (entity : Entity) : Doctype :=
  if !d.counts || (predefined? name).isSome || (d.entities.lookup name).isSome then d
  else { d with entities := d.entities ++ [(name, entity)] }

def declareEntity? (d : Doctype) : List Part → Option Doctype
  | [.percent, .name name, .literal value] =>
    if name.contains ':' then none
    else if d.counts then (entityText? value).map fun _ => d
    else some d
  | .percent :: .name name :: id => if !name.contains ':' && isOutsideId id then some d else none
  | [.name name, .literal value] =>
    if name.contains ':' then none
    else if d.counts then (entityText? value).map fun text => d.addEntity name (.internal text)
    else some d
  | .name name :: id =>
    if !name.contains ':' && isOutsideId (beforeNotation id) then some (d.addEntity name .outside)
    else none
  | _ => none

/-- Whether the parts end the content of an element that holds text and named elements. -/
def endsMixed (parts : List Part) : Bool :=
  match parts with
  | [.closes sign] => sign == some '*'
  | .bar :: .name _ :: r => endsMixed r
  | _ => false

/-- Whether the parts end the content of an element that holds elements. Each open bracket has the
mark that parts its items, once one has been seen; `item` tells whether an item comes next. -/
def endsGroups : Bool → List (Option Part) → List Part → Bool
  | true, marks, .opens :: r => endsGroups true (none :: marks) r
  | true, marks, .name _ :: r => endsGroups false marks r
  | true, marks, .repeated _ :: r => endsGroups false marks r
  | false, [_], [.closes _] => true
  | false, _ :: mark :: marks, .closes _ :: r => endsGroups false (mark :: marks) r
  | false, mark :: marks, part :: r =>
    (part == .bar || part == .comma) && (mark == none || mark == some part) &&
      endsGroups true (some part :: marks) r
  | _, _, _ => false

def isContentModel (parts : List Part) : Bool :=
  match parts with
  | [.name n] => n == "EMPTY".toList || n == "ANY".toList
  | .opens :: .keyword k :: r => k == "PCDATA".toList && (r == [.closes none] || endsMixed r)
  | .opens :: r => endsGroups true [none] r
  | _ => false

def attributeKinds : List String :=
  ["CDATA", "ID", "IDREF", "IDREFS", "ENTITY", "ENTITIES", "NMTOKEN", "NMTOKENS"]

def afterChoices (namesOnly : Bool) : List Part → Option (List Part)
  | .name n :: r =>
    if namesOnly && n.contains ':' then none
    else
      match r with
      | .closes none :: r => some r
      | .bar :: r => afterChoices namesOnly r
      | _ => none
  | .word _ :: r =>
    if namesOnly then none
    else
      match r with
      | .closes none :: r => some r
      | .bar :: r => afterChoices namesOnly r
      | _ => none
  | _ => none

def afterKind : List Part → Option (List Part)
  | .opens :: r => afterChoices false r
  | .name n :: .opens :: r => if n = "NOTATION".toList then afterChoices true r else none
  | .name n :: r => if attributeKinds.any (·.toList == n) then some r else none
  | _ => none

/-- The default value after the kind of an attribute, if there is one, and what follows. -/
def spanDefault : List Part → Option (Option (List Char) × List Part)
  | .literal value :: r => some (some value, r)
  | .keyword k :: .literal value :: r =>
    if k = "FIXED".toList then some (some value, r) else none
  | .keyword k :: r =>
    if k = "IMPLIED".toList ∨ k = "REQUIRED".toList then some (none, r) else none
  | _ => none

/-- The attributes that the parts declare, each with its default value as it is written. -/
def attributesOf? (parts : List Part) : Option (List (List Char × Option (List Char))) :=
  match parts with
  | [] => some []
  | .name name :: r =>
    match (afterKind r).bind spanDefault with
    | some (value, rest) =>
      if _ : rest.length < r.length + 1 then (attributesOf? rest).map ((name, value) :: ·)
      else none
    | none => none
  | _ => none
termination_by parts.length

def addDefault? (d : Doctype) (element : List Char) (a : List Char × Option (List Char)) :
    Option Doctype :=
  if !d.counts then some d
  else do
    let value ←
      match a.2 with
      | some text =>
        (valuePieces? text).bind fun pieces =>
          (d.known.expandValue d.entities pieces).map some
      | none => some none
    if d.defaults.any fun p => p.1 = element ∧ p.2.1 = a.1 then pure d
    else pure { d with defaults := d.defaults ++ [(element, a.1, value)] }

def declare? (d : Doctype) (kind : List Char) (parts : List Part) : Option Doctype :=
  if kind = "ENTITY".toList then d.declareEntity? parts
  else
    match parts with
    | .name name :: r =>
      if kind = "ATTLIST".toList then do (← attributesOf? r).foldlM (·.addDefault? name) d
      else if kind = "ELEMENT".toList then if isContentModel r then some d else none
      else if kind = "NOTATION".toList then
        if !name.contains ':' && isNotationId r then some d else none
      else none
    | _ => none

def spanDeclaration (d : Doctype) (s : List Char) : Option (Doctype × List Char) := do
  let r ← after? ['<', '!'] s
  let kind := r.takeWhile Char.isAlpha
  let r := r.drop kind.length
  if startsWithSpace r then
    let (parts, rest) ← spanParts r
    let rest ← after? ['>'] rest
    pure (← d.declare? kind parts, rest)
  else none

def afterParameter (s : List Char) : Option (List Char) := do
  let (_, rest) ← spanPlainName (← after? ['%'] s)
  after? [';'] rest

def forgo (d : Doctype) : Doctype := { d with hasOthers := true, counts := d.standalone }

def readDeclarations (d : Doctype) (s : List Char) : Option (Doctype × List Char) :=
  let r := skipRemarks s
  match after? [']'] r with
  | some rest => some (d, rest)
  | none =>
    let next :=
      match afterParameter r with
      | some rest => some (d.forgo, rest)
      | none => d.spanDeclaration r
    match next with
    | some (d, rest) => if _ : rest.length < s.length then d.readDeclarations rest else none
    | none => none
termination_by s.length

def span (standalone : Bool) (s : List Char) : Option (Doctype × List Char) :=
  if startsWithSpace s then
    match spanParts s with
    | some (.name _ :: id, rest) =>
      let d : Doctype := { standalone, hasOthers := !id.isEmpty }
      if id.isEmpty || isOutsideId id then
        match rest with
        | '[' :: r => do
          let (d, rest) ← d.readDeclarations r
          pure (d, ← after? ['>'] (skipSpace rest))
        | _ => (after? ['>'] rest).map (d, ·)
      else none
    | _ => none
  else none

end Doctype

end DavQuery.Xml
