import DavQuery.Calendar.Expression
import DavQuery.Failure
import DavQuery.Note
import DavQuery.Record

/-!
Criteria: a key that names an aspect of a record, and a value that the record is compared with. A
criterion of an unknown key always holds. A list of values is parted by commas.
-/

namespace DavQuery

open Calendar Text

structure Criterion where
  key : String
  value : String
  deriving Repr, DecidableEq

inductive Aspect where
  | extension
  | kind
  | minSize
  | maxSize
  | favorite
  | mimetype
  | tag
  | owner
  | modifiedAfter
  | modifiedBefore
  | hasPreview
  deriving Repr, DecidableEq

namespace Aspect

def keys : List (String × Aspect) :=
  [("extension", .extension), ("type", .kind), ("minsize", .minSize), ("maxsize", .maxSize),
    ("favorite", .favorite), ("mimetype", .mimetype), ("tag", .tag), ("owner", .owner),
    ("modifiedafter", .modifiedAfter), ("modifiedbefore", .modifiedBefore),
    ("haspreview", .hasPreview)]

def ofKey? (key : String) : Option Aspect := keys.lookup key

def comparesEmpty : Aspect → Bool
  | .favorite | .hasPreview => true
  | _ => false

end Aspect

namespace Criterion

def items (value : String) : List (List Char) :=
  (value.toList.splitOn ',').map fun item => lowerChars (trimChars item)

def saysYes (value : String) : Bool := value == "1" || value == "true"

/-- What is compared with the extensions wanted: the whole name if it has no extension. -/
def extensionOf (name : String) : List Char :=
  match cutLast '.' name.toList with
  | some (_, b) => lowerChars b
  | none => lowerChars name.toList

def hasExtension (r : Record) (value : String) : Bool :=
  let extension := extensionOf r.name
  !extension.isEmpty && (items value).contains extension

def hasMimetype (r : Record) (value : String) : Bool :=
  (items value).contains (lowerChars r.mimetype.toList)

def hasTag (r : Record) (value : String) : Bool :=
  (items value).any fun term => r.tags.any fun tag => occurs term (lowerChars tag.toList)

def hasOwner (r : Record) (value : String) : Bool :=
  occurs (lowerChars value.toList) (lowerChars r.owner.toList)

def hasKind (r : Record) (value : String) : Bool := lower r.kind == lower value

/-- A bound on the size; a value that starts with no number bounds nothing. -/
def withinBound (value : String) (test : Int → Bool) : Except Breach Bool :=
  match leadingInteger value.toList with
  | .absent => .ok true
  | .tooLong => .error .longNumber
  | .number n => .ok (test n)

def dates? (here : LocalTime) (r : Record) (value : String) :
    Except DateFault (Option (Stamp × Stamp)) := do
  let modified ← r.modifiedAt? here.zone
  let bound ← resolve? here value
  pure (do return (← modified, ← bound))

/-- A bound on the date; it fails when one of the two dates cannot be told. -/
def comparesDates (here : LocalTime) (r : Record) (value : String) (test : Stamp → Stamp → Bool) :
    Except Breach Bool :=
  match dates? here r value with
  | .ok (some (modified, bound)) => .ok (test modified bound)
  | .ok none => .ok false
  | .error fault => .error (.date fault)

def test (here : LocalTime) (r : Record) (value : String) : Aspect → Except Breach Bool
  | .extension => .ok (hasExtension r value)
  | .kind => .ok (hasKind r value)
  | .minSize => withinBound value fun n => n ≤ r.size
  | .maxSize => withinBound value fun n => r.size ≤ n
  | .favorite => .ok (r.favorite == saysYes value)
  | .mimetype => .ok (hasMimetype r value)
  | .tag => .ok (hasTag r value)
  | .owner => .ok (hasOwner r value)
  | .modifiedAfter => comparesDates here r value fun a b => b.instant < a.instant
  | .modifiedBefore => comparesDates here r value fun a b => a.instant < b.instant
  | .hasPreview => .ok (r.hasPreview == saysYes value)

/-- The aspect that the criterion compares; none for an unknown key, and none for an empty value
of most keys. -/
def aspect? (c : Criterion) : Option Aspect :=
  (Aspect.ofKey? c.key).filter fun a => !c.value.isEmpty || a.comparesEmpty

def holds (here : LocalTime) (r : Record) (c : Criterion) : Except Breach Bool :=
  match c.aspect? with
  | none => .ok true
  | some a => test here r c.value a

/-- What is noted while the criterion is looked at: dates that cannot be compared. -/
def notes (here : LocalTime) (r : Record) (c : Criterion) : List Note :=
  match c.aspect? with
  | some .modifiedAfter | some .modifiedBefore =>
    match dates? here r c.value with
    | .ok none => [.unusableDate c.key c.value r.name]
    | _ => []
  | _ => []

end Criterion

end DavQuery
