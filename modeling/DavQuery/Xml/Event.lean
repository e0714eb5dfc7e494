import DavQuery.Xml.Doctype
import DavQuery.Xml.Item

/-!
What is left of the items of a document once its entities are put in: text and tags. An entity puts
in whole elements only.
-/

namespace DavQuery.Xml

open Text

inductive Event where
  | text (s : List Char)
  | opens (name : List Char) (attributes : List (List Char × List Char))
  | closes (name : List Char)
  deriving Repr, DecidableEq

namespace Event

/-- Whether each tag within the events has its counterpart, so many being open before. -/
def isBalanced : Nat → List Event → Bool
  | depth, [] => depth == 0
  | depth, .text _ :: r => isBalanced depth r
  | depth, .opens _ _ :: r => isBalanced (depth + 1) r
  | 0, .closes _ :: _ => false
  | depth + 1, .closes _ :: r => isBalanced depth r

def withDefaults (d : Doctype) (element : List Char) (attributes : List (List Char × List Char)) :
    List (List Char × List Char) :=
  attributes ++ d.defaults.filterMap fun (e, name, value) =>
    if e = element ∧ (attributes.lookup name).isNone then value.map (name, ·) else none

def ofStartTag (d : Doctype) (known : List (List Char × Entity)) (name : List Char)
    (attributes : List (List Char × List ValuePiece)) (closed : Bool) : Option (List Event) := do
  let values ← attributes.mapM fun (n, pieces) => (d.known.expandValue known pieces).map (n, ·)
  let start := Event.opens name (withDefaults d name values)
  pure (if closed then [start, .closes name] else [start])

/-- The events of items; `known` holds the entities that are not being put in already. -/
def ofItems? (d : Doctype) (known : List (List Char × Entity)) (items : List Item) :
    Option (List Event) :=
  match items with
  | [] => some []
  | .text s :: r => (ofItems? d known r).map (.text s :: ·)
  | .closes name :: r => (ofItems? d known r).map (.closes name :: ·)
  | .opens name attributes closed :: r => do
    let start ← ofStartTag d known name attributes closed
    pure (start ++ (← ofItems? d known r))
  | .entity name :: r =>
    match h : known.lookup name with
    | some (.internal inner) =>
      have := length_without_lt h
      match Item.readAll? inner with
      | some items => do
        let start ← ofItems? d (without name known) items
        if isBalanced 0 start then pure (start ++ (← ofItems? d known r)) else none
      | none => none
    | _ => none
termination_by (known.length, items.length)

end Event

end DavQuery.Xml
