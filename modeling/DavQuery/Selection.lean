import DavQuery.Criterion

/-!
The records that meet a list of criteria. Criteria are looked at in order, up to the first that
does not hold.
-/

namespace DavQuery

open Calendar

namespace Record

/-- Whether the record meets all criteria; those after the first that fails are not looked at. -/
def meets (here : LocalTime) (r : Record) : List Criterion → Except Breach Bool
  | [] => .ok true
  | c :: cs =>
    match c.holds here r with
    | .ok true => r.meets here cs
    | .ok false => .ok false
    | .error e => .error e

def notes (here : LocalTime) (r : Record) : List Criterion → List Note
  | [] => []
  | c :: cs =>
    c.notes here r ++
      match c.holds here r with
      | .ok true => r.notes here cs
      | _ => []

end Record

namespace Selection

def select (here : LocalTime) (criteria : List Criterion) :
    List Record → Except Breach (List Record)
  | [] => .ok []
  | r :: rs => do
    let kept ← r.meets here criteria
    let rest ← select here criteria rs
    pure (if kept then r :: rest else rest)

def notes (here : LocalTime) (criteria : List Criterion) : List Record → List Note
  | [] => []
  | r :: rs =>
    r.notes here criteria ++
      match r.meets here criteria with
      | .ok _ => notes here criteria rs
      | .error _ => []

end Selection

end DavQuery
