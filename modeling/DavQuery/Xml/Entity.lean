import DavQuery.Xml.Scan

/-!
Entities and the values of attributes in which they are put in. While an entity is being put in it
is not known, so none can hold itself.
-/

namespace DavQuery.Xml

open Text

inductive Entity where
  | internal (text : List Char)
  | outside
  deriving Repr, DecidableEq

structure Entities where
  declared : List (List Char × Entity) := []
  /-- Whether a reference to an entity that is not declared is let pass in a value. -/
  lenient : Bool := false
  deriving Repr, DecidableEq

def without (name : List Char) (known : List (List Char × Entity)) : List (List Char × Entity) :=
  known.filter (·.1 ≠ name)

theorem length_without_lt {name : List Char} {known : List (List Char × Entity)} {e : Entity}
    (h : known.lookup name = some e) : (without name known).length < known.length := by
  induction known with
  | nil => simp at h
  | cons p r ih =>
    by_cases hp : p.1 = name
    · have : (without name (p :: r)).length ≤ r.length := by
        simpa [without, hp] using List.length_filter_le _ r
      simp only [List.length_cons]; omega
    · have hb : (name == p.1) = false := by simpa using fun e => hp e.symm
      rw [List.lookup_cons, hb] at h
      have := ih h
      simp only [without, List.length_cons] at this ⊢
      rw [List.filter_cons_of_pos (by simpa using hp), List.length_cons]
      omega

inductive ValuePiece where
  | literal (c : Char)
  | entity (name : List Char)
  deriving Repr, DecidableEq

def Reference.piece : Reference → ValuePiece
  | .char c => .literal c
  | .entity name => .entity name

/-- The pieces of a value as it is written. White space becomes blanks; `<` is not let in. -/
def valuePieces? (s : List Char) : Option (List ValuePiece) :=
  match s with
  | [] => some []
  | c :: r =>
    if c = '<' then none
    else if c = '&' then
      match spanReference r with
      | some (reference, rest) =>
        if _ : rest.length < r.length + 1 then
          (valuePieces? rest).map (reference.piece :: ·)
        else none
      | none => none
    else (valuePieces? r).map (.literal (if isSpace c then ' ' else c) :: ·)
termination_by s.length

/-- The value with its entities put in; `known` holds those that are not being put in already. -/
def Entities.expandValue (entities : Entities) (known : List (List Char × Entity))
    (pieces : List ValuePiece) : Option (List Char) :=
  match pieces with
  | [] => some []
  | .literal c :: r => (entities.expandValue known r).map (c :: ·)
  | .entity name :: r =>
    match predefined? name with
    | some c => (entities.expandValue known r).map (c :: ·)
    | none =>
      match h : known.lookup name with
      | some (.internal text) =>
        have := length_without_lt h
        match valuePieces? text with
        | some inner => do
          let start ← entities.expandValue (without name known) inner
          pure (start ++ (← entities.expandValue known r))
        | none => none
      | some .outside => none
      | none =>
        if entities.lenient && (entities.declared.lookup name).isNone then
          entities.expandValue known r
        else none
termination_by (known.length, pieces.length)

end DavQuery.Xml
