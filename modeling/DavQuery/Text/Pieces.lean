/-!
Cutting lists of characters: at the first or last occurrence of a character and at the first
occurrence of a text. A carriage return, alone or before a line feed, ends a line as a line feed
does.
-/

namespace DavQuery.Text

def cutFirst (sep : Char) : List Char → Option (List Char × List Char)
  | [] => none
  | c :: r => if c = sep then some ([], r) else (cutFirst sep r).map fun p => (c :: p.1, p.2)

def cutLast (sep : Char) : List Char → Option (List Char × List Char)
  | [] => none
  | c :: r =>
    match cutLast sep r with
    | some p => some (c :: p.1, p.2)
    | none => if c = sep then some ([], r) else none

def cutAt (needle : List Char) : List Char → Option (List Char × List Char)
  | [] => if needle = [] then some ([], []) else none
  | c :: r =>
    if needle.isPrefixOf (c :: r) then some ([], (c :: r).drop needle.length)
    else (cutAt needle r).map fun p => (c :: p.1, p.2)

def occurs (needle : List Char) (s : List Char) : Bool := (cutAt needle s).isSome

theorem cutFirst_eq_some {sep : Char} {s a b : List Char} (h : cutFirst sep s = some (a, b)) :
    s = a ++ sep :: b ∧ sep ∉ a := by
  induction s generalizing a b with
  | nil => simp [cutFirst] at h
  | cons c r ih =>
    by_cases hc : c = sep
    · simp only [cutFirst, hc, if_true, Option.some.injEq, Prod.mk.injEq] at h
      obtain ⟨rfl, rfl⟩ := h
      simp [hc]
    · simp only [cutFirst, hc, if_false, Option.map_eq_some_iff] at h
      obtain ⟨⟨x, y⟩, hxy, heq⟩ := h
      simp only [Prod.mk.injEq] at heq
      obtain ⟨rfl, rfl⟩ := heq
      obtain ⟨hr, hn⟩ := ih hxy
      refine ⟨by simp [hr], ?_⟩
      simp only [List.mem_cons, not_or]
      exact ⟨fun e => hc e.symm, hn⟩

theorem cutLast_ne_none {sep : Char} {s : List Char} (h : sep ∈ s) : cutLast sep s ≠ none := by
  induction s with
  | nil => simp at h
  | cons c r ih =>
    cases hr : cutLast sep r with
    | some p => simp [cutLast, hr]
    | none =>
      by_cases hc : c = sep
      · simp [cutLast, hr, hc]
      · rcases List.mem_cons.1 h with e | e
        · exact absurd e.symm hc
        · exact absurd hr (ih e)

theorem cutLast_eq_some {sep : Char} {s a b : List Char} (h : cutLast sep s = some (a, b)) :
    s = a ++ sep :: b ∧ sep ∉ b := by
  induction s generalizing a b with
  | nil => simp [cutLast] at h
  | cons c r ih =>
    cases hr : cutLast sep r with
    | some p =>
      simp only [cutLast, hr, Option.some.injEq, Prod.mk.injEq] at h
      obtain ⟨rfl, rfl⟩ := h
      obtain ⟨h1, h2⟩ := ih (a := p.1) (b := p.2) (by simp [hr])
      exact ⟨by simpa using h1, h2⟩
    | none =>
      by_cases hc : c = sep
      · simp only [cutLast, hr, hc, if_true, Option.some.injEq, Prod.mk.injEq] at h
        obtain ⟨rfl, rfl⟩ := h
        refine ⟨by simp [hc], fun hm => ?_⟩
        exact absurd hr (cutLast_ne_none hm)
      · simp [cutLast, hr, hc] at h

def unifyLineEnds : List Char → List Char
  | [] => []
  | '\r' :: '\n' :: r => '\n' :: unifyLineEnds r
  | c :: r => (if c = '\r' then '\n' else c) :: unifyLineEnds r

theorem unifyLineEnds_of_not_mem {s : List Char} (h : '\r' ∉ s) : unifyLineEnds s = s := by
  induction s with
  | nil => rfl
  | cons c r ih =>
    have hc : c ≠ '\r' := fun e => h (by simp [e])
    have hr : '\r' ∉ r := fun e => h (List.mem_cons_of_mem _ e)
    rw [unifyLineEnds]
    · simp [hc, ih hr]
    · rintro t rfl
      exact fun _ => absurd rfl hc

end DavQuery.Text
