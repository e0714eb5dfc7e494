import Mathlib.Data.List.Forall2

/-! Steps that may fail: what succeeds has succeeded in all its parts. Where a list is gone through
in order all steps succeed and give the list of their values, or the whole fails because some step
does. -/

namespace DavQuery

section
variable {α β ε ε' : Type} {x : Except ε α}

theorem bind_eq_ok_iff {f : α → Except ε β} {b : β} :
    x >>= f = .ok b ↔ ∃ a, x = .ok a ∧ f a = .ok b := by
  cases x <;> simp [bind, Except.bind]

theorem map_eq_ok_iff {f : α → β} {b : β} : x.map f = .ok b ↔ ∃ a, x = .ok a ∧ f a = b := by
  cases x <;> simp [Except.map]

theorem mapError_eq_ok_iff {f : ε → ε'} {a : α} : x.mapError f = .ok a ↔ x = .ok a := by
  cases x <;> simp [Except.mapError]

theorem toOption_eq_some_iff {a : α} : x.toOption = some a ↔ x = .ok a := by
  cases x <;> simp [Except.toOption]

theorem exists_eq_ok_iff : (∃ a, x = .ok a) ↔ ¬ ∃ e, x = .error e := by
  cases x <;> simp

theorem exists_map_eq_ok_iff {f : α → β} : (∃ b, x.map f = .ok b) ↔ ∃ a, x = .ok a := by
  simp [map_eq_ok_iff]

end

variable {α β ε : Type} {f : α → Except ε β} {l : List α}

theorem exists_mapM_eq_error_iff : (∃ e, l.mapM f = .error e) ↔ ∃ a ∈ l, ∃ e, f a = .error e := by
  induction l with
  | nil => simp [pure, Except.pure]
  | cons a l ih =>
    simp only [List.mapM_cons, List.mem_cons, exists_eq_or_imp, ← ih]
    cases f a with
    | error e => simp [bind, Except.bind]
    | ok v => cases l.mapM f <;> simp [bind, Except.bind, pure, Except.pure]

theorem exists_of_mapM_eq_error {e : ε} (h : l.mapM f = .error e) : ∃ a ∈ l, f a = .error e := by
  induction l with
  | nil => simp [pure, Except.pure] at h
  | cons a l ih =>
    rw [List.mapM_cons] at h
    simp only [List.mem_cons, exists_eq_or_imp]
    cases ha : f a with
    | error e' => exact .inl (by simpa [ha, bind, Except.bind] using h)
    | ok v =>
      cases hl : l.mapM f with
      | error e' => exact .inr (ih (by simpa [ha, hl, bind, Except.bind] using h))
      | ok values => simp [ha, hl, bind, Except.bind, pure, Except.pure] at h

theorem mapM_eq_ok_iff {values : List β} :
    l.mapM f = .ok values ↔ List.Forall₂ (fun a b => f a = .ok b) l values := by
  induction l generalizing values with
  | nil => simp [pure, Except.pure, eq_comm]
  | cons a l ih =>
    rw [List.mapM_cons, List.forall₂_cons_left_iff]
    simp only [← ih]
    cases f a with
    | error e => simp [bind, Except.bind]
    | ok v => cases l.mapM f <;> simp [bind, Except.bind, pure, Except.pure, eq_comm]

end DavQuery
