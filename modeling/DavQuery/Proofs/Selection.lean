import DavQuery.Selection
import Mathlib.Data.List.Basic

/-! Selecting records by criteria that may break. A record is looked at up to the first criterion
that does not hold, and a list of records up to the first that breaks. -/

namespace DavQuery
open Calendar

namespace Record

theorem meets_cons_of_holds {here : LocalTime} {r : Record} {c : Criterion}
    (h : c.holds here r = .ok true) (cs : List Criterion) :
    r.meets here (c :: cs) = r.meets here cs := by
  rw [meets, h]

theorem meets_eq_true_iff {here : LocalTime} {r : Record} {cs : List Criterion} :
    r.meets here cs = .ok true ↔ ∀ c ∈ cs, c.holds here r = .ok true := by
  induction cs with
  | nil => simp [meets]
  | cons c cs ih =>
    rw [List.forall_mem_cons, ← ih, meets]
    split <;> simp_all

theorem meets_eq_error_iff {here : LocalTime} {r : Record} {cs : List Criterion} {b : Breach} :
    r.meets here cs = .error b ↔ ∃ done c rest, cs = done ++ c :: rest ∧
      (∀ d ∈ done, d.holds here r = .ok true) ∧ c.holds here r = .error b := by
  constructor
  · intro h
    induction cs with
    | nil => simp [meets] at h
    | cons c cs ih =>
      cases hc : c.holds here r with
      | error e =>
        obtain rfl : e = b := by simpa [meets, hc] using h
        exact ⟨[], c, cs, rfl, by simp, hc⟩
      | ok kept =>
        cases kept with
        | false => simp [meets, hc] at h
        | true =>
          rw [meets_cons_of_holds hc] at h
          obtain ⟨done, d, rest, rfl, hdone, hd⟩ := ih h
          refine ⟨c :: done, d, rest, rfl, ?_, hd⟩
          exact List.forall_mem_cons.2 ⟨hc, hdone⟩
  · rintro ⟨done, c, rest, rfl, hdone, hc⟩
    induction done with
    | nil => simp [meets, hc]
    | cons d done ih =>
      rw [List.forall_mem_cons] at hdone
      rw [List.cons_append, meets_cons_of_holds hdone.1]
      exact ih hdone.2

end Record

namespace Selection

theorem select_eq_ok_iff {here : LocalTime} {cs : List Criterion} {rs kept : List Record} :
    select here cs rs = .ok kept ↔ (∀ r ∈ rs, ∃ met, r.meets here cs = .ok met) ∧
      kept = rs.filter fun r => r.meets here cs = .ok true := by
  induction rs generalizing kept with
  | nil => simp [select, eq_comm]
  | cons r rs ih =>
    rw [select, List.forall_mem_cons]
    cases hr : r.meets here cs with
    | error e => simp [bind, Except.bind]
    | ok met =>
      cases hs : select here cs rs with
      | error e =>
        have hno : ¬ ∀ x ∈ rs, ∃ met, x.meets here cs = .ok met := fun h => by
          simp [ih.2 ⟨h, rfl⟩] at hs
        simp only [bind, Except.bind, reduceCtorEq, false_iff]
        exact fun h => hno h.1.2
      | ok rest =>
        obtain ⟨hall, rfl⟩ := ih.1 hs
        have hboth : (∃ m, Except.ok (ε := Breach) met = .ok m) ∧
            ∀ x ∈ rs, ∃ m, x.meets here cs = .ok m := ⟨⟨met, rfl⟩, hall⟩
        rw [and_iff_right hboth]
        simp only [bind, Except.bind, pure, Except.pure, List.filter_cons, hr, Except.ok.injEq]
        cases met <;> simp [eq_comm]

theorem exists_select_eq_error_iff {here : LocalTime} {cs : List Criterion} {rs : List Record} :
    (∃ b, select here cs rs = .error b) ↔ ∃ r ∈ rs, ∃ b, r.meets here cs = .error b := by
  constructor
  · rintro ⟨b, hb⟩
    by_contra hno
    have hall : ∀ r ∈ rs, ∃ met, r.meets here cs = .ok met := by
      intro r hr
      cases hm : r.meets here cs with
      | ok met => exact ⟨met, rfl⟩
      | error e => exact absurd ⟨r, hr, e, hm⟩ hno
    simp [select_eq_ok_iff.2 ⟨hall, rfl⟩] at hb
  · rintro ⟨r, hr, b, hb⟩
    cases hs : select here cs rs with
    | error e => exact ⟨e, rfl⟩
    | ok kept =>
      obtain ⟨met, hm⟩ := (select_eq_ok_iff.1 hs).1 r hr
      simp [hb] at hm

end Selection

end DavQuery
