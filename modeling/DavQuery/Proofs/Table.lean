import DavQuery.Query
import Mathlib.Data.List.Basic

/-! Tables: lists of pairs that are looked up by their first parts. -/

namespace DavQuery

theorem lookup_eq_some_iff_mem {α β : Type*} [BEq α] [LawfulBEq α] {l : List (α × β)}
    (hnodup : (l.map Prod.fst).Nodup) {key : α} {value : β} :
    l.lookup key = some value ↔ (key, value) ∈ l := by
  induction l with
  | nil => simp
  | cons p r ih =>
    rw [List.map_cons, List.nodup_cons] at hnodup
    rw [List.mem_cons, List.lookup_cons]
    cases hkey : key == p.1 with
    | true =>
      obtain rfl : key = p.1 := eq_of_beq hkey
      have hr : (p.1, value) ∉ r := fun h =>
        hnodup.1 (List.mem_map.2 ⟨_, h, rfl⟩)
      simp [Prod.ext_iff, hr, eq_comm]
    | false =>
      have hne : key ≠ p.1 := ne_of_beq_false hkey
      simp [Prod.ext_iff, hne, ih hnodup.2]

/-- The table with the value under the key: in the place of an earlier value, or at the end. -/
def put {α β : Type*} [DecidableEq α] (key : α) (value : β) : List (α × β) → List (α × β)
  | [] => [(key, value)]
  | p :: r => if p.1 = key then (key, value) :: r else p :: put key value r

theorem assign_eq_put (key value : String) (l : List (String × String)) :
    assign key value l = put key value l := by
  induction l with
  | nil => rfl
  | cons p r ih => rw [assign, put, ih]

theorem putEntry_eq_put (key : String) (entry : Entry) (l : List (String × Entry)) :
    putEntry key entry l = put key entry l := by
  induction l with
  | nil => rfl
  | cons p r ih => rw [putEntry, put, ih]

section Put
variable {α β : Type*} [DecidableEq α] {key k : α} {value v : β} {l : List (α × β)}

theorem lookup_put : (put key value l).lookup k = if k = key then some value else l.lookup k := by
  induction l with
  | nil => by_cases h : k = key <;> simp [put, h]
  | cons p r ih =>
    by_cases hp : p.1 = key
    · rw [put, if_pos hp, List.lookup_cons, List.lookup_cons, hp]
      by_cases h : k = key <;> simp [h, beq_false_of_ne]
    · rw [put, if_neg hp, List.lookup_cons, List.lookup_cons, ih]
      by_cases h : k = key
      · simp [h, Ne.symm hp, beq_false_of_ne]
      · simp [h]

theorem map_fst_put : (put key value l).map Prod.fst =
    if key ∈ l.map Prod.fst then l.map Prod.fst else l.map Prod.fst ++ [key] := by
  induction l with
  | nil => simp [put]
  | cons p r ih =>
    by_cases h : p.1 = key
    · simp [put, h]
    · simp only [put, if_neg h, List.map_cons, ih, List.mem_cons, Ne.symm h, false_or]
      split <;> simp

theorem nodup_put (h : (l.map Prod.fst).Nodup) : ((put key value l).map Prod.fst).Nodup := by
  rw [map_fst_put]
  split
  · exact h
  · rename_i hkey
    have hdisjoint : ∀ a ∈ l.map Prod.fst, ∀ b ∈ [key], a ≠ b := by
      rintro a ha b hb rfl
      exact hkey (List.mem_singleton.1 hb ▸ ha)
    exact List.nodup_append.2 ⟨h, List.pairwise_singleton .., hdisjoint⟩

theorem mem_put_iff (h : (l.map Prod.fst).Nodup) :
    (k, v) ∈ put key value l ↔ if k = key then v = value else (k, v) ∈ l := by
  rw [← lookup_eq_some_iff_mem (nodup_put h), lookup_put]
  split
  · rw [Option.some.injEq, eq_comm]
  · exact lookup_eq_some_iff_mem h

end Put

theorem map_fst_assign (key value : String) (l : List (String × String)) :
    (assign key value l).map Prod.fst =
      if key ∈ l.map Prod.fst then l.map Prod.fst else l.map Prod.fst ++ [key] := by
  rw [assign_eq_put, map_fst_put]

theorem assign_of_not_mem {key : String} (value : String) {l : List (String × String)}
    (h : key ∉ l.map Prod.fst) : assign key value l = l ++ [(key, value)] := by
  induction l with
  | nil => rfl
  | cons p r ih =>
    simp only [List.map_cons, List.mem_cons, not_or] at h
    rw [assign, if_neg (Ne.symm h.1), ih h.2, List.cons_append]

theorem ext_of_lookup {l l' : List (String × String)} (hkeys : l.map Prod.fst = l'.map Prod.fst)
    (hnodup : (l.map Prod.fst).Nodup) (h : ∀ k ∈ l.map Prod.fst, l.lookup k = l'.lookup k) :
    l = l' := by
  induction l generalizing l' with
  | nil => exact (List.map_eq_nil_iff.1 hkeys.symm).symm
  | cons p r ih =>
    obtain ⟨key, value⟩ := p
    obtain ⟨⟨key', value'⟩, r', rfl, hkey, hr⟩ := List.map_eq_cons_iff.1 hkeys.symm
    obtain rfl : key' = key := hkey
    rw [List.map_cons, List.nodup_cons] at hnodup
    obtain rfl : value = value' := by simpa using h key' (by simp)
    rw [ih hr.symm hnodup.2 fun k hk => ?_]
    have hne : (k == key') = false := beq_eq_false_iff_ne.2 fun e => hnodup.1 (e ▸ hk)
    simpa [List.lookup_cons, hne] using h k (by simp [hk])

end DavQuery
