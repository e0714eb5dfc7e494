import DavQuery.Text.Pieces
import Mathlib.Data.List.Basic
import Mathlib.Data.List.TakeWhile

/-! Cutting at the first occurrence of a character, and splitting at all of them: the parts of a
split, put together again from the second on, are what the cut leaves. Lines are split off as they
were written. -/

namespace DavQuery.Text

theorem span_append_of_head {p : Char → Bool} {run s : List Char} (h : ∀ c ∈ run, p c = true)
    (hs : ∀ c, s.head? = some c → p c = false) :
    (run ++ s).takeWhile p = run ∧ (run ++ s).dropWhile p = s := by
  rw [List.takeWhile_append_of_pos h, List.dropWhile_append_of_pos h]
  cases s with
  | nil => simp
  | cons c r =>
    have hc : ¬ p c = true := by simp [hs c rfl]
    rw [List.takeWhile_cons_of_neg hc, List.dropWhile_cons_of_neg hc, List.append_nil]
    exact ⟨rfl, rfl⟩

theorem occurs_nil (s : List Char) : occurs [] s = true := by
  cases s <;> rfl

theorem cutFirst_eq_none_iff {sep : Char} {s : List Char} : cutFirst sep s = none ↔ sep ∉ s := by
  induction s with
  | nil => simp [cutFirst]
  | cons c r ih =>
    by_cases h : c = sep
    · simp [cutFirst, h]
    · simp [cutFirst, h, ih, Ne.symm h]

theorem cutLast_eq_none_iff {sep : Char} {s : List Char} : cutLast sep s = none ↔ sep ∉ s := by
  refine ⟨fun h hmem => cutLast_ne_none hmem h, fun h => ?_⟩
  by_contra hsome
  obtain ⟨p, hp⟩ := Option.ne_none_iff_exists'.1 hsome
  exact h (by simp [(cutLast_eq_some (a := p.1) (b := p.2) hp).1])

theorem cutFirst_append {sep : Char} {a : List Char} (h : sep ∉ a) (b : List Char) :
    cutFirst sep (a ++ sep :: b) = some (a, b) := by
  induction a with
  | nil => simp [cutFirst]
  | cons c r ih =>
    simp only [List.mem_cons, not_or] at h
    simp [cutFirst, Ne.symm h.1, ih h.2]

theorem cutFirst_append_of_notMem_left {sep : Char} {a : List Char} (h : sep ∉ a) (s : List Char) :
    cutFirst sep (a ++ s) = (cutFirst sep s).map fun p => (a ++ p.1, p.2) := by
  induction a with
  | nil => simp
  | cons c r ih =>
    simp only [List.mem_cons, not_or] at h
    simp [cutFirst, Ne.symm h.1, ih h.2, Function.comp_def]

theorem cutFirst_append_of_notMem_right {sep : Char} {b : List Char} (h : sep ∉ b)
    (s : List Char) :
    cutFirst sep (s ++ b) = (cutFirst sep s).map fun p => (p.1, p.2 ++ b) := by
  induction s with
  | nil => simp [cutFirst, cutFirst_eq_none_iff.2 h]
  | cons c r ih =>
    by_cases hc : c = sep
    · simp [cutFirst, hc]
    · simp [cutFirst, hc, ih, Function.comp_def]

theorem intercalate_splitOn_eq_map (x y : Char) (s : List Char) :
    [y].intercalate (s.splitOn x) = s.map fun c => if c = x then y else c := by
  induction s with
  | nil => simp
  | cons c r ih =>
    obtain ⟨first, rest, hr⟩ := List.exists_cons_of_ne_nil (List.splitOn_ne_nil x r)
    rw [hr] at ih
    rw [List.splitOn_cons_eq_if_modifyHead, hr, List.map_cons, ← ih]
    by_cases h : c = x
    · simp [h, List.intercalate_cons_cons]
    · cases rest <;> simp [h, List.intercalate_cons_cons]

theorem splitOn_eq_cons_iff {sep : Char} {s first : List Char} {rest : List (List Char)}
    (hrest : rest ≠ []) :
    s.splitOn sep = first :: rest ↔
      ∃ b, cutFirst sep s = some (first, b) ∧ b.splitOn sep = rest := by
  constructor
  · intro h
    cases hs : cutFirst sep s with
    | none =>
      rw [List.splitOn_eq_singleton (cutFirst_eq_none_iff.1 hs), List.cons.injEq] at h
      exact absurd h.2.symm hrest
    | some p =>
      obtain ⟨e, hn⟩ := cutFirst_eq_some (a := p.1) (b := p.2) hs
      rw [e, List.splitOn_append_cons_self_of_not_mem hn, List.cons.injEq] at h
      exact ⟨p.2, by rw [← h.1], h.2⟩
  · rintro ⟨b, hb, rfl⟩
    obtain ⟨e, hn⟩ := cutFirst_eq_some hb
    rw [e, List.splitOn_append_cons_self_of_not_mem hn]

theorem mem_of_mem_splitOnP {p : Char → Bool} {s part : List Char} (h : part ∈ s.splitOnP p) :
    ∀ c ∈ part, c ∈ s ∧ p c = false := by
  induction s generalizing part with
  | nil =>
    rw [List.splitOnP_nil, List.mem_singleton] at h
    simp [h]
  | cons x r ih =>
    obtain ⟨first, rest, hr⟩ := List.exists_cons_of_ne_nil (List.splitOnP_ne_nil p r)
    rw [hr] at ih
    have hrest {part : List Char} (hpart : part ∈ first :: rest) :
        ∀ c ∈ part, c ∈ x :: r ∧ p c = false :=
      fun c hc => ⟨List.mem_cons_of_mem x (ih hpart c hc).1, (ih hpart c hc).2⟩
    rw [List.splitOnP_cons_eq_if_modifyHead, hr] at h
    split_ifs at h with hx
    · rcases List.mem_cons.1 h with rfl | h
      · simp
      · exact hrest h
    · rw [List.modifyHead_cons, List.mem_cons] at h
      rcases h with rfl | h
      · rw [List.forall_mem_cons]
        exact ⟨⟨List.mem_cons_self, Bool.eq_false_iff.2 hx⟩, hrest List.mem_cons_self⟩
      · exact hrest (List.mem_cons_of_mem first h)

theorem not_mem_of_mem_splitOn {sep : Char} {s part : List Char} (h : part ∈ s.splitOn sep) :
    sep ∉ part := fun hsep => by
  have := (mem_of_mem_splitOnP h sep hsep).2
  simp at this

theorem flatMap_cons_splitOn (sep : Char) (s : List Char) :
    ((s.splitOn sep).flatMap fun part => sep :: part) = sep :: s := by
  induction s with
  | nil => simp
  | cons c r ih =>
    obtain ⟨first, rest, hr⟩ := List.exists_cons_of_ne_nil (List.splitOn_ne_nil sep r)
    rw [hr, List.flatMap_cons, List.cons_append, List.cons.injEq] at ih
    rw [List.splitOn_cons_eq_if_modifyHead, hr]
    by_cases hc : c = sep
    · simp [hc, ih.2]
    · simp [hc, ih.2]

theorem splitOn_append_replicate {sep : Char} {s : List Char} (h : sep ∉ s) (n : Nat) :
    (s ++ List.replicate n sep).splitOn sep = s :: List.replicate n [] := by
  induction n generalizing s with
  | zero => simp [List.splitOn_eq_singleton h]
  | succ n ih =>
    have hrest := ih (s := []) List.not_mem_nil
    rw [List.nil_append] at hrest
    rw [List.replicate_succ, List.splitOn_append_cons_self_of_not_mem h, hrest,
      ← List.replicate_succ]

theorem not_mem_intercalate {x sep : Char} {lines : List (List Char)} (hsep : x ≠ sep)
    (h : ∀ l ∈ lines, x ∉ l) : x ∉ [sep].intercalate lines := by
  induction lines with
  | nil => simp
  | cons l r ih =>
    rw [List.forall_mem_cons] at h
    cases r with
    | nil => simpa using h.1
    | cons l' r =>
      rw [List.intercalate_cons_cons, List.append_assoc, List.mem_append, List.mem_append,
        List.mem_singleton, not_or, not_or]
      exact ⟨h.1, hsep, ih h.2⟩

theorem splitOn_flatMap {sep : Char} {lines : List (List Char)} (h : ∀ l ∈ lines, sep ∉ l) :
    (lines.flatMap fun l => l ++ [sep]).splitOn sep = lines ++ [[]] := by
  induction lines with
  | nil => simp
  | cons l r ih =>
    rw [List.forall_mem_cons] at h
    rw [List.flatMap_cons, List.append_assoc, List.singleton_append,
      List.splitOn_append_cons_self_of_not_mem h.1, ih h.2, List.cons_append]

section
variable {sep c : Char} {s : List Char}

theorem exists_mem_splitOn (hc : c ∈ s) (h : c ≠ sep) : ∃ part ∈ s.splitOn sep, c ∈ part := by
  have hmem := List.mem_cons_of_mem sep hc
  rw [← flatMap_cons_splitOn, List.mem_flatMap] at hmem
  obtain ⟨part, hpart, hmem⟩ := hmem
  exact ⟨part, hpart, (List.mem_cons.1 hmem).resolve_left h⟩

theorem nil_mem_splitOn (sep : Char) (s : List Char) : [] ∈ (s ++ [sep]).splitOn sep := by
  have hsep : (sep == sep) = true := BEq.rfl
  rw [List.splitOn, List.splitOnP_append_cons (p := (· == sep)) s [] hsep, List.splitOnP_nil]
  exact List.mem_append_right _ List.mem_cons_self

theorem exists_mem_tail_splitOn {d : Char} (hd : d ≠ sep) (hc : c ≠ sep) (a b : List Char) :
    ∃ part ∈ (a ++ d :: c :: b).splitOn sep, c ∈ part.tail := by
  induction a with
  | nil =>
    obtain ⟨first, rest, hb⟩ := List.exists_cons_of_ne_nil (List.splitOn_ne_nil sep b)
    refine ⟨d :: c :: first, ?_, by simp⟩
    simp [List.splitOn_cons_eq_if_modifyHead, hd, hc, hb]
  | cons x a ih =>
    obtain ⟨part, hpart, hmem⟩ := ih
    obtain ⟨first, rest, hr⟩ :=
      List.exists_cons_of_ne_nil (List.splitOn_ne_nil sep (a ++ d :: c :: b))
    rw [hr] at hpart
    rw [List.cons_append, List.splitOn_cons_eq_if_modifyHead, hr]
    split_ifs
    · exact ⟨part, List.mem_cons_of_mem [] hpart, hmem⟩
    · rw [List.modifyHead_cons]
      rcases List.mem_cons.1 hpart with rfl | hpart
      · exact ⟨x :: part, List.mem_cons_self, List.mem_of_mem_tail hmem⟩
      · exact ⟨part, List.mem_cons_of_mem _ hpart, hmem⟩

end

end DavQuery.Text
