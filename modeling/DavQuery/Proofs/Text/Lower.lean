import DavQuery.Proofs.Text.Percent
import DavQuery.Proofs.Text.Trim
import DavQuery.Text.Lower
import DavQuery.Text.Pieces
import Mathlib.Data.List.Basic

/-! Small letters and the case of ASCII. The small form of a text is no shorter than the text, and
it does not tell in which case the letters of ASCII were written: they have case in both, so that
what is next to them is lowered alike. Trimming and cutting do not look at their case either. -/

namespace DavQuery.Text

theorem length_le_length_lowerFrom (afterCased : Bool) (s : List Char) :
    s.length ≤ (lowerFrom afterCased s).length := by
  induction s generalizing afterCased with
  | nil => simp [lowerFrom]
  | cons c r ih =>
    have hc : 1 ≤ (lowerAt afterCased c r).length := by
      unfold lowerAt
      split_ifs <;> simp
    rw [lowerFrom, List.length_append, List.length_cons]
    have hr := ih (if isCaseIgnorable c then afterCased else isCased c)
    omega

theorem lowerChars_eq_nil_iff {s : List Char} : lowerChars s = [] ↔ s = [] := by
  refine ⟨fun h => ?_, fun h => by rw [h]; rfl⟩
  have hle := length_le_length_lowerFrom false s
  rw [← lowerChars, h] at hle
  exact List.length_eq_zero_iff.1 (Nat.le_zero.1 hle)

theorem mem_lowerFrom {c : Char} (hc : ∀ after rest, lowerAt after c rest = [c]) {s : List Char}
    (h : c ∈ s) (after : Bool) : c ∈ lowerFrom after s := by
  induction s generalizing after with
  | nil => cases h
  | cons d s ih =>
    rw [lowerFrom, List.mem_append]
    rcases List.mem_cons.1 h with rfl | h
    · rw [hc]
      exact .inl List.mem_cons_self
    · exact .inr (ih h _)

theorem toLower_of_le {c : Char} (h : 128 ≤ c.toNat) : c.toLower = c := by
  have hupper : ¬ (65 ≤ c.val.toNat ∧ c.val.toNat ≤ 90) := by
    have hval : c.val.toNat = c.toNat := rfl
    omega
  unfold Char.toLower
  rw [dif_neg]
  simpa [UInt32.le_iff_toNat_le] using hupper

theorem apply_toLower {α : Type} {f : Char → α}
    (h : ∀ n < 128, f (Char.ofNat n).toLower = f (Char.ofNat n)) (c : Char) :
    f c.toLower = f c := by
  by_cases hc : c.toNat < 128
  · exact forall_ascii (P := fun c => f c.toLower = f c) h hc
  · rw [toLower_of_le (Nat.le_of_not_lt hc)]

@[simp] theorem isBlank_toLower (c : Char) : isBlank c.toLower = isBlank c :=
  apply_toLower (by decide) c

@[simp] theorem isCased_toLower (c : Char) : isCased c.toLower = isCased c :=
  apply_toLower (by decide) c

@[simp] theorem isCaseIgnorable_toLower (c : Char) :
    isCaseIgnorable c.toLower = isCaseIgnorable c :=
  apply_toLower (by decide) c

@[simp] theorem lowerChar_toLower (c : Char) : lowerChar c.toLower = lowerChar c :=
  apply_toLower (by decide) c

theorem startsCased_map_toLower (s : List Char) :
    startsCased (s.map Char.toLower) = startsCased s := by
  have hignorable : isCaseIgnorable ∘ Char.toLower = isCaseIgnorable :=
    funext isCaseIgnorable_toLower
  rw [startsCased, startsCased, List.dropWhile_map, hignorable]
  cases s.dropWhile isCaseIgnorable with
  | nil => rfl
  | cons c r => exact isCased_toLower c

theorem lowerAt_toLower (afterCased : Bool) (c : Char) (r : List Char) :
    lowerAt afterCased c.toLower (r.map Char.toLower) = lowerAt afterCased c r := by
  have hsigma : (c.toLower = 'Σ') = (c = 'Σ') := apply_toLower (f := (· = 'Σ')) (by decide) c
  have hdotted : (c.toLower = 'İ') = (c = 'İ') := apply_toLower (f := (· = 'İ')) (by decide) c
  simp only [lowerAt, hsigma, hdotted, startsCased_map_toLower, lowerChar_toLower]

theorem lowerFrom_map_toLower (afterCased : Bool) (s : List Char) :
    lowerFrom afterCased (s.map Char.toLower) = lowerFrom afterCased s := by
  induction s generalizing afterCased with
  | nil => rfl
  | cons c r ih =>
    rw [List.map_cons, lowerFrom, lowerFrom, lowerAt_toLower, isCaseIgnorable_toLower,
      isCased_toLower, ih]

@[simp] theorem lowerChars_map_toLower (s : List Char) :
    lowerChars (s.map Char.toLower) = lowerChars s :=
  lowerFrom_map_toLower false s

@[simp] theorem trimChars_map_toLower (s : List Char) :
    trimChars (s.map Char.toLower) = (trimChars s).map Char.toLower := by
  have hblank : isBlank ∘ Char.toLower = isBlank := funext isBlank_toLower
  simp only [trimChars, dropEndWhile, List.dropWhile_map, hblank, ← List.map_reverse]

theorem splitOn_map_toLower {sep : Char} (hsep : ∀ c : Char, (c.toLower == sep) = (c == sep))
    (s : List Char) :
    (s.map Char.toLower).splitOn sep = (s.splitOn sep).map (List.map Char.toLower) := by
  induction s with
  | nil => rfl
  | cons c r ih =>
    obtain ⟨first, rest, hr⟩ := List.exists_cons_of_ne_nil (List.splitOn_ne_nil sep r)
    rw [List.map_cons, List.splitOn_cons_eq_if_modifyHead, List.splitOn_cons_eq_if_modifyHead,
      hsep, ih, hr]
    split_ifs <;> rfl

theorem cutLast_map_toLower {sep : Char} (hsep : ∀ c : Char, (c.toLower = sep) = (c = sep))
    (s : List Char) :
    cutLast sep (s.map Char.toLower) =
      (cutLast sep s).map fun p => (p.1.map Char.toLower, p.2.map Char.toLower) := by
  induction s with
  | nil => rfl
  | cons c r ih =>
    simp only [List.map_cons, cutLast, ih, hsep]
    cases cutLast sep r with
    | some p => rfl
    | none => split_ifs <;> rfl

end DavQuery.Text
