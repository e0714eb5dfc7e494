import DavQuery.Number.Rounding
import DavQuery.Proofs.Text.Percent
import DavQuery.Proofs.Text.Trim
import DavQuery.Text.Integer
import Mathlib.Algebra.Group.Nat.Defs

/-! Digits of ASCII as numbers. A number that is padded with zeros to a width has just that width,
and is read back from its digits; a text that is read as a whole number has a sign at its start
only. -/

namespace DavQuery

namespace Text

theorem toNat_lt_of_isDigit {c : Char} (h : c.isDigit = true) : c.toNat < 128 :=
  toNat_lt_of_isAlphanum (by simp [Char.isAlphanum, h])

theorem digitValue?_of_isDigit {c : Char} (h : c.isDigit = true) :
    digitValue? c = some (c.toNat - '0'.toNat) :=
  forall_ascii (P := fun c => c.isDigit = true → digitValue? c = some (c.toNat - '0'.toNat))
    (by decide) (toNat_lt_of_isDigit h) h

theorem isBlank_eq_false_of_isDigit {c : Char} (h : c.isDigit = true) : isBlank c = false :=
  forall_ascii (P := fun c => c.isDigit = true → isBlank c = false) (by decide)
    (toNat_lt_of_isDigit h) h

theorem filterMap_digitValue?_of_isDigit {s : List Char} (h : ∀ c ∈ s, c.isDigit = true) :
    s.filterMap digitValue? = s.map fun c => c.toNat - '0'.toNat := by
  rw [← List.filterMap_eq_map]
  exact List.filterMap_congr fun c hc => digitValue?_of_isDigit (h c hc)

theorem ofDigits_map_toNat (s : List Char) :
    ofDigits (s.map fun c => c.toNat - '0'.toNat) = Nat.ofDigitChars 10 s 0 := by
  rw [ofDigits, List.foldl_map, Nat.ofDigitChars]

theorem ofDigits_filterMap_digitValue? {s : List Char} (h : ∀ c ∈ s, c.isDigit = true) :
    ofDigits (s.filterMap digitValue?) = Nat.ofDigitChars 10 s 0 := by
  rw [filterMap_digitValue?_of_isDigit h, ofDigits_map_toNat]

theorem digitGroups?_of_isDigit {s : List Char} (h0 : s ≠ []) (h : ∀ c ∈ s, c.isDigit = true) :
    digitGroups? s = some (s.map fun c => c.toNat - '0'.toNat) := by
  induction s with
  | nil => exact absurd rfl h0
  | cons c r ih =>
    rw [List.forall_mem_cons] at h
    have hc := digitValue?_of_isDigit h.1
    cases r with
    | nil => simp [digitGroups?, hc]
    | cons d r =>
      have hd : d ≠ '_' := by
        rintro rfl
        exact absurd (h.2 '_' List.mem_cons_self) (by decide)
      have hr := ih (by simp) h.2
      simp [digitGroups?, hc, hd, hr]

theorem integer?_of_isDigit {s : List Char} (h0 : s ≠ []) (h : ∀ c ∈ s, c.isDigit = true)
    (hlength : s.length ≤ digitLimit) : integer? s = some (Nat.ofDigitChars 10 s 0 : Int) := by
  have htrim : trimChars s = s := Trimmed.trimChars_eq
    ⟨fun c hc => isBlank_eq_false_of_isDigit (h c (List.mem_of_head? hc)),
      fun c hc => isBlank_eq_false_of_isDigit (h c (List.mem_of_getLast? hc))⟩
  have hsign : spanSign s = (false, s) := by
    obtain ⟨c, r, rfl⟩ := List.exists_cons_of_ne_nil h0
    have hc := h c List.mem_cons_self
    have hminus : c ≠ '-' := by
      rintro rfl
      exact absurd hc (by decide)
    have hplus : c ≠ '+' := by
      rintro rfl
      exact absurd hc (by decide)
    simp [spanSign, hminus, hplus]
  rw [integer?, htrim, hsign]
  simp only [digitGroups?_of_isDigit h0 h, List.length_map, if_pos hlength, ofDigits_map_toNat]
  rfl

theorem isDecimal_of_mem_digitGroups? {s : List Char} {ds : List Nat}
    (h : digitGroups? s = some ds) : ∀ c ∈ s, isDecimal c = true ∨ c = '_' := by
  induction s using digitGroups?.induct generalizing ds with
  | case1 => cases h
  | case2 c =>
    obtain ⟨d, hd, -⟩ := Option.map_eq_some_iff.1 h
    simp [isDecimal, hd]
  | case3 c r ih =>
    simp only [digitGroups?, Option.bind_eq_bind, Option.bind_eq_some_iff] at h
    obtain ⟨d, hd, ds, hds, -⟩ := h
    simpa [isDecimal, hd] using ih hds
  | case4 c r hr hmark ih =>
    rw [digitGroups?] at h
    · simp only [Option.bind_eq_bind, Option.bind_eq_some_iff] at h
      obtain ⟨d, hd, ds, hds, -⟩ := h
      exact List.forall_mem_cons.2 ⟨.inl (by simp [isDecimal, hd]), ih hds⟩
    · exact hr
    · exact hmark

theorem integer?_eq_none_of_mem {s : List Char} (hblank : ∀ c ∈ s, isBlank c = false) {c : Char}
    (hc : c ∈ (spanSign s).2) (hdecimal : isDecimal c = false) (hmark : c ≠ '_') :
    integer? s = none := by
  have htrim : trimChars s = s := Trimmed.trimChars_eq
    ⟨fun c hc => hblank c (List.mem_of_head? hc), fun c hc => hblank c (List.mem_of_getLast? hc)⟩
  rw [integer?, htrim]
  cases hgroups : digitGroups? (spanSign s).2 with
  | none => simp only [hgroups]
  | some ds =>
    have hall := isDecimal_of_mem_digitGroups? hgroups c hc
    simp [hdecimal, hmark] at hall

theorem mem_spanSign_of_mem_tail {s : List Char} {c : Char} (h : c ∈ s.tail) :
    c ∈ (spanSign s).2 := by
  unfold spanSign
  split
  · exact h
  · exact h
  · exact List.mem_of_mem_tail h

end Text

namespace Number
open Text

theorem isDigit_of_mem_padded {width n : Nat} {c : Char} (h : c ∈ padded width n) :
    c.isDigit = true := by
  rw [padded, List.mem_append] at h
  rcases h with h | h
  · rw [List.eq_of_mem_replicate h]
    decide
  · exact Nat.isDigit_of_mem_toDigits (by decide) (by decide) h

theorem length_padded {width n : Nat} (hwidth : 0 < width) (h : n < 10 ^ width) :
    (padded width n).length = width := by
  have hlength : (Nat.toDigits 10 n).length ≤ width :=
    (Nat.length_toDigits_le_iff (by decide) hwidth).2 h
  rw [padded, List.length_append, List.length_replicate]
  omega

theorem ofDigitChars_padded (width n : Nat) : Nat.ofDigitChars 10 (padded width n) 0 = n := by
  rw [padded, Nat.ofDigitChars_append, Nat.ofDigitChars_replicate_zero, Nat.mul_zero,
    Nat.ofDigitChars_ten_toDigits]

theorem padded_ne_nil (width n : Nat) : padded width n ≠ [] := by
  rw [padded, ne_eq, List.append_eq_nil_iff, not_and]
  exact fun _ => Nat.toDigits_ne_nil

theorem integer?_padded {width n : Nat} (hwidth : 0 < width) (hlimit : width ≤ digitLimit)
    (h : n < 10 ^ width) : integer? (padded width n) = some (n : Int) := by
  rw [integer?_of_isDigit (padded_ne_nil width n) (fun c hc => isDigit_of_mem_padded hc)
    (by rwa [length_padded hwidth h]), ofDigitChars_padded]

end Number

end DavQuery
