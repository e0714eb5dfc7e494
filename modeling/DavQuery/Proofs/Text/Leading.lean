import DavQuery.Proofs.Text.Split
import DavQuery.Proofs.Text.Trim
import DavQuery.Text.Integer
import Mathlib.Data.Nat.Digits.Defs

/-! The number that a text starts with. The digits are the longest run of them after white space
and a sign: no other run counts, and one that is too long is enough for the number not to be
read. -/

namespace DavQuery.Text

/-- The text starts with more digits than a number may have, after white space and perhaps a
sign. -/
def StartsTooLong (s : List Char) : Prop :=
  ∃ gap sign digits rest, s = gap ++ sign ++ digits ++ rest ∧ AllBlank gap ∧
    (sign = [] ∨ sign = ['-'] ∨ sign = ['+']) ∧ (∀ c ∈ digits, isDecimal c = true) ∧
    digitLimit < digits.length

def decimalValue (s : List Char) : Nat := Nat.ofDigits 10 (s.reverse.filterMap digitValue?)

theorem spanDigits_eq (s : List Char) :
    spanDigits s = ((s.takeWhile isDecimal).filterMap digitValue?, s.dropWhile isDecimal) := by
  induction s with
  | nil => rfl
  | cons c r ih =>
    cases hc : digitValue? c with
    | none =>
      have hd : ¬ isDecimal c = true := by simp [isDecimal, hc]
      simp [spanDigits, hc, List.takeWhile_cons_of_neg hd, List.dropWhile_cons_of_neg hd]
    | some d =>
      have hd : isDecimal c = true := by simp [isDecimal, hc]
      simp [spanDigits, hc, List.takeWhile_cons_of_pos hd, List.dropWhile_cons_of_pos hd, ih]

theorem filterMap_digitValue?_eq_nil_iff {s : List Char} (h : ∀ c ∈ s, isDecimal c = true) :
    s.filterMap digitValue? = [] ↔ s = [] := by
  rw [List.filterMap_eq_nil_iff]
  constructor
  · intro hnone
    refine List.eq_nil_iff_forall_not_mem.2 fun c hc => ?_
    have := h c hc
    simp [isDecimal, hnone c hc] at this
  · rintro rfl
    simp

theorem length_filterMap_digitValue? {s : List Char} (h : ∀ c ∈ s, isDecimal c = true) :
    (s.filterMap digitValue?).length = s.length := by
  induction s with
  | nil => rfl
  | cons c r ih =>
    rw [List.forall_mem_cons] at h
    obtain ⟨d, hd⟩ := Option.isSome_iff_exists.1 h.1
    rw [List.filterMap_cons_some hd, List.length_cons, ih h.2, List.length_cons]

theorem length_spanDigits (s : List Char) :
    (spanDigits s).1.length = (s.takeWhile isDecimal).length := by
  rw [spanDigits_eq, length_filterMap_digitValue? fun c hc => List.mem_takeWhile_imp hc]

theorem leadingInteger_eq_tooLong_iff {s : List Char} :
    leadingInteger s = .tooLong ↔
      digitLimit < ((spanSign (s.dropWhile isBlank)).2.takeWhile isDecimal).length := by
  rw [← length_spanDigits]
  unfold leadingInteger
  dsimp only
  rcases spanDigits (spanSign (s.dropWhile isBlank)).2 with ⟨ds, rest⟩
  cases ds with
  | nil => simp
  | cons d ds => simp

theorem exists_sign_append (s : List Char) :
    ∃ sign, s = sign ++ (spanSign s).2 ∧ (sign = [] ∨ sign = ['-'] ∨ sign = ['+']) := by
  unfold spanSign
  split
  · exact ⟨['-'], rfl, .inr (.inl rfl)⟩
  · exact ⟨['+'], rfl, .inr (.inr rfl)⟩
  · exact ⟨[], rfl, .inl rfl⟩

theorem isBlank_eq_false_of_isDecimal {c : Char} (h : isDecimal c = true) : isBlank c = false := by
  have all : ∀ n ∈ blankCodes, isDecimal (Char.ofNat n) = false := by decide +kernel
  cases hb : isBlank c with
  | false => rfl
  | true =>
    have := all c.toNat (toNat_mem_blankCodes hb)
    simp [h] at this

theorem spanSign_append {sign digits : List Char} (hsign : sign = [] ∨ sign = ['-'] ∨ sign = ['+'])
    (hdigits : ∀ c ∈ digits, isDecimal c = true) (h0 : digits ≠ []) (rest : List Char) :
    spanSign (sign ++ digits ++ rest) = (sign == ['-'], digits ++ rest) := by
  obtain ⟨c, r, rfl⟩ := List.exists_cons_of_ne_nil h0
  have hminus : c ≠ '-' := by
    rintro rfl
    exact absurd (hdigits '-' (by simp)) (by decide)
  have hplus : c ≠ '+' := by
    rintro rfl
    exact absurd (hdigits '+' (by simp)) (by decide)
  rcases hsign with rfl | rfl | rfl
  · simp [spanSign, hminus, hplus]
  · rfl
  · rfl

theorem dropWhile_isBlank_number {gap sign digits : List Char} (hgap : AllBlank gap)
    (hsign : sign = [] ∨ sign = ['-'] ∨ sign = ['+']) (hdigits : ∀ c ∈ digits, isDecimal c = true)
    (h0 : digits ≠ []) (rest : List Char) :
    (gap ++ sign ++ digits ++ rest).dropWhile isBlank = sign ++ digits ++ rest := by
  have hhead : ∀ c, (sign ++ digits ++ rest).head? = some c → isBlank c = false := by
    obtain ⟨d, r, rfl⟩ := List.exists_cons_of_ne_nil h0
    rcases hsign with rfl | rfl | rfl
    · simpa using isBlank_eq_false_of_isDecimal (hdigits d (by simp))
    · simpa using (by decide : isBlank '-' = false)
    · simpa using (by decide : isBlank '+' = false)
  have happend : gap ++ sign ++ digits ++ rest = gap ++ (sign ++ digits ++ rest) := by simp
  rw [happend, (span_append_of_head hgap hhead).2]

theorem leadingInteger_eq_tooLong_iff_startsTooLong {s : List Char} :
    leadingInteger s = .tooLong ↔ StartsTooLong s := by
  rw [leadingInteger_eq_tooLong_iff]
  constructor
  · intro h
    obtain ⟨sign, hs, hsign⟩ := exists_sign_append (s.dropWhile isBlank)
    refine ⟨s.takeWhile isBlank, sign, _, (spanSign (s.dropWhile isBlank)).2.dropWhile isDecimal,
      ?_, fun c hc => List.mem_takeWhile_imp hc, hsign, fun c hc => List.mem_takeWhile_imp hc, h⟩
    rw [List.append_assoc, List.takeWhile_append_dropWhile, List.append_assoc, ← hs,
      List.takeWhile_append_dropWhile]
  · rintro ⟨gap, sign, digits, rest, rfl, hgap, hsign, hdigits, h⟩
    have h0 : digits ≠ [] := by
      rintro rfl
      simp at h
    rw [dropWhile_isBlank_number hgap hsign hdigits h0, spanSign_append hsign hdigits h0,
      List.takeWhile_append_of_pos hdigits, List.length_append]
    omega

/-- The text starts, after white space, with a number: perhaps a sign, and digits up to where the
digits end. -/
inductive StartsWithNumber : List Char → List Char → Int → Prop
  | mk {gap sign digits rest : List Char} : AllBlank gap →
      (sign = [] ∨ sign = ['-'] ∨ sign = ['+']) → (∀ c ∈ digits, isDecimal c = true) →
      digits ≠ [] → (∀ c, rest.head? = some c → isDecimal c = false) →
      StartsWithNumber (gap ++ sign ++ digits ++ rest) digits
        (if sign = ['-'] then -(decimalValue digits : Int) else decimalValue digits)

theorem ofDigits_eq_reverse (ds : List Nat) : ofDigits ds = Nat.ofDigits 10 ds.reverse := by
  rw [ofDigits, Nat.ofDigits_eq_foldr, List.foldr_reverse]
  refine congrArg (fun f => List.foldl f 0 _) ?_
  funext n d
  rw [Nat.cast_id, Nat.add_comm]

theorem ofDigits_filterMap_digitValue?_eq (s : List Char) :
    ofDigits (s.filterMap digitValue?) = decimalValue s := by
  rw [ofDigits_eq_reverse, decimalValue, List.filterMap_reverse]

theorem leadingInteger_of_startsWithNumber {s digits : List Char} {n : Int}
    (h : StartsWithNumber s digits n) :
    leadingInteger s = if digits.length ≤ digitLimit then .number n else .tooLong := by
  obtain ⟨hgap, hsign, hdigits, h0, hrest⟩ := h
  have hspan := span_append_of_head hdigits hrest
  have hlength := length_filterMap_digitValue? hdigits
  have hvalue := ofDigits_filterMap_digitValue?_eq digits
  have hvalues : digits.filterMap digitValue? ≠ [] :=
    mt (filterMap_digitValue?_eq_nil_iff hdigits).1 h0
  rw [leadingInteger, dropWhile_isBlank_number hgap hsign hdigits h0,
    spanSign_append hsign hdigits h0]
  simp only [spanDigits_eq, hspan.1]
  cases hds : digits.filterMap digitValue? with
  | nil => exact absurd hds hvalues
  | cons d ds =>
    rw [hds] at hlength hvalue
    simp only [hlength, hvalue, signed, beq_iff_eq]

theorem leadingInteger_eq_absent_iff {s : List Char} :
    leadingInteger s = .absent ↔ ∀ digits n, ¬ StartsWithNumber s digits n := by
  constructor
  · intro h digits n hnumber
    rw [leadingInteger_of_startsWithNumber hnumber] at h
    split at h <;> cases h
  · intro h
    by_contra hne
    obtain ⟨sign, hs, hsign⟩ := exists_sign_append (s.dropWhile isBlank)
    generalize hr : (spanSign (s.dropWhile isBlank)).2 = r at hs
    have hdigits : ∀ c ∈ r.takeWhile isDecimal, isDecimal c = true :=
      fun c hc => List.mem_takeWhile_imp hc
    have h0 : r.takeWhile isDecimal ≠ [] := by
      intro h0
      apply hne
      simp [leadingInteger, spanDigits_eq, hr, h0]
    have hrest (c : Char) (hc : (r.dropWhile isDecimal).head? = some c) : isDecimal c = false := by
      simpa [hc] using List.head?_dropWhile_not isDecimal r
    have hgap : AllBlank (s.takeWhile isBlank) := fun c hc => List.mem_takeWhile_imp hc
    have hnumber := StartsWithNumber.mk hgap hsign hdigits h0 hrest
    rw [List.append_assoc, List.takeWhile_append_dropWhile, List.append_assoc, ← hs,
      List.takeWhile_append_dropWhile] at hnumber
    exact h _ _ hnumber

end DavQuery.Text
