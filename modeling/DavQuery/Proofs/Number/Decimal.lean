import DavQuery.Proofs.Text.Digit
import DavQuery.Proofs.Text.Split
import Mathlib.Tactic.FieldSimp
import Mathlib.Tactic.Linarith

/-! Quantities in decimals. A quantity is rounded to the next whole number, a half to the even one;
this keeps the order, and leaves whole numbers as they are. A decimal with a fixed number of places
writes the quantity that is so rounded in its last place, and is read back as that. -/

namespace DavQuery.Number

/-- The whole number next to a quantity; of two that are equally near the even one. -/
structure NearestEven (q : ℚ) (k : ℕ) : Prop where
  near : |q - k| ≤ 1 / 2
  even : |q - k| = 1 / 2 → Even k

theorem even_roundHalfEven {num den : ℕ} (h : 0 < den)
    (hhalf : 2 * num = 2 * (roundHalfEven num den * den) + den ∨
      2 * (roundHalfEven num den * den) = 2 * num + den) : Even (roundHalfEven num den) := by
  have hdiv := Nat.div_add_mod num den
  have hmod := Nat.mod_lt num h
  have hcomm : num / den * den = den * (num / den) := Nat.mul_comm _ _
  rcases Nat.lt_trichotomy (2 * (num % den)) den with hlt | heq | hgt
  · have hround : roundHalfEven num den = num / den := if_pos hlt
    rw [hround] at hhalf
    omega
  · have hround : roundHalfEven num den = num / den + num / den % 2 :=
      (if_neg (by omega)).trans (if_neg (by omega))
    rw [hround, Nat.even_iff]
    omega
  · have hround : roundHalfEven num den = num / den + 1 :=
      (if_neg (by omega)).trans (if_pos hgt)
    rw [hround, Nat.add_mul] at hhalf
    omega

theorem le_roundHalfEven_iff (num : ℕ) {den k : ℕ} (h : 0 < den) (hk : Even k) :
    k ≤ roundHalfEven num den ↔ 2 * (k * den) ≤ 2 * num + den := by
  have hbelow : 2 * num ≤ 2 * (roundHalfEven num den * den) + den := two_mul_le_roundHalfEven h
  have habove : 2 * (roundHalfEven num den * den) ≤ 2 * num + den := roundHalfEven_two_mul_le h
  constructor
  · intro hle
    have := Nat.mul_le_mul_right den hle
    omega
  · intro hle
    by_contra hlt
    have hstep : (roundHalfEven num den + 1) * den ≤ k * den :=
      Nat.mul_le_mul_right den (Nat.lt_of_not_le hlt)
    have hsum : (roundHalfEven num den + 1) * den = roundHalfEven num den * den + den :=
      Nat.succ_mul ..
    have heven : Even (roundHalfEven num den) := even_roundHalfEven h (.inl (by omega))
    have hnext : (roundHalfEven num den + 1) * den = k * den := by omega
    obtain rfl := Nat.eq_of_mul_eq_mul_right h hnext
    rw [Nat.even_iff] at heven hk
    omega

theorem nearestEven_roundHalfEven (num : ℕ) {den : ℕ} (h : 0 < den) :
    NearestEven (num / den) (roundHalfEven num den) := by
  have hden : (0 : ℚ) < den := by exact_mod_cast h
  have hbelow : (2 * num : ℚ) ≤ 2 * (roundHalfEven num den * den) + den := by
    exact_mod_cast two_mul_le_roundHalfEven h
  have habove : (2 * (roundHalfEven num den * den) : ℚ) ≤ 2 * num + den := by
    exact_mod_cast roundHalfEven_two_mul_le h
  have hsub : (num / den - roundHalfEven num den : ℚ) =
      (num - roundHalfEven num den * den) / den := by
    field_simp
  constructor
  · rw [hsub, abs_le, le_div_iff₀ hden, div_le_iff₀ hden]
    constructor <;> linarith
  · intro hhalf
    rw [hsub, abs_eq (by norm_num), div_eq_iff hden.ne', div_eq_iff hden.ne'] at hhalf
    refine even_roundHalfEven h (hhalf.imp (fun hup => ?_) fun hdown => ?_)
    · have : (2 * num : ℚ) = 2 * (roundHalfEven num den * den) + den := by linarith
      exact_mod_cast this
    · have : (2 * (roundHalfEven num den * den) : ℚ) = 2 * num + den := by linarith
      exact_mod_cast this

theorem nearestEven_natCast (k : ℕ) : NearestEven k k := by
  constructor <;> simp

theorem NearestEven.mono {q q' : ℚ} {k k' : ℕ} (h : NearestEven q k) (h' : NearestEven q' k')
    (hle : q ≤ q') : k ≤ k' := by
  -- Two numbers in the wrong order would both be a half away from one quantity, and so both be
  -- even.
  by_contra hlt
  have hstep : (k' + 1 : ℚ) ≤ k := by exact_mod_cast Nat.lt_of_not_le hlt
  have hnear := abs_le.1 h.near
  have hnear' := abs_le.1 h'.near
  have hk : (k' + 1 : ℚ) = k := by linarith
  have heven : Even k := h.even (by rw [abs_eq (by norm_num)]; right; linarith)
  have heven' : Even k' := h'.even (by rw [abs_eq (by norm_num)]; left; linarith)
  have hk : k' + 1 = k := by exact_mod_cast hk
  rw [Nat.even_iff] at heven heven'
  omega

theorem NearestEven.unique {q : ℚ} {k k' : ℕ} (h : NearestEven q k) (h' : NearestEven q k') :
    k = k' := le_antisymm (h.mono h' le_rfl) (h'.mono h le_rfl)

/-- The text is the decimal with so many places that is next to the quantity; of two that are
equally near the one with the even last digit. -/
def Rounds (places : ℕ) (q : ℚ) (s : List Char) : Prop :=
  ∃ whole part, s = Nat.toDigits 10 whole ++ '.' :: part ∧ part.length = places ∧
    (∀ c ∈ part, c.isDigit = true) ∧
    NearestEven (q * 10 ^ places) (whole * 10 ^ places + Nat.ofDigitChars 10 part 0)

theorem fixed_eq {places : ℕ} (h : 0 < places) (num den : ℕ) : ∃ whole part,
    fixed places num den = Nat.toDigits 10 whole ++ '.' :: part ∧ part.length = places ∧
    (∀ c ∈ part, c.isDigit = true) ∧
    whole * 10 ^ places + Nat.ofDigitChars 10 part 0 = roundHalfEven (num * 10 ^ places) den := by
  refine ⟨_, _, rfl, length_padded h (Nat.mod_lt _ (Nat.pos_of_ne_zero (by simp))),
    fun c hc => isDigit_of_mem_padded hc, ?_⟩
  rw [ofDigitChars_padded]
  exact Nat.div_add_mod' _ _

theorem rounds_fixed {places den : ℕ} (hplaces : 0 < places) (num : ℕ) (hden : 0 < den) :
    Rounds places (num / den) (fixed places num den) := by
  obtain ⟨whole, part, htext, hlength, hdigits, hvalue⟩ := fixed_eq hplaces num den
  refine ⟨whole, part, htext, hlength, hdigits, ?_⟩
  have hnear := nearestEven_roundHalfEven (num * 10 ^ places) hden
  rwa [← hvalue, Nat.cast_mul, Nat.cast_pow, Nat.cast_ofNat, mul_div_right_comm] at hnear

def decimals (s : List Char) : ℕ := (s.dropWhile (· ≠ '.')).length - 1

/-- The quantity that a numeral writes: digits, perhaps with a point among them. -/
def numeral (s : List Char) : ℚ :=
  Nat.ofDigitChars 10 (s.filter (·.isDigit)) 0 / 10 ^ decimals s

theorem ne_point_of_isDigit {c : Char} (h : c.isDigit = true) : c ≠ '.' := by
  rintro rfl
  exact absurd h (by decide)

theorem isDigit_of_mem_toDigits {n : ℕ} {c : Char} (h : c ∈ Nat.toDigits 10 n) :
    c.isDigit = true := Nat.isDigit_of_mem_toDigits (by decide) (by decide) h

theorem decimals_toDigits (n : ℕ) : decimals (Nat.toDigits 10 n) = 0 := by
  have hdrop : (Nat.toDigits 10 n).dropWhile (· ≠ '.') = [] := by
    simpa [List.dropWhile_eq_nil_iff] using
      fun c hc => ne_point_of_isDigit (isDigit_of_mem_toDigits hc)
  rw [decimals, hdrop, List.length_nil]

theorem numeral_toDigits (n : ℕ) : numeral (Nat.toDigits 10 n) = n := by
  have hfilter : (Nat.toDigits 10 n).filter (·.isDigit) = Nat.toDigits 10 n :=
    List.filter_eq_self.2 fun c hc => isDigit_of_mem_toDigits hc
  rw [numeral, decimals_toDigits, hfilter, Nat.ofDigitChars_ten_toDigits, pow_zero, div_one]

theorem decimals_point (whole : ℕ) (part : List Char) :
    decimals (Nat.toDigits 10 whole ++ '.' :: part) = part.length := by
  have hrun : ∀ c ∈ Nat.toDigits 10 whole, decide (c ≠ '.') = true := fun c hc =>
    decide_eq_true (ne_point_of_isDigit (isDigit_of_mem_toDigits hc))
  have hdrop := (Text.span_append_of_head hrun (s := '.' :: part) (by simp)).2
  rw [decimals, hdrop, List.length_cons, Nat.add_sub_cancel]

theorem numeral_point {part : List Char} (whole : ℕ) (h : ∀ c ∈ part, c.isDigit = true) :
    numeral (Nat.toDigits 10 whole ++ '.' :: part) =
      (whole * 10 ^ part.length + Nat.ofDigitChars 10 part 0 : ℕ) / 10 ^ part.length := by
  have hfilter : (Nat.toDigits 10 whole ++ '.' :: part).filter (·.isDigit) =
      Nat.toDigits 10 whole ++ part := by
    have hwhole := List.filter_eq_self.2 fun c (hc : c ∈ Nat.toDigits 10 whole) =>
      isDigit_of_mem_toDigits hc
    rw [List.filter_append, List.filter_cons_of_neg (by decide), List.filter_eq_self.2 h, hwhole]
  rw [numeral, decimals_point, hfilter, Nat.ofDigitChars_append, Nat.ofDigitChars_ten_toDigits,
    Nat.ofDigitChars_eq_ofDigitChars_zero, Nat.mul_comm]

theorem notMem_fixed {places : ℕ} (h : 0 < places) (num den : ℕ) {c : Char}
    (hdigit : c.isDigit = false) (hpoint : c ≠ '.') : c ∉ fixed places num den := by
  obtain ⟨whole, part, htext, -, hdigits, -⟩ := fixed_eq h num den
  rw [htext, List.mem_append, List.mem_cons]
  rintro (hc | hc | hc)
  · simp [isDigit_of_mem_toDigits hc] at hdigit
  · exact hpoint hc
  · simp [hdigits c hc] at hdigit

theorem numeral_fixed {places : ℕ} (h : 0 < places) (num den : ℕ) :
    numeral (fixed places num den) = roundHalfEven (num * 10 ^ places) den / 10 ^ places ∧
      decimals (fixed places num den) = places := by
  obtain ⟨whole, part, htext, hlength, hdigits, hvalue⟩ := fixed_eq h num den
  rw [htext, numeral_point whole hdigits, decimals_point, hlength, hvalue]
  exact ⟨rfl, rfl⟩

end DavQuery.Number
