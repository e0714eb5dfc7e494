import DavQuery.Number.Rounding
import Mathlib.Algebra.Ring.Nat

/-! Where rounding to 53 significant bits reaches the next power of two: half a unit below it. -/

namespace DavQuery.Number

theorem tenTo_eq (n : Nat) : tenTo n = 10 ^ n := rfl

theorem roundHalfEven_le (num den : Nat) : roundHalfEven num den ≤ num / den + 1 := by
  unfold roundHalfEven
  dsimp only
  split
  · omega
  · split <;> omega

theorem div_le_roundHalfEven (num den : Nat) : num / den ≤ roundHalfEven num den := by
  unfold roundHalfEven
  dsimp only
  split
  · omega
  · split <;> omega

theorem roundHalfEven_le_div_iff {num half : Nat} (hodd : num / (2 * half) % 2 = 1) :
    roundHalfEven num (2 * half) ≤ num / (2 * half) ↔ num % (2 * half) < half := by
  unfold roundHalfEven
  dsimp only
  rw [hodd]
  split
  · omega
  · split <;> omega

section Log

variable {n : Nat} (h : 2 ^ 53 ≤ n)
include h

theorem significant_eq :
    significant n = roundHalfEven n (2 ^ (n.log2 - 52)) * 2 ^ (n.log2 - 52) := by
  have hn : ¬ n < twoTo 53 := Nat.not_lt.2 h
  rw [significant, if_neg hn]
  rfl

theorem le_log2 : 53 ≤ n.log2 := by
  rw [Nat.le_log2 (by omega)]
  exact h

theorem two_pow_log2_eq : 2 ^ n.log2 = 2 ^ 52 * 2 ^ (n.log2 - 52) := by
  have := le_log2 h
  rw [← Nat.pow_add]
  congr 1
  omega

theorem two_pow_log2_le_significant : 2 ^ n.log2 ≤ significant n := by
  have hdiv : 2 ^ 52 ≤ n / 2 ^ (n.log2 - 52) := by
    rw [Nat.le_div_iff_mul_le (Nat.two_pow_pos _), ← two_pow_log2_eq h]
    exact Nat.log2_self_le (by omega)
  rw [significant_eq h, two_pow_log2_eq h]
  exact Nat.mul_le_mul_right _ (Nat.le_trans hdiv (div_le_roundHalfEven _ _))

theorem div_unit_lt : n / 2 ^ (n.log2 - 52) < 2 ^ 53 := by
  have hlt : n < 2 ^ (n.log2 + 1) := Nat.lt_log2_self
  have e : 2 ^ (n.log2 + 1) = 2 ^ 53 * 2 ^ (n.log2 - 52) := by
    rw [Nat.pow_succ, two_pow_log2_eq h]
    omega
  rwa [Nat.div_lt_iff_lt_mul (Nat.two_pow_pos _), ← e]

theorem significant_le_two_pow : significant n ≤ 2 ^ (n.log2 + 1) := by
  have hdiv := div_unit_lt h
  have hround := roundHalfEven_le n (2 ^ (n.log2 - 52))
  have hle : significant n ≤ 2 ^ 53 * 2 ^ (n.log2 - 52) := by
    rw [significant_eq h]
    exact Nat.mul_le_mul_right _ (by omega)
  rw [Nat.pow_succ, two_pow_log2_eq h]
  omega

end Log

theorem significant_lt_iff_of_log2 {n j : Nat} (h : 2 ^ 53 ≤ n) (hlog : n.log2 = j + 53) :
    significant n < 2 ^ (j + 54) ↔ n < 2 ^ (j + 54) - 2 ^ j := by
  have hunit : 2 ^ (n.log2 - 52) = 2 * 2 ^ j := by
    rw [hlog, ← Nat.pow_succ']
    congr 1
  have hdiv := div_unit_lt h
  have hsig := significant_eq h
  rw [hunit] at hdiv hsig
  have htotal : 2 ^ (j + 54) = 2 ^ 53 * (2 * 2 ^ j) := by
    rw [Nat.pow_add]
    omega
  have hpos : 0 < 2 * 2 ^ j := Nat.mul_pos (by omega) (Nat.two_pow_pos j)
  have hmod := Nat.div_add_mod n (2 * 2 ^ j)
  have hlt := Nat.mod_lt n hpos
  rw [hsig, htotal, Nat.mul_lt_mul_right hpos]
  rcases Nat.lt_or_ge (n / (2 * 2 ^ j) + 1) (2 ^ 53) with hq | hq
  · have hround := roundHalfEven_le n (2 * 2 ^ j)
    have hmul : (2 * 2 ^ j) * (n / (2 * 2 ^ j)) ≤ (2 * 2 ^ j) * (2 ^ 53 - 2) :=
      Nat.mul_le_mul_left _ (by omega)
    constructor
    · intro _
      omega
    · intro _
      omega
  · -- The quotient is the last one, an odd number, so that a half of the unit goes up.
    have hq : n / (2 * 2 ^ j) = 2 ^ 53 - 1 := by omega
    have hodd : n / (2 * 2 ^ j) % 2 = 1 := by omega
    have hround := roundHalfEven_le_div_iff hodd
    rw [hq] at hround hmod
    constructor
    · intro hr
      have := hround.1 (by omega)
      omega
    · intro hn
      have := hround.2 (by omega)
      omega

theorem significant_lt_iff {n k : Nat} (hk : 54 ≤ k) :
    significant n < 2 ^ k ↔ n < 2 ^ k - 2 ^ (k - 54) := by
  obtain ⟨j, rfl⟩ : ∃ j, k = j + 54 := ⟨k - 54, by omega⟩
  have htotal : 2 ^ (j + 54) = 2 ^ 54 * 2 ^ j := by rw [Nat.pow_add, Nat.mul_comm]
  have hpos : 1 ≤ 2 ^ j := Nat.one_le_two_pow
  rw [Nat.add_sub_cancel]
  rcases Nat.lt_or_ge n (2 ^ 53) with h | h
  · have hsig : significant n = n := if_pos h
    rw [hsig, htotal]
    constructor <;> intro _ <;> omega
  · rcases Nat.lt_trichotomy n.log2 (j + 53) with hlog | hlog | hlog
    · have hle := significant_le_two_pow h
      have hn : n < 2 ^ (n.log2 + 1) := Nat.lt_log2_self
      have hpow : 2 ^ (n.log2 + 1) ≤ 2 ^ (j + 53) := Nat.pow_le_pow_right (by omega) (by omega)
      rw [Nat.pow_add 2 j 53] at hpow
      rw [htotal]
      constructor <;> intro _ <;> omega
    · exact significant_lt_iff_of_log2 h hlog
    · have hle := two_pow_log2_le_significant h
      have hn : 2 ^ n.log2 ≤ n := Nat.log2_self_le (by omega)
      have hpow : 2 ^ (j + 54) ≤ 2 ^ n.log2 := Nat.pow_le_pow_right (by omega) (by omega)
      constructor <;> intro _ <;> omega

end DavQuery.Number
