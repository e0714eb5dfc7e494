/-!
Rounding of exact quotients. A quotient is rounded to a whole number with a half going to the even
neighbour; from this come numbers of 53 significant bits and decimals with a fixed number of places.
-/

namespace DavQuery.Number

abbrev twoTo (n : Nat) : Nat := Nat.pow 2 n

abbrev tenTo (n : Nat) : Nat := Nat.pow 10 n

def roundHalfEven (num den : Nat) : Nat :=
  let q := num / den
  let r := num % den
  if 2 * r < den then q else if den < 2 * r then q + 1 else q + q % 2

def significant (n : Nat) : Nat :=
  if n < twoTo 53 then n
  else
    let unit := twoTo (n.log2 - 52)
    roundHalfEven n unit * unit

def padded (width n : Nat) : List Char :=
  let ds := Nat.toDigits 10 n
  List.replicate (width - ds.length) '0' ++ ds

/-- The quotient `num / den` in decimal digits with `places` places after the point. -/
def fixed (places num den : Nat) : List Char :=
  let k := roundHalfEven (num * tenTo places) den
  Nat.toDigits 10 (k / tenTo places) ++ '.' :: padded places (k % tenTo places)

theorem two_mul_le_roundHalfEven {num den : Nat} (h : 0 < den) :
    2 * num ≤ 2 * (roundHalfEven num den * den) + den := by
  have hd := Nat.div_add_mod num den
  have hm := Nat.mod_lt num h
  have e : num / den * den = den * (num / den) := Nat.mul_comm _ _
  unfold roundHalfEven
  dsimp only
  split
  · omega
  · split
    · rw [Nat.add_mul]; omega
    · rw [Nat.add_mul]; omega

theorem roundHalfEven_two_mul_le {num den : Nat} (h : 0 < den) :
    2 * (roundHalfEven num den * den) ≤ 2 * num + den := by
  have hd := Nat.div_add_mod num den
  have hm := Nat.mod_lt num h
  have e : num / den * den = den * (num / den) := Nat.mul_comm _ _
  unfold roundHalfEven
  dsimp only
  split
  · omega
  · split
    · rw [Nat.add_mul]; omega
    · have hp : num / den % 2 < 2 := Nat.mod_lt _ (by omega)
      have : num / den % 2 * den ≤ den := by
        rcases Nat.lt_or_ge (num / den % 2) 1 with h0 | h1
        · have : num / den % 2 = 0 := by omega
          simp [this]
        · have : num / den % 2 = 1 := by omega
          simp [this]
      rw [Nat.add_mul]; omega

end DavQuery.Number
