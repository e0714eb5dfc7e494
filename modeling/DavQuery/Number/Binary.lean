import DavQuery.Number.Rounding

/-!
Binary numbers of 53 significant bits with exponents from -1074 to 971, infinities and what is no
number. A decimal becomes the nearest of them, of two the one with the even mantissa.
-/

namespace DavQuery.Number

inductive Binary where
  /-- The mantissa times two to the exponent, perhaps negated. -/
  | finite (negative : Bool) (mantissa : Nat) (exponent : Int)
  | infinite (negative : Bool)
  | undefined
  deriving Repr, DecidableEq

namespace Binary

def isZero : Binary → Bool
  | .finite _ m _ => m == 0
  | _ => false

def scaled (num den : Nat) (exponent : Int) : Nat × Nat :=
  if exponent < 0 then (num * twoTo (-exponent).toNat, den)
  else (num, den * twoTo exponent.toNat)

def floorLog (num den : Nat) : Int :=
  let l : Int := (num.log2 : Int) - den.log2
  let (n, d) := scaled num den l
  if n < d then l - 1 else l

/-- The number of a mantissa of at most `2 ^ 53`; one of so many bits is halved, and one that is too
big is infinite. -/
def normalized (negative : Bool) (mantissa : Nat) (exponent : Int) : Binary :=
  let (mantissa, exponent) :=
    if mantissa = twoTo 53 then (twoTo 52, exponent + 1) else (mantissa, exponent)
  if exponent ≤ 971 then .finite negative mantissa exponent else .infinite negative

def ofQuotient (negative : Bool) (num den : Nat) : Binary :=
  if num = 0 then .finite negative 0 0
  else
    let exponent := max (-1074) (floorLog num den - 52)
    let (n, d) := scaled num den exponent
    normalized negative (roundHalfEven n d) exponent

/-- The number nearest to `digits * 10 ^ exponent`; `count` is the number of digits. -/
def ofDecimal (negative : Bool) (digits count : Nat) (exponent : Int) : Binary :=
  if digits = 0 then .finite negative 0 0
  else if 400 < count + exponent then .infinite negative
  else if count + exponent < -400 then .finite negative 0 0
  else if exponent < 0 then ofQuotient negative digits (tenTo (-exponent).toNat)
  else ofQuotient negative (digits * tenTo exponent.toNat) 1

end Binary

end DavQuery.Number
