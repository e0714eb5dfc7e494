import DavQuery.Number.Binary

/-!
The shortest decimal that reads back as a binary number: of all decimals in the interval that rounds
to it one with the fewest digits, and of those the nearest. It is written with a point, or with an
exponent from `1e+16` on and below `0.0001`.
-/

namespace DavQuery.Number.Binary

/-- A positive number as a quotient of four times its size, and the half gaps below and above it in
the same measure. -/
structure Interval where
  value : Nat
  below : Nat
  above : Nat
  den : Nat
  /-- Whether the ends read back too. -/
  closed : Bool

def interval (mantissa : Nat) (exponent : Int) : Interval :=
  let (n, d) := scaled 1 1 (-exponent)
  let below := if mantissa = twoTo 52 ∧ -1074 < exponent then 1 else 2
  ⟨4 * mantissa * n, below * n, 2 * n, 4 * d, mantissa % 2 == 0⟩

def Interval.holds (i : Interval) (num den : Nat) : Bool :=
  let (x, low, high) := (num * i.den, (i.value - i.below) * den, (i.value + i.above) * den)
  if i.closed then low ≤ x && x ≤ high else low < x && x < high

/-- The multiple of `10 ^ unit` next to the number that lies in the interval, if there is one. -/
def Interval.onGrid? (i : Interval) (unit : Int) : Option Nat :=
  let (up, down) := (tenTo unit.toNat, tenTo (-unit).toNat)
  let low := i.value * down / (i.den * up)
  let isIn (k : Nat) := i.holds (k * up) down
  let twice := 2 * i.value * down
  let middle := (2 * low + 1) * (i.den * up)
  match isIn low && low != 0, isIn (low + 1) with
  | true, true =>
    some (if twice < middle || twice == middle && low % 2 == 0 then low else low + 1)
  | true, false => some low
  | false, true => some (low + 1)
  | false, false => none

def Interval.floorLogTen (i : Interval) : Int :=
  if i.den ≤ i.value then ((Nat.toDigits 10 (i.value / i.den)).length : Int) - 1
  else
    let quotient := (i.den + i.value - 1) / i.value
    Int.negOfNat (Nat.toDigits 10 (quotient - 1)).length

/-- The shortest digits on the grids from `count` digits on, and the exponent of the last one. -/
def Interval.shortest (i : Interval) (top : Int) : Nat → Nat → Nat × Int
  | count, 0 => ((i.onGrid? (top - count)).getD 0, top - count)
  | count, more + 1 =>
    match i.onGrid? (top - count) with
    | some k => (k, top - count)
    | none => i.shortest top (count + 1) more

def trimZeros (digits : List Char) (exponent : Int) : List Char × Int :=
  let kept := (digits.reverse.dropWhile (· == '0')).reverse
  (kept, exponent + (digits.length - kept.length : Nat))

def layOut (digits : List Char) (exponent : Int) : List Char :=
  let point : Int := digits.length + exponent
  if -4 < point ∧ point ≤ 16 then
    if point ≤ 0 then '0' :: '.' :: List.replicate (-point).toNat '0' ++ digits
    else if 0 ≤ exponent then digits ++ List.replicate exponent.toNat '0' ++ ['.', '0']
    else digits.take point.toNat ++ '.' :: digits.drop point.toNat
  else
    let power := point - 1
    let fraction := digits.drop 1
    digits.take 1 ++ (if fraction.isEmpty then [] else '.' :: fraction) ++
      'e' :: (if power < 0 then '-' else '+') :: padded 2 power.natAbs

def positiveText (mantissa : Nat) (exponent : Int) : List Char :=
  let i := interval mantissa exponent
  let (k, e) := i.shortest i.floorLogTen 0 17
  let (digits, e) := trimZeros (Nat.toDigits 10 k) e
  layOut digits e

def text : Binary → List Char
  | .undefined => ['n', 'a', 'n']
  | .infinite negative => (if negative then ['-'] else []) ++ ['i', 'n', 'f']
  | .finite negative m e =>
    (if negative then ['-'] else []) ++ if m = 0 then ['0', '.', '0'] else positiveText m e

end DavQuery.Number.Binary
