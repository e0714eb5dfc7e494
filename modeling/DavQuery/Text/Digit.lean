/-!
Sets of code points, written as closed ranges, and digits: those of base sixteen and the decimal
ones of all scripts.
-/

namespace DavQuery.Text

def inRanges (ranges : List (Nat × Nat)) (n : Nat) : Bool :=
  ranges.any fun r => r.1 ≤ n && n ≤ r.2

def hexValue? (c : Char) : Option Nat :=
  let n := c.toNat
  if 48 ≤ n ∧ n ≤ 57 then some (n - 48)
  else if 65 ≤ n ∧ n ≤ 70 then some (n - 55)
  else if 97 ≤ n ∧ n ≤ 102 then some (n - 87)
  else none

/-- The number written in base sixteen with small letters, in exactly `width` digits. -/
def hex : Nat → Nat → List Char
  | 0, _ => []
  | width + 1, n => hex width (n / 16) ++ [(n % 16).digitChar]

/-- The number written in base sixteen with capitals, in exactly `width` digits. -/
def hexCapital (width n : Nat) : List Char := (hex width n).map Char.toUpper

/-- The zeros alone: each script has its ten digits in a row. -/
def digitZeros : List Nat :=
  [
    1632, 1776, 1984, 2406, 2534, 2662, 2790, 2918, 3046, 3174,
    3302, 3430, 3558, 3664, 3792, 3872, 4160, 4240, 6112, 6160,
    6470, 6608, 6784, 6800, 6992, 7088, 7232, 7248, 42528, 43216,
    43264, 43472, 43504, 43600, 44016, 65296, 66720, 68912, 69734, 69872,
    69942, 70096, 70384, 70736, 70864, 71248, 71360, 71472, 71904, 72016,
    72784, 73040, 73120, 92768, 92864, 93008, 120782, 120792, 120802, 120812,
    120822, 123200, 123632, 125264, 130032
  ]

def digitValue? (c : Char) : Option Nat :=
  let n := c.toNat
  if n < 128 then if 48 ≤ n ∧ n < 58 then some (n - 48) else none
  else (digitZeros.find? fun z => z ≤ n && n < z + 10).map (n - ·)

def isDecimal (c : Char) : Bool := (digitValue? c).isSome

/-- Digits that count no tens: superscripts, subscripts, circled digits and the like. -/
def specialDigitRanges : List (Nat × Nat) :=
  [
    (178, 179), (185, 185), (4969, 4977), (6618, 6618), (8304, 8304), (8308, 8313),
    (8320, 8329), (9312, 9320), (9332, 9340), (9352, 9360), (9450, 9450), (9461, 9469),
    (9471, 9471), (10102, 10110), (10112, 10120), (10122, 10130), (68160, 68163), (69216, 69224),
    (69714, 69722), (127232, 127242)
  ]

def isDigitLike (c : Char) : Bool := isDecimal c || inRanges specialDigitRanges c.toNat

end DavQuery.Text
