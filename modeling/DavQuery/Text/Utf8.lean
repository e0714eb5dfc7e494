/-!
UTF-8: characters as octets and back. Reading finds the characters and, where the octets are no
character, the longest parts that could have begun one; a strict reader refuses such a part, a
lenient one shows the replacement character for each.
-/

namespace DavQuery.Text.Utf8

def encodeChar (c : Char) : List UInt8 :=
  let n := c.toNat
  if n < 0x80 then [n.toUInt8]
  else if n < 0x800 then [(0xC0 + n / 64).toUInt8, (0x80 + n % 64).toUInt8]
  else if n < 0x10000 then
    [(0xE0 + n / 4096).toUInt8, (0x80 + n / 64 % 64).toUInt8, (0x80 + n % 64).toUInt8]
  else
    [(0xF0 + n / 262144).toUInt8, (0x80 + n / 4096 % 64).toUInt8, (0x80 + n / 64 % 64).toUInt8,
      (0x80 + n % 64).toUInt8]

def encode (s : List Char) : List UInt8 := s.flatMap encodeChar

/-- What a first octet announces: how many octets follow, the bounds of the next one, and the part
of the code point that the first octet holds. -/
structure Lead where
  tails : Nat
  low : Nat
  high : Nat
  bits : Nat

def lead? (b : UInt8) : Option Lead :=
  let n := b.toNat
  if n < 0xC2 then none
  else if n < 0xE0 then some ⟨1, 0x80, 0xBF, n - 0xC0⟩
  else if n = 0xE0 then some ⟨2, 0xA0, 0xBF, 0⟩
  else if n = 0xED then some ⟨2, 0x80, 0x9F, 0xD⟩
  else if n < 0xF0 then some ⟨2, 0x80, 0xBF, n - 0xE0⟩
  else if n = 0xF0 then some ⟨3, 0x90, 0xBF, 0⟩
  else if n < 0xF4 then some ⟨3, 0x80, 0xBF, n - 0xF0⟩
  else if n = 0xF4 then some ⟨3, 0x80, 0x8F, 4⟩
  else none

/-- Reads `tails` following octets, the first within the bounds: the code point if all are there,
and how many octets fitted. -/
def readTails : Nat → Nat → Nat → Nat → List UInt8 → Option Nat × Nat
  | 0, _, _, acc, _ => (some acc, 0)
  | k + 1, low, high, acc, bs =>
    match bs with
    | [] => (none, 0)
    | b :: rest =>
      if low ≤ b.toNat ∧ b.toNat ≤ high then
        let (n, used) := readTails k 0x80 0xBF (acc * 64 + (b.toNat - 0x80)) rest
        (n, used + 1)
      else (none, 0)

/-- The first character, or nothing for a part that is none, and how many octets after the first
belong to it. -/
def step (b : UInt8) (rest : List UInt8) : Option Char × Nat :=
  if b.toNat < 0x80 then (some (Char.ofNat b.toNat), 0)
  else
    match lead? b with
    | none => (none, 0)
    | some l =>
      let (n, used) := readTails l.tails l.low l.high l.bits rest
      (n.map Char.ofNat, used)

/-- The characters of the octets; nothing stands for each longest part that is no character. -/
def scan : List UInt8 → List (Option Char)
  | [] => []
  | b :: rest => (step b rest).1 :: scan (rest.drop (step b rest).2)
termination_by bs => bs.length
decreasing_by simp only [List.length_drop, List.length_cons]; omega

def decode? (bs : List UInt8) : Option (List Char) := (scan bs).mapM id

/-- The text, with the replacement character for each part that is no character. -/
def decodeLenient (bs : List UInt8) : List Char :=
  (scan bs).map (·.getD (Char.ofNat 0xFFFD))

def endsOpen : List UInt8 → Bool
  | [] => false
  | b :: rest =>
    match step b rest with
    | (none, used) => (lead? b).isSome && used == rest.length
    | (some _, used) => endsOpen (rest.drop used)
termination_by bs => bs.length
decreasing_by simp only [List.length_drop, List.length_cons]; omega

end DavQuery.Text.Utf8
