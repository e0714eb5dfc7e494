/-!
Punycode: a text beyond ASCII as the ASCII characters in it and numbers that tell where the others
go in. The numbers are written with digits whose weights adapt to those before.
-/

namespace DavQuery.Text.Punycode

def digit (n : Nat) : Char := Char.ofNat (if n < 26 then 97 + n else 22 + n)

/-- Divides a distance until it is small: what is left, and thirty-six for each step. -/
def shrink : Nat → Nat → Nat → Nat × Nat
  | 0, delta, k => (delta, k)
  | steps + 1, delta, k =>
    if 455 < delta then shrink steps (delta / 35) (k + 36) else (delta, k)

def adapt (delta count : Nat) (first : Bool) : Nat :=
  let delta := if first then delta / 700 else delta / 2
  let delta := delta + delta / count
  let (delta, k) := shrink delta delta 0
  k + 36 * delta / (delta + 38)

def digits (bias : Nat) (n k : Nat) : List Char :=
  let threshold := max 1 (min 26 (k - bias))
  if n < threshold then [digit n]
  else
    let base := 36 - threshold
    digit (threshold + (n - threshold) % base) ::
      if h : (n - threshold) / base < n then digits bias ((n - threshold) / base) (k + 36) else []
termination_by n

/-- What has been done: the next distance, the bias, the number of characters placed, and the
digits so far. -/
structure State where
  delta : Nat := 0
  bias : Nat := 72
  placed : Nat
  first : Bool := true
  written : List Char := []

def State.place (point : Nat) (st : State) (c : Char) : State :=
  if c.toNat < point then { st with delta := st.delta + 1 }
  else if c.toNat = point then
    { delta := 0
      bias := adapt st.delta (st.placed + 1) st.first
      placed := st.placed + 1
      first := false
      written := st.written ++ digits st.bias st.delta 36 }
  else st

/-- Places the characters of the code points, which ascend; `previous` is the least that may still
come. -/
def State.run (s : List Char) (st : State) (previous : Nat) : List Nat → State
  | [] => st
  | point :: r =>
    let st := { st with delta := st.delta + (point - previous) * (st.placed + 1) }
    let st := s.foldl (State.place point) st
    ({ st with delta := st.delta + 1 } : State).run s (point + 1) r

def encode (s : List Char) : List Char :=
  let basic := s.filter (·.toNat < 128)
  let others := ((s.map Char.toNat).filter (128 ≤ ·)).mergeSort.eraseDups
  let st : State := { placed := basic.length }
  basic ++ (if basic.isEmpty then [] else ['-']) ++ (st.run s 128 others).written

end DavQuery.Text.Punycode
