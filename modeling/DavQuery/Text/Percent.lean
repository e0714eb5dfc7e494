import DavQuery.Text.Digit
import DavQuery.Text.Utf8

/-!
Percent-encoding. Writing keeps the unreserved characters and escapes every octet of any other;
reading turns escapes into octets, leaves what is no escape, and reads the octets as UTF-8.
-/

namespace DavQuery.Text.Percent

def isUnreserved (c : Char) : Bool :=
  c.isAlphanum || c == '_' || c == '.' || c == '-' || c == '~'

def escape (b : UInt8) : List Char := '%' :: hexCapital 2 b.toNat

def escapeChar (c : Char) : List Char := (Utf8.encodeChar c).flatMap escape

def encode (s : List Char) : List Char :=
  s.flatMap fun c => if isUnreserved c then [c] else escapeChar c

/-- The octet that an escape at the start of a text writes, and what follows it. -/
def readEscape? : List Char → Option (UInt8 × List Char)
  | '%' :: a :: b :: r => do return (((← hexValue? a) * 16 + (← hexValue? b)).toUInt8, r)
  | _ => none

theorem length_of_readEscape? {s r : List Char} {b : UInt8} (h : readEscape? s = some (b, r)) :
    r.length < s.length := by
  unfold readEscape? at h
  split at h
  · rename_i a b' r'
    cases ha : hexValue? a <;> cases hb : hexValue? b' <;>
      simp_all [bind, Option.bind, pure]
    omega
  · simp at h

/-- The octets of a text: one for an escape, those of UTF-8 for any other character. -/
def octets : List Char → List UInt8
  | [] => []
  | c :: r =>
    match h : readEscape? (c :: r) with
    | some (b, rest) =>
      have := length_of_readEscape? h
      b :: octets rest
    | none => Utf8.encodeChar c ++ octets r
termination_by s => s.length
decreasing_by all_goals (simp only [List.length_cons] at *; omega)

def decode (s : List Char) : List Char := Utf8.decodeLenient (octets s)

end DavQuery.Text.Percent
