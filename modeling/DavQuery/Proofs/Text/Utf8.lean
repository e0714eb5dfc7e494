import DavQuery.Text.Utf8
import Mathlib.Data.List.Basic

/-! Octets read as UTF-8. Each character is read back from the octets that write it, whatever
follows, and an octet of ASCII ends whatever has begun before it. -/

namespace DavQuery.Text.Utf8

theorem toNat_toUInt8 {n : Nat} (h : n < 256) : n.toUInt8.toNat = n := by
  simpa using Nat.mod_eq_of_lt h

theorem toNat_range (c : Char) :
    c.toNat < 0xD800 ∨ 0xDFFF < c.toNat ∧ c.toNat < 0x110000 := c.valid

theorem encodeChar_ne_nil (c : Char) : encodeChar c ≠ [] := by
  unfold encodeChar
  dsimp only
  split_ifs <;> simp

theorem decodeLenient_ne_nil {bs : List UInt8} (h : bs ≠ []) : decodeLenient bs ≠ [] := by
  obtain ⟨b, rest, rfl⟩ := List.exists_cons_of_ne_nil h
  simp [decodeLenient, scan]

theorem scan_cons (b : UInt8) (rest : List UInt8) :
    scan (b :: rest) = (step b rest).1 :: scan (rest.drop (step b rest).2) := by
  rw [scan]

theorem step_of_lead {b : UInt8} {l : Lead} {rest : List UInt8} {n used : Nat}
    (hb : 0x80 ≤ b.toNat) (hl : lead? b = some l)
    (htails : readTails l.tails l.low l.high l.bits rest = (some n, used)) :
    step b rest = (some (Char.ofNat n), used) := by
  simp [step, Nat.not_lt.2 hb, hl, htails]

theorem readTails_cons {k low high acc m : Nat} {rest : List UInt8} (hm : m < 64)
    (hlow : low ≤ 0x80 + m) (hhigh : 0x80 + m ≤ high) :
    readTails (k + 1) low high acc ((0x80 + m).toUInt8 :: rest) =
      ((readTails k 0x80 0xBF (acc * 64 + m) rest).1,
        (readTails k 0x80 0xBF (acc * 64 + m) rest).2 + 1) := by
  have hb : (0x80 + m).toUInt8.toNat = 0x80 + m := toNat_toUInt8 (by omega)
  rw [readTails, hb, if_pos ⟨hlow, hhigh⟩, Nat.add_sub_cancel_left]

theorem lead?_of_two {m : Nat} (hlow : 2 ≤ m) (hhigh : m < 32) :
    lead? (0xC0 + m).toUInt8 = some ⟨1, 0x80, 0xBF, m⟩ := by
  have hb : (0xC0 + m).toUInt8.toNat = 0xC0 + m := toNat_toUInt8 (by omega)
  simp only [lead?, hb]
  rw [if_neg (by omega), if_pos (by omega), Nat.add_sub_cancel_left]

theorem lead?_of_three {m : Nat} (hm : m < 16) :
    lead? (0xE0 + m).toUInt8 =
      some ⟨2, if m = 0 then 0xA0 else 0x80, if m = 0xD then 0x9F else 0xBF, m⟩ := by
  -- Below the bounds of the second octet it would be a character of two octets, above them half of
  -- a pair.
  have hb : (0xE0 + m).toUInt8.toNat = 0xE0 + m := toNat_toUInt8 (by omega)
  simp only [lead?, hb]
  rw [if_neg (by omega), if_neg (by omega)]
  by_cases h0 : m = 0
  · simp [h0]
  by_cases hD : m = 0xD
  · simp [hD]
  rw [if_neg (by omega), if_neg (by omega), if_pos (by omega), if_neg h0, if_neg hD,
    Nat.add_sub_cancel_left]

theorem lead?_of_four {m : Nat} (hm : m < 5) :
    lead? (0xF0 + m).toUInt8 =
      some ⟨3, if m = 0 then 0x90 else 0x80, if m = 4 then 0x8F else 0xBF, m⟩ := by
  -- Below the bounds of the second octet it would be a character of three octets, above them none.
  have hb : (0xF0 + m).toUInt8.toNat = 0xF0 + m := toNat_toUInt8 (by omega)
  simp only [lead?, hb]
  rw [if_neg (by omega), if_neg (by omega), if_neg (by omega), if_neg (by omega), if_neg (by omega)]
  by_cases h0 : m = 0
  · simp [h0]
  by_cases h4 : m = 4
  · simp [h4]
  rw [if_neg (by omega), if_pos (by omega), if_neg h0, if_neg h4, Nat.add_sub_cancel_left]

theorem scan_of_step {b : UInt8} (tails : List UInt8) {bs : List UInt8} {c : Char}
    (h : step b (tails ++ bs) = (some c, tails.length)) :
    scan (b :: (tails ++ bs)) = some c :: scan bs := by
  rw [scan_cons, h, List.drop_left]

theorem scan_encodeChar_append (c : Char) (bs : List UInt8) :
    scan (encodeChar c ++ bs) = some c :: scan bs := by
  have hc : Char.ofNat c.toNat = c := Char.ofNat_toNat c
  have hrange := toNat_range c
  unfold encodeChar
  generalize c.toNat = n at hc hrange
  dsimp only
  split_ifs with h1 h2 h3
  · have hb : n.toUInt8.toNat = n := toNat_toUInt8 (by omega)
    exact scan_of_step [] (by simp [step, hb, h1, hc])
  · have hb : (0xC0 + n / 64).toUInt8.toNat = 0xC0 + n / 64 := toNat_toUInt8 (by omega)
    have htails : readTails 1 0x80 0xBF (n / 64) ((0x80 + n % 64).toUInt8 :: bs) = (some n, 1) := by
      rw [readTails_cons (by omega) (by omega) (by omega), readTails, Nat.div_add_mod']
    have hlead := lead?_of_two (m := n / 64) (by omega) (by omega)
    have hstep := step_of_lead (by omega) hlead htails
    rw [hc] at hstep
    exact scan_of_step [_] hstep
  · have hb : (0xE0 + n / 4096).toUInt8.toNat = 0xE0 + n / 4096 := toNat_toUInt8 (by omega)
    have htails : readTails 2 (if n / 4096 = 0 then 0xA0 else 0x80)
        (if n / 4096 = 0xD then 0x9F else 0xBF) (n / 4096)
        ((0x80 + n / 64 % 64).toUInt8 :: (0x80 + n % 64).toUInt8 :: bs) = (some n, 2) := by
      rw [readTails_cons (by omega) (by split_ifs <;> omega) (by split_ifs <;> omega),
        readTails_cons (by omega) (by omega) (by omega), readTails]
      have hn : (n / 4096 * 64 + n / 64 % 64) * 64 + n % 64 = n := by omega
      rw [hn]
    have hstep := step_of_lead (by omega) (lead?_of_three (m := n / 4096) (by omega)) htails
    rw [hc] at hstep
    exact scan_of_step [_, _] hstep
  · have hb : (0xF0 + n / 262144).toUInt8.toNat = 0xF0 + n / 262144 := toNat_toUInt8 (by omega)
    have htails : readTails 3 (if n / 262144 = 0 then 0x90 else 0x80)
        (if n / 262144 = 4 then 0x8F else 0xBF) (n / 262144)
        ((0x80 + n / 4096 % 64).toUInt8 :: (0x80 + n / 64 % 64).toUInt8 ::
          (0x80 + n % 64).toUInt8 :: bs) = (some n, 3) := by
      rw [readTails_cons (by omega) (by split_ifs <;> omega) (by split_ifs <;> omega),
        readTails_cons (by omega) (by omega) (by omega),
        readTails_cons (by omega) (by omega) (by omega), readTails]
      have hn : ((n / 262144 * 64 + n / 4096 % 64) * 64 + n / 64 % 64) * 64 + n % 64 = n := by
        omega
      rw [hn]
    have hstep := step_of_lead (by omega) (lead?_of_four (m := n / 262144) (by omega)) htails
    rw [hc] at hstep
    exact scan_of_step [_, _, _] hstep

theorem encode_cons (c : Char) (s : List Char) : encode (c :: s) = encodeChar c ++ encode s :=
  List.flatMap_cons

theorem decodeLenient_encode_append (s : List Char) (bs : List UInt8) :
    decodeLenient (encode s ++ bs) = s ++ decodeLenient bs := by
  induction s with
  | nil => rfl
  | cons c r ih =>
    rw [encode_cons, List.append_assoc, decodeLenient, scan_encodeChar_append, List.map_cons,
      ← decodeLenient, ih, List.cons_append, Option.getD_some]

theorem scan_encode (s : List Char) : scan (encode s) = s.map some := by
  induction s with
  | nil => simp [encode, scan]
  | cons c s ih => rw [encode_cons, scan_encodeChar_append, ih, List.map_cons]

theorem decode?_encode (s : List Char) : decode? (encode s) = some s := by
  have hpure : s.mapM (pure : Char → Option Char) = pure (s.map id) := List.mapM_pure
  rw [decode?, scan_encode, List.mapM_map]
  simpa using hpure

theorem readTails_append {k low high acc : Nat} {rest : List UInt8} {b : UInt8}
    (hlow : 0x80 ≤ low) (hb : b.toNat < 0x80) (bs : List UInt8) :
    readTails k low high acc (rest ++ b :: bs) = readTails k low high acc rest := by
  induction k generalizing low high acc rest with
  | zero => rfl
  | succ k ih =>
    cases rest with
    | nil => rw [List.nil_append, readTails, readTails, if_neg (by omega)]
    | cons a rest =>
      simp only [List.cons_append, readTails, ih (Nat.le_refl 0x80)]

theorem readTails_snd_le (k low high acc : Nat) (rest : List UInt8) :
    (readTails k low high acc rest).2 ≤ rest.length := by
  induction k generalizing low high acc rest with
  | zero => exact Nat.zero_le _
  | succ k ih =>
    cases rest with
    | nil => exact Nat.zero_le _
    | cons a rest =>
      rw [readTails]
      split_ifs
      · exact Nat.succ_le_succ (ih _ _ _ rest)
      · exact Nat.zero_le _

theorem le_low_of_lead? {a : UInt8} {l : Lead} (h : lead? a = some l) : 0x80 ≤ l.low := by
  unfold lead? at h
  dsimp only at h
  split_ifs at h <;> cases h <;> simp

theorem step_append {a b : UInt8} (hb : b.toNat < 0x80) (rest bs : List UInt8) :
    step a (rest ++ b :: bs) = step a rest := by
  unfold step
  split_ifs
  · rfl
  · cases hl : lead? a with
    | none => rfl
    | some l => simp only [readTails_append (le_low_of_lead? hl) hb]

theorem step_snd_le (a : UInt8) (rest : List UInt8) : (step a rest).2 ≤ rest.length := by
  unfold step
  split_ifs
  · exact Nat.zero_le _
  · cases lead? a with
    | none => exact Nat.zero_le _
    | some l => exact readTails_snd_le ..

theorem scan_append {b : UInt8} (hb : b.toNat < 0x80) (as bs : List UInt8) :
    scan (as ++ b :: bs) = scan as ++ scan (b :: bs) := by
  induction as using scan.induct with
  | case1 => simp [scan]
  | case2 a rest ih =>
    rw [List.cons_append, scan_cons, scan_cons a rest, step_append hb,
      List.drop_append_of_le_length (step_snd_le a rest), ih, List.cons_append]

theorem decodeLenient_append {b : UInt8} (hb : b.toNat < 0x80) (as bs : List UInt8) :
    decodeLenient (as ++ b :: bs) = decodeLenient as ++ decodeLenient (b :: bs) := by
  rw [decodeLenient, scan_append hb, List.map_append, ← decodeLenient, ← decodeLenient]

end DavQuery.Text.Utf8
