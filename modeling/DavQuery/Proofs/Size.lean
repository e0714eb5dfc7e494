import DavQuery.Proofs.Number.Decimal
import DavQuery.Proofs.Template.Pass
import Mathlib.Tactic.Positivity

/-! What is shown of sizes. A size of at most 53 bits is divided without loss, so that each way to
show it gives the exact quotient, rounded once in its last place. What is read off the text is off
by half a unit of that place at most, and larger sizes are never shown as less, also where the unit
changes. Just below a change the numeral is rounded up to the next unit. -/

namespace DavQuery.Size
open Calendar Number Text

/-- The units of sizes. -/
inductive Scale where
  | byte
  | kibi
  | mebi
  | gibi
  deriving DecidableEq

namespace Scale

def bits : Scale → ℕ
  | .byte => 0
  | .kibi => 10
  | .mebi => 20
  | .gibi => 30

def word : Scale → String
  | .byte => "B"
  | .kibi => "KiB"
  | .mebi => "MiB"
  | .gibi => "GiB"

/-- The greatest unit that a size reaches. -/
def of (n : ℕ) : Scale :=
  if n < 2 ^ 10 then .byte else if n < 2 ^ 20 then .kibi else if n < 2 ^ 30 then .mebi else .gibi

def ofWord? (word : List Char) : Option Scale :=
  [byte, kibi, mebi, gibi].find? fun scale => scale.word.toList = word

theorem ofWord?_word (scale : Scale) : ofWord? scale.word.toList = some scale := by
  cases scale <;> decide

theorem of_eq_byte_iff {n : ℕ} : of n = byte ↔ n < 2 ^ 10 := by
  unfold of
  split_ifs <;> simp_all

theorem between_of_ne {m n : ℕ} (h : m ≤ n) (hne : of m ≠ of n) :
    m ≤ 2 ^ (of n).bits ∧ 2 ^ (of n).bits ≤ n ∧ (of m).bits ≤ (of n).bits := by
  unfold of at hne ⊢
  split_ifs at hne ⊢ <;> simp only [bits] <;> first | omega | exact absurd rfl hne

end Scale

/-- What a text tells of a size: a numeral with so many places, and the unit that it counts. -/
structure Shown where
  numeral : ℚ
  places : ℕ
  scale : Scale

namespace Shown

def bytes (s : Shown) : ℚ := s.numeral * 2 ^ s.scale.bits

def lastPlace (s : Shown) : ℚ := 2 ^ s.scale.bits / 10 ^ s.places

def ofNumeral (scale : Scale) (s : List Char) : Shown :=
  ⟨Number.numeral s, decimals s, scale⟩

def ofText? (s : List Char) : Option Shown :=
  match cutFirst ' ' s with
  | some (digits, word) => (Scale.ofWord? word).map fun scale => ofNumeral scale digits
  | none => none

theorem ofText?_append {digits : List Char} (h : ' ' ∉ digits) (scale : Scale) :
    ofText? (String.ofList digits ++ " " ++ scale.word).toList = some (ofNumeral scale digits) := by
  have htext : (String.ofList digits ++ " " ++ scale.word).toList =
      digits ++ ' ' :: scale.word.toList := by simp
  rw [ofText?, htext, cutFirst_append h]
  simp only [Scale.ofWord?_word, Option.map_some]

def near (scale : Scale) (places n : ℕ) : Shown :=
  ⟨roundHalfEven (n * 10 ^ places) (2 ^ scale.bits) / 10 ^ places, places, scale⟩

theorem ofNumeral_fixed (scale : Scale) {places : ℕ} (h : 0 < places) (n : ℕ) :
    ofNumeral scale (fixed places n (2 ^ scale.bits)) = near scale places n := by
  obtain ⟨hnumeral, hdecimals⟩ := numeral_fixed h n (2 ^ scale.bits)
  rw [ofNumeral, hnumeral, hdecimals, near]

theorem nearestEven_near (scale : Scale) (places n : ℕ) :
    NearestEven (n * 10 ^ places / 2 ^ scale.bits)
      (roundHalfEven (n * 10 ^ places) (2 ^ scale.bits)) := by
  simpa using nearestEven_roundHalfEven (n * 10 ^ places) (Nat.two_pow_pos scale.bits)

theorem abs_bytes_near_sub_le (scale : Scale) (places n : ℕ) :
    |(near scale places n).bytes - n| ≤ (near scale places n).lastPlace / 2 := by
  have hnear := (nearestEven_near scale places n).near
  have hunit : (0 : ℚ) < 2 ^ scale.bits / 10 ^ places := by positivity
  have hsub : (near scale places n).bytes - n =
      -((n * 10 ^ places / 2 ^ scale.bits -
        roundHalfEven (n * 10 ^ places) (2 ^ scale.bits)) *
          (2 ^ scale.bits / 10 ^ places)) := by
    simp only [near, bytes]
    field_simp
    ring
  rw [hsub, abs_neg, abs_mul, abs_of_pos hunit, lastPlace]
  calc _ ≤ 1 / 2 * (2 ^ scale.bits / 10 ^ places : ℚ) :=
        mul_le_mul_of_nonneg_right hnear hunit.le
    _ = _ := by simp only [near]; ring

theorem bytes_near_mono (scale : Scale) (places : ℕ) {m n : ℕ} (h : m ≤ n) :
    (near scale places m).bytes ≤ (near scale places n).bytes := by
  have hle : (m * 10 ^ places / 2 ^ scale.bits : ℚ) ≤ n * 10 ^ places / 2 ^ scale.bits := by
    gcongr
  have hround := (nearestEven_near scale places m).mono (nearestEven_near scale places n) hle
  simp only [near, bytes]
  gcongr

theorem bytes_near_mul (scale : Scale) (places count : ℕ) :
    (near scale places (count * 2 ^ scale.bits)).bytes = (count * 2 ^ scale.bits : ℕ) := by
  have hexact := nearestEven_natCast (count * 10 ^ places)
  have hround := nearestEven_near scale places (count * 2 ^ scale.bits)
  have hquotient : ((count * 2 ^ scale.bits : ℕ) * 10 ^ places / 2 ^ scale.bits : ℚ) =
      (count * 10 ^ places : ℕ) := by
    push_cast
    field_simp
  rw [hquotient] at hround
  rw [near, hround.unique hexact, bytes]
  push_cast
  field_simp

theorem bytes_near_le_of_between {scale scale' : Scale} (places places' : ℕ) {m n : ℕ}
    (hm : m ≤ 2 ^ scale'.bits) (hn : 2 ^ scale'.bits ≤ n) (hbits : scale.bits ≤ scale'.bits) :
    (near scale places m).bytes ≤ (near scale' places' n).bytes := by
  have hpow : 2 ^ (scale'.bits - scale.bits) * 2 ^ scale.bits = 2 ^ scale'.bits := by
    rw [← Nat.pow_add, Nat.sub_add_cancel hbits]
  have hlow := bytes_near_mono scale places hm
  have hhigh := bytes_near_mono scale' places' hn
  rw [← hpow, bytes_near_mul, hpow] at hlow
  rw [← Nat.one_mul (2 ^ scale'.bits), bytes_near_mul, Nat.one_mul] at hhigh
  exact hlow.trans hhigh

end Shown

/-- The ways to show a size: by the tokens of kilobytes and of megabytes, and in the unit that
fits. -/
inductive Style where
  | kilobytes
  | megabytes
  | fitting

namespace Style

def text? : Style → ℕ → Except Breach String
  | .kilobytes, n => Size.kilobytes n
  | .megabytes, n => Size.megabytes n
  | .fitting, n => Size.text n

def read? : Style → String → Option Shown
  | .kilobytes, s => some (.ofNumeral .kibi s.toList)
  | .megabytes, s => some (.ofNumeral .mebi s.toList)
  | .fitting, s => Shown.ofText? s.toList

/-- The size has a text, which is read as what is shown. -/
def Shows (style : Style) (n : ℕ) (shown : Shown) : Prop :=
  ∃ s, style.text? n = .ok s ∧ style.read? s = some shown

/-- What is shown of a size of at most 53 bits. -/
def shown : Style → ℕ → Shown
  | .kilobytes, n => .near .kibi 2 n
  | .megabytes, n => .near .mebi 2 n
  | .fitting, n => .near (.of n) (if n < 2 ^ 10 then 0 else 1) n

theorem bytes_shown_mono (style : Style) {m n : ℕ} (h : m ≤ n) :
    (style.shown m).bytes ≤ (style.shown n).bytes := by
  cases style with
  | kilobytes => exact Shown.bytes_near_mono .kibi 2 h
  | megabytes => exact Shown.bytes_near_mono .mebi 2 h
  | fitting =>
    by_cases hscale : Scale.of m = Scale.of n
    · have hplaces : m < 2 ^ 10 ↔ n < 2 ^ 10 := by
        rw [← Scale.of_eq_byte_iff, ← Scale.of_eq_byte_iff, hscale]
      simp only [shown, hscale, hplaces]
      exact Shown.bytes_near_mono _ _ h
    · obtain ⟨hm, hn, hbits⟩ := Scale.between_of_ne h hscale
      exact Shown.bytes_near_le_of_between _ _ hm hn hbits

theorem shown_of_lt {n : ℕ} (h : n < 2 ^ 10) : fitting.shown n = ⟨n, 0, .byte⟩ := by
  rw [shown, if_pos h, Scale.of_eq_byte_iff.2 h]
  simp [Shown.near, Scale.bits, roundHalfEven, Nat.mod_one]

theorem abs_bytes_shown_sub_le (style : Style) (n : ℕ) :
    |(style.shown n).bytes - n| ≤ (style.shown n).lastPlace / 2 := by
  cases style <;> exact Shown.abs_bytes_near_sub_le ..

end Style

section
variable {n : ℕ} (hn : n < 2 ^ 53)
include hn

theorem quotientText_eq (places bits : ℕ) :
    quotientText places bits n = .ok (String.ofList (fixed places n (2 ^ bits))) := by
  have hsignificant : significant n = n := if_pos hn
  have hlimit : n < twoTo (1024 + bits) :=
    hn.trans_le (Nat.pow_le_pow_right (by decide) (by omega))
  have hsign : ¬ (n : ℤ) < 0 := by omega
  simp only [quotientText, Int.natAbs_natCast, hsignificant, if_pos hlimit, if_neg hsign]
  rfl

theorem rounds_quotientText {places : ℕ} (hplaces : 0 < places) (bits : ℕ) :
    ∃ s, quotientText places bits n = .ok s ∧ Rounds places (n / 2 ^ bits) s.toList := by
  refine ⟨_, quotientText_eq hn places bits, ?_⟩
  rw [String.toList_ofList]
  simpa using rounds_fixed hplaces n (Nat.two_pow_pos bits)

omit hn in
theorem text_of_lt (h : n < 2 ^ 10) :
    text n = .ok (String.ofList (Nat.toDigits 10 n) ++ " " ++ Scale.byte.word) := by
  have hsmall : (n : ℤ) < (twoTo 10 : ℕ) := Int.ofNat_lt.2 h
  have hdigits : toString (n : ℤ) = String.ofList (Nat.toDigits 10 n) :=
    Nat.toString_eq_ofList_toDigits
  rw [text, if_pos hsmall, hdigits, String.append_assoc]
  rfl

theorem text_of_le (h : 2 ^ 10 ≤ n) :
    text n = .ok (String.ofList (fixed 1 n (2 ^ (Scale.of n).bits)) ++ " " ++
      (Scale.of n).word) := by
  have hcast (k : ℕ) : (n : ℤ) < (twoTo k : ℕ) ↔ n < 2 ^ k := Int.ofNat_lt
  simp only [text, hcast, quotientText_eq hn, if_neg (Nat.not_lt.2 h), Scale.of,
    String.append_assoc]
  split_ifs <;> rfl

theorem Style.shows_shown (style : Style) : style.Shows n (style.shown n) := by
  cases style with
  | kilobytes =>
    refine ⟨_, quotientText_eq hn 2 10, ?_⟩
    rw [read?, String.toList_ofList, shown, ← Shown.ofNumeral_fixed .kibi (by decide)]
    rfl
  | megabytes =>
    refine ⟨_, quotientText_eq hn 2 20, ?_⟩
    rw [read?, String.toList_ofList, shown, ← Shown.ofNumeral_fixed .mebi (by decide)]
    rfl
  | fitting =>
    by_cases h : n < 2 ^ 10
    · have hblank : ' ' ∉ Nat.toDigits 10 n := fun hc =>
        absurd (isDigit_of_mem_toDigits hc) (by decide)
      refine ⟨_, text_of_lt h, ?_⟩
      rw [read?, Shown.ofText?_append hblank, Shown.ofNumeral, numeral_toDigits,
        decimals_toDigits, shown_of_lt h]
    · have hblank : ' ' ∉ fixed 1 n (2 ^ (Scale.of n).bits) :=
        notMem_fixed (by decide) _ _ (by decide) (by decide)
      refine ⟨_, text_of_le hn (Nat.not_lt.1 h), ?_⟩
      rw [read?, Shown.ofText?_append hblank, Shown.ofNumeral_fixed _ (by decide), shown, if_neg h]

theorem exists_expand_token_eq {word : List Char} {token : Token}
    (hword : (String.ofList word, token) ∈ Token.words) (zone : Zone) (r : Record) {bits : ℕ}
    (hvalue : token.value zone r = quotientText 2 bits n) :
    ∃ s, quotientText 2 bits n = .ok s ∧
      Template.expand zone (String.ofList (Template.placeholderText word)) r = .ok s ∧
      Rounds 2 (n / 2 ^ bits) s.toList := by
  obtain ⟨s, hs, hrounds⟩ := rounds_quotientText hn (by decide : 0 < 2) bits
  exact ⟨s, hs, (Template.expand_token zone r hword).trans (hvalue.trans hs), hrounds⟩

end

/-- Sizes of at most 53 bits are shown exactly. The tokens show the exact number of kilobytes and of
megabytes rounded to two places, and the text shows the bytes below 1024 and otherwise the exact
number of the greatest unit that is reached, rounded to one place; a half goes to the even digit.
So what is read off each of the three is off by half a unit of its last place at most, and is never
less for a larger size. -/
theorem sizes_shown_exactly {n : ℕ} (hn : n < 2 ^ 53) :
    (∀ (zone : Zone) (r : Record), r.size = n →
      (∃ s, kilobytes n = .ok s ∧ Template.expand zone "\x7b\x7bsizekb\x7d\x7d" r = .ok s ∧
        Rounds 2 (n / 2 ^ 10) s.toList) ∧
      ∃ s, megabytes n = .ok s ∧ Template.expand zone "\x7b\x7bsizemb\x7d\x7d" r = .ok s ∧
        Rounds 2 (n / 2 ^ 20) s.toList) ∧
    (n < 2 ^ 10 → text n = .ok (toString n ++ " B")) ∧
    (2 ^ 10 ≤ n → ∃ s, text n = .ok (s ++ " " ++ (Scale.of n).word) ∧
      Rounds 1 (n / 2 ^ (Scale.of n).bits) s.toList) ∧
    ∀ style : Style, ∃ shown, style.Shows n shown ∧ |shown.bytes - n| ≤ shown.lastPlace / 2 ∧
      ∀ m ≤ n, ∃ less, style.Shows m less ∧ less.bytes ≤ shown.bytes := by
  refine ⟨fun zone r hsize => ⟨?_, ?_⟩, fun h => ?_, fun h => ?_, fun style => ?_⟩
  · exact exists_expand_token_eq hn
      (by decide : (String.ofList "sizekb".toList, Token.kilobytes) ∈ Token.words) zone r
      (congrArg kilobytes hsize)
  · exact exists_expand_token_eq hn
      (by decide : (String.ofList "sizemb".toList, Token.megabytes) ∈ Token.words) zone r
      (congrArg megabytes hsize)
  · rw [text_of_lt h, Nat.toString_eq_ofList_toDigits, String.append_assoc]
    rfl
  · refine ⟨_, text_of_le hn h, ?_⟩
    simpa using rounds_fixed (by decide : 0 < 1) n (Nat.two_pow_pos (Scale.of n).bits)
  · refine ⟨_, style.shows_shown hn, style.abs_bytes_shown_sub_le n, fun m hm => ?_⟩
    exact ⟨_, style.shows_shown (hm.trans_lt hn), style.bytes_shown_mono hm⟩

theorem sizes_shown_exactly_half :
    let r : Record := { name := "a.bin", size := 131072 }
    Template.expand .utc "\x7b\x7bsizemb\x7d\x7d" r = .ok "0.12" ∧
      Rounds 2 ((131072 : ℕ) / 2 ^ 20) "0.12".toList ∧
      text (1280 : ℕ) = .ok "1.2 KiB" ∧ Rounds 1 ((1280 : ℕ) / 2 ^ 10) "1.2".toList ∧
      ∃ shown, Style.fitting.Shows 131072 shown ∧
        |shown.bytes - (131072 : ℕ)| ≤ shown.lastPlace / 2 ∧
        ∃ less, Style.fitting.Shows 1280 less ∧ less.bytes ≤ shown.bytes := by
  intro r
  obtain ⟨htokens, -, -, hstyles⟩ := sizes_shown_exactly (by decide : 131072 < 2 ^ 53)
  obtain ⟨-, -, hone, -⟩ := sizes_shown_exactly (by decide : 1280 < 2 ^ 53)
  obtain ⟨mb, hmb, hshown, hrounds⟩ := (htokens .utc r rfl).2
  have heighth : megabytes (131072 : ℕ) = .ok "0.12" := by decide +kernel
  obtain rfl : mb = "0.12" := Except.ok.inj (hmb.symm.trans heighth)
  obtain ⟨kib, hkib, hrounds'⟩ := hone (by decide)
  have hquarters : text (1280 : ℕ) = .ok ("1.2" ++ " " ++ (Scale.of 1280).word) := by
    decide +kernel
  obtain rfl : kib = "1.2" := (String.append_left_inj _).1
    ((String.append_left_inj _).1 (Except.ok.inj (hkib.symm.trans hquarters)))
  obtain ⟨shown, hshows, hnear, hless⟩ := hstyles .fitting
  exact ⟨hshown, hrounds, hquarters, hrounds', shown, hshows, hnear, hless 1280 (by decide)⟩

/-- The size is shown in the largest unit, or by a numeral below 1024. -/
def Fits (n : ℕ) : Prop :=
  ∃ shown, Style.fitting.Shows n shown ∧ (shown.scale = .gibi ∨ shown.numeral < 1024)

theorem Style.Shows.unique {style : Style} {n : ℕ} {shown shown' : Shown}
    (h : style.Shows n shown) (h' : style.Shows n shown') : shown = shown' := by
  obtain ⟨s, hs, hread⟩ := h
  obtain ⟨s', hs', hread'⟩ := h'
  obtain rfl : s = s' := Except.ok.inj (hs.symm.trans hs')
  exact Option.some.inj (hread.symm.trans hread')

theorem numeral_near_lt_iff (scale : Scale) (n : ℕ) :
    (Shown.near scale 1 n).numeral < 1024 ↔ n * 20 + 2 ^ scale.bits < 20480 * 2 ^ scale.bits := by
  have htenths : (Shown.near scale 1 n).numeral < 1024 ↔
      roundHalfEven (n * 10) (2 ^ scale.bits) < 10240 := by
    rw [Shown.near, pow_one, div_lt_iff₀ (by norm_num), pow_one,
      ← Nat.cast_lt (α := ℚ)]
    norm_num
  have hreach := le_roundHalfEven_iff (n * 10) (Nat.two_pow_pos scale.bits)
    (by decide : Even 10240)
  rw [htenths, ← not_iff_not, not_lt, hreach]
  omega

theorem fits_iff_shown {n : ℕ} (hn : n < 2 ^ 53) : Fits n ↔
    (Style.fitting.shown n).scale = .gibi ∨ (Style.fitting.shown n).numeral < 1024 := by
  constructor
  · rintro ⟨shown, hshows, hfits⟩
    rwa [(Style.fitting.shows_shown hn).unique hshows]
  · exact fun hfits => ⟨_, Style.fitting.shows_shown hn, hfits⟩

theorem fits_iff_not_below {n : ℕ} (hn : n < 2 ^ 53) : Fits n ↔
    ¬ (2 ^ 20 - 51 ≤ n ∧ n < 2 ^ 20) ∧ ¬ (2 ^ 30 - 52428 ≤ n ∧ n < 2 ^ 30) := by
  rw [fits_iff_shown hn]
  by_cases hbytes : n < 2 ^ 10
  · have hlt : (Style.fitting.shown n).numeral < 1024 := by
      have hcast : (n : ℚ) < 1024 := by exact_mod_cast hbytes
      rwa [Style.shown_of_lt hbytes]
    simp only [hlt, or_true, true_iff]
    omega
  · have hshown : Style.fitting.shown n = .near (.of n) 1 n := by
      rw [Style.shown, if_neg hbytes]
    rw [hshown, numeral_near_lt_iff]
    simp only [Shown.near, Scale.of, if_neg hbytes]
    split_ifs <;> simp only [false_or, true_or, true_iff, Scale.bits] <;> omega

theorem text_of_below {n : ℕ} (hn : n < 2 ^ 53) (hle : 2 ^ 10 ≤ n)
    (hnear : 20479 * 2 ^ (Scale.of n).bits ≤ n * 20) (hlt : n < 1024 * 2 ^ (Scale.of n).bits) :
    text n = .ok ("1024.0 " ++ (Scale.of n).word) := by
  have hpos := Nat.two_pow_pos (Scale.of n).bits
  have htenths : roundHalfEven (n * tenTo 1) (2 ^ (Scale.of n).bits) = 10240 := by
    refine le_antisymm (Nat.le_of_not_lt fun hgt => ?_)
      ((le_roundHalfEven_iff (n * tenTo 1) hpos (by decide)).2 ?_)
    · have hmore := Nat.mul_le_mul_right (2 ^ (Scale.of n).bits) hgt
      have habove : 2 * (roundHalfEven (n * tenTo 1) (2 ^ (Scale.of n).bits) *
          2 ^ (Scale.of n).bits) ≤ 2 * (n * 10) + 2 ^ (Scale.of n).bits :=
        roundHalfEven_two_mul_le hpos
      omega
    · show 2 * (10240 * 2 ^ (Scale.of n).bits) ≤ 2 * (n * 10) + 2 ^ (Scale.of n).bits
      omega
  have hfixed : fixed 1 n (2 ^ (Scale.of n).bits) = "1024.0".toList := by
    simp only [fixed, htenths]
    decide
  rw [text_of_le hn hle, hfixed, String.ofList_toList]
  rfl

/-- A size is shown by a numeral below 1024 or in the largest unit, unless it lies less than half a
tenth of its unit below the next one: then it is shown as 1024.0 of its own. -/
theorem fits_unit_iff {n : ℕ} (hn : n < 2 ^ 53) :
    (Fits n ↔ ¬ (2 ^ 20 - 51 ≤ n ∧ n < 2 ^ 20) ∧ ¬ (2 ^ 30 - 52428 ≤ n ∧ n < 2 ^ 30)) ∧
    (2 ^ 20 - 51 ≤ n → n < 2 ^ 20 → text n = .ok "1024.0 KiB") ∧
    (2 ^ 30 - 52428 ≤ n → n < 2 ^ 30 → text n = .ok "1024.0 MiB") := by
  refine ⟨fits_iff_not_below hn, fun hle hlt => ?_, fun hle hlt => ?_⟩
  · have hscale : Scale.of n = .kibi := by
      rw [Scale.of, if_neg (by omega), if_pos hlt]
    have htext := text_of_below hn (by omega)
    rw [hscale, Scale.bits] at htext
    exact htext (by omega) (by omega)
  · have hscale : Scale.of n = .mebi := by
      rw [Scale.of, if_neg (by omega), if_neg (by omega), if_pos hlt]
    have htext := text_of_below hn (by omega)
    rw [hscale, Scale.bits] at htext
    exact htext (by omega) (by omega)

theorem fits_unit_iff_mebibyte :
    Fits (2 ^ 20 - 52) ∧ ¬ Fits (2 ^ 20 - 1) ∧ text (2 ^ 20 - 1 : ℕ) = .ok "1024.0 KiB" ∧
      text (2 ^ 30 - 1 : ℕ) = .ok "1024.0 MiB" := by
  obtain ⟨hlast, -, -⟩ := fits_unit_iff (by decide : 2 ^ 20 - 52 < 2 ^ 53)
  obtain ⟨hbelow, hkibi, -⟩ := fits_unit_iff (by decide : 2 ^ 20 - 1 < 2 ^ 53)
  obtain ⟨-, -, hmebi⟩ := fits_unit_iff (by decide : 2 ^ 30 - 1 < 2 ^ 53)
  exact ⟨hlast.2 (by decide), fun h => (hbelow.1 h).1 (by decide), hkibi (by decide) (by decide),
    hmebi (by decide) (by decide)⟩

/-- A byte less than a megabyte is shown as 1024.0 kilobytes, though there is a larger unit. -/
theorem not_fits_before_mebibyte :
    text (2 ^ 20 - 1 : ℕ) = .ok "1024.0 KiB" ∧ ¬ ∀ n < 2 ^ 53, Fits n := by
  refine ⟨by decide +kernel, fun hall => ?_⟩
  have hbelow := (fits_iff_not_below (by decide : 2 ^ 20 - 1 < 2 ^ 53)).1 (hall _ (by decide))
  exact hbelow.1 (by decide)

end DavQuery.Size
