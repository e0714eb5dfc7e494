import DavQuery.Calendar.Iso
import DavQuery.Proofs.Text.Digit
import DavQuery.Proofs.Text.Split

/-! The international form of a stamp is read back: the date, the time of day down to microseconds,
and the offset, but for one of less than a second. -/

namespace DavQuery.Calendar

/-- What the text of an offset tells of it: nothing if it is less than a second. -/
def toldOffset (offset : Int) : Int := if offset.natAbs < 1000000 then 0 else offset

/-- The stamp that the text of a stamp tells: an offset of less than a second is lost. -/
def Stamp.told (s : Stamp) : Stamp where
  wall := s.wall
  offset := toldOffset s.offset
  valid := by
    have hvalid := s.valid
    simp only [IsOffset, dayMicros] at hvalid ⊢
    unfold toldOffset
    split <;> omega

theorem Stamp.told_eq_iff {s : Stamp} :
    s.told = s ↔ s.offset = 0 ∨ 1000000 ≤ s.offset.natAbs := by
  have hoffset : s.told = s ↔ toldOffset s.offset = s.offset := by
    constructor
    · exact congrArg Stamp.offset
    · intro h
      cases s
      simp_all [told]
  rw [hoffset, toldOffset]
  split <;> omega

theorem Stamp.told_of_of? {wall : DateTime} {offset : Int} {s : Stamp}
    (hoffset : offset = 0 ∨ 1000000 ≤ offset.natAbs) (h : of? wall offset = some s) :
    s.told = s := by
  unfold of? at h
  split at h
  · cases h
    exact told_eq_iff.2 hoffset
  · cases h

theorem Date.day_le (d : Date) : d.day ≤ 31 := by
  have hday := d.valid.2.2.2.2.2
  have hlength : monthLength d.year d.month ≤ 31 := by
    unfold monthLength
    grind
  omega

namespace Iso
open Number Text

theorem octets_cons {c : Char} (h : c.toNat < 128) (s : List Char) :
    octets (c :: s) = c :: octets s := by
  have hoctet : (Utf8.encodeChar c).map (fun b => Char.ofNat b.toNat) = [c] := by
    rw [Utf8.encodeChar]
    simp only [if_pos h, List.map_singleton]
    rw [Utf8.toNat_toUInt8 (Nat.lt_trans h (by decide)), Char.ofNat_toNat]
  rw [octets, Utf8.encode_cons, List.map_append, hoctet, octets, List.singleton_append]

theorem octets_eq_self {s : List Char} (h : ∀ c ∈ s, c.toNat < 128) : octets s = s := by
  induction s with
  | nil => rfl
  | cons c r ih =>
    rw [List.forall_mem_cons] at h
    rw [octets_cons h.1, ih h.2]

theorem mapM_digit? {s : List Char} (h : ∀ c ∈ s, c.isDigit = true) :
    s.mapM digit? = some (s.map fun c => c.toNat - 48) := by
  induction s with
  | nil => rfl
  | cons c r ih =>
    rw [List.forall_mem_cons] at h
    rw [List.mapM_cons, ih h.2, digit?, if_pos h.1]
    rfl

theorem isDigit_of_mapM_digit? {s : List Char} {ds : List Nat} (h : s.mapM digit? = some ds) :
    ∀ c ∈ s, c.isDigit = true := by
  induction s generalizing ds with
  | nil => simp
  | cons c r ih =>
    simp only [List.mapM_cons, Option.bind_eq_bind, Option.bind_eq_some_iff] at h
    obtain ⟨d, hd, ds, hds, -⟩ := h
    rw [digit?] at hd
    split_ifs at hd with hc
    exact List.forall_mem_cons.2 ⟨hc, ih hds⟩

theorem of_spanNumber {count n : Nat} {s r : List Char} (h : spanNumber count s = some (n, r)) :
    ∃ digits, s = digits ++ r ∧ digits.length = count ∧ ∀ c ∈ digits, c.isDigit = true := by
  rw [spanNumber] at h
  split_ifs at h with hlength
  obtain ⟨ds, hds, heq⟩ := Option.map_eq_some_iff.1 h
  cases heq
  exact ⟨s.take count, (List.take_append_drop count s).symm, hlength, isDigit_of_mapM_digit? hds⟩

theorem spanNumber_of_head {count : Nat} {c : Char} (hc : c.isDigit = false) (r : List Char) :
    spanNumber (count + 1) (c :: r) = none := by
  cases hspan : spanNumber (count + 1) (c :: r) with
  | none => rfl
  | some p =>
    obtain ⟨digits, hs, hlength, hdigits⟩ := of_spanNumber hspan
    cases digits with
    | nil => cases hlength
    | cons d digits =>
      rw [List.cons_append, List.cons.injEq] at hs
      rw [hs.1, hdigits d List.mem_cons_self] at hc
      cases hc

theorem spanNumber_padded {count n : Nat} (hcount : 0 < count) (h : n < 10 ^ count)
    (s : List Char) : spanNumber count (padded count n ++ s) = some (n, s) := by
  have hlength := length_padded hcount h
  have htake : (padded count n ++ s).take count = padded count n := by
    rw [List.take_append_of_le_length (Nat.le_of_eq hlength.symm), List.take_of_length_le
      (Nat.le_of_eq hlength)]
  have hdrop : (padded count n ++ s).drop count = s := by
    rw [List.drop_append_of_le_length (Nat.le_of_eq hlength.symm), List.drop_of_length_le
      (Nat.le_of_eq hlength), List.nil_append]
  have hvalue := ofDigitChars_padded count n
  rw [Nat.ofDigitChars] at hvalue
  rw [spanNumber, htake, hdrop, if_pos hlength, mapM_digit? fun c hc => isDigit_of_mem_padded hc,
    Option.map_some, List.foldl_map]
  exact congrArg (fun n => some (n, s)) hvalue

section
variable {next : Char} {count n : Nat} (hn : n < 100)
include hn

theorem readPairs?_colon {colons : Option Bool} (hcolons : colons.getD true = true)
    {r : List Char} (hr : r ≠ []) :
    readPairs? next (count + 1) colons (padded 2 n ++ ':' :: r) =
      (readPairs? next count (some true) r).map fun p => (n :: p.1, p.2) := by
  have hlength : ¬ r.length + 1 ≤ 1 := by
    have := List.length_pos_of_ne_nil hr
    omega
  rw [readPairs?, spanNumber_padded (by decide) hn]
  simp only [Option.bind_eq_bind, Option.bind_some, List.headD_cons, List.length_cons,
    if_neg hlength, List.drop_one, List.tail_cons]
  have hcolon : colons.getD (':' == ':') = true := hcolons
  simp only [hcolon]
  cases readPairs? next count (some true) r <;> rfl

theorem readPairs?_last : readPairs? next (count + 1) (some true) (padded 2 n) =
    some ([n], .ends (next != nul)) := by
  have hspan : spanNumber 2 (padded 2 n ++ []) = some (n, []) :=
    spanNumber_padded (by decide) hn []
  rw [List.append_nil] at hspan
  rw [readPairs?, hspan]
  rfl

theorem readPairs?_fraction {r : List Char} (hr : r ≠ []) :
    readPairs? next (count + 1) (some true) (padded 2 n ++ '.' :: r) =
      some ([n], .fraction r) := by
  have hlength : ¬ r.length + 1 ≤ 1 := by
    have := List.length_pos_of_ne_nil hr
    omega
  rw [readPairs?, spanNumber_padded (by decide) hn]
  simp [hlength]

end

theorem readFraction?_padded {next : Char} {n : Nat} (h : n < 1000000) :
    readFraction? next (padded 6 n) = some (n, next != nul) := by
  have hlength : (padded 6 n).length = 6 := length_padded (by decide) h
  have htake : (padded 6 n).take 6 = padded 6 n := List.take_of_length_le (Nat.le_of_eq hlength)
  have hspan : spanNumber 6 (padded 6 n ++ []) = some (n, []) :=
    spanNumber_padded (by decide) h []
  rw [List.append_nil] at hspan
  rw [readFraction?, htake, hlength, hspan]
  simp [tenTo]

def clockChars (hour minute second micro : Nat) : List Char :=
  padded 2 hour ++ ':' :: (padded 2 minute ++ ':' :: (padded 2 second ++
    if micro = 0 then [] else '.' :: padded 6 micro))

section
variable {next : Char} {hour minute : Nat} (hhour : hour < 100) (hminute : minute < 100)
include hhour hminute

theorem readClock?_minutes : readClock? next (padded 2 hour ++ ':' :: padded 2 minute) =
    some ⟨hour, minute, 0, 0, next != nul⟩ := by
  rw [readClock?, readPairs?_colon hhour rfl (padded_ne_nil 2 minute), readPairs?_last hminute]
  rfl

theorem readClock?_clockChars {second micro : Nat} (hsecond : second < 100)
    (hmicro : micro < 1000000) :
    readClock? next (clockChars hour minute second micro) =
      some ⟨hour, minute, second, micro, next != nul⟩ := by
  rw [readClock?, clockChars, readPairs?_colon hhour rfl (by simp),
    readPairs?_colon hminute rfl (by simp [padded_ne_nil])]
  by_cases hzero : micro = 0
  · rw [if_pos hzero, List.append_nil, readPairs?_last hsecond, hzero]
    rfl
  · rw [if_neg hzero, readPairs?_fraction hsecond (padded_ne_nil 6 micro)]
    simp [readFraction?_padded hmicro]

end

theorem readOffset?_of_clock {sign : Char} {r : List Char} {t : ClockText} (hsign : sign ≠ 'Z')
    (h : readClock? nul r = some t) (hstray : t.stray = false) :
    readOffset? (sign :: r) =
      some (let seconds := t.hour * 3600 + t.minute * 60 + t.second
        let n : Int := if seconds = 0 then 0 else seconds * 1000000 + t.micro
        if sign = '-' then -n else n) := by
  unfold readOffset?
  split
  case h_1 heq => exact absurd (List.cons.inj heq).1 hsign
  case h_2 heq =>
    cases heq
    simp [h, hstray]
  case h_3 heq => cases heq

theorem offsetText_eq (offset : Int) : offsetText offset =
    (if offset < 0 then '-' else '+') ::
      (if offset.natAbs / 1000000 % 60 = 0 ∧ offset.natAbs % 1000000 = 0 then
        padded 2 (offset.natAbs / 3600000000) ++ ':' :: padded 2 (offset.natAbs / 60000000 % 60)
      else clockChars (offset.natAbs / 3600000000) (offset.natAbs / 60000000 % 60)
        (offset.natAbs / 1000000 % 60) (offset.natAbs % 1000000)) := by
  unfold offsetText clockChars
  dsimp only
  split_ifs <;> simp

theorem readOffset?_offsetText {offset : Int} (h : IsOffset offset) :
    readOffset? (offsetText offset) = some (toldOffset offset) := by
  have hday : offset.natAbs < 86400000000 := by
    simp only [IsOffset, dayMicros] at h
    omega
  have hsign : (if offset < 0 then '-' else '+') ≠ 'Z' := by split <;> decide
  have hminus : ((if offset < 0 then '-' else '+') = '-') ↔ offset < 0 := by
    split <;> simp_all
  have hhour : offset.natAbs / 3600000000 < 100 := by omega
  have hminute : offset.natAbs / 60000000 % 60 < 100 := by omega
  have hsecond : offset.natAbs / 1000000 % 60 < 100 := by omega
  have hmicro : offset.natAbs % 1000000 < 1000000 := Nat.mod_lt _ (by decide)
  rw [offsetText_eq, toldOffset]
  generalize (if offset < 0 then '-' else '+') = sign at hsign hminus ⊢
  by_cases hwhole : offset.natAbs / 1000000 % 60 = 0 ∧ offset.natAbs % 1000000 = 0
  · rw [if_pos hwhole, readOffset?_of_clock hsign (readClock?_minutes hhour hminute) rfl]
    simp only [hminus, Option.some.injEq]
    split_ifs <;> omega
  · rw [if_neg hwhole,
      readOffset?_of_clock hsign (readClock?_clockChars hhour hminute hsecond hmicro) rfl]
    simp only [hminus, Option.some.injEq]
    split_ifs <;> omega

theorem clockText_eq (t : Clock) : t.text = clockChars t.hour t.minute t.second t.micro := by
  simp [Clock.text, clockChars]

theorem isDigit_of_mem_clockChars {hour minute second micro : Nat} {c : Char}
    (h : c ∈ clockChars hour minute second micro) : c.isDigit = true ∨ c = ':' ∨ c = '.' := by
  have hdigit {width n : Nat} : c ∈ padded width n → c.isDigit = true := isDigit_of_mem_padded
  simp only [clockChars, List.mem_append, List.mem_cons] at h
  split_ifs at h
  · simp only [List.not_mem_nil] at h
    tauto
  · simp only [List.mem_cons] at h
    tauto

theorem readTime?_text (date : Date) (t : Clock) {offset : Int} (h : IsOffset offset) :
    readTime? date (t.text ++ offsetText offset) =
      (Stamp.of? ⟨date, t⟩ (toldOffset offset)).map .fixed := by
  obtain ⟨hhour, hminute, hsecond, hmicro⟩ := t.valid
  have hclock (c : Char) (hc : c ∈ t.text) : (!startsOffset c) = true := by
    rw [clockText_eq] at hc
    rcases isDigit_of_mem_clockChars hc with hc | rfl | rfl
    · exact forall_ascii (P := fun c => c.isDigit = true → (!startsOffset c) = true) (by decide)
        (toNat_lt_of_isDigit hc) hc
    · decide
    · decide
  have hoffset (c : Char) (hc : (offsetText offset).head? = some c) :
      (!startsOffset c) = false := by
    rw [offsetText_eq, List.head?_cons, Option.some.injEq] at hc
    rw [← hc]
    split <;> decide
  have hspan := span_append_of_head hclock hoffset
  have hempty : (offsetText offset).isEmpty = false := by simp [offsetText_eq]
  have hwall : Clock.of? t.hour t.minute t.second t.micro = some t := by
    rw [Clock.of?, dif_pos t.valid]
  have hread : readClock? ((offsetText offset).headD nul)
      (clockChars t.hour t.minute t.second t.micro) =
        some ⟨t.hour, t.minute, t.second, t.micro, (offsetText offset).headD nul != nul⟩ :=
    readClock?_clockChars (Nat.lt_trans hhour (by decide)) (Nat.lt_trans hminute (by decide))
      (Nat.lt_trans hsecond (by decide)) hmicro
  rw [← clockText_eq] at hread
  simp only [readTime?, hspan.1, hspan.2, hread, Option.bind_eq_bind, Option.bind_some, hempty,
    readOffset?_offsetText h, hwall, Option.map_some]
  rfl

theorem dateText_append (date : Date) (s : List Char) : date.text ++ s =
    padded 4 date.year ++ '-' :: (padded 2 date.month ++ '-' :: (padded 2 date.day ++ s)) := by
  simp [Date.text]

theorem length_dateText (date : Date) : date.text.length = 10 := by
  have hvalid := date.valid
  have hlength := date.day_le
  simp only [IsDate] at hvalid
  simp only [Date.text, List.length_append, List.length_cons]
  rw [length_padded (by decide) (by omega), length_padded (by decide) (by omega),
    length_padded (by decide) (by omega)]

theorem dateLength?_text (date : Date) (s : List Char) :
    dateLength? (date.text ++ s) = some 10 := by
  have hyear : (padded 4 date.year).length = 4 :=
    length_padded (by decide) (Nat.lt_of_le_of_lt date.valid.2.1 (by decide))
  have hlong : (date.text ++ s).length ≠ 7 := by
    rw [List.length_append, length_dateText]
    omega
  have hhyphen : (date.text ++ s).getD 4 nul = '-' := by
    rw [dateText_append, List.getD_eq_getElem?_getD, List.getElem?_append_right (by omega), hyear]
    rfl
  have hmonth : (date.text ++ s).getD 5 nul ≠ 'W' := by
    rw [dateText_append, List.getD_eq_getElem?_getD, List.getElem?_append_right (by omega), hyear]
    obtain ⟨c, r, hpadded⟩ := List.exists_cons_of_ne_nil (padded_ne_nil 2 date.month)
    have hc : c.isDigit = true := isDigit_of_mem_padded (hpadded ▸ List.mem_cons_self)
    rw [hpadded]
    rintro rfl
    exact absurd hc (by decide)
  simp only [dateLength?, if_neg hlong, if_pos hhyphen, if_neg hmonth]

theorem readDate?_text (date : Date) (s : List Char) :
    readDate? 10 (date.text ++ s) = some date := by
  have hvalid := date.valid
  have hlength : (date.text ++ s).length - s.length = 10 := by
    rw [List.length_append, length_dateText]
    omega
  have hday := date.day_le
  simp only [IsDate] at hvalid
  rw [dateText_append] at hlength
  rw [readDate?, dateText_append, spanNumber_padded (by decide) (by omega)]
  simp only [Option.bind_eq_bind, Option.bind_some, List.head?_cons, BEq.rfl, if_true,
    List.drop_one, List.tail_cons]
  split
  case h_1 heq =>
    obtain ⟨c, r, hpadded⟩ := List.exists_cons_of_ne_nil (padded_ne_nil 2 date.month)
    have hc : c.isDigit = true := isDigit_of_mem_padded (hpadded ▸ List.mem_cons_self)
    rw [hpadded, List.cons_append, List.cons.injEq] at heq
    rw [heq.1] at hc
    exact absurd hc (by decide)
  case h_2 =>
    rw [spanNumber_padded (by decide) (by omega)]
    simp only [Option.bind_some, skipHyphen, if_true]
    rw [spanNumber_padded (by decide) (by omega)]
    simp only [Option.bind_some, if_pos hlength]
    exact Date.of?_eq_some_iff.2 ⟨rfl, rfl, rfl⟩

theorem mem_offsetText {offset : Int} {c : Char} (h : c ∈ offsetText offset) :
    c.isDigit = true ∨ c ∈ ['-', '+', ':', '.'] := by
  rw [offsetText_eq, List.mem_cons] at h
  rcases h with h | h
  · right
    rw [h]
    split <;> decide
  · split_ifs at h
    · rw [List.mem_append, List.mem_cons] at h
      rcases h with h | rfl | h
      · exact .inl (isDigit_of_mem_padded h)
      · exact .inr (by decide)
      · exact .inl (isDigit_of_mem_padded h)
    · rcases isDigit_of_mem_clockChars h with hc | rfl | rfl
      · exact .inl hc
      · exact .inr (by decide)
      · exact .inr (by decide)

theorem mem_dateText {date : Date} {c : Char} (h : c ∈ date.text) : c.isDigit = true ∨ c = '-' := by
  simp only [Date.text, List.mem_append, List.mem_cons] at h
  rcases h with (h | rfl | h) | rfl | h
  · exact .inl (isDigit_of_mem_padded h)
  · exact .inr rfl
  · exact .inl (isDigit_of_mem_padded h)
  · exact .inr rfl
  · exact .inl (isDigit_of_mem_padded h)

theorem mem_text {s : Stamp} {c : Char} (h : c ∈ s.text) :
    c.isDigit = true ∨ c ∈ ['-', '+', ':', '.', 'T'] := by
  rw [Stamp.text, DateTime.text, List.mem_append, List.mem_append, List.mem_cons] at h
  rcases h with (hdate | rfl | hclock) | hoffset
  · rcases mem_dateText hdate with hc | rfl
    · exact .inl hc
    · exact .inr (by decide)
  · exact .inr (by decide)
  · rw [clockText_eq] at hclock
    rcases isDigit_of_mem_clockChars hclock with hc | rfl | rfl
    · exact .inl hc
    · exact .inr (by decide)
    · exact .inr (by decide)
  · rcases mem_offsetText hoffset with hc | hc
    · exact .inl hc
    · exact .inr (List.mem_append_left ['T'] hc)

theorem isBlank_of_mem_text {s : Stamp} {c : Char} (h : c ∈ s.text) : isBlank c = false := by
  rcases mem_text h with hc | hc
  · exact isBlank_eq_false_of_isDigit hc
  · have all : List.Forall (isBlank · = false) ['-', '+', ':', '.', 'T'] := by decide
    exact List.forall_iff_forall_mem.1 all c hc

theorem trimmed_text (s : Stamp) : Trimmed s.text :=
  ⟨fun _ hc => isBlank_of_mem_text (List.mem_of_head? hc),
    fun _ hc => isBlank_of_mem_text (List.mem_of_getLast? hc)⟩

theorem exists_text_eq_append_padded (s : Stamp) : ∃ a width n, s.text = a ++ padded width n := by
  generalize hn : s.offset.natAbs = n
  rw [Stamp.text, offsetText_eq, clockChars, hn]
  generalize (if s.offset < 0 then '-' else '+') = sign
  let minutes := s.wall.text ++ sign :: (padded 2 (n / 3600000000) ++ [':'])
  let seconds := minutes ++ (padded 2 (n / 60000000 % 60) ++ [':'])
  split_ifs
  · exact ⟨minutes, 2, n / 60000000 % 60, by simp [minutes]⟩
  · exact ⟨seconds, 2, n / 1000000 % 60, by simp [seconds, minutes]⟩
  · exact ⟨seconds ++ (padded 2 (n / 1000000 % 60) ++ ['.']), 6, n % 1000000,
      by simp [seconds, minutes]⟩

theorem isDigit_of_getLast?_text {s : Stamp} {c : Char} (h : s.text.getLast? = some c) :
    c.isDigit = true := by
  obtain ⟨a, width, n, htext⟩ := exists_text_eq_append_padded s
  rw [htext, List.getLast?_append_of_ne_nil _ (padded_ne_nil width n)] at h
  exact isDigit_of_mem_padded (List.mem_of_getLast? h)

theorem toNat_lt_of_mem_text {s : Stamp} {c : Char} (h : c ∈ s.text) : c.toNat < 128 := by
  rcases mem_text h with hc | hc
  · exact toNat_lt_of_isDigit hc
  · have all : List.Forall (Char.toNat · < 128) ['-', '+', ':', '.', 'T'] := by decide
    exact List.forall_iff_forall_mem.1 all c hc

theorem stampText_eq (s : Stamp) : s.text =
    s.wall.date.text ++ 'T' :: (s.wall.clock.text ++ offsetText s.offset) := by
  simp [Stamp.text, DateTime.text]

theorem read?_text (s : Stamp) : read? s.text = some (.fixed s.told) := by
  have hascii : octets s.text = s.text := octets_eq_self fun c => toNat_lt_of_mem_text
  have hdate := length_dateText s.wall.date
  have hlong : ¬ s.text.length < 7 := by
    rw [stampText_eq, List.length_append, hdate]
    omega
  have hdrop : s.text.drop 10 = 'T' :: (s.wall.clock.text ++ offsetText s.offset) := by
    rw [stampText_eq, List.drop_append_of_le_length (Nat.le_of_eq hdate.symm),
      List.drop_of_length_le (Nat.le_of_eq hdate), List.nil_append]
  have hlength : dateLength? s.text = some 10 := by rw [stampText_eq, dateLength?_text]
  have hday : readDate? 10 s.text = some s.wall.date := by rw [stampText_eq, readDate?_text]
  have hwidth : width 'T' - 1 = 0 := by decide
  rw [read?, if_neg hlong, hascii, readOctets?, hlength, Option.bind_eq_bind, Option.bind_some,
    hday, Option.bind_eq_bind, Option.bind_some, hdrop]
  simp only [hwidth, List.drop_zero]
  have hvalid : IsOffset (toldOffset s.offset) := s.told.valid
  rw [readTime?_text _ _ s.valid, Stamp.of?, dif_pos hvalid]
  rfl

theorem read?_of_head {s : List Char}
    (h : ∀ c, s.head? = some c → c.toNat < 128 ∧ c.isDigit = false) : read? s = none := by
  unfold read?
  split_ifs with hlong
  · rfl
  · obtain ⟨c, r, rfl⟩ := List.exists_cons_of_ne_nil (List.ne_nil_of_length_pos
      (Nat.lt_of_lt_of_le (by decide) (Nat.not_lt.1 hlong)))
    have hc := h c rfl
    have hyear : spanNumber 4 (c :: octets r) = none := spanNumber_of_head hc.2 _
    have hdate (length : Nat) : readDate? length (c :: octets r) = none := by
      rw [readDate?, hyear]
      rfl
    rw [octets_cons hc.1, readOctets?]
    cases dateLength? (c :: octets r) with
    | none => rfl
    | some length =>
      rw [Option.bind_eq_bind, Option.bind_some, hdate]
      rfl

theorem le_natAbs_of_readOffset? {s : List Char} {offset : Int} (h : readOffset? s = some offset) :
    offset = 0 ∨ 1000000 ≤ offset.natAbs := by
  unfold readOffset? at h
  split at h
  · split_ifs at h
    cases h
    exact .inl rfl
  · simp only [Option.bind_eq_bind, Option.bind_eq_some_iff] at h
    obtain ⟨t, -, ht⟩ := h
    split_ifs at ht
    all_goals
      cases ht
      omega
  · cases h

theorem told_of_readTime? {date : Date} {s : List Char} {t : Stamp}
    (h : readTime? date s = some (.fixed t)) : t.told = t := by
  simp only [readTime?, Option.bind_eq_bind, Option.bind_eq_some_iff] at h
  obtain ⟨clock, -, h⟩ := h
  split_ifs at h
  · simp only [Option.bind_some, Option.bind_eq_some_iff] at h
    obtain ⟨wall, -, h⟩ := h
    cases h
  · simp only [Option.bind_eq_some_iff, Option.map_eq_some_iff] at h
    obtain ⟨_, ⟨offset, hoffset, rfl⟩, wall, -, h⟩ := h
    obtain ⟨t', ht', heq⟩ := Option.map_eq_some_iff.1 h
    cases heq
    exact Stamp.told_of_of? (le_natAbs_of_readOffset? hoffset) ht'

theorem told_of_read? {s : List Char} {t : Stamp} (h : read? s = some (.fixed t)) :
    t.told = t := by
  unfold read? at h
  split_ifs at h
  simp only [readOctets?, Option.bind_eq_bind, Option.bind_eq_some_iff] at h
  obtain ⟨length, -, date, -, h⟩ := h
  split at h
  · cases h
  · exact told_of_readTime? h

end Iso
end DavQuery.Calendar
