import DavQuery.Proofs.Calendar.Arithmetic
import DavQuery.Proofs.Calendar.Mail
import DavQuery.Proofs.Calendar.Reading
import DavQuery.Proofs.Instant
import DavQuery.Proofs.Traverse

/-! What is written of a stamp is read back. The international form tells the stamp, whatever its
microseconds and its offset, unless the offset is less than a second; no stamp that an expression
tells has such an offset, so that each may be written down and used again. The form of letters tells
a whole second of Greenwich time. Neither is taken for a shift of a date. -/

namespace DavQuery
namespace Calendar
open Text

theorem told_congr {s t : Stamp} (h : t.offset = s.offset) (hs : s.told = s) : t.told = t := by
  rw [Stamp.told_eq_iff] at hs ⊢
  rwa [h]

theorem told_of_locate {zone : Zone} {t : DateTime} {s : Stamp} (h : zone.locate t = .ok s) :
    s.told = s := by
  unfold Zone.locate at h
  split at h
  · cases h
  · split at h
    · cases h
    · split at h
      case h_1 hshow =>
        cases h
        simp only [Zone.show?, Option.bind_eq_bind, Option.bind_eq_some_iff] at hshow
        obtain ⟨wall, -, hof⟩ := hshow
        exact Stamp.told_of_of? (by omega) hof
      case h_2 => cases h

theorem told_of_present {here : LocalTime} {s : Stamp} (h : here.present = .ok s) : s.told = s :=
  told_of_locate (mapError_eq_ok_iff.1 h)

theorem told_of_readMoment? {s : List Char} {t : Stamp}
    (h : readMoment? s = .ok (some (.fixed t))) : t.told = t := by
  unfold readMoment? at h
  split at h
  · cases h
  · split at h
    case h_1 hiso =>
      cases h
      exact Iso.told_of_read? hiso
    case h_2 => exact Mail.told_of_read? (mapError_eq_ok_iff.1 h)

theorem told_of_readStamp? {zone : Zone} {s : List Char} {t : Stamp}
    (h : readStamp? zone s = .ok (some t)) : t.told = t := by
  obtain ⟨moment, hmoment, hpure⟩ := bind_eq_ok_iff.1 h
  obtain ⟨m, rfl, hstamp⟩ := Option.bind_eq_some_iff.1 (Except.ok.inj hpure)
  cases m with
  | fixed s =>
    cases hstamp
    exact told_of_readMoment? hmoment
  | floating wall => exact told_of_locate (toOption_eq_some_iff.1 hstamp)

theorem told_of_readBase? {here : LocalTime} {s : List Char} {t : Stamp}
    (h : readBase? here s = .ok (some t)) : t.told = t := by
  unfold readBase? at h
  split_ifs at h
  · obtain ⟨p, hpresent, heq⟩ := map_eq_ok_iff.1 h
    cases heq
    exact told_of_present hpresent
  · exact told_of_readStamp? h

theorem Moves.offset_eq {s t : Stamp} {span : Span} (h : Moves s span t) : t.offset = s.offset := by
  cases h <;> assumption

theorem told_of_apply? {shift : Shift} {s t : Stamp} (hs : s.told = s)
    (h : shift.apply? s = .ok (some t)) : t.told = t := by
  unfold Shift.apply? at h
  split_ifs at h
  · cases h
  · rw [Except.ok.injEq, Stamp.move?_eq_some_iff] at h
    exact told_congr h.offset_eq hs

theorem told_of_resolve? {here : LocalTime} {value : String} {t : Stamp}
    (h : resolve? here value = .ok (some t)) : t.told = t := by
  unfold resolve? at h
  by_cases hplain : isNow value.toList = true ∨ splitShift? (trimChars value.toList) = none
  · rw [resolveChars?_eq_readBase? hplain] at h
    exact told_of_readBase? h
  · rw [not_or, Bool.not_eq_true] at hplain
    obtain ⟨⟨base, shift⟩, hsplit⟩ := Option.ne_none_iff_exists'.1 hplain.2
    rw [resolveChars?_of_shift hplain.1 hsplit] at h
    obtain ⟨value, hbase, happly⟩ := bind_eq_ok_iff.1 h
    cases value with
    | none => cases happly
    | some s => exact told_of_apply? (told_of_readBase? hbase) happly

theorem not_splits_of_not_sign {s : List Char} (h : ∀ c ∈ s, isSign c = false) (base : List Char)
    (shift : Shift) : ¬ Splits s base shift := by
  rintro ⟨-, -, -, t, rfl, hshift⟩
  have hone := hshift.one_sign.1
  rw [countP_isSign_eq_zero fun c hc => h c (List.mem_append_right _ hc)] at hone
  cases hone

theorem WritesUnit.ne_nil {s : List Char} {w : UnitWord} (h : WritesUnit s w) : s ≠ [] := by
  rintro rfl
  have hname : w.unit.name ≠ [] := by cases w.unit <;> decide
  rcases h.map_likeLetter with hmap | hmap
  · exact hname hmap.symm
  · simp at hmap

theorem not_splits_of_digit {s : List Char} (h : ∀ c, s.getLast? = some c → isDecimal c = true)
    (base : List Char) (shift : Shift) : ¬ Splits s base shift := by
  -- A shift ends with the letters of a unit.
  rintro ⟨-, -, -, t, rfl, hshift⟩
  cases hshift with
  | @mk gap gap' gap'' number word sign unit _ _ _ _ _ _ hword =>
    obtain ⟨c, hc⟩ := Option.ne_none_iff_exists'.1 (mt List.getLast?_eq_none_iff.1 hword.ne_nil)
    have hletter := (hword.isLetter (List.mem_of_getLast? hc)).2.1
    have hdigit := h c (by
      have hlast := List.getLast?_append_of_ne_nil
        (base ++ gap ++ sign :: (gap' ++ (number ++ gap''))) hword.ne_nil
      simpa [hc] using hlast)
    rw [hletter] at hdigit
    cases hdigit

theorem resolve?_of_not_splits {s : List Char} (hlong : 3 < (trimChars s).length)
    (h : ∀ base shift, ¬ Splits (trimChars s) base shift) (here : LocalTime) :
    resolve? here (String.ofList s) = readStamp? here.zone s := by
  have hnow : isNow s = false := isNow_eq_false_of_length hlong
  have hsplit : splitShift? (trimChars s) = none := splitShift?_eq_none_iff.2 h
  rw [resolve?, String.toList_ofList, resolveChars?_eq_readBase? (.inr hsplit), readBase?, hnow,
    if_neg Bool.false_ne_true]

theorem readStamp?_of_iso {s : List Char} {m : Moment} (htrim : Trimmed s)
    (h : Iso.read? s = some m) (zone : Zone) : readStamp? zone s = .ok (m.stamp? zone) := by
  have hmoment : readMoment? s = .ok (some m) := by
    rw [readMoment?, htrim.trimChars_eq]
    cases s with
    | nil => cases h
    | cons c r => simp only [h]
  rw [readStamp?, hmoment]
  rfl

theorem readStamp?_of_mail {s : List Char} {m : Moment} (htrim : Trimmed s)
    (hiso : Iso.read? s = none) (h : Mail.read? s = .ok (some m)) (zone : Zone) :
    readStamp? zone s = .ok (m.stamp? zone) := by
  have hmoment : readMoment? s = .ok (some m) := by
    rw [readMoment?, htrim.trimChars_eq]
    cases s with
    | nil => cases h
    | cons c r => simp only [hiso, h, Except.mapError]
  rw [readStamp?, hmoment]
  rfl

theorem Stamp.not_splits_text (s : Stamp) (base : List Char) (shift : Shift) :
    ¬ Splits s.text base shift :=
  not_splits_of_digit (fun c hc => by
    simp [isDecimal, digitValue?_of_isDigit (Iso.isDigit_of_getLast?_text hc)]) base shift

theorem resolve?_stampText (here : LocalTime) (s : Stamp) :
    resolve? here (String.ofList s.text) = .ok (some s.told) := by
  have htrim := Iso.trimmed_text s
  have hlong : 3 < s.text.length := by
    rw [Iso.stampText_eq, List.length_append, Iso.length_dateText]
    omega
  rw [resolve?_of_not_splits (by rwa [htrim.trimChars_eq])
    (by rw [htrim.trimChars_eq]; exact s.not_splits_text),
    readStamp?_of_iso htrim (Iso.read?_text s)]
  rfl

theorem not_splits_mailText (t : DateTime) (base : List Char) (shift : Shift) :
    ¬ Splits (Mail.text t) base shift :=
  not_splits_of_not_sign (fun _ => Mail.isSign_of_mem_text) base shift

theorem resolve?_mailText (here : LocalTime) {t : DateTime} (hyear : 100 ≤ t.date.year)
    (hmicro : t.clock.micro = 0) :
    resolve? here (String.ofList (Mail.text t)) = .ok (some ⟨t, 0, by decide⟩) := by
  have htrim := Mail.trimmed_text t
  rw [resolve?_of_not_splits (by rw [htrim.trimChars_eq]; exact Mail.length_text t)
    (by rw [htrim.trimChars_eq]; exact not_splits_mailText t),
    readStamp?_of_mail htrim (Mail.isoRead?_text t) (Mail.read?_text hyear hmicro)]
  rfl

end Calendar

open Calendar

theorem Criterion.comparesDates_congr_value {here : LocalTime} {value value' : String}
    (h : resolve? here value = resolve? here value') (r : Record) (test : Stamp → Stamp → Bool) :
    comparesDates here r value test = comparesDates here r value' test := by
  simp only [comparesDates, dates?, h]

theorem Criterion.holds_stampText {here : LocalTime} {value : String} {s : Stamp}
    (h : resolve? here value = .ok (some s)) (r : Record) {key : String}
    (hkey : key ∈ ["modifiedafter", "modifiedbefore"]) :
    holds here r ⟨key, String.ofList s.text⟩ = holds here r ⟨key, value⟩ := by
  have hback := resolve?_stampText here s
  rw [told_of_resolve? h] at hback
  have hvalue := ne_empty_of_resolve? h
  have htext := ne_empty_of_resolve? hback
  have hsame := hback.trans h.symm
  simp only [List.mem_cons, List.not_mem_nil, or_false] at hkey
  rcases hkey with rfl | rfl
  · rw [holds_modifiedAfter htext, holds_modifiedAfter hvalue, comparesDates_congr_value hsame]
  · rw [holds_modifiedBefore htext, holds_modifiedBefore hvalue, comparesDates_congr_value hsame]

/-- Stamps are read back from their texts: those of an offset of less than a second without it, and
all others as they are. A stamp that an expression tells is one of the others, wherever it was told,
and a bound that it is written as has the same meaning. A whole second of Greenwich time is read
back from its form of letters, from the year 100 on. Neither text is a shift. -/
theorem stamps_read_back (here : LocalTime) :
    (∀ s : Stamp, (s.offset = 0 ∨ 1000000 ≤ s.offset.natAbs →
        resolve? here (String.ofList s.text) = .ok (some s)) ∧
      (s.offset.natAbs < 1000000 →
        resolve? here (String.ofList s.text) = .ok (some ⟨s.wall, 0, by decide⟩)) ∧
      ∀ base shift, ¬ Splits s.text base shift) ∧
    (∀ (there : LocalTime) (value : String) (s : Stamp), resolve? there value = .ok (some s) →
      resolve? here (String.ofList s.text) = .ok (some s)) ∧
    (∀ (value : String) (s : Stamp), resolve? here value = .ok (some s) →
      ∀ r : Record, ∀ key ∈ ["modifiedafter", "modifiedbefore"],
        Criterion.holds here r ⟨key, String.ofList s.text⟩ = Criterion.holds here r ⟨key, value⟩) ∧
    ∀ t : DateTime, 100 ≤ t.date.year → t.clock.micro = 0 →
      resolve? here (String.ofList (Mail.text t)) = .ok (some ⟨t, 0, by decide⟩) ∧
      ∀ base shift, ¬ Splits (Mail.text t) base shift := by
  refine ⟨fun s => ⟨fun hoffset => ?_, fun hoffset => ?_, s.not_splits_text⟩,
    fun there value s hs => ?_, fun value s hs r key hkey => Criterion.holds_stampText hs r hkey,
    fun t hyear hmicro => ⟨resolve?_mailText here hyear hmicro, not_splits_mailText t⟩⟩
  · have htold := Stamp.told_eq_iff.2 hoffset
    rw [resolve?_stampText, htold]
  · have htold : toldOffset s.offset = 0 := if_pos hoffset
    simp only [resolve?_stampText, Stamp.told, htold]
  · rw [resolve?_stampText, told_of_resolve? hs]

theorem stamps_read_back_october :
    let here : LocalTime := ⟨.utc, ⟨⟨2025, 3, 15, by decide⟩, ⟨12, 0, 0, 0, by decide⟩⟩⟩
    let morning : DateTime := ⟨⟨2025, 10, 10, by decide⟩, ⟨8, 30, 0, 0, by decide⟩⟩
    let s : Stamp := ⟨{ morning with clock := ⟨8, 30, 0, 250, by decide⟩ }, -12615000000, by decide⟩
    let month : Stamp := ⟨⟨⟨2025, 2, 15, by decide⟩, ⟨12, 0, 0, 0, by decide⟩⟩, 0, by decide⟩
    let r : Record := { name := "a.txt", modified := "2025-02-20" }
    String.ofList s.text = "2025-10-10T08:30:00.000250-03:30:15" ∧
      resolve? here (String.ofList s.text) = .ok (some s) ∧
      resolve? here (String.ofList month.text) = .ok (some month) ∧
      Criterion.holds here r ⟨"modifiedafter", String.ofList month.text⟩ =
        Criterion.holds here r ⟨"modifiedafter", "now - 1 month"⟩ ∧
      Mail.text morning = "Fri, 10 Oct 2025 08:30:00 GMT".toList ∧
      resolve? here (String.ofList (Mail.text morning)) = .ok (some ⟨morning, 0, by decide⟩) := by
  intro here morning s month r
  have hmonth : resolve? here "now - 1 month" = .ok (some month) := by decide +kernel
  obtain ⟨hstamps, htold, hbounds, hmail⟩ := stamps_read_back here
  exact ⟨by decide +kernel, (hstamps s).1 (by decide), htold here _ month hmonth,
    hbounds _ month hmonth r _ (by decide), by decide +kernel,
    (hmail morning (by decide) (by decide)).1⟩

/-- An offset of a microsecond is not read back. -/
theorem resolve?_stampText_ne :
    let here : LocalTime := ⟨.utc, ⟨⟨2025, 3, 15, by decide⟩, ⟨12, 0, 0, 0, by decide⟩⟩⟩
    let s : Stamp :=
      ⟨⟨⟨2025, 10, 10, by decide⟩, ⟨8, 30, 0, 0, by decide⟩⟩, 1, by decide⟩
    String.ofList s.text = "2025-10-10T08:30:00+00:00:00.000001" ∧
      resolve? here (String.ofList s.text) ≠ .ok (some s) := by
  decide +kernel

end DavQuery
