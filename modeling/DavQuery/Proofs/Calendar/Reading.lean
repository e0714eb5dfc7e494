import DavQuery.Proofs.Calendar.Fault
import DavQuery.Proofs.Calendar.Local
import DavQuery.Proofs.Calendar.Shift

/-! Which date texts are read. Far from the ends of the years every text tells a stamp or none,
apart from two kinds: dates in the form of letters with a number beyond what a date-time is made of,
and shifts of a date by a unit that is spelled with a letter that only resembles the right one. -/

namespace DavQuery.Calendar
open Text

def TellsStamp (zone : Zone) (s : List Char) : Prop :=
  isNow s = true ∨ ∃ stamp, readStamp? zone s = .ok (some stamp)

/-- The date expression is one that reading does not come to the end of: it is, or is based on, a
date with a number that is too big, or it moves a date by a unit that is not plain. -/
inductive Derails (zone : Zone) (s : List Char) : Prop
  | whole : isNow s = false → (∀ base shift, ¬ Splits (trimChars s) base shift) → Overflows s →
      Derails zone s
  | base {base : List Char} {shift : Shift} : isNow s = false → Splits (trimChars s) base shift →
      isNow base = false → Overflows base → Derails zone s
  | unit {base : List Char} {shift : Shift} : isNow s = false → Splits (trimChars s) base shift →
      TellsStamp zone base → shift.digits.length ≤ digitLimit → shift.word.plain = false →
      Derails zone s

theorem splitShift?_eq_none_iff {s : List Char} :
    splitShift? s = none ↔ ∀ base shift, ¬ Splits s base shift := by
  simp only [← splitShift?_eq_some_iff, Option.eq_none_iff_forall_ne_some, Prod.forall, ne_eq]

theorem exists_ok_iff {ε α : Type} {x : Except ε α} : (∃ a, x = .ok a) ↔ ∀ e, x ≠ .error e := by
  cases x <;> simp

section
variable {here : LocalTime} (hpresent : ∃ s, here.present = .ok s)
include hpresent

theorem exists_readBase?_iff {s : List Char} :
    (∃ stamp, readBase? here s = .ok (some stamp)) ↔ TellsStamp here.zone s := by
  obtain ⟨now, hnow⟩ := hpresent
  unfold readBase? TellsStamp
  cases isNow s with
  | true => simp [hnow, Except.map]
  | false => simp

theorem baseFaulty_iff {s : List Char} {fault : DateFault} :
    BaseFaulty here s fault ↔ fault = .numberRange ∧ isNow s = false ∧ Overflows s := by
  obtain ⟨now, hnow⟩ := hpresent
  constructor
  · rintro (⟨-, h⟩ | ⟨hbase, hover⟩)
    · simp [hnow] at h
    · exact ⟨rfl, hbase, hover⟩
  · rintro ⟨rfl, hbase, hover⟩
    exact .number hbase hover

theorem exists_faulty_iff {s : List Char} :
    (∃ fault, Faulty here s fault) ↔ Derails here.zone s := by
  constructor
  · rintro ⟨fault, ⟨hplain, hbase⟩ | ⟨hs, hsplit, hbase⟩ | ⟨hs, hsplit, hstamp, hlen, hword⟩⟩
    · obtain ⟨-, hnow, hover⟩ := (baseFaulty_iff hpresent).1 hbase
      exact .whole hnow (splitShift?_eq_none_iff.1 (hplain.resolve_left (by simp [hnow]))) hover
    · obtain ⟨-, hnow, hover⟩ := (baseFaulty_iff hpresent).1 hbase
      exact .base hs (splitShift?_eq_some_iff.1 hsplit) hnow hover
    · have htells := (exists_readBase?_iff hpresent).1 ⟨_, hstamp⟩
      exact .unit hs (splitShift?_eq_some_iff.1 hsplit) htells hlen hword
  · rintro (⟨hs, hsplit, hover⟩ | ⟨hs, hsplit, hnow, hover⟩ | ⟨hs, hsplit, htells, hlen, hword⟩)
    · exact ⟨_, .plain (.inr (splitShift?_eq_none_iff.2 hsplit)) (.number hs hover)⟩
    · exact ⟨_, .shifted hs (splitShift?_eq_some_iff.2 hsplit) (.number hnow hover)⟩
    · obtain ⟨stamp, hstamp⟩ := (exists_readBase?_iff hpresent).2 htells
      exact ⟨_, .spelling hs (splitShift?_eq_some_iff.2 hsplit) hstamp hlen hword⟩

end

theorem exists_timestamp?_iff {zone : Zone} {text : String} :
    (∃ reading, timestamp? zone text = .ok reading) ↔ ¬ Overflows text.toList := by
  rw [exists_ok_iff, timestamp?]
  simp only [ne_eq, readStamp?_eq_error_iff, not_and, forall_eq]

/-- Where a text, an expression or the time of a record is read to the end. An absent text is read
as the empty one. -/
theorem exists_reading_iff {here : LocalTime} (hzone : here.zone.IsNear)
    (hfirst : 2 ≤ here.now.date.year) (hlast : here.now.date.year ≤ 9998) :
    (∀ text : Option String, (∃ reading, timestamp? here.zone (text.getD "") = .ok reading) ↔
        ¬ Overflows (text.getD "").toList) ∧
      (∀ text : Option String, (∃ reading, resolve? here (text.getD "") = .ok reading) ↔
        ¬ Derails here.zone (text.getD "").toList) ∧
      ∀ record : Record, (∃ reading, record.modifiedAt? here.zone = .ok reading) ↔
        ¬ Overflows record.modified.toList := by
  have hpresent := LocalTime.exists_present hzone hfirst hlast
  refine ⟨fun text => exists_timestamp?_iff, fun text => ?_, fun record => exists_timestamp?_iff⟩
  rw [exists_ok_iff, ← exists_faulty_iff hpresent, not_exists]
  exact forall_congr' fun fault => not_congr resolveChars?_eq_error_iff

theorem exists_reading_iff_new_york :
    let zone : Zone := .yearly (-18000) (some ⟨-14400, ⟨3, 2, 0, 7200⟩, ⟨11, 1, 0, 7200⟩⟩)
    let here : LocalTime := ⟨zone, ⟨⟨9998, 12, 31, by decide⟩, ⟨23, 59, 59, 0, by decide⟩⟩⟩
    here.zone.IsNear ∧ 2 ≤ here.now.date.year ∧ here.now.date.year ≤ 9998 ∧
      ¬ Derails zone "now + 1 month".toList ∧ Derails zone "now - 1 ſecond".toList ∧
      Derails zone "1 Jan 99999999999 00:00:00 GMT + 1 day".toList := by
  intro zone here
  have hzone : here.zone.IsNear := Zone.isNear_yearly (by decide) (by simp)
  have hread := (exists_reading_iff hzone (by decide) (by decide)).2.1
  have hmonth : (resolve? here "now + 1 month").toBool = true := by decide +kernel
  have hspelling : resolve? here "now - 1 ſecond" = .error .unitSpelling := by decide +kernel
  have hnumber : resolve? here "1 Jan 99999999999 00:00:00 GMT + 1 day" = .error .numberRange := by
    decide +kernel
  refine ⟨hzone, by decide, by decide, (hread (some _)).1 ?_, ?_, ?_⟩
  · cases h : resolve? here "now + 1 month" with
    | ok reading => exact ⟨reading, h⟩
    | error fault => simp [h, Except.toBool] at hmonth
  · by_contra h
    obtain ⟨reading, hr⟩ := (hread (some _)).2 h
    simp [hspelling] at hr
  · by_contra h
    obtain ⟨reading, hr⟩ := (hread (some _)).2 h
    simp [hnumber] at hr

/-- A shift by a unit with a long s is one text that is not read, and a date with a year that is too
big is another, at noon of a spring day. -/
theorem resolve?_eq_error_of_long_s :
    resolve? ⟨.utc, ⟨⟨2025, 3, 15, by decide⟩, ⟨12, 0, 0, 0, by decide⟩⟩⟩ "now - 1 ſecond" =
        .error .unitSpelling ∧
      timestamp? .utc "1 Jan 99999999999 00:00:00 GMT" = .error .numberRange := by
  decide +kernel

end DavQuery.Calendar
