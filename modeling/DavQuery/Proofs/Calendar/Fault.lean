import DavQuery.Calendar.Expression
import DavQuery.Proofs.Text.Trim
import DavQuery.Record

/-! Where a date text ends in a fault. A date in the form of letters may write a number beyond what
a date-time is made of; a unit of a date expression may be spelled with letters that only resemble
the right ones; and the present moment may lie where it has no local form. -/

namespace DavQuery.Calendar
open Text

/-- A number of the fields is beyond what a date-time is made of. An offset of a day or more makes
the text no date before the other numbers are looked at. -/
def Mail.Fields.Overflows (f : Fields) : Prop :=
  (∃ z, f.zone = some z ∧ isCountable (zoneSeconds z) = false) ∨
    f.fit = false ∧ ∀ z, f.zone = some z → (zoneSeconds z).natAbs < 86400

theorem Mail.Fields.moment?_eq_error_iff {f : Fields} {e : Overflow} :
    f.moment? = .error e ↔ f.Overflows := by
  cases e
  unfold moment? Overflows
  cases hz : f.zone with
  | none => cases hf : f.fit <;> simp
  | some z =>
    simp only [Option.map_some, Option.some.injEq, exists_eq_left', forall_eq']
    cases hc : isCountable (zoneSeconds z) with
    | false => simp
    | true =>
      by_cases hday : 86400 ≤ (zoneSeconds z).natAbs
      · simp [hday, Nat.not_lt.2 hday]
      · cases hf : f.fit <;> simp [hday, Nat.lt_of_not_le hday]

/-- The text is no date in the international form, and as one in the form of letters it has a
number that is too big. -/
def Overflows (s : List Char) : Prop :=
  Iso.read? (trimChars s) = none ∧ ∃ f, Mail.fields? (trimChars s) = some f ∧ f.Overflows

theorem readMoment?_eq_error_iff {s : List Char} {fault : DateFault} :
    readMoment? s = .error fault ↔ fault = .numberRange ∧ Overflows s := by
  unfold readMoment? Overflows
  cases htrim : trimChars s with
  | nil =>
    have hnone : Mail.fields? [] = none := by decide
    simp [hnone]
  | cons c r =>
    cases hiso : Iso.read? (c :: r) with
    | some m => simp [hiso]
    | none =>
      cases hf : Mail.fields? (c :: r) with
      | none => simp [hiso, Mail.read?, hf, Except.mapError]
      | some f =>
        cases hm : f.moment? with
        | ok m =>
          have hno : ¬ f.Overflows := fun h => by
            simp [Mail.Fields.moment?_eq_error_iff (e := .number) |>.2 h] at hm
          simp [hiso, Mail.read?, hf, hm, hno, Except.mapError]
        | error e =>
          have hover : f.Overflows := Mail.Fields.moment?_eq_error_iff.1 hm
          cases e
          simp [hiso, Mail.read?, hf, hm, hover, Except.mapError, eq_comm]

theorem readStamp?_eq_error_iff {zone : Zone} {s : List Char} {fault : DateFault} :
    readStamp? zone s = .error fault ↔ fault = .numberRange ∧ Overflows s := by
  rw [← readMoment?_eq_error_iff, readStamp?]
  cases readMoment? s with
  | ok m => simp [bind, Except.bind, pure, Except.pure]
  | error e => simp [bind, Except.bind]

/-- The part of a date expression that tells a date ends in the fault. -/
inductive BaseFaulty (here : LocalTime) (s : List Char) : DateFault → Prop
  | now {fault : DateFault} : isNow s = true → here.present = .error fault →
      BaseFaulty here s fault
  | number : isNow s = false → Overflows s → BaseFaulty here s .numberRange

theorem readBase?_eq_error_iff {here : LocalTime} {s : List Char} {fault : DateFault} :
    readBase? here s = .error fault ↔ BaseFaulty here s fault := by
  unfold readBase?
  cases hnow : isNow s with
  | true =>
    rw [if_pos rfl]
    constructor
    · intro h
      cases hp : here.present with
      | ok p => simp [hp, Except.map] at h
      | error e => exact .now hnow (by simpa [hp, Except.map] using h)
    · rintro (⟨-, hp⟩ | ⟨hno, -⟩)
      · simp [hp, Except.map]
      · simp [hnow] at hno
  | false =>
    rw [if_neg (by simp), readStamp?_eq_error_iff]
    constructor
    · rintro ⟨rfl, h⟩
      exact .number hnow h
    · rintro (⟨hyes, -⟩ | ⟨-, h⟩)
      · simp [hnow] at hyes
      · exact ⟨rfl, h⟩

/-- The date expression ends in the fault. -/
inductive Faulty (here : LocalTime) (s : List Char) : DateFault → Prop
  | plain {fault : DateFault} : isNow s = true ∨ splitShift? (trimChars s) = none →
      BaseFaulty here s fault → Faulty here s fault
  | shifted {base : List Char} {shift : Shift} {fault : DateFault} : isNow s = false →
      splitShift? (trimChars s) = some (base, shift) → BaseFaulty here base fault →
      Faulty here s fault
  | spelling {base : List Char} {shift : Shift} {stamp : Stamp} : isNow s = false →
      splitShift? (trimChars s) = some (base, shift) → readBase? here base = .ok (some stamp) →
      shift.digits.length ≤ digitLimit → shift.word.plain = false → Faulty here s .unitSpelling

theorem isNow_trimChars (s : List Char) : isNow (trimChars s) = isNow s := by
  rw [isNow, trimChars_trimChars, isNow]

theorem readBase?_trimChars (here : LocalTime) (s : List Char) :
    readBase? here (trimChars s) = readBase? here s := by
  rw [readBase?, isNow_trimChars, readStamp?, readMoment?, trimChars_trimChars]
  rfl

theorem resolveChars?_eq_readBase? {here : LocalTime} {s : List Char}
    (h : isNow s = true ∨ splitShift? (trimChars s) = none) :
    resolveChars? here s = readBase? here s := by
  rw [← readBase?_trimChars, resolveChars?]
  cases hnow : isNow s with
  | true => simp [readBase?, isNow_trimChars, hnow]
  | false =>
    have hsplit : splitShift? (trimChars s) = none := by simpa [hnow] using h
    simp [readBase?, isNow_trimChars, hnow, hsplit]

theorem Shift.apply_eq_error_iff {shift : Shift} {stamp : Stamp} {fault : DateFault} :
    shift.apply? stamp = .error fault ↔
      fault = .unitSpelling ∧ shift.digits.length ≤ digitLimit ∧ shift.word.plain = false := by
  unfold Shift.apply?
  by_cases hlen : digitLimit < shift.digits.length
  · simp [hlen, Nat.not_le.2 hlen]
  · cases hplain : shift.word.plain <;> simp [hlen, Nat.le_of_not_lt hlen, eq_comm]

theorem resolveChars?_of_shift {here : LocalTime} {s base : List Char} {shift : Shift}
    (hnow : isNow s = false) (hsplit : splitShift? (trimChars s) = some (base, shift)) :
    resolveChars? here s = readBase? here base >>= fun
      | none => pure none
      | some stamp => shift.apply? stamp := by
  simp only [resolveChars?, isNow_trimChars, hnow, hsplit]
  rfl

theorem resolveChars?_eq_error_iff {here : LocalTime} {s : List Char} {fault : DateFault} :
    resolveChars? here s = .error fault ↔ Faulty here s fault := by
  by_cases hplain : isNow s = true ∨ splitShift? (trimChars s) = none
  · rw [resolveChars?_eq_readBase? hplain, readBase?_eq_error_iff]
    constructor
    · exact .plain hplain
    · rintro (⟨-, h⟩ | ⟨hnow, hsplit, -⟩ | ⟨hnow, hsplit, -, -, -⟩)
      · exact h
      · simp [hnow, hsplit] at hplain
      · simp [hnow, hsplit] at hplain
  · rw [not_or, Bool.not_eq_true] at hplain
    obtain ⟨hnow, hsplit⟩ := hplain
    obtain ⟨⟨base, shift⟩, hsplit⟩ := Option.ne_none_iff_exists'.1 hsplit
    rw [resolveChars?_of_shift hnow hsplit]
    constructor
    · intro h
      cases hbase : readBase? here base with
      | error e =>
        obtain rfl : e = fault := by simpa [hbase, bind, Except.bind] using h
        exact .shifted hnow hsplit (readBase?_eq_error_iff.1 hbase)
      | ok stamp =>
        cases stamp with
        | none => simp [hbase, bind, Except.bind, pure, Except.pure] at h
        | some stamp =>
          have happly : shift.apply? stamp = .error fault := by
            simpa [hbase, bind, Except.bind] using h
          obtain ⟨rfl, hlen, hword⟩ := Shift.apply_eq_error_iff.1 happly
          exact .spelling hnow hsplit hbase hlen hword
    · rintro (⟨hplain, -⟩ | ⟨-, hsplit', h⟩ | ⟨-, hsplit', hbase, hlen, hword⟩)
      · simp [hnow, hsplit] at hplain
      · simp only [hsplit, Option.some.injEq, Prod.mk.injEq] at hsplit'
        obtain ⟨rfl, rfl⟩ := hsplit'
        simp [readBase?_eq_error_iff.2 h, bind, Except.bind]
      · simp only [hsplit, Option.some.injEq, Prod.mk.injEq] at hsplit'
        obtain ⟨rfl, rfl⟩ := hsplit'
        simpa [hbase, bind, Except.bind] using
          Shift.apply_eq_error_iff.2 ⟨rfl, hlen, hword⟩

end DavQuery.Calendar
