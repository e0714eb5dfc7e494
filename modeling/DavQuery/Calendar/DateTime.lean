import DavQuery.Calendar.Date
import DavQuery.Number.Rounding

/-!
Times of day, date-times without an offset and stamps, which are date-times with one. All are
counted in microseconds; a stamp's instant is its count less its offset.
-/

namespace DavQuery.Calendar

def IsClock (hour minute second micro : Nat) : Prop :=
  hour < 24 ∧ minute < 60 ∧ second < 60 ∧ micro < 1000000

instance (hour minute second micro : Nat) : Decidable (IsClock hour minute second micro) := by
  unfold IsClock; infer_instance

structure Clock where
  hour : Nat
  minute : Nat
  second : Nat
  micro : Nat
  valid : IsClock hour minute second micro
  deriving DecidableEq

def Clock.of? (hour minute second micro : Nat) : Option Clock :=
  if h : IsClock hour minute second micro then some ⟨hour, minute, second, micro, h⟩ else none

def Clock.zero : Clock := ⟨0, 0, 0, 0, by decide⟩

def dayMicros : Nat := 86400000000

def Clock.micros (t : Clock) : Nat :=
  ((t.hour * 60 + t.minute) * 60 + t.second) * 1000000 + t.micro

/-- The time of day so many microseconds after midnight, whole days not counted. -/
def Clock.ofMicros (n : Nat) : Clock :=
  let n := n % dayMicros
  ⟨n / 3600000000, n / 60000000 % 60, n / 1000000 % 60, n % 1000000, by
    have : n < dayMicros := Nat.mod_lt _ (by decide)
    simp only [dayMicros] at this
    refine ⟨?_, ?_, ?_, ?_⟩ <;> omega⟩

theorem Clock.micros_ofMicros (n : Nat) : (Clock.ofMicros n).micros = n % dayMicros := by
  simp only [Clock.ofMicros, Clock.micros]; omega

theorem Clock.micros_lt (t : Clock) : t.micros < dayMicros := by
  have h := t.valid
  simp only [IsClock] at h
  simp only [Clock.micros, dayMicros]; omega

structure DateTime where
  date : Date
  clock : Clock
  deriving DecidableEq

def DateTime.micros (t : DateTime) : Int := t.date.number * dayMicros + t.clock.micros

/-- The date-time of a count of microseconds, if it lies in the years 1 to 9999. -/
def DateTime.ofMicros? (n : Int) : Option DateTime :=
  if n < 0 then none
  else
    (Date.ofNumber? (n.toNat / dayMicros)).map fun date => ⟨date, Clock.ofMicros n.toNat⟩

def DateTime.seconds (t : DateTime) : Int := t.micros / 1000000

def IsOffset (micros : Int) : Prop := -(dayMicros : Int) < micros ∧ micros < dayMicros

instance (micros : Int) : Decidable (IsOffset micros) := by
  unfold IsOffset; infer_instance

/-- A date-time with its offset east of Greenwich, in microseconds. -/
structure Stamp where
  wall : DateTime
  offset : Int
  valid : IsOffset offset
  deriving DecidableEq

def Stamp.of? (wall : DateTime) (offset : Int) : Option Stamp :=
  if h : IsOffset offset then some ⟨wall, offset, h⟩ else none

/-- The point of time that a stamp denotes, whatever its offset. -/
def Stamp.instant (s : Stamp) : Int := s.wall.micros - s.offset

/-- The stamp with its wall clock moved by so many microseconds, the offset kept. -/
def Stamp.shift? (s : Stamp) (micros : Int) : Option Stamp :=
  (DateTime.ofMicros? (s.wall.micros + micros)).map fun wall => { s with wall }

/-- Why a year cannot be that of a date: it lies outside 1 to 9999, or not even a word of
thirty-two bits holds it. -/
inductive YearFault where
  | outside
  | beyondWord
  deriving Repr, DecidableEq

def Date.monthIndex (t : Date) : Int := 12 * (t.year : Int) + (t.month - 1)

/-- The date moved by so many months; a day that the month has not becomes its last. -/
def Date.addMonths (t : Date) (months : Int) : Except YearFault Date :=
  let index := t.monthIndex + months
  let year := index.fdiv 12
  let month := (index.fmod 12).toNat + 1
  match Date.of? year.toNat month (min t.day (monthLength year.toNat month)) with
  | some d => .ok d
  | none =>
    .error (if -2147483648 ≤ year ∧ year ≤ 2147483647 then .outside else .beyondWord)

/-- The stamp moved by so many months; the time of day and the offset are kept. -/
def Stamp.addMonths (s : Stamp) (months : Int) : Except YearFault Stamp :=
  (s.wall.date.addMonths months).map fun date => { s with wall := { s.wall with date } }

open Number in
def Date.text (t : Date) : List Char :=
  padded 4 t.year ++ '-' :: padded 2 t.month ++ '-' :: padded 2 t.day

open Number in
/-- A time of day as `HH:MM:SS`, with six places after a point unless they are all zero. -/
def Clock.text (t : Clock) : List Char :=
  padded 2 t.hour ++ ':' :: padded 2 t.minute ++ ':' :: padded 2 t.second ++
    (if t.micro = 0 then [] else '.' :: padded 6 t.micro)

open Number in
/-- An offset as a sign and `HH:MM`; seconds and microseconds are written only if there are any. -/
def offsetText (offset : Int) : List Char :=
  let n := offset.natAbs
  let (second, micro) := (n / 1000000 % 60, n % 1000000)
  (if offset < 0 then '-' else '+') ::
    padded 2 (n / 3600000000) ++ ':' :: padded 2 (n / 60000000 % 60) ++
    (if second = 0 ∧ micro = 0 then []
     else ':' :: padded 2 second ++ (if micro = 0 then [] else '.' :: padded 6 micro))

def DateTime.text (t : DateTime) : List Char := t.date.text ++ 'T' :: t.clock.text

def Stamp.text (s : Stamp) : List Char := s.wall.text ++ offsetText s.offset

end DavQuery.Calendar
