/-!
Dates of the Gregorian calendar, carried back to the year 1, up to the year 9999. A date is also a
day number: the first of January of the year 1 is day 1.
-/

namespace DavQuery.Calendar

def isLeap (year : Nat) : Bool :=
  year % 4 == 0 && (year % 100 != 0 || year % 400 == 0)

def monthLength (year month : Nat) : Nat :=
  match month with
  | 2 => if isLeap year then 29 else 28
  | 4 | 6 | 9 | 11 => 30
  | 1 | 3 | 5 | 7 | 8 | 10 | 12 => 31
  | _ => 0

def IsDate (year month day : Nat) : Prop :=
  1 ≤ year ∧ year ≤ 9999 ∧ 1 ≤ month ∧ month ≤ 12 ∧ 1 ≤ day ∧ day ≤ monthLength year month

instance (year month day : Nat) : Decidable (IsDate year month day) := by
  unfold IsDate; infer_instance

structure Date where
  year : Nat
  month : Nat
  day : Nat
  valid : IsDate year month day
  deriving DecidableEq

def Date.of? (year month day : Nat) : Option Date :=
  if h : IsDate year month day then some ⟨year, month, day, h⟩ else none

theorem Date.of?_eq_some_iff {y m d : Nat} {t : Date} :
    Date.of? y m d = some t ↔ t.year = y ∧ t.month = m ∧ t.day = d := by
  unfold Date.of?
  split
  · rename_i h
    constructor
    · rintro ⟨⟩; exact ⟨rfl, rfl, rfl⟩
    · rintro ⟨rfl, rfl, rfl⟩; rfl
  · rename_i h
    constructor
    · intro e; cases e
    · rintro ⟨rfl, rfl, rfl⟩; exact absurd t.valid h

def daysBeforeYear (year : Nat) : Nat :=
  let y := year - 1
  y * 365 + y / 4 - y / 100 + y / 400

def daysBeforeMonth (year : Nat) : Nat → Nat
  | 0 => 0
  | month + 1 => daysBeforeMonth year month + monthLength year month

def Date.number (t : Date) : Nat :=
  daysBeforeYear t.year + daysBeforeMonth t.year t.month + t.day

def lastDay : Nat := 3652059

def yearOfDay (n : Nat) : Nat :=
  let y := (n - 1) * 400 / 146097 + 1
  if daysBeforeYear (y + 1) < n then y + 1 else if daysBeforeYear y < n then y else y - 1

/-- Counts off months: how many whole ones go before the day `n`, and the day in the next. -/
def spanMonths : List Nat → Nat → Nat × Nat
  | [], n => (0, n)
  | length :: r, n =>
    if n ≤ length then (0, n) else let (k, d) := spanMonths r (n - length); (k + 1, d)

def monthLengths (year : Nat) : List Nat :=
  (List.range 12).map fun k => monthLength year (k + 1)

def Date.ofNumber? (n : Nat) : Option Date :=
  if 1 ≤ n ∧ n ≤ lastDay then
    let year := yearOfDay n
    let (k, day) := spanMonths (monthLengths year) (n - daysBeforeYear year)
    Date.of? year (k + 1) day
  else none

def weekdayOfNumber (n : Nat) : Nat := (n + 6) % 7

/-- The number of the Monday that begins the first week of the year: the week that holds the first
Thursday. -/
def firstWeek (year : Nat) : Nat :=
  let n := daysBeforeYear year + 1
  let w := weekdayOfNumber n
  if w ≤ 3 then n - w else n + 7 - w

def hasLongYear (year : Nat) : Bool :=
  let w := weekdayOfNumber (daysBeforeYear year + 1)
  w == 3 || (w == 2 && isLeap year)

def Date.ofWeek? (year week day : Nat) : Option Date :=
  if 1 ≤ year ∧ year ≤ 9999 ∧ 1 ≤ week ∧ (week ≤ 52 ∨ week = 53 ∧ hasLongYear year = true) ∧
      1 ≤ day ∧ day ≤ 7 then
    Date.ofNumber? (firstWeek year + (week - 1) * 7 + (day - 1))
  else none

end DavQuery.Calendar
