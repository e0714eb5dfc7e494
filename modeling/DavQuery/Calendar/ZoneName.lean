import DavQuery.Calendar.Zone
import DavQuery.Text.Pieces

/-!
Zones with one standard offset, and perhaps a daylight offset with the two rules by which the clocks
change each year from 1970 on; and how such zones are named in an environment: the name of standard
time and its offset west of Greenwich, then perhaps the name of daylight time, its offset, and the
rules of the two changes (`EST5EDT,M3.2.0,M11.1.0`).
-/

namespace DavQuery.Calendar

/-- A yearly change of the clocks: the `week`-th `weekday` of the month (0 is Sunday; the fifth week
is the last one), so many seconds after midnight. -/
structure YearlyRule where
  month : Nat
  week : Nat
  weekday : Nat
  seconds : Int
  deriving Repr, DecidableEq

/-- Daylight time: its offset in seconds east of Greenwich and when it starts and stops. -/
structure Daylight where
  offset : Int
  start : YearlyRule
  stop : YearlyRule
  deriving Repr, DecidableEq

def YearlyRule.day (r : YearlyRule) (year : Nat) : Nat :=
  let first := (daysBeforeYear year + daysBeforeMonth year r.month + 1) % 7
  let day := 1 + (r.weekday + 7 - first) % 7 + 7 * (r.week - 1)
  if day ≤ monthLength year r.month then day
  else if day - 7 ≤ monthLength year r.month then day - 7 else day - 14

def YearlyRule.at (r : YearlyRule) (year : Nat) : Int :=
  ((daysBeforeYear year + daysBeforeMonth year r.month + r.day year : Nat) : Int) * daySeconds +
    r.seconds

/-- Whether daylight time holds at the seconds of Greenwich time, in a year of Greenwich time. -/
def Daylight.holds (d : Daylight) (standard : Int) (year : Nat) (seconds : Int) : Bool :=
  let start := d.start.at year - standard
  let stop := d.stop.at year - d.offset
  if start ≤ stop then start ≤ seconds && seconds < stop else seconds < stop || start ≤ seconds

def Zone.yearly (standard : Int) (daylight : Option Daylight) : Zone where
  offsetAt seconds :=
    match daylight, Date.ofNumber? (seconds.fdiv daySeconds).toNat with
    | some d, some t =>
      if 1970 ≤ t.year && d.holds standard t.year seconds then d.offset else standard
    | _, _ => standard

end DavQuery.Calendar

namespace DavQuery.Calendar.ZoneName

open Text

def spanName : List Char → List Char × List Char
  | '<' :: r =>
    match cutFirst '>' r with
    | some (a, b) => (a, b)
    | none => ([], '<' :: r)
  | r => (r.takeWhile Char.isAlpha, r.dropWhile Char.isAlpha)

def spanNumber (s : List Char) : Option (Nat × List Char) :=
  match s.takeWhile Char.isDigit with
  | [] => none
  | ds => some (ds.foldl (fun n c => 10 * n + (c.toNat - 48)) 0, s.dropWhile Char.isDigit)

def spanParts (s : List Char) : Nat × List Char :=
  match s with
  | ':' :: r =>
    match spanNumber r with
    | some (m, ':' :: r') =>
      match spanNumber r' with
      | some (n, r'') => (m * 60 + n, r'')
      | none => (m * 60, ':' :: r')
    | some (m, r') => (m * 60, r')
    | none => (0, s)
  | _ => (0, s)

def spanTime (s : List Char) : Option (Int × List Char) :=
  let (sign, r) : Int × List Char :=
    match s with
    | '-' :: r => (-1, r)
    | '+' :: r => (1, r)
    | r => (1, r)
  (spanNumber r).map fun (h, r) =>
    let (n, r) := spanParts r
    (sign * (h * 3600 + n : Nat), r)

def spanPointNumber (s : List Char) : Option (Nat × List Char) :=
  match s with
  | '.' :: r => spanNumber r
  | _ => none

/-- A change of the clocks by month, week and weekday; the hour is two unless one is given. -/
def readRule? (s : List Char) : Option YearlyRule :=
  match s with
  | 'M' :: r => do
    let (month, r) ← spanNumber r
    let (week, r) ← spanPointNumber r
    let (weekday, r) ← spanPointNumber r
    let seconds ←
      match r with
      | '/' :: r => (spanTime r).map (·.1)
      | _ => some 7200
    pure ⟨month, week, weekday, seconds⟩
  | _ => none

/-- The rules where none are given: from the second Sunday of March to the first of November. -/
def usualRules : YearlyRule × YearlyRule := (⟨3, 2, 0, 7200⟩, ⟨11, 1, 0, 7200⟩)

/-- The two rules after the names; a rule that cannot be read makes the usual ones hold. -/
def readRules (s : List Char) : YearlyRule × YearlyRule :=
  match s with
  | ',' :: r =>
    match (cutFirst ',' r).map fun (a, b) => (readRule? a, readRule? b) with
    | some (some start, some stop) => (start, stop)
    | _ => usualRules
  | _ => usualRules

/-- The zone of its name. Daylight time is an hour ahead unless its offset is given. -/
def read? (s : List Char) : Option Zone := do
  let (name, r) := spanName s
  if name.isEmpty then none
  else
    let (west, r) ← spanTime r
    let standard := -west
    let (name, r) := spanName r
    if name.isEmpty then pure (.yearly standard none)
    else
      let (offset, r) :=
        match spanTime r with
        | some (west, r) => (-west, r)
        | none => (standard + 3600, r)
      let (start, stop) := readRules r
      pure (.yearly standard (some ⟨offset, start, stop⟩))

end DavQuery.Calendar.ZoneName

namespace DavQuery.Calendar

/-- The zone of a name such as `CET-1`; Greenwich time for a name that cannot be read. -/
def Zone.ofName (name : String) : Zone := (ZoneName.read? name.toList).getD .utc

end DavQuery.Calendar
