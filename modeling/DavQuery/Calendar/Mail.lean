import DavQuery.Calendar.Moment
import DavQuery.Text.Integer
import DavQuery.Text.Lower
import DavQuery.Text.Pieces

/-!
The form of a date-time in the heads of letters (`Fri, 10 Oct 2025 08:30:00 GMT`), read with much
patience: words may be swapped, names shortened, commas added and the zone left out.
-/

namespace DavQuery.Calendar.Mail

open Text

inductive Overflow where
  | number
  deriving Repr, DecidableEq

def dayNames : List String := ["mon", "tue", "wed", "thu", "fri", "sat", "sun"]

def monthNames : List String :=
  ["january", "february", "march", "april", "may", "june", "july", "august", "september",
    "october", "november", "december"]

/-- The number of a month by its name in small letters, whole or its first three. -/
def monthOfName? (s : List Char) : Option Nat :=
  (monthNames.findIdx? fun name => name.toList == s || name.toList.take 3 == s).map (· + 1)

def zoneNames : List (String × Int) :=
  [("UT", 0), ("UTC", 0), ("GMT", 0), ("Z", 0), ("AST", -400), ("ADT", -300), ("EST", -500),
    ("EDT", -400), ("CST", -600), ("CDT", -500), ("MST", -700), ("MDT", -600), ("PST", -800),
    ("PDT", -700)]

/-- Capitals of a letter as far as names of zones need them; the long s and the ligatures of s
and t are spelled out. -/
def zoneCapitals (c : Char) : List Char :=
  if c = 'ſ' then ['S'] else if c = 'ﬅ' ∨ c = 'ﬆ' then ['S', 'T'] else [c.toUpper]

/-- The offset of a zone as four digits; a zone of zero with a minus sign is not known. -/
def zoneDigits? (s : List Char) : Option Int :=
  let name := s.flatMap zoneCapitals
  match zoneNames.find? fun p => p.1.toList == name with
  | some p => some p.2
  | none =>
    match integer? name with
    | some n => if n = 0 ∧ name.head? = some '-' then none else some n
    | none => none

def zoneSeconds (n : Int) : Int :=
  let m : Int := (n.natAbs / 100 * 3600 + n.natAbs % 100 * 60 : Nat)
  if n < 0 then -m else m

def dropDayName : List (List Char) → List (List Char)
  | [] => []
  | w :: r =>
    if w.getLast? = some ',' || dayNames.any (·.toList == lowerChars w) then r
    else
      match cutLast ',' w with
      | some (_, b) => b :: r
      | none => w :: r

/-- Three words whose first holds the day, the month and the year become five. -/
def spreadDate : List (List Char) → List (List Char)
  | [w, t, z] =>
    match w.splitOn '-' with
    | [a, b, c] => [a, b, c, t, z]
    | _ => [w, t, z]
  | ws => ws

def zoneStart? (w : List Char) : Option Nat :=
  match w.findIdx? (· == '+') with
  | some i => some i
  | none => w.findIdx? (· == '-')

/-- Four words become five: the last is parted before the sign of the zone, or an empty zone is
added. -/
def addZone : List (List Char) → List (List Char)
  | [a, b, c, w] =>
    match zoneStart? w with
    | some (i + 1) => [a, b, c, w.take (i + 1), w.drop (i + 1)]
    | _ => [a, b, c, w, []]
  | ws => ws

def dropComma (s : List Char) : List Char :=
  if s.getLast? = some ',' then s.dropLast else s

def clockWords? (s : List Char) : Option (List Char × List Char × List Char) :=
  match s.splitOn ':' with
  | [h, m] => some (h, m, ['0'])
  | [h, m, sec] => some (h, m, sec)
  | [w] =>
    match w.splitOn '.' with
    | [h, m] => some (h, m, ['0'])
    | [h, m, sec] => some (h, m, sec)
    | _ => none
  | _ => none

/-- The six numbers of a date-time, and the offset as four digits when the zone is known. -/
structure Fields where
  year : Int
  month : Nat
  day : Int
  hour : Int
  minute : Int
  second : Int
  zone : Option Int
  deriving Repr, DecidableEq

def fullYear (n : Int) : Int := if n < 100 then if n > 68 then n + 1900 else n + 2000 else n

/-- The word of the day and the number of the month; the words may have changed places. -/
def dayAndMonth? (dd mm : List Char) : Option (List Char × Nat) :=
  match monthOfName? (lowerChars mm) with
  | some month => some (dd, month)
  | none => (monthOfName? (lowerChars dd)).map (lowerChars mm, ·)

/-- The words of the year and of the time of day; they may have changed places. -/
def yearAndTime (yy tm : List Char) : List Char × List Char :=
  match yy.findIdx? (· == ':') with
  | some (_ + 1) => (tm, yy)
  | _ => (yy, tm)

def yearAndZone? (yy tz : List Char) : Option (List Char × List Char) :=
  match yy with
  | [] => none
  | c :: r => some (if isDigitLike c then (c :: r, tz) else (tz, c :: r))

def fieldsOf? (dd mm yy tm tz : List Char) : Option Fields :=
  if dd.isEmpty || mm.isEmpty || yy.isEmpty then none
  else do
    let (dd, month) ← dayAndMonth? dd mm
    let (yy, tm) := yearAndTime yy tm
    let (yy, tz) ← yearAndZone? (dropComma yy) tz
    let (h, m, s) ← clockWords? (dropComma tm)
    let year ← integer? yy
    let day ← integer? (dropComma dd)
    let hour ← integer? h
    let minute ← integer? m
    let second ← integer? s
    pure ⟨fullYear year, month, day, hour, minute, second, zoneDigits? tz⟩

def fields? (s : List Char) : Option Fields :=
  match addZone (spreadDate (dropDayName (words s))) with
  | dd :: mm :: yy :: tm :: tz :: _ => fieldsOf? dd mm yy tm tz
  | _ => none

def fitsWord (n : Int) : Bool := -2147483648 ≤ n && n ≤ 2147483647

def isCountable (seconds : Int) : Bool := (seconds.fdiv 86400).natAbs ≤ 999999999

def natural? (n : Int) : Option Nat := if 0 ≤ n then some n.toNat else none

def Fields.wall? (f : Fields) : Option DateTime := do
  DateTime.of? (← natural? f.year) f.month (← natural? f.day) (← natural? f.hour)
    (← natural? f.minute) (← natural? f.second) 0

def Fields.fit (f : Fields) : Bool :=
  fitsWord f.year && fitsWord f.day && fitsWord f.hour && fitsWord f.minute && fitsWord f.second

def Fields.moment? (f : Fields) : Except Overflow (Option Moment) :=
  match f.zone.map zoneSeconds with
  | none => if f.fit then .ok (f.wall?.map .floating) else .error .number
  | some seconds =>
    if !isCountable seconds then .error .number
    else if 86400 ≤ seconds.natAbs then .ok none
    else if !f.fit then .error .number
    else .ok do
      let wall ← f.wall?
      let stamp ← Stamp.of? wall (seconds * 1000000)
      pure (.fixed stamp)

def read? (s : List Char) : Except Overflow (Option Moment) :=
  match fields? s with
  | none => .ok none
  | some f => f.moment?

end DavQuery.Calendar.Mail
