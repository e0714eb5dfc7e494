import DavQuery.Calendar.Timestamp

/-!
Date expressions: `now`, a date text, or one of the two followed by a sign, a number and a unit
(`now - 10 days`). Months and years move the fields of the calendar; the other units move the wall
clock.
-/

namespace DavQuery.Calendar

open Text

inductive TimeUnit where
  | second
  | minute
  | hour
  | day
  | week
  | month
  | year
  deriving Repr, DecidableEq

def TimeUnit.name : TimeUnit → List Char
  | .second => "second".toList
  | .minute => "minute".toList
  | .hour => "hour".toList
  | .day => "day".toList
  | .week => "week".toList
  | .month => "month".toList
  | .year => "year".toList

def TimeUnit.all : List TimeUnit := [.second, .minute, .hour, .day, .week, .month, .year]

inductive Span where
  | seconds (n : Int)
  | months (n : Int)
  deriving Repr, DecidableEq

def TimeUnit.times (n : Int) : TimeUnit → Span
  | .second => .seconds n
  | .minute => .seconds (60 * n)
  | .hour => .seconds (3600 * n)
  | .day => .seconds (86400 * n)
  | .week => .seconds (604800 * n)
  | .month => .months n
  | .year => .months (12 * n)

def Stamp.move? (s : Stamp) : Span → Option Stamp
  | .seconds n => s.shift? (n * 1000000)
  | .months n => (s.addMonths n).toOption

def kelvinSign : Char := Char.ofNat 0x212A

/-- Whether a character stands for a small letter where case does not matter. The Kelvin sign, the
long s and two letters i stand for the letters they resemble. -/
def standsFor (letter c : Char) : Bool :=
  c.toLower == letter || (letter == 'k' && c == kelvinSign) || (letter == 's' && c == 'ſ') ||
    (letter == 'i' && (c == 'ı' || c == 'İ'))

def hasPlainSmall (c : Char) : Bool := c.toNat < 128 || c == kelvinSign

structure UnitWord where
  unit : TimeUnit
  /-- Whether its letters are those of its name, and not ones that resemble them. -/
  plain : Bool
  deriving Repr, DecidableEq

def spells (name s : List Char) : Bool :=
  s.length == name.length && (name.zip s).all fun (letter, c) => standsFor letter c

def unitWord? (s : List Char) : Option UnitWord :=
  let stem := s.dropLast
  TimeUnit.all.findSome? fun u =>
    if spells u.name s then some ⟨u, s.all hasPlainSmall⟩
    else if spells u.name stem && (s.getLast?.map (standsFor 's')).getD false then
      some ⟨u, stem.all hasPlainSmall⟩
    else none

structure Shift where
  negative : Bool
  digits : List Nat
  word : UnitWord
  deriving Repr, DecidableEq

/-- The shift that a text writes: a sign, a number and a unit, with white space before each. -/
def readShift? (s : List Char) : Option Shift :=
  match s.dropWhile isBlank with
  | sign :: r =>
    if sign = '+' ∨ sign = '-' then
      match spanDigits (r.dropWhile isBlank) with
      | ([], _) => none
      | (ds, r) => (unitWord? (r.dropWhile isBlank)).map fun word => ⟨sign == '-', ds, word⟩
    else none
  | [] => none

/-- The shortest start of a text, of one character or more and without a line feed, that a shift
follows up to the end; and that shift. -/
def splitShift? : List Char → Option (List Char × Shift)
  | [] => none
  | c :: r =>
    if c = '\n' then none
    else
      match readShift? r with
      | some shift => some ([c], shift)
      | none => (splitShift? r).map fun (base, shift) => (c :: base, shift)

def isNow (s : List Char) : Bool := lowerChars (trimChars s) == "now".toList

def readBase? (here : LocalTime) (s : List Char) : Except DateFault (Option Stamp) :=
  if isNow s then here.present.map some else readStamp? here.zone s

/-- The stamp moved by a shift. A number of too many digits moves nothing to nowhere. -/
def Shift.apply? (shift : Shift) (s : Stamp) : Except DateFault (Option Stamp) :=
  if digitLimit < shift.digits.length then .ok none
  else if !shift.word.plain then .error .unitSpelling
  else
    .ok (s.move? (shift.word.unit.times (signed shift.negative (ofDigits shift.digits))))

def resolveChars? (here : LocalTime) (s : List Char) : Except DateFault (Option Stamp) :=
  let s := trimChars s
  if isNow s then here.present.map some
  else
    match splitShift? s with
    | none => readStamp? here.zone s
    | some (base, shift) => do
      match ← readBase? here base with
      | none => pure none
      | some stamp => shift.apply? stamp

def resolve? (here : LocalTime) (text : String) : Except DateFault (Option Stamp) :=
  resolveChars? here text.toList

end DavQuery.Calendar
