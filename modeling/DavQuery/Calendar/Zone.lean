import DavQuery.Calendar.DateTime

/-!
Local time. A zone has an offset at each point of time, whatever its history. A date-time without
offset is made local by asking which point of time shows it on the clocks: of two the earlier, and
for none the later of the two guesses.
-/

namespace DavQuery.Calendar

/-- A time zone: how many seconds its clocks are ahead of Greenwich at a point of time, which is
given in seconds of Greenwich time. -/
structure Zone where
  offsetAt : Int → Int

def Zone.utc : Zone := ⟨fun _ => 0⟩

def daySeconds : Int := 86400

/-- Why a date-time has no local form: a clock it is compared with leaves the years, or its own
Greenwich time does. -/
inductive LocalFault where
  | clock
  | range
  deriving Repr, DecidableEq

/-- What the clocks of the zone show at a point of time, while the years last. -/
def Zone.clockAt (z : Zone) (seconds : Int) : Option Int :=
  let shown := seconds + z.offsetAt seconds
  if daySeconds ≤ shown ∧ shown < (lastDay + 1) * daySeconds then some shown else none

def Zone.pointOf? (z : Zone) (shown : Int) : Option Int := do
  let a := (← z.clockAt shown) - shown
  let first := shown - a
  let firstShown ← z.clockAt first
  let b ←
    if firstShown = shown then do
      let earlier := first - daySeconds
      pure ((← z.clockAt earlier) - earlier)
    else pure (firstShown - first)
  if firstShown = shown ∧ a = b then pure first
  else
    let second := shown - b
    let secondShown ← z.clockAt second
    if secondShown = shown then pure second
    else if firstShown = shown then pure first
    else pure (max first second)

def Zone.show? (z : Zone) (utc : DateTime) : Option Stamp := do
  let offset := z.offsetAt utc.seconds * 1000000
  Stamp.of? (← DateTime.ofMicros? (utc.micros + offset)) offset

def Zone.locate (z : Zone) (t : DateTime) : Except LocalFault Stamp :=
  match z.pointOf? t.seconds with
  | none => .error .clock
  | some point =>
    match DateTime.ofMicros? (t.micros - z.offsetAt point * 1000000) with
    | none => .error .range
    | some utc =>
      match z.show? utc with
      | some s => .ok s
      | none => .error .range

/-- The stamp of the same instant on the clocks of the zone, while the years last. -/
def Stamp.inZone? (s : Stamp) (z : Zone) : Option Stamp := do
  z.show? (← DateTime.ofMicros? s.instant)

end DavQuery.Calendar
