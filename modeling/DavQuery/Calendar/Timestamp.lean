import DavQuery.Calendar.Iso
import DavQuery.Calendar.Mail
import DavQuery.Calendar.Zone

/-!
Points of time as texts tell them, in the international form or in the form of letters. A text
without an offset is local time.
-/

namespace DavQuery.Calendar

/-- Where and when a text is read: the local zone, and what its clocks show. -/
structure LocalTime where
  zone : Zone
  now : DateTime

/-- Why a date text ends in a fault instead of telling no date. -/
inductive DateFault where
  /-- A number is beyond what a date-time is made of. -/
  | numberRange
  /-- The unit of a shift is spelled with a letter that only looks like the right one. -/
  | unitSpelling
  /-- The present moment has no local form. -/
  | now (fault : LocalFault)
  deriving Repr, DecidableEq

def LocalTime.present (here : LocalTime) : Except DateFault Stamp :=
  (here.zone.locate here.now).mapError .now

def Moment.stamp? (zone : Zone) : Moment → Option Stamp
  | .fixed s => some s
  | .floating t => (zone.locate t).toOption

def readMoment? (s : List Char) : Except DateFault (Option Moment) :=
  match Text.trimChars s with
  | [] => .ok none
  | c :: r =>
    match Iso.read? (c :: r) with
    | some m => .ok (some m)
    | none => (Mail.read? (c :: r)).mapError fun .number => .numberRange

def readStamp? (zone : Zone) (s : List Char) : Except DateFault (Option Stamp) := do
  pure ((← readMoment? s).bind (·.stamp? zone))

def timestamp? (zone : Zone) (text : String) : Except DateFault (Option Stamp) :=
  readStamp? zone text.toList

end DavQuery.Calendar
