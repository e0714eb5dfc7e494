import DavQuery.Calendar.DateTime

/-!
What a text that tells a date-time gives: its fields alone, or a stamp when it tells the offset too.
-/

namespace DavQuery.Calendar

inductive Moment where
  | floating (wall : DateTime)
  | fixed (stamp : Stamp)
  deriving DecidableEq

def DateTime.of? (year month day hour minute second micro : Nat) : Option DateTime := do
  pure ⟨← Date.of? year month day, ← Clock.of? hour minute second micro⟩

/-- The moment moved by so many months; the time of day and the offset, if there is one, are
kept. -/
def Moment.addMonths (m : Moment) (months : Int) : Except YearFault Moment :=
  match m with
  | .floating t => (t.date.addMonths months).map fun date => .floating { t with date }
  | .fixed s => (s.addMonths months).map .fixed

def Moment.text : Moment → List Char
  | .floating t => t.text
  | .fixed s => s.text

end DavQuery.Calendar
