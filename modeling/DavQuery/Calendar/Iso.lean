import DavQuery.Calendar.Moment
import DavQuery.Text.Utf8

/-!
The international form of a date-time: a date by month or by week, then perhaps one character and a
time of day, then perhaps an offset, each with all separators or with none. A text is read octet by
octet; past its end the reader sees the character of code zero.
-/

namespace DavQuery.Calendar.Iso

open Text

def octets (s : List Char) : List Char := (Utf8.encode s).map fun b => Char.ofNat b.toNat

def nul : Char := Char.ofNat 0

def digit? (c : Char) : Option Nat := if c.isDigit then some (c.toNat - 48) else none

def spanNumber (count : Nat) (s : List Char) : Option (Nat × List Char) :=
  if (s.take count).length = count then
    ((s.take count).mapM digit?).map fun ds => (ds.foldl (10 * · + ·) 0, s.drop count)
  else none

def dateLength? (s : List Char) : Option Nat :=
  let octetAt (k : Nat) := s.getD k nul
  if s.length = 7 then some 7
  else if octetAt 4 = '-' then
    if octetAt 5 = 'W' then
      if s.length > 8 ∧ octetAt 8 = '-' then
        if s.length = 9 then none
        else if s.length > 10 ∧ (octetAt 10).isDigit then some 8
        else some 10
      else some 8
    else some 10
  else if octetAt 4 = 'W' then
    let stop := 7 + ((s.drop 7).takeWhile Char.isDigit).length
    some (if stop < 9 then stop else if stop % 2 = 0 then 7 else 8)
  else some 8

def skipHyphen (wanted : Bool) (s : List Char) : Option (List Char) :=
  if wanted then
    match s with
    | '-' :: r => some r
    | _ => none
  else some s

def readDate? (length : Nat) (s : List Char) : Option Date := do
  let (year, r) ← spanNumber 4 s
  let hyphens := r.head? == some '-'
  let r := if hyphens then r.drop 1 else r
  match r with
  | 'W' :: r =>
    let (week, r) ← spanNumber 2 r
    if s.length - r.length < length then
      let (day, _) ← spanNumber 1 (← skipHyphen hyphens r)
      Date.ofWeek? year week day
    else Date.ofWeek? year week 1
  | r =>
    let (month, r) ← spanNumber 2 r
    let (day, r) ← spanNumber 2 (← skipHyphen hyphens r)
    if s.length - r.length = length then Date.of? year month day else none

structure ClockText where
  hour : Nat
  minute : Nat
  second : Nat
  micro : Nat
  /-- Whether something is left after it. -/
  stray : Bool
  deriving Repr, DecidableEq

/-- What follows the last pair of digits: nothing more than perhaps one stray octet, or a
fraction. -/
inductive ClockEnd where
  | ends (stray : Bool)
  | fraction (s : List Char)

/-- Up to `count` pairs of digits. The octet after the first pair tells whether colons part them;
`next` is the octet after the text. -/
def readPairs? (next : Char) : Nat → Option Bool → List Char → Option (List Nat × ClockEnd)
  | 0, _, s => some ([], .fraction s)
  | count + 1, colons, s => do
    let (n, r) ← spanNumber 2 s
    let c := r.headD next
    let colons := colons.getD (c == ':')
    if r.length ≤ 1 then pure ([n], .ends (c != nul))
    else if colons && c == ':' then do
      let (ns, e) ← readPairs? next count (some colons) (r.drop 1)
      pure (n :: ns, e)
    else if c == '.' || c == ',' then pure ([n], .fraction (r.drop 1))
    else if !colons then do
      let (ns, e) ← readPairs? next count (some colons) r
      pure (n :: ns, e)
    else none

/-- A fraction of a second in microseconds; digits after the sixth are dropped. -/
def readFraction? (next : Char) (s : List Char) : Option (Nat × Bool) := do
  let ds := s.take 6
  let (n, r) ← spanNumber ds.length s
  pure (n * Number.tenTo (6 - ds.length), (r.dropWhile Char.isDigit).headD next != nul)

def readClock? (next : Char) (s : List Char) : Option ClockText := do
  let (ns, e) ← readPairs? next 3 none s
  let (micro, stray) ←
    match e with
    | .ends stray => some (0, stray)
    | .fraction r => readFraction? next r
  pure ⟨ns.getD 0 0, ns.getD 1 0, ns.getD 2 0, micro, stray⟩

def startsOffset (c : Char) : Bool := c == '+' || c == '-' || c == 'Z'

/-- The offset in microseconds that follows a time of day. Whole seconds of zero are Greenwich
time. -/
def readOffset? (s : List Char) : Option Int :=
  match s with
  | 'Z' :: r => if r.headD nul = nul then some 0 else none
  | sign :: r => do
    let t ← readClock? nul r
    let seconds := t.hour * 3600 + t.minute * 60 + t.second
    let n : Int := if seconds = 0 then 0 else seconds * 1000000 + t.micro
    if t.stray then none else pure (if sign = '-' then -n else n)
  | [] => none

/-- The time of day on a date, with the offset if one is told. One stray octet before the offset is
let pass. -/
def readTime? (date : Date) (s : List Char) : Option Moment := do
  let zone := s.dropWhile (!startsOffset ·)
  let t ← readClock? (zone.headD nul) (s.takeWhile (!startsOffset ·))
  if zone.isEmpty && t.stray then none
  else
    let offset ← if zone.isEmpty then some none else (readOffset? zone).map some
    let wall : DateTime := ⟨date, ← Clock.of? t.hour t.minute t.second t.micro⟩
    match offset with
    | none => pure (.floating wall)
    | some offset => (Stamp.of? wall offset).map .fixed

def width (c : Char) : Nat :=
  if c.toNat < 0x80 then 1
  else if c.toNat / 16 = 0xE then 3
  else if c.toNat / 16 = 0xF then 4
  else 2

def readOctets? (s : List Char) : Option Moment := do
  let length ← dateLength? s
  let date ← readDate? length s
  match s.drop length with
  | [] => pure (.floating ⟨date, .zero⟩)
  | c :: r => readTime? date (r.drop (width c - 1))

def read? (s : List Char) : Option Moment :=
  if s.length < 7 then none else readOctets? (octets s)

end DavQuery.Calendar.Iso
