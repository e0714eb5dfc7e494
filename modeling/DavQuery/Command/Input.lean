import DavQuery.Failure
import DavQuery.Text.Pieces
import DavQuery.Text.RawText
import DavQuery.Text.Utf8

/-!
What a command is given beside its words: lines that are typed, and files named by paths. Octets
that are no text are found out when the reading comes to them, some thousands at a time.
-/

namespace DavQuery.Command

open Text

inductive Halt where
  | endOfInput
  | breach (cause : Breach)
  deriving Repr, DecidableEq

structure Input where
  /-- The lines that can be read one by one. -/
  lines : List RawText := []
  /-- What stops the reading after them; nothing at the end of the input. -/
  fault : Option Breach := none
  /-- The text that is read at once. -/
  all : Except Breach RawText := .ok []

namespace Input

def chunkSize : Nat := 8192

/-- Whether octets are characters, perhaps with one at the end that is still open. -/
def isReadable (octets : List UInt8) : Bool := (Utf8.decode? octets).isSome || Utf8.endsOpen octets

/-- The octets before the chunk that has a fault, or all if there is one at their very end only. -/
def beforeFault (octets : List UInt8) : List UInt8 :=
  let wholes :=
    (List.range (octets.length / chunkSize + 1)).map fun n => octets.take (n * chunkSize)
  ((wholes ++ [octets]).takeWhile isReadable).getLastD []

def closedText (octets : List UInt8) : List Char :=
  let text := Utf8.decodeLenient octets
  if Utf8.endsOpen octets then text.dropLast else text

/-- The lines of a text. What follows the last line end is one if it is not empty. -/
def textLines (s : List Char) : List (List Char) :=
  let parts := s.splitOn '\n'
  if (parts.getLastD []).isEmpty then parts.dropLast else parts

def ofOctets (octets : List UInt8) : Input :=
  match Utf8.decode? octets with
  | some text =>
    let text := unifyLineEnds text
    { lines := (textLines text).map RawText.ofChars, all := .ok (RawText.ofChars text) }
  | none =>
    -- A return at the end may be half a line end: only the next chunk would tell.
    let text := closedText (beforeFault octets)
    let text := unifyLineEnds (if text.getLast? = some '\r' then text.dropLast else text)
    { lines := ((text.splitOn '\n').dropLast).map RawText.ofChars
      fault := some .notText
      all := .error .notText }

def line (i : Input) : Except Halt (RawText × Input) :=
  match i.lines, i.fault with
  | line :: lines, _ => .ok (line, { i with lines })
  | [], some b => .error (.breach b)
  | [], none => .error .endOfInput

end Input

abbrev Files := RawText → Option (List UInt8)

def pathSegments (path : RawText) : List RawText :=
  (path.splitOn (.char '/')).filter fun s => s != [] && s != "."

/-- The slashes with which a path from the top begins: two stay two, any other number is one. -/
def pathTop (path : RawText) : RawText :=
  let slashes := path.takeWhile (· == .char '/')
  if slashes.length = 0 then "" else if slashes.length = 2 then "//" else "/"

def plainPath (path : RawText) : RawText :=
  let text := pathTop path ++ [Point.char '/'].intercalate (pathSegments path)
  if text.isEmpty then "." else text

end DavQuery.Command
