import DavQuery.Query
import DavQuery.Text.Word

/-!
Reading queries. A line is a header `key: value`, or `key; value` if it has no colon. The line
`filter:` opens a section of criteria `- key: value`, which goes on until a line that is neither
indented nor begins with a hyphen. Other lines are passed over.
-/

namespace DavQuery.Query

open Text

/-- What opens a section of criteria; what follows it on its line has no meaning. -/
def opening : List Char := "filter:".toList

def isOpener (line : List Char) : Bool := opening.isPrefixOf line

def criterionOf? (line : List Char) : Option Criterion :=
  match line with
  | '-' :: r =>
    let r := r.dropWhile isBlank
    match r.takeWhile isWord, r.dropWhile isWord with
    | c :: word, ':' :: rest =>
      match trimChars rest with
      | [] => none
      | value => some ⟨String.ofList (c :: word), String.ofList value⟩
    | _, _ => none
  | _ => none

/-- Whether a line that is no criterion belongs to the section before it: it is indented, or it
begins with a hyphen. -/
def staysInside (line : List Char) : Bool :=
  match line with
  | c :: _ => c == ' ' || c == '\t' || (trimChars line).head? == some '-'
  | [] => true

/-- The two sides of a header line. Further semicolons of a line that is parted by one become
colons. -/
def sides? (line : List Char) : Option (List Char × List Char) :=
  match cutFirst ':' line with
  | some p => some p
  | none => (cutFirst ';' line).map fun p => (p.1, p.2.map fun c => if c = ';' then ':' else c)

def headerOf? (line : List Char) : Option (String × String) :=
  match (sides? line).map fun p => (trimChars p.1, trimChars p.2) with
  | some (c :: key, d :: value) => some (String.ofList (c :: key), String.ofList (d :: value))
  | _ => none

def addCriterion (q : Query) (c : Criterion) : Query :=
  { q with criteria := some (q.criteria.getD [] ++ [c]) }

/-- Reads lines from the given number on; `inside` tells whether a section is open. -/
def readLines (number : Nat) (inside : Bool) (q : Query) :
    List (List Char) → Query × List IgnoredLine
  | [] => (q, [])
  | line :: rest =>
    let trimmed := trimChars line
    if trimmed.isEmpty then readLines (number + 1) inside q rest
    else if isOpener trimmed then
      readLines (number + 1) true { q with criteria := some [] } rest
    else
      match if inside then criterionOf? trimmed else none with
      | some c => readLines (number + 1) true (q.addCriterion c) rest
      | none =>
        if inside && staysInside line then
          let (q, ignored) := readLines (number + 1) true q rest
          (q, ⟨number, .filter, String.ofList trimmed⟩ :: ignored)
        else
          match headerOf? line with
          | some (key, value) => readLines (number + 1) false (q.set key value) rest
          | none =>
            let (q, ignored) := readLines (number + 1) false q rest
            (q, ⟨number, .header, String.ofList trimmed⟩ :: ignored)

def readWithIgnored (text : String) : Query × List IgnoredLine :=
  readLines 1 false empty (text.toList.splitOn '\n')

def read (text : String) : Query := (readWithIgnored text).1

def ignored (text : String) : List IgnoredLine := (readWithIgnored text).2

end DavQuery.Query
