import DavQuery.Text.Blank
import DavQuery.Url.HostNumber

/-!
References: a scheme, a host, a path with parameters, a query and a fragment, of which any may be
missing. A reference whose host cannot be told is refused.
-/

namespace DavQuery.Url

open Text

structure Reference where
  scheme : List Char := []
  host : List Char := []
  path : List Char := []
  params : List Char := []
  query : List Char := []
  fragment : List Char := []
  deriving Repr, DecidableEq

namespace Reference

def isSchemeChar (c : Char) : Bool := c.isAlphanum || c == '+' || c == '-' || c == '.'

/-- The text without the control characters and blanks before it, and without its tabs and line
ends. -/
def clean (s : List Char) : List Char :=
  (s.dropWhile fun c => c.toNat ≤ 32).filter fun c => c != '\t' && c != '\n' && c != '\r'

def spanScheme (s : List Char) : Option (List Char × List Char) :=
  match cutFirst ':' s with
  | some (c :: r, rest) =>
    if c.isAlpha && r.all isSchemeChar then some ((c :: r).map Char.toLower, rest) else none
  | _ => none

def spanHost (s : List Char) : List Char × List Char :=
  match s with
  | '/' :: '/' :: r =>
    let isHost (c : Char) := c != '/' && c != '?' && c != '#'
    (r.takeWhile isHost, r.dropWhile isHost)
  | s => ([], s)

/-- Whether the text between brackets is a host of a later version, or one of eight groups. -/
def isBracketed (s : List Char) : Bool :=
  match s with
  | 'v' :: r =>
    match cutFirst '.' r with
    | some (version, rest) =>
      !version.isEmpty && !rest.isEmpty && version.all fun c => (hexValue? c).isSome
    | none => false
  | s => isZonedNumber s

def areBracketsRight (host : List Char) : Bool :=
  match cutFirst '[' host with
  | some (_, r) =>
    host.contains ']' && isBracketed (((cutFirst ']' r).map (·.1)).getD r)
  | none => !host.contains ']'

/-- The characters that are written out with one of the marks that part a reference. -/
def disguised : List Nat :=
  [0x2047, 0x2048, 0x2049, 0x2100, 0x2101, 0x2105, 0x2106, 0x2A74, 0xFE13, 0xFE16, 0xFE55, 0xFE56,
    0xFE5F, 0xFE6B, 0xFF03, 0xFF0F, 0xFF1A, 0xFF1F, 0xFF20]

def isHost (host : List Char) : Bool :=
  areBracketsRight host && !host.any fun c => disguised.contains c.toNat

def schemesWithParams : List String :=
  ["", "ftp", "hdl", "prospero", "http", "imap", "https", "shttp", "rtsp", "rtsps", "rtspu", "sip",
    "sips", "mms", "sftp", "tel"]

def part (mark : Char) (s : List Char) : List Char × List Char := (cutFirst mark s).getD (s, [])

def partParams (s : List Char) : List Char × List Char :=
  match cutLast '/' s with
  | some (before, last) =>
    let (path, params) := part ';' last
    (before ++ '/' :: path, params)
  | none => part ';' s

/-- The reference that a text is, if its host can be told. `scheme` is taken if it has none. -/
def readWith? (scheme s : List Char) : Option Reference :=
  let s := clean s
  let (scheme, r) := (spanScheme s).getD (scheme, s)
  let (host, r) := spanHost r
  if isHost host then
    let (r, fragment) := part '#' r
    let (r, query) := part '?' r
    let (path, params) :=
      if schemesWithParams.any (·.toList == scheme) then partParams r else (r, [])
    some { scheme, host, path, params, query, fragment }
  else none

def read? (s : List Char) : Option Reference := readWith? [] s

/-- The path of the reference that a text is; all of the text if there is no path. -/
def pathOrAll? (s : List Char) : Option (List Char) :=
  (read? s).map fun r => if r.path.isEmpty then s else r.path

end Reference

end DavQuery.Url
