import DavQuery.Text.Lower
import DavQuery.Text.Percent
import DavQuery.Text.Punycode
import DavQuery.Text.Quoted
import DavQuery.Text.Word
import DavQuery.Url.HostNumber

/-!
Addresses to which requests are sent. Each part has characters that it may hold as they are; others
are escaped, and escapes are kept. Dots are followed in paths. An address that cannot be one is
refused with a message.
-/

namespace DavQuery.Url

open Text

structure Address where
  scheme : List Char := []
  user : List Char := []
  host : List Char := []
  port : Option Int := none
  path : List Char := []
  query : Option (List Char) := none
  fragment : Option (List Char) := none
  deriving Repr, DecidableEq

namespace Address

def lengthLimit : Nat := 65536

def isHidden (c : Char) : Bool := c.toNat < 32 || c.toNat == 127

def isBut (marks : String) (c : Char) : Bool :=
  32 < c.toNat && c.toNat < 127 && !marks.toList.contains c

def inFragment : Char → Bool := isBut "\"<>`"

def inQuery : Char → Bool := isBut "\"#<>"

def inPath : Char → Bool := isBut "\"#<>?`\x7b\x7d"

def inUser : Char → Bool := isBut "\"#<>?`\x7b\x7d/;=@[\\]^|"

def inHost (c : Char) : Bool :=
  Percent.isUnreserved c || "!$&'()*+,;=\"`\x7b\x7d%|\\".toList.contains c

def escapeUnless (test : Char → Bool) (s : List Char) : List Char :=
  s.flatMap fun c => if test c then [c] else Percent.escapeChar c

/-- Whether a run of digits, any character, and so on, so many times, ends with digits. -/
def isDotted : Nat → List Char → Bool
  | 0, s => !s.isEmpty && s.all Char.isDigit
  | k + 1, s =>
    (List.range (s.takeWhile Char.isDigit).length).any fun i => isDotted k (s.drop (i + 2))

def isHostLetter (c : Char) : Bool :=
  c == '-' || (isWord c && c != '_' && lowerChar c == c)

def labelText? (label : List Char) : Option (List Char) :=
  let text :=
    if label.all (·.toNat < 128) then label
    else "xn--".toList ++ Punycode.encode label
  let fits := label.all isHostLetter && label.head? != some '-' && label.getLast? != some '-'
  if !label.isEmpty && fits && text.length ≤ 63 then some text else none

def hostText? (host : List Char) : Option (List Char) :=
  let isDot (c : Char) := c == '.' || c.toNat == 0x3002 || c.toNat == 0xFF0E || c.toNat == 0xFF61
  let labels := (lowerChars host).splitOnP isDot
  let ends := labels.length > 1 && labels.getLast? == some []
  let labels := if ends then labels.dropLast else labels
  (labels.mapM labelText?).map fun texts =>
    ['.'].intercalate texts ++ if ends then ['.'] else []

def readHost (host : List Char) : Except String (List Char) :=
  let shown := quoted (String.ofList host)
  if host.isEmpty then .ok []
  else if isDotted 3 host then
    if isShortNumber host then .ok host else .error s!"Invalid IPv4 address: {shown}"
  else if host.head? = some '[' ∧ host.getLast? = some ']' ∧ 1 < host.length then
    let inside := (host.drop 1).dropLast
    if isZonedNumber inside then .ok inside else .error s!"Invalid IPv6 address: {shown}"
  else if host.all (·.toNat < 128) then .ok (escapeUnless inHost (host.map Char.toLower))
  else
    match hostText? host with
    | some text => .ok text
    | none => .error s!"Invalid IDNA hostname: {shown}"

def usualPorts : List (String × Int) :=
  [("ftp", 21), ("http", 80), ("https", 443), ("ws", 80), ("wss", 443)]

def readPort (scheme port : List Char) : Except String (Option Int) :=
  if port.isEmpty then .ok none
  else
    match integer? port with
    | none => .error s!"Invalid port: {quoted (String.ofList port)}"
    | some n =>
      .ok (if usualPorts.lookup (String.ofList scheme) = some n then none else some n)

/-- The segments with `.` and `..` left out; `..` takes the segment before with it, unless that is
the empty one at the start. -/
def follow (done : List (List Char)) : List (List Char) → List (List Char)
  | [] => done.reverse
  | s :: r =>
    if s = ['.'] then follow done r
    else if s = ['.', '.'] then follow (if done = [[]] then done else done.drop 1) r
    else follow (s :: done) r

def followDots (path : List Char) : List Char :=
  let segments := path.splitOn '/'
  if segments.contains ['.'] || segments.contains ['.', '.'] then
    ['/'].intercalate (follow [] segments)
  else path

def readPath (hasScheme hasHost : Bool) (path : List Char) : Except String (List Char) :=
  if hasHost && !path.isEmpty && path.head? != some '/' then
    .error "For absolute URLs, path must be empty or begin with '/'"
  else if !hasScheme && !hasHost && ['/', '/'].isPrefixOf path then
    .error "Relative URLs cannot have a path starting with '//'"
  else if !hasScheme && !hasHost && path.head? == some ':' then
    .error "Relative URLs cannot have a path starting with ':'"
  else
    .ok (escapeUnless inPath (if hasScheme || hasHost then followDots path else path))

def spanScheme (s : List Char) : List Char × List Char :=
  match cutFirst ':' s with
  | some ([], rest) => ([], rest)
  | some (c :: r, rest) =>
    if c.isAlpha && r.all (fun c => c.isAlphanum || c == '+' || c == '.' || c == '-') then
      (c :: r, rest)
    else ([], s)
  | none => ([], s)

def spanHost (s : List Char) : List Char × List Char :=
  match s.head?, cutLast ']' s with
  | some '[', some (inside, rest) => (inside ++ [']'], rest)
  | _, _ => (s.takeWhile (· != ':'), s.dropWhile (· != ':'))

def spanAuthority (s : List Char) : (List Char × List Char × List Char) × List Char :=
  match s with
  | '/' :: '/' :: r =>
    let isInside (c : Char) := c != '/' && c != '?' && c != '#'
    let (user, rest) := (cutLast '@' (r.takeWhile isInside)).getD ([], r.takeWhile isInside)
    let (host, rest) := spanHost rest
    let port := if rest.head? = some ':' then rest.drop 1 else rest
    ((user, host, port), r.dropWhile isInside)
  | s => (([], [], []), s)

def partAt (mark : Char) (s : List Char) : List Char × Option (List Char) :=
  match cutFirst mark s with
  | some (before, behind) => (before, some behind)
  | none => (s, none)

def withPath (a : Address) (path : List Char) : Except String Address :=
  let hasHost := !a.user.isEmpty || !a.host.isEmpty || a.port.isSome
  (readPath (!a.scheme.isEmpty) hasHost path).map fun path => { a with path }

def read (s : List Char) : Except String Address :=
  if lengthLimit < s.length then .error "URL too long"
  else
    match s.findIdx? isHidden with
    | some i =>
      let shown := quoted (String.ofList (s.getD i ' ' :: []))
      .error s!"Invalid non-printable ASCII character in URL, {shown} at position {i}."
    | none =>
      let (scheme, r) := spanScheme s
      let ((user, host, port), r) := spanAuthority r
      let (r, fragment) := partAt '#' r
      let (path, query) := partAt '?' r
      do
        let host ← readHost host
        let port ← readPort scheme port
        let a : Address :=
          { scheme := scheme.map Char.toLower
            user := escapeUnless inUser user
            host
            port
            query := query.map (escapeUnless inQuery)
            fragment := fragment.map (escapeUnless inFragment) }
        a.withPath path

def isAbsolute (a : Address) : Bool := !a.scheme.isEmpty && !a.host.isEmpty

def authority (a : Address) : List Char :=
  (if a.user.isEmpty then [] else a.user ++ ['@']) ++
    (if a.host.contains ':' then '[' :: a.host ++ [']'] else a.host) ++
    (match a.port with
     | some n => ':' :: (toString n).toList
     | none => [])

def text (a : Address) : List Char :=
  (if a.scheme.isEmpty then [] else a.scheme ++ [':']) ++
    (if a.authority.isEmpty then [] else '/' :: '/' :: a.authority) ++ a.path ++
    (match a.query with
     | some q => '?' :: q
     | none => []) ++
    (match a.fragment with
     | some f => '#' :: f
     | none => [])

/-- The text of an address as it is sent, where the root stands for an empty path. -/
def sentText (a : Address) : String :=
  String.ofList (if a.path.isEmpty then { a with path := ['/'] : Address }.text else a.text)

/-- The address to which a request for the text goes. Without a scheme or a host it is a path. -/
def target (s : List Char) : Except String Address := do
  let a ← read s
  if a.isAbsolute then pure a
  else
    let path := '/' :: a.path.dropWhile (· == '/')
    if lengthLimit < path.length then .error "URL component 'path' too long"
    else if lengthLimit < (a.query.getD []).length then .error "URL component 'query' too long"
    else pure { path, query := a.query }

def portOrUsual (a : Address) : Option Int :=
  match a.port with
  | some n => some n
  | none => if a.scheme = "http".toList then some 80
    else if a.scheme = "https".toList then some 443
    else none

def hasSameOrigin (a b : Address) : Bool :=
  a.scheme == b.scheme && a.host == b.host && a.portOrUsual == b.portOrUsual

def isSecured (a b : Address) : Bool :=
  a.host == b.host && a.scheme == "http".toList && a.portOrUsual == some 80 &&
    b.scheme == "https".toList && b.portOrUsual == some 443

end Address

end DavQuery.Url
