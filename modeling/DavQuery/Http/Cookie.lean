import DavQuery.Http.Message
import DavQuery.Text.Integer
import DavQuery.Text.Lower
import DavQuery.Text.Pieces
import DavQuery.Url.Address

/-!
Cookies. An answer may ask for cookies to be kept, or to be dropped, each told by its domain, its
path and its name. One that names a domain is kept if the host of the address lies in it, and one
that names ports if the address has one of them. There is no clock: a cookie goes by `Max-Age` only
if it has no time at all, and the date in `Expires` is taken to be still to come.
-/

namespace DavQuery.Http

open Text Url

structure Cookie where
  domain : List Char
  path : List Char
  name : List Char
  deriving Repr, DecidableEq

namespace Cookie

/-- What the attributes of a cookie say; of two that say the same thing the first one counts. -/
structure Terms where
  domain : Option (List Char) := none
  path : Option (List Char) := none
  /-- The ports, which may be those of the address itself. -/
  ports : Option (Option (List Char)) := none
  version : Option (List Char) := none
  lifetime : Option Int := none
  deriving Repr, DecidableEq

/-- How many cookies of an answer are lost by an attribute that cannot be read. -/
inductive Fault where
  | one
  | all
  deriving Repr, DecidableEq

abbrev Attribute := List Char × Option (List Char)

def dropQuotes (s : List Char) : List Char :=
  let s := if s.head? = some '"' then s.drop 1 else s
  if s.getLast? = some '"' then s.dropLast else s

def firstOf (held given : Option (List Char)) : Except Fault (Option (List Char)) :=
  match held, given with
  | some v, _ | none, some v => .ok (some v)
  | none, none => .error .one

def Terms.add (t : Terms) (a : Attribute) : Except Fault Terms :=
  match String.ofList (lowerChars a.1), a.2 with
  | "domain", v => (firstOf t.domain (v.map lowerChars)).map ({ t with domain := · })
  | "path", v => (firstOf t.path v).map ({ t with path := · })
  | "version", v => (firstOf t.version (v.map dropQuotes)).map ({ t with version := · })
  | "port", v => .ok (if t.ports.isSome then t else { t with ports := some v })
  | "max-age", none => .error .all
  | "max-age", some v =>
    match integer? v with
    | some n => .ok { t with lifetime := some n }
    | none => .error .one
  | _, _ => .ok t

def readAttribute (part : List Char) : Attribute :=
  match cutFirst '=' (trimChars part) with
  | some (key, value) => (trimChars key, some (trimChars value))
  | none => (trimChars part, none)

def readHeader? (header : List Char) : Option (List Char × Except Fault Terms) :=
  match (header.splitOn ';').map readAttribute with
  | (c :: name, _) :: attributes =>
    some (c :: name, (attributes.filter (!·.1.isEmpty)).foldlM Terms.add {})
  | _ => none

def readHeaders (headers : List (List Char)) : List (List Char × Terms) :=
  let found := headers.filterMap readHeader?
  if found.any fun p => p.2 matches .error .all then []
  else found.filterMap fun p => p.2.toOption.map (p.1, ·)

def isPathSafe (c : Char) : Bool :=
  Percent.isUnreserved c || "%/;:@&=+$,!~*'()".toList.contains c

def capitalEscapes : List Char → List Char
  | '%' :: a :: b :: r =>
    if (hexValue? a).isSome && (hexValue? b).isSome then
      '%' :: a.toUpper :: b.toUpper :: capitalEscapes r
    else '%' :: capitalEscapes (a :: b :: r)
  | c :: r => c :: capitalEscapes r
  | [] => []

def pathText (path : List Char) : List Char :=
  capitalEscapes (Address.escapeUnless isPathSafe path)

/-- The host of an address with its name and without its port. One without a dot is local. -/
def hostText (a : Address) : List Char :=
  let text := lowerChars a.authority
  let rest := dropEndWhile Char.isDigit text
  let host := if rest.getLast? = some ':' ∧ rest ≠ text then rest.dropLast else text
  if host.contains '.' then host else host ++ ".local".toList

def portText (a : Address) : List Char :=
  match cutFirst ':' (Percent.decode a.authority) with
  | some (_, port) => if (integer? port).isSome then port else "80".toList
  | none => "80".toList

def folderText (a : Address) (keepsSlash : Bool) : List Char :=
  let path := pathText a.path
  let path := if path.head? = some '/' then path else '/' :: path
  match cutLast '/' path with
  | some ([], _) | none => ['/']
  | some (folder, _) => if keepsSlash then folder ++ ['/'] else folder

def dotted (domain : List Char) : List Char :=
  if domain.head? = some '.' then domain else '.' :: domain

def isDomainOf (host domain : List Char) (isPlain : Bool) : Bool :=
  let isLocal := ".local".toList.isSuffixOf host
  (isLocal || (domain.drop 1).contains '.') &&
    (!isPlain || domain.isSuffixOf host || (domain.drop 1 ++ ".local".toList).isSuffixOf host ||
      host.head? == some '.' || domain.isSuffixOf ('.' :: host))

def isPortAmong (port : List Char) : List (List Char) → Bool
  | [] => false
  | p :: ps => (integer? p).isSome && (p == port || isPortAmong port ps)

/-- The cookie that an answer from an address asks for, and whether it may be kept. -/
def ofTerms? (a : Address) (name : List Char) (t : Terms) : Option (Cookie × Bool) := do
  let version ← integer? (t.version.getD ['0'])
  let path :=
    match t.path with
    | some (c :: r) => pathText (c :: r)
    | _ => folderText a (version != 0)
  let domain := (t.domain.map dotted).getD (hostText a)
  let isPlain := version == 0 || version == 1
  let domainFits := t.domain.isNone || isDomainOf (hostText a) domain isPlain
  let portFits :=
    match t.ports with
    | some (some ports) => isPortAmong (portText a) ((ports.filter (!isBlank ·)).splitOn ',')
    | _ => true
  return (⟨domain, path, name⟩, version ≤ 1 && domainFits && portFits)

def headersOf (r : Response) : List (List Char) :=
  (r.headers.filter fun h => h.1.toLower == "set-cookie").map (·.2.toList)

/-- The cookies that are kept after an answer from an address: first those go that have no time
left. -/
def update (kept : List Cookie) (a : Address) (r : Response) : List Cookie :=
  let asked := (readHeaders (headersOf r)).filterMap fun (name, terms) =>
    (ofTerms? a name terms).map (·, terms.lifetime.any (· ≤ 0))
  let gone := (asked.filter (·.2)).map (·.1.1)
  let new := (asked.filter fun p => !p.2 && p.1.2).map (·.1.1)
  new.foldr List.insert (kept.removeAll gone)

end Cookie

end DavQuery.Http
