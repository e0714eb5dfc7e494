import DavQuery.Http.Agent
import DavQuery.Http.Charset
import DavQuery.Http.Cookie
import DavQuery.Url.Join

/-!
The agent of the program. It logs in with every request, follows the answers that send a request on,
and leaves the login behind where a request goes on to another server. A connection keeps the
cookies it is asked to keep, and while it does, no request goes to an address without a scheme.
-/

namespace DavQuery

/-! Base64: three octets as four characters of an alphabet of sixty-four, filled up with `=`. -/

namespace Text.Base64

def alphabet : List Char :=
  "ABCDEFGHIJKLMNOPQRSTUVWXYZabcdefghijklmnopqrstuvwxyz0123456789+/".toList

def digit (n : Nat) : Char := alphabet.getD n '='

def encode : List UInt8 → List Char
  | a :: b :: c :: r =>
    let n := a.toNat * 65536 + b.toNat * 256 + c.toNat
    digit (n / 262144) :: digit (n / 4096 % 64) :: digit (n / 64 % 64) :: digit (n % 64) :: encode r
  | [a, b] =>
    let n := a.toNat * 1024 + b.toNat * 4
    [digit (n / 4096), digit (n / 64 % 64), digit (n % 64), '=']
  | [a] => [digit (a.toNat / 4), digit (a.toNat % 4 * 16), '=', '=']
  | [] => []

end Text.Base64

namespace Http

open Url

/-- What a connection keeps: the login that it writes into requests, and its cookies. -/
structure Held where
  authorization : String
  cookies : List Cookie := []
  deriving Repr, DecidableEq

/-- A call at work: the requests that have been sent, and the cookies of the connection. -/
structure Link where
  sent : List Request := []
  cookies : List Cookie := []
  deriving Repr, DecidableEq

namespace Link

def exchange (server : Server) (request : Request) (l : Link) : Answer × Link :=
  let sent := l.sent ++ [request]
  (server sent, { l with sent })

def keepCookies (l : Link) (a : Address) (r : Response) : Link :=
  { l with cookies := Cookie.update l.cookies a r }

end Link

def allow (cookies : List Cookie) (a : Address) : Except Failure Address :=
  if a.scheme.isEmpty && !cookies.isEmpty then .error (.breach .missingScheme) else .ok a

def redirectLimit : Nat := 20

def tooManyRedirects : Failure := .request .redirects "Exceeded maximum allowed redirects."

/-- The address with the fragment of the one before, if it has none of its own. -/
def keepFragment (before next : Address) : Except Failure Address :=
  match before.fragment.filter (!·.isEmpty), next.fragment.filter (!·.isEmpty) with
  | some f, none =>
    let f := Text.Percent.decode f
    match f.findIdx? Address.isHidden with
    | some i =>
      let shown := Text.quoted (String.ofList [f.getD i ' '])
      .error (.address
        ("Invalid non-printable ASCII character in URL fragment component, " ++
          s!"{shown} at position {i}."))
    | none => .ok { next with fragment := some (Address.escapeUnless Address.inFragment f) }
  | _, _ => .ok next

def redirectTarget (before : Address) (location : String) : Except Failure Address := do
  let next ←
    match Address.read location.toList with
    | .ok a => pure a
    | .error m => throw (.request .remoteProtocol s!"Invalid URL in location header: {m}.")
  let next ←
    if !next.scheme.isEmpty && next.host.isEmpty then
      ({ next with host := before.host } : Address).withPath next.path |>.mapError .address
    else pure next
  let next ←
    if next.isAbsolute then pure next
    else
      match Reference.join? before.text next.text with
      | some joined => (Address.read joined).mapError .address
      | none => throw (.breach .hostReference)
  keepFragment before next

def redirected (request : Request) (status : Int) (before next : Address) : Request :=
  let keepsLogin := before.hasSameOrigin next || before.isSecured next
  let becomesGet := status == 302 || status == 303
  { request with
    url := next.sentText
    method := if becomesGet then "GET" else request.method
    body := if becomesGet then "" else request.body
    authorization := if keepsLogin then request.authorization else none }

/-- What becomes of a request: it comes to an end, or it is sent on to an address. -/
inductive Turn where
  | ends (outcome : Except Failure Response)
  | goesOn (request : Request) (next : Address)

def sendOnce (server : Server) (request : Request) (address : Address) (l : Link) : Turn × Link :=
  match l.exchange server request with
  | (.fault kind message, l) => (.ends (.error (.request kind message)), l)
  | (.response r, l) =>
    if address.scheme.isEmpty then (.ends (.error (.breach .missingScheme)), l)
    else
      let l := l.keepCookies address r
      match r.location? with
      | none => (.ends (.ok r), l)
      | some location =>
        match (redirectTarget address location).bind (allow l.cookies) with
        | .error f => (.ends (.error f), l)
        | .ok next => (.goesOn (redirected request r.status address next) next, l)

/-- Sends a request to the address and follows the answers that send it on, so many times at
most. -/
def follow (server : Server) : Nat → Request → Address → Link → Except Failure Response × Link
  | budget, request, address, l =>
    match sendOnce server request address l, budget with
    | (.ends outcome, l), _ => (outcome, l)
    | (.goesOn _ _, l), 0 => (.error tooManyRedirects, l)
    | (.goesOn request next, l), budget + 1 => follow server budget request next l

def headerText? (s : RawText) : Option String :=
  s.text?.filter fun s => s.toList.all (·.toNat < 128)

def bodyText? (body : Option RawText) : Option String :=
  match body with
  | some s => s.text?
  | none => some ""

/-- The address of a call that can be made on the connection, and the request for it. -/
def prepare (k : Held) (call : Call) : Except Failure (Address × Request) :=
  match Address.target call.url.toList with
  | .error message => .error (.address message)
  | .ok a =>
    match headerText? call.depth with
    | none => .error (.breach .headerText)
    | some depth =>
      match allow k.cookies a with
      | .error f => .error f
      | .ok a =>
        match bodyText? call.body with
        | none => .error (.breach .unencodable)
        | some body =>
          .ok (a, {
            method := call.method
            url := a.sentText
            depth := some depth
            contentType := call.contentType
            authorization := some k.authorization
            body })

namespace Agent

def authorization (username password : String) : String :=
  let text := username.toList ++ ':' :: password.toList
  "Basic " ++ String.ofList (Text.Base64.encode (Text.Utf8.encode text))

def connectStandard (username password : Json.Value) : Except Breach Held :=
  match username.text?, password.text? with
  | none, _ => .error (.setting .username)
  | _, none => .error (.setting .password)
  | some username, some password =>
    match username.text?, password.text? with
    | some username, some password => .ok { authorization := authorization username password }
    | _, _ => .error .unencodable

def sendStandard (server : Server) (k : Held) (call : Call) :
    Except Failure Response × Held × List Request :=
  match prepare k call with
  | .error f => (.error f, k, [])
  | .ok (a, request) =>
    let (outcome, l) := follow server redirectLimit request a ⟨[], k.cookies⟩
    (outcome, { k with cookies := l.cookies }, l.sent)

/-- The agent of the program. -/
def standard : Agent Held where
  connect := connectStandard
  send := sendStandard
  refuse _ := .breach .unencodable
  text r := .ok r.text

end Agent

end Http

end DavQuery
