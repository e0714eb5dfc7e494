import DavQuery.Http.Agent
import DavQuery.Listing
import DavQuery.Settings

/-!
The client of a server: it asks for listings below the person's root. A connection is opened when
the first request is made, and held until the client is closed.
-/

namespace DavQuery

open Http Url

/-- What a client has to do with: what carries its calls, what reads the answers, and the server. -/
structure Remote (κ : Type) where
  agent : Agent κ
  parse : Xml.Reader
  server : Server

structure Client (κ : Type) where
  /-- The address of the root, without slashes at its end. -/
  baseUrl : RawText
  username : Json.Value
  password : Json.Value
  held : Option κ := none

namespace Client

variable {κ : Type}

def new (baseUrl username password : RawText) : Client κ where
  baseUrl := baseUrl.dropEndSlashes
  username := .text username
  password := .text password

def ofSettings (s : Settings) : Except Breach (Client κ) :=
  match s.baseUrl.text? with
  | some baseUrl =>
    .ok { baseUrl := baseUrl.dropEndSlashes, username := s.username, password := s.password }
  | none => .error (.setting .baseUrl)

def folderUrl (c : Client κ) (folder : String) : RawText :=
  c.baseUrl ++ RawText.ofString (Folder.urlPath (Folder.normalize (some folder)))

def close (c : Client κ) : Client κ := { c with held := none }

def listingBody : String :=
  "<?xml version=\"1.0\" encoding=\"UTF-8\"?>
<d:propfind xmlns:d=\"DAV:\" xmlns:oc=\"http://owncloud.org/ns\" xmlns:nc=\"http://nextcloud.org/ns\">
    <d:prop>
        <d:displayname/>
        <d:getlastmodified/>
        <d:getcontentlength/>
        <d:getcontenttype/>
        <d:resourcetype/>
        <d:creationdate/>
        <oc:size/>
        <oc:favorite/>
        <oc:tags/>
        <oc:owner-display-name/>
        <oc:fileid/>
        <nc:has-preview/>
    </d:prop>
</d:propfind>"

/-- What a use of the client gives: an outcome, the client after it and the wire after it. -/
abbrev Use (κ α : Type) := Except Failure α × Client κ × Wire

def propertyCall (url : String) (depth : RawText) (body : Option RawText) : Call where
  method := "PROPFIND"
  url := url
  depth := depth
  contentType := body.map fun _ => "application/xml"
  body := body

/-- The connection that is held, or a new one. -/
def connection (agent : Agent κ) (c : Client κ) : Except Breach κ :=
  match c.held with
  | some k => .ok k
  | none => agent.connect c.username c.password

def callOn (e : Remote κ) (c : Client κ) (w : Wire) (k : κ) (call : Call) : Use κ Response :=
  let (outcome, k, sent) := e.agent.send (e.server.after w.sent) k call
  (outcome, { c with held := some k }, w.add sent)

def propfind (e : Remote κ) (c : Client κ) (w : Wire) (url depth : RawText)
    (body : Option RawText) : Use κ Response :=
  let w := w.note (.request url depth)
  match c.connection e.agent with
  | .error b => (.error (.breach b), c, w)
  | .ok k =>
    match url.text? with
    | none => (.error (e.agent.refuse url), { c with held := some k }, w)
    | some address => c.callOn e w k (propertyCall address depth body)

def readListing (e : Remote κ) (url : RawText) (folder : String) (r : Response) (w : Wire) :
    Except Failure (List Record) × Wire :=
  if !r.isSuccess then (.error (.badStatus r.status), w)
  else
    match e.agent.text r with
    | .error b => (.error (.breach b), w)
    | .ok text =>
      match url.chars?.bind Reference.read? with
      | none => (.error (.breach .hostReference), w)
      | some ref =>
        let path := String.ofList ref.path
        let w := w.noteAll (Listing.notes e.parse text path)
        match Listing.records e.parse text path with
        | .ok records => (.ok records, w.note (.found records.length folder))
        | .error f => (.error f, w)

def listFolder (e : Remote κ) (c : Client κ) (w : Wire) (folder : String) :
    Use κ (List Record) :=
  let url := c.folderUrl folder
  match c.propfind e w url "1" (some listingBody) with
  | (.error f, c, w) => (.error f, c, w)
  | (.ok r, c, w) =>
    let (outcome, w) := readListing e url folder r w
    (outcome, c, w)

/-- The records of a folder. A folder with half a character in it has no address. -/
def listRecords (e : Remote κ) (c : Client κ) (w : Wire) (folder : RawText) :
    Use κ (List Record) :=
  match folder.text? with
  | none => (.error (.breach .unencodable), c, w)
  | some folder => c.listFolder e w folder

def checkConnection (e : Remote κ) (c : Client κ) (w : Wire) : Use κ Int :=
  match c.propfind e w (c.baseUrl ++ RawText.ofString "/") "1" none with
  | (.error f, c, w) => (.error f, c, w)
  | (.ok r, c, w) => (if r.isSuccess then .ok r.status else .error (.badStatus r.status), c, w)

inductive Step where
  | list (folder : RawText)
  | check
  | propfind (url depth : RawText) (body : Option RawText)
  | folderUrl (folder : RawText)
  | close
  /-- Enters a block at whose end the client is closed. -/
  | block
  deriving Repr, DecidableEq

inductive Result where
  | records (rs : List Record)
  | response (r : Response)
  | status (code : Int)
  | url (s : RawText)
  | closed
  | block
  deriving Repr, DecidableEq

def step (e : Remote κ) (c : Client κ) (w : Wire) : Step → Use κ Result
  | .list folder =>
    let (outcome, c, w) := c.listRecords e w folder
    (outcome.map .records, c, w)
  | .check =>
    let (outcome, c, w) := c.checkConnection e w
    (outcome.map .status, c, w)
  | .propfind url depth body =>
    let (outcome, c, w) := c.propfind e w url depth body
    (outcome.map .response, c, w)
  | .folderUrl folder =>
    match folder.text? with
    | some folder => (.ok (.url (c.folderUrl folder)), c, w)
    | none => (.error (.breach .unencodable), c, w)
  | .close => (.ok .closed, c.close, w)
  | .block => (.ok .block, c.close, w)

abbrev State (κ : Type) := Client κ × Wire

def start (baseUrl username password : RawText) : State κ := (new baseUrl username password, {})

/-- What is seen of a step: its outcome, and the requests that are sent meanwhile. -/
structure Seen where
  outcome : Except Failure Result
  requests : List Request

def seen (e : Remote κ) (s : State κ) (t : Step) : Seen :=
  let (outcome, _, w) := s.1.step e s.2 t
  ⟨outcome, w.sent.drop s.2.sent.length⟩

def after (e : Remote κ) (s : State κ) (t : Step) : State κ := (s.1.step e s.2 t).2

def run (e : Remote κ) (s : State κ) (steps : List Step) : State κ := steps.foldl (after e) s

def log (e : Remote κ) : State κ → List Step → List Seen
  | _, [] => []
  | s, t :: steps => seen e s t :: log e (after e s t) steps

end Client

end DavQuery
