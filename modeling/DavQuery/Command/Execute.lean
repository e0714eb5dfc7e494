import DavQuery.Block
import DavQuery.Command.Login

/-!
The commands. `login` and `logout` change the slot of the settings; the others read it, ask the
server and print what they find.
-/

namespace DavQuery.Command

open Calendar Http

/-- What a command meets: the shell, the server and what asks it, the local time, the slot, the
files, and what can be typed. -/
structure World (κ : Type) where
  shell : Shell
  remote : Remote κ
  here : LocalTime
  slot : Slot := .absent
  files : Files := fun _ => none
  input : Input := {}
  hidden : List RawText := []
  /-- How many levels of lists and objects may stand in an object of settings. -/
  below : Nat
  /-- What comes of a query, a template or criteria with halves of characters in them. -/
  beyond : Order → Outcome

variable {κ : Type}

def connectionMessage : Failure → String
  | .status 401 _ => "Authentication failed. Check username and app password."
  | .status 404 _ => "URL not found. Check your Nextcloud URL."
  | f@(.request kind _) =>
    if kind.isTransport then "Network error. Check URL and server availability."
    else "Connection failed: " ++ f.message
  | f => "Connection failed: " ++ f.message

def yesNo (b : Bool) : String := if b then "yes" else "no"

def logout (shell : Shell) (slot : Slot) : Report :=
  match slot.clear with
  | .ok (true, cleared) => .keep cleared (.lines shell ["Cleared."])
  | .ok (false, slot) => .keep slot (.lines shell ["No saved credentials."])
  | .error b => .keep slot (.breach b)

def orHyphen (v : Json.Value) : RawText := if v.isGiven then v.shown else "-"

def authStatus (w : World κ) : Outcome :=
  match w.slot.load w.below with
  | .error b => .breach b
  | .ok none => .lines w.shell ["Not logged in."]
  | .ok (some members) =>
    let s := Settings.ofMembers members
    .lines w.shell
      [RawText.ofString "base_url: " ++ s.baseUrl.shown,
        RawText.ofString "username: " ++ orHyphen s.username,
        RawText.ofString ("auth: " ++ yesNo s.isComplete)]

def info (w : World κ) : Outcome :=
  match w.slot.load w.below with
  | .error b => .breach b
  | .ok none => .lines w.shell ["Not logged in. Run 'ncq login' first."]
  | .ok (some members) =>
    let given (name : String) := ((Json.member? members name).map (·.isGiven)).getD false
    .lines w.shell
      [RawText.ofString "base_url: " ++ ((Json.member? members "base_url").getD .null).shown,
        RawText.ofString ("auth: " ++ yesNo (given "username" && given "password"))]

def notSaved (shell : Shell) : Outcome :=
  .error shell "error: no saved credentials. run 'ncq login'"

def ofFailure (shell : Shell) (announce : Failure → String) : Failure → Outcome
  | .breach b => .breach b
  | f => .error shell (announce f)

def test (w : World κ) : Outcome :=
  match w.slot.settings w.below with
  | .error b => .breach b
  | .ok s =>
    if !s.isComplete then notSaved w.shell
    else
      match Client.ofSettings s with
      | .error b => .breach b
      | .ok c =>
        match c.checkConnection w.remote {} with
        | (.ok _, _, wire) => (Outcome.lines w.shell ["Connection successful!"]).on wire
        | (.error f, _, wire) => (ofFailure w.shell connectionMessage f).on wire

def unwriteLineEnds : List Char → List Char
  | '\\' :: 'n' :: r => '\n' :: unwriteLineEnds r
  | c :: r => c :: unwriteLineEnds r
  | [] => []

def fileText (octets : List UInt8) : Except Breach RawText :=
  match Text.Utf8.decode? octets with
  | some text => .ok (RawText.ofChars (Text.unifyLineEnds text))
  | none => .error .notText

/-- The text of the query as it comes: the one given, or that of the file, or what is typed. The
outcome is that of a query that cannot be read. -/
def givenText (w : World κ) (source query : Option RawText) : Except Outcome RawText :=
  match query, source.map plainPath with
  | some q, _ => .ok q
  | none, none => w.input.all.mapError .breach
  | none, some path =>
    if path = RawText.ofString "-" then w.input.all.mapError .breach
    else
      match w.files path with
      | some octets => (fileText octets).mapError .breach
      | none => .error (.error w.shell (RawText.ofString "error: not found: " ++ path))

/-- The text of the query. Line ends may be written out in one that is given as a word. -/
def queryText (w : World κ) (source query : Option RawText) : Except Outcome String :=
  match givenText w source query with
  | .error o => .error o
  | .ok text =>
    match text.chars? with
    | some s => .ok (String.ofList (if query.isSome then unwriteLineEnds s else s))
    | none => .error (w.beyond (.run source query))

def ofBlock (shell : Shell) (b : Block) : Outcome :=
  match b.message with
  | some m => if b.isError then .error shell m else .lines shell [RawText.ofString m]
  | none =>
    .lines shell (b.items.map fun item =>
      RawText.ofString ((if b.noBullets then "" else "- ") ++ item))

def run (w : World κ) (source query : Option RawText) : Outcome :=
  match queryText w source query with
  | .error o => o
  | .ok text =>
    match w.slot.settings w.below with
    | .error b => .breach b
    | .ok settings =>
      match Block.render (.ofRemote w.remote) w.here settings text {} with
      | (.ok b, s) => (ofBlock w.shell b).on s.wire
      | (.error b, s) => (Outcome.breach b).on s.wire

def readCriteria : List String → Except String (List Criterion)
  | [] => .ok []
  | word :: r =>
    match Text.cutFirst '=' word.toList with
    | none => .error word
    | some (key, value) =>
      let c : Criterion :=
        ⟨String.ofList (Text.trimChars key), String.ofList (Text.trimChars value)⟩
      (readCriteria r).map (c :: ·)

def recordLine (r : Record) : Except Breach String :=
  (Size.text r.size).map fun size =>
    let name := if r.isFolder then r.name ++ "/" else r.name
    let modified := if r.modified.isEmpty then "-" else r.modified
    s!"  {name}  {size}  {modified}"

def recordText (here : LocalTime) (format : Option String) (r : Record) : Except Breach String :=
  match format.filter (!·.isEmpty) with
  | some template => Template.expand here.zone template r
  | none => recordLine r

def printRecords (shell : Shell) (here : LocalTime) (format : Option String) :
    List Record → List Shown × Exit
  | [] => ([], .success)
  | r :: rs =>
    match (recordText here format r).bind fun text => (shell.echo text).map (text, ·) with
    | .error b => ([], .breach b)
    | .ok (text, s) =>
      let (out, exit) := printRecords shell here format rs
      (.line text s :: out, exit)

def printSelected (w : World κ) (format : Option String) (criteria : List Criterion)
    (records : List Record) (wire : Wire) : Outcome :=
  let wire := wire.noteAll (Selection.notes w.here criteria records)
  match Selection.select w.here criteria records with
  | .error b => (Outcome.breach b).on wire
  | .ok kept =>
    let (out, exit) := printRecords w.shell w.here format kept
    { exit, out, wire }

def listTexts (w : World κ) (folder : RawText) (format : Option String) (filters : List String) :
    Outcome :=
  match readCriteria filters with
  | .error word => .error w.shell ("error: expected KEY=VALUE: " ++ word)
  | .ok criteria =>
    match w.slot.settings w.below with
    | .error b => .breach b
    | .ok s =>
      if !s.isComplete then notSaved w.shell
      else
        match Client.ofSettings s with
        | .error b => .breach b
        | .ok c =>
          match c.listRecords w.remote {} (if folder.isEmpty then RawText.ofString "/" else folder)
            with
          | (.ok records, _, wire) => printSelected w format criteria records wire
          | (.error f, _, wire) => (ofFailure w.shell (fun f => "error: " ++ f.message) f).on wire

def list (w : World κ) (folder : RawText) (format : Option RawText) (filters : List RawText) :
    Outcome :=
  match format.mapM RawText.text?, filters.mapM RawText.text? with
  | some format, some filters => listTexts w folder format filters
  | _, _ => w.beyond (.list folder format filters)

def Order.carryOut (w : World κ) : Order → Report
  | .login baseUrl username password =>
    Login.run w.shell w.slot ⟨w.input, w.hidden, [], []⟩ baseUrl username password
  | .logout => Command.logout w.shell w.slot
  | .authStatus => .keep w.slot (Command.authStatus w)
  | .test => .keep w.slot (Command.test w)
  | .run source query => .keep w.slot (Command.run w source query)
  | .list folder format filters => .keep w.slot (Command.list w folder format filters)
  | .info => .keep w.slot (Command.info w)

def execute (w : World κ) (words : List RawText) : Report :=
  match w.shell.read words with
  | .told code out err => .keep w.slot { exit := .code code, out := [.plain out], err }
  | .order verbose o => (o.carryOut w).finish w.shell verbose o

end DavQuery.Command
