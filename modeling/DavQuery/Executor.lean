import DavQuery.Query.Reader
import DavQuery.Selection
import DavQuery.Source
import DavQuery.Template

/-!
Queries carried out: the query and the settings are checked, the folder is asked for once, and the
records that meet the criteria are written by the template.
-/

namespace DavQuery.Executor

open Calendar

def listFiles : String := "List Files"

def check (settings : Settings) (q : Query) : Except Failure Unit :=
  if q.command ≠ some listFiles then .error .unknownCommand
  else if !settings.isComplete then .error .notConfigured
  else .ok ()

def keep (here : LocalTime) (q : Query) (records : List Record) : Except Breach (List Record) :=
  match q.criteria with
  | some criteria => Selection.select here criteria records
  | none => .ok records

def keepNotes (here : LocalTime) (q : Query) (records : List Record) : List Note :=
  match q.criteria with
  | some criteria => Selection.notes here criteria records
  | none => []

def write (here : LocalTime) (q : Query) (records : List Record) : Except Breach (List String) :=
  records.mapM (Template.expandOr here.zone q.format)

/-- Connects to the source, asks for the folder and closes the source, whatever came of it. -/
def fetch (source : Source σ) (settings : Settings) (folder : String) (s : σ) :
    Except Failure (List Record) × σ :=
  match source.connect settings s with
  | (.error f, s) => (.error f, s)
  | (.ok (), s) =>
    let (outcome, s) := source.list folder s
    (outcome, source.close s)

def present (source : Source σ) (here : LocalTime) (q : Query) (folder : String)
    (records : List Record) (s : σ) : Except Failure (List String) × σ :=
  let s := source.noteAll (keepNotes here q records) s
  match keep here q records with
  | .error b => (.error (.breach b), s)
  | .ok kept =>
    ((write here q kept).mapError .breach,
      source.note (.matched folder kept.length records.length) s)

def execute (source : Source σ) (here : LocalTime) (settings : Settings) (q : Query) (s : σ) :
    Except Failure (List String) × σ :=
  match check settings q with
  | .error f => (.error f, s)
  | .ok () =>
    let folder := Folder.normalize q.folder
    match fetch source settings folder s with
    | (.error f, s) => (.error f, s)
    | (.ok records, s) => present source here q folder records s

def run (source : Source σ) (here : LocalTime) (settings : Settings) (text : String) (s : σ) :
    Except Failure (List String) × σ :=
  let (q, ignored) := Query.readWithIgnored text
  execute source here settings q (source.noteAll (ignored.map .ignored) s)

def runAll (source : Source σ) (here : LocalTime) (settings : Settings) :
    List String → σ → List (Except Failure (List String)) × σ
  | [], s => ([], s)
  | text :: r, s =>
    let (outcome, s) := run source here settings text s
    let (outcomes, s) := runAll source here settings r s
    (outcome :: outcomes, s)

end DavQuery.Executor
