import DavQuery.Calendar.ZoneName
import DavQuery.Command.Execute
import DavQuery.Command.Standard
import DavQuery.Http.Standard
import DavQuery.Xml.Document
import Std.Time.DateTime.Timestamp

/-!
The program: the words of its command line, the saved settings and a file of a query are read, the
command is carried out, and what it prints and leaves behind is written. There is no network here;
every request fails to connect.
-/

namespace DavQuery.Main

open Command

def unreachable : Http.Server := fun _ => .fault .connect "network is unreachable"

def slotPath : IO (String × String) := do
  let home := (← IO.getEnv "HOME").getD "."
  pure (home ++ "/.config/ncquery", home ++ "/.config/ncquery/config.json")

def readSlot (path : String) : IO Slot := do
  try
    pure (.file (← IO.FS.readBinFile path).toList)
  catch _ => pure .absent

def writeSlot (folder path : String) : Slot → IO Unit
  | .file octets => do
    IO.FS.createDirAll folder
    IO.FS.writeBinFile path ⟨octets.toArray⟩
  | .absent => try IO.FS.removeFile path catch _ => pure ()
  | .directory => pure ()

def readFiles (words : List RawText) : IO Files := do
  match Shell.standard.read words with
  | .order _ (.run (some source) none) =>
    try
      let octets := (← IO.FS.readBinFile (plainPath source).shown).toList
      pure fun path => if path = plainPath source then some octets else none
    catch _ => pure fun _ => none
  | _ => pure fun _ => none

def wantsInput (words : List RawText) : Bool :=
  match Shell.standard.read words with
  | .order _ (.login _ _ _) => true
  | .order _ (.run source none) => (source.map plainPath).getD "-" == RawText.ofString "-"
  | _ => false

/-- How many levels of lists and objects are read below another one. -/
def levels : Nat := 900

def epoch : Calendar.DateTime := ⟨⟨1970, 1, 1, by decide⟩, .zero⟩

def clockAfter (zone : Calendar.Zone) (millis : Int) : Calendar.DateTime :=
  match Calendar.DateTime.ofMicros? (epoch.micros + millis * 1000) with
  | some utc => ((zone.show? utc).map (·.wall)).getD utc
  | none => epoch

def present : IO Calendar.LocalTime := do
  let zone := Calendar.Zone.ofName ((← IO.getEnv "TZ").getD "UTC0")
  let now ← Std.Time.Timestamp.now
  pure ⟨zone, clockAfter zone now.toMillisecondsSinceUnixEpoch.val⟩

end DavQuery.Main

open DavQuery DavQuery.Main DavQuery.Command in
def main (args : List String) : IO UInt32 := do
  let words := args.map RawText.ofString
  let (folder, path) ← slotPath
  let slot ← readSlot path
  let octets ←
    if wantsInput words then (← IO.getStdin).readBinToEnd |>.map (·.toList) else pure []
  let w : World Http.Held :=
    { shell := .standard
      remote := ⟨.standard, Xml.Document.reader, unreachable⟩
      here := ← present
      slot
      files := ← readFiles words
      input := .ofOctets octets
      below := levels
      beyond := fun _ => .breach .unencodable }
  let r := execute w words
  IO.print r.text
  IO.eprint r.err
  if r.slot ≠ slot then writeSlot folder path r.slot
  pure r.exit.status.toUInt32
