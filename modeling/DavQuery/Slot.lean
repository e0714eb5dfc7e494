import DavQuery.Failure
import DavQuery.Json.Printer
import DavQuery.Json.Reader
import DavQuery.Settings
import DavQuery.Text.Blank
import DavQuery.Text.Utf8

/-!
The place where settings are saved: nothing, a file, or a directory that stands in the way.
-/

namespace DavQuery

open Json Text

inductive Slot where
  | absent
  | directory
  | file (octets : List UInt8)
  deriving Repr, DecidableEq

abbrev Saved := List (RawText × Value)

namespace Slot

def object? : Value → Option Saved
  | .object members => if (member? members "base_url").isSome then some members else none
  | _ => none

/-- The object in a file: its text is UTF-8 and an object that has an address. Lists and objects
stand below it on so many levels at most. -/
def ofOctets (below : Nat) (octets : List UInt8) : Except Breach (Option Saved) :=
  match Utf8.decode? octets with
  | none => .ok none
  | some text =>
    match Json.read (below + 1) text with
    | .ok v => .ok (object? v)
    | .error .malformed => .ok none
    | .error .nested => .error .nesting

def load (below : Nat) : Slot → Except Breach (Option Saved)
  | .file octets => ofOctets below octets
  | _ => .ok none

def settings (below : Nat) (slot : Slot) : Except Breach Settings :=
  (slot.load below).map fun saved => Settings.ofMembers (saved.getD [])

/-- The members of the object for an address, without slashes at its end, and perhaps a name and a
password. -/
def members (baseUrl : String) (username password : Option String) : List (String × String) :=
  ("base_url", dropEndSlashes baseUrl) ::
    (username.map fun v => ("username", v)).toList ++ (password.map fun v => ("password", v)).toList

def fileOctets (baseUrl : String) (username password : Option String) : List UInt8 :=
  Utf8.encode (printObject (members baseUrl username password))

def fileOctets? (baseUrl : RawText) (username password : Option RawText) :
    Option (List UInt8) := do
  pure (fileOctets (← baseUrl.text?) (← username.mapM RawText.text?)
    (← password.mapM RawText.text?))

/-- Saves an address and perhaps a name and a password. The file is emptied before it is written:
nothing of an earlier one is left, also where the texts cannot be encoded. -/
def save (slot : Slot) (baseUrl : RawText) (username password : Option RawText) :
    Except Breach Unit × Slot :=
  match slot with
  | .directory => (.error .directory, .directory)
  | _ =>
    match fileOctets? baseUrl username password with
    | some octets => (.ok (), .file octets)
    | none => (.error .unencodable, .file [])

def clear (slot : Slot) : Except Breach (Bool × Slot) :=
  match slot with
  | .directory => .error .directory
  | .file _ => .ok (true, .absent)
  | .absent => .ok (false, .absent)

end Slot

end DavQuery
