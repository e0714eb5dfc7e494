import DavQuery.Calendar.Timestamp

/-!
The record of an entry of a folder: a file or a folder, with what the server tells about it.
-/

namespace DavQuery

open Calendar

structure Record where
  name : String
  path : String := ""
  kind : String := "file"
  size : Int := 0
  mimetype : String := ""
  /-- The time of the last change, as the server writes it. -/
  modified : String := ""
  created : String := ""
  favorite : Bool := false
  tags : List String := []
  owner : String := ""
  fileId : String := ""
  hasPreview : Bool := false
  deriving Repr, DecidableEq

namespace Record

def fileKind : String := "file"

def folderKind : String := "folder"

def extension (r : Record) : String :=
  match Text.cutLast '.' r.name.toList with
  | some (_, b) => String.ofList b
  | none => ""

def stem (r : Record) : String :=
  match Text.cutLast '.' r.name.toList with
  | some (a, _) => String.ofList a
  | none => r.name

def isFolder (r : Record) : Bool := r.kind == folderKind

def modifiedAt? (zone : Zone) (r : Record) : Except DateFault (Option Stamp) :=
  timestamp? zone r.modified

end Record

end DavQuery
