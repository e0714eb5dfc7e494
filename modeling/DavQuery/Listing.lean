import DavQuery.Failure
import DavQuery.Folder
import DavQuery.Note
import DavQuery.Record
import DavQuery.Url.Reference
import DavQuery.Xml.Element

/-!
Listings: the answer of a server with one entry for each file of a folder, and one for the folder
itself. Properties that the server could not tell are left out of account, unless it says of none
whether it could.
-/

namespace DavQuery.Listing

open Text Xml

def dav (base : String) : Name := ⟨"DAV:", base⟩

def oc (base : String) : Name := ⟨"http://owncloud.org/ns", base⟩

def nc (base : String) : Name := ⟨"http://nextcloud.org/ns", base⟩

/-- The trimmed text of the first child of a name; empty without such a child. -/
def textOf (e : Element) (name : Name) : String :=
  match e.child? name with
  | some c => trim c.text
  | none => ""

def isTold (status : String) : Bool := occurs " 200 ".toList (status.toList ++ [' '])

def propertySets (entry : Element) : List (Element × String) :=
  (entry.childrenNamed (dav "propstat")).filterMap fun p =>
    (p.child? (dav "prop")).map (·, textOf p (dav "status"))

/-- The sets of properties that count: those that are told, or all if none is said to be. -/
def properties (entry : Element) : List Element :=
  let sets := propertySets entry
  let told := sets.filter fun p => isTold p.2
  (if told.isEmpty then sets else told).map (·.1)

def firstText (props : List Element) (name : Name) : String :=
  ((props.map (textOf · name)).find? (!·.isEmpty)).getD ""

def isCollection (props : List Element) : Bool :=
  props.any fun p =>
    (p.childrenNamed (dav "resourcetype")).any fun t => (t.child? (dav "collection")).isSome

/-- The size that the properties tell; zero if they tell none or a negative one. -/
def sizeOf (props : List Element) : Nat :=
  let own := firstText props (oc "size")
  let text := if own.isEmpty then firstText props (dav "getcontentlength") else own
  ((integer? text.toList).getD 0).toNat

def tagsOf (props : List Element) : List String :=
  props.flatMap fun p =>
    (p.childrenNamed (oc "tags")).flatMap fun t =>
      ((t.childrenNamed (oc "tag")).map fun tag => trim tag.text).filter (!·.isEmpty)

def lastSegment (path : List Char) : List Char :=
  (((Percent.decode path).splitOn '/').filter (!·.isEmpty)).getLastD []

/-- The name of an entry: the one that is told, or the last segment of its path. -/
def nameOf (props : List Element) (path : List Char) : String :=
  let told := firstText props (dav "displayname")
  if told.isEmpty then String.ofList (lastSegment path) else told

/-- The record of an entry whose path and properties are known; none for an entry without a
name. -/
def recordOf? (path : List Char) (props : List Element) : Option Record :=
  let name := nameOf props path
  if name.isEmpty then none
  else
    some {
      name
      path := String.ofList (Folder.relativeChars path)
      kind := if isCollection props then Record.folderKind else Record.fileKind
      size := sizeOf props
      mimetype := firstText props (dav "getcontenttype")
      modified := firstText props (dav "getlastmodified")
      created := firstText props (dav "creationdate")
      favorite := firstText props (oc "favorite") == "1"
      tags := tagsOf props
      owner := firstText props (oc "owner-display-name")
      fileId := firstText props (oc "fileid")
      hasPreview := firstText props (nc "has-preview") == "true" }

inductive Outcome where
  /-- The folder itself. -/
  | itself
  /-- An entry that has no path, no properties or no name. -/
  | unnamed (href : String)
  | record (r : Record)
  deriving Repr, DecidableEq

def outcome (request : String) (entry : Element) : Except Breach Outcome :=
  let href := textOf entry (dav "href")
  if href.isEmpty then .ok (.unnamed href)
  else
    match Url.Reference.pathOrAll? href.toList with
    | none => .error .hostReference
    | some path =>
      if Folder.same (String.ofList path) request then .ok .itself
      else
        match properties entry with
        | [] => .ok (.unnamed href)
        | props =>
          match recordOf? path props with
          | some r => .ok (.record r)
          | none => .ok (.unnamed href)

def entries (root : Element) : List Element := root.childrenNamed (dav "response")

def Outcome.record? : Outcome → Option Record
  | .record r => some r
  | _ => none

def Outcome.notes : Outcome → List Note
  | .unnamed href => [.unnamed href]
  | _ => []

def recordsOf (request : String) (entries : List Element) : Except Breach (List Record) :=
  (entries.mapM (outcome request)).map fun outcomes => outcomes.filterMap (·.record?)

def notesOf (request : String) : List Element → List Note
  | [] => []
  | e :: r =>
    match outcome request e with
    | .ok o => o.notes ++ notesOf request r
    | .error _ => []

/-- The listing is no document, as a message tells. -/
def notWellFormed (message : String) : Failure := .response ("Invalid WebDAV response: " ++ message)

def records (parse : Reader) (text : RawText) (request : String) : Except Failure (List Record) :=
  match parse text with
  | .ok root => (recordsOf request (entries root)).mapError .breach
  | .error (.illFormed message) => .error (notWellFormed message)
  | .error (.breach b) => .error (.breach b)

def notes (parse : Reader) (text : RawText) (request : String) : List Note :=
  match parse text with
  | .ok root => notesOf request (entries root)
  | .error _ => []

end DavQuery.Listing
