import DavQuery.Text.Blank
import DavQuery.Text.Percent
import DavQuery.Text.Pieces

/-!
Paths of folders and files: one form for each folder, the form they take within an address, and
the way back from the path of an entry to the path below the person's own root.
-/

namespace DavQuery.Folder

open Text

def dropSlashes (s : List Char) : List Char := dropEndWhile (· == '/') s

def trimSlashes (s : List Char) : List Char := dropSlashes (s.dropWhile (· == '/'))

def closeChars (s : List Char) : List Char :=
  if s = ['/'] then s else if (dropSlashes s).isEmpty && !s.isEmpty then ['/'] else dropSlashes s

/-- The path with a slash at its start and none at its end, unless it is the root. -/
def normalizeChars (s : List Char) : List Char :=
  closeChars (if s.head? = some '/' then s else '/' :: s)

def normalize (folder : Option String) : String :=
  String.ofList (normalizeChars (folder.getD "").toList)

/-- The path as it stands in an address: each part between slashes is escaped. -/
def urlPathChars (s : List Char) : List Char :=
  match trimSlashes s with
  | [] => ['/']
  | s => ((s.splitOn '/').map fun part => '/' :: Percent.encode part).flatten

def urlPath (path : String) : String := String.ofList (urlPathChars path.toList)

/-- What two paths that name the same thing have in common. -/
def canonical (path : List Char) : List Char := dropSlashes (Percent.decode path)

def same (a b : String) : Bool := canonical a.toList == canonical b.toList

def filesRoot : List Char := "/remote.php/dav/files/".toList

def belowRoot (path : List Char) : List Char :=
  match cutAt filesRoot path with
  | some (_, rest) =>
    match cutFirst '/' rest with
    | some (_, below) => '/' :: below
    | none => path
  | none => path

/-- The path of an entry below the person's root, from the path of its address. -/
def relativeChars (path : List Char) : List Char := closeChars (belowRoot (Percent.decode path))

def relative (path : String) : String := String.ofList (relativeChars path.toList)

end DavQuery.Folder
