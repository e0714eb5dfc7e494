import DavQuery.Calendar.Expression
import DavQuery.Failure
import DavQuery.Record
import DavQuery.Size
import DavQuery.Text.Word

/-!
Templates: text with placeholders, a word in two pairs of braces, that stand for fields of a record.
A placeholder of an unknown word is text. Values are put in without being read again.
-/

namespace DavQuery

open Calendar Text Number

inductive Token where
  | name
  | stem
  | extension
  | size
  | kilobytes
  | megabytes
  | kind
  | mimetype
  | date
  | datetime
  | modified
  | created
  | favorite
  | tags
  | owner
  | fileId
  | preview
  | path
  deriving Repr, DecidableEq

namespace Token

def words : List (String × Token) :=
  [("name", .name), ("filename", .stem), ("ext", .extension), ("size", .size),
    ("sizekb", .kilobytes), ("sizemb", .megabytes), ("type", .kind), ("mimetype", .mimetype),
    ("date", .date), ("datetime", .datetime), ("modified", .modified), ("created", .created),
    ("favorite", .favorite), ("tags", .tags), ("owner", .owner), ("fileid", .fileId),
    ("preview", .preview), ("path", .path)]

def ofWord? (word : String) : Option Token := words.lookup word

def favoriteMark : String := "⭐"

def previewMark : String := "📷"

def dateText (t : Date) : List Char :=
  padded 2 t.month ++ '/' :: padded 2 t.day ++ '/' :: padded 2 (t.year % 100)

def clockText (t : Clock) : List Char :=
  padded 2 t.hour ++ ':' :: padded 2 t.minute ++ ':' :: padded 2 t.second

/-- The local date-time of the last change, written by the function; nothing if it is not known. -/
def localText (zone : Zone) (r : Record) (write : DateTime → List Char) : Except Breach String :=
  match r.modifiedAt? zone with
  | .error fault => .error (.date fault)
  | .ok stamp =>
    match stamp.bind (·.inZone? zone) with
    | some s => .ok (String.ofList (write s.wall))
    | none => .ok ""

def value (zone : Zone) (r : Record) : Token → Except Breach String
  | .name => .ok r.name
  | .stem => .ok r.stem
  | .extension => .ok r.extension
  | .size => Size.digits r.size
  | .kilobytes => Size.kilobytes r.size
  | .megabytes => Size.megabytes r.size
  | .kind => .ok r.kind
  | .mimetype => .ok r.mimetype
  | .date => localText zone r fun t => dateText t.date
  | .datetime => localText zone r fun t => dateText t.date ++ ' ' :: clockText t.clock
  | .modified => .ok r.modified
  | .created => .ok r.created
  | .favorite => .ok (if r.favorite then favoriteMark else "")
  | .tags => .ok (", ".intercalate r.tags)
  | .owner => .ok r.owner
  | .fileId => .ok r.fileId
  | .preview => .ok (if r.hasPreview then previewMark else "")
  | .path => .ok r.path

end Token

namespace Template

inductive Piece where
  | literal (c : Char)
  | placeholder (word : List Char)
  deriving Repr, DecidableEq

def readPlaceholder? : List Char → Option (List Char × List Char)
  | '\x7b' :: '\x7b' :: r =>
    match r.takeWhile isWord, r.dropWhile isWord with
    | c :: word, '\x7d' :: '\x7d' :: rest => some (c :: word, rest)
    | _, _ => none
  | _ => none

theorem length_of_readPlaceholder? {s w r : List Char} (h : readPlaceholder? s = some (w, r)) :
    r.length < s.length := by
  unfold readPlaceholder? at h
  split at h
  · rename_i t
    split at h
    · rename_i c word rest hw hr
      simp only [Option.some.injEq, Prod.mk.injEq] at h
      obtain ⟨_, rfl⟩ := h
      have := (List.dropWhile_suffix (l := t) isWord).length_le
      rw [hr] at this
      simp only [List.length_cons] at *
      omega
    · simp at h
  · simp at h

def pieces : List Char → List Piece
  | [] => []
  | c :: r =>
    match h : readPlaceholder? (c :: r) with
    | some (word, rest) =>
      have := length_of_readPlaceholder? h
      .placeholder word :: pieces rest
    | none => .literal c :: pieces r
termination_by s => s.length
decreasing_by all_goals (simp only [List.length_cons] at *; omega)

def placeholderText (word : List Char) : List Char :=
  '\x7b' :: '\x7b' :: word ++ ['\x7d', '\x7d']

def Piece.expand (zone : Zone) (r : Record) : Piece → Except Breach (List Char)
  | .literal c => .ok [c]
  | .placeholder word =>
    match Token.ofWord? (String.ofList word) with
    | some token => (token.value zone r).map String.toList
    | none => .ok (placeholderText word)

def expandPieces (zone : Zone) (r : Record) : List Piece → Except Breach (List Char)
  | [] => .ok []
  | p :: ps => do
    let text ← p.expand zone r
    let rest ← expandPieces zone r ps
    pure (text ++ rest)

def expand (zone : Zone) (template : String) (r : Record) : Except Breach String :=
  if template.isEmpty then .ok r.name
  else (expandPieces zone r (pieces template.toList)).map String.ofList

def expandOr (zone : Zone) (template : Option String) (r : Record) : Except Breach String :=
  expand zone (template.getD "") r

end Template

end DavQuery
