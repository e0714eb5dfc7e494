import DavQuery.Text.Pieces
import DavQuery.Xml.Element

/-!
Documents: a declaration of the version, a document type, the one element at the top, and remarks
between them. A text that is not well-formed is no document.
-/

namespace DavQuery.Xml

open Text

namespace Document

def isHeadChar (c : Char) : Bool := c.isAlphanum || c == '.' || c == '-' || c == '_'

def headItems? (s : List Char) : Option (List (List Char × List Char)) :=
  match skipSpace s with
  | [] => some []
  | c :: r =>
    if startsWithSpace s then
      let name := (c :: r).takeWhile fun c => !isSpace c && c != '='
      match skipSpace ((c :: r).drop name.length) with
      | '=' :: r =>
        match skipSpace r with
        | [] => none
        | quote :: r =>
          if quote = '"' ∨ quote = '\'' then
            match cutFirst quote r with
            | some (value, rest) =>
              if !value.all isHeadChar then none
              else if _ : rest.length < s.length then
                (headItems? rest).map ((name, value) :: ·)
              else none
            | none => none
          else none
      | _ => none
    else none
termination_by s.length

def standalone? (name value : List Char) : Option Bool :=
  if name != "standalone".toList then none
  else if value = "yes".toList then some true
  else if value = "no".toList then some false
  else none

def isEncoding (name value : List Char) : Bool :=
  name == "encoding".toList && (value.head?.map Char.isAlpha).getD false

def readHead? (items : List (List Char × List Char)) : Option Bool :=
  match items with
  | (version, _) :: r =>
    if version = "version".toList then
      match r with
      | [] => some false
      | [(name, value)] => if isEncoding name value then some false else standalone? name value
      | [(name, value), (n, v)] => if isEncoding name value then standalone? n v else none
      | _ => none
    else none
  | [] => none

/-- Whether the document stands alone, and what follows its declaration if it has one. -/
def spanHead (s : List Char) : Option (Bool × List Char) :=
  match after? "<?xml".toList s with
  | some r =>
    if startsWithSpace r || ['?', '>'].isPrefixOf r then do
      let (inside, rest) ← cutAt ['?', '>'] r
      pure (← readHead? (← headItems? inside), rest)
    else some (false, s)
  | none => some (false, s)

def spanDoctype (standalone : Bool) (s : List Char) : Option (Doctype × List Char) :=
  match after? "<!DOCTYPE".toList s with
  | some r => Doctype.span standalone r
  | none => some ({ standalone }, s)

def readUnified? (s : List Char) : Option Element := do
  if !s.all isAllowed then none
  else
    let (standalone, r) ← spanHead s
    let (doctype, r) ← spanDoctype standalone (skipRemarks r)
    let (items, r) ← Item.spanElement 0 (skipRemarks r)
    if (skipRemarks r).isEmpty then
      Element.ofEvents? [] (← Event.ofItems? doctype doctype.entities items)
    else none

def byteOrderMark : Char := Char.ofNat 0xFEFF

def read? (s : List Char) : Option Element :=
  readUnified? (unifyLineEnds (if s.head? = some byteOrderMark then s.drop 1 else s))

/-- The reader of the program. -/
def reader : Reader := fun s =>
  match s.chars? with
  | none => .error (.breach .unencodable)
  | some s =>
    match read? s with
    | some root => .ok root
    | none => .error (.illFormed "not well-formed")

end Document

end DavQuery.Xml
