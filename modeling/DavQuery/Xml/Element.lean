import DavQuery.Failure
import DavQuery.Text.RawText
import DavQuery.Xml.Event

/-!
Elements as a tree. The name of an element is its namespace and its own name within it; its text is
what comes before its first child. Attributes serve to tell the namespaces and are not kept.
-/

namespace DavQuery.Xml

open Text

structure Name where
  space : String
  base : String
  deriving Repr, DecidableEq

structure Element where
  name : Name
  text : String
  children : List Element
  deriving Repr

inductive ReadFault where
  /-- The text is not well-formed, as a message tells. -/
  | illFormed (message : String)
  | breach (cause : Breach)
  deriving Repr, DecidableEq

/-- What reads the element at the top of a document. -/
abbrev Reader := RawText → Except ReadFault Element

namespace Element

def childrenNamed (e : Element) (name : Name) : List Element :=
  e.children.filter (·.name = name)

def child? (e : Element) (name : Name) : Option Element := e.children.find? (·.name = name)

end Element

/-- The namespaces of the labels that may stand before a colon; the empty label is for names
without one. -/
abbrev Scope := List (List Char × List Char)

namespace Scope

def xmlSpace : List Char := "http://www.w3.org/XML/1998/namespace".toList

def xmlnsSpace : List Char := "http://www.w3.org/2000/xmlns/".toList

def initial : Scope := [("xml".toList, xmlSpace)]

def mayBind (label space : List Char) : Bool :=
  (!space.isEmpty || label.isEmpty) && label != "xmlns".toList &&
    (label == "xml".toList) == (space == xmlSpace) && space != xmlnsSpace && !space.contains '}'

def sides (name : List Char) : List Char × List Char := (cutFirst ':' name).getD ([], name)

def declared? (name : List Char) : Option (List Char) :=
  let (label, base) := sides name
  if name = "xmlns".toList then some []
  else if label = "xmlns".toList then some base
  else none

def extend? (scope : Scope) : List (List Char × List Char) → Option Scope
  | [] => some scope
  | (name, value) :: r =>
    match declared? name with
    | some label =>
      if mayBind label value then (extend? scope r).map ((label, value) :: ·) else none
    | none => extend? scope r

def labelled? (scope : Scope) (name : List Char) : Option (List Char × List Char) :=
  let (label, base) := sides name
  (scope.lookup label).map (·, base)

def elementName? (scope : Scope) (name : List Char) : Option Name :=
  let (label, base) := sides name
  match scope.lookup label with
  | some space => some ⟨String.ofList space, String.ofList base⟩
  | none => if label.isEmpty then some ⟨"", String.ofList base⟩ else none

/-- Whether the labels of attributes are known and no two attributes have the same name. -/
def areAttributes (scope : Scope) (attributes : List (List Char × List Char)) : Bool :=
  let labelled := attributes.filter fun a => a.1.contains ':' && (declared? a.1).isNone
  match labelled.mapM fun a => scope.labelled? a.1 with
  | some names => names.eraseDups.length == names.length
  | none => false

end Scope

namespace Element

/-- An element that has begun: its name as written, its name, its scope, its text and its children
so far, the last one first. -/
structure Frame where
  written : List Char
  name : Name
  scope : Scope
  text : List Char := []
  children : List Element := []

def Frame.ofStart? (scope : Scope) (written : List Char)
    (attributes : List (List Char × List Char)) : Option Frame := do
  let scope ← scope.extend? attributes
  let name ← scope.elementName? written
  if scope.areAttributes attributes then pure { written, name, scope } else none

def Frame.addText (f : Frame) (s : List Char) : Frame :=
  if f.children.isEmpty then { f with text := f.text ++ s } else f

def Frame.element (f : Frame) : Element := ⟨f.name, String.ofList f.text, f.children.reverse⟩

/-- The element of events; the frames that are open stand before them, the innermost first. -/
def ofEvents? : List Frame → List Event → Option Element
  | frames, .opens name attributes :: r => do
    let scope := (frames.head?.map (·.scope)).getD Scope.initial
    ofEvents? ((← Frame.ofStart? scope name attributes) :: frames) r
  | f :: frames, .text s :: r => ofEvents? (f.addText s :: frames) r
  | f :: frames, .closes name :: r =>
    if name = f.written then
      match frames with
      | [] => if r.isEmpty then some f.element else none
      | g :: frames => ofEvents? ({ g with children := f.element :: g.children } :: frames) r
    else none
  | _, _ => none

end Element

end DavQuery.Xml
