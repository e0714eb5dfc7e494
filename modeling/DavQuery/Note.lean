import DavQuery.Text.Quoted

/-!
What the program notes down while it works, for whoever wants to follow it.
-/

namespace DavQuery

inductive QueryPart where
  | filter
  | header
  deriving Repr, DecidableEq

/-- A line of a query that is passed over: its number from 1, where it stands, and its text. -/
structure IgnoredLine where
  number : Nat
  part : QueryPart
  text : String
  deriving Repr, DecidableEq

inductive Note where
  | ignored (line : IgnoredLine)
  | request (url depth : RawText)
  | unnamed (href : String)
  | found (count : Nat) (folder : String)
  /-- A date bound that cannot be compared with the date of a record. -/
  | unusableDate (key value name : String)
  | matched (folder : String) (kept total : Nat)
  | failed (message : String)
  deriving Repr, DecidableEq

open Text in
def Note.text : Note → String
  | .ignored ⟨n, .filter, t⟩ =>
    s!"DEBUG ncquery.parser: line {n}: ignored in filter section: {quoted t}"
  | .ignored ⟨n, .header, t⟩ => s!"DEBUG ncquery.parser: line {n}: not a key/value line: {quoted t}"
  | .request url depth => s!"DEBUG ncquery.client: PROPFIND {url.shown} (Depth: {depth.shown})"
  | .unnamed href =>
    s!"DEBUG ncquery.client: skipping PROPFIND entry without name: {quoted href}"
  | .found count folder => s!"DEBUG ncquery.client: found {count} entries in {folder}"
  | .unusableDate key value name =>
    s!"DEBUG ncquery.filters: {key} {quoted value}: unusable date for {name}"
  | .matched folder kept total =>
    s!"DEBUG ncquery.executor: {folder}: {kept} of {total} entries matched"
  | .failed message => s!"DEBUG ncquery.executor: query failed: {message}"

end DavQuery
