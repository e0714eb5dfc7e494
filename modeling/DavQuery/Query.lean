import DavQuery.Criterion

/-!
Queries. A query has four headers with a meaning, any other headers in the order of their first
setting, and perhaps a list of criteria.
-/

namespace DavQuery

structure Query where
  command : Option String := none
  folder : Option String := none
  format : Option String := none
  listStyle : Option String := none
  criteria : Option (List Criterion) := none
  extra : List (String × String) := []
  deriving Repr, DecidableEq

inductive Header where
  | command
  | folder
  | format
  | listStyle
  deriving Repr, DecidableEq

namespace Header

def keys : List (String × Header) :=
  [("command", .command), ("folder", .folder), ("format", .format), ("list-style", .listStyle)]

def ofKey? (key : String) : Option Header := keys.lookup key

end Header

/-- The list with the value under the key: in the place of an earlier value, or at the end. -/
def assign (key value : String) : List (String × String) → List (String × String)
  | [] => [(key, value)]
  | p :: r => if p.1 = key then (key, value) :: r else p :: assign key value r

theorem lookup_assign_self (key value : String) (l : List (String × String)) :
    (assign key value l).lookup key = some value := by
  induction l with
  | nil => simp [assign]
  | cons p r ih =>
    by_cases h : p.1 = key
    · simp [assign, h]
    · have h' : (key == p.1) = false := by simpa using fun e => h e.symm
      rw [assign, if_neg h, List.lookup_cons, h']
      exact ih

theorem lookup_assign_of_ne {key k : String} (hk : k ≠ key) (value : String)
    (l : List (String × String)) : (assign key value l).lookup k = l.lookup k := by
  induction l with
  | nil => simp [assign, hk]
  | cons p r ih =>
    by_cases h : p.1 = key
    · have h1 : (k == key) = false := by simpa using hk
      have h2 : (k == p.1) = false := by simpa [h] using hk
      rw [assign, if_pos h, List.lookup_cons, List.lookup_cons, h1, h2]
    · rw [assign, if_neg h, List.lookup_cons, List.lookup_cons, ih]

inductive Entry where
  | text (value : String)
  | criteria (value : List Criterion)
  deriving Repr, DecidableEq

def putEntry (key : String) (entry : Entry) : List (String × Entry) → List (String × Entry)
  | [] => [(key, entry)]
  | p :: r => if p.1 = key then (key, entry) :: r else p :: putEntry key entry r

namespace Query

def empty : Query := {}

def header (q : Query) : Header → Option String
  | .command => q.command
  | .folder => q.folder
  | .format => q.format
  | .listStyle => q.listStyle

def set (q : Query) (key value : String) : Query :=
  match Header.ofKey? key with
  | some .command => { q with command := some value }
  | some .folder => { q with folder := some value }
  | some .format => { q with format := some value }
  | some .listStyle => { q with listStyle := some value }
  | none => { q with extra := assign key value q.extra }

def get? (q : Query) (key : String) : Option String :=
  match Header.ofKey? key with
  | some h => q.header h
  | none => q.extra.lookup key

def get (q : Query) (key : String) (fallback : Option String) : Option String :=
  (q.get? key).or fallback

def hasCriteria (q : Query) : Bool := q.criteria.isSome

def noBullets (q : Query) : Bool := q.listStyle == some "none"

def namedHeaders (q : Query) : List (String × String) :=
  Header.keys.filterMap fun (key, h) => (q.header h).map (key, ·)

def headers (q : Query) : List (String × String) := q.namedHeaders ++ q.extra

/-- The headers and the criteria as entries. The criteria come last, or in the place of a header
that is called like them. -/
def toList (q : Query) : List (String × Entry) :=
  let entries := q.headers.map fun (key, value) => (key, Entry.text value)
  match q.criteria with
  | some cs => putEntry "filter" (.criteria cs) entries
  | none => entries

def headerLine (h : String × String) : String := h.1 ++ " : " ++ h.2 ++ "\n"

def criterionLine (c : Criterion) : String := "    - " ++ c.key ++ ": " ++ c.value ++ "\n"

def sectionText : Option (List Criterion) → String
  | some cs => "filter:\n" ++ String.join (cs.map criterionLine)
  | none => ""

def print (q : Query) : String :=
  String.join (q.headers.map headerLine) ++ sectionText q.criteria

end Query

end DavQuery
