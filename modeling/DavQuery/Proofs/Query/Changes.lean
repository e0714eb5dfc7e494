import DavQuery.Proofs.Query.Entries

/-! A query that is changed again and again. The last setting of a key is what is read under it and
what is listed with it. The keys without a meaning are held in the order in which they were first
set, whatever came in between. -/

namespace DavQuery

theorem eraseDups_append_singleton {α : Type*} [DecidableEq α] (l : List α) (a : α) :
    (l ++ [a]).eraseDups = if a ∈ l then l.eraseDups else l.eraseDups ++ [a] := by
  rw [List.eraseDups_append]
  by_cases h : a ∈ l <;> simp [List.removeAll, h, List.eraseDups_cons]

theorem nodup_eraseDups {α : Type*} [DecidableEq α] (l : List α) : l.eraseDups.Nodup := by
  induction l using List.reverseRecOn with
  | nil => exact List.nodup_nil
  | append_singleton l a ih =>
    rw [eraseDups_append_singleton]
    split
    · exact ih
    · rename_i h
      refine List.nodup_append.2 ⟨ih, List.pairwise_singleton .., ?_⟩
      rintro b hb c hc rfl
      exact h (List.mem_singleton.1 hc ▸ List.mem_eraseDups.1 hb)

/-- The keys of the headers with a meaning, in the order in which they are listed. -/
def Header.names : List String := ["command", "folder", "format", "list-style"]

theorem Header.ofKey?_eq_none_iff {key : String} :
    Header.ofKey? key = none ↔ key ∉ Header.names := by
  rw [← not_iff_not, ← ne_eq, Option.ne_none_iff_exists', not_not]
  simp only [Header.ofKey?_eq_some_iff]
  constructor
  · rintro ⟨h, rfl⟩
    cases h <;> decide
  · simp only [Header.names, List.mem_cons, List.not_mem_nil, or_false]
    rintro (rfl | rfl | rfl | rfl)
    exacts [⟨.command, rfl⟩, ⟨.folder, rfl⟩, ⟨.format, rfl⟩, ⟨.listStyle, rfl⟩]

namespace Query

inductive Change where
  | header (key value : String)
  /-- The criteria are replaced, or taken away. -/
  | criteria (cs : Option (List Criterion))
  deriving Repr, DecidableEq

namespace Change

def apply (q : Query) : Change → Query
  | .header key value => q.set key value
  | .criteria cs => { q with criteria := cs }

def key? : Change → Option String
  | .header key _ => some key
  | .criteria _ => none

def valueOf? (key : String) : Change → Option String
  | .header k value => if k = key then some value else none
  | .criteria _ => none

def criteria? : Change → Option (Option (List Criterion))
  | .header _ _ => none
  | .criteria cs => some cs

theorem get?_apply (c : Change) (q : Query) (key : String) :
    (c.apply q).get? key = (c.valueOf? key).or (q.get? key) := by
  cases c with
  | header k value =>
    by_cases h : k = key
    · simp [apply, valueOf?, h, get?_set_self]
    · simp [apply, valueOf?, h, get?_set_of_ne q (Ne.symm h)]
  | criteria cs => exact get?_withCriteria ..

theorem extraKeys_apply (c : Change) (q : Query) : (c.apply q).extraKeys =
    match c.key? with
    | some key =>
      if key ∉ Header.names ∧ key ∉ q.extraKeys then q.extraKeys ++ [key] else q.extraKeys
    | none => q.extraKeys := by
  cases c with
  | header key value => simp only [apply, key?, extraKeys_set, Header.ofKey?_eq_none_iff]
  | criteria cs => rfl

theorem criteria_apply (c : Change) (q : Query) :
    (c.apply q).criteria = c.criteria?.getD q.criteria := by
  cases c with
  | header key value => exact criteria_set ..
  | criteria cs => rfl

theorem valueOf?_ne_none_iff {c : Change} {key : String} :
    c.valueOf? key ≠ none ↔ c.key? = some key := by
  cases c <;> simp [valueOf?, key?]

end Change

def ofChanges (changes : List Change) : Query := changes.foldl (fun q c => c.apply q) empty

def keysSet (changes : List Change) : List String := changes.filterMap Change.key?

def lastValue? (changes : List Change) (key : String) : Option String :=
  (changes.filterMap (Change.valueOf? key)).getLast?

def lastCriteria? (changes : List Change) : Option (List Criterion) :=
  (changes.filterMap Change.criteria?).getLast?.getD none

section Changes
variable (changes : List Change) (c : Change)

theorem ofChanges_append_singleton : ofChanges (changes ++ [c]) = c.apply (ofChanges changes) := by
  simp [ofChanges]

theorem keysSet_append_singleton : keysSet (changes ++ [c]) = keysSet changes ++ c.key?.toList := by
  cases h : c.key? <;> simp [keysSet, h]

theorem lastValue?_append_singleton (key : String) :
    lastValue? (changes ++ [c]) key = (c.valueOf? key).or (lastValue? changes key) := by
  cases h : c.valueOf? key <;> simp [lastValue?, h]

theorem lastCriteria?_append_singleton :
    lastCriteria? (changes ++ [c]) = c.criteria?.getD (lastCriteria? changes) := by
  cases h : c.criteria? <;> simp [lastCriteria?, h]

theorem lastValue?_ne_none_iff {changes : List Change} {key : String} :
    lastValue? changes key ≠ none ↔ key ∈ keysSet changes := by
  induction changes using List.reverseRecOn with
  | nil => simp [lastValue?, keysSet]
  | append_singleton changes c ih =>
    rw [lastValue?_append_singleton, keysSet_append_singleton, List.mem_append, ← ih,
      Option.mem_toList, ← Change.valueOf?_ne_none_iff]
    cases c.valueOf? key <;> simp

theorem get?_ofChanges (key : String) : (ofChanges changes).get? key = lastValue? changes key := by
  induction changes using List.reverseRecOn with
  | nil => exact get?_empty key
  | append_singleton changes c ih =>
    rw [ofChanges_append_singleton, Change.get?_apply, ih, lastValue?_append_singleton]

theorem criteria_ofChanges : (ofChanges changes).criteria = lastCriteria? changes := by
  induction changes using List.reverseRecOn with
  | nil => rfl
  | append_singleton changes c ih =>
    rw [ofChanges_append_singleton, Change.criteria_apply, ih, lastCriteria?_append_singleton]

theorem extraKeys_ofChanges : (ofChanges changes).extraKeys =
    ((keysSet changes).filter fun key => key ∉ Header.names).eraseDups := by
  induction changes using List.reverseRecOn with
  | nil => rfl
  | append_singleton changes c ih =>
    rw [ofChanges_append_singleton, Change.extraKeys_apply, ih, keysSet_append_singleton,
      List.filter_append]
    cases c.key? with
    | none => simp
    | some key =>
      by_cases hnamed : key ∈ Header.names
      · simp [hnamed]
      · by_cases hset : key ∈ keysSet changes <;>
          simp [hnamed, hset, eraseDups_append_singleton, List.mem_eraseDups]

theorem mem_extraKeys_ofChanges_iff {changes : List Change} {key : String} :
    key ∈ (ofChanges changes).extraKeys ↔ key ∈ keysSet changes ∧ key ∉ Header.names := by
  simp [extraKeys_ofChanges, List.mem_eraseDups]

theorem nodup_extraKeys_ofChanges : (ofChanges changes).extraKeys.Nodup := by
  rw [extraKeys_ofChanges]
  exact nodup_eraseDups _

theorem ofKey?_of_mem_extraKeys {changes : List Change} :
    ∀ key ∈ (ofChanges changes).extraKeys, Header.ofKey? key = none := fun _ hkey =>
  Header.ofKey?_eq_none_iff.2 (mem_extraKeys_ofChanges_iff.1 hkey).2

theorem mem_extra_ofChanges_iff {changes : List Change} {key value : String} :
    (key, value) ∈ (ofChanges changes).extra ↔
      key ∉ Header.names ∧ lastValue? changes key = some value := by
  by_cases hnamed : key ∈ Header.names
  · have hnot : (key, value) ∉ (ofChanges changes).extra := fun h =>
      (mem_extraKeys_ofChanges_iff.1 (List.mem_map_of_mem h)).2 hnamed
    simp [hnamed, hnot]
  · rw [← lookup_eq_some_iff_mem (nodup_extraKeys_ofChanges changes), ← get?_ofChanges, get?,
      Header.ofKey?_eq_none_iff.2 hnamed]
    simp [hnamed]

end Changes

theorem map_fst_namedHeaders (q : Query) :
    q.namedHeaders.map Prod.fst = Header.names.filter fun key => q.get? key ≠ none := by
  obtain ⟨command, folder, format, listStyle, -, -⟩ := q
  cases command <;> cases folder <;> cases format <;> cases listStyle <;> rfl

theorem map_fst_toList (q : Query) : q.toList.map Prod.fst = q.headers.map Prod.fst ++
    if q.criteria ≠ none ∧ "filter" ∉ q.headers.map Prod.fst then ["filter"] else [] := by
  have htexts : (q.headers.map fun p => (p.1, Entry.text p.2)).map Prod.fst =
      q.headers.map Prod.fst := by
    rw [List.map_map]
    rfl
  rw [toList]
  cases q.criteria with
  | none => simp [htexts]
  | some cs =>
    simp only [putEntry_eq_put, map_fst_put, htexts]
    by_cases h : "filter" ∈ q.headers.map Prod.fst <;> simp [h]

theorem map_fst_headers_ofChanges (changes : List Change) :
    (ofChanges changes).headers.map Prod.fst =
      Header.names.filter (· ∈ keysSet changes) ++ (ofChanges changes).extra.map Prod.fst := by
  rw [headers, List.map_append, map_fst_namedHeaders]
  simp only [get?_ofChanges, lastValue?_ne_none_iff]

/-- A query shows the last of the changes made to it. Each key reads and lists as what it was set to
last, and setting it is not seen under another key. Of the keys that were set, those with a meaning
are listed first and in their own order, the others in the order of their first settings. -/
structure ShowsLast (changes : List Change) (q : Query) : Prop where
  get_eq : ∀ key fallback, q.get key fallback = (lastValue? changes key).or fallback
  get_set_of_ne : ∀ key value k fallback, k ≠ key →
    (q.set key value).get k fallback = q.get k fallback
  criteria_eq : q.criteria = lastCriteria? changes
  mem_extra_iff : ∀ key value, (key, value) ∈ q.extra ↔
    key ∉ Header.names ∧ lastValue? changes key = some value
  map_fst_extra : q.extra.map Prod.fst =
    ((keysSet changes).filter fun key => key ∉ Header.names).eraseDups
  nodup_extra : (q.extra.map Prod.fst).Nodup
  mem_toList_iff : ∀ key e, key ≠ "filter" →
    ((key, e) ∈ q.toList ↔ ∃ value, lastValue? changes key = some value ∧ e = .text value)
  mem_toList_filter_iff : ∀ e, ("filter", e) ∈ q.toList ↔
    (∃ cs, q.criteria = some cs ∧ e = .criteria cs) ∨
      q.criteria = none ∧ ∃ value, lastValue? changes "filter" = some value ∧ e = .text value
  map_fst_toList : q.toList.map Prod.fst =
    Header.names.filter (· ∈ keysSet changes) ++ q.extra.map Prod.fst ++
      if q.criteria ≠ none ∧ "filter" ∉ keysSet changes then ["filter"] else []
  nodup_toList : (q.toList.map Prod.fst).Nodup

/-- Whatever changes are made, one after the other, a query shows the last of them. -/
theorem ofChanges_shows_last (changes : List Change) : ShowsLast changes (ofChanges changes) := by
  have hnodup := nodup_extraKeys_ofChanges changes
  have hmem (key : String) (e : Entry) : (key, e) ∈ (ofChanges changes).toList ↔ _ :=
    mem_toList_iff hnodup ofKey?_of_mem_extraKeys
  have hfilter : "filter" ∈ (ofChanges changes).headers.map Prod.fst ↔
      "filter" ∈ keysSet changes := by
    have hextra : "filter" ∈ (ofChanges changes).extra.map Prod.fst ↔ _ :=
      mem_extraKeys_ofChanges_iff
    rw [map_fst_headers_ofChanges, List.mem_append, hextra]
    simp [Header.names]
  constructor
  case get_eq =>
    intro key fallback
    rw [get, get?_ofChanges]
  case get_set_of_ne =>
    intro key value k fallback hne
    rw [get, get, get?_set_of_ne _ hne]
  case criteria_eq => exact criteria_ofChanges changes
  case mem_extra_iff => exact fun key value => mem_extra_ofChanges_iff
  case map_fst_extra => exact extraKeys_ofChanges changes
  case nodup_extra => exact hnodup
  case mem_toList_iff =>
    intro key e hkey
    simp [hmem, hkey, get?_ofChanges]
  case mem_toList_filter_iff =>
    intro e
    simp [hmem, get?_ofChanges]
  case map_fst_toList =>
    rw [Query.map_fst_toList, ← map_fst_headers_ofChanges]
    simp only [hfilter]
  case nodup_toList => exact Query.nodup_toList hnodup ofKey?_of_mem_extraKeys

/-- A header that is set anew keeps its place, and criteria take the place of a header. -/
example : (ofChanges [.header "b" "1", .header "filter" "x", .header "folder" "", .header "a" "2",
      .criteria (some []), .header "b" "3", .header "command" "c"]).toList =
    [("command", .text "c"), ("folder", .text ""), ("b", .text "3"), ("filter", .criteria []),
      ("a", .text "2")] := by
  decide

end Query

end DavQuery
