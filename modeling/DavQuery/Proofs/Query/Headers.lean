import DavQuery.Proofs.Table

/-! The headers of a query as a map. Setting one key is seen under that key only; the keys beyond
those with a meaning are held in the order in which they were first set. -/

namespace DavQuery

/-- The key of a header with a meaning. -/
def Header.key : Header → String
  | .command => "command"
  | .folder => "folder"
  | .format => "format"
  | .listStyle => "list-style"

theorem Header.ofKey?_eq_some_iff {key : String} {h : Header} :
    Header.ofKey? key = some h ↔ key = h.key := by
  rw [Header.ofKey?, lookup_eq_some_iff_mem (by decide)]
  cases h <;> simp [Header.keys, Header.key]

theorem Header.ofKey?_key (h : Header) : Header.ofKey? h.key = some h :=
  Header.ofKey?_eq_some_iff.2 rfl

namespace Query

@[simp] theorem criteria_set (q : Query) (key value : String) :
    (q.set key value).criteria = q.criteria := by
  unfold set
  split <;> rfl

theorem get?_withCriteria (q : Query) (criteria : Option (List Criterion)) (key : String) :
    { q with criteria }.get? key = q.get? key := by
  unfold get?
  cases Header.ofKey? key with
  | none => rfl
  | some h => cases h <;> rfl

@[simp] theorem get?_empty (key : String) : empty.get? key = none := by
  unfold get?
  cases Header.ofKey? key with
  | none => rfl
  | some h => cases h <;> rfl

theorem header_set (q : Query) (key value : String) (h : Header) :
    (q.set key value).header h = if key = h.key then some value else q.header h := by
  unfold set
  cases hk : Header.ofKey? key with
  | none =>
    have hne : key ≠ h.key := by
      rintro rfl
      simp [Header.ofKey?_key] at hk
    rw [if_neg hne]
    cases h <;> rfl
  | some h' =>
    rw [Header.ofKey?_eq_some_iff] at hk
    subst hk
    cases h' <;> cases h <;> simp [Header.key, header]

theorem extra_set (q : Query) (key value : String) :
    (q.set key value).extra =
      if Header.ofKey? key = none then assign key value q.extra else q.extra := by
  unfold set
  cases hk : Header.ofKey? key with
  | none => rfl
  | some h => cases h <;> rfl

theorem get?_set_self (q : Query) (key value : String) :
    (q.set key value).get? key = some value := by
  unfold get?
  cases hk : Header.ofKey? key with
  | none => simp [extra_set, hk, lookup_assign_self]
  | some h => simp [header_set, Header.ofKey?_eq_some_iff.1 hk]

theorem get?_set_of_ne (q : Query) {key k : String} (hne : k ≠ key) (value : String) :
    (q.set key value).get? k = q.get? k := by
  unfold get?
  cases hk : Header.ofKey? k with
  | none =>
    simp only [extra_set]
    split
    · exact lookup_assign_of_ne hne ..
    · rfl
  | some h =>
    have hkey : key ≠ h.key := fun e => hne ((Header.ofKey?_eq_some_iff.1 hk).trans e.symm)
    simp [header_set, hkey]

/-- The keys of the headers without a meaning, in the order in which they are held. -/
def extraKeys (q : Query) : List String := q.extra.map Prod.fst

theorem extraKeys_set (q : Query) (key value : String) :
    (q.set key value).extraKeys =
      if Header.ofKey? key = none ∧ key ∉ q.extraKeys then q.extraKeys ++ [key]
      else q.extraKeys := by
  unfold extraKeys
  rw [extra_set]
  by_cases hk : Header.ofKey? key = none
  · rw [if_pos hk, map_fst_assign]
    by_cases h : key ∈ q.extra.map Prod.fst <;> simp [hk, h]
  · rw [if_neg hk, if_neg fun h => hk h.1]

protected theorem ext {q q' : Query} (hget : ∀ key, q.get? key = q'.get? key)
    (hkeys : q.extraKeys = q'.extraKeys) (hnodup : q.extraKeys.Nodup)
    (hextra : ∀ key ∈ q.extraKeys, Header.ofKey? key = none)
    (hcriteria : q.criteria = q'.criteria) : q = q' := by
  have hheader : ∀ h, q.header h = q'.header h := fun h => by
    simpa [get?, Header.ofKey?_key] using hget h.key
  have hlist : q.extra = q'.extra := ext_of_lookup hkeys hnodup fun k hk => by
    simpa [get?, hextra k hk] using hget k
  obtain ⟨_, _, _, _, _, _⟩ := q
  obtain ⟨_, _, _, _, _, _⟩ := q'
  simp only [mk.injEq]
  exact ⟨hheader .command, hheader .folder, hheader .format, hheader .listStyle, hcriteria, hlist⟩

end Query

end DavQuery
