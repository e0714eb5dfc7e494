import DavQuery.Listing
import Mathlib.Data.List.Basic

/-! The properties of an entry. An entry has sets of properties, each with a line of status. Those
count whose status has the code 200, and all count if none has it; a text of the entry is the first
that one of them tells, and its tags are all that they tell. -/

namespace DavQuery.Listing
open Text Xml

/-- The status of a set has the code 200. -/
def Told (set : Element) : Prop := isTold (textOf set (dav "status")) = true

instance : DecidablePred Told := fun _ => inferInstanceAs (Decidable (_ = true))

theorem mem_propertySets_iff {entry p : Element} {status : String} :
    (p, status) ∈ propertySets entry ↔ ∃ s ∈ entry.childrenNamed (dav "propstat"),
      s.child? (dav "prop") = some p ∧ textOf s (dav "status") = status := by
  simp [propertySets]

theorem properties_of_told {entry : Element}
    (h : ∃ p ∈ propertySets entry, isTold p.2 = true) :
    properties entry = ((propertySets entry).filter fun p => isTold p.2).map (·.1) := by
  have hne : ((propertySets entry).filter fun p => isTold p.2).isEmpty = false := by
    simpa [List.isEmpty_eq_false_iff, List.filter_eq_nil_iff] using h
  simp [properties, hne]

theorem properties_of_not_told {entry : Element}
    (h : ∀ p ∈ propertySets entry, isTold p.2 = false) :
    properties entry = (propertySets entry).map (·.1) := by
  have hempty : ((propertySets entry).filter fun p => isTold p.2).isEmpty = true := by
    simpa [List.filter_eq_nil_iff] using h
  simp [properties, hempty]

theorem properties_eq_nil_iff {entry : Element} :
    properties entry = [] ↔
      ∀ s ∈ entry.childrenNamed (dav "propstat"), s.child? (dav "prop") = none := by
  have hsets : propertySets entry = [] ↔
      ∀ s ∈ entry.childrenNamed (dav "propstat"), s.child? (dav "prop") = none := by
    simp [propertySets, List.filterMap_eq_nil_iff]
  rw [← hsets]
  by_cases h : ∃ p ∈ propertySets entry, isTold p.2 = true
  · obtain ⟨p, hp, htold⟩ := h
    rw [properties_of_told ⟨p, hp, htold⟩, List.map_eq_nil_iff, List.filter_eq_nil_iff]
    constructor
    · exact fun hno => absurd htold (hno p hp)
    · intro e
      simp [e]
  · rw [properties_of_not_told (by simpa using h), List.map_eq_nil_iff]

/-- No set of the entry that has properties has the code 200. -/
def NoneTold (entry : Element) : Prop :=
  ∀ s ∈ entry.childrenNamed (dav "propstat"), s.child? (dav "prop") ≠ none → ¬ Told s

theorem noneTold_iff {entry : Element} :
    NoneTold entry ↔ ∀ p ∈ propertySets entry, isTold p.2 = false := by
  simp only [NoneTold, Told, Prod.forall, mem_propertySets_iff, Bool.not_eq_true]
  constructor
  · rintro h p status ⟨s, hs, hp, rfl⟩
    exact h s hs (by simp [hp])
  · intro h s hs hp
    obtain ⟨p, hp⟩ := Option.ne_none_iff_exists'.1 hp
    exact h p _ ⟨s, hs, hp, rfl⟩

theorem mem_properties_iff {entry p : Element} :
    p ∈ properties entry ↔ ∃ s ∈ entry.childrenNamed (dav "propstat"),
      s.child? (dav "prop") = some p ∧ (Told s ∨ NoneTold entry) := by
  by_cases h : NoneTold entry
  · rw [properties_of_not_told (noneTold_iff.1 h)]
    simp [h, mem_propertySets_iff]
  · have htold : ∃ p ∈ propertySets entry, isTold p.2 = true := by
      simpa [noneTold_iff] using h
    rw [properties_of_told htold]
    simp only [h, or_false, Told, List.mem_map, List.mem_filter, Prod.exists, exists_and_right,
      exists_eq_right, mem_propertySets_iff]
    constructor
    · rintro ⟨status, ⟨s, hs, hp, rfl⟩, htold⟩
      exact ⟨s, hs, hp, htold⟩
    · rintro ⟨s, hs, hp, htold⟩
      exact ⟨_, ⟨s, hs, hp, rfl⟩, htold⟩

/-- The text is the first that is not empty among those that the elements tell under the name, or
it is empty, as they all are. -/
def IsFirst (props : List Element) (name : Name) (text : String) : Prop :=
  (text ≠ "" ∧ ∃ before p after, props = before ++ p :: after ∧
    (∀ o ∈ before, textOf o name = "") ∧ textOf p name = text) ∨
  text = "" ∧ ∀ p ∈ props, textOf p name = ""

theorem firstText_cons (p : Element) (props : List Element) (name : Name) :
    firstText (p :: props) name =
      if textOf p name = "" then firstText props name else textOf p name := by
  by_cases h : textOf p name = "" <;> simp [firstText, h]

theorem isFirst_firstText (props : List Element) (name : Name) :
    IsFirst props name (firstText props name) := by
  induction props with
  | nil => exact .inr ⟨rfl, by simp⟩
  | cons p props ih =>
    rw [firstText_cons]
    by_cases hp : textOf p name = ""
    · rw [if_pos hp]
      rcases ih with ⟨hne, before, o, after, e, hbefore, ho⟩ | ⟨he, hall⟩
      · refine .inl ⟨hne, p :: before, o, after, by rw [e, List.cons_append], ?_, ho⟩
        exact List.forall_mem_cons.2 ⟨hp, hbefore⟩
      · exact .inr ⟨he, List.forall_mem_cons.2 ⟨hp, hall⟩⟩
    · rw [if_neg hp]
      exact .inl ⟨hp, [], p, props, rfl, by simp, rfl⟩

theorem firstText_eq_empty_iff {props : List Element} {name : Name} :
    firstText props name = "" ↔ ∀ p ∈ props, textOf p name = "" := by
  induction props with
  | nil => simp [firstText]
  | cons p props ih =>
    rw [firstText_cons, List.forall_mem_cons, ← ih]
    by_cases hp : textOf p name = "" <;> simp [hp]

theorem firstText_eq_iff {props : List Element} {name : Name} {text : String} :
    firstText props name = text ↔ IsFirst props name text := by
  constructor
  · rintro rfl
    exact isFirst_firstText props name
  · rintro (⟨hne, before, p, after, rfl, hbefore, rfl⟩ | ⟨rfl, hall⟩)
    · induction before with
      | nil => rw [List.nil_append, firstText_cons, if_neg hne]
      | cons o before ih =>
        rw [List.forall_mem_cons] at hbefore
        rw [List.cons_append, firstText_cons, if_pos hbefore.1, ih hbefore.2]
    · exact firstText_eq_empty_iff.2 hall

theorem isCollection_iff {props : List Element} :
    isCollection props = true ↔ ∃ p ∈ props, ∃ t ∈ p.childrenNamed (dav "resourcetype"),
      ∃ c ∈ t.children, c.name = dav "collection" := by
  simp [isCollection, Element.child?, List.find?_isSome]

def tagElements (p : Element) : List Element :=
  (p.childrenNamed (oc "tags")).flatMap (·.childrenNamed (oc "tag"))

theorem tagsOf_eq (props : List Element) :
    tagsOf props = ((props.flatMap tagElements).map fun t => trim t.text).filter (· ≠ "") := by
  have hne : (fun t : String => !t.isEmpty) = fun t => decide (t ≠ "") := by
    funext t
    by_cases h : t = "" <;> simp [h]
  simp [tagsOf, tagElements, hne, List.filter_flatMap, List.map_flatMap]

theorem tagsOf_append (props rest : List Element) :
    tagsOf (props ++ rest) = tagsOf props ++ tagsOf rest := List.flatMap_append

end DavQuery.Listing
