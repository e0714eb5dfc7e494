import DavQuery.Proofs.Listing.Decoding

/-! What the properties of one set contribute to an entry. They are left open in the entry, so that
two entries that differ in them alone are one gap filled twice. They contribute nothing exactly if
the reference of the entry settles what it is, or another set has the code 200 and theirs has not:
properties without the code do count in an entry in which no set with properties has it. -/

namespace DavQuery.Listing
open Text Xml

/-- An entry in which the properties of one set are left open: what stands before and after the set
in the entry, and before and after the properties in the set. -/
structure Gap where
  name : Name
  text : String
  before : List Element
  after : List Element
  setText : String
  left : List Element
  right : List Element
  /-- The properties of a set are the first that it has. -/
  left_ne : ∀ e ∈ left, e.name ≠ dav "prop"

namespace Gap

def set (g : Gap) (text : String) (children : List Element) : Element :=
  ⟨dav "propstat", g.setText, g.left ++ ⟨dav "prop", text, children⟩ :: g.right⟩

def fill (g : Gap) (text : String) (children : List Element) : Element :=
  ⟨g.name, g.text, g.before ++ g.set text children :: g.after⟩

def status (g : Gap) : String :=
  textOf ⟨dav "propstat", g.setText, g.left ++ g.right⟩ (dav "status")

def href (g : Gap) : String := textOf ⟨g.name, g.text, g.before ++ g.after⟩ (dav "href")

/-- Another set with properties has the code 200. -/
def ToldElsewhere (g : Gap) : Prop :=
  ∃ s ∈ g.before ++ g.after, s.name = dav "propstat" ∧ s.child? (dav "prop") ≠ none ∧ Told s

/-- The reference tells what the entry is: it has none, no host can be told, or the entry is the
folder itself. -/
def Settled (request : String) (g : Gap) : Prop :=
  g.href = "" ∨ ∀ path, Url.Reference.pathOrAll? g.href.toList = some path →
    Folder.same (String.ofList path) request = true

theorem exists_fill_eq {entry s p : Element} (hs : s ∈ entry.childrenNamed (dav "propstat"))
    (hp : s.child? (dav "prop") = some p) :
    ∃ g : Gap, g.fill p.text p.children = entry ∧ g.set p.text p.children = s := by
  obtain ⟨name, text, children⟩ := entry
  obtain ⟨setName, setText, parts⟩ := s
  obtain ⟨propName, propText, inner⟩ := p
  obtain ⟨hmem, rfl⟩ : ⟨setName, setText, parts⟩ ∈ children ∧ setName = dav "propstat" := by
    simpa [Element.childrenNamed] using hs
  obtain ⟨before, after, rfl⟩ := List.append_of_mem hmem
  obtain ⟨hprop, left, right, rfl, hleft⟩ := List.find?_eq_some_iff_append.1 hp
  obtain rfl : propName = dav "prop" := of_decide_eq_true hprop
  have hne : ∀ e ∈ left, e.name ≠ dav "prop" := fun e he => by simpa using hleft e he
  exact ⟨⟨name, text, before, after, setText, left, right, hne⟩, rfl, rfl⟩

theorem textOf_append_of_ne {name : Name} {p : Element} (hp : p.name ≠ name) (tag : Name)
    (text : String) (l r : List Element) :
    textOf ⟨tag, text, l ++ p :: r⟩ name = textOf ⟨tag, text, l ++ r⟩ name := by
  simp [textOf, Element.child?, List.find?_append, List.find?_cons_of_neg, hp]

theorem textOf_set (g : Gap) (text : String) (children : List Element) :
    textOf (g.set text children) (dav "status") = g.status :=
  textOf_append_of_ne (by simp [dav]) ..

theorem hrefOf_fill (g : Gap) (text : String) (children : List Element) :
    hrefOf (g.fill text children) = g.href :=
  textOf_append_of_ne (by simp [dav, set]) ..

theorem child?_set (g : Gap) (text : String) (children : List Element) :
    (g.set text children).child? (dav "prop") = some ⟨dav "prop", text, children⟩ := by
  have hleft : g.left.find? (·.name = dav "prop") = none := by
    simpa [List.find?_eq_none] using g.left_ne
  simp [set, Element.child?, List.find?_append, hleft]

def setsAmong (children : List Element) : List (Element × String) :=
  propertySets ⟨dav "response", "", children⟩

theorem propertySets_fill (g : Gap) (text : String) (children : List Element) :
    propertySets (g.fill text children) =
      setsAmong g.before ++ (⟨dav "prop", text, children⟩, g.status) :: setsAmong g.after := by
  have hset : (g.set text children).name = dav "propstat" := rfl
  simp [setsAmong, propertySets, Element.childrenNamed, fill, hset, child?_set, textOf_set]

theorem toldElsewhere_iff (g : Gap) :
    g.ToldElsewhere ↔ ∃ p ∈ setsAmong g.before ++ setsAmong g.after, isTold p.2 = true := by
  have hmem : ∀ (l : List Element) (p : Element) (status : String),
      (p, status) ∈ setsAmong l ↔ ∃ s ∈ l, s.name = dav "propstat" ∧
        s.child? (dav "prop") = some p ∧ textOf s (dav "status") = status := by
    simp [setsAmong, propertySets, Element.childrenNamed, and_assoc]
  simp only [ToldElsewhere, Told, Option.ne_none_iff_exists', Prod.exists, List.mem_append, hmem]
  constructor
  · rintro ⟨s, hs, hname, ⟨p, hp⟩, htold⟩
    refine ⟨p, _, ?_, htold⟩
    exact hs.imp (fun h => ⟨s, h, hname, hp, rfl⟩) fun h => ⟨s, h, hname, hp, rfl⟩
  · rintro ⟨p, status, ⟨s, hs, hname, hp, rfl⟩ | ⟨s, hs, hname, hp, rfl⟩, htold⟩
    · exact ⟨s, .inl hs, hname, ⟨p, hp⟩, htold⟩
    · exact ⟨s, .inr hs, hname, ⟨p, hp⟩, htold⟩

theorem properties_fill_of_overruled {g : Gap} (hstatus : isTold g.status = false)
    (h : g.ToldElsewhere) (text : String) (children : List Element) :
    properties (g.fill text children) =
      ((setsAmong g.before ++ setsAmong g.after).filter fun p => isTold p.2).map (·.1) := by
  obtain ⟨p, hp, htold⟩ := g.toldElsewhere_iff.1 h
  have hsome : ∃ p ∈ propertySets (g.fill text children), isTold p.2 = true := by
    refine ⟨p, ?_, htold⟩
    rw [propertySets_fill]
    simp only [List.mem_append, List.mem_cons] at hp ⊢
    exact hp.imp id .inr
  rw [properties_of_told hsome, propertySets_fill]
  simp [hstatus]

theorem properties_fill_of_counting {g : Gap}
    (h : isTold g.status = true ∨ ¬ g.ToldElsewhere) :
    ∃ front back, ∀ text children, properties (g.fill text children) =
      front ++ ⟨dav "prop", text, children⟩ :: back := by
  cases hstatus : isTold g.status with
  | true =>
    refine ⟨((setsAmong g.before).filter fun p => isTold p.2).map (·.1),
      ((setsAmong g.after).filter fun p => isTold p.2).map (·.1), fun text children => ?_⟩
    have hsome : ∃ p ∈ propertySets (g.fill text children), isTold p.2 = true :=
      ⟨(⟨dav "prop", text, children⟩, g.status), by simp [propertySets_fill], hstatus⟩
    rw [properties_of_told hsome, propertySets_fill]
    simp [hstatus]
  | false =>
    refine ⟨(setsAmong g.before).map (·.1), (setsAmong g.after).map (·.1), fun text children => ?_⟩
    have hno := mt g.toldElsewhere_iff.2 (h.resolve_left (by simp [hstatus]))
    have hnone : ∀ p ∈ propertySets (g.fill text children), isTold p.2 = false := by
      intro p hp
      rw [propertySets_fill, List.mem_append, List.mem_cons] at hp
      by_contra htold
      rw [Bool.not_eq_false] at htold
      rcases hp with hp | rfl | hp
      · exact hno ⟨p, List.mem_append_left _ hp, htold⟩
      · simp [hstatus] at htold
      · exact hno ⟨p, List.mem_append_right _ hp, htold⟩
    rw [properties_of_not_told hnone, propertySets_fill]
    simp

theorem outcome_fill_of_settled {g : Gap} {request : String} (h : g.Settled request)
    (text text' : String) (children children' : List Element) :
    outcome request (g.fill text children) = outcome request (g.fill text' children') := by
  by_cases hhref : g.href = ""
  · rw [outcome_of_no_href (by rw [hrefOf_fill, hhref]),
      outcome_of_no_href (by rw [hrefOf_fill, hhref])]
  have hne : ∀ t c, hrefOf (g.fill t c) ≠ "" := fun t c => by rwa [hrefOf_fill]
  have hpath : ∀ t c, pathOf? (g.fill t c) = Url.Reference.pathOrAll? g.href.toList :=
    fun t c => by rw [pathOf?, hrefOf_fill]
  cases hp : Url.Reference.pathOrAll? g.href.toList with
  | none =>
    rw [outcome_of_no_path (hne _ _) ((hpath _ _).trans hp),
      outcome_of_no_path (hne _ _) ((hpath _ _).trans hp)]
  | some path =>
    have hsame := h.resolve_left hhref path hp
    rw [outcome_of_same (hne _ _) ((hpath _ _).trans hp) hsame,
      outcome_of_same (hne _ _) ((hpath _ _).trans hp) hsame]

def naming (tags : List String) : List Element :=
  [⟨dav "displayname", "a", []⟩, ⟨oc "tags", "", tags.map fun t => ⟨oc "tag", t, []⟩⟩]

theorem outcome_fill_naming {g : Gap} {request : String} (hsettled : ¬ g.Settled request)
    (h : isTold g.status = true ∨ ¬ g.ToldElsewhere) :
    ∃ front back, ∀ tags, ∃ r, outcome request (g.fill "" (naming tags)) = .ok (.record r) ∧
      r.tags = front ++ tagsOf [⟨dav "prop", "", naming tags⟩] ++ back := by
  obtain ⟨front, back, hprops⟩ := properties_fill_of_counting h
  simp only [Settled, not_or, not_forall, Bool.not_eq_true] at hsettled
  obtain ⟨hhref, path, hpath, hsame⟩ := hsettled
  refine ⟨tagsOf front, tagsOf back, fun tags => ?_⟩
  have htold : ¬ ∀ p ∈ properties (g.fill "" (naming tags)), textOf p (dav "displayname") = "" := by
    intro hno
    have hname : textOf ⟨dav "prop", "", naming tags⟩ (dav "displayname") = "a" := by rfl
    have hempty := hno ⟨dav "prop", "", naming tags⟩ (by simp [hprops])
    simp [hname] at hempty
  obtain ⟨r, hr⟩ : ∃ r, recordOf? path (properties (g.fill "" (naming tags))) = some r := by
    rw [← Option.ne_none_iff_exists', ne_eq, recordOf?_eq_none_iff, nameOf_eq_empty_iff]
    exact fun hno => htold hno.1
  refine ⟨r, outcome_eq_record_iff.2 ⟨by rwa [hrefOf_fill], path, ?_, hsame, ?_, hr⟩, ?_⟩
  · rw [pathOf?, hrefOf_fill, hpath]
  · simp [hprops]
  · rw [(decodes_of_recordOf? hr).tags, ← tagsOf_eq, hprops, ← List.singleton_append,
      tagsOf_append, tagsOf_append, List.append_assoc]

/-- The properties of a set contribute nothing to an entry exactly if its reference settles what it
is, or another set with properties has the code 200 and theirs has not. Those of a set without the
code count exactly if no set with properties has it. -/
theorem fill_outcome_eq_iff (request : String) (g : Gap) :
    ((∀ text children text' children',
        outcome request (g.fill text children) = outcome request (g.fill text' children')) ↔
      g.Settled request ∨ isTold g.status = false ∧ g.ToldElsewhere) ∧
    ∀ text children p, p ∈ properties (g.fill text children) ↔
      ∃ s ∈ (g.fill text children).childrenNamed (dav "propstat"), s.child? (dav "prop") = some p ∧
        (Told s ∨ NoneTold (g.fill text children)) := by
  refine ⟨⟨fun hsame => ?_, ?_⟩, fun text children p => mem_properties_iff⟩
  · by_contra hno
    rw [not_or, not_and_or, Bool.not_eq_false] at hno
    -- properties with no tag and with one tag would have to give the same record
    obtain ⟨front, back, hnaming⟩ := outcome_fill_naming hno.1 hno.2
    obtain ⟨r, hr, hrtags⟩ := hnaming []
    obtain ⟨r', hr', hrtags'⟩ := hnaming ["a"]
    obtain rfl : r = r' := by simpa [hr, hr'] using hsame "" (naming []) "" (naming ["a"])
    have hlength := congrArg List.length (hrtags.symm.trans hrtags')
    have hnone : tagsOf [⟨dav "prop", "", naming []⟩] = [] := by rfl
    have hone : tagsOf [⟨dav "prop", "", naming ["a"]⟩] = ["a"] := by decide +kernel
    simp [hnone, hone] at hlength
  · rintro (h | ⟨hstatus, h⟩) text children text' children'
    · exact outcome_fill_of_settled h ..
    · refine outcome_congr request ?_ ?_
      · rw [hrefOf_fill, hrefOf_fill]
      · rw [properties_fill_of_overruled hstatus h, properties_fill_of_overruled hstatus h]

/-- Properties that were not found count where no other set has the code 200: they name the file. -/
theorem fill_outcome_ne_of_not_found :
    ∃ g : Gap, g.status = "HTTP/1.1 404 Not Found" ∧ isTold g.status = false ∧
      outcome "/P" (g.fill "" []) = .ok (.record { name := "x", path := "/P/x" }) ∧
      outcome "/P" (g.fill "" [⟨dav "displayname", "A", []⟩]) =
        .ok (.record { name := "A", path := "/P/x" }) := by
  refine ⟨⟨dav "response", "", [⟨dav "href", "/P/x", []⟩], [], "", [],
    [⟨dav "status", "HTTP/1.1 404 Not Found", []⟩], by simp⟩, ?_⟩
  decide +kernel

end Gap

end DavQuery.Listing
