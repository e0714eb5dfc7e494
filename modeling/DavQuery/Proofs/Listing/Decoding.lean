import DavQuery.Proofs.Folder
import DavQuery.Proofs.Listing.Entry
import DavQuery.Proofs.Text.Trim
import DavQuery.Proofs.Traverse

/-! What a listing says. Each entry gives at most one record, which depends on it and on the path
that was asked for, and the records stand in the order of the entries. A record tells what the
properties that count tell, and is well-formed. -/

namespace DavQuery

open Text

/-- What holds of every record of a listing. -/
structure Record.WellFormed (r : Record) : Prop where
  name_ne : r.name ≠ ""
  size_nonneg : 0 ≤ r.size
  kind_eq : r.kind = "file" ∨ r.kind = "folder"
  path_closed : r.path = "/" ∨ r.path ≠ "" ∧ r.path.toList.getLast? ≠ some '/'
  tags_trimmed : ∀ t ∈ r.tags, t ≠ "" ∧ Trimmed t.toList
  texts_trimmed : ∀ t ∈ [r.mimetype, r.modified, r.created, r.owner, r.fileId], Trimmed t.toList

namespace Listing
open Xml

/-- The text is the last part of the path that is not empty, once escapes are read. -/
def IsLastSegment (path : List Char) (text : String) : Prop :=
  ∃ before after, (Percent.decode path).splitOn '/' = before ++ text.toList :: after ∧
    text ≠ "" ∧ ∀ part ∈ after, part = []

/-- The record tells what the properties and the path tell. -/
structure Decodes (path : List Char) (props : List Element) (r : Record) : Prop where
  name : IsFirst props (dav "displayname") r.name ∧ r.name ≠ "" ∨
    IsFirst props (dav "displayname") "" ∧ IsLastSegment path r.name
  path : r.path = String.ofList (Folder.relativeChars path)
  kind : r.kind = "folder" ↔ ∃ p ∈ props, ∃ t ∈ p.childrenNamed (dav "resourcetype"),
    ∃ c ∈ t.children, c.name = dav "collection"
  size : ∃ own other, IsFirst props (oc "size") own ∧
    IsFirst props (dav "getcontentlength") other ∧
    r.size = max ((integer? (if own = "" then other else own).toList).getD 0) 0
  mimetype : IsFirst props (dav "getcontenttype") r.mimetype
  modified : IsFirst props (dav "getlastmodified") r.modified
  created : IsFirst props (dav "creationdate") r.created
  favorite : r.favorite = true ↔ IsFirst props (oc "favorite") "1"
  tags : r.tags = ((props.flatMap tagElements).map fun t => trim t.text).filter (· ≠ "")
  owner : IsFirst props (oc "owner-display-name") r.owner
  fileId : IsFirst props (oc "fileid") r.fileId
  hasPreview : r.hasPreview = true ↔ IsFirst props (nc "has-preview") "true"

theorem exists_last_of_ne {l : List (List Char)} (h : ¬ ∀ part ∈ l, part = []) :
    ∃ before part after, l = before ++ part :: after ∧ part ≠ [] ∧ ∀ x ∈ after, x = [] := by
  induction l using List.reverseRecOn with
  | nil => simp at h
  | append_singleton l part ih =>
    by_cases hpart : part = []
    · rw [List.forall_mem_append, List.forall_mem_singleton] at h
      obtain ⟨before, x, after, rfl, hx, hafter⟩ := ih fun hl => h ⟨hl, hpart⟩
      refine ⟨before, x, after ++ [part], by simp, hx, ?_⟩
      rw [List.forall_mem_append, List.forall_mem_singleton]
      exact ⟨hafter, hpart⟩
    · exact ⟨l, part, [], rfl, hpart, by simp⟩

theorem lastSegment_eq_of_splitOn {path part : List Char} {before after : List (List Char)}
    (e : (Percent.decode path).splitOn '/' = before ++ part :: after) (hpart : part ≠ [])
    (hafter : ∀ x ∈ after, x = []) : lastSegment path = part := by
  have hnone : after.filter (!·.isEmpty) = [] := by
    simpa [List.filter_eq_nil_iff] using hafter
  simp [lastSegment, e, hpart, hnone]

theorem lastSegment_eq_nil_iff {path : List Char} :
    lastSegment path = [] ↔ ∀ part ∈ (Percent.decode path).splitOn '/', part = [] := by
  constructor
  · intro h
    by_contra hsome
    obtain ⟨before, part, after, e, hpart, hafter⟩ := exists_last_of_ne hsome
    exact hpart ((lastSegment_eq_of_splitOn e hpart hafter).symm.trans h)
  · intro h
    have hnone : ((Percent.decode path).splitOn '/').filter (!·.isEmpty) = [] := by
      simpa [List.filter_eq_nil_iff] using h
    rw [lastSegment, hnone, List.getLastD_nil]

theorem isLastSegment_lastSegment {path : List Char} (h : lastSegment path ≠ []) :
    IsLastSegment path (String.ofList (lastSegment path)) := by
  obtain ⟨before, part, after, e, hpart, hafter⟩ :=
    exists_last_of_ne (mt lastSegment_eq_nil_iff.2 h)
  refine ⟨before, after, ?_, by simpa using h, hafter⟩
  rw [e, lastSegment_eq_of_splitOn e hpart hafter, String.toList_ofList]

theorem nameOf_eq_empty_iff {props : List Element} {path : List Char} :
    nameOf props path = "" ↔ (∀ p ∈ props, textOf p (dav "displayname") = "") ∧
      ∀ part ∈ (Percent.decode path).splitOn '/', part = [] := by
  rw [← firstText_eq_empty_iff, ← lastSegment_eq_nil_iff, nameOf]
  by_cases h : firstText props (dav "displayname") = "" <;> simp [h]

theorem isName_nameOf {props : List Element} {path : List Char} (h : nameOf props path ≠ "") :
    IsFirst props (dav "displayname") (nameOf props path) ∧ nameOf props path ≠ "" ∨
      IsFirst props (dav "displayname") "" ∧ IsLastSegment path (nameOf props path) := by
  by_cases htold : firstText props (dav "displayname") = ""
  · have hname : nameOf props path = String.ofList (lastSegment path) := by simp [nameOf, htold]
    rw [hname] at h ⊢
    exact .inr ⟨firstText_eq_iff.1 htold, isLastSegment_lastSegment (by simpa using h)⟩
  · have hname : nameOf props path = firstText props (dav "displayname") := by simp [nameOf, htold]
    rw [hname] at h ⊢
    exact .inl ⟨isFirst_firstText .., h⟩

theorem trimmed_textOf (e : Element) (name : Name) : Trimmed (textOf e name).toList := by
  unfold textOf
  split
  · rw [toList_trim]
    exact trimmed_trimChars _
  · simp [Trimmed]

theorem trimmed_firstText (props : List Element) (name : Name) :
    Trimmed (firstText props name).toList := by
  rcases isFirst_firstText props name with ⟨-, -, p, -, -, -, e⟩ | ⟨e, -⟩
  · rw [← e]
    exact trimmed_textOf p name
  · rw [e]
    simp [Trimmed]

theorem tagsOf_trimmed {props : List Element} {t : String} (h : t ∈ tagsOf props) :
    t ≠ "" ∧ Trimmed t.toList := by
  rw [tagsOf_eq, List.mem_filter, decide_eq_true_eq] at h
  obtain ⟨tag, -, rfl⟩ := List.mem_map.1 h.1
  rw [toList_trim]
  exact ⟨h.2, trimmed_trimChars _⟩

theorem sizeOf_eq (props : List Element) : ∃ own other, IsFirst props (oc "size") own ∧
    IsFirst props (dav "getcontentlength") other ∧
    (sizeOf props : Int) = max ((integer? (if own = "" then other else own).toList).getD 0) 0 := by
  refine ⟨_, _, isFirst_firstText .., isFirst_firstText .., ?_⟩
  simp [sizeOf]

theorem decodes_of_recordOf? {path : List Char} {props : List Element} {r : Record}
    (h : recordOf? path props = some r) : Decodes path props r := by
  have hname : nameOf props path ≠ "" := fun e => by
    simp [recordOf?_eq_none_iff.2 e] at h
  simp only [recordOf?, String.isEmpty_iff, hname, if_false, Option.some.injEq] at h
  obtain rfl := h
  exact {
    name := isName_nameOf hname
    path := rfl
    kind := by
      rw [← isCollection_iff]
      cases isCollection props <;> simp [Record.folderKind, Record.fileKind]
    size := sizeOf_eq props
    mimetype := isFirst_firstText ..
    modified := isFirst_firstText ..
    created := isFirst_firstText ..
    favorite := by rw [beq_iff_eq, firstText_eq_iff]
    tags := tagsOf_eq props
    owner := isFirst_firstText ..
    fileId := isFirst_firstText ..
    hasPreview := by rw [beq_iff_eq, firstText_eq_iff] }

theorem wellFormed_of_recordOf? {path : List Char} {props : List Element} {r : Record}
    (hpath : path ≠ []) (h : recordOf? path props = some r) : r.WellFormed := by
  have hname : nameOf props path ≠ "" := fun e => by
    simp [recordOf?_eq_none_iff.2 e] at h
  simp only [recordOf?, String.isEmpty_iff, hname, if_false, Option.some.injEq] at h
  obtain rfl := h
  exact {
    name_ne := hname
    size_nonneg := Int.natCast_nonneg _
    kind_eq := by
      cases isCollection props <;> simp [Record.folderKind, Record.fileKind]
    path_closed := by
      rw [String.toList_ofList]
      rcases Folder.relativeChars_eq_or hpath with e | ⟨hne, hlast⟩
      · exact .inl (by rw [e])
      · exact .inr ⟨by simpa using hne, hlast⟩
    tags_trimmed := fun t ht => tagsOf_trimmed ht
    texts_trimmed := by
      simp only [List.forall_mem_cons]
      simp [trimmed_firstText] }

/-- The record that an entry gives, if it gives one. -/
def recordAt? (request : String) (entry : Element) : Option Record :=
  match outcome request entry with
  | .ok o => o.record?
  | .error _ => none

/-- Why an entry gives no record. -/
inductive LeftOut (request : String) (entry : Element) : Prop
  | noReference : hrefOf entry = "" → LeftOut request entry
  | itself {path : List Char} : pathOf? entry = some path →
      Folder.canonical path = Folder.canonical request.toList → LeftOut request entry
  | noProperties :
      (∀ s ∈ entry.childrenNamed (dav "propstat"), s.child? (dav "prop") = none) →
      LeftOut request entry
  | noName {path : List Char} : pathOf? entry = some path →
      (∀ p ∈ properties entry, textOf p (dav "displayname") = "") →
      (∀ part ∈ (Percent.decode path).splitOn '/', part = []) → LeftOut request entry

theorem recordAt?_eq_some_iff {request : String} {entry : Element} {r : Record} :
    recordAt? request entry = some r ↔ outcome request entry = .ok (.record r) := by
  unfold recordAt?
  cases h : outcome request entry with
  | error b => simp
  | ok o => cases o <;> simp [Outcome.record?]

theorem same_eq_true_iff {path : List Char} {request : String} :
    Folder.same (String.ofList path) request = true ↔
      Folder.canonical path = Folder.canonical request.toList := by
  rw [Folder.same, String.toList_ofList, beq_iff_eq]

theorem recordAt?_eq_none_of_leftOut {request : String} {entry : Element}
    (h : LeftOut request entry) : recordAt? request entry = none := by
  rw [Option.eq_none_iff_forall_ne_some]
  intro r hr
  obtain ⟨hhref, path, hpath, hsame, hprops, hrecord⟩ :=
    outcome_eq_record_iff.1 (recordAt?_eq_some_iff.1 hr)
  cases h with
  | noReference h => exact hhref h
  | itself hpath' h =>
    obtain rfl := Option.some.inj (hpath'.symm.trans hpath)
    simp [same_eq_true_iff.2 h] at hsame
  | noProperties h => exact hprops (properties_eq_nil_iff.2 h)
  | noName hpath' htold hparts =>
    obtain rfl := Option.some.inj (hpath'.symm.trans hpath)
    simp [recordOf?_eq_none_iff.2 (nameOf_eq_empty_iff.2 ⟨htold, hparts⟩)] at hrecord

theorem leftOut_of_recordAt?_eq_none {request : String} {entry : Element} {o : Outcome}
    (ho : outcome request entry = .ok o) (h : recordAt? request entry = none) :
    LeftOut request entry := by
  by_cases hhref : hrefOf entry = ""
  · exact .noReference hhref
  obtain ⟨path, hpath⟩ : ∃ path, pathOf? entry = some path := by
    rw [← Option.ne_none_iff_exists']
    intro hnone
    simp [outcome_of_no_path hhref hnone] at ho
  cases hsame : Folder.same (String.ofList path) request with
  | true => exact .itself hpath (same_eq_true_iff.1 hsame)
  | false =>
    by_cases hprops : properties entry = []
    · exact .noProperties (properties_eq_nil_iff.1 hprops)
    have hnone : recordOf? path (properties entry) = none := by
      rw [Option.eq_none_iff_forall_ne_some]
      intro r hr
      have hsome := recordAt?_eq_some_iff.2
        (outcome_eq_record_iff.2 ⟨hhref, path, hpath, hsame, hprops, hr⟩)
      simp [h] at hsome
    obtain ⟨htold, hparts⟩ := nameOf_eq_empty_iff.1 (recordOf?_eq_none_iff.1 hnone)
    exact .noName hpath htold hparts

theorem pathOf?_ne_nil {entry : Element} {path : List Char} (hhref : hrefOf entry ≠ "")
    (h : pathOf? entry = some path) : path ≠ [] := by
  obtain ⟨ref, -, rfl⟩ := Option.map_eq_some_iff.1 h
  split
  · simpa using hhref
  · simpa using ‹¬ ref.path.isEmpty = true›

theorem decodes_of_recordAt? {request : String} {entry : Element} {r : Record}
    (h : recordAt? request entry = some r) :
    (∃ path, pathOf? entry = some path ∧ Decodes path (properties entry) r) ∧ r.WellFormed := by
  obtain ⟨hhref, path, hpath, -, -, hr⟩ := outcome_eq_record_iff.1 (recordAt?_eq_some_iff.1 h)
  exact ⟨⟨path, hpath, decodes_of_recordOf? hr⟩,
    wellFormed_of_recordOf? (pathOf?_ne_nil hhref hpath) hr⟩

theorem filterMap_record?_eq {request : String} {entries : List Element}
    {outcomes : List Outcome}
    (h : List.Forall₂ (fun e o => outcome request e = .ok o) entries outcomes) :
    outcomes.filterMap (·.record?) = entries.filterMap (recordAt? request) := by
  induction h with
  | nil => rfl
  | @cons e o entries outcomes ho _ ih =>
    have he : recordAt? request e = o.record? := by rw [recordAt?, ho]
    rw [List.filterMap_cons, List.filterMap_cons, he, ih]

theorem recordsOf_eq_ok_iff {request : String} {entries : List Element} {rs : List Record} :
    recordsOf request entries = .ok rs ↔
      (∀ e ∈ entries, ∃ o, outcome request e = .ok o) ∧
        rs = entries.filterMap (recordAt? request) := by
  constructor
  · intro h
    cases hm : entries.mapM (outcome request) with
    | error b => simp [recordsOf, hm, Except.map] at h
    | ok outcomes =>
      have hall := mapM_eq_ok_iff.1 hm
      obtain rfl : outcomes.filterMap (·.record?) = rs := by
        simpa [recordsOf, hm, Except.map] using h
      refine ⟨fun e he => ?_, filterMap_record?_eq hall⟩
      cases ho : outcome request e with
      | ok o => exact ⟨o, rfl⟩
      | error b =>
        obtain ⟨b', hb'⟩ := exists_mapM_eq_error_iff.2 ⟨e, he, b, ho⟩
        simp [hm] at hb'
  · rintro ⟨hall, rfl⟩
    cases hm : entries.mapM (outcome request) with
    | error b =>
      obtain ⟨e, he, b', hb'⟩ := exists_mapM_eq_error_iff.1 ⟨b, hm⟩
      obtain ⟨o, ho⟩ := hall e he
      simp [ho] at hb'
    | ok outcomes =>
      rw [recordsOf, hm, ← filterMap_record?_eq (mapM_eq_ok_iff.1 hm)]
      rfl

theorem records_of_ok {parse : Reader} {text : RawText} {root : Element}
    (h : parse text = .ok root) (request : String) :
    records parse text request = (recordsOf request (entries root)).mapError .breach := by
  rw [records, h]

/-- The records of a listing are those of its entries in turn. An entry is left out for one of a few
reasons, and otherwise its record tells what its path and its properties tell. -/
theorem recordsOf_decodes {request : String} {root : Element} {rs : List Record}
    (h : recordsOf request (entries root) = .ok rs) :
    rs = (entries root).filterMap (recordAt? request) ∧
      (∀ e ∈ entries root, (recordAt? request e = none ↔ LeftOut request e) ∧
        ∀ r, recordAt? request e = some r →
          (∃ path, pathOf? e = some path ∧ Decodes path (properties e) r) ∧ r.WellFormed) ∧
      ∀ (parse : Reader) (text : RawText), parse text = .ok root →
        records parse text request = .ok rs := by
  obtain ⟨hall, hrs⟩ := recordsOf_eq_ok_iff.1 h
  refine ⟨hrs, fun e he => ⟨⟨fun hnone => ?_, recordAt?_eq_none_of_leftOut⟩, fun r hr => ?_⟩,
    fun parse text htext => ?_⟩
  · obtain ⟨o, ho⟩ := hall e he
    exact leftOut_of_recordAt?_eq_none ho hnone
  · exact decodes_of_recordAt? hr
  · rw [records_of_ok htext, h]
    rfl

theorem recordsOf_decodes_two :
    let folder : Element := ⟨dav "response", "", [⟨dav "href", "/P/", []⟩]⟩
    let tags (text : String) : Element := ⟨oc "tags", "", [⟨oc "tag", text, []⟩]⟩
    let file : Element := ⟨dav "response", "", [⟨dav "href", " /P/a%20b ", []⟩,
      ⟨dav "propstat", "", [⟨dav "prop", "", [tags " x", ⟨oc "size", "-1", []⟩]⟩]⟩,
      ⟨dav "propstat", "", [⟨dav "prop", "", [tags " ", tags "y", ⟨oc "fileid", "7", []⟩]⟩]⟩]⟩
    let root : Element := ⟨dav "multistatus", "", [folder, file]⟩
    recordsOf "/P" (entries root) =
        .ok [{ name := "a b", path := "/P/a b", tags := ["x", "y"], fileId := "7" }] ∧
      LeftOut "/P" folder := by
  intro folder tags file root
  have h : recordsOf "/P" (entries root) =
      .ok [{ name := "a b", path := "/P/a b", tags := ["x", "y"], fileId := "7" }] := by
    decide +kernel
  have hfolder : folder ∈ entries root := by
    simp [entries, Element.childrenNamed, root, folder]
  obtain ⟨-, hentries, -⟩ := recordsOf_decodes h
  exact ⟨h, (hentries folder hfolder).1.1 (by decide +kernel)⟩

end Listing
end DavQuery
