import DavQuery.Proofs.Folder.Relative
import DavQuery.Proofs.Listing.Decoding
import DavQuery.Proofs.Url.Path

/-! Entries for the children of a folder. A server may spell the path of a child in many ways; the
entry is kept under the path and the name of the child in each of them, unless the last segment of
the reference has a semicolon that is not escaped. Then what follows it is taken for parameters. -/

namespace DavQuery

namespace Url
open Text

def IsSegmentChar (c : Char) : Prop :=
  Percent.isUnreserved c = true ∨ c ∈ "!$&'()*+,;=:@".toList

instance : DecidablePred IsSegmentChar := fun _ => inferInstanceAs (Decidable (_ ∨ _))

inductive SpellsPath : List (List Char) → List Char → Prop
  | nil : SpellsPath [] []
  | cons {segment t p : List Char} {segments : List (List Char)} :
      Percent.Spells IsSegmentChar segment t → SpellsPath segments p →
      SpellsPath (segment :: segments) ('/' :: t ++ p)

def pathText (segments : List (List Char)) : List Char := segments.flatMap fun s => '/' :: s

theorem pathText_cons (segment : List Char) (segments : List (List Char)) :
    pathText (segment :: segments) = '/' :: segment ++ pathText segments := rfl

theorem pathText_append (a b : List (List Char)) : pathText (a ++ b) = pathText a ++ pathText b :=
  List.flatMap_append

theorem SpellsPath.decode_append {segments : List (List Char)} {p : List Char}
    (h : SpellsPath segments p) (r : List Char) :
    Percent.decode (p ++ r) = pathText segments ++ Percent.decode r := by
  induction h with
  | nil => rfl
  | @cons segment t p segments ht _ ih =>
    have hplain : Percent.Spells (fun c => c = '/' ∨ IsSegmentChar c) ('/' :: segment) ('/' :: t) :=
      .plain (.inl rfl) (ht.mono fun _ => .inr)
    rw [List.append_assoc, hplain.decode_append (by decide), ih, pathText_cons, List.append_assoc]

theorem spellsPath_pathText {segments : List (List Char)}
    (h : ∀ segment ∈ segments, segment.Forall IsSegmentChar) :
    SpellsPath segments (pathText segments) := by
  induction segments with
  | nil => exact .nil
  | cons segment segments ih =>
    rw [List.forall_mem_cons] at h
    exact .cons (Percent.spells_self (List.forall_iff_forall_mem.1 h.1)) (ih h.2)

theorem isOfPath_of_spells {segment t : List Char} (h : Percent.Spells IsSegmentChar segment t) :
    ∀ c ∈ t, Reference.IsOfPath c ∧ c ≠ '/' := by
  have hplain : ∀ n < 128, IsSegmentChar (Char.ofNat n) ∨ Char.ofNat n = '%' ∨
      hexValue? (Char.ofNat n) ≠ none →
      Reference.IsOfPath (Char.ofNat n) ∧ Char.ofNat n ≠ '/' := by
    decide
  intro c hc
  have hkind := h.forall_mem c hc
  have hascii : c.toNat < 128 := by
    rcases hkind with (hplain | hmark) | rfl | hhex
    · exact Percent.toNat_lt_of_isUnreserved hplain
    · have hmarks : ∀ x ∈ "!$&'()*+,;=:@".toList, x.toNat < 128 :=
        List.forall_iff_forall_mem.1 (by decide)
      exact hmarks c hmark
    · decide
    · exact Percent.toNat_lt_of_hexValue? hhex
  exact forall_ascii (P := fun c => IsSegmentChar c ∨ c = '%' ∨ hexValue? c ≠ none →
    Reference.IsOfPath c ∧ c ≠ '/') hplain hascii hkind

theorem SpellsPath.isOfPath {segments : List (List Char)} {p : List Char}
    (h : SpellsPath segments p) : ∀ c ∈ p, Reference.IsOfPath c := by
  induction h with
  | nil => simp
  | cons ht _ ih =>
    rw [List.cons_append, List.forall_mem_cons, List.forall_mem_append]
    exact ⟨Reference.isOfPath_slash, fun c hc => (isOfPath_of_spells ht c hc).1, ih⟩

theorem SpellsPath.exists_cons {segment : List Char} {segments : List (List Char)} {p : List Char}
    (h : SpellsPath (segment :: segments) p) (hne : segment ≠ []) :
    ∃ c r, p = '/' :: c :: r ∧ c ≠ '/' := by
  cases h with
  | cons ht _ =>
    obtain ⟨c, r, rfl⟩ := List.exists_cons_of_ne_nil (ht.ne_nil hne)
    exact ⟨c, _, rfl, (isOfPath_of_spells ht c (by simp)).2⟩

end Url

namespace Folder
open Text

theorem length_dropSlashes_le (s : List Char) : (dropSlashes s).length ≤ s.length :=
  (List.rdropWhile_prefix (· == '/') s).length_le

theorem length_trimSlashes_le (s : List Char) : (trimSlashes s).length ≤ s.length :=
  (length_dropSlashes_le _).trans (List.dropWhile_suffix _).length_le

theorem length_closeChars_le {s : List Char} (hne : s ≠ []) : (closeChars s).length ≤ s.length := by
  unfold closeChars
  split_ifs
  · exact le_rfl
  · exact List.length_pos_of_ne_nil hne
  · exact length_dropSlashes_le s

end Folder

namespace Listing
open Text Url Xml

def rootSegments (user : List Char) : List (List Char) :=
  ["remote.php".toList, "dav".toList, "files".toList, user]

/-- A child of a folder of a person, and a way to spell its path. -/
structure Child where
  user : List Char
  folder : List (List Char)
  name : List Char
  /-- The person's root, as the address of the client spells it. -/
  root : List Char
  /-- The folder with the root before it, as the reference to the child spells it. -/
  above : List Char
  /-- The name, as the reference spells it. -/
  last : List Char
  /-- Whether a slash stands at the end of the reference. -/
  closed : Bool
  slash_notMem_user : '/' ∉ user
  name_ne_nil : name ≠ []
  slash_notMem_name : '/' ∉ name
  spells_root : SpellsPath (rootSegments user) root
  spells_above : SpellsPath (rootSegments user ++ folder) above
  spells_last : Percent.Spells IsSegmentChar name last

theorem name_of_recordOf? {path : List Char} {props : List Element} {r : Record}
    (h : recordOf? path props = some r) : r.name = nameOf props path := by
  have hname : nameOf props path ≠ "" := fun e => by
    simp [recordOf?_eq_none_iff.2 e] at h
  simp only [recordOf?, String.isEmpty_iff, hname, if_false, Option.some.injEq] at h
  rw [← h]

namespace Child
variable (c : Child)

def path : List Char := pathText c.folder ++ '/' :: c.name

def request : String :=
  String.ofList (c.root ++ Folder.urlPathChars (Folder.normalizeChars (pathText c.folder)))

def href : List Char := c.above ++ '/' :: c.last ++ if c.closed then ['/'] else []

def readPath : List Char :=
  c.above ++ '/' :: if c.closed then c.last ++ ['/'] else (Reference.part ';' c.last).1

theorem pathText_rootSegments (user : List Char) :
    pathText (rootSegments user) = Folder.filesRoot ++ user := by
  have hroot : Folder.filesRoot = '/' :: "remote.php".toList ++
      ('/' :: "dav".toList ++ ('/' :: "files".toList ++ ['/'])) := by decide
  simp only [rootSegments, pathText_cons, hroot, List.append_assoc, List.cons_append,
    List.nil_append]
  simp only [pathText, List.flatMap_nil, List.append_nil]

theorem decode_above (r : List Char) : Percent.decode (c.above ++ '/' :: r) =
    Folder.filesRoot ++ c.user ++ pathText c.folder ++ '/' :: Percent.decode r := by
  rw [c.spells_above.decode_append, pathText_append, pathText_rootSegments,
    Percent.decode_cons_slash]

theorem decode_last_append (r : List Char) :
    Percent.decode (c.last ++ r) = c.name ++ Percent.decode r :=
  c.spells_last.decode_append (by decide) r

theorem relativeChars_above (r : List Char) : Folder.relativeChars (c.above ++ '/' :: r) =
    Folder.closeChars (pathText c.folder ++ '/' :: Percent.decode r) := by
  obtain ⟨below, hbelow⟩ : ∃ below,
      pathText c.folder ++ '/' :: Percent.decode r = '/' :: below := by
    cases c.folder with
    | nil => exact ⟨_, rfl⟩
    | cons segment segments => exact ⟨_, rfl⟩
  rw [Folder.relativeChars, decode_above, List.append_assoc _ (pathText c.folder), hbelow,
    Folder.belowRoot_append c.slash_notMem_user]

theorem canonical_request_length_le : (Folder.canonical c.request.toList).length ≤
    (Folder.filesRoot ++ c.user ++ pathText c.folder).length + 1 := by
  have hdecode : Percent.decode c.request.toList =
      Folder.filesRoot ++ c.user ++ '/' :: Folder.trimSlashes (pathText c.folder) := by
    rw [request, String.toList_ofList, c.spells_root.decode_append, pathText_rootSegments,
      Folder.decode_urlPathChars, Folder.trimSlashes_normalizeChars]
  have hdrop := Folder.length_dropSlashes_le (Percent.decode c.request.toList)
  have htrim := Folder.length_trimSlashes_le (pathText c.folder)
  rw [hdecode] at hdrop
  rw [Folder.canonical, hdecode]
  simp only [List.length_append, List.length_cons] at hdrop ⊢
  omega

theorem href_eq : c.href = c.above ++ '/' :: (c.last ++ if c.closed then ['/'] else []) := by
  simp [href]

theorem isOfPath_href : ∀ x ∈ c.href, Reference.IsOfPath x := by
  have hend : ∀ x ∈ if c.closed then ['/'] else [], Reference.IsOfPath x := by
    split_ifs <;> simp [Reference.isOfPath_slash]
  rw [href_eq, List.forall_mem_append, List.forall_mem_cons, List.forall_mem_append]
  exact ⟨c.spells_above.isOfPath, Reference.isOfPath_slash,
    fun x hx => (isOfPath_of_spells c.spells_last x hx).1, hend⟩

theorem partParams_href : (Reference.partParams c.href).1 = c.readPath := by
  have hlast : '/' ∉ c.last := fun h => (isOfPath_of_spells c.spells_last _ h).2 rfl
  unfold readPath
  cases hclosed : c.closed with
  | true =>
    have hhref : c.href = (c.above ++ '/' :: c.last) ++ '/' :: [] := by simp [href, hclosed]
    rw [hhref, Reference.partParams_append _ (by simp), Reference.part_eq_self (by simp)]
    simp
  | false =>
    have hhref : c.href = c.above ++ '/' :: c.last := by simp [href, hclosed]
    rw [hhref, Reference.partParams_append _ hlast]
    simp

theorem pathOrAll?_href : Reference.pathOrAll? c.href = some c.readPath := by
  obtain ⟨x, r, habove, hx⟩ := c.spells_above.exists_cons (by decide)
  have hhref : c.href = '/' :: x :: (r ++ '/' :: (c.last ++ if c.closed then ['/'] else [])) := by
    rw [href_eq, habove]
    rfl
  have hchars := c.isOfPath_href
  rw [hhref] at hchars
  obtain ⟨ref, href, hpath⟩ := Reference.read?_of_slash hchars (by simpa using hx)
  rw [← hhref] at href hpath
  have hne : c.readPath ≠ [] := by simp [readPath]
  rw [Reference.pathOrAll?, href, Option.map_some, hpath, partParams_href]
  simp [hne]

/-- Nothing is taken for parameters. -/
def Plain : Prop := c.closed = true ∨ ';' ∉ c.last

theorem getLast?_path : c.path.getLast? ≠ some '/' := by
  have hlast := List.getLast?_eq_getLast_of_ne_nil c.name_ne_nil
  rw [path, List.getLast?_append_of_ne_nil _ (by simp), List.getLast?_cons, hlast]
  intro e
  exact c.slash_notMem_name (by simpa using Option.some.inj e ▸ List.getLast_mem c.name_ne_nil)

variable {c}

theorem exists_readPath_eq (h : c.Plain) : ∃ n, c.readPath =
    c.above ++ '/' :: (c.last ++ List.replicate n '/') := by
  unfold readPath
  cases hclosed : c.closed with
  | true => exact ⟨1, by simp⟩
  | false =>
    have hplain : ';' ∉ c.last := by simpa [Plain, hclosed] using h
    exact ⟨0, by simp [Reference.part_eq_self hplain]⟩

theorem exists_readPath_eq_of_not_plain (h : ¬ c.Plain) : ∃ t a, c.readPath = c.above ++ '/' :: t ∧
    Percent.Spells IsSegmentChar a t ∧ a.length < c.name.length := by
  obtain ⟨hclosed, hmem⟩ : c.closed = false ∧ ';' ∈ c.last := by simpa [Plain] using h
  obtain ⟨⟨t, r⟩, hcut⟩ := Option.ne_none_iff_exists'.1 (mt cutFirst_eq_none_iff.1 (not_not.2 hmem))
  have hlast := c.spells_last
  rw [(cutFirst_eq_some hcut).1] at hlast
  obtain ⟨a, b, hname, ha⟩ := hlast.exists_split (by decide) (by decide)
  refine ⟨t, a, ?_, ha, ?_⟩
  · simp [readPath, hclosed, Reference.part, hcut]
  · simp [hname]

theorem decode_readPath {n : Nat}
    (h : c.readPath = c.above ++ '/' :: (c.last ++ List.replicate n '/')) :
    Percent.decode c.readPath = Folder.filesRoot ++ c.user ++ pathText c.folder ++
      '/' :: (c.name ++ List.replicate n '/') := by
  rw [h, decode_above, decode_last_append, Percent.decode_replicate_slash]

theorem relativeChars_readPath (h : c.Plain) : Folder.relativeChars c.readPath = c.path := by
  obtain ⟨n, hread⟩ := exists_readPath_eq h
  have hpath : pathText c.folder ++ '/' :: (c.name ++ List.replicate n '/') =
      c.path ++ List.replicate n '/' := by simp [path]
  rw [hread, relativeChars_above, decode_last_append, Percent.decode_replicate_slash, hpath,
    Folder.closeChars_append_replicate (by simp [path]) c.getLast?_path]

theorem canonical_readPath (h : c.Plain) :
    Folder.canonical c.readPath = Folder.filesRoot ++ c.user ++ c.path := by
  obtain ⟨n, hread⟩ := exists_readPath_eq h
  have hpath : Folder.filesRoot ++ c.user ++ pathText c.folder ++
      '/' :: (c.name ++ List.replicate n '/') =
        Folder.filesRoot ++ c.user ++ c.path ++ List.replicate n '/' := by simp [path]
  have hlast : (Folder.filesRoot ++ c.user ++ c.path).getLast? ≠ some '/' := by
    rw [List.getLast?_append_of_ne_nil _ (by simp [path])]
    exact c.getLast?_path
  rw [Folder.canonical, decode_readPath hread, hpath, Folder.dropSlashes_append_replicate hlast]

theorem lastSegment_readPath (h : c.Plain) : lastSegment c.readPath = c.name := by
  obtain ⟨n, hread⟩ := exists_readPath_eq h
  have hsplit : (Percent.decode c.readPath).splitOn '/' =
      (Folder.filesRoot ++ c.user ++ pathText c.folder).splitOn '/' ++
        c.name :: List.replicate n [] := by
    rw [decode_readPath hread, List.splitOn_append_cons_self,
      splitOn_append_replicate c.slash_notMem_name]
  exact lastSegment_eq_of_splitOn hsplit c.name_ne_nil (by simp)

theorem same_readPath (h : c.Plain) : Folder.same (String.ofList c.readPath) c.request = false := by
  -- The path of the child is longer than that of the folder.
  rw [Bool.eq_false_iff, ne_eq, same_eq_true_iff, canonical_readPath h]
  intro e
  have hlength := c.canonical_request_length_le
  have hname := List.length_pos_of_ne_nil c.name_ne_nil
  rw [← e] at hlength
  simp only [path, List.length_append, List.length_cons] at hlength
  omega

/-- The entry is for the child: it has properties, and its reference is the child's. -/
structure Entry (c : Child) (entry : Element) : Prop where
  href_eq : hrefOf entry = String.ofList c.href
  hasProperties : ∃ s ∈ entry.childrenNamed (dav "propstat"), s.child? (dav "prop") ≠ none

/-- The record is that of the child. -/
structure Describes (c : Child) (entry : Element) (r : Record) : Prop where
  path_eq : r.path = String.ofList c.path
  name_eq : (∀ p ∈ properties entry, textOf p (dav "displayname") = "") →
    r.name = String.ofList c.name

theorem Entry.recordAt?_eq_some_iff {entry : Element} (h : c.Entry entry) {r : Record} :
    recordAt? c.request entry = some r ↔
      Folder.same (String.ofList c.readPath) c.request = false ∧
        recordOf? c.readPath (properties entry) = some r := by
  have hpath : pathOf? entry = some c.readPath := by
    rw [pathOf?, h.href_eq, String.toList_ofList, pathOrAll?_href]
  have hne : hrefOf entry ≠ "" := by
    rw [h.href_eq]
    simp [href]
  have hprops : properties entry ≠ [] := by
    rw [ne_eq, properties_eq_nil_iff]
    obtain ⟨s, hs, hprop⟩ := h.hasProperties
    exact fun hnone => hprop (hnone s hs)
  rw [Listing.recordAt?_eq_some_iff, outcome_eq_record_iff]
  simp [hne, hpath, hprops]

theorem exists_describes {entry : Element} (h : c.Entry entry) (hplain : c.Plain) :
    ∃ r, recordAt? c.request entry = some r ∧ c.Describes entry r := by
  have hname : nameOf (properties entry) c.readPath ≠ "" := by
    rw [ne_eq, nameOf_eq_empty_iff, ← lastSegment_eq_nil_iff, lastSegment_readPath hplain]
    exact fun hnone => c.name_ne_nil hnone.2
  obtain ⟨r, hr⟩ := Option.ne_none_iff_exists'.1 (mt recordOf?_eq_none_iff.1 hname)
  have hdecodes := decodes_of_recordOf? hr
  refine ⟨r, h.recordAt?_eq_some_iff.2 ⟨same_readPath hplain, hr⟩, ?_, fun htold => ?_⟩
  · rw [hdecodes.path, relativeChars_readPath hplain]
  · have hempty : firstText (properties entry) (dav "displayname") = "" :=
      firstText_eq_empty_iff.2 htold
    rw [name_of_recordOf? hr, nameOf, hempty, lastSegment_readPath hplain]
    rfl

theorem not_describes {entry : Element} (h : c.Entry entry) (hplain : ¬ c.Plain) {r : Record}
    (hr : recordAt? c.request entry = some r) : ¬ c.Describes entry r := by
  -- The path of the record is shorter than that of the child.
  obtain ⟨t, a, hread, ha, hlt⟩ := exists_readPath_eq_of_not_plain hplain
  intro hdescribes
  have hpath := (decodes_of_recordOf? (h.recordAt?_eq_some_iff.1 hr).2).path
  rw [hdescribes.path_eq, String.ofList_inj, hread, relativeChars_above,
    ha.decode_eq (by decide)] at hpath
  have hle := Folder.length_closeChars_le (s := pathText c.folder ++ '/' :: a) (by simp)
  rw [← hpath] at hle
  simp only [path, List.length_append, List.length_cons] at hle
  omega

end Child

/-- An entry for a child is kept, with the path and the name of the child, exactly if nothing of its
reference is taken for parameters. -/
theorem child_kept_iff (c : Child) {entry : Element} (h : c.Entry entry) :
    ((∃ r, recordAt? c.request entry = some r ∧ c.Describes entry r) ↔ c.Plain) ∧
    ∀ r, recordAt? c.request entry = some r → ∀ root rs, entry ∈ entries root →
      recordsOf c.request (entries root) = .ok rs → r ∈ rs := by
  refine ⟨⟨fun ⟨r, hr, hdescribes⟩ => ?_, Child.exists_describes h⟩, fun r hr root rs he hrs => ?_⟩
  · by_contra hplain
    exact Child.not_describes h hplain hr hdescribes
  · rw [(recordsOf_eq_ok_iff.1 hrs).2, List.mem_filterMap]
    exact ⟨entry, he, hr⟩

theorem child_kept_closed :
    let entry : Element := ⟨dav "response", "", [
      ⟨dav "href", "/remote.php/dav/files/al/P/a;%20b/", []⟩,
      ⟨dav "propstat", "", [⟨dav "prop", "", []⟩]⟩]⟩
    ∃ c : Child, c.request = "/remote.php/dav/files/al/P" ∧ c.path = "/P/a; b".toList ∧
      c.Entry entry ∧ ∃ r, recordAt? c.request entry = some r ∧ c.Describes entry r := by
  intro entry
  let c : Child := {
    user := "al".toList
    folder := ["P".toList]
    name := "a; b".toList
    root := "/remote.php/dav/files/al".toList
    above := "/remote.php/dav/files/al/P".toList
    last := "a;%20b".toList
    closed := true
    slash_notMem_user := by decide
    name_ne_nil := by decide
    slash_notMem_name := by decide
    spells_root := spellsPath_pathText (by decide)
    spells_above := spellsPath_pathText (by decide)
    spells_last := .append
      (Percent.spells_self (s := "a;".toList) (List.forall_iff_forall_mem.1 (by decide)))
      ((Percent.spells_encode " b".toList).mono fun _ => .inl) }
  have h : c.Entry entry := ⟨by decide +kernel, _, List.mem_singleton_self _, by decide +kernel⟩
  exact ⟨c, by decide +kernel, by decide +kernel, h, (child_kept_iff c h).1.2 (.inl rfl)⟩

/-- A name that begins with a semicolon is taken for parameters of the folder itself. -/
theorem child_of_semicolon_not_kept :
    let entry : Element := ⟨dav "response", "", [
      ⟨dav "href", "/remote.php/dav/files/al/P/;x", []⟩,
      ⟨dav "propstat", "", [⟨dav "prop", "", []⟩]⟩]⟩
    ∃ c : Child, c.request = "/remote.php/dav/files/al/P" ∧ c.path = "/P/;x".toList ∧
      c.Entry entry ∧ recordAt? c.request entry = none := by
  intro entry
  let c : Child := {
    user := "al".toList
    folder := ["P".toList]
    name := ";x".toList
    root := "/remote.php/dav/files/al".toList
    above := "/remote.php/dav/files/al/P".toList
    last := ";x".toList
    closed := false
    slash_notMem_user := by decide
    name_ne_nil := by decide
    slash_notMem_name := by decide
    spells_root := spellsPath_pathText (by decide)
    spells_above := spellsPath_pathText (by decide)
    spells_last := Percent.spells_self (List.forall_iff_forall_mem.1 (by decide)) }
  exact ⟨c, by decide +kernel, by decide +kernel,
    ⟨by decide +kernel, _, List.mem_singleton_self _, by decide +kernel⟩, by decide +kernel⟩

end Listing

end DavQuery
