import DavQuery.Proofs.Query.Printable

/-! The entries of a query that was read. No key is listed twice, and each entry is a header or the
criteria. The key of the criteria is not theirs alone: a header line may be called like the section,
and without a section its value is listed under that key. -/

namespace DavQuery.Query
open Text

/-- The line names the key of the criteria and opens no section: white space stands before its
colon, or a semicolon parts it. -/
def NamesFilter (l : Line) : Prop :=
  ∃ indent gap mark rest, l = indent ++ ("filter".toList ++ (gap ++ mark :: rest)) ∧
    AllBlank indent ∧ AllBlank gap ∧ ¬ AllBlank rest ∧
      (mark = ':' ∧ gap ≠ [] ∨ mark = ';' ∧ ':' ∉ l)

section Entries
variable {q : Query} (hnodup : q.extraKeys.Nodup)
  (hunnamed : ∀ key ∈ q.extraKeys, Header.ofKey? key = none)
include hnodup hunnamed

theorem mem_headers_iff {p : String × String} : p ∈ q.headers ↔ q.get? p.1 = some p.2 := by
  refine ⟨get?_of_mem_headers hnodup hunnamed, fun h => List.mem_append.2 ?_⟩
  rw [get?] at h
  split at h
  · rename_i header hkey
    exact .inl (mem_namedHeaders_iff.2 ⟨header, Header.ofKey?_eq_some_iff.1 hkey, h⟩)
  · exact .inr ((lookup_eq_some_iff_mem hnodup).1 h)

theorem nodup_headers : (q.headers.map Prod.fst).Nodup := by
  have hkeys : Header.keys.Pairwise fun a b => a.1 ≠ b.1 := by decide
  have hnamed : (q.namedHeaders.map Prod.fst).Nodup := by
    rw [List.Nodup, List.pairwise_map]
    refine hkeys.filterMap _ fun a b hab p hp p' hp' => ?_
    obtain ⟨_, -, rfl⟩ := Option.map_eq_some_iff.1 hp
    obtain ⟨_, -, rfl⟩ := Option.map_eq_some_iff.1 hp'
    exact hab
  rw [headers, List.map_append]
  refine List.nodup_append.2 ⟨hnamed, hnodup, fun a ha b hb e => ?_⟩
  obtain ⟨p, hp, rfl⟩ := List.mem_map.1 ha
  obtain ⟨header, hkey, -⟩ := mem_namedHeaders_iff.1 hp
  have hnone := hunnamed b hb
  rw [← e, hkey, Header.ofKey?_key] at hnone
  cases hnone

theorem nodup_texts : ((q.headers.map fun p => (p.1, Entry.text p.2)).map Prod.fst).Nodup := by
  simpa [Function.comp_def] using nodup_headers hnodup hunnamed

theorem nodup_toList : (q.toList.map Prod.fst).Nodup := by
  have htexts := nodup_texts hnodup hunnamed
  rw [toList]
  cases q.criteria with
  | none => exact htexts
  | some cs => simpa only [putEntry_eq_put] using nodup_put htexts

theorem mem_toList_iff {key : String} {e : Entry} :
    (key, e) ∈ q.toList ↔
      (∃ cs, q.criteria = some cs ∧ key = "filter" ∧ e = .criteria cs) ∨
        (q.criteria = none ∨ key ≠ "filter") ∧
          ∃ value, q.get? key = some value ∧ e = .text value := by
  have htext : (key, e) ∈ q.headers.map (fun p => (p.1, Entry.text p.2)) ↔
      ∃ value, q.get? key = some value ∧ e = .text value := by
    simp [mem_headers_iff hnodup hunnamed, eq_comm]
  rw [toList]
  cases q.criteria with
  | none => simpa using htext
  | some cs =>
    simp only [putEntry_eq_put, mem_put_iff (nodup_texts hnodup hunnamed)]
    by_cases hkey : key = "filter"
    · simp [hkey]
    · simpa [hkey] using htext

end Entries

theorem opens_iff_dropWhile {l : Line} : Opens l ↔ opening <+: l.dropWhile isBlank := by
  have htrimmed : Trimmed opening := by decide
  exact htrimmed.isPrefix_trimChars_iff

theorem opens_filter_append_iff {indent s : Line} (hindent : AllBlank indent) :
    Opens (indent ++ ("filter".toList ++ s)) ↔ s.head? = some ':' := by
  have hname : ∀ s, ("filter".toList ++ s).dropWhile isBlank = "filter".toList ++ s := fun s => rfl
  have hopening : opening = "filter".toList ++ [':'] := by decide
  rw [opens_iff_dropWhile, List.dropWhile_append_of_pos hindent, hname, hopening,
    List.prefix_append_right_inj]
  cases s <;> simp [eq_comm]

theorem allBlank_map_colon {r : Line} :
    AllBlank (r.map fun c => if c = ';' then ':' else c) ↔ AllBlank r := by
  have hblank : ∀ c, isBlank (if c = ';' then ':' else c) = isBlank c := fun c => by
    split
    · rename_i h
      rw [h]
      decide
    · rfl
  simp only [AllBlank, List.forall_mem_map, hblank]

theorem exists_splits_iff {l : Line} {key : String} (hkey : Trimmed key.toList) (hkey0 : key ≠ "")
    (hcolon : ':' ∉ key.toList) (hsemicolon : ';' ∉ key.toList) :
    (∃ value, Splits l key value) ↔ ∃ indent gap mark rest,
      l = indent ++ (key.toList ++ (gap ++ mark :: rest)) ∧ AllBlank indent ∧ AllBlank gap ∧
        ¬ AllBlank rest ∧ (mark = ':' ∨ mark = ';' ∧ ':' ∉ l) := by
  have hkey1 : key.toList ≠ [] := by simpa using hkey0
  simp only [← headerOf?_eq_some_iff, headerOf?_eq_some_iff_sides, sides?_eq_some_iff_append]
  constructor
  · rintro ⟨value, a, b, hsides, hk, hv, -, hv0⟩
    obtain ⟨indent, gap, rfl, hindent, hgap⟩ := (trimChars_eq_iff_append hkey hkey1).1 hk.symm
    have hb : ¬ AllBlank b := by
      rw [← trimChars_eq_nil_iff, ← hv]
      simpa using hv0
    rcases hsides with ⟨hl, -⟩ | ⟨hline, r, hl, -, rfl⟩
    · exact ⟨indent, gap, ':', b, by simp [hl], hindent, hgap, hb, .inl rfl⟩
    · rw [allBlank_map_colon] at hb
      exact ⟨indent, gap, ';', r, by simp [hl], hindent, hgap, hb, .inr ⟨rfl, hline⟩⟩
  · rintro ⟨indent, gap, mark, rest, hl, hindent, hgap, hrest, hmark⟩
    have hk : trimChars (indent ++ (key.toList ++ gap)) = key.toList :=
      (trimChars_eq_iff_append hkey hkey1).2 ⟨indent, gap, rfl, hindent, hgap⟩
    have hfree {c : Char} (hc : isBlank c = false) (hc' : c ∉ key.toList) :
        c ∉ indent ++ (key.toList ++ gap) := fun hmem => by
      rw [← hk] at hc'
      exact hc' (mem_trimChars hmem hc)
    have hvalue {b : Line} (hb : ¬ AllBlank b) : String.ofList (trimChars b) ≠ "" := by
      simpa [trimChars_eq_nil_iff] using hb
    rcases hmark with rfl | ⟨rfl, hline⟩
    · refine ⟨_, _, rest, .inl ⟨?_, hfree (by decide) hcolon⟩, hk.symm,
        String.toList_ofList, hkey0, hvalue hrest⟩
      simp [hl]
    · refine ⟨_, _, _, .inr ⟨hline, rest, ?_, hfree (by decide) hsemicolon, rfl⟩,
        hk.symm, String.toList_ofList, hkey0, hvalue (mt allBlank_map_colon.1 hrest)⟩
      simp [hl]

theorem namesFilter_iff {l : Line} :
    NamesFilter l ↔ ¬ Opens l ∧ ∃ value, Splits l "filter" value := by
  rw [exists_splits_iff (by decide) (by decide) (by decide) (by decide)]
  constructor
  · rintro ⟨indent, gap, mark, rest, hl, hindent, hgap, hrest, hmark⟩
    refine ⟨?_, indent, gap, mark, rest, hl, hindent, hgap, hrest, hmark.imp_left And.left⟩
    rw [hl, opens_filter_append_iff hindent]
    cases gap with
    | nil =>
      rcases hmark with ⟨-, hgap0⟩ | ⟨rfl, -⟩
      · exact absurd rfl hgap0
      · simp
    | cons c r =>
      rintro ⟨⟩
      exact absurd (hgap ':' List.mem_cons_self) (by decide)
  · rintro ⟨hopens, indent, gap, mark, rest, hl, hindent, hgap, hrest, hmark⟩
    rw [hl, opens_filter_append_iff hindent] at hopens
    refine ⟨indent, gap, mark, rest, hl, hindent, hgap, hrest, hmark.imp_left fun h => ⟨h, ?_⟩⟩
    rintro rfl
    exact hopens (by simp [h])

section Reading
variable {lines : List Line} {q : Query} {ignored : List IgnoredLine}

theorem assigns_iff_of_no_section (hno : ∀ l ∈ lines, ¬ Opens l) {n : Nat} {key value : String} :
    Assigns lines n key value ↔
      ∃ before l after, lines = before ++ l :: after ∧ n = before.length + 1 ∧
        Splits l key value := by
  constructor
  · rintro ⟨before, l, after, hl, hn, -, hs⟩
    exact ⟨before, l, after, hl, hn, hs⟩
  · rintro ⟨before, l, after, rfl, hn, hs⟩
    have hinside : ¬ Inside before := fun h => by
      obtain ⟨o, ho, hopens⟩ := inside_of_mem_opens h
      exact hno o (by simp [ho]) hopens
    exact ⟨before, l, after, rfl, hn, ⟨hs.not_allBlank, hno l (by simp), .inl hinside⟩, hs⟩

theorem namesFilter_iff_of_no_section (hno : ∀ l ∈ lines, ¬ Opens l) {l : Line} (hl : l ∈ lines) :
    NamesFilter l ↔ ∃ value, Splits l "filter" value := by
  rw [namesFilter_iff, and_iff_right (hno l hl)]

variable (h : Reads lines q ignored)
include h

theorem Reads.get?_eq_some_iff_last (hno : ∀ l ∈ lines, ¬ Opens l) {key value : String} :
    q.get? key = some value ↔ ∃ before l after, lines = before ++ l :: after ∧ Splits l key value ∧
      ∀ l' ∈ after, ∀ w, ¬ Splits l' key w := by
  simp only [h.get?_eq_some_iff, assigns_iff_of_no_section hno]
  constructor
  · rintro ⟨n, ⟨before, l, after, rfl, rfl, hs⟩, hmax⟩
    refine ⟨before, l, after, rfl, hs, fun l' hl' w hw => ?_⟩
    obtain ⟨a, b, rfl⟩ := List.append_of_mem hl'
    have hle := hmax _ w ⟨before ++ l :: a, l', b, by simp, rfl, hw⟩
    simp only [List.length_append, List.length_cons] at hle
    omega
  · rintro ⟨before, l, after, rfl, hs, hlast⟩
    refine ⟨_, ⟨before, l, after, rfl, rfl, hs⟩, ?_⟩
    rintro m w ⟨before', l', after', hl, rfl, hw⟩
    -- A line that sets the key stands in `before` or is `l`, as none in `after` does.
    rcases List.append_eq_append_iff.1 hl with ⟨a, rfl, ha⟩ | ⟨b, rfl, -⟩
    · cases a with
      | nil => simp
      | cons x a =>
        have hmem : l' ∈ after := by simp [(List.cons.inj ha).2]
        exact absurd hw (hlast l' hmem w)
    · simp

theorem Reads.get?_filter_eq_some_iff_last (hno : ∀ l ∈ lines, ¬ Opens l) {value : String} :
    q.get? "filter" = some value ↔ ∃ before l after, lines = before ++ l :: after ∧
      NamesFilter l ∧ (∀ l' ∈ after, ¬ NamesFilter l') ∧ Splits l "filter" value := by
  rw [h.get?_eq_some_iff_last hno]
  refine exists₃_congr fun before l after => and_congr_right fun hlines => ?_
  have hlast : (∀ l' ∈ after, ∀ w, ¬ Splits l' "filter" w) ↔ ∀ l' ∈ after, ¬ NamesFilter l' := by
    refine forall₂_congr fun l' hl' => ?_
    rw [namesFilter_iff_of_no_section hno (by simp [hlines, hl']), not_exists]
  rw [hlast, namesFilter_iff_of_no_section hno (by simp [hlines])]
  exact ⟨fun ⟨hs, hafter⟩ => ⟨⟨value, hs⟩, hafter, hs⟩, fun ⟨_, hafter, hs⟩ => ⟨hs, hafter⟩⟩

theorem Reads.get?_filter_ne_none_iff (hno : ∀ l ∈ lines, ¬ Opens l) :
    q.get? "filter" ≠ none ↔ ∃ l ∈ lines, NamesFilter l := by
  have hnone : q.get? "filter" = none ↔ ∀ l ∈ lines, ¬ NamesFilter l := by
    simp only [h.get?_eq_none_iff, assigns_iff_of_no_section hno]
    constructor
    · intro hunset l hl hnames
      obtain ⟨value, hs⟩ := (namesFilter_iff_of_no_section hno hl).1 hnames
      obtain ⟨before, after, hlines⟩ := List.append_of_mem hl
      exact hunset _ value ⟨before, l, after, hlines, rfl, hs⟩
    · rintro hnames n value ⟨before, l, after, hlines, -, hs⟩
      have hl : l ∈ lines := by simp [hlines]
      exact hnames l hl ((namesFilter_iff_of_no_section hno hl).2 ⟨value, hs⟩)
  simp [hnone]

theorem Reads.hasCriteria_iff : q.hasCriteria = true ↔ ∃ l ∈ lines, Opens l := by
  rw [hasCriteria, Option.isSome_iff_ne_none, ne_eq, h.criteria_eq_none_iff]
  simp

theorem Reads.nodup_toList : (q.toList.map Prod.fst).Nodup :=
  Query.nodup_toList h.extraKeys_nodup fun key hk => ((h.mem_extraKeys_iff key).1 hk).1

theorem Reads.mem_toList_filter_iff {e : Entry} : ("filter", e) ∈ q.toList ↔
    (∃ cs, q.criteria = some cs ∧ e = .criteria cs) ∨
      q.criteria = none ∧ ∃ value, q.get? "filter" = some value ∧ e = .text value := by
  rw [mem_toList_iff h.extraKeys_nodup fun key hk => ((h.mem_extraKeys_iff key).1 hk).1]
  simp

theorem Reads.exists_mem_toList_filter_iff : (∃ e, ("filter", e) ∈ q.toList) ↔
    (∃ l ∈ lines, Opens l) ∨ ∃ l ∈ lines, NamesFilter l := by
  simp only [h.mem_toList_filter_iff]
  by_cases hopens : ∃ l ∈ lines, Opens l
  · obtain ⟨cs, hcs⟩ := Option.isSome_iff_exists.1 (h.hasCriteria_iff.2 hopens)
    exact iff_of_true ⟨.criteria cs, .inl ⟨cs, hcs, rfl⟩⟩ (.inl hopens)
  · have hno : ∀ l ∈ lines, ¬ Opens l := fun l hl ho => hopens ⟨l, hl, ho⟩
    rw [← h.get?_filter_ne_none_iff hno, h.criteria_eq_none_iff.2 hno, Option.ne_none_iff_exists']
    simp [hopens]

end Reading

/-- The last section is listed under its key, whatever header lines there are, and no key is listed
twice. Without a section the last line that names the key is listed there, if there is one; so the
key is listed just when there is a section exactly if there is one or no line names it. -/
theorem section_shown_iff (text : String) :
    ((read text).toList.map Prod.fst).Nodup ∧
    ((read text).hasCriteria = true ↔ ∃ l ∈ linesOf text, Opens l) ∧
    (∀ before o after, linesOf text = before ++ o :: after → Opens o → (∀ l ∈ after, ¬ Opens l) →
      ∃ cs, List.Forall₂ Lists (sectionItems after) cs ∧
        ∀ e, ("filter", e) ∈ (read text).toList ↔ e = .criteria cs) ∧
    ((∀ l ∈ linesOf text, ¬ Opens l) → ∀ e, ("filter", e) ∈ (read text).toList ↔
      ∃ value, (∃ before l after, linesOf text = before ++ l :: after ∧ NamesFilter l ∧
        (∀ l' ∈ after, ¬ NamesFilter l') ∧ Splits l "filter" value) ∧ e = .text value) ∧
    (((∃ e, ("filter", e) ∈ (read text).toList) ↔ ∃ l ∈ linesOf text, Opens l) ↔
      (∃ l ∈ linesOf text, Opens l) ∨ ∀ l ∈ linesOf text, ¬ NamesFilter l) := by
  have h := (readWithIgnored_eq_iff text (read text) (ignored text)).1 rfl
  refine ⟨h.nodup_toList, h.hasCriteria_iff, fun before o after hlines ho hlast => ?_,
      fun hno e => ?_, ?_⟩
  · obtain ⟨cs, hcs, hitems⟩ := h.criteria_eq_some before o after hlines ho hlast
    exact ⟨cs, hitems, fun e => by simp [h.mem_toList_filter_iff, hcs]⟩
  · rw [h.mem_toList_filter_iff, h.criteria_eq_none_iff.2 hno]
    simp [h.get?_filter_eq_some_iff_last hno]
  · have hnames : (∀ l ∈ linesOf text, ¬ NamesFilter l) ↔ ¬ ∃ l ∈ linesOf text, NamesFilter l := by
      simp
    rw [h.exists_mem_toList_filter_iff, hnames, or_iff_left_iff_imp, imp_iff_or_not]

theorem section_shown_iff_among_headers :
    (∃ cs, List.Forall₂ Lists [" - k: v".toList] cs ∧
      ∀ e, ("filter", e) ∈ (read "filter; a\nfilter:\n - k: v\nfilter : b").toList ↔
        e = .criteria cs) ∧
    ("filter", .text "b") ∈ (read "filter; a\nfilter : b").toList := by
  have hitems : sectionItems [" - k: v".toList, "filter : b".toList] = [" - k: v".toList] := by
    decide +kernel
  have hsection := (section_shown_iff "filter; a\nfilter:\n - k: v\nfilter : b").2.2.1
    ["filter; a".toList] "filter:".toList [" - k: v".toList, "filter : b".toList]
    (by decide +kernel) (by decide) (by decide +kernel)
  have hheader := (section_shown_iff "filter; a\nfilter : b").2.2.2.1 (by decide +kernel)
  rw [hitems] at hsection
  refine ⟨hsection, (hheader _).2 ⟨"b", ⟨["filter; a".toList], "filter : b".toList, [], ?_⟩, rfl⟩⟩
  have hnames : NamesFilter "filter : b".toList :=
    ⟨[], [' '], ':', " b".toList, by decide, by decide, by decide, by decide, by decide⟩
  exact ⟨by decide +kernel, hnames, by simp, headerOf?_eq_some_iff.1 (by decide +kernel)⟩

theorem header_shown_without_section :
    ¬ ((∃ e, ("filter", e) ∈ (read "filter : x").toList) ↔
      ∃ l ∈ linesOf "filter : x", Opens l) := by
  have hshown : ("filter", .text "x") ∈ (read "filter : x").toList := by decide +kernel
  have hno : ¬ ∃ l ∈ linesOf "filter : x", Opens l := by decide +kernel
  exact fun h => hno (h.1 ⟨_, hshown⟩)

end DavQuery.Query
