import DavQuery.Proofs.Query.Printable

/-! Queries that are read can be written and read again. A query whose parts fit into lines is
written line by line, and each line is read as what it was written for. -/

namespace DavQuery.Query
open Text

def headerChars (p : String × String) : Line := p.1.toList ++ [' ', ':', ' '] ++ p.2.toList

def criterionChars (c : Criterion) : Line :=
  [' ', ' ', ' ', ' ', '-', ' '] ++ c.key.toList ++ [':', ' '] ++ c.value.toList

def sectionLines : Option (List Criterion) → List Line
  | some cs => opening :: cs.map criterionChars
  | none => []

def printedLines (q : Query) : List Line :=
  q.headers.map headerChars ++ sectionLines q.criteria

theorem toList_headerLine (p : String × String) :
    (headerLine p).toList = headerChars p ++ ['\n'] := by
  have hsep : " : ".toList = [' ', ':', ' '] := by decide
  have hend : "\n".toList = ['\n'] := by decide
  simp only [headerLine, headerChars, String.toList_append, hsep, hend]

theorem toList_criterionLine (c : Criterion) :
    (criterionLine c).toList = criterionChars c ++ ['\n'] := by
  have hstart : "    - ".toList = [' ', ' ', ' ', ' ', '-', ' '] := by decide
  have hsep : ": ".toList = [':', ' '] := by decide
  have hend : "\n".toList = ['\n'] := by decide
  simp only [criterionLine, criterionChars, String.toList_append, hstart, hsep, hend]

theorem toList_sectionText (criteria : Option (List Criterion)) :
    (sectionText criteria).toList = (sectionLines criteria).flatMap fun l => l ++ ['\n'] := by
  cases criteria with
  | none => simp [sectionText, sectionLines]
  | some cs =>
    have hopen : "filter:\n".toList = opening ++ ['\n'] := by decide
    rw [sectionText, sectionLines, String.toList_append, hopen, String.toList_join,
      List.flatMap_cons, List.flatMap_map, List.flatMap_map]
    simp only [toList_criterionLine]

theorem toList_print (q : Query) :
    (print q).toList = (printedLines q).flatMap fun l => l ++ ['\n'] := by
  rw [print, printedLines, String.toList_append, String.toList_join, toList_sectionText,
    List.flatMap_append, List.flatMap_map, List.flatMap_map]
  simp only [toList_headerLine]

theorem HeaderFits.not_mem {p : String × String} (h : HeaderFits p) : '\n' ∉ headerChars p := by
  have hkey : '\n' ∉ p.1.toList := h.1.2.2
  have hvalue : '\n' ∉ p.2.toList := h.2.2.2.2
  simp [headerChars, hkey, hvalue]

theorem CriterionFits.not_mem {c : Criterion} (h : CriterionFits c) :
    '\n' ∉ criterionChars c := by
  have hkey : '\n' ∉ c.key.toList := fun hn => absurd (h.2.1 _ hn) (by decide)
  have hvalue : '\n' ∉ c.value.toList := h.2.2.2.2
  simp [criterionChars, hkey, hvalue]

theorem linesOf_print {q : Query} (h : Printable q) :
    linesOf (print q) = printedLines q ++ [[]] := by
  rw [linesOf, toList_print, splitOn_flatMap]
  intro l hl
  rcases List.mem_append.1 hl with hl | hl
  · obtain ⟨p, hp, rfl⟩ := List.mem_map.1 hl
    exact (h.header p hp).not_mem
  · cases hc : q.criteria with
    | none => simp [hc, sectionLines] at hl
    | some cs =>
      rw [hc, sectionLines, List.mem_cons, List.mem_map] at hl
      rcases hl with rfl | ⟨c, hmem, rfl⟩
      · decide
      · exact (h.criterion cs hc c hmem).not_mem

theorem sides?_headerChars {p : String × String} (h : ':' ∉ p.1.toList) :
    sides? (headerChars p) = some (p.1.toList ++ [' '], [' '] ++ p.2.toList) := by
  have hmark : ':' ∉ p.1.toList ++ [' '] := by simp [h]
  have e : headerChars p = (p.1.toList ++ [' ']) ++ ':' :: ([' '] ++ p.2.toList) := by
    simp [headerChars]
  rw [sides?, e, cutFirst_append hmark]

theorem HeaderFits.not_opens {p : String × String} (h : HeaderFits p) :
    ¬ Opens (headerChars p) := by
  -- The space behind the key tells the header from an opener.
  obtain ⟨⟨hk0, hk, -⟩, hcolon, hv0, hv, -⟩ := h
  have htrim : trimChars (headerChars p) = headerChars p :=
    (hk.append hv (by simpa using hk0) (by simpa using hv0) _).trimChars_eq
  rintro ⟨r, hr⟩
  rw [htrim, opening_eq] at hr
  have hcut : cutFirst ':' (headerChars p) = some (['f', 'i', 'l', 't', 'e', 'r'], r) := by
    rw [← hr]
    exact cutFirst_append (a := ['f', 'i', 'l', 't', 'e', 'r']) (by decide) r
  have hsides := sides?_headerChars hcolon
  rw [sides?, hcut, Option.some.injEq, Prod.mk.injEq] at hsides
  have hlast := congrArg List.getLast? hsides.1
  simp at hlast

theorem HeaderFits.splits {p : String × String} (h : HeaderFits p) {gap gap' : Line}
    (hgap : AllBlank gap) (hgap' : AllBlank gap') :
    Splits (p.1.toList ++ gap ++ ':' :: (gap' ++ p.2.toList)) p.1 p.2 := by
  have hmark : ':' ∉ p.1.toList ++ gap := fun hm =>
    (List.mem_append.1 hm).elim h.2.1 fun hm => absurd (hgap _ hm) (by decide)
  rw [← headerOf?_eq_some_iff, headerOf?_eq_some_iff_sides]
  refine ⟨p.1.toList ++ gap, gap' ++ p.2.toList, ?_, ?_, ?_, h.1.1, h.2.2.1⟩
  · rw [sides?, cutFirst_append hmark]
  · rw [trimChars_append_right_of_allBlank hgap, h.1.2.1.trimChars_eq]
  · rw [trimChars_append_of_allBlank hgap', h.2.2.2.1.trimChars_eq]

theorem HeaderFits.roleOf {p : String × String} (h : HeaderFits p) :
    roleOf false (headerChars p) = .header p.1 p.2 := by
  have hcolon : isBlank ':' = false := by decide
  have hblank : ¬ AllBlank (headerChars p) := fun hb => by
    have := hb ':' (by simp [headerChars])
    simp [hcolon] at this
  have hspace : AllBlank [' '] := by decide
  have hsplits := h.splits hspace hspace
  refine roleOf_eq_iff.2 (.header hblank h.not_opens (.inl rfl) ?_)
  simpa [headerChars] using hsplits

theorem CriterionFits.lists {c : Criterion} (h : CriterionFits c) {indent : Line}
    (hindent : AllBlank indent) :
    Lists (indent ++ '-' :: ' ' :: (c.key.toList ++ ':' :: ' ' :: c.value.toList)) c := by
  obtain ⟨hk0, hk, hv0, hv, -⟩ := h
  have hspace : AllBlank [' '] := by decide
  have hdash : Trimmed ['-'] := by simp [Trimmed, show isBlank '-' = false by decide]
  have hvalue : c.value.toList ≠ [] := by simpa using hv0
  have htrimmed := hdash.append hv (by simp) hvalue ([' '] ++ c.key.toList ++ [':', ' '])
  refine ⟨[' '], c.key.toList, [' '], c.value.toList, ?_, hspace, by simpa using hk0, hk, hspace,
    hvalue, ?_⟩
  · rw [trimChars_append_of_allBlank hindent]
    simpa using htrimmed.trimChars_eq
  · rw [hv.trimChars_eq, String.ofList_toList, String.ofList_toList]

theorem CriterionFits.roleOf {c : Criterion} (h : CriterionFits c) :
    roleOf true (criterionChars c) = .item c := by
  have hindent : AllBlank [' ', ' ', ' ', ' '] := by decide
  have hlists := h.lists hindent
  exact roleOf_eq_iff.2 (.item rfl (by simpa [criterionChars] using hlists))

theorem readLines_map_append {α : Type*} {inside : Bool} (line : α → Line) (role : α → Role)
    {xs : List α} (h : ∀ x ∈ xs, roleOf inside (line x) = role x)
    (hinside : ∀ x, (role x).inside inside = inside) (hpart : ∀ x, (role x).part? = none)
    (number : Nat) (q : Query) (rest : List Line) :
    readLines number inside q (xs.map line ++ rest) =
      readLines (number + xs.length) inside (xs.foldl (fun q x => (role x).apply q) q) rest := by
  induction xs generalizing number q with
  | nil => rfl
  | cons x xs ih =>
    rw [List.forall_mem_cons] at h
    rw [List.map_cons, List.cons_append, readLines_cons, h.1, List.foldl_cons,
      List.length_cons, Nat.add_comm xs.length, ← Nat.add_assoc, ← ih h.2]
    simp only [hinside, hpart]
    rfl

theorem readLines_headers {hs : List (String × String)} (h : ∀ p ∈ hs, HeaderFits p) (number : Nat)
    (q : Query) (rest : List Line) :
    readLines number false q (hs.map headerChars ++ rest) =
      readLines (number + hs.length) false (hs.foldl (fun q p => q.set p.1 p.2) q) rest :=
  readLines_map_append headerChars (fun p => .header p.1 p.2) (fun p hp => (h p hp).roleOf)
    (fun _ => rfl) (fun _ => rfl) number q rest

theorem readLines_criteria {cs : List Criterion} (h : ∀ c ∈ cs, CriterionFits c) (number : Nat)
    (q : Query) (rest : List Line) :
    readLines number true q (cs.map criterionChars ++ rest) =
      readLines (number + cs.length) true (cs.foldl addCriterion q) rest :=
  readLines_map_append criterionChars .item (fun c hc => (h c hc).roleOf) (fun _ => rfl)
    (fun _ => rfl) number q rest

theorem foldl_addCriterion (cs : List Criterion) {ds : List Criterion} {q : Query}
    (h : q.criteria = some ds) :
    cs.foldl addCriterion q = { q with criteria := some (ds ++ cs) } := by
  induction cs generalizing q ds with
  | nil => simp [← h]
  | cons c cs ih =>
    have hc : (q.addCriterion c).criteria = some (ds ++ [c]) := by simp [addCriterion, h]
    rw [List.foldl_cons, ih hc]
    simp [addCriterion]

theorem foldl_set_extra {l : List (String × String)} {q : Query}
    (hunnamed : ∀ p ∈ l, Header.ofKey? p.1 = none)
    (hnodup : (q.extra.map Prod.fst ++ l.map Prod.fst).Nodup) :
    l.foldl (fun q p => q.set p.1 p.2) q = { q with extra := q.extra ++ l } := by
  induction l generalizing q with
  | nil => simp
  | cons p l ih =>
    rw [List.forall_mem_cons] at hunnamed
    have hp : p.1 ∉ q.extra.map Prod.fst := by
      intro hp
      exact (List.nodup_append.1 hnodup).2.2 p.1 hp p.1 (by simp) rfl
    have hset : q.set p.1 p.2 = { q with extra := q.extra ++ [p] } := by
      rw [set, hunnamed.1]
      simp only [assign_of_not_mem p.2 hp]
    rw [List.foldl_cons, hset, ih hunnamed.2 (by simpa using hnodup)]
    simp

theorem foldl_set_namedHeaders (q : Query) :
    q.namedHeaders.foldl (fun q p => q.set p.1 p.2) empty =
      { q with criteria := none, extra := [] } := by
  obtain ⟨command, folder, format, listStyle, criteria, extra⟩ := q
  cases command <;> cases folder <;> cases format <;> cases listStyle <;> rfl

theorem foldl_set_headers {q : Query} (h : Printable q) :
    q.headers.foldl (fun q p => q.set p.1 p.2) empty = { q with criteria := none } := by
  rw [headers, List.foldl_append, foldl_set_namedHeaders, foldl_set_extra]
  · rfl
  · exact fun p hp => h.extra_unnamed p.1 (List.mem_map_of_mem hp)
  · exact h.extra_nodup

theorem readLines_blank (number : Nat) (inside : Bool) (q : Query) :
    readLines number inside q [[]] = (q, []) := by
  rw [readLines_cons, roleOf_eq_iff.2 (.empty allBlank_nil)]
  rfl

theorem readLines_section {q : Query} (h : ∀ cs, q.criteria = some cs → ∀ c ∈ cs, CriterionFits c)
    (number : Nat) :
    readLines number false { q with criteria := none } (sectionLines q.criteria ++ [[]]) =
      (q, []) := by
  cases hc : q.criteria with
  | none =>
    rw [sectionLines, List.nil_append, readLines_blank, ← hc]
  | some cs =>
    have hopens : Opens opening := by decide
    rw [sectionLines, List.cons_append, readLines_cons, roleOf_eq_iff.2 (.opener hopens)]
    simp only [Role.inside, Role.apply, readLines_criteria (h cs hc), readLines_blank,
      foldl_addCriterion cs (q := { q with criteria := some [] }) rfl, List.nil_append, ← hc]
    rfl

theorem readWithIgnored_print_of_printable {q : Query} (h : Printable q) :
    readWithIgnored (print q) = (q, []) := by
  change readLines 1 false empty (linesOf (print q)) = (q, [])
  rw [linesOf_print h, printedLines, List.append_assoc, readLines_headers h.header,
    foldl_set_headers h, readLines_section h.criterion]

/-- What is read from any text can be printed and read again, and no line is passed over. -/
theorem readWithIgnored_print_read (text : String) :
    readWithIgnored (print (read text)) = (read text, []) := by
  have h := (reads_progress (linesOf text)).2.printable fun l => not_mem_line
  have e : read text = (progress (linesOf text)).query := by
    rw [read, readWithIgnored_eq]
  rw [e]
  exact readWithIgnored_print_of_printable h

end DavQuery.Query
