import DavQuery.Proofs.Query.RoundTrip

/-! The layout of a query. White space around a line is no part of what the line says, but for the
space before a line that closes a section, and blank lines say nothing at all. Nor does a line that
is passed over, unless it closes a section. So texts that differ in these are read as one query. -/

namespace DavQuery

/-- What is told of a line that is passed over, but for its number. -/
def IgnoredLine.told (line : IgnoredLine) : QueryPart × String := (line.part, line.text)

/-- The line as it is told where one line more stands before it. -/
def IgnoredLine.later (line : IgnoredLine) : IgnoredLine := { line with number := line.number + 1 }

namespace Query
open Text

def IsIndent (s : Line) : Prop := ∀ c ∈ s, c = ' ' ∨ c = '\t'

instance (s : Line) : Decidable (IsIndent s) :=
  decidable_of_iff (s.all fun c => c = ' ' || c = '\t') (by simp [IsIndent])

/-- The lines that follow `before` are laid out as others: blank lines are put in and left out,
white space is put behind lines, and spaces and tabs in front of those that close no section
there. -/
inductive Relaid : List Line → List Line → List Line → Prop
  | nil {before : List Line} : Relaid before [] []
  | insert {before lines lines' : List Line} {blank : Line} :
      AllBlank blank → Relaid before lines lines' → Relaid before lines (blank :: lines')
  | delete {before lines lines' : List Line} {blank : Line} :
      AllBlank blank → Relaid (before ++ [blank]) lines lines' →
        Relaid before (blank :: lines) lines'
  | line {before lines lines' : List Line} {l indent tail : Line} :
      IsIndent indent → AllBlank tail → indent = [] ∨ ¬ (Inside before ∧ Closes l) →
        Relaid (before ++ [l]) lines lines' →
          Relaid before (l :: lines) ((indent ++ l ++ tail) :: lines')

theorem IsIndent.allBlank {s : Line} (h : IsIndent s) : AllBlank s := fun c hc => by
  rcases h c hc with rfl | rfl <;> decide

theorem notMem_of_allBlank {s : Line} (h : AllBlank s) {c : Char} (hc : isBlank c = false) :
    c ∉ s := fun hmem => by simp [h c hmem] at hc

section Padded
variable {indent l tail : Line}

theorem trimChars_padded (hindent : AllBlank indent) (htail : AllBlank tail) :
    trimChars (indent ++ l ++ tail) = trimChars l := by
  rw [trimChars_append_right_of_allBlank htail, trimChars_append_of_allBlank hindent]

theorem sides?_padded (hindent : AllBlank indent) (htail : AllBlank tail) :
    sides? (indent ++ l ++ tail) = (sides? l).map fun p => (indent ++ p.1, p.2 ++ tail) := by
  have hcut {mark : Char} (hmark : isBlank mark = false) :
      cutFirst mark (indent ++ l ++ tail) =
        (cutFirst mark l).map fun p => (indent ++ p.1, p.2 ++ tail) := by
    rw [cutFirst_append_of_notMem_right (notMem_of_allBlank htail hmark),
      cutFirst_append_of_notMem_left (notMem_of_allBlank hindent hmark), Option.map_map]
    rfl
  have hplain : tail.map (fun c => if c = ';' then ':' else c) = tail := by
    conv_rhs => rw [← List.map_id tail]
    refine List.map_congr_left fun c hc => if_neg ?_
    rintro rfl
    exact notMem_of_allBlank htail (by decide) hc
  rw [sides?, sides?, hcut (by decide), hcut (by decide)]
  cases cutFirst ':' l with
  | some p => rfl
  | none => cases cutFirst ';' l <;> simp [hplain]

theorem headerOf?_padded (hindent : AllBlank indent) (htail : AllBlank tail) :
    headerOf? (indent ++ l ++ tail) = headerOf? l := by
  simp only [headerOf?, sides?_padded hindent htail, Option.map_map, Function.comp_def,
    trimChars_append_of_allBlank hindent, trimChars_append_right_of_allBlank htail]

end Padded

section Same
variable {l l' : Line} (htrim : trimChars l' = trimChars l)
include htrim

theorem allBlank_congr : AllBlank l' ↔ AllBlank l := by
  rw [← trimChars_eq_nil_iff, htrim, trimChars_eq_nil_iff]

theorem opens_congr : Opens l' ↔ Opens l := by rw [Opens, Opens, htrim]

theorem lists_congr {c : Criterion} : Lists l' c ↔ Lists l c := by simp only [Lists, htrim]

theorem isItem_congr : IsItem l' ↔ IsItem l := by simp only [IsItem, lists_congr htrim]

theorem roleOf_congr (hheader : headerOf? l' = headerOf? l) {inside : Bool}
    (hcloses : inside = true → (Closes l' ↔ Closes l)) : roleOf inside l' = roleOf inside l := by
  have hsplits (key value : String) : Splits l' key value ↔ Splits l key value := by
    rw [← headerOf?_eq_some_iff, hheader, headerOf?_eq_some_iff]
  have hout : inside = false ∨ Closes l → inside = false ∨ Closes l' := by
    cases inside with
    | false => exact fun _ => .inl rfl
    | true => exact Or.imp_right (hcloses rfl).2
  have hblank := mt (allBlank_congr htrim).1
  have hopens := mt (opens_congr htrim).1
  have hm := means_roleOf inside l
  rw [roleOf_eq_iff]
  generalize roleOf inside l = role at hm
  cases hm with
  | empty hb => exact .empty ((allBlank_congr htrim).2 hb)
  | opener ho => exact .opener ((opens_congr htrim).2 ho)
  | item hi hl => exact .item hi ((lists_congr htrim).2 hl)
  | stray hb ho hi hn hc =>
    exact .stray (hblank hb) (hopens ho) hi (mt (isItem_congr htrim).1 hn) (mt (hcloses hi).1 hc)
  | header hb ho ho' hs => exact .header (hblank hb) (hopens ho) (hout ho') ((hsplits _ _).2 hs)
  | unread hb ho ho' hs =>
    refine .unread (hblank hb) (hopens ho) (hout ho') fun key value => ?_
    exact mt (hsplits key value).1 (hs key value)

end Same

section Padded
variable {indent l tail : Line}

theorem closes_padded (hindent : IsIndent indent) (htail : AllBlank tail)
    (h : indent = [] ∨ ¬ Closes l) : Closes (indent ++ l ++ tail) ↔ Closes l := by
  have htrim := trimChars_padded (l := l) hindent.allBlank htail
  cases indent with
  | nil =>
    cases l with
    | nil =>
      have hnil : AllBlank ([] ++ [] ++ tail) := by simpa using htail
      exact iff_of_false (fun hc => hc.1 hnil) fun hc => hc.1 allBlank_nil
    | cons c r =>
      have hhead : ([] ++ c :: r ++ tail).head? = (c :: r).head? := rfl
      rw [Closes, Closes, allBlank_congr htrim, opens_congr htrim, isItem_congr htrim, htrim, hhead]
  | cons c r =>
    have hclosed : ¬ Closes l := h.resolve_left (List.cons_ne_nil c r)
    refine iff_of_false (fun hc => ?_) hclosed
    rcases hindent c List.mem_cons_self with rfl | rfl
    · exact hc.2.2.2.1 rfl
    · exact hc.2.2.2.2.1 rfl

theorem roleOf_padded (hindent : IsIndent indent) (htail : AllBlank tail) {inside : Bool}
    (h : indent = [] ∨ ¬ (inside = true ∧ Closes l)) :
    roleOf inside (indent ++ l ++ tail) = roleOf inside l := by
  refine roleOf_congr (trimChars_padded hindent.allBlank htail)
    (headerOf?_padded hindent.allBlank htail) fun hinside => ?_
  exact closes_padded hindent htail (h.imp_right fun hc hcloses => hc ⟨hinside, hcloses⟩)

end Padded

theorem readLines_relaid {before lines lines' : List Line} (h : Relaid before lines lines')
    {inside : Bool} (hin : inside = true ↔ Inside before) (number number' : Nat) (q : Query) :
    (readLines number' inside q lines').1 = (readLines number inside q lines).1 ∧
      (readLines number' inside q lines').2.map IgnoredLine.told =
        (readLines number inside q lines).2.map IgnoredLine.told := by
  -- By induction on the layout: the step for each line keeps the section open or closed as it was.
  induction h generalizing inside number number' q with
  | nil => exact ⟨rfl, rfl⟩
  | insert hblank _ ih =>
    rw [readLines_cons number', roleOf_eq_iff.2 (.empty hblank)]
    exact ih hin number (number' + 1) q
  | @delete before lines lines' blank hblank _ ih =>
    have hin' := inside_step (p := ⟨inside, q, []⟩) hin blank
    rw [roleOf_eq_iff.2 (.empty hblank)] at hin'
    rw [readLines_cons number, roleOf_eq_iff.2 (.empty hblank)]
    exact ih hin' (number + 1) number' q
  | @line before lines lines' l indent tail hindent htail hcloses _ ih =>
    rw [← hin] at hcloses
    have hin' := inside_step (p := ⟨inside, q, []⟩) hin l
    obtain ⟨hquery, htold⟩ := ih hin' (number + 1) (number' + 1) ((roleOf inside l).apply q)
    rw [readLines_cons number', readLines_cons number, roleOf_padded hindent htail hcloses,
      trimChars_padded hindent.allBlank htail]
    refine ⟨hquery, ?_⟩
    simp only [List.map_append, htold]
    cases (roleOf inside l).part? <;> rfl

theorem readLines_succ (number : Nat) (inside : Bool) (q : Query) (lines : List Line) :
    readLines (number + 1) inside q lines =
      ((readLines number inside q lines).1,
        (readLines number inside q lines).2.map IgnoredLine.later) := by
  induction lines generalizing number inside q with
  | nil => rfl
  | cons l rest ih =>
    have hrest := ih (number + 1) ((roleOf inside l).inside inside) ((roleOf inside l).apply q)
    rw [readLines_cons (number + 1), readLines_cons number]
    simp only [hrest, List.map_append]
    cases (roleOf inside l).part? <;> rfl

theorem readLines_append (before rest : List Line) :
    readLines 1 false empty (before ++ rest) =
      let p := progress before
      let r := readLines (before.length + 1) p.inside p.query rest
      (r.1, p.ignored ++ r.2) := by
  obtain ⟨hq, hi⟩ := readLines_eq_foldl (before ++ rest) 1 {}
  obtain ⟨hq', hi'⟩ := readLines_eq_foldl rest (before.length + 1) (progress before)
  rw [List.zipIdx_append, List.foldl_append, Nat.add_comm 1] at hq hi
  rw [progress] at hq' hi'
  exact Prod.ext (hq.symm.trans hq') (hi.symm.trans hi')

theorem readWithIgnored_of_joined {text : String} {lines : List Line}
    (htext : text.toList = ['\n'].intercalate lines) (hlines : ∀ l ∈ lines, '\n' ∉ l) :
    readWithIgnored text = readLines 1 false empty lines := by
  rw [readWithIgnored, htext]
  cases lines with
  | nil => exact readLines_blank ..
  | cons l rest => rw [List.splitOn_intercalate '\n' hlines (List.cons_ne_nil l rest)]

theorem readLines_of_passedOver {before : List Line} {l : Line} {part : QueryPart}
    (h : PassedOver before l part) (hpart : ¬ (part = .header ∧ Inside before)) {inside : Bool}
    (hin : inside = true ↔ Inside before) (number : Nat) (q : Query) (rest : List Line) :
    readLines number inside q (l :: rest) =
      ((readLines number inside q rest).1, ⟨number, part, String.ofList (trimChars l)⟩ ::
        (readLines number inside q rest).2.map IgnoredLine.later) := by
  cases part with
  | filter =>
    obtain ⟨hb, ho, hopen, hn, hc⟩ := h
    obtain rfl : inside = true := hin.2 hopen
    have hrest := readLines_succ number true q rest
    rw [readLines_cons, roleOf_eq_iff.2 (.stray hb ho rfl hn hc)]
    simp only [Role.inside, Role.apply, hrest]
    rfl
  | header =>
    obtain ⟨⟨hb, ho, -⟩, hs⟩ := h
    obtain rfl : inside = false := Bool.eq_false_iff.2 fun hi => hpart ⟨rfl, hin.1 hi⟩
    have hrest := readLines_succ number false q rest
    rw [readLines_cons, roleOf_eq_iff.2 (.unread hb ho (.inl rfl) hs)]
    simp only [Role.inside, Role.apply, hrest]
    rfl

theorem Ignores.passedOver {before after : List Line} {l : Line} {line : IgnoredLine}
    (h : Ignores (before ++ l :: after) line) (hnumber : line.number = before.length + 1) :
    line.text = String.ofList (trimChars l) ∧ PassedOver before l line.part := by
  obtain ⟨before', l', after', hlines, hnumber', htext, hover⟩ := h
  have hlength : before'.length = before.length := by omega
  obtain ⟨rfl, hrest⟩ := List.append_inj hlines hlength.symm
  rw [List.cons.injEq] at hrest
  exact ⟨hrest.1 ▸ htext, hrest.1 ▸ hover⟩

/-- A text is read alike however it is laid out, and without a line that is passed over and closes
no section; the lines told of are the same then, but for their numbers. -/
theorem layout_means_nothing (text text' : String) :
    (Relaid [] (linesOf text) (linesOf text') →
      read text' = read text ∧
        (ignored text').map IgnoredLine.told = (ignored text).map IgnoredLine.told) ∧
    ∀ before l after line, linesOf text = before ++ l :: after → line ∈ ignored text →
      line.number = before.length + 1 → ¬ (line.part = .header ∧ Inside before) →
      text'.toList = ['\n'].intercalate (before ++ after) →
        read text' = read text ∧ ∃ told toldAfter,
          ignored text = told ++ line :: toldAfter.map IgnoredLine.later ∧
            ignored text' = told ++ toldAfter := by
  refine ⟨fun h => ?_, fun before l after line hlines hline hnumber hpart htext' => ?_⟩
  · have hin : false = true ↔ Inside [] := by simp [Inside]
    exact readLines_relaid h hin 1 1 empty
  · have hreads := (readWithIgnored_eq_iff text (read text) (ignored text)).1 rfl
    have hignores := (hreads.mem_ignored_iff line).1 hline
    rw [hlines] at hignores
    obtain ⟨htext, hover⟩ := hignores.passedOver hnumber
    have hplain : ∀ l' ∈ before ++ after, '\n' ∉ l' := fun l' hl' => by
      have hmem : l' ∈ linesOf text := by
        rw [hlines, List.mem_append, List.mem_cons]
        exact (List.mem_append.1 hl').imp_right .inr
      exact not_mem_line hmem
    have hskip := readLines_of_passedOver hover hpart (reads_progress before).1 line.number
      (progress before).query after
    have hread := readLines_append before (l :: after)
    simp only [← hlines, ← hnumber, hskip, ← htext] at hread
    have hread' := (readWithIgnored_of_joined htext' hplain).trans (readLines_append before after)
    simp only [← hnumber] at hread'
    refine ⟨?_, (progress before).ignored, _, congrArg Prod.snd hread, congrArg Prod.snd hread'⟩
    exact (congrArg Prod.fst hread').trans (congrArg Prod.fst hread).symm

theorem layout_means_nothing_crlf :
    let text := "filter:\n- from: ann\n ?\nfolder: INBOX"
    let laid := "\n\tfilter:\r\n  - from: ann\r\n ?\r\nfolder: INBOX\r"
    (read laid = read text ∧
      (ignored laid).map IgnoredLine.told = (ignored text).map IgnoredLine.told) ∧
    read "filter:\n- from: ann\nfolder: INBOX" = read text := by
  intro text laid
  have hlines : linesOf text =
      ["filter:".toList, "- from: ann".toList, " ?".toList, "folder: INBOX".toList] := by
    decide +kernel
  have hlaid : linesOf laid =
      [[], "\t".toList ++ "filter:".toList ++ "\r".toList,
        "  ".toList ++ "- from: ann".toList ++ "\r".toList, [] ++ " ?".toList ++ "\r".toList,
        [] ++ "folder: INBOX".toList ++ "\r".toList] := by
    decide +kernel
  have hrelaid : Relaid [] (linesOf text) (linesOf laid) := by
    rw [hlines, hlaid]
    have htail : AllBlank "\r".toList := by decide
    refine .insert allBlank_nil (.line (by decide) htail (.inr fun h => ?_)
      (.line (by decide) htail (.inr fun h => ?_)
        (.line (by decide) htail (.inl rfl) (.line (by decide) htail (.inl rfl) .nil))))
    · exact absurd h.2 (by decide +kernel)
    · exact absurd h.2 (by decide +kernel)
  refine ⟨(layout_means_nothing text laid).1 hrelaid, ?_⟩
  refine ((layout_means_nothing text _).2 ["filter:".toList, "- from: ann".toList] " ?".toList
    ["folder: INBOX".toList] ⟨3, .filter, "?"⟩ hlines ?_ rfl ?_ ?_).1
  · decide +kernel
  · exact fun h => absurd h.1 (by decide)
  · decide +kernel

end Query

end DavQuery
