import DavQuery.Command.Execute
import DavQuery.Command.Standard
import DavQuery.Proofs.Query.Printable

/-! The words of a listing and of a query. What is asked of a shell is that it reads them in the
usual way: an option that takes a value takes the next word, whatever that word is, and the words
that are left name the folder or the file. -/

namespace DavQuery.Command
open Text Query

def criterionWord (c : Criterion) : String := c.key ++ "=" ++ c.value

def criteriaWords (criteria : List Criterion) : List RawText :=
  criteria.flatMap fun c => [RawText.ofString "-F", RawText.ofString (criterionWord c)]

/-- The words that ask for the records of the folder which meet the criteria, by the template. -/
def listWords (folder template : String) (criteria : List Criterion) : List RawText :=
  RawText.ofString "list" :: RawText.ofString folder :: RawText.ofString "-f" ::
    RawText.ofString template :: criteriaWords criteria

/-- How words of listings and queries are read. -/
structure Shell.Conventional (shell : Shell) : Prop where
  list : ∀ folder template criteria, folder.toList.head? ≠ some '-' →
    shell.read (listWords folder template criteria) =
      .order false (.list folder (some (RawText.ofString template))
        (criteria.map fun c => RawText.ofString (criterionWord c)))
  run : shell.read ["run"] = .order false (.run none none)
  run_hyphen : shell.read ["run", "-"] = .order false (.run (some (RawText.ofString "-")) none)
  run_file : ∀ path : RawText, path.head? ≠ some (.char '-') →
    shell.read ["run", path] = .order false (.run (some path) none)
  run_query : ∀ query, shell.read ["run", "-q", query] = .order false (.run none (some query))

section
variable {known : List OptionName} {mixed : Bool} {word value : RawText} {r : List RawText}

theorem readWords_of_waiting {o : OptionName} (hword : isOption word = true)
    (hend : word ≠ RawText.ofString "--")
    (hread : readOption known word = some { waiting := some o }) :
    readWords known mixed (word :: value :: r) =
      (readWords known mixed r).map fun p => ((o, value) :: p.1, p.2) := by
  rw [readWords.eq_def]
  simp only [hend, hword, hread, if_false, if_true, List.nil_append]

theorem readWords_of_head? (hword : word.head? ≠ some (.char '-')) :
    readWords known true (word :: r) =
      (readWords known true r).map fun p => (p.1, word :: p.2) := by
  have hoption : isOption word = false := by simp [isOption, hword]
  have hend : word ≠ RawText.ofString "--" := by
    rintro rfl
    exact hword rfl
  rw [readWords.eq_def]
  simp [hend, hoption]

end

def formatOption : OptionName := ⟨"--format", some 'f', true⟩

def filterOption : OptionName := ⟨"--filter", some 'F', true⟩

def queryOption : OptionName := ⟨"--query", some 'q', true⟩

variable {folder template : String} {criteria : List Criterion}

def givenCriteria (criteria : List Criterion) : List Given :=
  criteria.map fun c => (filterOption, RawText.ofString (criterionWord c))

theorem readWords_criteria (criteria : List Criterion) :
    readWords listOptions true (criteriaWords criteria) = some (givenCriteria criteria, []) := by
  induction criteria with
  | nil => rfl
  | cons c criteria ih =>
    have hwords : criteriaWords (c :: criteria) = RawText.ofString "-F" ::
        RawText.ofString (criterionWord c) :: criteriaWords criteria := rfl
    rw [hwords, readWords_of_waiting (o := filterOption) (by decide) (by decide) (by decide), ih]
    rfl

theorem readLine_of_run (words : List RawText) :
    readLine (RawText.ofString "run" :: words) = readCommand false runOptions 1 words
      fun given rest => .run rest.head? (valueOf? given "--query") := by
  have hgeneral : readWords generalOptions false (RawText.ofString "run" :: words) =
      some ([], RawText.ofString "run" :: words) := by
    rw [readWords.eq_def]
    rfl
  rw [readLine, hgeneral]
  rfl

theorem readLine_of_list (words : List RawText) :
    readLine (RawText.ofString "list" :: words) = readCommand false listOptions 1 words
      fun given rest => .list (rest.headD (RawText.ofString "/")) (valueOf? given "--format")
        (valuesOf given "--filter") := by
  have hgeneral : readWords generalOptions false (RawText.ofString "list" :: words) =
      some ([], RawText.ofString "list" :: words) := by
    rw [readWords.eq_def]
    rfl
  rw [readLine, hgeneral]
  rfl

theorem readLine_listWords (hfolder : folder.toList.head? ≠ some '-') :
    readLine (listWords folder template criteria) =
      .order false (.list folder (some (RawText.ofString template))
        (criteria.map fun c => RawText.ofString (criterionWord c))) := by
  have hhead : (RawText.ofString folder).head? ≠ some (.char '-') := by
    simpa [RawText.ofString, RawText.ofChars] using hfolder
  have hread : readWords listOptions true (RawText.ofString folder :: RawText.ofString "-f" ::
      RawText.ofString template :: criteriaWords criteria) =
        some ((formatOption, RawText.ofString template) :: givenCriteria criteria,
          [RawText.ofString folder]) := by
    rw [readWords_of_head? hhead,
      readWords_of_waiting (o := formatOption) (by decide) (by decide) (by decide),
      readWords_criteria]
    rfl
  have hformat : valueOf? ((formatOption, RawText.ofString template) :: givenCriteria criteria)
      "--format" = some (RawText.ofString template) := by
    simp [valueOf?, givenCriteria, formatOption, filterOption, List.filter_map, Function.comp_def]
  have hfilters : valuesOf ((formatOption, RawText.ofString template) :: givenCriteria criteria)
      "--filter" = criteria.map fun c => RawText.ofString (criterionWord c) := by
    simp [valuesOf, givenCriteria, formatOption, filterOption, List.filter_map, Function.comp_def]
  have hhelp : ((formatOption, RawText.ofString template) :: givenCriteria criteria).any
      (·.1 = helpOption) = false := by
    simp [givenCriteria, formatOption, filterOption, helpOption]
  rw [listWords, readLine_of_list, readCommand, hread]
  simp only [hhelp, hformat, hfilters]
  rfl

theorem Shell.standard_conventional : Shell.standard.Conventional where
  list _ _ _ := readLine_listWords
  run := by
    refine (readLine_of_run []).trans ?_
    rfl
  run_hyphen := by
    refine (readLine_of_run [RawText.ofString "-"]).trans ?_
    decide
  run_file path hpath := by
    refine (readLine_of_run [path]).trans ?_
    rw [readCommand, readWords_of_head? hpath]
    rfl
  run_query query := by
    refine (readLine_of_run [RawText.ofString "-q", query]).trans ?_
    rw [readCommand, readWords_of_waiting (o := queryOption) (by decide) (by decide) (by decide)]
    rfl

theorem readCriteria_criterionWord (h : ∀ c ∈ criteria, CriterionFits c) :
    readCriteria (criteria.map criterionWord) = .ok criteria := by
  induction criteria with
  | nil => rfl
  | cons c criteria ih =>
    rw [List.forall_mem_cons] at h
    have hmark : '=' ∉ c.key.toList := fun hm => absurd (h.1.2.1 _ hm) (by decide)
    have hcut : cutFirst '=' (criterionWord c).toList = some (c.key.toList, c.value.toList) := by
      have e : (criterionWord c).toList = c.key.toList ++ '=' :: c.value.toList := by
        simp [criterionWord]
      rw [e, cutFirst_append hmark]
    rw [List.map_cons, readCriteria, hcut, ih h.2]
    simp only [(trimmed_of_word h.1.2.1).trimChars_eq, h.1.2.2.2.1.trimChars_eq,
      String.ofList_toList]
    rfl

end DavQuery.Command
