import DavQuery.Proofs.Recording

/-! Queries carried out one after the other on one source. Each ends in one of a few ways, and its
calls are told by the way it ends. If the answers of the source depend on the folder only, a query
ends as it would alone, and the calls of all queries are those of each, put together. -/

namespace DavQuery

variable {σ : Type} {source : Source σ} {answer : String → Except Failure (List Record)}
  {here : Calendar.LocalTime} {settings : Settings} {q : Query}

/-- The source can always be connected to, and its answers depend on the folder only. -/
structure Source.AnswersByFolder (source : Source σ)
    (answer : String → Except Failure (List Record)) : Prop where
  connect : ∀ settings s, (source.connect settings s).1 = .ok ()
  list : ∀ folder s, (source.list folder s).1 = answer folder

theorem Source.AnswersByFolder.recorded (h : source.AnswersByFolder answer) :
    source.recorded.AnswersByFolder answer where
  connect settings s := h.connect settings s.1
  list folder s := h.list folder s.1

theorem Source.answersByFolder_traced (answer : String → Except Failure (List Record)) :
    (Source.traced answer).AnswersByFolder answer where
  connect _ _ := rfl
  list _ _ := rfl

namespace Query

/-- The record meets all criteria of the query; every record does if there are none. -/
def Keeps (here : Calendar.LocalTime) (q : Query) (r : Record) : Prop :=
  ∀ c ∈ q.criteria.getD [], c.holds here r = .ok true

instance (here : Calendar.LocalTime) (q : Query) : DecidablePred (q.Keeps here) :=
  fun _ => List.decidableBAll _ _

end Query

namespace Executor

/-- The query can be carried out with the settings. -/
def Passes (settings : Settings) (q : Query) : Prop :=
  q.command = some "List Files" ∧ settings.isComplete = true

def fullCalls (settings : Settings) (q : Query) : List Call :=
  [.connect settings, .list (Folder.normalize q.folder), .close]

/-- How a query ends, and the calls that it makes. -/
inductive Ends (answer : String → Except Failure (List Record)) (here : Calendar.LocalTime)
    (settings : Settings) (q : Query) : Except Failure (List String) → List Call → Prop
  | unknown : q.command ≠ some "List Files" →
      Ends answer here settings q (.error .unknownCommand) []
  | notConfigured : q.command = some "List Files" → settings.isComplete = false →
      Ends answer here settings q (.error .notConfigured) []
  | notListed {f : Failure} : Passes settings q →
      answer (Folder.normalize q.folder) = .error f →
      Ends answer here settings q (.error f) (fullCalls settings q)
  | broken {records : List Record} {b : Breach} : Passes settings q →
      answer (Folder.normalize q.folder) = .ok records → (∃ r ∈ records, q.BreaksOn here r) →
      Ends answer here settings q (.error (.breach b)) (fullCalls settings q)
  | written {records : List Record} {texts : List String} : Passes settings q →
      answer (Folder.normalize q.folder) = .ok records → (∀ r ∈ records, ¬ q.BreaksOn here r) →
      List.Forall₂ (fun r text => Template.expandOr here.zone q.format r = .ok text)
        (records.filter fun r => q.Keeps here r) texts →
      Ends answer here settings q (.ok texts) (fullCalls settings q)

theorem passes_iff : Passes settings q ↔ check settings q = .ok () := check_eq_ok_iff.symm

theorem fetch_outcome (h : source.AnswersByFolder answer) (folder : String) (s : σ) :
    (fetch source settings folder s).1 = answer folder := by
  have hconnect := h.connect settings s
  rcases hs : source.connect settings s with ⟨outcome, s'⟩
  rw [hs] at hconnect
  obtain rfl : outcome = .ok () := hconnect
  rw [fetch, hs]
  exact h.list folder s'

theorem fetchCalls_eq (h : source.AnswersByFolder answer) (folder : String) (s : σ) :
    fetchCalls source settings folder s = [.connect settings, .list folder, .close] := by
  rw [fetchCalls, h.connect]

theorem callsOf_of_passes (h : source.AnswersByFolder answer) (hq : Passes settings q) (s : σ) :
    callsOf source settings q s = fullCalls settings q := by
  rw [callsOf, passes_iff.1 hq, fullCalls]
  exact fetchCalls_eq h _ s

theorem select_eq_filter {records kept : List Record} (h : keep here q records = .ok kept) :
    kept = records.filter fun r => q.Keeps here r := by
  rw [keep_eq_select, Selection.select_eq_ok_iff] at h
  rw [h.2]
  refine List.filter_congr fun r _ => ?_
  rw [decide_eq_decide]
  exact Record.meets_eq_true_iff

theorem present_ends (hq : Passes settings q) {records : List Record}
    (hanswer : answer (Folder.normalize q.folder) = .ok records) (s : σ) :
    Ends answer here settings q (present source here q (Folder.normalize q.folder) records s).1
      (fullCalls settings q) := by
  have hbreak : (∃ b, (present source here q (Folder.normalize q.folder) records s).1 =
      .error (.breach b)) ↔ ∃ r ∈ records, q.BreaksOn here r :=
    exists_present_eq_breach_iff _ records s
  cases hkeep : keep here q records with
  | error b =>
    rw [present_of_keep_error hkeep] at hbreak ⊢
    exact .broken hq hanswer (hbreak.1 ⟨b, rfl⟩)
  | ok kept =>
    have hpresent : (present source here q (Folder.normalize q.folder) records s).1 =
        (write here q kept).mapError .breach := by
      simp [present, hkeep]
    rw [hpresent] at hbreak ⊢
    cases hwrite : write here q kept with
    | error b =>
      rw [hwrite] at hbreak
      exact .broken hq hanswer (hbreak.1 ⟨b, rfl⟩)
    | ok texts =>
      rw [hwrite] at hbreak
      have hno : ∀ r ∈ records, ¬ q.BreaksOn here r := fun r hr hb => by
        simpa [Except.mapError] using hbreak.2 ⟨r, hr, hb⟩
      refine .written hq hanswer hno ?_
      rw [← select_eq_filter hkeep]
      exact mapM_eq_ok_iff.1 hwrite

theorem execute_ends (h : source.AnswersByFolder answer) (s : σ) :
    Ends answer here settings q (execute source here settings q s).1
      (callsOf source settings q s) := by
  by_cases hcommand : q.command = some "List Files"
  · cases hcomplete : settings.isComplete with
    | false =>
      have hcheck : check settings q = .error .notConfigured := by
        simp [check, listFiles, hcommand, hcomplete]
      rw [execute_of_unchecked hcheck, callsOf, hcheck]
      exact .notConfigured hcommand hcomplete
    | true =>
      have hq : Passes settings q := ⟨hcommand, hcomplete⟩
      have hanswer : (fetch source settings (Folder.normalize q.folder) s).1 = _ :=
        fetch_outcome h _ s
      rw [callsOf_of_passes h hq]
      rcases hfetch : fetch source settings (Folder.normalize q.folder) s with ⟨outcome, s'⟩
      rw [hfetch] at hanswer
      cases outcome with
      | error f =>
        rw [execute_of_fetch_error (passes_iff.1 hq) hfetch]
        exact .notListed hq hanswer.symm
      | ok records =>
        rw [execute_of_fetch_ok (passes_iff.1 hq) hfetch]
        exact present_ends hq hanswer.symm s'
  · rw [execute_of_unchecked (if_pos hcommand), callsOf_of_unknown hcommand]
    exact .unknown hcommand

theorem present_outcome_eq {τ : Type} (other : Source τ) (folder : String) (records : List Record)
    (s : σ) (t : τ) :
    (present source here q folder records s).1 = (present other here q folder records t).1 := by
  unfold present
  cases keep here q records <;> rfl

theorem execute_outcome_eq {τ : Type} {other : Source τ} (h : source.AnswersByFolder answer)
    (h' : other.AnswersByFolder answer) (s : σ) (t : τ) :
    (execute source here settings q s).1 = (execute other here settings q t).1 := by
  cases hcheck : check settings q with
  | error f => rw [execute_of_unchecked hcheck, execute_of_unchecked hcheck]
  | ok u =>
    have hs : (fetch source settings (Folder.normalize q.folder) s).1 = _ :=
      fetch_outcome h _ s
    have ht : (fetch other settings (Folder.normalize q.folder) t).1 = _ :=
      fetch_outcome h' _ t
    rcases hfs : fetch source settings (Folder.normalize q.folder) s with ⟨outcome, s'⟩
    rcases hft : fetch other settings (Folder.normalize q.folder) t with ⟨outcome', t'⟩
    rw [hfs] at hs
    rw [hft] at ht
    obtain rfl : outcome' = outcome := ht.trans hs.symm
    cases outcome' with
    | error f => rw [execute_of_fetch_error hcheck hfs, execute_of_fetch_error hcheck hft]
    | ok records =>
      rw [execute_of_fetch_ok hcheck hfs, execute_of_fetch_ok hcheck hft]
      exact present_outcome_eq ..

theorem callsOf_eq (h : source.AnswersByFolder answer) (q : Query) (s t : σ) :
    callsOf source settings q s = callsOf source settings q t := by
  unfold callsOf
  cases check settings q with
  | error f => rfl
  | ok u => rw [fetchCalls_eq h, fetchCalls_eq h]

theorem run_ends (h : source.AnswersByFolder answer) (text : String) (s : σ) :
    Ends answer here settings (Query.read text)
      (run source.recorded here settings text (s, [])).1
      (run source.recorded here settings text (s, [])).2.2 := by
  rw [run_recorded, run_eq, List.nil_append]
  exact execute_ends h _

theorem run_outcome_eq {τ : Type} {other : Source τ} (h : source.AnswersByFolder answer)
    (h' : other.AnswersByFolder answer) (text : String) (s : σ) (t : τ) :
    (run source here settings text s).1 = (run other here settings text t).1 := by
  rw [run_eq, run_eq]
  exact execute_outcome_eq h h' _ _

theorem run_calls_eq (h : source.AnswersByFolder answer) (text : String) (s fresh : σ)
    (calls : List Call) :
    (run source.recorded here settings text (s, calls)).2.2 =
      calls ++ (run source.recorded here settings text (fresh, [])).2.2 := by
  rw [run_recorded, run_recorded, List.nil_append, callsOf_eq h]

theorem runAll_outcomes_eq {τ : Type} {other : Source τ} (h : source.AnswersByFolder answer)
    (h' : other.AnswersByFolder answer) (texts : List String) (s : σ) (fresh : τ) :
    (runAll source here settings texts s).1 =
      texts.map fun text => (run other here settings text fresh).1 := by
  induction texts generalizing s with
  | nil => rfl
  | cons text texts ih =>
    rw [List.map_cons, ← ih, ← run_outcome_eq h h' text s fresh]
    rfl

theorem runAll_calls_eq (h : source.AnswersByFolder answer) (texts : List String) (s fresh : σ)
    (calls : List Call) :
    (runAll source.recorded here settings texts (s, calls)).2.2 =
      calls ++ texts.flatMap fun text =>
        (run source.recorded here settings text (fresh, [])).2.2 := by
  induction texts generalizing s calls with
  | nil => simp [runAll]
  | cons text texts ih =>
    rw [List.flatMap_cons, ← List.append_assoc, ← run_calls_eq h text s fresh]
    exact ih ..

/-- Texts that are run in turn are independent: their outcomes and calls are those that each has
when it is run alone, and alone each ends in one of the ways. -/
theorem runAll_independent (h : source.AnswersByFolder answer) (here : Calendar.LocalTime)
    (settings : Settings) (texts : List String) (s fresh : σ) :
    (runAll source here settings texts s).1 =
        texts.map (fun text => (run source here settings text fresh).1) ∧
      (runAll source.recorded here settings texts (s, [])).1 =
        (runAll source here settings texts s).1 ∧
      (runAll source.recorded here settings texts (s, [])).2.2 =
        texts.flatMap (fun text => (run source.recorded here settings text (fresh, [])).2.2) ∧
      ∀ text ∈ texts, Ends answer here settings (Query.read text)
        (run source here settings text fresh).1
        (run source.recorded here settings text (fresh, [])).2.2 := by
  refine ⟨runAll_outcomes_eq h h .., ?_, runAll_calls_eq h .., fun text _ => ?_⟩
  · rw [runAll_outcomes_eq h.recorded h texts (s, []) s, runAll_outcomes_eq h h texts s s]
  · rw [← run_outcome_eq h.recorded h text (fresh, []) fresh]
    exact run_ends h text fresh

theorem runAll_independent_three :
    let answer (folder : String) : Except Failure (List Record) :=
      if folder = "/a" then .ok [{ name := "b.txt", size := 2 }, { name := "c.txt", size := 5 }]
      else .error (.badStatus 404)
    let settings := Settings.ofTexts "https://cloud.example.com" "user" "password"
    let texts := ["command: Files", "command: List Files\nfolder: a\nfilter:\n - minsize: 3",
      "command: List Files\nfolder: b/"]
    let here : Calendar.LocalTime :=
      ⟨.utc, ⟨⟨2025, 3, 15, by decide⟩, ⟨12, 0, 0, 0, by decide⟩⟩⟩
    (Source.traced answer).AnswersByFolder answer ∧
      (runAll (Source.traced answer) here settings texts {}).1 =
        [.error .unknownCommand, .ok ["c.txt"], .error (.badStatus 404)] ∧
      (runAll (Source.traced answer).recorded here settings texts ({}, [])).2.2 =
        [.connect settings, .list "/a", .close, .connect settings, .list "/b", .close] := by
  intro answer settings texts here
  have h : (Source.traced answer).AnswersByFolder answer := Source.answersByFolder_traced answer
  obtain ⟨houtcomes, -, hcalls, -⟩ := runAll_independent h here settings texts {} {}
  exact ⟨h, houtcomes.trans (by decide +kernel), hcalls.trans (by rfl)⟩

end Executor
end DavQuery
