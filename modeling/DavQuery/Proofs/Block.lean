import DavQuery.Block
import DavQuery.Proofs.Recording

/-! Blocks shown in place. A breach is the one thing that no block tells, and it happens on the
records of an answer only. Otherwise a block tells the outcome of the query, and getting it asks the
source for the same. -/

namespace DavQuery.Block

variable {σ : Type}

theorem ofOutcome_eq_error_iff {q : Query} {outcome : Except Failure (List String)} {b : Breach} :
    ofOutcome q outcome = .error b ↔ outcome = .error (.breach b) := by
  cases outcome with
  | ok items => simp [ofOutcome]
  | error f => cases f <;> simp [ofOutcome]

def answerTo (source : Source σ) (settings : Settings) (text : String) (s : σ) :
    Except Failure (List Record) :=
  (Executor.fetch source settings (Folder.normalize (Query.read text).folder)
    (source.noteAll ((Query.ignored text).map .ignored) s)).1

/-- The query of the text is carried out, and then the source breaks, or the query breaks on a
record of the answer. -/
def Escapes (source : Source σ) (here : Calendar.LocalTime) (settings : Settings) (text : String)
    (s : σ) : Prop :=
  (Query.read text).command = some Executor.listFiles ∧ settings.isComplete = true ∧
    ((∃ b, answerTo source settings text s = .error (.breach b)) ∨
      ∃ records, answerTo source settings text s = .ok records ∧
        ∃ r ∈ records, (Query.read text).BreaksOn here r)

theorem render_of_unknown {text : String} (h : (Query.read text).command ≠ some Executor.listFiles)
    (source : Source σ) (here : Calendar.LocalTime) (settings : Settings) (s : σ) :
    render source here settings text s =
      (.ok unknownCommand, source.noteAll ((Query.ignored text).map .ignored) s) := by
  unfold render
  exact if_pos h

theorem render_of_listFiles {text : String}
    (h : (Query.read text).command = some Executor.listFiles) (source : Source σ)
    (here : Calendar.LocalTime) (settings : Settings) (s : σ) :
    render source here settings text s =
      (ofOutcome (Query.read text) (Executor.run source here settings text s).1,
        source.noteAll (notesOf (Executor.run source here settings text s).1)
          (Executor.run source here settings text s).2) := by
  unfold render
  exact if_neg (not_not.2 h)

/-- A block is given exactly if no breach happens. -/
theorem exists_render_eq_ok_iff (source : Source σ) (here : Calendar.LocalTime)
    (settings : Settings) (text : String) (s : σ) :
    (∃ block, (render source here settings text s).1 = .ok block) ↔
      ¬ Escapes source here settings text s := by
  have hno : (∃ block, (render source here settings text s).1 = .ok block) ↔
      ¬ ∃ b, (render source here settings text s).1 = .error b := by
    cases (render source here settings text s).1 <;> simp
  rw [hno, not_iff_not]
  by_cases h : (Query.read text).command = some Executor.listFiles
  · rw [render_of_listFiles h, Executor.run_eq]
    simp only [ofOutcome_eq_error_iff]
    exact Executor.exists_execute_eq_breach_iff _
  · rw [render_of_unknown h]
    simp [Escapes, h]

/-- The query of the text is carried out at noon of a spring day, and no block is given: the unit
of the bound begins with a long s. -/
theorem render_eq_error_of_long_s :
    (render (Source.traced fun _ => .ok [{
        name := "a.txt", path := "/a.txt", size := 5, modified := "Fri, 10 Oct 2025 08:30:00 GMT" }])
      ⟨.utc, ⟨⟨2025, 3, 15, by decide⟩, ⟨12, 0, 0, 0, by decide⟩⟩⟩
      (.ofTexts "https://cloud.example.com" "user" "password")
      "command: List Files\nfilter:\n  - modifiedafter: now - 1 ſecond" {}).1 =
        .error (.date .unitSpelling) := by
  decide +kernel

theorem ofOutcome_eq_items_iff {q : Query} {outcome : Except Failure (List String)}
    {items : List String} (h : items ≠ []) :
    ofOutcome q outcome = .ok ⟨items, none, q.noBullets, false⟩ ↔ outcome = .ok items := by
  cases outcome with
  | ok xs =>
    cases xs with
    | nil => simp [ofOutcome, ofItems, Ne.symm h]
    | cons x xs => simp [ofOutcome, ofItems]
  | error f => cases f <;> simp [ofOutcome, ofFailure]

theorem ofOutcome_eq_noResults_iff {q : Query} {outcome : Except Failure (List String)} :
    ofOutcome q outcome = .ok ⟨[], some noResults, q.noBullets, false⟩ ↔ outcome = .ok [] := by
  cases outcome with
  | ok xs => cases xs <;> simp [ofOutcome, ofItems]
  | error f => cases f <;> simp [ofOutcome, ofFailure]

theorem ofOutcome_eq_failure_iff {q : Query} {outcome : Except Failure (List String)}
    {message : String} :
    ofOutcome q outcome = .ok ⟨[], some ("Error: " ++ message), q.noBullets, true⟩ ↔
      ∃ f, outcome = .error f ∧ (∀ b, f ≠ .breach b) ∧ f.message = message := by
  cases outcome with
  | ok xs => cases xs <;> simp [ofOutcome, ofItems]
  | error f => cases f <;> simp [ofOutcome, ofFailure, Failure.message]

theorem render_recorded (source : Source σ) (here : Calendar.LocalTime) (settings : Settings)
    (text : String) (s : σ) (calls : List Call) :
    render source.recorded here settings text (s, calls) =
      ((render source here settings text s).1, (render source here settings text s).2,
        (Executor.run source.recorded here settings text (s, calls)).2.2) := by
  by_cases h : (Query.read text).command = some Executor.listFiles
  · rw [render_of_listFiles h, render_of_listFiles h, Executor.run_recorded,
      Source.noteAll_recorded]
  · rw [render_of_unknown h, render_of_unknown h, Executor.run_recorded,
      Executor.callsOf_of_unknown h, Source.noteAll_recorded, List.append_nil]

/-- What a run of the text gives, and what is shown for it in place. -/
structure Agree (q : Query) (ran : Except Failure (List String)) (shown : Except Breach Block) :
    Prop where
  items_iff : ∀ items, items ≠ [] →
    (ran = .ok items ↔ shown = .ok ⟨items, none, q.listStyle = some "none", false⟩)
  noResults_iff : ran = .ok [] ↔
    shown = .ok ⟨[], some "No files found matching criteria.", q.listStyle = some "none", false⟩
  failure_iff : ∀ message,
    (∃ f, ran = .error f ∧ (∀ b, f ≠ .breach b) ∧ f.message = message) ↔
      shown = .ok ⟨[], some ("Error: " ++ message), q.listStyle = some "none", true⟩
  breach_iff : ∀ b, ran = .error (.breach b) ↔ shown = .error b

theorem noBullets_eq (q : Query) : q.noBullets = decide (q.listStyle = some "none") := by
  rw [Query.noBullets, Bool.eq_iff_iff, beq_iff_eq, decide_eq_true_iff]

theorem agree_ofOutcome (q : Query) (outcome : Except Failure (List String)) :
    Agree q outcome (ofOutcome q outcome) where
  items_iff items h := by
    rw [← noBullets_eq, ofOutcome_eq_items_iff h]
  noResults_iff := by
    rw [← noBullets_eq, ← ofOutcome_eq_noResults_iff]
    rfl
  failure_iff message := by
    rw [← noBullets_eq, ofOutcome_eq_failure_iff]
  breach_iff b := ofOutcome_eq_error_iff.symm

/-- A text that is run and a text that is shown in place come to the same: without the one command
both say so and ask the source for nothing, and with it the block tells the outcome. The source is
asked for the same in the same order. -/
theorem render_agrees_run (source : Source σ) (here : Calendar.LocalTime) (settings : Settings)
    (text : String) (s : σ) :
    ((Query.read text).command ≠ some "List Files" →
      (Executor.run source here settings text s).1 = .error .unknownCommand ∧
        (render source here settings text s).1 =
          .ok ⟨[], some "Unknown command or missing parameters.", false, true⟩ ∧
        (Executor.run source.recorded here settings text (s, [])).2.2 = []) ∧
    ((Query.read text).command = some "List Files" →
      Agree (Query.read text) (Executor.run source here settings text s).1
        (render source here settings text s).1) ∧
    (render source.recorded here settings text (s, [])).2.2 =
      (Executor.run source.recorded here settings text (s, [])).2.2 := by
  refine ⟨fun h => ⟨Executor.run_of_unknown h .., ?_, ?_⟩, fun h => ?_, ?_⟩
  · rw [render_of_unknown h]
    rfl
  · rw [Executor.run_recorded, Executor.callsOf_of_unknown h, List.append_nil]
  · rw [render_of_listFiles h]
    exact agree_ofOutcome ..
  · rw [render_recorded]

end DavQuery.Block
