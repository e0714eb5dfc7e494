import DavQuery.Proofs.Block
import DavQuery.Proofs.Command.Report

/-! The commands that need the settings. Without an address, a name and a password they refuse with
one and the same outcome; with them they ask the server, or break off on the way there. -/

namespace DavQuery
open Http

/-- It has been noted that the server is asked. -/
def Http.Wire.Asked (w : Wire) : Prop := ∃ url depth, Note.request url depth ∈ w.notes

namespace Http.Wire.Asked
variable {w : Wire}

theorem noteAll (h : w.Asked) (ns : List Note) : (w.noteAll ns).Asked := by
  obtain ⟨url, depth, h⟩ := h
  exact ⟨url, depth, List.mem_append_left ns h⟩

theorem note (h : w.Asked) (n : Note) : (w.note n).Asked := h.noteAll [n]

theorem add (h : w.Asked) (requests : List Request) : (w.add requests).Asked := h

end Http.Wire.Asked

variable {κ : Type}

namespace Client
variable (e : Remote κ) (c : Client κ) (w : Wire)

theorem propfind_asked (url depth : RawText) (body : Option RawText) :
    (c.propfind e w url depth body).2.2.Asked := by
  have hnoted : (w.note (.request url depth)).Asked := ⟨url, depth, by simp [Wire.note]⟩
  unfold propfind
  cases c.connection e.agent with
  | error b => exact hnoted
  | ok k =>
    cases url.text? with
    | none => exact hnoted
    | some address => exact hnoted.add _

theorem readListing_asked {w : Wire} (h : w.Asked) (url : RawText) (folder : String)
    (r : Response) : (readListing e url folder r w).2.Asked := by
  unfold readListing
  split_ifs
  · exact h
  · cases e.agent.text r with
    | error b => exact h
    | ok text =>
      cases url.chars?.bind Url.Reference.read? with
      | none => exact h
      | some ref =>
        dsimp only
        cases Listing.records e.parse text (String.ofList ref.path) with
        | error f => exact h.noteAll _
        | ok records => exact (h.noteAll _).note _

theorem listFolder_asked (folder : String) : (c.listFolder e w folder).2.2.Asked := by
  have hasked := propfind_asked e c w (c.folderUrl folder) "1" (some listingBody)
  unfold listFolder
  dsimp only
  generalize c.propfind e w (c.folderUrl folder) "1" (some listingBody) = use at hasked ⊢
  rcases use with ⟨f | r, c', w'⟩
  · exact hasked
  · exact readListing_asked e hasked ..

theorem listRecords_asked (folder : String) : (c.listRecords e w folder).2.2.Asked := by
  simpa [listRecords] using listFolder_asked e c w folder

theorem checkConnection_asked : (c.checkConnection e w).2.2.Asked := by
  have hasked := propfind_asked e c w (c.baseUrl ++ RawText.ofString "/") "1" none
  unfold checkConnection
  generalize c.propfind e w (c.baseUrl ++ RawText.ofString "/") "1" none = use at hasked ⊢
  rcases use with ⟨f | r, c', w'⟩ <;> exact hasked

end Client

theorem Source.noteAll_ofRemote_asked (e : Remote κ) {s : Session κ} (h : s.wire.Asked)
    (notes : List Note) : ((ofRemote e).noteAll notes s).wire.Asked := by
  rw [noteAll_ofRemote_wire]
  exact h.noteAll notes

namespace Executor

variable (e : Remote κ) {here : Calendar.LocalTime} {settings : Settings} {q : Query}

theorem fetch_ofRemote_asked (settings : Settings) (folder : String) (s : Session κ) :
    (∃ b, (fetch (.ofRemote e) settings folder s).1 = .error (.breach b)) ∨
      (fetch (.ofRemote e) settings folder s).2.wire.Asked := by
  unfold fetch
  simp only [Source.ofRemote]
  cases Client.ofSettings settings with
  | error b => exact .inl ⟨b, rfl⟩
  | ok c => exact .inr (c.listRecords_asked e s.wire folder)

theorem present_ofRemote_asked {s : Session κ} (h : s.wire.Asked) (folder : String)
    (records : List Record) :
    (present (.ofRemote e) here q folder records s).2.wire.Asked := by
  have hnoted := Source.noteAll_ofRemote_asked e h (keepNotes here q records)
  unfold present
  dsimp only
  cases keep here q records with
  | error b => exact hnoted
  | ok kept => exact hnoted.note _

theorem execute_ofRemote_asked (h : check settings q = .ok ()) (s : Session κ) :
    (∃ b, (execute (.ofRemote e) here settings q s).1 = .error (.breach b)) ∨
      (execute (.ofRemote e) here settings q s).2.wire.Asked := by
  have hfetched := fetch_ofRemote_asked e settings (Folder.normalize q.folder) s
  rcases hfetch : fetch (.ofRemote e) settings (Folder.normalize q.folder) s
    with ⟨f | records, s'⟩ <;> rw [hfetch] at hfetched
  · rw [execute_of_fetch_error h hfetch]
    simpa using hfetched
  · rw [execute_of_fetch_ok h hfetch]
    exact .inr (present_ofRemote_asked e (hfetched.resolve_left (by simp)) ..)

end Executor

namespace Command

variable {shell : Shell} {w : World κ} {settings : Settings}

/-- The server has been asked, or the command has broken off. -/
def Outcome.Underway (o : Outcome) : Prop := (∃ b, o.exit = .breach b) ∨ o.wire.Asked

/-- A command that refuses with an outcome if the settings are not complete, and goes on if they
are. -/
structure Gated (settings : Settings) (refusal o : Outcome) : Prop where
  refused : settings.isComplete = false → o = refusal
  underway : settings.isComplete = true → o.Underway

theorem Gated.ne_refusal_iff {refusal o : Outcome} (h : Gated settings refusal o)
    (hrefusal : ¬ refusal.Underway) : o ≠ refusal ↔ settings.isComplete = true := by
  constructor
  · intro hne
    by_contra hincomplete
    exact hne (h.refused (by simpa using hincomplete))
  · rintro hcomplete rfl
    exact hrefusal (h.underway hcomplete)

theorem error_not_underway (hshell : shell.OnUtf8) (text : RawText) (notes : List Note)
    (hnotes : ∀ url depth, Note.request url depth ∉ notes) :
    ¬ ((Outcome.error shell text).on { notes }).Underway := by
  rintro (⟨b, hb⟩ | ⟨url, depth, hnoted⟩)
  · exact absurd ((error_exit hshell text).symm.trans hb) (by simp)
  · exact hnotes url depth hnoted

theorem notSaved_not_underway (hshell : shell.OnUtf8) : ¬ (notSaved shell).Underway := by
  have h : notSaved shell = (notSaved shell).on { notes := [] } := by
    rw [Outcome.on, ← error_wire shell]
    rfl
  rw [h]
  exact error_not_underway hshell _ [] (by simp)

/-- The outcome of a query of the text that fails because the settings are not complete. -/
def unconfigured (shell : Shell) (text : String) : Outcome :=
  (Outcome.error shell ("Error: " ++ Failure.notConfigured.message)).on
    { notes := (Query.ignored text).map .ignored ++ [.failed Failure.notConfigured.message] }

theorem unconfigured_not_underway (hshell : shell.OnUtf8) (text : String) :
    ¬ (unconfigured shell text).Underway :=
  error_not_underway hshell _ _ (by simp)

theorem breach_underway (b : Breach) (wire : Wire) : ((Outcome.breach b).on wire).Underway :=
  .inl ⟨b, rfl⟩

theorem ofFailure_underway {wire : Wire} (h : wire.Asked) (announce : Failure → String)
    (f : Failure) : ((ofFailure shell announce f).on wire).Underway := by
  cases f <;> exact .inr h

theorem test_gated (h : w.slot.settings w.below = .ok settings) :
    Gated settings (notSaved w.shell) (test w) where
  refused hcomplete := by simp [test, h, hcomplete]
  underway hcomplete := by
    unfold test
    simp only [h, hcomplete, Bool.not_true, Bool.false_eq_true, if_false]
    cases Client.ofSettings settings with
    | error b => exact breach_underway b {}
    | ok c =>
      have hasked := c.checkConnection_asked w.remote {}
      dsimp only
      generalize c.checkConnection w.remote {} = use at hasked ⊢
      rcases use with ⟨f | status, c', wire⟩
      · exact ofFailure_underway hasked ..
      · exact .inr hasked

theorem printSelected_underway (format : Option String) (criteria : List Criterion)
    (records : List Record) {wire : Wire} (h : wire.Asked) :
    (printSelected w format criteria records wire).Underway := by
  have hnoted := h.noteAll (Selection.notes w.here criteria records)
  unfold printSelected
  dsimp only
  cases Selection.select w.here criteria records with
  | error b => exact .inl ⟨b, rfl⟩
  | ok kept => exact .inr hnoted

theorem listTexts_gated (h : w.slot.settings w.below = .ok settings) (folder : RawText)
    (format : Option String) {filters : List String} {criteria : List Criterion}
    (hcriteria : readCriteria filters = .ok criteria) :
    Gated settings (notSaved w.shell) (listTexts w folder format filters) where
  refused hcomplete := by simp [listTexts, hcriteria, h, hcomplete]
  underway hcomplete := by
    unfold listTexts
    simp only [hcriteria, h, hcomplete, Bool.not_true, Bool.false_eq_true, if_false]
    cases Client.ofSettings settings with
    | error b => exact breach_underway b {}
    | ok c =>
      generalize (if folder.isEmpty then RawText.ofString "/" else folder) = asked
      cases htext : asked.text? with
      | none =>
        simp only [Client.listRecords, htext]
        exact breach_underway .unencodable {}
      | some text =>
        obtain rfl := RawText.text?_eq_some_iff.1 htext
        have hasked := c.listRecords_asked w.remote {} text
        dsimp only
        generalize c.listRecords w.remote {} (RawText.ofString text) = use at hasked ⊢
        rcases use with ⟨f | records, c', wire⟩
        · exact ofFailure_underway hasked ..
        · exact printSelected_underway format criteria records hasked

theorem run_gated (h : w.slot.settings w.below = .ok settings) {source query : Option RawText}
    {text : String} (htext : queryText w source query = .ok text)
    (hcommand : (Query.read text).command = some Executor.listFiles) :
    Gated settings (unconfigured w.shell text) (run w source query) where
  refused hcomplete := by
    have hcheck : Executor.check settings (Query.read text) = .error .notConfigured := by
      simp [Executor.check, hcommand, hcomplete]
    unfold run
    rw [htext, h]
    simp only [Block.render_of_listFiles hcommand, Executor.run_eq,
      Executor.execute_of_unchecked hcheck, Source.noteAll_ofRemote_wire, Block.notesOf,
      Failure.notConfigured, Block.ofOutcome]
    rfl
  underway hcomplete := by
    have hran :
        (∃ b, (Executor.run (.ofRemote w.remote) w.here settings text {}).1 =
          .error (.breach b)) ∨
        (Executor.run (.ofRemote w.remote) w.here settings text {}).2.wire.Asked := by
      rw [Executor.run_eq]
      exact Executor.execute_ofRemote_asked w.remote
        (Executor.check_eq_ok_iff.2 ⟨hcommand, hcomplete⟩) _
    unfold run
    rw [htext, h]
    simp only [Block.render_of_listFiles hcommand]
    generalize Executor.run (.ofRemote w.remote) w.here settings text {} = ran at hran ⊢
    rcases ran with ⟨outcome, s⟩
    rcases hran with ⟨b, rfl⟩ | hasked
    · exact breach_underway ..
    · have hnoted := Source.noteAll_ofRemote_asked w.remote hasked (Block.notesOf outcome)
      cases Block.ofOutcome (Query.read text) outcome with
      | error b => exact breach_underway ..
      | ok b => exact .inr hnoted

end Command

end DavQuery
