import DavQuery.Proofs.Command.Gate
import DavQuery.Proofs.Slot

/-! Whether the settings are complete, as the commands tell it: one says so in its last line, others
go on to the server or refuse, and a query fails with a message of its own. All of these look for an
address, a name and a password. The command that shows the address looks for the other two only, so
it says something else where the address is empty, as it is once an address of slashes is saved. -/

namespace DavQuery

namespace Settings

theorem isGiven_orEmpty (v : Option Json.Value) :
    (orEmpty v).isGiven = (v.map (·.isGiven)).getD false := by
  cases v with
  | none => rfl
  | some v =>
    rw [orEmpty]
    split_ifs with h
    · simp [h]
    · rw [Option.map_some, Option.getD_some, Bool.eq_false_iff.2 h]
      rfl

theorem isComplete_eq_true_iff {s : Settings} : s.isComplete = true ↔
    s.baseUrl.isGiven = true ∧ s.username.isGiven = true ∧ s.password.isGiven = true := by
  rw [isComplete, Bool.and_eq_true, Bool.and_eq_true, and_assoc]

end Settings

namespace Json.Value

/-- The value is shown without halves of characters. -/
def IsPrintable (v : Value) : Prop := ∃ s, v.shown.text? = some s

theorem isPrintable_of_not_isGiven {v : Value} (h : v.isGiven = false) : v.IsPrintable := by
  cases v with
  | text s =>
    obtain rfl : s = [] := by simpa [isGiven] using h
    exact ⟨"", rfl⟩
  | _ => exact ⟨_, RawText.text?_ofString _⟩

theorem isPrintable_orEmpty (v : Option Value) :
    (Settings.orEmpty v).IsPrintable ↔ (v.getD .null).IsPrintable := by
  cases v with
  | none => exact iff_of_true ⟨"", rfl⟩ ⟨_, RawText.text?_ofString _⟩
  | some v =>
    rw [Settings.orEmpty, Option.getD_some]
    split_ifs with h
    · rfl
    · exact iff_of_true ⟨"", rfl⟩ (isPrintable_of_not_isGiven (by simpa using h))

end Json.Value

namespace Command

variable {κ : Type} {w : World κ} {settings : Settings}

theorem yes_eq_ofString_auth_iff (b : Bool) :
    RawText.ofString "auth: yes" = RawText.ofString ("auth: " ++ yesNo b) ↔ b = true := by
  rw [RawText.ofString_inj]
  cases b <;> decide

theorem yes_ne_address (t : RawText) :
    RawText.ofString "auth: yes" ≠ RawText.ofString "base_url: " ++ t := by
  simp [RawText.ofString]

theorem yes_ne_name (t : RawText) :
    RawText.ofString "auth: yes" ≠ RawText.ofString "username: " ++ t := by
  simp [RawText.ofString]

theorem exists_load_of_settings (h : w.slot.settings w.below = .ok settings) :
    ∃ saved, w.slot.load w.below = .ok saved ∧ settings = .ofMembers (saved.getD []) := by
  unfold Slot.settings at h
  cases hload : w.slot.load w.below with
  | error b => simp [hload, Except.map] at h
  | ok saved =>
    rw [hload] at h
    exact ⟨saved, rfl, (Except.ok.inj h).symm⟩

section Shown
variable (hshell : w.shell.OnUtf8) (h : w.slot.settings w.below = .ok settings)
include hshell h

theorem authStatus_prints_iff : (authStatus w).Prints "auth: yes" ↔
    settings.isComplete = true ∧ settings.baseUrl.IsPrintable ∧ settings.username.IsPrintable := by
  obtain ⟨saved, hload, rfl⟩ := exists_load_of_settings h
  unfold authStatus
  cases saved with
  | none =>
    simp only [hload, lines_cons_prints_iff, not_lines_nil_prints, RawText.ofString_inj]
    simp [Settings.isComplete, Settings.ofMembers, Settings.orEmpty, Json.member?,
      Json.Value.isGiven]
  | some members =>
    simp only [hload, lines_cons_prints_iff, not_lines_nil_prints, or_false, hshell.echo,
      RawText.exists_text?_ofString_append_iff, yes_ne_address, yes_ne_name, false_or,
      yes_eq_ofString_auth_iff, RawText.text?_ofString, Option.getD_some]
    have hname (hcomplete : (Settings.ofMembers members).isComplete = true) :
        orHyphen (Settings.ofMembers members).username =
          (Settings.ofMembers members).username.shown :=
      if_pos (Settings.isComplete_eq_true_iff.1 hcomplete).2.1
    constructor
    · rintro ⟨haddress, husername, -, hcomplete⟩
      rw [hname hcomplete] at husername
      exact ⟨hcomplete, haddress, husername⟩
    · rintro ⟨hcomplete, haddress, husername⟩
      rw [hname hcomplete]
      exact ⟨haddress, husername, ⟨_, rfl⟩, hcomplete⟩

theorem info_prints_iff : (info w).Prints "auth: yes" ↔ settings.username.isGiven = true ∧
    settings.password.isGiven = true ∧ settings.baseUrl.IsPrintable := by
  obtain ⟨saved, hload, rfl⟩ := exists_load_of_settings h
  unfold info
  cases saved with
  | none =>
    simp only [hload, lines_cons_prints_iff, not_lines_nil_prints, RawText.ofString_inj]
    simp [Settings.ofMembers, Settings.orEmpty, Json.member?, Json.Value.isGiven]
  | some members =>
    simp only [hload, lines_cons_prints_iff, not_lines_nil_prints, or_false, hshell.echo,
      RawText.exists_text?_ofString_append_iff, yes_ne_address, false_or,
      yes_eq_ofString_auth_iff, RawText.text?_ofString, Option.getD_some, Bool.and_eq_true,
      Option.some.injEq, exists_eq', true_and, Settings.ofMembers, Settings.isGiven_orEmpty,
      Json.Value.isPrintable_orEmpty]
    exact and_rotate

end Shown

/-- The commands agree on whether somebody is logged in: those that tell, those that need the
settings, and a query, of which the outcomes are given. -/
structure Agree (w : World κ) (listing querying : Outcome) (text : String) : Prop where
  info : (info w).Prints "auth: yes" ↔ (authStatus w).Prints "auth: yes"
  test : test w ≠ notSaved w.shell ↔ (authStatus w).Prints "auth: yes"
  list : listing ≠ notSaved w.shell ↔ (authStatus w).Prints "auth: yes"
  run : querying ≠ unconfigured w.shell text ↔ (authStatus w).Prints "auth: yes"

/-- What the commands tell of settings that could be read. -/
structure Tell (w : World κ) (settings : Settings) (listing querying : Outcome) (text : String) :
    Prop where
  authStatus : (authStatus w).Prints "auth: yes" ↔ settings.isComplete = true ∧
    settings.baseUrl.IsPrintable ∧ settings.username.IsPrintable
  info : (info w).Prints "auth: yes" ↔ settings.username.isGiven = true ∧
    settings.password.isGiven = true ∧ settings.baseUrl.IsPrintable
  test : test w ≠ notSaved w.shell ↔ settings.isComplete = true
  list : listing ≠ notSaved w.shell ↔ settings.isComplete = true
  run : querying ≠ unconfigured w.shell text ↔ settings.isComplete = true

theorem Tell.agree_iff {listing querying : Outcome} {text : String}
    (h : Tell w settings listing querying text) : Agree w listing querying text ↔
      (settings.username.isGiven = true → settings.password.isGiven = true →
        settings.baseUrl.isGiven = true ∧ settings.baseUrl.IsPrintable ∧
          settings.username.IsPrintable) := by
  have hcomplete := settings.isComplete_eq_true_iff
  have haddress : settings.baseUrl.isGiven ≠ true → settings.baseUrl.IsPrintable := fun hno =>
    Json.Value.isPrintable_of_not_isGiven (by simpa using hno)
  constructor
  · intro hagree hname hpassword
    by_cases hgiven : settings.baseUrl.isGiven = true
    · have hloggedIn := hagree.test.1 (h.test.2 (hcomplete.2 ⟨hgiven, hname, hpassword⟩))
      exact ⟨hgiven, (h.authStatus.1 hloggedIn).2⟩
    · have htold := h.info.2 ⟨hname, hpassword, haddress hgiven⟩
      exact absurd (hcomplete.1 (h.authStatus.1 (hagree.info.1 htold)).1).1 hgiven
  · intro hall
    have hloggedIn : (Command.authStatus w).Prints "auth: yes" ↔ settings.isComplete = true := by
      rw [h.authStatus, and_iff_left_iff_imp, hcomplete]
      exact fun ⟨_, hname, hpassword⟩ => (hall hname hpassword).2
    refine ⟨?_, h.test.trans hloggedIn.symm, h.list.trans hloggedIn.symm,
      h.run.trans hloggedIn.symm⟩
    rw [h.info, hloggedIn, hcomplete]
    constructor
    · exact fun ⟨hname, hpassword, _⟩ => ⟨(hall hname hpassword).1, hname, hpassword⟩
    · exact fun ⟨_, hname, hpassword⟩ => ⟨hname, hpassword, (hall hname hpassword).2.1⟩

section Outcomes
variable {format : Option RawText} {filters : List RawText}
  {template : Option String} {words : List String} {criteria : List Criterion}
  (hformat : format.mapM RawText.text? = some template)
  (hfilters : filters.mapM RawText.text? = some words)
include hformat hfilters

variable (hcriteria : readCriteria words = .ok criteria) {source query : Option RawText}
  {text : String} (htext : queryText w source query = .ok text)
include hcriteria htext

theorem breach_of_load_error (folder : RawText) {b : Breach} (h : w.slot.load w.below = .error b) :
    authStatus w = .breach b ∧ info w = .breach b ∧ test w = .breach b ∧
      list w folder format filters = .breach b ∧ run w source query = .breach b := by
  have hsettings : w.slot.settings w.below = .error b := by rw [Slot.settings, h, Except.map]
  rw [list_eq_listTexts hformat hfilters]
  refine ⟨?_, ?_, ?_, ?_, ?_⟩
  · simp only [authStatus, h]
  · simp only [info, h]
  · simp only [test, hsettings]
  · simp only [listTexts, hcriteria, hsettings]
  · simp only [run, htext, hsettings]

theorem tell_of_settings (folder : RawText) (hshell : w.shell.OnUtf8)
    (hcommand : (Query.read text).command = some Executor.listFiles)
    (h : w.slot.settings w.below = .ok settings) :
    Tell w settings (list w folder format filters) (run w source query) text where
  authStatus := authStatus_prints_iff hshell h
  info := info_prints_iff hshell h
  test := (test_gated h).ne_refusal_iff (notSaved_not_underway hshell)
  list := by
    rw [list_eq_listTexts hformat hfilters]
    exact (listTexts_gated h folder template hcriteria).ne_refusal_iff
      (notSaved_not_underway hshell)
  run := (run_gated h htext hcommand).ne_refusal_iff (unconfigured_not_underway hshell text)

end Outcomes

/-- What the commands tell of what the slot holds: they break off if it cannot be read for its
levels, and otherwise look for an address, a name and a password, or for a name and a password. So
they agree unless there are the two without an address, or the address or the name cannot be
printed; after a save that is, unless the address had slashes only. -/
theorem info_agrees_iff (hshell : w.shell.OnUtf8) (folder : RawText) {format : Option RawText}
    {filters : List RawText} {template : Option String} {words : List String}
    {criteria : List Criterion} {source query : Option RawText} {text : String}
    (hformat : format.mapM RawText.text? = some template)
    (hfilters : filters.mapM RawText.text? = some words)
    (hcriteria : readCriteria words = .ok criteria)
    (htext : queryText w source query = .ok text)
    (hcommand : (Query.read text).command = some "List Files") :
    (∀ b, w.slot.load w.below = .error b →
      authStatus w = .breach b ∧ info w = .breach b ∧ test w = .breach b ∧
        list w folder format filters = .breach b ∧ run w source query = .breach b) ∧
    (∀ settings, w.slot.settings w.below = .ok settings →
      Tell w settings (list w folder format filters) (run w source query) text) ∧
    (Agree w (list w folder format filters) (run w source query) text ↔
      ∃ settings, w.slot.settings w.below = .ok settings ∧
        (settings.username.isGiven = true → settings.password.isGiven = true →
          settings.baseUrl.isGiven = true ∧ settings.baseUrl.IsPrintable ∧
            settings.username.IsPrintable)) ∧
    ∀ (baseUrl : String) (username password : Option String),
      w.slot = .file (Slot.fileOctets baseUrl username password) →
      (Agree w (list w folder format filters) (run w source query) text ↔
        (username.getD "" ≠ "" → password.getD "" ≠ "" → ∃ c ∈ baseUrl.toList, c ≠ '/')) := by
  have hbreach (b : Breach) (h : w.slot.load w.below = .error b) :=
    breach_of_load_error hformat hfilters hcriteria htext folder h
  have htell (settings : Settings) (h : w.slot.settings w.below = .ok settings) :=
    tell_of_settings hformat hfilters hcriteria htext folder hshell hcommand h
  refine ⟨hbreach, htell, ⟨fun hagree => ?_, ?_⟩, fun baseUrl username password hslot => ?_⟩
  · cases hload : w.slot.load w.below with
    | error b =>
      -- Nothing is printed, but the query does not fail for want of settings.
      obtain ⟨hstatus, -, -, -, hrun⟩ := hbreach b hload
      have hran : run w source query ≠ unconfigured w.shell text := by
        rw [hrun]
        exact fun e => unconfigured_not_underway hshell text (e ▸ .inl ⟨b, rfl⟩)
      have hloggedIn := hagree.run.1 hran
      rw [hstatus] at hloggedIn
      exact absurd hloggedIn (not_breach_prints b)
    | ok saved =>
      have hsettings := Slot.settings_of_load hload
      exact ⟨_, hsettings, (htell _ hsettings).agree_iff.1 hagree⟩
  · rintro ⟨settings, hsettings, hall⟩
    exact (htell settings hsettings).agree_iff.2 hall
  · have hsettings := Slot.settings_of_saved baseUrl username password w.below
    rw [← hslot] at hsettings
    rw [(htell _ hsettings).agree_iff]
    simp [Settings.ofTexts, Json.Value.isGiven, Json.Value.IsPrintable, Json.Value.shown,
      Text.dropEndSlashes_eq_empty_iff]

theorem info_agrees_iff_of_address :
    let slot : Slot := .file
      (Slot.fileOctets "https://cloud.example.com/dav/" (some "user") (some "word"))
    let w := savedWorld slot
    let text := "command: List Files"
    (authStatus w).Prints "auth: yes" ∧ (info w).Prints "auth: yes" ∧ test w ≠ notSaved w.shell ∧
      list w "/" none [] ≠ notSaved w.shell ∧
      run w none (some (RawText.ofString text)) ≠ unconfigured w.shell text := by
  intro slot w text
  have hplain : String.ofList (unwriteLineEnds text.toList) = text := by decide +kernel
  have htext : queryText w none (some (RawText.ofString text)) = .ok text := by
    rw [queryText_of_word, hplain]
  obtain ⟨-, htell, -, hsaved⟩ := info_agrees_iff (w := w) Shell.standard_onUtf8
    (RawText.ofString "/") (rfl : (none : Option RawText).mapM RawText.text? = some none)
    (rfl : ([] : List RawText).mapM RawText.text? = some []) rfl
    htext (by decide +kernel)
  have hagree := (hsaved "https://cloud.example.com/dav/" (some "user") (some "word") rfl).2
    fun _ _ => ⟨'h', by decide, by decide⟩
  have hsettings := Slot.settings_of_saved "https://cloud.example.com/dav/" (some "user")
    (some "word") 900
  have hcomplete : (Settings.ofTexts (Text.dropEndSlashes "https://cloud.example.com/dav/") "user"
      "word").isComplete = true := by
    decide +kernel
  have hloggedIn := hagree.test.1 ((htell _ hsettings).test.2 hcomplete)
  exact ⟨hloggedIn, hagree.info.2 hloggedIn, hagree.test.2 hloggedIn, hagree.list.2 hloggedIn,
    hagree.run.2 hloggedIn⟩

/-- An address of one slash is saved as none; the one command says yes, the other no, and the server
is not asked. -/
theorem info_disagrees_of_slash :
    let saved := execute (savedWorld .absent) ["login", "-b", "/", "-u", "user", "-p", "word"]
    let w := savedWorld saved.slot
    saved.Prints "Saved." ∧ (info w).Prints "auth: yes" ∧ ¬ (authStatus w).Prints "auth: yes" ∧
      test w = notSaved w.shell := by
  intro saved w
  have hsaved : saved.slot = .file (Slot.fileOctets "/" (some "user") (some "word")) ∧
      saved.out = [.line "Saved." "Saved.\n"] := by
    decide +kernel
  have haddress : Text.dropEndSlashes "/" = "" := by decide +kernel
  have hsettings : w.slot.settings w.below = .ok (.ofTexts "" "user" "word") := by
    have h := Slot.settings_of_saved "/" (some "user") (some "word") 900
    rw [haddress, ← hsaved.1] at h
    exact h
  have hcomplete : (Settings.ofTexts "" "user" "word").isComplete = false := by decide
  refine ⟨⟨"Saved.\n", by simp [hsaved.2]⟩, ?_, ?_, (test_gated hsettings).refused hcomplete⟩
  · exact (info_prints_iff Shell.standard_onUtf8 hsettings).2 ⟨rfl, rfl, "", rfl⟩
  · intro hloggedIn
    have h := (authStatus_prints_iff Shell.standard_onUtf8 hsettings).1 hloggedIn
    exact absurd h.1 (by simp [hcomplete])

end Command

end DavQuery
