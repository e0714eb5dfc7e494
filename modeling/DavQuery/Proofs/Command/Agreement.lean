import DavQuery.Proofs.Block
import DavQuery.Proofs.Command.Report
import DavQuery.Proofs.Command.Words
import DavQuery.Proofs.Folder.Request
import DavQuery.Proofs.Query.Asking
import DavQuery.Proofs.Slot

/-! Two ways to ask for the records of a folder: the words of a listing, and a file with the text of
a query. Both ask the server for the same, and they print the same records. -/

namespace DavQuery
open Text

variable {κ : Type}

namespace Client

theorem folderUrl_normalize (c : Client κ) (folder : String) :
    c.folderUrl (Folder.normalize (some folder)) = c.folderUrl folder := by
  have h : Folder.normalize (some (Folder.normalize (some folder))) =
      Folder.normalize (some folder) := by
    simp [Folder.normalize, Folder.normalizeChars_normalizeChars]
  rw [folderUrl, folderUrl, h]

theorem listFolder_normalize (e : Remote κ) (c : Client κ) (w : Http.Wire) (folder : String) :
    (c.listFolder e w (Folder.normalize (some folder))).1 = (c.listFolder e w folder).1 ∧
      (c.listFolder e w (Folder.normalize (some folder))).2.2.sent =
        (c.listFolder e w folder).2.2.sent := by
  rw [listFolder_sent, listFolder_sent, listFolder_fst, listFolder_fst, folderUrl_normalize]
  refine ⟨?_, rfl⟩
  rcases c.propfind e w (c.folderUrl folder) "1" (some listingBody) with ⟨f | r, c', w'⟩
  · rfl
  · exact readListing_fst_eq ..

end Client

namespace Command
open Query

variable {w : World κ} {e : Remote κ} {settings : Settings} {folder template : String}
  {criteria : List Criterion} {records kept : List Record} {texts : List String}

/-- What comes of asking for the folder with the settings, and the wire after it. -/
def asked (e : Remote κ) (settings : Settings) (folder : String) :
    Except Failure (List Record) × Http.Wire :=
  match Client.ofSettings settings with
  | .error b => (.error (.breach b), {})
  | .ok c => ((c.listFolder e {} folder).1, (c.listFolder e {} folder).2.2)

/-- The lines of the texts. -/
def shownLines (shell : Shell) (texts : List String) : List Shown :=
  (Outcome.lines shell (texts.map .ofString)).out

/-- The text as a line of error. -/
def shownError (shell : Shell) (text : String) : String :=
  (Outcome.error shell (.ofString text)).err

/-- The command ends with the exit, and prints this and this as error. -/
def Ends (o : Outcome) (exit : Exit) (out : List Shown) (err : String) : Prop :=
  o.exit = exit ∧ o.out = out ∧ o.err = err

theorem lines_ends (hshell : w.shell.OnUtf8) (texts : List String) (wire : Http.Wire) :
    Ends ((Outcome.lines w.shell (texts.map .ofString)).on wire) .success
      (shownLines w.shell texts) "" := by
  refine ⟨printLines_snd hshell fun t ht => ?_, rfl, rfl⟩
  obtain ⟨s, -, rfl⟩ := List.mem_map.1 ht
  exact ⟨s, RawText.text?_ofString s⟩

theorem error_ends (hshell : w.shell.OnUtf8) (text : String) (wire : Http.Wire) :
    Ends ((Outcome.error w.shell (.ofString text)).on wire) .failure []
      (shownError w.shell text) :=
  ⟨error_exit hshell _, error_out w.shell _, rfl⟩

section Listing
variable (format : Option String) {words : List String}
  (hwords : readCriteria words = .ok criteria)
  (hsettings : w.slot.settings w.below = .ok settings) (hcomplete : settings.isComplete = true)
  (hfolder : folder ≠ "")
include hwords hsettings hcomplete hfolder

theorem listTexts_eq : listTexts w folder format words =
    match asked w.remote settings folder with
    | (.ok records, wire) => printSelected w format criteria records wire
    | (.error f, wire) => (ofFailure w.shell (fun f => "error: " ++ f.message) f).on wire := by
  have hgiven : (RawText.ofString folder).isEmpty = false := by simpa using hfolder
  unfold listTexts asked
  simp only [hwords, hsettings, hcomplete, hgiven, Bool.not_true, Bool.false_eq_true, if_false]
  cases Client.ofSettings settings with
  | error b => rfl
  | ok c =>
    dsimp only
    rw [Client.listRecords_ofString]
    rcases c.listFolder w.remote {} folder with ⟨f | records, c', wire⟩ <;> rfl

theorem listTexts_sent :
    (listTexts w folder format words).wire.sent = (asked w.remote settings folder).2.sent := by
  rw [listTexts_eq format hwords hsettings hcomplete hfolder]
  rcases asked w.remote settings folder with ⟨f | records, wire⟩
  · rfl
  · simp only [printSelected]
    cases Selection.select w.here criteria records <;> rfl

theorem listTexts_of_failure (hshell : w.shell.OnUtf8) {f : Failure}
    (hasked : (asked w.remote settings folder).1 = .error f) (hf : ∀ b, f ≠ .breach b) :
    Ends (listTexts w folder format words) .failure []
      (shownError w.shell ("error: " ++ f.message)) := by
  rw [listTexts_eq format hwords hsettings hcomplete hfolder]
  generalize asked w.remote settings folder = answer at hasked ⊢
  obtain ⟨outcome, wire⟩ := answer
  obtain rfl : outcome = .error f := hasked
  cases f with
  | breach b => exact absurd rfl (hf b)
  | _ => exact error_ends hshell _ wire

theorem listTexts_of_selected (hasked : (asked w.remote settings folder).1 = .ok records)
    (hkept : Selection.select w.here criteria records = .ok kept) :
    Ends (listTexts w folder format words) (printRecords w.shell w.here format kept).2
      (printRecords w.shell w.here format kept).1 "" := by
  rw [listTexts_eq format hwords hsettings hcomplete hfolder]
  generalize asked w.remote settings folder = answer at hasked ⊢
  obtain ⟨outcome, wire⟩ := answer
  obtain rfl : outcome = .ok records := hasked
  simp only [printSelected, hkept]
  exact ⟨rfl, rfl, rfl⟩

end Listing

theorem printRecords_of_expand (htemplate : template ≠ "") (shell : Shell)
    {here : Calendar.LocalTime} (h : kept.mapM (Template.expand here.zone template) = .ok texts) :
    printRecords shell here (some template) kept = printLines shell (texts.map .ofString) := by
  have hgiven : template.isEmpty = false := by simpa using htemplate
  induction mapM_eq_ok_iff.1 h with
  | nil => rfl
  | @cons r text kept texts htext hrest ih =>
    have hrecord : recordText here (some template) r = .ok text := by
      simpa [recordText, Option.filter, hgiven] using htext
    rw [printRecords, hrecord, List.map_cons, printLines, ← ih (mapM_eq_ok_iff.2 hrest)]
    cases hecho : shell.echo text <;> simp [Except.bind, Except.map, hecho]

theorem fetch_ofRemote (e : Remote κ) (settings : Settings) (folder : String) :
    (Executor.fetch (.ofRemote e) settings (Folder.normalize (some folder)) {}).1 =
        (asked e settings folder).1 ∧
      (Executor.fetch (.ofRemote e) settings (Folder.normalize (some folder)) {}).2.wire.sent =
        (asked e settings folder).2.sent := by
  unfold Executor.fetch asked
  simp only [Source.ofRemote]
  cases Client.ofSettings settings with
  | error b => exact ⟨rfl, rfl⟩
  | ok c =>
    simp only [Client.listRecords_ofString]
    exact c.listFolder_normalize e {} folder

theorem noteAll_ofRemote_sent (e : Remote κ) (notes : List Note) (s : Session κ) :
    ((Source.ofRemote e).noteAll notes s).wire.sent = s.wire.sent := by
  rw [Source.noteAll_ofRemote_wire]
  rfl

theorem present_ofRemote_sent (e : Remote κ) (here : Calendar.LocalTime) (q : Query)
    (folder : String) (records : List Record) (s : Session κ) :
    (Executor.present (.ofRemote e) here q folder records s).2.wire.sent = s.wire.sent := by
  have hnotes := noteAll_ofRemote_sent e (Executor.keepNotes here q records) s
  unfold Executor.present
  dsimp only
  cases Executor.keep here q records with
  | error b => exact hnotes
  | ok kept => exact hnotes

def answered (w : World κ) (settings : Settings) (q : Query) :
    Except Failure (List String) × Session κ :=
  Executor.execute (.ofRemote w.remote) w.here settings q {}

section Run
variable (hcomplete : settings.isComplete = true)
include hcomplete

theorem check_asking : Executor.check settings (asking folder template criteria) = .ok () :=
  Executor.check_eq_ok_iff.2 ⟨rfl, hcomplete⟩

theorem answered_sent :
    (answered w settings (asking folder template criteria)).2.wire.sent =
      (asked w.remote settings folder).2.sent := by
  rw [← (fetch_ofRemote w.remote settings folder).2]
  rcases hfetch : Executor.fetch (.ofRemote w.remote) settings
    (Folder.normalize (some folder)) {} with ⟨f | records, s⟩
  · rw [answered, Executor.execute_of_fetch_error (check_asking hcomplete) hfetch]
  · rw [answered, Executor.execute_of_fetch_ok (check_asking hcomplete) hfetch]
    exact present_ofRemote_sent ..

theorem answered_of_failure {f : Failure} (hasked : (asked w.remote settings folder).1 = .error f) :
    (answered w settings (asking folder template criteria)).1 = .error f := by
  rw [← (fetch_ofRemote w.remote settings folder).1] at hasked
  rcases hfetch : Executor.fetch (.ofRemote w.remote) settings
    (Folder.normalize (some folder)) {} with ⟨outcome, s⟩
  obtain rfl : outcome = .error f := by rwa [hfetch] at hasked
  rw [answered, Executor.execute_of_fetch_error (check_asking hcomplete) hfetch]

theorem answered_of_expand (hasked : (asked w.remote settings folder).1 = .ok records)
    (hkept : Selection.select w.here criteria records = .ok kept)
    (htexts : kept.mapM (Template.expand w.here.zone template) = .ok texts) :
    (answered w settings (asking folder template criteria)).1 = .ok texts := by
  rw [← (fetch_ofRemote w.remote settings folder).1] at hasked
  rcases hfetch : Executor.fetch (.ofRemote w.remote) settings
    (Folder.normalize (some folder)) {} with ⟨outcome, s⟩
  obtain rfl : outcome = .ok records := by rwa [hfetch] at hasked
  have hkeep : Executor.keep w.here (asking folder template criteria) records = .ok kept := hkept
  have hwrite : Executor.write w.here (asking folder template criteria) kept = .ok texts := htexts
  rw [answered, Executor.execute_of_fetch_ok (check_asking hcomplete) hfetch]
  simp only [Executor.present, hkeep, hwrite]
  rfl

end Run

section File
variable {path : RawText} {text : String} {q : Query}

theorem queryText_of_file (hpath : plainPath path ≠ RawText.ofString "-")
    (hfile : w.files (plainPath path) = some (Utf8.encode text.toList))
    (htext : '\r' ∉ text.toList) : queryText w (some path) none = .ok text := by
  simp [queryText, givenText, hpath, hfile, fileText, Utf8.decode?_encode,
    unifyLineEnds_of_not_mem htext, Except.mapError]

theorem render_eq (settings : Settings) (hread : readWithIgnored text = (q, []))
    (hcommand : q.command = some Executor.listFiles) :
    Block.render (.ofRemote w.remote) w.here settings text {} =
      (Block.ofOutcome q (answered w settings q).1,
        (Source.ofRemote w.remote).noteAll (Block.notesOf (answered w settings q).1)
          (answered w settings q).2) := by
  have hq : read text = q := congrArg Prod.fst hread
  have hignored : ignored text = [] := congrArg Prod.snd hread
  rw [Block.render_of_listFiles (by rw [hq, hcommand]), Executor.run_eq, hq, hignored]
  rfl

variable (htext : queryText w (some path) none = .ok text)
  (hsettings : w.slot.settings w.below = .ok settings) (hread : readWithIgnored text = (q, []))
  (hcommand : q.command = some Executor.listFiles)
include htext hsettings hread hcommand

theorem run_eq : ∃ wire : Http.Wire, wire.sent = (answered w settings q).2.wire.sent ∧
    run w (some path) none =
      match Block.ofOutcome q (answered w settings q).1 with
      | .ok b => (ofBlock w.shell b).on wire
      | .error b => (Outcome.breach b).on wire := by
  refine ⟨_, noteAll_ofRemote_sent w.remote (Block.notesOf (answered w settings q).1) _, ?_⟩
  rw [run, htext, hsettings]
  simp only [render_eq settings hread hcommand]
  cases Block.ofOutcome q (answered w settings q).1 <;> rfl

theorem run_sent :
    (run w (some path) none).wire.sent = (answered w settings q).2.wire.sent := by
  obtain ⟨wire, hsent, hrun⟩ := run_eq htext hsettings hread hcommand
  rw [hrun, ← hsent]
  cases Block.ofOutcome q (answered w settings q).1 <;> rfl

theorem run_of_failure (hshell : w.shell.OnUtf8) {f : Failure}
    (hanswer : (answered w settings q).1 = .error f) (hf : ∀ b, f ≠ .breach b) :
    Ends (run w (some path) none) .failure []
      (shownError w.shell ("Error: " ++ f.message)) := by
  obtain ⟨wire, -, hrun⟩ := run_eq htext hsettings hread hcommand
  rw [hrun, hanswer]
  cases f with
  | breach b => exact absurd rfl (hf b)
  | _ => exact error_ends hshell _ wire

theorem run_of_nothing (hshell : w.shell.OnUtf8) (hanswer : (answered w settings q).1 = .ok []) :
    Ends (run w (some path) none) .success (shownLines w.shell [Block.noResults]) "" := by
  obtain ⟨wire, -, hrun⟩ := run_eq htext hsettings hread hcommand
  rw [hrun, hanswer]
  exact lines_ends hshell [Block.noResults] wire

theorem run_of_texts (hshell : w.shell.OnUtf8) (hbullets : q.noBullets = true)
    (hanswer : (answered w settings q).1 = .ok texts) (htexts : texts ≠ []) :
    Ends (run w (some path) none) .success (shownLines w.shell texts) "" := by
  obtain ⟨wire, -, hrun⟩ := run_eq htext hsettings hread hcommand
  have hblock : ofBlock w.shell (Block.ofItems q texts) =
      Outcome.lines w.shell (texts.map .ofString) := by
    simp [Block.ofItems, htexts, ofBlock, hbullets]
  have hended := lines_ends hshell texts wire
  rw [← hblock] at hended
  rw [hrun, hanswer]
  exact hended

end File

theorem execute_ends {words : List RawText} {o : Order} {out : List Shown} {err : String} {n : Nat}
    (hread : w.shell.read words = .order false o)
    (h : Ends (o.carryOut w).toOutcome (.code n) out err) :
    Ends (execute w words).toOutcome (.code n) out err := by
  obtain ⟨hexit, hout, herr⟩ := h
  rw [execute_of_read hread]
  refine ⟨hexit, hout, ?_⟩
  simp [Report.finish, hexit, herr]

theorem execute_wire {words : List RawText} {o : Order}
    (hread : w.shell.read words = .order false o) :
    (execute w words).wire = (o.carryOut w).wire := by
  rw [execute_of_read hread]
  rfl

theorem carryOut_list (w : World κ) (folder template : String) (criteria : List Criterion) :
    (Order.list folder (some (RawText.ofString template))
        (criteria.map fun c => RawText.ofString (criterionWord c))).carryOut w =
      .keep w.slot (listTexts w folder (some template) (criteria.map criterionWord)) := by
  have hwords : (criteria.map fun c => RawText.ofString (criterionWord c)).mapM RawText.text? =
      some (criteria.map criterionWord) := by
    induction criteria with
    | nil => rfl
    | cons c criteria ih => simp [ih]
  have htemplate : (some (RawText.ofString template)).mapM RawText.text? =
      some (some template) := by
    simp
  rw [Order.carryOut, list_eq_listTexts htemplate hwords]

/-- A folder, a template and criteria that the words of a command line and the lines of a file can
carry as they are. -/
structure Askable (folder template : String) (criteria : List Criterion) :
    Prop where
  carried : Carried folder template criteria
  folder_word : folder.toList.head? ≠ some '-'
  folder_line : '\r' ∉ folder.toList
  template_line : '\r' ∉ template.toList
  criterion_line : ∀ c ∈ criteria, '\r' ∉ c.value.toList

/-- The words of a listing and a file with the query that asks for the same send the same requests.
If nothing fails they print the same records, and if none is left the query tells so; if the server
cannot be asked or its answer is not understood they tell it in the same words. -/
theorem list_agrees_run (hshell : w.shell.Conventional) (hprint : w.shell.OnUtf8) {path : RawText}
    (h : Askable folder template criteria) (ended : Bool)
    (hsettings : w.slot.settings w.below = .ok settings) (hcomplete : settings.isComplete = true)
    (hword : path.head? ≠ some (.char '-')) (hpath : plainPath path ≠ RawText.ofString "-")
    (hfile : w.files (plainPath path) =
      some (Utf8.encode (askingText folder template criteria ended).toList)) :
    let listed := execute w (listWords folder template criteria)
    let ran := execute w [RawText.ofString "run", path]
    listed.wire.sent = ran.wire.sent ∧
    (∀ records kept texts, (asked w.remote settings folder).1 = .ok records →
      Selection.select w.here criteria records = .ok kept →
      kept.mapM (Template.expand w.here.zone template) = .ok texts →
      (kept ≠ [] → Ends listed.toOutcome .success (shownLines w.shell texts) "" ∧
        Ends ran.toOutcome .success (shownLines w.shell texts) "") ∧
      (kept = [] → Ends listed.toOutcome .success [] "" ∧
        Ends ran.toOutcome .success (shownLines w.shell [Block.noResults]) "")) ∧
    ∀ f, (asked w.remote settings folder).1 = .error f → (∀ b, f ≠ .breach b) →
      Ends listed.toOutcome .failure [] (shownError w.shell ("error: " ++ f.message)) ∧
        Ends ran.toOutcome .failure [] (shownError w.shell ("Error: " ++ f.message)) := by
  intro listed ran
  have hwords := readCriteria_criterionWord h.carried.criterion
  have htext := queryText_of_file hpath hfile (not_mem_askingText h.carried h.folder_line
    h.template_line h.criterion_line ended)
  have hread := readWithIgnored_askingText h.carried ended
  have hfolder : folder ≠ "" := h.carried.folder.1
  have htemplate : template ≠ "" := h.carried.template.1
  have hlist := hshell.list folder template criteria h.folder_word
  have hrun := hshell.run_file path hword
  refine ⟨?_, fun records kept texts hasked hkept htexts => ?_, fun f hasked hf => ?_⟩
  · rw [execute_wire hlist, carryOut_list, execute_wire hrun]
    exact (listTexts_sent _ hwords hsettings hcomplete hfolder).trans
      ((run_sent htext hsettings hread rfl).trans (answered_sent hcomplete)).symm
  · have hprinted := listTexts_of_selected (some template) hwords hsettings hcomplete hfolder
      hasked hkept
    rw [printRecords_of_expand htemplate w.shell htexts] at hprinted
    have hanswer := answered_of_expand hcomplete hasked hkept htexts
    have hlisted : Ends listed.toOutcome .success (shownLines w.shell texts) "" := by
      refine execute_ends hlist ?_
      rw [carryOut_list]
      exact ⟨hprinted.1.trans (lines_ends hprint texts {}).1, hprinted.2.1, hprinted.2.2⟩
    -- The query tells that nothing is left by the texts, the listing by the records.
    have hempty : texts = [] ↔ kept = [] := by
      rw [← List.length_eq_zero_iff, ← (mapM_eq_ok_iff.1 htexts).length_eq,
        List.length_eq_zero_iff]
    refine ⟨fun hne => ⟨hlisted, ?_⟩, fun hnil => ?_⟩
    · exact execute_ends hrun
        (run_of_texts htext hsettings hread rfl hprint rfl hanswer (mt hempty.1 hne))
    · obtain rfl := hempty.2 hnil
      exact ⟨hlisted,
        execute_ends hrun (run_of_nothing htext hsettings hread rfl hprint hanswer)⟩
  · refine ⟨execute_ends hlist ?_, execute_ends hrun ?_⟩
    · rw [carryOut_list]
      exact listTexts_of_failure _ hwords hsettings hcomplete hfolder hprint hasked hf
    · exact run_of_failure htext hsettings hread rfl hprint
        (answered_of_failure hcomplete hasked) hf

end Command

namespace Listing
open Xml

def fileText : String :=
  "<m xmlns=\"DAV:\"><response><href>/x</href><propstat><prop><b/></prop></propstat></response></m>"

theorem read?_fileText :
    Document.read? fileText.toList =
      some ⟨dav "m", "", [⟨dav "response", "", [⟨dav "href", "/x", []⟩,
        ⟨dav "propstat", "", [⟨dav "prop", "", [⟨dav "b", "", []⟩]⟩]⟩]⟩]⟩ := by
  have hitems : Item.spanElement 0 fileText.toList =
      some ([.opens ['m'] [("xmlns".toList, "DAV:".toList.map .literal)] false,
        .opens "response".toList [] false, .opens "href".toList [] false, .text "/x".toList,
        .closes "href".toList, .opens "propstat".toList [] false, .opens "prop".toList [] false,
        .opens "b".toList [] true, .closes "prop".toList, .closes "propstat".toList,
        .closes "response".toList, .closes ['m']], []) := by
    decide +kernel
  rw [Document.read?_of_element (by decide +kernel) (by decide +kernel) hitems]
  simp only [Event.ofItems?, Event.ofStartTag, List.mapM_cons, List.mapM_nil,
    Entities.expandValue_literal]
  rfl

def fileAnswer : Http.Response := { status := 207, body := Utf8.encode fileText.toList }

theorem readListing_fileAnswer {server : Http.Server} {url : RawText} (folder : String)
    (hurl : (url.chars?.bind Url.Reference.read?).map (·.path) =
      some "/dav/a%3A%20b%3B%20c%3Dd".toList) :
    (Client.readListing ⟨.standard, Document.reader, server⟩ url folder fileAnswer {}).1 =
      .ok [{ name := "x", path := "/x" }] := by
  obtain ⟨ref, href, hpath⟩ := Option.map_eq_some_iff.1 hurl
  have htext : fileAnswer.text = fileText := by decide +kernel
  have hread : Http.Agent.standard.text fileAnswer = .ok (RawText.ofString fileText) := by
    rw [← htext]
    rfl
  rw [Client.readListing_of_read? (by decide) hread href, hpath,
    records_of_ok (Document.reader_of_read? read?_fileText)]
  decide +kernel

end Listing

namespace Command
open Query

theorem asked_standard (r : Http.Response)
    (hstatus : [301, 302, 303, 307, 308].contains r.status = false)
    (base username password folder url : String)
    (hurl : (Client.new base username password : Client Http.Held).folderUrl folder =
      RawText.ofString url)
    {a : Url.Address} (htarget : Url.Address.target url.toList = .ok a)
    (hscheme : a.scheme ≠ []) :
    let e : Remote Http.Held := ⟨.standard, Xml.Document.reader, fun _ => .response r⟩
    (asked e (.ofTexts base username password) folder).1 =
      (Client.readListing e (RawText.ofString url) folder r {}).1 := by
  intro e
  have hserver : e.server.NeverRedirects := Client.neverRedirects_of_status hstatus
  have hclient : Client.ofSettings (.ofTexts base username password) =
      .ok (Client.new base username password : Client Http.Held) := rfl
  have hconnection : (Client.new base username password : Client Http.Held).connection .standard =
      .ok _ :=
    Http.Agent.connectStandard_ofString username password
  have hdepth : Http.headerText? (RawText.ofString "1") = some "1" := by decide
  have hbody : Http.bodyText? (some (RawText.ofString Client.listingBody)) =
      some Client.listingBody :=
    RawText.text?_ofString Client.listingBody
  have hanswer := Http.Agent.standard_answer
    { authorization := Http.Agent.authorization username password }
    (Client.propertyCall url "1" (some (RawText.ofString Client.listingBody)))
    htarget hscheme hdepth hbody hserver fun _ => rfl
  simp only [asked, hclient]
  rw [Client.listFolder_fst, hurl, Client.propfind_of_connection hconnection, Client.callOn]
  dsimp only
  rw [Http.Wire.note_sent, Http.Server.after_nil, hanswer]
  exact Client.readListing_fst_eq ..

theorem list_agrees_run_two :
    let folder := "a: b; c=d"
    let template := "- \x7b\x7bname\x7d\x7d: x=y"
    let criteria : List Criterion := [⟨"maxsize", "5"⟩, ⟨"name", "a=b: -c"⟩]
    let text := askingText folder template criteria true
    let w (answer : Http.Response) : World Http.Held := {
      savedWorld (.file (Slot.fileOctets "https://cloud.example.com/dav" (some "user")
        (some "word"))) with
      remote := ⟨.standard, Xml.Document.reader, fun _ => .response answer⟩
      files := fun path =>
        if path = RawText.ofString "query.txt" then some (Utf8.encode text.toList) else none }
    let listed (answer : Http.Response) :=
      (execute (w answer) (listWords folder template criteria)).toOutcome
    let ran (answer : Http.Response) := (execute (w answer) ["run", "./query.txt"]).toOutcome
    Askable folder template criteria ∧
    Ends (listed Listing.fileAnswer) .success [.line "- x: x=y" "- x: x=y\n"] "" ∧
    Ends (ran Listing.fileAnswer) .success [.line "- x: x=y" "- x: x=y\n"] "" ∧
    Ends (listed { status := 404 }) .failure [] "error: Server returned status 404\n" ∧
    Ends (ran { status := 404 }) .failure [] "Error: Server returned status 404\n" := by
  intro folder template criteria text w listed ran
  have haskable : Askable folder template criteria :=
    ⟨⟨by decide, by decide, by decide⟩, by decide, by decide, by decide, by decide⟩
  have hsettings (answer : Http.Response) : (w answer).slot.settings (w answer).below =
      .ok (.ofTexts "https://cloud.example.com/dav" "user" "word") := by
    have h := Slot.settings_of_saved "https://cloud.example.com/dav" (some "user") (some "word") 900
    rwa [(by decide +kernel : dropEndSlashes "https://cloud.example.com/dav" =
      "https://cloud.example.com/dav")] at h
  have hcomplete :
      (Settings.ofTexts "https://cloud.example.com/dav" "user" "word").isComplete = true := by
    decide
  have hpath : plainPath "./query.txt" = RawText.ofString "query.txt" := by decide +kernel
  have hfile (answer : Http.Response) : (w answer).files (plainPath "./query.txt") =
      some (Utf8.encode text.toList) := by
    rw [hpath]
    simp [w]
  have hagree (answer : Http.Response) := list_agrees_run (w := w answer)
    Shell.standard_conventional Shell.standard_onUtf8 haskable true (hsettings answer) hcomplete
    (by decide : (RawText.ofString "./query.txt").head? ≠ some (.char '-'))
    (by rw [hpath]; decide) (hfile answer)
  have hasked (answer : Http.Response)
      (hstatus : [301, 302, 303, 307, 308].contains answer.status = false) :=
    asked_standard answer hstatus "https://cloud.example.com/dav" "user" "word" folder
      "https://cloud.example.com/dav/a%3A%20b%3B%20c%3Dd" (by decide +kernel) (a := {
        scheme := "https".toList
        host := "cloud.example.com".toList
        path := "/dav/a%3A%20b%3B%20c%3Dd".toList })
      (by decide +kernel) (by decide)
  have hfound := (hasked Listing.fileAnswer (by decide)).trans
    (Listing.readListing_fileAnswer folder (by decide +kernel))
  have hmissing := (hasked { status := 404 } (by decide)).trans
    (rfl : _ = Except.error (Failure.badStatus 404))
  have hkept : Selection.select noon criteria [{ name := "x", path := "/x" }] =
      .ok [{ name := "x", path := "/x" }] := by
    decide +kernel
  have htexts : [{ name := "x", path := "/x" }].mapM (Template.expand noon.zone template) =
      .ok ["- x: x=y"] := by
    decide +kernel
  have hline : shownLines .standard ["- x: x=y"] = [.line "- x: x=y" "- x: x=y\n"] := by
    decide +kernel
  have herror : shownError .standard ("error: " ++ (Failure.badStatus 404).message) =
        "error: Server returned status 404\n" ∧
      shownError .standard ("Error: " ++ (Failure.badStatus 404).message) =
        "Error: Server returned status 404\n" := by
    decide +kernel
  obtain ⟨hlisted, hran⟩ := ((hagree Listing.fileAnswer).2.1 _ _ _ hfound hkept htexts).1
    (List.cons_ne_nil _ _)
  obtain ⟨hlisted', hran'⟩ := (hagree { status := 404 }).2.2 _ hmissing
    (by simp [Failure.badStatus, Failure.ofStatus])
  rw [← hline, ← herror.1, ← herror.2]
  exact ⟨haskable, hlisted, hran, hlisted', hran'⟩

end Command

end DavQuery
