import DavQuery.Proofs.Command.Agreement

/-! The ways to give a query to the command that runs one: in a file, typed, or as a word in which
line ends may be written as a backslash and an `n`. Whichever way the text comes, it is read as the
same, and the command does nothing else with it. -/

namespace DavQuery.Command
open Text

/-- The second text is the first one with some of its line ends written as a backslash and an
`n`. -/
inductive WritesLineEnds : List Char → List Char → Prop
  | nil : WritesLineEnds [] []
  | char (c : Char) {text written : List Char} :
      WritesLineEnds text written → WritesLineEnds (c :: text) (c :: written)
  | lineEnd {text written : List Char} :
      WritesLineEnds text written → WritesLineEnds ('\n' :: text) ('\\' :: 'n' :: written)

/-- The worlds differ in their files and in what can be typed at most. -/
structure World.Resembles {κ : Type} (w w' : World κ) : Prop where
  shell : w.shell = w'.shell
  remote : w.remote = w'.remote
  here : w.here = w'.here
  slot : w.slot = w'.slot
  below : w.below = w'.below

/-- What is printed at a breach does not depend on how the query was given. -/
def Shell.CrashesAlike (shell : Shell) : Prop :=
  ∀ source query source' query' cause,
    shell.crash (.run source query) cause = shell.crash (.run source' query') cause

/-- The reports are the same, but for what is printed at a breach if that depends on how the query
was given. -/
structure Report.Matches (shell : Shell) (r r' : Report) : Prop where
  exit : r.exit = r'.exit
  out : r.out = r'.out
  err : (∃ n, r.exit = .code n) ∨ shell.CrashesAlike → r.err = r'.err
  prompts : r.prompts = r'.prompts
  wire : r.wire = r'.wire
  slot : r.slot = r'.slot

theorem unwriteLineEnds_cons {c : Char} {r : List Char} (h : c = '\\' → r.head? ≠ some 'n') :
    unwriteLineEnds (c :: r) = c :: unwriteLineEnds r := by
  rw [unwriteLineEnds]
  intro rest hc hr
  exact h hc (by rw [hr, List.head?_cons])

section Written
variable {text written : List Char}

theorem WritesLineEnds.head? (h : WritesLineEnds text written) (hn : written.head? = some 'n') :
    text.head? = some 'n' := by
  cases h with
  | nil => exact hn
  | char c h => exact hn
  | lineEnd h => simp at hn

theorem WritesLineEnds.refl (text : List Char) : WritesLineEnds text text := by
  induction text with
  | nil => exact .nil
  | cons c text ih => exact .char c ih

theorem WritesLineEnds.append {more written' : List Char} (h : WritesLineEnds text written)
    (h' : WritesLineEnds more written') : WritesLineEnds (text ++ more) (written ++ written') := by
  induction h with
  | nil => exact h'
  | char c h ih => exact .char c ih
  | lineEnd h ih => exact .lineEnd ih

theorem WritesLineEnds.unwrite_eq (h : WritesLineEnds text written)
    (hpair : ¬ ['\\', 'n'] <:+: text) : unwriteLineEnds written = text := by
  -- Of a backslash before a line end only the one that is written with it is read as its mark.
  induction h with
  | nil => rfl
  | @char c text written h ih =>
    have hrest : ¬ ['\\', 'n'] <:+: text := fun hsub =>
      hpair (hsub.trans (List.suffix_cons c text).isInfix)
    rw [unwriteLineEnds_cons, ih hrest]
    intro hc hn
    obtain ⟨rest, htext⟩ := List.head?_eq_some_iff.1 (h.head? hn)
    exact hpair ⟨[], rest, by simp [hc, htext]⟩
  | @lineEnd text written h ih =>
    have hrest : ¬ ['\\', 'n'] <:+: text := fun hsub =>
      hpair (hsub.trans (List.suffix_cons '\n' text).isInfix)
    rw [unwriteLineEnds, ih hrest]

end Written

section Text
variable {κ : Type} {w w' : World κ} {text : String}

theorem all_ofOctets_encode (h : '\r' ∉ text.toList) :
    (Input.ofOctets (Utf8.encode text.toList)).all = .ok (RawText.ofString text) := by
  simp [Input.ofOctets, Utf8.decode?_encode, unifyLineEnds_of_not_mem h, RawText.ofString]

theorem queryText_of_input (h : '\r' ∉ text.toList)
    (hinput : w.input = .ofOctets (Utf8.encode text.toList)) (source : Option RawText)
    (hsource : (source.map plainPath).getD "-" = RawText.ofString "-") :
    queryText w source none = .ok text := by
  have hgiven : givenText w source none = .ok (RawText.ofString text) := by
    cases source with
    | none => simp [givenText, hinput, all_ofOctets_encode h, Except.mapError]
    | some word =>
      have hword : plainPath word = RawText.ofString "-" := hsource
      simp [givenText, hinput, all_ofOctets_encode h, hword, Except.mapError]
  simp [queryText, hgiven, RawText.ofString]

theorem queryText_of_written {written : String} (h : WritesLineEnds text.toList written.toList)
    (hpair : ¬ ['\\', 'n'] <:+: text.toList) (source : Option RawText) :
    queryText w source (some (RawText.ofString written)) = .ok text := by
  rw [queryText_of_word, h.unwrite_eq hpair, String.ofList_toList]

theorem run_congr (h : w.Resembles w') {source source' query query' : Option RawText}
    (htext : queryText w source query = .ok text)
    (htext' : queryText w' source' query' = .ok text) :
    run w' source' query' = run w source query := by
  rw [run, run, htext, htext']
  simp only [h.shell, h.remote, h.here, h.slot, h.below]

theorem execute_matches (h : w.Resembles w') {words words' : List RawText}
    {source source' query query' : Option RawText}
    (hwords : w.shell.read words = .order false (.run source query))
    (hwords' : w.shell.read words' = .order false (.run source' query'))
    (htext : queryText w source query = .ok text)
    (htext' : queryText w' source' query' = .ok text) :
    (execute w' words').Matches w.shell (execute w words) := by
  have hshell := h.shell
  rw [execute_of_read hwords, execute_of_read (hshell ▸ hwords'), ← hshell]
  simp only [Order.carryOut, run_congr h htext htext', ← h.slot]
  refine ⟨rfl, rfl, fun herr => ?_, rfl, rfl, rfl⟩
  simp only [Report.finish]
  cases hexit : (Report.keep w.slot (run w source query)).exit with
  | code n => rfl
  | breach b =>
    have hcrash : w.shell.CrashesAlike := by
      refine herr.resolve_left ?_
      rintro ⟨n, hn⟩
      exact absurd (hexit.symm.trans hn) (by simp)
    simp only [hcrash source' query' source query b]

end Text

/-- A query that is given in a file, one that is typed, and one in a word with some line ends
written out make the same report and print the same, down to the requests that are sent. A word
for a file that means the input is no file. What a shell prints at a breach is not asked to be the
same; if it is, there is no difference at all. -/
theorem ways_of_giving_agree {κ : Type} {filed typed worded : World κ}
    (hshell : filed.shell.Conventional) {text written : String} {path : RawText}
    (hreturn : '\r' ∉ text.toList) (hpair : ¬ ['\\', 'n'] <:+: text.toList)
    (hwritten : WritesLineEnds text.toList written.toList)
    (htyped : filed.Resembles typed) (hworded : filed.Resembles worded)
    (hword : path.head? ≠ some (.char '-')) (hpath : plainPath path ≠ RawText.ofString "-")
    (hfile : filed.files (plainPath path) = some (Utf8.encode text.toList))
    (hinput : typed.input = .ofOctets (Utf8.encode text.toList)) :
    let ran := execute filed ["run", path]
    (execute typed ["run", "-"]).Matches filed.shell ran ∧
      (execute typed ["run"]).Matches filed.shell ran ∧
      (∀ source : RawText, source.head? ≠ some (.char '-') →
        plainPath source = RawText.ofString "-" →
        (execute typed ["run", source]).Matches filed.shell ran) ∧
      (execute worded ["run", "-q", RawText.ofString written]).Matches filed.shell ran := by
  have hrun := hshell.run_file path hword
  have hfiled := queryText_of_file hpath hfile hreturn
  have hread := queryText_of_input hreturn hinput
  have hhyphen : plainPath (RawText.ofString "-") = RawText.ofString "-" := by decide +kernel
  refine ⟨?_, ?_, fun source hhead hsource => ?_, ?_⟩
  · exact execute_matches htyped hrun hshell.run_hyphen hfiled (hread (some _) hhyphen)
  · exact execute_matches htyped hrun hshell.run hfiled (hread none rfl)
  · exact execute_matches htyped hrun (hshell.run_file source hhead) hfiled
      (hread (some source) hsource)
  · exact execute_matches hworded hrun (hshell.run_query _) hfiled
      (queryText_of_written hwritten hpair none)

theorem ways_of_giving_agree_backslashes :
    let text := "command: List Files" ++ "\n" ++ "folder: a\\" ++ "\n" ++ "\nname: x\\\\" ++ "\n"
    let written :=
      "command: List Files" ++ "\\n" ++ "folder: a\\" ++ "\\n" ++ "\nname: x\\\\" ++ "\\n"
    let octets := Utf8.encode text.toList
    let worded : World Http.Held := {
      savedWorld (.file (Slot.fileOctets "https://cloud.example.com/dav" (some "user")
        (some "word"))) with
      remote := ⟨.standard, Xml.Document.reader, fun _ => .response { status := 404 }⟩ }
    let filed := { worded with
      files := fun path => if path = RawText.ofString "query.txt" then some octets else none }
    let typed := { worded with input := .ofOctets octets }
    let ran := execute filed ["run", "./query.txt"]
    '\r' ∉ text.toList ∧ ¬ ['\\', 'n'] <:+: text.toList ∧
      WritesLineEnds text.toList written.toList ∧
      (execute typed ["run", "-"]).Matches .standard ran ∧
      (execute typed ["run"]).Matches .standard ran ∧
      (execute worded ["run", "-q", RawText.ofString written]).Matches .standard ran := by
  intro text written octets worded filed typed ran
  have hreturn : '\r' ∉ text.toList := by decide +kernel
  have hpair : ¬ ['\\', 'n'] <:+: text.toList := by decide +kernel
  have hlineEnd : WritesLineEnds "\n".toList "\\n".toList := .lineEnd .nil
  have hwritten : WritesLineEnds text.toList written.toList := by
    simp only [text, written, String.toList_append]
    exact (((((WritesLineEnds.refl _).append hlineEnd).append (.refl _)).append hlineEnd).append
      (.refl _)).append hlineEnd
  have hpath : plainPath "./query.txt" = RawText.ofString "query.txt" := by decide +kernel
  have hfile : filed.files (plainPath "./query.txt") = some octets := by
    rw [hpath]
    simp [filed]
  have htyped : filed.Resembles typed := ⟨rfl, rfl, rfl, rfl, rfl⟩
  have hworded : filed.Resembles worded := ⟨rfl, rfl, rfl, rfl, rfl⟩
  have hplain : plainPath "./query.txt" ≠ RawText.ofString "-" := by
    rw [hpath]
    decide
  obtain ⟨hhyphen, hnone, -, hword⟩ := ways_of_giving_agree Shell.standard_conventional hreturn
    hpair hwritten htyped hworded (by decide) hplain hfile rfl
  exact ⟨hreturn, hpair, hwritten, hhyphen, hnone, hword⟩

end DavQuery.Command
