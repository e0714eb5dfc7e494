import DavQuery.Command.Execute
import DavQuery.Command.Standard
import DavQuery.Http.Standard
import DavQuery.Xml.Document

/-! What is printed by a command: the lines of texts up to the first that cannot be printed. What is
asked of a shell is that a line can be printed exactly if it has no halves of characters in it. -/

namespace DavQuery.Command

/-- The output is UTF-8, and what it has no octets for can be told as error only. -/
structure Shell.OnUtf8 (shell : Shell) : Prop where
  echo : ∀ text, (∃ s, shell.echo text = .ok s) ↔ ∃ s, text.text? = some s
  echoError : ∀ text, ∃ s, shell.echoError text = .ok s

theorem Shell.standard_onUtf8 : Shell.standard.OnUtf8 where
  echo text := by
    simp only [standard]
    cases text.text? <;> simp
  echoError text := ⟨_, rfl⟩

/-- The text is printed as a line. -/
def Outcome.Prints (o : Outcome) (line : RawText) : Prop := ∃ s, Shown.line line s ∈ o.out

variable {shell : Shell} {line text : RawText} {texts : List RawText}

@[simp] theorem not_lines_nil_prints : ¬ (Outcome.lines shell []).Prints line := by
  simp [Outcome.Prints, Outcome.lines, printLines]

theorem lines_cons_prints_iff : (Outcome.lines shell (text :: texts)).Prints line ↔
    (∃ s, shell.echo text = .ok s) ∧
      (line = text ∨ (Outcome.lines shell texts).Prints line) := by
  unfold Outcome.Prints Outcome.lines
  rw [printLines.eq_2]
  cases shell.echo text with
  | error b => simp
  | ok s => simp [exists_or]

theorem not_breach_prints (b : Breach) : ¬ (Outcome.breach b).Prints line := by
  simp [Outcome.Prints, Outcome.breach]

theorem printLines_snd (hshell : shell.OnUtf8) (h : ∀ t ∈ texts, ∃ s, t.text? = some s) :
    (printLines shell texts).2 = .success := by
  induction texts with
  | nil => rfl
  | cons t texts ih =>
    rw [List.forall_mem_cons] at h
    obtain ⟨s, hs⟩ := (hshell.echo t).2 h.1
    simp only [printLines, hs, ih h.2]

theorem error_exit (hshell : shell.OnUtf8) (text : RawText) :
    (Outcome.error shell text).exit = .failure := by
  obtain ⟨s, hs⟩ := hshell.echoError text
  simp only [Outcome.error, hs]

theorem error_out (shell : Shell) (text : RawText) : (Outcome.error shell text).out = [] := by
  unfold Outcome.error
  cases shell.echoError text <;> rfl

theorem error_wire (shell : Shell) (text : RawText) : (Outcome.error shell text).wire = {} := by
  unfold Outcome.error
  cases shell.echoError text <;> rfl

def noon : Calendar.LocalTime :=
  ⟨.utc, ⟨⟨2025, 3, 15, by decide⟩, ⟨12, 0, 0, 0, by decide⟩⟩⟩

/-- At noon, with what is saved, no query file and a server that answers nothing of use. -/
def savedWorld (slot : Slot) : World Http.Held where
  shell := .standard
  remote := ⟨.standard, Xml.Document.reader, fun _ => .response { status := 405 }⟩
  here := noon
  slot := slot
  below := 900
  beyond := fun _ => .breach .unencodable

theorem execute_of_read {κ : Type} {w : World κ} {words : List RawText} {verbose : Bool}
    {o : Order} (h : w.shell.read words = .order verbose o) :
    execute w words = (o.carryOut w).finish w.shell verbose o := by
  rw [execute, h]

theorem list_eq_listTexts {κ : Type} {format : Option RawText} {filters : List RawText}
    {template : Option String} {words : List String}
    (hformat : format.mapM RawText.text? = some template)
    (hfilters : filters.mapM RawText.text? = some words) (w : World κ) (folder : RawText) :
    list w folder format filters = listTexts w folder template words := by
  simp only [list, hformat, hfilters]

theorem queryText_of_word {κ : Type} (w : World κ) (source : Option RawText) (query : String) :
    queryText w source (some (RawText.ofString query)) =
      .ok (String.ofList (unwriteLineEnds query.toList)) := by
  simp [queryText, givenText, RawText.ofString]

end DavQuery.Command
