import DavQuery.Command.Report

/-!
The command `login`: what is not given as an option is asked for, and the settings are saved.
-/

namespace DavQuery.Command

open Text

/-- A dialogue: what can still be typed, openly and hidden, and what has been shown. -/
structure Dialogue where
  input : Input
  hidden : List RawText
  out : List Shown := []
  prompts : List String := []

namespace Dialogue

def ask (d : Dialogue) (prompt : String) : Except Halt RawText × Dialogue :=
  let d := { d with out := d.out ++ [Shown.plain prompt] }
  match d.input.line with
  | .ok (line, input) => (.ok line.trim, { d with input })
  | .error h => (.error h, d)

def askHidden (d : Dialogue) (prompt : String) : Except Halt RawText × Dialogue :=
  let d := { d with prompts := d.prompts ++ [prompt] }
  match d.hidden with
  | answer :: hidden => (.ok answer, { d with hidden })
  | [] => (.error .endOfInput, d)

def given (d : Dialogue) (text : Option RawText) (prompt : String) :
    Except Halt RawText × Dialogue :=
  match text.filter (!·.isEmpty) with
  | some s => (.ok s, d)
  | none => d.ask prompt

end Dialogue

def unlessEmpty (s : RawText) : Option RawText := if s.isEmpty then none else some s

structure Answers where
  baseUrl : RawText
  username : Option RawText := none
  password : Option RawText := none
  deriving Repr, DecidableEq

namespace Login

def addressPrompt : String :=
  "WebDAV URL (e.g. https://cloud.example.com/remote.php/dav/files/alice/): "

def password (d : Dialogue) (username given : Option RawText) :
    Except Halt (Option RawText) × Dialogue :=
  match username, given with
  | some _, none =>
    let (answer, d) := d.askHidden "Password: "
    (answer.map some, d)
  | _, given => (.ok given, d)

/-- The settings of the options, the missing ones being asked for. Without an address no more is
asked. -/
def answers (d : Dialogue) (baseUrl username password : Option RawText) :
    Except Halt Answers × Dialogue :=
  match d.given baseUrl addressPrompt with
  | (.error h, d) => (.error h, d)
  | (.ok baseUrl, d) =>
    if baseUrl.isEmpty then (.ok { baseUrl }, d)
    else
      match d.given username "Username: " with
      | (.error h, d) => (.error h, d)
      | (.ok username, d) =>
        let username := unlessEmpty username
        match Login.password d username password with
        | (.error h, d) => (.error h, d)
        | (.ok password, d) => (.ok { baseUrl, username, password }, d)

def report (slot : Slot) (d : Dialogue) (o : Outcome) : Report :=
  { o with out := d.out ++ o.out, prompts := d.prompts, slot }

def run (shell : Shell) (slot : Slot) (d : Dialogue) (baseUrl username password : Option RawText) :
    Report :=
  match answers d baseUrl username password with
  | (.error .endOfInput, d) => report slot d { exit := .failure, err := shell.aborted }
  | (.error (.breach b), d) => report slot d (.breach b)
  | (.ok a, d) =>
    if a.baseUrl.isEmpty then report slot d (.error shell "error: base URL required")
    else
      match slot.save a.baseUrl a.username a.password with
      | (.ok (), slot) => report slot d (.lines shell ["Saved."])
      | (.error b, slot) => report slot d (.breach b)

end Login

end DavQuery.Command
