import DavQuery.Command.Input
import DavQuery.Http.Agent
import DavQuery.Slot

/-!
What a command does: what it prints, what it asks for in hiding, what it sends, what it notes, what
it leaves in the slot of the settings, and how it ends. The words of the command line are read, and
lines are printed, by a shell.
-/

namespace DavQuery.Command

inductive Order where
  | login (baseUrl username password : Option RawText)
  | logout
  | authStatus
  | test
  | run (source query : Option RawText)
  | list (folder : RawText) (format : Option RawText) (filters : List RawText)
  | info
  deriving Repr, DecidableEq

inductive Exit where
  | code (n : Nat)
  | breach (cause : Breach)
  deriving Repr, DecidableEq

namespace Exit

abbrev success : Exit := .code 0

abbrev failure : Exit := .code 1

def status : Exit → Nat
  | .code n => n
  | .breach _ => 1

end Exit

/-- What the words of a command line come to. -/
inductive Line where
  /-- They make no order: the shell tells what there is to tell. -/
  | told (code : Nat) (out err : String)
  | order (verbose : Bool) (o : Order)
  deriving Repr, DecidableEq

structure Shell where
  read (words : List RawText) : Line
  /-- A line of a text as it is printed. -/
  echo (text : RawText) : Except Breach String
  /-- A line of a text as it is printed as error. -/
  echoError (text : RawText) : Except Breach String
  /-- What is printed as error when an order ends in a breach. -/
  crash (o : Order) (cause : Breach) : String
  /-- What is printed as error when the input ends too early. -/
  aborted : String

inductive Shown where
  | plain (s : String)
  /-- A text as a line, and how it is written. -/
  | line (text : RawText) (written : String)
  deriving Repr, DecidableEq

def Shown.written : Shown → String
  | .plain s | .line _ s => s

/-- The report of a command but for the slot. -/
structure Outcome where
  exit : Exit := .success
  out : List Shown := []
  err : String := ""
  /-- The prompts behind which nothing is shown. -/
  prompts : List String := []
  wire : Http.Wire := {}

structure Report extends Outcome where
  slot : Slot

def printLines (shell : Shell) : List RawText → List Shown × Exit
  | [] => ([], .success)
  | text :: r =>
    match shell.echo text with
    | .error b => ([], .breach b)
    | .ok s =>
      let (out, exit) := printLines shell r
      (.line text s :: out, exit)

namespace Outcome

def lines (shell : Shell) (texts : List RawText) : Outcome :=
  let (out, exit) := printLines shell texts
  { exit, out }

def error (shell : Shell) (text : RawText) : Outcome :=
  match shell.echoError text with
  | .ok err => { exit := .failure, err }
  | .error b => { exit := .breach b }

def breach (cause : Breach) : Outcome := { exit := .breach cause }

def on (o : Outcome) (wire : Http.Wire) : Outcome := { o with wire }

def text (o : Outcome) : String := String.join (o.out.map (·.written))

end Outcome

namespace Report

def keep (slot : Slot) (o : Outcome) : Report := { o with slot }

/-- The report with all that is printed as error: the notes if they are wanted, what the command
prints, and what is printed at a breach. -/
def finish (shell : Shell) (verbose : Bool) (o : Order) (r : Report) : Report :=
  let notes := if verbose then String.join (r.wire.notes.map (·.text ++ "\n")) else ""
  let crash :=
    match r.exit with
    | .breach b => shell.crash o b
    | .code _ => ""
  { r with err := notes ++ r.err ++ crash }

end Report

end DavQuery.Command
