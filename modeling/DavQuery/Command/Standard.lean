import DavQuery.Command.Arguments

/-!
The shell of the program. Lines are printed without the sequences that steer a terminal; what a
breach prints is left out.
-/

namespace DavQuery.Command

def escape : Char := Char.ofNat 27

def isSequenceChar (c : Char) : Bool := c == ';' || c == '?' || c.isDigit

def afterSequence? : List Char → Option (List Char)
  | c :: '[' :: r =>
    if c = escape then
      match r.dropWhile isSequenceChar with
      | d :: rest => if d.isAlpha then some rest else none
      | [] => none
    else none
  | _ => none

def withoutSequences (s : List Char) : List Char :=
  match s with
  | [] => []
  | c :: r =>
    match afterSequence? (c :: r) with
    | some rest => if _ : rest.length < r.length + 1 then withoutSequences rest else []
    | none => c :: withoutSequences r
termination_by s.length

def echoed (s : String) : String := String.ofList (withoutSequences (s.toList ++ ['\n']))

/-- The shell of the program, whose output is UTF-8 and no terminal. -/
def Shell.standard : Shell where
  read := readLine
  echo text :=
    match text.text? with
    | some s => .ok (echoed s)
    | none => .error .unencodable
  echoError text := .ok (echoed text.shown)
  crash _ _ := ""
  aborted := "\nAborted.\n"

end DavQuery.Command
