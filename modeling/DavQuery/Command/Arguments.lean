import DavQuery.Command.Report

/-!
The words of a command line: options with one hyphen and a letter, or two hyphens and a name, and
the words that are none. A value follows its option in the same word or in the next one.
-/

namespace DavQuery.Command

structure OptionName where
  long : String
  short : Option Char
  takesValue : Bool
  deriving Repr, DecidableEq

abbrev Given := OptionName × RawText

structure OptionWord where
  given : List Given := []
  waiting : Option OptionName := none
  deriving Repr, DecidableEq

def helpOption : OptionName := ⟨"--help", none, false⟩

/-- The options of letters after one hyphen; what follows the letter of an option that takes a value
is the value. -/
def readLetters (known : List OptionName) : RawText → Option OptionWord
  | [] => some {}
  | p :: r =>
    match known.find? (·.short.map Point.char = some p) with
    | none => none
    | some o =>
      if o.takesValue then
        some (if r.isEmpty then { waiting := some o } else { given := [(o, r)] })
      else (readLetters known r).map fun w => { w with given := (o, []) :: w.given }

def splitValue (s : RawText) : RawText × Option RawText :=
  match s.span (· != .char '=') with
  | (name, _ :: value) => (name, some value)
  | (name, []) => (name, none)

def readOption (known : List OptionName) (word : RawText) : Option OptionWord :=
  let (name, value) := splitValue word
  match known.find? (RawText.ofString ·.long = name) with
  | some o =>
    match o.takesValue, value with
    | true, some v => some { given := [(o, v)] }
    | true, none => some { waiting := some o }
    | false, some _ => none
    | false, none => some { given := [(o, [])] }
  | none =>
    if (RawText.ofString "--").isPrefixOf word then none else readLetters known (word.drop 1)

def isOption (word : RawText) : Bool := word.head? == some (.char '-') && 1 < word.length

/-- The options among words, and the words that are none. After `--` no word is an option; unless
`mixed`, none is after the first that is none. -/
def readWords (known : List OptionName) (mixed : Bool) :
    List RawText → Option (List Given × List RawText)
  | [] => some ([], [])
  | word :: r =>
    if word = RawText.ofString "--" then some ([], r)
    else if isOption word then
      match readOption known word, r with
      | none, _ => none
      | some ⟨given, none⟩, r => (readWords known mixed r).map fun p => (given ++ p.1, p.2)
      | some ⟨_, some _⟩, [] => none
      | some ⟨given, some o⟩, value :: r =>
        (readWords known mixed r).map fun p => (given ++ (o, value) :: p.1, p.2)
    else if mixed then (readWords known mixed r).map fun p => (p.1, word :: p.2)
    else some ([], word :: r)

def valueOf? (given : List Given) (long : String) : Option RawText :=
  ((given.filter (·.1.long = long)).getLast?).map (·.2)

def valuesOf (given : List Given) (long : String) : List RawText :=
  (given.filter (·.1.long = long)).map (·.2)

def misused : Line := .told 2 "" ""

def help : Line := .told 0 "" ""

def generalOptions : List OptionName := [⟨"--verbose", some 'v', false⟩, helpOption]

def loginOptions : List OptionName :=
  [⟨"--base-url", some 'b', true⟩, ⟨"--username", some 'u', true⟩, ⟨"--password", some 'p', true⟩,
    helpOption]

def runOptions : List OptionName := [⟨"--query", some 'q', true⟩, helpOption]

def listOptions : List OptionName :=
  [⟨"--format", some 'f', true⟩, ⟨"--filter", some 'F', true⟩, helpOption]

/-- Reads the options and words of a command, of which so many words are let in. -/
def readCommand (verbose : Bool) (known : List OptionName) (limit : Nat)
    (words : List RawText) (make : List Given → List RawText → Order) : Line :=
  match readWords known true words with
  | none => misused
  | some (given, rest) =>
    if given.any (·.1 = helpOption) then help
    else if limit < rest.length then misused
    else .order verbose (make given rest)

def readNamed (verbose : Bool) (name : String) (words : List RawText) : Line :=
  let plain (o : Order) : Line := readCommand verbose [helpOption] 0 words fun _ _ => o
  match name with
  | "login" =>
    readCommand verbose loginOptions 0 words fun given _ =>
      .login (valueOf? given "--base-url") (valueOf? given "--username")
        (valueOf? given "--password")
  | "logout" => plain .logout
  | "test" => plain .test
  | "info" => plain .info
  | "run" =>
    readCommand verbose runOptions 1 words fun given rest =>
      .run rest.head? (valueOf? given "--query")
  | "list" | "ls" =>
    readCommand verbose listOptions 1 words fun given rest =>
      .list (rest.headD "/") (valueOf? given "--format") (valuesOf given "--filter")
  | _ => misused

def readAuth (verbose : Bool) (words : List RawText) : Line :=
  match readWords [helpOption] false words with
  | none => misused
  | some (given, rest) =>
    if given.any (·.1 = helpOption) then help
    else
      match rest with
      | word :: words =>
        if word = RawText.ofString "status" then
          readCommand verbose [helpOption] 0 words fun _ _ => .authStatus
        else misused
      | [] => misused

def readLine (words : List RawText) : Line :=
  match readWords generalOptions false words with
  | none => misused
  | some (given, rest) =>
    let verbose := (valueOf? given "--verbose").isSome
    if given.any (·.1 = helpOption) then help
    else
      match rest with
      | word :: words =>
        match word.text? with
        | some "auth" => readAuth verbose words
        | some name => readNamed verbose name words
        | none => misused
      | [] => misused

end DavQuery.Command
