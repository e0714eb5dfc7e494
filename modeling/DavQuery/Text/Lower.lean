import DavQuery.Text.Case

/-!
Small letters of a text. The map is by character but for two capitals: the Greek sigma, which has
a form of its own at the end of a word, and the dotted I, whose small form is two characters.
-/

namespace DavQuery.Text

/-- The small letter of a capital whose small form is one letter; any other character is kept. -/
def lowerChar (c : Char) : Char :=
  let n := c.toNat
  if n < 128 then c.toLower
  else
    match capitalRuns.find? (·.holds n) with
    | some r => Char.ofNat (Int.toNat (n + r.shift))
    | none => c

/-- Whether the next character that a case rule does not look through has case. -/
def startsCased (s : List Char) : Bool :=
  match s.dropWhile isCaseIgnorable with
  | c :: _ => isCased c
  | [] => false

/-- The small form of the character `c` that stands before `rest`; `afterCased` tells whether a
cased character stands before it. -/
def lowerAt (afterCased : Bool) (c : Char) (rest : List Char) : List Char :=
  if c = 'Σ' then [if afterCased && !startsCased rest then 'ς' else 'σ']
  else if c = 'İ' then ['i', Char.ofNat 0x307]
  else [lowerChar c]

def lowerFrom (afterCased : Bool) : List Char → List Char
  | [] => []
  | c :: r =>
    lowerAt afterCased c r ++ lowerFrom (if isCaseIgnorable c then afterCased else isCased c) r

def lowerChars (s : List Char) : List Char := lowerFrom false s

def lower (s : String) : String := String.ofList (lowerChars s.toList)

end DavQuery.Text
