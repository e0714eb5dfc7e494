import DavQuery.Executor

/-!
Blocks: a query as it is shown in place, as a list of items or as one line of message.
-/

namespace DavQuery

open Calendar

structure Block where
  items : List String := []
  message : Option String := none
  noBullets : Bool := false
  isError : Bool := false
  deriving Repr, DecidableEq

namespace Block

def noResults : String := "No files found matching criteria."

def ofFailure (q : Query) (f : Failure) : Block where
  message := some ("Error: " ++ f.message)
  noBullets := q.noBullets
  isError := true

def ofItems (q : Query) (items : List String) : Block :=
  if items.isEmpty then { message := some noResults, noBullets := q.noBullets }
  else { items, noBullets := q.noBullets }

def ofOutcome (q : Query) : Except Failure (List String) → Except Breach Block
  | .ok items => .ok (ofItems q items)
  | .error (.breach b) => .error b
  | .error f => .ok (ofFailure q f)

def notesOf : Except Failure (List String) → List Note
  | .ok _ | .error (.breach _) => []
  | .error f => [.failed f.message]

def unknownCommand : Block where
  message := some Failure.unknownCommand.message
  isError := true

def render (source : Source σ) (here : LocalTime) (settings : Settings) (text : String) (s : σ) :
    Except Breach Block × σ :=
  let (q, ignored) := Query.readWithIgnored text
  let s := source.noteAll (ignored.map .ignored) s
  if q.command ≠ some Executor.listFiles then (.ok unknownCommand, s)
  else
    let (outcome, s) := Executor.execute source here settings q s
    (ofOutcome q outcome, source.noteAll (notesOf outcome) s)

end Block

end DavQuery
