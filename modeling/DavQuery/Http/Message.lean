import DavQuery.Failure

/-!
Requests, answers and servers. A server is a function of all requests it has got so far, the last
one being the one to answer.
-/

namespace DavQuery.Http

structure Request where
  method : String
  url : String
  depth : Option String := none
  contentType : Option String := none
  authorization : Option String := none
  body : String := ""
  deriving Repr, DecidableEq

structure Response where
  status : Int
  headers : List (String × String) := []
  body : List UInt8 := []
  deriving Repr, DecidableEq

inductive Answer where
  | response (r : Response)
  | fault (kind : RequestFault) (message : String)
  deriving Repr, DecidableEq

/-- A server; the requests are in the order in which they were sent. -/
abbrev Server := List Request → Answer

/-- The server that gives the answers in their order, and the last one from then on. -/
def Server.scripted (answers : List Answer) : Server := fun requests =>
  (answers[min requests.length answers.length - 1]?).getD (.response { status := 405 })

namespace Response

def isSuccess (r : Response) : Bool := 200 ≤ r.status && r.status ≤ 299

def header? (r : Response) (name : String) : Option String :=
  match (r.headers.filter fun h => h.1.toLower == name.toLower).map (·.2) with
  | [] => none
  | values => some (", ".intercalate values)

def location? (r : Response) : Option String :=
  if [301, 302, 303, 307, 308].contains r.status then r.header? "Location" else none

end Response

end DavQuery.Http
