import DavQuery.Http.Message
import DavQuery.Json.Value
import DavQuery.Note

/-!
Agents: what carries calls to a server. A call may take several requests, or none at all. What an
agent keeps on a connection from one call to the next is its own.
-/

namespace DavQuery.Http

structure Call where
  method : String
  url : String
  depth : RawText
  contentType : Option String := none
  body : Option RawText := none
  deriving Repr, DecidableEq

def Server.after (server : Server) (sent : List Request) : Server :=
  fun requests => server (sent ++ requests)

@[simp] theorem Server.after_nil (server : Server) : server.after [] = server := rfl

/-- What carries calls to a server, over connections of type `κ`. -/
structure Agent (κ : Type) where
  /-- A connection with a login, whose name and password may be any values. -/
  connect (username password : Json.Value) : Except Breach κ
  /-- Makes a call: its outcome, the connection after it, and the requests that were sent. -/
  send (server : Server) (k : κ) (call : Call) : Except Failure Response × κ × List Request
  /-- The failure of a call to an address that is no text; nothing is sent. -/
  refuse (url : RawText) : Failure
  /-- The text in the body of an answer. -/
  text (r : Response) : Except Breach RawText

/-- The requests that have been sent, and what has been noted meanwhile. -/
structure Wire where
  sent : List Request := []
  notes : List Note := []
  deriving Repr, DecidableEq

namespace Wire

def note (w : Wire) (n : Note) : Wire := { w with notes := w.notes ++ [n] }

def noteAll (w : Wire) (ns : List Note) : Wire := { w with notes := w.notes ++ ns }

def add (w : Wire) (requests : List Request) : Wire := { w with sent := w.sent ++ requests }

@[simp] theorem note_sent (w : Wire) (n : Note) : (w.note n).sent = w.sent := rfl

@[simp] theorem noteAll_sent (w : Wire) (ns : List Note) : (w.noteAll ns).sent = w.sent := rfl

@[simp] theorem add_sent (w : Wire) (requests : List Request) :
    (w.add requests).sent = w.sent ++ requests := rfl

@[simp] theorem noteAll_nil (w : Wire) : w.noteAll [] = w := by
  simp [noteAll]

end Wire

end DavQuery.Http
