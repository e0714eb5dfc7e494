import DavQuery.Http.Agent
import DavQuery.Proofs.Url.Address

/-! What is asked of an agent: that it keeps nothing from one call to the next that is seen later,
cookies apart, and that it sends a request to where the dots in an address lead. -/

namespace DavQuery.Http
open Text Url Url.Address

/-- No answer of the server asks for a cookie. -/
def Server.SetsNoCookies (server : Server) : Prop :=
  ∀ requests r, server requests = .response r → ∀ h ∈ r.headers, h.1.toLower ≠ "set-cookie"

/-- No answer of the server sends a request on. -/
def Server.NeverRedirects (server : Server) : Prop :=
  ∀ requests r, server requests = .response r → r.location? = none

theorem Server.SetsNoCookies.after {server : Server} (h : server.SetsNoCookies)
    (sent : List Request) : (server.after sent).SetsNoCookies :=
  fun requests => h (sent ++ requests)

theorem Server.NeverRedirects.after {server : Server} (h : server.NeverRedirects)
    (sent : List Request) : (server.after sent).NeverRedirects :=
  fun requests => h (sent ++ requests)

/-- What a call fails with that needs an address with a scheme. -/
def unschemed : Failure := .breach .missingScheme

namespace Agent
variable {κ : Type}

/-- The connection is the first one after calls. -/
inductive Reaches (agent : Agent κ) (first : κ) : κ → Prop
  | start : Reaches agent first first
  | send (server : Server) {k : κ} (call : Call) :
      Reaches agent first k → Reaches agent first (agent.send server k call).2.1

/-- Connections keep cookies and nothing else that is seen later. A new one has none, and gets none
from a server that sets none. A call on a connection has the outcome and sends the requests that it
would on a new one, unless the connection has cookies and the call fails for want of a scheme. -/
structure Discreet (agent : Agent κ) (hasCookies : κ → Bool) : Prop where
  connect : ∀ username password k, agent.connect username password = .ok k → hasCookies k = false
  keeps : ∀ server k call, Server.SetsNoCookies server → hasCookies k = false →
    hasCookies (agent.send server k call).2.1 = false
  send_eq : ∀ username password first k server call,
    agent.connect username password = .ok first → agent.Reaches first k →
      hasCookies k = false ∨ (agent.send server k call).1 ≠ .error unschemed →
        (agent.send server k call).1 = (agent.send server first call).1 ∧
          (agent.send server k call).2.2 = (agent.send server first call).2.2

/-- A call to an address of the web is sent to a path that reads as what its own one leads to. -/
def FollowsDots (agent : Agent κ) : Prop :=
  ∀ server k call path, Server.NeverRedirects server → IsWeb call.url.toList path →
    ∀ request ∈ (agent.send server k call).2.2, ∃ sent,
      HasPath request.url.toList sent ∧ Percent.decode sent = Percent.decode (destination path)

end Agent

end DavQuery.Http
