import DavQuery.Calendar.Timestamp

/-!
Why something fails. A failure that is announced to the person has a message; a breach is an input
beyond what the program is made for, and nothing stops it on its way out.
-/

namespace DavQuery

inductive RequestFault where
  | connect
  | read
  | write
  | close
  | network
  | connectTimeout
  | readTimeout
  | writeTimeout
  | poolTimeout
  | timeout
  | remoteProtocol
  | localProtocol
  | protocol
  | unsupportedScheme
  | proxy
  | transport
  | decoding
  | redirects
  | request
  deriving Repr, DecidableEq

/-- Whether the message never got across, as opposed to one that was not understood. -/
def RequestFault.isTransport : RequestFault → Bool
  | .decoding | .redirects | .request => false
  | _ => true

inductive SettingName where
  | baseUrl
  | username
  | password
  deriving Repr, DecidableEq

/-- Inputs beyond what the program is made for. -/
inductive Breach where
  /-- A size too big to be divided. -/
  | sizeRange
  /-- A bound of too many digits. -/
  | longNumber
  /-- A date that ends in a fault. -/
  | date (fault : Calendar.DateFault)
  /-- A reference whose host cannot be told. -/
  | hostReference
  /-- An address without a scheme, found out when it was answered. -/
  | missingScheme
  /-- A header that is not plain ASCII. -/
  | headerText
  /-- Octets that are no text. -/
  | notText
  /-- A text with half a character, where its octets are wanted. -/
  | unencodable
  /-- Structured data of too many levels. -/
  | nesting
  /-- A directory where a file is wanted. -/
  | directory
  /-- A setting that is no text. -/
  | setting (name : SettingName)
  /-- A source of records that fails in a way of its own. -/
  | source (message : String)
  deriving Repr, DecidableEq

inductive Failure where
  | general (message : String)
  /-- The query asks for no known command. -/
  | command (message : String)
  /-- The connection is not set up. -/
  | configuration (message : String)
  /-- The server answered with a status that is no success. -/
  | status (code : Int) (message : String)
  /-- The answer of the server is no listing. -/
  | response (message : String)
  /-- An exchange with the server went wrong. -/
  | request (fault : RequestFault) (message : String)
  | address (message : String)
  | breach (cause : Breach)
  deriving Repr, DecidableEq

namespace Failure

def unknownCommand : Failure := .command "Unknown command or missing parameters."

def notConfigured : Failure := .configuration "Please configure Nextcloud credentials in settings."

/-- The server answered with a status that is no success; the message tells the status unless it
is given. -/
def ofStatus (code : Int) (message : String) : Failure :=
  .status code (if message.isEmpty then s!"Server returned status {code}" else message)

def badStatus (code : Int) : Failure := ofStatus code ""

def message : Failure → String
  | .general m | .command m | .configuration m | .status _ m | .response m | .request _ m
  | .address m => m
  | .breach (.source m) => m
  | .breach _ => ""

/-- Whether the failure belongs to the program itself, and not to the exchange below it. -/
def isOwn : Failure → Bool
  | .general _ | .command _ | .configuration _ | .status _ _ | .response _ => true
  | _ => false

end Failure

end DavQuery
