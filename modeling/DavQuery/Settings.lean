import DavQuery.Json.Value

/-!
The settings of a connection: the address of the person's root, the name and the password. They come
from a saved object, so a setting need not be a text; one that counts as not given is empty.
-/

namespace DavQuery

open Json

structure Settings where
  baseUrl : Value := .text ""
  username : Value := .text ""
  password : Value := .text ""
  deriving Repr

namespace Settings

def ofTexts (baseUrl username password : String) : Settings :=
  ⟨.text baseUrl, .text username, .text password⟩

def orEmpty (v : Option Value) : Value :=
  match v with
  | some v => if v.isGiven then v else .text ""
  | none => .text ""

def ofMembers (members : List (RawText × Value)) : Settings where
  baseUrl := orEmpty (member? members "base_url")
  username := orEmpty (member? members "username")
  password := orEmpty (member? members "password")

def isComplete (s : Settings) : Bool :=
  s.baseUrl.isGiven && s.username.isGiven && s.password.isGiven

end Settings

end DavQuery
