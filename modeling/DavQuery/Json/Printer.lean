import DavQuery.Text.Digit

/-!
Writing structured data: texts, and objects of texts with a member on each line.
-/

namespace DavQuery.Json

def textChar (c : Char) : List Char :=
  if c = '"' then ['\\', '"']
  else if c = '\\' then ['\\', '\\']
  else if c = '\n' then ['\\', 'n']
  else if c = '\r' then ['\\', 'r']
  else if c = '\t' then ['\\', 't']
  else if c.toNat = 8 then ['\\', 'b']
  else if c.toNat = 12 then ['\\', 'f']
  else if c.toNat < 32 then '\\' :: 'u' :: Text.hex 4 c.toNat
  else [c]

def printText (s : List Char) : List Char := '"' :: s.flatMap textChar ++ ['"']

def printMember (m : String × String) : List Char :=
  ' ' :: ' ' :: printText m.1.toList ++ ':' :: ' ' :: printText m.2.toList

def printObject (members : List (String × String)) : List Char :=
  if members.isEmpty then ['\x7b', '\x7d']
  else
    ['\x7b', '\n'] ++ [',', '\n'].intercalate (members.map printMember) ++ ['\n', '\x7d']

end DavQuery.Json
