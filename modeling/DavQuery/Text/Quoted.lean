import DavQuery.Text.Printable
import DavQuery.Text.RawText

/-!
A text in quotes, for messages: on one line, with every character that does not show written as an
escape. Single quotes stand around it, or double ones if the text has a single and no double quote.
-/

namespace DavQuery.Text

def quoteFor (s : RawText) : Char :=
  if s.contains (.char '\'') && !s.contains (.char '"') then '"' else '\''

def quotedPoint (quote : Char) : Point → List Char
  | .half n => RawText.shownPoint (.half n)
  | .char c =>
    let n := c.toNat
    if c = quote ∨ c = '\\' then ['\\', c]
    else if c = '\t' then ['\\', 't']
    else if c = '\n' then ['\\', 'n']
    else if c = '\r' then ['\\', 'r']
    else if isPrintable c then [c]
    else if n < 0x100 then '\\' :: 'x' :: hex 2 n
    else if n < 0x10000 then '\\' :: 'u' :: hex 4 n
    else '\\' :: 'U' :: hex 8 n

def quoted (s : RawText) : String :=
  let q := quoteFor s
  String.ofList (q :: s.flatMap (quotedPoint q) ++ [q])

end DavQuery.Text
