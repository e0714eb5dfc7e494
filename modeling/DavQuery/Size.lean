import DavQuery.Failure
import DavQuery.Number.Rounding
import DavQuery.Text.Integer

/-!
Sizes as they are shown. A size is divided by a power of two to 53 significant bits, and the
quotient is then rounded to some decimal places; a quotient of 1025 bits or more is refused.
-/

namespace DavQuery.Size

open Number

def digits (size : Int) : Except Breach String :=
  if size.natAbs < tenTo Text.digitLimit then .ok (toString size) else .error .longNumber

def quotientText (places bits : Nat) (size : Int) : Except Breach String :=
  let n := significant size.natAbs
  if n < twoTo (1024 + bits) then
    let text := fixed places n (twoTo bits)
    .ok (String.ofList (if size < 0 then '-' :: text else text))
  else .error .sizeRange

def kilobytes (size : Int) : Except Breach String := quotientText 2 10 size

def megabytes (size : Int) : Except Breach String := quotientText 2 20 size

def text (size : Int) : Except Breach String :=
  if size < twoTo 10 then .ok s!"{size} B"
  else if size < twoTo 20 then (quotientText 1 10 size).map (· ++ " KiB")
  else if size < twoTo 30 then (quotientText 1 20 size).map (· ++ " MiB")
  else (quotientText 1 30 size).map (· ++ " GiB")

end DavQuery.Size
