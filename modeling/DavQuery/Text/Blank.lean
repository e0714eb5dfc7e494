/-!
White space in the wide sense: every character that texts are trimmed of and words are parted by.
The zero-width space and the byte-order mark are no white space.
-/

namespace DavQuery.Text

def isBlank (c : Char) : Bool :=
  let n := c.toNat
  (9 ≤ n && n ≤ 13) || (28 ≤ n && n ≤ 32) || n == 0x85 || n == 0xA0 || n == 0x1680 ||
    (0x2000 ≤ n && n ≤ 0x200A) || n == 0x2028 || n == 0x2029 || n == 0x202F || n == 0x205F ||
    n == 0x3000

def dropEndWhile {α : Type} (p : α → Bool) (s : List α) : List α :=
  (s.reverse.dropWhile p).reverse

def trimChars (s : List Char) : List Char :=
  dropEndWhile isBlank (s.dropWhile isBlank)

def trim (s : String) : String :=
  String.ofList (trimChars s.toList)

@[simp] theorem toList_trim (s : String) : (trim s).toList = trimChars s.toList :=
  String.toList_ofList

def dropEndSlashes (s : String) : String :=
  String.ofList (dropEndWhile (· == '/') s.toList)

@[simp] theorem toList_dropEndSlashes (s : String) :
    (dropEndSlashes s).toList = dropEndWhile (· == '/') s.toList :=
  String.toList_ofList

def words (s : List Char) : List (List Char) :=
  (s.splitOnP isBlank).filter (· ≠ [])

end DavQuery.Text
