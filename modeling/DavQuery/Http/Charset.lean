import DavQuery.Http.Message
import DavQuery.Text.Blank
import DavQuery.Text.Lower
import DavQuery.Text.Pieces
import DavQuery.Text.Utf8

/-!
The text of a body: its octets read in the character set that its type names, or as UTF-8. What is
no character is replaced.
-/

namespace DavQuery.Http

open Text

inductive Charset where
  | utf8
  | ascii
  | latin
  /-- Latin letters with the euro sign. -/
  | latinEuro
  /-- Latin letters with marks in the place of the second block of control characters. -/
  | windows
  /-- Units of sixteen bits: the more significant octet first, or not. -/
  | utf16 (bigEndian : Bool)
  /-- Units of sixteen bits whose order a mark at the start tells. -/
  | utf16Marked
  deriving Repr, DecidableEq

namespace Charset

def replacement : Char := Char.ofNat 0xFFFD

def names : List (String × Charset) :=
  [("utf-8", .utf8), ("utf8", .utf8), ("u8", .utf8), ("utf", .utf8), ("cp65001", .utf8),
    ("ascii", .ascii), ("us-ascii", .ascii), ("us", .ascii), ("646", .ascii),
    ("iso646-us", .ascii), ("ansi-x3.4-1968", .ascii), ("ansi-x3.4-1986", .ascii),
    ("cp367", .ascii), ("ibm367", .ascii), ("iso-8859-1", .latin), ("iso8859-1", .latin),
    ("8859", .latin), ("cp819", .latin), ("ibm819", .latin), ("latin", .latin),
    ("latin1", .latin), ("latin-1", .latin), ("l1", .latin), ("iso-ir-100", .latin),
    ("iso-8859-15", .latinEuro), ("iso8859-15", .latinEuro), ("latin9", .latinEuro),
    ("l9", .latinEuro), ("windows-1252", .windows), ("cp1252", .windows), ("1252", .windows),
    ("utf-16", .utf16Marked), ("utf16", .utf16Marked), ("u16", .utf16Marked),
    ("utf-16le", .utf16 false), ("utf-16-le", .utf16 false),
    ("unicodelittleunmarked", .utf16 false), ("utf-16be", .utf16 true),
    ("utf-16-be", .utf16 true), ("unicodebigunmarked", .utf16 true)]

def ofName? (name : String) : Option Charset :=
  let word (c : Char) := if c == '_' || c == ' ' then '-' else c.toLower
  names.lookup (String.ofList (name.toList.map word))

/-- The characters of the second block of control characters, zero where there is none. -/
def windowsMarks : List Nat :=
  [0x20AC, 0, 0x201A, 0x0192, 0x201E, 0x2026, 0x2020, 0x2021, 0x02C6, 0x2030, 0x0160, 0x2039,
    0x0152, 0, 0x017D, 0, 0, 0x2018, 0x2019, 0x201C, 0x201D, 0x2022, 0x2013, 0x2014, 0x02DC,
    0x2122, 0x0161, 0x203A, 0x0153, 0, 0x017E, 0x0178]

def euroMarks : List (Nat × Nat) :=
  [(0xA4, 0x20AC), (0xA6, 0x0160), (0xA8, 0x0161), (0xB4, 0x017D), (0xB8, 0x017E), (0xBC, 0x0152),
    (0xBD, 0x0153), (0xBE, 0x0178)]

def windowsChar (n : Nat) : Char :=
  if n < 0x80 ∨ 0xA0 ≤ n then Char.ofNat n
  else
    match windowsMarks.getD (n - 0x80) 0 with
    | 0 => replacement
    | m => Char.ofNat m

def units (bigEndian : Bool) : List UInt8 → List Nat × Bool
  | a :: b :: r =>
    let unit := if bigEndian then a.toNat * 256 + b.toNat else b.toNat * 256 + a.toNat
    let (us, odd) := units bigEndian r
    (unit :: us, odd)
  | [_] => ([], true)
  | [] => ([], false)

def ofUnits : List Nat → List Char
  | [] => []
  | n :: r =>
    if n < 0xD800 ∨ 0xE000 ≤ n then Char.ofNat n :: ofUnits r
    else
      match r with
      | m :: rest =>
        if n < 0xDC00 ∧ 0xDC00 ≤ m ∧ m < 0xE000 then
          Char.ofNat (0x10000 + (n - 0xD800) * 0x400 + (m - 0xDC00)) :: ofUnits rest
        else replacement :: ofUnits (m :: rest)
      | [] => [replacement]

def decodeUnits (bigEndian : Bool) (octets : List UInt8) : List Char :=
  let (us, odd) := units bigEndian octets
  ofUnits us ++ if odd then [replacement] else []

def decode (octets : List UInt8) : Charset → List Char
  | .utf8 => Utf8.decodeLenient octets
  | .ascii => octets.map fun b => if b < 128 then Char.ofNat b.toNat else replacement
  | .latin => octets.map fun b => Char.ofNat b.toNat
  | .latinEuro => octets.map fun b => Char.ofNat ((euroMarks.lookup b.toNat).getD b.toNat)
  | .windows => octets.map fun b => windowsChar b.toNat
  | .utf16 bigEndian => decodeUnits bigEndian octets
  | .utf16Marked =>
    match octets with
    | 0xFE :: 0xFF :: r => decodeUnits true r
    | 0xFF :: 0xFE :: r => decodeUnits false r
    | r => decodeUnits false r

def unquote (s : List Char) : List Char :=
  match s with
  | '"' :: r => if r.getLast? = some '"' then r.dropLast else s
  | s => s

def ofContentType? (type : String) : Option Charset :=
  let items := (type.toList.splitOn ';').drop 1
  let value? (item : List Char) : Option (List Char) := do
    let (name, value) ← cutFirst '=' item
    if lowerChars (trimChars name) = "charset".toList then pure (unquote (trimChars value))
    else none
  (items.findSome? value?).bind fun name => ofName? (String.ofList name)

end Charset

def Response.text (r : Response) : String :=
  let charset := ((r.header? "Content-Type").bind Charset.ofContentType?).getD .utf8
  String.ofList (charset.decode r.body)

end DavQuery.Http
