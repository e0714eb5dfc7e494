import DavQuery.Text.Blank
import DavQuery.Text.Digit

/-!
Texts as they come from outside. They may hold halves of characters: code units that make a
character only two together. A text with a half in it cannot be encoded.
-/

namespace DavQuery

open Text

inductive Point where
  | char (c : Char)
  /-- The code unit that is so far above `0xD800`. -/
  | half (n : Fin 0x800)
  deriving Repr, DecidableEq

abbrev RawText := List Point

namespace RawText

def ofChars (s : List Char) : RawText := s.map .char

def ofString (s : String) : RawText := ofChars s.toList

@[simp] theorem ofChars_cons (c : Char) (s : List Char) :
    ofChars (c :: s) = .char c :: ofChars s := rfl

@[simp] theorem ofChars_append (s t : List Char) : ofChars (s ++ t) = ofChars s ++ ofChars t :=
  List.map_append

instance : Coe String RawText := ⟨ofString⟩

def chars? : RawText → Option (List Char)
  | [] => some []
  | .char c :: r => (chars? r).map (c :: ·)
  | .half _ :: _ => none

def text? (s : RawText) : Option String := s.chars?.map String.ofList

def isBlank : Point → Bool
  | .char c => Text.isBlank c
  | .half _ => false

def trim (s : RawText) : RawText := dropEndWhile isBlank (s.dropWhile isBlank)

def dropEndSlashes (s : RawText) : RawText := dropEndWhile (· == .char '/') s

/-- A point as it is written where it need not be read back. -/
def shownPoint : Point → List Char
  | .char c => [c]
  | .half n => '\\' :: 'u' :: hex 4 (0xD800 + n)

def shown (s : RawText) : String := String.ofList (s.flatMap shownPoint)

@[simp] theorem chars?_ofChars (s : List Char) : (ofChars s).chars? = some s := by
  induction s with
  | nil => rfl
  | cons c s ih => simpa [ofChars, chars?] using ih

@[simp] theorem chars?_ofChars_append (s : List Char) (t : RawText) :
    (ofChars s ++ t).chars? = t.chars?.map (s ++ ·) := by
  induction s with
  | nil => simp [ofChars]
  | cons c s ih => simp [chars?, ih, Function.comp_def]

@[simp] theorem text?_ofString (s : String) : (ofString s).text? = some s := by
  rw [text?, ofString, chars?_ofChars, Option.map_some, String.ofList_toList]

@[simp] theorem dropEndSlashes_ofChars (s : List Char) :
    (ofChars s).dropEndSlashes = ofChars (dropEndWhile (· == '/') s) := by
  have hslash (c : Char) : (Point.char c == .char '/') = (c == '/') := by
    rw [Bool.eq_iff_iff]
    simp
  simp [dropEndSlashes, dropEndWhile, ofChars, ← List.map_reverse, List.dropWhile_map,
    Function.comp_def, hslash]

theorem exists_text?_ofString_append_iff (s : String) (t : RawText) :
    (∃ x, (ofString s ++ t).text? = some x) ↔ ∃ x, t.text? = some x := by
  cases h : t.chars? <;> simp [text?, ofString, h]

theorem chars?_eq_some_iff {s : RawText} {t : List Char} : s.chars? = some t ↔ s = ofChars t := by
  refine ⟨fun h => ?_, fun h => h ▸ chars?_ofChars t⟩
  induction s generalizing t with
  | nil =>
    cases h
    rfl
  | cons p s ih =>
    cases p with
    | char c =>
      obtain ⟨r, hr, rfl⟩ := Option.map_eq_some_iff.1 h
      rw [ih hr]
      rfl
    | half n => cases h

theorem text?_eq_some_iff {s : RawText} {t : String} : s.text? = some t ↔ s = ofString t := by
  refine ⟨fun h => ?_, fun h => h ▸ text?_ofString t⟩
  obtain ⟨r, hr, rfl⟩ := Option.map_eq_some_iff.1 h
  rw [chars?_eq_some_iff.1 hr, ofString, String.toList_ofList]

@[simp] theorem ofChars_inj {s t : List Char} : ofChars s = ofChars t ↔ s = t := by
  refine ⟨fun h => ?_, fun h => h ▸ rfl⟩
  simpa using congrArg chars? h

@[simp] theorem ofString_inj {s t : String} : ofString s = ofString t ↔ s = t :=
  ofChars_inj.trans String.toList_inj

@[simp] theorem ofString_eq_nil_iff {s : String} : ofString s = [] ↔ s = "" :=
  ofString_inj (t := "")

end RawText

end DavQuery
