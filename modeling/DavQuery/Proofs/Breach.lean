import DavQuery.Proofs.Calendar.Fault
import DavQuery.Proofs.Number.Rounding
import DavQuery.Proofs.Table
import DavQuery.Proofs.Text.Leading
import DavQuery.Template

/-! Where a criterion or a template breaks on a record: a bound of too many digits, a date that
ends in a fault, a size too big to be divided. Nothing else breaks. -/

namespace DavQuery
open Calendar Text Number

/-- The criterion breaks on the record. -/
inductive Criterion.Breaks (here : LocalTime) (r : Record) (c : Criterion) : Breach → Prop
  | size : c.aspect? = some .minSize ∨ c.aspect? = some .maxSize →
      StartsTooLong c.value.toList → Breaks here r c .longNumber
  | modified : c.aspect? = some .modifiedAfter ∨ c.aspect? = some .modifiedBefore →
      Overflows r.modified.toList → Breaks here r c (.date .numberRange)
  | date {fault : DateFault} : c.aspect? = some .modifiedAfter ∨ c.aspect? = some .modifiedBefore →
      ¬ Overflows r.modified.toList → Faulty here c.value.toList fault →
      Breaks here r c (.date fault)

theorem Aspect.ofKey?_eq_some_iff {key : String} {a : Aspect} :
    Aspect.ofKey? key = some a ↔ (key, a) ∈ Aspect.keys :=
  lookup_eq_some_iff_mem (by decide)

namespace Criterion

theorem withinBound_eq_error_iff {value : String} {test : Int → Bool} {b : Breach} :
    withinBound value test = .error b ↔ b = .longNumber ∧ StartsTooLong value.toList := by
  rw [← leadingInteger_eq_tooLong_iff_startsTooLong, withinBound]
  cases leadingInteger value.toList <;> simp [eq_comm]

theorem modifiedAt?_eq_error_iff {zone : Zone} {r : Record} {fault : DateFault} :
    r.modifiedAt? zone = .error fault ↔ fault = .numberRange ∧ Overflows r.modified.toList :=
  readStamp?_eq_error_iff

theorem comparesDates_eq_error_iff {here : LocalTime} {r : Record} {value : String}
    {test : Stamp → Stamp → Bool} {b : Breach} :
    comparesDates here r value test = .error b ↔
      b = .date .numberRange ∧ Overflows r.modified.toList ∨
        ¬ Overflows r.modified.toList ∧
          ∃ fault, b = .date fault ∧ Faulty here value.toList fault := by
  unfold comparesDates dates?
  cases hr : r.modifiedAt? here.zone with
  | error e =>
    obtain ⟨rfl, hover⟩ := modifiedAt?_eq_error_iff.1 hr
    simp [bind, Except.bind, hover, eq_comm]
  | ok modified =>
    have hno : ¬ Overflows r.modified.toList := fun h => by
      simp [modifiedAt?_eq_error_iff.2 ⟨rfl, h⟩] at hr
    simp only [bind, Except.bind, hno, and_false, not_false_eq_true, true_and, false_or]
    cases hv : resolve? here value with
    | error e =>
      have hfault := resolveChars?_eq_error_iff.1 hv
      simp only [Except.error.injEq]
      constructor
      · rintro rfl
        exact ⟨e, rfl, hfault⟩
      · rintro ⟨fault, rfl, h⟩
        have := resolveChars?_eq_error_iff.2 h
        rw [resolve?, this, Except.error.injEq] at hv
        rw [hv]
    | ok bound =>
      have hno : ∀ fault, ¬ Faulty here value.toList fault := fun fault h => by
        simp [resolve?, resolveChars?_eq_error_iff.2 h] at hv
      simp only [hno, and_false, exists_false, iff_false, pure, Except.pure]
      split <;> simp_all

theorem holds_of_aspect {c : Criterion} {a : Aspect} (h : c.aspect? = some a) (here : LocalTime)
    (r : Record) : c.holds here r = test here r c.value a := by
  rw [holds, h]

theorem aspect?_of_value {key value : String} {a : Aspect} (hkey : Aspect.ofKey? key = some a)
    (h : value ≠ "") : aspect? ⟨key, value⟩ = some a := by
  simp [aspect?, hkey, Option.filter, h]

theorem holds_eq_error_iff {here : LocalTime} {r : Record} {c : Criterion} {b : Breach} :
    c.holds here r = .error b ↔ c.Breaks here r b := by
  constructor
  · intro h
    cases ha : c.aspect? with
    | none => simp [holds, ha] at h
    | some a =>
      rw [holds_of_aspect ha] at h
      cases a with
      | minSize =>
        obtain ⟨rfl, hlong⟩ := withinBound_eq_error_iff.1 h
        exact .size (.inl ha) hlong
      | maxSize =>
        obtain ⟨rfl, hlong⟩ := withinBound_eq_error_iff.1 h
        exact .size (.inr ha) hlong
      | modifiedAfter =>
        obtain ⟨rfl, hover⟩ | ⟨hno, fault, rfl, hfault⟩ := comparesDates_eq_error_iff.1 h
        · exact .modified (.inl ha) hover
        · exact .date (.inl ha) hno hfault
      | modifiedBefore =>
        obtain ⟨rfl, hover⟩ | ⟨hno, fault, rfl, hfault⟩ := comparesDates_eq_error_iff.1 h
        · exact .modified (.inr ha) hover
        · exact .date (.inr ha) hno hfault
      | _ => simp [test] at h
  · rintro (⟨ha | ha, h⟩ | ⟨ha | ha, h⟩ | ⟨ha | ha, hno, h⟩)
    all_goals rw [holds_of_aspect ha]
    · exact withinBound_eq_error_iff.2 ⟨rfl, h⟩
    · exact withinBound_eq_error_iff.2 ⟨rfl, h⟩
    · exact comparesDates_eq_error_iff.2 (.inl ⟨rfl, h⟩)
    · exact comparesDates_eq_error_iff.2 (.inl ⟨rfl, h⟩)
    · exact comparesDates_eq_error_iff.2 (.inr ⟨hno, _, rfl, h⟩)
    · exact comparesDates_eq_error_iff.2 (.inr ⟨hno, _, rfl, h⟩)

end Criterion

/-- The least size that is too big to be divided by two to the number of bits: rounded, its
quotient has 1025 bits. -/
def Size.limit (bits : Nat) : Nat := 2 ^ (1024 + bits) - 2 ^ (970 + bits)

theorem Size.quotientText_eq_error_iff {places bits : Nat} {size : Int} {b : Breach} :
    Size.quotientText places bits size = .error b ↔
      b = .sizeRange ∧ Size.limit bits ≤ size.natAbs := by
  have hlt := significant_lt_iff (n := size.natAbs) (k := 1024 + bits) (by omega)
  have he : 1024 + bits - 54 = 970 + bits := by omega
  rw [he] at hlt
  unfold quotientText limit
  by_cases h : significant size.natAbs < twoTo (1024 + bits)
  · have := hlt.1 h
    simp only [if_pos h, reduceCtorEq, false_iff, not_and, Nat.not_le]
    exact fun _ => this
  · have := mt hlt.2 h
    simp only [if_neg h, Except.error.injEq, Nat.not_lt.1 this, and_true, eq_comm]

theorem Size.digits_eq_error_iff {size : Int} {b : Breach} :
    Size.digits size = .error b ↔ b = .longNumber ∧ 10 ^ digitLimit ≤ size.natAbs := by
  rw [digits, tenTo_eq]
  by_cases h : size.natAbs < 10 ^ digitLimit
  · rw [if_pos h]
    exact iff_of_false (by simp) fun hb => absurd hb.2 (Nat.not_le.2 h)
  · rw [if_neg h, Except.error.injEq, eq_comm]
    exact (and_iff_left (Nat.not_lt.1 h)).symm

/-- The token breaks on the record. -/
inductive Token.Breaks (r : Record) : Token → Breach → Prop
  | size : 10 ^ digitLimit ≤ r.size.natAbs → Breaks r .size .longNumber
  | kilobytes : Size.limit 10 ≤ r.size.natAbs → Breaks r .kilobytes .sizeRange
  | megabytes : Size.limit 20 ≤ r.size.natAbs → Breaks r .megabytes .sizeRange
  | date : Overflows r.modified.toList → Breaks r .date (.date .numberRange)
  | datetime : Overflows r.modified.toList → Breaks r .datetime (.date .numberRange)

namespace Token

theorem ofWord?_eq_some_iff {word : String} {token : Token} :
    ofWord? word = some token ↔ (word, token) ∈ words :=
  lookup_eq_some_iff_mem (by decide)

theorem localText_eq_error_iff {zone : Zone} {r : Record} {write : DateTime → List Char}
    {b : Breach} :
    localText zone r write = .error b ↔
      b = .date .numberRange ∧ Overflows r.modified.toList := by
  unfold localText
  cases hr : r.modifiedAt? zone with
  | error e =>
    obtain ⟨rfl, hover⟩ := Criterion.modifiedAt?_eq_error_iff.1 hr
    simp [hover, eq_comm]
  | ok stamp =>
    have hno : ¬ Overflows r.modified.toList := fun h => by
      simp [Criterion.modifiedAt?_eq_error_iff.2 ⟨rfl, h⟩] at hr
    simp only [hno, and_false, iff_false]
    split <;> simp

theorem value_eq_error_iff {zone : Zone} {r : Record} {token : Token} {b : Breach} :
    token.value zone r = .error b ↔ token.Breaks r b := by
  constructor
  · intro h
    cases token with
    | size =>
      rw [value, Size.digits_eq_error_iff] at h
      exact h.1 ▸ .size h.2
    | kilobytes =>
      rw [value, Size.kilobytes, Size.quotientText_eq_error_iff] at h
      exact h.1 ▸ .kilobytes h.2
    | megabytes =>
      rw [value, Size.megabytes, Size.quotientText_eq_error_iff] at h
      exact h.1 ▸ .megabytes h.2
    | date =>
      rw [value, localText_eq_error_iff] at h
      exact h.1 ▸ .date h.2
    | datetime =>
      rw [value, localText_eq_error_iff] at h
      exact h.1 ▸ .datetime h.2
    | _ => simp [value] at h
  · intro h
    cases h with
    | size hlong =>
      rw [value, Size.digits_eq_error_iff]
      exact ⟨rfl, hlong⟩
    | kilobytes hbig =>
      rw [value, Size.kilobytes, Size.quotientText_eq_error_iff]
      exact ⟨rfl, hbig⟩
    | megabytes hbig =>
      rw [value, Size.megabytes, Size.quotientText_eq_error_iff]
      exact ⟨rfl, hbig⟩
    | date hover | datetime hover =>
      rw [value, localText_eq_error_iff]
      exact ⟨rfl, hover⟩

end Token

namespace Template

/-- The template names a token that breaks on the record. -/
def Breaks (template : String) (r : Record) : Prop :=
  ∃ word token b, .placeholder word ∈ pieces template.toList ∧
    (String.ofList word, token) ∈ Token.words ∧ token.Breaks r b

theorem exists_expand_eq_error_iff_token {zone : Zone} {r : Record} {piece : Piece} :
    (∃ b, piece.expand zone r = .error b) ↔ ∃ word token b, piece = .placeholder word ∧
      (String.ofList word, token) ∈ Token.words ∧ token.Breaks r b := by
  cases piece with
  | literal c => simp [Piece.expand]
  | placeholder word =>
    simp only [Piece.expand, Piece.placeholder.injEq]
    cases hw : Token.ofWord? (String.ofList word) with
    | none =>
      have hno : ∀ token, (String.ofList word, token) ∉ Token.words := fun token h => by
        simp [Token.ofWord?_eq_some_iff.2 h] at hw
      simp only [reduceCtorEq, exists_false, false_iff]
      rintro ⟨_, token, b, rfl, h, -⟩
      exact hno token h
    | some token =>
      constructor
      · rintro ⟨b, h⟩
        refine ⟨word, token, b, rfl, Token.ofWord?_eq_some_iff.1 hw, ?_⟩
        cases hv : token.value zone r with
        | ok v => simp [hv, Except.map] at h
        | error e =>
          obtain rfl : e = b := by simpa [hv, Except.map] using h
          exact Token.value_eq_error_iff.1 hv
      · rintro ⟨_, token', b, rfl, h, hb⟩
        obtain rfl : token = token' :=
          Option.some.inj (hw.symm.trans (Token.ofWord?_eq_some_iff.2 h))
        exact ⟨b, by simp [Token.value_eq_error_iff.2 hb, Except.map]⟩

theorem exists_expandPieces_eq_error_iff {zone : Zone} {r : Record} {ps : List Piece} :
    (∃ b, expandPieces zone r ps = .error b) ↔ ∃ p ∈ ps, ∃ b, p.expand zone r = .error b := by
  induction ps with
  | nil => simp [expandPieces]
  | cons p ps ih =>
    rw [expandPieces]
    simp only [List.mem_cons, exists_eq_or_imp, ← ih]
    cases p.expand zone r with
    | error e => simp [bind, Except.bind]
    | ok text =>
      cases expandPieces zone r ps <;> simp [bind, Except.bind, pure, Except.pure]

theorem exists_expandOr_eq_error_iff {zone : Zone} {template : Option String} {r : Record} :
    (∃ b, expandOr zone template r = .error b) ↔ Breaks (template.getD "") r := by
  have hpieces : (∃ b, expandPieces zone r (pieces (template.getD "").toList) = .error b) ↔
      Breaks (template.getD "") r := by
    rw [exists_expandPieces_eq_error_iff, Breaks]
    simp only [exists_expand_eq_error_iff_token]
    constructor
    · rintro ⟨_, hp, word, token, b, rfl, h⟩
      exact ⟨word, token, b, hp, h⟩
    · rintro ⟨word, token, b, hp, h⟩
      exact ⟨_, hp, word, token, b, rfl, h⟩
  rw [← hpieces, expandOr, expand]
  by_cases hempty : (template.getD "").isEmpty = true
  · have htext : template.getD "" = "" := by simpa using hempty
    simp [htext, pieces, expandPieces]
  · rw [if_neg hempty]
    cases expandPieces zone r (pieces (template.getD "").toList) <;> simp [Except.map]

end Template

end DavQuery
