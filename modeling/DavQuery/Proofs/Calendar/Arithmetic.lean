import DavQuery.Proofs.Calendar.Fault
import DavQuery.Proofs.Calendar.Move
import DavQuery.Proofs.Calendar.Shift
import DavQuery.Proofs.Text.Digit
import DavQuery.Proofs.Text.Lower

/-! The meaning of date arithmetic. Whatever signs, digits and words the base holds, the shift is
what stands behind the last sign, and the expression tells the value of the base moved by just so
many units; it tells nothing exactly if the base has no value or the years do not last. -/

namespace DavQuery
namespace Calendar
open Text

theorem isNow_eq_false_of_length {s : List Char} (h : 3 < (trimChars s).length) :
    isNow s = false := by
  rw [isNow, beq_eq_false_iff_ne]
  intro hlower
  have hle := length_le_length_lowerFrom false (trimChars s)
  rw [← lowerChars, hlower] at hle
  exact absurd hle (Nat.not_le.2 h)

theorem likeLetter_of_isAlpha_toLower {c : Char} (h : c.toLower.isAlpha = true) :
    likeLetter c = c.toLower ∧ hasPlainSmall c = true := by
  have hascii := toNat_lt_of_isAlpha_toLower h
  have hne {d : Char} (hd : 128 ≤ d.toNat) : c ≠ d := by
    rintro rfl
    omega
  have hkelvin : c ≠ kelvinSign := hne (by decide)
  have hlong : c ≠ 'ſ' := hne (by decide)
  have hdotless : c ≠ 'ı' := hne (by decide)
  have hdotted : c ≠ 'İ' := hne (by decide)
  simp [likeLetter, hasPlainSmall, hkelvin, hlong, hdotless, hdotted, hascii]

theorem map_likeLetter_of_map_toLower {s : List Char} {u : TimeUnit}
    (h : s.map Char.toLower = u.name) :
    s.map likeLetter = u.name ∧ s.all hasPlainSmall = true := by
  have hletter (c : Char) (hc : c ∈ s) : c.toLower.isAlpha = true :=
    TimeUnit.isAlpha_of_mem_name (u := u) _ (h ▸ List.mem_map_of_mem hc)
  rw [← h, List.map_inj_left, List.all_eq_true]
  exact ⟨fun c hc => (likeLetter_of_isAlpha_toLower (hletter c hc)).1,
    fun c hc => (likeLetter_of_isAlpha_toLower (hletter c hc)).2⟩

theorem writesUnit_of_map_toLower {s : List Char} {u : TimeUnit}
    (h : s.map Char.toLower = u.name ∨ s.map Char.toLower = u.name ++ ['s']) :
    WritesUnit s ⟨u, true⟩ := by
  rcases h with h | h
  · obtain ⟨hname, hplain⟩ := map_likeLetter_of_map_toLower h
    rw [← hplain]
    exact .single hname
  · obtain ⟨stem, final, rfl, hstem, hfinal⟩ := List.map_eq_append_iff.1 h
    obtain ⟨c, rfl, hc⟩ := List.map_eq_singleton_iff.1 hfinal
    obtain ⟨hname, hplain⟩ := map_likeLetter_of_map_toLower hstem
    have hlike := (likeLetter_of_isAlpha_toLower (c := c) (by rw [hc]; decide)).1
    rw [← hplain]
    exact .plural hname (hlike.trans hc)

/-- A date expression with a shift, part by part: white space, the base, white space, the sign,
white space, the number, white space, the word of the unit and white space. -/
structure ShiftedText where
  before : List Char
  base : List Char
  gap : List Char
  sign : Char
  gap' : List Char
  digits : List Char
  gap'' : List Char
  word : List Char
  behind : List Char
  unit : TimeUnit
  allBlank_before : AllBlank before
  base_ne_nil : base ≠ []
  trimmed_base : Trimmed base
  feed_notMem_base : '\n' ∉ base
  allBlank_gap : AllBlank gap
  sign_eq : sign = '+' ∨ sign = '-'
  allBlank_gap' : AllBlank gap'
  digits_ne_nil : digits ≠ []
  isDigit_of_mem : ∀ c ∈ digits, c.isDigit = true
  length_digits_le : digits.length ≤ 4300
  allBlank_gap'' : AllBlank gap''
  word_eq : word.map Char.toLower = unit.name ∨ word.map Char.toLower = unit.name ++ ['s']
  allBlank_behind : AllBlank behind

/-- What the base of a shift tells: the present moment, or what the text tells as a date. -/
inductive BaseValue (here : LocalTime) (base : List Char) : Option Stamp → Prop
  | now {s : Stamp} : lowerChars base = "now".toList → here.present = .ok s →
      BaseValue here base (some s)
  | date {value : Option Stamp} : lowerChars base ≠ "now".toList →
      timestamp? here.zone (String.ofList base) = .ok value → BaseValue here base value

namespace ShiftedText
variable (e : ShiftedText)

def shiftChars : List Char := e.gap ++ e.sign :: (e.gap' ++ (e.digits ++ (e.gap'' ++ e.word)))

def text : String := String.ofList (e.before ++ (e.base ++ e.shiftChars) ++ e.behind)

def amount : Int :=
  if e.sign = '-' then -(Nat.ofDigitChars 10 e.digits 0 : Int) else Nat.ofDigitChars 10 e.digits 0

def span : Span := e.unit.times e.amount

def shift : Shift := ⟨e.sign == '-', e.digits.filterMap digitValue?, ⟨e.unit, true⟩⟩

theorem writesUnit_word : WritesUnit e.word ⟨e.unit, true⟩ := writesUnit_of_map_toLower e.word_eq

theorem length_word : 3 ≤ e.word.length := by
  have hname : 3 ≤ e.unit.name.length := by cases e.unit <;> decide
  have hword : e.word.length = (e.word.map Char.toLower).length := (List.length_map _).symm
  rcases e.word_eq with h | h
  · rw [hword, h]
    exact hname
  · rw [hword, h, List.length_append]
    omega

theorem writesShift : WritesShift e.shiftChars e.shift :=
  .mk e.allBlank_gap (by rcases e.sign_eq with h | h <;> rw [h] <;> decide) e.allBlank_gap'
    e.digits_ne_nil
    (fun c hc => by simp [isDecimal, digitValue?_of_isDigit (e.isDigit_of_mem c hc)])
    e.allBlank_gap'' e.writesUnit_word

theorem trimmed_word : Trimmed e.word :=
  ⟨fun _ hc => (e.writesUnit_word.isLetter (List.mem_of_head? hc)).1,
    fun _ hc => (e.writesUnit_word.isLetter (List.mem_of_getLast? hc)).1⟩

theorem trimmed_base_append : Trimmed (e.base ++ e.shiftChars) := by
  have hword : e.word ≠ [] := List.ne_nil_of_length_pos (by have := e.length_word; omega)
  have h := e.trimmed_base.append e.trimmed_word e.base_ne_nil hword
    (e.gap ++ e.sign :: (e.gap' ++ (e.digits ++ e.gap'')))
  simpa [shiftChars] using h

theorem trimChars_text : trimChars e.text.toList = e.base ++ e.shiftChars := by
  rw [text, String.toList_ofList, trimChars_append_right_of_allBlank e.allBlank_behind,
    trimChars_append_of_allBlank e.allBlank_before, e.trimmed_base_append.trimChars_eq]

theorem isNow_text : isNow e.text.toList = false := by
  have hbase := List.length_pos_of_ne_nil e.base_ne_nil
  have hword := e.length_word
  refine isNow_eq_false_of_length ?_
  rw [trimChars_text]
  simp only [shiftChars, List.length_append, List.length_cons]
  omega

theorem splits : Splits (e.base ++ e.shiftChars) e.base e.shift where
  ne_nil := e.base_ne_nil
  no_feed := e.feed_notMem_base
  closes c hc := by
    rw [List.getLast?_tail] at hc
    split_ifs at hc
    exact e.trimmed_base.2 c hc
  shift := ⟨e.shiftChars, rfl, e.writesShift⟩

theorem resolve?_text (here : LocalTime) :
    resolve? here e.text = readBase? here e.base >>= fun
      | none => pure none
      | some s => e.shift.apply? s :=
  resolveChars?_of_shift e.isNow_text (by rw [trimChars_text, splitShift?_eq_some_iff.2 e.splits])

theorem readBase?_of_baseValue {here : LocalTime} {value : Option Stamp}
    (h : BaseValue here e.base value) : readBase? here e.base = .ok value := by
  have hnow : isNow e.base = (lowerChars e.base == "now".toList) := by
    rw [isNow, e.trimmed_base.trimChars_eq]
  rw [readBase?, hnow]
  rcases h with ⟨hbase, hpresent⟩ | ⟨hbase, hstamp⟩
  · simp [hbase, hpresent, Except.map]
  · rw [timestamp?, String.toList_ofList] at hstamp
    rw [beq_eq_false_iff_ne.2 hbase]
    exact hstamp

theorem apply?_shift (s : Stamp) : e.shift.apply? s = .ok (s.move? e.span) := by
  have hlength : e.shift.digits.length = e.digits.length := by
    rw [shift, filterMap_digitValue?_of_isDigit e.isDigit_of_mem, List.length_map]
  have hfew : ¬ digitLimit < e.shift.digits.length := by
    rw [hlength]
    exact Nat.not_lt.2 e.length_digits_le
  have hamount : signed e.shift.negative (ofDigits e.shift.digits) = e.amount := by
    rw [shift, ofDigits_filterMap_digitValue? e.isDigit_of_mem, signed, amount]
    simp only [beq_iff_eq]
  rw [ Shift.apply?, if_neg hfew, hamount]
  rfl

end ShiftedText

def monthsOff (base : List Char) (hne : base ≠ []) (htrim : Trimmed base) (hfeed : '\n' ∉ base) :
    ShiftedText where
  before := [' ']
  base := base
  gap := ['\n']
  sign := '-'
  gap' := []
  digits := ['0', '1', '8']
  gap'' := [' ']
  word := "MonthS".toList
  behind := ['\t']
  unit := .month
  allBlank_before := by decide
  base_ne_nil := hne
  trimmed_base := htrim
  feed_notMem_base := hfeed
  allBlank_gap := by decide
  sign_eq := by decide
  allBlank_gap' := by decide
  digits_ne_nil := by decide
  isDigit_of_mem := List.forall_iff_forall_mem.1 (by decide)
  length_digits_le := by decide
  allBlank_gap'' := by decide
  word_eq := by decide
  allBlank_behind := by decide

end Calendar

end DavQuery
