import DavQuery.Proofs.Calendar.IsoEnd
import DavQuery.Proofs.Calendar.MailWords
import DavQuery.Proofs.Calendar.ReadBack

/-! What stands behind the base of a date expression. Terms that are no shift, or more of them than
one, make the expression tell nothing, as long as the base is no date of letters with all its words
to itself: such a date is read without looking at what stands behind it. -/

namespace DavQuery.Calendar
open Text

/-- A sign, a number and a word of letters, each after a space. -/
structure Term where
  sign : Char
  digits : List Char
  word : List Char
  isSign_sign : isSign sign = true
  digits_ne_nil : digits ≠ []
  isDecimal_of_mem : ∀ c ∈ digits, isDecimal c = true
  word_ne_nil : word ≠ []
  isAlpha_of_mem : ∀ c ∈ word, c.isAlpha = true

theorem part_at_last {p : Char → Bool} {a b c d : List Char} {x y : Char}
    (h : a ++ x :: b = c ++ y :: d) (hx : p x = true) (hy : p y = true)
    (hb : ∀ z ∈ b, p z = false) (hd : ∀ z ∈ d, p z = false) : a = c ∧ b = d := by
  have hrun {a b : List Char} {x : Char} (hx : p x = true) (hb : ∀ z ∈ b, p z = false) :
      (a ++ x :: b).reverse.takeWhile (!p ·) = b.reverse := by
    have hreverse : (a ++ x :: b).reverse = b.reverse ++ x :: a.reverse := by simp
    rw [hreverse, (span_append_of_head (p := (!p ·)) (s := x :: a.reverse)
      (fun z hz => by simp [hb z (List.mem_reverse.1 hz)]) fun z hz => by cases hz; simp [hx]).1]
  have hends : b = d := List.reverse_injective ((hrun hx hb).symm.trans (h ▸ hrun hy hd))
  rw [hends] at h
  exact ⟨List.append_inj_left' h (by simp), hends⟩

namespace Term
variable (t : Term)

def behind : List Char := t.digits ++ ' ' :: t.word

def chars : List Char := ' ' :: t.sign :: ' ' :: t.behind

/-- The word names a unit, in small letters or capitals, perhaps with an `s` at its end. -/
def NamesUnit : Prop :=
  ∃ u : TimeUnit, t.word.map Char.toLower = u.name ∨ t.word.map Char.toLower = u.name ++ ['s']

instance : Decidable t.NamesUnit :=
  decidable_of_iff (∃ u ∈ TimeUnit.all, t.word.map Char.toLower = u.name ∨
      t.word.map Char.toLower = u.name ++ ['s'])
    ⟨fun ⟨u, _, h⟩ => ⟨u, h⟩, fun ⟨u, h⟩ => ⟨u, by cases u <;> decide, h⟩⟩

theorem isLetter {c : Char} (h : c ∈ t.word) :
    isBlank c = false ∧ isDecimal c = false ∧ isSign c = false ∧ likeLetter c = c.toLower := by
  have halpha := t.isAlpha_of_mem c h
  have hascii : c.toNat < 128 := toNat_lt_of_isAlphanum (by simp [Char.isAlphanum, halpha])
  have hletter := forall_ascii (P := fun c => c.isAlpha = true → c.toLower.isAlpha = true ∧
    isBlank c = false ∧ isDecimal c = false ∧ isSign c = false) (by decide) hascii halpha
  exact ⟨hletter.2.1, hletter.2.2.1, hletter.2.2.2, (likeLetter_of_isAlpha_toLower hletter.1).1⟩

theorem exists_writesUnit_iff : (∃ unit, WritesUnit t.word unit) ↔ t.NamesUnit := by
  have hmap : t.word.map likeLetter = t.word.map Char.toLower :=
    List.map_congr_left fun c hc => (t.isLetter hc).2.2.2
  constructor
  · rintro ⟨unit, hunit⟩
    have hname := hunit.map_likeLetter
    rw [hmap] at hname
    exact ⟨unit.unit, hname⟩
  · rintro ⟨u, hu⟩
    exact ⟨_, writesUnit_of_map_toLower hu⟩

theorem isBlank_of_mem_digits {c : Char} (h : c ∈ t.digits) : isBlank c = false :=
  isBlank_eq_false_of_isDecimal (t.isDecimal_of_mem c h)

theorem words_behind : words t.behind = [t.digits, t.word] := by
  have hdigits := words_of_notBlank t.digits_ne_nil fun c hc => t.isBlank_of_mem_digits hc
  have hword := words_of_notBlank t.word_ne_nil fun c hc => (t.isLetter hc).1
  rw [behind, words_append_cons (by decide), hdigits, hword]
  rfl

theorem isSign_of_mem_behind {c : Char} (h : c ∈ ' ' :: t.behind) : isSign c = false := by
  rw [behind, List.mem_cons, List.mem_append, List.mem_cons] at h
  rcases h with rfl | h | rfl | h
  · decide
  · exact isSign_eq_false_of_isDecimal (t.isDecimal_of_mem c h)
  · decide
  · exact (t.isLetter h).2.2.1

theorem trimmed_word : Trimmed t.word :=
  ⟨fun _ hc => (t.isLetter (List.mem_of_head? hc)).1,
    fun _ hc => (t.isLetter (List.mem_of_getLast? hc)).1⟩

theorem readShift?_behind {gap : List Char} (hgap : AllBlank gap) {sign : Char}
    (hsign : isSign sign = true) : readShift? (gap ++ sign :: ' ' :: t.behind) =
      (unitWord? t.word).map (Shift.mk (sign == '-') (t.digits.filterMap digitValue?) ·) := by
  have hspace : AllBlank [' '] := by decide
  exact readShift?_append hgap hsign hspace t.digits_ne_nil t.isDecimal_of_mem hspace fun c hc =>
    have hletter := t.isLetter (List.mem_of_head? hc)
    ⟨hletter.1, hletter.2.1⟩

theorem writesUnit_of_splits {s base : List Char} {shift : Shift}
    (h : Splits (s ++ t.chars) base shift) : (∃ gap, AllBlank gap ∧ base ++ gap = s ++ [' ']) ∧
      WritesUnit t.word shift.word := by
  obtain ⟨-, -, -, r, hs, hshift⟩ := h
  have hread := readShift?_eq_some_iff.2 hshift
  cases hshift with
  | @mk gap gap' gap'' number word sign unit hgap hsign hgap' hne hnumber hgap'' hword =>
    have hlast : ∀ c ∈ gap' ++ (number ++ (gap'' ++ word)), isSign c = false := by
      intro c hc
      simp only [List.mem_append] at hc
      rcases hc with hc | hc | hc | hc
      · exact isSign_eq_false_of_isBlank (hgap' c hc)
      · exact isSign_eq_false_of_isDecimal (hnumber c hc)
      · exact isSign_eq_false_of_isBlank (hgap'' c hc)
      · exact (hword.isLetter hc).2.2
    have hparts : (base ++ gap) ++ sign :: (gap' ++ (number ++ (gap'' ++ word))) =
        (s ++ [' ']) ++ t.sign :: ' ' :: t.behind := by
      simpa [chars] using hs.symm
    obtain ⟨hbefore, hbehind⟩ := part_at_last hparts hsign t.isSign_sign hlast
      fun c hc => t.isSign_of_mem_behind hc
    rw [hbehind, t.readShift?_behind hgap hsign, Option.map_eq_some_iff] at hread
    obtain ⟨unit', hunit, heq⟩ := hread
    obtain rfl : unit' = unit := congrArg Shift.word heq
    exact ⟨⟨gap, hgap, hbefore⟩, unitWord?_eq_some_iff.1 hunit⟩

def shift (unit : UnitWord) : Shift := ⟨t.sign == '-', t.digits.filterMap digitValue?, unit⟩

theorem writesShift {gap : List Char} (hgap : AllBlank gap) {unit : UnitWord}
    (hunit : WritesUnit t.word unit) : WritesShift (gap ++ t.chars) (t.shift unit) := by
  have hspace : AllBlank [' '] := by decide
  have hbefore : AllBlank (gap ++ [' ']) := List.forall_mem_append.2 ⟨hgap, hspace⟩
  have h := WritesShift.mk hbefore t.isSign_sign hspace t.digits_ne_nil t.isDecimal_of_mem hspace
    hunit
  simpa [chars, behind, shift] using h

theorem feed_notMem_chars : '\n' ∉ t.chars := by
  have hsign : '\n' ≠ t.sign := fun h => by
    have := t.isSign_sign
    rw [← h] at this
    revert this
    decide
  have hdigits : '\n' ∉ t.digits := fun h => absurd (t.isBlank_of_mem_digits h) (by decide)
  have hword : '\n' ∉ t.word := fun h => absurd (t.isLetter h).1 (by decide)
  simp [chars, behind, hsign, hdigits, hword]

theorem length_chars : 3 < t.chars.length := by
  have hdigits := List.length_pos_of_ne_nil t.digits_ne_nil
  simp only [chars, behind, List.length_cons, List.length_append]
  omega

theorem trimChars_append {s : List Char} (hs : trimChars s ≠ []) :
    trimChars (s ++ t.chars) = s.dropWhile isBlank ++ t.chars := by
  have h := trimChars_append_of_trimmed hs t.trimmed_word t.word_ne_nil
    (' ' :: t.sign :: ' ' :: (t.digits ++ [' ']))
  simpa [chars, behind] using h

theorem trimChars_append_ne_nil {s : List Char} (hs : trimChars s ≠ []) :
    trimChars (s ++ t.chars) ≠ [] := by
  rw [t.trimChars_append hs]
  simp [chars]

theorem length_trimChars_append {s : List Char} (hs : trimChars s ≠ []) :
    3 < (trimChars (s ++ t.chars)).length := by
  rw [t.trimChars_append hs, List.length_append]
  exact Nat.lt_add_left _ t.length_chars

theorem isNow_append {s : List Char} (hs : trimChars s ≠ []) : isNow (s ++ t.chars) = false :=
  isNow_eq_false_of_length (t.length_trimChars_append hs)

theorem dropWhile_append {s : List Char} (hs : trimChars s ≠ []) :
    (s ++ t.chars).dropWhile isBlank = s.dropWhile isBlank ++ t.chars := by
  have hdrop : s.dropWhile isBlank ≠ [] := by
    rintro hnil
    rw [trimChars_eq, hnil] at hs
    exact hs rfl
  rw [List.dropWhile_append, if_neg (by simpa using hdrop)]

theorem resolve?_of_writesUnit {unit : UnitWord} (hunit : WritesUnit t.word unit) {s : List Char}
    (hs : trimChars s ≠ []) (hfeed : '\n' ∉ s.dropWhile isBlank) (here : LocalTime) :
    resolve? here (String.ofList (s ++ t.chars)) = readBase? here s >>= fun
      | none => pure none
      | some stamp => Shift.apply? (t.shift unit) stamp := by
  obtain ⟨gap, hgap, hdrop⟩ := exists_dropWhile_eq s
  have hsplits : Splits (trimChars (s ++ t.chars)) (trimChars s) (t.shift unit) :=
    { ne_nil := hs
      no_feed := fun h => hfeed (hdrop ▸ List.mem_append_left gap h)
      closes := fun c hc => by
        rw [List.getLast?_tail] at hc
        split_ifs at hc
        exact (trimmed_trimChars s).2 c hc
      shift := ⟨gap ++ t.chars, by rw [t.trimChars_append hs, hdrop, List.append_assoc],
        t.writesShift hgap hunit⟩ }
  rw [resolve?, String.toList_ofList, ← readBase?_trimChars]
  exact resolveChars?_of_shift (t.isNow_append hs) (splitShift?_eq_some_iff.2 hsplits)

theorem not_splits_of_feed {s : List Char} (htrim : Trimmed (s ++ t.chars))
    (hfeed : '\n' ∈ s) (u : Term) (base : List Char) (shift : Shift) :
    ¬ Splits (s ++ t.chars ++ u.chars) base shift := by
  intro h
  obtain ⟨⟨gap, hgap, hbase⟩, -⟩ := u.writesUnit_of_splits h
  have hspace : AllBlank [' '] := by decide
  have htrims := congrArg trimChars hbase
  rw [trimChars_append_right_of_allBlank hgap, trimChars_append_right_of_allBlank hspace,
    htrim.trimChars_eq] at htrims
  exact h.no_feed (mem_of_mem_trimChars (htrims ▸ List.mem_append_left t.chars hfeed))

end Term

theorem readMoment?_of_iso_eq_none {s : List Char} (h : Iso.read? (trimChars s) = none) :
    readMoment? s = (Mail.read? s).mapError fun .number => .numberRange := by
  have hfields : Mail.fields? (trimChars s) = Mail.fields? s := by
    rw [Mail.fields?_eq, Mail.fields?_eq, words_trimChars]
  rw [readMoment?, Mail.read?, ← hfields]
  cases htrim : trimChars s with
  | nil => rfl
  | cons c r =>
    rw [htrim] at h
    simp only [h, Mail.read?]

/-- What a date expression is based on: `now`, or a date that has a stamp. The character that ends
a text before its end is not in it, and it is a date in one form only: one in the international form
names no month where the form of letters has it. -/
structure IsBase (zone : Zone) (s : List Char) : Prop where
  tells : TellsStamp zone s
  nul_notMem : Iso.nul ∉ s
  one_form : Mail.NamesMonth s → Iso.read? (trimChars s) = none

/-- The form of letters with all its words apart, which does not look at what stands behind it. -/
def DropsRest (s : List Char) : Prop := Mail.NamesMonth s ∧ Mail.InWholeWords s

instance (s : List Char) : Decidable (DropsRest s) := by
  unfold DropsRest
  infer_instance

theorem isBase_stampText (zone : Zone) (s : Stamp) : IsBase zone s.text where
  tells := .inr ⟨s.told, readStamp?_of_iso (Iso.trimmed_text s) (Iso.read?_text s) zone⟩
  nul_notMem h := absurd (Iso.mem_text h) (by decide)
  one_form h := absurd h (Mail.not_namesMonth_stampText s)

theorem isBase_mailText (zone : Zone) {t : DateTime} (hyear : 100 ≤ t.date.year)
    (hmicro : t.clock.micro = 0) : IsBase zone (Mail.text t) where
  tells := .inr ⟨⟨t, 0, by decide⟩, readStamp?_of_mail (Mail.trimmed_text t) (Mail.isoRead?_text t)
    (Mail.read?_text hyear hmicro) zone⟩
  nul_notMem := Mail.nul_notMem_text t
  one_form _ := by
    rw [(Mail.trimmed_text t).trimChars_eq]
    exact Mail.isoRead?_text t

theorem isBase_of_isNow (zone : Zone) {s : List Char} (h : isNow s = true) : IsBase zone s where
  tells := .inl h
  nul_notMem hmem := absurd (Mail.mem_of_isNow h (fun _ _ => rfl) (mem_trimChars hmem (by decide)))
    (by decide)
  one_form hmonth := absurd hmonth (Mail.not_namesMonth_of_isNow h)

theorem dropsRest_mailText (t : DateTime) : DropsRest (Mail.text t) :=
  ⟨Mail.namesMonth_text t, Mail.inWholeWords_text t⟩

namespace IsBase
variable {zone : Zone} {s : List Char} (h : IsBase zone s)
include h

theorem trimChars_ne_nil : trimChars s ≠ [] := by
  intro hs
  rcases h.tells with hnow | ⟨stamp, hstamp⟩
  · rw [isNow, hs] at hnow
    revert hnow
    decide
  · rw [readStamp?, readMoment?, hs] at hstamp
    cases hstamp

theorem not_dropsRest (hs : isNow s = true ∨ Iso.read? (trimChars s) ≠ none) : ¬ DropsRest s :=
  fun hdrops => hs.elim (fun hnow => Mail.not_namesMonth_of_isNow hnow hdrops.1)
    fun hiso => hiso (h.one_form hdrops.1)

theorem exists_fields (hmonth : Mail.NamesMonth s) : ∃ f, Mail.fields? s = some f := by
  have hnow : ¬ isNow s = true := fun hnow => Mail.not_namesMonth_of_isNow hnow hmonth
  obtain ⟨stamp, hstamp⟩ := h.tells.resolve_left hnow
  rw [← Option.ne_none_iff_exists']
  intro hnone
  rw [readStamp?, readMoment?_of_iso_eq_none (h.one_form hmonth), Mail.read?, hnone] at hstamp
  cases hstamp

theorem readStamp?_append {sign : Char} {r : List Char} (hsign : isSign sign = true)
    (hwords : 2 ≤ (words r).length)
    (htrim : trimChars (s ++ ' ' :: sign :: ' ' :: r) =
      s.dropWhile isBlank ++ ' ' :: sign :: ' ' :: r) :
    readStamp? zone (s ++ ' ' :: sign :: ' ' :: r) =
      if DropsRest s then readStamp? zone s else .ok none := by
  have hnul : Iso.nul ∉ s.dropWhile isBlank :=
    fun hmem => h.nul_notMem ((List.dropWhile_suffix isBlank).mem hmem)
  have hiso : Iso.read? (trimChars (s ++ ' ' :: sign :: ' ' :: r)) = none := by
    rw [htrim]
    exact Iso.read?_before_sign hnul hsign
  have hfields := Mail.fields?_before_sign (r := r) hsign (words_ne_nil h.trimChars_ne_nil)
  by_cases hmonth : Mail.NamesMonth s
  · obtain ⟨f, hf⟩ := h.exists_fields hmonth
    rw [Mail.fieldsOfWords?_append hsign hwords (fun w => Mail.isBlank_of_mem_dropDayName)
      (Mail.fields?_eq s ▸ hf)] at hfields
    rw [readStamp?, readMoment?_of_iso_eq_none hiso, Mail.read?, hfields, readStamp?,
      readMoment?_of_iso_eq_none (h.one_form hmonth), Mail.read?, hf]
    have hdrops : DropsRest s ↔ Mail.InWholeWords s := and_iff_right hmonth
    rw [Mail.InWholeWords] at hdrops
    simp only [hdrops]
    split_ifs <;> rfl
  · have hmonths : ∀ w ∈ (Mail.dropDayName (words s)).take 2,
        Mail.monthOfName? (lowerChars w) = none := fun w hw => by
      by_contra hname
      exact hmonth ⟨w, hw, hname⟩
    rw [readStamp?, readMoment?_of_iso_eq_none hiso, Mail.read?, hfields,
      Mail.fieldsOfWords?_of_months hsign hwords hmonths, if_neg fun hdrops => hmonth hdrops.1]
    rfl

theorem readStamp?_append_term (t : Term) :
    readStamp? zone (s ++ t.chars) = if DropsRest s then readStamp? zone s else .ok none := by
  refine h.readStamp?_append t.isSign_sign ?_ (t.trimChars_append h.trimChars_ne_nil)
  rw [t.words_behind]
  exact Nat.le_refl 2

theorem readStamp?_append_terms (t u : Term) :
    readStamp? zone (s ++ t.chars ++ u.chars) =
      if DropsRest s then readStamp? zone s else .ok none := by
  have hs := h.trimChars_ne_nil
  have hchars : s ++ t.chars ++ u.chars = s ++ ' ' :: t.sign :: ' ' :: (t.behind ++ u.chars) := by
    simp [Term.chars]
  have hwords : 2 ≤ (words (t.behind ++ u.chars)).length := by
    rw [Term.chars, words_append_cons (by decide), t.words_behind, List.length_append]
    exact Nat.le_add_right 2 _
  have htrim := u.trimChars_append (t.trimChars_append_ne_nil hs)
  rw [t.dropWhile_append hs] at htrim
  rw [hchars] at htrim ⊢
  refine h.readStamp?_append t.isSign_sign hwords (htrim.trans ?_)
  simp [Term.chars]

end IsBase

/-- What is told by a base with a term behind it that is no shift, and by one with two terms, the
last of which is a shift: nothing, or what the base tells as if what is dropped were not there. -/
theorem rest_of_base_read (here : LocalTime) {base : List Char} (h : IsBase here.zone base) :
    (isNow base = true ∨ Iso.read? (trimChars base) ≠ none → ¬ DropsRest base) ∧
    (∀ t : Term, ¬ t.NamesUnit → resolve? here (String.ofList (base ++ t.chars)) =
      if DropsRest base then readStamp? here.zone base else .ok none) ∧
    ∀ t u : Term, u.NamesUnit → resolve? here (String.ofList (base ++ t.chars ++ u.chars)) =
      if ¬ DropsRest base then .ok none
      else if '\n' ∈ base.dropWhile isBlank then readStamp? here.zone base
      else resolve? here (String.ofList (base ++ u.chars)) := by
  have hbase := h.trimChars_ne_nil
  refine ⟨h.not_dropsRest, fun t ht => ?_, fun t u hu => ?_⟩
  · have hsplits (b : List Char) (shift : Shift) :
        ¬ Splits (trimChars (base ++ t.chars)) b shift := by
      rw [t.trimChars_append hbase]
      exact fun hsplits => ht (t.exists_writesUnit_iff.1 ⟨_, (t.writesUnit_of_splits hsplits).2⟩)
    rw [resolve?_of_not_splits (t.length_trimChars_append hbase) hsplits, h.readStamp?_append_term]
  · obtain ⟨unit, hunit⟩ := u.exists_writesUnit_iff.2 hu
    have hfirst := t.trimChars_append_ne_nil hbase
    by_cases hfeed : '\n' ∈ base.dropWhile isBlank
    · have hsplits (b : List Char) (shift : Shift) :
          ¬ Splits (trimChars (base ++ t.chars ++ u.chars)) b shift := by
        rw [u.trimChars_append hfirst, t.dropWhile_append hbase]
        refine t.not_splits_of_feed ?_ hfeed u b shift
        rw [← t.trimChars_append hbase]
        exact trimmed_trimChars _
      rw [resolve?_of_not_splits (u.length_trimChars_append hfirst) hsplits,
        h.readStamp?_append_terms, if_pos hfeed, ite_not]
    · have hfeed' : '\n' ∉ (base ++ t.chars).dropWhile isBlank := by
        rw [t.dropWhile_append hbase, List.mem_append, not_or]
        exact ⟨hfeed, t.feed_notMem_chars⟩
      rw [u.resolve?_of_writesUnit hunit hfirst hfeed', readBase?, t.isNow_append hbase,
        if_neg Bool.false_ne_true, h.readStamp?_append_term, if_neg hfeed, ite_not]
      split_ifs with hdrops
      · have hnow : ¬ isNow base = true :=
          fun hnow => Mail.not_namesMonth_of_isNow hnow hdrops.1
        rw [u.resolve?_of_writesUnit hunit hbase hfeed, readBase?, if_neg hnow]
      · rfl

theorem rest_of_base_read_october :
    let here : LocalTime := ⟨.utc, ⟨⟨2025, 3, 15, by decide⟩, ⟨12, 0, 0, 0, by decide⟩⟩⟩
    let morning : DateTime := ⟨⟨2025, 10, 10, by decide⟩, ⟨8, 30, 0, 0, by decide⟩⟩
    let stamp : Stamp := ⟨morning, 0, by decide⟩
    IsBase .utc "now".toList ∧ IsBase .utc stamp.text ∧ IsBase .utc (Mail.text morning) ∧
      resolve? here "now + 5 fortnights" = .ok none ∧
      resolve? here "2025-10-10T08:30:00+00:00 + 5 fortnights" = .ok none ∧
      resolve? here "2025-10-10T08:30:00+00:00 + 1 day + 2 days" = .ok none ∧
      resolve? here "Fri, 10 Oct 2025 08:30:00 GMT + 5 fortnights" = .ok (some stamp) ∧
      resolve? here "Fri, 10 Oct 2025 08:30:00 GMT + 1 day + 2 days" =
        resolve? here "Fri, 10 Oct 2025 08:30:00 GMT + 2 days" := by
  intro here morning stamp
  have hpresent : isNow "now".toList = true := by decide
  have hnow := isBase_of_isNow .utc hpresent
  have hstamp := isBase_stampText .utc stamp
  have hmail := isBase_mailText .utc (t := morning) (by decide) (by decide)
  let fortnights : Term :=
    ⟨'+', ['5'], "fortnights".toList, by decide, by decide,
      List.forall_iff_forall_mem.1 (by decide), by decide, List.forall_iff_forall_mem.1 (by decide)⟩
  let day : Term :=
    ⟨'+', ['1'], "day".toList, by decide, by decide,
      List.forall_iff_forall_mem.1 (by decide), by decide, List.forall_iff_forall_mem.1 (by decide)⟩
  let days : Term :=
    ⟨'+', ['2'], "days".toList, by decide, by decide,
      List.forall_iff_forall_mem.1 (by decide), by decide, List.forall_iff_forall_mem.1 (by decide)⟩
  have hfortnights : ¬ fortnights.NamesUnit := by decide
  have hdays : days.NamesUnit := by decide
  have hwhole : ¬ DropsRest stamp.text := fun h => Mail.not_namesMonth_stampText stamp h.1
  have hdrops := dropsRest_mailText morning
  have hfeed : '\n' ∉ (Mail.text morning).dropWhile isBlank := by decide +kernel
  have htold : readStamp? .utc (Mail.text morning) = .ok (some stamp) := by decide +kernel
  have hstampText : stamp.text = "2025-10-10T08:30:00+00:00".toList := by decide +kernel
  have hmailText : Mail.text morning = "Fri, 10 Oct 2025 08:30:00 GMT".toList := by decide +kernel
  obtain ⟨hkeeps, hnowTerm, -⟩ := rest_of_base_read here hnow
  obtain ⟨-, hterm, hterms⟩ := rest_of_base_read here hstamp
  obtain ⟨-, hmailTerm, hmailTerms⟩ := rest_of_base_read here hmail
  have h₀ := hnowTerm fortnights hfortnights
  have h₁ := hterm fortnights hfortnights
  have h₂ := hterms day days hdays
  have h₃ := hmailTerm fortnights hfortnights
  have h₄ := hmailTerms day days hdays
  rw [if_neg (hkeeps (.inl hpresent))] at h₀
  rw [if_neg hwhole, hstampText] at h₁
  rw [if_pos hwhole, hstampText] at h₂
  rw [if_pos hdrops, htold, hmailText] at h₃
  rw [if_neg (not_not.2 hdrops), if_neg hfeed, hmailText] at h₄
  exact ⟨hnow, hstamp, hmail, h₀, h₁, h₂, h₃, h₄⟩

/-- A date in the form of letters is told whatever fortnights stand behind it, and of two shifts the
first is dropped. -/
theorem resolve?_eq_some_of_fortnights :
    let here : LocalTime := ⟨.utc, ⟨⟨2025, 3, 15, by decide⟩, ⟨12, 0, 0, 0, by decide⟩⟩⟩
    timestamp? .utc "Fri, 10 Oct 2025 08:30:00 GMT" =
        .ok (some ⟨⟨⟨2025, 10, 10, by decide⟩, ⟨8, 30, 0, 0, by decide⟩⟩, 0, by decide⟩) ∧
      resolve? here "Fri, 10 Oct 2025 08:30:00 GMT + 5 fortnights" =
        .ok (some ⟨⟨⟨2025, 10, 10, by decide⟩, ⟨8, 30, 0, 0, by decide⟩⟩, 0, by decide⟩) ∧
      resolve? here "Fri, 10 Oct 2025 08:30:00 GMT + 1 day + 2 days" =
        .ok (some ⟨⟨⟨2025, 10, 12, by decide⟩, ⟨8, 30, 0, 0, by decide⟩⟩, 0, by decide⟩) := by
  decide +kernel

end DavQuery.Calendar
