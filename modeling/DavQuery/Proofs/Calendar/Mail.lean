import DavQuery.Calendar.Mail
import DavQuery.Proofs.Calendar.Iso
import DavQuery.Proofs.Calendar.Shift
import DavQuery.Proofs.Text.Words

/-! The form of letters. A whole second of Greenwich time that is written in it is read back, from
the year 100 on. -/

namespace DavQuery.Calendar.Mail
open Number Text

def dayTexts : List (List Char) :=
  ["Mon", "Tue", "Wed", "Thu", "Fri", "Sat", "Sun"].map String.toList

def monthTexts : List (List Char) :=
  ["Jan", "Feb", "Mar", "Apr", "May", "Jun", "Jul", "Aug", "Sep", "Oct", "Nov", "Dec"].map
    String.toList

def clockText (t : Clock) : List Char :=
  padded 2 t.hour ++ ':' :: (padded 2 t.minute ++ ':' :: padded 2 t.second)

/-- The words of a date-time of Greenwich in the form of letters, as `Fri, 10 Oct 2025 08:30:00 GMT`
has them. -/
def textWords (t : DateTime) : List (List Char) :=
  [dayTexts.getD (weekdayOfNumber t.date.number) [] ++ [','], padded 2 t.date.day,
    monthTexts.getD (t.date.month - 1) [], padded 4 t.date.year, clockText t.clock, "GMT".toList]

def text (t : DateTime) : List Char := [' '].intercalate (textWords t)

theorem mem_clockText {t : Clock} {c : Char} (h : c ∈ clockText t) :
    c.isDigit = true ∨ c = ':' := by
  simp only [clockText, List.mem_append, List.mem_cons] at h
  rcases h with h | rfl | h | rfl | h
  · exact .inl (isDigit_of_mem_padded h)
  · exact .inr rfl
  · exact .inl (isDigit_of_mem_padded h)
  · exact .inr rfl
  · exact .inl (isDigit_of_mem_padded h)

/-- The character is no white space, no sign and not the one that ends a text early. -/
def IsPlain (c : Char) : Prop := isBlank c = false ∧ isSign c = false ∧ c ≠ Iso.nul

instance (c : Char) : Decidable (IsPlain c) := by
  unfold IsPlain
  infer_instance

theorem isPlain_of_isDigit {c : Char} (h : c.isDigit = true) : IsPlain c :=
  forall_ascii (P := fun c => c.isDigit = true → IsPlain c) (by decide) (toNat_lt_of_isDigit h) h

theorem mem_textWords {t : DateTime} {w : List Char} (h : w ∈ textWords t) :
    w ≠ [] ∧ ∀ c ∈ w, IsPlain c := by
  have hday : ∀ k < 7, List.Forall IsPlain (dayTexts.getD k []) := by decide
  have hmonth : ∀ k < 12, monthTexts.getD k [] ≠ [] ∧
      List.Forall IsPlain (monthTexts.getD k []) := by decide
  have hpadded (width n : Nat) : padded width n ≠ [] ∧ ∀ c ∈ padded width n, IsPlain c :=
    ⟨padded_ne_nil width n, fun c hc => isPlain_of_isDigit (isDigit_of_mem_padded hc)⟩
  have hmonths : t.date.month - 1 < 12 := by
    have hvalid := t.date.valid
    simp only [IsDate] at hvalid
    omega
  simp only [textWords, List.mem_cons, List.not_mem_nil, or_false] at h
  rcases h with rfl | rfl | rfl | rfl | rfl | rfl
  · refine ⟨by simp, fun c hc => ?_⟩
    rw [List.mem_append, List.mem_singleton] at hc
    rcases hc with hc | rfl
    · exact List.forall_iff_forall_mem.1 (hday _ (Nat.mod_lt _ (by decide))) c hc
    · decide
  · exact hpadded 2 _
  · exact (hmonth _ hmonths).imp_right List.forall_iff_forall_mem.1
  · exact hpadded 4 _
  · refine ⟨by simp [clockText], fun c hc => ?_⟩
    rcases mem_clockText hc with hc | rfl
    · exact isPlain_of_isDigit hc
    · decide
  · exact ⟨by decide, List.forall_iff_forall_mem.1 (by decide)⟩

theorem words_text (t : DateTime) : words (text t) = textWords t :=
  words_intercalate fun _ hw => ⟨(mem_textWords hw).1, fun c hc => ((mem_textWords hw).2 c hc).1⟩

theorem dropComma_of_isDigit {s : List Char} (h : ∀ c ∈ s, c.isDigit = true ∨ c = ':') :
    dropComma s = s := by
  rw [dropComma, if_neg]
  intro hlast
  have hcomma := h ',' (List.mem_of_getLast? hlast)
  revert hcomma
  decide

theorem clockWords?_clockText (t : Clock) :
    clockWords? (clockText t) = some (padded 2 t.hour, padded 2 t.minute, padded 2 t.second) := by
  have hcolon (n : Nat) : ':' ∉ padded 2 n := fun h => by
    have := isDigit_of_mem_padded h
    revert this
    decide
  rw [clockWords?, clockText, List.splitOn_append_cons_self_of_not_mem (hcolon _),
    List.splitOn_append_cons_self_of_not_mem (hcolon _), List.splitOn_eq_singleton (hcolon _)]

theorem monthOfName?_monthText (date : Date) : monthTexts.getD (date.month - 1) [] ≠ [] ∧
    monthOfName? (lowerChars (monthTexts.getD (date.month - 1) [])) = some date.month := by
  have hmonths : ∀ k < 12, monthTexts.getD k [] ≠ [] ∧
      monthOfName? (lowerChars (monthTexts.getD k [])) = some (k + 1) := by decide +kernel
  have hvalid := date.valid
  simp only [IsDate] at hvalid
  have hmonth := hmonths (date.month - 1) (by omega)
  rwa [Nat.sub_add_cancel (by omega)] at hmonth

theorem dropDayName_textWords (t : DateTime) : dropDayName (textWords t) = (textWords t).tail := by
  rw [textWords, dropDayName, if_pos (by simp), List.tail_cons]

theorem dropComma_padded (width n : Nat) : dropComma (padded width n) = padded width n :=
  dropComma_of_isDigit fun _ hc => .inl (isDigit_of_mem_padded hc)

theorem yearAndTime_padded (width n : Nat) (tm : List Char) :
    yearAndTime (padded width n) tm = (padded width n, tm) := by
  have hcolon : (padded width n).findIdx? (· == ':') = none := by
    rw [List.findIdx?_eq_none_iff]
    intro c hc
    have hdigit := isDigit_of_mem_padded hc
    rw [beq_eq_false_iff_ne]
    rintro rfl
    revert hdigit
    decide
  rw [yearAndTime, hcolon]

theorem yearAndZone?_padded (width n : Nat) (tz : List Char) :
    yearAndZone? (padded width n) tz = some (padded width n, tz) := by
  obtain ⟨c, r, hpadded⟩ := List.exists_cons_of_ne_nil (padded_ne_nil width n)
  have hc : c.isDigit = true := isDigit_of_mem_padded (hpadded ▸ List.mem_cons_self)
  have hlike : isDigitLike c = true := by
    rw [isDigitLike, isDecimal, digitValue?_of_isDigit hc]
    rfl
  rw [hpadded, yearAndZone?, if_pos hlike]

theorem dayAndMonth?_text (date : Date) (dd : List Char) :
    dayAndMonth? dd (monthTexts.getD (date.month - 1) []) = some (dd, date.month) := by
  rw [dayAndMonth?, (monthOfName?_monthText date).2]

theorem fieldsOf?_text {t : DateTime} (hyear : 100 ≤ t.date.year) :
    fieldsOf? (padded 2 t.date.day) (monthTexts.getD (t.date.month - 1) [])
        (padded 4 t.date.year) (clockText t.clock) "GMT".toList =
      some ⟨t.date.year, t.date.month, t.date.day, t.clock.hour, t.clock.minute, t.clock.second,
        some 0⟩ := by
  have hdate := t.date.valid
  have hday := t.date.day_le
  have hclock := t.clock.valid
  simp only [IsDate] at hdate
  simp only [IsClock] at hclock
  have hempty (width n : Nat) : (padded width n).isEmpty = false := by simp [padded_ne_nil]
  have hmonth : (monthTexts.getD (t.date.month - 1) []).isEmpty = false := by
    simpa using (monthOfName?_monthText t.date).1
  have hnone : ¬ ((padded 2 t.date.day).isEmpty ||
      (monthTexts.getD (t.date.month - 1) []).isEmpty ||
      (padded 4 t.date.year).isEmpty) = true := by
    simp only [hempty, hmonth]
    decide
  have htime : dropComma (clockText t.clock) = clockText t.clock :=
    dropComma_of_isDigit fun c hc => mem_clockText hc
  have htwo {n : Nat} (h : n < 100) : integer? (padded 2 n) = some (n : Int) :=
    integer?_padded (by decide) (by decide) h
  have hfour : integer? (padded 4 t.date.year) = some (t.date.year : Int) :=
    integer?_padded (by decide) (by decide) (by omega)
  have hgreenwich : zoneDigits? "GMT".toList = some 0 := by decide
  have hfull : fullYear (t.date.year : Int) = t.date.year := by
    rw [fullYear, if_neg (by omega)]
  rw [fieldsOf?, if_neg hnone]
  simp only [dayAndMonth?_text, yearAndTime_padded, yearAndZone?_padded, dropComma_padded, htime,
    hfour, hgreenwich, hfull, clockWords?_clockText, htwo (show t.date.day < 100 by omega),
    htwo (show t.clock.hour < 100 by omega), htwo (show t.clock.minute < 100 by omega),
    htwo (show t.clock.second < 100 by omega), Option.bind_eq_bind, Option.bind_some]
  rfl

theorem fields?_text {t : DateTime} (hyear : 100 ≤ t.date.year) : fields? (text t) =
    some ⟨t.date.year, t.date.month, t.date.day, t.clock.hour, t.clock.minute, t.clock.second,
      some 0⟩ := by
  rw [fields?, words_text, dropDayName_textWords]
  exact fieldsOf?_text hyear

theorem read?_text {t : DateTime} (hyear : 100 ≤ t.date.year) (hmicro : t.clock.micro = 0) :
    read? (text t) = .ok (some (.fixed ⟨t, 0, by decide⟩)) := by
  have hdate := t.date.valid
  have hday := t.date.day_le
  have hclock := t.clock.valid
  simp only [IsDate] at hdate
  simp only [IsClock] at hclock
  have hfit (n : Nat) (h : n ≤ 9999) : fitsWord n = true := by
    simp only [fitsWord, Bool.and_eq_true, decide_eq_true_eq]
    omega
  have hwall : Date.of? t.date.year t.date.month t.date.day = some t.date :=
    Date.of?_eq_some_iff.2 ⟨rfl, rfl, rfl⟩
  have htime : Clock.of? t.clock.hour t.clock.minute t.clock.second 0 = some t.clock := by
    rw [← hmicro, Clock.of?, dif_pos t.clock.valid]
  rw [read?, fields?_text hyear]
  simp only [Fields.moment?, Option.map_some]
  rw [if_neg (by decide), if_neg (by decide), if_neg]
  · simp only [Fields.wall?, natural?, Int.natCast_nonneg, if_true, Int.toNat_natCast,
      Option.bind_eq_bind, Option.bind_some, DateTime.of?, hwall, htime]
    rfl
  · rw [Fields.fit, hfit _ hdate.2.1, hfit t.date.day (by omega), hfit t.clock.hour (by omega),
      hfit t.clock.minute (by omega), hfit t.clock.second (by omega)]
    decide

theorem mem_text {t : DateTime} {c : Char} (h : c ∈ text t) : c = ' ' ∨ IsPlain c := by
  by_contra hc
  rw [not_or] at hc
  exact not_mem_intercalate hc.1 (fun w hw hmem => hc.2 ((mem_textWords hw).2 c hmem)) h

theorem isSign_of_mem_text {t : DateTime} {c : Char} (h : c ∈ text t) : isSign c = false := by
  rcases mem_text h with rfl | hc
  · decide
  · exact hc.2.1

theorem nul_notMem_text (t : DateTime) : Iso.nul ∉ text t := fun h => by
  rcases mem_text h with hspace | hc
  · revert hspace
    decide
  · exact hc.2.2 rfl

theorem text_eq (t : DateTime) : ∃ m, text t =
    (dayTexts.getD (weekdayOfNumber t.date.number) [] ++ [',']) ++ m ++ "GMT".toList :=
  ⟨' ' :: (padded 2 t.date.day ++ ' ' :: (monthTexts.getD (t.date.month - 1) [] ++ ' ' ::
    (padded 4 t.date.year ++ ' ' :: (clockText t.clock ++ [' '])))), by
    simp [text, textWords, List.intercalate_cons_cons]⟩

theorem trimmed_text (t : DateTime) : Trimmed (text t) := by
  obtain ⟨m, hm⟩ := text_eq t
  have hday := mem_textWords (t := t) List.mem_cons_self
  rw [hm]
  exact Trimmed.append ⟨fun c hc => (hday.2 c (List.mem_of_head? hc)).1,
    fun c hc => (hday.2 c (List.mem_of_getLast? hc)).1⟩ (by decide) hday.1 (by decide) m

theorem length_text (t : DateTime) : 3 < (text t).length := by
  obtain ⟨m, hm⟩ := text_eq t
  have hzone : "GMT".toList.length = 3 := rfl
  rw [hm, List.length_append, List.length_append, List.length_append, List.length_singleton, hzone]
  omega

theorem isoRead?_text (t : DateTime) : Iso.read? (text t) = none := by
  have hday : ∀ k < 7, List.Forall (fun c => c.toNat < 128 ∧ c.isDigit = false)
      (dayTexts.getD k [] ++ [',']) := by
    decide
  obtain ⟨m, hm⟩ := text_eq t
  have hfirst := List.forall_iff_forall_mem.1
    (hday (weekdayOfNumber t.date.number) (Nat.mod_lt _ (by decide)))
  refine Iso.read?_of_head fun c hc => hfirst c (List.mem_of_head? ?_)
  rwa [hm, List.append_assoc, List.head?_append_of_ne_nil _ (by simp)] at hc

theorem told_of_read? {s : List Char} {t : Stamp} (h : read? s = .ok (some (.fixed t))) :
    t.told = t := by
  unfold read? at h
  split at h
  · cases h
  · unfold Fields.moment? at h
    split at h
    · split_ifs at h
      simp only [Except.ok.injEq, Option.map_eq_some_iff] at h
      obtain ⟨wall, -, h⟩ := h
      cases h
    · split_ifs at h
      · cases h
      · simp only [Except.ok.injEq, Option.bind_eq_bind, Option.bind_eq_some_iff] at h
        obtain ⟨wall, -, t', ht', heq⟩ := h
        cases heq
        exact Stamp.told_of_of? (by omega) ht'

end DavQuery.Calendar.Mail
