import DavQuery.Calendar.Expression
import DavQuery.Proofs.Text.Leading
import DavQuery.Proofs.Text.Percent
import DavQuery.Proofs.Text.Split

/-! How a shift is written. A date expression with a shift is parted in one way only: the sign of
the shift is the last sign of the text, and the base ends before the white space in front of it. -/

namespace DavQuery.Calendar
open Text

def likeLetter (c : Char) : Char :=
  if c = kelvinSign then 'k' else if c = 'ſ' then 's' else if c = 'ı' ∨ c = 'İ' then 'i'
  else c.toLower

theorem toNat_lt_of_isAlpha_toLower {c : Char} (h : c.toLower.isAlpha = true) : c.toNat < 128 := by
  have hval : c.val.toNat = c.toNat := rfl
  unfold Char.toLower at h
  split_ifs at h with hcapital
  · simp only [ge_iff_le, UInt32.le_iff_toNat_le, hval, Char.reduceVal,
      UInt32.reduceToNat] at hcapital
    omega
  · exact toNat_lt_of_isAlphanum (by simp [Char.isAlphanum, h])

theorem standsFor_iff {letter : Char} (h : letter.toNat < 128) (c : Char) :
    standsFor letter c = true ↔ likeLetter c = letter := by
  -- None of the four that resemble a letter has a small form of its own.
  have hsmall {d : Char} (hd : 128 ≤ d.toLower.toNat) (e : c = d) : c.toLower ≠ letter := by
    rintro rfl
    rw [e] at h
    omega
  have hkelvin := hsmall (d := kelvinSign) (by decide)
  have hlong := hsmall (d := 'ſ') (by decide)
  have hdotless := hsmall (d := 'ı') (by decide)
  have hdotted := hsmall (d := 'İ') (by decide)
  have hother : kelvinSign ≠ 'ſ' ∧ kelvinSign ≠ 'ı' ∧ kelvinSign ≠ 'İ' := by decide
  simp only [standsFor, likeLetter, Bool.or_eq_true, Bool.and_eq_true, beq_iff_eq]
  grind

theorem spells_iff {name : List Char} (h : ∀ letter ∈ name, letter.toNat < 128) (s : List Char) :
    spells name s = true ↔ s.map likeLetter = name := by
  induction name generalizing s with
  | nil => simp [spells]
  | cons letter name ih =>
    cases s with
    | nil => simp [spells]
    | cons c s =>
      have hname := ih (fun x hx => h x (List.mem_cons_of_mem _ hx)) s
      have hletter := standsFor_iff (h letter List.mem_cons_self) c
      simp only [spells, Bool.and_eq_true, beq_iff_eq] at hname
      simp only [spells, List.length_cons, List.zip_cons_cons, List.all_cons, List.map_cons,
        List.cons.injEq, Bool.and_eq_true, beq_iff_eq, hletter, ← hname, Nat.add_right_cancel_iff]
      tauto

theorem TimeUnit.isAlpha_of_mem_name {u : TimeUnit} : ∀ letter ∈ u.name, letter.isAlpha = true := by
  cases u <;> exact List.forall_iff_forall_mem.1 (by decide)

theorem TimeUnit.toNat_lt_of_mem_name {u : TimeUnit} (letter : Char) (h : letter ∈ u.name) :
    letter.toNat < 128 :=
  toNat_lt_of_isAlphanum (by simp [Char.isAlphanum, isAlpha_of_mem_name letter h])

/-- The text is the name of a unit, or the name and an `s`. It is plain if the letters of the name
are. -/
inductive WritesUnit : List Char → UnitWord → Prop
  | single {u : TimeUnit} {stem : List Char} : stem.map likeLetter = u.name →
      WritesUnit stem ⟨u, stem.all hasPlainSmall⟩
  | plural {u : TimeUnit} {stem : List Char} {c : Char} : stem.map likeLetter = u.name →
      likeLetter c = 's' → WritesUnit (stem ++ [c]) ⟨u, stem.all hasPlainSmall⟩

theorem TimeUnit.name_injective : Function.Injective TimeUnit.name := by
  intro u v h
  cases u <;> cases v <;> first | rfl | exact absurd h (by decide)

theorem TimeUnit.name_append_ne (u v : TimeUnit) : u.name ++ ['s'] ≠ v.name := by
  cases u <;> cases v <;> decide

theorem writesUnit_iff {u : TimeUnit} {plain : Bool} {s : List Char} :
    WritesUnit s ⟨u, plain⟩ ↔
      (if spells u.name s then some (UnitWord.mk u (s.all hasPlainSmall))
        else if spells u.name s.dropLast && (s.getLast?.map (standsFor 's')).getD false then
          some ⟨u, s.dropLast.all hasPlainSmall⟩
        else none) = some ⟨u, plain⟩ := by
  have hspells := spells_iff (TimeUnit.toNat_lt_of_mem_name (u := u))
  have hs := standsFor_iff (by decide : 's'.toNat < 128)
  simp only [Bool.and_eq_true, hspells]
  constructor
  · rintro (hstem | @⟨_, stem, c, hstem, hc⟩)
    · rw [if_pos hstem]
    · have hne : ¬ (stem ++ [c]).map likeLetter = u.name := by
        rw [List.map_append, hstem, List.map_singleton, hc]
        exact TimeUnit.name_append_ne u u
      rw [if_neg hne, List.dropLast_concat, if_pos]
      exact ⟨hstem, by simp [hs, hc]⟩
  · intro h
    split_ifs at h with hsingle hplural
    · obtain rfl : s.all hasPlainSmall = plain := by simpa using h
      exact .single hsingle
    · obtain ⟨hstem, hlast⟩ := hplural
      obtain rfl : s.dropLast.all hasPlainSmall = plain := by simpa using h
      cases hlastChar : s.getLast? with
      | none => simp [hlastChar] at hlast
      | some c =>
        have hc : likeLetter c = 's' := by
          simpa [hlastChar, hs] using hlast
        obtain ⟨stem, rfl⟩ := List.getLast?_eq_some_iff.1 hlastChar
        rw [List.dropLast_concat] at hstem ⊢
        exact .plural hstem hc

theorem WritesUnit.map_likeLetter {s : List Char} {w : UnitWord} (h : WritesUnit s w) :
    s.map likeLetter = w.unit.name ∨ s.map likeLetter = w.unit.name ++ ['s'] := by
  cases h with
  | single hstem => exact .inl hstem
  | plural hstem hc => exact .inr (by rw [List.map_append, hstem, List.map_singleton, hc])

theorem WritesUnit.eq {s : List Char} {v w : UnitWord} (hv : WritesUnit s v)
    (hw : WritesUnit s w) : v = w := by
  have hunit : v.unit = w.unit := by
    rcases hv.map_likeLetter with ev | ev <;> rcases hw.map_likeLetter with ew | ew
    · exact TimeUnit.name_injective (ev.symm.trans ew)
    · exact absurd (ew.symm.trans ev) (TimeUnit.name_append_ne _ _)
    · exact absurd (ev.symm.trans ew) (TimeUnit.name_append_ne _ _)
    · exact TimeUnit.name_injective (List.append_cancel_right (ev.symm.trans ew))
  obtain ⟨u, plain⟩ := v
  obtain ⟨_, plain'⟩ := w
  obtain rfl : u = _ := hunit
  exact Option.some.inj ((writesUnit_iff.1 hv).symm.trans (writesUnit_iff.1 hw))

theorem unitWord?_eq_some_iff {s : List Char} {w : UnitWord} :
    unitWord? s = some w ↔ WritesUnit s w := by
  have hsound {w : UnitWord} (h : unitWord? s = some w) : WritesUnit s w := by
    obtain ⟨u, -, hu⟩ := List.exists_of_findSome?_eq_some h
    obtain rfl : w.unit = u := by
      split_ifs at hu
      all_goals cases hu; rfl
    exact writesUnit_iff.2 hu
  refine ⟨hsound, fun h => ?_⟩
  have hsome : (unitWord? s).isSome = true := by
    have hu := writesUnit_iff.1 h
    exact List.findSome?_isSome_iff.2 ⟨w.unit, by cases w.unit <;> decide, by rw [hu]; rfl⟩
  obtain ⟨w', hw'⟩ := Option.isSome_iff_exists.1 hsome
  rw [hw', (hsound hw').eq h]

theorem likeLetter_mem_name {s : List Char} {w : UnitWord} (h : WritesUnit s w) {c : Char}
    (hc : c ∈ s) : likeLetter c = 's' ∨ ∃ u : TimeUnit, likeLetter c ∈ u.name := by
  have hmem := List.mem_map_of_mem (f := likeLetter) hc
  rcases h.map_likeLetter with e | e <;> rw [e] at hmem
  · exact .inr ⟨_, hmem⟩
  · rw [List.mem_append, List.mem_singleton] at hmem
    exact hmem.symm.imp_right fun hname => ⟨_, hname⟩

def isSign (c : Char) : Bool := c == '+' || c == '-'

theorem isSign_iff {c : Char} : isSign c = true ↔ c = '+' ∨ c = '-' := by simp [isSign]

theorem isBlank_eq_false_of_isSign {c : Char} (h : isSign c = true) : isBlank c = false := by
  obtain rfl | rfl := isSign_iff.1 h
  all_goals decide

theorem WritesUnit.isLetter {s : List Char} {w : UnitWord} (h : WritesUnit s w) {c : Char}
    (hc : c ∈ s) : isBlank c = false ∧ isDecimal c = false ∧ isSign c = false := by
  have hletter : (likeLetter c).isAlpha = true := by
    rcases likeLetter_mem_name h hc with e | ⟨u, hu⟩
    · rw [e]; decide
    · exact TimeUnit.isAlpha_of_mem_name _ hu
  unfold likeLetter at hletter
  split_ifs at hletter with hk hs hi
  · subst hk; decide
  · subst hs; decide
  · rcases hi with rfl | rfl <;> decide
  · have hascii := toNat_lt_of_isAlpha_toLower hletter
    revert hletter
    exact forall_ascii (P := fun c => c.toLower.isAlpha = true →
      isBlank c = false ∧ isDecimal c = false ∧ isSign c = false) (by decide) hascii

/-- The text is a shift: a sign, the digits of a number and the word of a unit, with white space
before each or none. -/
inductive WritesShift : List Char → Shift → Prop
  | mk {gap gap' gap'' number word : List Char} {sign : Char} {unit : UnitWord} : AllBlank gap →
      isSign sign = true → AllBlank gap' → number ≠ [] → (∀ c ∈ number, isDecimal c = true) →
      AllBlank gap'' → WritesUnit word unit →
      WritesShift (gap ++ sign :: (gap' ++ (number ++ (gap'' ++ word))))
        ⟨sign == '-', number.filterMap digitValue?, unit⟩

theorem readShift?_eq {s r : List Char} {sign : Char} (hs : s.dropWhile isBlank = sign :: r)
    (hsign : isSign sign = true) :
    readShift? s =
      if (r.dropWhile isBlank).takeWhile isDecimal = [] then none
      else (unitWord? (((r.dropWhile isBlank).dropWhile isDecimal).dropWhile isBlank)).map
        (Shift.mk (sign == '-')
          (((r.dropWhile isBlank).takeWhile isDecimal).filterMap digitValue?) ·) := by
  have hsign' := isSign_iff.1 hsign
  rw [readShift?, hs]
  simp only [if_pos hsign', spanDigits_eq]
  have hnil := filterMap_digitValue?_eq_nil_iff (s := (r.dropWhile isBlank).takeWhile isDecimal)
    fun c hc => List.mem_takeWhile_imp hc
  split_ifs with h
  · rw [hnil.2 h]
  · split
    case h_1 heq => exact absurd (hnil.1 (congrArg Prod.fst heq)) h
    case h_2 heq => cases heq; rfl

theorem readShift?_append {gap gap' gap'' number word : List Char} {sign : Char}
    (hgap : AllBlank gap) (hsign : isSign sign = true) (hgap' : AllBlank gap') (hne : number ≠ [])
    (hnumber : ∀ c ∈ number, isDecimal c = true) (hgap'' : AllBlank gap'')
    (hword : ∀ c, word.head? = some c → isBlank c = false ∧ isDecimal c = false) :
    readShift? (gap ++ sign :: (gap' ++ (number ++ (gap'' ++ word)))) =
      (unitWord? word).map (Shift.mk (sign == '-') (number.filterMap digitValue?) ·) := by
  have hfollow (c : Char) (hc : (gap'' ++ word).head? = some c) : isDecimal c = false := by
    cases gap'' with
    | nil => exact (hword c hc).2
    | cons b gap'' =>
      by_contra hdecimal
      have hblank := isBlank_eq_false_of_isDecimal (Bool.of_not_eq_false hdecimal)
      simp only [List.cons_append, List.head?_cons, Option.some.injEq] at hc
      simp [← hc, hgap'' b List.mem_cons_self] at hblank
  have hnumberHead (c : Char) (hc : (number ++ (gap'' ++ word)).head? = some c) :
      isBlank c = false := by
    rw [List.head?_append_of_ne_nil _ hne] at hc
    exact isBlank_eq_false_of_isDecimal (hnumber c (List.mem_of_head? hc))
  obtain ⟨htake, hdrop⟩ := span_append_of_head hnumber hfollow
  have hs := (span_append_of_head (p := isBlank)
    (s := sign :: (gap' ++ (number ++ (gap'' ++ word)))) hgap
    fun c hc => by cases hc; exact isBlank_eq_false_of_isSign hsign).2
  rw [readShift?_eq hs hsign, (span_append_of_head hgap' hnumberHead).2, htake, if_neg hne, hdrop,
    (span_append_of_head hgap'' fun c hc => (hword c hc).1).2]

theorem readShift?_eq_some_iff {s : List Char} {shift : Shift} :
    readShift? s = some shift ↔ WritesShift s shift := by
  constructor
  · intro h
    have hs := List.takeWhile_append_dropWhile (p := isBlank) (l := s)
    cases hdrop : s.dropWhile isBlank with
    | nil => simp [readShift?, hdrop] at h
    | cons sign r =>
      have hsign : isSign sign = true := by
        by_contra hno
        have hno := mt isSign_iff.2 hno
        simp [readShift?, hdrop, hno] at h
      rw [readShift?_eq hdrop hsign] at h
      split_ifs at h with hnumber
      obtain ⟨unit, hunit, rfl⟩ := Option.map_eq_some_iff.1 h
      have hgap (s : List Char) : AllBlank (s.takeWhile isBlank) :=
        fun c hc => List.mem_takeWhile_imp hc
      have hwritten := WritesShift.mk (hgap s) hsign (hgap r) hnumber
        (fun c hc => List.mem_takeWhile_imp hc) (hgap ((r.dropWhile isBlank).dropWhile isDecimal))
        (unitWord?_eq_some_iff.1 hunit)
      rw [List.takeWhile_append_dropWhile, List.takeWhile_append_dropWhile,
        List.takeWhile_append_dropWhile, ← hdrop, hs] at hwritten
      exact hwritten
  · rintro ⟨hgap, hsign, hgap', hne, hnumber, hgap'', hword⟩
    rw [readShift?_append hgap hsign hgap' hne hnumber hgap'' fun c hc =>
      (hword.isLetter (List.mem_of_head? hc)).imp_right And.left, unitWord?_eq_some_iff.2 hword,
      Option.map_some]

theorem readShift?_append_of_allBlank {gap : List Char} (h : AllBlank gap) (s : List Char) :
    readShift? (gap ++ s) = readShift? s := by
  rw [readShift?, List.dropWhile_append_of_pos h, ← readShift?]

theorem isSign_eq_false_of {p : Char → Bool} (hplus : p '+' = false) (hminus : p '-' = false)
    {c : Char} (h : p c = true) : isSign c = false := by
  rw [Bool.eq_false_iff]
  intro hs
  obtain rfl | rfl := isSign_iff.1 hs
  · simp [hplus] at h
  · simp [hminus] at h

theorem isSign_eq_false_of_isBlank {c : Char} : isBlank c = true → isSign c = false :=
  isSign_eq_false_of (by decide) (by decide)

theorem isSign_eq_false_of_isDecimal {c : Char} : isDecimal c = true → isSign c = false :=
  isSign_eq_false_of (by decide) (by decide)

theorem countP_isSign_eq_zero {s : List Char} (h : ∀ c ∈ s, isSign c = false) :
    s.countP isSign = 0 :=
  List.countP_eq_zero.2 fun c hc => by simp [h c hc]

theorem WritesShift.one_sign {t : List Char} {shift : Shift} (h : WritesShift t shift) :
    t.countP isSign = 1 ∧ AllBlank (t.takeWhile (!isSign ·)) := by
  obtain ⟨hgap, hsign, hgap', -, hnumber, hgap'', hword⟩ := h
  constructor
  · rw [List.countP_append, List.countP_cons_of_pos hsign, List.countP_append, List.countP_append,
      List.countP_append, countP_isSign_eq_zero fun c hc => isSign_eq_false_of_isBlank (hgap c hc),
      countP_isSign_eq_zero fun c hc => isSign_eq_false_of_isBlank (hgap' c hc),
      countP_isSign_eq_zero fun c hc => isSign_eq_false_of_isDecimal (hnumber c hc),
      countP_isSign_eq_zero fun c hc => isSign_eq_false_of_isBlank (hgap'' c hc),
      countP_isSign_eq_zero fun c hc => (hword.isLetter hc).2.2]
  · rw [(span_append_of_head (fun c hc => by simp [isSign_eq_false_of_isBlank (hgap c hc)])
      fun c hc => by cases hc; simp [hsign]).1]
    exact hgap

theorem WritesShift.allBlank_of_append {a t : List Char} {shift shift' : Shift}
    (h : WritesShift t shift) (h' : WritesShift (a ++ t) shift') : AllBlank a := by
  have hcount := h'.one_sign.1
  rw [List.countP_append, h.one_sign.1, Nat.add_eq_right, List.countP_eq_zero] at hcount
  have hbefore := h'.one_sign.2
  rw [List.takeWhile_append_of_pos fun c hc => by simp [hcount c hc]] at hbefore
  exact fun c hc => hbefore c (List.mem_append_left _ hc)

def Closes (s : List Char) : Prop := ∀ c, s.getLast? = some c → isBlank c = false

theorem Closes.eq_nil {s : List Char} (h : Closes s) (hs : AllBlank s) : s = [] := by
  cases hlast : s.getLast? with
  | none => exact List.getLast?_eq_none_iff.1 hlast
  | some c =>
    have := h c hlast
    simp [hs c (List.mem_of_getLast? hlast)] at this

theorem closes_cons_iff {c : Char} {s : List Char} (h : s ≠ []) : Closes (c :: s) ↔ Closes s := by
  rw [Closes, Closes, List.getLast?_cons_of_ne_nil h]

/-- The base is a start of the text, the shortest that leaves a shift: past its first character it
does not end with white space. -/
structure Splits (s base : List Char) (shift : Shift) : Prop where
  ne_nil : base ≠ []
  no_feed : '\n' ∉ base
  closes : Closes base.tail
  shift : ∃ t, s = base ++ t ∧ WritesShift t shift

theorem splits_cons_iff {c : Char} {r base : List Char} {shift : Shift} :
    Splits (c :: r) base shift ↔ c ≠ '\n' ∧ ∃ b t, base = c :: b ∧ r = b ++ t ∧ '\n' ∉ b ∧
      Closes b ∧ WritesShift t shift := by
  constructor
  · rintro ⟨hne, hfeed, hcloses, t, hs, hshift⟩
    obtain ⟨d, b, rfl⟩ := List.exists_cons_of_ne_nil hne
    rw [List.cons_append, List.cons.injEq] at hs
    obtain ⟨rfl, rfl⟩ := hs
    rw [List.mem_cons, not_or] at hfeed
    exact ⟨Ne.symm hfeed.1, b, t, rfl, rfl, hfeed.2, hcloses, hshift⟩
  · rintro ⟨hc, b, t, rfl, rfl, hfeed, hcloses, hshift⟩
    refine ⟨by simp, ?_, hcloses, t, rfl, hshift⟩
    rw [List.mem_cons, not_or]
    exact ⟨Ne.symm hc, hfeed⟩

theorem splitShift?_eq_some_iff {s base : List Char} {shift : Shift} :
    splitShift? s = some (base, shift) ↔ Splits s base shift := by
  induction s generalizing base with
  | nil =>
    constructor
    · intro h; cases h
    · rintro ⟨hne, -, -, t, hs, -⟩
      simp [hne] at hs
  | cons c r ih =>
    rw [splits_cons_iff, splitShift?]
    by_cases hc : c = '\n'
    · simp [hc]
    rw [if_neg hc]
    cases hr : readShift? r with
    | some first =>
      have hfirst := readShift?_eq_some_iff.1 hr
      constructor
      · rintro ⟨⟩
        exact ⟨hc, [], r, rfl, rfl, by simp, by simp [Closes], hfirst⟩
      · rintro ⟨-, b, t, rfl, rfl, -, hcloses, hshift⟩
        obtain rfl := hcloses.eq_nil (hshift.allBlank_of_append hfirst)
        rw [List.nil_append, readShift?_eq_some_iff.2 hshift] at hr
        cases hr
        rfl
    | none =>
      -- Here a base of one character is ruled out, and so is white space at the end of one of two.
      have hnone {b t : List Char} (h : r = b ++ t) (hshift : WritesShift t shift) :
          ¬ AllBlank b := by
        intro hb
        rw [h, readShift?_append_of_allBlank hb, readShift?_eq_some_iff.2 hshift] at hr
        cases hr
      simp only [Option.map_eq_some_iff, Prod.exists, Prod.mk.injEq]
      constructor
      · rintro ⟨b, _, hsplit, rfl, rfl⟩
        obtain ⟨hne, hfeed, hcloses, t, hs, hshift⟩ := ih.1 hsplit
        refine ⟨hc, b, t, rfl, hs, hfeed, ?_, hshift⟩
        obtain ⟨d, b, rfl⟩ := List.exists_cons_of_ne_nil hne
        cases b with
        | nil =>
          intro e he
          simp only [List.getLast?_singleton, Option.some.injEq] at he
          have := hnone hs hshift
          simpa [AllBlank, he] using this
        | cons e b => exact (closes_cons_iff (by simp)).2 hcloses
      · rintro ⟨-, b, t, rfl, hs, hfeed, hcloses, hshift⟩
        refine ⟨b, shift, ih.2 ⟨?_, hfeed, ?_, t, hs, hshift⟩, rfl, rfl⟩
        · rintro rfl
          exact hnone hs hshift (by simp)
        · cases b with
          | nil => exact hcloses
          | cons d b =>
            cases b with
            | nil => simp [Closes]
            | cons e b => exact (closes_cons_iff (by simp)).1 hcloses

end DavQuery.Calendar
