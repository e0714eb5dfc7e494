import DavQuery.Calendar.ZoneName
import DavQuery.Proofs.Breach
import DavQuery.Proofs.Template

/-! Dates count by their instant only. The text of a date and its offset are not seen by any
criterion, nor where a date is shown; bounds on the date part the records as the line of time
does. -/

namespace DavQuery
open Calendar

/-- The records are the same but for the text of the last change, and both texts tell the same
instant. -/
def Record.AgreeInTime (zone : Zone) (r r' : Record) : Prop :=
  r' = { r with modified := r'.modified } ∧ ∃ s s', timestamp? zone r.modified = .ok (some s) ∧
    timestamp? zone r'.modified = .ok (some s') ∧ s.instant = s'.instant

theorem Calendar.Stamp.inZone?_congr {s s' : Stamp} (h : s.instant = s'.instant) (zone : Zone) :
    s.inZone? zone = s'.inZone? zone := by
  rw [inZone?, inZone?, h]

theorem Calendar.resolve?_empty (here : LocalTime) : resolve? here "" = .ok none := rfl

namespace Criterion

variable {here : LocalTime} {r : Record} {value : String} {test : Stamp → Stamp → Bool}

theorem comparesDates_of_ok {modified bound : Option Stamp}
    (hmodified : r.modifiedAt? here.zone = .ok modified)
    (hbound : resolve? here value = .ok bound) :
    comparesDates here r value test =
      .ok (modified.any fun m => bound.any fun b => test m b) := by
  unfold comparesDates dates?
  simp only [hmodified, hbound, bind, Except.bind, pure, Except.pure]
  cases modified <;> cases bound <;> rfl

theorem comparesDates_congr {r' : Record} (h : r.AgreeInTime here.zone r')
    (htest : ∀ a a' b, a.instant = a'.instant → test a b = test a' b) :
    comparesDates here r value test = comparesDates here r' value test := by
  obtain ⟨-, s, s', hs, hs', hinstant⟩ := h
  cases hbound : resolve? here value with
  | ok bound =>
    rw [comparesDates_of_ok hs hbound, comparesDates_of_ok hs' hbound]
    cases bound <;> simp [htest s s' _ hinstant]
  | error fault =>
    have hr : r.modifiedAt? here.zone = .ok (some s) := hs
    have hr' : r'.modifiedAt? here.zone = .ok (some s') := hs'
    simp [comparesDates, dates?, hr, hr', hbound, bind, Except.bind]

theorem holds_congr {r' : Record} (h : r.AgreeInTime here.zone r') (c : Criterion) :
    c.holds here r = c.holds here r' := by
  unfold holds
  cases c.aspect? with
  | none => rfl
  | some a =>
    cases a with
    | modifiedAfter => exact comparesDates_congr h fun a a' b e => by rw [e]
    | modifiedBefore => exact comparesDates_congr h fun a a' b e => by rw [e]
    | _ =>
      rw [h.1]
      rfl

theorem holds_modifiedAfter (h : value ≠ "") (here : LocalTime) (r : Record) :
    holds here r ⟨"modifiedafter", value⟩ =
      comparesDates here r value fun a b => b.instant < a.instant := by
  have hkey : Aspect.ofKey? "modifiedafter" = some .modifiedAfter := by decide
  exact holds_of_aspect (aspect?_of_value hkey h) here r

theorem holds_modifiedBefore (h : value ≠ "") (here : LocalTime) (r : Record) :
    holds here r ⟨"modifiedbefore", value⟩ =
      comparesDates here r value fun a b => a.instant < b.instant := by
  have hkey : Aspect.ofKey? "modifiedbefore" = some .modifiedBefore := by decide
  exact holds_of_aspect (aspect?_of_value hkey h) here r

theorem ne_empty_of_resolve? {bound : Stamp} (h : resolve? here value = .ok (some bound)) :
    value ≠ "" := by
  rintro rfl
  simp [resolve?_empty] at h

theorem not_holds_of_untold {modified bound : Option Stamp} (h : value ≠ "")
    (hmodified : r.modifiedAt? here.zone = .ok modified) (hbound : resolve? here value = .ok bound)
    (huntold : modified = none ∨ bound = none) :
    holds here r ⟨"modifiedafter", value⟩ = .ok false ∧
      holds here r ⟨"modifiedbefore", value⟩ = .ok false := by
  rw [holds_modifiedAfter h, holds_modifiedBefore h, comparesDates_of_ok hmodified hbound,
    comparesDates_of_ok hmodified hbound]
  rcases huntold with rfl | rfl <;> simp

theorem holds_of_told {modified bound : Stamp} (hmodified : r.modifiedAt? here.zone = .ok modified)
    (hbound : resolve? here value = .ok (some bound)) :
    holds here r ⟨"modifiedafter", value⟩ = .ok (decide (bound.instant < modified.instant)) ∧
      holds here r ⟨"modifiedbefore", value⟩ =
        .ok (decide (modified.instant < bound.instant)) := by
  have h := ne_empty_of_resolve? hbound
  rw [holds_modifiedAfter h, holds_modifiedBefore h, comparesDates_of_ok hmodified hbound,
    comparesDates_of_ok hmodified hbound]
  exact ⟨rfl, rfl⟩

theorem holds_trichotomy {modified bound : Stamp}
    (hmodified : r.modifiedAt? here.zone = .ok modified)
    (hbound : resolve? here value = .ok (some bound)) :
    let after := holds here r ⟨"modifiedafter", value⟩
    let before := holds here r ⟨"modifiedbefore", value⟩
    after = .ok true ∧ before = .ok false ∧ modified.instant ≠ bound.instant ∨
      after = .ok false ∧ before = .ok true ∧ modified.instant ≠ bound.instant ∨
      after = .ok false ∧ before = .ok false ∧ modified.instant = bound.instant := by
  obtain ⟨hafter, hbefore⟩ := holds_of_told hmodified hbound
  simp only [hafter, hbefore, Except.ok.injEq, decide_eq_true_eq, decide_eq_false_iff_not]
  omega

theorem exists_modified_of_comparesDates {bound : Stamp}
    (hbound : resolve? here value = .ok (some bound))
    (h : comparesDates here r value test = .ok true) :
    ∃ modified, r.modifiedAt? here.zone = .ok (some modified) ∧ test modified bound = true := by
  cases hmodified : r.modifiedAt? here.zone with
  | error fault => simp [comparesDates, dates?, hmodified, bind, Except.bind] at h
  | ok modified =>
    rw [comparesDates_of_ok hmodified hbound] at h
    cases modified with
    | none => simp at h
    | some m => exact ⟨m, rfl, by simpa using h⟩

theorem holds_mono {other : String} {bound later : Stamp}
    (hbound : resolve? here value = .ok (some bound))
    (hlater : resolve? here other = .ok (some later)) (hle : bound.instant ≤ later.instant) :
    (holds here r ⟨"modifiedafter", other⟩ = .ok true →
        holds here r ⟨"modifiedafter", value⟩ = .ok true) ∧
      (holds here r ⟨"modifiedbefore", value⟩ = .ok true →
        holds here r ⟨"modifiedbefore", other⟩ = .ok true) := by
  have hvalue := ne_empty_of_resolve? hbound
  have hother := ne_empty_of_resolve? hlater
  constructor
  · intro h
    rw [holds_modifiedAfter hother] at h
    obtain ⟨m, hm, htest⟩ := exists_modified_of_comparesDates hlater h
    rw [(holds_of_told hm hbound).1]
    simp only [decide_eq_true_eq] at htest
    simp only [Except.ok.injEq, decide_eq_true_eq]
    omega
  · intro h
    rw [holds_modifiedBefore hvalue] at h
    obtain ⟨m, hm, htest⟩ := exists_modified_of_comparesDates hbound h
    rw [(holds_of_told hm hlater).2]
    simp only [decide_eq_true_eq] at htest
    simp only [Except.ok.injEq, decide_eq_true_eq]
    omega

end Criterion

namespace Token

theorem localText_congr {zone : Zone} {r r' : Record} (h : r.AgreeInTime zone r')
    (write : DateTime → List Char) :
    ∃ text, localText zone r write = .ok text ∧ localText zone r' write = .ok text := by
  obtain ⟨-, s, s', hs, hs', hinstant⟩ := h
  have hr : r.modifiedAt? zone = .ok (some s) := hs
  have hr' : r'.modifiedAt? zone = .ok (some s') := hs'
  simp only [localText, hr, hr', Option.bind_some, Stamp.inZone?_congr hinstant]
  cases s'.inZone? zone <;> simp

theorem value_congr {zone : Zone} {r r' : Record} (h : r.AgreeInTime zone r') {token : Token}
    (htoken : token ≠ .modified) : token.value zone r = token.value zone r' := by
  cases token with
  | date =>
    obtain ⟨text, hr, hr'⟩ := localText_congr h fun t => dateText t.date
    exact hr.trans hr'.symm
  | datetime =>
    obtain ⟨text, hr, hr'⟩ := localText_congr h fun t => dateText t.date ++ ' ' :: clockText t.clock
    exact hr.trans hr'.symm
  | modified => exact absurd rfl htoken
  | _ =>
    rw [h.1]
    rfl

end Token

namespace Template

theorem expand_congr {zone : Zone} {r r' : Record} (h : r.AgreeInTime zone r') {template : String}
    (hnot : .placeholder "modified".toList ∉ pieces template.toList) :
    expand zone template r = expand zone template r' := by
  have hname : r.name = r'.name := by rw [h.1]
  unfold expand
  rw [hname, expandPieces_congr fun p hp => ?_]
  cases p with
  | literal c => rfl
  | placeholder word =>
    rw [Piece.expand, Piece.expand]
    cases hword : Token.ofWord? (String.ofList word) with
    | none => rfl
    | some token =>
      have htoken : token ≠ .modified := by
        rintro rfl
        have hmem := Token.ofWord?_eq_some_iff.1 hword
        simp only [Token.words, List.mem_cons, Prod.mk.injEq, reduceCtorEq, and_false, false_or,
          or_false, and_true, List.not_mem_nil] at hmem
        rw [← hmem, String.toList_ofList] at hnot
        exact hnot hp
      simp only [Token.value_congr h htoken]

theorem expand_date_congr {zone : Zone} {r r' : Record} (h : r.AgreeInTime zone r')
    {word : List Char} (hword : word ∈ ["date".toList, "datetime".toList]) :
    ∃ text, expand zone (String.ofList (placeholderText word)) r = .ok text ∧
      expand zone (String.ofList (placeholderText word)) r' = .ok text := by
  simp only [List.mem_cons, List.not_mem_nil, or_false] at hword
  rcases hword with rfl | rfl
  · have htoken : Token.ofWord? (String.ofList "date".toList) = some .date := by decide
    have hletters : ∀ c ∈ "date".toList, Text.isWord c = true :=
      List.all_eq_true.1 (by decide)
    rw [expand_placeholder htoken (by decide) hletters,
      expand_placeholder htoken (by decide) hletters, Token.value, Token.value]
    exact Token.localText_congr h _
  · have htoken : Token.ofWord? (String.ofList "datetime".toList) = some .datetime := by decide
    have hletters : ∀ c ∈ "datetime".toList, Text.isWord c = true :=
      List.all_eq_true.1 (by decide)
    rw [expand_placeholder htoken (by decide) hletters,
      expand_placeholder htoken (by decide) hletters, Token.value, Token.value]
    exact Token.localText_congr h _

end Template

/-- Dates count by their instant. Records that agree in time meet the same criteria and are written
alike by every template that does not show the text of the change itself; the date and the date-time
are then shown, or nothing for both. A usable date is after a bound, before it, or of its instant;
a later bound leaves fewer after it and more before it; and a date or a bound that is not told is
neither after nor before anything. -/
theorem dates_count_by_instant (here : LocalTime) :
    (∀ r r' : Record, r.AgreeInTime here.zone r' →
      (∀ c : Criterion, c.holds here r = c.holds here r') ∧
        (∀ template, .placeholder "modified".toList ∉ Template.pieces template.toList →
          Template.expand here.zone template r = Template.expand here.zone template r') ∧
        ∀ word ∈ ["date".toList, "datetime".toList], ∃ text,
          Template.expand here.zone (String.ofList (Template.placeholderText word)) r = .ok text ∧
          Template.expand here.zone (String.ofList (Template.placeholderText word)) r' =
            .ok text) ∧
    ∀ r : Record,
      (∀ value modified bound, r.modifiedAt? here.zone = .ok (some modified) →
        resolve? here value = .ok (some bound) →
          let after := Criterion.holds here r ⟨"modifiedafter", value⟩
          let before := Criterion.holds here r ⟨"modifiedbefore", value⟩
          after = .ok true ∧ before = .ok false ∧ modified.instant ≠ bound.instant ∨
            after = .ok false ∧ before = .ok true ∧ modified.instant ≠ bound.instant ∨
            after = .ok false ∧ before = .ok false ∧ modified.instant = bound.instant) ∧
      (∀ value bound value' bound', resolve? here value = .ok (some bound) →
        resolve? here value' = .ok (some bound') → bound.instant ≤ bound'.instant →
          (Criterion.holds here r ⟨"modifiedafter", value'⟩ = .ok true →
            Criterion.holds here r ⟨"modifiedafter", value⟩ = .ok true) ∧
          (Criterion.holds here r ⟨"modifiedbefore", value⟩ = .ok true →
            Criterion.holds here r ⟨"modifiedbefore", value'⟩ = .ok true)) ∧
      ∀ value modified bound, value ≠ "" → r.modifiedAt? here.zone = .ok modified →
        resolve? here value = .ok bound → modified = none ∨ bound = none →
          Criterion.holds here r ⟨"modifiedafter", value⟩ = .ok false ∧
            Criterion.holds here r ⟨"modifiedbefore", value⟩ = .ok false := by
  refine ⟨fun r r' h => ⟨Criterion.holds_congr h, fun template => Template.expand_congr h,
    fun word => Template.expand_date_congr h⟩, fun r => ⟨?_, ?_, ?_⟩⟩
  · intro value modified bound hmodified hbound
    exact Criterion.holds_trichotomy hmodified hbound
  · intro value bound value' bound' hbound hbound' hle
    exact Criterion.holds_mono hbound hbound' hle
  · intro value modified bound hvalue hmodified hbound huntold
    exact Criterion.not_holds_of_untold hvalue hmodified hbound huntold

theorem dates_count_by_instant_new_york :
    let zone : Zone := .yearly (-18000) (some ⟨-14400, ⟨3, 2, 0, 7200⟩, ⟨11, 1, 0, 7200⟩⟩)
    let here : LocalTime := ⟨zone, ⟨⟨2025, 10, 20, by decide⟩, ⟨12, 0, 0, 0, by decide⟩⟩⟩
    let r : Record := { name := "a.txt", modified := "Fri, 10 Oct 2025 08:30:00 GMT" }
    let r' : Record := { name := "a.txt", modified := "2025-10-10T04:30:00" }
    let after (value : String) : Criterion := ⟨"modifiedafter", value⟩
    let before (value : String) : Criterion := ⟨"modifiedbefore", value⟩
    r.AgreeInTime zone r' ∧
      (after "now - 11 days").holds here r = (after "now - 11 days").holds here r' ∧
      Template.expand zone "\x7b\x7bname\x7d\x7d, \x7b\x7bdate\x7d\x7d" r =
        Template.expand zone "\x7b\x7bname\x7d\x7d, \x7b\x7bdate\x7d\x7d" r' ∧
      (before "2025-10-10T09:30:00+01:00").holds here r = .ok false ∧
      (after "2025-10-01").holds here r = .ok true ∧
      (after "yesterday").holds here r = .ok false := by
  intro zone here r r' after before
  have hstamp : timestamp? zone r.modified =
      .ok (some ⟨⟨⟨2025, 10, 10, by decide⟩, ⟨8, 30, 0, 0, by decide⟩⟩, 0, by decide⟩) := by
    decide +kernel
  have hstamp' : timestamp? zone r'.modified =
      .ok (some ⟨⟨⟨2025, 10, 10, by decide⟩, ⟨4, 30, 0, 0, by decide⟩⟩, -14400000000,
        by decide⟩) := by
    decide +kernel
  have hagree : r.AgreeInTime zone r' := ⟨rfl, _, _, hstamp, hstamp', by decide +kernel⟩
  have hbound : resolve? here "2025-10-10T09:30:00+01:00" =
      .ok (some ⟨⟨⟨2025, 10, 10, by decide⟩, ⟨9, 30, 0, 0, by decide⟩⟩, 3600000000,
        by decide⟩) := by
    decide +kernel
  have hfirst : resolve? here "2025-10-01" =
      .ok (some ⟨⟨⟨2025, 10, 1, by decide⟩, ⟨0, 0, 0, 0, by decide⟩⟩, -14400000000,
        by decide⟩) := by
    decide +kernel
  have hsecond : resolve? here "2025-10-02" =
      .ok (some ⟨⟨⟨2025, 10, 2, by decide⟩, ⟨0, 0, 0, 0, by decide⟩⟩, -14400000000,
        by decide⟩) := by
    decide +kernel
  have huntold : resolve? here "yesterday" = .ok none := by decide +kernel
  obtain ⟨hsame, hbounds⟩ := dates_count_by_instant here
  obtain ⟨hcriteria, htemplates, -⟩ := hsame r r' hagree
  obtain ⟨hparts, hmono, hnot⟩ := hbounds r
  refine ⟨hagree, hcriteria _, htemplates _ (by decide +kernel), ?_, ?_, ?_⟩
  · rcases hparts _ _ _ hstamp hbound with ⟨-, hno, -⟩ | ⟨-, -, hne⟩ | ⟨-, hno, -⟩
    · exact hno
    · exact absurd (by decide +kernel) hne
    · exact hno
  · exact (hmono _ _ _ _ hfirst hsecond (by decide +kernel)).1 (by decide +kernel)
  · exact (hnot _ _ _ (by decide) hstamp huntold (.inr rfl)).1

end DavQuery
