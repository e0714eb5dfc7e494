import DavQuery.Proofs.Breach
import DavQuery.Proofs.Selection

/-! Selecting is a conjunction that may break: criteria put together select what one list of them
selects from what the other has left. Where nothing breaks only the set of the criteria counts, and
a criterion that looks at nothing can stand anywhere. -/

namespace DavQuery
open Calendar

/-- Nothing is compared by the criterion: its key is not known, or it has no value and its key is
not one of the two that compare an empty value. -/
def Criterion.IsIdle (c : Criterion) : Prop :=
  c.key ∉ ["extension", "type", "minsize", "maxsize", "favorite", "mimetype", "tag", "owner",
      "modifiedafter", "modifiedbefore", "haspreview"] ∨
    c.value = "" ∧ c.key ≠ "favorite" ∧ c.key ≠ "haspreview"

namespace Aspect

theorem ofKey?_eq_none_iff {key : String} : ofKey? key = none ↔
    key ∉ ["extension", "type", "minsize", "maxsize", "favorite", "mimetype", "tag", "owner",
      "modifiedafter", "modifiedbefore", "haspreview"] := by
  rw [ofKey?, List.lookup_eq_none_iff]
  simp [keys]

theorem comparesEmpty_iff {key : String} {a : Aspect} (h : ofKey? key = some a) :
    a.comparesEmpty = true ↔ key = "favorite" ∨ key = "haspreview" := by
  rw [ofKey?_eq_some_iff] at h
  simp only [keys, List.mem_cons, Prod.mk.injEq, List.not_mem_nil, or_false] at h
  rcases h with ⟨rfl, rfl⟩ | ⟨rfl, rfl⟩ | ⟨rfl, rfl⟩ | ⟨rfl, rfl⟩ | ⟨rfl, rfl⟩ | ⟨rfl, rfl⟩ |
    ⟨rfl, rfl⟩ | ⟨rfl, rfl⟩ | ⟨rfl, rfl⟩ | ⟨rfl, rfl⟩ | ⟨rfl, rfl⟩ <;> decide

end Aspect

namespace Criterion

theorem aspect?_eq_none_iff {c : Criterion} : c.aspect? = none ↔ c.IsIdle := by
  unfold aspect? IsIdle
  rw [← Aspect.ofKey?_eq_none_iff]
  cases h : Aspect.ofKey? c.key with
  | none => simp
  | some a =>
    have hempty := Aspect.comparesEmpty_iff h
    simp [Option.filter, hempty]

theorem holds_of_isIdle {c : Criterion} (h : c.IsIdle) (here : LocalTime) (r : Record) :
    c.holds here r = .ok true := by
  rw [holds, aspect?_eq_none_iff.2 h]

end Criterion

namespace Record

variable {here : LocalTime} {r : Record}

/-- Every criterion that breaks on the record stands after one that is false. -/
def IsDecided (here : LocalTime) (r : Record) (cs : List Criterion) : Prop :=
  ∀ done c rest b, cs = done ++ c :: rest → c.holds here r = .error b →
    ∃ d ∈ done, d.holds here r = .ok false

theorem meets_append (cs ds : List Criterion) :
    r.meets here (cs ++ ds) = r.meets here cs >>= fun met =>
      if met then r.meets here ds else .ok false := by
  induction cs with
  | nil => rfl
  | cons c cs ih =>
    rw [List.cons_append, meets, meets]
    cases c.holds here r with
    | error b => rfl
    | ok met =>
      cases met with
      | true => exact ih
      | false => rfl

theorem exists_meets_eq_ok_iff {cs : List Criterion} :
    (∃ met, r.meets here cs = .ok met) ↔ r.IsDecided here cs := by
  constructor
  · rintro ⟨met, hmet⟩ done c rest b rfl hc
    induction done with
    | nil => simp [meets, hc] at hmet
    | cons d done ih =>
      rw [List.cons_append, meets] at hmet
      cases hd : d.holds here r with
      | error e => simp [hd] at hmet
      | ok m =>
        cases m with
        | false => exact ⟨d, List.mem_cons_self, hd⟩
        | true =>
          obtain ⟨x, hx, hfalse⟩ := ih (by simpa [hd] using hmet)
          exact ⟨x, List.mem_cons_of_mem d hx, hfalse⟩
  · intro h
    cases hm : r.meets here cs with
    | ok met => exact ⟨met, rfl⟩
    | error b =>
      obtain ⟨done, c, rest, hcs, hdone, hc⟩ := meets_eq_error_iff.1 hm
      obtain ⟨d, hd, hfalse⟩ := h done c rest b hcs hc
      simp [hdone d hd] at hfalse

theorem exists_meets_append_iff {cs ds : List Criterion} :
    (∃ met, r.meets here (cs ++ ds) = .ok met) ↔ (∃ met, r.meets here cs = .ok met) ∧
      (r.meets here cs = .ok true → ∃ met, r.meets here ds = .ok met) := by
  rw [meets_append]
  cases r.meets here cs with
  | error b => simp [bind, Except.bind]
  | ok met => cases met <;> simp [bind, Except.bind]

theorem meets_append_eq_true_iff {cs ds : List Criterion} : r.meets here (cs ++ ds) = .ok true ↔
    r.meets here ds = .ok true ∧ r.meets here cs = .ok true := by
  rw [meets_eq_true_iff, List.forall_mem_append, and_comm, meets_eq_true_iff, meets_eq_true_iff]

theorem meets_insert_idle {c : Criterion} (h : c.IsIdle) (cs ds : List Criterion) :
    r.meets here (cs ++ c :: ds) = r.meets here (cs ++ ds) := by
  rw [meets_append, meets_append, meets_cons_of_holds (Criterion.holds_of_isIdle h here r)]

end Record

namespace Selection

variable {here : LocalTime} {cs ds : List Criterion} {rs : List Record}

theorem select_congr (h : ∀ r ∈ rs, r.meets here cs = r.meets here ds) :
    select here cs rs = select here ds rs := by
  induction rs with
  | nil => rfl
  | cons r rs ih =>
    rw [List.forall_mem_cons] at h
    rw [select, select, h.1, ih h.2]

theorem exists_select_eq_ok_iff :
    (∃ kept, select here cs rs = .ok kept) ↔ ∀ r ∈ rs, r.IsDecided here cs := by
  simp only [select_eq_ok_iff, Record.exists_meets_eq_ok_iff, exists_and_left, exists_eq, and_true]

theorem eq_filter_of_select_eq_ok {kept : List Record} (h : select here cs rs = .ok kept) :
    kept = rs.filter fun r => ∀ c ∈ cs, c.holds here r = .ok true := by
  rw [(select_eq_ok_iff.1 h).2]
  refine List.filter_congr fun r _ => ?_
  rw [decide_eq_decide]
  exact Record.meets_eq_true_iff

theorem select_append_eq_ok_iff {kept : List Record} :
    select here (cs ++ ds) rs = .ok kept ↔
      ∃ left, select here cs rs = .ok left ∧ select here ds left = .ok kept := by
  have hfilter : rs.filter (fun r => r.meets here (cs ++ ds) = .ok true) =
      (rs.filter fun r => r.meets here cs = .ok true).filter
        fun r => r.meets here ds = .ok true := by
    simp only [List.filter_filter, Record.meets_append_eq_true_iff, Bool.decide_and]
  simp only [select_eq_ok_iff, Record.exists_meets_append_iff, hfilter]
  constructor
  · rintro ⟨htold, rfl⟩
    refine ⟨_, ⟨fun r hr => (htold r hr).1, rfl⟩, fun r hr => ?_, rfl⟩
    rw [List.mem_filter, decide_eq_true_iff] at hr
    exact (htold r hr.1).2 hr.2
  · rintro ⟨left, ⟨hfirst, rfl⟩, hsecond, rfl⟩
    refine ⟨fun r hr => ⟨hfirst r hr, fun hmeets => hsecond r ?_⟩, rfl⟩
    exact List.mem_filter.2 ⟨hr, decide_eq_true hmeets⟩

theorem select_of_same_criteria (hsame : ∀ c, c ∈ ds ↔ c ∈ cs)
    (hsound : ∀ r ∈ rs, ∀ c ∈ cs, ∃ holds, c.holds here r = .ok holds) :
    select here ds rs = select here cs rs := by
  refine select_congr fun r hr => ?_
  have hmeets : r.meets here ds = .ok true ↔ r.meets here cs = .ok true := by
    simp only [Record.meets_eq_true_iff, hsame]
  have htold (es : List Criterion) (h : ∀ c ∈ es, c ∈ cs) : ∃ met, r.meets here es = .ok met := by
    cases hm : r.meets here es with
    | ok met => exact ⟨met, rfl⟩
    | error b =>
      obtain ⟨done, c, rest, rfl, -, hc⟩ := Record.meets_eq_error_iff.1 hm
      obtain ⟨holds, hholds⟩ := hsound r hr c (h c (by simp))
      simp [hc] at hholds
  obtain ⟨met, hcs⟩ := htold cs fun c => id
  obtain ⟨met', hds⟩ := htold ds fun c => (hsame c).1
  rw [hcs, hds] at hmeets ⊢
  cases met <;> cases met' <;> simp_all

/-- Selecting keeps the records of which all criteria are true, in their order and as often as they
stand, unless one breaks before the first that is false. Criteria put together select one after the
other; where none breaks, their order and their number do not count; and an idle one makes no
difference anywhere. -/
theorem select_conjunctive (here : LocalTime) (rs : List Record) (cs ds : List Criterion) :
    ((∃ kept, select here cs rs = .ok kept) ↔ ∀ r ∈ rs, r.IsDecided here cs) ∧
      (∀ kept, select here cs rs = .ok kept →
        kept = rs.filter fun r => ∀ c ∈ cs, c.holds here r = .ok true) ∧
      (∀ kept, select here (cs ++ ds) rs = .ok kept ↔
        (select here cs rs >>= select here ds) = .ok kept) ∧
      (∀ es, (∀ c, c ∈ es ↔ c ∈ cs) →
        (∀ r ∈ rs, ∀ c ∈ cs, ∃ holds, c.holds here r = .ok holds) →
          select here es rs = select here cs rs) ∧
      ∀ c : Criterion, c.IsIdle → select here (cs ++ c :: ds) rs = select here (cs ++ ds) rs := by
  refine ⟨exists_select_eq_ok_iff, fun kept => eq_filter_of_select_eq_ok, fun kept => ?_,
    fun es => select_of_same_criteria, fun c hc => ?_⟩
  · rw [select_append_eq_ok_iff]
    cases select here cs rs <;> simp [bind, Except.bind]
  · exact select_congr fun r _ => Record.meets_insert_idle hc cs ds

theorem select_conjunctive_two :
    let here : LocalTime := ⟨.utc, ⟨⟨2025, 3, 15, by decide⟩, ⟨12, 0, 0, 0, by decide⟩⟩⟩
    let small : Record := { name := "a.txt", size := 2 }
    let large : Record := { name := "b.txt", size := 5 }
    let least : Criterion := ⟨"minsize", "3"⟩
    let most : Criterion := ⟨"maxsize", "9"⟩
    let misspelled : Criterion := ⟨"modifiedafter", "now - 1 ſecond"⟩
    small.IsDecided here [least, misspelled] ∧
      [large] = [small, large].filter (fun r => ∀ c ∈ [least, most], c.holds here r = .ok true) ∧
      (select here [least] [small, large] >>= select here [most]) = .ok [large] ∧
      select here [most, least, most] [small, large] = select here [least, most] [small, large] ∧
      select here [least, ⟨"MINSIZE", "7"⟩, most] [small, large] =
        select here [least, most] [small, large] := by
  intro here small large least most misspelled
  obtain ⟨hdecided, -⟩ := select_conjunctive here [small] [least, misspelled] []
  obtain ⟨-, hkept, -, hsame, -⟩ := select_conjunctive here [small, large] [least, most] []
  obtain ⟨-, -, happend, -, hidle⟩ := select_conjunctive here [small, large] [least] [most]
  refine ⟨hdecided.1 ⟨[], by decide +kernel⟩ small (by simp), hkept _ (by decide +kernel),
    (happend _).1 (by decide +kernel), hsame _ ?_ (by decide +kernel), hidle _ (.inl (by decide))⟩
  intro c
  simp only [List.mem_cons, List.not_mem_nil, or_false]
  tauto

end Selection

end DavQuery
