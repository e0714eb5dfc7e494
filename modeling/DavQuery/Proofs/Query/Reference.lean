import DavQuery.Proofs.Query.Headers
import DavQuery.Proofs.Query.Role
import Mathlib.Data.List.Forall2

/-! What a text says as a query, told of its lines without reading them in turn. A line lies in a
section if a line before it opens one and no line between the two closes it. The criteria are those
of the last section, a header has the value of the last line that sets it, and every line that says
nothing is passed over once. `readWithIgnored_eq_iff` finds that the reader gives just this. -/

namespace DavQuery.Query
open Text

/-- A section is open after the lines. -/
def Inside (before : List Line) : Prop :=
  ∃ a o b, before = a ++ o :: b ∧ Opens o ∧ ∀ l ∈ b, ¬ Closes l

/-- The line is read as a header where it stands. -/
def Heads (before : List Line) (l : Line) : Prop :=
  ¬ AllBlank l ∧ ¬ Opens l ∧ (¬ Inside before ∨ Closes l)

/-- The line says nothing where it stands. -/
def PassedOver (before : List Line) (l : Line) : QueryPart → Prop
  | .filter => ¬ AllBlank l ∧ ¬ Opens l ∧ Inside before ∧ ¬ IsItem l ∧ ¬ Closes l
  | .header => Heads before l ∧ ∀ key value, ¬ Splits l key value

def SomeLine (P : List Line → Line → Prop) (lines : List Line) : Prop :=
  ∃ before l after, lines = before ++ l :: after ∧ P before l

def Assigns (lines : List Line) (number : Nat) (key value : String) : Prop :=
  SomeLine (fun before l => number = before.length + 1 ∧ Heads before l ∧ Splits l key value) lines

def Ignores (lines : List Line) (line : IgnoredLine) : Prop :=
  SomeLine (fun before l => line.number = before.length + 1 ∧
    line.text = String.ofList (trimChars l) ∧ PassedOver before l line.part) lines

/-- The criteria that stand in a section, from the lines after the one that opens it. -/
def sectionItems (after : List Line) : List Line :=
  (after.takeWhile fun l => ¬ Closes l).filter fun l => IsItem l

/-- What the lines of a text say: the query, and the lines that are passed over. -/
structure Reads (lines : List Line) (q : Query) (ignored : List IgnoredLine) : Prop where
  criteria_eq_none_iff : q.criteria = none ↔ ∀ l ∈ lines, ¬ Opens l
  criteria_eq_some : ∀ before o after, lines = before ++ o :: after → Opens o →
    (∀ l ∈ after, ¬ Opens l) →
      ∃ cs, q.criteria = some cs ∧ List.Forall₂ Lists (sectionItems after) cs
  get?_eq_some_iff : ∀ key value, q.get? key = some value ↔
    ∃ n, Assigns lines n key value ∧ ∀ m w, Assigns lines m key w → m ≤ n
  get?_eq_none_iff : ∀ key, q.get? key = none ↔ ∀ n value, ¬ Assigns lines n key value
  mem_extraKeys_iff : ∀ key, key ∈ q.extraKeys ↔
    Header.ofKey? key = none ∧ ∃ n value, Assigns lines n key value
  extraKeys_order : q.extraKeys.Pairwise fun a b =>
    ∃ n value, Assigns lines n a value ∧ ∀ m w, Assigns lines m b w → n < m
  mem_ignored_iff : ∀ line, line ∈ ignored ↔ Ignores lines line
  ignored_order : ignored.Pairwise fun a b => a.number < b.number

theorem append_singleton_eq_append_cons_iff {α : Type*} {lines before after : List α} {x l : α} :
    lines ++ [x] = before ++ l :: after ↔
      (after = [] ∧ before = lines ∧ l = x) ∨
        ∃ after', after = after' ++ [x] ∧ lines = before ++ l :: after' := by
  constructor
  · intro h
    rcases List.eq_nil_or_concat after with rfl | ⟨after', y, rfl⟩
    · obtain ⟨rfl, e⟩ := List.append_inj' h rfl
      exact .inl ⟨rfl, rfl, (List.cons.inj e).1.symm⟩
    · rw [List.concat_eq_append, ← List.cons_append, ← List.append_assoc] at h
      obtain ⟨rfl, e⟩ := List.append_inj' h rfl
      exact .inr ⟨after', by simp [(List.cons.inj e).1], rfl⟩
  · rintro (⟨rfl, rfl, rfl⟩ | ⟨after', rfl, rfl⟩) <;> simp

theorem someLine_append_singleton {P : List Line → Line → Prop} {lines : List Line} {x : Line} :
    SomeLine P (lines ++ [x]) ↔ SomeLine P lines ∨ P lines x := by
  constructor
  · rintro ⟨before, l, after, e, h⟩
    rcases append_singleton_eq_append_cons_iff.1 e with ⟨rfl, rfl, rfl⟩ | ⟨after', rfl, rfl⟩
    · exact .inr h
    · exact .inl ⟨before, l, after', rfl, h⟩
  · rintro (⟨before, l, after, rfl, h⟩ | h)
    · exact ⟨before, l, after ++ [x], by simp, h⟩
    · exact ⟨lines, x, [], rfl, h⟩

theorem not_someLine_nil {P : List Line → Line → Prop} : ¬ SomeLine P [] := by
  rintro ⟨before, l, after, e, -⟩
  simp at e

theorem inside_append_singleton {lines : List Line} {x : Line} :
    Inside (lines ++ [x]) ↔ Opens x ∨ Inside lines ∧ ¬ Closes x := by
  constructor
  · rintro ⟨a, o, b, e, ho, hb⟩
    rcases append_singleton_eq_append_cons_iff.1 e with ⟨rfl, rfl, rfl⟩ | ⟨b', rfl, rfl⟩
    · exact .inl ho
    · exact .inr ⟨⟨a, o, b', rfl, ho, fun l hl => hb l (by simp [hl])⟩, hb x (by simp)⟩
  · rintro (ho | ⟨⟨a, o, b, rfl, ho, hb⟩, hx⟩)
    · exact ⟨lines, x, [], rfl, ho, by simp⟩
    · refine ⟨a, o, b ++ [x], by simp, ho, fun l hl => ?_⟩
      rcases List.mem_append.1 hl with hl | hl
      · exact hb l hl
      · rwa [List.mem_singleton.1 hl]

theorem exists_last {lines : List Line} (h : ¬ ∀ l ∈ lines, ¬ Opens l) :
    ∃ before o after, lines = before ++ o :: after ∧ Opens o ∧ ∀ l ∈ after, ¬ Opens l := by
  induction lines using List.reverseRecOn with
  | nil => simp at h
  | append_singleton lines x ih =>
    by_cases hx : Opens x
    · exact ⟨lines, x, [], rfl, hx, by simp⟩
    · rw [List.forall_mem_append, List.forall_mem_singleton] at h
      obtain ⟨before, o, after, rfl, ho, hlast⟩ := ih fun hl => h ⟨hl, hx⟩
      refine ⟨before, o, after ++ [x], by simp, ho, ?_⟩
      rw [List.forall_mem_append, List.forall_mem_singleton]
      exact ⟨hlast, hx⟩

theorem inside_of_mem_opens {lines : List Line} (h : Inside lines) : ∃ l ∈ lines, Opens l := by
  obtain ⟨a, o, b, rfl, ho, -⟩ := h
  exact ⟨o, by simp, ho⟩

theorem number_le_of_someLine {P : List Line → Line → Prop} {lines : List Line} {n : Nat}
    (h : SomeLine (fun before l => n = before.length + 1 ∧ P before l) lines) :
    n ≤ lines.length := by
  obtain ⟨before, l, after, rfl, rfl, -⟩ := h
  simp

theorem Assigns.number_le {lines : List Line} {n : Nat} {key value : String}
    (h : Assigns lines n key value) : n ≤ lines.length := number_le_of_someLine h

theorem Ignores.number_le {lines : List Line} {line : IgnoredLine} (h : Ignores lines line) :
    line.number ≤ lines.length := number_le_of_someLine h

theorem assigns_append_singleton {lines : List Line} {x : Line} {n : Nat} {key value : String} :
    Assigns (lines ++ [x]) n key value ↔ Assigns lines n key value ∨
      n = lines.length + 1 ∧ Heads lines x ∧ Splits x key value :=
  someLine_append_singleton

theorem ignores_append_singleton {lines : List Line} {x : Line} {line : IgnoredLine} :
    Ignores (lines ++ [x]) line ↔ Ignores lines line ∨
      line.number = lines.length + 1 ∧ line.text = String.ofList (trimChars x) ∧
        PassedOver lines x line.part :=
  someLine_append_singleton

theorem sectionItems_append_singleton (after : List Line) (x : Line) :
    sectionItems (after ++ [x]) =
      if IsItem x ∧ ∀ l ∈ after, ¬ Closes l then sectionItems after ++ [x]
      else sectionItems after := by
  unfold sectionItems
  by_cases h : ∀ l ∈ after, ¬ Closes l
  · have hall : ∀ l ∈ after, decide (¬ Closes l) = true := fun l hl => decide_eq_true (h l hl)
    rw [List.takeWhile_append_of_pos hall, List.takeWhile_eq_self_iff.2 hall, List.filter_append]
    by_cases hi : IsItem x
    · simpa [hi, hi.not_closes] using h
    · by_cases hc : Closes x <;> simp [hi, hc]
  · rw [if_neg fun e => h e.2, List.takeWhile_append, if_neg]
    intro e
    exact h fun l hl => of_decide_eq_true
      (List.takeWhile_eq_self_iff.1 (List.takeWhile_prefix _ |>.eq_of_length e) l hl)

theorem inside_iff_of_last {before after : List Line} {o : Line} (ho : Opens o)
    (hlast : ∀ l ∈ after, ¬ Opens l) :
    Inside (before ++ o :: after) ↔ ∀ l ∈ after, ¬ Closes l := by
  induction after using List.reverseRecOn with
  | nil => simp [inside_append_singleton, ho]
  | append_singleton after x ih =>
    have hx : ¬ Opens x := hlast x (by simp)
    rw [← List.cons_append, ← List.append_assoc, inside_append_singleton,
      ih fun l hl => hlast l (by simp [hl])]
    simp only [hx, false_or, List.mem_append, List.mem_singleton]
    constructor
    · rintro ⟨h, hc⟩ l (hl | rfl)
      · exact h l hl
      · exact hc
    · exact fun h => ⟨fun l hl => h l (.inl hl), h x (.inr rfl)⟩

theorem get?_apply_of_ne {role : Role} {key : String} (h : ∀ value, role ≠ .header key value)
    (q : Query) : (role.apply q).get? key = q.get? key := by
  cases role with
  | header k v => exact get?_set_of_ne q (fun e => h v (by rw [e])) v
  | opener | item c => exact get?_withCriteria ..
  | empty | stray | unread => rfl

theorem extraKeys_apply (role : Role) (q : Query) :
    (role.apply q).extraKeys = q.extraKeys ∨
      ∃ key value, role = .header key value ∧ Header.ofKey? key = none ∧ key ∉ q.extraKeys ∧
        (role.apply q).extraKeys = q.extraKeys ++ [key] := by
  cases role with
  | header key value =>
    by_cases h : Header.ofKey? key = none ∧ key ∉ q.extraKeys
    · exact .inr ⟨key, value, rfl, h.1, h.2, by rw [Role.apply, extraKeys_set, if_pos h]⟩
    · exact .inl (by rw [Role.apply, extraKeys_set, if_neg h])
  | _ => exact .inl rfl

theorem mem_extraKeys_apply_of_ne {role : Role} {key : String}
    (h : ∀ value, role ≠ .header key value) (q : Query) :
    key ∈ (role.apply q).extraKeys ↔ key ∈ q.extraKeys := by
  rcases extraKeys_apply role q with e | ⟨k, v, rfl, -, -, e⟩
  · rw [e]
  · have hne : key ≠ k := fun e => h v (by rw [e])
    simp [e, hne]

section Step

variable {lines : List Line} {p : Progress} (hin : p.inside = true ↔ Inside lines)
include hin

theorem roleOf_eq_header_iff {x : Line} {key value : String} :
    roleOf p.inside x = .header key value ↔ Heads lines x ∧ Splits x key value := by
  rw [roleOf_eq_iff, Heads, ← hin, Bool.not_eq_true]
  constructor
  · rintro (_ | _ | _ | _ | ⟨hb, ho, hout, hs⟩ | _)
    exact ⟨⟨hb, ho, hout⟩, hs⟩
  · rintro ⟨⟨hb, ho, hout⟩, hs⟩
    exact .header hb ho hout hs

theorem part?_roleOf_eq_some_iff {x : Line} {part : QueryPart} :
    (roleOf p.inside x).part? = some part ↔ PassedOver lines x part := by
  have hm := means_roleOf p.inside x
  cases part with
  | filter =>
    have hr : (roleOf p.inside x).part? = some .filter ↔ roleOf p.inside x = .stray := by
      cases roleOf p.inside x <;> simp [Role.part?]
    rw [hr, roleOf_eq_iff, PassedOver, ← hin]
    constructor
    · rintro ⟨⟩
      tauto
    · rintro ⟨hb, ho, hi, hn, hc⟩
      exact .stray hb ho hi hn hc
  | header =>
    have hr : (roleOf p.inside x).part? = some .header ↔ roleOf p.inside x = .unread := by
      cases roleOf p.inside x <;> simp [Role.part?]
    rw [hr, roleOf_eq_iff, PassedOver, Heads, ← hin, Bool.not_eq_true]
    constructor
    · rintro ⟨⟩
      tauto
    · rintro ⟨⟨hb, ho, hout⟩, hs⟩
      exact .unread hb ho hout hs

theorem inside_step (x : Line) :
    (roleOf p.inside x).inside p.inside = true ↔ Inside (lines ++ [x]) := by
  rw [inside_append_singleton, ← hin]
  have hm := means_roleOf p.inside x
  generalize roleOf p.inside x = role at hm
  cases hm with
  | empty hb => simp [Role.inside, Closes, hb, not_opens_of_allBlank hb]
  | opener ho => simp [Role.inside, ho]
  | item hi hl => simp [Role.inside, hi, IsItem.not_closes ⟨_, hl⟩]
  | stray _ _ hi _ hc => simp [Role.inside, hi, hc]
  | header _ ho hout | unread _ ho hout =>
    rcases hout with hout | hc
    · simp [Role.inside, ho, hout]
    · simp [Role.inside, ho, hc]

theorem criteria_eq_none_step (h : p.query.criteria = none ↔ ∀ l ∈ lines, ¬ Opens l) (x : Line) :
    ((roleOf p.inside x).apply p.query).criteria = none ↔ ∀ l ∈ lines ++ [x], ¬ Opens l := by
  rw [List.forall_mem_append, List.forall_mem_singleton, ← h]
  have hm := means_roleOf p.inside x
  generalize roleOf p.inside x = role at hm
  cases hm with
  | empty hb => simp [Role.apply, not_opens_of_allBlank hb]
  | opener ho => simp [Role.apply, ho]
  | item hi =>
    obtain ⟨l, hl, ho⟩ := inside_of_mem_opens (hin.1 hi)
    simp only [Role.apply, addCriterion, reduceCtorEq, false_iff, h]
    exact fun hno => hno.1 l hl ho
  | stray _ ho | header _ ho | unread _ ho => simp [Role.apply, ho]

theorem criteria_eq_some_step
    (h : ∀ before o after, lines = before ++ o :: after → Opens o → (∀ l ∈ after, ¬ Opens l) →
      ∃ cs, p.query.criteria = some cs ∧ List.Forall₂ Lists (sectionItems after) cs)
    (x : Line) {before after : List Line} {o : Line} (e : lines ++ [x] = before ++ o :: after)
    (ho : Opens o) (hlast : ∀ l ∈ after, ¬ Opens l) :
    ∃ cs, ((roleOf p.inside x).apply p.query).criteria = some cs ∧
      List.Forall₂ Lists (sectionItems after) cs := by
  have hm := means_roleOf p.inside x
  rcases append_singleton_eq_append_cons_iff.1 e with ⟨rfl, -, rfl⟩ | ⟨after, rfl, rfl⟩
  · rw [roleOf_eq_iff.2 (.opener ho)]
    exact ⟨[], rfl, .nil⟩
  · have hlast' : ∀ l ∈ after, ¬ Opens l := fun l hl => hlast l (by simp [hl])
    obtain ⟨cs, hcs, hitems⟩ := h before o after rfl ho hlast'
    rw [inside_iff_of_last ho hlast'] at hin
    simp only [sectionItems_append_singleton, ← hin]
    generalize roleOf p.inside x = role at hm
    cases hm with
    | empty hb =>
      have hi : ¬ IsItem x := fun ⟨_, hl⟩ => hl.not_allBlank hb
      exact ⟨cs, hcs, by simpa [hi] using hitems⟩
    | opener hx => exact absurd hx (hlast x (by simp))
    | @item c hi hl =>
      refine ⟨cs ++ [c], by simp [Role.apply, addCriterion, hcs], ?_⟩
      rw [if_pos ⟨⟨_, hl⟩, hi⟩]
      exact List.rel_append hitems (.cons hl .nil)
    | stray _ _ _ hi => exact ⟨cs, hcs, by simpa [hi] using hitems⟩
    | header _ _ hout | unread _ _ hout =>
      refine ⟨cs, by simpa [Role.apply] using hcs, ?_⟩
      rwa [if_neg]
      rintro ⟨hi, hin⟩
      rcases hout with hout | hc
      · simp [hout] at hin
      · exact hi.not_closes hc

theorem assigns_step {x : Line} {n : Nat} {key value : String} :
    Assigns (lines ++ [x]) n key value ↔ Assigns lines n key value ∨
      n = lines.length + 1 ∧ roleOf p.inside x = .header key value := by
  rw [assigns_append_singleton, roleOf_eq_header_iff hin]

theorem assigns_step_of_ne {x : Line} {key : String}
    (hne : ∀ value, roleOf p.inside x ≠ .header key value) {n : Nat} {value : String} :
    Assigns (lines ++ [x]) n key value ↔ Assigns lines n key value := by
  simp [assigns_step hin, hne]

theorem get?_eq_some_step
    (h : ∀ key value, p.query.get? key = some value ↔
      ∃ n, Assigns lines n key value ∧ ∀ m w, Assigns lines m key w → m ≤ n)
    (x : Line) (key value : String) :
    ((roleOf p.inside x).apply p.query).get? key = some value ↔
      ∃ n, Assigns (lines ++ [x]) n key value ∧
        ∀ m w, Assigns (lines ++ [x]) m key w → m ≤ n := by
  by_cases hr : ∃ v, roleOf p.inside x = .header key v
  · obtain ⟨v, hr⟩ := hr
    have hv : Assigns (lines ++ [x]) (lines.length + 1) key v :=
      (assigns_step hin).2 (.inr ⟨rfl, hr⟩)
    rw [hr, Role.apply, get?_set_self, Option.some.injEq]
    constructor
    · rintro rfl
      exact ⟨_, hv, fun m w hm => by simpa using hm.number_le⟩
    · rintro ⟨n, hn, hmax⟩
      rcases (assigns_step hin).1 hn with hn | ⟨-, hn⟩
      · have hle := hmax _ _ hv
        have := hn.number_le
        omega
      · rw [hr] at hn
        exact (Role.header.inj hn).2
  · rw [not_exists] at hr
    simp only [assigns_step_of_ne hin hr, ← h]
    rw [get?_apply_of_ne hr]

theorem get?_eq_none_step
    (h : ∀ key, p.query.get? key = none ↔ ∀ n value, ¬ Assigns lines n key value)
    (x : Line) (key : String) :
    ((roleOf p.inside x).apply p.query).get? key = none ↔
      ∀ n value, ¬ Assigns (lines ++ [x]) n key value := by
  by_cases hr : ∃ v, roleOf p.inside x = .header key v
  · obtain ⟨v, hr⟩ := hr
    have hv : Assigns (lines ++ [x]) (lines.length + 1) key v :=
      (assigns_step hin).2 (.inr ⟨rfl, hr⟩)
    simp only [hr, Role.apply, get?_set_self, reduceCtorEq, false_iff]
    exact fun hno => hno _ _ hv
  · rw [not_exists] at hr
    simp only [assigns_step_of_ne hin hr, ← h]
    rw [get?_apply_of_ne hr]

theorem mem_extraKeys_step
    (h : ∀ key, key ∈ p.query.extraKeys ↔
      Header.ofKey? key = none ∧ ∃ n value, Assigns lines n key value)
    (x : Line) (key : String) :
    key ∈ ((roleOf p.inside x).apply p.query).extraKeys ↔
      Header.ofKey? key = none ∧ ∃ n value, Assigns (lines ++ [x]) n key value := by
  by_cases hr : ∃ v, roleOf p.inside x = .header key v
  · obtain ⟨v, hr⟩ := hr
    have hv : Assigns (lines ++ [x]) (lines.length + 1) key v :=
      (assigns_step hin).2 (.inr ⟨rfl, hr⟩)
    have hex : ∃ n value, Assigns (lines ++ [x]) n key value := ⟨_, _, hv⟩
    rw [hr, Role.apply, extraKeys_set]
    by_cases hk : Header.ofKey? key = none
    · by_cases hm : key ∈ p.query.extraKeys <;> simp [hk, hm, hex]
    · simp [hk, h]
  · rw [not_exists] at hr
    simp only [assigns_step_of_ne hin hr, ← h]
    rw [mem_extraKeys_apply_of_ne hr]

theorem extraKeys_order_step
    (hmem : ∀ key, key ∈ p.query.extraKeys ↔
      Header.ofKey? key = none ∧ ∃ n value, Assigns lines n key value)
    (h : p.query.extraKeys.Pairwise fun a b =>
      ∃ n value, Assigns lines n a value ∧ ∀ m w, Assigns lines m b w → n < m) (x : Line) :
    ((roleOf p.inside x).apply p.query).extraKeys.Pairwise fun a b =>
      ∃ n value, Assigns (lines ++ [x]) n a value ∧
        ∀ m w, Assigns (lines ++ [x]) m b w → n < m := by
  -- A line that comes later sets no key earlier than it was.
  have hold : p.query.extraKeys.Pairwise fun a b => ∃ n value,
      Assigns (lines ++ [x]) n a value ∧ ∀ m w, Assigns (lines ++ [x]) m b w → n < m := by
    refine h.imp ?_
    rintro a b ⟨n, value, hn, hlt⟩
    refine ⟨n, value, (assigns_step hin).2 (.inl hn), fun m w hm => ?_⟩
    have hle := hn.number_le
    rcases (assigns_step hin).1 hm with hm | ⟨rfl, -⟩
    · exact hlt m w hm
    · omega
  rcases extraKeys_apply (roleOf p.inside x) p.query with e | ⟨key, value, hr, hk, hnew, e⟩
  · rwa [e]
  · rw [e, List.pairwise_append]
    refine ⟨hold, List.pairwise_singleton .., fun a ha b hb => ?_⟩
    obtain ⟨n, v, hn⟩ := ((hmem a).1 ha).2
    refine ⟨n, v, (assigns_step hin).2 (.inl hn), fun m w hm => ?_⟩
    rw [List.mem_singleton.1 hb] at hm
    have hle := hn.number_le
    rcases (assigns_step hin).1 hm with hm | ⟨rfl, -⟩
    · exact absurd ((hmem key).2 ⟨hk, m, w, hm⟩) hnew
    · omega

theorem mem_ignored_step (h : ∀ line, line ∈ p.ignored ↔ Ignores lines line) (x : Line)
    (line : IgnoredLine) :
    line ∈ (p.step (x, lines.length + 1)).ignored ↔ Ignores (lines ++ [x]) line := by
  obtain ⟨number, part, text⟩ := line
  simp only [Progress.step, List.mem_append, Option.mem_toList, Option.map_eq_some_iff,
    part?_roleOf_eq_some_iff hin, h, ignores_append_singleton,
    IgnoredLine.mk.injEq]
  refine or_congr_right ⟨?_, ?_⟩
  · rintro ⟨part, hp, rfl, rfl, rfl⟩
    exact ⟨rfl, rfl, hp⟩
  · rintro ⟨rfl, rfl, hp⟩
    exact ⟨part, hp, rfl, rfl, rfl⟩

omit hin in
theorem ignored_order_step (hmem : ∀ line, line ∈ p.ignored ↔ Ignores lines line)
    (h : p.ignored.Pairwise fun a b => a.number < b.number) (x : Line) :
    (p.step (x, lines.length + 1)).ignored.Pairwise fun a b => a.number < b.number := by
  rw [Progress.step, List.pairwise_append]
  refine ⟨h, ?_, fun a ha b hb => ?_⟩
  · cases (roleOf p.inside x).part? <;> simp
  · have hle := ((hmem a).1 ha).number_le
    simp only [Option.mem_toList, Option.map_eq_some_iff] at hb
    obtain ⟨part, -, rfl⟩ := hb
    exact Nat.lt_succ_of_le hle

end Step

theorem reads_progress (lines : List Line) :
    ((progress lines).inside = true ↔ Inside lines) ∧
      Reads lines (progress lines).query (progress lines).ignored := by
  -- By induction on the lines read so far, from the last one: the reading knows whether a section
  -- is open after them.
  induction lines using List.reverseRecOn with
  | nil =>
    refine ⟨by simp [progress, Inside], by simp [progress, empty], by simp, ?_, ?_, ?_, ?_, ?_, ?_⟩
    all_goals simp [progress, Assigns, Ignores, not_someLine_nil, get?_empty]
    all_goals simp [extraKeys, empty]
  | append_singleton lines x ih =>
    obtain ⟨hin, h⟩ := ih
    rw [progress_append_singleton]
    exact ⟨inside_step hin x,
      { criteria_eq_none_iff := criteria_eq_none_step hin h.criteria_eq_none_iff x
        criteria_eq_some := fun _ _ _ => criteria_eq_some_step hin h.criteria_eq_some x
        get?_eq_some_iff := get?_eq_some_step hin h.get?_eq_some_iff x
        get?_eq_none_iff := get?_eq_none_step hin h.get?_eq_none_iff x
        mem_extraKeys_iff := mem_extraKeys_step hin h.mem_extraKeys_iff x
        extraKeys_order := extraKeys_order_step hin h.mem_extraKeys_iff h.extraKeys_order x
        mem_ignored_iff := mem_ignored_step hin h.mem_ignored_iff x
        ignored_order := ignored_order_step h.mem_ignored_iff h.ignored_order x }⟩

theorem eq_of_mem_iff_of_pairwise {α : Type*} {R : α → α → Prop} (hirr : ∀ a, ¬ R a a)
    (hasymm : ∀ a b, R a b → ¬ R b a) {l l' : List α} (h : l.Pairwise R) (h' : l'.Pairwise R)
    (hmem : ∀ a, a ∈ l ↔ a ∈ l') : l = l' := by
  have hne : ∀ {a b}, R a b → a ≠ b := by
    rintro a b hab rfl
    exact hirr a hab
  have hnodup : ∀ {k : List α}, k.Pairwise R → k.Nodup := fun hk => hk.imp hne
  have hperm : l.Perm l' := (List.perm_ext_iff_of_nodup (hnodup h) (hnodup h')).2 hmem
  exact hperm.eq_of_pairwise (fun a b _ _ hab hba => absurd hba (hasymm a b hab)) h h'

theorem Reads.criteria_unique {lines : List Line} {q q' : Query} {i i' : List IgnoredLine}
    (h : Reads lines q i) (h' : Reads lines q' i') : q.criteria = q'.criteria := by
  by_cases hno : ∀ l ∈ lines, ¬ Opens l
  · rw [h.criteria_eq_none_iff.2 hno, h'.criteria_eq_none_iff.2 hno]
  · obtain ⟨before, o, after, rfl, ho, hlast⟩ := exists_last hno
    obtain ⟨cs, e, hcs⟩ := h.criteria_eq_some _ _ _ rfl ho hlast
    obtain ⟨cs', e', hcs'⟩ := h'.criteria_eq_some _ _ _ rfl ho hlast
    have hunique : Relator.RightUnique Lists := fun _ _ _ => Lists.unique
    rw [e, e', List.right_unique_forall₂' hunique hcs hcs']

theorem Reads.get?_unique {lines : List Line} {q q' : Query} {i i' : List IgnoredLine}
    (h : Reads lines q i) (h' : Reads lines q' i') (key : String) : q.get? key = q'.get? key :=
  Option.ext fun value => by rw [h.get?_eq_some_iff, h'.get?_eq_some_iff]

theorem Reads.extraKeys_unique {lines : List Line} {q q' : Query} {i i' : List IgnoredLine}
    (h : Reads lines q i) (h' : Reads lines q' i') : q.extraKeys = q'.extraKeys := by
  refine eq_of_mem_iff_of_pairwise ?_ ?_ h.extraKeys_order h'.extraKeys_order fun key => by
    rw [h.mem_extraKeys_iff, h'.mem_extraKeys_iff]
  · rintro a ⟨n, v, hn, hlt⟩
    exact Nat.lt_irrefl n (hlt n v hn)
  · rintro a b ⟨n, v, hn, hlt⟩ ⟨m, w, hm, hlt'⟩
    exact Nat.lt_asymm (hlt m w hm) (hlt' n v hn)

theorem Reads.extraKeys_nodup {lines : List Line} {q : Query} {ignored : List IgnoredLine}
    (h : Reads lines q ignored) : q.extraKeys.Nodup :=
  h.extraKeys_order.imp fun ⟨n, v, hn, hlt⟩ e => Nat.lt_irrefl n (hlt n v (e ▸ hn))

theorem Reads.unique {lines : List Line} {q q' : Query} {i i' : List IgnoredLine}
    (h : Reads lines q i) (h' : Reads lines q' i') : q = q' ∧ i = i' := by
  refine ⟨Query.ext (fun _ => h.get?_unique h' _) (h.extraKeys_unique h') h.extraKeys_nodup
    (fun k hk => ((h.mem_extraKeys_iff k).1 hk).1) (h.criteria_unique h'), ?_⟩
  exact eq_of_mem_iff_of_pairwise (fun a => Nat.lt_irrefl a.number) (fun _ _ => Nat.lt_asymm)
    h.ignored_order h'.ignored_order fun line => by rw [h.mem_ignored_iff, h'.mem_ignored_iff]

/-- Reading a text gives a query and passed over lines exactly when its lines say them. -/
theorem readWithIgnored_eq_iff (text : String) (q : Query) (ignored : List IgnoredLine) :
    readWithIgnored text = (q, ignored) ↔ Reads (linesOf text) q ignored := by
  have h := (reads_progress (linesOf text)).2
  rw [readWithIgnored_eq]
  constructor
  · intro e
    rw [Prod.mk.injEq] at e
    rwa [e.1, e.2] at h
  · intro h'
    obtain ⟨hq, hi⟩ := h.unique h'
    rw [hq, hi]

end DavQuery.Query
