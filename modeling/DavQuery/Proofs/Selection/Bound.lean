import DavQuery.Proofs.Selection.Composition
import Mathlib.Data.List.Perm.Basic

/-! Bounds on the size. A bound is the number that its value starts with, and a value that starts
with none bounds nothing; a criterion breaks exactly on a number of too many digits. Two bounds
select what lies between them, and a greatest size and the next one as the least part all
records. -/

namespace DavQuery
open Calendar Text

/-- The value starts with the number, and not with too many digits of it. -/
def TellsBound (value : String) (n : Int) : Prop :=
  ∃ digits, StartsWithNumber value.toList digits n ∧ digits.length ≤ 4300

theorem tellsBound_iff {value : String} {n : Int} :
    TellsBound value n ↔ leadingInteger value.toList = .number n := by
  constructor
  · rintro ⟨digits, hnumber, hlength⟩
    have hfew : digits.length ≤ digitLimit := hlength
    rw [leadingInteger_of_startsWithNumber hnumber, if_pos hfew]
  · intro h
    have hnot : ¬ leadingInteger value.toList = .absent := by simp [h]
    simp only [leadingInteger_eq_absent_iff, not_forall, not_not] at hnot
    obtain ⟨digits, m, hnumber⟩ := hnot
    rw [leadingInteger_of_startsWithNumber hnumber] at h
    split_ifs at h with hfew
    cases h
    exact ⟨digits, hnumber, hfew⟩

namespace Criterion

section
variable {value : String} {n : Int} {within : Int → Bool}

theorem withinBound_of_tellsBound (h : TellsBound value n) :
    withinBound value within = .ok (within n) := by
  rw [withinBound, tellsBound_iff.1 h]

theorem withinBound_of_no_number (h : ∀ digits n, ¬ StartsWithNumber value.toList digits n) :
    withinBound value within = .ok true := by
  rw [withinBound, leadingInteger_eq_absent_iff.2 h]

theorem exists_withinBound_eq_error_iff : (∃ b, withinBound value within = .error b) ↔
    ∃ digits n, StartsWithNumber value.toList digits n ∧ 4300 < digits.length := by
  constructor
  · intro h
    by_contra hfew
    have htold : ∀ digits n, ¬ StartsWithNumber value.toList digits n := by
      intro digits n hnumber
      have hlength : digits.length ≤ 4300 := by
        by_contra hlong
        exact hfew ⟨digits, n, hnumber, Nat.lt_of_not_le hlong⟩
      simp [withinBound_of_tellsBound ⟨digits, hnumber, hlength⟩] at h
    simp [withinBound_of_no_number htold] at h
  · rintro ⟨digits, n, hnumber, hlong⟩
    have hmany : ¬ digits.length ≤ digitLimit := Nat.not_le.2 hlong
    exact ⟨.longNumber, by
      rw [withinBound, leadingInteger_of_startsWithNumber hnumber, if_neg hmany]⟩

end

variable (here : LocalTime) (r : Record)

theorem holds_of_size_key {key : String} {a : Aspect} (within : Int → Bool)
    (hkey : Aspect.ofKey? key = some a) (hempty : a.comparesEmpty = false)
    (htest : ∀ value, test here r value a = withinBound value within) (value : String) :
    holds here r ⟨key, value⟩ = withinBound value within := by
  by_cases hvalue : value = ""
  · have hnone : aspect? ⟨key, value⟩ = none := by
      simp [aspect?, hkey, Option.filter, hvalue, hempty]
    rw [holds, hnone, hvalue]
    rfl
  · rw [holds_of_aspect (aspect?_of_value hkey hvalue), htest]

theorem holds_minSize (value : String) :
    holds here r ⟨"minsize", value⟩ = withinBound value fun n => n ≤ r.size :=
  holds_of_size_key (a := .minSize) here r _ (by decide) (by decide) (fun _ => rfl) value

theorem holds_maxSize (value : String) :
    holds here r ⟨"maxsize", value⟩ = withinBound value fun n => r.size ≤ n :=
  holds_of_size_key (a := .maxSize) here r _ (by decide) (by decide) (fun _ => rfl) value

theorem holds_of_tellsBound {value : String} {n : Int} (h : TellsBound value n) :
    holds here r ⟨"minsize", value⟩ = .ok (decide (n ≤ r.size)) ∧
      holds here r ⟨"maxsize", value⟩ = .ok (decide (r.size ≤ n)) := by
  rw [holds_minSize, holds_maxSize, withinBound_of_tellsBound h, withinBound_of_tellsBound h]
  exact ⟨rfl, rfl⟩

end Criterion

namespace Selection
variable (here : LocalTime) {v v' : String} {n n' : Int}

theorem select_of_meets {cs : List Criterion} {rs : List Record} {keeps : Record → Bool}
    (h : ∀ r : Record, r.meets here cs = .ok (keeps r)) :
    select here cs rs = .ok (rs.filter keeps) := by
  refine select_eq_ok_iff.2 ⟨fun r _ => ⟨keeps r, h r⟩, List.filter_congr fun r _ => ?_⟩
  rw [h r]
  cases keeps r <;> rfl

theorem select_minSize (h : TellsBound v n) (rs : List Record) :
    select here [⟨"minsize", v⟩] rs = .ok (rs.filter fun r => n ≤ r.size) := by
  refine select_of_meets here fun r => ?_
  rw [Record.meets, (Criterion.holds_of_tellsBound here r h).1]
  cases decide (n ≤ r.size) <;> rfl

theorem select_maxSize (h : TellsBound v n) (rs : List Record) :
    select here [⟨"maxsize", v⟩] rs = .ok (rs.filter fun r => r.size ≤ n) := by
  refine select_of_meets here fun r => ?_
  rw [Record.meets, (Criterion.holds_of_tellsBound here r h).2]
  cases decide (r.size ≤ n) <;> rfl

theorem select_between (h : TellsBound v n) (h' : TellsBound v' n') (rs : List Record) :
    select here [⟨"minsize", v⟩, ⟨"maxsize", v'⟩] rs =
      .ok (rs.filter fun r => n ≤ r.size ∧ r.size ≤ n') := by
  have hboth : select here ([⟨"minsize", v⟩] ++ [⟨"maxsize", v'⟩]) rs = _ :=
    select_append_eq_ok_iff.2 ⟨_, select_minSize here h rs, select_maxSize here h' _⟩
  rw [List.filter_filter] at hboth
  simpa only [Bool.and_comm, ← Bool.decide_and, List.singleton_append] using hboth

theorem select_parts (h : TellsBound v n) (h' : TellsBound v' (n + 1)) (rs : List Record) :
    ∃ low high, select here [⟨"maxsize", v⟩] rs = .ok low ∧
      select here [⟨"minsize", v'⟩] rs = .ok high ∧ (low ++ high).Perm rs ∧ low.Disjoint high := by
  refine ⟨_, _, select_maxSize here h rs, select_minSize here h' rs, ?_, ?_⟩
  · have hrest (r : Record) : decide (n + 1 ≤ r.size) = !decide (r.size ≤ n) := by
      rw [← decide_not, decide_eq_decide]
      omega
    simp only [hrest]
    exact List.filter_append_perm _ rs
  · intro r hlow hhigh
    simp only [List.mem_filter, decide_eq_true_eq] at hlow hhigh
    omega

end Selection

/-- A criterion on the size compares it with the number that its value starts with, and holds if
there is none; it breaks exactly if the number has more than 4300 digits. So two bounds select what
lies between them, and a greatest size and the next one as the least part all records. -/
theorem size_bounds_exact (here : LocalTime) (v : String) :
    (∀ r : Record, ∀ key ∈ ["minsize", "maxsize"],
      (∃ b, Criterion.holds here r ⟨key, v⟩ = .error b) ↔
        ∃ digits n, StartsWithNumber v.toList digits n ∧ 4300 < digits.length) ∧
    (∀ n, TellsBound v n → ∀ r : Record,
      Criterion.holds here r ⟨"minsize", v⟩ = .ok (decide (n ≤ r.size)) ∧
      Criterion.holds here r ⟨"maxsize", v⟩ = .ok (decide (r.size ≤ n))) ∧
    ((∀ digits n, ¬ StartsWithNumber v.toList digits n) → ∀ r : Record,
      Criterion.holds here r ⟨"minsize", v⟩ = .ok true ∧
      Criterion.holds here r ⟨"maxsize", v⟩ = .ok true) ∧
    (∀ n v' n', TellsBound v n → TellsBound v' n' → ∀ rs,
      Selection.select here [⟨"minsize", v⟩, ⟨"maxsize", v'⟩] rs =
        .ok (rs.filter fun r => n ≤ r.size ∧ r.size ≤ n')) ∧
    ∀ n v', TellsBound v n → TellsBound v' (n + 1) → ∀ rs, ∃ low high,
      Selection.select here [⟨"maxsize", v⟩] rs = .ok low ∧
      Selection.select here [⟨"minsize", v'⟩] rs = .ok high ∧
      (low ++ high).Perm rs ∧ low.Disjoint high := by
  refine ⟨fun r key hkey => ?_, fun n h r => Criterion.holds_of_tellsBound here r h, fun h r => ?_,
    fun n v' n' h h' rs => Selection.select_between here h h' rs,
    fun n v' h h' rs => Selection.select_parts here h h' rs⟩
  · simp only [List.mem_cons, List.not_mem_nil, or_false] at hkey
    rcases hkey with rfl | rfl
    · rw [Criterion.holds_minSize]
      exact Criterion.exists_withinBound_eq_error_iff
    · rw [Criterion.holds_maxSize]
      exact Criterion.exists_withinBound_eq_error_iff
  · rw [Criterion.holds_minSize, Criterion.holds_maxSize, Criterion.withinBound_of_no_number h,
      Criterion.withinBound_of_no_number h]
    exact ⟨rfl, rfl⟩

theorem size_bounds_exact_thousand :
    let here : LocalTime := ⟨.utc, ⟨⟨2025, 3, 15, by decide⟩, ⟨12, 0, 0, 0, by decide⟩⟩⟩
    let small : Record := { name := "a.txt", size := 1000 }
    let large : Record := { name := "b.txt", size := 1001 }
    TellsBound "1000 bytes" 1000 ∧ TellsBound " +١٠٠١" (1000 + 1) ∧
      Criterion.holds here large ⟨"maxsize", "1000 bytes"⟩ = .ok false ∧
      Criterion.holds here large ⟨"maxsize", "bytes"⟩ = .ok true ∧
      Selection.select here [⟨"minsize", "1000 bytes"⟩, ⟨"maxsize", " +١٠٠١"⟩] [small, large] =
        .ok [small, large] ∧
      ∃ low high, Selection.select here [⟨"maxsize", "1000 bytes"⟩] [small, large] = .ok low ∧
        Selection.select here [⟨"minsize", " +١٠٠١"⟩] [small, large] = .ok high ∧
        (low ++ high).Perm [small, large] ∧ low.Disjoint high := by
  intro here small large
  have hbound : TellsBound "1000 bytes" 1000 := tellsBound_iff.2 (by decide +kernel)
  have hnext : TellsBound " +١٠٠١" (1000 + 1) := tellsBound_iff.2 (by decide +kernel)
  have habsent : ∀ digits n, ¬ StartsWithNumber "bytes".toList digits n :=
    leadingInteger_eq_absent_iff.1 (by decide +kernel)
  have hexact := size_bounds_exact here "1000 bytes"
  refine ⟨hbound, hnext, (hexact.2.1 _ hbound large).2,
    ((size_bounds_exact here "bytes").2.2.1 habsent large).2,
    hexact.2.2.2.1 _ _ _ hbound hnext _, hexact.2.2.2.2 _ _ hbound hnext _⟩

/-- A least size of nothing but zeros breaks if there are too many of them. -/
theorem holds_eq_error_of_many_zeros :
    Criterion.holds ⟨.utc, ⟨⟨2025, 3, 15, by decide⟩, ⟨12, 0, 0, 0, by decide⟩⟩⟩
        { name := "a.txt", size := 5 } ⟨"minsize", String.ofList (List.replicate 4301 '0')⟩ =
      .error .longNumber := by
  rw [Criterion.holds_minSize, Criterion.withinBound_eq_error_iff, String.toList_ofList]
  refine ⟨rfl, [], [], List.replicate 4301 '0', [], (List.append_nil _).symm, allBlank_nil,
    .inl rfl, fun c hc => ?_, ?_⟩
  · rw [List.eq_of_mem_replicate hc]
    decide
  · rw [List.length_replicate]
    decide

end DavQuery
