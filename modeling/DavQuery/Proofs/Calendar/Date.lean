import DavQuery.Calendar.Date
import Mathlib.Algebra.GroupWithZero.Nat
import Mathlib.Data.List.Basic
import Mathlib.Order.Monotone.Basic

/-! Day numbers. Every day from the first of the year 1 to the last of the year 9999 is a date, and
the date has the number of the day; no other date has it. -/

namespace DavQuery.Calendar

def yearLength (year : Nat) : Nat := if isLeap year then 366 else 365

theorem daysBeforeYear_eq (year : Nat) : daysBeforeYear year =
    (year - 1) * 365 + (year - 1) / 4 - (year - 1) / 100 + (year - 1) / 400 := rfl

theorem isLeap_iff {year : Nat} : isLeap year = true ↔ 4 ∣ year ∧ (¬ 100 ∣ year ∨ 400 ∣ year) := by
  simp [isLeap, Nat.dvd_iff_mod_eq_zero]

theorem daysBeforeYear_succ {year : Nat} (h : 1 ≤ year) :
    daysBeforeYear (year + 1) = daysBeforeYear year + yearLength year := by
  obtain ⟨y, rfl⟩ : ∃ y, year = y + 1 := ⟨year - 1, by omega⟩
  have hle : y / 100 ≤ y / 4 := Nat.div_le_div_left (by decide) (by decide)
  have h400 : 400 ∣ y + 1 → 100 ∣ y + 1 := Nat.dvd_trans (by decide)
  have h100 : 100 ∣ y + 1 → 4 ∣ y + 1 := Nat.dvd_trans (by decide)
  simp only [daysBeforeYear_eq, yearLength, isLeap_iff, Nat.add_sub_cancel, Nat.succ_div]
  generalize y / 4 = a at hle
  generalize y / 100 = b at hle
  by_cases hd400 : 400 ∣ y + 1
  · simp only [hd400, h400 hd400, h100 (h400 hd400), if_true, true_and, or_true]
    omega
  · by_cases hd100 : 100 ∣ y + 1
    · simp only [hd400, hd100, h100 hd100, if_true, if_false, true_and, not_true, or_self]
      omega
    · by_cases hd4 : 4 ∣ y + 1
      · simp only [hd400, hd100, hd4, if_true, if_false, true_and, not_false_eq_true, true_or]
        omega
      · simp only [hd400, hd100, hd4, if_false, false_and]
        omega

theorem daysBeforeYear_bounds (year : Nat) :
    146097 * (year - 1) ≤ 400 * daysBeforeYear year + 699 ∧
      400 * daysBeforeYear year ≤ 146097 * (year - 1) + 396 := by
  rw [daysBeforeYear_eq]
  omega

theorem yearOfDay_bounds {n : Nat} (h : 1 ≤ n) :
    1 ≤ yearOfDay n ∧ daysBeforeYear (yearOfDay n) < n ∧
      n ≤ daysBeforeYear (yearOfDay n + 1) := by
  have hone : daysBeforeYear 1 = 0 := rfl
  unfold yearOfDay
  generalize hy : (n - 1) * 400 / 146097 + 1 = y
  have hlow : 146097 * (y - 1) ≤ 400 * (n - 1) := by omega
  have hhigh : 400 * (n - 1) < 146097 * y := by omega
  have h0 := daysBeforeYear_bounds (y - 1)
  have h2 := daysBeforeYear_bounds (y + 1 + 1)
  have hy1 : y = 1 ∨ 2 ≤ y := by omega
  dsimp only
  split_ifs with hnext hthis
  · omega
  · omega
  · rcases hy1 with rfl | hy1
    · omega
    · have hsucc : y - 1 + 1 = y := by omega
      rw [hsucc]
      omega

theorem yearOfDay_le {n : Nat} (h : 1 ≤ n) (hlast : n ≤ lastDay) : yearOfDay n ≤ 9999 := by
  have hbounds := (yearOfDay_bounds h).2.1
  by_contra hlate
  unfold lastDay at hlast
  rw [daysBeforeYear_eq] at hbounds
  omega

theorem sum_take_monthLengths {year k : Nat} (h : k ≤ 12) :
    ((monthLengths year).take k).sum = daysBeforeMonth year (k + 1) := by
  rw [monthLengths, ← List.map_take, List.take_range, Nat.min_eq_left h]
  clear h
  induction k with
  | zero => rfl
  | succ k ih =>
    rw [List.range_succ, List.map_append, List.sum_append, ih, List.map_singleton,
      List.sum_singleton, ← daysBeforeMonth]

theorem sum_monthLengths (year : Nat) : (monthLengths year).sum = yearLength year := by
  unfold yearLength
  cases hleap : isLeap year <;> simp [monthLengths, List.range_succ, monthLength, hleap]

theorem Date.number_bounds (d : Date) :
    daysBeforeYear d.year < d.number ∧ d.number ≤ daysBeforeYear (d.year + 1) := by
  obtain ⟨hyear, -, hmonth, hlast, hday, hlength⟩ := d.valid
  have hsum := congrArg List.sum (List.take_append_drop d.month (monthLengths d.year))
  rw [List.sum_append, sum_take_monthLengths hlast, sum_monthLengths, daysBeforeMonth] at hsum
  rw [daysBeforeYear_succ hyear, Date.number]
  omega

theorem spanMonths_spec {lengths : List Nat} {n : Nat} (h : 1 ≤ n) (hsum : n ≤ lengths.sum) :
    ∃ length, lengths[(spanMonths lengths n).1]? = some length ∧
      1 ≤ (spanMonths lengths n).2 ∧ (spanMonths lengths n).2 ≤ length ∧
      n = (lengths.take (spanMonths lengths n).1).sum + (spanMonths lengths n).2 := by
  induction lengths generalizing n with
  | nil =>
    rw [List.sum_nil] at hsum
    omega
  | cons length lengths ih =>
    rw [List.sum_cons] at hsum
    by_cases hle : n ≤ length
    · have hspan : spanMonths (length :: lengths) n = (0, n) := by simp [spanMonths, hle]
      rw [hspan]
      exact ⟨length, rfl, h, hle, by simp⟩
    · obtain ⟨found, hget, hone, hbound, hn⟩ := ih (n := n - length) (by omega) (by omega)
      have hspan : spanMonths (length :: lengths) n =
          ((spanMonths lengths (n - length)).1 + 1, (spanMonths lengths (n - length)).2) := by
        simp [spanMonths, hle]
      rw [hspan]
      refine ⟨found, by simpa using hget, hone, hbound, ?_⟩
      rw [List.take_succ_cons, List.sum_cons]
      omega

theorem exists_ofNumber? {n : Nat} (h : 1 ≤ n) (hlast : n ≤ lastDay) :
    ∃ d, Date.ofNumber? n = some d ∧ d.number = n := by
  obtain ⟨hone, hbefore, hend⟩ := yearOfDay_bounds h
  have hyear := yearOfDay_le h hlast
  generalize hy : yearOfDay n = year at hone hbefore hend hyear
  rw [daysBeforeYear_succ hone] at hend
  have hsum : n - daysBeforeYear year ≤ (monthLengths year).sum := by
    rw [sum_monthLengths]
    omega
  obtain ⟨length, hget, hday, hbound, hn⟩ := spanMonths_spec (by omega) hsum
  generalize hspan : spanMonths (monthLengths year) (n - daysBeforeYear year) = span
    at hget hday hbound hn
  obtain ⟨k, day⟩ := span
  dsimp only at hget hday hbound hn
  obtain ⟨hk, hlength⟩ : k < 12 ∧ monthLength year (k + 1) = length := by
    simpa only [monthLengths, List.getElem?_map, List.getElem?_eq_some_iff, List.length_range,
      List.getElem_range, Option.map_eq_some_iff, exists_prop, and_assoc, exists_eq_left',
      exists_and_left] using hget
  rw [sum_take_monthLengths (by omega)] at hn
  refine ⟨⟨year, k + 1, day, hone, hyear, by omega, by omega, hday, by omega⟩, ?_, ?_⟩
  · rw [Date.ofNumber?, if_pos ⟨h, hlast⟩]
    simp only [hy, hspan]
    exact Date.of?_eq_some_iff.2 ⟨rfl, rfl, rfl⟩
  · change daysBeforeYear year + daysBeforeMonth year (k + 1) + day = n
    omega

theorem daysBeforeYear_mono {year later : Nat} (h : year ≤ later) :
    daysBeforeYear year ≤ daysBeforeYear later := by
  refine monotone_nat_of_le_succ (f := daysBeforeYear) (fun year => ?_) h
  cases year with
  | zero => decide
  | succ year => exact Nat.le.intro (daysBeforeYear_succ (Nat.le_add_left ..)).symm

theorem daysBeforeMonth_mono (year : Nat) {month later : Nat} (h : month ≤ later) :
    daysBeforeMonth year month ≤ daysBeforeMonth year later :=
  monotone_nat_of_le_succ (fun _ => Nat.le_add_right ..) h

theorem Date.number_mem (d : Date) : 1 ≤ d.number ∧ d.number ≤ lastDay := by
  obtain ⟨hbefore, hend⟩ := d.number_bounds
  have hlast := daysBeforeYear_mono (Nat.add_le_add_right d.valid.2.1 1)
  have hall : daysBeforeYear (9999 + 1) = lastDay := by decide
  omega

theorem Date.number_injective : Function.Injective Date.number := by
  -- The number lies in one year only, and in the year in one month only.
  have hyears {d e : Date} (h : d.number = e.number) : ¬ d.year < e.year := fun hlt => by
    have hmono := daysBeforeYear_mono (Nat.add_one_le_of_lt hlt)
    have hd := d.number_bounds
    have he := e.number_bounds
    omega
  have hmonths {d e : Date} (h : d.number = e.number) (hyear : d.year = e.year) :
      ¬ d.month < e.month := fun hlt => by
    have hmono := daysBeforeMonth_mono e.year (Nat.add_one_le_of_lt hlt)
    rw [daysBeforeMonth] at hmono
    have hd := d.valid.2.2.2.2
    have he := e.valid.2.2.2.2
    rw [Date.number, Date.number, hyear] at h
    rw [hyear] at hd
    omega
  intro d e h
  have hyear : d.year = e.year :=
    Nat.le_antisymm (Nat.not_lt.1 (hyears h.symm)) (Nat.not_lt.1 (hyears h))
  have hmonth : d.month = e.month :=
    Nat.le_antisymm (Nat.not_lt.1 (hmonths h.symm hyear.symm)) (Nat.not_lt.1 (hmonths h hyear))
  have hday : d.day = e.day := by
    rw [Date.number, Date.number, hyear, hmonth] at h
    omega
  cases d
  cases e
  simp_all

theorem Date.ofNumber?_eq_some_iff {n : Nat} {d : Date} : ofNumber? n = some d ↔ d.number = n := by
  constructor
  · intro h
    have hn : 1 ≤ n ∧ n ≤ lastDay := by
      by_contra hn
      simp [ofNumber?, hn] at h
    obtain ⟨e, he, hnumber⟩ := exists_ofNumber? hn.1 hn.2
    obtain rfl := Option.some.inj (he.symm.trans h)
    exact hnumber
  · rintro rfl
    obtain ⟨e, he, hnumber⟩ := exists_ofNumber? d.number_mem.1 d.number_mem.2
    rw [he, number_injective hnumber]

end DavQuery.Calendar
