import DavQuery.Calendar.Moment
import DavQuery.Proofs.Calendar.Move

/-! Months added to a moment. They are fields of the calendar: the month is counted on, and the day
is kept as far as the new month has it. So months add up but for the days that a short month between
cuts off, and dates keep their order. -/

namespace DavQuery.Calendar

def Moment.wall : Moment → DateTime
  | .floating t => t
  | .fixed s => s.wall

def Moment.offset? : Moment → Option Int
  | .floating _ => none
  | .fixed s => some s.offset

def Moment.onDate (m : Moment) (date : Date) : Moment :=
  match m with
  | .floating t => .floating { t with date }
  | .fixed s => .fixed { s with wall := { s.wall with date } }

/-- The date is the other one or comes before it: by its year, else by its month, else by its
day. -/
def Date.NotAfter (d e : Date) : Prop :=
  d.year < e.year ∨ d.year = e.year ∧ (d.month < e.month ∨ d.month = e.month ∧ d.day ≤ e.day)

instance (d e : Date) : Decidable (d.NotAfter e) := by
  unfold Date.NotAfter; infer_instance

theorem twentyEight_le_monthLength {year month : Nat} (hfirst : 1 ≤ month) (hlast : month ≤ 12) :
    28 ≤ monthLength year month := by
  unfold monthLength
  grind

namespace Date
variable {d e : Date}

theorem twentyEight_le_length (d : Date) : 28 ≤ monthLength d.year d.month :=
  twentyEight_le_monthLength d.valid.2.2.1 d.valid.2.2.2.1

theorem monthIndex_eq_iff : d.monthIndex = e.monthIndex ↔ d.year = e.year ∧ d.month = e.month := by
  have hd := d.valid
  have he := e.valid
  simp only [IsDate] at hd he
  unfold monthIndex
  omega

theorem notAfter_iff :
    d.NotAfter e ↔ d.monthIndex < e.monthIndex ∨ d.monthIndex = e.monthIndex ∧ d.day ≤ e.day := by
  have hd := d.valid
  have he := e.valid
  simp only [IsDate] at hd he
  unfold NotAfter monthIndex
  omega

theorem eq_of_monthIndex_of_day (hmonth : d.monthIndex = e.monthIndex) (hday : d.day = e.day) :
    d = e := by
  have hfields := monthIndex_eq_iff.1 hmonth
  cases d
  cases e
  simp_all

theorem length_eq_of_monthIndex (h : d.monthIndex = e.monthIndex) :
    monthLength d.year d.month = monthLength e.year e.month := by
  rw [(monthIndex_eq_iff.1 h).1, (monthIndex_eq_iff.1 h).2]

variable {t u v : Date} {a b n : Int}

theorem addMonths_addMonths (ht : d.addMonths a = .ok t) (hu : t.addMonths b = .ok u)
    (hv : d.addMonths (a + b) = .ok v) : u.monthIndex = v.monthIndex ∧ u.day ≤ v.day ∧
      (d.day ≤ monthLength t.year t.month → u = v) := by
  rw [addMonths_eq_ok_iff] at ht hu hv
  have hmonth : u.monthIndex = v.monthIndex := by omega
  have hlength := length_eq_of_monthIndex hmonth
  refine ⟨hmonth, by omega, fun hkept => eq_of_monthIndex_of_day hmonth ?_⟩
  omega

theorem addMonths_neg (h : d.day ≤ 28) (ht : d.addMonths n = .ok t) :
    t.addMonths (-n) = .ok d := by
  rw [addMonths_eq_ok_iff] at ht ⊢
  have hthere := t.twentyEight_le_length
  have hback := d.twentyEight_le_length
  omega

theorem addMonths_mono (h : d.NotAfter e) (ht : d.addMonths n = .ok t)
    (hu : e.addMonths n = .ok u) : t.NotAfter u := by
  rw [notAfter_iff] at h ⊢
  rw [addMonths_eq_ok_iff] at ht hu
  -- Dates of one month come into one month, and its length cuts their days off alike.
  have hlength : t.monthIndex = u.monthIndex → monthLength t.year t.month =
      monthLength u.year u.month := length_eq_of_monthIndex
  omega

end Date

namespace Moment
variable {m t : Moment} {n : Int}

theorem addMonths_eq (m : Moment) (n : Int) :
    m.addMonths n = (m.wall.date.addMonths n).map m.onDate := by
  cases m with
  | floating wall => rfl
  | fixed s =>
    rw [addMonths, Stamp.addMonths, wall]
    cases s.wall.date.addMonths n <;> rfl

theorem wall_onDate (m : Moment) (date : Date) : (m.onDate date).wall = { m.wall with date } := by
  cases m <;> rfl

theorem offset?_onDate (m : Moment) (date : Date) : (m.onDate date).offset? = m.offset? := by
  cases m <;> rfl

theorem onDate_onDate (m : Moment) (date date' : Date) :
    (m.onDate date).onDate date' = m.onDate date' := by
  cases m <;> rfl

theorem onDate_date (m : Moment) : m.onDate m.wall.date = m := by
  cases m <;> rfl

theorem addMonths_eq_ok_iff : m.addMonths n = .ok t ↔
    m.wall.date.addMonths n = .ok t.wall.date ∧ t = m.onDate t.wall.date := by
  rw [addMonths_eq]
  cases m.wall.date.addMonths n with
  | error fault => simp [Except.map]
  | ok date =>
    simp only [Except.map, Except.ok.injEq]
    constructor
    · intro h
      rw [← h, wall_onDate]
      exact ⟨rfl, rfl⟩
    · intro h
      rw [h.1]
      exact h.2.symm

theorem exists_addMonths_eq_error_iff : (∃ fault, m.addMonths n = .error fault) ↔
    ¬ (1 ≤ (m.wall.date.monthIndex + n) / 12 ∧ (m.wall.date.monthIndex + n) / 12 ≤ 9999) := by
  rw [← Date.exists_addMonths_iff, addMonths_eq]
  cases m.wall.date.addMonths n <;> simp [Except.map]

end Moment

/-- Adding months fails exactly if the year that the month falls into is none of the years 1 to
9999. Else the month is counted on, the day is kept or becomes the last of the month, and the time
of day and the offset are kept. Two steps lead where one step of both does, but for days that the
month between has not; a day up to the twenty-eighth comes back; and dates keep their order. -/
theorem months_added (m : Moment) :
    (∀ n, (∃ fault, m.addMonths n = .error fault) ↔
      ¬ (1 ≤ (m.wall.date.monthIndex + n) / 12 ∧ (m.wall.date.monthIndex + n) / 12 ≤ 9999)) ∧
    (∀ n t, m.addMonths n = .ok t →
      t.wall.date.monthIndex = m.wall.date.monthIndex + n ∧
      t.wall.date.day =
        min m.wall.date.day (monthLength t.wall.date.year t.wall.date.month) ∧
      t.wall.clock = m.wall.clock ∧ t.offset? = m.offset?) ∧
    (∀ a b t u v, m.addMonths a = .ok t → t.addMonths b = .ok u → m.addMonths (a + b) = .ok v →
      u.wall.date.year = v.wall.date.year ∧ u.wall.date.month = v.wall.date.month ∧
      u.wall.date.day ≤ v.wall.date.day ∧
      (m.wall.date.day ≤ 28 ∨
        m.wall.date.day ≤ monthLength t.wall.date.year t.wall.date.month → u = v)) ∧
    (m.wall.date.day ≤ 28 → ∀ n t, m.addMonths n = .ok t → t.addMonths (-n) = .ok m) ∧
    ∀ n (m' t t' : Moment), m.addMonths n = .ok t → m'.addMonths n = .ok t' →
      m.wall.date.NotAfter m'.wall.date → t.wall.date.NotAfter t'.wall.date := by
  simp only [Moment.addMonths_eq_ok_iff]
  refine ⟨fun n => Moment.exists_addMonths_eq_error_iff, ?_, ?_, ?_, ?_⟩
  · intro n t h
    have hdate := Date.addMonths_eq_ok_iff.1 h.1
    have hclock := congrArg (fun m : Moment => m.wall.clock) h.2
    have hoffset := congrArg Moment.offset? h.2
    rw [Moment.wall_onDate] at hclock
    rw [Moment.offset?_onDate] at hoffset
    exact ⟨hdate.1, hdate.2, hclock, hoffset⟩
  · intro a b t u v ht hu hv
    have hsteps := Date.addMonths_addMonths ht.1 hu.1 hv.1
    have hmonth := Date.monthIndex_eq_iff.1 hsteps.1
    refine ⟨hmonth.1, hmonth.2, hsteps.2.1, fun hday => ?_⟩
    have hlength := t.wall.date.twentyEight_le_length
    have hdate := hsteps.2.2 (by omega)
    rw [hu.2, ht.2, Moment.onDate_onDate, hdate]
    exact hv.2.symm
  · intro hday n t h
    refine ⟨Date.addMonths_neg hday h.1, ?_⟩
    rw [h.2, Moment.onDate_onDate, Moment.onDate_date]
  · intro n m' t t' ht ht' h
    exact Date.addMonths_mono h ht.1 ht'.1

theorem months_added_january :
    let morning (year month day : Nat) (h : IsDate year month day) : Moment :=
      .fixed ⟨⟨⟨year, month, day, h⟩, ⟨8, 30, 0, 0, by decide⟩⟩, 3600000000, by decide⟩
    let january := morning 2024 1 31 (by decide)
    let february := morning 2024 2 29 (by decide)
    let march := morning 2024 3 29 (by decide)
    let december : Moment := .floating ⟨⟨9999, 12, 28, by decide⟩, .zero⟩
    let november : Moment := .floating ⟨⟨9998, 11, 28, by decide⟩, .zero⟩
    january.addMonths 1 = .ok february ∧ february.addMonths 1 = .ok march ∧
      january.addMonths (1 + 1) = .ok (morning 2024 3 31 (by decide)) ∧
      march.wall.date.day ≤ (morning 2024 3 31 (by decide)).wall.date.day ∧
      (∃ fault, december.addMonths 1 = .error fault) ∧
      december.addMonths (-13) = .ok november ∧ november.addMonths (- -13) = .ok december ∧
      (morning 2024 2 2 (by decide)).wall.date.NotAfter february.wall.date := by
  intro morning january february march december november
  have hjanuary := months_added january
  have hdecember := months_added december
  have hone : january.addMonths 1 = .ok february := by decide +kernel
  have htwo : february.addMonths 1 = .ok march := by decide +kernel
  have hboth : january.addMonths (1 + 1) = .ok (morning 2024 3 31 (by decide)) := by decide +kernel
  have hback : december.addMonths (-13) = .ok november := by decide +kernel
  have hsecond : (morning 2024 1 2 (by decide)).addMonths 1 =
      .ok (morning 2024 2 2 (by decide)) := by decide +kernel
  refine ⟨hone, htwo, hboth, (hjanuary.2.2.1 _ _ _ _ _ hone htwo hboth).2.2.1,
    (hdecember.1 1).2 (by decide), hback, hdecember.2.2.2.1 (by decide) _ _ hback, ?_⟩
  have hsecond' := months_added (morning 2024 1 2 (by decide))
  exact hsecond'.2.2.2.2 1 january _ february hsecond hone (by decide)

end DavQuery.Calendar
