import DavQuery.Calendar.Expression
import DavQuery.Proofs.Calendar.Date

/-! Stamps moved by lengths of time. Seconds move the wall clock by just so much, and months move
the month of the date and keep the day as far as the new month has it; the offset is kept. A stamp
is moved to nowhere exactly if that leaves the years 1 to 9999. -/

namespace DavQuery.Calendar

theorem Clock.micros_injective : Function.Injective Clock.micros := by
  intro s t h
  have hs := s.valid
  have ht := t.valid
  cases s
  cases t
  simp only [IsClock] at hs ht
  simp only [Clock.micros] at h
  simp only [Clock.mk.injEq]
  omega

theorem DateTime.ofMicros?_eq_some_iff {n : Int} {t : DateTime} :
    ofMicros? n = some t ↔ t.micros = n := by
  have hpos : 0 < dayMicros := by decide
  constructor
  · intro h
    unfold ofMicros? at h
    split_ifs at h with hn
    obtain ⟨date, hdate, rfl⟩ := Option.map_eq_some_iff.1 h
    have hmod := Nat.div_add_mod' n.toNat dayMicros
    rw [micros, Date.ofNumber?_eq_some_iff.1 hdate, Clock.micros_ofMicros]
    omega
  · rintro rfl
    have hclock := t.clock.micros_lt
    have hcast : t.micros = (t.clock.micros + t.date.number * dayMicros : Nat) := by
      rw [micros]
      omega
    have hday : (t.clock.micros + t.date.number * dayMicros) / dayMicros = t.date.number := by
      rw [Nat.add_mul_div_right _ _ hpos, Nat.div_eq_of_lt hclock, Nat.zero_add]
    have htime : Clock.ofMicros (t.clock.micros + t.date.number * dayMicros) = t.clock := by
      apply Clock.micros_injective
      rw [Clock.micros_ofMicros, Nat.add_mul_mod_self_right, Nat.mod_eq_of_lt hclock]
    rw [hcast, ofMicros?, if_neg (by omega), Int.toNat_natCast, hday,
      Date.ofNumber?_eq_some_iff.2 rfl, Option.map_some, htime]

theorem DateTime.exists_micros_eq_iff {n : Int} :
    (∃ t : DateTime, t.micros = n) ↔ dayMicros ≤ n ∧ n < (lastDay + 1 : Nat) * dayMicros := by
  constructor
  · rintro ⟨t, rfl⟩
    have hclock := t.clock.micros_lt
    have hdate := t.date.number_mem
    simp only [micros, dayMicros] at hclock ⊢
    omega
  · intro h
    have hdays : 1 ≤ n.toNat / dayMicros ∧ n.toNat / dayMicros ≤ lastDay := by
      simp only [dayMicros, lastDay] at h ⊢
      omega
    obtain ⟨date, hdate, -⟩ := exists_ofNumber? hdays.1 hdays.2
    refine ⟨⟨date, Clock.ofMicros n.toNat⟩, ofMicros?_eq_some_iff.1 ?_⟩
    rw [ofMicros?, if_neg (by omega), hdate, Option.map_some]

theorem monthLength_pos {year month : Nat} (hfirst : 1 ≤ month) (hlast : month ≤ 12) :
    1 ≤ monthLength year month := by
  unfold monthLength
  grind

theorem Date.addMonths_eq_ok_iff_fields {d e : Date} {n : Int} : d.addMonths n = .ok e ↔
    e.year = ((d.monthIndex + n) / 12).toNat ∧ e.month = ((d.monthIndex + n) % 12).toNat + 1 ∧
      e.day = min d.day (monthLength e.year e.month) := by
  have hof := Date.of?_eq_some_iff (t := e) (y := ((d.monthIndex + n) / 12).toNat)
    (m := ((d.monthIndex + n) % 12).toNat + 1)
    (d := min d.day (monthLength ((d.monthIndex + n) / 12).toNat
      (((d.monthIndex + n) % 12).toNat + 1)))
  have hfields : (e.year = ((d.monthIndex + n) / 12).toNat ∧
      e.month = ((d.monthIndex + n) % 12).toNat + 1 ∧
      e.day = min d.day (monthLength e.year e.month)) ↔
        Date.of? ((d.monthIndex + n) / 12).toNat (((d.monthIndex + n) % 12).toNat + 1)
          (min d.day (monthLength ((d.monthIndex + n) / 12).toNat
            (((d.monthIndex + n) % 12).toNat + 1))) = some e := by
    rw [hof]
    constructor <;> rintro ⟨hyear, hmonth, hday⟩ <;> simp_all
  rw [hfields, addMonths]
  simp only [Int.fdiv_eq_ediv_of_nonneg _ (by decide : (0 : Int) ≤ 12),
    Int.fmod_eq_emod_of_nonneg _ (by decide : (0 : Int) ≤ 12)]
  split <;> simp_all

theorem Date.addMonths_eq_ok_iff {d e : Date} {n : Int} : d.addMonths n = .ok e ↔
    e.monthIndex = d.monthIndex + n ∧ e.day = min d.day (monthLength e.year e.month) := by
  obtain ⟨hyear, -, hmonth, hlast, -⟩ := e.valid
  rw [addMonths_eq_ok_iff_fields, ← and_assoc]
  refine and_congr_left fun _ => ?_
  generalize d.monthIndex + n = index
  rw [monthIndex]
  omega

theorem Date.exists_addMonths_iff {d : Date} {n : Int} : (∃ e, d.addMonths n = .ok e) ↔
    1 ≤ (d.monthIndex + n) / 12 ∧ (d.monthIndex + n) / 12 ≤ 9999 := by
  constructor
  · rintro ⟨e, he⟩
    obtain ⟨hyear, -⟩ := addMonths_eq_ok_iff_fields.1 he
    have hvalid := e.valid
    simp only [IsDate] at hvalid
    omega
  · intro h
    generalize hyear : ((d.monthIndex + n) / 12).toNat = year
    generalize hmonth : ((d.monthIndex + n) % 12).toNat + 1 = month
    have hlength : 1 ≤ monthLength year month := monthLength_pos (by omega) (by omega)
    obtain ⟨-, -, -, -, hday, -⟩ := d.valid
    have hvalid : IsDate year month (min d.day (monthLength year month)) :=
      ⟨by omega, by omega, by omega, by omega, by omega, min_le_right ..⟩
    exact ⟨⟨year, month, _, hvalid⟩, addMonths_eq_ok_iff_fields.2 ⟨hyear.symm, hmonth.symm, rfl⟩⟩

/-- The stamp becomes the other when it is moved by a length of time. -/
inductive Moves (s : Stamp) : Span → Stamp → Prop
  | seconds {n : Int} {t : Stamp} : t.offset = s.offset →
      t.wall.micros = s.wall.micros + n * 1000000 → Moves s (.seconds n) t
  | months {n : Int} {t : Stamp} : t.offset = s.offset → t.wall.clock = s.wall.clock →
      t.wall.date.monthIndex = s.wall.date.monthIndex + n →
      t.wall.date.day =
        min s.wall.date.day (monthLength t.wall.date.year t.wall.date.month) →
      Moves s (.months n) t

/-- The stamp stays within the years when it is moved: between the midnight that begins the first of
them and the one that ends the last, or with its month in one of them. -/
def StaysWithin (s : Stamp) : Span → Prop
  | .seconds n => dayMicros ≤ s.wall.micros + n * 1000000 ∧
      s.wall.micros + n * 1000000 < (lastDay + 1 : Nat) * dayMicros
  | .months n => 1 ≤ (s.wall.date.monthIndex + n) / 12 ∧
      (s.wall.date.monthIndex + n) / 12 ≤ 9999

theorem Stamp.move?_eq_some_iff {s t : Stamp} {span : Span} :
    s.move? span = some t ↔ Moves s span t := by
  cases span with
  | seconds n =>
    rw [move?, shift?, Option.map_eq_some_iff]
    constructor
    · rintro ⟨wall, hwall, rfl⟩
      exact .seconds rfl (DateTime.ofMicros?_eq_some_iff.1 hwall)
    · rintro ⟨hoffset, hmicros⟩
      refine ⟨t.wall, DateTime.ofMicros?_eq_some_iff.2 hmicros, ?_⟩
      cases t
      simp_all
  | months n =>
    have hmoved : s.move? (.months n) = some t ↔ ∃ date, s.wall.date.addMonths n = .ok date ∧
        { s with wall := { s.wall with date } } = t := by
      rw [move?, addMonths]
      cases s.wall.date.addMonths n <;> simp [Except.map, Except.toOption]
    rw [hmoved]
    constructor
    · rintro ⟨date, hdate, rfl⟩
      obtain ⟨hmonth, hday⟩ := Date.addMonths_eq_ok_iff.1 hdate
      exact .months rfl rfl hmonth hday
    · rintro (_ | ⟨hoffset, hclock, hmonth, hday⟩)
      refine ⟨t.wall.date, Date.addMonths_eq_ok_iff.2 ⟨hmonth, hday⟩, ?_⟩
      obtain ⟨⟨date, clock⟩, offset, hvalid⟩ := t
      simp_all

theorem exists_moves_iff {s : Stamp} {span : Span} :
    (∃ t, Moves s span t) ↔ StaysWithin s span := by
  cases span with
  | seconds n =>
    rw [StaysWithin, ← DateTime.exists_micros_eq_iff]
    constructor
    · rintro ⟨t, -, hmicros⟩
      exact ⟨t.wall, hmicros⟩
    · rintro ⟨wall, hwall⟩
      exact ⟨{ s with wall }, .seconds rfl hwall⟩
  | months n =>
    rw [StaysWithin, ← Date.exists_addMonths_iff]
    constructor
    · rintro ⟨t, _ | ⟨-, -, hmonth, hday⟩⟩
      exact ⟨t.wall.date, Date.addMonths_eq_ok_iff.2 ⟨hmonth, hday⟩⟩
    · rintro ⟨date, hdate⟩
      obtain ⟨hmonth, hday⟩ := Date.addMonths_eq_ok_iff.1 hdate
      exact ⟨{ s with wall := { s.wall with date } }, .months rfl rfl hmonth hday⟩

theorem Stamp.move?_eq_none_iff {s : Stamp} {span : Span} :
    s.move? span = none ↔ ¬ StaysWithin s span := by
  rw [← exists_moves_iff, Option.eq_none_iff_forall_ne_some, not_exists]
  exact forall_congr' fun t => not_congr move?_eq_some_iff

end DavQuery.Calendar
