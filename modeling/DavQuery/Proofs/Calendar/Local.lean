import DavQuery.Calendar.Timestamp
import DavQuery.Calendar.ZoneName
import DavQuery.Proofs.Calendar.Date

/-! The present moment has a local form. The clocks of a zone are less than a day from those of
Greenwich, so nothing that is looked at to place a date-time is more than a few days from it. -/

namespace DavQuery.Calendar

/-- The seconds are so many days or more from the ends of the years. -/
def Amid (days : Nat) (seconds : Int) : Prop :=
  (days + 1) * daySeconds ≤ seconds ∧ seconds < (lastDay + 1 - days) * daySeconds

theorem Amid.of_near {k n : Nat} {seconds moved : Int} (h : Amid (k + n) seconds)
    (hnear : (moved - seconds).natAbs ≤ n * 86400) : Amid k moved := by
  simp only [Amid, daySeconds, lastDay] at h ⊢
  omega

theorem DateTime.exists_ofMicros? {n : Int} (h : Amid 0 (n / 1000000)) :
    ∃ t, DateTime.ofMicros? n = some t ∧ t.micros = n := by
  simp only [Amid, daySeconds, lastDay] at h
  obtain ⟨k, rfl⟩ : ∃ k : Nat, n = k := ⟨n.toNat, by omega⟩
  have hmod := Nat.div_add_mod k dayMicros
  obtain ⟨date, hdate, hnumber⟩ : ∃ d, Date.ofNumber? (k / dayMicros) = some d ∧
      d.number = k / dayMicros := by
    refine exists_ofNumber? ?_ ?_
    · simp only [dayMicros]
      omega
    · simp only [dayMicros, lastDay]
      omega
  refine ⟨⟨date, Clock.ofMicros k⟩, ?_, ?_⟩
  · rw [DateTime.ofMicros?, if_neg (by omega), Int.toNat_natCast, hdate, Option.map_some]
  · simp only [DateTime.micros, hnumber, Clock.micros_ofMicros]
    exact_mod_cast (by rw [Nat.mul_comm]; exact hmod)

/-- The clocks of the zone are less than a day from those of Greenwich, at all times. -/
structure Zone.IsNear (z : Zone) : Prop where
  offsetAt : ∀ seconds, (z.offsetAt seconds).natAbs < 86400

theorem Zone.isNear_yearly {standard : Int} {daylight : Option Daylight}
    (hstandard : standard.natAbs < 86400)
    (hdaylight : ∀ d, daylight = some d → d.offset.natAbs < 86400) :
    (Zone.yearly standard daylight).IsNear where
  offsetAt seconds := by
    unfold Zone.yearly
    dsimp only
    split
    · split_ifs
      · exact hdaylight _ rfl
      · exact hstandard
    · exact hstandard

section
variable {z : Zone} (hz : z.IsNear)
include hz

theorem Zone.IsNear.clockAt {seconds : Int} (h : Amid 1 seconds) :
    ∃ shown, z.clockAt seconds = some shown ∧ (shown - seconds).natAbs < 86400 := by
  have hoffset := hz.offsetAt seconds
  have hshown : Amid 0 (seconds + z.offsetAt seconds) :=
    Amid.of_near (n := 1) h (by omega)
  refine ⟨seconds + z.offsetAt seconds, ?_, by omega⟩
  rw [Zone.clockAt, if_pos]
  simpa [Amid] using hshown

theorem Zone.IsNear.pointOf? {shown : Int} (h : Amid 3 shown) :
    ∃ point, z.pointOf? shown = some point ∧ (point - shown).natAbs < 86400 := by
  have hclock (n : Int) (hn : (n - shown).natAbs ≤ 2 * 86400) :=
    hz.clockAt (Amid.of_near (n := 2) h hn)
  obtain ⟨shown₀, h₀, hnear₀⟩ := hclock shown (by omega)
  generalize ha : shown₀ - shown = a at hnear₀
  obtain ⟨shown₁, h₁, hnear₁⟩ := hclock (shown - a) (by omega)
  obtain ⟨shown₂, h₂, hnear₂⟩ := hclock (shown - a - daySeconds) (by simp only [daySeconds]; omega)
  -- The second guess comes from the day before if the first one was right.
  have hsecond (b : Int) (hb : b.natAbs < 86400) : ∃ point,
      (if shown₁ = shown ∧ a = b then some (shown - a) else
        (z.clockAt (shown - b)).bind fun shown₃ =>
          if shown₃ = shown then some (shown - b)
          else if shown₁ = shown then some (shown - a)
          else some (max (shown - a) (shown - b))) = some point ∧
        (point - shown).natAbs < 86400 := by
    obtain ⟨shown₃, h₃, -⟩ := hclock (shown - b) (by omega)
    rw [h₃, Option.bind_some]
    split_ifs
    all_goals exact ⟨_, rfl, by omega⟩
  simp only [Zone.pointOf?, h₀, ha, h₁, h₂, Option.bind_eq_bind, Option.bind_some, pure]
  by_cases hfirst : shown₁ = shown
  · rw [if_pos hfirst]
    exact hsecond _ hnear₂
  · rw [if_neg hfirst]
    exact hsecond _ hnear₁

theorem Zone.IsNear.exists_locate {t : DateTime} (h : Amid 3 t.seconds) :
    ∃ s, z.locate t = .ok s := by
  obtain ⟨point, hpoint, -⟩ := hz.pointOf? h
  have hoffset := hz.offsetAt point
  obtain ⟨utc, hutc, hmicros⟩ := DateTime.exists_ofMicros?
    (n := t.micros - z.offsetAt point * 1000000)
    (Amid.of_near (n := 3) h (by simp only [DateTime.seconds]; omega))
  have hback := hz.offsetAt utc.seconds
  obtain ⟨wall, hwall, -⟩ := DateTime.exists_ofMicros?
    (n := utc.micros + z.offsetAt utc.seconds * 1000000)
    (Amid.of_near (n := 3) h (by simp only [DateTime.seconds] at hback ⊢; omega))
  have hvalid : IsOffset (z.offsetAt utc.seconds * 1000000) := by
    simp only [IsOffset, dayMicros]
    omega
  have hshow : z.show? utc = some ⟨wall, z.offsetAt utc.seconds * 1000000, hvalid⟩ := by
    simp only [Zone.show?, hwall, bind, Option.bind, Stamp.of?, dif_pos hvalid]
  exact ⟨⟨wall, _, hvalid⟩, by simp only [Zone.locate, hpoint, hutc, hshow]⟩

end

theorem LocalTime.exists_present {here : LocalTime} (hz : here.zone.IsNear)
    (hyear : 2 ≤ here.now.date.year) (hlast : here.now.date.year ≤ 9998) :
    ∃ s, here.present = .ok s := by
  obtain ⟨hbefore, hend⟩ := here.now.date.number_bounds
  have hfirst := daysBeforeYear_bounds here.now.date.year
  have hnext := daysBeforeYear_bounds (here.now.date.year + 1)
  have hclock := here.now.clock.micros_lt
  have hamid : Amid 3 here.now.seconds := by
    simp only [Amid, DateTime.seconds, DateTime.micros, daySeconds, dayMicros, lastDay]
      at hclock ⊢
    omega
  obtain ⟨s, hs⟩ := hz.exists_locate hamid
  exact ⟨s, by rw [LocalTime.present, hs, Except.mapError]⟩

end DavQuery.Calendar
