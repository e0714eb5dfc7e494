import DavQuery.Proofs.Text.Leading

/-! How great a whole number that is read from a text may be. A digit of any script counts less than
ten, and there are no more of them than a number may have. -/

namespace DavQuery.Text

theorem digitValue?_lt {c : Char} {d : Nat} (h : digitValue? c = some d) : d < 10 := by
  unfold digitValue? at h
  dsimp only at h
  by_cases hascii : c.toNat < 128
  · rw [if_pos hascii, Option.ite_none_right_eq_some] at h
    obtain ⟨hrange, hd⟩ := h
    have hd : c.toNat - 48 = d := Option.some.inj hd
    omega
  · rw [if_neg hascii] at h
    obtain ⟨z, hz, rfl⟩ := Option.map_eq_some_iff.1 h
    have hrange := List.find?_some hz
    simp only [Bool.and_eq_true, decide_eq_true_eq] at hrange
    omega

theorem eq_filterMap_of_digitGroups? {s : List Char} {ds : List Nat}
    (h : digitGroups? s = some ds) : ds = s.filterMap digitValue? := by
  have hmark : digitValue? '_' = none := by decide
  induction s using digitGroups?.induct generalizing ds with
  | case1 => cases h
  | case2 c =>
    obtain ⟨d, hd, rfl⟩ := Option.map_eq_some_iff.1 h
    simp [hd]
  | case3 c r ih =>
    simp only [digitGroups?, Option.bind_eq_bind, Option.bind_eq_some_iff] at h
    obtain ⟨d, hd, ds, hds, hcons⟩ := h
    obtain rfl := Option.some.inj hcons
    simp [hd, hmark, ih hds]
  | case4 c r hr hnext ih =>
    rw [digitGroups?] at h
    · simp only [Option.bind_eq_bind, Option.bind_eq_some_iff] at h
      obtain ⟨d, hd, ds, hds, hcons⟩ := h
      obtain rfl := Option.some.inj hcons
      simp [hd, ih hds]
    · exact hr
    · exact hnext

theorem lt_of_mem_digitGroups? {s : List Char} {ds : List Nat} (h : digitGroups? s = some ds)
    {d : Nat} (hd : d ∈ ds) : d < 10 := by
  rw [eq_filterMap_of_digitGroups? h] at hd
  obtain ⟨c, -, hc⟩ := List.mem_filterMap.1 hd
  exact digitValue?_lt hc

theorem ofDigits_lt {ds : List Nat} (h : ∀ d ∈ ds, d < 10) : ofDigits ds < 10 ^ ds.length := by
  rw [ofDigits_eq_reverse, ← List.length_reverse]
  exact Nat.ofDigits_lt_base_pow_length (by decide) fun d hd => h d (List.mem_reverse.1 hd)

theorem natAbs_lt_of_integer? {s : List Char} {i : Int} (h : integer? s = some i) :
    i.natAbs < 10 ^ digitLimit := by
  rw [integer?] at h
  dsimp only at h
  cases hgroups : digitGroups? (spanSign (trimChars s)).2 with
  | none => simp [hgroups] at h
  | some ds =>
    simp only [hgroups, Option.ite_none_right_eq_some, Option.some.injEq] at h
    obtain ⟨hlength, rfl⟩ := h
    have habs (negative : Bool) (n : Nat) : (signed negative n).natAbs = n := by
      cases negative <;> simp [signed]
    rw [habs]
    calc ofDigits ds < 10 ^ ds.length := ofDigits_lt fun _ => lt_of_mem_digitGroups? hgroups
      _ ≤ 10 ^ digitLimit := Nat.pow_le_pow_right (by decide) hlength

end DavQuery.Text
