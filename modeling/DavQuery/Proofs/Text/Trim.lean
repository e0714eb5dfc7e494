import DavQuery.Text.Blank
import DavQuery.Text.Word
import Mathlib.Data.List.DropRight

/-! Trimming takes white space off both ends and nothing else. What is left begins and ends with a
character that is no white space, and white space put around a text changes nothing. -/

namespace DavQuery.Text

/-- White space and nothing else. -/
def AllBlank (s : List Char) : Prop := ∀ c ∈ s, isBlank c = true

def Trimmed (s : List Char) : Prop :=
  (∀ c, s.head? = some c → isBlank c = false) ∧ ∀ c, s.getLast? = some c → isBlank c = false

instance (s : List Char) : Decidable (AllBlank s) :=
  decidable_of_iff (s.all isBlank = true) List.all_eq_true

@[simp] theorem allBlank_nil : AllBlank [] := by simp [AllBlank]

theorem trimChars_eq (s : List Char) : trimChars s = (s.dropWhile isBlank).rdropWhile isBlank :=
  rfl

theorem trimChars_eq_nil_iff {s : List Char} : trimChars s = [] ↔ AllBlank s := by
  rw [trimChars_eq, List.rdropWhile_eq_nil_iff]
  constructor
  · intro h c hc
    rw [← List.takeWhile_append_dropWhile (p := isBlank) (l := s), List.mem_append] at hc
    exact hc.elim List.mem_takeWhile_imp (h c)
  · intro h c hc
    exact h c ((List.dropWhile_suffix isBlank).mem hc)

theorem trimChars_append_of_allBlank {a : List Char} (h : AllBlank a) (s : List Char) :
    trimChars (a ++ s) = trimChars s := by
  rw [trimChars_eq, List.dropWhile_append_of_pos h, ← trimChars_eq]

theorem trimChars_append_right_of_allBlank {b : List Char} (h : AllBlank b) (s : List Char) :
    trimChars (s ++ b) = trimChars s := by
  by_cases hs : AllBlank s
  · rw [trimChars_append_of_allBlank hs, trimChars_eq_nil_iff.2 h, trimChars_eq_nil_iff.2 hs]
  · have hd : s.dropWhile isBlank ≠ [] := by
      simpa [List.dropWhile_eq_nil_iff, AllBlank] using hs
    have hb : ∀ c ∈ b.reverse, isBlank c = true := fun c hc => h c (List.mem_reverse.1 hc)
    rw [trimChars_eq, trimChars_eq, List.dropWhile_append, if_neg (by simpa using hd)]
    simp [List.rdropWhile, List.dropWhile_append_of_pos hb]

theorem exists_dropWhile_eq (s : List Char) :
    ∃ b, AllBlank b ∧ s.dropWhile isBlank = trimChars s ++ b :=
  ⟨(s.dropWhile isBlank).rtakeWhile isBlank, fun _ hc => List.mem_rtakeWhile_imp hc,
    List.rdropWhile_append_rtakeWhile.symm⟩

theorem trimmed_trimChars (s : List Char) : Trimmed (trimChars s) := by
  have hd : ∀ c, (s.dropWhile isBlank).head? = some c → isBlank c = false := by
    intro c hc
    simpa [hc] using List.head?_dropWhile_not isBlank s
  refine ⟨fun c hc => hd c ?_, fun c hc => ?_⟩
  · obtain ⟨t, ht⟩ := List.rdropWhile_prefix isBlank (s.dropWhile isBlank)
    rw [← trimChars_eq] at ht
    rw [← ht, List.head?_append, hc, Option.some_or]
  · have hne : trimChars s ≠ [] := by rintro e; simp [e] at hc
    have h := List.rdropWhile_last_not isBlank (s.dropWhile isBlank) hne
    rw [List.getLast?_eq_getLast_of_ne_nil hne] at hc
    cases hc
    simpa [trimChars_eq] using h

theorem Trimmed.trimChars_eq {s : List Char} (h : Trimmed s) : trimChars s = s := by
  have hd : s.dropWhile isBlank = s := by
    cases s with
    | nil => rfl
    | cons c r => exact List.dropWhile_cons_of_neg (by simp [h.1 c rfl])
  rw [Text.trimChars_eq, hd, List.rdropWhile_eq_self_iff]
  intro hne
  simp [h.2 _ (List.getLast?_eq_getLast_of_ne_nil hne)]

theorem Trimmed.append {a b : List Char} (ha : Trimmed a) (hb : Trimmed b) (ha0 : a ≠ [])
    (hb0 : b ≠ []) (m : List Char) : Trimmed (a ++ m ++ b) := by
  constructor
  · intro c hc
    rw [List.append_assoc, List.head?_append_of_ne_nil _ ha0] at hc
    exact ha.1 c hc
  · intro c hc
    rw [List.getLast?_append_of_ne_nil _ hb0] at hc
    exact hb.2 c hc

@[simp] theorem trimChars_trimChars (s : List Char) : trimChars (trimChars s) = trimChars s :=
  (trimmed_trimChars s).trimChars_eq

theorem trimChars_eq_iff_append {s t : List Char} (ht : Trimmed t) (ht0 : t ≠ []) :
    trimChars s = t ↔ ∃ a b, s = a ++ (t ++ b) ∧ AllBlank a ∧ AllBlank b := by
  constructor
  · rintro rfl
    obtain ⟨b, hb, hdrop⟩ := exists_dropWhile_eq s
    refine ⟨s.takeWhile isBlank, b, ?_, fun c hc => List.mem_takeWhile_imp hc, hb⟩
    rw [← hdrop, List.takeWhile_append_dropWhile]
  · rintro ⟨a, b, rfl, ha, hb⟩
    rw [trimChars_append_of_allBlank ha, trimChars_append_right_of_allBlank hb, ht.trimChars_eq]

instance (s : List Char) : Decidable (Trimmed s) :=
  decidable_of_iff (trimChars s = s) ⟨fun h => h ▸ trimmed_trimChars s, Trimmed.trimChars_eq⟩

theorem trimChars_append_of_trimmed {s r : List Char} (hs : trimChars s ≠ []) (hr : Trimmed r)
    (hr0 : r ≠ []) (m : List Char) :
    trimChars (s ++ (m ++ r)) = s.dropWhile isBlank ++ (m ++ r) := by
  obtain ⟨b, -, hdrop⟩ := exists_dropWhile_eq s
  have hblank : AllBlank (s.takeWhile isBlank) := fun c hc => List.mem_takeWhile_imp hc
  have htrimmed := (trimmed_trimChars s).append hr hs hr0 (b ++ m)
  have hwhole : trimChars s ++ (b ++ m) ++ r = s.dropWhile isBlank ++ (m ++ r) := by
    rw [hdrop]
    simp
  calc trimChars (s ++ (m ++ r))
      = trimChars (s.takeWhile isBlank ++ (s.dropWhile isBlank ++ (m ++ r))) := by
        rw [← List.append_assoc (s.takeWhile isBlank), List.takeWhile_append_dropWhile]
    _ = s.dropWhile isBlank ++ (m ++ r) := by
        rw [trimChars_append_of_allBlank hblank, ← hwhole, htrimmed.trimChars_eq]

theorem trimChars_ne_nil_of_suffix {s r : List Char} (h : r <:+ trimChars s) (hr : r ≠ []) :
    trimChars r ≠ [] := by
  obtain ⟨a, e⟩ := h
  intro hb
  have hlast : (trimChars s).getLast? = some (r.getLast hr) := by
    rw [← e, List.getLast?_append_of_ne_nil _ hr, List.getLast?_eq_getLast_of_ne_nil hr]
  have := (trimmed_trimChars s).2 _ hlast
  simp [trimChars_eq_nil_iff.1 hb _ (List.getLast_mem hr)] at this

theorem Trimmed.isPrefix_trimChars_iff {p s : List Char} (hp : Trimmed p) :
    p <+: trimChars s ↔ p <+: s.dropWhile isBlank := by
  obtain ⟨b, hb, hdrop⟩ := exists_dropWhile_eq s
  rw [hdrop]
  refine ⟨fun h => h.trans (List.prefix_append ..), fun h => ?_⟩
  rcases List.prefix_or_prefix_of_prefix h (List.prefix_append (trimChars s) b) with h' | h'
  · exact h'
  · obtain ⟨r, rfl⟩ := h'
    rw [List.prefix_append_right_inj] at h
    cases hr : r.getLast? with
    | none => simp [List.getLast?_eq_none_iff.1 hr]
    | some c =>
      have hlast : isBlank c = false := hp.2 c (by simp [hr])
      have hblank : isBlank c = true := hb c (h.mem (List.mem_of_getLast? hr))
      simp [hlast] at hblank

theorem trimChars_isInfix (s : List Char) : trimChars s <:+: s :=
  (List.rdropWhile_prefix isBlank _).isInfix.trans (List.dropWhile_suffix isBlank).isInfix

theorem mem_of_mem_trimChars {c : Char} {s : List Char} (h : c ∈ trimChars s) : c ∈ s :=
  (trimChars_isInfix s).mem h

theorem mem_trimChars {c : Char} {s : List Char} (h : c ∈ s) (hc : isBlank c = false) :
    c ∈ trimChars s := by
  obtain ⟨b, hb, hdrop⟩ := exists_dropWhile_eq s
  rw [← List.takeWhile_append_dropWhile (p := isBlank) (l := s), hdrop, List.mem_append,
    List.mem_append] at h
  have hblank (hmem : isBlank c = true) : False := by simp [hc] at hmem
  rcases h with h | h | h
  · exact (hblank (List.mem_takeWhile_imp h)).elim
  · exact h
  · exact (hblank (hb c h)).elim

def blankCodes : List Nat :=
  [9, 10, 11, 12, 13, 28, 29, 30, 31, 32, 0x85, 0xA0, 0x1680, 0x2000, 0x2001, 0x2002, 0x2003,
    0x2004, 0x2005, 0x2006, 0x2007, 0x2008, 0x2009, 0x200A, 0x2028, 0x2029, 0x202F, 0x205F, 0x3000]

theorem toNat_mem_blankCodes {c : Char} (h : isBlank c = true) : c.toNat ∈ blankCodes := by
  simp only [isBlank, Bool.or_eq_true, Bool.and_eq_true, decide_eq_true_eq, beq_iff_eq] at h
  simp only [blankCodes, List.mem_cons, List.not_mem_nil, or_false]
  omega

theorem isWord_eq_false_of_isBlank {c : Char} (h : isBlank c = true) : isWord c = false := by
  have all : ∀ n ∈ blankCodes, isWord (Char.ofNat n) = false := by decide +kernel
  simpa using all c.toNat (toNat_mem_blankCodes h)

theorem trimmed_of_word {s : List Char} (h : ∀ x ∈ s, isWord x = true) : Trimmed s := by
  have hblank : ∀ x ∈ s, isBlank x = false := fun x hx => by
    by_contra hb
    rw [Bool.not_eq_false] at hb
    simpa [isWord_eq_false_of_isBlank hb] using h x hx
  exact ⟨fun c hc => hblank c (List.mem_of_mem_head? hc),
    fun c hc => hblank c (List.mem_of_mem_getLast? hc)⟩

end DavQuery.Text
