import DavQuery.Proofs.Calendar.Iso
import DavQuery.Proofs.Calendar.Shift

/-! The international form is read to its end. A blank may stand between the date and the time of
day or before the offset, but a sign with blanks on both sides ends the reading, unless a character
of code zero has ended it before. -/

namespace DavQuery.Calendar.Iso
open Text

section
variable {d p t r : List Char} {n : Nat}

theorem ends_before_blank (h : d ++ r = p ++ ' ' :: t) (hd : ' ' ∉ d) :
    ∃ q, p = d ++ q ∧ r = q ++ ' ' :: t := by
  rcases List.append_eq_append_iff.1 h with ⟨q, hp, hr⟩ | ⟨q, hd', ht⟩
  · exact ⟨q, hp, hr⟩
  · cases q with
    | nil => exact ⟨[], by simpa using hd'.symm, by simpa using ht.symm⟩
    | cons c q =>
      rw [List.cons_append, List.cons.injEq] at ht
      exact absurd (by simp [hd', ← ht.1]) hd

theorem spanNumber_before_blank {count : Nat}
    (h : spanNumber count (p ++ ' ' :: t) = some (n, r)) :
    ∃ d q, p = d ++ q ∧ r = q ++ ' ' :: t := by
  obtain ⟨d, hs, -, hd⟩ := of_spanNumber h
  have hblank : ' ' ∉ d := fun hmem => absurd (hd ' ' hmem) (by decide)
  obtain ⟨q, hp, hr⟩ := ends_before_blank hs.symm hblank
  exact ⟨d, q, hp, hr⟩

theorem headD_ne_nul (hnul : nul ∉ p) : (p ++ ' ' :: t).headD nul ≠ nul := by
  cases p with
  | nil => exact (by decide : ' ' ≠ nul)
  | cons c p =>
    rw [List.cons_append, List.headD_cons]
    rintro rfl
    exact hnul List.mem_cons_self

theorem readFraction?_stray {stray : Bool} (hnul : nul ∉ p)
    (h : readFraction? nul (p ++ ' ' :: t) = some (n, stray)) : stray = true := by
  simp only [readFraction?, Option.bind_eq_bind, Option.bind_eq_some_iff] at h
  obtain ⟨⟨m, r⟩, hspan, heq⟩ := h
  obtain ⟨d, q, rfl, rfl⟩ := spanNumber_before_blank hspan
  cases heq
  have hdrop : (q ++ ' ' :: t).dropWhile Char.isDigit = q.dropWhile Char.isDigit ++ ' ' :: t := by
    rw [List.dropWhile_append]
    split_ifs with hq
    · rw [List.isEmpty_iff.1 hq]
      rfl
    · rfl
  rw [hdrop, bne_iff_ne]
  exact headD_ne_nul fun hmem =>
    hnul (List.mem_append_right d ((List.dropWhile_suffix Char.isDigit).mem hmem))

theorem readPairs?_end {count : Nat} {colons : Option Bool} {ns : List Nat} {e : ClockEnd}
    (hnul : nul ∉ p) (h : readPairs? nul count colons (p ++ ' ' :: t) = some (ns, e)) :
    e = .ends true ∨ ∃ q, nul ∉ q ∧ e = .fraction (q ++ ' ' :: t) := by
  induction count generalizing colons p ns with
  | zero =>
    cases h
    exact .inr ⟨p, hnul, rfl⟩
  | succ count ih =>
    simp only [readPairs?, Option.bind_eq_bind, Option.bind_eq_some_iff] at h
    obtain ⟨⟨n, r⟩, hspan, h⟩ := h
    obtain ⟨d, q, rfl, rfl⟩ := spanNumber_before_blank hspan
    have hq : nul ∉ q := fun hmem => hnul (List.mem_append_right d hmem)
    have hhead := headD_ne_nul (t := t) hq
    -- A mark between pairs is not the blank, so that it stands before it.
    have hmark {c : Char} (hc : c ≠ ' ') (h : (q ++ ' ' :: t).headD nul = c) :
        ∃ q', nul ∉ q' ∧ (q ++ ' ' :: t).drop 1 = q' ++ ' ' :: t := by
      cases q with
      | nil => exact absurd h.symm hc
      | cons c' q' => exact ⟨q', fun hmem => hq (List.mem_cons_of_mem c' hmem), rfl⟩
    dsimp only at h
    split_ifs at h with hshort hcolon hpoint hplain
    · cases h
      left
      rw [bne_iff_ne.2 hhead]
    · obtain ⟨q', hq', hdrop⟩ := hmark (by decide) (beq_iff_eq.1 (Bool.and_eq_true_iff.1 hcolon).2)
      rw [hdrop, Option.bind_eq_some_iff] at h
      obtain ⟨⟨ns', e'⟩, hpairs, heq⟩ := h
      cases heq
      exact ih hq' hpairs
    · rw [Bool.or_eq_true, beq_iff_eq, beq_iff_eq] at hpoint
      obtain ⟨q', hq', hdrop⟩ : ∃ q', nul ∉ q' ∧ (q ++ ' ' :: t).drop 1 = q' ++ ' ' :: t :=
        hpoint.elim (hmark (by decide)) (hmark (by decide))
      cases h
      exact .inr ⟨q', hq', by rw [hdrop]⟩
    · obtain ⟨⟨ns', e'⟩, hpairs, heq⟩ := Option.bind_eq_some_iff.1 h
      cases heq
      exact ih hq hpairs

theorem readClock?_stray {clock : ClockText} (hnul : nul ∉ p)
    (h : readClock? nul (p ++ ' ' :: t) = some clock) : clock.stray = true := by
  simp only [readClock?, Option.bind_eq_bind, Option.bind_eq_some_iff] at h
  obtain ⟨⟨ns, e⟩, hpairs, h⟩ := h
  rcases readPairs?_end hnul hpairs with rfl | ⟨q, hq, rfl⟩
  · cases h
    rfl
  · obtain ⟨⟨micro, stray⟩, hend, heq⟩ := Option.bind_eq_some_iff.1 h
    cases heq
    exact readFraction?_stray hq hend

theorem readOffset?_before_blank {sign : Char} (hnul : nul ∉ p) :
    readOffset? (sign :: (p ++ ' ' :: t)) = none := by
  unfold readOffset?
  split
  case h_1 heq =>
    cases heq
    rw [if_neg (headD_ne_nul hnul)]
  case h_2 heq =>
    cases heq
    cases hclock : readClock? nul (p ++ ' ' :: t) with
    | none => rfl
    | some clock => simp [readClock?_stray hnul hclock]
  case h_3 heq => cases heq

end

theorem readTime?_of_zone {date : Date} {s : List Char} {c : Char} {r : List Char}
    (hzone : s.dropWhile (!startsOffset ·) = c :: r) (h : readOffset? (c :: r) = none) :
    readTime? date s = none := by
  simp only [readTime?, hzone, h, List.isEmpty_cons]
  cases readClock? _ _ with
  | none => rfl
  | some clock => rfl

theorem startsOffset_of_isSign {c : Char} (h : isSign c = true) : startsOffset c = true := by
  obtain rfl | rfl := isSign_iff.1 h
  all_goals decide

theorem readTime?_before_sign {date : Date} {p r : List Char} {sign : Char} (hnul : nul ∉ p)
    (hsign : isSign sign = true) : readTime? date (p ++ ' ' :: sign :: ' ' :: r) = none := by
  have hstarts := startsOffset_of_isSign hsign
  by_cases hp : ∀ c ∈ p, (!startsOffset c) = true
  · have hzone : (p ++ ' ' :: sign :: ' ' :: r).dropWhile (!startsOffset ·) = sign :: ' ' :: r := by
      rw [List.dropWhile_append_of_pos hp, List.dropWhile_cons_of_pos (by decide),
        List.dropWhile_cons_of_neg (by simp [hstarts])]
    exact readTime?_of_zone hzone (readOffset?_before_blank (p := []) List.not_mem_nil)
  · have hdrop : p.dropWhile (!startsOffset ·) ≠ [] := by
      rwa [ne_eq, List.dropWhile_eq_nil_iff]
    obtain ⟨c, q, hq⟩ := List.exists_cons_of_ne_nil hdrop
    have hzone : (p ++ ' ' :: sign :: ' ' :: r).dropWhile (!startsOffset ·) =
        c :: (q ++ ' ' :: sign :: ' ' :: r) := by
      rw [List.dropWhile_append, hq]
      rfl
    have hsuffix : q <:+ p :=
      (List.suffix_cons c q).trans (hq ▸ List.dropWhile_suffix (!startsOffset ·))
    exact readTime?_of_zone hzone (readOffset?_before_blank fun hmem => hnul (hsuffix.mem hmem))

/-- A part of a date, of so many characters, stands before the rest of a text. -/
def Passes (count : Nat) (s r : List Char) : Prop :=
  ∃ d, s = d ++ r ∧ d.length = count ∧ ∀ c ∈ d, c.isDigit = true ∨ c = '-' ∨ c = 'W'

theorem Passes.trans {j k : Nat} {s r t : List Char} (h : Passes j s r) (h' : Passes k r t) :
    Passes (j + k) s t := by
  obtain ⟨d, rfl, hlength, hd⟩ := h
  obtain ⟨d', rfl, hlength', hd'⟩ := h'
  refine ⟨d ++ d', by simp, by simp [hlength, hlength'], fun c hc => ?_⟩
  exact (List.mem_append.1 hc).elim (hd c) (hd' c)

theorem passes_of_spanNumber {count n : Nat} {s r : List Char}
    (h : spanNumber count s = some (n, r)) : Passes count s r := by
  obtain ⟨d, hs, hlength, hd⟩ := of_spanNumber h
  exact ⟨d, hs, hlength, fun c hc => .inl (hd c hc)⟩

theorem passes_cons {c : Char} (hc : c = '-' ∨ c = 'W') (r : List Char) : Passes 1 (c :: r) r :=
  ⟨[c], rfl, rfl, by simpa using Or.inr hc⟩

theorem passes_of_skipHyphen {wanted : Bool} {s r : List Char} (h : skipHyphen wanted s = some r) :
    Passes (if wanted then 1 else 0) s r := by
  unfold skipHyphen at h
  cases wanted with
  | false =>
    cases h
    exact ⟨[], rfl, rfl, by simp⟩
  | true =>
    simp only [if_true] at h
    split at h
    · cases h
      exact passes_cons (.inl rfl) r
    · cases h

theorem Passes.length_eq {k : Nat} {s r : List Char} (h : Passes k s r) :
    s.length = k + r.length := by
  obtain ⟨d, rfl, rfl, -⟩ := h
  exact List.length_append

theorem dateLength?_le {s : List Char} {length : Nat} (h : dateLength? s = some length) :
    length ≤ 10 ∧ (s.getD 4 nul ≠ '-' → length ≤ 8) := by
  unfold dateLength? at h
  dsimp only at h
  split_ifs at h
  all_goals
    rw [Option.some.injEq] at h
    first
    | omega
    | exact ⟨by omega, fun hne => absurd ‹s.getD 4 nul = '-'› hne⟩

theorem passes_of_year {s r : List Char} {year : Nat} (h : spanNumber 4 s = some (year, r))
    {hyphens : Bool} (hhyphens : (r.head? == some '-') = hyphens) :
    Passes (4 + if hyphens then 1 else 0) s (if hyphens then r.drop 1 else r) ∧
      (hyphens = false → s.getD 4 nul ≠ '-') := by
  have hpasses := passes_of_spanNumber h
  cases hyphens with
  | true =>
    cases r with
    | nil => cases hhyphens
    | cons c r =>
      obtain rfl : c = '-' := by simpa using hhyphens
      exact ⟨hpasses.trans (passes_cons (.inl rfl) r), fun hfalse => Bool.noConfusion hfalse⟩
  | false =>
    refine ⟨hpasses, fun _ => ?_⟩
    obtain ⟨d, rfl, hd, -⟩ := hpasses
    rw [List.getD_eq_getElem?_getD, List.getElem?_append_right (Nat.le_of_eq hd), hd, Nat.sub_self,
      ← List.head?_eq_getElem?]
    cases r with
    | nil => decide
    | cons c r => simpa using hhyphens

theorem passes_of_readDate? {s : List Char} {length : Nat} {date : Date}
    (hlength : dateLength? s = some length) (h : readDate? length s = some date) :
    ∃ k r, length ≤ k ∧ Passes k s r := by
  have hle := dateLength?_le hlength
  simp only [readDate?, Option.bind_eq_bind, Option.bind_eq_some_iff] at h
  obtain ⟨⟨year, r⟩, hyear, h⟩ := h
  generalize hhyphens : (r.head? == some '-') = hyphens at h
  obtain ⟨hhyphen, hnoHyphen⟩ := passes_of_year hyear hhyphens
  generalize (if hyphens then r.drop 1 else r) = r' at h hhyphen
  split at h
  case h_1 r' =>
    obtain ⟨⟨week, r''⟩, hweek, h⟩ := Option.bind_eq_some_iff.1 h
    have hW := (hhyphen.trans (passes_cons (.inr rfl) r')).trans (passes_of_spanNumber hweek)
    dsimp only at h
    split_ifs at h with hday
    · obtain ⟨r₃, hskip, h⟩ := Option.bind_eq_some_iff.1 h
      obtain ⟨⟨day, r₄⟩, hspan, h⟩ := Option.bind_eq_some_iff.1 h
      refine ⟨_, r₄, ?_, (hW.trans (passes_of_skipHyphen hskip)).trans (passes_of_spanNumber hspan)⟩
      cases hyphens with
      | false => simpa using hle.2 (hnoHyphen rfl)
      | true => simpa using hle.1
    · refine ⟨_, r'', ?_, hW⟩
      have := hW.length_eq
      omega
  case h_2 r' _ =>
    obtain ⟨⟨month, r''⟩, hmonth, h⟩ := Option.bind_eq_some_iff.1 h
    obtain ⟨r₃, hskip, h⟩ := Option.bind_eq_some_iff.1 h
    obtain ⟨⟨day, r₄⟩, hspan, h⟩ := Option.bind_eq_some_iff.1 h
    dsimp only at h
    split_ifs at h with hend
    have hall := ((hhyphen.trans (passes_of_spanNumber hmonth)).trans
      (passes_of_skipHyphen hskip)).trans (passes_of_spanNumber hspan)
    refine ⟨_, r₄, ?_, hall⟩
    have := hall.length_eq
    omega

theorem octets_append (a b : List Char) : octets (a ++ b) = octets a ++ octets b := by
  rw [octets, Utf8.encode, List.flatMap_append, List.map_append]
  rfl

theorem toNat_ofNat_toUInt8 {n : Nat} (h : n < 256) : (Char.ofNat n.toUInt8.toNat).toNat = n := by
  have hvalid : n.isValidChar := .inl (by omega)
  rw [Utf8.toNat_toUInt8 h, Char.ofNat, dif_pos hvalid]
  rfl

theorem width_octets (c : Char) : ∃ o l,
    (Utf8.encodeChar c).map (fun b => Char.ofNat b.toNat) = o :: l ∧ width o = l.length + 1 ∧
      (o.toNat < 128 → l = []) ∧ (nul ∈ o :: l → c = nul) := by
  have hrange := Utf8.toNat_range c
  have hchar : Char.ofNat c.toNat = c := Char.ofNat_toNat c
  have hnul {n : Nat} (h : n < 256) (hn : nul = Char.ofNat n.toUInt8.toNat) : n = 0 := by
    rw [← toNat_ofNat_toUInt8 h, ← hn]
    rfl
  unfold Utf8.encodeChar
  generalize c.toNat = n at hrange hchar
  dsimp only
  split_ifs with h1 h2 h3
  · refine ⟨_, [], rfl, ?_, fun _ => rfl, fun hmem => ?_⟩
    · rw [width, toNat_ofNat_toUInt8 (by omega), if_pos h1]
      rfl
    · rw [List.mem_singleton] at hmem
      rw [← hchar, hnul (by omega) hmem]
      rfl
  · refine ⟨_, _, rfl, ?_, fun hascii => ?_, fun hmem => ?_⟩
    · rw [width, toNat_ofNat_toUInt8 (by omega), if_neg (by omega), if_neg (by omega),
        if_neg (by omega)]
      rfl
    · rw [toNat_ofNat_toUInt8 (by omega)] at hascii
      omega
    · simp only [List.map_cons, List.map_nil, List.mem_cons, List.not_mem_nil, or_false] at hmem
      rcases hmem with hmem | hmem
      all_goals exact absurd (hnul (by omega) hmem) (by omega)
  · refine ⟨_, _, rfl, ?_, fun hascii => ?_, fun hmem => ?_⟩
    · rw [width, toNat_ofNat_toUInt8 (by omega), if_neg (by omega), if_pos (by omega)]
      rfl
    · rw [toNat_ofNat_toUInt8 (by omega)] at hascii
      omega
    · simp only [List.map_cons, List.map_nil, List.mem_cons, List.not_mem_nil, or_false] at hmem
      rcases hmem with hmem | hmem | hmem
      all_goals exact absurd (hnul (by omega) hmem) (by omega)
  · refine ⟨_, _, rfl, ?_, fun hascii => ?_, fun hmem => ?_⟩
    · rw [width, toNat_ofNat_toUInt8 (by omega), if_neg (by omega), if_neg (by omega),
        if_pos (by omega)]
      rfl
    · rw [toNat_ofNat_toUInt8 (by omega)] at hascii
      omega
    · simp only [List.map_cons, List.map_nil, List.mem_cons, List.not_mem_nil, or_false] at hmem
      rcases hmem with hmem | hmem | hmem | hmem
      all_goals exact absurd (hnul (by omega) hmem) (by omega)

theorem exists_octets_cons (c : Char) : ∃ o l, (∀ s, octets (c :: s) = o :: (l ++ octets s)) ∧
    width o = l.length + 1 ∧ (o.toNat < 128 → l = []) ∧ (nul ∈ o :: l → c = nul) := by
  obtain ⟨o, l, hc, h⟩ := width_octets c
  refine ⟨o, l, fun s => ?_, h⟩
  rw [octets, Utf8.encode_cons, List.map_append, hc]
  rfl

theorem nul_notMem_octets {s : List Char} (h : nul ∉ s) : nul ∉ octets s := by
  induction s with
  | nil => exact List.not_mem_nil
  | cons c s ih =>
    obtain ⟨o, l, hcons, -, -, hnul⟩ := exists_octets_cons c
    rw [List.mem_cons, not_or] at h
    rw [hcons, ← List.cons_append, List.mem_append, not_or]
    exact ⟨fun hmem => h.1 (hnul hmem).symm, ih h.2⟩

theorem drop_octets {s : List Char} {n : Nat} (h : ∀ c ∈ (octets s).take n, c.toNat < 128) :
    ∃ r, r <:+ s ∧ (octets s).drop n = octets r := by
  induction n generalizing s with
  | zero => exact ⟨s, List.suffix_rfl, rfl⟩
  | succ n ih =>
    cases s with
    | nil => exact ⟨[], List.suffix_rfl, by simp [octets, Utf8.encode]⟩
    | cons c s =>
      obtain ⟨o, l, hcons, -, hascii, -⟩ := exists_octets_cons c
      rw [hcons, List.take_succ_cons, List.forall_mem_cons] at h
      obtain rfl := hascii h.1
      obtain ⟨r, hr, hdrop⟩ := ih h.2
      exact ⟨r, hr.trans (List.suffix_cons c s), by rw [hcons]; exact hdrop⟩

theorem readTime?_behind_date (date : Date) {q : List Char} (hnul : nul ∉ q) {sign : Char}
    (hsign : isSign sign = true) (r : List Char) :
    ∃ c l, octets q ++ ' ' :: sign :: ' ' :: r = c :: l ∧
      readTime? date (l.drop (width c - 1)) = none := by
  cases q with
  | nil =>
    have hzone : (sign :: ' ' :: r).dropWhile (!startsOffset ·) = sign :: ' ' :: r :=
      List.dropWhile_cons_of_neg (by simp [startsOffset_of_isSign hsign])
    exact ⟨' ', _, rfl,
      readTime?_of_zone hzone (readOffset?_before_blank (p := []) List.not_mem_nil)⟩
  | cons c q =>
    obtain ⟨o, l, hcons, hwidth, -⟩ := exists_octets_cons c
    refine ⟨o, l ++ octets q ++ ' ' :: sign :: ' ' :: r, by rw [hcons]; rfl, ?_⟩
    rw [hwidth, Nat.add_sub_cancel, List.append_assoc, List.drop_left]
    exact readTime?_before_sign
      (nul_notMem_octets fun hmem => hnul (List.mem_cons_of_mem c hmem)) hsign

theorem read?_before_sign {p r : List Char} {sign : Char} (hnul : nul ∉ p)
    (hsign : isSign sign = true) : read? (p ++ ' ' :: sign :: ' ' :: r) = none := by
  have hoctets : octets (p ++ ' ' :: sign :: ' ' :: r) =
      octets p ++ ' ' :: sign :: ' ' :: octets r := by
    obtain rfl | rfl := isSign_iff.1 hsign
    all_goals rw [octets_append, octets_cons (by decide), octets_cons (by decide),
      octets_cons (by decide)]
  unfold read?
  split_ifs
  · rfl
  rw [hoctets, readOctets?]
  cases hlength : dateLength? (octets p ++ ' ' :: sign :: ' ' :: octets r) with
  | none => rfl
  | some length =>
    cases hdate : readDate? length (octets p ++ ' ' :: sign :: ' ' :: octets r) with
    | none => simp [hdate]
    | some date =>
      obtain ⟨k, r', hle, d, hs, hk, hd⟩ := passes_of_readDate? hlength hdate
      have hblank : ' ' ∉ d := fun hmem => absurd (hd ' ' hmem) (by decide)
      obtain ⟨q, hp, -⟩ := ends_before_blank hs.symm hblank
      have htake : (octets p).take length = d.take length := by
        rw [hp, List.take_append_of_le_length (by omega)]
      obtain ⟨q', hq', hdrop⟩ := drop_octets (s := p) (n := length) fun c hc => by
        rw [htake] at hc
        rcases hd c (List.mem_of_mem_take hc) with hdigit | rfl | rfl
        · exact toNat_lt_of_isDigit hdigit
        · decide
        · decide
      have hlong : length ≤ (octets p).length := by
        rw [hp, List.length_append]
        omega
      obtain ⟨c, l, hcl, hnone⟩ :=
        readTime?_behind_date date (fun hmem => hnul (hq'.mem hmem)) hsign (octets r)
      simp only [Option.bind_eq_bind, Option.bind_some, hdate,
        List.drop_append_of_le_length hlong, hdrop, hcl, hnone]

end DavQuery.Calendar.Iso
