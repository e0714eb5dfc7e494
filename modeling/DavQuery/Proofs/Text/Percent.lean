import DavQuery.Proofs.Text.Utf8
import DavQuery.Text.Percent

/-! Escaped texts. A text may be written in many ways, with some characters left as they are and the
octets of the others escaped; reading any of them gives the text back. A slash is never part of an
escape, so that what stands before it is read on its own. -/

namespace DavQuery.Text

theorem forall_ascii {P : Char → Prop} (h : ∀ n < 128, P (Char.ofNat n)) {c : Char}
    (hc : c.toNat < 128) : P c := by
  have hn := h c.toNat hc
  rwa [Char.ofNat_toNat] at hn

theorem toNat_lt_of_isAlphanum {c : Char} (h : c.isAlphanum = true) : c.toNat < 128 := by
  have hval : c.val.toNat = c.toNat := rfl
  delta Char.isAlphanum Char.isAlpha Char.isUpper Char.isLower Char.isDigit at h
  simp only [Bool.or_eq_true, Bool.and_eq_true, decide_eq_true_eq, ge_iff_le,
    UInt32.le_iff_toNat_le, hval, Char.reduceVal, UInt32.reduceToNat] at h
  omega

namespace Percent

theorem octets_ne_nil {s : List Char} (h : s ≠ []) : octets s ≠ [] := by
  obtain ⟨c, r, rfl⟩ := List.exists_cons_of_ne_nil h
  rw [octets]
  split
  · simp
  · simp [Utf8.encodeChar_ne_nil]

theorem decode_ne_nil {s : List Char} (h : s ≠ []) : decode s ≠ [] :=
  Utf8.decodeLenient_ne_nil (octets_ne_nil h)

@[simp] theorem decode_nil : decode [] = [] := by
  simp [decode, octets, Utf8.decodeLenient, Utf8.scan]

theorem toNat_lt_of_isUnreserved {c : Char} (h : isUnreserved c = true) : c.toNat < 128 := by
  simp only [isUnreserved, Bool.or_eq_true, beq_iff_eq] at h
  rcases h with (((h | rfl) | rfl) | rfl) | rfl
  · exact toNat_lt_of_isAlphanum h
  all_goals decide

theorem toNat_lt_of_hexValue? {c : Char} (h : hexValue? c ≠ none) : c.toNat < 128 := by
  unfold hexValue? at h
  dsimp only at h
  split_ifs at h <;> first | omega | exact absurd rfl h

/-- The octets are escaped one by one, with small or capital digits. -/
inductive Escapes : List UInt8 → List Char → Prop
  | nil : Escapes [] []
  | cons {b : UInt8} {x y : Char} {bs : List UInt8} {t : List Char} :
      hexValue? x = some (b.toNat / 16) → hexValue? y = some (b.toNat % 16) → Escapes bs t →
      Escapes (b :: bs) ('%' :: x :: y :: t)

/-- The text is written with each character left as it is, where that is allowed, or with its
octets escaped. -/
inductive Spells (allowed : Char → Prop) : List Char → List Char → Prop
  | nil : Spells allowed [] []
  | plain {c : Char} {s t : List Char} : allowed c → Spells allowed s t →
      Spells allowed (c :: s) (c :: t)
  | escaped {c : Char} {s e t : List Char} : Escapes (Utf8.encodeChar c) e → Spells allowed s t →
      Spells allowed (c :: s) (e ++ t)

theorem readEscape?_cons {x y : Char} {r : List Char} {b : UInt8}
    (hx : hexValue? x = some (b.toNat / 16)) (hy : hexValue? y = some (b.toNat % 16)) :
    readEscape? ('%' :: x :: y :: r) = some (b, r) := by
  have hb : (b.toNat / 16 * 16 + b.toNat % 16).toUInt8 = b := by
    rw [Nat.div_add_mod']
    exact UInt8.ofNat_toNat
  simp only [readEscape?, hx, hy, bind, Option.bind, hb, pure]

theorem readEscape?_of_ne {c : Char} (h : c ≠ '%') (r : List Char) :
    readEscape? (c :: r) = none := by
  unfold readEscape?
  split
  · simp_all
  · rfl

theorem octets_of_readEscape? {s r : List Char} {b : UInt8} (h : readEscape? s = some (b, r)) :
    octets s = b :: octets r := by
  cases s with
  | nil => simp [readEscape?] at h
  | cons c s =>
    rw [octets]
    split
    · simp_all
    · simp_all

theorem octets_of_readEscape?_eq_none {c : Char} {r : List Char}
    (h : readEscape? (c :: r) = none) : octets (c :: r) = Utf8.encodeChar c ++ octets r := by
  rw [octets]
  split
  · simp_all
  · rfl

theorem Escapes.forall_mem {bs : List UInt8} {e : List Char} (h : Escapes bs e) :
    ∀ c ∈ e, c = '%' ∨ hexValue? c ≠ none := by
  induction h with
  | nil => simp
  | cons hx hy _ ih =>
    rw [List.forall_mem_cons, List.forall_mem_cons, List.forall_mem_cons]
    exact ⟨.inl rfl, .inr (by simp [hx]), .inr (by simp [hy]), ih⟩

theorem Escapes.octets_append {bs : List UInt8} {e : List Char} (h : Escapes bs e)
    (r : List Char) : octets (e ++ r) = bs ++ octets r := by
  induction h with
  | nil => rfl
  | cons hx hy _ ih =>
    rw [List.cons_append, List.cons_append, List.cons_append,
      octets_of_readEscape? (readEscape?_cons hx hy), ih, List.cons_append]

section
variable {allowed : Char → Prop} {s t : List Char}

theorem Spells.octets_append (hallowed : ¬ allowed '%') (h : Spells allowed s t) (r : List Char) :
    octets (t ++ r) = Utf8.encode s ++ octets r := by
  induction h with
  | nil => rfl
  | plain hc _ ih =>
    have hne : _ ≠ '%' := fun e => hallowed (e ▸ hc)
    rw [List.cons_append, octets_of_readEscape?_eq_none (readEscape?_of_ne hne _), ih,
      Utf8.encode_cons, List.append_assoc]
  | escaped he _ ih =>
    rw [List.append_assoc, he.octets_append, ih, Utf8.encode_cons, List.append_assoc]

theorem Spells.decode_append (hallowed : ¬ allowed '%') (h : Spells allowed s t) (r : List Char) :
    decode (t ++ r) = s ++ decode r := by
  rw [decode, h.octets_append hallowed, Utf8.decodeLenient_encode_append, decode]

theorem Spells.decode_eq (hallowed : ¬ allowed '%') (h : Spells allowed s t) : decode t = s := by
  simpa using h.decode_append hallowed []

theorem Spells.forall_mem (h : Spells allowed s t) :
    ∀ c ∈ t, allowed c ∨ c = '%' ∨ hexValue? c ≠ none := by
  induction h with
  | nil => simp
  | plain hc _ ih => exact List.forall_mem_cons.2 ⟨.inl hc, ih⟩
  | escaped he _ ih =>
    exact List.forall_mem_append.2 ⟨fun c hc => .inr (he.forall_mem c hc), ih⟩

theorem Spells.ne_nil (h : Spells allowed s t) (hne : s ≠ []) : t ≠ [] := by
  cases h with
  | nil => exact hne
  | plain => simp
  | @escaped c _ e t he =>
    intro hnil
    obtain ⟨rfl, -⟩ := List.append_eq_nil_iff.1 hnil
    generalize hc : Utf8.encodeChar c = bs at he
    cases he
    exact Utf8.encodeChar_ne_nil c hc

theorem Spells.exists_split {c : Char} (hne : c ≠ '%') (hc : hexValue? c = none) {r : List Char}
    (h : Spells allowed s (t ++ c :: r)) : ∃ a b, s = a ++ c :: b ∧ Spells allowed a t := by
  generalize hw : t ++ c :: r = w at h
  induction h generalizing t with
  | nil => simp at hw
  | @plain d s w hd h ih =>
    cases t with
    | nil =>
      obtain ⟨rfl, -⟩ : c = d ∧ r = w := by simpa using hw
      exact ⟨[], s, rfl, .nil⟩
    | cons x t =>
      obtain ⟨rfl, hrest⟩ : x = d ∧ t ++ c :: r = w := by simpa using hw
      obtain ⟨a, b, rfl, ha⟩ := ih hrest
      exact ⟨x :: a, b, rfl, .plain hd ha⟩
  | @escaped d s e w he h ih =>
    have hmem : c ∉ e := fun hmem => (he.forall_mem c hmem).elim hne fun hex => hex hc
    obtain ⟨t, rfl, hrest⟩ : ∃ t', t = e ++ t' ∧ w = t' ++ c :: r := by
      rcases List.append_eq_append_iff.1 hw with ⟨more, rfl, hmore⟩ | ⟨more, rfl, hmore⟩
      · cases more with
        | nil => exact ⟨[], by simp, by simpa using hmore.symm⟩
        | cons x more =>
          obtain ⟨rfl, -⟩ : c = x ∧ r = more ++ w := by simpa using hmore
          simp at hmem
      · exact ⟨more, rfl, hmore⟩
    obtain ⟨a, b, rfl, ha⟩ := ih hrest.symm
    exact ⟨d :: a, b, rfl, .escaped he ha⟩

theorem Spells.mono {more : Char → Prop} (hmore : ∀ c, allowed c → more c)
    (h : Spells allowed s t) : Spells more s t := by
  induction h with
  | nil => exact .nil
  | plain hc _ ih => exact .plain (hmore _ hc) ih
  | escaped he _ ih => exact .escaped he ih

theorem Spells.append {s' t' : List Char} (h : Spells allowed s t) (h' : Spells allowed s' t') :
    Spells allowed (s ++ s') (t ++ t') := by
  induction h with
  | nil => exact h'
  | plain hc _ ih => exact .plain hc ih
  | escaped he _ ih =>
    rw [List.append_assoc]
    exact .escaped he ih

end

theorem hexValue?_digit {n : Nat} (h : n < 16) : hexValue? n.digitChar.toUpper = some n := by
  revert n
  decide

theorem escapes_flatMap (bs : List UInt8) : Escapes bs (bs.flatMap escape) := by
  induction bs with
  | nil => exact .nil
  | cons b bs ih =>
    have hb : b.toNat < 256 := b.toNat_lt
    have hdiv : b.toNat / 16 % 16 = b.toNat / 16 := by omega
    refine .cons ?_ ?_ ih
    · rw [hdiv, hexValue?_digit (by omega)]
    · exact hexValue?_digit (by omega)

theorem spells_self {allowed : Char → Prop} {s : List Char} (h : ∀ c ∈ s, allowed c) :
    Spells allowed s s := by
  induction s with
  | nil => exact .nil
  | cons c r ih =>
    rw [List.forall_mem_cons] at h
    exact .plain h.1 (ih h.2)

theorem spells_encode (s : List Char) : Spells (isUnreserved · = true) s (encode s) := by
  induction s with
  | nil => exact .nil
  | cons c r ih =>
    rw [encode, List.flatMap_cons, ← encode]
    split_ifs with hc
    · exact .plain hc ih
    · exact .escaped (escapes_flatMap _) ih

theorem readEscape?_append {c : Char} (hc : hexValue? c = none) (a : Char) (s r : List Char) :
    readEscape? (a :: (s ++ c :: r)) =
      (readEscape? (a :: s)).map fun p => (p.1, p.2 ++ c :: r) := by
  by_cases ha : a = '%'
  · subst ha
    match s with
    | [] => cases r <;> simp [readEscape?, hc]
    | [x] => simp [readEscape?, hc]
    | x :: y :: s =>
      simp only [List.cons_append, readEscape?, bind, Option.bind, pure]
      cases hexValue? x <;> cases hexValue? y <;> rfl
  · simp [readEscape?_of_ne ha]

theorem octets_append {c : Char} (hc : hexValue? c = none) (s r : List Char) :
    octets (s ++ c :: r) = octets s ++ octets (c :: r) := by
  induction s using octets.induct with
  | case1 => simp [octets]
  | case2 a s b rest h hlt ih =>
    have happend : readEscape? (a :: (s ++ c :: r)) = some (b, rest ++ c :: r) := by
      rw [readEscape?_append hc, h, Option.map_some]
    rw [List.cons_append, octets_of_readEscape? happend, octets_of_readEscape? h, ih,
      List.cons_append]
  | case3 a s h ih =>
    have happend : readEscape? (a :: (s ++ c :: r)) = none := by
      rw [readEscape?_append hc, h, Option.map_none]
    rw [List.cons_append, octets_of_readEscape?_eq_none happend, octets_of_readEscape?_eq_none h,
      ih, List.append_assoc]

theorem decode_append_slash (s r : List Char) :
    decode (s ++ '/' :: r) = decode s ++ '/' :: decode r := by
  have hslash : octets ('/' :: r) = 0x2F :: octets r :=
    octets_of_readEscape?_eq_none (readEscape?_of_ne (by decide) r)
  have hread : Utf8.decodeLenient (0x2F :: octets r) = '/' :: decode r :=
    Utf8.decodeLenient_encode_append ['/'] (octets r)
  rw [decode, octets_append (by decide), hslash, Utf8.decodeLenient_append (by decide), hread]
  rfl

theorem decode_cons_slash (r : List Char) : decode ('/' :: r) = '/' :: decode r := by
  simpa using decode_append_slash [] r

theorem decode_replicate_slash (n : Nat) :
    decode (List.replicate n '/') = List.replicate n '/' := by
  induction n with
  | zero => exact decode_nil
  | succ n ih => rw [List.replicate_succ, decode_cons_slash, ih]

end Percent

end DavQuery.Text
