import DavQuery.Proofs.Text.Percent
import DavQuery.Proofs.Url.Reference

/-! The path of a reference. It is what stands after the host, up to a query or a fragment, but for
the parameters of its last segment. A reference that begins with one slash is a path. -/

namespace DavQuery

namespace Text

theorem cutLast_append {sep : Char} (a : List Char) {b : List Char} (h : sep ∉ b) :
    cutLast sep (a ++ sep :: b) = some (a, b) := by
  have hb : cutLast sep b = none := by
    rw [Option.eq_none_iff_forall_ne_some]
    rintro ⟨x, y⟩ hcut
    exact h (by simp [(cutLast_eq_some hcut).1])
  induction a with
  | nil => simp [cutLast, hb]
  | cons c a ih => simp [cutLast, ih]

end Text

namespace Url
open Text

namespace Reference

/-- The characters that a path has as it is read: none that is taken out of a reference or ends a
path. -/
def IsOfPath (c : Char) : Prop := 32 ≤ c.toNat ∧ c ≠ '?' ∧ c ≠ '#'

instance : DecidablePred IsOfPath := fun _ => inferInstanceAs (Decidable (_ ∧ _))

theorem isOfPath_slash : IsOfPath '/' := by decide

def IsScheme (s : List Char) : Prop :=
  ∃ c r, s = c :: r ∧ c.isAlpha = true ∧ ∀ x ∈ r, isSchemeChar x = true

theorem part_eq_self {mark : Char} {s : List Char} (h : mark ∉ s) : part mark s = (s, []) := by
  rw [part, cutFirst_eq_none_iff.2 h, Option.getD_none]

theorem clean_eq_self {s : List Char} (hhead : ∀ c, s.head? = some c → 32 < c.toNat)
    (hall : ∀ c ∈ s, 32 ≤ c.toNat) : clean s = s := by
  have hdrop : s.dropWhile (fun c => decide (c.toNat ≤ 32)) = s := by
    cases s with
    | nil => rfl
    | cons c r => exact List.dropWhile_cons_of_neg (by simpa using hhead c rfl)
  rw [clean, hdrop, List.filter_eq_self]
  intro c hc
  have hshown := hall c hc
  have hne : ∀ d : Char, d.toNat < 32 → c ≠ d := by
    rintro d hd rfl
    omega
  simp [hne '\t' (by decide), hne '\n' (by decide), hne '\r' (by decide)]

theorem partParams_append (a : List Char) {b : List Char} (h : '/' ∉ b) :
    (partParams (a ++ '/' :: b)).1 = a ++ '/' :: (part ';' b).1 := by
  simp [partParams, cutLast_append a h]

theorem partParams_eq_self {s : List Char} (h : ';' ∉ s) : (partParams s).1 = s := by
  unfold partParams
  split
  · rename_i a b hcut
    obtain ⟨rfl, -⟩ := cutLast_eq_some hcut
    have hb : ';' ∉ b := fun hmem => h (by simp [hmem])
    simp [part_eq_self hb]
  · rw [part_eq_self h]

theorem spanScheme_of_slash (r : List Char) : spanScheme ('/' :: r) = none := by
  have halpha : '/'.isAlpha = false := by decide
  cases hcut : cutFirst ':' r <;> simp [spanScheme, cutFirst, hcut, halpha]

theorem IsScheme.colon_notMem {scheme : List Char} (h : IsScheme scheme) : ':' ∉ scheme := by
  obtain ⟨c, rest, rfl, hc, hrest⟩ := h
  have hno : isSchemeChar ':' = false := by decide
  rw [List.mem_cons, not_or]
  exact ⟨fun e => by simp [← e] at hc, fun hmem => absurd (hrest _ hmem) (by simp [hno])⟩

theorem spanScheme_append {scheme : List Char} (h : IsScheme scheme) (r : List Char) :
    spanScheme (scheme ++ ':' :: r) = some (scheme.map Char.toLower, r) := by
  have hcolon := h.colon_notMem
  obtain ⟨c, rest, rfl, hc, hrest⟩ := h
  simp only [spanScheme, cutFirst_append hcolon, hc, List.all_eq_true.2 hrest, Bool.and_self,
    if_true]

theorem spanHost_append {host r : List Char} (hhost : ∀ c ∈ host, ¬ EndsHost c)
    (hr : ∀ c, r.head? = some c → EndsHost c) : spanHost ('/' :: '/' :: host ++ r) = (host, r) := by
  have hends : r.takeWhile (fun c => decide (¬ EndsHost c)) = [] ∧
      r.dropWhile (fun c => decide (¬ EndsHost c)) = r := by
    cases r with
    | nil => simp
    | cons c r => simp [hr c rfl]
  have hall : ∀ c ∈ host, decide (¬ EndsHost c) = true := by simpa using hhost
  rw [List.cons_append, List.cons_append, spanHost_of_slashes, List.takeWhile_append_of_pos hall,
    List.dropWhile_append_of_pos hall, hends.1, hends.2, List.append_nil]

theorem IsScheme.lt_toNat {scheme : List Char} (h : IsScheme scheme) :
    ∀ c, scheme.head? = some c → 32 < c.toNat := by
  obtain ⟨d, rest, rfl, hd, -⟩ := h
  rintro c ⟨⟩
  exact forall_ascii (P := fun c => c.isAlpha = true → 32 < c.toNat) (by decide)
    (toNat_lt_of_isAlphanum (by simp [Char.isAlphanum, hd])) hd

theorem clean_of_scheme {scheme r : List Char} (h : IsScheme scheme)
    (hshown : ∀ c ∈ scheme ++ r, 32 ≤ c.toNat) : clean (scheme ++ r) = scheme ++ r := by
  refine clean_eq_self (fun c hc => h.lt_toNat c ?_) hshown
  obtain ⟨d, rest, rfl, -⟩ := h
  exact hc

theorem read?_of_slash {r : List Char} (hchars : ∀ c ∈ '/' :: r, IsOfPath c)
    (hone : r.head? ≠ some '/') :
    ∃ ref, read? ('/' :: r) = some ref ∧ ref.path = (partParams ('/' :: r)).1 := by
  have hclean : clean ('/' :: r) = '/' :: r := by
    refine clean_eq_self (fun c hc => ?_) fun c hc => (hchars c hc).1
    obtain rfl : '/' = c := by simpa using hc
    decide
  have hhost : spanHost ('/' :: r) = ([], '/' :: r) := by
    unfold spanHost
    split
    · rename_i e
      simp only [List.cons.injEq, true_and] at e
      simp [e] at hone
    · rfl
  have hfragment : '#' ∉ '/' :: r := fun h => (hchars _ h).2.2 rfl
  have hquery : '?' ∉ '/' :: r := fun h => (hchars _ h).2.1 rfl
  have hschemes : (schemesWithParams.any (·.toList == [])) = true := by decide
  have hnone : isHost [] = true := by decide
  simp only [read?, readWith?, hclean, spanScheme_of_slash, Option.getD_none, hhost, hnone, if_true,
    part_eq_self hfragment, part_eq_self hquery, hschemes, Option.some.injEq, exists_eq_left']

end Reference

structure Parts (s scheme authority path : List Char) : Prop where
  eq : s = scheme ++ ':' :: '/' :: '/' :: authority ++ path
  isScheme : Reference.IsScheme scheme
  inside : ∀ c ∈ authority, ¬ Reference.EndsHost c
  begins : ∀ c, path.head? = some c → c = '/'
  isPath : ∀ c ∈ path, c ≠ '?' ∧ c ≠ '#'

/-- The path of an absolute address without query and fragment. -/
def HasPath (s path : List Char) : Prop := ∃ scheme authority, Parts s scheme authority path

section
variable {s scheme authority path : List Char} (h : Parts s scheme authority path)
include h

theorem Parts.clean_eq_self (hshown : ∀ c ∈ s, 32 ≤ c.toNat) : Reference.clean s = s := by
  have hs : s = scheme ++ (':' :: '/' :: '/' :: authority ++ path) := by simp [h.eq]
  rw [hs] at hshown ⊢
  exact Reference.clean_of_scheme h.isScheme hshown

theorem Parts.hosts (hshown : ∀ c ∈ s, 32 ≤ c.toNat) : Reference.Hosts s authority := by
  refine ⟨scheme ++ [':'], path, ?_, ?_, h.inside, fun c hc => .inl (h.begins c hc)⟩
  · rw [h.clean_eq_self hshown, h.eq]
    simp
  · obtain ⟨c, rest, rfl, hc, hrest⟩ := h.isScheme
    exact .inr ⟨c, rest, rfl, hc, hrest⟩

theorem Parts.read? (hshown : ∀ c ∈ s, 32 ≤ c.toNat) (hhost : ¬ Reference.Doubtful authority)
    (hparams : ';' ∉ path) : ∃ ref, Reference.read? s = some ref ∧ ref.path = path := by
  have hspan : Reference.spanScheme s =
      some (scheme.map Char.toLower, '/' :: '/' :: authority ++ path) := by
    rw [h.eq, List.append_assoc, List.cons_append, Reference.spanScheme_append h.isScheme]
  have hspanHost := Reference.spanHost_append h.inside fun c hc => .inl (h.begins c hc)
  have htold : Reference.isHost authority = true := by
    by_contra hno
    exact hhost (Reference.isHost_eq_false_iff.1 (Bool.eq_false_iff.2 hno))
  have hfragment : '#' ∉ path := fun hmem => (h.isPath _ hmem).2 rfl
  have hquery : '?' ∉ path := fun hmem => (h.isPath _ hmem).1 rfl
  simp only [Reference.read?, Reference.readWith?, h.clean_eq_self hshown, hspan, Option.getD_some,
    hspanHost, htold, if_true, Reference.part_eq_self hfragment, Reference.part_eq_self hquery,
    Option.some.injEq, exists_eq_left']
  split_ifs
  · exact Reference.partParams_eq_self hparams
  · rfl

end

end Url

end DavQuery
