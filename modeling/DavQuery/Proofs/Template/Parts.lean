import DavQuery.Proofs.Template
import Mathlib.Data.List.Infix

/-! The placeholders of a template. A placeholder that stands in a text is read as one, whatever
braces stand around it, since no two of them overlap. So a text is parted by its placeholders in one
way, and of two texts put together each is read for itself, unless a placeholder comes about where
they meet. -/

namespace DavQuery.Template
open Calendar Text

/-- The word of a placeholder: one or more of the characters that words are made of. -/
def IsWordRun (word : List Char) : Prop := word ≠ [] ∧ ∀ c ∈ word, isWord c = true

instance (word : List Char) : Decidable (IsWordRun word) :=
  decidable_of_iff (word ≠ [] ∧ word.all isWord = true) (by simp [IsWordRun])

/-- A placeholder stands somewhere in the text. -/
def HasPlaceholder (s : List Char) : Prop :=
  ∃ before word after, IsWordRun word ∧ s = before ++ (placeholderText word ++ after)

/-- Where the two texts meet, a placeholder begins in the first one and ends in the second. -/
def Straddles (s t : List Char) : Prop :=
  ∃ before word after, IsWordRun word ∧ s ++ t = before ++ (placeholderText word ++ after) ∧
    before.length < s.length ∧ after.length < t.length

/-- The text is made of texts without placeholders and a placeholder after each but the last. -/
structure PartsOf (s : List Char) (marked : List (List Char × List Char)) (last : List Char) :
    Prop where
  text_eq : s = marked.flatMap (fun p => p.1 ++ placeholderText p.2) ++ last
  isWordRun : ∀ p ∈ marked, IsWordRun p.2
  plain : ∀ p ∈ marked, ¬ HasPlaceholder p.1
  last_plain : ¬ HasPlaceholder last

theorem readPlaceholder?_eq_some_iff {s word rest : List Char} :
    readPlaceholder? s = some (word, rest) ↔ IsWordRun word ∧ s = placeholderText word ++ rest := by
  constructor
  · intro h
    unfold readPlaceholder? at h
    split at h
    · rename_i t
      split at h
      · rename_i c w u hword hrest
        simp only [Option.some.injEq, Prod.mk.injEq] at h
        obtain ⟨rfl, rfl⟩ := h
        have hall (d : Char) (hd : d ∈ c :: w) : isWord d = true :=
          List.mem_takeWhile_imp (hword ▸ hd)
        refine ⟨⟨List.cons_ne_nil c w, hall⟩, ?_⟩
        rw [← List.takeWhile_append_dropWhile (p := isWord) (l := t), hword, hrest]
        simp [placeholderText]
      · cases h
    · cases h
  · rintro ⟨hword, rfl⟩
    exact readPlaceholder?_append hword.1 hword.2 rest

theorem hasPlaceholder_iff {s : List Char} :
    HasPlaceholder s ↔ ∃ t ∈ s.tails, (readPlaceholder? t).isSome = true := by
  simp only [List.mem_tails, Option.isSome_iff_exists, Prod.exists, readPlaceholder?_eq_some_iff]
  constructor
  · rintro ⟨before, word, after, hword, rfl⟩
    exact ⟨_, List.suffix_append before _, word, after, hword, rfl⟩
  · rintro ⟨t, ⟨before, rfl⟩, word, after, hword, rfl⟩
    exact ⟨before, word, after, hword, rfl⟩

instance (s : List Char) : Decidable (HasPlaceholder s) := decidable_of_iff' _ hasPlaceholder_iff

theorem straddles_iff {s t : List Char} : Straddles s t ↔
    ∃ i < s.length, ((readPlaceholder? ((s ++ t).drop i)).any fun p => p.2.length < t.length) =
      true := by
  simp only [Option.any_eq_true, Prod.exists, readPlaceholder?_eq_some_iff, decide_eq_true_eq]
  constructor
  · rintro ⟨before, word, after, hword, hst, hbefore, hafter⟩
    refine ⟨before.length, hbefore, word, after, ⟨hword, ?_⟩, hafter⟩
    rw [hst, List.drop_left]
  · rintro ⟨i, hi, word, after, ⟨hword, hdrop⟩, hafter⟩
    refine ⟨(s ++ t).take i, word, after, hword, ?_, ?_, hafter⟩
    · rw [← hdrop, List.take_append_drop]
    · rw [List.length_take, List.length_append]
      omega

instance (s t : List Char) : Decidable (Straddles s t) := decidable_of_iff' _ straddles_iff

theorem pieces_placeholder_append {word : List Char} (h : IsWordRun word) (rest : List Char) :
    pieces (placeholderText word ++ rest) = .placeholder word :: pieces rest :=
  pieces_of_readPlaceholder? (readPlaceholder?_eq_some_iff.2 ⟨h, rfl⟩)

theorem pieces_of_readPlaceholder?_eq_none {c : Char} {r : List Char}
    (h : readPlaceholder? (c :: r) = none) : pieces (c :: r) = .literal c :: pieces r := by
  rw [pieces]
  split
  · rename_i heq
    cases heq.symm.trans h
  · rfl

theorem HasPlaceholder.append_left {s : List Char} (h : HasPlaceholder s) (t : List Char) :
    HasPlaceholder (t ++ s) := by
  obtain ⟨before, word, after, hword, rfl⟩ := h
  exact ⟨t ++ before, word, after, hword, by simp⟩

theorem hasPlaceholder_of_readPlaceholder? {s word rest : List Char}
    (h : readPlaceholder? s = some (word, rest)) : HasPlaceholder s := by
  obtain ⟨hword, rfl⟩ := readPlaceholder?_eq_some_iff.1 h
  exact ⟨[], word, rest, hword, rfl⟩

theorem Straddles.append_left {s t : List Char} (h : Straddles s t) (u : List Char) :
    Straddles (u ++ s) t := by
  obtain ⟨before, word, after, hword, hst, hbefore, hafter⟩ := h
  refine ⟨u ++ before, word, after, hword, ?_, ?_, hafter⟩
  · rw [List.append_assoc, hst, List.append_assoc]
  · simpa using hbefore

theorem readPlaceholder?_append_eq_none {s t : List Char} (hs : s ≠ []) (h : ¬ Straddles s t)
    (hread : readPlaceholder? s = none) : readPlaceholder? (s ++ t) = none := by
  by_contra hsome
  obtain ⟨⟨word, rest⟩, hst⟩ := Option.ne_none_iff_exists'.1 hsome
  obtain ⟨hword, hst⟩ := readPlaceholder?_eq_some_iff.1 hst
  have hinside (more : List Char) : s ≠ placeholderText word ++ more := fun hwhole => by
    cases hread.symm.trans (readPlaceholder?_eq_some_iff.2 ⟨hword, hwhole⟩)
  rcases List.append_eq_append_iff.1 hst with ⟨more, hwhole, ht⟩ | ⟨more, hwhole, -⟩
  · cases more with
    | nil => exact hinside [] (by rw [hwhole, List.append_nil, List.append_nil])
    | cons c more =>
      refine h ⟨[], word, rest, hword, hst, List.length_pos_of_ne_nil hs, ?_⟩
      rw [ht, List.length_append, List.length_cons]
      omega
  · exact hinside more hwhole

theorem pieces_append {s t : List Char} (h : ¬ Straddles s t) :
    pieces (s ++ t) = pieces s ++ pieces t := by
  induction s using pieces.induct with
  | case1 => rw [pieces]; rfl
  | case2 c r word rest hread _ ih =>
    obtain ⟨hword, hs⟩ := readPlaceholder?_eq_some_iff.1 hread
    rw [hs] at h ⊢
    have hrest : ¬ Straddles rest t := fun hst => h (hst.append_left _)
    rw [List.append_assoc, pieces_placeholder_append hword, ih hrest,
      pieces_placeholder_append hword, List.cons_append]
  | case3 c r hread ih =>
    have hrest : ¬ Straddles r t := fun hst => h (hst.append_left [c])
    have hnone := readPlaceholder?_append_eq_none (List.cons_ne_nil c r) h hread
    rw [List.cons_append] at hnone ⊢
    rw [pieces_of_readPlaceholder?_eq_none hnone, ih hrest,
      pieces_of_readPlaceholder?_eq_none hread, List.cons_append]

theorem brace_notMem_of_isWordRun {word : List Char} (h : IsWordRun word) :
    '\x7b' ∉ word ++ ['\x7d', '\x7d'] := by
  have hbrace : isWord '\x7b' = false := by decide
  simp only [List.mem_append, List.mem_cons, List.not_mem_nil, or_false, not_or]
  refine ⟨fun hmem => ?_, by decide, by decide⟩
  simp [h.2 _ hmem] at hbrace

theorem mem_of_append_cons_eq {x : Char} {a b s t : List Char} (h : a ++ x :: b = s ++ t)
    (hlt : t.length < (x :: b).length) : x ∈ s := by
  rcases List.append_eq_append_iff.1 h with ⟨more, rfl, hrest⟩ | ⟨more, -, rfl⟩
  · cases more with
    | nil =>
      rw [hrest, List.nil_append] at hlt
      exact absurd hlt (Nat.lt_irrefl _)
    | cons y more =>
      rw [List.cons_append, List.cons.injEq] at hrest
      simp [hrest.1]
  · rw [List.length_append] at hlt
    omega

theorem not_straddles_placeholder (s word rest : List Char) :
    ¬ Straddles s (placeholderText word ++ rest) := by
  -- The first braces of the other one would stand where this one has its word.
  rintro ⟨before, other, after, hother, hst, hbefore, hafter⟩
  have hbrace := brace_notMem_of_isWordRun hother
  have hne : other ++ ['\x7d', '\x7d'] ≠ [] := by simp
  simp only [placeholderText, List.cons_append] at hst hafter
  generalize other ++ ['\x7d', '\x7d'] = tail at hst hbrace hne
  generalize word ++ ['\x7d', '\x7d'] ++ rest = t at hst hafter
  rcases List.append_eq_append_iff.1 hst with ⟨more, rfl, -⟩ | ⟨d, rfl, hmeet⟩
  · rw [List.length_append] at hbefore
    omega
  refine hbrace ?_
  rcases d with _ | ⟨c, _ | ⟨e, d⟩⟩
  · simp at hbefore
  · simp only [List.cons_append, List.nil_append, List.cons.injEq] at hmeet
    refine mem_of_append_cons_eq (a := []) (b := t) hmeet.2.2.symm ?_
    have hlength := congrArg List.length hmeet.2.2
    have := List.length_pos_of_ne_nil hne
    simp only [List.length_append, List.length_cons] at hlength ⊢
    omega
  · simp only [List.cons_append, List.cons.injEq] at hmeet
    exact mem_of_append_cons_eq hmeet.2.2.symm hafter

theorem pieces_of_not_hasPlaceholder {s : List Char} (h : ¬ HasPlaceholder s) :
    pieces s = s.map .literal := by
  induction s with
  | nil => rw [pieces]; rfl
  | cons c r ih =>
    have hread : readPlaceholder? (c :: r) = none := by
      by_contra hsome
      obtain ⟨⟨word, rest⟩, hread⟩ := Option.ne_none_iff_exists'.1 hsome
      exact h (hasPlaceholder_of_readPlaceholder? hread)
    rw [pieces_of_readPlaceholder?_eq_none hread, ih fun hr => h (hr.append_left [c]),
      List.map_cons]

theorem PartsOf.pieces_eq {s last : List Char} {marked : List (List Char × List Char)}
    (h : PartsOf s marked last) :
    pieces s = marked.flatMap (fun p => p.1.map .literal ++ [.placeholder p.2]) ++
      last.map .literal := by
  obtain ⟨rfl, hword, hplain, hlast⟩ := h
  induction marked with
  | nil => simpa using pieces_of_not_hasPlaceholder hlast
  | cons p marked ih =>
    rw [List.forall_mem_cons] at hword hplain
    simp only [List.flatMap_cons, List.append_assoc]
    rw [pieces_append (not_straddles_placeholder _ _ _), pieces_placeholder_append hword.1,
      pieces_of_not_hasPlaceholder hplain.1, ih hword.2 hplain.2]
    simp

theorem not_hasPlaceholder_nil : ¬ HasPlaceholder [] := by
  rintro ⟨before, word, after, -, h⟩
  simp [placeholderText] at h

theorem not_hasPlaceholder_cons {c : Char} {s t : List Char} (h : ¬ HasPlaceholder s)
    (hread : readPlaceholder? (c :: (s ++ t)) = none) : ¬ HasPlaceholder (c :: s) := by
  rintro ⟨before, word, after, hword, hs⟩
  cases before with
  | nil =>
    have hopens : readPlaceholder? (c :: (s ++ t)) = some (word, after ++ t) := by
      rw [readPlaceholder?_eq_some_iff, ← List.cons_append, hs]
      exact ⟨hword, by simp⟩
    cases hread.symm.trans hopens
  | cons d before =>
    rw [List.cons_append, List.cons.injEq] at hs
    exact h ⟨before, word, after, hword, hs.2⟩

theorem exists_partsOf (s : List Char) : ∃ marked last, PartsOf s marked last := by
  induction s using pieces.induct with
  | case1 => exact ⟨[], [], rfl, by simp, by simp, not_hasPlaceholder_nil⟩
  | case2 c r word rest hread _ ih =>
    obtain ⟨hword, hs⟩ := readPlaceholder?_eq_some_iff.1 hread
    obtain ⟨marked, last, htext, hwords, hplain, hlast⟩ := ih
    refine ⟨([], word) :: marked, last, ?_, List.forall_mem_cons.2 ⟨hword, hwords⟩,
      List.forall_mem_cons.2 ⟨not_hasPlaceholder_nil, hplain⟩, hlast⟩
    rw [hs, htext, List.flatMap_cons, List.nil_append, List.append_assoc]
  | case3 c r hread ih =>
    obtain ⟨marked, last, rfl, hwords, hplain, hlast⟩ := ih
    cases marked with
    | nil =>
      have hcons := not_hasPlaceholder_cons hlast (t := []) (by simpa using hread)
      exact ⟨[], c :: last, rfl, hwords, hplain, hcons⟩
    | cons p marked =>
      rw [List.forall_mem_cons] at hplain hwords
      rw [List.flatMap_cons, List.append_assoc, List.append_assoc] at hread
      refine ⟨(c :: p.1, p.2) :: marked, last, by simp, List.forall_mem_cons.2 hwords,
        List.forall_mem_cons.2 ⟨not_hasPlaceholder_cons hplain.1 hread, hplain.2⟩, hlast⟩

def gather : List Piece → List (List Char × List Char) × List Char
  | [] => ([], [])
  | .placeholder word :: ps => (([], word) :: (gather ps).1, (gather ps).2)
  | .literal c :: ps =>
    match gather ps with
    | ([], last) => ([], c :: last)
    | (p :: marked, last) => ((c :: p.1, p.2) :: marked, last)

theorem gather_literal (s : List Char) : gather (s.map .literal) = ([], s) := by
  induction s with
  | nil => rfl
  | cons c s ih => rw [List.map_cons, gather, ih]

theorem gather_literal_append (s word : List Char) (ps : List Piece) :
    gather (s.map .literal ++ .placeholder word :: ps) =
      ((s, word) :: (gather ps).1, (gather ps).2) := by
  induction s with
  | nil => rfl
  | cons c s ih => rw [List.map_cons, List.cons_append, gather, ih]

theorem PartsOf.gather_eq {s last : List Char} {marked : List (List Char × List Char)}
    (h : PartsOf s marked last) : gather (pieces s) = (marked, last) := by
  rw [h.pieces_eq]
  clear h
  induction marked with
  | nil => exact gather_literal last
  | cons p marked ih =>
    simp only [List.flatMap_cons, List.append_assoc, List.cons_append, List.nil_append]
    rw [gather_literal_append, ih]

theorem existsUnique_partsOf (s : List Char) :
    ∃! p : List (List Char × List Char) × List Char, PartsOf s p.1 p.2 := by
  obtain ⟨marked, last, h⟩ := exists_partsOf s
  exact ⟨(marked, last), h, fun p hp => hp.gather_eq.symm.trans h.gather_eq⟩

end DavQuery.Template
