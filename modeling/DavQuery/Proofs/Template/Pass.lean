import DavQuery.Proofs.Breach
import DavQuery.Proofs.Template.Parts

/-! Templates are written in one pass from left to right. The texts between the placeholders are
shown as they are, and each placeholder as it is alone; what a value brings with it is not looked at
again. Templates put together show what each of them shows, unless a placeholder comes about where
they meet. -/

namespace DavQuery.Template
open Calendar Text

/-- A plain text with what the placeholder behind it shows alone. -/
def expandMarked (zone : Zone) (r : Record) (p : List Char × List Char) :
    Except Breach (List Char) := do
  let value ← expand zone (String.ofList (placeholderText p.2)) r
  pure (p.1 ++ value.toList)

section
variable (zone : Zone) (r : Record)

theorem expandPieces_append (ps qs : List Piece) :
    expandPieces zone r (ps ++ qs) = (do
      let a ← expandPieces zone r ps
      let b ← expandPieces zone r qs
      pure (a ++ b)) := by
  induction ps with
  | nil =>
    rw [List.nil_append, expandPieces]
    cases expandPieces zone r qs <;> rfl
  | cons p ps ih =>
    rw [List.cons_append, expandPieces, expandPieces, ih]
    simp only [bind_assoc, pure_bind, List.append_assoc]

theorem expandPieces_literal (s : List Char) : expandPieces zone r (s.map .literal) = .ok s := by
  induction s with
  | nil => rfl
  | cons c s ih =>
    rw [List.map_cons, expandPieces, ih]
    rfl

theorem expand_of_ne_empty {t : String} (h : t ≠ "") :
    expand zone t r = (expandPieces zone r (pieces t.toList)).map String.ofList := by
  rw [expand, if_neg (by simpa using h)]

theorem expand_placeholderText {word : List Char} (h : IsWordRun word) :
    expand zone (String.ofList (placeholderText word)) r =
      ((Piece.placeholder word).expand zone r).map String.ofList := by
  have hne : String.ofList (placeholderText word) ≠ "" := by simp [placeholderText]
  have hpieces := pieces_placeholder_append h []
  rw [List.append_nil] at hpieces
  rw [expand_of_ne_empty zone r hne, String.toList_ofList, hpieces, pieces, expandPieces]
  cases (Piece.placeholder word).expand zone r with
  | error b => rfl
  | ok text => simp [expandPieces, bind, Except.bind, pure, Except.pure, Except.map]

theorem expand_unknown {word : List Char} (h : IsWordRun word)
    (hword : ∀ token, (String.ofList word, token) ∉ Token.words) :
    expand zone (String.ofList (placeholderText word)) r =
      .ok (String.ofList (placeholderText word)) := by
  have hnone : Token.ofWord? (String.ofList word) = none := by
    by_contra hsome
    obtain ⟨token, htoken⟩ := Option.ne_none_iff_exists'.1 hsome
    exact hword token (Token.ofWord?_eq_some_iff.1 htoken)
  rw [expand_placeholderText zone r h, Piece.expand]
  simp only [hnone]
  rfl

theorem expand_append {t u : String} (ht : t ≠ "") (hu : u ≠ "")
    (h : ¬ Straddles t.toList u.toList) :
    expand zone (t ++ u) r = (do
      let a ← expand zone t r
      let b ← expand zone u r
      pure (a ++ b)) := by
  have htu : t ++ u ≠ "" := by simp [ht]
  rw [expand_of_ne_empty zone r ht, expand_of_ne_empty zone r hu, expand_of_ne_empty zone r htu,
    String.toList_append, pieces_append h, expandPieces_append]
  cases expandPieces zone r (pieces t.toList) with
  | error b => rfl
  | ok a =>
    cases expandPieces zone r (pieces u.toList) with
    | error b => rfl
    | ok b => exact congrArg Except.ok String.ofList_append

theorem expandPieces_marked {marked : List (List Char × List Char)} (last : List Char)
    (h : ∀ p ∈ marked, IsWordRun p.2) :
    expandPieces zone r (marked.flatMap (fun p => p.1.map .literal ++ [.placeholder p.2]) ++
        last.map .literal) = (do
      let shown ← marked.mapM (expandMarked zone r)
      pure (shown.flatten ++ last)) := by
  induction marked with
  | nil => exact expandPieces_literal zone r last
  | cons p marked ih =>
    rw [List.forall_mem_cons] at h
    simp only [List.flatMap_cons, List.append_assoc, List.singleton_append]
    rw [expandPieces_append, expandPieces_literal, List.cons_append, expandPieces, ih h.2,
      List.mapM_cons, expandMarked, expand_placeholderText zone r h.1]
    cases (Piece.placeholder p.2).expand zone r with
    | error b => rfl
    | ok text =>
      cases marked.mapM (expandMarked zone r) with
      | error b => rfl
      | ok shown => simp [Except.map, bind, Except.bind, pure, Except.pure]

theorem expand_of_partsOf {t : String} (ht : t ≠ "") {marked : List (List Char × List Char)}
    {last : List Char} (h : PartsOf t.toList marked last) :
    expand zone t r = (do
      let shown ← marked.mapM (expandMarked zone r)
      pure (String.ofList (shown.flatten ++ last))) := by
  rw [expand_of_ne_empty zone r ht, h.pieces_eq, expandPieces_marked zone r last h.isWordRun]
  cases marked.mapM (expandMarked zone r) <;> rfl

theorem expand_of_not_hasPlaceholder {t : String} (ht : t ≠ "") (h : ¬ HasPlaceholder t.toList) :
    expand zone t r = .ok t := by
  rw [expand_of_ne_empty zone r ht, pieces_of_not_hasPlaceholder h, expandPieces_literal]
  exact congrArg Except.ok String.ofList_toList

theorem expand_token {word : List Char} {token : Token}
    (h : (String.ofList word, token) ∈ Token.words) :
    expand zone (String.ofList (placeholderText word)) r = token.value zone r := by
  have hwords : ∀ p ∈ Token.words, IsWordRun p.1.toList := by decide
  have hword := hwords _ h
  rw [String.toList_ofList] at hword
  exact expand_placeholder (Token.ofWord?_eq_some_iff.2 h) hword.1 hword.2 zone r

end

/-- A template is written in one pass. Without a placeholder it is shown as it is; a placeholder
shows the value of its token, or itself if it has none; and templates put together show what each of
them shows, unless a placeholder comes about where they meet. So every template is parted by its
placeholders in one way, and shows the texts between them and the values, each as it is, or breaks
where the first of the values does. -/
theorem expand_in_one_pass (zone : Zone) (r : Record) :
    (∀ t : String, t ≠ "" → ¬ HasPlaceholder t.toList → expand zone t r = .ok t) ∧
    (∀ word token, (String.ofList word, token) ∈ Token.words →
      expand zone (String.ofList (placeholderText word)) r = token.value zone r) ∧
    (∀ word, IsWordRun word → (∀ token, (String.ofList word, token) ∉ Token.words) →
      expand zone (String.ofList (placeholderText word)) r =
        .ok (String.ofList (placeholderText word))) ∧
    (∀ t u : String, t ≠ "" → u ≠ "" → ¬ Straddles t.toList u.toList →
      expand zone (t ++ u) r = (do
        let a ← expand zone t r
        let b ← expand zone u r
        pure (a ++ b))) ∧
    ∀ t : String, t ≠ "" →
      (∃! p : List (List Char × List Char) × List Char, PartsOf t.toList p.1 p.2) ∧
      ∀ marked last, PartsOf t.toList marked last →
        expand zone t r = (do
          let shown ← marked.mapM (expandMarked zone r)
          pure (String.ofList (shown.flatten ++ last))) := by
  refine ⟨fun t ht h => expand_of_not_hasPlaceholder zone r ht h,
    fun word token h => expand_token zone r h, fun word hword h => expand_unknown zone r hword h,
    fun t u ht hu h => expand_append zone r ht hu h,
    fun t ht => ⟨existsUnique_partsOf t.toList, ?_⟩⟩
  intro marked last h
  exact expand_of_partsOf zone r ht h

theorem expand_in_one_pass_braces :
    let zone : Zone := .utc
    let r : Record := { name := "\x7b\x7bowner\x7d\x7d.txt", owner := "mallory" }
    let broken := "\x7b\x7ba\x7d\x7bb\x7d\x7d"
    let left := "\x7b\x7b\x7bname\x7d\x7d"
    let right := "\x7d \x7b\x7b\x7b\x7bowner\x7d\x7d"
    ¬ HasPlaceholder broken.toList ∧ expand zone broken r = .ok broken ∧
      ("owner", Token.owner) ∈ Token.words ∧
      expand zone (String.ofList (placeholderText "owner".toList)) r = .ok "mallory" ∧
      IsWordRun "Owner".toList ∧ (∀ token, (String.ofList "Owner".toList, token) ∉ Token.words) ∧
      expand zone (String.ofList (placeholderText "Owner".toList)) r =
        .ok (String.ofList (placeholderText "Owner".toList)) ∧
      ¬ Straddles left.toList right.toList ∧
      expand zone (left ++ right) r =
        .ok "\x7b\x7b\x7bowner\x7d\x7d.txt\x7d \x7b\x7bmallory" ∧
      PartsOf left.toList [(['\x7b'], "name".toList)] [] ∧
      expand zone left r = .ok "\x7b\x7b\x7bowner\x7d\x7d.txt" := by
  intro zone r broken left right
  have hbroken : ¬ HasPlaceholder broken.toList := by decide +kernel
  have hmeet : ¬ Straddles left.toList right.toList := by decide +kernel
  have hcapital : IsWordRun "Owner".toList := by decide
  have hnone (token : Token) : (String.ofList "Owner".toList, token) ∉ Token.words := by
    simp [Token.words]
  have hleft : PartsOf left.toList [(['\x7b'], "name".toList)] [] :=
    ⟨by decide, by decide, by decide, by decide⟩
  have hright : PartsOf right.toList [("\x7d \x7b\x7b".toList, "owner".toList)] [] :=
    ⟨by decide, by decide, by decide, by decide⟩
  obtain ⟨hplain, htoken, hunknown, happend, hparts⟩ := expand_in_one_pass zone r
  have hfirst : expand zone left r = .ok "\x7b\x7b\x7bowner\x7d\x7d.txt" := by
    rw [(hparts left (by decide)).2 _ _ hleft]
    decide +kernel
  have hsecond : expand zone right r = .ok "\x7d \x7b\x7bmallory" := by
    rw [(hparts right (by decide)).2 _ _ hright]
    decide +kernel
  refine ⟨hbroken, hplain broken (by decide) hbroken, by decide,
    htoken "owner".toList .owner (by decide), hcapital, hnone,
    hunknown "Owner".toList hcapital hnone, hmeet, ?_, hleft, hfirst⟩
  rw [happend left right (by decide) (by decide) hmeet, hfirst, hsecond]
  decide +kernel

end DavQuery.Template
