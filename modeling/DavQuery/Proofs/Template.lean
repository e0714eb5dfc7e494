import DavQuery.Proofs.Text.Split
import DavQuery.Template

/-! Placeholders in templates. A word in two pairs of braces is read as one placeholder, whatever
follows it, and alone it shows the value of its token. -/

namespace DavQuery.Template
open Calendar Text

theorem readPlaceholder?_append {word : List Char} (hne : word ≠ [])
    (hword : ∀ c ∈ word, isWord c = true) (rest : List Char) :
    readPlaceholder? (placeholderText word ++ rest) = some (word, rest) := by
  obtain ⟨c, r, rfl⟩ := List.exists_cons_of_ne_nil hne
  have hclose : isWord '\x7d' = false := by decide
  obtain ⟨htake, hdrop⟩ := span_append_of_head (s := '\x7d' :: '\x7d' :: rest) hword
    fun d hd => by cases hd; exact hclose
  simp only [placeholderText, List.cons_append, List.append_assoc, List.nil_append] at htake hdrop ⊢
  simp only [readPlaceholder?, htake, hdrop]

theorem pieces_of_readPlaceholder? {s word rest : List Char}
    (h : readPlaceholder? s = some (word, rest)) : pieces s = .placeholder word :: pieces rest := by
  cases s with
  | nil => simp [readPlaceholder?] at h
  | cons c r =>
    rw [pieces]
    split
    · rename_i heq
      obtain ⟨rfl, rfl⟩ := Prod.mk.inj (Option.some.inj (heq.symm.trans h))
      rfl
    · rename_i heq
      cases heq.symm.trans h

theorem expand_placeholder {word : List Char} {token : Token}
    (htoken : Token.ofWord? (String.ofList word) = some token) (hne : word ≠ [])
    (hword : ∀ c ∈ word, isWord c = true) (zone : Zone) (r : Record) :
    expand zone (String.ofList (placeholderText word)) r = token.value zone r := by
  have hpieces := pieces_of_readPlaceholder? (readPlaceholder?_append hne hword [])
  rw [List.append_nil, pieces] at hpieces
  have hshown : (String.ofList (placeholderText word)).isEmpty = false := by
    simp [placeholderText]
  simp only [expand, hshown, Bool.false_eq_true, if_false, String.toList_ofList, hpieces,
    expandPieces, Piece.expand, htoken]
  cases token.value zone r <;> simp [Except.map, bind, Except.bind, pure, Except.pure]

theorem expandPieces_congr {zone : Zone} {r r' : Record} {ps : List Piece}
    (h : ∀ p ∈ ps, p.expand zone r = p.expand zone r') :
    expandPieces zone r ps = expandPieces zone r' ps := by
  induction ps with
  | nil => rfl
  | cons p ps ih =>
    rw [List.forall_mem_cons] at h
    rw [expandPieces, expandPieces, h.1, ih h.2]

end DavQuery.Template
