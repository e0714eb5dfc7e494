import DavQuery.Proofs.Text.Split
import DavQuery.Proofs.Text.Trim

/-! The words of a text. White space parts them and belongs to none, so that a text whose parts are
set off by it has the words of its parts. -/

namespace DavQuery.Text

theorem words_append_cons {c : Char} (hc : isBlank c = true) (a b : List Char) :
    words (a ++ c :: b) = words a ++ words b := by
  rw [words, List.splitOnP_append_cons a b hc, List.filter_append, words, words]

theorem words_cons {c : Char} (hc : isBlank c = true) (s : List Char) : words (c :: s) = words s :=
  words_append_cons hc [] s

theorem words_of_notBlank {w : List Char} (h0 : w ≠ []) (h : ∀ c ∈ w, isBlank c = false) :
    words w = [w] := by
  rw [words, List.splitOnP_eq_singleton h]
  simp [h0]

theorem words_intercalate {ws : List (List Char)}
    (h : ∀ w ∈ ws, w ≠ [] ∧ ∀ c ∈ w, isBlank c = false) : words ([' '].intercalate ws) = ws := by
  induction ws with
  | nil => rfl
  | cons w ws ih =>
    rw [List.forall_mem_cons] at h
    have hw := words_of_notBlank h.1.1 h.1.2
    cases ws with
    | nil => simpa using hw
    | cons w' ws =>
      rw [List.intercalate_cons_cons, List.append_assoc, List.singleton_append,
        words_append_cons (by decide), hw, ih h.2]
      rfl

theorem words_append_of_allBlank {a : List Char} (h : AllBlank a) (s : List Char) :
    words (a ++ s) = words s := by
  induction a with
  | nil => rfl
  | cons c r ih =>
    rw [AllBlank, List.forall_mem_cons] at h
    rw [List.cons_append, words_cons h.1, ih h.2]

theorem words_append_right_of_allBlank {b : List Char} (h : AllBlank b) (s : List Char) :
    words (s ++ b) = words s := by
  cases b with
  | nil => rw [List.append_nil]
  | cons c r =>
    rw [AllBlank, List.forall_mem_cons] at h
    have hr := words_append_of_allBlank h.2 []
    rw [List.append_nil] at hr
    rw [words_append_cons h.1, hr]
    exact List.append_nil _

theorem words_trimChars (s : List Char) : words (trimChars s) = words s := by
  obtain ⟨b, hb, hdrop⟩ := exists_dropWhile_eq s
  have hblank : AllBlank (s.takeWhile isBlank) := fun c hc => List.mem_takeWhile_imp hc
  calc words (trimChars s)
      = words (s.takeWhile isBlank ++ s.dropWhile isBlank) := by
        rw [words_append_of_allBlank hblank, hdrop, words_append_right_of_allBlank hb]
    _ = words s := by rw [List.takeWhile_append_dropWhile]

theorem words_ne_nil {s : List Char} (h : trimChars s ≠ []) : words s ≠ [] := by
  obtain ⟨c, r, hs⟩ := List.exists_cons_of_ne_nil h
  have hc : isBlank c = false := (trimmed_trimChars s).1 c (by rw [hs]; rfl)
  obtain ⟨first, rest, hr⟩ := List.exists_cons_of_ne_nil (List.splitOnP_ne_nil isBlank r)
  rw [← words_trimChars, hs, words, List.splitOnP_cons_eq_if_modifyHead, hr, hc]
  simp

theorem mem_words {w s : List Char} (h : w ∈ words s) :
    w ≠ [] ∧ ∀ c ∈ w, c ∈ s ∧ isBlank c = false := by
  rw [words, List.mem_filter, decide_eq_true_eq] at h
  exact ⟨h.2, mem_of_mem_splitOnP h.1⟩

end DavQuery.Text
