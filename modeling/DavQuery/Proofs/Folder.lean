import DavQuery.Folder
import DavQuery.Proofs.Text.Percent
import Mathlib.Data.List.DropRight

/-! Paths of folders and files. A path of something is a path of something once its escapes are read
and the person's root is left out, and it ends with no slash unless it is the root. -/

namespace DavQuery

namespace Folder
open Text

theorem getLast?_dropSlashes (s : List Char) : (dropSlashes s).getLast? ≠ some '/' := by
  intro h
  have hne : dropSlashes s ≠ [] := by
    rintro e
    simp [e] at h
  have hlast : ¬ ((dropSlashes s).getLast hne == '/') = true :=
    List.rdropWhile_last_not (· == '/') s hne
  rw [List.getLast?_eq_getLast_of_ne_nil hne, Option.some.injEq] at h
  exact hlast (beq_iff_eq.2 h)

theorem belowRoot_ne_nil {path : List Char} (h : path ≠ []) : belowRoot path ≠ [] := by
  unfold belowRoot
  split
  · split
    · simp
    · exact h
  · exact h

theorem closeChars_eq_or {s : List Char} (h : s ≠ []) :
    closeChars s = ['/'] ∨ closeChars s ≠ [] ∧ (closeChars s).getLast? ≠ some '/' := by
  unfold closeChars
  split_ifs with hroot hempty
  · exact .inl hroot
  · exact .inl rfl
  · have hne : dropSlashes s ≠ [] := by
      simpa [h] using hempty
    exact .inr ⟨hne, getLast?_dropSlashes s⟩

theorem relativeChars_eq_or {path : List Char} (h : path ≠ []) :
    relativeChars path = ['/'] ∨
      relativeChars path ≠ [] ∧ (relativeChars path).getLast? ≠ some '/' :=
  closeChars_eq_or (belowRoot_ne_nil (Percent.decode_ne_nil h))

end Folder

end DavQuery
