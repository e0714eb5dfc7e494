import DavQuery.Client
import DavQuery.Proofs.Folder
import DavQuery.Proofs.Text.Percent
import DavQuery.Proofs.Text.Split

/-! The path of a folder in an address. All spellings of a folder that differ only in the slashes at
their ends have one path, and the path tells the folder: reading its escapes gives the folder
back. -/

namespace DavQuery

namespace Folder
open Text

/-- A text with no slash at either end. -/
def Bare (s : List Char) : Prop := s.head? ≠ some '/' ∧ s.getLast? ≠ some '/'

theorem dropSlashes_eq_self {s : List Char} (h : s.getLast? ≠ some '/') : dropSlashes s = s := by
  refine List.rdropWhile_eq_self_iff.2 fun hne hlast => ?_
  rw [beq_iff_eq] at hlast
  exact h (by rw [List.getLast?_eq_getLast_of_ne_nil hne, hlast])

theorem dropSlashes_append_replicate {s : List Char} (h : s.getLast? ≠ some '/') (n : Nat) :
    dropSlashes (s ++ List.replicate n '/') = s := by
  induction n with
  | zero => rw [List.replicate_zero, List.append_nil, dropSlashes_eq_self h]
  | succ n ih =>
    rw [List.replicate_succ', ← List.append_assoc]
    exact (List.rdropWhile_concat_pos (· == '/') _ '/' (by simp)).trans ih

theorem dropWhile_replicate_append {s : List Char} (h : s.head? ≠ some '/') (m : Nat) :
    (List.replicate m '/' ++ s).dropWhile (· == '/') = s := by
  induction m with
  | zero =>
    cases s with
    | nil => rfl
    | cons c r =>
      have hc : ¬ (c == '/') = true := by simpa using h
      exact List.dropWhile_cons_of_neg hc
  | succ m ih => simpa [List.replicate_succ] using ih

theorem eq_replicate_of_forall {s : List Char} (h : ∀ c ∈ s, (c == '/') = true) :
    s = List.replicate s.length '/' :=
  List.eq_replicate_of_mem fun c hc => beq_iff_eq.1 (h c hc)

theorem head?_dropWhile_slash (s : List Char) :
    (s.dropWhile (· == '/')).head? ≠ some '/' := by
  intro h
  simpa [h] using List.head?_dropWhile_not (· == '/') s

theorem bare_trimSlashes (s : List Char) : Bare (trimSlashes s) := by
  refine ⟨fun h => ?_, getLast?_dropSlashes _⟩
  obtain ⟨t, ht⟩ := List.rdropWhile_prefix (· == '/') (s.dropWhile (· == '/'))
  have hhead : (trimSlashes s ++ t).head? = some '/' := by rw [List.head?_append, h, Option.some_or]
  exact head?_dropWhile_slash s (ht ▸ hhead)

theorem exists_eq_trimSlashes (s : List Char) :
    ∃ m n, s = List.replicate m '/' ++ trimSlashes s ++ List.replicate n '/' := by
  have hbefore := eq_replicate_of_forall (s := s.takeWhile (· == '/'))
    fun c hc => List.mem_takeWhile_imp (p := (· == '/')) hc
  have hbehind := eq_replicate_of_forall (s := (s.dropWhile (· == '/')).rtakeWhile (· == '/'))
    fun c hc => List.mem_rtakeWhile_imp (p := (· == '/')) hc
  have hcore : s.dropWhile (· == '/') =
      trimSlashes s ++ (s.dropWhile (· == '/')).rtakeWhile (· == '/') :=
    (List.rdropWhile_append_rtakeWhile ..).symm
  refine ⟨(s.takeWhile (· == '/')).length,
    ((s.dropWhile (· == '/')).rtakeWhile (· == '/')).length, ?_⟩
  rw [← hbefore, ← hbehind, List.append_assoc, ← hcore, List.takeWhile_append_dropWhile]

theorem trimSlashes_of_bare {s : List Char} (h : Bare s) (m n : Nat) :
    trimSlashes (List.replicate m '/' ++ s ++ List.replicate n '/') = s := by
  cases s with
  | nil =>
    have hall : List.replicate m '/' ++ [] ++ List.replicate n '/' =
        List.replicate (m + n) '/' ++ [] := by simp
    rw [hall, trimSlashes, dropWhile_replicate_append (by simp)]
    rfl
  | cons c r =>
    have hhead : (c :: r ++ List.replicate n '/').head? ≠ some '/' := h.1
    rw [List.append_assoc, trimSlashes, dropWhile_replicate_append hhead,
      dropSlashes_append_replicate h.2]

theorem trimSlashes_cons_slash (s : List Char) : trimSlashes ('/' :: s) = trimSlashes s := rfl

theorem trimSlashes_dropSlashes (s : List Char) : trimSlashes (dropSlashes s) = trimSlashes s := by
  obtain ⟨m, n, hs⟩ := exists_eq_trimSlashes s
  have hbare := bare_trimSlashes s
  generalize trimSlashes s = core at hs hbare
  have hlast : core ≠ [] → (List.replicate m '/' ++ core).getLast? ≠ some '/' := fun hcore => by
    rw [List.getLast?_append_of_ne_nil _ hcore]
    exact hbare.2
  rw [hs]
  by_cases hcore : core = []
  · have hall : List.replicate m '/' ++ core ++ List.replicate n '/' =
        [] ++ List.replicate (m + n) '/' := by simp [hcore]
    rw [hall, dropSlashes_append_replicate (by simp), hcore]
    rfl
  · have htrim := trimSlashes_of_bare hbare m 0
    rw [List.replicate_zero, List.append_nil] at htrim
    rw [dropSlashes_append_replicate (hlast hcore), htrim]

theorem trimSlashes_closeChars (s : List Char) : trimSlashes (closeChars s) = trimSlashes s := by
  unfold closeChars
  split_ifs with hroot hempty
  · rfl
  · have hnil : dropSlashes s = [] := by
      rw [Bool.and_eq_true, List.isEmpty_iff] at hempty
      exact hempty.1
    rw [← trimSlashes_dropSlashes s, hnil]
    rfl
  · exact trimSlashes_dropSlashes s

theorem closeChars_eq_self {s : List Char} (h : s = ['/'] ∨ s ≠ [] ∧ s.getLast? ≠ some '/') :
    closeChars s = s := by
  unfold closeChars
  rcases h with rfl | ⟨-, hlast⟩
  · rfl
  · rw [dropSlashes_eq_self hlast]
    simp

theorem head?_closeChars {s : List Char} (h : s.head? = some '/') :
    (closeChars s).head? = some '/' := by
  unfold closeChars
  split_ifs with hroot hempty
  · exact h
  · rfl
  · have hne : dropSlashes s ≠ [] := fun hnil => by
      rw [hnil] at hempty
      cases s <;> simp at h hempty
    obtain ⟨t, ht⟩ := List.rdropWhile_prefix (· == '/') s
    change dropSlashes s ++ t = s at ht
    rwa [← ht, List.head?_append_of_ne_nil _ hne] at h

theorem head?_normalizeChars (s : List Char) : (normalizeChars s).head? = some '/' := by
  unfold normalizeChars
  split_ifs with h
  · exact head?_closeChars h
  · exact head?_closeChars rfl

theorem trimSlashes_normalizeChars (s : List Char) :
    trimSlashes (normalizeChars s) = trimSlashes s := by
  rw [normalizeChars, trimSlashes_closeChars]
  split_ifs
  · rfl
  · exact trimSlashes_cons_slash s

theorem normalizeChars_eq_or (s : List Char) : normalizeChars s = ['/'] ∨
    normalizeChars s ≠ [] ∧ (normalizeChars s).getLast? ≠ some '/' := by
  refine closeChars_eq_or ?_
  split_ifs with h
  · rintro rfl
    simp at h
  · simp

theorem normalizeChars_normalizeChars (s : List Char) :
    normalizeChars (normalizeChars s) = normalizeChars s := by
  rw [normalizeChars, if_pos (head?_normalizeChars s), closeChars_eq_self (normalizeChars_eq_or s)]

def IsPathPlain (c : Char) : Prop := c = '/' ∨ Percent.isUnreserved c = true

instance : DecidablePred IsPathPlain := fun _ => inferInstanceAs (Decidable (_ ∨ _))

/-- The text holds slashes, unreserved characters and escapes with capital digits, and nothing
else. -/
inductive IsEscaped : List Char → Prop
  | nil : IsEscaped []
  | plain {c : Char} {s : List Char} : IsPathPlain c → IsEscaped s → IsEscaped (c :: s)
  | escape {x y : Char} {s : List Char} : x ∈ "0123456789ABCDEF".toList →
      y ∈ "0123456789ABCDEF".toList → IsEscaped s → IsEscaped ('%' :: x :: y :: s)

theorem IsEscaped.append {s t : List Char} (hs : IsEscaped s) (ht : IsEscaped t) :
    IsEscaped (s ++ t) := by
  induction hs with
  | nil => exact ht
  | plain hc _ ih => exact .plain hc ih
  | escape hx hy _ ih => exact .escape hx hy ih

theorem capitalDigit_mem {n : Nat} (h : n < 16) :
    n.digitChar.toUpper ∈ "0123456789ABCDEF".toList := by
  revert n
  decide

theorem isEscaped_flatMap_escape (bs : List UInt8) : IsEscaped (bs.flatMap Percent.escape) := by
  induction bs with
  | nil => exact .nil
  | cons b bs ih =>
    exact .escape (capitalDigit_mem (Nat.mod_lt _ (by decide)))
      (capitalDigit_mem (Nat.mod_lt _ (by decide))) ih

theorem isEscaped_encode (s : List Char) : IsEscaped (Percent.encode s) := by
  induction s with
  | nil => exact .nil
  | cons c r ih =>
    rw [Percent.encode, List.flatMap_cons, ← Percent.encode]
    split_ifs with hc
    · exact .plain (.inr hc) ih
    · exact (isEscaped_flatMap_escape _).append ih

theorem urlPathChars_eq (s : List Char) : urlPathChars s =
    ((trimSlashes s).splitOn '/').flatMap fun part => '/' :: Percent.encode part := by
  unfold urlPathChars
  split
  · rename_i h
    rw [h]
    rfl
  · rfl

theorem exists_urlPathChars_eq_cons (s : List Char) : ∃ r, urlPathChars s = '/' :: r := by
  obtain ⟨part, parts, hparts⟩ :=
    List.exists_cons_of_ne_nil (List.splitOn_ne_nil '/' (trimSlashes s))
  rw [urlPathChars_eq, hparts, List.flatMap_cons]
  exact ⟨_, rfl⟩

theorem isEscaped_urlPathChars (s : List Char) : IsEscaped (urlPathChars s) := by
  rw [urlPathChars_eq]
  induction (trimSlashes s).splitOn '/' with
  | nil => exact .nil
  | cons part parts ih =>
    rw [List.flatMap_cons]
    exact .plain (.inl rfl) ((isEscaped_encode part).append ih)

theorem spells_urlPathChars (s : List Char) :
    Percent.Spells IsPathPlain ('/' :: trimSlashes s) (urlPathChars s) := by
  rw [urlPathChars_eq, ← flatMap_cons_splitOn]
  induction (trimSlashes s).splitOn '/' with
  | nil => exact .nil
  | cons part parts ih =>
    have hpart := (Percent.spells_encode part).mono fun c hc => (.inr hc : IsPathPlain c)
    exact .plain (.inl rfl) (hpart.append ih)

theorem decode_urlPathChars (s : List Char) :
    Percent.decode (urlPathChars s) = '/' :: trimSlashes s :=
  (spells_urlPathChars s).decode_eq (by decide)

end Folder

namespace Client
open Folder

variable {κ : Type}

theorem folderUrl_eq (c : Client κ) (folder : String) : c.folderUrl folder =
    c.baseUrl ++ RawText.ofChars (urlPathChars (normalizeChars folder.toList)) := by
  simp [folderUrl, RawText.ofString, urlPath, Folder.normalize]

theorem urlPathChars_congr {s t : List Char} (h : trimSlashes s = trimSlashes t) :
    urlPathChars s = urlPathChars t := by
  rw [urlPathChars_eq, urlPathChars_eq, h]

theorem folderUrl_eq_iff {c : Client κ} {f g : String} :
    c.folderUrl f = c.folderUrl g ↔ trimSlashes f.toList = trimSlashes g.toList := by
  rw [folderUrl_eq, folderUrl_eq, List.append_cancel_left_eq, RawText.ofChars_inj]
  constructor
  · intro h
    have hread := congrArg Text.Percent.decode h
    rw [decode_urlPathChars, decode_urlPathChars, List.cons.injEq, trimSlashes_normalizeChars,
      trimSlashes_normalizeChars] at hread
    exact hread.2
  · intro h
    apply urlPathChars_congr
    rw [trimSlashes_normalizeChars, trimSlashes_normalizeChars, h]

/-- Two folders have one address exactly if they differ in slashes at their ends only. The path in
it is escaped, and tells the folder; the one form of a folder has the same address. -/
theorem folderUrl_lossless (c : Client κ) (f g : String) :
    (c.folderUrl f = c.folderUrl g ↔ trimSlashes f.toList = trimSlashes g.toList) ∧
    Text.Percent.decode (urlPath f).toList = '/' :: trimSlashes f.toList ∧
    IsEscaped (urlPath f).toList ∧
    Folder.normalize (some (Folder.normalize (some f))) = Folder.normalize (some f) ∧
    (Folder.normalize (some f)).toList.head? = some '/' ∧
    ((Folder.normalize (some f)).toList.getLast? = some '/' → Folder.normalize (some f) = "/") ∧
    c.folderUrl (Folder.normalize (some f)) = c.folderUrl f := by
  have htext : (Folder.normalize (some f)).toList = normalizeChars f.toList := by
    simp [Folder.normalize]
  have htrim : trimSlashes (Folder.normalize (some f)).toList = trimSlashes f.toList := by
    rw [htext, trimSlashes_normalizeChars]
  refine ⟨folderUrl_eq_iff, ?_, ?_, ?_, ?_, fun hlast => ?_, folderUrl_eq_iff.2 htrim⟩
  · rw [urlPath, String.toList_ofList, decode_urlPathChars]
  · rw [urlPath, String.toList_ofList]
    exact isEscaped_urlPathChars f.toList
  · rw [← String.toList_inj, htext, Folder.normalize, String.toList_ofList, Option.getD_some, htext,
      normalizeChars_normalizeChars]
  · rw [htext, head?_normalizeChars]
  · rw [htext] at hlast
    obtain hroot | ⟨-, hother⟩ := normalizeChars_eq_or f.toList
    · rw [← String.toList_inj, htext, hroot]
      rfl
    · exact absurd hlast hother

end Client

end DavQuery
