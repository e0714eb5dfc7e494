import DavQuery.Proofs.Text.Split
import DavQuery.Proofs.Text.Trim
import DavQuery.Query.Reader

/-! What a line of a query can be, told of the line alone. Each kind is described by its shape and
then found to be what the reader tests for. -/

namespace DavQuery.Query
open Text

abbrev Line := List Char

def linesOf (text : String) : List Line := text.toList.splitOn '\n'

/-- The line opens a section of criteria. -/
def Opens (l : Line) : Prop := opening <+: trimChars l

/-- The trimmed line is a hyphen, a word after any white space, a colon, and something more. -/
def Lists (l : Line) (c : Criterion) : Prop :=
  ∃ gap word gap' rest, trimChars l = '-' :: (gap ++ word ++ ':' :: (gap' ++ rest)) ∧
    AllBlank gap ∧ word ≠ [] ∧ (∀ x ∈ word, isWord x = true) ∧ AllBlank gap' ∧ rest ≠ [] ∧
    c = ⟨String.ofList word, String.ofList (trimChars rest)⟩

def IsItem (l : Line) : Prop := ∃ c, Lists l c

def Closes (l : Line) : Prop :=
  ¬ AllBlank l ∧ ¬ Opens l ∧ ¬ IsItem l ∧ l.head? ≠ some ' ' ∧ l.head? ≠ some '\t' ∧
    (trimChars l).head? ≠ some '-'

/-- The line has a key and a value, parted by its first colon or, without a colon, by its first
semicolon. Neither is empty; the parts after the first are put together with colons. -/
def Splits (l : Line) (key value : String) : Prop :=
  ∃ first rest, l.splitOn (if ':' ∈ l then ':' else ';') = first :: rest ∧ rest ≠ [] ∧
    key.toList = trimChars first ∧ value.toList = trimChars ([':'].intercalate rest) ∧
    key ≠ "" ∧ value ≠ ""

theorem opening_eq : opening = ['f', 'i', 'l', 't', 'e', 'r', ':'] := by decide

theorem isOpener_iff {l : Line} : isOpener (trimChars l) = true ↔ Opens l :=
  List.isPrefixOf_iff_prefix

instance (l : Line) : Decidable (Opens l) := decidable_of_iff _ isOpener_iff

theorem not_opens_of_allBlank {l : Line} (h : AllBlank l) : ¬ Opens l := by
  rw [Opens, trimChars_eq_nil_iff.2 h, List.prefix_nil, opening_eq]
  simp

theorem takeWhile_word {word : List Char} (h : ∀ x ∈ word, isWord x = true) (rest : List Char) :
    (word ++ ':' :: rest).takeWhile isWord = word ∧
      (word ++ ':' :: rest).dropWhile isWord = ':' :: rest := by
  have hc : ¬ isWord ':' = true := by decide
  rw [List.takeWhile_append_of_pos h, List.dropWhile_append_of_pos h,
    List.takeWhile_cons_of_neg hc, List.dropWhile_cons_of_neg hc, List.append_nil]
  exact ⟨rfl, rfl⟩

theorem dropWhile_gap {gap word : List Char} (hg : AllBlank gap) (hne : word ≠ [])
    (hw : ∀ x ∈ word, isWord x = true) (rest : List Char) :
    (gap ++ word ++ rest).dropWhile isBlank = word ++ rest := by
  obtain ⟨c, r, rfl⟩ := List.exists_cons_of_ne_nil hne
  have hc : isBlank c = false := by
    cases hb : isBlank c with
    | false => rfl
    | true => simpa [hw c List.mem_cons_self] using isWord_eq_false_of_isBlank hb
  rw [List.append_assoc, List.dropWhile_append_of_pos hg, List.cons_append,
    List.dropWhile_cons_of_neg (by simp [hc])]

theorem criterionOf?_eq_some_iff {l : Line} {c : Criterion} :
    criterionOf? (trimChars l) = some c ↔ Lists l c := by
  constructor
  · intro h
    unfold criterionOf? at h
    split at h
    · rename_i r hl
      dsimp only at h
      split at h
      · rename_i x word rest hword hrest
        split at h
        · simp at h
        · rename_i hv
          have hr : rest ≠ [] := by rintro rfl; exact hv rfl
          refine ⟨r.takeWhile isBlank, x :: word, [], rest, ?_, ?_, by simp, ?_, allBlank_nil, hr,
            (Option.some.inj h).symm⟩
          · rw [hl, List.nil_append, ← hword, ← hrest, List.append_assoc,
              List.takeWhile_append_dropWhile, List.takeWhile_append_dropWhile]
          · exact fun y hy => List.mem_takeWhile_imp hy
          · exact fun y hy => List.mem_takeWhile_imp (hword ▸ hy)
      · simp at h
    · simp at h
  · rintro ⟨gap, word, gap', rest, hl, hgap, hword, hw, hgap', hrest, rfl⟩
    have hsuffix : rest <:+ trimChars l := ⟨'-' :: (gap ++ word ++ ':' :: gap'), by simp [hl]⟩
    have hv : trimChars rest ≠ [] := trimChars_ne_nil_of_suffix hsuffix hrest
    obtain ⟨x, w, rfl⟩ := List.exists_cons_of_ne_nil hword
    obtain ⟨ht, hd⟩ := takeWhile_word hw (gap' ++ rest)
    obtain ⟨y, v, hyv⟩ := List.exists_cons_of_ne_nil hv
    rw [hl, criterionOf?]
    simp only [dropWhile_gap hgap hword hw, ht, hd, trimChars_append_of_allBlank hgap', hyv]

theorem isSome_criterionOf?_iff {l : Line} :
    (criterionOf? (trimChars l)).isSome = true ↔ IsItem l := by
  simp [Option.isSome_iff_exists, criterionOf?_eq_some_iff, IsItem]

instance (l : Line) : Decidable (IsItem l) := decidable_of_iff _ isSome_criterionOf?_iff

instance (l : Line) : Decidable (Closes l) := by unfold Closes; infer_instance

theorem Lists.head {l : Line} {c : Criterion} (h : Lists l c) : (trimChars l).head? = some '-' := by
  obtain ⟨gap, word, gap', rest, hl, -⟩ := h
  simp [hl]

theorem Lists.not_opens {l : Line} {c : Criterion} (h : Lists l c) : ¬ Opens l := by
  rintro ⟨r, hr⟩
  have := h.head
  rw [← hr] at this
  exact absurd this (by simp [opening_eq])

theorem Lists.not_allBlank {l : Line} {c : Criterion} (h : Lists l c) : ¬ AllBlank l := by
  intro hb
  have := h.head
  simp [trimChars_eq_nil_iff.2 hb] at this

theorem Lists.unique {l : Line} {c d : Criterion} (h : Lists l c) (h' : Lists l d) : c = d :=
  Option.some.inj ((criterionOf?_eq_some_iff.2 h).symm.trans (criterionOf?_eq_some_iff.2 h'))

theorem IsItem.not_closes {l : Line} (h : IsItem l) : ¬ Closes l := fun hc => hc.2.2.1 h

theorem staysInside_eq_false_iff {l : Line} (hb : ¬ AllBlank l) (ho : ¬ Opens l) (hi : ¬ IsItem l) :
    staysInside l = false ↔ Closes l := by
  cases l with
  | nil => exact absurd allBlank_nil hb
  | cons c r => simp [staysInside, Closes, hb, ho, hi, and_assoc]

theorem sides?_eq_some_iff_append {l a b : Line} :
    sides? l = some (a, b) ↔ (l = a ++ ':' :: b ∧ ':' ∉ a) ∨
      ':' ∉ l ∧ ∃ r, l = a ++ ';' :: r ∧ ';' ∉ a ∧
        r.map (fun c => if c = ';' then ':' else c) = b := by
  have hcut {sep : Char} {r : Line} : cutFirst sep l = some (a, r) ↔ l = a ++ sep :: r ∧ sep ∉ a :=
    ⟨cutFirst_eq_some, fun h => h.1 ▸ cutFirst_append h.2 r⟩
  by_cases hcolon : ':' ∈ l
  · obtain ⟨p, hp⟩ := Option.ne_none_iff_exists'.1 (mt cutFirst_eq_none_iff.1 (not_not.2 hcolon))
    have hsides : sides? l = cutFirst ':' l := by rw [sides?, hp]
    simp [hsides, hcut, hcolon]
  · have hplain : ¬ (l = a ++ ':' :: b ∧ ':' ∉ a) := fun h => hcolon (by simp [h.1])
    simp only [sides?, cutFirst_eq_none_iff.2 hcolon, Option.map_eq_some_iff, Prod.exists,
      Prod.mk.injEq, hplain, hcolon, not_false_eq_true, true_and, false_or]
    constructor
    · rintro ⟨_, r, hr, rfl, hb⟩
      exact ⟨r, (hcut.1 hr).1, (hcut.1 hr).2, hb⟩
    · rintro ⟨r, hl, hmark, hb⟩
      exact ⟨a, r, hcut.2 ⟨hl, hmark⟩, rfl, hb⟩

theorem sides?_eq_some_iff {l a b : List Char} :
    sides? l = some (a, b) ↔
      ∃ first rest, l.splitOn (if ':' ∈ l then ':' else ';') = first :: rest ∧
        rest ≠ [] ∧ first = a ∧ [':'].intercalate rest = b := by
  by_cases hc : ':' ∈ l
  · obtain ⟨⟨x, y⟩, hxy⟩ := Option.ne_none_iff_exists'.1 (mt cutFirst_eq_none_iff.1 (not_not.2 hc))
    simp only [sides?, hxy, if_pos hc, Option.some.injEq, Prod.mk.injEq]
    constructor
    · rintro ⟨rfl, rfl⟩
      have hne := List.splitOn_ne_nil ':' y
      exact ⟨x, y.splitOn ':', (splitOn_eq_cons_iff hne).2 ⟨y, hxy, rfl⟩, hne, rfl,
        List.intercalate_splitOn _⟩
    · rintro ⟨first, rest, hs, hne, rfl, rfl⟩
      obtain ⟨z, hz, rfl⟩ := (splitOn_eq_cons_iff hne).1 hs
      simpa [List.intercalate_splitOn] using hxy.symm.trans hz
  · simp only [sides?, cutFirst_eq_none_iff.2 hc, if_neg hc, Option.map_eq_some_iff,
      Prod.mk.injEq]
    constructor
    · rintro ⟨⟨x, y⟩, hxy, rfl, rfl⟩
      have hne := List.splitOn_ne_nil ';' y
      exact ⟨x, y.splitOn ';', (splitOn_eq_cons_iff hne).2 ⟨y, hxy, rfl⟩, hne, rfl,
        intercalate_splitOn_eq_map _ _ _⟩
    · rintro ⟨first, rest, hs, hne, rfl, rfl⟩
      obtain ⟨z, hz, rfl⟩ := (splitOn_eq_cons_iff hne).1 hs
      exact ⟨(first, z), hz, rfl, (intercalate_splitOn_eq_map _ _ _).symm⟩

theorem headerOf?_eq_some_iff_sides {l : Line} {key value : String} :
    headerOf? l = some (key, value) ↔ ∃ a b, sides? l = some (a, b) ∧
      key.toList = trimChars a ∧ value.toList = trimChars b ∧ key ≠ "" ∧ value ≠ "" := by
  unfold headerOf?
  constructor
  · intro h
    split at h
    · rename_i c k d v hs
      obtain ⟨⟨a, b⟩, hab, e⟩ := Option.map_eq_some_iff.1 hs
      simp only [Prod.mk.injEq] at e
      simp only [Option.some.injEq, Prod.mk.injEq] at h
      obtain ⟨rfl, rfl⟩ := h
      exact ⟨a, b, hab, by simp [e.1], by simp [e.2], by simp, by simp⟩
    · simp at h
  · rintro ⟨a, b, hab, hk, hv, hk0, hv0⟩
    have hk1 : trimChars a ≠ [] := by rw [← hk]; simpa using hk0
    have hv1 : trimChars b ≠ [] := by rw [← hv]; simpa using hv0
    obtain ⟨c, k, hck⟩ := List.exists_cons_of_ne_nil hk1
    obtain ⟨d, v, hdv⟩ := List.exists_cons_of_ne_nil hv1
    simp only [hab, Option.map_some, hck, hdv]
    rw [← hck, ← hdv, ← hk, ← hv, String.ofList_toList, String.ofList_toList]

theorem headerOf?_eq_some_iff {l : Line} {key value : String} :
    headerOf? l = some (key, value) ↔ Splits l key value := by
  rw [headerOf?_eq_some_iff_sides, Splits]
  constructor
  · rintro ⟨a, b, hab, h⟩
    obtain ⟨first, rest, hs, hne, rfl, rfl⟩ := sides?_eq_some_iff.1 hab
    exact ⟨first, rest, hs, hne, h⟩
  · rintro ⟨first, rest, hs, hne, h⟩
    exact ⟨first, _, sides?_eq_some_iff.2 ⟨first, rest, hs, hne, rfl, rfl⟩, h⟩

theorem Splits.unique {l : Line} {key value key' value' : String} (h : Splits l key value)
    (h' : Splits l key' value') : key = key' ∧ value = value' := by
  have e := (headerOf?_eq_some_iff.2 h).symm.trans (headerOf?_eq_some_iff.2 h')
  simpa using e

theorem Splits.not_allBlank {l : Line} {key value : String} (h : Splits l key value) :
    ¬ AllBlank l := fun hb => by
  obtain ⟨a, b, hsides, -⟩ := headerOf?_eq_some_iff_sides.1 (headerOf?_eq_some_iff.2 h)
  rcases sides?_eq_some_iff_append.1 hsides with ⟨rfl, -⟩ | ⟨-, r, rfl, -⟩
  · exact absurd (hb ':' (by simp)) (by decide)
  · exact absurd (hb ';' (by simp)) (by decide)

end DavQuery.Query
