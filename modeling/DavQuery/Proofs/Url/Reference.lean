import DavQuery.Proofs.Text.Split
import DavQuery.Url.Reference
import Mathlib.Data.List.TakeWhile

/-! Which references are refused. The host of a reference is what follows two slashes, after a
scheme or at the start, up to the next mark. A reference is refused exactly if its host has brackets
that do not stand around a number, or a character that is written out with one of the marks. -/

namespace DavQuery.Url.Reference
open Text

def EndsHost (c : Char) : Prop := c = '/' ∨ c = '?' ∨ c = '#'

instance : DecidablePred EndsHost := fun _ => inferInstanceAs (Decidable (_ ∨ _))

def IsSchemePart (s : List Char) : Prop :=
  s = [] ∨ ∃ c r, s = c :: r ++ [':'] ∧ c.isAlpha = true ∧ ∀ x ∈ r, isSchemeChar x = true

/-- The host stands in the reference: after two slashes, and up to the end or the next mark. -/
def Hosts (s host : List Char) : Prop :=
  ∃ before after, clean s = before ++ '/' :: '/' :: host ++ after ∧ IsSchemePart before ∧
    (∀ c ∈ host, ¬ EndsHost c) ∧ ∀ c, after.head? = some c → EndsHost c

def inside (host : List Char) : List Char :=
  ((host.dropWhile (· ≠ '[')).drop 1).takeWhile (· ≠ ']')

inductive Doubtful (host : List Char) : Prop
  | unclosed : '[' ∈ host → ']' ∉ host → Doubtful host
  | unopened : ']' ∈ host → '[' ∉ host → Doubtful host
  | noNumber : '[' ∈ host → ']' ∈ host → isBracketed (inside host) = false → Doubtful host
  | disguised {c : Char} : c ∈ host → c.toNat ∈ disguised → Doubtful host

def afterScheme (s : List Char) : List Char := ((spanScheme s).getD ([], s)).2

theorem read?_eq_none_iff_isHost {s : List Char} :
    read? s = none ↔ isHost (spanHost (afterScheme (clean s))).1 = false := by
  unfold read? readWith? afterScheme
  dsimp only
  split_ifs with h
  · simp [h]
  · simp [h]

theorem not_doubtful_nil : ¬ Doubtful [] := by
  rintro (h | h | h | h) <;> simp at h

theorem cutFirst_eq_takeWhile {sep : Char} {s : List Char} (h : sep ∈ s) :
    cutFirst sep s = some (s.takeWhile (· ≠ sep), (s.dropWhile (· ≠ sep)).drop 1) := by
  induction s with
  | nil => simp at h
  | cons c r ih =>
    by_cases hc : c = sep
    · simp [cutFirst, hc]
    · have hr : sep ∈ r := by simpa [Ne.symm hc] using h
      simp [cutFirst, hc, ih hr]

theorem takeWhile_eq_getD_cutFirst (sep : Char) (s : List Char) :
    ((cutFirst sep s).map (·.1)).getD s = s.takeWhile (· ≠ sep) := by
  by_cases h : sep ∈ s
  · simp [cutFirst_eq_takeWhile h]
  · have hall : ∀ c ∈ s, decide (c ≠ sep) = true := fun c hc =>
      decide_eq_true fun e => h (e ▸ hc)
    rw [cutFirst_eq_none_iff.2 h]
    exact (List.takeWhile_eq_self_iff.2 hall).symm

theorem areBracketsRight_eq_false_iff {host : List Char} :
    areBracketsRight host = false ↔ ('[' ∈ host ∧ ']' ∉ host) ∨ (']' ∈ host ∧ '[' ∉ host) ∨
      ('[' ∈ host ∧ ']' ∈ host ∧ isBracketed (inside host) = false) := by
  unfold areBracketsRight
  by_cases hopen : '[' ∈ host
  · rw [cutFirst_eq_takeWhile hopen]
    simp only [takeWhile_eq_getD_cutFirst]
    by_cases hclose : ']' ∈ host <;> simp [hopen, hclose, inside]
  · rw [cutFirst_eq_none_iff.2 hopen]
    simp [hopen]

theorem isHost_eq_false_iff {host : List Char} : isHost host = false ↔ Doubtful host := by
  have hdisguised : (host.any fun c => disguised.contains c.toNat) = true ↔
      ∃ c ∈ host, c.toNat ∈ disguised := by simp
  rw [isHost, Bool.and_eq_false_iff, Bool.not_eq_false', areBracketsRight_eq_false_iff, hdisguised]
  constructor
  · rintro ((⟨h, h'⟩ | ⟨h, h'⟩ | ⟨h, h', hin⟩) | ⟨c, hc, hmark⟩)
    · exact .unclosed h h'
    · exact .unopened h h'
    · exact .noNumber h h' hin
    · exact .disguised hc hmark
  · rintro (⟨h, h'⟩ | ⟨h, h'⟩ | ⟨h, h', hin⟩ | ⟨hc, hmark⟩)
    · exact .inl (.inl ⟨h, h'⟩)
    · exact .inl (.inr (.inl ⟨h, h'⟩))
    · exact .inl (.inr (.inr ⟨h, h', hin⟩))
    · exact .inr ⟨_, hc, hmark⟩

theorem spanScheme_eq_some {s rest scheme : List Char} (h : spanScheme s = some (scheme, rest)) :
    ∃ c r, s = c :: r ++ [':'] ++ rest ∧ c.isAlpha = true ∧ ∀ x ∈ r, isSchemeChar x = true := by
  unfold spanScheme at h
  split at h
  · rename_i c r rest' hcut
    split_ifs at h with hscheme
    obtain ⟨-, rfl⟩ : _ ∧ rest' = rest := by simpa using h
    rw [Bool.and_eq_true, List.all_eq_true] at hscheme
    exact ⟨c, r, by simp [(cutFirst_eq_some hcut).1], hscheme.1, hscheme.2⟩
  · cases h

theorem exists_schemePart (s : List Char) :
    ∃ before, s = before ++ afterScheme s ∧ IsSchemePart before := by
  unfold afterScheme
  cases h : spanScheme s with
  | none => exact ⟨[], rfl, .inl rfl⟩
  | some p =>
    obtain ⟨scheme, rest⟩ := p
    obtain ⟨c, r, e, hc, hr⟩ := spanScheme_eq_some h
    exact ⟨c :: r ++ [':'], e, .inr ⟨c, r, rfl, hc, hr⟩⟩

theorem afterScheme_append {before : List Char} (h : IsSchemePart before) (r : List Char) :
    afterScheme (before ++ '/' :: '/' :: r) = '/' :: '/' :: r := by
  rcases h with rfl | ⟨c, scheme, rfl, hc, hscheme⟩
  · have hslash : spanScheme ('/' :: '/' :: r) = none := by
      have halpha : '/'.isAlpha = false := by decide
      unfold spanScheme
      cases hcut : cutFirst ':' r <;> simp [cutFirst, hcut, halpha]
    simp [afterScheme, hslash]
  · -- the colon after the scheme is the first one, so that the cut is made there
    have hcolon : ':' ∉ c :: scheme := by
      have hno : isSchemeChar ':' = false := by decide
      rw [List.mem_cons, not_or]
      exact ⟨fun e => by simp [← e] at hc, fun hmem => absurd (hscheme _ hmem) (by simp [hno])⟩
    have hcut : cutFirst ':' (c :: scheme ++ [':'] ++ '/' :: '/' :: r) =
        some (c :: scheme, '/' :: '/' :: r) := by
      rw [List.append_assoc, List.singleton_append, cutFirst_append hcolon]
    have hall : scheme.all isSchemeChar = true := List.all_eq_true.2 hscheme
    simp only [afterScheme, spanScheme, hcut, hc, hall, Bool.and_self, if_true, Option.getD_some]

theorem spanHost_of_slashes (r : List Char) :
    spanHost ('/' :: '/' :: r) =
      (r.takeWhile fun c => ¬ EndsHost c, r.dropWhile fun c => ¬ EndsHost c) := by
  have hends : (fun c : Char => c != '/' && c != '?' && c != '#') = fun c => ¬ EndsHost c := by
    funext c
    rw [Bool.eq_iff_iff]
    simp [EndsHost, and_assoc]
  simp only [spanHost, hends]

theorem Hosts.eq_spanHost {s host : List Char} (h : Hosts s host) :
    (spanHost (afterScheme (clean s))).1 = host := by
  obtain ⟨before, after, hs, hscheme, hhost, hafter⟩ := h
  have hrest : after.takeWhile (fun c => ¬ EndsHost c) = [] := by
    cases after with
    | nil => rfl
    | cons c r => simp [hafter c rfl]
  rw [hs, List.append_assoc, List.cons_append, List.cons_append, afterScheme_append hscheme,
    spanHost_of_slashes, List.takeWhile_append_of_pos (by simpa using hhost), hrest,
    List.append_nil]

theorem exists_eq_slashes {s : List Char} (h : (spanHost s).1 ≠ []) :
    ∃ r, s = '/' :: '/' :: r := by
  unfold spanHost at h
  split at h
  · exact ⟨_, rfl⟩
  · exact absurd rfl h

theorem hosts_spanHost {s : List Char} (h : (spanHost (afterScheme (clean s))).1 ≠ []) :
    Hosts s (spanHost (afterScheme (clean s))).1 := by
  obtain ⟨before, hs, hscheme⟩ := exists_schemePart (clean s)
  obtain ⟨r, hr⟩ := exists_eq_slashes h
  rw [hr, spanHost_of_slashes]
  refine ⟨before, r.dropWhile fun c => ¬ EndsHost c, ?_, hscheme, fun c hc => ?_, fun c hc => ?_⟩
  · rw [hs, hr, List.append_assoc, List.cons_append, List.cons_append,
      List.takeWhile_append_dropWhile]
  · simpa using List.mem_takeWhile_imp hc
  · have hfirst := List.head?_dropWhile_not (fun c => decide (¬ EndsHost c)) r
    rw [hc] at hfirst
    simpa using hfirst

def Refused (s : List Char) : Prop := ∃ host, Hosts s host ∧ Doubtful host

theorem read?_eq_none_iff {s : List Char} : read? s = none ↔ Refused s := by
  rw [read?_eq_none_iff_isHost, isHost_eq_false_iff]
  constructor
  · intro h
    exact ⟨_, hosts_spanHost fun hnil => not_doubtful_nil (hnil ▸ h), h⟩
  · rintro ⟨host, hhosts, hdoubt⟩
    rwa [hhosts.eq_spanHost]

theorem not_refused_nil : ¬ Refused [] := by
  rw [← read?_eq_none_iff]
  decide

end DavQuery.Url.Reference
