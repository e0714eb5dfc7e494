import DavQuery.Proofs.Text.Percent
import DavQuery.Proofs.Text.Split
import DavQuery.Url.Address
import Mathlib.Algebra.GroupWithZero.Nat

/-! Dots in paths. A path is sent as it reads, unless one of its segments is `.` or `..`: then
segments are left out, and what is sent reads shorter. -/

namespace DavQuery.Url.Address
open Text Percent

structure KeepsEscapes (test : Char → Bool) : Prop where
  mark : test '%' = true
  digit : ∀ c, hexValue? c ≠ none → test c = true

theorem escapeUnless_cons_pos {test : Char → Bool} {c : Char} (h : test c = true)
    (s : List Char) : escapeUnless test (c :: s) = c :: escapeUnless test s := by
  simp [escapeUnless, h]

theorem escapeUnless_cons_neg {test : Char → Bool} {c : Char} (h : test c = false)
    (s : List Char) : escapeUnless test (c :: s) = escapeChar c ++ escapeUnless test s := by
  simp [escapeUnless, h]

theorem readEscape?_eq_none_of_no_digit {x : Char} (h : hexValue? x = none) (r : List Char) :
    readEscape? ('%' :: x :: r) = none := by
  cases r <;> simp [readEscape?, h]

theorem readEscape?_eq_none_of_no_second {x y : Char} (h : hexValue? y = none) (r : List Char) :
    readEscape? ('%' :: x :: y :: r) = none := by
  cases hx : hexValue? x <;> simp [readEscape?, hx, h]

theorem exists_escapeUnless_eq_cons (test : Char → Bool) {c : Char} (hc : hexValue? c = none)
    (s : List Char) : ∃ x r, escapeUnless test (c :: s) = x :: r ∧ hexValue? x = none := by
  cases hkeep : test c with
  | true => exact ⟨c, _, escapeUnless_cons_pos hkeep s, hc⟩
  | false =>
    obtain ⟨b, bs, hb⟩ := List.exists_cons_of_ne_nil (Utf8.encodeChar_ne_nil c)
    have hescape : escapeUnless test (c :: s) =
        '%' :: (hexCapital 2 b.toNat ++ bs.flatMap escape ++ escapeUnless test s) := by
      rw [escapeUnless_cons_neg hkeep, escapeChar, hb, List.flatMap_cons, escape, List.cons_append,
        List.cons_append]
    exact ⟨'%', _, hescape, by decide⟩

section
variable {test : Char → Bool} (htest : KeepsEscapes test)
include htest

theorem KeepsEscapes.readEscape? (s : List Char) :
    readEscape? ('%' :: escapeUnless test s) =
      (Percent.readEscape? ('%' :: s)).map fun p => (p.1, escapeUnless test p.2) := by
  cases s with
  | nil => rfl
  | cons x s =>
    by_cases hx : hexValue? x = none
    · obtain ⟨x', r, hr, hx'⟩ := exists_escapeUnless_eq_cons test hx s
      rw [hr, readEscape?_eq_none_of_no_digit hx', readEscape?_eq_none_of_no_digit hx,
        Option.map_none]
    · rw [escapeUnless_cons_pos (htest.digit x hx)]
      cases s with
      | nil => rfl
      | cons y s =>
        by_cases hy : hexValue? y = none
        · obtain ⟨y', r, hr, hy'⟩ := exists_escapeUnless_eq_cons test hy s
          rw [hr, readEscape?_eq_none_of_no_second hy', readEscape?_eq_none_of_no_second hy,
            Option.map_none]
        · rw [escapeUnless_cons_pos (htest.digit y hy)]
          simp only [Percent.readEscape?, bind, Option.bind, pure]
          cases hexValue? x <;> cases hexValue? y <;> rfl

theorem KeepsEscapes.octets_escapeUnless (s : List Char) :
    octets (escapeUnless test s) = octets s := by
  induction s using octets.induct with
  | case1 => rfl
  | case2 a s b rest h hlt ih =>
    obtain rfl : a = '%' := by
      by_contra ha
      simp [readEscape?_of_ne ha] at h
    have hread := htest.readEscape? s
    rw [h, Option.map_some] at hread
    rw [escapeUnless_cons_pos htest.mark, octets_of_readEscape? hread, ih, octets_of_readEscape? h]
  | case3 a s h ih =>
    rw [octets_of_readEscape?_eq_none h, ← ih]
    cases ha : test a with
    | false => rw [escapeUnless_cons_neg ha, escapeChar, (escapes_flatMap _).octets_append]
    | true =>
      rw [escapeUnless_cons_pos ha]
      refine octets_of_readEscape?_eq_none ?_
      by_cases hmark : a = '%'
      · subst hmark
        rw [htest.readEscape?, h, Option.map_none]
      · exact readEscape?_of_ne hmark _

theorem KeepsEscapes.decode_escapeUnless (s : List Char) :
    decode (escapeUnless test s) = decode s := by
  rw [decode, htest.octets_escapeUnless, decode]

end

/-- One of the segments is `.` or `..`. -/
def Dotted (path : List Char) : Prop :=
  ['.'] ∈ path.splitOn '/' ∨ ['.', '.'] ∈ path.splitOn '/'

instance : DecidablePred Dotted := fun _ => inferInstanceAs (Decidable (_ ∨ _))

theorem followDots_eq_self {path : List Char} (h : ¬ Dotted path) : followDots path = path := by
  rw [followDots, if_neg]
  simpa [Dotted] using h

theorem followDots_of_dotted {path : List Char} (h : Dotted path) :
    followDots path = ['/'].intercalate (follow [] (path.splitOn '/')) := by
  rw [followDots, if_pos]
  simpa [Dotted] using h

theorem follow_sublist (done segments : List (List Char)) :
    (follow done segments).Sublist (done.reverse ++ segments) := by
  induction segments generalizing done with
  | nil => simp [follow]
  | cons s r ih =>
    have hskip : (done.reverse ++ r).Sublist (done.reverse ++ s :: r) :=
      (List.sublist_cons_self s r).append_left _
    unfold follow
    split_ifs with hone htwo hroot
    · exact (ih done).trans hskip
    · exact (ih done).trans hskip
    · refine (ih (done.drop 1)).trans (.trans ?_ hskip)
      exact (List.reverse_sublist.2 (List.drop_sublist 1 done)).append_right r
    · simpa using ih (s :: done)

theorem length_follow_lt {segments : List (List Char)} (done : List (List Char))
    (h : ['.'] ∈ segments ∨ ['.', '.'] ∈ segments) :
    (follow done segments).length < done.length + segments.length := by
  induction segments generalizing done with
  | nil => simp at h
  | cons s r ih =>
    have hle (done : List (List Char)) : (follow done r).length ≤ done.length + r.length := by
      simpa using (follow_sublist done r).length_le
    unfold follow
    rw [List.length_cons]
    split_ifs with hone htwo hroot
    · have := hle done
      omega
    · have := hle done
      omega
    · have := hle (done.drop 1)
      rw [List.length_drop] at this
      omega
    · have hr : ['.'] ∈ r ∨ ['.', '.'] ∈ r := by
        simpa [Ne.symm hone, Ne.symm htwo] using h
      have := ih (s :: done) hr
      rw [List.length_cons] at this
      omega

theorem head?_follow (done segments : List (List Char)) :
    (follow (done ++ [[]]) segments).head? = some [] := by
  induction segments generalizing done with
  | nil => simp [follow]
  | cons s r ih =>
    unfold follow
    split_ifs with hone htwo hroot
    · exact ih done
    · simpa [hroot] using ih []
    · obtain ⟨d, done, rfl⟩ := List.exists_cons_of_ne_nil (l := done) (by rintro rfl; simp at hroot)
      exact ih done
    · exact ih (s :: done)

theorem eq_slash_of_head?_followDots {path : List Char} (h : ∀ c, path.head? = some c → c = '/') :
    ∀ c, (followDots path).head? = some c → c = '/' := by
  by_cases hdots : Dotted path
  · have hne : path ≠ [] := by
      rintro rfl
      simp [Dotted] at hdots
    obtain ⟨c, r, rfl⟩ := List.exists_cons_of_ne_nil hne
    obtain rfl := h c rfl
    have hhead := head?_follow [] (r.splitOn '/')
    have hsplit : ('/' :: r).splitOn '/' = [] :: r.splitOn '/' :=
      List.splitOn_append_cons_self [] r
    rw [followDots_of_dotted hdots, hsplit, follow, if_neg (by simp), if_neg (by simp)]
    obtain ⟨rest, hrest⟩ := List.head?_eq_some_iff.1 hhead
    rw [List.nil_append] at hrest
    rw [hrest]
    cases rest with
    | nil => simp
    | cons s rest => simp [List.intercalate_cons_cons, eq_comm]
  · rwa [followDots_eq_self hdots]

def readLength (segments : List (List Char)) : Nat :=
  (segments.map fun s => (decode s).length + 1).sum

theorem length_decode_intercalate {segments : List (List Char)} (h : segments ≠ []) :
    (decode (['/'].intercalate segments)).length + 1 = readLength segments := by
  induction segments with
  | nil => exact absurd rfl h
  | cons s r ih =>
    cases r with
    | nil => simp [readLength]
    | cons t r =>
      have hrest := ih (by simp)
      rw [List.intercalate_cons_cons, List.append_assoc, List.singleton_append,
        decode_append_slash, List.length_append, List.length_cons, hrest]
      simp only [readLength, List.map_cons, List.sum_cons]
      omega

theorem readLength_add_le {a b : List (List Char)} (h : a.Sublist b) :
    readLength a + b.length ≤ readLength b + a.length := by
  induction h with
  | slnil => exact Nat.le_refl _
  | cons s _ ih =>
    simp only [readLength, List.map_cons, List.sum_cons, List.length_cons] at ih ⊢
    omega
  | cons_cons s _ ih =>
    simp only [readLength, List.map_cons, List.sum_cons, List.length_cons] at ih ⊢
    omega

theorem length_decode_followDots_lt {path : List Char} (h : Dotted path) :
    (decode (followDots path)).length < (decode path).length := by
  -- The dots themselves are left out, and no segment is put in their place.
  have hpath := length_decode_intercalate (List.splitOn_ne_nil '/' path)
  rw [List.intercalate_splitOn] at hpath
  have hle := readLength_add_le (by simpa using follow_sublist [] (path.splitOn '/'))
  have hlt := length_follow_lt [] h
  rw [List.length_nil] at hlt
  rw [followDots_of_dotted h]
  by_cases hnil : follow [] (path.splitOn '/') = []
  · have hne : path ≠ [] := by
      rintro rfl
      simp [Dotted] at h
    have := List.length_pos_of_ne_nil (decode_ne_nil hne)
    rw [hnil, List.intercalate_nil, decode_nil]
    exact this
  · have := length_decode_intercalate hnil
    omega

theorem dotted_append {a b : List Char} : Dotted (a ++ '/' :: b) ↔ Dotted a ∨ Dotted b := by
  simp only [Dotted, List.splitOn_append_cons_self, List.mem_append]
  tauto

theorem dotted_cons_slash {s : List Char} : Dotted ('/' :: s) ↔ Dotted s := by
  have hnil : ¬ Dotted [] := by simp [Dotted]
  simpa [hnil] using dotted_append (a := []) (b := s)

theorem dotted_append_replicate {s : List Char} {n : Nat} :
    Dotted (s ++ List.replicate n '/') ↔ Dotted s := by
  induction n generalizing s with
  | zero => rw [List.replicate_zero, List.append_nil]
  | succ n ih =>
    have hslashes := ih (s := [])
    rw [List.nil_append] at hslashes
    rw [List.replicate_succ, dotted_append, hslashes]
    simp [Dotted]

theorem dotted_replicate_append {s : List Char} {n : Nat} :
    Dotted (List.replicate n '/' ++ s) ↔ Dotted s := by
  induction n with
  | zero => rfl
  | succ n ih => rw [List.replicate_succ, List.cons_append, dotted_cons_slash, ih]

theorem dotted_iff_of_notMem {s : List Char} (h : '/' ∉ s) :
    Dotted s ↔ s = ['.'] ∨ s = ['.', '.'] := by
  rw [Dotted, List.splitOn_eq_singleton h, List.mem_singleton, List.mem_singleton,
    eq_comm (b := s), eq_comm (b := s)]

theorem keepsEscapes_inPath : KeepsEscapes inPath where
  mark := by decide
  digit c hc := by
    have hascii : ∀ n < 128, hexValue? (Char.ofNat n) ≠ none → inPath (Char.ofNat n) = true := by
      decide
    exact forall_ascii (P := fun c => hexValue? c ≠ none → inPath c = true) hascii
      (toNat_lt_of_hexValue? hc) hc

def sentPath (path : List Char) : List Char :=
  if (escapeUnless inPath (followDots path)).isEmpty then ['/']
  else escapeUnless inPath (followDots path)

/-- Where a path leads to: its dots are followed, and the root stands for an empty path. -/
def destination (path : List Char) : List Char :=
  if followDots path = [] then ['/'] else followDots path

theorem decode_sentPath (path : List Char) :
    decode (sentPath path) = decode (destination path) := by
  have hescape := keepsEscapes_inPath.decode_escapeUnless (followDots path)
  unfold sentPath destination
  by_cases hnil : followDots path = []
  · simp [hnil, escapeUnless]
  · have hne : escapeUnless inPath (followDots path) ≠ [] := fun h =>
      decode_ne_nil hnil (by rw [← hescape, h, decode_nil])
    rw [if_neg hnil, if_neg (by simpa using hne), hescape]

theorem decode_destination_eq_iff {r : List Char} :
    decode (destination ('/' :: r)) = decode ('/' :: r) ↔ ¬ Dotted r := by
  constructor
  · intro h hdots
    unfold destination at h
    split_ifs at h with hempty
    · have hr : r ≠ [] := by
        rintro rfl
        simp [Dotted] at hdots
      rw [decode_cons_slash, decode_cons_slash, decode_nil, List.cons.injEq] at h
      exact decode_ne_nil hr h.2.symm
    · have hlt := length_decode_followDots_lt (dotted_cons_slash.2 hdots)
      rw [h] at hlt
      exact Nat.lt_irrefl _ hlt
  · intro h
    rw [← dotted_cons_slash] at h
    rw [destination, followDots_eq_self h, if_neg (by simp)]

end DavQuery.Url.Address
