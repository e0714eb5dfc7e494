import DavQuery.Proofs.Query.Reference

/-! What a reader finds in a text fits into a line of its own: it is trimmed, not empty and has no
line feed, and the mark that ends a key is not in it. -/

namespace DavQuery.Query
open Text

/-- A line can carry the text as it is. -/
def Fits (s : String) : Prop := s ≠ "" ∧ Trimmed s.toList ∧ '\n' ∉ s.toList

def HeaderFits (p : String × String) : Prop := Fits p.1 ∧ ':' ∉ p.1.toList ∧ Fits p.2

def CriterionFits (c : Criterion) : Prop :=
  c.key ≠ "" ∧ (∀ x ∈ c.key.toList, isWord x = true) ∧ Fits c.value

instance (s : String) : Decidable (Fits s) := inferInstanceAs (Decidable (_ ∧ _ ∧ _))

instance (p : String × String) : Decidable (HeaderFits p) :=
  inferInstanceAs (Decidable (_ ∧ _ ∧ _))

instance (c : Criterion) : Decidable (CriterionFits c) :=
  decidable_of_iff (c.key ≠ "" ∧ c.key.toList.all isWord = true ∧ Fits c.value)
    (by rw [CriterionFits, List.all_eq_true])

/-- Every part of the query fits into a line, and no further header is set twice or stands for one
with a meaning. -/
structure Printable (q : Query) : Prop where
  header : ∀ p ∈ q.headers, HeaderFits p
  criterion : ∀ cs, q.criteria = some cs → ∀ c ∈ cs, CriterionFits c
  extra_nodup : q.extraKeys.Nodup
  extra_unnamed : ∀ key ∈ q.extraKeys, Header.ofKey? key = none

theorem not_mem_line {text : String} {l : Line} (h : l ∈ linesOf text) : '\n' ∉ l :=
  not_mem_of_mem_splitOn h

theorem fits_of_trimChars {s : String} {r : List Char} (h : s.toList = trimChars r) (hs : s ≠ "")
    (hr : '\n' ∉ r) : Fits s := by
  refine ⟨hs, ?_, ?_⟩
  · rw [h]
    exact trimmed_trimChars r
  · rw [h]
    exact mt mem_of_mem_trimChars hr

theorem sides?_spec {l a b : List Char} (h : sides? l = some (a, b)) :
    ':' ∉ a ∧ (∀ c ∈ a, c ∈ l) ∧ ∀ c ∈ b, c = ':' ∨ c ∈ l := by
  rcases sides?_eq_some_iff_append.1 h with ⟨rfl, hcolon⟩ | ⟨hcolon, r, rfl, -, rfl⟩
  · exact ⟨hcolon, fun c hc => by simp [hc], fun c hc => .inr (by simp [hc])⟩
  · refine ⟨fun hc => hcolon (by simp [hc]), fun c hc => by simp [hc], fun c hc => ?_⟩
    obtain ⟨x, hx, rfl⟩ := List.mem_map.1 hc
    split
    · exact .inl rfl
    · exact .inr (by simp [hx])

theorem Splits.fits {l : Line} {key value : String} (h : Splits l key value) (hl : '\n' ∉ l) :
    HeaderFits (key, value) := by
  obtain ⟨a, b, hab, hk, hv, hk0, hv0⟩ :=
    headerOf?_eq_some_iff_sides.1 (headerOf?_eq_some_iff.2 h)
  obtain ⟨hcolon, ha, hb⟩ := sides?_spec hab
  refine ⟨fits_of_trimChars hk hk0 fun hn => hl (ha _ hn), ?_,
    fits_of_trimChars hv hv0 fun hn => ?_⟩
  · show ':' ∉ key.toList
    rw [hk]
    exact mt mem_of_mem_trimChars hcolon
  · rcases hb _ hn with hn | hn
    · exact absurd hn (by decide)
    · exact hl hn

theorem Lists.fits {l : Line} {c : Criterion} (h : Lists l c) (hl : '\n' ∉ l) :
    CriterionFits c := by
  obtain ⟨gap, word, gap', rest, e, -, hword, hw, -, hrest, rfl⟩ := h
  have hsuffix : rest <:+ trimChars l := ⟨'-' :: (gap ++ word ++ ':' :: gap'), by simp [e]⟩
  refine ⟨by simpa using hword, by simpa using hw, fits_of_trimChars (r := rest) (by simp) ?_ ?_⟩
  · simpa using trimChars_ne_nil_of_suffix hsuffix hrest
  · exact fun hn => hl (mem_of_mem_trimChars (hsuffix.mem hn))

theorem mem_namedHeaders_iff {q : Query} {p : String × String} :
    p ∈ q.namedHeaders ↔ ∃ h : Header, p.1 = h.key ∧ q.header h = some p.2 := by
  obtain ⟨key, value⟩ := p
  simp only [namedHeaders, Header.keys, List.mem_filterMap, List.mem_cons, List.not_mem_nil,
    or_false, Option.map_eq_some_iff, Prod.mk.injEq, Prod.exists]
  constructor
  · rintro ⟨_, _, (⟨rfl, rfl⟩ | ⟨rfl, rfl⟩ | ⟨rfl, rfl⟩ | ⟨rfl, rfl⟩), _, hv, rfl, rfl⟩
    all_goals exact ⟨_, rfl, hv⟩
  · rintro ⟨h, rfl, hv⟩
    cases h
    all_goals exact ⟨_, _, by simp [Header.key], _, hv, rfl, rfl⟩

theorem get?_of_mem_headers {q : Query} {p : String × String} (hnodup : q.extraKeys.Nodup)
    (hunnamed : ∀ key ∈ q.extraKeys, Header.ofKey? key = none) (h : p ∈ q.headers) :
    q.get? p.1 = some p.2 := by
  rcases List.mem_append.1 h with h | h
  · obtain ⟨h, e, hv⟩ := mem_namedHeaders_iff.1 h
    rw [get?, e, Header.ofKey?_key]
    exact hv
  · rw [get?, hunnamed _ (List.mem_map_of_mem h)]
    exact (lookup_eq_some_iff_mem hnodup).2 h

theorem exists_mem_of_forall₂ {α β : Type*} {R : α → β → Prop} {l : List α} {l' : List β}
    (h : List.Forall₂ R l l') {b : β} (hb : b ∈ l') : ∃ a ∈ l, R a b := by
  induction h with
  | nil => simp at hb
  | @cons a b' l l' hab _ ih =>
    rcases List.mem_cons.1 hb with rfl | hb
    · exact ⟨a, by simp, hab⟩
    · obtain ⟨a', ha, h⟩ := ih hb
      exact ⟨a', by simp [ha], h⟩

theorem Reads.printable {lines : List Line} {q : Query} {ignored : List IgnoredLine}
    (h : Reads lines q ignored) (hlines : ∀ l ∈ lines, '\n' ∉ l) : Printable q where
  header p hp := by
    have hget := get?_of_mem_headers h.extraKeys_nodup
      (fun key hk => ((h.mem_extraKeys_iff key).1 hk).1) hp
    obtain ⟨n, ⟨before, l, after, rfl, -, -, hsplit⟩, -⟩ := (h.get?_eq_some_iff _ _).1 hget
    exact hsplit.fits (hlines l (by simp))
  criterion cs hcs c hc := by
    have hopens : ¬ ∀ l ∈ lines, ¬ Opens l := by
      rw [← h.criteria_eq_none_iff, hcs]
      simp
    obtain ⟨before, o, after, rfl, ho, hlast⟩ := exists_last hopens
    obtain ⟨cs', hcs', hitems⟩ := h.criteria_eq_some _ _ _ rfl ho hlast
    obtain rfl : cs = cs' := Option.some.inj (hcs.symm.trans hcs')
    obtain ⟨l, hl, hlc⟩ := exists_mem_of_forall₂ hitems hc
    have hafter : l ∈ after := (List.takeWhile_sublist _).mem (List.mem_of_mem_filter hl)
    exact hlc.fits (hlines l (by simp [hafter]))
  extra_nodup := h.extraKeys_nodup
  extra_unnamed key hk := ((h.mem_extraKeys_iff key).1 hk).1

end DavQuery.Query
