import DavQuery.Proofs.Selection.Composition
import DavQuery.Proofs.Text.Lower

/-! Criteria on texts and the case of ASCII. The small form of a text is the same in whatever case
its letters of ASCII are written, and so are the items of a list and the extension of a name; a
criterion that compares texts sees nothing else of them. -/

namespace DavQuery
open Calendar Text

/-- The texts are the same but for the case of letters of ASCII. -/
def Text.SameButCase (s t : String) : Prop :=
  s.toList.map Char.toLower = t.toList.map Char.toLower

instance (s t : String) : Decidable (SameButCase s t) := inferInstanceAs (Decidable (_ = _))

/-- The texts of the records that criteria compare are the same but for the case of letters of
ASCII. -/
structure Record.AgreeButCase (r r' : Record) : Prop where
  name : SameButCase r.name r'.name
  kind : SameButCase r.kind r'.kind
  mimetype : SameButCase r.mimetype r'.mimetype
  owner : SameButCase r.owner r'.owner
  tags : List.Forall₂ SameButCase r.tags r'.tags

namespace Text.SameButCase
variable {s t : String}

theorem eq_empty_iff (h : SameButCase s t) : s = "" ↔ t = "" := by
  rw [← String.toList_eq_nil_iff, ← List.map_eq_nil_iff (f := Char.toLower), h,
    List.map_eq_nil_iff, String.toList_eq_nil_iff]

theorem lowerChars_eq (h : SameButCase s t) : lowerChars s.toList = lowerChars t.toList := by
  rw [← lowerChars_map_toLower, h, lowerChars_map_toLower]

theorem lower_eq (h : SameButCase s t) : lower s = lower t := by
  rw [lower, lower, h.lowerChars_eq]

theorem items_eq (h : SameButCase s t) : Criterion.items s = Criterion.items t := by
  have hcomma (c : Char) : (c.toLower == ',') = (c == ',') :=
    apply_toLower (f := (· == ',')) (by decide) c
  have hitems (u : String) : Criterion.items u =
      ((u.toList.map Char.toLower).splitOn ',').map fun item => lowerChars (trimChars item) := by
    rw [Criterion.items, splitOn_map_toLower hcomma, List.map_map]
    simp
  rw [hitems, hitems, h]

theorem extensionOf_eq (h : SameButCase s t) :
    Criterion.extensionOf s = Criterion.extensionOf t := by
  have hstop (c : Char) : (c.toLower = '.') = (c = '.') :=
    apply_toLower (f := (· = '.')) (by decide) c
  have hextension (u : String) : Criterion.extensionOf u =
      (cutLast '.' (u.toList.map Char.toLower)).elim (lowerChars (u.toList.map Char.toLower))
        fun p => lowerChars p.2 := by
    rw [Criterion.extensionOf, cutLast_map_toLower hstop]
    cases cutLast '.' u.toList <;> simp
  rw [hextension, hextension, h]

end Text.SameButCase

namespace Criterion
variable {r r' : Record} {v v' : String}

theorem any_congr_case {tags tags' : List String} (h : List.Forall₂ SameButCase tags tags')
    (p : List Char → Bool) :
    (tags.any fun tag => p (lowerChars tag.toList)) =
      tags'.any fun tag => p (lowerChars tag.toList) := by
  induction h with
  | nil => rfl
  | cons htag _ ih => rw [List.any_cons, List.any_cons, ih, htag.lowerChars_eq]

theorem test_congr_case (here : LocalTime) (h : r.AgreeButCase r') (hv : SameButCase v v')
    {a : Aspect} (ha : a ∈ [.extension, .kind, .mimetype, .tag, .owner]) :
    ∃ held, test here r v a = .ok held ∧ test here r' v' a = .ok held := by
  simp only [List.mem_cons, List.not_mem_nil, or_false] at ha
  rcases ha with rfl | rfl | rfl | rfl | rfl
  · refine ⟨_, rfl, ?_⟩
    rw [test, hasExtension, hasExtension, h.name.extensionOf_eq, hv.items_eq]
  · refine ⟨_, rfl, ?_⟩
    rw [test, hasKind, hasKind, h.kind.lower_eq, hv.lower_eq]
  · refine ⟨_, rfl, ?_⟩
    rw [test, hasMimetype, hasMimetype, h.mimetype.lowerChars_eq, hv.items_eq]
  · refine ⟨_, rfl, ?_⟩
    simp only [test, hasTag, hv.items_eq, any_congr_case h.tags]
  · refine ⟨_, rfl, ?_⟩
    rw [test, hasOwner, hasOwner, h.owner.lowerChars_eq, hv.lowerChars_eq]

theorem exists_textAspect : ∀ key ∈ ["extension", "type", "mimetype", "tag", "owner"],
    ∃ a ∈ [Aspect.extension, .kind, .mimetype, .tag, .owner], Aspect.ofKey? key = some a := by
  decide

end Criterion

/-- Criteria on texts ignore the case of ASCII, in the record and in the value alike, whatever other
letters stand between. -/
theorem text_criteria_ignore_case (here : LocalTime) {r r' : Record} (h : r.AgreeButCase r')
    {v v' : String} (hv : SameButCase v v') {key : String}
    (hkey : key ∈ ["extension", "type", "mimetype", "tag", "owner"]) :
    ∃ held, Criterion.holds here r ⟨key, v⟩ = .ok held ∧
      Criterion.holds here r' ⟨key, v'⟩ = .ok held := by
  by_cases hempty : v = ""
  · have hidle {u : String} (hu : u = "") : Criterion.IsIdle ⟨key, u⟩ := by
      refine .inr ⟨hu, ?_, ?_⟩
      · rintro rfl
        exact absurd hkey (by decide)
      · rintro rfl
        exact absurd hkey (by decide)
    exact ⟨true, Criterion.holds_of_isIdle (hidle hempty) here r,
      Criterion.holds_of_isIdle (hidle (hv.eq_empty_iff.1 hempty)) here r'⟩
  · obtain ⟨a, ha, hkey⟩ := Criterion.exists_textAspect key hkey
    rw [Criterion.holds_of_aspect (Criterion.aspect?_of_value hkey hempty),
      Criterion.holds_of_aspect (Criterion.aspect?_of_value hkey (mt hv.eq_empty_iff.2 hempty))]
    exact Criterion.test_congr_case here h hv ha

theorem text_criteria_ignore_case_sigma :
    let here : LocalTime := ⟨.utc, ⟨⟨2025, 3, 15, by decide⟩, ⟨12, 0, 0, 0, by decide⟩⟩⟩
    let r : Record := { name := "Σ.aΣ", owner := "Élan", tags := ["Holiday", "5 K"] }
    let r' : Record :=
      { name := "Σ.AΣ", kind := "FILE", owner := "ÉLAN", tags := ["hOLIDAY", "5 K"] }
    r.AgreeButCase r' ∧ SameButCase "ας, aς" "ας, Aς" ∧ SameButCase "k" "K" ∧
      Criterion.holds here r ⟨"extension", "ας, aς"⟩ = .ok true ∧
      Criterion.holds here r' ⟨"extension", "ας, Aς"⟩ = .ok true ∧
      Criterion.holds here r ⟨"tag", "k"⟩ = .ok true ∧
      Criterion.holds here r' ⟨"tag", "K"⟩ = .ok true := by
  intro here r r'
  have hagree : r.AgreeButCase r' := by
    exact ⟨by decide, by decide, by decide, by decide,
      .cons (by decide) (.cons (by decide) .nil)⟩
  have hlist : SameButCase "ας, aς" "ας, Aς" := by decide
  have hletter : SameButCase "k" "K" := by decide
  obtain ⟨x, hx, hx'⟩ := text_criteria_ignore_case here hagree hlist
    (show "extension" ∈ ["extension", "type", "mimetype", "tag", "owner"] by decide)
  obtain ⟨y, hy, hy'⟩ := text_criteria_ignore_case here hagree hletter
    (show "tag" ∈ ["extension", "type", "mimetype", "tag", "owner"] by decide)
  have hextension : Criterion.holds here r ⟨"extension", "ας, aς"⟩ = .ok true := by
    decide +kernel
  have htag : Criterion.holds here r ⟨"tag", "k"⟩ = .ok true := by decide +kernel
  obtain rfl : true = x := Except.ok.inj (hextension.symm.trans hx)
  obtain rfl : true = y := Except.ok.inj (htag.symm.trans hy)
  exact ⟨hagree, hlist, hletter, hx, hx', hy, hy'⟩

end DavQuery
