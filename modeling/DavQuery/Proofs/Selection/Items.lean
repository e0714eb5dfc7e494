import DavQuery.Proofs.Selection.Composition
import DavQuery.Proofs.Text.Lower

/-! Lists of values. A list holds of a record if one of its items picks the record, so that lists
put together hold where one of them does, and neither the order nor the number of the items counts.
A blank item picks no record by its extension, but it picks every record without a media type and
every record with tags. -/

namespace DavQuery
open Calendar Text

/-- The record is picked by a blank item of a list for the key. -/
def Record.IsPickedByBlank (r : Record) (key : String) : Prop :=
  key = "mimetype" ∧ r.mimetype = "" ∨ key = "tag" ∧ r.tags ≠ []

instance (r : Record) (key : String) : Decidable (r.IsPickedByBlank key) :=
  inferInstanceAs (Decidable (_ ∨ _))

namespace Criterion

theorem items_append (a b : String) : items (a ++ "," ++ b) = items a ++ items b := by
  simp [items, List.splitOn_append_cons_self]

/-- Whether an item of a list of values picks the record, for the aspects that have lists. -/
def picks (r : Record) (item : List Char) : Aspect → Bool
  | .extension => !(extensionOf r.name).isEmpty && item == extensionOf r.name
  | .mimetype => item == lowerChars r.mimetype.toList
  | .tag => r.tags.any fun tag => occurs item (lowerChars tag.toList)
  | _ => false

theorem holds_of_list {key : String} {a : Aspect} (hkey : Aspect.ofKey? key = some a)
    (ha : a ∈ [.extension, .mimetype, .tag]) {value : String} (hvalue : value ≠ "")
    (here : LocalTime) (r : Record) :
    holds here r ⟨key, value⟩ = .ok ((items value).any fun item => picks r item a) := by
  have hmem (s : List Char) : (items value).contains s = (items value).any (· == s) := by
    rw [List.contains_eq_any_beq]
    simp only [BEq.comm]
  rw [holds_of_aspect (aspect?_of_value hkey hvalue)]
  simp only [List.mem_cons, List.not_mem_nil, or_false] at ha
  rcases ha with rfl | rfl | rfl
  · simp only [test, hasExtension, hmem, picks]
    cases (extensionOf r.name).isEmpty <;> simp
  · simp only [test, hasMimetype, hmem, picks]
  · rfl

theorem exists_listAspect : ∀ key ∈ ["extension", "mimetype", "tag"],
    ∃ a ∈ [Aspect.extension, .mimetype, .tag], Aspect.ofKey? key = some a := by
  decide

variable (here : LocalTime) (r : Record) {key : String}

theorem holds_append (hkey : key ∈ ["extension", "mimetype", "tag"]) {v w : String} (hv : v ≠ "")
    (hw : w ≠ "") :
    ∃ x y, holds here r ⟨key, v⟩ = .ok x ∧ holds here r ⟨key, w⟩ = .ok y ∧
      holds here r ⟨key, v ++ "," ++ w⟩ = .ok (x || y) := by
  obtain ⟨a, ha, hkey⟩ := exists_listAspect key hkey
  have hvw : v ++ "," ++ w ≠ "" := by simp [hv]
  refine ⟨_, _, holds_of_list hkey ha hv here r, holds_of_list hkey ha hw here r, ?_⟩
  rw [holds_of_list hkey ha hvw, items_append, List.any_append]

theorem holds_congr_items (hkey : key ∈ ["extension", "mimetype", "tag"]) {v w : String}
    (hv : v ≠ "") (hw : w ≠ "")
    (h : ∀ item, item ∈ (v.toList.splitOn ',').map trimChars ↔
      item ∈ (w.toList.splitOn ',').map trimChars) :
    holds here r ⟨key, v⟩ = holds here r ⟨key, w⟩ := by
  obtain ⟨a, ha, hkey⟩ := exists_listAspect key hkey
  have hany (u : String) : (items u).any (fun item => picks r item a) = true ↔
      ∃ item ∈ (u.toList.splitOn ',').map trimChars, picks r (lowerChars item) a = true := by
    simp [items]
  rw [holds_of_list hkey ha hv, holds_of_list hkey ha hw, Except.ok.injEq, Bool.eq_iff_iff, hany,
    hany]
  simp only [h]

theorem picks_nil_iff {a : Aspect} (hkey : Aspect.ofKey? key = some a)
    (ha : a ∈ [.extension, .mimetype, .tag]) : picks r [] a = true ↔ r.IsPickedByBlank key := by
  have hname := Aspect.ofKey?_eq_some_iff.1 hkey
  simp only [List.mem_cons, List.not_mem_nil, or_false] at ha
  rcases ha with rfl | rfl | rfl
  all_goals
    simp only [Aspect.keys, List.mem_cons, Prod.mk.injEq, reduceCtorEq, and_false, or_false,
      false_or, and_true, List.not_mem_nil] at hname
    subst hname
  · simp [picks, Record.IsPickedByBlank]
  · have hnone : picks r [] .mimetype = true ↔ r.mimetype = "" := by
      rw [picks, beq_iff_eq, eq_comm, lowerChars_eq_nil_iff, String.toList_eq_nil_iff]
    simp only [hnone, Record.IsPickedByBlank, true_and, String.reduceEq, false_and, or_false]
  · cases htags : r.tags <;> simp [picks, Record.IsPickedByBlank, occurs_nil, htags]

theorem holds_insert_blank (hkey : key ∈ ["extension", "mimetype", "tag"]) {v w : String}
    {before after : List (List Char)} {blank : List Char} (hne : v ≠ "")
    (hv : v.toList.splitOn ',' = before ++ after)
    (hw : w.toList.splitOn ',' = before ++ blank :: after) (hblank : AllBlank blank) :
    ∃ held, holds here r ⟨key, v⟩ = .ok held ∧
      holds here r ⟨key, w⟩ = .ok (held || decide (r.IsPickedByBlank key)) := by
  obtain ⟨a, ha, hkey⟩ := exists_listAspect key hkey
  have hne' : w ≠ "" := by
    rintro rfl
    have hparts : before ++ after = [] := by
      have hlength := congrArg List.length hw
      simp only [String.toList_empty, List.splitOn_nil, List.length_append, List.length_cons,
        List.length_nil] at hlength
      exact List.length_eq_zero_iff.1 (by rw [List.length_append]; omega)
    exact List.splitOn_ne_nil ',' v.toList (hv.trans hparts)
  have hpicks : picks r [] a = decide (r.IsPickedByBlank key) := by
    rw [Bool.eq_iff_iff, picks_nil_iff r hkey ha, decide_eq_true_iff]
  have hitem : lowerChars (trimChars blank) = [] := by
    rw [trimChars_eq_nil_iff.2 hblank]
    rfl
  refine ⟨_, holds_of_list hkey ha hne here r, ?_⟩
  rw [holds_of_list hkey ha hne', items, items, hv, hw]
  simp only [List.map_append, List.map_cons, List.any_append, List.any_cons, hitem, hpicks]
  ac_rfl

end Criterion

/-- A list of values is the union of its parts: two lists put together hold where one of them does,
and which trimmed items stand in a list is all that counts, not their order nor how often. -/
theorem lists_unite (here : LocalTime) (r : Record) {key : String}
    (hkey : key ∈ ["extension", "mimetype", "tag"]) {v w : String} (hv : v ≠ "") (hw : w ≠ "") :
    (∃ x y, Criterion.holds here r ⟨key, v⟩ = .ok x ∧ Criterion.holds here r ⟨key, w⟩ = .ok y ∧
      Criterion.holds here r ⟨key, v ++ "," ++ w⟩ = .ok (x || y)) ∧
    ((∀ item, item ∈ (v.toList.splitOn ',').map trimChars ↔
        item ∈ (w.toList.splitOn ',').map trimChars) →
      Criterion.holds here r ⟨key, v⟩ = Criterion.holds here r ⟨key, w⟩) :=
  ⟨Criterion.holds_append here r hkey hv hw, Criterion.holds_congr_items here r hkey hv hw⟩

theorem lists_unite_sigma :
    let here : LocalTime := ⟨.utc, ⟨⟨2025, 3, 15, by decide⟩, ⟨12, 0, 0, 0, by decide⟩⟩⟩
    let r : Record := { name := "a.ΟΔΟΣ" }
    "extension" ∈ ["extension", "mimetype", "tag"] ∧ "png, οδοσ" ≠ "" ∧ "ΟΔΟΣ ,gif" ≠ "" ∧
      Criterion.holds here r ⟨"extension", "png, οδοσ"⟩ = .ok false ∧
      Criterion.holds here r ⟨"extension", "png, οδοσ" ++ "," ++ "ΟΔΟΣ ,gif"⟩ = .ok true ∧
      Criterion.holds here r ⟨"extension", "gif,ΟΔΟΣ, gif"⟩ =
        Criterion.holds here r ⟨"extension", "ΟΔΟΣ ,gif"⟩ := by
  intro here r
  have hkey : "extension" ∈ ["extension", "mimetype", "tag"] := by decide
  have hfirst : Criterion.holds here r ⟨"extension", "png, οδοσ"⟩ = .ok false := by
    decide +kernel
  have hsecond : Criterion.holds here r ⟨"extension", "ΟΔΟΣ ,gif"⟩ = .ok true := by
    decide +kernel
  obtain ⟨⟨x, y, hx, hy, hboth⟩, -⟩ :=
    lists_unite here r hkey (v := "png, οδοσ") (w := "ΟΔΟΣ ,gif") (by decide) (by decide)
  rw [hfirst, Except.ok.injEq] at hx
  rw [hsecond, Except.ok.injEq] at hy
  rw [← hx, ← hy] at hboth
  refine ⟨hkey, by decide, by decide, hfirst, hboth, ?_⟩
  refine (lists_unite here r hkey (by decide) (by decide)).2 fun item => ?_
  have hitems : ("gif,ΟΔΟΣ, gif".toList.splitOn ',').map trimChars =
      ["gif".toList, "ΟΔΟΣ".toList, "gif".toList] := by decide +kernel
  have hitems' : ("ΟΔΟΣ ,gif".toList.splitOn ',').map trimChars =
      ["ΟΔΟΣ".toList, "gif".toList] := by decide +kernel
  rw [hitems, hitems']
  simp only [List.mem_cons, List.not_mem_nil, or_false]
  tauto

/-- A list with a blank item more is the same list for a record exactly if it held already or a
blank item does not pick the record; if one does, the list now holds. -/
theorem blank_item_counts_iff (here : LocalTime) (r : Record) {key : String}
    (hkey : key ∈ ["extension", "mimetype", "tag"]) {v w : String}
    {before after : List (List Char)} {blank : List Char} (hne : v ≠ "")
    (hv : v.toList.splitOn ',' = before ++ after)
    (hw : w.toList.splitOn ',' = before ++ blank :: after) (hblank : AllBlank blank) :
    (Criterion.holds here r ⟨key, w⟩ = Criterion.holds here r ⟨key, v⟩ ↔
      Criterion.holds here r ⟨key, v⟩ = .ok true ∨ ¬ r.IsPickedByBlank key) ∧
    (r.IsPickedByBlank key → Criterion.holds here r ⟨key, w⟩ = .ok true) := by
  obtain ⟨held, hheld, hmore⟩ := Criterion.holds_insert_blank here r hkey hne hv hw hblank
  rw [hheld, hmore]
  by_cases hpicked : r.IsPickedByBlank key
  · cases held <;> simp [hpicked]
  · simp [hpicked]

theorem blank_item_counts_iff_two :
    let here : LocalTime := ⟨.utc, ⟨⟨2025, 3, 15, by decide⟩, ⟨12, 0, 0, 0, by decide⟩⟩⟩
    let r : Record := { name := "draft.", tags := ["Holiday"] }
    "jpg,png".toList.splitOn ',' = ["jpg".toList] ++ ["png".toList] ∧
      "jpg, ,png".toList.splitOn ',' = ["jpg".toList] ++ " ".toList :: ["png".toList] ∧
      AllBlank " ".toList ∧
      Criterion.holds here r ⟨"extension", "jpg, ,png"⟩ =
        Criterion.holds here r ⟨"extension", "jpg,png"⟩ ∧
      Criterion.holds here r ⟨"tag", "jpg, ,png"⟩ = .ok true ∧
      Criterion.holds here r ⟨"tag", "jpg, ,png"⟩ ≠
        Criterion.holds here r ⟨"tag", "jpg,png"⟩ := by
  intro here r
  have hv : "jpg,png".toList.splitOn ',' = ["jpg".toList] ++ ["png".toList] := by decide
  have hw : "jpg, ,png".toList.splitOn ',' = ["jpg".toList] ++ " ".toList :: ["png".toList] := by
    decide
  have hblank : AllBlank " ".toList := by decide
  have hextension : "extension" ∈ ["extension", "mimetype", "tag"] := by decide
  have htag : "tag" ∈ ["extension", "mimetype", "tag"] := by decide
  have hne : "jpg,png" ≠ "" := by decide
  have hnone := blank_item_counts_iff here r hextension hne hv hw hblank
  have hpicked := blank_item_counts_iff here r htag hne hv hw hblank
  refine ⟨hv, hw, hblank, hnone.1.2 (.inr (by decide)), hpicked.2 (by decide), fun h => ?_⟩
  exact absurd (hpicked.1.1 h) (by decide +kernel)

/-- A comma at the end makes a list of media types hold of a folder, which has none, and a list of
tags of a file that has another tag. -/
theorem holds_of_comma_at_end :
    let here : LocalTime := ⟨.utc, ⟨⟨2025, 3, 15, by decide⟩, ⟨12, 0, 0, 0, by decide⟩⟩⟩
    let folder : Record := { name := "Albums", kind := "folder" }
    let photo : Record := { name := "Beach.JPG", tags := ["Holiday"] }
    "image/png,".toList.splitOn ',' = ["image/png".toList] ++ [[]] ∧
      Criterion.holds here folder ⟨"mimetype", "image/png"⟩ = .ok false ∧
      Criterion.holds here folder ⟨"mimetype", "image/png,"⟩ = .ok true ∧
      "work,".toList.splitOn ',' = ["work".toList] ++ [[]] ∧
      Criterion.holds here photo ⟨"tag", "work"⟩ = .ok false ∧
      Criterion.holds here photo ⟨"tag", "work,"⟩ = .ok true := by
  decide +kernel

end DavQuery
