import DavQuery.Proofs.Selection.Items
import DavQuery.Proofs.Template.Pass

/-! The name of a record and its last full stop. What a template shows as the stem and the extension
makes up the name again, and a list of extensions is compared with the extension that is shown. Of a
name without a full stop no extension is shown, but the list is compared with all of it. -/

namespace DavQuery
open Calendar Text

namespace Record
variable {r : Record}

theorem stem_append_extension (h : '.' ∈ r.name.toList) :
    r.stem ++ "." ++ r.extension = r.name := by
  obtain ⟨p, hcut⟩ := Option.ne_none_iff_exists'.1 (cutLast_ne_none h)
  have hname := (cutLast_eq_some (a := p.1) (b := p.2) hcut).1
  rw [← String.toList_inj, hname]
  simp [stem, extension, hcut]

theorem stop_notMem_extension (r : Record) : '.' ∉ r.extension.toList := by
  cases hcut : cutLast '.' r.name.toList with
  | none => simp [extension, hcut]
  | some p => simpa [extension, hcut] using (cutLast_eq_some (a := p.1) (b := p.2) hcut).2

theorem stem_of_notMem (h : '.' ∉ r.name.toList) : r.stem = r.name := by
  simp [stem, cutLast_eq_none_iff.2 h]

theorem extension_of_notMem (h : '.' ∉ r.name.toList) : r.extension = "" := by
  simp [extension, cutLast_eq_none_iff.2 h]

end Record

namespace Criterion
variable {r : Record}

/-- The word is one of the items of the list of values, whatever the case of either. -/
def HasItem (value word : String) : Prop :=
  lowerChars word.toList ∈ (value.toList.splitOn ',').map fun item => lowerChars (trimChars item)

instance (value word : String) : Decidable (HasItem value word) :=
  inferInstanceAs (Decidable (_ ∈ _))

theorem extensionOf_of_mem (h : '.' ∈ r.name.toList) :
    extensionOf r.name = lowerChars r.extension.toList := by
  obtain ⟨p, hcut⟩ := Option.ne_none_iff_exists'.1 (cutLast_ne_none h)
  simp [extensionOf, Record.extension, hcut]

theorem extensionOf_of_notMem (h : '.' ∉ r.name.toList) :
    extensionOf r.name = lowerChars r.name.toList := by
  simp [extensionOf, cutLast_eq_none_iff.2 h]

theorem holds_of_extensionOf (here : LocalTime) {word value : String}
    (hword : extensionOf r.name = lowerChars word.toList) (hvalue : value ≠ "") :
    holds here r ⟨"extension", value⟩ = .ok (decide (word ≠ "" ∧ HasItem value word)) := by
  have hkey : Aspect.ofKey? "extension" = some .extension := by decide
  rw [holds_of_aspect (aspect?_of_value hkey hvalue), test, hasExtension, hword, Except.ok.injEq,
    Bool.eq_iff_iff]
  simp [HasItem, items, lowerChars_eq_nil_iff]

end Criterion

namespace Template
variable (zone : Zone) (r : Record)

theorem expand_stem : expand zone "\x7b\x7bfilename\x7d\x7d" r = .ok r.stem := by
  have htext : "\x7b\x7bfilename\x7d\x7d" = String.ofList (placeholderText "filename".toList) := by
    decide
  have hword : (String.ofList "filename".toList, Token.stem) ∈ Token.words := by decide
  rw [htext, expand_token zone r hword, Token.value]

theorem expand_extension : expand zone "\x7b\x7bext\x7d\x7d" r = .ok r.extension := by
  have htext : "\x7b\x7bext\x7d\x7d" = String.ofList (placeholderText "ext".toList) := by decide
  have hword : (String.ofList "ext".toList, Token.extension) ∈ Token.words := by decide
  rw [htext, expand_token zone r hword, Token.value]

theorem expand_stem_extension :
    expand zone "\x7b\x7bfilename\x7d\x7d.\x7b\x7bext\x7d\x7d" r =
      .ok (r.stem ++ "." ++ r.extension) := by
  have hparts : PartsOf "\x7b\x7bfilename\x7d\x7d.\x7b\x7bext\x7d\x7d".toList
      [([], "filename".toList), (['.'], "ext".toList)] [] :=
    ⟨by decide, by decide, by decide, by decide⟩
  have hstem : (String.ofList "filename".toList, Token.stem) ∈ Token.words := by decide
  have hextension : (String.ofList "ext".toList, Token.extension) ∈ Token.words := by decide
  rw [expand_of_partsOf zone r (by decide) hparts]
  simp only [List.mapM_cons, List.mapM_nil, expandMarked, expand_token zone r hstem,
    expand_token zone r hextension, Token.value, bind,
    Except.bind, pure, Except.pure, Except.ok.injEq]
  simp [← String.toList_inj]

end Template

/-- The criterion and the placeholders cut a name at the same full stop. Of a name with one, the
stem and the extension that are shown make up the name, and a list of extensions holds if the
extension shown is an item of it; of a name without one the stem is all of it, no extension is
shown, and a list holds if the name is an item of it. -/
theorem extensions_agree_with_tokens (here : LocalTime) (r : Record) :
    ('.' ∈ r.name.toList →
      Template.expand here.zone "\x7b\x7bfilename\x7d\x7d.\x7b\x7bext\x7d\x7d" r = .ok r.name ∧
      ∃ shown, Template.expand here.zone "\x7b\x7bext\x7d\x7d" r = .ok shown ∧
        '.' ∉ shown.toList ∧
        ∀ value, value ≠ "" → Criterion.holds here r ⟨"extension", value⟩ =
          .ok (decide (shown ≠ "" ∧ Criterion.HasItem value shown))) ∧
    ('.' ∉ r.name.toList →
      Template.expand here.zone "\x7b\x7bfilename\x7d\x7d" r = .ok r.name ∧
      Template.expand here.zone "\x7b\x7bext\x7d\x7d" r = .ok "" ∧
      ∀ value, value ≠ "" → Criterion.holds here r ⟨"extension", value⟩ =
        .ok (decide (r.name ≠ "" ∧ Criterion.HasItem value r.name))) := by
  refine ⟨fun h => ⟨?_, r.extension, Template.expand_extension _ r, r.stop_notMem_extension, ?_⟩,
    fun h => ⟨?_, ?_, ?_⟩⟩
  · rw [Template.expand_stem_extension, Record.stem_append_extension h]
  · intro value hvalue
    exact Criterion.holds_of_extensionOf here (Criterion.extensionOf_of_mem h) hvalue
  · rw [Template.expand_stem, Record.stem_of_notMem h]
  · rw [Template.expand_extension, Record.extension_of_notMem h]
  · intro value hvalue
    exact Criterion.holds_of_extensionOf here (Criterion.extensionOf_of_notMem h) hvalue

theorem extensions_agree_with_tokens_three :
    let here : LocalTime := ⟨.utc, ⟨⟨2025, 3, 15, by decide⟩, ⟨12, 0, 0, 0, by decide⟩⟩⟩
    let archive : Record := { name := "..ΟΔΟΣ.tar.ΑΣ" }
    let draft : Record := { name := "draft." }
    let readme : Record := { name := "README" }
    '.' ∈ archive.name.toList ∧ '.' ∈ draft.name.toList ∧ '.' ∉ readme.name.toList ∧
      Template.expand here.zone "\x7b\x7bfilename\x7d\x7d.\x7b\x7bext\x7d\x7d" archive =
        .ok archive.name ∧
      Criterion.holds here archive ⟨"extension", "tar, ας "⟩ = .ok true ∧
      Criterion.holds here draft ⟨"extension", "draft, "⟩ = .ok false ∧
      Template.expand here.zone "\x7b\x7bext\x7d\x7d" readme = .ok "" ∧
      Criterion.holds here readme ⟨"extension", "md,ReadMe"⟩ = .ok true := by
  intro here archive draft readme
  have harchive : '.' ∈ archive.name.toList := by decide
  have hdraft : '.' ∈ draft.name.toList := by decide
  have hreadme : '.' ∉ readme.name.toList := by decide
  obtain ⟨hname, shown, hshown, -, hlist⟩ := (extensions_agree_with_tokens here archive).1 harchive
  obtain ⟨-, rest, hempty, -, hcut⟩ := (extensions_agree_with_tokens here draft).1 hdraft
  obtain ⟨-, hnone, hwhole⟩ := (extensions_agree_with_tokens here readme).2 hreadme
  obtain rfl : archive.extension = shown :=
    Except.ok.inj ((Template.expand_extension _ archive).symm.trans hshown)
  obtain rfl : draft.extension = rest :=
    Except.ok.inj ((Template.expand_extension _ draft).symm.trans hempty)
  refine ⟨harchive, hdraft, hreadme, hname, ?_, ?_, hnone, ?_⟩
  · rw [hlist "tar, ας " (by decide)]
    decide +kernel
  · rw [hcut "draft, " (by decide)]
    decide +kernel
  · rw [hwhole "md,ReadMe" (by decide)]
    decide +kernel

end DavQuery
