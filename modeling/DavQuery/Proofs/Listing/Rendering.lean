import DavQuery.Proofs.Breach
import DavQuery.Proofs.Listing.Refusal
import DavQuery.Proofs.Template.Fields
import DavQuery.Proofs.Text.Integer

/-! Which records of a listing can be shown. A listing may tell a size of as many digits as a number
may have, and any text for a date. A size is written by all its digits, but it is not divided if it
is too big; a local date is not written if the text has a number that is too big for a date. Nothing
else keeps a record from being shown, by any template and in any zone. -/

namespace DavQuery
open Calendar Number Text

namespace Size

theorem exists_quotientText_eq_ok_iff {places bits : ℕ} {size : ℤ} (h : 0 ≤ size) :
    (∃ s, quotientText places bits size = .ok s) ↔ size < limit bits := by
  simp only [exists_eq_ok_iff, quotientText_eq_error_iff, exists_eq_left]
  omega

theorem exists_text_eq_ok_iff {size : ℤ} : (∃ s, text size = .ok s) ↔ size < limit 30 := by
  have hpow : ((twoTo 10 : ℕ) : ℤ) = 1024 ∧ ((twoTo 20 : ℕ) : ℤ) = 1048576 ∧
      ((twoTo 30 : ℕ) : ℤ) = 1073741824 := by decide
  have h10 : ((twoTo 30 : ℕ) : ℤ) < limit 10 := Int.ofNat_lt.2 (by decide +kernel)
  have h20 : ((twoTo 30 : ℕ) : ℤ) < limit 20 := Int.ofNat_lt.2 (by decide +kernel)
  have h30 : ((twoTo 30 : ℕ) : ℤ) < limit 30 := Int.ofNat_lt.2 (by decide +kernel)
  unfold text
  split_ifs
  · simp only [Except.ok.injEq, exists_eq', true_iff]
    omega
  · rw [exists_map_eq_ok_iff, exists_quotientText_eq_ok_iff (by omega)]
    omega
  · rw [exists_map_eq_ok_iff, exists_quotientText_eq_ok_iff (by omega)]
    omega
  · rw [exists_map_eq_ok_iff, exists_quotientText_eq_ok_iff (by omega)]

end Size

namespace Template

theorem breaks_iff_names {template : String} {r : Record} :
    Breaks template r ↔ ∃ token b, Names template token ∧ token.Breaks r b := by
  simp only [Breaks, names_iff]
  constructor
  · rintro ⟨word, token, b, hread, hword, hbreaks⟩
    exact ⟨token, b, ⟨word, hread, hword⟩, hbreaks⟩
  · rintro ⟨token, b, ⟨word, hread, hword⟩, hbreaks⟩
    exact ⟨word, token, b, hread, hword, hbreaks⟩

/-- The record can be shown by the template: a size that is divided for it is not too big, and a
date that is written for it in local time has no number that is. -/
structure Bears (template : String) (r : Record) : Prop where
  kilobytes : Names template .kilobytes → r.size < Size.limit 10
  megabytes : Names template .megabytes → r.size < Size.limit 20
  dates : Names template .date ∨ Names template .datetime → ¬ Overflows r.modified.toList

theorem not_breaks_iff_bears {template : String} {r : Record} (hsize : 0 ≤ r.size)
    (hdigits : r.size.natAbs < 10 ^ digitLimit) :
    ¬ Breaks template r ↔ Bears template r := by
  rw [breaks_iff_names]
  constructor
  · intro h
    refine ⟨fun hnames => ?_, fun hnames => ?_, fun hnames hover => ?_⟩
    · by_contra hbig
      exact h ⟨_, _, hnames, .kilobytes (by omega)⟩
    · by_contra hbig
      exact h ⟨_, _, hnames, .megabytes (by omega)⟩
    · rcases hnames with hnames | hnames
      · exact h ⟨_, _, hnames, .date hover⟩
      · exact h ⟨_, _, hnames, .datetime hover⟩
  · rintro h ⟨token, b, hnames, hlong | hbig | hbig | hover | hover⟩
    · exact absurd hlong (Nat.not_le.2 hdigits)
    · have := h.kilobytes hnames
      omega
    · have := h.megabytes hnames
      omega
    · exact h.dates (.inl hnames) hover
    · exact h.dates (.inr hnames) hover

def fallible : List Token := [.kilobytes, .megabytes, .date, .datetime]

theorem bears_of_not_names {template : String}
    (h : ∀ token ∈ fallible, ¬ Names template token) (r : Record) : Bears template r where
  kilobytes hnames := absurd hnames (h .kilobytes (by decide))
  megabytes hnames := absurd hnames (h .megabytes (by decide))
  dates := by
    rintro (hnames | hnames)
    · exact absurd hnames (h .date (by decide))
    · exact absurd hnames (h .datetime (by decide))

theorem exists_expandOr_eq_ok_iff {zone : Zone} {template : Option String} {r : Record}
    (hsize : 0 ≤ r.size) (hdigits : r.size.natAbs < 10 ^ digitLimit) :
    (∃ s, expandOr zone template r = .ok s) ↔ Bears (template.getD "") r := by
  rw [exists_eq_ok_iff, exists_expandOr_eq_error_iff, not_breaks_iff_bears hsize hdigits]

end Template

namespace Listing
open Xml

section
variable {parse : Reader} {text : RawText} {request : String} {rs : List Record} {r : Record}

theorem recordsOf_of_records (h : records parse text request = .ok rs) :
    ∃ root, parse text = .ok root ∧ recordsOf request (entries root) = .ok rs := by
  rcases hread : parse text with (message | b) | root
  · simp [records, hread] at h
  · simp [records, hread] at h
  · rw [records_of_ok hread, mapError_eq_ok_iff] at h
    exact ⟨root, rfl, h⟩

theorem size_of_mem_records (h : records parse text request = .ok rs) (hr : r ∈ rs) :
    0 ≤ r.size ∧ r.size.natAbs < 10 ^ digitLimit := by
  obtain ⟨root, -, hrecords⟩ := recordsOf_of_records h
  rw [(recordsOf_eq_ok_iff.1 hrecords).2] at hr
  obtain ⟨e, -, he⟩ := List.mem_filterMap.1 hr
  obtain ⟨⟨path, -, hdecodes⟩, hwell⟩ := decodes_of_recordAt? he
  obtain ⟨own, other, -, -, hsize⟩ := hdecodes.size
  refine ⟨hwell.size_nonneg, ?_⟩
  cases hnumber : integer? (if own = "" then other else own).toList with
  | none =>
    rw [hnumber, Option.getD_none, max_self] at hsize
    rw [hsize]
    exact Nat.pow_pos (by decide)
  | some i =>
    have hi := natAbs_lt_of_integer? hnumber
    rw [hnumber, Option.getD_some] at hsize
    omega

theorem length_toString_size (h : records parse text request = .ok rs) (hr : r ∈ rs) :
    (toString r.size).length ≤ digitLimit := by
  obtain ⟨hnonneg, hlt⟩ := size_of_mem_records h hr
  obtain ⟨n, hn⟩ := Int.eq_ofNat_of_zero_le hnonneg
  have hdigits : toString (n : ℤ) = String.ofList (Nat.toDigits 10 n) :=
    Nat.toString_eq_ofList_toDigits
  rw [hn] at hlt ⊢
  rw [hdigits, String.length_ofList]
  exact (Nat.length_toDigits_le_iff (by decide) (by decide)).2 hlt

end

section
variable (size modified : String)

/-- Properties that tell a size and a date by these texts. -/
def told : Element :=
  ⟨dav "prop", "",
    [⟨dav "getlastmodified", modified, []⟩, ⟨dav "getcontentlength", size, []⟩]⟩

def telling : Element :=
  ⟨dav "response", "",
    [⟨dav "href", "/a", []⟩, ⟨dav "propstat", "", [told size modified]⟩]⟩

def toldRecord : Record :=
  { name := "a", path := "/a", size := ((integer? (trimChars size.toList)).getD 0).toNat,
    modified := trim modified }

theorem recordOf?_told :
    recordOf? "/a".toList [told size modified] = some (toldRecord size modified) := by
  have hfirst (name : Name) :
      firstText [told size modified] name = textOf (told size modified) name := by
    rw [firstText_cons]
    split
    · rename_i hempty
      rw [hempty]
      rfl
    · rfl
  have hname : nameOf [told size modified] "/a".toList = "a" := by
    have hnone : textOf (told size modified) (dav "displayname") = "" := rfl
    rw [nameOf, hfirst, hnone]
    decide +kernel
  have hpath : String.ofList (Folder.relativeChars "/a".toList) = "/a" := by decide +kernel
  have hsize : sizeOf [told size modified] =
      ((integer? (trimChars size.toList)).getD 0).toNat := by
    rw [sizeOf, hfirst, hfirst, ← toList_trim]
    rfl
  simp only [recordOf?, hname, hpath, hsize, hfirst]
  rfl

theorem recordsOf_telling :
    recordsOf "/" [telling size modified] = .ok [toldRecord size modified] := by
  have hhref : hrefOf (telling size modified) = "/a" := rfl
  have hpath : pathOf? (telling size modified) = some "/a".toList := by
    rw [pathOf?, hhref]
    decide +kernel
  have hprops : properties (telling size modified) = [told size modified] := rfl
  have houtcome : outcome "/" (telling size modified) =
      .ok (.record (toldRecord size modified)) := by
    refine outcome_eq_record_iff.2 ⟨?_, _, hpath, by decide +kernel, ?_, ?_⟩
    · simp [hhref]
    · simp [hprops]
    · rw [hprops]
      exact recordOf?_told size modified
  refine recordsOf_eq_ok_iff.2 ⟨?_, ?_⟩
  · simp [houtcome]
  · simp [recordAt?_eq_some_iff.2 houtcome]

end

def vastDigits : List Char := List.replicate 320 '9'

def vastDate : String := "1 Jan 99999999999 00:00:00 GMT"

def vastRecord : Record := { name := "a", path := "/a", size := 10 ^ 320 - 1, modified := vastDate }

/-- The characters of a listing that tells both. -/
def vastChars : List Char :=
  "<m xmlns=\"DAV:\"><response><href>/a</href><propstat><prop><getlastmodified>".toList ++
    vastDate.toList ++ "</getlastmodified><getcontentlength>".toList ++ vastDigits ++
    "</getcontentlength></prop></propstat></response></m>".toList

theorem read?_vastChars :
    Document.read? vastChars =
      some ⟨dav "m", "", [telling (String.ofList vastDigits) vastDate]⟩ := by
  have hitems : Item.spanElement 0 vastChars =
      some ([.opens ['m'] [("xmlns".toList, "DAV:".toList.map .literal)] false,
        .opens "response".toList [] false, .opens "href".toList [] false, .text "/a".toList,
        .closes "href".toList, .opens "propstat".toList [] false, .opens "prop".toList [] false,
        .opens "getlastmodified".toList [] false, .text vastDate.toList,
        .closes "getlastmodified".toList, .opens "getcontentlength".toList [] false,
        .text vastDigits, .closes "getcontentlength".toList, .closes "prop".toList,
        .closes "propstat".toList, .closes "response".toList, .closes ['m']], []) := by
    decide +kernel
  rw [Document.read?_of_element (by decide +kernel) (by decide +kernel) hitems]
  simp only [Event.ofItems?, Event.ofStartTag, List.mapM_cons, List.mapM_nil,
    Entities.expandValue_literal]
  rfl

theorem toldRecord_vast : toldRecord (String.ofList vastDigits) vastDate = vastRecord := by
  have hnumber : integer? (trimChars vastDigits) = some (10 ^ 320 - 1) := by decide +kernel
  have hdate : trim vastDate = vastDate := by decide +kernel
  have hnonneg : max (10 ^ 320 - 1 : ℤ) 0 = 10 ^ 320 - 1 := by decide +kernel
  rw [toldRecord, vastRecord, String.toList_ofList, hnumber, hdate, Option.getD_some,
    Int.toNat_eq_max, hnonneg]

theorem records_vast :
    records Document.reader (String.ofList vastChars) "/" = .ok [vastRecord] := by
  have hread : Document.read? (String.ofList vastChars).toList =
      some ⟨dav "m", "", [telling (String.ofList vastDigits) vastDate]⟩ := by
    rw [String.toList_ofList, read?_vastChars]
  have hentries : entries ⟨dav "m", "", [telling (String.ofList vastDigits) vastDate]⟩ =
      [telling (String.ofList vastDigits) vastDate] := rfl
  rw [records_of_ok (Document.reader_of_read? hread), hentries, recordsOf_telling, toldRecord_vast]
  rfl

theorem overflows_vastDate : Overflows vastDate.toList :=
  have hfault : readMoment? vastDate.toList = .error .numberRange := by decide +kernel
  (readMoment?_eq_error_iff.1 hfault).2

theorem shows_all_iff {template : Option String} :
    (∀ text request rs, records Document.reader text request = .ok rs → ∀ r ∈ rs, ∀ zone,
      ∃ s, Template.expandOr zone template r = .ok s) ↔
    ∀ token ∈ Template.fallible, ¬ Template.Names (template.getD "") token := by
  constructor
  · intro h token htoken hnames
    have hshown := h _ _ _ records_vast vastRecord (by simp) .utc
    have hbears :=
      (Template.exists_expandOr_eq_ok_iff (by decide +kernel) (by decide +kernel)).1 hshown
    simp only [Template.fallible, List.mem_cons, List.not_mem_nil, or_false] at htoken
    rcases htoken with rfl | rfl | rfl | rfl
    · exact absurd (hbears.kilobytes hnames) (by decide +kernel)
    · exact absurd (hbears.megabytes hnames) (by decide +kernel)
    · exact hbears.dates (.inl hnames) overflows_vastDate
    · exact hbears.dates (.inr hnames) overflows_vastDate
  · intro hno text request rs h r hr zone
    obtain ⟨hsize, hdigits⟩ := size_of_mem_records h hr
    exact (Template.exists_expandOr_eq_ok_iff hsize hdigits).2
      (Template.bears_of_not_names hno r)

/-- A record of a listing is shown by a template, in whatever zone, exactly if the template bears
it, and its size has a text exactly if it can be divided by the largest unit. The size never has too
many digits to be written by them. -/
theorem rendering_of_records {parse : Reader} {text : RawText} {request : String}
    {rs : List Record} {r : Record}
    (h : records parse text request = .ok rs) (hr : r ∈ rs) :
    (toString r.size).length ≤ digitLimit ∧
    (∀ (zone : Zone) (template : Option String),
      (∃ s, Template.expandOr zone template r = .ok s) ↔
        Template.Bears (template.getD "") r) ∧
    ((∃ s, Size.text r.size = .ok s) ↔ r.size < Size.limit 30) :=
  have ⟨hsize, hdigits⟩ := size_of_mem_records h hr
  ⟨length_toString_size h hr, fun _ _ => Template.exists_expandOr_eq_ok_iff hsize hdigits,
    Size.exists_text_eq_ok_iff⟩

theorem rendering_of_records_vast :
    let plain := "\x7b\x7bsize\x7d\x7d, \x7b\x7bmodified\x7d\x7d"
    (toString vastRecord.size).length ≤ digitLimit ∧
    (∀ zone, ∃ s, Template.expandOr zone (some plain) vastRecord = .ok s) ∧
    (∀ zone, ∀ template ∈ ["\x7b\x7bsizekb\x7d\x7d", "\x7b\x7bdate\x7d\x7d"],
      ¬ ∃ s, Template.expandOr zone (some template) vastRecord = .ok s) ∧
    ¬ ∃ s, Size.text vastRecord.size = .ok s := by
  intro plain
  obtain ⟨hdigits, htemplate, htext⟩ :=
    rendering_of_records records_vast (List.mem_singleton_self vastRecord)
  have hno : ∀ token ∈ Template.fallible, ¬ Template.Names plain token := by
    have hwords : ∀ p ∈ Token.words, p.2 ∈ Template.fallible →
        ¬ Template.placeholderText p.1.toList <:+: plain.toList := by decide +kernel
    rintro token htoken ⟨word, hmem, hinfix⟩
    exact hwords (word, token) hmem htoken hinfix
  refine ⟨hdigits, fun zone => (htemplate zone (some plain)).2 (Template.bears_of_not_names hno _),
    fun zone template hmem hshown => ?_, fun hshown => ?_⟩
  · have hbears := (htemplate zone (some template)).1 hshown
    simp only [List.mem_cons, List.not_mem_nil, or_false] at hmem
    rcases hmem with rfl | rfl
    · exact absurd (hbears.kilobytes ⟨"sizekb", by decide, by decide⟩) (by decide +kernel)
    · exact hbears.dates (.inl ⟨"date", by decide, by decide⟩) overflows_vastDate
  · exact absurd (htext.1 hshown) (by decide +kernel)

/-- A listing may tell a size that is too big to be divided and a date that is too big to be
written. Neither the tokens nor the text of the size show them. -/
theorem not_rendering_vast :
    records Document.reader (String.ofList vastChars) "/" = .ok [vastRecord] ∧
    Template.expandOr .utc (some "\x7b\x7bdate\x7d\x7d") vastRecord =
      .error (.date .numberRange) ∧
    Template.expandOr .utc (some "\x7b\x7bsizekb\x7d\x7d") vastRecord = .error .sizeRange ∧
    Size.text vastRecord.size = .error .sizeRange ∧
    ¬ ∀ text request rs, records Document.reader text request = .ok rs → ∀ r ∈ rs,
      (∀ zone template, ∃ s, Template.expandOr zone template r = .ok s) ∧
        ∃ s, Size.text r.size = .ok s := by
  have hsize : Size.text vastRecord.size = .error .sizeRange := by decide +kernel
  refine ⟨records_vast, by decide +kernel, by decide +kernel, hsize, fun hall => ?_⟩
  obtain ⟨s, hs⟩ := (hall _ _ _ records_vast vastRecord (by simp)).2
  simp [hsize] at hs

end Listing

end DavQuery
