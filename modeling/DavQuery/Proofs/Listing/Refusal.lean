import DavQuery.Client
import DavQuery.Proofs.Listing.Decoding
import DavQuery.Proofs.Url.Reference
import DavQuery.Xml.Document

/-! What a listing fails with. One that is no document is announced as such. One that is a document
fails only at a reference whose host is in doubt, and that is not announced. -/

namespace DavQuery
open Url.Reference

namespace Listing
open Text Xml

variable {parse : Reader} {text : RawText} {request : String}

/-- The text is a listing with an entry whose reference is refused. -/
def HasRefused (parse : Reader) (text : RawText) : Prop :=
  ∃ root, parse text = .ok root ∧ ∃ e ∈ entries root, Refused (hrefOf e).toList

/-- What the text of a listing fails with. -/
inductive Fails (parse : Reader) (text : RawText) : Failure → Prop
  | noDocument {message : String} :
      parse text = .error (.illFormed message) → Fails parse text (notWellFormed message)
  | reader {b : Breach} : parse text = .error (.breach b) → Fails parse text (.breach b)
  | refused : HasRefused parse text → Fails parse text (.breach .hostReference)

theorem pathOf?_eq_none_iff {e : Element} : pathOf? e = none ↔ Refused (hrefOf e).toList := by
  rw [pathOf?, pathOrAll?, Option.map_eq_none_iff, read?_eq_none_iff]

theorem outcome_eq_error_iff_refused {e : Element} {request : String} {b : Breach} :
    outcome request e = .error b ↔ b = .hostReference ∧ Refused (hrefOf e).toList := by
  rw [outcome_eq_error_iff, pathOf?_eq_none_iff]
  have hne : Refused (hrefOf e).toList → hrefOf e ≠ "" := fun h hnil => by
    rw [hnil] at h
    exact not_refused_nil h
  exact and_congr_right fun _ => and_iff_right_of_imp hne

theorem recordsOf_eq_error_iff {request : String} {entries : List Element} {b : Breach} :
    recordsOf request entries = .error b ↔
      b = .hostReference ∧ ∃ e ∈ entries, Refused (hrefOf e).toList := by
  cases hm : entries.mapM (outcome request) with
  | error b' =>
    obtain ⟨e, he, ho⟩ := exists_of_mapM_eq_error hm
    obtain ⟨rfl, hrefused⟩ := outcome_eq_error_iff_refused.1 ho
    simp only [recordsOf, hm, Except.map, Except.error.injEq]
    exact ⟨fun hb => ⟨hb.symm, e, he, hrefused⟩, fun h => h.1.symm⟩
  | ok outcomes =>
    simp only [recordsOf, hm, Except.map, reduceCtorEq, false_iff, not_and]
    rintro rfl ⟨e, he, hrefused⟩
    have ho : outcome request e = .error .hostReference :=
      outcome_eq_error_iff_refused.2 ⟨rfl, hrefused⟩
    obtain ⟨b, hb⟩ := exists_mapM_eq_error_iff.2 ⟨e, he, _, ho⟩
    simp [hm] at hb

theorem records_of_illFormed {message : String} (h : parse text = .error (.illFormed message)) :
    records parse text request = .error (notWellFormed message) := by
  rw [records, h]

theorem records_of_breach {b : Breach} (h : parse text = .error (.breach b)) :
    records parse text request = .error (.breach b) := by
  rw [records, h]

theorem records_eq_error_iff {f : Failure} :
    records parse text request = .error f ↔ Fails parse text f := by
  constructor
  · intro h
    cases hread : parse text with
    | error fault =>
      cases fault with
      | illFormed message =>
        cases (records_of_illFormed hread).symm.trans h
        exact .noDocument hread
      | breach b =>
        cases (records_of_breach hread).symm.trans h
        exact .reader hread
    | ok root =>
      rw [records_of_ok hread] at h
      cases hr : recordsOf request (entries root) with
      | ok rs => simp [hr, Except.mapError] at h
      | error b =>
        obtain ⟨rfl, hrefused⟩ := recordsOf_eq_error_iff.1 hr
        obtain rfl : .breach .hostReference = f := by simpa [hr, Except.mapError] using h
        exact .refused ⟨root, hread, hrefused⟩
  · intro h
    cases h with
    | noDocument hread => exact records_of_illFormed hread
    | reader hread => exact records_of_breach hread
    | refused hrefused =>
      obtain ⟨root, hread, hrefused⟩ := hrefused
      rw [records_of_ok hread, recordsOf_eq_error_iff.2 ⟨rfl, hrefused⟩]
      rfl

theorem records_eq_ok_or_response_iff :
    ((∃ rs, records parse text request = .ok rs) ∨
        ∃ message, records parse text request = .error (.response message)) ↔
      ¬ HasRefused parse text ∧ ∀ b, parse text ≠ .error (.breach b) := by
  constructor
  · intro h
    have hno (b : Breach) : records parse text request ≠ .error (.breach b) := by
      rintro hb
      simp [hb] at h
    exact ⟨fun hrefused => hno _ (records_eq_error_iff.2 (.refused hrefused)),
      fun b hb => hno b (records_eq_error_iff.2 (.reader hb))⟩
  · rintro ⟨hkept, hreader⟩
    cases h : records parse text request with
    | ok rs => exact .inl ⟨rs, rfl⟩
    | error f =>
      rcases records_eq_error_iff.1 h with _ | hbreach | hrefused
      · exact .inr ⟨_, rfl⟩
      · exact absurd hbreach (hreader _)
      · exact absurd hrefused hkept

end Listing

namespace Client

def InDoubt (url : RawText) : Prop := ∀ s, url.chars? = some s → Refused s

theorem inDoubt_iff {url : RawText} :
    InDoubt url ↔ url.chars?.bind Url.Reference.read? = none := by
  unfold InDoubt
  cases url.chars? <;> simp [read?_eq_none_iff]

variable {κ : Type} {e : Remote κ}

/-- What listing a folder at an address fails with, the answer to the call being known. -/
inductive Fails (e : Remote κ) (url : RawText) : Except Failure Http.Response → Failure → Prop
  | request {f : Failure} : Fails e url (.error f) f
  | status {r : Http.Response} : r.isSuccess = false → Fails e url (.ok r) (.badStatus r.status)
  | text {r : Http.Response} {b : Breach} : r.isSuccess = true → e.agent.text r = .error b →
      Fails e url (.ok r) (.breach b)
  | address {r : Http.Response} {text : RawText} : r.isSuccess = true →
      e.agent.text r = .ok text → InDoubt url → Fails e url (.ok r) (.breach .hostReference)
  | listing {r : Http.Response} {text : RawText} {f : Failure} : r.isSuccess = true →
      e.agent.text r = .ok text → ¬ InDoubt url → Listing.Fails e.parse text f →
      Fails e url (.ok r) f

section
variable {url : RawText} {folder : String} {r : Http.Response} {w : Http.Wire} {f : Failure}

theorem readListing_of_status (h : r.isSuccess = false) :
    (readListing e url folder r w).1 = .error (.badStatus r.status) := by
  simp [readListing, h]

theorem readListing_of_text_error {b : Breach} (h : r.isSuccess = true)
    (htext : e.agent.text r = .error b) :
    (readListing e url folder r w).1 = .error (.breach b) := by
  simp [readListing, h, htext]

theorem readListing_of_inDoubt {text : RawText} (h : r.isSuccess = true)
    (htext : e.agent.text r = .ok text) (hurl : InDoubt url) :
    (readListing e url folder r w).1 = .error (.breach .hostReference) := by
  simp [readListing, h, htext, inDoubt_iff.1 hurl]

theorem readListing_of_read? {text : RawText} {ref : Url.Reference} (h : r.isSuccess = true)
    (htext : e.agent.text r = .ok text) (hurl : url.chars?.bind Url.Reference.read? = some ref) :
    (readListing e url folder r w).1 = Listing.records e.parse text (String.ofList ref.path) := by
  simp only [readListing, h, htext, hurl, Bool.not_true, Bool.false_eq_true, if_false]
  cases Listing.records e.parse text (String.ofList ref.path) <;> rfl

theorem readListing_eq_error_iff :
    (readListing e url folder r w).1 = .error f ↔ Fails e url (.ok r) f := by
  constructor
  · intro h
    cases hsuccess : r.isSuccess with
    | false =>
      cases (readListing_of_status hsuccess).symm.trans h
      exact .status hsuccess
    | true =>
      cases htext : e.agent.text r with
      | error b =>
        cases (readListing_of_text_error hsuccess htext).symm.trans h
        exact .text hsuccess htext
      | ok text =>
        by_cases hdoubt : InDoubt url
        · cases (readListing_of_inDoubt hsuccess htext hdoubt).symm.trans h
          exact .address hsuccess htext hdoubt
        · obtain ⟨ref, hurl⟩ := Option.ne_none_iff_exists'.1 (mt inDoubt_iff.2 hdoubt)
          rw [readListing_of_read? hsuccess htext hurl] at h
          exact .listing hsuccess htext hdoubt (Listing.records_eq_error_iff.1 h)
  · intro h
    cases h with
    | status hsuccess => exact readListing_of_status hsuccess
    | text hsuccess htext => exact readListing_of_text_error hsuccess htext
    | address hsuccess htext hdoubt => exact readListing_of_inDoubt hsuccess htext hdoubt
    | listing hsuccess htext hdoubt hfails =>
      obtain ⟨ref, hurl⟩ := Option.ne_none_iff_exists'.1 (mt inDoubt_iff.2 hdoubt)
      rw [readListing_of_read? hsuccess htext hurl]
      exact Listing.records_eq_error_iff.2 hfails

end

@[simp] theorem listRecords_ofString (e : Remote κ) (c : Client κ) (w : Http.Wire)
    (folder : String) : c.listRecords e w folder = c.listFolder e w folder := by
  simp [listRecords]

theorem listFolder_fst (e : Remote κ) (c : Client κ) (w : Http.Wire) (folder : String) :
    (c.listFolder e w folder).1 =
      let (answer, _, w) := c.propfind e w (c.folderUrl folder) "1" (some listingBody)
      answer.bind fun r => (readListing e (c.folderUrl folder) folder r w).1 := by
  unfold listFolder
  dsimp only
  rcases c.propfind e w (c.folderUrl folder) "1" (some listingBody) with ⟨f | r, c', w'⟩
  · rfl
  · rfl

theorem listFolder_eq_error_iff {c : Client κ} {w : Http.Wire} {folder : String} {f : Failure} :
    (c.listFolder e w folder).1 = .error f ↔
      Fails e (c.folderUrl folder)
        (c.propfind e w (c.folderUrl folder) "1" (some listingBody)).1 f := by
  rw [listFolder_fst]
  rcases c.propfind e w (c.folderUrl folder) "1" (some listingBody) with ⟨f | r, c', w'⟩
  · simp only [Except.bind, Except.error.injEq]
    constructor
    · rintro rfl
      exact .request
    · intro h
      cases h
      rfl
  · exact readListing_eq_error_iff

/-- A listing gives records or is announced as no document, unless a reference in it is refused or
the reader breaks off in a way of its own. A client whose call is answered fails for the same
reasons, or at the status, or because the answer has no text or its own address is in doubt. -/
theorem listing_fails_iff (parse : Xml.Reader) (text : RawText) (request : String) (e : Remote κ)
    (c : Client κ) (w : Http.Wire) (folder : String) (f : Failure) :
    (((∃ rs, Listing.records parse text request = .ok rs) ∨
        ∃ message, Listing.records parse text request = .error (.response message)) ↔
      ¬ Listing.HasRefused parse text ∧ ∀ b, parse text ≠ .error (.breach b)) ∧
    (Listing.records parse text request = .error f ↔ Listing.Fails parse text f) ∧
    ((c.listRecords e w folder).1 = .error f ↔
      Fails e (c.folderUrl folder)
        (c.propfind e w (c.folderUrl folder) "1" (some listingBody)).1 f) := by
  rw [listRecords_ofString]
  exact ⟨Listing.records_eq_ok_or_response_iff, Listing.records_eq_error_iff,
    listFolder_eq_error_iff⟩

end Client

namespace Xml

theorem Entities.expandValue_literal (entities : Entities) (known : List (List Char × Entity))
    (s : List Char) : entities.expandValue known (s.map .literal) = some s := by
  induction s with
  | nil => simp [Entities.expandValue]
  | cons c r ih => simp [Entities.expandValue, ih]

theorem Document.readUnified?_of_element {s : List Char} {items : List Item}
    (hplain : s.all isAllowed = true ∧ Document.spanHead s = some (false, s) ∧
      skipRemarks s = s ∧ Document.spanDoctype false s = some ({}, s))
    (hitems : Item.spanElement 0 s = some (items, [])) :
    Document.readUnified? s = (Event.ofItems? {} [] items).bind (Element.ofEvents? []) := by
  obtain ⟨hallowed, hhead, hskip, hdoctype⟩ := hplain
  have hend : skipRemarks [] = [] := by decide +kernel
  simp [Document.readUnified?, hallowed, hhead, hskip, hdoctype, hitems, hend]

theorem Document.read?_of_element {s : List Char} {items : List Item}
    (hstart : s.head? ≠ some Document.byteOrderMark ∧ '\r' ∉ s)
    (hplain : s.all isAllowed = true ∧ Document.spanHead s = some (false, s) ∧
      skipRemarks s = s ∧ Document.spanDoctype false s = some ({}, s))
    (hitems : Item.spanElement 0 s = some (items, [])) :
    Document.read? s = (Event.ofItems? {} [] items).bind (Element.ofEvents? []) := by
  rw [Document.read?, if_neg hstart.1, Text.unifyLineEnds_of_not_mem hstart.2,
    Document.readUnified?_of_element hplain hitems]

theorem Document.reader_of_read? {s : String} {root : Element}
    (h : Document.read? s.toList = some root) : Document.reader s = .ok root := by
  simp [Document.reader, RawText.ofString, h]

end Xml

namespace Listing
open Text Xml

/-- A listing with an entry that has an opening bracket for its host. -/
def bracketText : String := "<m xmlns=\"DAV:\"><response><href>http://[</href></response></m>"

theorem read?_bracketText :
    Document.read? bracketText.toList =
      some ⟨dav "m", "", [⟨dav "response", "", [⟨dav "href", "http://[", []⟩]⟩]⟩ := by
  have hitems : Item.spanElement 0 bracketText.toList =
      some ([.opens ['m'] [("xmlns".toList, "DAV:".toList.map .literal)] false,
        .opens "response".toList [] false, .opens "href".toList [] false,
        .text "http://[".toList, .closes "href".toList, .closes "response".toList,
        .closes ['m']], []) := by
    decide +kernel
  rw [Document.read?_of_element (by decide +kernel) (by decide +kernel) hitems]
  simp only [Event.ofItems?, Event.ofStartTag, List.mapM_cons, List.mapM_nil,
    Entities.expandValue_literal]
  rfl

/-- A bracket for a host is neither read nor announced. -/
theorem records_bracketText :
    records Document.reader bracketText "/" = .error (.breach .hostReference) ∧
      ¬ ((∃ rs, records Document.reader bracketText "/" = .ok rs) ∨
        ∃ message, records Document.reader bracketText "/" = .error (.response message)) := by
  have h : records Document.reader bracketText "/" = .error (.breach .hostReference) := by
    rw [records_of_ok (Document.reader_of_read? read?_bracketText)]
    decide +kernel
  simp [h]

end Listing

end DavQuery
