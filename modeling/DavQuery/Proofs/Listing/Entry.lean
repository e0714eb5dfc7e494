import DavQuery.Proofs.Listing.Properties

/-! What an entry comes to, told of its reference and the properties that count: a failure, the
folder itself, an entry that is left out, or a record. -/

namespace DavQuery.Listing
open Text Xml

def hrefOf (entry : Element) : String := textOf entry (dav "href")

/-- The path of an entry's reference; all of the reference if there is no path, and nothing if its
host cannot be told. -/
def pathOf? (entry : Element) : Option (List Char) :=
  Url.Reference.pathOrAll? (hrefOf entry).toList

theorem recordOf?_eq_none_iff {path : List Char} {props : List Element} :
    recordOf? path props = none ↔ nameOf props path = "" := by
  simp [recordOf?]

theorem outcome_congr {e e' : Element} (request : String) (hhref : hrefOf e = hrefOf e')
    (hprops : properties e = properties e') : outcome request e = outcome request e' := by
  unfold hrefOf at hhref
  simp only [outcome, hhref, hprops]

theorem outcome_of_no_href {e : Element} (h : hrefOf e = "") (request : String) :
    outcome request e = .ok (.unnamed "") := by
  unfold hrefOf at h
  simp [outcome, h]

theorem outcome_of_no_path {e : Element} (hhref : hrefOf e ≠ "") (h : pathOf? e = none)
    (request : String) : outcome request e = .error .hostReference := by
  unfold hrefOf at hhref
  unfold pathOf? hrefOf at h
  simp [outcome, hhref, h]

theorem outcome_of_same {e : Element} {path : List Char} {request : String}
    (hhref : hrefOf e ≠ "") (h : pathOf? e = some path)
    (hsame : Folder.same (String.ofList path) request = true) :
    outcome request e = .ok .itself := by
  unfold hrefOf at hhref
  unfold pathOf? hrefOf at h
  simp [outcome, hhref, h, hsame]

theorem outcome_of_no_properties {e : Element} {path : List Char} {request : String}
    (hhref : hrefOf e ≠ "") (h : pathOf? e = some path)
    (hsame : Folder.same (String.ofList path) request = false) (hprops : properties e = []) :
    outcome request e = .ok (.unnamed (hrefOf e)) := by
  unfold hrefOf at hhref ⊢
  unfold pathOf? hrefOf at h
  simp [outcome, hhref, h, hsame, hprops]

theorem outcome_of_properties {e : Element} {path : List Char} {request : String}
    (hhref : hrefOf e ≠ "") (h : pathOf? e = some path)
    (hsame : Folder.same (String.ofList path) request = false) (hprops : properties e ≠ []) :
    outcome request e = .ok (match recordOf? path (properties e) with
      | some r => .record r
      | none => .unnamed (hrefOf e)) := by
  unfold hrefOf at hhref ⊢
  unfold pathOf? hrefOf at h
  obtain ⟨p, props, hp⟩ := List.exists_cons_of_ne_nil hprops
  simp only [outcome, h, hsame, hp]
  cases recordOf? path (p :: props) <;> simp [hhref]

theorem outcome_eq_error_iff {e : Element} {request : String} {b : Breach} :
    outcome request e = .error b ↔ b = .hostReference ∧ hrefOf e ≠ "" ∧ pathOf? e = none := by
  by_cases hhref : hrefOf e = ""
  · simp [outcome_of_no_href hhref, hhref]
  cases hpath : pathOf? e with
  | none => simp [outcome_of_no_path hhref hpath, hhref, eq_comm]
  | some path =>
    cases hsame : Folder.same (String.ofList path) request with
    | true => simp [outcome_of_same hhref hpath hsame]
    | false =>
      by_cases hprops : properties e = []
      · simp [outcome_of_no_properties hhref hpath hsame hprops]
      · simp [outcome_of_properties hhref hpath hsame hprops]

theorem outcome_eq_record_iff {e : Element} {request : String} {r : Record} :
    outcome request e = .ok (.record r) ↔ hrefOf e ≠ "" ∧ ∃ path, pathOf? e = some path ∧
      Folder.same (String.ofList path) request = false ∧ properties e ≠ [] ∧
      recordOf? path (properties e) = some r := by
  by_cases hhref : hrefOf e = ""
  · simp [outcome_of_no_href hhref, hhref]
  cases hpath : pathOf? e with
  | none => simp [outcome_of_no_path hhref hpath]
  | some path =>
    cases hsame : Folder.same (String.ofList path) request with
    | true => simp [outcome_of_same hhref hpath hsame, hsame]
    | false =>
      by_cases hprops : properties e = []
      · simp [outcome_of_no_properties hhref hpath hsame hprops, hprops]
      · rw [outcome_of_properties hhref hpath hsame hprops]
        cases hr : recordOf? path (properties e) <;> simp [hhref, hsame, hprops, hr]

end DavQuery.Listing
