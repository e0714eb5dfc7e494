import DavQuery.Executor
import DavQuery.Proofs.Query.RoundTrip

/-! The text of a query that lists the records of a folder which meet some criteria, each by a
template and without a bullet. It is read as the query that it writes, and no line is passed
over. -/

namespace DavQuery.Query
open Text

def plainChars (p : String × String) : Line := p.1.toList ++ ':' :: ' ' :: p.2.toList

section Header
variable {p : String × String}

theorem HeaderFits.trimmed_plainChars (h : HeaderFits p) : Trimmed (plainChars p) := by
  have hkey : p.1.toList ≠ [] := by simpa using h.1.1
  have hvalue : p.2.toList ≠ [] := by simpa using h.2.2.1
  simpa [plainChars] using h.1.2.1.append h.2.2.2.1 hkey hvalue [':', ' ']

theorem HeaderFits.plain_not_allBlank (h : HeaderFits p) : ¬ AllBlank (plainChars p) := fun hb => by
  rw [← trimChars_eq_nil_iff, h.trimmed_plainChars.trimChars_eq] at hb
  simp [plainChars] at hb

theorem HeaderFits.plain_not_opens (h : HeaderFits p) (hname : p.1 ≠ "filter") :
    ¬ Opens (plainChars p) := by
  rintro ⟨r, hr⟩
  rw [h.trimmed_plainChars.trimChars_eq, opening_eq] at hr
  have hcut : cutFirst ':' (plainChars p) = some (['f', 'i', 'l', 't', 'e', 'r'], r) := by
    rw [← hr]
    exact cutFirst_append (a := ['f', 'i', 'l', 't', 'e', 'r']) (by decide) r
  rw [plainChars, cutFirst_append h.2.1, Option.some.injEq, Prod.mk.injEq] at hcut
  exact hname (String.toList_inj.1 hcut.1)

theorem HeaderFits.head?_plainChars (h : HeaderFits p) :
    (plainChars p).head? = p.1.toList.head? := by
  obtain ⟨c, r, hkey⟩ := List.exists_cons_of_ne_nil (by simpa using h.1.1 : p.1.toList ≠ [])
  simp [plainChars, hkey]

theorem HeaderFits.closes (h : HeaderFits p) (hname : p.1 ≠ "filter")
    (hhyphen : p.1.toList.head? ≠ some '-') : Closes (plainChars p) := by
  have hhead : ∀ c, (plainChars p).head? = some c → isBlank c = false := h.trimmed_plainChars.1
  have htrim : (trimChars (plainChars p)).head? ≠ some '-' := by
    rwa [h.trimmed_plainChars.trimChars_eq, h.head?_plainChars]
  refine ⟨h.plain_not_allBlank, h.plain_not_opens hname, ?_, ?_, ?_, htrim⟩
  · rintro ⟨c, hc⟩
    exact htrim hc.head
  · exact fun e => absurd (hhead ' ' e) (by decide)
  · exact fun e => absurd (hhead '\t' e) (by decide)

theorem roleOf_plainChars (h : HeaderFits p) (hname : p.1 ≠ "filter")
    (hhyphen : p.1.toList.head? ≠ some '-') (inside : Bool) :
    roleOf inside (plainChars p) = .header p.1 p.2 := by
  have hspace : AllBlank [' '] := by decide
  have hsplits := h.splits allBlank_nil hspace
  refine roleOf_eq_iff.2 (.header h.plain_not_allBlank (h.plain_not_opens hname)
    (.inr (h.closes hname hhyphen)) ?_)
  simpa [plainChars] using hsplits

end Header

def itemChars (c : Criterion) : Line :=
  [' ', ' '] ++ '-' :: ' ' :: (c.key.toList ++ ':' :: ' ' :: c.value.toList)

theorem roleOf_itemChars {c : Criterion} (h : CriterionFits c) :
    roleOf true (itemChars c) = .item c := by
  have hindent : AllBlank [' ', ' '] := by decide
  exact roleOf_eq_iff.2 (.item rfl (h.lists hindent))

variable {folder template : String} {criteria : List Criterion}

/-- The query that lists the records of the folder which meet the criteria, each by the template. -/
def asking (folder template : String) (criteria : List Criterion) : Query where
  command := some Executor.listFiles
  folder := some folder
  format := some template
  listStyle := some "none"
  criteria := some criteria

def askingLines (folder template : String) (criteria : List Criterion) : List String :=
  ["command: List Files", "folder: " ++ folder, "filter:"] ++
    criteria.map (fun c => "  - " ++ c.key ++ ": " ++ c.value) ++
    ["format: " ++ template, "list-style: none"]

/-- The text of these lines; the last one may be ended as the others are. -/
def askingText (folder template : String) (criteria : List Criterion) (ended : Bool) : String :=
  "\n".intercalate (askingLines folder template criteria ++ if ended then [""] else [])

theorem toList_eq_plainChars {start key : String} (h : start.toList = key.toList ++ [':', ' '])
    (value : String) : (start ++ value).toList = plainChars (key, value) := by
  rw [String.toList_append, h, List.append_assoc]
  rfl

theorem map_toList_askingLines :
    (askingLines folder template criteria).map String.toList =
      plainChars ("command", "List Files") :: plainChars ("folder", folder) :: opening ::
        (criteria.map itemChars ++
          [plainChars ("format", template), plainChars ("list-style", "none")]) := by
  have hcommand : "command: List Files".toList = plainChars ("command", "List Files") := by decide
  have hstyle : "list-style: none".toList = plainChars ("list-style", "none") := by decide
  have hfolder : ("folder: " ++ folder).toList = plainChars ("folder", folder) :=
    toList_eq_plainChars (by decide) folder
  have htemplate : ("format: " ++ template).toList = plainChars ("format", template) :=
    toList_eq_plainChars (by decide) template
  have hstart : "  - ".toList = [' ', ' ', '-', ' '] := by decide
  have hcolon : ": ".toList = [':', ' '] := by decide
  have hitem (c : Criterion) : ("  - " ++ c.key ++ ": " ++ c.value).toList = itemChars c := by
    simp only [String.toList_append, hstart, hcolon, itemChars, List.append_assoc,
      List.cons_append, List.nil_append]
  simp only [askingLines, List.map_append, List.map_cons, List.map_nil, List.map_map,
    Function.comp_def, hitem, hcommand, hfolder, htemplate, hstyle, List.cons_append,
    List.nil_append]
  rfl

structure Carried (folder template : String) (criteria : List Criterion) : Prop where
  folder : Fits folder
  template : Fits template
  criterion : ∀ c ∈ criteria, CriterionFits c

theorem readLines_plainChars {value : String} (hvalue : Fits value) (h : Header) (number : Nat)
    (inside : Bool) (q : Query) (rest : List Line) :
    readLines number inside q (plainChars (h.key, value) :: rest) =
      readLines (number + 1) false (q.set h.key value) rest := by
  have hkey : Fits h.key ∧ ':' ∉ h.key.toList ∧ h.key ≠ "filter" ∧
      h.key.toList.head? ≠ some '-' := by
    cases h <;> decide
  rw [readLines_cons,
    roleOf_plainChars (p := (h.key, value)) ⟨hkey.1, hkey.2.1, hvalue⟩ hkey.2.2.1 hkey.2.2.2]
  rfl

theorem readLines_itemChars (h : ∀ c ∈ criteria, CriterionFits c) (number : Nat) (q : Query)
    (rest : List Line) :
    readLines number true q (criteria.map itemChars ++ rest) =
      readLines (number + criteria.length) true (criteria.foldl addCriterion q) rest :=
  readLines_map_append itemChars .item (fun c hc => roleOf_itemChars (h c hc)) (fun _ => rfl)
    (fun _ => rfl) number q rest

theorem readLines_opening (number : Nat) (inside : Bool) (q : Query) (rest : List Line) :
    readLines number inside q (opening :: rest) =
      readLines (number + 1) true { q with criteria := some [] } rest := by
  have hopens : Opens opening := by decide
  rw [readLines_cons, roleOf_eq_iff.2 (.opener hopens)]
  rfl

theorem readLines_askingLines (h : Carried folder template criteria) (rest : List Line) :
    readLines 1 false empty ((askingLines folder template criteria).map String.toList ++ rest) =
      readLines (criteria.length + 6) false (asking folder template criteria) rest := by
  have hcommand : Fits "List Files" := by decide
  have hstyle : Fits "none" := by decide
  rw [map_toList_askingLines, List.cons_append, List.cons_append, List.cons_append,
    List.append_assoc]
  change readLines 1 false empty (plainChars (Header.command.key, _) ::
    plainChars (Header.folder.key, _) :: opening :: (criteria.map itemChars ++
      (plainChars (Header.format.key, _) :: plainChars (Header.listStyle.key, _) :: rest))) = _
  rw [readLines_plainChars hcommand, readLines_plainChars h.folder, readLines_opening,
    readLines_itemChars h.criterion, readLines_plainChars h.template, readLines_plainChars hstyle,
    foldl_addCriterion criteria rfl]
  have hnumber : 1 + 1 + 1 + 1 + criteria.length + 1 + 1 = criteria.length + 6 := by omega
  rw [hnumber]
  rfl

theorem not_mem_askingLines {x : Char} (hx : x = '\n' ∨ x = '\r') (hfolder : x ∉ folder.toList)
    (htemplate : x ∉ template.toList)
    (hcriteria : ∀ c ∈ criteria, CriterionFits c ∧ x ∉ c.value.toList) :
    ∀ l ∈ (askingLines folder template criteria).map String.toList, x ∉ l := by
  have hword : isWord x = false := by rcases hx with rfl | rfl <;> decide
  have hitems : ∀ c ∈ criteria, x ∉ itemChars c := fun c hc => by
    have hkey : x ∉ c.key.toList := fun hm => by simpa [hword] using (hcriteria c hc).1.2.1 x hm
    have hvalue := (hcriteria c hc).2
    rcases hx with rfl | rfl <;> simp [itemChars, hkey, hvalue]
  have hplain (key value : String) (hkey : x ∉ key.toList) (hvalue : x ∉ value.toList) :
      x ∉ plainChars (key, value) := by
    rcases hx with rfl | rfl <;> simp [plainChars, hkey, hvalue]
  rw [map_toList_askingLines]
  simp only [List.forall_mem_cons, List.forall_mem_append, List.forall_mem_map]
  refine ⟨hplain _ _ ?_ ?_, hplain _ _ ?_ hfolder, ?_, hitems, hplain _ _ ?_ htemplate,
    hplain _ _ ?_ ?_, by simp⟩ <;> rcases hx with rfl | rfl <;> decide

theorem linesOf_askingText (h : Carried folder template criteria) (ended : Bool) :
    linesOf (askingText folder template criteria ended) =
      (askingLines folder template criteria).map String.toList ++ if ended then [[]] else [] := by
  have hend : (if ended then [""] else []).map String.toList = if ended then [[]] else [] := by
    cases ended <;> rfl
  rw [linesOf, askingText, String.toList_intercalate, List.map_append, hend]
  refine List.splitOn_intercalate '\n' (fun l hl => ?_) (by simp [askingLines])
  rcases List.mem_append.1 hl with hl | hl
  · exact not_mem_askingLines (.inl rfl) h.folder.2.2 h.template.2.2
      (fun c hc => ⟨h.criterion c hc, (h.criterion c hc).2.2.2.2⟩) l hl
  · cases ended <;> simp_all

theorem not_mem_askingText (h : Carried folder template criteria) (hfolder : '\r' ∉ folder.toList)
    (htemplate : '\r' ∉ template.toList) (hcriteria : ∀ c ∈ criteria, '\r' ∉ c.value.toList)
    (ended : Bool) : '\r' ∉ (askingText folder template criteria ended).toList := by
  have hlines := not_mem_askingLines (.inr rfl) hfolder htemplate
    fun c hc => ⟨h.criterion c hc, hcriteria c hc⟩
  rw [askingText, String.toList_intercalate, List.map_append]
  refine not_mem_intercalate (by decide) fun l hl => ?_
  rcases List.mem_append.1 hl with hl | hl
  · exact hlines l hl
  · cases ended <;> simp_all

theorem readWithIgnored_askingText (h : Carried folder template criteria) (ended : Bool) :
    readWithIgnored (askingText folder template criteria ended) =
      (asking folder template criteria, []) := by
  change readLines 1 false empty (linesOf _) = _
  rw [linesOf_askingText h, readLines_askingLines h]
  cases ended with
  | false => rfl
  | true => exact readLines_blank ..

end DavQuery.Query
