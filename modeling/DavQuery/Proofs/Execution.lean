import DavQuery.Executor
import DavQuery.Proofs.Breach
import DavQuery.Proofs.Selection
import DavQuery.Proofs.Traverse

/-! Queries carried out step by step: what passes the check, which records are kept, and when the
work on the records breaks. -/

namespace DavQuery

/-- The query breaks on the record: the first criterion that does not hold breaks, or all hold and
the template breaks. -/
def Query.BreaksOn (here : Calendar.LocalTime) (q : Query) (r : Record) : Prop :=
  (∃ done c rest b, q.criteria.getD [] = done ++ c :: rest ∧
    (∀ d ∈ done, d.holds here r = .ok true) ∧ c.Breaks here r b) ∨
  (∀ c ∈ q.criteria.getD [], c.holds here r = .ok true) ∧ Template.Breaks (q.format.getD "") r

namespace Executor

variable {σ : Type} {source : Source σ} {here : Calendar.LocalTime} {settings : Settings}
  {q : Query}

theorem check_eq_ok_iff :
    check settings q = .ok () ↔ q.command = some listFiles ∧ settings.isComplete = true := by
  unfold check
  split
  · simp_all
  · split <;> simp_all

theorem keep_eq_select (records : List Record) :
    keep here q records = Selection.select here (q.criteria.getD []) records := by
  unfold keep
  cases q.criteria with
  | some cs => rfl
  | none =>
    have hall : ∀ r ∈ records, ∃ met, Record.meets here r [] = .ok met := fun r _ => ⟨true, rfl⟩
    rw [Option.getD_none, eq_comm, Selection.select_eq_ok_iff]
    exact ⟨hall, by simp [Record.meets]⟩

theorem exists_write_eq_error_iff {records : List Record} :
    (∃ b, write here q records = .error b) ↔
      ∃ r ∈ records, Template.Breaks (q.format.getD "") r := by
  simp only [write, exists_mapM_eq_error_iff, Template.exists_expandOr_eq_error_iff]

theorem exists_meets_eq_error_iff {r : Record} {cs : List Criterion} :
    (∃ b, r.meets here cs = .error b) ↔ ∃ done c rest b, cs = done ++ c :: rest ∧
      (∀ d ∈ done, d.holds here r = .ok true) ∧ c.Breaks here r b := by
  simp only [Record.meets_eq_error_iff, Criterion.holds_eq_error_iff]
  constructor
  · rintro ⟨b, done, c, rest, h⟩
    exact ⟨done, c, rest, b, h⟩
  · rintro ⟨done, c, rest, b, h⟩
    exact ⟨b, done, c, rest, h⟩

theorem present_of_keep_error {records : List Record} {b : Breach}
    (h : keep here q records = .error b) (folder : String) (s : σ) :
    (present source here q folder records s).1 = .error (.breach b) := by
  simp [present, h]

theorem exists_present_eq_breach_iff_of_keep_ok {records kept : List Record}
    (h : keep here q records = .ok kept) (folder : String) (s : σ) :
    (∃ b, (present source here q folder records s).1 = .error (.breach b)) ↔
      ∃ r ∈ kept, Template.Breaks (q.format.getD "") r := by
  have hpresent : (present source here q folder records s).1 =
      (write here q kept).mapError .breach := by
    simp [present, h]
  rw [hpresent, ← exists_write_eq_error_iff]
  cases write here q kept <;> simp [Except.mapError]

theorem exists_present_eq_breach_iff (folder : String) (records : List Record) (s : σ) :
    (∃ b, (present source here q folder records s).1 = .error (.breach b)) ↔
      ∃ r ∈ records, q.BreaksOn here r := by
  cases hkeep : keep here q records with
  | error b =>
    have hselect := hkeep
    rw [keep_eq_select] at hselect
    obtain ⟨r, hr, hmeets⟩ := Selection.exists_select_eq_error_iff.1 ⟨b, hselect⟩
    have hbreaks : q.BreaksOn here r := .inl (exists_meets_eq_error_iff.1 hmeets)
    exact ⟨fun _ => ⟨r, hr, hbreaks⟩, fun _ => ⟨b, present_of_keep_error hkeep folder s⟩⟩
  | ok kept =>
    have hselect := hkeep
    rw [keep_eq_select, Selection.select_eq_ok_iff] at hselect
    obtain ⟨hall, rfl⟩ := hselect
    rw [exists_present_eq_breach_iff_of_keep_ok hkeep]
    simp only [List.mem_filter, decide_eq_true_eq, Record.meets_eq_true_iff]
    constructor
    · rintro ⟨r, ⟨hr, hmeets⟩, h⟩
      exact ⟨r, hr, .inr ⟨hmeets, h⟩⟩
    · rintro ⟨r, hr, h | ⟨hmeets, h⟩⟩
      · obtain ⟨b, hb⟩ := exists_meets_eq_error_iff.2 h
        obtain ⟨met, hmet⟩ := hall r hr
        simp [hb] at hmet
      · exact ⟨r, ⟨hr, hmeets⟩, h⟩

theorem execute_of_unchecked {f : Failure} (h : check settings q = .error f) (s : σ) :
    execute source here settings q s = (.error f, s) := by
  rw [execute, h]

theorem execute_of_fetch_error {f : Failure} {s s' : σ} (h : check settings q = .ok ())
    (hfetch : fetch source settings (Folder.normalize q.folder) s = (.error f, s')) :
    execute source here settings q s = (.error f, s') := by
  rw [execute, h]
  simp only [hfetch]

theorem execute_of_fetch_ok {records : List Record} {s s' : σ} (h : check settings q = .ok ())
    (hfetch : fetch source settings (Folder.normalize q.folder) s = (.ok records, s')) :
    execute source here settings q s =
      present source here q (Folder.normalize q.folder) records s' := by
  rw [execute, h]
  simp only [hfetch]

theorem not_breach_of_check_eq_error {f : Failure} (h : check settings q = .error f) (b : Breach) :
    f ≠ .breach b := by
  unfold check at h
  split at h
  · cases h
    simp [Failure.unknownCommand]
  · split at h
    · cases h
      simp [Failure.notConfigured]
    · cases h

theorem exists_execute_eq_breach_iff (s : σ) :
    (∃ b, (execute source here settings q s).1 = .error (.breach b)) ↔
      q.command = some listFiles ∧ settings.isComplete = true ∧
        ((∃ b, (fetch source settings (Folder.normalize q.folder) s).1 = .error (.breach b)) ∨
          ∃ records, (fetch source settings (Folder.normalize q.folder) s).1 = .ok records ∧
            ∃ r ∈ records, q.BreaksOn here r) := by
  rw [← and_assoc, ← check_eq_ok_iff]
  cases hcheck : check settings q with
  | error f =>
    rw [execute_of_unchecked hcheck]
    simp [not_breach_of_check_eq_error hcheck]
  | ok u =>
    rcases hfetch : fetch source settings (Folder.normalize q.folder) s with ⟨outcome, s'⟩
    cases outcome with
    | error f =>
      rw [execute_of_fetch_error hcheck hfetch]
      simp
    | ok records =>
      rw [execute_of_fetch_ok hcheck hfetch, exists_present_eq_breach_iff]
      simp

theorem run_eq (text : String) (s : σ) :
    run source here settings text s = execute source here settings (Query.read text)
      (source.noteAll ((Query.ignored text).map .ignored) s) :=
  rfl

end Executor

end DavQuery
