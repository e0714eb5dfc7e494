import DavQuery.Proofs.Execution

/-! What is asked of a source. A source can be made to record the calls that reach it; its answers
and its own state stay what they were, so that the calls of a query are told beside its outcome. -/

namespace DavQuery

inductive Call where
  | connect (settings : Settings)
  | list (folder : String)
  | close
  deriving Repr

/-- The source with a record of the calls that reach it. Notes are no calls. -/
def Source.recorded {σ : Type} (source : Source σ) : Source (σ × List Call) where
  connect settings s :=
    ((source.connect settings s.1).1, (source.connect settings s.1).2, s.2 ++ [.connect settings])
  list folder s := ((source.list folder s.1).1, (source.list folder s.1).2, s.2 ++ [.list folder])
  close s := (source.close s.1, s.2 ++ [.close])
  note n s := (source.note n s.1, s.2)

variable {σ : Type}

theorem Source.noteAll_recorded (source : Source σ) (notes : List Note) (s : σ)
    (calls : List Call) :
    source.recorded.noteAll notes (s, calls) = (source.noteAll notes s, calls) := by
  induction notes generalizing s with
  | nil => rfl
  | cons n notes ih => exact ih (source.note n s)

theorem Source.noteAll_ofRemote_wire {κ : Type} (e : Remote κ) (notes : List Note)
    (s : Session κ) : ((ofRemote e).noteAll notes s).wire = s.wire.noteAll notes := by
  induction notes generalizing s with
  | nil => simp [noteAll, Http.Wire.noteAll]
  | cons n notes ih =>
    have hnote : ((ofRemote e).note n s).wire = s.wire.note n := rfl
    have hstep := ih ((ofRemote e).note n s)
    rw [hnote] at hstep
    simpa [noteAll, Http.Wire.noteAll, Http.Wire.note] using hstep

namespace Executor

def fetchCalls (source : Source σ) (settings : Settings) (folder : String) (s : σ) : List Call :=
  match (source.connect settings s).1 with
  | .ok () => [.connect settings, .list folder, .close]
  | .error _ => [.connect settings]

def callsOf (source : Source σ) (settings : Settings) (q : Query) (s : σ) : List Call :=
  match check settings q with
  | .ok () => fetchCalls source settings (Folder.normalize q.folder) s
  | .error _ => []

theorem fetch_recorded (source : Source σ) (settings : Settings) (folder : String) (s : σ)
    (calls : List Call) :
    fetch source.recorded settings folder (s, calls) =
      ((fetch source settings folder s).1, (fetch source settings folder s).2,
        calls ++ fetchCalls source settings folder s) := by
  have hconnect : source.recorded.connect settings (s, calls) =
      ((source.connect settings s).1, (source.connect settings s).2,
        calls ++ [.connect settings]) := rfl
  unfold fetch fetchCalls
  rw [hconnect]
  rcases source.connect settings s with ⟨outcome, s'⟩
  cases outcome with
  | error f => rfl
  | ok u => simp [Source.recorded]

theorem present_recorded (source : Source σ) (here : Calendar.LocalTime) (q : Query)
    (folder : String) (records : List Record) (s : σ) (calls : List Call) :
    present source.recorded here q folder records (s, calls) =
      ((present source here q folder records s).1, (present source here q folder records s).2,
        calls) := by
  unfold present
  rw [Source.noteAll_recorded]
  cases keep here q records with
  | error b => rfl
  | ok kept => rfl

theorem execute_recorded (source : Source σ) (here : Calendar.LocalTime) (settings : Settings)
    (q : Query) (s : σ) (calls : List Call) :
    execute source.recorded here settings q (s, calls) =
      ((execute source here settings q s).1, (execute source here settings q s).2,
        calls ++ callsOf source settings q s) := by
  unfold execute callsOf
  cases check settings q with
  | error f => simp
  | ok u =>
    simp only [fetch_recorded]
    rcases fetch source settings (Folder.normalize q.folder) s with ⟨outcome, s'⟩
    cases outcome with
    | error f => rfl
    | ok records => exact present_recorded ..

theorem run_recorded (source : Source σ) (here : Calendar.LocalTime) (settings : Settings)
    (text : String) (s : σ) (calls : List Call) :
    run source.recorded here settings text (s, calls) =
      ((run source here settings text s).1, (run source here settings text s).2,
        calls ++ callsOf source settings (Query.read text)
          (source.noteAll ((Query.ignored text).map .ignored) s)) := by
  rw [run_eq, run_eq, Source.noteAll_recorded, execute_recorded]

theorem callsOf_of_unknown {q : Query} (h : q.command ≠ some listFiles) (source : Source σ)
    (settings : Settings) (s : σ) : callsOf source settings q s = [] := by
  have hcheck : check settings q = .error .unknownCommand := if_pos h
  rw [callsOf, hcheck]

theorem run_of_unknown {text : String} (h : (Query.read text).command ≠ some listFiles)
    (source : Source σ) (here : Calendar.LocalTime) (settings : Settings) (s : σ) :
    (run source here settings text s).1 = .error .unknownCommand := by
  have hcheck : check settings (Query.read text) = .error .unknownCommand := if_pos h
  rw [run_eq, execute_of_unchecked hcheck]

end Executor

end DavQuery
