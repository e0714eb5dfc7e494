import DavQuery.Client

/-!
Sources of records. A source is connected to with settings, asked for the records of folders, and
closed; its state tells what has happened to it.
-/

namespace DavQuery

open Http

structure Source (σ : Type) where
  connect : Settings → σ → Except Failure Unit × σ
  list : String → σ → Except Failure (List Record) × σ
  close : σ → σ
  note : Note → σ → σ

def Source.noteAll (source : Source σ) (notes : List Note) (s : σ) : σ :=
  notes.foldl (fun s n => source.note n s) s

structure Session (κ : Type) where
  client : Option (Client κ) := none
  wire : Wire := {}

def Source.ofRemote (e : Remote κ) : Source (Session κ) where
  connect settings s :=
    match Client.ofSettings settings with
    | .ok c => (.ok (), { s with client := some c })
    | .error b => (.error (.breach b), s)
  list folder s :=
    match s.client with
    | some c =>
      let (outcome, c, wire) := c.listRecords e s.wire folder
      (outcome, ⟨some c, wire⟩)
    | none => (.ok [], s)
  close s := { s with client := s.client.map Client.close }
  note n s := { s with wire := s.wire.note n }

structure Trace where
  /-- The settings with which it was connected to. -/
  connected : List Settings := []
  /-- The folders that were asked for. -/
  asked : List String := []
  closed : Nat := 0
  notes : List Note := []

/-- The source whose answers depend on the folder only, and which keeps a trace. -/
def Source.traced (answer : String → Except Failure (List Record)) : Source Trace where
  connect settings t := (.ok (), { t with connected := t.connected ++ [settings] })
  list folder t := (answer folder, { t with asked := t.asked ++ [folder] })
  close t := { t with closed := t.closed + 1 }
  note n t := { t with notes := t.notes ++ [n] }

end DavQuery
