import DavQuery.Proofs.Json.RoundTrip
import DavQuery.Proofs.Text.Utf8
import DavQuery.Slot
import Mathlib.Data.List.DropRight

/-! What is saved is read back, whatever came before. The operations on the slot are steps that
answer and lead to another slot; a step that fails leaves the slot as it was, and a reading always
does. So a slot shows one object and one group of settings until the next step that changes it, and
after a save these are the texts that were given. -/

namespace DavQuery
open Json Text

theorem Text.dropEndSlashes_dropEndSlashes (s : String) :
    dropEndSlashes (dropEndSlashes s) = dropEndSlashes s := by
  have h : dropEndWhile (· == '/') (dropEndWhile (· == '/') s.toList) =
      dropEndWhile (· == '/') s.toList := List.rdropWhile_idempotent _ _
  rw [dropEndSlashes, toList_dropEndSlashes, h, ← dropEndSlashes]

theorem Text.dropEndSlashes_eq_empty_iff {s : String} :
    dropEndSlashes s = "" ↔ ∀ c ∈ s.toList, c = '/' := by
  rw [← String.toList_inj, toList_dropEndSlashes]
  exact List.rdropWhile_eq_nil_iff.trans (by simp)

namespace Settings

@[simp] theorem orEmpty_text (s : RawText) : orEmpty (some (.text s)) = .text s := by
  by_cases h : s = []
  · rw [h]
    rfl
  · simp [orEmpty, Value.isGiven, h]

@[simp] theorem orEmpty_none : orEmpty none = .text "" := rfl

end Settings

namespace Slot

/-- The object of an address without slashes at its end, and perhaps a name and a password. -/
def object (baseUrl : String) (username password : Option String) : Saved :=
  textMember ("base_url", dropEndSlashes baseUrl) ::
    (username.map fun v => textMember ("username", v)).toList ++
    (password.map fun v => textMember ("password", v)).toList

variable (baseUrl : String) (username password : Option String)

theorem map_textMember_members :
    (members baseUrl username password).map textMember = object baseUrl username password := by
  cases username <;> cases password <;> rfl

theorem nodup_members : ((members baseUrl username password).map Prod.fst).Nodup := by
  cases username <;> cases password <;> simp [members]

theorem load_fileOctets (below : Nat) :
    (Slot.file (fileOctets baseUrl username password)).load below =
      .ok (some (object baseUrl username password)) := by
  rw [load, ofOctets, fileOctets, Utf8.decode?_encode]
  dsimp only
  rw [read_printObject (nodup_members ..), map_textMember_members]
  simp [object?, object]

theorem ofMembers_object :
    Settings.ofMembers (object baseUrl username password) =
      .ofTexts (dropEndSlashes baseUrl) (username.getD "") (password.getD "") := by
  cases username <;> cases password <;>
    simp [Settings.ofMembers, Settings.ofTexts, object]

theorem fileOctets?_ofString :
    fileOctets? baseUrl (username.map .ofString) (password.map .ofString) =
      some (fileOctets baseUrl username password) := by
  cases username <;> cases password <;> simp [fileOctets?]

inductive Reading where
  | load
  | settings

/-- An operation on the slot. -/
inductive Step where
  | read (reading : Reading)
  | save (baseUrl : String) (username password : Option String)
  | clear
  | write (octets : List UInt8)

inductive Answer where
  | loaded (saved : Option Saved)
  | settings (settings : Settings)
  | done
  | cleared (existed : Bool)

/-- The answer of a slot with the given object and settings. -/
def Reading.answer (saved : Option Saved) (settings : Settings) : Reading → Answer
  | .load => .loaded saved
  | .settings => .settings settings

def look (below : Nat) (slot : Slot) : Reading → Except Breach Answer
  | .load => (slot.load below).map .loaded
  | .settings => (slot.settings below).map .settings

def write (slot : Slot) (octets : List UInt8) : Except Breach Slot :=
  match slot with
  | .directory => .error .directory
  | _ => .ok (.file octets)

def settle (slot : Slot) : Except Breach (Answer × Slot) → Except Breach Answer × Slot
  | .ok (answer, after) => (.ok answer, after)
  | .error b => (.error b, slot)

def step (below : Nat) (slot : Slot) : Step → Except Breach Answer × Slot
  | .read r => (slot.look below r, slot)
  | .save baseUrl username password =>
    let (outcome, after) :=
      slot.save baseUrl (username.map .ofString) (password.map .ofString)
    (outcome.map fun _ => .done, after)
  | .clear => settle slot (slot.clear.map fun p => (.cleared p.1, p.2))
  | .write octets => settle slot ((slot.write octets).map (Answer.done, ·))

/-- The answers of the steps one after the other, and the slot in the end. -/
def run (below : Nat) (slot : Slot) : List Step → List (Except Breach Answer) × Slot
  | [] => ([], slot)
  | s :: rest =>
    ((slot.step below s).1 :: ((slot.step below s).2.run below rest).1,
      ((slot.step below s).2.run below rest).2)

/-- However often the slot is looked at, it answers with the object and the settings, and stays. -/
def Shows (below : Nat) (slot : Slot) (saved : Option Saved) (settings : Settings) : Prop :=
  ∀ readings : List Reading, slot.run below (readings.map .read) =
    (readings.map fun r => .ok (r.answer saved settings), slot)

variable {below : Nat} {slot : Slot}

theorem step_save_of_ne (h : slot ≠ .directory) :
    slot.step below (.save baseUrl username password) =
      (.ok .done, .file (fileOctets baseUrl username password)) := by
  cases slot with
  | directory => exact absurd rfl h
  | absent | file octets =>
    simp only [step, save, fileOctets?_ofString]
    rfl

theorem step_save_directory :
    step below .directory (.save baseUrl username password) =
      (.error .directory, .directory) := rfl

theorem step_snd_of_error {s : Step} {b : Breach} (h : (slot.step below s).1 = .error b) :
    (slot.step below s).2 = slot := by
  have hsettle : ∀ outcome : Except Breach (Answer × Slot),
      (settle slot outcome).1 = .error b → (settle slot outcome).2 = slot := by
    rintro (e | ⟨answer, after⟩) h
    · rfl
    · cases h
  cases s with
  | read r => rfl
  | save baseUrl username password =>
    by_cases hslot : slot = .directory
    · rw [hslot, step_save_directory]
    · rw [step_save_of_ne baseUrl username password hslot] at h
      cases h
  | clear => exact hsettle _ h
  | write octets => exact hsettle _ h

theorem settings_of_load {saved : Option Saved} (h : slot.load below = .ok saved) :
    slot.settings below = .ok (.ofMembers (saved.getD [])) := by
  rw [settings, h]
  rfl

theorem shows_of_load {saved : Option Saved} (h : slot.load below = .ok saved) :
    slot.Shows below saved (.ofMembers (saved.getD [])) := by
  have hlook (r : Reading) :
      slot.look below r = .ok (r.answer saved (.ofMembers (saved.getD []))) := by
    cases r with
    | load =>
      rw [look, h]
      rfl
    | settings =>
      rw [look, settings_of_load h]
      rfl
  intro readings
  induction readings with
  | nil => rfl
  | cons r readings ih =>
    rw [List.map_cons, run, step, ih, List.map_cons, hlook]

theorem saved_shows (below : Nat) :
    (Slot.file (fileOctets baseUrl username password)).Shows below
      (some (object baseUrl username password))
      (.ofTexts (dropEndSlashes baseUrl) (username.getD "") (password.getD "")) := by
  have h := shows_of_load (load_fileOctets baseUrl username password below)
  rwa [Option.getD_some, ofMembers_object] at h

theorem eq_absent_of_cleared {t : Slot} (h : slot.step below .clear = (.ok (.cleared true), t)) :
    t = .absent := by
  cases slot with
  | absent => cases h
  | directory => cases h
  | file octets => cases h; rfl

theorem absent_shows (below : Nat) : absent.Shows below none {} := shows_of_load rfl

theorem settings_of_saved (below : Nat) :
    (Slot.file (fileOctets baseUrl username password)).settings below =
      .ok (.ofTexts (dropEndSlashes baseUrl) (username.getD "") (password.getD "")) := by
  rw [settings_of_load (load_fileOctets ..), Option.getD_some, ofMembers_object]

theorem saved_again_shows {baseUrl x y z : String} {username password : Option String}
    (below : Nat)
    (h : Settings.ofTexts (dropEndSlashes baseUrl) (username.getD "") (password.getD "") =
      .ofTexts x y z) :
    (Slot.file (fileOctets x (some y) (some z))).Shows below (some (object x (some y) (some z)))
      (.ofTexts x y z) := by
  obtain ⟨rfl, rfl, rfl⟩ : dropEndSlashes baseUrl = x ∧ username.getD "" = y ∧
      password.getD "" = z := by
    simpa [Settings.ofTexts] using h
  have hshows := saved_shows (dropEndSlashes baseUrl) (some (username.getD ""))
    (some (password.getD "")) below
  rwa [dropEndSlashes_dropEndSlashes] at hshows

/-- Whatever was done before, a save fails only where a directory stands, and then the slot stays.
Any other slot becomes one that does not depend on what it was, and that shows the texts given;
saving once more the settings that it shows does not change them. Where something was cleared,
nothing is shown. -/
theorem saved_settings_read_back (below : Nat) (start : Slot) (before : List Step) :
    let slot := (start.run below before).2
    (slot = .directory →
      slot.step below (.save baseUrl username password) = (.error .directory, slot)) ∧
    (slot ≠ .directory → ∃ t : Slot,
      slot.step below (.save baseUrl username password) = (.ok .done, t) ∧
      (∀ other : Slot, other ≠ .directory →
        other.step below (.save baseUrl username password) = (.ok .done, t)) ∧
      t.Shows below (some (object baseUrl username password))
        (.ofTexts (dropEndSlashes baseUrl) (username.getD "") (password.getD "")) ∧
      ∀ x y z : String, t.settings below = .ok (.ofTexts x y z) → ∃ u : Slot,
        t.step below (.save x (some y) (some z)) = (.ok .done, u) ∧
          ∃ saved : Saved, u.Shows below (some saved) (.ofTexts x y z)) ∧
    ∀ t : Slot, slot.step below .clear = (.ok (.cleared true), t) → t.Shows below none {} := by
  intro slot
  refine ⟨fun h => ?_, fun h => ?_, fun t h => ?_⟩
  · rw [h, step_save_directory]
  · refine ⟨_, step_save_of_ne baseUrl username password h,
      fun other hother => step_save_of_ne baseUrl username password hother,
      saved_shows baseUrl username password below, fun x y z hxyz => ?_⟩
    rw [settings_of_saved, Except.ok.injEq] at hxyz
    exact ⟨_, step_save_of_ne x y z (by simp), _, saved_again_shows below hxyz⟩
  · rw [eq_absent_of_cleared h]
    exact absent_shows below

theorem saved_settings_read_back_awkward :
    ∃ t : Slot,
      (Slot.absent.run 900 [.write [0x7b], .clear]).2.step 900
        (.save "https://cloud//" (some "a\"\\\n\u0001\u007f\u2028😀") none) = (.ok .done, t) ∧
      t.Shows 900
        (some [("base_url", .text "https://cloud"),
          ("username", .text "a\"\\\n\u0001\u007f\u2028😀")])
        (.ofTexts "https://cloud" "a\"\\\n\u0001\u007f\u2028😀" "") := by
  obtain ⟨t, hsave, -, hshows, -⟩ := (saved_settings_read_back "https://cloud//"
    (some "a\"\\\n\u0001\u007f\u2028😀") none 900 .absent [.write [0x7b], .clear]).2.1
      (by decide)
  have haddress : dropEndSlashes "https://cloud//" = "https://cloud" := by decide +kernel
  rw [object, haddress] at hshows
  exact ⟨t, hsave, hshows⟩

end Slot

end DavQuery
