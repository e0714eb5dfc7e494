import DavQuery.Proofs.Command.Login

/-! What command lines do to the slot of the settings. Only a login changes it, and a logout that
says so: a login that says so leaves what it was told, and one that is told a text without octets
leaves an empty file and says nothing. After any others the slot is what it was. So after a run of
command lines the slot is what the last one of these left, and that does not depend on what was
saved before. -/

namespace DavQuery.Command

variable {κ : Type}

def Answers.octets? (a : Answers) : Option (List UInt8) :=
  Slot.fileOctets? a.baseUrl a.username a.password

section Saved
variable {slot : Slot} {a : Answers}

theorem save_of_octets? {octets : List UInt8} (h : a.octets? = some octets)
    (hdirectory : slot ≠ .directory) :
    slot.save a.baseUrl a.username a.password = (.ok (), .file octets) := by
  rw [Answers.octets?] at h
  cases slot with
  | directory => exact absurd rfl hdirectory
  | absent | file => simp only [Slot.save, h]

theorem save_of_octets?_eq_none (h : a.octets? = none) (hdirectory : slot ≠ .directory) :
    slot.save a.baseUrl a.username a.password = (.error .unencodable, .file []) := by
  rw [Answers.octets?] at h
  cases slot with
  | directory => exact absurd rfl hdirectory
  | absent | file => simp only [Slot.save, h]

end Saved

/-- A command line, and all that it meets; the slot of the world is another one each time. -/
structure Invocation (κ : Type) where
  words : List RawText
  world : World κ

namespace Invocation

variable (c : Invocation κ) (slot : Slot)

def report : Report := execute { c.world with slot } c.words

def Gives (o : Order) : Prop := ∃ verbose, c.world.shell.read c.words = .order verbose o

def LogsIn : Prop := ∃ baseUrl username password, c.Gives (.login baseUrl username password)

/-- This is what is told at a login. -/
def Tells (a : Answers) : Prop := ∃ baseUrl username password,
  c.Gives (.login baseUrl username password) ∧
    Resolves c.world.input c.world.hidden baseUrl username password a

variable {c} {slot}

theorem Gives.eq {o o' : Order} (h : c.Gives o) (h' : c.Gives o') : o = o' := by
  obtain ⟨verbose, h⟩ := h
  obtain ⟨verbose', h'⟩ := h'
  obtain ⟨-, rfl⟩ : verbose = verbose' ∧ o = o' := by simpa [h] using h'
  rfl

theorem Gives.report_eq (slot : Slot) {o : Order} (h : c.Gives o) :
    (c.report slot).slot = (o.carryOut { c.world with slot }).slot ∧
      (c.report slot).out = (o.carryOut { c.world with slot }).out := by
  obtain ⟨verbose, h⟩ := h
  rw [report, execute_of_read (w := { c.world with slot }) h]
  exact ⟨rfl, rfl⟩

theorem Tells.logsIn {a : Answers} (h : c.Tells a) : c.LogsIn := by
  obtain ⟨baseUrl, username, password, hgives, -⟩ := h
  exact ⟨_, _, _, hgives⟩

theorem Tells.eq {a b : Answers} (ha : c.Tells a) (hb : c.Tells b) : a = b := by
  obtain ⟨_, _, _, hgives, ha⟩ := ha
  obtain ⟨_, _, _, hgives', hb⟩ := hb
  obtain ⟨rfl, rfl, rfl⟩ : _ ∧ _ ∧ _ := by simpa using hgives.eq hgives'
  exact ha.eq hb

theorem Tells.not_gives_logout {a : Answers} (h : c.Tells a) : ¬ c.Gives .logout := by
  obtain ⟨_, _, _, hgives, -⟩ := h
  intro hlogout
  cases hgives.eq hlogout

theorem report_of_other (hlogin : ¬ c.LogsIn) (hlogout : ¬ c.Gives .logout) :
    (c.report slot).slot = slot := by
  cases hread : c.world.shell.read c.words with
  | told code out err =>
    rw [report, execute, hread]
    rfl
  | order verbose o =>
    rw [(Gives.report_eq slot ⟨verbose, hread⟩).1]
    cases o with
    | login => exact absurd ⟨_, _, _, verbose, hread⟩ hlogin
    | logout => exact absurd ⟨verbose, hread⟩ hlogout
    | authStatus | test | run | list | info => rfl

theorem report_of_untold (slot : Slot) (hlogin : c.LogsIn) (hno : ∀ a, ¬ c.Tells a) :
    (c.report slot).slot = slot ∧ ¬ (c.report slot).Prints "Saved." := by
  obtain ⟨baseUrl, username, password, hgives⟩ := hlogin
  obtain ⟨hslot, hout⟩ := hgives.report_eq slot
  rw [hslot, Outcome.Prints, hout]
  exact Login.run_of_untold fun a ha => hno a ⟨_, _, _, hgives, ha⟩

theorem report_of_tells (slot : Slot) (hshell : c.world.shell.OnUtf8) {a : Answers}
    (h : c.Tells a) :
    (c.report slot).slot = (slot.save a.baseUrl a.username a.password).2 ∧
      ((c.report slot).Prints "Saved." ↔
        (slot.save a.baseUrl a.username a.password).1 = .ok ()) := by
  obtain ⟨baseUrl, username, password, hgives, ha⟩ := h
  obtain ⟨hslot, hout⟩ := hgives.report_eq slot
  rw [hslot, Outcome.Prints, hout]
  exact Login.run_of_told hshell ha

theorem report_of_logout (hshell : c.world.shell.OnUtf8) (h : c.Gives .logout) :
    (c.report slot).slot = .absent ∧ (c.report slot).Prints "Cleared." ∨
      (c.report slot).slot = slot ∧ ¬ (c.report slot).Prints "Cleared." := by
  obtain ⟨hslot, hout⟩ := h.report_eq slot
  rw [hslot, Outcome.Prints, hout]
  cases slot with
  | file octets =>
    refine .inl ⟨rfl, lines_cons_prints_iff.2 ⟨(hshell.echo _).2 ⟨_, RawText.text?_ofString _⟩,
      .inl rfl⟩⟩
  | directory => exact .inr ⟨rfl, not_breach_prints _⟩
  | absent =>
    refine .inr ⟨rfl, fun hprints => ?_⟩
    have hprints := lines_cons_prints_iff.1 hprints
    simp at hprints

theorem report_of_logsIn (hshell : c.world.shell.OnUtf8) (h : c.LogsIn) (slot : Slot) :
    (∃ a octets, c.Tells a ∧ slot ≠ .directory ∧ a.octets? = some octets ∧
      (c.report slot).slot = .file octets ∧ (c.report slot).Prints "Saved.") ∨
    (∃ a, c.Tells a ∧ slot ≠ .directory ∧ a.octets? = none ∧
      (c.report slot).slot = .file [] ∧ ¬ (c.report slot).Prints "Saved.") ∨
    (c.report slot).slot = slot ∧ ¬ (c.report slot).Prints "Saved." ∧
      (slot = .directory ∨ ∀ a, ¬ c.Tells a) := by
  by_cases htells : ∃ a, c.Tells a
  · obtain ⟨a, ha⟩ := htells
    obtain ⟨hslot, hprints⟩ := report_of_tells slot hshell ha
    by_cases hdirectory : slot = .directory
    · subst hdirectory
      refine .inr (.inr ⟨hslot, fun hp => ?_, .inl rfl⟩)
      exact absurd (hprints.1 hp) (by simp [Slot.save])
    · cases hoctets : a.octets? with
      | some octets =>
        rw [save_of_octets? hoctets hdirectory] at hslot hprints
        exact .inl ⟨a, octets, ha, hdirectory, hoctets, hslot, hprints.2 rfl⟩
      | none =>
        rw [save_of_octets?_eq_none hoctets hdirectory] at hslot hprints
        exact .inr (.inl ⟨a, ha, hdirectory, hoctets, hslot, fun hp => by simpa using hprints.1 hp⟩)
  · rw [not_exists] at htells
    obtain ⟨hslot, hprints⟩ := report_of_untold slot h htells
    exact .inr (.inr ⟨hslot, hprints, .inr htells⟩)

/-- What a command line does to the slot. -/
structure Frame (c : Invocation κ) (slot : Slot) : Prop where
  other : ¬ c.LogsIn → ¬ c.Gives .logout → (c.report slot).slot = slot
  saved_iff : c.LogsIn → ((c.report slot).Prints "Saved." ↔
    slot ≠ .directory ∧ ∃ a, c.Tells a ∧ a.octets?.isSome)
  saved : c.LogsIn → (c.report slot).Prints "Saved." →
    ∃ (baseUrl : String) (username password : Option String),
      c.Tells ⟨baseUrl, username.map .ofString, password.map .ofString⟩ ∧
        (c.report slot).slot = .file (Slot.fileOctets baseUrl username password)
  emptied : c.LogsIn → ¬ (c.report slot).Prints "Saved." → slot ≠ .directory →
    (∃ a, c.Tells a) → (c.report slot).slot = .file []
  unsaved : c.LogsIn → ¬ (c.report slot).Prints "Saved." →
    (slot = .directory ∨ ∀ a, ¬ c.Tells a) → (c.report slot).slot = slot
  cleared : c.Gives .logout → (c.report slot).Prints "Cleared." → (c.report slot).slot = .absent
  uncleared : c.Gives .logout → ¬ (c.report slot).Prints "Cleared." → (c.report slot).slot = slot

theorem frame (hshell : c.world.shell.OnUtf8) (slot : Slot) : c.Frame slot where
  other := report_of_other
  saved_iff h := by
    rcases report_of_logsIn hshell h slot with ⟨a, octets, ha, hslot, hoctets, -, hprints⟩ |
      ⟨a, ha, -, hoctets, -, hprints⟩ | ⟨-, hprints, hno⟩
    · exact iff_of_true hprints ⟨hslot, a, ha, by simp [hoctets]⟩
    · refine iff_of_false hprints fun ⟨_, b, hb, hsome⟩ => ?_
      rw [hb.eq ha, hoctets] at hsome
      cases hsome
    · exact iff_of_false hprints fun ⟨hslot, a, ha, _⟩ => hno.elim hslot fun hno => hno a ha
  saved h hprints := by
    rcases report_of_logsIn hshell h slot with ⟨a, octets, ha, -, hoctets, hslot, -⟩ |
      ⟨_, _, _, _, _, hno⟩ | ⟨_, hno, _⟩
    · obtain ⟨b, u, p, hb, hu, hp, rfl⟩ := Slot.fileOctets?_eq_some_iff.1 hoctets
      obtain ⟨address, username, password⟩ := a
      obtain rfl : address = _ := hb
      obtain rfl : username = _ := hu
      obtain rfl : password = _ := hp
      exact ⟨b, u, p, ha, hslot⟩
    · exact absurd hprints hno
    · exact absurd hprints hno
  emptied h hprints hdirectory := by
    rintro ⟨a, ha⟩
    rcases report_of_logsIn hshell h slot with ⟨_, _, _, _, _, _, hyes⟩ | ⟨_, _, _, _, hslot, _⟩ |
      ⟨_, _, hno⟩
    · exact absurd hyes hprints
    · exact hslot
    · exact (hno.elim hdirectory fun hno => hno a ha).elim
  unsaved h hprints hno := by
    rcases report_of_logsIn hshell h slot with ⟨_, _, _, _, _, _, hyes⟩ |
      ⟨a, ha, hdirectory, _⟩ | ⟨hslot, _⟩
    · exact absurd hyes hprints
    · exact (hno.elim hdirectory fun hno => hno a ha).elim
    · exact hslot
  cleared h hprints := ((report_of_logout hshell h).resolve_right fun hno => hno.2 hprints).1
  uncleared h hprints := ((report_of_logout hshell h).resolve_left fun hp => hprints hp.2).1

/-- The command line is a login that says that it has saved or is told a text without octets where
no directory stands in the way, or a logout that says that it has cleared. -/
inductive TakesEffect (c : Invocation κ) (slot : Slot) : Prop
  | saved : c.LogsIn → (c.report slot).Prints "Saved." → TakesEffect c slot
  | emptied {a : Answers} : c.Tells a → a.octets? = none → slot ≠ .directory → TakesEffect c slot
  | cleared : c.Gives .logout → (c.report slot).Prints "Cleared." → TakesEffect c slot

/-- The slot that the command line leaves if it takes effect. -/
inductive Leaves (c : Invocation κ) : Slot → Prop
  | saved {baseUrl : String} {username password : Option String} :
    c.Tells ⟨baseUrl, username.map .ofString, password.map .ofString⟩ →
      Leaves c (.file (Slot.fileOctets baseUrl username password))
  | emptied {a : Answers} : c.Tells a → a.octets? = none → Leaves c (.file [])
  | cleared : c.Gives .logout → Leaves c .absent

theorem octets?_ofString (baseUrl : String) (username password : Option String) :
    Answers.octets? ⟨baseUrl, username.map .ofString, password.map .ofString⟩ =
      some (Slot.fileOctets baseUrl username password) :=
  Slot.fileOctets?_ofString baseUrl username password

theorem Leaves.eq {s t : Slot} (hs : c.Leaves s) (ht : c.Leaves t) : s = t := by
  cases hs with
  | saved ha =>
    cases ht with
    | saved hb =>
      have hoctets := congrArg Answers.octets? (ha.eq hb)
      rw [octets?_ofString, octets?_ofString, Option.some.injEq] at hoctets
      rw [hoctets]
    | emptied hb hnone =>
      rw [hb.eq ha, octets?_ofString] at hnone
      cases hnone
    | cleared h => exact absurd h ha.not_gives_logout
  | emptied ha hnone =>
    cases ht with
    | saved hb =>
      rw [ha.eq hb, octets?_ofString] at hnone
      cases hnone
    | emptied => rfl
    | cleared h => exact absurd h ha.not_gives_logout
  | cleared h =>
    cases ht with
    | saved hb => exact absurd h hb.not_gives_logout
    | emptied hb => exact absurd h hb.not_gives_logout
    | cleared => rfl

theorem leaves_of_takesEffect (hshell : c.world.shell.OnUtf8) (h : c.TakesEffect slot) :
    c.Leaves (c.report slot).slot := by
  have hframe := frame hshell slot
  cases h with
  | saved hlogin hprints =>
    obtain ⟨b, u, p, htells, hslot⟩ := hframe.saved hlogin hprints
    rw [hslot]
    exact .saved htells
  | @emptied a htells hnone hdirectory =>
    have hno : ¬ (c.report slot).Prints "Saved." := fun hprints => by
      obtain ⟨-, b, hb, hsome⟩ := (hframe.saved_iff htells.logsIn).1 hprints
      rw [hb.eq htells, hnone] at hsome
      cases hsome
    rw [hframe.emptied htells.logsIn hno hdirectory ⟨a, htells⟩]
    exact .emptied htells hnone
  | cleared hlogout hprints =>
    rw [hframe.cleared hlogout hprints]
    exact .cleared hlogout

theorem slot_of_not_takesEffect (hshell : c.world.shell.OnUtf8) (h : ¬ c.TakesEffect slot) :
    (c.report slot).slot = slot := by
  by_cases hlogin : c.LogsIn
  · rcases report_of_logsIn hshell hlogin slot with ⟨_, _, _, _, _, _, hprints⟩ |
      ⟨a, ha, hdirectory, hnone, -⟩ | ⟨hslot, -⟩
    · exact absurd (.saved hlogin hprints) h
    · exact absurd (.emptied ha hnone hdirectory) h
    · exact hslot
  · by_cases hlogout : c.Gives .logout
    · exact (frame hshell slot).uncleared hlogout fun hprints => h (.cleared hlogout hprints)
    · exact report_of_other hlogin hlogout

end Invocation

variable {start slot : Slot} {calls before behind : List (Invocation κ)} {c : Invocation κ}

/-- The slot after command lines one after the other. -/
def slotAfter : Slot → List (Invocation κ) → Slot
  | slot, [] => slot
  | slot, c :: rest => slotAfter (c.report slot).slot rest

/-- None of the command lines takes effect. -/
def Idle : Slot → List (Invocation κ) → Prop
  | _, [] => True
  | slot, c :: rest => ¬ c.TakesEffect slot ∧ Idle (c.report slot).slot rest

/-- The command line takes effect behind the first ones, and none takes effect behind it. -/
structure LastEffect (start : Slot) (before : List (Invocation κ)) (c : Invocation κ)
    (behind : List (Invocation κ)) : Prop where
  takesEffect : c.TakesEffect (slotAfter start before)
  idle : Idle (c.report (slotAfter start before)).slot behind

theorem slotAfter_append (start : Slot) (before behind : List (Invocation κ)) :
    slotAfter start (before ++ behind) = slotAfter (slotAfter start before) behind := by
  induction before generalizing start with
  | nil => rfl
  | cons c before ih => exact ih _

theorem slotAfter_of_idle (hshell : ∀ c ∈ calls, c.world.shell.OnUtf8) (h : Idle start calls) :
    slotAfter start calls = start := by
  induction calls generalizing start with
  | nil => rfl
  | cons c rest ih =>
    rw [List.forall_mem_cons] at hshell
    have hkept := Invocation.slot_of_not_takesEffect hshell.1 h.1
    have hrest := ih hshell.2 h.2
    rw [slotAfter, hrest, hkept]

theorem idle_or_lastEffect (start : Slot) (calls : List (Invocation κ)) :
    Idle start calls ∨ ∃ before c behind, calls = before ++ c :: behind ∧
      LastEffect start before c behind := by
  induction calls generalizing start with
  | nil => exact .inl trivial
  | cons c rest ih =>
    rcases ih (c.report start).slot with hidle | ⟨before, d, behind, rfl, hlast⟩
    · by_cases heffect : c.TakesEffect start
      · exact .inr ⟨[], c, rest, rfl, heffect, hidle⟩
      · exact .inl ⟨heffect, hidle⟩
    · exact .inr ⟨c :: before, d, behind, rfl, hlast.takesEffect, hlast.idle⟩

theorem LastEffect.leaves (hlast : LastEffect start before c behind)
    (hshell : ∀ d ∈ before ++ c :: behind, d.world.shell.OnUtf8) :
    c.Leaves (slotAfter start (before ++ c :: behind)) := by
  rw [List.forall_mem_append, List.forall_mem_cons] at hshell
  rw [slotAfter_append, slotAfter, slotAfter_of_idle hshell.2.2 hlast.idle]
  exact Invocation.leaves_of_takesEffect hshell.2.1 hlast.takesEffect

/-- A login that says that it has saved leaves what it was told, whatever was saved before, and one
that does not leaves the slot, unless it is told a text without octets. A logout that says that it
has cleared leaves nothing, and any other command line leaves the slot. After a run of command lines
the slot is what the last one that took effect left, or what it was in the beginning. -/
theorem slot_told_by_last_effect {calls : List (Invocation κ)}
    (hshell : ∀ c ∈ calls, c.world.shell.OnUtf8) :
    (∀ c ∈ calls, ∀ slot, c.Frame slot) ∧
    ∀ start : Slot, (Idle start calls ∧ slotAfter start calls = start) ∨
      ∃ before c behind, calls = before ++ c :: behind ∧ LastEffect start before c behind ∧
        ∀ slot, c.Leaves slot ↔ slotAfter start calls = slot := by
  refine ⟨fun c hc slot => Invocation.frame (hshell c hc) slot, fun start => ?_⟩
  rcases idle_or_lastEffect start calls with hidle | ⟨before, c, behind, rfl, hlast⟩
  · exact .inl ⟨hidle, slotAfter_of_idle hshell hidle⟩
  · have hleaves := hlast.leaves hshell
    exact .inr ⟨before, c, behind, rfl, hlast, fun slot =>
      ⟨fun h => hleaves.eq h, fun h => h ▸ hleaves⟩⟩

def Invocation.ofWords (words : List RawText) : Invocation Http.Held :=
  ⟨words, savedWorld .absent⟩

theorem slot_told_by_last_effect_of_login :
    let login := Invocation.ofWords
      ["login", "-b", "https://cloud.example.com/", "-u", "user", "-p", "word"]
    let calls := [login, .ofWords ["login"], .ofWords ["info"]]
    (∀ c ∈ calls, c.world.shell.OnUtf8) ∧ slotAfter (.file [0x7b]) calls =
      .file (Slot.fileOctets "https://cloud.example.com/" (some "user") (some "word")) := by
  intro login calls
  have hshell : ∀ c ∈ calls, c.world.shell.OnUtf8 := by
    simp [calls, login, Invocation.ofWords, savedWorld, Shell.standard_onUtf8]
  have hgives : login.Gives (.login (some "https://cloud.example.com/") (some "user")
      (some "word")) := ⟨false, by decide +kernel⟩
  have htold : login.Tells ⟨RawText.ofString "https://cloud.example.com/",
      (some "user").map .ofString, (some "word").map .ofString⟩ :=
    ⟨_, _, _, hgives, .option rfl (by decide), by decide,
      ⟨RawText.ofString "user", .option rfl (by decide), rfl⟩, rfl, fun _ => rfl⟩
  have hsilent (slot : Slot) : ¬ (Invocation.ofWords ["login"]).TakesEffect slot := by
    have hlogin : (Invocation.ofWords ["login"]).Gives (.login none none none) :=
      ⟨false, by decide +kernel⟩
    have hno (a : Answers) : ¬ (Invocation.ofWords ["login"]).Tells a := by
      rintro ⟨_, _, _, hgives, ha⟩
      obtain ⟨rfl, -, -⟩ : _ ∧ _ ∧ _ := by simpa using hgives.eq hlogin
      have haddress := ha.address
      generalize a.baseUrl = address at haddress
      rcases haddress with ⟨h, -⟩ | ⟨-, h⟩ <;> cases h
    rintro (⟨hlogsIn, hprints⟩ | ⟨ha, -⟩ | ⟨hlogout, -⟩)
    · exact (Invocation.report_of_untold slot hlogsIn hno).2 hprints
    · exact hno _ ha
    · cases hlogout.eq hlogin
  have hlook (slot : Slot) : ¬ (Invocation.ofWords ["info"]).TakesEffect slot := by
    have hinfo : (Invocation.ofWords ["info"]).Gives .info := ⟨false, by decide +kernel⟩
    rintro (⟨⟨_, _, _, hlogin⟩, -⟩ | ⟨⟨_, _, _, hlogin, -⟩, -⟩ | ⟨hlogout, -⟩)
    · cases hlogin.eq hinfo
    · cases hlogin.eq hinfo
    · cases hlogout.eq hinfo
  obtain ⟨hframe, hrun⟩ := slot_told_by_last_effect hshell
  have hsaved : login.TakesEffect (.file [0x7b]) :=
    .saved htold.logsIn (((hframe login List.mem_cons_self _).saved_iff htold.logsIn).2
      ⟨by simp, _, htold, by rw [Invocation.octets?_ofString]; rfl⟩)
  refine ⟨hshell, ?_⟩
  rcases hrun (.file [0x7b]) with ⟨hidle, -⟩ | ⟨before, c, behind, hcalls, hlast, hleaves⟩
  · exact absurd hsaved hidle.1
  · -- Only the first one takes effect.
    rcases before with _ | ⟨_, _ | ⟨_, _ | ⟨_, before⟩⟩⟩ <;>
      simp only [calls, List.cons_append, List.nil_append, List.cons.injEq] at hcalls
    · obtain ⟨rfl, -⟩ := hcalls
      exact (hleaves _).1 (.saved htold)
    · obtain ⟨-, rfl, -⟩ := hcalls
      exact absurd hlast.takesEffect (hsilent _)
    · obtain ⟨-, -, rfl, -⟩ := hcalls
      exact absurd hlast.takesEffect (hlook _)
    · simp at hcalls

/-- A password with half a character in it: what was saved is gone, and nothing is said. -/
theorem login_empties_slot :
    let saved : Slot :=
      .file (Slot.fileOctets "https://cloud.example.com" (some "user") (some "word"))
    let login := Invocation.ofWords
      ["login", "-b", "https://cloud.example.com", "-u", "user", "-p", [.half 0x4FF]]
    ¬ (login.report saved).Prints "Saved." ∧ (login.report saved).slot = .file [] ∧
      saved ≠ .file [] := by
  intro saved login
  have hout : (login.report saved).out = [] := by decide +kernel
  refine ⟨?_, by decide +kernel, by decide +kernel⟩
  simp [Outcome.Prints, hout]

end DavQuery.Command
