import DavQuery.Proofs.Command.Report
import DavQuery.Proofs.Slot

/-! What a person tells at a login: the address, the name and the password of the options, or what
is typed in their place. The settings are saved if these come together and have octets; otherwise
nothing is said of saving, and the slot stays, unless its file is emptied for texts that have
none. -/

namespace DavQuery

namespace Slot

theorem mapM_text?_eq_some_iff {s : Option RawText} {t : Option String} :
    s.mapM RawText.text? = some t ↔ s = t.map RawText.ofString := by
  cases s with
  | none => cases t <;> simp
  | some s => cases t <;> simp [RawText.text?_eq_some_iff]

theorem fileOctets?_eq_some_iff {baseUrl : RawText} {username password : Option RawText}
    {octets : List UInt8} : fileOctets? baseUrl username password = some octets ↔
      ∃ b u p, baseUrl = RawText.ofString b ∧ username = u.map RawText.ofString ∧
        password = p.map RawText.ofString ∧ octets = fileOctets b u p := by
  constructor
  · intro h
    obtain ⟨b, hb, h⟩ := Option.bind_eq_some_iff.1 h
    obtain ⟨u, hu, h⟩ := Option.bind_eq_some_iff.1 h
    obtain ⟨p, hp, h⟩ := Option.bind_eq_some_iff.1 h
    exact ⟨b, u, p, RawText.text?_eq_some_iff.1 hb, mapM_text?_eq_some_iff.1 hu,
      mapM_text?_eq_some_iff.1 hp, (Option.some.inj h).symm⟩
  · rintro ⟨b, u, p, rfl, rfl, rfl, rfl⟩
    exact fileOctets?_ofString b u p

end Slot

namespace Command

theorem Input.line_cases (i : Input) :
    (∃ line rest, i.line = .ok (line, rest) ∧ i.lines = line :: rest.lines) ∨
      (∃ h, i.line = .error h) ∧ i.lines = [] := by
  unfold Input.line
  rcases i with ⟨lines | ⟨line, lines⟩, fault | b, all⟩
  · exact .inr ⟨⟨_, rfl⟩, rfl⟩
  · exact .inr ⟨⟨_, rfl⟩, rfl⟩
  · exact .inl ⟨_, _, rfl, rfl⟩
  · exact .inl ⟨_, _, rfl, rfl⟩

/-- The text of the option, or that of the line which is typed if the option has none. -/
inductive Told (option typed : Option RawText) : RawText → Prop
  | option {s : RawText} (h : option = some s) (hs : s ≠ []) : Told option typed s
  | typed {line : RawText} (h : option.getD [] = []) (hline : typed = some line) :
    Told option typed line.trim

theorem Told.eq {option typed : Option RawText} {s t : RawText} (hs : Told option typed s)
    (ht : Told option typed t) : s = t := by
  rcases hs with ⟨rfl, hs⟩ | ⟨hs, rfl⟩ <;> rcases ht with ⟨ht, ht'⟩ | ⟨ht, ht'⟩
  · exact Option.some.inj ht
  · exact absurd ht hs
  · rw [ht] at hs
    exact absurd hs ht'
  · rw [Option.some.inj ht']

def Unsaid (out : List Shown) : Prop := ∀ line s, Shown.line line s ∉ out

namespace Dialogue

variable (d : Dialogue) (option : Option RawText) (prompt : String)

theorem given_of_option {s : RawText} (h : option = some s) (hs : s ≠ []) :
    d.given option prompt = (.ok s, d) := by
  simp [given, h, Option.filter, hs]

theorem given_of_empty (h : option.getD [] = []) : d.given option prompt = d.ask prompt := by
  have hnone : option.filter (!·.isEmpty) = none := by
    cases option with
    | none => rfl
    | some s => simp_all [Option.filter]
  rw [given, hnone]

def typedFor (option : Option RawText) : Nat := if option.getD [] = [] then 1 else 0

theorem given_cases :
    (∃ s d', d.given option prompt = (.ok s, d') ∧ Told option d.input.lines.head? s ∧
      d'.input.lines = d.input.lines.drop (typedFor option) ∧ d'.hidden = d.hidden) ∨
    ∃ h d', d.given option prompt = (.error h, d') ∧ ∀ s, ¬ Told option d.input.lines.head? s := by
  by_cases hoption : option.getD [] = []
  · rw [given_of_empty d option prompt hoption, ask]
    rcases Input.line_cases d.input with ⟨line, rest, hline, hlines⟩ | ⟨⟨h, hline⟩, hlines⟩ <;>
      simp only [hline]
    · exact .inl ⟨_, _, rfl, .typed hoption (by rw [hlines]; rfl),
        by simp [hlines, typedFor, hoption], rfl⟩
    · refine .inr ⟨_, _, rfl, ?_⟩
      rintro s (⟨rfl, hs⟩ | ⟨-, htyped⟩)
      · exact hs hoption
      · rw [hlines] at htyped
        cases htyped
  · obtain ⟨s, rfl, hs⟩ : ∃ s, option = some s ∧ s ≠ [] := by
      cases option with
      | none => exact absurd rfl hoption
      | some s => exact ⟨s, rfl, hoption⟩
    rw [given_of_option d _ prompt rfl hs]
    exact .inl ⟨s, d, rfl, .option rfl hs, by simp [typedFor, hs], rfl⟩

theorem given_unsaid (h : Unsaid d.out) : Unsaid (d.given option prompt).2.out := by
  have hask : (d.ask prompt).2.out = d.out ++ [Shown.plain prompt] := by
    unfold ask
    dsimp only
    cases d.input.line <;> rfl
  unfold given
  cases option.filter (!·.isEmpty) with
  | some s => exact h
  | none =>
    intro line s hmem
    rw [hask, List.mem_append, List.mem_singleton] at hmem
    exact hmem.elim (h line s) (by simp)

end Dialogue

/-- What is told at a login: an address that is not empty, a name unless it is empty, and a password
of the option, or hidden for a name. -/
structure Resolves (input : Input) (hidden : List RawText)
    (baseUrl username password : Option RawText) (a : Answers) : Prop where
  address : Told baseUrl input.lines.head? a.baseUrl
  address_ne : a.baseUrl ≠ []
  name : ∃ name, Told username (input.lines.drop (Dialogue.typedFor baseUrl)).head? name ∧
    a.username = unlessEmpty name
  password : a.password = password.or (if a.username.isSome then hidden.head? else none)
  password_told : a.username.isSome → a.password.isSome

theorem Resolves.eq {input : Input} {hidden : List RawText}
    {baseUrl username password : Option RawText} {a b : Answers}
    (ha : Resolves input hidden baseUrl username password a)
    (hb : Resolves input hidden baseUrl username password b) : a = b := by
  have haddress : a.baseUrl = b.baseUrl := ha.address.eq hb.address
  have hname : a.username = b.username := by
    obtain ⟨name, hname, e⟩ := ha.name
    obtain ⟨name', hname', e'⟩ := hb.name
    rw [e, e', hname.eq hname']
  have hpassword : a.password = b.password := by rw [ha.password, hb.password, hname]
  obtain ⟨_, _, _⟩ := a
  obtain ⟨_, _, _⟩ := b
  simp_all

namespace Login

theorem password_cases (d : Dialogue) (username given : Option RawText) :
    (∃ p d', Login.password d username given = (.ok p, d') ∧ d'.out = d.out ∧
      p = given.or (if username.isSome then d.hidden.head? else none) ∧
      (username.isSome → p.isSome)) ∨
    ∃ h d', Login.password d username given = (.error h, d') ∧ d'.out = d.out ∧
      username.isSome ∧ given = none ∧ d.hidden.head? = none := by
  unfold Login.password Dialogue.askHidden
  cases username with
  | none => exact .inl ⟨given, d, rfl, rfl, by simp, by simp⟩
  | some name =>
    cases given with
    | some p => exact .inl ⟨some p, d, rfl, rfl, by simp, by simp⟩
    | none =>
      cases hhidden : d.hidden with
      | nil => exact .inr ⟨_, _, rfl, rfl, rfl, rfl, by simp⟩
      | cons p rest => exact .inl ⟨some p, _, rfl, rfl, by simp, by simp⟩

theorem answers_cases (d : Dialogue) (baseUrl username password : Option RawText) :
    (∃ a d', answers d baseUrl username password = (.ok a, d') ∧
      Resolves d.input d.hidden baseUrl username password a) ∨
    (∀ a, (answers d baseUrl username password).1 = .ok a → a.baseUrl = []) ∧
      ∀ a, ¬ Resolves d.input d.hidden baseUrl username password a := by
  unfold answers
  rcases d.given_cases baseUrl addressPrompt with
    ⟨address, d₁, haddress, htold, hlines, hhidden⟩ | ⟨h, d₁, haddress, hno⟩ <;>
      simp only [haddress]
  case inr => exact .inr ⟨by simp, fun a ha => hno _ ha.address⟩
  by_cases hempty : address = []
  · refine .inr ⟨fun a h => ?_, fun a ha => ha.address_ne ((ha.address.eq htold).trans hempty)⟩
    rw [if_pos (by simp [hempty]), Except.ok.injEq] at h
    rw [← h]
    exact hempty
  simp only [List.isEmpty_iff, hempty, if_false]
  rcases d₁.given_cases username "Username: " with ⟨name, d₂, hname, hnamed, -, hhidden'⟩ |
    ⟨h, d₂, hname, hno⟩ <;> simp only [hname]
  case inr =>
    refine .inr ⟨by simp, fun a ha => ?_⟩
    obtain ⟨name, hnamed, -⟩ := ha.name
    exact hno name (by rwa [hlines])
  rw [hlines] at hnamed
  rcases password_cases d₂ (unlessEmpty name) password with ⟨p, d₃, hpassword, -, hp, hasked⟩ |
    ⟨h, d₃, hpassword, -, hsome, hgiven, hhead⟩ <;> simp only [hpassword]
  · rw [hhidden', hhidden] at hp
    exact .inl ⟨_, _, rfl, htold, hempty, ⟨name, hnamed, rfl⟩, hp, hasked⟩
  · refine .inr ⟨by simp, fun a ha => ?_⟩
    obtain ⟨name', hnamed', e⟩ := ha.name
    obtain rfl := hnamed.eq hnamed'
    have hnone : a.password = none := by
      rw [ha.password, hgiven, ← hhidden, ← hhidden', hhead]
      simp
    have htold := ha.password_told (by rwa [e])
    rw [hnone] at htold
    cases htold

theorem answers_unsaid (d : Dialogue) (baseUrl username password : Option RawText)
    (h : Unsaid d.out) : Unsaid (answers d baseUrl username password).2.out := by
  unfold answers
  have h₁ := d.given_unsaid baseUrl addressPrompt h
  generalize d.given baseUrl addressPrompt = asked at h₁ ⊢
  rcases asked with ⟨h | address, d₁⟩
  · exact h₁
  dsimp only
  split_ifs
  · exact h₁
  have h₂ := d₁.given_unsaid username "Username: " h₁
  generalize d₁.given username "Username: " = asked at h₂ ⊢
  rcases asked with ⟨h | name, d₂⟩
  · exact h₂
  dsimp only
  rcases password_cases d₂ (unlessEmpty name) password with ⟨p, d₃, hpassword, hsame, -⟩ |
    ⟨h, d₃, hpassword, hsame, -⟩ <;> simpa only [hpassword, hsame] using h₂

theorem report_prints_iff {d : Dialogue} (h : Unsaid d.out) (slot : Slot) (o : Outcome)
    (line : RawText) : (report slot d o).Prints line ↔ o.Prints line := by
  have hno (s : String) : Shown.line line s ∉ d.out := h line s
  simp [Outcome.Prints, report, hno]

theorem error_prints (shell : Shell) (text line : RawText) :
    ¬ (Outcome.error shell text).Prints line := by
  simp [Outcome.Prints, error_out]

variable {shell : Shell} {slot : Slot} {input : Input} {hidden : List RawText}
  {baseUrl username password : Option RawText}

theorem run_of_untold (hno : ∀ a, ¬ Resolves input hidden baseUrl username password a) :
    (run shell slot ⟨input, hidden, [], []⟩ baseUrl username password).slot = slot ∧
      ¬ (run shell slot ⟨input, hidden, [], []⟩ baseUrl username password).Prints "Saved." := by
  have hunsaid := answers_unsaid ⟨input, hidden, [], []⟩ baseUrl username password
    (by simp [Unsaid])
  rcases answers_cases ⟨input, hidden, [], []⟩ baseUrl username password with
    ⟨a, d, -, ha⟩ | ⟨hempty, -⟩
  · exact absurd ha (hno a)
  unfold run
  rcases hanswers : answers ⟨input, hidden, [], []⟩ baseUrl username password with ⟨h | a, d⟩ <;>
    rw [hanswers] at hunsaid hempty
  · cases h with
    | endOfInput =>
      refine ⟨rfl, ?_⟩
      rw [report_prints_iff hunsaid]
      simp [Outcome.Prints]
    | breach b => exact ⟨rfl, by simp [report_prints_iff hunsaid, not_breach_prints]⟩
  · simp only [hempty a rfl, List.isEmpty_nil, if_true]
    exact ⟨rfl, by simp [report_prints_iff hunsaid, error_prints]⟩

theorem run_of_told (hshell : shell.OnUtf8) {a : Answers}
    (ha : Resolves input hidden baseUrl username password a) :
    (run shell slot ⟨input, hidden, [], []⟩ baseUrl username password).slot =
        (slot.save a.baseUrl a.username a.password).2 ∧
      ((run shell slot ⟨input, hidden, [], []⟩ baseUrl username password).Prints "Saved." ↔
        (slot.save a.baseUrl a.username a.password).1 = .ok ()) := by
  have hunsaid := answers_unsaid ⟨input, hidden, [], []⟩ baseUrl username password
    (by simp [Unsaid])
  rcases answers_cases ⟨input, hidden, [], []⟩ baseUrl username password with
    ⟨a', d, hanswers, ha'⟩ | ⟨-, hno⟩
  · obtain rfl := ha.eq ha'
    rw [hanswers] at hunsaid
    unfold run
    simp only [hanswers, List.isEmpty_iff, ha.address_ne, if_false]
    rcases slot.save a.baseUrl a.username a.password with ⟨b | _, after⟩
    · exact ⟨rfl, by simp [report_prints_iff hunsaid, not_breach_prints]⟩
    · refine ⟨rfl, ?_⟩
      have hsaved : (Outcome.lines shell ["Saved."]).Prints "Saved." :=
        lines_cons_prints_iff.2 ⟨(hshell.echo _).2 ⟨_, RawText.text?_ofString _⟩, .inl rfl⟩
      simp [report_prints_iff hunsaid, hsaved]
  · exact absurd ha (hno a)

end Login

end Command

end DavQuery
