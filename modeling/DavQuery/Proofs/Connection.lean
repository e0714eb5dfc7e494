import DavQuery.Proofs.Folder.Request

/-! The connection of a client. It is held from a call on until the client is closed, and the steps
that make no call may be put in and left out: a connection that is opened anew differs from one that
was held in its cookies only, and these matter only to addresses without a scheme. -/

namespace DavQuery.Client
open Http

/-- The step makes a call. A folder with half a character in it is given up before. -/
def Step.asks : Step → Bool
  | .list folder => folder.text?.isSome
  | .check | .propfind .. => true
  | .folderUrl _ | .close | .block => false

def Step.closes : Step → Bool
  | .close | .block => true
  | .list _ | .check | .propfind .. | .folderUrl _ => false

/-- A step asks, and none behind it closes the client. -/
def AskedSinceClosed (steps : List Step) : Prop :=
  ∃ before t behind, steps = before ++ t :: behind ∧ t.asks ∧ ∀ u ∈ behind, u.closes = false

theorem askedSinceClosed_append_singleton {steps : List Step} {t : Step} :
    AskedSinceClosed (steps ++ [t]) ↔ t.asks ∨ AskedSinceClosed steps ∧ t.closes = false := by
  constructor
  · rintro ⟨before, u, behind, heq, hasks, hopen⟩
    rcases behind.eq_nil_or_concat with rfl | ⟨behind, v, rfl⟩
    · obtain ⟨rfl, ⟨⟩⟩ := List.append_inj' heq rfl
      exact .inl hasks
    · rw [List.concat_eq_append, ← List.cons_append, ← List.append_assoc] at heq
      obtain ⟨rfl, ⟨⟩⟩ := List.append_inj' heq rfl
      rw [List.concat_eq_append, List.forall_mem_append] at hopen
      exact .inr ⟨⟨before, u, behind, rfl, hasks, hopen.1⟩, hopen.2 t (by simp)⟩
  · rintro (hasks | ⟨⟨before, u, behind, rfl, hasks, hopen⟩, hcloses⟩)
    · exact ⟨steps, t, [], rfl, hasks, by simp⟩
    · refine ⟨before, u, behind ++ [t], by simp, hasks, ?_⟩
      simpa [or_imp, forall_and] using ⟨hopen, hcloses⟩

/-- The one list is made of the other: steps that make no request are put in and left out. -/
inductive Edited : List Step → List Step → Prop
  | nil : Edited [] []
  | keep (t : Step) {steps steps' : List Step} :
      Edited steps steps' → Edited (t :: steps) (t :: steps')
  | leaveOut (t : Step) {steps steps' : List Step} :
      t.asks = false → Edited steps steps' → Edited (t :: steps) steps'
  | putIn (t : Step) {steps steps' : List Step} :
      t.asks = false → Edited steps steps' → Edited steps (t :: steps')

section
variable {κ : Type}

/-- What a step asks the server for, and what it makes of the answer. -/
structure Inquiry where
  url : RawText
  depth : RawText
  body : Option RawText
  read : Response → Except Failure Result

def Step.inquiry? (e : Remote κ) (baseUrl : RawText) : Step → Option Inquiry
  | .list folder =>
    folder.text?.map fun folder =>
      let url := baseUrl ++ RawText.ofString (Folder.urlPath (Folder.normalize (some folder)))
      ⟨url, "1", some listingBody, fun r => (readListing e url folder r {}).1.map .records⟩
  | .check =>
    some ⟨baseUrl ++ RawText.ofString "/", "1", none, fun r =>
      if r.isSuccess then .ok (.status r.status) else .error (.badStatus r.status)⟩
  | .propfind url depth body => some ⟨url, depth, body, fun r => .ok (.response r)⟩
  | .folderUrl _ | .close | .block => none

theorem Step.isSome_inquiry? (e : Remote κ) (baseUrl : RawText) (t : Step) :
    (t.inquiry? e baseUrl).isSome = t.asks := by
  cases t <;> simp [inquiry?, asks]

def Inquiry.make (q : Inquiry) (e : Remote κ) (c : Client κ) (w : Wire) : Use κ Response :=
  c.propfind e w q.url q.depth q.body

theorem step_of_inquiry? {e : Remote κ} {c : Client κ} {t : Step} {q : Inquiry}
    (h : t.inquiry? e c.baseUrl = some q) (w : Wire) :
    ∃ notes, c.step e w t = ((q.make e c w).1.bind q.read, (q.make e c w).2.1,
      (q.make e c w).2.2.noteAll notes) := by
  cases t with
  | list folder =>
    obtain ⟨text, htext, rfl⟩ := Option.map_eq_some_iff.1 h
    simp only [step, listRecords, htext, listFolder, Inquiry.make, folderUrl]
    rcases c.propfind e w _ "1" (some listingBody) with ⟨f | r, c', w'⟩
    · exact ⟨[], by rw [Wire.noteAll_nil]; rfl⟩
    · obtain ⟨notes, hnotes⟩ := exists_readListing_snd_eq_noteAll (e := e)
        (c.baseUrl ++ RawText.ofString (Folder.urlPath (Folder.normalize (some text)))) text r w'
      refine ⟨notes, ?_⟩
      dsimp only [Except.bind]
      rw [hnotes, readListing_fst_eq _ _ text _ _ {}]
  | check =>
    obtain rfl := Option.some.inj h
    refine ⟨[], ?_⟩
    unfold step checkConnection Inquiry.make
    dsimp only
    rcases c.propfind e w (c.baseUrl ++ RawText.ofString "/") "1" none with ⟨f | r, c', w'⟩
    · rw [Wire.noteAll_nil]
      rfl
    · rw [Wire.noteAll_nil]
      dsimp only [Except.bind]
      split <;> rfl
  | propfind url depth body =>
    obtain rfl := Option.some.inj h
    refine ⟨[], ?_⟩
    unfold step Inquiry.make
    dsimp only
    rw [Wire.noteAll_nil]
    rcases c.propfind e w url depth body with ⟨f | r, c', w'⟩ <;> rfl
  | folderUrl | close | block => cases h

theorem step_of_inquiry?_none {e : Remote κ} {c : Client κ} {t : Step}
    (h : t.inquiry? e c.baseUrl = none) (w : Wire) :
    (c.step e w t).2 = (if t.closes then c.close else c, w) ∧
      ∀ c' : Client κ, c'.baseUrl = c.baseUrl → ∀ w', (c'.step e w' t).1 = (c.step e w t).1 := by
  cases t with
  | list folder =>
    have htext : folder.text? = none := Option.map_eq_none_iff.1 h
    simp [step, listRecords, htext, Step.closes]
  | check | propfind => cases h
  | folderUrl folder =>
    cases htext : folder.text? with
    | none => simp [step, htext, Step.closes]
    | some text =>
      refine ⟨by simp [step, htext, Step.closes], fun c' hc' w' => ?_⟩
      simp [step, htext, folderUrl, hc']
  | close | block => simp [step, Step.closes]

/-- The client has a login with which a connection can be made, and holds one that goes back to
it. -/
structure Settled (agent : Agent κ) (first : κ) (c : Client κ) : Prop where
  connect : agent.connect c.username c.password = .ok first
  reaches : ∀ k ∈ c.held, agent.Reaches first k

section Settled
variable {e : Remote κ} {first : κ} {c : Client κ}

theorem Settled.close (h : c.Settled e.agent first) : c.close.Settled e.agent first :=
  ⟨h.connect, by simp [Client.close]⟩

theorem Settled.exists_connection (h : c.Settled e.agent first) :
    ∃ k, c.connection e.agent = .ok k ∧ e.agent.Reaches first k := by
  unfold connection
  cases hheld : c.held with
  | none => exact ⟨first, h.connect, .start⟩
  | some k => exact ⟨k, rfl, h.reaches k hheld⟩

theorem Settled.make_client (h : c.Settled e.agent first) (q : Inquiry) (w : Wire) :
    ∃ k, (q.make e c w).2.1 = { c with held := some k } ∧ e.agent.Reaches first k := by
  obtain ⟨k, hk, hreach⟩ := h.exists_connection
  simp only [Inquiry.make, propfind, hk]
  cases q.url.text? with
  | none => exact ⟨k, rfl, hreach⟩
  | some address => exact ⟨_, rfl, hreach.send ..⟩

theorem Settled.step_client (h : c.Settled e.agent first) (w : Wire) (t : Step) :
    ∃ held, (c.step e w t).2.1 = { c with held } ∧
      ({ c with held } : Client κ).Settled e.agent first ∧
      held.isSome = (t.asks || c.held.isSome && !t.closes) := by
  have hasks := t.isSome_inquiry? e c.baseUrl
  cases hq : t.inquiry? e c.baseUrl with
  | some q =>
    obtain ⟨notes, hstep⟩ := step_of_inquiry? hq w
    obtain ⟨k, hclient, hreach⟩ := h.make_client q w
    rw [hq] at hasks
    refine ⟨some k, by rw [hstep, ← hclient], ⟨h.connect, ?_⟩, by simp [← hasks]⟩
    rintro _ ⟨⟩
    exact hreach
  | none =>
    rw [hq] at hasks
    rw [(step_of_inquiry?_none hq w).1]
    cases hcloses : t.closes with
    | true => exact ⟨none, rfl, h.close, by simp [← hasks]⟩
    | false => exact ⟨c.held, rfl, h, by simp [← hasks]⟩

end Settled

theorem run_append_singleton (e : Remote κ) (s : State κ) (steps : List Step) (t : Step) :
    run e s (steps ++ [t]) = after e (run e s steps) t := by
  simp [run]

theorem Settled.exists_run_client_eq {e : Remote κ} {first : κ} {s : State κ}
    (h : s.1.Settled e.agent first) (hclosed : s.1.held = none) (steps : List Step) :
    ∃ held, (run e s steps).1 = { s.1 with held } ∧
      (run e s steps).1.Settled e.agent first ∧
      (held.isSome = true ↔ AskedSinceClosed steps) := by
  induction steps using List.reverseRecOn with
  | nil => exact ⟨none, by rw [← hclosed]; rfl, h, by simp [AskedSinceClosed]⟩
  | append_singleton steps t ih =>
    obtain ⟨held, hclient, hsettled, hheld⟩ := ih
    obtain ⟨held', hclient', hsettled', hheld'⟩ := hsettled.step_client (run e s steps).2 t
    rw [run_append_singleton, askedSinceClosed_append_singleton, after, hclient']
    rw [hclient] at hheld' ⊢
    refine ⟨held', rfl, ?_, by simp [hheld', hheld]⟩
    rw [hclient] at hsettled'
    exact hsettled'

/-- No step fails for want of a scheme while the client holds a connection with cookies. -/
def Clear (e : Remote κ) (hasCookies : κ → Bool) : State κ → List Step → Prop
  | _, [] => True
  | s, t :: steps =>
    (s.1.held.any hasCookies = false ∨ (seen e s t).outcome ≠ .error unschemed) ∧
      Clear e hasCookies (after e s t) steps

instance (e : Remote κ) (hasCookies : κ → Bool) :
    ∀ s steps, Decidable (Clear e hasCookies s steps)
  | _, [] => .isTrue trivial
  | s, t :: steps =>
    have := instDecidableClear e hasCookies (after e s t) steps
    inferInstanceAs (Decidable ((_ ∨ _) ∧ Clear e hasCookies (after e s t) steps))

/-- Clients that differ in their connections only, on wires on which the same has been sent. -/
structure Alike (agent : Agent κ) (first : κ) (s s' : State κ) : Prop where
  close_eq : s.1.close = s'.1.close
  settled : s.1.Settled agent first
  settled' : s'.1.Settled agent first
  sent_eq : s.2.sent = s'.2.sent

section Alike
variable {e : Remote κ} {hasCookies : κ → Bool} {first : κ} {s s' : State κ}

theorem Alike.symm (h : Alike e.agent first s s') : Alike e.agent first s' s :=
  ⟨h.close_eq.symm, h.settled', h.settled, h.sent_eq.symm⟩

theorem baseUrl_eq_of_close_eq {c c' : Client κ} (h : c.close = c'.close) :
    c.baseUrl = c'.baseUrl := by
  simpa [close] using congrArg Client.baseUrl h

theorem Inquiry.make_congr (q : Inquiry) (c : Client κ) {w w' : Wire} (h : w.sent = w'.sent) :
    (q.make e c w).1 = (q.make e c w').1 ∧
      (q.make e c w).2.2.sent = (q.make e c w').2.2.sent := by
  unfold make propfind callOn
  cases c.connection e.agent with
  | error b => exact ⟨rfl, h⟩
  | ok k =>
    cases q.url.text? with
    | none => exact ⟨rfl, h⟩
    | some address => simp [h]

theorem Settled.make_close (hdiscreet : e.agent.Discreet hasCookies) {c : Client κ}
    (h : c.Settled e.agent first) (q : Inquiry) (w : Wire)
    (hclear : c.held.any hasCookies = false ∨ (q.make e c w).1 ≠ .error unschemed) :
    (q.make e c w).1 = (q.make e c.close w).1 ∧
      (q.make e c w).2.2.sent = (q.make e c.close w).2.2.sent := by
  have hnew : c.close.connection e.agent = .ok first := h.connect
  cases hheld : c.held with
  | none =>
    have hclosed : c.close = c := by rw [Client.close, ← hheld]
    rw [hclosed]
    exact ⟨rfl, rfl⟩
  | some k =>
    have hconnection : c.connection e.agent = .ok k := by simp [connection, hheld]
    simp only [Inquiry.make, propfind, hconnection, hnew, hheld, Option.any_some] at hclear ⊢
    cases htext : q.url.text? with
    | none => exact ⟨rfl, rfl⟩
    | some address =>
      rw [htext] at hclear
      obtain ⟨houtcome, hsent⟩ := hdiscreet.send_eq _ _ first k (e.server.after w.sent)
        (propertyCall address q.depth q.body) h.connect (h.reaches k hheld) hclear
      exact ⟨houtcome, congrArg (w.sent ++ ·) hsent⟩

theorem Alike.make_eq (hdiscreet : e.agent.Discreet hasCookies) (h : Alike e.agent first s s')
    {q : Inquiry}
    (hclear : s.1.held.any hasCookies = false ∨ (q.make e s.1 s.2).1 ≠ .error unschemed)
    (hclear' : s'.1.held.any hasCookies = false ∨ (q.make e s'.1 s'.2).1 ≠ .error unschemed) :
    (q.make e s.1 s.2).1 = (q.make e s'.1 s'.2).1 ∧
      (q.make e s.1 s.2).2.2.sent = (q.make e s'.1 s'.2).2.2.sent := by
  obtain ⟨houtcome, hsent⟩ := h.settled.make_close hdiscreet q s.2 hclear
  obtain ⟨houtcome', hsent'⟩ := h.settled'.make_close hdiscreet q s'.2 hclear'
  rw [houtcome, houtcome', hsent, hsent', ← h.close_eq]
  exact q.make_congr s.1.close h.sent_eq

theorem Alike.settled_after (h : Alike e.agent first s s') (t : Step) :
    (after e s t).1.close = (after e s' t).1.close ∧
      (after e s t).1.Settled e.agent first ∧ (after e s' t).1.Settled e.agent first := by
  obtain ⟨held, hclient, hsettled, -⟩ := h.settled.step_client s.2 t
  obtain ⟨held', hclient', hsettled', -⟩ := h.settled'.step_client s'.2 t
  unfold after
  rw [hclient, hclient']
  exact ⟨h.close_eq, hsettled, hsettled'⟩

theorem Alike.step (hdiscreet : e.agent.Discreet hasCookies) (h : Alike e.agent first s s')
    {t : Step}
    (hclear : s.1.held.any hasCookies = false ∨ (seen e s t).outcome ≠ .error unschemed)
    (hclear' : s'.1.held.any hasCookies = false ∨ (seen e s' t).outcome ≠ .error unschemed) :
    seen e s t = seen e s' t ∧ Alike e.agent first (after e s t) (after e s' t) := by
  have hbase := baseUrl_eq_of_close_eq h.close_eq
  obtain ⟨hclose, hsettled, hsettled'⟩ := h.settled_after t
  suffices hstep : (s.1.step e s.2 t).1 = (s'.1.step e s'.2 t).1 ∧
      (s.1.step e s.2 t).2.2.sent = (s'.1.step e s'.2 t).2.2.sent by
    refine ⟨?_, hclose, hsettled, hsettled', hstep.2⟩
    simp only [seen, hstep.1, hstep.2, h.sent_eq]
  -- A step makes one inquiry at most, and a new connection answers it as a held one does.
  cases hq : t.inquiry? e s.1.baseUrl with
  | some q =>
    obtain ⟨notes, hstep⟩ := step_of_inquiry? hq s.2
    obtain ⟨notes', hstep'⟩ := step_of_inquiry? (hbase ▸ hq) s'.2
    -- What the inquiry is refused with is what the step fails with.
    have hfails {c : Client κ} {w : Wire} (hrefused : (q.make e c w).1 = .error unschemed) :
        (q.make e c w).1.bind q.read = .error unschemed := by
      rw [hrefused]
      rfl
    simp only [seen, hstep] at hclear
    simp only [seen, hstep'] at hclear'
    obtain ⟨houtcome, hsent⟩ := h.make_eq hdiscreet (hclear.imp_right (mt hfails))
      (hclear'.imp_right (mt hfails))
    rw [hstep, hstep', houtcome, Wire.noteAll_sent, Wire.noteAll_sent, hsent]
    exact ⟨rfl, rfl⟩
  | none =>
    obtain ⟨hleft, hsame⟩ := step_of_inquiry?_none hq s.2
    obtain ⟨hleft', -⟩ := step_of_inquiry?_none (hbase ▸ hq) s'.2
    refine ⟨(hsame s'.1 hbase.symm s'.2).symm, ?_⟩
    rw [hleft, hleft']
    exact h.sent_eq

theorem Alike.after_left (h : Alike e.agent first s s') {t : Step} (hquiet : t.asks = false) :
    Alike e.agent first (after e s t) s' := by
  have hq : t.inquiry? e s.1.baseUrl = none := by
    rw [← Option.not_isSome_iff_eq_none, Step.isSome_inquiry?, hquiet]
    decide
  unfold after
  rw [(step_of_inquiry?_none hq s.2).1]
  split
  · exact ⟨h.close_eq, h.settled.close, h.settled', h.sent_eq⟩
  · exact ⟨h.close_eq, h.settled, h.settled', h.sent_eq⟩

theorem Alike.after_right (h : Alike e.agent first s s') {t : Step} (hquiet : t.asks = false) :
    Alike e.agent first s (after e s' t) := (h.symm.after_left hquiet).symm

theorem Edited.alike_run (hdiscreet : e.agent.Discreet hasCookies) {steps steps' : List Step}
    (hedited : Edited steps steps') (h : Alike e.agent first s s')
    (hclear : Clear e hasCookies s steps) (hclear' : Clear e hasCookies s' steps') :
    Alike e.agent first (run e s steps) (run e s' steps') := by
  -- By induction on the edit: a step that is put in or left out changes the connection only.
  induction hedited generalizing s s' with
  | nil => exact h
  | keep t _ ih => exact ih (h.step hdiscreet hclear.1 hclear'.1).2 hclear.2 hclear'.2
  | leaveOut t hquiet _ ih => exact ih (h.after_left hquiet) hclear.2 hclear'
  | putIn t hquiet _ ih => exact ih (h.after_right hquiet) hclear hclear'.2

end Alike

theorem clear_append {e : Remote κ} {hasCookies : κ → Bool} {s : State κ}
    {steps rest : List Step} : Clear e hasCookies s (steps ++ rest) ↔
      Clear e hasCookies s steps ∧ Clear e hasCookies (run e s steps) rest := by
  induction steps generalizing s with
  | nil => exact (and_iff_right trivial).symm
  | cons t steps ih =>
    rw [List.cons_append, Clear, ih, Clear, and_assoc]
    rfl

section
variable {e : Remote κ} {hasCookies : κ → Bool} (hdiscreet : e.agent.Discreet hasCookies)
  (hnone : e.server.SetsNoCookies)
include hdiscreet hnone

theorem Inquiry.make_cookies (q : Inquiry) {c : Client κ} (h : c.held.any hasCookies = false)
    (w : Wire) : (q.make e c w).2.1.held.any hasCookies = false := by
  unfold make propfind
  cases hconnection : c.connection e.agent with
  | error b => exact h
  | ok k =>
    have hk : hasCookies k = false := by
      unfold connection at hconnection
      cases hheld : c.held with
      | none =>
        rw [hheld] at hconnection
        exact hdiscreet.connect _ _ _ hconnection
      | some k' =>
        rw [hheld] at h hconnection
        obtain rfl := Except.ok.inj hconnection
        exact h
    cases q.url.text? with
    | none => exact hk
    | some address => exact hdiscreet.keeps _ k _ (hnone.after w.sent) hk

theorem after_cookies {s : State κ} (h : s.1.held.any hasCookies = false) (t : Step) :
    (after e s t).1.held.any hasCookies = false := by
  unfold after
  cases hq : t.inquiry? e s.1.baseUrl with
  | some q =>
    obtain ⟨notes, hstep⟩ := step_of_inquiry? hq s.2
    rw [hstep]
    exact q.make_cookies hdiscreet hnone h s.2
  | none =>
    rw [(step_of_inquiry?_none hq s.2).1]
    split
    · rfl
    · exact h

theorem clear_of_setsNoCookies {s : State κ} (h : s.1.held.any hasCookies = false)
    (steps : List Step) : Clear e hasCookies s steps := by
  induction steps generalizing s with
  | nil => trivial
  | cons t steps ih => exact ⟨.inl h, ih (after_cookies hdiscreet hnone h t)⟩

end

theorem log_append (e : Remote κ) (s : State κ) (steps rest : List Step) :
    log e s (steps ++ rest) = log e s steps ++ log e (run e s steps) rest := by
  induction steps generalizing s with
  | nil => rfl
  | cons t steps ih => exact congrArg (seen e s t :: ·) (ih (after e s t))

theorem length_log (e : Remote κ) (s : State κ) (steps : List Step) :
    (log e s steps).length = steps.length := by
  induction steps generalizing s with
  | nil => rfl
  | cons t steps ih => exact congrArg (· + 1) (ih (after e s t))

theorem getElem?_log (e : Remote κ) (s : State κ) (before : List Step) (t : Step)
    (behind : List Step) : (log e s (before ++ t :: behind))[before.length]? =
      some (seen e (run e s before) t) := by
  rw [log_append, List.getElem?_append_right (length_log e s before).le, length_log,
    Nat.sub_self]
  rfl

/-- The connection of a client is not seen. It is held if a step has made a call since the client
was closed, and the root stays what it is. Whatever steps that make no call are put in and left out
before a step, and whatever steps follow, the step has the same outcome and sends the same requests,
unless a step fails for want of a scheme while the connection that is held has cookies. -/
structure Transparent (e : Remote κ) (hasCookies : κ → Bool) (s : State κ) : Prop where
  held_iff : ∀ steps, (run e s steps).1.held.isSome = true ↔ AskedSinceClosed steps
  baseUrl_eq : ∀ steps, (run e s steps).1.baseUrl = s.1.baseUrl
  seen_eq : ∀ before before' t behind behind', Edited before before' →
    Clear e hasCookies s (before ++ [t]) → Clear e hasCookies s (before' ++ [t]) →
      ∃ view, (log e s (before ++ t :: behind))[before.length]? = some view ∧
        (log e s (before' ++ t :: behind'))[before'.length]? = some view
  clear : e.server.SetsNoCookies → ∀ steps, Clear e hasCookies s steps

/-- This is so for every login with which a connection can be made. -/
theorem connection_is_transparent {e : Remote κ} {hasCookies : κ → Bool}
    (hdiscreet : e.agent.Discreet hasCookies) {baseUrl username password : RawText} {first : κ}
    (hlogin : e.agent.connect (.text username) (.text password) = .ok first) :
    Transparent e hasCookies (start baseUrl username password) := by
  have hsettled : (start baseUrl username password).1.Settled e.agent first :=
    ⟨hlogin, by simp [start, new]⟩
  have hrun := hsettled.exists_run_client_eq rfl
  constructor
  case held_iff =>
    intro steps
    obtain ⟨held, hclient, -, hheld⟩ := hrun steps
    rw [hclient, hheld]
  case baseUrl_eq =>
    intro steps
    obtain ⟨held, hclient, -⟩ := hrun steps
    rw [hclient]
  case seen_eq =>
    intro before before' t behind behind' hedited hclear hclear'
    rw [clear_append] at hclear hclear'
    have hbefore :=
      hedited.alike_run hdiscreet ⟨rfl, hsettled, hsettled, rfl⟩ hclear.1 hclear'.1
    obtain ⟨hseen, -⟩ := hbefore.step hdiscreet hclear.2.1 hclear'.2.1
    exact ⟨_, getElem?_log .., hseen ▸ getElem?_log ..⟩
  case clear => exact fun hnone => clear_of_setsNoCookies hdiscreet hnone rfl

end

theorem connection_is_transparent_with_cookie :
    let e : Remote Held := ⟨.standard, Xml.Document.reader, fun _ =>
      .response { status := 207, headers := [("Set-Cookie", "a=b")] }⟩
    let s := start "https://cloud.example.com/dav/" "alice" "secret"
    let before : List Step := [.check, .folderUrl "x"]
    let before' : List Step := [.block, .check, .close]
    e.agent.Discreet Agent.hasCookies ∧ ¬ e.server.SetsNoCookies ∧ Edited before before' ∧
      Clear e Agent.hasCookies s (before ++ [.check]) ∧
      Clear e Agent.hasCookies s (before' ++ [.check]) ∧
      ∃ view, (log e s (before ++ .check :: []))[2]? = some view ∧
        (log e s (before' ++ .check :: [.close]))[3]? = some view := by
  intro e s before before'
  have hcookie : ¬ e.server.SetsNoCookies := fun h =>
    h [] _ rfl ("Set-Cookie", "a=b") (by simp) (by decide +kernel)
  have hedited : Edited before before' :=
    .putIn _ rfl (.keep _ (.putIn _ rfl (.leaveOut _ rfl .nil)))
  have hclear : Clear e Agent.hasCookies s (before ++ [.check]) := by decide +kernel
  have hclear' : Clear e Agent.hasCookies s (before' ++ [.check]) := by decide +kernel
  have hlogin : e.agent.connect (.text "alice") (.text "secret") = .ok _ :=
    Agent.connectStandard_ofString "alice" "secret"
  exact ⟨Agent.standard_discreet, hcookie, hedited, hclear, hclear',
    (connection_is_transparent Agent.standard_discreet hlogin).seen_eq
      before before' .check [] [.close] hedited hclear hclear'⟩

/-- A cookie keeps a request from being sent to an address without a scheme, until the client is
closed. What the server answers later is then seen to be different. -/
theorem cookie_seen_without_scheme :
    let e : Remote Held := ⟨.standard, Xml.Document.reader, .scripted [
      .response { status := 207, headers := [("Set-Cookie", "a=b")] },
      .response { status := 404 }, .response { status := 207 }]⟩
    let s := start "https://cloud.example.com/dav" "alice" "secret"
    let docs := Step.propfind "docs" "1" none
    Edited [.check, docs, .check] [.check, .close, docs, .check] ∧
      (log e s [.check, docs, .check]).map (fun v => (v.outcome, v.requests.map (·.url))) =
        [(.ok (.status 207), ["https://cloud.example.com/dav/"]),
          (.error (.breach .missingScheme), []),
          (.error (.badStatus 404), ["https://cloud.example.com/dav/"])] ∧
      (log e s [.check, .close, docs, .check]).map
          (fun v => (v.outcome, v.requests.map (·.url))) =
        [(.ok (.status 207), ["https://cloud.example.com/dav/"]), (.ok .closed, []),
          (.error (.breach .missingScheme), ["/docs"]),
          (.ok (.status 207), ["https://cloud.example.com/dav/"])] := by
  refine ⟨.keep _ (.putIn _ rfl (.keep _ (.keep _ .nil))), ?_⟩
  decide +kernel

end DavQuery.Client
