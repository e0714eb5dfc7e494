import DavQuery.Http.Standard
import DavQuery.Proofs.Agent
import Mathlib.Data.List.Basic

/-! The agent of the program. The cookies of a connection keep a request from being sent only if its
address has no scheme, so that two calls by which the same has been sent go on alike until one of
them is refused for want of a scheme. -/

namespace DavQuery.Http
open Text Url

namespace Cookie

theorem headersOf_eq_nil_iff {r : Response} :
    headersOf r = [] ↔ ∀ h ∈ r.headers, h.1.toLower ≠ "set-cookie" := by
  simp [headersOf]

theorem update_of_headersOf {r : Response} (h : headersOf r = []) (kept : List Cookie)
    (a : Address) : update kept a r = kept := by
  simp [update, h, readHeaders, List.removeAll]

theorem update_subset_update {kept kept' : List Cookie} (h : kept ⊆ kept') (a : Address)
    (r : Response) : update kept a r ⊆ update kept' a r := by
  intro c hc
  unfold update at hc ⊢
  dsimp only at hc ⊢
  rw [← List.union_def, List.mem_union_iff, List.removeAll, List.mem_filter] at hc ⊢
  exact hc.imp_right fun ⟨hkept, hstays⟩ => ⟨h hkept, hstays⟩

end Cookie

theorem allow_of_scheme {a : Address} (h : a.scheme ≠ []) (cookies : List Cookie) :
    allow cookies a = .ok a := by
  simp [allow, h]

theorem allow_eq_ok_or_error (cookies : List Cookie) (a : Address) :
    allow cookies a = .ok a ∧ (a.scheme ≠ [] ∨ cookies = []) ∨
      allow cookies a = .error unschemed ∧ a.scheme = [] ∧ cookies ≠ [] := by
  unfold allow unschemed
  by_cases hscheme : a.scheme = [] <;> by_cases hcookies : cookies = [] <;>
    simp [hscheme, hcookies]

namespace Link

theorem exchange_eq (server : Server) (request : Request) (l : Link) :
    l.exchange server request =
      (server (l.sent ++ [request]), { l with sent := l.sent ++ [request] }) := rfl

/-- The same has been sent on the links. The first one may be refused alone only if `left` holds,
and the second one only if `right` does: otherwise the other one has all its cookies. -/
structure Alike (left right : Prop) (l l' : Link) : Prop where
  sent_eq : l.sent = l'.sent
  subset : ¬ left → l.cookies ⊆ l'.cookies
  subset' : ¬ right → l'.cookies ⊆ l.cookies

end Link

/-- Two uses of links come out the same and leave the links alike, or one of them is refused that
may be refused alone. -/
inductive Coincide {β : Type} (left right : Prop) (refusal : β) : β × Link → β × Link → Prop
  | alike (b : β) {l l' : Link} : l.Alike left right l' →
      Coincide left right refusal (b, l) (b, l')
  | left {l : Link} {y : β × Link} : left → Coincide left right refusal (refusal, l) y
  | right {x : β × Link} {l' : Link} : right → Coincide left right refusal x (refusal, l')

namespace Link.Alike
variable {left right : Prop} {l l' : Link}

theorem add (h : l.Alike left right l') (request : Request) :
    ({ l with sent := l.sent ++ [request] } : Link).Alike left right
      { l' with sent := l'.sent ++ [request] } :=
  ⟨congrArg (· ++ [request]) h.sent_eq, h.subset, h.subset'⟩

theorem keepCookies (h : l.Alike left right l') (a : Address) (r : Response) :
    (l.keepCookies a r).Alike left right (l'.keepCookies a r) where
  sent_eq := h.sent_eq
  subset hleft := Cookie.update_subset_update (h.subset hleft) a r
  subset' hright := Cookie.update_subset_update (h.subset' hright) a r

theorem allow (h : l.Alike left right l') (a : Address) :
    Coincide left right (.error unschemed) (allow l.cookies a, l) (allow l'.cookies a, l') := by
  rcases allow_eq_ok_or_error l.cookies a with ⟨hl, hfree⟩ | ⟨hl, hscheme, hcookies⟩ <;>
    rcases allow_eq_ok_or_error l'.cookies a with ⟨hl', hfree'⟩ | ⟨hl', hscheme', hcookies'⟩ <;>
    rw [hl, hl']
  · exact .alike _ h
  · refine .right (Classical.not_not.1 fun hright => hcookies' ?_)
    exact List.subset_nil.1 (hfree.resolve_left (· hscheme') ▸ h.subset' hright)
  · refine .left (Classical.not_not.1 fun hleft => hcookies ?_)
    exact List.subset_nil.1 (hfree'.resolve_left (· hscheme) ▸ h.subset hleft)
  · exact .alike _ h

theorem sendOnce (h : l.Alike left right l') (server : Server) (request : Request)
    (address : Address) :
    Coincide left right (.ends (.error unschemed)) (sendOnce server request address l)
      (sendOnce server request address l') := by
  have hsent := h.add request
  simp only [Http.sendOnce, exchange_eq, ← h.sent_eq] at hsent ⊢
  generalize ({ l with sent := l.sent ++ [request] } : Link) = v,
    ({ l' with sent := l.sent ++ [request] } : Link) = v' at hsent ⊢
  cases server (l.sent ++ [request]) with
  | fault kind message => exact .alike _ hsent
  | response r =>
    dsimp only
    split
    · exact .alike _ hsent
    · have hkept := hsent.keepCookies address r
      cases r.location? with
      | none => exact .alike _ hkept
      | some location =>
        dsimp only
        cases redirectTarget address location with
        | error f => exact .alike _ hkept
        | ok next =>
          dsimp only [Except.bind]
          generalize v.keepCookies address r = v, v'.keepCookies address r = v' at hkept ⊢
          have hallow := hkept.allow next
          generalize Http.allow v.cookies next = x, Http.allow v'.cookies next = y at hallow ⊢
          cases hallow with
          | alike x hkept => cases x <;> exact .alike _ hkept
          | left hleft => exact .left hleft
          | right hright => exact .right hright

theorem follow {l l' : Link} (h : l.Alike left right l') (server : Server) (budget : Nat)
    (request : Request) (address : Address) :
    Coincide left right (.error unschemed) (follow server budget request address l)
      (follow server budget request address l') := by
  have honce := h.sendOnce server request address
  unfold Http.follow
  generalize Http.sendOnce server request address l = x,
    Http.sendOnce server request address l' = y at honce ⊢
  cases honce with
  | alike turn halike =>
    cases turn with
    | ends outcome => exact .alike outcome halike
    | goesOn request next =>
      -- The links are alike again, and fewer answers may follow.
      cases budget with
      | zero => exact .alike _ halike
      | succ budget => exact halike.follow server budget request next
  | left hleft => exact .left hleft
  | right hright => exact .right hright

end Link.Alike

theorem sendOnce_snd (server : Server) (request : Request) (address : Address) (l : Link) :
    (sendOnce server request address l).2 = { l with sent := l.sent ++ [request] } ∨
      ∃ r, server (l.sent ++ [request]) = .response r ∧
        (sendOnce server request address l).2 =
          ({ l with sent := l.sent ++ [request] } : Link).keepCookies address r := by
  unfold sendOnce
  rw [Link.exchange_eq]
  cases hanswer : server (l.sent ++ [request]) with
  | fault kind message => exact .inl rfl
  | response r =>
    dsimp only
    split
    · exact .inl rfl
    · refine .inr ⟨r, rfl, ?_⟩
      cases r.location? with
      | none => rfl
      | some location =>
        dsimp only
        split <;> rfl

section
variable {server : Server} (hnone : server.SetsNoCookies)
include hnone

theorem sendOnce_cookies (request : Request) (address : Address) {l : Link}
    (h : l.cookies = []) : (sendOnce server request address l).2.cookies = [] := by
  rcases sendOnce_snd server request address l with hl | ⟨r, hanswer, hl⟩
  · rw [hl, h]
  · have hheaders := Cookie.headersOf_eq_nil_iff.2 (hnone _ r hanswer)
    rw [hl, Link.keepCookies, Cookie.update_of_headersOf hheaders, h]

theorem follow_cookies (budget : Nat) (request : Request) (address : Address) {l : Link}
    (h : l.cookies = []) : (follow server budget request address l).2.cookies = [] := by
  fun_induction follow server budget request address l <;> grind [sendOnce_cookies]

end

theorem Server.NeverRedirects.follow_sent {server : Server} (h : server.NeverRedirects)
    (budget : Nat) (request : Request) (address : Address) (l : Link) :
    (follow server budget request address l).2.sent = l.sent ++ [request] := by
  unfold follow sendOnce
  rw [Link.exchange_eq]
  cases hanswer : server (l.sent ++ [request]) with
  | fault kind message => rfl
  | response r =>
    have hlast : r.location? = none := h _ r hanswer
    by_cases hscheme : address.scheme.isEmpty = true
    · simp [hscheme]
    · simp [hscheme, hlast, Link.keepCookies]

theorem Server.NeverRedirects.follow_fst {server : Server} (h : server.NeverRedirects)
    {address : Address} (hscheme : address.scheme ≠ []) (budget : Nat) (request : Request)
    (l : Link) {r : Response} (hanswer : server (l.sent ++ [request]) = .response r) :
    (follow server budget request address l).1 = .ok r := by
  have hlast : r.location? = none := h _ r hanswer
  unfold follow sendOnce
  rw [Link.exchange_eq, hanswer]
  simp [hscheme, hlast]

theorem prepare_eq (k k' : Held) (call : Call) (h : k.authorization = k'.authorization) :
    prepare k call = prepare k' call ∨
      k.cookies ≠ [] ∧ prepare k call = .error unschemed ∨
      k'.cookies ≠ [] ∧ prepare k' call = .error unschemed := by
  unfold prepare
  cases Address.target call.url.toList with
  | error m => exact .inl rfl
  | ok a =>
    dsimp only
    cases headerText? call.depth with
    | none => exact .inl rfl
    | some depth =>
      dsimp only
      rcases allow_eq_ok_or_error k.cookies a with ⟨hk, -⟩ | ⟨hk, -, hcookies⟩
      · rcases allow_eq_ok_or_error k'.cookies a with ⟨hk', -⟩ | ⟨hk', -, hcookies'⟩
        · rw [hk, hk', h]
          exact .inl rfl
        · rw [hk']
          exact .inr (.inr ⟨hcookies', rfl⟩)
      · rw [hk]
        exact .inr (.inl ⟨hcookies, rfl⟩)

theorem prepare_eq_ok {k : Held} {call : Call} {a : Address} {request : Request}
    (h : prepare k call = .ok (a, request)) :
    Address.target call.url.toList = .ok a ∧ request.url = a.sentText := by
  unfold prepare at h
  cases htarget : Address.target call.url.toList with
  | error m => simp [htarget] at h
  | ok a' =>
    simp only [htarget] at h
    cases hdepth : headerText? call.depth with
    | none => simp [hdepth] at h
    | some depth =>
      simp only [hdepth] at h
      rcases allow_eq_ok_or_error k.cookies a' with ⟨hallow, -⟩ | ⟨hallow, -⟩
      · simp only [hallow] at h
        cases hbody : bodyText? call.body with
        | none => simp [hbody] at h
        | some body =>
          simp only [hbody, Except.ok.injEq, Prod.mk.injEq] at h
          obtain ⟨rfl, rfl⟩ := h
          exact ⟨rfl, rfl⟩
      · simp [hallow] at h

namespace Agent

def hasCookies (k : Held) : Bool := !k.cookies.isEmpty

theorem sendStandard_eq (server : Server) (k k' : Held) (call : Call)
    (h : k.authorization = k'.authorization) (hnew : k'.cookies = [])
    (hclear : k.cookies = [] ∨ (sendStandard server k call).1 ≠ .error unschemed) :
    (sendStandard server k call).1 = (sendStandard server k' call).1 ∧
      (sendStandard server k call).2.2 = (sendStandard server k' call).2.2 := by
  rcases prepare_eq k k' call h with heq | ⟨hcookies, hrefused⟩ | ⟨hcookies, -⟩
  · unfold sendStandard at hclear ⊢
    rw [heq] at hclear ⊢
    generalize prepare k' call = prepared at hclear ⊢
    rcases prepared with f | ⟨a, request⟩
    · exact ⟨rfl, rfl⟩
    · have halike : (⟨[], k.cookies⟩ : Link).Alike (k.cookies ≠ []) False ⟨[], k'.cookies⟩ :=
        ⟨rfl, fun hleft => by simp [not_not.1 hleft], fun _ => by simp [hnew]⟩
      have hsent := halike.follow server redirectLimit request a
      dsimp only at hclear ⊢
      generalize follow server redirectLimit request a ⟨[], k.cookies⟩ = x,
        follow server redirectLimit request a ⟨[], k'.cookies⟩ = y at hsent hclear ⊢
      cases hsent with
      | alike outcome halike => exact ⟨rfl, halike.sent_eq⟩
      | left hcookies => exact absurd rfl (hclear.resolve_left hcookies)
      | right hfalse => exact hfalse.elim
  · refine absurd ?_ (hclear.resolve_left hcookies)
    simp [sendStandard, hrefused]
  · exact absurd hnew hcookies

theorem sendStandard_authorization (server : Server) (k : Held) (call : Call) :
    (sendStandard server k call).2.1.authorization = k.authorization := by
  unfold sendStandard
  rcases prepare k call with f | ⟨a, request⟩ <;> rfl

theorem Reaches.authorization {first k : Held} (h : standard.Reaches first k) :
    k.authorization = first.authorization := by
  induction h with
  | start => rfl
  | send server call _ ih => exact (sendStandard_authorization server _ call).trans ih

theorem connectStandard_ofString (username password : String) :
    connectStandard (.text (RawText.ofString username)) (.text (RawText.ofString password)) =
      .ok { authorization := authorization username password } := by
  simp [connectStandard, Json.Value.text?]

theorem connectStandard_cookies {username password : Json.Value} {k : Held}
    (h : connectStandard username password = .ok k) : k.cookies = [] := by
  unfold connectStandard at h
  split at h
  · simp at h
  · simp at h
  · split at h
    · cases h
      rfl
    · simp at h

theorem standard_discreet : standard.Discreet hasCookies where
  connect username password k h := by simp [hasCookies, connectStandard_cookies h]
  keeps server k call hserver hk := by
    have hk : k.cookies = [] := by simpa [hasCookies] using hk
    suffices h : (sendStandard server k call).2.1.cookies = [] by simp [hasCookies, standard, h]
    unfold sendStandard
    rcases prepare k call with f | ⟨a, request⟩
    · exact hk
    · exact follow_cookies hserver _ _ _ hk
  send_eq username password first k server call hfirst hreach hclear := by
    refine sendStandard_eq server k first call hreach.authorization
      (connectStandard_cookies hfirst) ?_
    simpa [hasCookies, standard] using hclear

section
variable {server : Server} (k : Held) (call : Call) {a : Address} {depth body : String}
  (htarget : Address.target call.url.toList = .ok a) (hscheme : a.scheme ≠ [])
  (hdepth : headerText? call.depth = some depth) (hbody : bodyText? call.body = some body)
  (hserver : server.NeverRedirects)
include htarget hscheme hdepth hbody

theorem prepare_of_target : prepare k call = .ok (a, {
    method := call.method
    url := a.sentText
    depth := some depth
    contentType := call.contentType
    authorization := some k.authorization
    body }) := by
  simp only [prepare, htarget, hdepth, allow_of_scheme hscheme, hbody]

include hserver

theorem standard_sent : (standard.send server k call).2.2 = [{
    method := call.method
    url := a.sentText
    depth := some depth
    contentType := call.contentType
    authorization := some k.authorization
    body }] := by
  simp only [standard, sendStandard, prepare_of_target k call htarget hscheme hdepth hbody]
  rw [hserver.follow_sent, List.nil_append]

theorem standard_answer {r : Response} (hanswer : ∀ requests, server requests = .response r) :
    (standard.send server k call).1 = .ok r := by
  simp only [standard, sendStandard, prepare_of_target k call htarget hscheme hdepth hbody]
  exact hserver.follow_fst hscheme _ _ _ (hanswer _)

end

theorem standard_followsDots : standard.FollowsDots := by
  intro server k call path hserver hurl request hmem
  simp only [standard, sendStandard] at hmem
  rcases hprepared : prepare k call with f | ⟨a, request'⟩
  · simp [hprepared] at hmem
  · obtain ⟨htarget, hsent⟩ := prepare_eq_ok hprepared
    rw [hprepared] at hmem
    dsimp only at hmem
    rw [hserver.follow_sent, List.nil_append, List.mem_singleton] at hmem
    subst hmem
    rw [hsent]
    exact ⟨_, (Address.hasPath_of_target hurl htarget).2, Address.decode_sentPath path⟩

end Agent

end DavQuery.Http
