import DavQuery.Proofs.Url.Dots
import DavQuery.Proofs.Url.Path

/-! Addresses as they are read and sent. Between its scheme and its path an address has a name, a
host and a port, of which no character ends them; so the path of an address that is sent is the one
that it was given. -/

namespace DavQuery

namespace Text.Punycode

theorem exists_digit_of_mem_digits {bias n k : Nat} :
    ∀ c ∈ digits bias n k, ∃ m < 36, c = digit m := by
  induction n using Nat.strong_induction_on generalizing k with
  | h n ih =>
    rw [digits]
    generalize hthreshold : max 1 (min 26 (k - bias)) = threshold
    split_ifs with hlast
    · rw [List.forall_mem_singleton]
      exact ⟨n, by omega, rfl⟩
    · have hmod : (n - threshold) % (36 - threshold) < 36 - threshold := Nat.mod_lt _ (by omega)
      rw [List.forall_mem_cons]
      refine ⟨⟨_, by omega, rfl⟩, ?_⟩
      split
      · exact ih _ ‹_›
      · simp

def State.WritesDigits (st : State) : Prop := ∀ c ∈ st.written, ∃ m < 36, c = digit m

theorem State.WritesDigits.place {st : State} (h : st.WritesDigits) (point : Nat) (c : Char) :
    (st.place point c).WritesDigits := by
  unfold State.place
  split_ifs
  · exact h
  · exact List.forall_mem_append.2 ⟨h, exists_digit_of_mem_digits⟩
  · exact h

theorem State.WritesDigits.run {st : State} (h : st.WritesDigits) (s : List Char)
    (points : List Nat) (previous : Nat) : (st.run s previous points).WritesDigits := by
  induction points generalizing st previous with
  | nil => exact h
  | cons point points ih =>
    refine ih ?_ _
    exact List.foldlRecOn s (motive := State.WritesDigits) _ h fun _ hst c _ => hst.place point c

theorem mem_or_of_mem_encode {s : List Char} :
    ∀ c ∈ encode s, c ∈ s ∨ c = '-' ∨ ∃ m < 36, c = digit m := by
  intro c hc
  unfold encode at hc
  rw [List.mem_append, List.mem_append] at hc
  rcases hc with (hc | hc) | hc
  · exact .inl (List.mem_filter.1 hc).1
  · split_ifs at hc
    · simp at hc
    · exact .inr (.inl (List.mem_singleton.1 hc))
  · exact .inr (.inr (State.WritesDigits.run (by simp [State.WritesDigits]) _ _ _ c hc))

end Text.Punycode

theorem exists_of_mem_of_mapM_eq_some {α β : Type} {f : α → Option β} {l : List α} {values : List β}
    (h : l.mapM f = some values) : ∀ b ∈ values, ∃ a ∈ l, f a = some b := by
  induction l generalizing values with
  | nil =>
    obtain rfl : values = [] := by simpa [eq_comm] using h
    simp
  | cons a l ih =>
    rw [List.mapM_cons] at h
    obtain ⟨b, hb, h⟩ := Option.bind_eq_some_iff.1 h
    obtain ⟨bs, hbs, h⟩ := Option.bind_eq_some_iff.1 h
    obtain rfl : b :: bs = values := by simpa using h
    rw [List.forall_mem_cons]
    refine ⟨⟨a, List.mem_cons_self, hb⟩, fun x hx => ?_⟩
    obtain ⟨y, hy, hyx⟩ := ih hbs x hx
    exact ⟨y, List.mem_cons_of_mem a hy, hyx⟩

namespace Url.Address
open Text Percent
open Reference (EndsHost)

def KeepsInside (s : List Char) : Prop := ∀ c ∈ s, ¬ EndsHost c

theorem not_endsHost {P : Char → Prop} (h : ¬ P '/' ∧ ¬ P '?' ∧ ¬ P '#') {c : Char} (hc : P c) :
    ¬ EndsHost c := by
  rintro (rfl | rfl | rfl)
  · exact h.1 hc
  · exact h.2.1 hc
  · exact h.2.2 hc

theorem KeepsInside.append {a b : List Char} (ha : KeepsInside a) (hb : KeepsInside b) :
    KeepsInside (a ++ b) :=
  List.forall_mem_append.2 ⟨ha, hb⟩

theorem notMem_escapeUnless {test : Char → Bool} {mark : Char} (htest : test mark = false)
    (hmark : mark ≠ '%' ∧ hexValue? mark = none) (s : List Char) : mark ∉ escapeUnless test s := by
  intro hmem
  obtain ⟨d, -, hd⟩ := List.mem_flatMap.1 hmem
  split_ifs at hd with hkeep
  · rw [List.mem_singleton] at hd
    simp [← hd, htest] at hkeep
  · exact ((escapes_flatMap _).forall_mem mark hd).elim hmark.1 fun h => h hmark.2

theorem keepsInside_escapeUnless {test : Char → Bool}
    (h : test '/' = false ∧ test '?' = false ∧ test '#' = false) (s : List Char) :
    KeepsInside (escapeUnless test s) := by
  rintro c hc (rfl | rfl | rfl)
  · exact notMem_escapeUnless h.1 (by decide) s hc
  · exact notMem_escapeUnless h.2.1 (by decide) s hc
  · exact notMem_escapeUnless h.2.2 (by decide) s hc

theorem keepsInside_of_labelText? {label text : List Char} (h : labelText? label = some text) :
    KeepsInside text := by
  unfold labelText? at h
  dsimp only at h
  rw [Option.ite_none_right_eq_some, Option.some.injEq, Bool.and_eq_true, Bool.and_eq_true,
    Bool.and_eq_true, Bool.and_eq_true, List.all_eq_true] at h
  obtain ⟨⟨⟨-, ⟨hletters, -⟩, -⟩, -⟩, rfl⟩ := h
  have hlabel : KeepsInside label := fun c hc =>
    not_endsHost (P := (isHostLetter · = true)) (by decide +kernel) (hletters c hc)
  have hdigit : ∀ m < 36, ¬ EndsHost (Punycode.digit m) := by decide +kernel
  split_ifs
  · exact hlabel
  · refine KeepsInside.append (by simp [KeepsInside, EndsHost]) fun c hc => ?_
    rcases Punycode.mem_or_of_mem_encode c hc with hc | rfl | ⟨m, hm, rfl⟩
    · exact hlabel c hc
    · decide
    · exact hdigit m hm

theorem keepsInside_intercalate {parts : List (List Char)} (h : ∀ p ∈ parts, KeepsInside p) :
    KeepsInside (['.'].intercalate parts) := by
  induction parts with
  | nil => simp [KeepsInside]
  | cons p parts ih =>
    rw [List.forall_mem_cons] at h
    cases parts with
    | nil => simpa using h.1
    | cons q parts =>
      rw [List.intercalate_cons_cons]
      exact (h.1.append (by simp [KeepsInside, EndsHost])).append (ih h.2)

theorem keepsInside_of_hostText? {host text : List Char} (h : hostText? host = some text) :
    KeepsInside text := by
  obtain ⟨texts, htexts, rfl⟩ := Option.map_eq_some_iff.1 h
  refine (keepsInside_intercalate fun p hp => ?_).append ?_
  · obtain ⟨label, -, hlabel⟩ := exists_of_mem_of_mapM_eq_some htexts p hp
    exact keepsInside_of_labelText? hlabel
  · split_ifs <;> simp [KeepsInside, EndsHost]

theorem keepsInside_of_readHost {host text : List Char} (h : readHost host = .ok text)
    (hhost : KeepsInside host) : KeepsInside text := by
  unfold readHost at h
  dsimp only at h
  split_ifs at h with hempty hdotted hshort hbrackets hzoned hascii
  · cases h
    simp [KeepsInside]
  · cases h
    exact hhost
  · cases h
    exact fun c hc => hhost c (List.mem_of_mem_drop ((List.dropLast_sublist _).mem hc))
  · cases h
    exact keepsInside_escapeUnless (by decide) _
  · cases htext : hostText? host with
    | none => simp [htext] at h
    | some t =>
      obtain rfl : t = text := by simpa [htext] using h
      exact keepsInside_of_hostText? htext

theorem labelText?_ne_nil {label text : List Char} (h : labelText? label = some text) :
    text ≠ [] := by
  unfold labelText? at h
  dsimp only at h
  rw [Option.ite_none_right_eq_some, Option.some.injEq, Bool.and_eq_true, Bool.and_eq_true] at h
  obtain ⟨⟨⟨hlabel, -⟩, -⟩, rfl⟩ := h
  split_ifs
  · simpa using hlabel
  · simp

theorem hostText?_ne_nil {host text : List Char} (h : hostText? host = some text) : text ≠ [] := by
  obtain ⟨texts, htexts, rfl⟩ := Option.map_eq_some_iff.1 h
  split_ifs at htexts ⊢ with hends
  · simp
  · obtain ⟨label, labels, hlabels⟩ := List.exists_cons_of_ne_nil
      (List.splitOnP_ne_nil (fun c => c == '.' || c.toNat == 0x3002 || c.toNat == 0xFF0E ||
        c.toNat == 0xFF61) (lowerChars host))
    rw [hlabels, List.mapM_cons] at htexts
    obtain ⟨first, hfirst, htexts⟩ := Option.bind_eq_some_iff.1 htexts
    obtain ⟨rest, -, htexts⟩ := Option.bind_eq_some_iff.1 htexts
    obtain rfl : first :: rest = texts := by simpa using htexts
    have hne := labelText?_ne_nil hfirst
    cases rest <;> simp [hne]

theorem readHost_ne_nil {host text : List Char} (h : readHost host = .ok text) (hhost : host ≠ []) :
    text ≠ [] := by
  unfold readHost at h
  dsimp only at h
  split_ifs at h with hempty hdotted hshort hbrackets hzoned hascii
  · simp [hhost] at hempty
  · cases h
    exact hhost
  · cases h
    rintro hnil
    rw [hnil] at hzoned
    exact absurd hzoned (by decide)
  · cases h
    obtain ⟨c, r, rfl⟩ := List.exists_cons_of_ne_nil hhost
    cases hkeep : inHost c.toLower with
    | true => simp [escapeUnless, hkeep]
    | false =>
      obtain ⟨b, bs, hb⟩ := List.exists_cons_of_ne_nil (Utf8.encodeChar_ne_nil c.toLower)
      simp [escapeUnless, hkeep, Percent.escapeChar, hb, Percent.escape]
  · cases htext : hostText? host with
    | none => simp [htext] at h
    | some t =>
      obtain rfl : t = text := by simpa [htext] using h
      exact hostText?_ne_nil htext

/-- The name, the host and the port in what stands between the slashes and the path. -/
def splitAuthority (authority : List Char) : List Char × List Char × List Char :=
  let (user, rest) := (cutLast '@' authority).getD ([], authority)
  let (host, rest) := spanHost rest
  (user, host, if rest.head? = some ':' then rest.drop 1 else rest)

/-- The address of a scheme and of what stands between the slashes and the path. -/
def ofAuthority (scheme authority : List Char) : Except String Address := do
  let (user, host, port) := splitAuthority authority
  let host ← readHost host
  let port ← readPort scheme port
  pure { scheme := scheme.map Char.toLower, user := escapeUnless inUser user, host, port }

theorem partAt_eq_self {mark : Char} {s : List Char} (h : mark ∉ s) :
    partAt mark s = (s, none) := by
  rw [partAt, cutFirst_eq_none_iff.2 h]

section
variable {s scheme authority path : List Char} (h : Parts s scheme authority path)
include h

theorem spanScheme_of_parts : spanScheme s = (scheme, '/' :: '/' :: authority ++ path) := by
  have hcolon := h.isScheme.colon_notMem
  obtain ⟨c, rest, rfl, hc, hrest⟩ := h.isScheme
  have hall : (rest.all fun c => c.isAlphanum || c == '+' || c == '.' || c == '-') = true := by
    rw [List.all_eq_true]
    intro x hx
    simpa [Reference.isSchemeChar, or_assoc, or_comm, or_left_comm] using hrest x hx
  have hs : s = c :: rest ++ ':' :: ('/' :: '/' :: authority ++ path) := by
    rw [h.eq, List.append_assoc]
    rfl
  rw [spanScheme, hs, cutFirst_append hcolon]
  simp only [hc, hall, Bool.and_self, if_true]

theorem spanAuthority_of_parts :
    spanAuthority ('/' :: '/' :: authority ++ path) = (splitAuthority authority, path) := by
  have hends : ∀ c, path.head? = some c → (c != '/' && c != '?' && c != '#') = false := by
    intro c hc
    rw [h.begins c hc]
    rfl
  have hinside : ∀ c ∈ authority, (c != '/' && c != '?' && c != '#') = true := by
    intro c hc
    simpa [EndsHost, and_assoc] using h.inside c hc
  obtain ⟨htake, hdrop⟩ := span_append_of_head hinside hends
  simp only [List.cons_append, spanAuthority, htake, hdrop, splitAuthority]

theorem read_eq_ok_iff {a : Address} : read s = .ok a ↔ s.length ≤ lengthLimit ∧
    (∀ c ∈ s, isHidden c = false) ∧
    (ofAuthority scheme authority).bind (·.withPath path) = .ok a := by
  unfold read
  by_cases hlong : lengthLimit < s.length
  · simp [hlong, Nat.not_le.2 hlong]
  · rw [if_neg hlong]
    cases hhidden : s.findIdx? isHidden with
    | some i =>
      have hsome : ¬ ∀ c ∈ s, isHidden c = false := by
        simp [← List.findIdx?_eq_none_iff, hhidden]
      simp [hsome]
    | none =>
      have hshown := List.findIdx?_eq_none_iff.1 hhidden
      have hquery : '?' ∉ path := fun hmem => (h.isPath _ hmem).1 rfl
      have hfragment : '#' ∉ path := fun hmem => (h.isPath _ hmem).2 rfl
      simp only [spanScheme_of_parts h, spanAuthority_of_parts h, partAt_eq_self hfragment,
        partAt_eq_self hquery, Option.map_none, Nat.le_of_not_lt hlong, true_and]
      rw [iff_true_intro hshown, true_and, ofAuthority]
      generalize splitAuthority authority = parts
      obtain ⟨user, host, port⟩ := parts
      dsimp only
      cases readHost host with
      | error m => rfl
      | ok host => cases readPort scheme port <;> rfl

end

theorem keepsInside_toString (n : Int) : KeepsInside (toString n).toList := by
  have hnat (m : Nat) : KeepsInside m.repr.toList := by
    intro c hc
    rw [Nat.toList_repr] at hc
    exact not_endsHost (P := (Char.isDigit · = true)) (by decide)
      (Nat.isDigit_of_mem_toDigits (by decide) (by decide) hc)
  rw [Int.toString_eq_repr, Int.repr_eq_if]
  split_ifs
  · exact hnat _
  · rw [String.toList_append]
    exact KeepsInside.append (by simp [KeepsInside, EndsHost]) (hnat _)

theorem KeepsInside.host {authority : List Char} (h : KeepsInside authority) :
    KeepsInside (splitAuthority authority).2.1 := by
  have hrest : KeepsInside ((cutLast '@' authority).getD ([], authority)).2 := by
    cases hcut : cutLast '@' authority with
    | none => exact h
    | some p =>
      obtain ⟨e, -⟩ := cutLast_eq_some (a := p.1) (b := p.2) hcut
      exact fun c hc => h c (by rw [e]; exact List.mem_append_right _ (List.mem_cons_of_mem _ hc))
  change KeepsInside (spanHost ((cutLast '@' authority).getD ([], authority)).2).1
  generalize ((cutLast '@' authority).getD ([], authority)).2 = rest at hrest
  unfold spanHost
  split
  · rename_i inside rest' hhead hcut
    obtain ⟨e, -⟩ := cutLast_eq_some hcut
    rw [List.append_cons] at e
    exact fun c hc => hrest c (e ▸ List.mem_append_left rest' hc)
  · exact fun c hc => hrest c (List.takeWhile_prefix _ |>.mem hc)

theorem ofAuthority_eq_ok {scheme authority : List Char} {a : Address}
    (h : ofAuthority scheme authority = .ok a) : ∃ host port,
      readHost (splitAuthority authority).2.1 = .ok host ∧
        a = { scheme := scheme.map Char.toLower
              user := escapeUnless inUser (splitAuthority authority).1, host, port } := by
  unfold ofAuthority at h
  generalize splitAuthority authority = parts at h ⊢
  obtain ⟨user, host, port⟩ := parts
  dsimp only at h ⊢
  cases hhost : readHost host with
  | error m => simp [hhost, bind, Except.bind] at h
  | ok text =>
    cases hport : readPort scheme port with
    | error m => simp [hhost, hport, bind, Except.bind] at h
    | ok n =>
      refine ⟨text, n, rfl, ?_⟩
      simpa [hhost, hport, bind, Except.bind, pure, Except.pure, eq_comm] using h

theorem scheme_ne_nil {scheme authority : List Char} {a : Address} (h : Reference.IsScheme scheme)
    (ha : ofAuthority scheme authority = .ok a) : a.scheme ≠ [] := by
  obtain ⟨host, port, -, rfl⟩ := ofAuthority_eq_ok ha
  obtain ⟨c, rest, rfl, -⟩ := h
  simp

theorem keepsInside_authority {scheme authority : List Char} {a : Address}
    (h : ofAuthority scheme authority = .ok a) (hauthority : KeepsInside authority) :
    KeepsInside a.authority := by
  obtain ⟨host, port, hhost, rfl⟩ := ofAuthority_eq_ok h
  have hinside := keepsInside_of_readHost hhost hauthority.host
  refine (KeepsInside.append ?_ ?_).append ?_
  · dsimp only
    split_ifs
    · simp [KeepsInside]
    · exact (keepsInside_escapeUnless (by decide) _).append (by simp [KeepsInside, EndsHost])
  · dsimp only
    split_ifs
    · have hopen : KeepsInside ('[' :: host) := List.forall_mem_cons.2 ⟨by decide, hinside⟩
      exact hopen.append (by simp [KeepsInside, EndsHost])
    · exact hinside
  · cases port with
    | none => simp [KeepsInside]
    | some n => exact List.forall_mem_cons.2 ⟨by decide, keepsInside_toString n⟩

theorem isScheme_map_toLower {scheme : List Char} (h : Reference.IsScheme scheme) :
    Reference.IsScheme (scheme.map Char.toLower) := by
  have hfirst (c : Char) (hc : c.isAlpha = true) : c.toLower.isAlpha = true :=
    forall_ascii (P := fun c => c.isAlpha = true → c.toLower.isAlpha = true) (by decide)
      (toNat_lt_of_isAlphanum (by simp [Char.isAlphanum, hc])) hc
  have hother (c : Char) (hc : Reference.isSchemeChar c = true) :
      Reference.isSchemeChar c.toLower = true := by
    have hascii : c.toNat < 128 := by
      simp only [Reference.isSchemeChar, Bool.or_eq_true, beq_iff_eq] at hc
      rcases hc with ((hc | rfl) | rfl) | rfl
      · exact toNat_lt_of_isAlphanum hc
      all_goals decide
    exact forall_ascii (P := fun c => Reference.isSchemeChar c = true →
      Reference.isSchemeChar c.toLower = true) (by decide) hascii hc
  obtain ⟨c, rest, rfl, hc, hrest⟩ := h
  refine ⟨c.toLower, rest.map Char.toLower, rfl, hfirst c hc, fun x hx => ?_⟩
  obtain ⟨y, hy, rfl⟩ := List.mem_map.1 hx
  exact hother y (hrest y hy)

def atPath (a : Address) (path : List Char) : Address :=
  { a with path := escapeUnless inPath (followDots path) }

theorem withPath_of_host {a : Address} (hhost : a.host ≠ []) {path : List Char}
    (hbegins : ∀ c, path.head? = some c → c = '/') :
    a.withPath path = .ok (a.atPath path) := by
  have hhas : (!a.user.isEmpty || !a.host.isEmpty || a.port.isSome) = true := by simp [hhost]
  have hslash : (!path.isEmpty && path.head? != some '/') = false := by
    cases path with
    | nil => rfl
    | cons c r => simp [hbegins c rfl]
  unfold withPath readPath atPath
  simp [hhas, hslash, Except.map]

theorem head?_escapeUnless {test : Char → Bool} (htest : test '/' = true) {s : List Char}
    (h : ∀ c, s.head? = some c → c = '/') :
    ∀ c, (escapeUnless test s).head? = some c → c = '/' := by
  cases s with
  | nil => simp [escapeUnless]
  | cons d r =>
    obtain rfl := h d rfl
    rw [escapeUnless_cons_pos htest]
    simp [eq_comm]

theorem sentPath_of_slash {path : List Char} (hbegins : ∀ c, path.head? = some c → c = '/') :
    (∀ c, (sentPath path).head? = some c → c = '/') ∧ ∀ c ∈ sentPath path, c ≠ '?' ∧ c ≠ '#' := by
  unfold sentPath
  split_ifs
  · simp [eq_comm]
  · refine ⟨head?_escapeUnless (by decide) (eq_slash_of_head?_followDots hbegins), fun c hc => ?_⟩
    constructor
    · rintro rfl
      exact notMem_escapeUnless (by decide) (by decide) _ hc
    · rintro rfl
      exact notMem_escapeUnless (by decide) (by decide) _ hc

theorem text_eq {a : Address} (hscheme : a.scheme ≠ []) (hhost : a.host ≠ [])
    (hquery : a.query = none) (hfragment : a.fragment = none) :
    a.text = a.scheme ++ ':' :: '/' :: '/' :: a.authority ++ a.path := by
  have hauthority : a.authority ≠ [] := by
    unfold authority
    split_ifs <;> simp [hhost]
  simp [text, hscheme, hauthority, hquery, hfragment]

section
variable {s scheme authority path : List Char} (h : Parts s scheme authority path) {b : Address}
  (hb : ofAuthority scheme authority = .ok b) (hhost : b.host ≠ [])
include h

include hb hhost

theorem target_eq (hshown : ∀ c ∈ s, isHidden c = false) : target s =
    if s.length ≤ lengthLimit then .ok (b.atPath path) else .error "URL too long" := by
  have habsolute : (b.atPath path).isAbsolute = true := by
    simp [isAbsolute, atPath, scheme_ne_nil h.isScheme hb, hhost]
  split_ifs with hlength
  · have hread := (read_eq_ok_iff h).2
      ⟨hlength, hshown, by rw [hb]; exact withPath_of_host hhost h.begins⟩
    rw [target, hread]
    simp [bind, Except.bind, habsolute, pure, Except.pure]
  · rw [target, read, if_pos (Nat.lt_of_not_le hlength)]
    rfl

theorem hasPath_sentText : HasPath (b.atPath path).sentText.toList (sentPath path) := by
  obtain ⟨hhead, hchars⟩ := sentPath_of_slash h.begins
  have hinside := keepsInside_authority hb h.inside
  have hne := scheme_ne_nil h.isScheme hb
  have hscheme := isScheme_map_toLower h.isScheme
  obtain ⟨host, port, -, rfl⟩ := ofAuthority_eq_ok hb
  refine ⟨_, _, ?_, hscheme, hinside, hhead, hchars⟩
  rw [sentText, String.toList_ofList, sentPath, atPath]
  split_ifs
  · exact text_eq hne hhost rfl rfl
  · exact text_eq hne hhost rfl rfl

end

def IsWeb (s path : List Char) : Prop :=
  ∃ scheme authority, Parts s scheme authority path ∧ (splitAuthority authority).2.1 ≠ [] ∧
    (scheme.map Char.toLower = "http".toList ∨ scheme.map Char.toLower = "https".toList)

theorem hasPath_of_target {s path : List Char} (h : IsWeb s path) {a : Address}
    (ha : target s = .ok a) : a.scheme ≠ [] ∧ HasPath a.sentText.toList (sentPath path) := by
  obtain ⟨scheme, authority, hparts, hne, -⟩ := h
  cases hread : read s with
  | error m => simp [target, hread, bind, Except.bind] at ha
  | ok a' =>
    obtain ⟨hlength, hshown, hplaced⟩ := (read_eq_ok_iff hparts).1 hread
    cases hb : ofAuthority scheme authority with
    | error m => simp [hb, Except.bind] at hplaced
    | ok b =>
      obtain ⟨host, port, hhost, hb'⟩ := ofAuthority_eq_ok hb
      have hbhost : b.host ≠ [] := by
        rw [hb']
        exact readHost_ne_nil hhost hne
      rw [target_eq hparts hb hbhost hshown, if_pos hlength, Except.ok.injEq] at ha
      subst ha
      exact ⟨scheme_ne_nil (a := b) hparts.isScheme hb, hasPath_sentText hparts hb hbhost⟩

end Url.Address

end DavQuery
