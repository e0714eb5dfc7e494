import DavQuery.Proofs.Folder.UrlPath
import DavQuery.Proofs.Listing.Refusal
import DavQuery.Proofs.Standard

/-! The request for a folder. The path that is sent and the path by which the folder itself is known
among the entries are both made from one address. They read alike, and lie below the person's root,
unless a segment of the folder is `.` or `..`. -/

namespace DavQuery

namespace Folder
open Text Url.Address

theorem exists_eq_dropSlashes_append (s : List Char) :
    ∃ n, s = dropSlashes s ++ List.replicate n '/' := by
  have hbehind := eq_replicate_of_forall (s := s.rtakeWhile (· == '/'))
    fun c hc => List.mem_rtakeWhile_imp (p := (· == '/')) hc
  exact ⟨_, by rw [← hbehind]; exact (List.rdropWhile_append_rtakeWhile ..).symm⟩

theorem dropSlashes_append {a : List Char} (h : a.getLast? ≠ some '/') (b : List Char) :
    dropSlashes (a ++ b) = a ++ dropSlashes b := by
  obtain ⟨n, hn⟩ := exists_eq_dropSlashes_append b
  have hlast : (a ++ dropSlashes b).getLast? ≠ some '/' := by
    by_cases hnil : dropSlashes b = []
    · rwa [hnil, List.append_nil]
    · rw [List.getLast?_append_of_ne_nil _ hnil]
      exact getLast?_dropSlashes b
  rw [hn, ← List.append_assoc, dropSlashes_append_replicate hlast, ← hn]

theorem dotted_dropSlashes {s : List Char} : Dotted (dropSlashes s) ↔ Dotted s := by
  obtain ⟨n, hn⟩ := exists_eq_dropSlashes_append s
  conv_rhs => rw [hn]
  rw [dotted_append_replicate]

theorem dotted_trimSlashes {s : List Char} : Dotted (trimSlashes s) ↔ Dotted s := by
  obtain ⟨m, n, h⟩ := exists_eq_trimSlashes s
  conv_rhs => rw [h]
  rw [dotted_append_replicate, dotted_replicate_append]

theorem dotted_encode {part : List Char} :
    Dotted (Percent.encode part) ↔ part = ['.'] ∨ part = ['.', '.'] := by
  have hspells := Percent.spells_encode part
  have hslash : '/' ∉ Percent.encode part := fun hmem =>
    absurd (hspells.forall_mem '/' hmem) (by decide)
  have hinjective {s : List Char} : Percent.encode part = Percent.encode s ↔ part = s := by
    refine ⟨fun e => ?_, fun e => e ▸ rfl⟩
    rw [← hspells.decode_eq (by decide), e, (Percent.spells_encode s).decode_eq (by decide)]
  have hone : Percent.encode ['.'] = ['.'] := by decide
  have htwo : Percent.encode ['.', '.'] = ['.', '.'] := by decide
  rw [dotted_iff_of_notMem hslash, ← hinjective, hone, ← hinjective, htwo]

theorem dotted_flatMap_encode {parts : List (List Char)} :
    Dotted (parts.flatMap fun p => '/' :: Percent.encode p) ↔
      ['.'] ∈ parts ∨ ['.', '.'] ∈ parts := by
  induction parts with
  | nil => simp [Dotted]
  | cons p parts ih =>
    have hfirst : Dotted (Percent.encode p ++ parts.flatMap fun p => '/' :: Percent.encode p) ↔
        Dotted (Percent.encode p) ∨ Dotted (parts.flatMap fun p => '/' :: Percent.encode p) := by
      cases parts with
      | nil => simp [Dotted]
      | cons q parts =>
        rw [List.flatMap_cons, List.cons_append, dotted_append, dotted_cons_slash]
    rw [List.flatMap_cons, List.cons_append, dotted_cons_slash, hfirst, ih, dotted_encode,
      List.mem_cons, List.mem_cons, eq_comm (b := p), eq_comm (b := p)]
    tauto

theorem dotted_urlPathChars {s : List Char} : Dotted (urlPathChars s) ↔ Dotted s := by
  rw [urlPathChars_eq, dotted_flatMap_encode, ← dotted_trimSlashes]
  rfl

end Folder

namespace Client
open Text Url Url.Address

variable {κ : Type}

/-- The text is the address of a root, with the path. It has no query, no fragment, no parameters
and no dots. -/
structure IsRoot (base path : List Char) : Prop where
  isWeb : IsWeb base path
  isShown : ∀ c ∈ base, 32 ≤ c.toNat
  isReference : ¬ Reference.Refused base
  noParams : ';' ∉ path
  noDots : ¬ Dotted path

/-- The path by which a folder below a root is asked for. -/
def askedPath (path folder : List Char) : List Char :=
  Folder.dropSlashes path ++ Folder.urlPathChars (Folder.normalizeChars folder)

theorem exists_askedPath_eq_cons {path : List Char} (h : ∀ c, path.head? = some c → c = '/')
    (folder : List Char) : ∃ r, askedPath path folder = '/' :: r := by
  obtain ⟨r, hr⟩ := Folder.exists_urlPathChars_eq_cons (Folder.normalizeChars folder)
  obtain ⟨n, hn⟩ := Folder.exists_eq_dropSlashes_append path
  rw [askedPath, hr]
  cases hroot : Folder.dropSlashes path with
  | nil => exact ⟨r, rfl⟩
  | cons c root =>
    rw [hn, hroot] at h
    obtain rfl := h c rfl
    exact ⟨root ++ '/' :: r, rfl⟩

theorem decode_askedPath (path folder : List Char) : Percent.decode (askedPath path folder) =
    Percent.decode (Folder.dropSlashes path) ++ '/' :: Folder.trimSlashes folder := by
  obtain ⟨r, hr⟩ := Folder.exists_urlPathChars_eq_cons (Folder.normalizeChars folder)
  have hread := Folder.decode_urlPathChars (Folder.normalizeChars folder)
  rw [hr, Percent.decode_cons_slash, Folder.trimSlashes_normalizeChars] at hread
  rw [askedPath, hr, Percent.decode_append_slash, ← hread]

theorem dotted_askedPath {path folder : List Char} (h : ¬ Dotted path) :
    Dotted (askedPath path folder) ↔ Dotted folder := by
  obtain ⟨r, hr⟩ := Folder.exists_urlPathChars_eq_cons (Folder.normalizeChars folder)
  have hfolder : Dotted r ↔ Dotted folder := by
    rw [← dotted_cons_slash, ← hr, Folder.dotted_urlPathChars, ← Folder.dotted_trimSlashes,
      Folder.trimSlashes_normalizeChars, Folder.dotted_trimSlashes]
  have hroot : ¬ Dotted (Folder.dropSlashes path) := by rwa [Folder.dotted_dropSlashes]
  rw [askedPath, hr, dotted_append, hfolder]
  simp [hroot]

theorem forall_mem_askedPath {P : Char → Prop} {path : List Char} (folder : List Char)
    (hpath : ∀ c ∈ path, P c)
    (hascii : ∀ n < 128, Folder.IsPathPlain (Char.ofNat n) ∨ Char.ofNat n = '%' ∨
      hexValue? (Char.ofNat n) ≠ none → P (Char.ofNat n)) : ∀ c ∈ askedPath path folder, P c := by
  refine List.forall_mem_append.2
    ⟨fun c hc => hpath c ((List.rdropWhile_prefix _ _).mem hc), fun c hc => ?_⟩
  have hkind := (Folder.spells_urlPathChars _).forall_mem c hc
  refine forall_ascii (P := fun c => Folder.IsPathPlain c ∨ c = '%' ∨ hexValue? c ≠ none → P c)
    hascii ?_ hkind
  rcases hkind with (rfl | hplain) | rfl | hdigit
  · decide
  · exact Percent.toNat_lt_of_isUnreserved hplain
  · decide
  · exact Percent.toNat_lt_of_hexValue? hdigit

theorem parts_askedPath {s scheme authority path : List Char} (h : Parts s scheme authority path)
    (folder : List Char) :
    Parts (scheme ++ ':' :: '/' :: '/' :: authority ++ askedPath path folder) scheme authority
      (askedPath path folder) where
  eq := rfl
  isScheme := h.isScheme
  inside := h.inside
  begins := by
    obtain ⟨r, hr⟩ := exists_askedPath_eq_cons h.begins folder
    rw [hr]
    rintro c ⟨⟩
    rfl
  isPath := forall_mem_askedPath folder h.isPath (by decide)

theorem folderUrl_of_parts {base folder : String} {scheme authority path : List Char}
    {c : Client κ} (hbase : c.baseUrl = (RawText.ofString base).dropEndSlashes)
    (h : Parts base.toList scheme authority path) (hne : authority ≠ []) :
    c.folderUrl folder = RawText.ofChars
      (scheme ++ ':' :: '/' :: '/' :: authority ++ askedPath path folder.toList) := by
  have hlast : (scheme ++ ':' :: '/' :: '/' :: authority).getLast? ≠ some '/' := by
    have hauthority : (':' :: '/' :: '/' :: authority).getLast? = authority.getLast? := by
      obtain ⟨x, r, rfl⟩ := List.exists_cons_of_ne_nil hne
      simp [List.getLast?_cons]
    rw [List.getLast?_append_of_ne_nil _ (by simp), hauthority]
    exact fun hslash => h.inside '/' (List.mem_of_getLast? hslash) (.inl rfl)
  rw [folderUrl_eq, hbase, RawText.ofString, RawText.dropEndSlashes_ofChars, h.eq, askedPath,
    ← List.append_assoc, ← RawText.ofChars_append]
  exact congrArg (fun s => RawText.ofChars (s ++ _)) (Folder.dropSlashes_append hlast path)

section
variable {e : Remote κ}

theorem readListing_fst_eq (url : RawText) (folder folder' : String) (r : Http.Response)
    (w w' : Http.Wire) :
    (readListing e url folder r w).1 = (readListing e url folder' r w').1 := by
  unfold readListing
  split_ifs
  · rfl
  · cases e.agent.text r with
    | error b => rfl
    | ok text =>
      cases url.chars?.bind Reference.read? with
      | none => rfl
      | some ref =>
        dsimp only
        cases Listing.records e.parse text (String.ofList ref.path) <;> rfl

theorem exists_readListing_snd_eq_noteAll (url : RawText) (folder : String) (r : Http.Response)
    (w : Http.Wire) : ∃ notes, (readListing e url folder r w).2 = w.noteAll notes := by
  have hnone : w = w.noteAll [] := w.noteAll_nil.symm
  unfold readListing
  split_ifs
  · exact ⟨_, hnone⟩
  · cases e.agent.text r with
    | error b => exact ⟨_, hnone⟩
    | ok text =>
      cases url.chars?.bind Reference.read? with
      | none => exact ⟨_, hnone⟩
      | some ref =>
        dsimp only
        cases Listing.records e.parse text (String.ofList ref.path) with
        | error f => exact ⟨_, rfl⟩
        | ok records =>
          exact ⟨Listing.notes e.parse text (String.ofList ref.path) ++
            [.found records.length folder], by simp [Http.Wire.noteAll, Http.Wire.note]⟩

theorem readListing_sent (url : RawText) (folder : String) (r : Http.Response) (w : Http.Wire) :
    (readListing e url folder r w).2.sent = w.sent := by
  obtain ⟨notes, h⟩ := exists_readListing_snd_eq_noteAll (e := e) url folder r w
  rw [h]
  rfl

theorem listFolder_sent (c : Client κ) (w : Http.Wire) (folder : String) :
    (c.listFolder e w folder).2.2.sent =
      (c.propfind e w (c.folderUrl folder) "1" (some listingBody)).2.2.sent := by
  unfold listFolder
  dsimp only
  rcases c.propfind e w (c.folderUrl folder) "1" (some listingBody) with ⟨f | r, c', w'⟩
  · rfl
  · exact readListing_sent ..

theorem propfind_of_connection {c : Client κ} {k : κ} (hk : c.connection e.agent = .ok k)
    (w : Http.Wire) (url : String) (depth : RawText) (body : Option RawText) :
    c.propfind e w (RawText.ofString url) depth body =
      c.callOn e (w.note (.request (RawText.ofString url) depth)) k
        (propertyCall url depth body) := by
  simp only [propfind, hk, RawText.text?_ofString]

theorem propfind_sent (c : Client κ) (w : Http.Wire) (url depth : RawText) (body : Option RawText) :
    (c.propfind e w url depth body).2.2.sent = w.sent ∨ ∃ k address,
      url = RawText.ofString address ∧
        (c.propfind e w url depth body).2.2.sent =
          w.sent ++
            (e.agent.send (e.server.after w.sent) k (propertyCall address depth body)).2.2 := by
  unfold propfind
  cases c.connection e.agent with
  | error b => exact .inl rfl
  | ok k =>
    cases hurl : url.text? with
    | none => exact .inl rfl
    | some address => exact .inr ⟨k, address, RawText.text?_eq_some_iff.1 hurl, rfl⟩

end

/-- The answer that a folder is told by is read with the path. -/
structure ReadsWith (e : Remote κ) (c : Client κ) (w : Http.Wire) (folder : String)
    (asked : List Char) : Prop where
  read : ((c.folderUrl folder).chars?.bind Reference.read?).map (·.path) = some asked
  records : ∀ r text, (c.propfind e w (c.folderUrl folder) "1" (some listingBody)).1 = .ok r →
    r.isSuccess = true → e.agent.text r = .ok text →
      (c.listFolder e w folder).1 = Listing.records e.parse text (String.ofList asked)

theorem readsWith_of_read? {e : Remote κ} {c : Client κ} {folder : String} {ref : Reference}
    (hread : (c.folderUrl folder).chars?.bind Reference.read? = some ref) (w : Http.Wire) :
    c.ReadsWith e w folder ref.path where
  read := by rw [hread, Option.map_some]
  records r text hanswer hsuccess htext := by
    rw [listFolder_fst]
    generalize c.propfind e w (c.folderUrl folder) "1" (some listingBody) = use at hanswer ⊢
    obtain ⟨outcome, c', w'⟩ := use
    obtain rfl := hanswer
    exact readListing_of_read? hsuccess htext hread

/-- What is sent reads as what is asked for, and lies at or below the path, out of which no dots
lead. -/
structure Agree (path sent asked : List Char) : Prop where
  decode_eq : Percent.decode sent = Percent.decode asked
  below : ∃ rest, ¬ Dotted rest ∧
    Percent.decode sent = Percent.decode (Folder.dropSlashes path) ++ '/' :: rest

theorem agree_iff {path : List Char} (hbegins : ∀ c, path.head? = some c → c = '/')
    (hdots : ¬ Dotted path) {folder sent : List Char}
    (hsent : Percent.decode sent = Percent.decode (destination (askedPath path folder))) :
    Agree path sent (askedPath path folder) ↔ ¬ Dotted folder := by
  obtain ⟨r, hr⟩ := exists_askedPath_eq_cons hbegins folder
  have hiff := decode_destination_eq_iff (r := r)
  rw [← dotted_cons_slash, ← hr, dotted_askedPath hdots, ← hsent] at hiff
  constructor
  · exact fun h => hiff.1 h.decode_eq
  · intro h
    have hread := hiff.2 h
    rw [← Folder.dotted_trimSlashes] at h
    exact ⟨hread, _, h, hread.trans (decode_askedPath path folder)⟩

theorem folderUrl_of_isRoot {base : String} (folder : String) {path : List Char}
    (hroot : IsRoot base.toList path) {c : Client κ}
    (hbase : c.baseUrl = (RawText.ofString base).dropEndSlashes) :
    ∃ url : String, c.folderUrl folder = RawText.ofString url ∧
      IsWeb url.toList (askedPath path folder.toList) ∧
      ∃ ref, Reference.read? url.toList = some ref ∧
        ref.path = askedPath path folder.toList := by
  obtain ⟨scheme, authority, hparts, hhost, hweb⟩ := hroot.isWeb
  have hne : authority ≠ [] := by
    rintro rfl
    exact hhost rfl
  have hdoubt : ¬ Reference.Doubtful authority := fun h =>
    hroot.isReference ⟨authority, hparts.hosts hroot.isShown, h⟩
  have hfolder := parts_askedPath hparts folder.toList
  have hshown := hroot.isShown
  rw [hparts.eq, List.forall_mem_append] at hshown
  have hparams : ';' ∉ askedPath path folder.toList := fun hmem =>
    forall_mem_askedPath (P := (· ≠ ';')) folder.toList
      (fun x hx e => hroot.noParams (e ▸ hx)) (by decide) ';' hmem rfl
  have hshown' := List.forall_mem_append.2
    ⟨hshown.1, forall_mem_askedPath folder.toList hshown.2 (by decide)⟩
  refine ⟨String.ofList (scheme ++ ':' :: '/' :: '/' :: authority ++
    askedPath path folder.toList), ?_, ?_, ?_⟩
  · rw [folderUrl_of_parts hbase hparts hne, RawText.ofString, String.toList_ofList]
  · rw [String.toList_ofList]
    exact ⟨scheme, authority, hfolder, hhost, hweb⟩
  · rw [String.toList_ofList]
    exact hfolder.read? hshown' hdoubt hparams

/-- Whatever is sent for a folder below a root, the answer is read with the path that is asked for.
What is sent reads as this path, and lies below the root, exactly if the folder has no dots. -/
theorem listing_asks_below_root_iff {e : Remote κ} (hagent : e.agent.FollowsDots)
    (hserver : e.server.NeverRedirects) {base : String} {path : List Char}
    (hroot : IsRoot base.toList path) {c : Client κ}
    (hbase : c.baseUrl = (RawText.ofString base).dropEndSlashes) (w : Http.Wire)
    (folder : RawText) :
    ∀ request ∈ (c.listRecords e w folder).2.2.sent.drop w.sent.length,
      ∃ text : String, folder = RawText.ofString text ∧
        c.ReadsWith e w text (askedPath path text.toList) ∧
        ∃ sent, HasPath request.url.toList sent ∧
          (Agree path sent (askedPath path text.toList) ↔ ¬ Dotted text.toList) := by
  intro request hmem
  cases htext : folder.text? with
  | none => simp [listRecords, htext] at hmem
  | some text =>
    obtain rfl := RawText.text?_eq_some_iff.1 htext
    obtain ⟨url, hurl, hweb, ref, href, hpath⟩ := folderUrl_of_isRoot text hroot hbase
    refine ⟨text, rfl, ?_, ?_⟩
    · rw [← hpath]
      exact readsWith_of_read? (by simpa [hurl, RawText.ofString] using href) w
    · rw [listRecords_ofString, listFolder_sent] at hmem
      rcases propfind_sent (e := e) c w (c.folderUrl text) "1" (some listingBody)
        with hnone | ⟨k, address, haddress, hsent⟩
      · simp [hnone] at hmem
      · obtain rfl := RawText.ofString_inj.1 (haddress.symm.trans hurl)
        rw [hsent, List.drop_left] at hmem
        obtain ⟨sent, hhas, hdecode⟩ :=
          hagent _ k _ _ (hserver.after w.sent) hweb request hmem
        obtain ⟨scheme, authority, hparts, -⟩ := hroot.isWeb
        exact ⟨sent, hhas, agree_iff hparts.begins hroot.noDots hdecode⟩

theorem exists_listRecords_sent_eq (parse : Xml.Reader) {server : Http.Server}
    (hserver : server.NeverRedirects) (base : RawText) (username password folder url : String)
    (hurl : (new base username password : Client Http.Held).folderUrl folder =
      RawText.ofString url)
    {a : Address} (htarget : target url.toList = .ok a) (hscheme : a.scheme ≠ []) :
    ∃ request, ((new base username password).listRecords ⟨.standard, parse, server⟩ {}
      (RawText.ofString folder)).2.2.sent = [request] ∧ request.url = a.sentText := by
  have hconnection : (new base username password).connection .standard = .ok _ :=
    Http.Agent.connectStandard_ofString username password
  have hdepth : Http.headerText? (RawText.ofString "1") = some "1" := by decide
  have hbody : Http.bodyText? (some (RawText.ofString listingBody)) = some listingBody :=
    RawText.text?_ofString listingBody
  have hsent := Http.Agent.standard_sent
    { authorization := Http.Agent.authorization username password }
    (propertyCall url "1" (some (RawText.ofString listingBody)))
    htarget hscheme hdepth hbody hserver
  rw [listRecords_ofString, listFolder_sent, hurl, propfind_of_connection hconnection, callOn,
    Http.Wire.add_sent, Http.Wire.note_sent, Http.Server.after_nil, hsent]
  exact ⟨_, rfl, rfl⟩

theorem neverRedirects_of_status {r : Http.Response}
    (h : [301, 302, 303, 307, 308].contains r.status = false) :
    Http.Server.NeverRedirects fun _ => .response r := by
  rintro requests r' ⟨⟩
  rw [Http.Response.location?, h]
  rfl

theorem isRoot_of_person : IsRoot "https://cloud.example.com/remote.php/dav/files/alice/".toList
    "/remote.php/dav/files/alice/".toList where
  isWeb := by
    refine ⟨"https".toList, "cloud.example.com".toList, ?_, by decide, .inr (by decide)⟩
    exact {
      eq := by decide
      isScheme := ⟨'h', "ttps".toList, rfl, rfl, List.forall_iff_forall_mem.1 (by decide)⟩
      inside := List.forall_iff_forall_mem.1 (by decide)
      begins := by simp
      isPath := List.forall_iff_forall_mem.1 (by decide) }
  isShown := List.forall_iff_forall_mem.1 (by decide)
  isReference := by
    rw [← Reference.read?_eq_none_iff]
    decide +kernel
  noParams := by decide
  noDots := by decide +kernel

theorem listing_asks_below_root :
    let e : Remote Http.Held :=
      ⟨.standard, Xml.Document.reader, fun _ => .response { status := 207 }⟩
    let base := "https://cloud.example.com/remote.php/dav/files/alice/"
    let path := "/remote.php/dav/files/alice/".toList
    let c : Client Http.Held := Client.new base "alice" "secret"
    let folder := "//a?b;c#/.../%2e%2E/é/"
    e.agent.FollowsDots ∧ e.server.NeverRedirects ∧ IsRoot base.toList path ∧
      c.baseUrl = (RawText.ofString base).dropEndSlashes ∧
      ∃ request ∈ (c.listRecords e {} folder).2.2.sent, ∃ sent,
        HasPath request.url.toList sent ∧ Agree path sent (askedPath path folder.toList) := by
  intro e base path c folder
  have hserver : e.server.NeverRedirects := neverRedirects_of_status (by decide)
  have hbase : c.baseUrl = (RawText.ofString base).dropEndSlashes := rfl
  have hdots : ¬ Dotted folder.toList := by decide +kernel
  obtain ⟨request, hsent, -⟩ := exists_listRecords_sent_eq e.parse hserver base "alice" "secret"
    folder "https://cloud.example.com/remote.php/dav/files/alice/a%3Fb%3Bc%23/.../%252e%252E/%C3%A9"
    (by decide +kernel) (a := {
      scheme := "https".toList
      host := "cloud.example.com".toList
      path := "/remote.php/dav/files/alice/a%3Fb%3Bc%23/.../%252e%252E/%C3%A9".toList })
    (by decide +kernel) (by decide)
  have hmem : request ∈ (c.listRecords e {} folder).2.2.sent := by
    rw [hsent, List.mem_singleton]
  have hdrop :
      request ∈ (c.listRecords e {} folder).2.2.sent.drop ({} : Http.Wire).sent.length := by
    rw [hsent, List.length_nil, List.drop_zero, List.mem_singleton]
  obtain ⟨text, htext, -, sent, hhas, hagree⟩ :=
    listing_asks_below_root_iff (e := e) Http.Agent.standard_followsDots hserver isRoot_of_person
      hbase {} folder request hdrop
  obtain rfl := RawText.ofString_inj.1 htext
  exact ⟨Http.Agent.standard_followsDots, hserver, isRoot_of_person, hbase, request, hmem, sent,
    hhas, hagree.2 hdots⟩

/-- Two dots are sent to the folder of all persons, and are asked for within the person's root. -/
theorem listing_of_dots_leaves_root :
    let e : Remote Http.Held :=
      ⟨.standard, Xml.Document.reader, fun _ => .response { status := 207 }⟩
    let c : Client Http.Held :=
      Client.new "https://cloud.example.com/remote.php/dav/files/alice/" "alice" "secret"
    (c.listRecords e {} "..").2.2.sent.map (·.url) =
        ["https://cloud.example.com/remote.php/dav/files"] ∧
      ((c.folderUrl "..").chars?.bind Reference.read?).map (·.path) =
        some "/remote.php/dav/files/alice/..".toList := by
  intro e c
  have hserver : e.server.NeverRedirects := neverRedirects_of_status (by decide)
  have hurl : c.folderUrl ".." =
      RawText.ofString "https://cloud.example.com/remote.php/dav/files/alice/.." := by
    decide +kernel
  obtain ⟨request, hsent, hrequest⟩ := exists_listRecords_sent_eq e.parse hserver _ "alice" "secret"
    _ _ hurl (a := {
      scheme := "https".toList
      host := "cloud.example.com".toList
      path := "/remote.php/dav/files".toList }) (by decide +kernel) (by decide)
  constructor
  · rw [hsent, List.map_singleton, hrequest]
    decide +kernel
  · rw [hurl, RawText.ofString, RawText.chars?_ofChars]
    decide +kernel

end Client

end DavQuery
