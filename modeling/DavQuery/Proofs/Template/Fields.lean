import DavQuery.Proofs.Template.Pass

/-! The fields that a template reads. A placeholder that stands anywhere in the text is read, and
nothing else is; each known one tells of one field. So a template shows the same for records that
agree on the fields of the tokens that it names, whatever else they hold. -/

namespace DavQuery

inductive Record.Field where
  | name
  | path
  | kind
  | size
  | mimetype
  | modified
  | created
  | favorite
  | tags
  | owner
  | fileId
  | hasPreview
  deriving DecidableEq

/-- Both records hold the same in the field. -/
def Record.AgreesOn (r r' : Record) : Field → Prop
  | .name => r.name = r'.name
  | .path => r.path = r'.path
  | .kind => r.kind = r'.kind
  | .size => r.size = r'.size
  | .mimetype => r.mimetype = r'.mimetype
  | .modified => r.modified = r'.modified
  | .created => r.created = r'.created
  | .favorite => r.favorite = r'.favorite
  | .tags => r.tags = r'.tags
  | .owner => r.owner = r'.owner
  | .fileId => r.fileId = r'.fileId
  | .hasPreview => r.hasPreview = r'.hasPreview

namespace Token

/-- The field that a token tells of. -/
def field : Token → Record.Field
  | .name | .stem | .extension => .name
  | .size | .kilobytes | .megabytes => .size
  | .kind => .kind
  | .mimetype => .mimetype
  | .date | .datetime | .modified => .modified
  | .created => .created
  | .favorite => .favorite
  | .tags => .tags
  | .owner => .owner
  | .fileId => .fileId
  | .preview => .hasPreview
  | .path => .path

theorem localText_eq_of_modified (zone : Calendar.Zone) {r r' : Record}
    (h : r.modified = r'.modified) (write : Calendar.DateTime → List Char) :
    localText zone r write = localText zone r' write := by
  rw [localText, localText, Record.modifiedAt?, Record.modifiedAt?, h]

theorem value_eq_of_agreesOn (zone : Calendar.Zone) {r r' : Record} {token : Token}
    (h : r.AgreesOn r' token.field) : token.value zone r = token.value zone r' := by
  cases token with
  | date | datetime =>
    have hmodified : r.modified = r'.modified := h
    rw [value, value, localText_eq_of_modified zone hmodified]
  | _ =>
    simp only [field, Record.AgreesOn] at h
    simp only [value, Record.stem, Record.extension, h]

end Token

namespace Template
open Calendar Text

def Names (template : String) (token : Token) : Prop :=
  ∃ word, (word, token) ∈ Token.words ∧ placeholderText word.toList <:+: template.toList

/-- The fields that a template reads: those of the tokens that it names, and the name if it is
empty or missing. -/
inductive Reads (template : Option String) : Record.Field → Prop
  | empty : template.getD "" = "" → Reads template .name
  | named {token : Token} : Names (template.getD "") token → Reads template token.field

theorem placeholder_mem_pieces_iff {word s : List Char} :
    .placeholder word ∈ pieces s ↔ IsWordRun word ∧ placeholderText word <:+: s := by
  constructor
  · intro h
    induction s using pieces.induct with
    | case1 =>
      rw [pieces] at h
      cases h
    | case2 c r read rest hread _ ih =>
      obtain ⟨hread', hs⟩ := readPlaceholder?_eq_some_iff.1 hread
      rw [pieces_of_readPlaceholder? hread, List.mem_cons, Piece.placeholder.injEq] at h
      rw [hs]
      rcases h with rfl | h
      · exact ⟨hread', (List.prefix_append _ _).isInfix⟩
      · obtain ⟨hword, hinfix⟩ := ih h
        exact ⟨hword, hinfix.trans (List.suffix_append _ _).isInfix⟩
    | case3 c r hread ih =>
      rw [pieces_of_readPlaceholder?_eq_none hread, List.mem_cons] at h
      obtain ⟨hword, hinfix⟩ := ih (h.resolve_left (by simp))
      exact ⟨hword, hinfix.trans (List.suffix_cons c r).isInfix⟩
  · rintro ⟨hword, before, after, rfl⟩
    rw [List.append_assoc, pieces_append (not_straddles_placeholder before word after),
      pieces_placeholder_append hword]
    simp

theorem names_iff {template : String} {token : Token} : Names template token ↔
    ∃ word, .placeholder word ∈ pieces template.toList ∧
      (String.ofList word, token) ∈ Token.words := by
  have hwords : ∀ p ∈ Token.words, IsWordRun p.1.toList := by decide
  constructor
  · rintro ⟨word, hmem, hinfix⟩
    exact ⟨word.toList, placeholder_mem_pieces_iff.2 ⟨hwords _ hmem, hinfix⟩,
      by rwa [String.ofList_toList]⟩
  · rintro ⟨word, hread, hmem⟩
    exact ⟨_, hmem, by simpa using (placeholder_mem_pieces_iff.1 hread).2⟩

theorem expand_piece_eq_of_agreesOn (zone : Zone) {template : String} {r r' : Record}
    (h : ∀ token, Names template token → r.AgreesOn r' token.field) {p : Piece}
    (hp : p ∈ pieces template.toList) : p.expand zone r = p.expand zone r' := by
  cases p with
  | literal c => rfl
  | placeholder word =>
    rw [Piece.expand, Piece.expand]
    cases hword : Token.ofWord? (String.ofList word) with
    | none => rfl
    | some token =>
      have hnames : Names template token :=
        names_iff.2 ⟨word, hp, Token.ofWord?_eq_some_iff.1 hword⟩
      simp only [Token.value_eq_of_agreesOn zone (h token hnames)]

/-- A template reveals no more than the fields that it reads: records that agree on them are shown
alike, or break alike, whatever the other fields hold. -/
theorem expandOr_eq_of_agreesOn (zone : Zone) (template : Option String) {r r' : Record}
    (h : ∀ field, Reads template field → r.AgreesOn r' field) :
    expandOr zone template r = expandOr zone template r' := by
  rw [expandOr, expandOr, expand, expand]
  by_cases hempty : template.getD "" = ""
  · have hname : r.name = r'.name := h .name (.empty hempty)
    simp [hempty, hname]
  · have hpieces : expandPieces zone r (pieces (template.getD "").toList) =
        expandPieces zone r' (pieces (template.getD "").toList) :=
      expandPieces_congr fun p hp =>
        expand_piece_eq_of_agreesOn zone (fun token hnames => h _ (.named hnames)) hp
    simp [hempty, hpieces]

theorem expandOr_eq_of_agreesOn_owner :
    let template := "\x7b\x7b\x7bowner\x7d\x7d: \x7b\x7bsizekb\x7d\x7d \x7b\x7bnames\x7d\x7d"
    let r : Record := { name := "a.txt", size := 1536, owner := "Alice" }
    let r' : Record :=
      { name := "\x7b\x7bowner\x7d\x7d", size := 1536, owner := "Alice", tags := ["x"] }
    (∀ field, Reads (some template) field → r.AgreesOn r' field) ∧
      expandOr .utc (some template) r = expandOr .utc (some template) r' ∧
      expandOr .utc (some template) r' = .ok "\x7bAlice: 1.50 \x7b\x7bnames\x7d\x7d" := by
  intro template r r'
  have hnamed : ∀ p ∈ Token.words, placeholderText p.1.toList <:+: template.toList →
      p.2.field = .owner ∨ p.2.field = .size := by decide +kernel
  have hagree (field : Record.Field) (h : Reads (some template) field) : r.AgreesOn r' field := by
    cases h with
    | empty h => exact absurd h (by decide)
    | @named token h =>
      obtain ⟨word, hmem, hinfix⟩ := h
      rcases hnamed (word, token) hmem hinfix with hfield | hfield
      · rw [show token.field = .owner from hfield]
        rfl
      · rw [show token.field = .size from hfield]
        rfl
  exact ⟨hagree, expandOr_eq_of_agreesOn .utc (some template) hagree, by decide +kernel⟩

end Template

end DavQuery
