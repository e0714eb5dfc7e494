import DavQuery.Proofs.Query.Line

/-! Reading a query goes line by line. What a line means depends on the line and on whether a
section is open before it; the reader is one step for each line, and so its run over a text grows
at the end of the text. -/

namespace DavQuery.Query
open Text

/-- What a line of a query means in its place. -/
inductive Role where
  | empty
  | opener
  | item (c : Criterion)
  /-- A line of a section that is no criterion. -/
  | stray
  | header (key value : String)
  /-- A line outside sections that is no header. -/
  | unread
  deriving Repr, DecidableEq

def roleOf (inside : Bool) (l : Line) : Role :=
  if (trimChars l).isEmpty then .empty
  else if isOpener (trimChars l) then .opener
  else
    match if inside then criterionOf? (trimChars l) else none with
    | some c => .item c
    | none =>
      if inside && staysInside l then .stray
      else
        match headerOf? l with
        | some (key, value) => .header key value
        | none => .unread

/-- The roles told by the shape of the line. -/
inductive Means (inside : Bool) (l : Line) : Role → Prop
  | empty : AllBlank l → Means inside l .empty
  | opener : Opens l → Means inside l .opener
  | item {c : Criterion} : inside = true → Lists l c → Means inside l (.item c)
  | stray : ¬ AllBlank l → ¬ Opens l → inside = true → ¬ IsItem l → ¬ Closes l →
      Means inside l .stray
  | header {key value : String} : ¬ AllBlank l → ¬ Opens l → inside = false ∨ Closes l →
      Splits l key value → Means inside l (.header key value)
  | unread : ¬ AllBlank l → ¬ Opens l → inside = false ∨ Closes l →
      (∀ key value, ¬ Splits l key value) → Means inside l .unread

theorem means_roleOf (inside : Bool) (l : Line) : Means inside l (roleOf inside l) := by
  unfold roleOf
  split
  · rename_i h
    exact .empty (trimChars_eq_nil_iff.1 (List.isEmpty_iff.1 h))
  · rename_i hb
    have hb : ¬ AllBlank l := fun h => hb (List.isEmpty_iff.2 (trimChars_eq_nil_iff.2 h))
    split
    · rename_i h
      exact .opener (isOpener_iff.1 h)
    · rename_i ho
      have ho : ¬ Opens l := fun h => ho (isOpener_iff.2 h)
      split
      · rename_i c hc
        cases inside with
        | false => simp at hc
        | true => exact .item rfl (criterionOf?_eq_some_iff.1 hc)
      · rename_i hc
        -- Inside, the line is no criterion, so that the two tests of the reader tell it apart.
        have hi : inside = true → ¬ IsItem l := by
          rintro rfl hi
          rw [← isSome_criterionOf?_iff] at hi
          simp_all
        split
        · rename_i hs
          rw [Bool.and_eq_true] at hs
          refine .stray hb ho hs.1 (hi hs.1) fun hcl => ?_
          rw [← staysInside_eq_false_iff hb ho (hi hs.1)] at hcl
          simp [hcl] at hs
        · rename_i hs
          have hout : inside = false ∨ Closes l := by
            cases inside with
            | false => exact .inl rfl
            | true => exact .inr ((staysInside_eq_false_iff hb ho (hi rfl)).1 (by simpa using hs))
          split
          · rename_i key value hkv
            exact .header hb ho hout (headerOf?_eq_some_iff.1 hkv)
          · rename_i hkv
            refine .unread hb ho hout fun key value h => ?_
            simp [headerOf?_eq_some_iff.2 h] at hkv

theorem roleOf_eq_iff {inside : Bool} {l : Line} {role : Role} :
    roleOf inside l = role ↔ Means inside l role := by
  constructor
  · rintro rfl
    exact means_roleOf inside l
  · intro h
    have h' := means_roleOf inside l
    generalize roleOf inside l = other at h'
    cases h <;> cases h' <;>
      grind [not_opens_of_allBlank, Lists.not_allBlank, Lists.not_opens, Lists.unique, IsItem,
        IsItem.not_closes, Splits.unique]

namespace Role

def inside (before : Bool) : Role → Bool
  | .empty => before
  | .opener | .item _ | .stray => true
  | .header _ _ | .unread => false

def apply (q : Query) : Role → Query
  | .opener => { q with criteria := some [] }
  | .item c => q.addCriterion c
  | .header key value => q.set key value
  | .empty | .stray | .unread => q

def part? : Role → Option QueryPart
  | .stray => some .filter
  | .unread => some .header
  | _ => none

end Role

structure Progress where
  inside : Bool := false
  query : Query := empty
  ignored : List IgnoredLine := []

/-- Reads one more line, given with its number. -/
def Progress.step (p : Progress) (line : Line × Nat) : Progress where
  inside := (roleOf p.inside line.1).inside p.inside
  query := (roleOf p.inside line.1).apply p.query
  ignored := p.ignored ++ ((roleOf p.inside line.1).part?.map fun part =>
    ⟨line.2, part, String.ofList (trimChars line.1)⟩).toList

def progress (lines : List Line) : Progress := (lines.zipIdx 1).foldl Progress.step {}

theorem progress_append_singleton (lines : List Line) (l : Line) :
    progress (lines ++ [l]) = (progress lines).step (l, lines.length + 1) := by
  simp [progress, List.zipIdx_append, Nat.add_comm]

theorem readLines_cons (number : Nat) (inside : Bool) (q : Query) (l : Line) (rest : List Line) :
    readLines number inside q (l :: rest) =
      let role := roleOf inside l
      let r := readLines (number + 1) (role.inside inside) (role.apply q) rest
      (r.1, (role.part?.map fun part => ⟨number, part, String.ofList (trimChars l)⟩).toList ++
        r.2) := by
  simp only [readLines, roleOf]
  repeat' split
  all_goals simp_all [Role.inside, Role.apply, Role.part?]

theorem readLines_eq_foldl (lines : List Line) (number : Nat) (p : Progress) :
    ((lines.zipIdx number).foldl Progress.step p).query =
        (readLines number p.inside p.query lines).1 ∧
      ((lines.zipIdx number).foldl Progress.step p).ignored =
        p.ignored ++ (readLines number p.inside p.query lines).2 := by
  induction lines generalizing number p with
  | nil => simp [readLines]
  | cons l rest ih =>
    obtain ⟨hq, hi⟩ := ih (number + 1) (p.step (l, number))
    rw [List.zipIdx_cons, List.foldl_cons, hq, hi, readLines_cons]
    exact ⟨rfl, List.append_assoc ..⟩

theorem readWithIgnored_eq (text : String) :
    readWithIgnored text =
      ((progress (linesOf text)).query, (progress (linesOf text)).ignored) := by
  obtain ⟨hq, hi⟩ := readLines_eq_foldl (linesOf text) 1 {}
  exact Prod.ext hq.symm hi.symm

end DavQuery.Query
