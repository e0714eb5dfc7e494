import DavQuery.Json.Printer
import DavQuery.Json.Reader
import Mathlib.Data.List.Nodup

/-! Objects of texts are read back as they were written. Each character comes back from the way it
stands within quotes, so a text does, and so the members of an object in their order. -/

namespace DavQuery.Json
open Text

theorem hexValue?_digitChar {n : Nat} (h : n < 16) : hexValue? n.digitChar = some n := by
  revert n
  decide

theorem spanUnit_hex {n : Nat} (h : n < 0x10000) (rest : List Char) :
    spanUnit (hex 4 n ++ rest) = some (n, rest) := by
  have hdigits : [n / 16 / 16 / 16 % 16, n / 16 / 16 % 16, n / 16 % 16, n % 16].foldl
      (16 * · + ·) 0 = n := by
    simp only [List.foldl_cons, List.foldl_nil]
    omega
  have hvalue (k : Nat) : hexValue? (k % 16).digitChar = some (k % 16) :=
    hexValue?_digitChar (Nat.mod_lt k (by decide))
  simp only [hex, List.nil_append, List.cons_append, spanUnit, List.mapM_cons, List.mapM_nil,
    hvalue, Option.bind_eq_bind, Option.bind_some, Option.pure_def, hdigits]

theorem spanUnits_hex {n : Nat} (h : n < 0xD800) (rest : List Char) :
    spanUnits (hex 4 n ++ rest) = some (.char (Char.ofNat n), rest) := by
  have hhigh : isHigh n = false := by simp [isHigh]; omega
  have hunit : unitPoint n = .char (Char.ofNat n) := dif_neg fun hhalf => by omega
  simp [spanUnits, spanUnit_hex (by omega : n < 0x10000), hhigh, hunit]

theorem spanText_escaped {e d : Char} (he : escaped? e = some d) (hu : e ≠ 'u')
    (rest : List Char) :
    spanText ('\\' :: e :: rest) = (spanText rest).map fun p => (.char d :: p.1, p.2) := by
  have hslash : ('\\' : Char) ≠ '"' ∧ ¬ ('\\' : Char).toNat < 32 := by decide
  rw [spanText.eq_def]
  simp only [he, hslash.1, hslash.2, if_false, if_true, Option.map_some, List.length_cons]
  rw [dif_pos (by omega)]

theorem spanText_plain {c : Char} (hquote : c ≠ '"') (hslash : c ≠ '\\') (hcontrol : 32 ≤ c.toNat)
    (rest : List Char) :
    spanText (c :: rest) = (spanText rest).map fun p => (.char c :: p.1, p.2) := by
  rw [spanText.eq_def]
  simp only [if_neg hquote, if_neg hslash, if_neg (Nat.not_lt.2 hcontrol)]

theorem spanText_control {n : Nat} (h : n < 32) (rest : List Char) :
    spanText ('\\' :: 'u' :: hex 4 n ++ rest) =
      (spanText rest).map fun p => (.char (Char.ofNat n) :: p.1, p.2) := by
  have hunits := spanUnits_hex (by omega : n < 0xD800) rest
  have hslash : ('\\' : Char) ≠ '"' ∧ ¬ ('\\' : Char).toNat < 32 := by decide
  rw [List.cons_append, List.cons_append, spanText.eq_def]
  simp only [hunits, hslash.1, hslash.2, if_false, if_true, List.length_cons, List.length_append]
  rw [dif_pos (by omega)]

theorem spanText_textChar_append (c : Char) (rest : List Char) :
    spanText (textChar c ++ rest) = (spanText rest).map fun p => (.char c :: p.1, p.2) := by
  have hof (n : Nat) (h : c.toNat = n) : c = Char.ofNat n := by rw [← h, Char.ofNat_toNat]
  unfold textChar
  split_ifs with hquote hslash hline hreturn htab hback hfeed hcontrol
  · subst hquote
    exact spanText_escaped (by decide) (by decide) rest
  · subst hslash
    exact spanText_escaped (by decide) (by decide) rest
  · subst hline
    exact spanText_escaped (by decide) (by decide) rest
  · subst hreturn
    exact spanText_escaped (by decide) (by decide) rest
  · subst htab
    exact spanText_escaped (by decide) (by decide) rest
  · obtain rfl := hof 8 hback
    exact spanText_escaped (by decide) (by decide) rest
  · obtain rfl := hof 12 hfeed
    exact spanText_escaped (by decide) (by decide) rest
  · rw [spanText_control hcontrol, Char.ofNat_toNat]
  · exact spanText_plain hquote hslash (Nat.not_lt.1 hcontrol) rest

theorem spanText_flatMap_textChar (s rest : List Char) :
    spanText (s.flatMap textChar ++ '"' :: rest) = some (RawText.ofChars s, rest) := by
  induction s with
  | nil =>
    rw [List.flatMap_nil, List.nil_append, spanText.eq_def]
    rfl
  | cons c s ih =>
    rw [List.flatMap_cons, List.append_assoc, spanText_textChar_append, ih, Option.map_some]
    rfl

theorem spanValue_printText_append (levels : Nat) (s rest : List Char) :
    spanValue levels (printText s ++ rest) = .ok (.text (RawText.ofChars s), rest) := by
  rw [printText, List.cons_append, List.cons_append, List.append_assoc, List.singleton_append,
    spanValue, spanText_flatMap_textChar]

theorem put_of_not_mem {name : RawText} {v : Value} {found : List (RawText × Value)}
    (h : name ∉ found.map Prod.fst) : put name v found = found ++ [(name, v)] := by
  induction found with
  | nil => rfl
  | cons p found ih =>
    rw [List.map_cons, List.mem_cons, not_or] at h
    rw [put, if_neg (Ne.symm h.1), ih h.2, List.cons_append]

theorem skipSpace_colon (s : List Char) : skipSpace (':' :: s) = ':' :: s := rfl

theorem skipSpace_printText_of_space (s rest : List Char) :
    skipSpace (' ' :: (printText s ++ rest)) = printText s ++ rest := rfl

theorem length_skipSpace_le (s : List Char) : (skipSpace s).length ≤ s.length :=
  (List.dropWhile_sublist _).length_le

def memberThen (m : String × String) (rest : List Char) : List Char :=
  '"' :: (m.1.toList.flatMap textChar ++ '"' :: ':' :: ' ' :: (printText m.2.toList ++ rest))

theorem printMember_append (m : String × String) (rest : List Char) :
    printMember m ++ rest = ' ' :: ' ' :: memberThen m rest := by
  simp [printMember, printText, memberThen]

def membersAfter (ms : List (String × String)) : List Char :=
  ms.flatMap (fun m => ',' :: '\n' :: printMember m) ++ ['\n', '\x7d']

theorem membersAfter_cons (m : String × String) (ms : List (String × String)) :
    membersAfter (m :: ms) = ',' :: '\n' :: ' ' :: ' ' :: memberThen m (membersAfter ms) := by
  rw [membersAfter, List.flatMap_cons, List.append_assoc, ← membersAfter, List.cons_append,
    List.cons_append, printMember_append]

theorem intercalate_printMember (m : String × String) (ms : List (String × String)) :
    [',', '\n'].intercalate ((m :: ms).map printMember) ++ ['\n', '\x7d'] =
      printMember m ++ membersAfter ms := by
  induction ms generalizing m with
  | nil => simp [membersAfter]
  | cons m' ms ih =>
    rw [List.map_cons, List.map_cons, List.intercalate_cons_cons, ← List.map_cons,
      List.append_assoc,
      List.append_assoc, ih, membersAfter_cons, printMember_append m']
    rfl

theorem printObject_cons (m : String × String) (ms : List (String × String)) :
    printObject (m :: ms) = '\x7b' :: '\n' :: ' ' :: ' ' :: memberThen m (membersAfter ms) := by
  rw [← printMember_append, ← intercalate_printMember]
  simp [printObject]

variable {levels : Nat} {found : List (RawText × Value)} {m : String × String}
  {rest tail : List Char}

def textMember (m : String × String) : RawText × Value := (m.1, .text m.2)

@[simp] theorem member?_nil (name : String) : member? [] name = none := rfl

@[simp] theorem member?_textMember_cons (m : String × String) (ms : List (RawText × Value))
    (name : String) :
    member? (textMember m :: ms) name =
      if name = m.1 then some (.text m.2) else member? ms name := by
  unfold member? textMember
  rw [List.lookup_cons]
  by_cases h : name = m.1
  · simp [h]
  · have hpoints : (RawText.ofString name == RawText.ofString m.1) = false := by simpa using h
    rw [hpoints, if_neg h]

theorem spanMembers_last (hrest : skipSpace rest = '\x7d' :: tail) :
    spanMembers levels found (memberThen m rest) = .ok (put m.1 (.text m.2) found, tail) := by
  rw [memberThen, spanMembers]
  simp only [spanText_flatMap_textChar, skipSpace_colon, skipSpace_printText_of_space,
    spanValue_printText_append, hrest]
  rw [dif_pos (by simp; omega)]
  rfl

theorem spanMembers_next (hrest : skipSpace rest = ',' :: tail) :
    spanMembers levels found (memberThen m rest) =
      spanMembers levels (put m.1 (.text m.2) found) (skipSpace tail) := by
  have htail : (skipSpace tail).length < rest.length := by
    have h := length_skipSpace_le rest
    rw [hrest, List.length_cons] at h
    exact Nat.lt_of_le_of_lt (length_skipSpace_le tail) h
  rw [memberThen, spanMembers]
  simp only [spanText_flatMap_textChar, skipSpace_colon, skipSpace_printText_of_space,
    spanValue_printText_append, hrest]
  rw [dif_pos (by simp; omega), dif_pos (by simp; omega)]
  rfl

theorem put_textMember {names : List RawText}
    (hnew : (found.map Prod.fst ++ RawText.ofString m.1 :: names).Nodup) :
    put m.1 (.text m.2) found = found ++ [textMember m] :=
  put_of_not_mem fun h => (List.nodup_append.1 hnew).2.2 _ h _ List.mem_cons_self rfl

theorem spanMembers_membersAfter (m : String × String) (ms : List (String × String))
    (hnew : (found.map Prod.fst ++ (m :: ms).map fun m => RawText.ofString m.1).Nodup) :
    spanMembers levels found (memberThen m (membersAfter ms)) =
      .ok (found ++ (m :: ms).map textMember, []) := by
  -- On the members still to be read; `found` has grown by each of those before.
  induction ms generalizing m found with
  | nil =>
    rw [spanMembers_last rfl, put_textMember hnew, List.map_singleton]
  | cons m' ms ih =>
    have hnew' : ((found ++ [textMember m]).map Prod.fst ++
        (m' :: ms).map fun m => RawText.ofString m.1).Nodup := by
      simpa [textMember] using hnew
    rw [membersAfter_cons, spanMembers_next rfl, put_textMember hnew]
    exact (ih m' hnew').trans (by simp)

theorem spanValue_object (hrest : skipSpace rest = memberThen m tail) :
    spanValue (levels + 1) ('\x7b' :: rest) =
      (spanMembers levels [] (memberThen m tail)).map fun p => (.object p.1, p.2) := by
  have hlength : (memberThen m tail).length < rest.length + 1 :=
    Nat.lt_succ_of_le (hrest ▸ length_skipSpace_le rest)
  rw [spanValue.eq_def]
  simp only [hrest]
  exact dif_pos hlength

theorem read_printObject {members : List (String × String)}
    (hnames : (members.map Prod.fst).Nodup) :
    read (levels + 1) (printObject members) = .ok (.object (members.map textMember)) := by
  have hnew : (([] : List (RawText × Value)).map Prod.fst ++
      members.map fun m => RawText.ofString m.1).Nodup := by
    have h := List.Nodup.map (fun _ _ => RawText.ofString_inj.1) hnames
    rwa [List.map_map] at h
  have hspan : spanValue (levels + 1) (printObject members) =
      .ok (.object (members.map textMember), []) := by
    cases members with
    | nil =>
      rw [show printObject [] = ['\x7b', '\x7d'] from rfl, spanValue.eq_def]
      rfl
    | cons m ms =>
      rw [printObject_cons, spanValue_object rfl, spanMembers_membersAfter m ms hnew]
      rfl
  have hskip : skipSpace (printObject members) = printObject members := by
    cases members <;> rfl
  rw [read, hskip, hspan]
  rfl

end DavQuery.Json
