import DavQuery.Proofs.Calendar.Arithmetic
import DavQuery.Proofs.Calendar.Mail

/-! The words of the form of letters. A date in it takes up five words, or four without a zone, and
what stands behind them is not looked at. Where words have to be parted for the date, nothing may
stand behind them: the words are then too many to be parted, and tell no date. -/

namespace DavQuery
namespace Calendar.Mail
open Text

def IsClockText (s : List Char) : Prop :=
  ∃ hour minute second, clockWords? s = some (hour, minute, second) ∧
    ∀ part ∈ [hour, minute, second], integer? part ≠ none

theorem IsClockText.parts {s : List Char} (h : IsClockText s) :
    (∀ part ∈ s.splitOn ':', integer? part ≠ none) ∨
      ':' ∉ s ∧ ∀ part ∈ s.splitOn '.', integer? part ≠ none := by
  obtain ⟨hour, minute, second, hclock, hparts⟩ := h
  simp only [List.forall_mem_cons] at hparts
  unfold clockWords? at hclock
  split at hclock
  case h_1 hsplit =>
    cases hclock
    rw [hsplit]
    left
    simp [hparts.1, hparts.2.1]
  case h_2 hsplit =>
    cases hclock
    rw [hsplit]
    left
    simp [hparts.1, hparts.2.1, hparts.2.2.1]
  case h_3 w hsplit =>
    have hcolon : ':' ∉ s := fun hmem => by
      obtain ⟨a, b, rfl⟩ := List.append_of_mem hmem
      have hmark : (':' == ':') = true := BEq.rfl
      have hparts := List.splitOnP_append_cons (p := (· == ':')) a b hmark
      have ha := List.length_pos_of_ne_nil (List.splitOn_ne_nil ':' a)
      have hb := List.length_pos_of_ne_nil (List.splitOn_ne_nil ':' b)
      have hlength := congrArg List.length (hparts.symm.trans hsplit)
      rw [List.length_append, List.length_singleton] at hlength
      exact absurd hlength (Nat.ne_of_gt (Nat.add_le_add ha hb))
    rw [List.splitOn_eq_singleton hcolon, List.cons.injEq] at hsplit
    refine .inr ⟨hcolon, ?_⟩
    rw [hsplit.1]
    split at hclock
    case h_1 hpoints =>
      cases hclock
      simp [hpoints, hparts.1, hparts.2.1]
    case h_2 hpoints =>
      cases hclock
      simp [hpoints, hparts.1, hparts.2.1, hparts.2.2.1]
    case h_3 => cases hclock
  case h_4 => cases hclock

theorem integer?_of_sign_mem_tail {s : List Char} (hblank : ∀ c ∈ s, isBlank c = false)
    {sign : Char} (hsign : isSign sign = true) (h : sign ∈ s.tail) : integer? s = none := by
  refine integer?_eq_none_of_mem hblank (mem_spanSign_of_mem_tail h) ?_ ?_
  all_goals
    obtain rfl | rfl := isSign_iff.1 hsign
    all_goals decide

theorem not_isClockText {a b : List Char} {c sign : Char}
    (hblank : ∀ x ∈ a ++ c :: sign :: b, isBlank x = false) (hsign : isSign sign = true)
    (hcolon : c ≠ ':') (hpoint : c ≠ '.') : ¬ IsClockText (a ++ c :: sign :: b) := by
  have hne : sign ≠ ':' ∧ sign ≠ '.' := by
    obtain rfl | rfl := isSign_iff.1 hsign
    all_goals decide
  have hpart (sep : Char) (hc : c ≠ sep) (hs : sign ≠ sep) :
      ∃ part ∈ (a ++ c :: sign :: b).splitOn sep, integer? part = none := by
    obtain ⟨part, hmem, htail⟩ := exists_mem_tail_splitOn hc hs a b
    exact ⟨part, hmem, integer?_of_sign_mem_tail
      (fun x hx => hblank x (mem_of_mem_splitOnP hmem x hx).1) hsign htail⟩
  intro h
  rcases h.parts with hall | ⟨-, hall⟩
  · obtain ⟨part, hmem, hnone⟩ := hpart ':' hcolon hne.1
    exact hall part hmem hnone
  · obtain ⟨part, hmem, hnone⟩ := hpart '.' hpoint hne.2
    exact hall part hmem hnone

theorem IsClockText.last {a : List Char} {c : Char}
    (hblank : ∀ x ∈ a ++ [c], isBlank x = false) (h : IsClockText (a ++ [c])) :
    c ≠ ':' ∧ c ≠ '.' := by
  have hnil : integer? [] = none := by decide
  constructor
  · rintro rfl
    rcases h.parts with hall | ⟨hcolon, -⟩
    · exact hall [] (nil_mem_splitOn ':' a) hnil
    · exact hcolon (List.mem_append_right a List.mem_cons_self)
  · rintro rfl
    rcases h.parts with hall | ⟨-, hall⟩
    · have hpoint : '.' ∈ a ++ ['.'] := List.mem_append_right a List.mem_cons_self
      have hne : '.' ≠ ':' := by decide
      obtain ⟨part, hpart, hmem⟩ := exists_mem_splitOn hpoint hne
      refine hall part hpart (integer?_eq_none_of_mem
        (fun x hx => hblank x (mem_of_mem_splitOnP hpart x hx).1) (c := '.') ?_ (by decide)
        (by decide))
      unfold spanSign
      split
      · simpa using hmem
      · simpa using hmem
      · exact hmem
    · exact hall [] (nil_mem_splitOn '.' a) hnil

/-- What five words have to be for the fields of a date to be read from them. -/
structure TellsFields (dd mm yy tm tz : List Char) : Prop where
  dd_ne_nil : dd ≠ []
  yy_ne_nil : yy ≠ []
  day : ∃ p, dayAndMonth? dd mm = some p ∧ integer? (dropComma p.1) ≠ none
  clock : IsClockText (dropComma (yearAndTime yy tm).2)
  year : ∃ p, yearAndZone? (dropComma (yearAndTime yy tm).1) tz = some p ∧ integer? p.1 ≠ none

theorem tellsFields_of_fieldsOf? {dd mm yy tm tz : List Char} {f : Fields}
    (h : fieldsOf? dd mm yy tm tz = some f) : TellsFields dd mm yy tm tz := by
  unfold fieldsOf? at h
  split_ifs at h with hempty
  simp only [Option.bind_eq_bind, Option.bind_eq_some_iff] at h
  obtain ⟨p, hp, q, hq, ⟨hour, minute, second⟩, hclock, year, hyear, day, hday, n, hn, m, hm, k, hk,
    -⟩ := h
  simp only [Bool.or_eq_true, List.isEmpty_iff, not_or] at hempty
  exact ⟨hempty.1.1, hempty.2, ⟨p, hp, by simp [hday]⟩,
    ⟨hour, minute, second, hclock, by simp [hn, hm, hk]⟩, q, hq, by simp [hyear]⟩

theorem integer?_sign {sign : Char} (h : isSign sign = true) : integer? [sign] = none := by
  obtain rfl | rfl := isSign_iff.1 h
  all_goals decide

theorem ne_comma_of_isSign {sign : Char} (h : isSign sign = true) : sign ≠ ',' := by
  rintro rfl
  revert h
  decide

theorem fieldsOf?_sign {sign : Char} (h : isSign sign = true) (dd mm yy tm : List Char) :
    fieldsOf? dd mm yy tm [sign] = fieldsOf? dd mm yy tm [] := by
  have hnil : integer? [] = none ∧ zoneDigits? [] = none := by decide
  have hzone : zoneDigits? [sign] = none := by
    obtain rfl | rfl := isSign_iff.1 h
    all_goals decide
  unfold fieldsOf?
  generalize yearAndTime yy tm = roles
  obtain ⟨y, t⟩ := roles
  dsimp only
  cases dropComma y with
  | nil => rfl
  | cons c r =>
    simp only [yearAndZone?, Option.bind_eq_bind, Option.bind_some]
    cases isDigitLike c with
    | true => simp only [if_true, hzone, hnil.2]
    | false => simp only [Bool.false_eq_true, if_false, integer?_sign h, hnil.1, Option.bind_none]

theorem monthOfName?_of_mem {c : Char} (hc : ∀ name ∈ monthNames, c ∉ name.toList) {s : List Char}
    (h : c ∈ s) : monthOfName? s = none := by
  rw [monthOfName?, Option.map_eq_none_iff, List.findIdx?_eq_none_iff]
  intro name hname
  rw [Bool.or_eq_false_iff, beq_eq_false_iff_ne, beq_eq_false_iff_ne]
  constructor
  · rintro rfl
    exact hc name hname h
  · rintro rfl
    exact hc name hname (List.mem_of_mem_take h)

theorem monthOfName?_sign {sign : Char} (h : isSign sign = true) :
    monthOfName? (lowerChars [sign]) = none := by
  obtain rfl | rfl := isSign_iff.1 h
  all_goals decide

theorem mem_tail_dropComma {c : Char} {s : List Char} (hc : c ≠ ',') (h : c ∈ s.tail) :
    c ∈ (dropComma s).tail := by
  unfold dropComma
  split_ifs with hlast
  · obtain ⟨r, rfl⟩ := List.getLast?_eq_some_iff.1 hlast
    rw [List.dropLast_concat]
    cases r with
    | nil => cases h
    | cons d r =>
      rw [List.cons_append, List.tail_cons, List.mem_append, List.mem_singleton] at h
      exact h.resolve_right hc
  · exact h

theorem mem_of_mem_dropComma {c : Char} {s : List Char} (h : c ∈ dropComma s) : c ∈ s := by
  unfold dropComma at h
  split_ifs at h
  · exact (List.dropLast_sublist s).mem h
  · exact h

theorem dropComma_append {c : Char} (hc : c ≠ ',') (a b : List Char) :
    ∃ b', dropComma (a ++ c :: b) = a ++ c :: b' := by
  unfold dropComma
  split_ifs with hlast
  · rw [List.getLast?_append_of_ne_nil _ (by simp)] at hlast
    cases b with
    | nil => exact absurd (by simpa using hlast) hc
    | cons d b => exact ⟨(d :: b).dropLast, by simp⟩
  · exact ⟨b, rfl⟩

theorem yearAndTime_cases (yy : List Char) : (∀ tm, yearAndTime yy tm = (tm, yy)) ∨
    ∀ tm, yearAndTime yy tm = (yy, tm) := by
  unfold yearAndTime
  split
  · exact .inl fun _ => rfl
  · exact .inr fun _ => rfl

theorem integer?_of_yearAndZone? {w sign : List Char} {x : Char} {p : List Char × List Char}
    (hblank : ∀ c ∈ w, isBlank c = false) (hx : isSign x = true) (hmem : x ∈ w.tail)
    (hsign : integer? sign = none) (h : yearAndZone? w sign = some p) : integer? p.1 = none := by
  have hw := integer?_of_sign_mem_tail hblank hx hmem
  cases w with
  | nil => cases h
  | cons c r =>
    rw [yearAndZone?, Option.some.injEq] at h
    rw [← h]
    split_ifs
    · exact hw
    · exact hsign

theorem IsClockText.not_append {u y : List Char} {x : Char} (h : IsClockText (dropComma u))
    (hx : isSign x = true) (hu : u ≠ []) (hblank : ∀ c ∈ u ++ x :: y, isBlank c = false) :
    ¬ IsClockText (u ++ x :: y) := by
  obtain ⟨u', c, rfl⟩ := (List.eq_nil_or_concat' u).resolve_left hu
  have hlast : c ≠ ':' ∧ c ≠ '.' := by
    by_cases hc : c = ','
    · rw [hc]
      decide
    · rw [dropComma, if_neg (by simpa using hc)] at h
      exact h.last fun x hx => hblank x (List.mem_append_left _ hx)
  rw [List.append_assoc, List.singleton_append] at hblank ⊢
  exact not_isClockText hblank hx hlast.1 hlast.2

theorem fieldsOf?_of_parted {dd mm yy u y : List Char} {x sign : Char} {f : Fields}
    (hsign : isSign sign = true) (hx : isSign x = true) (hu : u ≠ [])
    (hblank : ∀ c ∈ u ++ x :: y, isBlank c = false)
    (h : fieldsOf? dd mm yy u (x :: y) = some f) :
    fieldsOf? dd mm yy (u ++ x :: y) [sign] = none := by
  rw [Option.eq_none_iff_forall_ne_some]
  intro g hg
  have hread := tellsFields_of_fieldsOf? h
  have hwhole := tellsFields_of_fieldsOf? hg
  obtain ⟨y', hdrop⟩ := dropComma_append (ne_comma_of_isSign hx) u y
  have hdropBlank : ∀ c ∈ u ++ x :: y', isBlank c = false :=
    fun c hc => hblank c (mem_of_mem_dropComma (hdrop ▸ hc))
  rcases yearAndTime_cases yy with hplaces | hplaces
  · -- The word is that of the year.
    obtain ⟨p, hp, hyear⟩ := hwhole.year
    rw [hplaces, hdrop] at hp
    refine hyear (integer?_of_yearAndZone? hdropBlank hx ?_ (integer?_sign hsign) hp)
    rw [List.tail_append_of_ne_nil hu]
    exact List.mem_append_right _ List.mem_cons_self
  · -- The word is that of the time of day.
    have hclock := hwhole.clock
    have hbefore := hread.clock
    rw [hplaces, hdrop] at hclock
    rw [hplaces] at hbefore
    exact hbefore.not_append hx hu hdropBlank hclock

theorem fieldsOf?_of_day {dd mm yy tm tz : List Char} (hday : integer? (dropComma dd) = none)
    (hmonth : monthOfName? (lowerChars dd) = none) : fieldsOf? dd mm yy tm tz = none := by
  rw [Option.eq_none_iff_forall_ne_some]
  intro f hf
  obtain ⟨p, hp, hread⟩ := (tellsFields_of_fieldsOf? hf).day
  unfold dayAndMonth? at hp
  split at hp
  · cases hp
    exact hread hday
  · rw [hmonth] at hp
    cases hp

theorem fieldsOf?_of_hyphen {dd mm yy tm tz : List Char} (hhyphen : '-' ∈ dd.tail)
    (hblank : ∀ c ∈ dd, isBlank c = false) : fieldsOf? dd mm yy tm tz = none :=
  fieldsOf?_of_day
    (integer?_of_sign_mem_tail (fun c hc => hblank c (mem_of_mem_dropComma hc)) (by decide)
      (mem_tail_dropComma (by decide) hhyphen))
    (monthOfName?_of_mem (by decide)
      (mem_lowerFrom (fun _ _ => rfl) (List.mem_of_mem_tail hhyphen) false))

theorem fieldsOf?_of_months {dd mm yy tm tz : List Char} (hdd : monthOfName? (lowerChars dd) = none)
    (hmm : monthOfName? (lowerChars mm) = none) : fieldsOf? dd mm yy tm tz = none := by
  have hday : dayAndMonth? dd mm = none := by
    rw [dayAndMonth?, hmm, hdd]
    rfl
  unfold fieldsOf?
  rw [hday]
  split_ifs <;> rfl

/-- The fields that are read from the words of a text, the name of a day being left out. -/
def fieldsOfWords? (ws : List (List Char)) : Option Fields :=
  match addZone (spreadDate ws) with
  | dd :: mm :: yy :: tm :: tz :: _ => fieldsOf? dd mm yy tm tz
  | _ => none

theorem fields?_eq (s : List Char) : fields? s = fieldsOfWords? (dropDayName (words s)) := rfl

/-- One of the first two words of a date, the name of a day being left out, names a month. -/
def NamesMonth (s : List Char) : Prop :=
  ∃ w ∈ (dropDayName (words s)).take 2, monthOfName? (lowerChars w) ≠ none

def InWholeWords (s : List Char) : Prop :=
  addZone (spreadDate (dropDayName (words s))) = dropDayName (words s) ∨
    addZone (spreadDate (dropDayName (words s))) = dropDayName (words s) ++ [[]]

instance (s : List Char) : Decidable (NamesMonth s) := by
  unfold NamesMonth
  infer_instance

instance (s : List Char) : Decidable (InWholeWords s) := by
  unfold InWholeWords
  infer_instance

theorem dropDayName_append {ws : List (List Char)} (h : ws ≠ []) (t : List (List Char)) :
    dropDayName (ws ++ t) = dropDayName ws ++ t := by
  obtain ⟨w, r, rfl⟩ := List.exists_cons_of_ne_nil h
  rw [List.cons_append, dropDayName, dropDayName]
  split_ifs
  · rfl
  · split <;> rfl

theorem mem_dropDayName {ws : List (List Char)} {w : List Char} (h : w ∈ dropDayName ws) :
    ∀ c ∈ w, ∃ w' ∈ ws, c ∈ w' := by
  intro c hc
  cases ws with
  | nil => cases h
  | cons w' r =>
    rw [dropDayName] at h
    split_ifs at h
    · exact ⟨w, List.mem_cons_of_mem w' h, hc⟩
    · split at h
      case h_1 a b hcut =>
        rcases List.mem_cons.1 h with rfl | h
        · refine ⟨w', List.mem_cons_self, ?_⟩
          rw [(cutLast_eq_some hcut).1]
          exact List.mem_append_right a (List.mem_cons_of_mem ',' hc)
        · exact ⟨w, List.mem_cons_of_mem w' h, hc⟩
      case h_2 => exact ⟨w, h, hc⟩

theorem isBlank_of_mem_dropDayName {s w : List Char} (h : w ∈ dropDayName (words s)) :
    ∀ c ∈ w, isBlank c = false := fun c hc => by
  obtain ⟨w', hw', hc'⟩ := mem_dropDayName h c hc
  exact ((mem_words hw').2 c hc').2

theorem exists_addZone_eq (a b : List Char) (r : List (List Char)) :
    ∃ r', addZone (a :: b :: r) = a :: b :: r' := by
  unfold addZone
  split
  case h_1 heq =>
    cases heq
    split
    · exact ⟨_, rfl⟩
    · exact ⟨_, rfl⟩
  case h_2 => exact ⟨r, rfl⟩

theorem fieldsOfWords?_of_two {a b : List Char} {r : List (List Char)}
    (hspread : spreadDate (a :: b :: r) = a :: b :: r)
    (h : ∀ yy tm tz, fieldsOf? a b yy tm tz = none) : fieldsOfWords? (a :: b :: r) = none := by
  obtain ⟨r', hzone⟩ := exists_addZone_eq a b r
  rw [fieldsOfWords?, hspread, hzone]
  split
  case h_1 heq =>
    cases heq
    exact h _ _ _
  case h_2 => rfl

theorem spreadDate_of_length {ws : List (List Char)} (h : ws.length ≠ 3) : spreadDate ws = ws := by
  unfold spreadDate
  split
  · exact absurd rfl h
  · rfl

theorem zoneStart?_eq_some {w : List Char} {k : Nat} (h : zoneStart? w = some k) :
    ∃ x y, w.drop k = x :: y ∧ isSign x = true := by
  have hfound {p : Char → Bool} (hp : ∀ c, p c = true → isSign c = true)
      (h : w.findIdx? p = some k) : ∃ x y, w.drop k = x :: y ∧ isSign x = true := by
    obtain ⟨hk, hx, -⟩ := List.findIdx?_eq_some_iff_getElem.1 h
    exact ⟨w[k], w.drop (k + 1), List.drop_eq_getElem_cons hk, hp _ hx⟩
  unfold zoneStart? at h
  split at h
  case h_1 i hplus =>
    cases h
    exact hfound (fun c hc => by simp [isSign, beq_iff_eq.1 hc]) hplus
  case h_2 => exact hfound (fun c hc => by simp [isSign, beq_iff_eq.1 hc]) h

theorem addZone_of_length {ws : List (List Char)} (h : ws.length ≠ 4) : addZone ws = ws := by
  unfold addZone
  split
  · exact absurd rfl h
  · rfl

theorem fieldsOfWords?_five (a b c d e : List Char) (r : List (List Char)) :
    fieldsOfWords? (a :: b :: c :: d :: e :: r) = fieldsOf? a b c d e := by
  rw [fieldsOfWords?, spreadDate_of_length (by simp), addZone_of_length (by simp)]

theorem spreadDate_three (w t z : List Char) : spreadDate [w, t, z] = [w, t, z] ∨
    ∃ a b c, w.splitOn '-' = [a, b, c] ∧ spreadDate [w, t, z] = [a, b, c, t, z] := by
  unfold spreadDate
  dsimp only
  split
  case h_1 a b c hsplit => exact .inr ⟨a, b, c, hsplit, rfl⟩
  case h_2 => exact .inl rfl

theorem addZone_four (a b c w : List Char) : addZone [a, b, c, w] = [a, b, c, w, []] ∨
    ∃ u x y, w = u ++ x :: y ∧ u ≠ [] ∧ isSign x = true ∧
      addZone [a, b, c, w] = [a, b, c, u, x :: y] := by
  unfold addZone
  dsimp only
  split
  case h_1 i hstart =>
    obtain ⟨x, y, hdrop, hx⟩ := zoneStart?_eq_some hstart
    have hw := List.take_append_drop (i + 1) w
    rw [hdrop] at hw
    refine .inr ⟨w.take (i + 1), x, y, hw.symm, ?_, hx, by rw [hdrop]⟩
    cases w with
    | nil => simp at hdrop
    | cons d w => simp
  case h_2 => exact .inl rfl

theorem hyphen_mem_of_three {w t z : List Char} {f : Fields}
    (h : fieldsOfWords? [w, t, z] = some f) :
    '-' ∈ w.tail ∧ (addZone (spreadDate [w, t, z])).length = 5 := by
  rcases spreadDate_three w t z with hspread | ⟨a, b, c, hsplit, hspread⟩
  · rw [fieldsOfWords?, hspread] at h
    cases h
  · rw [fieldsOfWords?, hspread] at h
    have hw : a ++ '-' :: (b ++ '-' :: c) = w := by
      have hjoin : ['-'].intercalate (w.splitOn '-') = w := List.intercalate_splitOn '-'
      rw [hsplit] at hjoin
      simpa [List.intercalate_cons_cons] using hjoin
    rw [hspread, ← hw, List.tail_append_of_ne_nil (tellsFields_of_fieldsOf? h).dd_ne_nil]
    exact ⟨List.mem_append_right _ List.mem_cons_self, rfl⟩

section
variable {ws rest : List (List Char)} {sign : Char} (hsign : isSign sign = true)
  (hrest : 2 ≤ rest.length)
include hsign hrest

theorem fieldsOfWords?_of_months
    (h : ∀ w ∈ ws.take 2, monthOfName? (lowerChars w) = none) :
    fieldsOfWords? (ws ++ [sign] :: rest) = none := by
  have hmonth := monthOfName?_sign hsign
  match ws, rest with
  | [], r₁ :: r₂ :: rest =>
    have hday : integer? (dropComma [sign]) = none := by
      obtain rfl | rfl := isSign_iff.1 hsign
      all_goals decide
    refine fieldsOfWords?_of_two ?_ fun yy tm tz => fieldsOf?_of_day hday hmonth
    cases rest with
    | nil =>
      obtain rfl | rfl := isSign_iff.1 hsign
      all_goals rfl
    | cons r₃ rest => exact spreadDate_of_length (by simp)
  | [w], r₁ :: r₂ :: rest =>
    exact fieldsOfWords?_of_two (spreadDate_of_length (by simp))
      fun yy tm tz => fieldsOf?_of_months (h w (by simp)) hmonth
  | w :: w' :: ws, rest =>
    rw [List.cons_append, List.cons_append]
    refine fieldsOfWords?_of_two (spreadDate_of_length ?_)
      fun yy tm tz => fieldsOf?_of_months (h w (by simp)) (h w' (by simp))
    simp only [List.length_cons, List.length_append]
    omega

theorem fieldsOfWords?_append {f : Fields} (hblank : ∀ w ∈ ws, ∀ c ∈ w, isBlank c = false)
    (h : fieldsOfWords? ws = some f) :
    fieldsOfWords? (ws ++ [sign] :: rest) =
      if addZone (spreadDate ws) = ws ∨ addZone (spreadDate ws) = ws ++ [[]] then some f
      else none := by
  -- By the number of words: of three the first is parted, of four the last.
  obtain ⟨r, rest, rfl⟩ := List.exists_cons_of_ne_nil (List.ne_nil_of_length_pos
    (Nat.lt_of_lt_of_le (by decide) hrest))
  match ws with
  | [] => cases h
  | [_] => cases h
  | [_, _] => cases h
  | [w, t, z] =>
    obtain ⟨hhyphen, hlength⟩ := hyphen_mem_of_three h
    have hparted : ¬ (addZone (spreadDate [w, t, z]) = [w, t, z] ∨
        addZone (spreadDate [w, t, z]) = [w, t, z] ++ [[]]) := by
      rintro (heq | heq)
      all_goals simp [heq] at hlength
    rw [if_neg hparted]
    exact (fieldsOfWords?_five w t z [sign] r rest).trans
      (fieldsOf?_of_hyphen hhyphen (hblank w List.mem_cons_self))
  | [a, b, c, w] =>
    have hspread : spreadDate [a, b, c, w] = [a, b, c, w] := rfl
    rcases addZone_four a b c w with hzone | ⟨u, x, y, rfl, hu, hx, hzone⟩
    · rw [fieldsOfWords?, hspread, hzone] at h
      rw [if_pos (.inr (by rw [hspread, hzone]; rfl))]
      exact (fieldsOfWords?_five a b c w [sign] (r :: rest)).trans
        ((fieldsOf?_sign hsign a b c w).trans h)
    · rw [fieldsOfWords?, hspread, hzone] at h
      rw [if_neg (by rw [hspread, hzone]; simp)]
      exact (fieldsOfWords?_five a b c _ [sign] (r :: rest)).trans
        (fieldsOf?_of_parted hsign hx hu (hblank _ (by simp)) h)
  | a :: b :: c :: d :: e :: r' =>
    have hsame : addZone (spreadDate (a :: b :: c :: d :: e :: r')) =
        a :: b :: c :: d :: e :: r' := by
      rw [spreadDate_of_length (by simp), addZone_of_length (by simp)]
    rw [if_pos (.inl hsame), ← h]
    exact (fieldsOfWords?_five a b c d e _).trans (fieldsOfWords?_five a b c d e r').symm

end

theorem fields?_before_sign {s r : List Char} {sign : Char} (hsign : isSign sign = true)
    (hs : words s ≠ []) : fields? (s ++ ' ' :: sign :: ' ' :: r) =
      fieldsOfWords? (dropDayName (words s) ++ [sign] :: words r) := by
  have hword : words [sign] = [[sign]] :=
    words_of_notBlank (by simp) (by simpa using isBlank_eq_false_of_isSign hsign)
  have hbehind : words (sign :: ' ' :: r) = [sign] :: words r := by
    rw [← List.singleton_append, words_append_cons (by decide), hword, List.singleton_append]
  rw [fields?_eq, words_append_cons (by decide), hbehind, dropDayName_append hs]

theorem NamesMonth.of_one_word {s : List Char} (h : NamesMonth s)
    (hblank : ∀ c ∈ trimChars s, isBlank c = false) (hcomma : ',' ∉ trimChars s) :
    monthOfName? (lowerChars (trimChars s)) ≠ none := by
  obtain ⟨w, hw, hmonth⟩ := h
  have hcut : cutLast ',' (trimChars s) = none := by
    rw [Option.eq_none_iff_forall_ne_some]
    rintro ⟨a, b⟩ hcut
    exact hcomma ((cutLast_eq_some hcut).1 ▸ List.mem_append_right a List.mem_cons_self)
  by_cases hne : trimChars s = []
  · rw [← words_trimChars, hne] at hw
    cases hw
  · rw [← words_trimChars, words_of_notBlank hne hblank, dropDayName, hcut] at hw
    split_ifs at hw
    · cases hw
    · obtain rfl : w = trimChars s := by simpa using hw
      exact hmonth

theorem mem_of_isNow {s : List Char} (h : isNow s = true) {c : Char}
    (hc : ∀ after rest, lowerAt after c rest = [c]) (hmem : c ∈ trimChars s) :
    c ∈ "now".toList := by
  rw [isNow, beq_iff_eq] at h
  rw [← h]
  exact mem_lowerFrom hc hmem false

theorem not_namesMonth_of_isNow {s : List Char} (h : isNow s = true) : ¬ NamesMonth s := by
  have hblank : ∀ c ∈ trimChars s, isBlank c = false := fun c hc => by
    have all : ∀ n ∈ blankCodes, Char.ofNat n ≠ 'Σ' ∧ Char.ofNat n ≠ 'İ' ∧
        lowerChar (Char.ofNat n) = Char.ofNat n ∧ Char.ofNat n ∉ "now".toList := by decide +kernel
    by_contra hc'
    have hcode := all c.toNat (toNat_mem_blankCodes (Bool.of_not_eq_false hc'))
    rw [Char.ofNat_toNat] at hcode
    exact hcode.2.2.2 (mem_of_isNow h (fun after rest => by
      rw [lowerAt, if_neg hcode.1, if_neg hcode.2.1, hcode.2.2.1]) hc)
  have hcomma : ',' ∉ trimChars s := fun hmem =>
    absurd (mem_of_isNow h (fun _ _ => rfl) hmem) (by decide)
  intro hmonth
  have hname := hmonth.of_one_word hblank hcomma
  rw [beq_iff_eq.1 h] at hname
  revert hname
  decide

theorem not_namesMonth_stampText (s : Stamp) : ¬ NamesMonth s.text := by
  have htrim : trimChars s.text = s.text := (Iso.trimmed_text s).trimChars_eq
  have hcomma : ',' ∉ s.text := fun h => absurd (Iso.mem_text h) (by decide)
  have hhyphen : '-' ∈ s.text := by
    simp [Iso.stampText_eq, Date.text]
  intro h
  refine h.of_one_word (htrim.symm ▸ fun _ => Iso.isBlank_of_mem_text) (htrim.symm ▸ hcomma) ?_
  rw [htrim]
  exact monthOfName?_of_mem (by decide) (mem_lowerFrom (fun _ _ => rfl) hhyphen false)

theorem namesMonth_text (t : DateTime) : NamesMonth (text t) := by
  refine ⟨monthTexts.getD (t.date.month - 1) [], ?_, ?_⟩
  · rw [words_text, dropDayName_textWords]
    exact List.mem_cons_of_mem _ List.mem_cons_self
  · rw [(monthOfName?_monthText t.date).2]
    exact Option.some_ne_none _

theorem inWholeWords_text (t : DateTime) : InWholeWords (text t) := by
  have hfive : (textWords t).tail.length = 5 := rfl
  rw [InWholeWords, words_text, dropDayName_textWords, spreadDate_of_length (by rw [hfive]; decide),
    addZone_of_length (by rw [hfive]; decide)]
  exact .inl rfl

end Calendar.Mail

end DavQuery
