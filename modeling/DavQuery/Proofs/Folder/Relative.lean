import DavQuery.Proofs.Folder.UrlPath

/-! Paths below a person's root. The path in an address is read back as the path below the root,
whatever it holds, since the first root that is found is the one in front of it. Behind one and the
same root two paths name the same thing exactly if they are the same path. -/

namespace DavQuery.Folder
open Text

theorem cutAt_append {needle : List Char} (hne : needle ≠ []) (r : List Char) :
    cutAt needle (needle ++ r) = some ([], r) := by
  obtain ⟨c, rest, rfl⟩ := List.exists_cons_of_ne_nil hne
  have hprefix : (c :: rest).isPrefixOf (c :: rest ++ r) = true :=
    List.isPrefixOf_iff_prefix.2 (List.prefix_append ..)
  rw [List.cons_append] at hprefix ⊢
  rw [cutAt, if_pos hprefix]
  simp

theorem belowRoot_append {user : List Char} (h : '/' ∉ user) (r : List Char) :
    belowRoot (filesRoot ++ user ++ '/' :: r) = '/' :: r := by
  have hne : filesRoot ≠ [] := by decide
  simp only [belowRoot, List.append_assoc, cutAt_append hne, cutFirst_append h]

theorem closeChars_append_replicate {s : List Char} (hne : s ≠ []) (hlast : s.getLast? ≠ some '/')
    (n : Nat) : closeChars (s ++ List.replicate n '/') = s := by
  have hroot : s ++ List.replicate n '/' ≠ ['/'] := by
    intro e
    obtain ⟨c, r, rfl⟩ := List.exists_cons_of_ne_nil hne
    obtain ⟨rfl, hr⟩ : c = '/' ∧ r ++ List.replicate n '/' = [] := by simpa using e
    obtain ⟨rfl, -⟩ := List.append_eq_nil_iff.1 hr
    exact hlast rfl
  rw [closeChars, if_neg hroot, dropSlashes_append_replicate hlast]
  simp [hne]

theorem closeChars_replicate (n : Nat) : closeChars (List.replicate (n + 1) '/') = ['/'] := by
  have hdrop : dropSlashes (List.replicate (n + 1) '/') = [] := by
    simpa using dropSlashes_append_replicate (s := []) (by simp) (n + 1)
  unfold closeChars
  rw [hdrop]
  split_ifs with hroot
  · exact hroot
  · rfl
  · simp at *

theorem closeChars_slash_append_replicate {core : List Char} (h : Bare core) (n : Nat) :
    closeChars ('/' :: (core ++ List.replicate n '/')) = '/' :: core := by
  by_cases hcore : core = []
  · rw [hcore, List.nil_append, ← List.replicate_succ, closeChars_replicate]
  · have hlast : ('/' :: core).getLast? ≠ some '/' := by
      rw [List.getLast?_cons_of_ne_nil hcore]
      exact h.2
    exact closeChars_append_replicate (by simp) hlast n

theorem trimSlashes_of_bare_self {s : List Char} (h : Bare s) : trimSlashes s = s := by
  simpa using trimSlashes_of_bare h 0 0

/-- The root, the person's name and a path in an address, with slashes at the end. -/
def rootedChars (user path : List Char) (n : Nat) : List Char :=
  filesRoot ++ Percent.encode user ++ urlPathChars path ++ List.replicate n '/'

theorem decode_rootedChars (user path : List Char) (n : Nat) :
    Percent.decode (rootedChars user path n) =
      filesRoot ++ user ++ '/' :: (trimSlashes path ++ List.replicate n '/') := by
  have hroot : Percent.Spells IsPathPlain filesRoot filesRoot :=
    Percent.spells_self (List.forall_iff_forall_mem.1 (by decide))
  have huser := (Percent.spells_encode user).mono fun c hc => (.inr hc : IsPathPlain c)
  have hspells := (hroot.append huser).append (spells_urlPathChars path)
  rw [rootedChars, hspells.decode_append (by decide), Percent.decode_replicate_slash]
  simp

theorem relativeChars_rootedChars {user : List Char} (h : '/' ∉ user) (path : List Char) (n : Nat) :
    relativeChars (rootedChars user path n) = '/' :: trimSlashes path := by
  rw [relativeChars, decode_rootedChars, belowRoot_append h,
    closeChars_slash_append_replicate (bare_trimSlashes path)]

theorem canonical_append_urlPathChars (root path : List Char) :
    canonical (root ++ urlPathChars path) =
      if trimSlashes path = [] then dropSlashes (Percent.decode root)
      else Percent.decode root ++ '/' :: trimSlashes path := by
  obtain ⟨rest, hrest⟩ := exists_urlPathChars_eq_cons path
  -- No escape that the root leaves open goes on past the slash.
  have hdecode : Percent.decode (root ++ urlPathChars path) =
      Percent.decode root ++ '/' :: trimSlashes path := by
    have hpath := decode_urlPathChars path
    rw [hrest, Percent.decode_cons_slash] at hpath
    rw [hrest, Percent.decode_append_slash, hpath]
  rw [canonical, hdecode]
  split_ifs with hcore
  · rw [hcore]
    exact List.rdropWhile_concat_pos (· == '/') _ '/' (by simp)
  · refine dropSlashes_eq_self ?_
    rw [List.getLast?_append_of_ne_nil _ (by simp), List.getLast?_cons_of_ne_nil hcore]
    exact (bare_trimSlashes path).2

theorem canonical_append_urlPathChars_eq_iff {root p q : List Char} :
    canonical (root ++ urlPathChars p) = canonical (root ++ urlPathChars q) ↔
      trimSlashes p = trimSlashes q := by
  -- The root alone is shorter than the root with a path behind it.
  have hshort (core : List Char) :
      dropSlashes (Percent.decode root) ≠ Percent.decode root ++ '/' :: core := fun e => by
    have hle := (List.rdropWhile_prefix (· == '/') (Percent.decode root)).length_le
    have hlength := congrArg List.length e
    rw [List.length_append, List.length_cons] at hlength
    change (dropSlashes (Percent.decode root)).length ≤ _ at hle
    omega
  rw [canonical_append_urlPathChars, canonical_append_urlPathChars]
  split_ifs with hp hq hq
  · simp [hp, hq]
  · simpa [hp, Ne.symm hq] using hshort _
  · simpa [hq, hp] using (hshort _).symm
  · simp

/-- The path in the address of something below a person's root, with or without slashes at its end,
is read back, and has the address that it came from. Behind any root two paths name the same thing
exactly if they differ in slashes at their ends only. -/
theorem path_told_by_address {user : String} (h : '/' ∉ user.toList) (path : String) (n : Nat)
    (root other : String) :
    let address := "/remote.php/dav/files/" ++ String.ofList (Percent.encode user.toList) ++
      urlPath path ++ String.ofList (List.replicate n '/')
    relative address = "/" ++ String.ofList (trimSlashes path.toList) ∧
    urlPath (relative address) = urlPath path ∧
    (same (root ++ urlPath path) (root ++ urlPath other) = true ↔
      trimSlashes path.toList = trimSlashes other.toList) := by
  intro address
  have haddress : address.toList = rootedChars user.toList path.toList n := by
    simp only [address, String.toList_append, String.toList_ofList, urlPath]
    rfl
  have hrelative : (relative address).toList = '/' :: trimSlashes path.toList := by
    rw [relative, String.toList_ofList, haddress, relativeChars_rootedChars h]
  refine ⟨?_, ?_, ?_⟩
  · rw [← String.toList_inj, hrelative]
    simp
  · have htrim : trimSlashes (relative address).toList = trimSlashes path.toList := by
      rw [hrelative, trimSlashes_cons_slash, trimSlashes_of_bare_self (bare_trimSlashes _)]
    rw [urlPath, urlPath, Client.urlPathChars_congr htrim]
  · rw [same, beq_iff_eq, String.toList_append, String.toList_append, urlPath, urlPath,
      String.toList_ofList, String.toList_ofList, canonical_append_urlPathChars_eq_iff]

theorem path_told_by_address_of_root :
    let address := "/remote.php/dav/files/a%20b/x/remote.php/dav/files/y%2541//"
    relative address = "/x/remote.php/dav/files/y%41" ∧
      urlPath (relative address) = "/x/remote.php/dav/files/y%2541" ∧
      same ("/%C3" ++ urlPath "x/") ("/%C3" ++ urlPath "/x") = true ∧
      same ("/%C3" ++ urlPath "x/") ("/%C3" ++ urlPath "/") = false := by
  have haddress : "/remote.php/dav/files/" ++ String.ofList (Percent.encode "a b".toList) ++
      urlPath "/x/remote.php/dav/files/y%41" ++ String.ofList (List.replicate 2 '/') =
        "/remote.php/dav/files/a%20b/x/remote.php/dav/files/y%2541//" := by decide +kernel
  have huser : '/' ∉ "a b".toList := by decide
  obtain ⟨hrelative, hback, -⟩ := path_told_by_address huser "/x/remote.php/dav/files/y%41" 2 "" ""
  have hsame (other : String) := (path_told_by_address huser "x/" 0 "/%C3" other).2.2
  rw [haddress] at hrelative hback
  refine ⟨hrelative.trans (by decide +kernel), hback.trans (by decide +kernel),
    (hsame "/x").2 (by decide), ?_⟩
  rw [Bool.eq_false_iff, ne_eq, hsame "/"]
  decide

end DavQuery.Folder
