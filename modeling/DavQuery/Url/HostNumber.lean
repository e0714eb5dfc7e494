import DavQuery.Text.Digit
import DavQuery.Text.Integer
import DavQuery.Text.Pieces

/-!
Hosts that are given by number: four numbers of eight bits, or eight groups of sixteen bits with at
most one run of zero groups left out.
-/

namespace DavQuery.Url

open Text

def isOctet (s : List Char) : Bool :=
  !s.isEmpty && s.length ≤ 3 && s.all Char.isDigit && (s == ['0'] || s.head? != some '0') &&
    ofDigits (s.map fun c => c.toNat - 48) ≤ 255

def isShortNumber (s : List Char) : Bool :=
  let parts := s.splitOn '.'
  parts.length == 4 && parts.all isOctet

def isGroup (s : List Char) : Bool :=
  !s.isEmpty && s.length ≤ 4 && s.all fun c => (hexValue? c).isSome

/-- The groups with the four numbers at their end, if there are any, as two groups. -/
def withoutShortEnd? (parts : List (List Char)) : Option (List (List Char)) :=
  match parts.getLast? with
  | some l =>
    if l.contains '.' then
      if isShortNumber l then some (parts.dropLast ++ [['0'], ['0']]) else none
    else some parts
  | none => none

/-- Whether the parts, of which the `i`-th is empty, are groups around a run that is left out. -/
def areGroupsAround (i : Nat) (parts : List (List Char)) : Bool :=
  let before := parts.take i
  let behind := parts.drop (i + 1)
  let before := if before == [[]] then [] else before
  let behind := if behind == [[]] then [] else behind
  before.length + behind.length ≤ 7 && (before ++ behind).all isGroup

def isLongNumber (s : List Char) : Bool :=
  let parts := s.splitOn ':'
  if parts.length < 3 then false
  else
    match withoutShortEnd? parts with
    | none => false
    | some parts =>
      let empty := (List.range parts.length).filter fun i =>
        0 < i && i + 1 < parts.length && (parts.getD i []).isEmpty
      match empty with
      | [] => parts.length == 8 && parts.all isGroup
      | [i] => parts.length ≤ 9 && areGroupsAround i parts
      | _ => false

def isZonedNumber (s : List Char) : Bool :=
  if s.contains '/' then false
  else
    match cutFirst '%' s with
    | none => isLongNumber s
    | some (number, zone) => !zone.isEmpty && !zone.contains '%' && isLongNumber number

end DavQuery.Url
