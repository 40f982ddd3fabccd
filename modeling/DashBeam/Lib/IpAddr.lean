import DashBeam.Lib.BaseEncoding
import DashBeam.Lib.Trim

/-!
# Texts of IP addresses

Which texts are an IPv4 or an IPv6 address, and which of these are loopback addresses. A text in
brackets, as an IPv6 address stands in a URL, is none (`parseIpAddr_bracket`).
-/

namespace Lib

/-- An octet of an IPv4 address: up to three digits, without a zero in front. -/
def parseOctet (s : Text) : Option Nat :=
  if s = [] ∨ s.length > 3 ∨ ¬ s.all Char.isDigit ∨ (s.length > 1 ∧ s.head? = some '0') then none
  else
    let n := s.foldl (fun acc c => 10 * acc + (c.toNat - 48)) 0
    if n ≤ 255 then some n else none

def parseIpv4 (s : Text) : Option (List Nat) :=
  match s.splitOn '.' with
  | [a, b, c, d] =>
    match parseOctet a, parseOctet b, parseOctet c, parseOctet d with
    | some a, some b, some c, some d => some [a, b, c, d]
    | _, _, _, _ => none
  | _ => none

/-- A group of an IPv6 address: up to four hex digits. -/
def parseGroup (s : Text) : Option Nat :=
  if s = [] ∨ s.length > 4 ∨ ¬ s.all (fun c => (hexValue c).isSome) then none
  else some (s.foldl (fun acc c => 16 * acc + (hexValue c).getD 0) 0)

/-- Groups, the last of which may be an IPv4 address that stands for two. -/
def parseGroups (ipv4 : Bool) : List Text → Option (List Nat)
  | [] => some []
  | [last] =>
    match parseGroup last with
    | some group => some [group]
    | none =>
      match ipv4, parseIpv4 last with
      | true, some [a, b, c, d] => some [256 * a + b, 256 * c + d]
      | _, _ => none
  | first :: rest =>
    match parseGroup first, parseGroups ipv4 rest with
    | some group, some groups => some (group :: groups)
    | _, _ => none

/-- The text before and after the first `::`. -/
def splitCompressed : Text → Option (Text × Text)
  | [] => none
  | [_] => none
  | c :: d :: rest =>
    if c = ':' ∧ d = ':' then some ([], rest)
    else (splitCompressed (d :: rest)).map fun parts => (c :: parts.1, parts.2)

def parsePart (ipv4 : Bool) (s : Text) : Option (List Nat) :=
  if s = [] then some [] else parseGroups ipv4 (s.splitOn ':')

def parseIpv6 (s : Text) : Option (List Nat) :=
  match splitCompressed s with
  | none => (parsePart true s).filter fun groups => groups.length == 8
  | some (front, back) =>
    match parsePart false front, parsePart true back with
    | some front, some back =>
      if front.length + back.length ≤ 7 then
        some (front ++ List.replicate (8 - front.length - back.length) 0 ++ back)
      else none
    | _, _ => none

inductive IpAddr
  | v4 (octets : List Nat)
  | v6 (groups : List Nat)
  deriving DecidableEq, Repr

def parseIpAddr (s : Text) : Option IpAddr :=
  match parseIpv4 s with
  | some octets => some (.v4 octets)
  | none => (parseIpv6 s).map .v6

def IpAddr.isLoopback : IpAddr → Bool
  | .v4 octets => octets.head? == some 127
  | .v6 groups => groups == [0, 0, 0, 0, 0, 0, 0, 1]

example : parseIpAddr "::1".toList = some (.v6 [0, 0, 0, 0, 0, 0, 0, 1]) := by decide +kernel

/-! ## Brackets -/

theorem parseOctet_bracket (s : Text) : parseOctet ('[' :: s) = none := by
  rw [parseOctet, if_pos]
  exact Or.inr (Or.inr (Or.inl (by simp)))

theorem parseGroup_bracket (s : Text) : parseGroup ('[' :: s) = none := by
  have hbracket : hexValue '[' = none := by decide
  rw [parseGroup, if_pos]
  exact Or.inr (Or.inr (by simp [hbracket]))

theorem splitOn_bracket {c : Char} (hc : c ≠ '[') (s : Text) :
    ∃ first rest, ('[' :: s).splitOn c = ('[' :: first) :: rest := by
  have hhead := head?_splitOn c ('[' :: s)
  rw [List.takeWhile_cons, if_pos (by simpa using hc.symm)] at hhead
  cases hsplit : ('[' :: s).splitOn c with
  | nil => exact absurd hsplit (List.splitOn_ne_nil _ _)
  | cons piece rest =>
    rw [hsplit] at hhead
    exact ⟨_, rest, by rw [Option.some.inj hhead]⟩

theorem parseIpv4_bracket (s : Text) : parseIpv4 ('[' :: s) = none := by
  obtain ⟨first, rest, hsplit⟩ := splitOn_bracket (show '.' ≠ '[' by decide) s
  rw [parseIpv4, hsplit]
  split
  · rename_i heq
    rw [← (List.cons.inj heq).1, parseOctet_bracket]
  · rfl

theorem parseGroups_bracket (ipv4 : Bool) (first : Text) (rest : List Text) :
    parseGroups ipv4 (('[' :: first) :: rest) = none := by
  cases rest with
  | nil => simp [parseGroups, parseGroup_bracket, parseIpv4_bracket]
  | cons next rest => simp [parseGroups, parseGroup_bracket]

theorem parsePart_bracket (ipv4 : Bool) (s : Text) : parsePart ipv4 ('[' :: s) = none := by
  obtain ⟨first, rest, hsplit⟩ := splitOn_bracket (show ':' ≠ '[' by decide) s
  rw [parsePart, if_neg (List.cons_ne_nil _ _), hsplit, parseGroups_bracket]

theorem parseIpAddr_bracket (s : Text) : parseIpAddr ('[' :: s) = none := by
  have hv6 : parseIpv6 ('[' :: s) = none := by
    rw [parseIpv6]
    cases s with
    | nil => rfl
    | cons d s =>
      rw [splitCompressed, if_neg (fun hcolons => absurd hcolons.1 (by decide))]
      cases splitCompressed (d :: s) with
      | none => simp only [Option.map_none, parsePart_bracket, Option.filter_none]
      | some parts => simp only [Option.map_some, parsePart_bracket]
  rw [parseIpAddr, parseIpv4_bracket, hv6]
  rfl

end Lib
