import Keyline.CommandLine.Grammar

/-!
# Addresses

A server listens at a host under a service number, written with a colon between them.

A host is written as a number of version 4 or 6 of the protocol, or it is the name that every
machine has for itself. A number of version 4 may be written in fewer than four parts and in other
bases than ten. A number of version 6 may be followed by the number of a zone, which says through
which network it is reached and does not change what host it is.
-/
namespace Keyline

inductive Host
  | v4 (number : Nat)
  /-- Eight groups of sixteen bits. -/
  | v6 (groups : List Nat)
  deriving Repr, DecidableEq

namespace Host

/-- Reads digits of some base; letters go on after nine. -/
def digits? (base : Nat) (cs : List Char) : Option Nat :=
  cs.foldl
    (fun n c => n.bind fun n =>
      let d := if c.isDigit then c.toNat - '0'.toNat else c.toLower.toNat - 'a'.toNat + 10
      if c.isAlphanum && d < base then some (n * base + d) else none)
    (some 0)

/-- Reads a part of a host of version 4: after `0x` it is hexadecimal, after `0` it is octal. -/
def part? : List Char → Option Nat
  | [] => none
  | '0' :: cs =>
    match cs with
    | 'x' :: d :: ds | 'X' :: d :: ds => digits? 16 (d :: ds)
    | ds => digits? 8 ds
  | ds => digits? 10 ds

/-- The number with these parts: one to four, each a byte but the last, which fills the bytes that
are left. -/
def ofParts? (parts : List Nat) : Option Nat :=
  match parts.reverse with
  | [] => none
  | last :: front =>
    if front.length < 4 ∧ (∀ n ∈ front, n < 256) ∧ last < Nat.pow 256 (4 - front.length) then
      some (front.foldr (fun n v => v * 256 + n) 0 * Nat.pow 256 (4 - front.length) + last)
    else none

def v4? (cs : List Char) : Option Nat := ((cs.splitOnP (· = '.')).mapM part?).bind ofParts?

/-- The two groups of a number that is written with four decimal parts. -/
def dotted? (cs : List Char) : Option (List Nat) :=
  let parts := cs.splitOnP (· = '.')
  if parts.length = 4 ∧ ∀ ds ∈ parts, ds ≠ [] ∧ ds.length ≤ 3 ∧ (ds.head? = some '0' → ds = ['0'])
  then
    ((parts.mapM (digits? 10)).bind ofParts?).map fun n => [n / UInt16.size, n % UInt16.size]
  else none

/-- Reads groups with colons between them; the last two may be dotted. -/
def groups? : List (List Char) → Option (List Nat)
  | [] => some []
  | ds :: rest =>
    if rest = [] ∧ '.' ∈ ds then dotted? ds
    else if ds ≠ [] ∧ ds.length ≤ 4 then
      match digits? 16 ds, groups? rest with
      | some g, some gs => some (g :: gs)
      | _, _ => none
    else none

/-- What stands before and after the first two colons in a row. -/
def cutGap : List Char → Option (List Char × List Char)
  | ':' :: ':' :: cs => some ([], cs)
  | c :: cs => (cutGap cs).map fun r => (c :: r.1, r.2)
  | [] => none

/-- Pieces between colons; an empty text has none. -/
def pieces (cs : List Char) : List (List Char) :=
  if cs = [] then [] else cs.splitOnP (· = ':')

/-- Reads a host of version 6; two colons stand for one or more groups that are zero. -/
def v6? (cs : List Char) : Option (List Nat) :=
  match cutGap cs with
  | none => (groups? (pieces cs)).filter (·.length = 8)
  | some (before, after) =>
    match groups? (pieces before), groups? (pieces after) with
    | some gs, some hs =>
      if '.' ∉ before ∧ gs.length + hs.length < 8 then
        some (gs ++ List.replicate (8 - gs.length - hs.length) 0 ++ hs)
      else none
    | _, _ => none

def unbracket (cs : List Char) : List Char :=
  if cs.head? = some '[' ∧ cs.getLast? = some ']' then (cs.drop 1).dropLast else cs

/-- The text before a percent sign and the number of a zone; all of a text without that sign. -/
def beforeZone? (cs : List Char) : Option (List Char) :=
  match cs.dropWhile (· ≠ '%') with
  | [] => some cs
  | _ :: zone =>
    if zone ≠ [] ∧ (digits? 10 zone).any (· < UInt32.size) then some (cs.takeWhile (· ≠ '%'))
    else none

def ofText? (s : String) : Option Host :=
  if s.toList.map Char.toLower = "localhost".toList then some (.v4 (0x7F000001))
  else
    match v4? s.toList with
    | some n => some (.v4 n)
    | none => ((beforeZone? (unbracket s.toList)).bind v6?).map .v6

/-- The host of version 4 that is meant, for hosts of version 6 that stand for one. -/
def mapped? : Host → Option Nat
  | .v4 n => some n
  | .v6 [0, 0, 0, 0, 0, 0xFFFF, a, b] => some (a * UInt16.size + b)
  | .v6 _ => none

def isUnspecified : Host → Bool
  | .v4 n => n = 0
  | .v6 gs => gs.all (· = 0)

end Host

structure Address where
  host : String
  service : Nat
  deriving Repr, DecidableEq

namespace Address

def cutLast (cs : List Char) : Option (List Char × List Char) :=
  let tail := cs.reverse.takeWhile (· ≠ ':')
  if tail.length < cs.length then some (cs.take (cs.length - tail.length - 1), tail.reverse)
  else none

/-- Reads the service number after a host; it has no sign if the host is in brackets. -/
def service? (host cs : List Char) : Option Nat :=
  if host.head? = some '[' ∧ cs.head? = some '+' then none
  else CommandLine.unsigned? UInt16.size (String.ofList cs)

def ofText? (s : String) : Option Address :=
  match cutLast s.toList with
  | none => none
  | some (host, cs) => (service? host cs).map fun n => ⟨String.ofList host, n⟩

def host? (a : Address) : Option Host := Host.ofText? a.host

end Address
end Keyline
