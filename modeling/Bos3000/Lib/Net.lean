import Mathlib.Tactic.Common

-- IP addresses and CIDR blocks in text, as Go's net package reads and writes them.
namespace Net

-- net.IP in its 16-byte form, where an IPv4 address is mapped into ::ffff:0:0/96.
abbrev IP := BitVec 128

def v4InV6 (v : BitVec 32) : IP := v.setWidth 128 ||| (0xffff : IP) <<< 32

-- IP.To4
def to4 (ip : IP) : Option (BitVec 32) :=
  if ip >>> 32 = 0xffff then some (ip.setWidth 32) else none

def digitValue (c : Char) : Option Nat :=
  if '0' ≤ c ∧ c ≤ '9' then some (c.toNat - '0'.toNat)
  else if 'a' ≤ c ∧ c ≤ 'f' then some (c.toNat - 'a'.toNat + 10)
  else if 'A' ≤ c ∧ c ≤ 'F' then some (c.toNat - 'A'.toNat + 10)
  else none

def number (base : Nat) (digits : List Char) : Nat :=
  digits.foldl (fun n c => base * n + (digitValue c).getD 0) 0

-- A field of a dotted address: one to three digits without a leading zero, up to 255.
def octet (field : List Char) : Option (BitVec 8) :=
  if field ≠ [] ∧ field.all Char.isDigit ∧ (field.head? = some '0' → field.length = 1) ∧
      number 10 field ≤ 255 then
    some (BitVec.ofNat 8 (number 10 field))
  else none

def parseIPv4 (s : List Char) : Option (BitVec 32) :=
  match (s.splitOn '.').mapM octet with
  | some [a, b, c, d] => some (a ++ b ++ c ++ d)
  | _ => none

-- The groups of an IPv6 address, at most `n` more, and where the ellipsis stands
-- among them. A dotted address may take the place of the last two.
def groups : Nat → List Char → List (BitVec 16) → Option Nat → Option (List (BitVec 16) × Option Nat)
  | 0, s, found, ellipsis => if s = [] then some (found, ellipsis) else none
  | n + 1, s, found, ellipsis =>
      let digits := s.takeWhile fun c => (digitValue c).isSome
      let next := found ++ [BitVec.ofNat 16 (number 16 digits)]
      if digits = [] ∨ 4 < digits.length then none
      else
        match s.drop digits.length with
        | [] => some (next, ellipsis)
        | '.' :: _ =>
            if ellipsis = none ∧ found.length ≠ 6 ∨ 6 < found.length then none
            else (parseIPv4 s).map fun v => (found ++ [v.extractLsb' 16 16, v.setWidth 16], ellipsis)
        | ':' :: ':' :: rest =>
            if ellipsis.isSome then none
            else if rest = [] then some (next, some next.length)
            else groups n rest next (some next.length)
        | ':' :: rest => if rest = [] then none else groups n rest next ellipsis
        | _ => none

-- The ellipsis stands for at least one group of zeros.
def expand : List (BitVec 16) × Option Nat → Option (List (BitVec 16))
  | (found, none) => if found.length = 8 then some found else none
  | (found, some gap) =>
      if found.length < 8 then
        some (found.take gap ++ List.replicate (8 - found.length) 0 ++ found.drop gap)
      else none

def ofGroups (gs : List (BitVec 16)) : IP := gs.foldl (fun ip g => ip <<< 16 ||| g.setWidth 128) 0

def parseIPv6 (s : List Char) : Option IP :=
  let found := match s with
    | ':' :: ':' :: rest => if rest = [] then some ([], some 0) else groups 8 rest [] (some 0)
    | s => groups 8 s [] none
  (found.bind expand).map ofGroups

-- netip.ParseAddr without zones: the address and its length in bits.
def parseAddr (s : List Char) : Option (IP × Nat) :=
  match s.find? fun c => c = '.' ∨ c = ':' ∨ c = '%' with
  | some '.' => (parseIPv4 s).map fun v => (v4InV6 v, 32)
  | some ':' => (parseIPv6 s).map fun ip => (ip, 128)
  | _ => none

def parseIP (s : String) : Option IP := (parseAddr s.toList).map Prod.fst

def v4Text (v : BitVec 32) : String :=
  ".".intercalate ([24, 16, 8, 0].map fun i => toString (v.extractLsb' i 8).toNat)

def toGroups (ip : IP) : List (BitVec 16) :=
  [112, 96, 80, 64, 48, 32, 16, 0].map fun i => ip.extractLsb' i 16

-- The first of the longest runs of at least two groups of zeros: where it starts,
-- and its length.
def zeroRun (gs : List (BitVec 16)) : Option (Nat × Nat) :=
  (List.range gs.length).foldl (fun best i =>
    let length := ((gs.drop i).takeWhile (· = 0)).length
    if 2 ≤ length ∧ (best.map Prod.snd).getD 0 < length then some (i, length) else best) none

def groupsText (gs : List (BitVec 16)) : String :=
  ":".intercalate (gs.map fun g => String.ofList (Nat.toDigits 16 g.toNat))

def v6Text (ip : IP) : String :=
  match zeroRun (toGroups ip) with
  | none => groupsText (toGroups ip)
  | some (start, length) =>
      groupsText ((toGroups ip).take start) ++ "::" ++ groupsText ((toGroups ip).drop (start + length))

-- IP.String
def text (ip : IP) : String :=
  match to4 ip with
  | some v => v4Text v
  | none => v6Text ip

-- net.IPNet, whose address and mask have the length of the address in the text.
inductive IPNet
  | v4 (ip mask : BitVec 32)
  | v6 (ip mask : IP)

def cidrMask (n bits : Nat) : BitVec bits := BitVec.allOnes bits <<< (bits - n)

def parseCIDR (s : String) : Option IPNet :=
  match s.toList.span (· ≠ '/') with
  | (addr, '/' :: mask) =>
      if mask ≠ [] ∧ mask.all Char.isDigit then
        match parseAddr addr with
        | some (ip, bits) =>
            if bits < number 10 mask then none
            else if bits = 32 then
              let m := cidrMask (number 10 mask) 32
              some (.v4 (ip.setWidth 32 &&& m) m)
            else
              let m := cidrMask (number 10 mask) 128
              some (.v6 (ip &&& m) m)
        | none => none
      else none
  | _ => none

def IPNet.contains : IPNet → IP → Bool
  | .v4 nn m, ip =>
      match to4 ip with
      | some x => nn &&& m = x &&& m
      | none => false
  | .v6 nn m, ip =>
      match to4 nn, to4 ip with
      | some nn, some x => nn &&& m.setWidth 32 = x &&& m.setWidth 32
      | none, none => nn &&& m = ip &&& m
      | _, _ => false

example : (parseIP "2001:DB8:0:0:1::0.0.0.1").map text = some "2001:db8::1:0:0:1" := by decide +kernel

end Net
