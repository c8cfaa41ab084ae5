import HeyServer.Lib.Decimal

/-!
# IP addresses and their text

Reading of address literals, with an optional zone, and address blocks in CIDR form.
An address is a bit vector of 32 or 128 bits; an IPv4 address also has a 128-bit form
behind the block `::ffff:0:0/96`.

## Implementation notes

Reading follows Go's `netip.ParseAddr`: decimal octets without leading zeros, hex groups
of at most four digits, one `::` for at least one group, a dotted quad in place of the
last two groups. `IpNet.contains` follows `net.IPNet.Contains`, where an address that has
a 32-bit form is compared in that form only.
-/

namespace HeyServer.Lib.IpAddr
open Json (isDigit)

/-! ## Addresses -/

/-- An address literal. -/
inductive Addr
  | v4 (bits : BitVec 32)
  | v6 (bits : BitVec 128) (zone : Bytes)
  deriving DecidableEq

namespace Addr

/-- The 128-bit form. -/
def as16 : Addr → BitVec 128
  | v4 bits => 0xFFFF#96 ++ bits
  | v6 bits _ => bits

def zone : Addr → Bytes
  | v4 _ => []
  | v6 _ zone => zone

end Addr

/-! ## Reading -/

/-- The loop over the octets: the octets read, the value of the current one and how many
digits it has. -/
def ipv4Octets : Bytes → List Nat → Nat → Nat → Option (List Nat)
  | [], octets, val, _ => if octets.length < 3 then none else some (octets ++ [val])
  | b :: rest, octets, val, digits =>
    if isDigit b then
      if digits = 1 ∧ val = 0 then none
      else
        let val := Decimal.step val b
        if 255 < val then none else ipv4Octets rest octets val (digits + 1)
    else if b = 0x2E then
      if digits = 0 ∨ rest = [] then none
      else if octets.length = 3 then none
      else ipv4Octets rest (octets ++ [val]) 0 0
    else none

def ofBytes (w : Nat) (bytes : List Nat) : BitVec w :=
  BitVec.ofNat w (bytes.foldl (fun acc b => acc * 256 + b) 0)

variable (s : Bytes)

def parseIPv4 : Option Addr :=
  (ipv4Octets s [] 0 0).map fun octets => .v4 (ofBytes 32 octets)

def hexValue (b : UInt8) : Option Nat :=
  if 0x30 ≤ b ∧ b ≤ 0x39 then some (b.toNat - 0x30)
  else if 0x61 ≤ b ∧ b ≤ 0x66 then some (b.toNat - 0x57)
  else if 0x41 ≤ b ∧ b ≤ 0x46 then some (b.toNat - 0x37)
  else none

/-- A group of one to four hex digits and what follows it. -/
def hexGroup : Option (Nat × Bytes) :=
  let digits := s.takeWhile fun b => (hexValue b).isSome
  if digits = [] ∨ 4 < digits.length then none
  else some (digits.foldl (fun acc b => acc * 16 + (hexValue b).getD 0) 0, s.drop digits.length)

/-- The loop over the groups, with room for so many: the bytes read, the place of `::`. -/
def ipv6Groups : Nat → Bytes → List Nat → Option Nat → Option (Bytes × List Nat × Option Nat)
  | 0, s, ip, ellipsis => some (s, ip, ellipsis)
  | room + 1, s, ip, ellipsis =>
    match hexGroup s with
    | none => none
    | some (acc, rest) =>
      if rest.head? = some 0x2E then
        if ellipsis = none ∧ ip.length ≠ 12 then none
        else if 16 < ip.length + 4 then none
        else (ipv4Octets s [] 0 0).map fun octets => ([], ip ++ octets, ellipsis)
      else
        let ip := ip ++ [acc / 256, acc % 256]
        match rest with
        | [] => some ([], ip, ellipsis)
        | [_] => none
        | c :: d :: rest =>
          if c ≠ 0x3A then none
          else if d = 0x3A then
            if ellipsis.isSome then none
            else if rest = [] then some ([], ip, some ip.length)
            else ipv6Groups room rest ip (some ip.length)
          else ipv6Groups room (d :: rest) ip ellipsis

/-- `::` stands for the groups that are missing, at least one. -/
def expandEllipsis (ip : List Nat) : Option Nat → Option (List Nat)
  | none => if ip.length < 16 then none else some ip
  | some place =>
    if ip.length < 16 then
      some (ip.take place ++ List.replicate (16 - ip.length) 0 ++ ip.drop place)
    else none

/-- The text of an address without its zone. -/
def parseGroups : Option (BitVec 128) :=
  let start := if s.take 2 = [0x3A, 0x3A] then (s.drop 2, some 0) else (s, none)
  if start = ([], some 0) then some 0
  else
    match ipv6Groups 8 start.1 [] start.2 with
    | some ([], ip, ellipsis) => (expandEllipsis ip ellipsis).map (ofBytes 128)
    | _ => none

def parseIPv6 : Option Addr :=
  let text := s.takeWhile fun b => b ≠ 0x25
  let zone := s.drop (text.length + 1)
  if text.length < s.length ∧ zone = [] then none
  else (parseGroups text).map fun bits => .v6 bits zone

/-- `netip.ParseAddr` -/
def parseAddr : Option Addr :=
  match s.find? fun b => b = 0x2E || b = 0x3A || b = 0x25 with
  | some b => if b = 0x2E then parseIPv4 s else if b = 0x3A then parseIPv6 s else none
  | none => none

/-- `net.ParseIP`: an address with a zone is no IP address. -/
def parseIP : Option (BitVec 128) :=
  ((parseAddr s).filter fun a => a.zone = []).map Addr.as16

example : parseIP (ascii "10.0.0.1") = some 0xFFFF0A000001 ∧
    parseIP (ascii "::ffff:10.0.0.1") = some 0xFFFF0A000001 ∧
    parseIP (ascii "fe80::1") = some 0xFE800000000000000000000000000001 ∧
    parseIP (ascii "fe80::1%eth0") = none ∧ parseIP (ascii "010.0.0.1") = none ∧
    parseIP (ascii "1::2::3") = none ∧ parseIP (ascii "1:2:3:4:5:6:7::") =
      some 0x00010002000300040005000600070000 := by decide +kernel

theorem parseIP_eq_some {s : Bytes} {bits : BitVec 128} :
    parseIP s = some bits ↔ ∃ a, parseAddr s = some a ∧ a.zone = [] ∧ a.as16 = bits := by
  simp [parseIP, Option.filter_eq_some_iff, and_assoc]

/-! ## Address blocks -/

/-- `net.IP` with four or sixteen bytes. -/
inductive IP
  | v4 (bits : BitVec 32)
  | v6 (bits : BitVec 128)
  deriving DecidableEq

/-- `To4`: the 32-bit form, if there is one. -/
def IP.to4 : IP → Option (BitVec 32)
  | .v4 bits => some bits
  | .v6 bits => if bits.extractLsb' 32 96 = 0xFFFF#96 then some (bits.setWidth 32) else none

/-- A block with its mask, of four or sixteen bytes. -/
structure IpNet where
  ip : IP
  mask : IP
  deriving DecidableEq

/-- `net.CIDRMask` -/
def cidrMask (ones w : Nat) : BitVec w := BitVec.allOnes w <<< (w - ones)

/-- `net.ParseCIDR` -/
def parseCIDR : Option IpNet :=
  let text := s.takeWhile fun b => b ≠ 0x2F
  match parseAddr text, Decimal.parseNat (s.drop (text.length + 1)) with
  | some (.v4 bits), some n =>
    if 32 < n then none else some ⟨.v4 (bits &&& cidrMask n 32), .v4 (cidrMask n 32)⟩
  | some (.v6 bits []), some n =>
    if 128 < n then none else some ⟨.v6 (bits &&& cidrMask n 128), .v6 (cidrMask n 128)⟩
  | _, _ => none

/-- `networkNumberAndMask` -/
def IpNet.number (net : IpNet) : Option IpNet :=
  match net.ip.to4, net.ip, net.mask with
  | some bits, _, .v4 mask => some ⟨.v4 bits, .v4 mask⟩
  | some bits, _, .v6 mask => some ⟨.v4 bits, .v4 (mask.setWidth 32)⟩
  | none, .v6 bits, .v6 mask => some ⟨.v6 bits, .v6 mask⟩
  | none, _, _ => none

/-- `IPNet.Contains` -/
def IpNet.contains (net : IpNet) (ip : IP) : Bool :=
  match net.number, ip.to4, ip with
  | some ⟨.v4 bits, .v4 mask⟩, some a, _ => bits &&& mask = a &&& mask
  | some ⟨.v6 bits, .v6 mask⟩, none, .v6 a => bits &&& mask = a &&& mask
  | _, _, _ => false

/-! ## Blocks as leading bits -/

/-- The address starts with the leading bits of the block. -/
def InBlock {w : Nat} (ones : Nat) (block a : BitVec w) : Prop :=
  a >>> (w - ones) = block >>> (w - ones)

instance {w : Nat} (ones : Nat) (block a : BitVec w) : Decidable (InBlock ones block a) :=
  inferInstanceAs (Decidable (_ = _))

theorem getLsbD_and_cidrMask {w : Nat} (ones : Nat) (a : BitVec w) (i : Nat) :
    (a &&& cidrMask ones w).getLsbD i = (decide (w - ones ≤ i) && a.getLsbD i) := by
  rw [cidrMask, BitVec.getLsbD_and, BitVec.getLsbD_shiftLeft, BitVec.getLsbD_allOnes]
  rcases Nat.lt_or_ge i w with hi | hi
  · by_cases hlow : w - ones ≤ i
    · have hlt : i - (w - ones) < w := by omega
      simp [hi, hlow, hlt]
    · simp [hlow, Nat.lt_of_not_le hlow]
  · simp [BitVec.getLsbD_of_ge a i hi]

/-- Equality under a mask is equality of the leading bits. -/
theorem and_cidrMask_eq_iff {w : Nat} (ones : Nat) (block a : BitVec w) :
    block &&& cidrMask ones w = a &&& cidrMask ones w ↔ InBlock ones block a := by
  constructor
  · intro h
    apply BitVec.eq_of_getLsbD_eq
    intro i _
    rw [BitVec.getLsbD_ushiftRight, BitVec.getLsbD_ushiftRight]
    have hbit := congrArg (fun bits => bits.getLsbD (w - ones + i)) h
    simp only [getLsbD_and_cidrMask, Nat.le_add_right, decide_true, Bool.true_and] at hbit
    exact hbit.symm
  · intro h
    apply BitVec.eq_of_getLsbD_eq
    intro i _
    rw [getLsbD_and_cidrMask, getLsbD_and_cidrMask]
    by_cases hlow : w - ones ≤ i
    · have hbit := congrArg (fun bits => bits.getLsbD (i - (w - ones))) h
      simp only [BitVec.getLsbD_ushiftRight, Nat.add_sub_cancel' hlow] at hbit
      rw [hbit]
    · simp [hlow]

end HeyServer.Lib.IpAddr
