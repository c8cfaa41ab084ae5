import HeyServer.Lib.Fallible
import HeyServer.Lib.IpAddr
import HeyServer.Lib.Text

/-!
# The guard on outbound URLs

`ValidateOutboundURL` looks at a literal host or at every address the host resolves to
and refuses those in blocked ranges. The ranges it is meant to keep out are stated
for an address as such, with the IPv4 addresses that IPv6 addresses can carry.

## Implementation notes

`url.Parse` and the resolver are parameters; the resolver gives a literal back as it is
and may give addresses with a zone. The client connects to the addresses that the guard
has seen.
-/

namespace HeyServer.Panel
open Lib IpAddr List

/-! ## The guard -/

/-- The list in `init`. -/
def blockedTexts : List Bytes :=
  [ascii "127.0.0.0/8", ascii "10.0.0.0/8", ascii "172.16.0.0/12", ascii "192.168.0.0/16",
    ascii "169.254.0.0/16", ascii "100.64.0.0/10", ascii "0.0.0.0/8", ascii "::1/128",
    ascii "fc00::/7", ascii "fe80::/10", ascii "::ffff:0:0/96"]

def blockedCIDRs : List IpNet := blockedTexts.filterMap parseCIDR

/-- `len(network.IP) == net.IPv4len` -/
def hasShortIP (network : IpNet) : Bool :=
  match network.ip with
  | .v4 _ => true
  | .v6 _ => false

def isBlockedIP (ip : IP) : Bool :=
  match ip.to4 with
  | some v4 => blockedCIDRs.any fun network => hasShortIP network && network.contains (.v4 v4)
  | none => blockedCIDRs.any fun network => network.contains ip

/-- The errors, with the values their messages name. -/
inductive SsrfError
  | emptyURL
  | invalidURL (cause : Bytes)
  | scheme (scheme : Bytes)
  | noHostname
  | blockedLiteral (hostname : Bytes)
  | unresolved (hostname cause : Bytes)
  | noAddresses (hostname : Bytes)
  | blockedAddress (hostname addr : Bytes)
  deriving DecidableEq

/-- `u.Scheme` and `u.Hostname()` of a parsed URL. -/
structure ParsedURL where
  scheme : Bytes
  hostname : Bytes

/-- `url.Parse`, and the resolver for names that are no literals. -/
structure Network where
  parseURL : Bytes → Except Bytes ParsedURL
  resolve : Bytes → Except Bytes (List Bytes)

/-- `net.LookupHost` of a name that is not empty. -/
def Network.lookupHost (net : Network) (host : Bytes) : Except Bytes (List Bytes) :=
  if (parseAddr host).isSome then .ok [host] else net.resolve host

/-- The loop over the resolved addresses. -/
def checkAddresses (hostname : Bytes) : List Bytes → Except SsrfError Unit
  | [] => .ok ()
  | addr :: addrs =>
    match parseIP addr with
    | none => checkAddresses hostname addrs
    | some ip =>
      if isBlockedIP (.v6 ip) then .error (.blockedAddress hostname addr)
      else checkAddresses hostname addrs

/-- The part of `ValidateOutboundURL` that looks at the host. -/
def validateHost (net : Network) (hostname : Bytes) : Except SsrfError Unit :=
  match parseIP hostname with
  | some ip => if isBlockedIP (.v6 ip) then .error (.blockedLiteral hostname) else .ok ()
  | none =>
    match net.lookupHost hostname with
    | .error cause => .error (.unresolved hostname cause)
    | .ok addrs =>
      if addrs = [] then .error (.noAddresses hostname) else checkAddresses hostname addrs

def validateOutboundURL (net : Network) (rawURL : Bytes) : Except SsrfError Unit :=
  if rawURL = [] then .error .emptyURL
  else
    match net.parseURL rawURL with
    | .error cause => .error (.invalidURL cause)
    | .ok u =>
      -- only ASCII letters can become letters of `http` and `https`
      if Text.toLower u.scheme ≠ ascii "http" ∧ Text.toLower u.scheme ≠ ascii "https" then
        .error (.scheme u.scheme)
      else if u.hostname = [] then .error .noHostname
      else validateHost net u.hostname

/-! ## What it is meant to keep out -/

/-- The addresses a client connects to for a host. -/
def Network.targets (net : Network) (host : Bytes) : List Addr :=
  match parseAddr host with
  | some addr => [addr]
  | none =>
    match net.resolve host with
    | .ok addrs => addrs.filterMap parseAddr
    | .error _ => []

/-- Loopback, private, link-local with the metadata service, shared and unspecified. -/
def reservedV4 : List (Nat × BitVec 32) :=
  [(8, 0x7F000000), (8, 0x0A000000), (12, 0xAC100000), (16, 0xC0A80000), (16, 0xA9FE0000),
    (10, 0x64400000), (8, 0x00000000)]

def ReservedV4 (a : BitVec 32) : Prop := ∃ block ∈ reservedV4, InBlock block.1 block.2 a

/-- Loopback, unique-local and link-local. -/
def reservedV6 : List (Nat × BitVec 128) :=
  [(128, 1), (7, 0xFC000000000000000000000000000000), (10, 0xFE800000000000000000000000000000)]

/-- The ways an IPv6 address carries an IPv4 address. -/
inductive Embedding
  | mapped | compatible | nat64 | sixToFour
  deriving DecidableEq

def Embedding.extract (x : BitVec 128) : Embedding → Option (BitVec 32)
  | mapped => if InBlock 96 0xFFFF00000000 x then some (x.setWidth 32) else none
  | compatible => if InBlock 96 0 x then some (x.setWidth 32) else none
  | nat64 => if InBlock 96 0x0064FF9B000000000000000000000000 x then some (x.setWidth 32) else none
  | sixToFour =>
    if InBlock 16 0x20020000000000000000000000000000 x then some (x.extractLsb' 80 32) else none

/-- The address carries a reserved IPv4 address in this way. -/
def Carries (e : Embedding) (x : BitVec 128) : Prop := ∃ a ∈ e.extract x, ReservedV4 a

/-- The address lies in a range that is to be kept out. -/
def Reserved (x : BitVec 128) : Prop :=
  x = 0 ∨ (∃ block ∈ reservedV6, InBlock block.1 block.2 x) ∨ ∃ e, Carries e x

/-- The reserved addresses the guard has no test for: those with a zone, the unspecified one,
and those that carry a reserved IPv4 address in another way than mapped. -/
def Unseen (addr : Addr) : Prop :=
  (addr.zone ≠ [] ∧ Reserved addr.as16) ∨ addr.as16 = 0 ∨ ∃ e, e ≠ .mapped ∧ Carries e addr.as16

instance (a : BitVec 32) : Decidable (ReservedV4 a) :=
  inferInstanceAs (Decidable (∃ block ∈ reservedV4, _))

instance (e : Embedding) (x : BitVec 128) : Decidable (Carries e x) :=
  decidable_of_iff ((e.extract x).any fun a => decide (ReservedV4 a)) (by
    simp only [Carries, Option.any_eq_true, decide_eq_true_eq, Option.mem_def])

theorem Embedding.exists_iff {P : Embedding → Prop} :
    (∃ e, P e) ↔ P .mapped ∨ P .compatible ∨ P .nat64 ∨ P .sixToFour := by
  constructor
  · rintro ⟨e, he⟩
    cases e with
    | mapped => exact .inl he
    | compatible => exact .inr (.inl he)
    | nat64 => exact .inr (.inr (.inl he))
    | sixToFour => exact .inr (.inr (.inr he))
  · rintro (h | h | h | h)
    · exact ⟨_, h⟩
    · exact ⟨_, h⟩
    · exact ⟨_, h⟩
    · exact ⟨_, h⟩

instance {P : Embedding → Prop} [DecidablePred P] : Decidable (∃ e, P e) :=
  decidable_of_iff _ Embedding.exists_iff.symm

instance (x : BitVec 128) : Decidable (Reserved x) :=
  inferInstanceAs (Decidable (x = 0 ∨ (∃ block ∈ reservedV6, _) ∨ _))

instance (addr : Addr) : Decidable (Unseen addr) :=
  inferInstanceAs (Decidable (_ ∨ _ ∨ _))

/-! ## The blocked ranges -/

variable (block : Nat × BitVec 32)

/-- A block of IPv4 addresses as `ParseCIDR` gives it. -/
def netV4 : IpNet :=
  ⟨.v4 (block.2 &&& cidrMask block.1 32), .v4 (cidrMask block.1 32)⟩

/-- A block of IPv6 addresses as `ParseCIDR` gives it. -/
def netV6 (block : Nat × BitVec 128) : IpNet :=
  ⟨.v6 (block.2 &&& cidrMask block.1 128), .v6 (cidrMask block.1 128)⟩

theorem blockedCIDRs_eq :
    blockedCIDRs = reservedV4.map netV4 ++ reservedV6.map netV6 ++
      [netV6 (96, 0xFFFF00000000)] := by
  decide +kernel

theorem contains_netV4 (a : BitVec 32) :
    (netV4 block).contains (.v4 a) = true ↔ InBlock block.1 block.2 a := by
  simp only [IpNet.contains, IpNet.number, netV4, IP.to4, decide_eq_true_eq, BitVec.and_assoc,
    BitVec.and_self]
  exact and_cidrMask_eq_iff block.1 block.2 a

variable {x : BitVec 128} {block : Nat × BitVec 128}

theorem contains_netV6 (hblock : (netV6 block).ip.to4 = none) (hx : (IP.v6 x).to4 = none) :
    (netV6 block).contains (.v6 x) = true ↔ InBlock block.1 block.2 x := by
  have hnumber : (netV6 block).number = some (netV6 block) := by
    rw [IpNet.number, hblock]
    rfl
  unfold IpNet.contains
  rw [hnumber, hx]
  simp only [netV6, decide_eq_true_eq, BitVec.and_assoc, BitVec.and_self]
  exact and_cidrMask_eq_iff block.1 block.2 x

/-- The 32-bit form of an address is the one it carries as a mapped address. -/
theorem to4_eq_mapped (x : BitVec 128) : (IP.v6 x).to4 = Embedding.extract x .mapped := by
  have hiff : x.extractLsb' 32 96 = 0xFFFF#96 ↔ InBlock 96 0xFFFF00000000 x := by
    rw [InBlock, ← BitVec.toNat_inj, ← BitVec.toNat_inj, BitVec.extractLsb'_toNat,
      BitVec.toNat_ushiftRight, Nat.mod_eq_of_lt]
    · rfl
    · have := x.isLt
      rw [Nat.shiftRight_eq_div_pow]
      omega
  rw [IP.to4, Embedding.extract]
  simp only [hiff]

/-- Mapped addresses are far from the blocks of IPv6. -/
theorem not_reservedV6_of_mapped (h : InBlock 96 0xFFFF00000000 x)
    (hblock : block ∈ reservedV6) : ¬ InBlock block.1 block.2 x := by
  have hx : x.toNat / 2 ^ 32 = 0xFFFF := by
    have := congrArg BitVec.toNat h
    rwa [BitVec.toNat_ushiftRight, Nat.shiftRight_eq_div_pow] at this
  intro hin
  have hin := congrArg BitVec.toNat hin
  rw [BitVec.toNat_ushiftRight, Nat.shiftRight_eq_div_pow] at hin
  simp only [reservedV6, mem_cons, not_mem_nil, or_false] at hblock
  rcases hblock with rfl | rfl | rfl
  · change x.toNat / 2 ^ 0 = 1 at hin
    omega
  · change x.toNat / 2 ^ 121 = 0x7E at hin
    omega
  · change x.toNat / 2 ^ 118 = 0x3FA at hin
    omega

theorem contains_netV4_long (hx : (IP.v6 x).to4 = none) (block : Nat × BitVec 32) :
    (netV4 block).contains (.v6 x) = false := by
  unfold IpNet.contains
  rw [hx]
  rfl

/-- The block of the mapped addresses holds no address without a 32-bit form. -/
theorem contains_mapped_long (hx : (IP.v6 x).to4 = none) :
    (netV6 (96, 0xFFFF00000000)).contains (.v6 x) = false := by
  have hnumber : (netV6 (96, 0xFFFF00000000)).number = some ⟨.v4 0, .v4 0⟩ := by decide
  unfold IpNet.contains
  rw [hnumber, hx]

/-- What the guard blocks: mapped IPv4 addresses in the IPv4 blocks, and the IPv6 blocks. -/
theorem isBlockedIP_iff (x : BitVec 128) : isBlockedIP (.v6 x) = true ↔
      Carries .mapped x ∨ ∃ block ∈ reservedV6, InBlock block.1 block.2 x := by
  rw [isBlockedIP, blockedCIDRs_eq]
  cases hx : (IP.v6 x).to4 with
  | some v =>
    have hmapped : InBlock 96 0xFFFF00000000 x := by
      by_contra hnot
      rw [to4_eq_mapped, Embedding.extract, if_neg hnot] at hx
      cases hx
    have hshort : (∃ block ∈ reservedV4, (netV4 block).contains (.v4 v) = true) ↔ ReservedV4 v := by
      simp only [contains_netV4, ReservedV4]
    have hcarries : Carries .mapped x ↔ ReservedV4 v := by
      rw [Carries, ← to4_eq_mapped, hx]
      simp
    have hnone : ¬ ∃ block ∈ reservedV6, InBlock block.1 block.2 x := by
      rintro ⟨block, hblock, hin⟩
      exact not_reservedV6_of_mapped hmapped hblock hin
    rw [hcarries, ← hshort]
    simp [hnone, any_map, hasShortIP, netV4, netV6]
  | none =>
    have hcarries : ¬ Carries .mapped x := by
      rw [Carries, ← to4_eq_mapped, hx]
      simp
    have hlong : ∀ block ∈ reservedV6, (netV6 block).ip.to4 = none := by decide
    have hblocks : (∃ block ∈ reservedV6, (netV6 block).contains (.v6 x) = true) ↔
        ∃ block ∈ reservedV6, InBlock block.1 block.2 x :=
      exists_congr fun block => and_congr_right fun hblock => contains_netV6 (hlong block hblock) hx
    rw [← hblocks, any_append, any_append, any_cons, any_nil, contains_mapped_long hx]
    simp [hcarries, contains_netV4_long hx]

/-! ## Accepted URLs -/

theorem not_blocked_of_checkAddresses {hostname : Bytes} {addrs : List Bytes}
    (h : checkAddresses hostname addrs = .ok ()) :
    ∀ addr ∈ addrs, ∀ ip, parseIP addr = some ip → isBlockedIP (.v6 ip) = false := by
  fun_induction checkAddresses hostname addrs with
  | case1 => simp
  | case2 addr addrs hnone ih =>
    refine forall_mem_cons.mpr ⟨fun ip hip => ?_, ih h⟩
    rw [hnone] at hip
    cases hip
  | case3 => cases h
  | case4 addr addrs first hfirst hblocked ih =>
    refine forall_mem_cons.mpr ⟨fun ip hip => ?_, ih h⟩
    cases hfirst.symm.trans hip
    exact Bool.eq_false_iff.mpr hblocked

/-- The guard has looked at every address without a zone that the client can connect to. -/
theorem not_blocked_of_validateHost {net : Network} {hostname : Bytes}
    (h : validateHost net hostname = .ok ()) {addr : Addr} (haddr : addr ∈ net.targets hostname)
    (hzone : addr.zone = []) : isBlockedIP (.v6 addr.as16) = false := by
  rw [validateHost] at h
  rw [Network.targets] at haddr
  cases hliteral : parseAddr hostname with
  | some literal =>
    rw [hliteral, mem_singleton] at haddr
    subst haddr
    have hip : parseIP hostname = some addr.as16 := parseIP_eq_some.mpr ⟨addr, hliteral, hzone, rfl⟩
    rw [hip] at h
    by_contra hblocked
    simp [Bool.of_not_eq_false hblocked] at h
  | none =>
    have hip : parseIP hostname = none := by rw [parseIP, hliteral]; rfl
    have hlookup : net.lookupHost hostname = net.resolve hostname := by
      rw [Network.lookupHost, hliteral]
      rfl
    rw [hip, hlookup] at h
    rw [hliteral] at haddr
    cases hresolve : net.resolve hostname with
    | error cause =>
      rw [hresolve] at haddr
      cases haddr
    | ok addrs =>
      rw [hresolve] at haddr
      obtain ⟨text, htext, hparse⟩ := mem_filterMap.mp haddr
      rw [hresolve] at h
      have hcheck : checkAddresses hostname addrs = .ok () := (ite_error_eq_ok.mp h).2
      exact not_blocked_of_checkAddresses hcheck text htext _
        (parseIP_eq_some.mpr ⟨addr, hparse, hzone, rfl⟩)

/-- For every URL and every answer of the resolver: when the guard accepts the URL, no address
the client can connect to is reserved if and only if none of them has a form the guard has no
test for. -/
theorem outbound_url_safe_iff (net : Network) (rawURL : Bytes) (u : ParsedURL)
    (hparse : net.parseURL rawURL = .ok u) (h : validateOutboundURL net rawURL = .ok ()) :
    (∀ addr ∈ net.targets u.hostname, ¬ Reserved addr.as16) ↔
      ∀ addr ∈ net.targets u.hostname, ¬ Unseen addr := by
  rw [validateOutboundURL, hparse] at h
  have hhost := (ite_error_eq_ok.mp (ite_error_eq_ok.mp (ite_error_eq_ok.mp h).2).2).2
  refine forall₂_congr fun addr haddr => not_congr ?_
  constructor
  · intro hreserved
    by_cases hzone : addr.zone = []
    · have hblocked := not_blocked_of_validateHost hhost haddr hzone
      have hseen : ¬ (Carries .mapped addr.as16 ∨
          ∃ block ∈ reservedV6, InBlock block.1 block.2 addr.as16) := by
        rw [← isBlockedIP_iff, hblocked]
        decide
      rcases hreserved with hzero | hblock | ⟨e, hcarries⟩
      · exact .inr (.inl hzero)
      · exact absurd (.inr hblock) hseen
      · refine .inr (.inr ⟨e, ?_, hcarries⟩)
        rintro rfl
        exact hseen (.inl hcarries)
    · exact .inl ⟨hzone, hreserved⟩
  · rintro (⟨-, hreserved⟩ | hzero | ⟨e, -, hcarries⟩)
    · exact hreserved
    · exact .inl hzero
    · exact .inr (.inr ⟨e, hcarries⟩)

/-! ## Hosts that pass -/

/-- A URL with this host, and the resolver's answer for it. -/
def hostNet (host : Bytes) (answer : List Bytes) : Network :=
  ⟨fun _ => .ok ⟨ascii "http", host⟩, fun _ => .ok answer⟩

def publicAnswer : List Bytes := [ascii "8.8.8.8", ascii "2001:4860:4860::8888"]

theorem outbound_url_safe_iff_public :
    validateOutboundURL (hostNet (ascii "example.com") publicAnswer) (ascii "http://example.com/") =
      .ok () ∧
      ∀ addr ∈ (hostNet (ascii "example.com") publicAnswer).targets (ascii "example.com"),
        ¬ Reserved addr.as16 := by
  have hok : validateOutboundURL (hostNet (ascii "example.com") publicAnswer)
      (ascii "http://example.com/") = .ok () := by decide +kernel
  have hseen : ∀ addr ∈ (hostNet (ascii "example.com") publicAnswer).targets (ascii "example.com"),
      ¬ Unseen addr := by decide +kernel
  exact ⟨hok, (outbound_url_safe_iff _ _ ⟨ascii "http", ascii "example.com"⟩ rfl hok).mpr hseen⟩

/-- URLs with a literal host and the host as `Hostname` gives it. -/
def reservedHosts : List (Bytes × Bytes) :=
  [(ascii "http://[fe80::1%25eth0]/", ascii "fe80::1%eth0"), (ascii "http://[::]/", ascii "::"),
    (ascii "http://[::127.0.0.1]/", ascii "::127.0.0.1"),
    (ascii "http://[64:ff9b::7f00:1]/", ascii "64:ff9b::7f00:1"),
    (ascii "http://[2002:7f00:1::]/", ascii "2002:7f00:1::")]

theorem reserved_hosts_accepted :
    reservedHosts ≠ [] ∧
      ∀ url ∈ reservedHosts, validateOutboundURL (hostNet url.2 []) url.1 = .ok () ∧
        ∃ addr ∈ (hostNet url.2 []).targets url.2, Reserved addr.as16 := by
  decide +kernel

end HeyServer.Panel
