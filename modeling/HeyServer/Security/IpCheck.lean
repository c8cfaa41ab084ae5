import HeyServer.Lib.IpAddr
import HeyServer.Security.IpLists

/-!
# Checking an address against the lists

`Check` looks for an entry that names the address, and only then for blocks, of which a whitelisted
one wins. Expired entries count until they are pruned.

## Implementation notes

`canon` stands for `IP.String`. A block covers what `IPNet.Contains` says it contains.
-/

namespace HeyServer.Security
open Lib IpAddr Option Decimal IPRow

def IPRow.isBlock (row : IPRow) : Bool := row.ip.contains 0x2F

def IPRow.names (bits : BitVec 128) (row : IPRow) : Bool :=
    !row.isBlock && parseIP row.ip = some bits

def containsIP (cidr : Bytes) (bits : BitVec 128) : Bool :=
  (parseCIDR cidr).any fun net => net.contains (.v6 bits)

def IPRow.covers (bits : BitVec 128) (row : IPRow) : Bool :=
  if row.isBlock then containsIP row.ip bits else parseIP row.ip = some bits

variable (canon : BitVec 128 → Bytes)

/-- What `rebuildCache` makes of the text of an entry. -/
def parseEntry (text : Bytes) : Option Address :=
  if text.contains 0x2F then (parseCIDR text).map fun _ => .network text
  else (parseIP text).map fun bits => .host (canon bits)

/-- The loop over the blocks: a white one ends it, of the black ones the last stays. -/
def checkNets (bits : BitVec 128) : Option ListType → List (Bytes × ListType) → Option ListType
  | found, [] => found
  | found, (cidr, listType) :: nets =>
    if containsIP cidr bits then
      if listType = .whitelist then some .whitelist else checkNets bits (some listType) nets
    else checkNets bits found nets

/-- `Check`: an exact entry is before the blocks, a white block before a black one. -/
def check (cache : Cache) (rawIP : Bytes) : Option ListType :=
  match parseIP (Text.trimSpace rawIP) with
  | none => none
  | some bits =>
    match cache.hosts (canon bits) with
    | some listType => some listType
    | none => checkNets bits none cache.nets

/-! ## The rule -/

section
variable (now : Bytes) (rows : List IPRow) (bits : BitVec 128)

/-- An unexpired entry of a list covers the address. -/
def Listed (lt : ListType) : Prop :=
  ∃ row ∈ rows, row.listType = lt ∧ ¬ row.expiresAt.any (· < now) ∧ row.covers bits

instance (lt : ListType) : Decidable (Listed now rows bits lt) :=
  inferInstanceAs (Decidable (∃ row ∈ rows, _))

def ruled : Option ListType :=
  if Listed now rows bits .whitelist then some .whitelist
  else if Listed now rows bits .blacklist then some .blacklist
  else none

/-- A block of a list, expired or not, contains the address. -/
def Contained (lt : ListType) : Prop := ∃ row ∈ rows, row.listType = lt ∧ row.isBlock ∧
    row.covers bits

/-- The list of the last entry that names the address. -/
def named : Option ListType := ((rows.filter (·.names bits)).getLast?).map listType

/-- No expired entry decides, and no entry of the blacklist is before the whitelist. -/
def Undisturbed : Prop :=
  match named rows bits with
  | some .whitelist => Listed now rows bits .whitelist
  | some .blacklist => Listed now rows bits .blacklist ∧ ¬ Listed now rows bits .whitelist
  | none => (Contained rows bits .whitelist → Listed now rows bits .whitelist) ∧
    (Contained rows bits .blacklist →
      Contained rows bits .whitelist ∨ Listed now rows bits .blacklist)

end

variable {canon} {now : Bytes} {rows : List IPRow} {bits : BitVec 128}

/-- The cache of single addresses has the last entry that names the address. -/
theorem hosts_cacheOf (hcanon : Function.Injective canon) :
    (cacheOf (parseEntry canon) rows).hosts (canon bits) = named rows bits := by
  rw [(cacheOf_spec rows).1, named]
  congr 3
  funext row
  by_cases hblock : 0x2F ∈ row.ip
  · simp [names, isBlock, parseEntry, hblock]
  · simp [names, isBlock, parseEntry, hblock, hcanon.eq_iff]

/-- The cache of networks has the blocks. -/
theorem exists_net_iff (lt : ListType) :
    (∃ net ∈ (cacheOf (parseEntry canon) rows).nets, net.2 = lt ∧ containsIP net.1 bits = true) ↔
      Contained rows bits lt := by
  have hentry (row : IPRow) : (∃ cidr, parseEntry canon row.ip = some (.network cidr) ∧
      containsIP cidr bits = true) ↔ row.isBlock = true ∧ row.covers bits = true := by
    by_cases hblock : 0x2F ∈ row.ip
    · cases hcidr : parseCIDR row.ip <;>
        simp [parseEntry, isBlock, covers, containsIP, hblock, hcidr]
    · simp [parseEntry, isBlock, hblock]
  constructor
  · rintro ⟨⟨cidr, lt⟩, hnet, rfl, hcontains⟩
    obtain ⟨row, hrow, hparse, hlist⟩ := ((cacheOf_spec rows).2 cidr lt).mp hnet
    exact ⟨row, hrow, hlist, (hentry row).mp ⟨cidr, hparse, hcontains⟩⟩
  · rintro ⟨row, hrow, hlist, hcovers⟩
    obtain ⟨cidr, hparse, hcontains⟩ := (hentry row).mpr hcovers
    exact ⟨(cidr, lt), ((cacheOf_spec rows).2 cidr lt).mpr ⟨row, hrow, hparse, hlist⟩, rfl,
      hcontains⟩

theorem checkNets_spec {found : Option ListType} (hfound : found ≠ some .whitelist)
    (nets : List (Bytes × ListType)) : (checkNets bits found nets = some .whitelist ↔
      ∃ net ∈ nets, net.2 = .whitelist ∧ containsIP net.1 bits = true) ∧
    (checkNets bits found nets = some .blacklist ↔
      (¬ ∃ net ∈ nets, net.2 = .whitelist ∧ containsIP net.1 bits = true) ∧
        (found = some .blacklist ∨ ∃ net ∈ nets, net.2 = .blacklist ∧
          containsIP net.1 bits = true)) := by
  fun_induction checkNets bits found nets with
  | case1 => simp [hfound]
  | case2 => simp [*]
  | case3 found cidr lt nets hcontains hlist ih =>
    cases lt with
    | whitelist => exact absurd rfl hlist
    | blacklist => simp [ih, hcontains]
  | case4 found cidr lt nets hcontains ih => simp [ih hfound, hcontains]

/-- An address that no entry names is listed by a block. -/
theorem Listed.contained {lt : ListType} (h : Listed now rows bits lt)
    (hnone : named rows bits = none) :
    Contained rows bits lt := by
  obtain ⟨row, hrow, hlist, -, hcovers⟩ := h
  rw [named, map_eq_none_iff, List.getLast?_eq_none_iff, List.filter_eq_nil_iff] at hnone
  refine ⟨row, hrow, hlist, ?_, hcovers⟩
  by_contra hblock
  rw [covers, if_neg hblock] at hcovers
  exact hnone row hrow (by simpa [names, hblock] using hcovers)

/-- An address is checked by the rule exactly if the entries that decide about it are undisturbed.
-/
theorem check_eq_ruled_iff (hcanon : Function.Injective canon) {rawIP : Bytes}
    (hip : parseIP (Text.trimSpace rawIP) = some bits) :
    check canon (cacheOf (parseEntry canon) rows) rawIP = ruled now rows bits ↔
      Undisturbed now rows bits := by
  rw [check, hip]
  dsimp only
  rw [hosts_cacheOf hcanon, Undisturbed, ruled]
  cases hnamed : named rows bits with
  | some lt => cases lt <;> grind
  | none =>
    have hwhite (h : Listed now rows bits .whitelist) := h.contained hnamed
    have hblack (h : Listed now rows bits .blacklist) := h.contained hnamed
    have hnets := @checkNets_spec bits none (some_ne_none ListType.whitelist).symm
      (cacheOf (parseEntry canon) rows).nets
    rw [exists_net_iff, exists_net_iff] at hnets
    dsimp only
    generalize checkNets bits none _ = found at hnets ⊢
    rcases found with _ | (_ | _) <;> grind

/-- One text for each address, as `IP.String` gives one. -/
def decimal (bits : BitVec 128) : Bytes := Decimal.formatNat bits.toNat

theorem decimal_injective : Function.Injective decimal := by
  intro a b h
  have hnat := parseNat_formatNat a.toNat
  rw [show formatNat a.toNat = formatNat b.toNat from h, parseNat_formatNat] at hnat
  exact (BitVec.eq_of_toNat_eq (some.inj hnat)).symm

/-- The IPv4-mapped form of an address is the address. -/
theorem mapped_form_checked :
    check decimal (cacheOf (parseEntry decimal) [⟨ascii "10.0.0.1", .whitelist, none⟩])
        (ascii "::ffff:10.0.0.1") =
      ruled [] [⟨ascii "10.0.0.1", .whitelist, none⟩] 0xFFFF0A000001 := by
  refine (check_eq_ruled_iff decimal_injective (by decide +kernel)).mpr ?_
  have hnamed : named [⟨ascii "10.0.0.1", .whitelist, none⟩] 0xFFFF0A000001 = some .whitelist := by
    decide +kernel
  rw [Undisturbed, hnamed]
  decide +kernel

/-- One address of a whitelisted block is in the blacklist. -/
def blockAndHost : List IPRow :=
  [⟨ascii "10.0.0.0/8", .whitelist, none⟩, ⟨ascii "10.0.0.1", .blacklist, none⟩]

/-- The entry that names the address is before the block. -/
theorem named_before_block :
    check decimal (cacheOf (parseEntry decimal) blockAndHost) (ascii "10.0.0.1") = some .blacklist ∧
      ruled [] blockAndHost 0xFFFF0A000001 = some .whitelist := by
  decide +kernel

end HeyServer.Security
