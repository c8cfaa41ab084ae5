import HeyServer.Hub.Observation

/-!
# Agent hub: node identity and heartbeats

Node identifiers, registration requests and the checks a heartbeat passes before
it is stored.

## Implementation notes

`Env` holds what the hub calls but this development does not define: the token
digest, the JSON form of an inventory, Unicode tables, address parsing and the
decoders of two task results. Every theorem is for an arbitrary `Env`.
-/

namespace HeyServer.Hub
open Lib Text

/-- A floating point number of a request: rationals stand for the finite ones. -/
inductive Float64
  | nan
  | inf (negative : Bool)
  | finite (value : Rat)
  deriving DecidableEq

namespace Float64

/-- Neither NaN nor infinite, and at least zero. -/
def nonnegative : Float64 → Bool
  | finite v => 0 ≤ v
  | _ => false

def percent : Float64 → Bool
  | finite v => 0 ≤ v && v ≤ 100
  | _ => false

end Float64

structure ServiceState where
  name : Bytes
  active : Bytes
  sub : Bytes

structure DiskMount where
  filesystem : Bytes
  size : Nat
  used : Nat
  available : Nat
  usePercent : Int
  mountpoint : Bytes

structure Process where
  pid : Int
  startTime : Nat
  user : Bytes
  cpu : Float64
  memory : Float64
  rss : Nat
  command : Bytes

/-- The host state a heartbeat reports. The read roots may be `nil`, which the check of the
write roots tells apart from an empty list. -/
structure Inventory where
  os : Bytes := []
  arch : Bytes := []
  kernel : Bytes := []
  bootId : Bytes := []
  uptimeSeconds : Int := 0
  load1 : Float64 := .finite 0
  memoryTotal : Nat := 0
  memoryAvailable : Nat := 0
  swapTotal : Nat := 0
  swapUsed : Nat := 0
  swapFree : Nat := 0
  swapResetEligible : Bool := false
  swapResetReason : Bytes := []
  diskTotal : Nat := 0
  diskUsed : Nat := 0
  diskAvailable : Nat := 0
  diskUsePercent : Float64 := .finite 0
  diskMounts : List DiskMount := []
  pleskPresent : Bool := false
  services : List ServiceState := []
  processes : List Process := []
  logSources : List Bytes := []
  fileReadRoots : Option (List Bytes) := none
  fileWriteRoots : List Bytes := []

/-- Functions of the host and its libraries. -/
structure Env where
  /-- Lower-case hex of the SHA-256 digest of a token. -/
  tokenDigest : Bytes → Bytes
  /-- `json.Marshal` of an inventory; it fails on NaN and infinities. -/
  marshalInventory : Inventory → Option Bytes
  /-- `json.Unmarshal` into an inventory. -/
  unmarshalInventory : Bytes → Option Inventory
  unmarshal_marshal : ∀ i text, marshalInventory i = some text → (unmarshalInventory text).isSome
  unmarshal_default : (unmarshalInventory (ascii "{}")).isSome
  /-- `strconv.Quote`, as `%q` prints a text. -/
  quote : Bytes → Bytes
  /-- `unicode.IsLetter` or `unicode.IsDigit` -/
  isLetterOrDigit : Nat → Bool
  /-- `net.ParseIP`, and whether the address is an IPv4 one. -/
  parseIp : Bytes → Option Bool
  /-- `net.ParseCIDR`, and whether its address is an IPv4 one. -/
  parseCidr : Bytes → Option Bool
  /-- `managedintegrationstatus.Decode` accepts the text. -/
  decodesIntegrationStatus : Bytes → Bool
  /-- `DecodeMetricsSnapshot` and `ValidateMetricsSnapshot` at a time. -/
  checkMetricsSnapshot : Bytes → Time → Except HubError Unit

/-- Functions as plain as the laws allow, for runs on fixed inputs. -/
def Env.plain : Env where
  tokenDigest := id
  marshalInventory _ := some (ascii "{}")
  unmarshalInventory _ := some {}
  unmarshal_marshal _ _ _ := rfl
  unmarshal_default := rfl
  quote := id
  isLetterOrDigit r := (0x61 ≤ r && r ≤ 0x7A) || (0x30 ≤ r && r ≤ 0x39)
  parseIp _ := none
  parseCidr _ := none
  decodesIntegrationStatus _ := true
  checkMetricsSnapshot _ _ := .ok ()

def maxNodeIdLength : Nat := 128
def maxNodeNameLength : Nat := 255
def maxHostnameLength : Nat := 255
def maxAgentVersionLength : Nat := 128
def maxHeartbeatInventorySize : Nat := 65536

/-- `HeartbeatFreshnessWindow`, five minutes. -/
def heartbeatFreshnessWindow : Int := 300000000000

/-- `NodeOnlineWindow`, 45 seconds. -/
def nodeOnlineWindow : Int := 45000000000

def protocolVersion : Bytes := ascii "v1"

/-- Fails with `invalidInput` unless the condition holds. -/
def require (condition : Bool) (context : String) : Except HubError Unit :=
  if condition then .ok () else .error (invalidInput context)

theorem require_eq_ok {condition : Bool} {context : String} {u : Unit} :
    require condition context = .ok u ↔ condition = true := by
  rw [require]
  split_ifs with h <;> simp [h]

def asciiLetterOrDigit (r : Nat) : Bool :=
  (0x61 ≤ r && r ≤ 0x7A) || (0x41 ≤ r && r ≤ 0x5A) || (0x30 ≤ r && r ≤ 0x39)

/-- The first rune and the other runes of a text pass their checks. -/
def runesMatch (first others : Nat → Bool) (value : Bytes) : Bool :=
  match Utf8.runes value with
  | [] => true
  | r :: rs => first r && rs.all others

/-- `strings.ContainsRune` with ASCII characters. -/
def oneOf (chars : String) (r : Nat) : Bool := (ascii chars).any fun b => b.toNat = r

def validNodeId (value : Bytes) : Bool :=
  value ≠ [] && value.length ≤ maxNodeIdLength && trimSpace value = value &&
    runesMatch asciiLetterOrDigit (fun r => asciiLetterOrDigit r || oneOf "._-" r) value

def validateRegisterNodeRequest (req : RegisterNodeRequest) : Except HubError Unit := do
  require (validNodeId req.id) "agent hub: node id"
  require (trimSpace req.name ≠ [] && req.name.length ≤ maxNodeNameLength &&
    !containsControl req.name) "agent hub: node name"

def validLogSource (value : Bytes) : Bool :=
  ["system", "nginx", "php", "mariadb", "postgresql", "pm2", "docker"].any
    fun source => value = ascii source

/-- The roots after those already seen; each is among the allowed ones unless these are `nil`. -/
def validManagedFileRoots (allowed : Option (List Bytes)) : List Bytes → List Bytes → Bool
  | _, [] => true
  | seen, root :: roots =>
    root ≠ [0x2F] && root.length ≤ 512 && !containsControl root && isAbs root &&
      clean root = root && !seen.contains root &&
      (allowed.all fun parents => parents.contains root) &&
      validManagedFileRoots allowed (root :: seen) roots

def validManagedFileRootInventory (roots : List Bytes) (allowedParents : Option (List Bytes)) :
    Bool :=
  roots.length ≤ 16 && validManagedFileRoots allowedParents [] roots

/-- Used and available parts fit the whole. -/
def partsFit (used available total : Nat) : Bool :=
  used ≤ total && available ≤ total && used ≤ total - available

/-- The advertised capabilities after those already seen. -/
def checkCapabilities (env : Env) : List Bytes → List Bytes → Except HubError Unit
  | _, [] => .ok ()
  | seen, capability :: rest =>
    if Capability.all.all fun known => known.text ≠ capability then
      .error (.wrapped (ascii "agent hub: unsupported capability " ++ env.quote capability)
        .invalidInput)
    else if capability ∈ seen then
      .error (.wrapped (ascii "agent hub: duplicate capability " ++ env.quote capability)
        .invalidInput)
    else checkCapabilities env (capability :: seen) rest

/-- The log sources after those already seen. -/
def checkLogSources (env : Env) : List Bytes → List Bytes → Except HubError Unit
  | _, [] => .ok ()
  | seen, source :: rest =>
    if !validLogSource source then .error (invalidInput "agent hub: heartbeat log sources")
    else if source ∈ seen then
      .error (.wrapped (ascii "agent hub: duplicate heartbeat log source " ++ env.quote source)
        .invalidInput)
    else checkLogSources env (source :: seen) rest

def validDiskMount (mount : DiskMount) : Bool :=
  mount.filesystem ≠ [] && mount.mountpoint ≠ [] && mount.filesystem.length ≤ 255 &&
    mount.mountpoint.length ≤ 512 && !containsControl mount.filesystem &&
    !containsControl mount.mountpoint && 0 ≤ mount.usePercent && mount.usePercent ≤ 100 &&
    partsFit mount.used mount.available mount.size

def validProcess (process : Process) : Bool :=
  0 < process.pid && process.startTime ≠ 0 && process.user.length ≤ 64 &&
    process.command.length ≤ 512 && !containsControl process.user &&
    !containsControl process.command && process.cpu.nonnegative && process.memory.nonnegative

def validateHeartbeatFields (env : Env) (req : HeartbeatRequest Inventory) :
    Except HubError Unit := do
  if !validNodeId req.nodeId then throw (.sentinel .invalidInput)
  validateAgentProfileObservation req.profile
  require (req.hostname.length ≤ maxHostnameLength && !containsControl req.hostname)
    "agent hub: heartbeat hostname"
  require (req.agentVersion.length ≤ maxAgentVersionLength &&
    !containsControl req.agentVersion) "agent hub: heartbeat agent version"
  let inventory := req.inventory
  require (inventory.arch.length ≤ 32 && !containsControl inventory.arch)
    "agent hub: heartbeat architecture"
  checkCapabilities env [] req.capabilities
  require inventory.diskUsePercent.percent "agent hub: heartbeat disk use percent"
  require (partsFit inventory.diskUsed inventory.diskAvailable inventory.diskTotal)
    "agent hub: heartbeat disk inventory"
  require (inventory.diskMounts.length ≤ 64) "agent hub: heartbeat disk mounts"
  require (inventory.diskMounts.all validDiskMount) "agent hub: heartbeat disk mounts"
  require (partsFit inventory.swapUsed inventory.swapFree inventory.swapTotal)
    "agent hub: heartbeat swap inventory"
  require (inventory.processes.length ≤ 50) "agent hub: heartbeat process inventory"
  require (inventory.logSources.length ≤ 7) "agent hub: heartbeat log sources"
  checkLogSources env [] inventory.logSources
  require (validManagedFileRootInventory (inventory.fileReadRoots.getD []) none &&
    validManagedFileRootInventory inventory.fileWriteRoots inventory.fileReadRoots)
    "agent hub: heartbeat managed file roots"
  require (inventory.processes.all validProcess) "agent hub: heartbeat process inventory"
  match env.marshalInventory inventory with
  | none => .error (invalidInput "agent hub: heartbeat inventory")
  | some text =>
    require (text.length ≤ maxHeartbeatInventorySize)
      "agent hub: heartbeat inventory exceeds size limit"

/-- The distance of a heartbeat's own time from the clock; the zero time is too far. -/
def heartbeatAge (now sentAt : Time) : Int :=
  if sentAt = 0 then heartbeatFreshnessWindow + 1
  else if now < sentAt then sentAt - now
  else now - sentAt

/-- `IsNodeOnline` at a clock reading. -/
def isNodeOnline {I : Type} (now : Time) (node : Node I) : Bool :=
  match node.lastSeenAt with
  | none => false
  | some seen => 0 ≤ now - seen && now - seen ≤ nodeOnlineWindow

end HeyServer.Hub
