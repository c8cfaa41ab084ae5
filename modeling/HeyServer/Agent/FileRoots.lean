import HeyServer.Hub.Heartbeat
import HeyServer.Lib.Paths

/-!
# Managed file roots of agent and hub

The agent reads two lists of directories from its environment and sends them with
every heartbeat. It wants every write root to lie below a read root; the hub wants
every write root to be a read root, and it has a shorter length limit and forbids
control characters. A heartbeat is JSON, so bytes that are not UTF-8 arrive as U+FFFD, and
roots that differ only there arrive as one.
-/

namespace HeyServer.Agent
open Lib Hub List Text

def maxFileRoots : Nat := 16

/-- `parseAbsoluteDirectory` -/
def parseAbsoluteDirectory (raw fallback : Bytes) : Except Bytes Bytes :=
  let raw := if raw = [] then fallback else raw
  if 4096 < raw.length ∨ isAbs raw = false ∨ clean raw ≠ raw ∨ raw = [0x2F] then
    .error (ascii "must be a clean absolute directory other than root")
  else .ok raw

/-- The loop of `parseAbsoluteDirectories`; `result` are the roots found so far. -/
def collectDirectories (result : List Bytes) : List Bytes → Except Bytes (List Bytes)
  | [] => .ok result
  | part :: parts => do
      let root ← parseAbsoluteDirectory (trimSpace part) []
      collectDirectories (if root ∈ result then result else result ++ [root]) parts

/-- `parseAbsoluteDirectories`; the empty list stands for `nil`. -/
def parseAbsoluteDirectories (raw : Bytes) : Except Bytes (List Bytes) :=
  if raw = [] then .ok []
  else
    let parts := split 0x2C raw
    if maxFileRoots < parts.length then .error (ascii s!"at most {maxFileRoots} roots are allowed")
    else collectDirectories [] parts

def pathWithinAnyRoot (candidate : Bytes) (roots : List Bytes) : Bool :=
  roots.any fun root => candidate = root || (root ++ [0x2F]).isPrefixOf candidate

/-- The file roots of the agent's configuration. -/
structure FileRoots where
  fileReadRoots : List Bytes
  fileWriteRoots : List Bytes
  deriving DecidableEq

/-- An error with the name of the variable in front. -/
def named (key : Bytes) {α : Type} : Except Bytes α → Except Bytes α
  | .error e => .error (key ++ ascii ": " ++ e)
  | .ok a => .ok a

/-- The part of `loadConfigFromEnv` that reads the file roots; `envValue` trims the values. -/
def loadFileRoots (readRoots writeRoots : Bytes) : Except Bytes FileRoots := do
  let read ← named (ascii "HSERVER_AGENT_FILE_READ_ROOTS")
    (parseAbsoluteDirectories (trimSpace readRoots))
  let write ← named (ascii "HSERVER_AGENT_FILE_WRITE_ROOTS")
    (parseAbsoluteDirectories (trimSpace writeRoots))
  if write.all fun root => pathWithinAnyRoot root read then .ok ⟨read, write⟩
  else
    .error (ascii
      "HSERVER_AGENT_FILE_WRITE_ROOTS must be contained by HSERVER_AGENT_FILE_READ_ROOTS")

/-- `configuredManagedFileRoots`: copies of the two lists, the copy of an empty one being
`nil`. -/
def configuredManagedFileRoots (cfg : FileRoots) : Option (List Bytes) × List Bytes :=
  (if cfg.fileReadRoots = [] then none else some cfg.fileReadRoots, cfg.fileWriteRoots)

/-- The roots as the hub reads them: `json.Marshal` replaces what is not UTF-8. -/
def received (roots : List Bytes) : List Bytes := roots.map Utf8.sanitize

/-- The check of `validateHeartbeatFields` on the roots that `runCycle` sends. -/
def rootsAccepted (cfg : FileRoots) : Bool :=
  let (read, write) := configuredManagedFileRoots cfg
  let read := read.map received
  validManagedFileRootInventory (read.getD []) none &&
    validManagedFileRootInventory (received write) read

/-! ## What each side accepts -/

/-- A directory the agent accepts as a root. -/
structure CleanDirectory (root : Bytes) : Prop where
  abs : isAbs root = true
  clean : clean root = root
  not_root : root ≠ [0x2F]

/-- The loop keeps the roots clean, and adds one for each part at most. -/
theorem collectDirectories_eq_ok {parts result roots : List Bytes}
    (h : collectDirectories result parts = .ok roots)
    (hclean : ∀ root ∈ result, CleanDirectory root) :
    (∀ root ∈ roots, CleanDirectory root) ∧ roots.length ≤ result.length + parts.length := by
  induction parts generalizing result with
  | nil =>
    cases h
    exact ⟨hclean, Nat.le_refl _⟩
  | cons part parts ih =>
    obtain ⟨root, hroot, hrest⟩ := bind_eq_ok.mp h
    split_ifs at hrest with hseen
    · obtain ⟨hall, hlength⟩ := ih hrest hclean
      rw [length_cons]
      exact ⟨hall, by omega⟩
    · have hclean' : ∀ other ∈ result ++ [root], CleanDirectory other := by
        obtain ⟨hchecks, hroot⟩ := ite_error_eq_ok.mp hroot
        cases hroot
        rw [not_or, not_or, not_or, not_not, Bool.not_eq_false] at hchecks
        exact forall_mem_append.mpr ⟨hclean, forall_mem_singleton.mpr
          ⟨hchecks.2.1, hchecks.2.2.1, hchecks.2.2.2⟩⟩
      obtain ⟨hall, hlength⟩ := ih hrest hclean'
      rw [length_append, length_singleton] at hlength
      rw [length_cons]
      exact ⟨hall, by omega⟩

theorem parseAbsoluteDirectories_eq_ok {raw : Bytes} {roots : List Bytes}
    (h : parseAbsoluteDirectories raw = .ok roots) :
    (∀ root ∈ roots, CleanDirectory root) ∧ roots.length ≤ maxFileRoots := by
  unfold parseAbsoluteDirectories at h
  split_ifs at h
  · cases h
    exact ⟨nofun, Nat.zero_le _⟩
  · obtain ⟨hparts, h⟩ := ite_error_eq_ok.mp h
    obtain ⟨hall, hlength⟩ := collectDirectories_eq_ok h nofun
    rw [length_nil, Nat.zero_add] at hlength
    exact ⟨hall, hlength.trans (Nat.not_lt.mp hparts)⟩

/-- A clean directory arrives as one. -/
theorem CleanDirectory.sanitize {root : Bytes} (h : CleanDirectory root) :
    CleanDirectory (Utf8.sanitize root) := by
  obtain ⟨hpath, hclean⟩ := sanitize_clean h.abs h.clean
  refine ⟨by rw [hpath]; rfl, hclean, fun heq => ?_⟩
  exact h.not_root ((Utf8.sanitize_eq_iff (by decide +kernel)).mp heq)

theorem named_eq_ok {key : Bytes} {α : Type} {x : Except Bytes α} {a : α}
    (h : named key x = .ok a) : x = .ok a := by
  cases x with
  | error e => cases h
  | ok b => exact h

variable (allowed : Option (List Bytes))

/-- What the hub asks of a single root. -/
def HubRoot (root : Bytes) : Prop :=
  CleanDirectory root ∧ root.length ≤ 512 ∧ containsControl root = false ∧
    ∀ parents ∈ allowed, root ∈ parents

/-- The hub's loop over the roots, read as a statement about the list. -/
theorem validManagedFileRoots_iff (seen roots : List Bytes) :
    validManagedFileRoots allowed seen roots = true ↔
      (∀ root ∈ roots, HubRoot allowed root) ∧ roots.Nodup ∧ ∀ root ∈ roots, root ∉ seen := by
  induction roots generalizing seen with
  | nil => simp [validManagedFileRoots]
  | cons root roots ih =>
    have hroot : (root ≠ [0x2F] && root.length ≤ 512 && !containsControl root &&
        isAbs root && clean root = root && !seen.contains root &&
        allowed.all fun parents => parents.contains root) = true ↔
        HubRoot allowed root ∧ root ∉ seen := by
      simp only [Bool.and_eq_true, decide_eq_true_eq, Bool.not_eq_true', contains_eq_mem,
        decide_eq_false_iff_not, Option.all_eq_true, HubRoot]
      constructor
      · rintro ⟨⟨⟨⟨⟨⟨hne, hlen⟩, hcontrol⟩, habs⟩, hclean⟩, hseen⟩, hallowed⟩
        exact ⟨⟨⟨habs, hclean, hne⟩, hlen, hcontrol, hallowed⟩, hseen⟩
      · rintro ⟨⟨⟨habs, hclean, hne⟩, hlen, hcontrol, hallowed⟩, hseen⟩
        exact ⟨⟨⟨⟨⟨⟨hne, hlen⟩, hcontrol⟩, habs⟩, hclean⟩, hseen⟩, hallowed⟩
    rw [validManagedFileRoots, Bool.and_eq_true, hroot, ih, forall_mem_cons, fresh_cons_iff,
      and_and_and_comm]

/-! ## Agreement -/

/-- A root the hub can take: short enough and without control characters. -/
def Presentable (root : Bytes) : Prop := root.length ≤ 512 ∧ containsControl root = false

section
variable {roots : List Bytes}

theorem cleanDirectory_received (hroots : ∀ root ∈ roots, CleanDirectory root) :
    ∀ root ∈ received roots, CleanDirectory root := by
  intro root hroot
  obtain ⟨sent, hsent, rfl⟩ := mem_map.mp hroot
  exact (hroots sent hsent).sanitize

/-- The hub's limit on the number of roots is the agent's. -/
theorem inventory_received_iff {allowed : Option (List Bytes)}
    (hlength : roots.length ≤ maxFileRoots) :
    validManagedFileRootInventory (received roots) allowed = true ↔
      (∀ root ∈ received roots, HubRoot allowed root) ∧ (received roots).Nodup := by
  have hreceived : (received roots).length ≤ 16 := (length_map _).trans_le hlength
  rw [validManagedFileRootInventory, Bool.and_eq_true, decide_eq_true_eq,
    validManagedFileRoots_iff]
  exact ⟨fun h => ⟨h.2.1, h.2.2.1⟩, fun h => ⟨hreceived, h.1, h.2, fun _ _ => not_mem_nil⟩⟩

end

/-- For every pair of values that the agent accepts, the hub accepts the roots exactly if, as
they arrive, the read roots are presentable and distinct, and the write roots are distinct and
are read roots themselves. -/
theorem managed_file_roots_accepted_iff {readRoots writeRoots : Bytes} {cfg : FileRoots}
    (h : loadFileRoots readRoots writeRoots = .ok cfg) :
    rootsAccepted cfg = true ↔
      ((∀ root ∈ received cfg.fileReadRoots, Presentable root) ∧
          (received cfg.fileReadRoots).Nodup) ∧
        (received cfg.fileWriteRoots).Nodup ∧
          ∀ root ∈ received cfg.fileWriteRoots, root ∈ received cfg.fileReadRoots := by
  obtain ⟨read, hread, h⟩ := bind_eq_ok.mp h
  obtain ⟨write, hwrite, h⟩ := bind_eq_ok.mp h
  obtain ⟨hreadClean, hreadLength⟩ := parseAbsoluteDirectories_eq_ok (named_eq_ok hread)
  obtain ⟨hwriteClean, hwriteLength⟩ := parseAbsoluteDirectories_eq_ok (named_eq_ok hwrite)
  split_ifs at h with hwithin
  cases h
  by_cases hempty : read = []
  · -- without read roots there are no write roots
    subst hempty
    have hnone : write = [] := by
      cases write with
      | nil => rfl
      | cons root write => simp [pathWithinAnyRoot] at hwithin
    subst hnone
    simp [rootsAccepted, configuredManagedFileRoots, validManagedFileRootInventory,
      validManagedFileRoots, received]
  have haccepted : rootsAccepted ⟨read, write⟩ =
      (validManagedFileRootInventory (received read) none &&
        validManagedFileRootInventory (received write) (some (received read))) := by
    simp [rootsAccepted, configuredManagedFileRoots, hempty]
  rw [haccepted, Bool.and_eq_true, inventory_received_iff hreadLength,
    inventory_received_iff hwriteLength]
  constructor
  · rintro ⟨⟨hhubRead, hreadNodup⟩, hhubWrite, hwriteNodup⟩
    refine ⟨⟨fun root hroot => ?_, hreadNodup⟩, hwriteNodup, fun root hroot => ?_⟩
    · obtain ⟨-, hlen, hcontrol, -⟩ := hhubRead root hroot
      exact ⟨hlen, hcontrol⟩
    · exact (hhubWrite root hroot).2.2.2 (received read) rfl
  · rintro ⟨⟨hpresentable, hreadNodup⟩, hwriteNodup, hmember⟩
    refine ⟨⟨fun root hroot => ?_, hreadNodup⟩, fun root hroot => ?_, hwriteNodup⟩
    · obtain ⟨hlen, hcontrol⟩ := hpresentable root hroot
      exact ⟨cleanDirectory_received hreadClean root hroot, hlen, hcontrol, nofun⟩
    · obtain ⟨hlen, hcontrol⟩ := hpresentable root (hmember root hroot)
      refine ⟨cleanDirectory_received hwriteClean root hroot, hlen, hcontrol, ?_⟩
      intro parents hparents
      rw [← Option.some.inj hparents]
      exact hmember root hroot

/-- The second root is not UTF-8. -/
theorem managed_file_roots_accepted_same :
    rootsAccepted ⟨[ascii "/srv", ascii "/home/\xff"], [ascii "/srv"]⟩ = true := by
  have hload : loadFileRoots (ascii "/srv, /home/\xff,/srv") (ascii " /srv") =
      .ok ⟨[ascii "/srv", ascii "/home/\xff"], [ascii "/srv"]⟩ := by decide +kernel
  have hread : received [ascii "/srv", ascii "/home/\xff"] =
      [ascii "/srv", ascii "/home/" ++ Utf8.replacement] := by decide +kernel
  refine (managed_file_roots_accepted_iff hload).mpr
    ⟨⟨?_, by decide +kernel⟩, by decide +kernel, by decide +kernel⟩
  intro root hroot
  rcases mem_pair.mp (hread ▸ hroot) with rfl | rfl
  · exact ⟨by decide, by decide⟩
  · exact ⟨by decide, by decide⟩

/-- A write root below a read root is accepted by the agent and refused by the hub. -/
theorem nested_write_root_refused :
    ∃ cfg, loadFileRoots (ascii "/srv") (ascii "/srv/app") = .ok cfg ∧ rootsAccepted cfg = false :=
  ⟨⟨[ascii "/srv"], [ascii "/srv/app"]⟩, by decide +kernel, by decide +kernel⟩

end HeyServer.Agent
