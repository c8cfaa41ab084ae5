import HeyServer.Agent.StateFiles
import HeyServer.Lib.Interleaving

/-!
# Agent and installer on one node

The agent process, the profile directory, the service unit and the installer's
`apply_profile` as programs of atomic operations on one node. The agent reads
its configuration once when it starts and the profile files again for every
heartbeat; the installer restarts the agent in the middle of its run.

## Implementation notes

An operation of an agent process is ready only while that process runs, so the
calls of a process that was stopped never go on. A command that can fail for
reasons outside the model is governed by a fault of the call that issues it;
reading a profile file never fails. The work of the unit generator on the service
file is a parameter.
-/

namespace HeyServer.Agent
open Lib Hub

/-! ## The node -/

/-- A running agent; it has no configuration until it has read it. -/
structure Process where
  pid : Nat
  config : Option DeployConfig

structure Node where
  files : ProfileFile → Option Bytes
  /-- The service file. -/
  unit : Bytes
  agent : Option Process
  nextPid : Nat
  /-- The revisions installer runs were scheduled for, the last one first. -/
  scheduled : List Int

/-- A node without profile files on which no agent runs. -/
def Node.fresh (unit : Bytes) : Node := ⟨fun _ => none, unit, none, 0, []⟩

inductive Actor
  | agent (pid : Nat)
  | installer
  deriving DecidableEq

inductive NodeOp
  | read (actor : Actor) (file : ProfileFile)
  | write (actor : Actor) (file : ProfileFile) (data : Bytes)
  | remove (file : ProfileFile)
  | readUnit
  | writeUnit (text : Bytes)
  | isActive
  | start
  | restart
  | stop
  | configure (pid : Nat) (config : DeployConfig)
  | send (pid : Nat) (observation : Option AgentProfileObservation)
  | schedule (pid : Nat) (revision : Int)

@[reducible] def NodeReply : NodeOp → Type
  | .read _ _ => Option Bytes
  | .readUnit => Bytes
  | .isActive => Bool
  | _ => Unit

namespace Node

variable (node : Node)

def setFile (file : ProfileFile) (data : Option Bytes) : Node :=
  { node with files := Function.update node.files file data }

/-- A new process takes the place of the old one. -/
def spawn : Node :=
  { node with agent := some ⟨node.nextPid, none⟩, nextPid := node.nextPid + 1 }

def exec : (op : NodeOp) → Node × NodeReply op
  | .read _ file => (node, node.files file)
  | .write _ file data => (node.setFile file (some data), ())
  | .remove file => (node.setFile file none, ())
  | .readUnit => (node, node.unit)
  | .writeUnit text => ({ node with unit := text }, ())
  | .isActive => (node, node.agent.isSome)
  | .start => (node.spawn, ())
  | .restart => (node.spawn, ())
  | .stop => ({ node with agent := none }, ())
  | .configure _ config =>
    ({ node with agent := node.agent.map fun process => { process with config := some config } }, ())
  | .send _ _ => (node, ())
  | .schedule _ revision => ({ node with scheduled := revision :: node.scheduled }, ())

/-- The process with this identifier runs. -/
def runs (pid : Nat) : Bool := node.agent.any fun process => process.pid = pid

def ready : NodeOp → Bool
  | .read (.agent pid) _ | .write (.agent pid) _ _ | .schedule pid _ => node.runs pid
  | .configure pid _ =>
    node.agent.any fun process => process.pid = pid && process.config.isNone
  | .send pid _ => node.agent.any fun process => process.pid = pid && process.config.isSome
  | .start => node.agent.isNone
  | _ => true

end Node

def nodeSemantics : Semantics Node NodeOp NodeReply where
  exec := Node.exec
  ready := Node.ready

abbrev NodeM := Prog NodeOp NodeReply

def issue (op : NodeOp) : NodeM (NodeReply op) := Prog.perform op

def readFile (actor : Actor) (file : ProfileFile) : NodeM (Option Bytes) := issue (.read actor file)

/-! ## The agent -/

/-- A process that starts: `loadConfigFromEnv` with the environment's deployment fields. -/
def startAgent (pid : Nat) (env : DeployConfig) : NodeM Unit := do
  let active ← readFile (.agent pid) .active
  let state ← readFile (.agent pid) .state
  issue (.configure pid (loadConfigFromEnv env active state))

/-- The heartbeat of `runCycle`; `profileApplyReady` decides whether it carries an observation. -/
def heartbeat (pid : Nat) (profileApplyReady : Bool) : NodeM Unit :=
  if profileApplyReady then do
    let active ← readFile (.agent pid) .active
    let state ← readFile (.agent pid) .state
    issue (.send pid (some (loadActiveProfile active state).observation))
  else issue (.send pid none)

/-- What becomes of an atomic write: done, lost, or published with a failed directory sync. -/
inductive WriteFate
  | done | lost | unsynced
  deriving DecidableEq

/-- What fails during one `apply`. -/
structure ApplyFaults where
  ready : Bool
  directory : Bool
  previous : WriteFate
  candidate : WriteFate
  pending : WriteFate
  schedule : Bool
  failed : WriteFate

def ApplyFaults.none : ApplyFaults := ⟨true, true, .done, .done, .done, true, .done⟩

/-- `writeAtomicProfileFile`: whether it reported success. -/
def writeAtomicProfileFile (pid : Nat) (file : ProfileFile) (data : Option Bytes) :
    WriteFate → NodeM Bool
  | .lost => pure false
  | .done =>
    match data with
    | none => pure false
    | some data => do
        issue (.write (.agent pid) file data)
        return true
  | .unsynced =>
    match data with
    | none => pure false
    | some data => do
        issue (.write (.agent pid) file data)
        return false

def writeWrapper (pid : Nat) (file : ProfileFile) (wrapper : ProfileWrapper) (fate : WriteFate) :
    NodeM Bool :=
  writeAtomicProfileFile pid file (marshalProfileWrapper wrapper).toOption fate

inductive ApplyState
  | restartScheduled | alreadyActive
  deriving DecidableEq

structure ProfileApplyOutcome where
  state : ApplyState
  revision : Int
  deriving DecidableEq

abbrev ApplyResult := Except ProfileErrorCode ProfileApplyOutcome

variable (wrapper : ProfileWrapper)

/-- The answers `apply` gives because of a pending restart. -/
def pendingShortcut : Option ProfileStateDocument → Option ApplyResult
  | some state =>
    if state.state ≠ .pendingRestart then none
    else if wrapper.revision < state.revision then some (.error .superseded)
    else if wrapper.revision = state.revision then
      some (.ok ⟨.restartScheduled, state.revision⟩)
    else none
  | none => none

/-- The answers `apply` gives from the files alone. -/
def applyShortcut (active : Option ProfileWrapper)
    (state : Option ProfileStateDocument) : Option ApplyResult :=
  match active with
  | some active =>
    if wrapper.revision < active.revision then some (.error .superseded)
    else if wrapper.revision = active.revision then
      some (.ok ⟨.alreadyActive, active.revision⟩)
    else pendingShortcut wrapper state
  | none => pendingShortcut wrapper state

/-- The end of `apply`: the installer run, or the record that it could not be scheduled. -/
def scheduleProfileApply (pid : Nat) (revision : Int) (faults : ApplyFaults) :
    NodeM ApplyResult :=
  if faults.schedule then do
    issue (.schedule pid revision)
    return .ok ⟨.restartScheduled, revision⟩
  else do
    let _ ← writeAtomicProfileFile pid .state
      (writeState ⟨profileSchemaVersion, .failed, revision, ProfileErrorCode.scheduleFailed.text⟩)
      faults.failed
    return .error .scheduleFailed

/-- The active profile is kept as the previous one. -/
def savePrevious (pid : Nat) (fate : WriteFate) : Option ProfileWrapper → NodeM Bool
  | some active => writeWrapper pid .previous active fate
  | none => pure true

/-- The writes of `apply`. -/
def stageProfile (pid : Nat) (wrapper : ProfileWrapper) (active : Option ProfileWrapper)
    (faults : ApplyFaults) : NodeM ApplyResult :=
  if faults.directory = false then pure (.error .storeFailed)
  else do
    let saved ← savePrevious pid faults.previous active
    if saved = false then pure (.error .storeFailed)
    else do
      let staged ← writeWrapper pid .candidate wrapper faults.candidate
      if staged = false then pure (.error .storeFailed)
      else do
        let recorded ← writeAtomicProfileFile pid .state
          (writeState ⟨profileSchemaVersion, .pendingRestart, wrapper.revision, []⟩) faults.pending
        if recorded = false then pure (.error .storeFailed)
        else scheduleProfileApply pid wrapper.revision faults

/-- `profileApplyController.apply` -/
def apply (pid : Nat) (payload : StrMap) (faults : ApplyFaults) : NodeM ApplyResult :=
  match decodeProfileTaskPayload payload with
  | .error code => pure (.error code)
  | .ok wrapper =>
    if faults.ready = false then pure (.error .applyUnavailable)
    else do
      let activeFile ← readFile (.agent pid) .active
      match readWrapper activeFile with
      | .error _ => pure (.error .corrupt)
      | .ok active => do
          let stateFile ← readFile (.agent pid) .state
          match readState stateFile with
          | .error _ => pure (.error .stateCorrupt)
          | .ok state =>
            match applyShortcut wrapper active state with
            | some result => pure result
            | none => stageProfile pid wrapper active faults

/-! ## The installer -/

namespace Installer

/-- The commands of one installer run that can fail on their own. -/
inductive Fault
  | validateConfig | ensureDirectory | candidateFile | python | normalizedFile | decode
  | normalizedOwner | transactionDir | transactionOwner | snapshotUnit
  | snapshot (file : ProfileFile) | collectPaths | buildUnit
  | writePending | moveUnit | daemonReload | restart | restartDown | writeActive | writePrevious
  | writeStateActive | removeCandidate | restoreUnit | restore (file : ProfileFile) | restartBack
  | restartBackDown | stopBack | directoryBack | writeFailed
  deriving DecidableEq

/-- The host of the installer: the paths it protects, the unit generator and the time it
waits for the service. -/
structure Env where
  host : Host
  serviceCandidate : Bytes → AgentProfile → Bytes
  healthTimeout : Nat

/-- The copies in the transaction directory; a file that was not copied is `none`. -/
structure Snapshot where
  unit : Option Bytes
  files : ProfileFile → Option Bytes
  wasActive : Bool

def Snapshot.empty : Snapshot := ⟨none, fun _ => none, false⟩

/-- The order in which snapshot and restore go through the files. -/
def profileNames : List ProfileFile := [.candidate, .active, .previous, .state]

variable (faults : Fault → Bool)

/-- A write of the installer: whether it was done. -/
def writeFile (fault : Fault) (file : ProfileFile) (data : Option Bytes) : NodeM Bool :=
  if faults fault then pure false
  else
    match data with
    | none => pure false
    | some data => do
        issue (.write .installer file data)
        return true

/-- The loop of `profile_snapshot_transaction` over the profile files. -/
def snapshotFiles (faults : Fault → Bool) (snapshot : Snapshot) :
    List ProfileFile → NodeM (Snapshot × Bool)
  | [] => pure (snapshot, true)
  | file :: rest => do
      let data ← readFile .installer file
      match data with
      | none => snapshotFiles faults snapshot rest
      | some data =>
        if faults (.snapshot file) then pure (snapshot, false)
        else
          snapshotFiles faults
            { snapshot with files := Function.update snapshot.files file (some data) } rest

/-- `profile_snapshot_transaction`: the transaction directory, if it was made, and whether
everything was copied. -/
def profileSnapshotTransaction : NodeM (Option Snapshot × Bool) :=
  if faults .transactionDir then pure (none, false)
  else if faults .transactionOwner ∨ faults .snapshotUnit then pure (some .empty, false)
  else do
    let unit ← issue .readUnit
    let (snapshot, copied) ← snapshotFiles faults ⟨some unit, fun _ => none, false⟩ profileNames
    if copied = false then pure (some snapshot, false)
    else do
      let active ← issue .isActive
      return (some { snapshot with wasActive := active }, true)

variable (snapshot : Snapshot)

/-- One round of `profile_restore_transaction`; its failure is ignored. -/
def restoreFile (file : ProfileFile) : NodeM Unit :=
  if faults (.restore file) then pure ()
  else
    match snapshot.files file with
    | some data => issue (.write .installer file data)
    | none => issue (.remove file)

/-- The loop of `profile_restore_transaction` over the profile files. -/
def restoreFiles (faults : Fault → Bool) (snapshot : Snapshot) : List ProfileFile → NodeM Unit
  | [] => pure ()
  | file :: rest => do
      restoreFile faults snapshot file
      restoreFiles faults snapshot rest

def restoreUnit : Option Bytes → NodeM Unit
  | some unit => if faults .restoreUnit then pure () else issue (.writeUnit unit)
  | none => pure ()

def profileRestoreTransaction : NodeM Unit := do
  restoreUnit faults snapshot.unit
  restoreFiles faults snapshot profileNames

/-- `systemctl restart`; a failed one may have stopped the service. -/
def systemctlRestart (fails down : Fault) : NodeM Bool :=
  if faults fails then
    if faults down then do
      issue .stop
      return false
    else pure false
  else do
    issue .restart
    return true

/-- `profile_active_checks`, with the rounds that are left. -/
def profileActiveChecks : Nat → Nat → NodeM Bool
  | 0, _ => pure false
  | rounds + 1, stable => do
      let active ← issue .isActive
      if active then
        if 2 ≤ stable + 1 then pure true else profileActiveChecks rounds (stable + 1)
      else profileActiveChecks rounds 0

/-- The service after a failed transaction: restarted if it ran before, else stopped. -/
def restoreService : NodeM Unit :=
  if snapshot.wasActive then do
    let _ ← systemctlRestart faults .restartBack .restartBackDown
    return ()
  else if faults .stopBack then pure ()
  else issue .stop

/-- What `profile_apply_fail` undoes, if there is a transaction directory. -/
def rollback : Option Snapshot → NodeM Unit
  | some snapshot => do
      profileRestoreTransaction faults snapshot
      restoreService faults snapshot
  | none => pure ()

variable (code : ProfileErrorCode)

/-- The failure `profile_apply_fail` records. -/
def recordFailure (revision : Bytes) : NodeM Bool :=
  if faults .directoryBack then pure false
  else writeFile faults .writeFailed .state (profileWriteState .failed revision code.text)

/-- `profile_apply_fail` -/
def profileApplyFail
    (profileRevision : Option Int) (transaction : Option Snapshot) : NodeM Bool := do
  let stateFile ← readFile .installer .state
  rollback faults transaction
  let _ ← recordFailure faults code (failureRevision profileRevision stateFile)
  return false

/-- The previous active file is kept. -/
def keepPrevious : Option Bytes → NodeM Bool
  | some data => writeFile faults .writePrevious .previous (some data)
  | none => pure true

def removeCandidate : NodeM Unit :=
  if faults .removeCandidate then pure () else issue (.remove .candidate)

/-- The last part of `apply_profile`, after the service has been restarted. -/
def publishProfile (candidate : Candidate) (snapshot : Snapshot) : NodeM Bool := do
  let published ← writeFile faults .writeActive .active (some candidate.canonical)
  if published = false then
    profileApplyFail faults .storeFailed (some candidate.revision) (some snapshot)
  else do
    let saved ← keepPrevious faults (snapshot.files .active)
    if saved = false then
      profileApplyFail faults .storeFailed (some candidate.revision) (some snapshot)
    else do
      let recorded ← writeFile faults .writeStateActive .state
        (profileWriteState .active (Decimal.formatInt candidate.revision) [])
      if recorded = false then
        profileApplyFail faults .storeFailed (some candidate.revision) (some snapshot)
      else do
        removeCandidate faults
        return true

variable (env : Env) (faults : Fault → Bool)

/-- The service is restarted with the new unit and has to stay up. -/
def restartService (profile : AgentProfile) : NodeM Bool := do
  let unit ← issue .readUnit
  issue (.writeUnit (env.serviceCandidate unit profile))
  if faults .daemonReload then pure false
  else do
    let restarted ← systemctlRestart faults .restart .restartDown
    if restarted = false then pure false else profileActiveChecks env.healthTimeout 0

/-- The middle part of `apply_profile`: the pending state, the unit and the restart. -/
def installUnit (candidate : Candidate) (snapshot : Snapshot) : NodeM Bool :=
  if faults .collectPaths then
    profileApplyFail faults .payloadInvalid (some candidate.revision) (some snapshot)
  else if faults .buildUnit then
    profileApplyFail faults .storeFailed (some candidate.revision) (some snapshot)
  else do
    let recorded ← writeFile faults .writePending .state
      (profileWriteState .pendingRestart (Decimal.formatInt candidate.revision) [])
    if recorded = false ∨ faults .moveUnit = true then
      profileApplyFail faults .storeFailed (some candidate.revision) (some snapshot)
    else do
      let stable ← restartService env faults candidate.profile
      if stable = false then
        profileApplyFail faults .scheduleFailed (some candidate.revision) (some snapshot)
      else publishProfile faults candidate snapshot

/-- `profile_parse_candidate` on the contents of the candidate file. -/
def profileParseCandidate (file : Option Bytes) :
    Except (ProfileErrorCode × Option Int) Candidate :=
  match file with
  | none => .error (.payloadInvalid, none)
  | some data =>
    if faults .candidateFile then .error (.payloadInvalid, none)
    else if maxProfileDocumentBytes < data.length then .error (.payloadTooLarge, none)
    else if faults .python then .error (.storeFailed, none)
    else
      match validateCandidate env.host data with
      | .error code => .error (code, none)
      | .ok candidate =>
        if faults .normalizedFile then .error (.storeFailed, some candidate.revision)
        else if faults .decode then .error (.payloadInvalid, some candidate.revision)
        else if faults .normalizedOwner then .error (.storeFailed, some candidate.revision)
        else .ok candidate

/-- `apply_profile` -/
def applyProfile : NodeM Bool :=
  if faults .validateConfig then profileApplyFail faults .storeFailed none none
  else if faults .ensureDirectory then profileApplyFail faults .storeFailed none none
  else do
    let file ← readFile .installer .candidate
    match profileParseCandidate env faults file with
    | .error (code, revision) => profileApplyFail faults code revision none
    | .ok candidate => do
        let (transaction, copied) ← profileSnapshotTransaction faults
        match transaction, copied with
        | some snapshot, true => installUnit env faults candidate snapshot
        | transaction, _ =>
          profileApplyFail faults .corrupt (some candidate.revision) transaction

end Installer

/-! ## Calls -/

/-- What happens on the node. -/
inductive NodeCall
  /-- The service manager starts the agent. -/
  | boot
  /-- The agent process ends. -/
  | exit
  | startAgent (pid : Nat) (env : DeployConfig)
  | heartbeat (pid : Nat) (profileApplyReady : Bool)
  | apply (pid : Nat) (payload : StrMap) (faults : ApplyFaults)
  | applyProfile (faults : Installer.Fault → Bool)

inductive NodeValue
  | unit
  | applied (result : ApplyResult)
  | installed (ok : Bool)

def NodeCall.program (env : Installer.Env) : NodeCall → NodeM NodeValue
  | .boot => (fun _ => .unit) <$> issue .start
  | .exit => (fun _ => .unit) <$> issue .stop
  | .startAgent pid deploy => (fun _ => .unit) <$> Agent.startAgent pid deploy
  | .heartbeat pid ready => (fun _ => .unit) <$> Agent.heartbeat pid ready
  | .apply pid payload faults => .applied <$> Agent.apply pid payload faults
  | .applyProfile faults => .installed <$> Installer.applyProfile env faults

def nodeSystem (env : Installer.Env) : System Node NodeOp NodeReply NodeCall NodeValue where
  sem := nodeSemantics
  program := NodeCall.program env

/-- A host that protects no path and whose unit stays as it is. -/
def quietEnv : Installer.Env := ⟨Installer.plainHost, fun unit _ => unit, 2⟩

/-- The environment of an agent without a profile. -/
def bareConfig : DeployConfig := ⟨false, false, false, false, [], [], []⟩

end HeyServer.Agent
