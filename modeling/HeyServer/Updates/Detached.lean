import HeyServer.Lib.Affixes
import HeyServer.Lib.Text
import HeyServer.Lib.Typestate

/-!
# Detached upgrades

An upgrade of the panel, and every lifecycle operation of an agent, is carried out by a script that
runs in a transient systemd unit of its own, because it restarts the program that scheduled it. The
script and the program share two files of the stage, its status and a detail. A program that finds
the status scheduled or running asks systemd for the unit and marks the stage as failed when the
unit is gone.

## Implementation notes

Each file is replaced by a rename, so that reading and writing it are single operations; whether a
write fails, what the release check and the downloads come to, and how far the script gets before it
is stopped are arguments of the calls. The panel and the agent each hold their mutex from the first
to the last operation of a call. `process` numbers the lives of the program: a call of an earlier
one never goes on. Times, the action and the version of an agent's operation are left out.

`loaded`, `finished`, `overwritten` and `misreported` are recorded for the statements only.
-/

namespace HeyServer.Updates
open Lib Lib.Affixes Text

/-! ## Status and detail -/

inductive Status
  | idle
  | staged
  | scheduled
  | running
  | completed
  | failed
deriving DecidableEq

namespace Status

def text : Status → Bytes
  | idle => ascii "idle"
  | staged => ascii "staged"
  | scheduled => ascii "scheduled"
  | running => ascii "running"
  | completed => ascii "completed"
  | failed => ascii "failed"

variable (st : Status)

/-- The contents of a status file. -/
def file : Bytes := st.text ++ ascii "\n"

/-- No script and no call goes on with such a stage. -/
def terminal : Bool := st = completed || st = failed

def pending : Bool := st = scheduled || st = running

end Status

/-- What is told about a stage, or about none. -/
structure Report where
  id : Option Bytes
  status : Status
  detail : Bytes
deriving DecidableEq

def stageStatusDetail : Status → Bytes
  | .staged => ascii "Release archive verified and ready for admin confirmation."
  | .scheduled => ascii "Detached panel upgrade scheduled."
  | .running => ascii "Packaged panel installer is running."
  | .completed => ascii "New panel release passed its health check."
  | .failed => ascii "Panel upgrade failed; inspect the upgrade and panel service journals."
  | .idle => ascii "Unknown panel upgrade state."

/-- The switch of the panel's `readStatus`. -/
def readStatus (payload : Bytes) : Option Status :=
  [Status.staged, .scheduled, .running, .completed, .failed].find? (·.text = trimSpace payload)

def readStatusDetail (payload : Option Bytes) (st : Status) : Bytes :=
  if trimSpace (payload.getD []) = [] then stageStatusDetail st
  else trimSpace (payload.getD [])

/-- `readAgentUpdateFile`. -/
def readAgentUpdateFile (payload : Option Bytes) : Bytes := trimSpace (payload.getD [])

/-- What `loadOperation` makes of the two files. -/
def operation (id : Bytes) (status detail : Option Bytes) : Report :=
  match [Status.scheduled, .running, .completed, .failed].find?
      (·.text = readAgentUpdateFile status) with
  | some st => ⟨some id, st, readAgentUpdateFile detail⟩
  | none => ⟨some id, .failed, ascii "The persisted agent lifecycle status is invalid."⟩

/-! ## The unit -/

inductive UnitState
  | gone
  /-- The timer of a stage waits. -/
  | timer (id : Bytes)
  /-- The script of a stage runs. -/
  | service (id : Bytes)
deriving DecidableEq

def UnitState.waiting : UnitState → Bool
  | timer _ => true
  | _ => false

/-- `systemctl show` for the timer and the service. -/
def UnitState.shown : UnitState → Bytes
  | gone => ascii "LoadState=not-found\nActiveState=inactive\n\nLoadState=not-found\nActiveState=inactive\n"
  | timer _ => ascii "LoadState=loaded\nActiveState=active\n\nLoadState=loaded\nActiveState=inactive\n"
  | service _ => ascii "LoadState=loaded\nActiveState=active\n\nLoadState=loaded\nActiveState=active\n"

/-- The value of a key in a block of properties; a later line overrides an earlier one. -/
def property (key block : Bytes) : Bytes :=
  (((split 0x0A block).filterMap fun line => cut 0x3D (trimSpace line)).reverse.find?
    (·.1 = key)).elim [] (·.2)

/-- Whether one of the blocks is active, and whether that is certain. -/
def blocksState : List Bytes → Bool × Bool
  | [] => (false, true)
  | block :: rest =>
    if property (ascii "LoadState") block = [] then (false, false)
    else if property (ascii "ActiveState") block ∈
        [ascii "active", ascii "activating", ascii "reloading", ascii "deactivating"] then
      (true, true)
    else if property (ascii "ActiveState") block ∈ [ascii "inactive", ascii "failed"] then
      blocksState rest
    else (false, false)

def detachedUpgradeState (output : Bytes) : Bool × Bool :=
  if (splitSeq (ascii "\n\n") (trimSpace output)).length ≠ 2 then (false, false)
  else blocksState (splitSeq (ascii "\n\n") (trimSpace output))

/-- The agent's copy of the function. -/
def detachedAgentLifecycleState (output : Bytes) : Bool × Bool := detachedUpgradeState output

/-! ## The shared state -/

/-- What is on the disk: the marker (`latest` of the panel, `current` of the agent), the directories
of the agent's operations and the two files of each stage. -/
structure Store where
  marker : Option Bytes := none
  dirs : List Bytes := []
  status : Bytes → Option Bytes := fun _ => none
  detail : Bytes → Option Bytes := fun _ => none

structure UpdateState extends Store where
  process : Nat := 0
  locked : Bool := false
  unit : UnitState := .gone
  /-- The stage whose status the holder of the mutex has read or scheduled. -/
  loaded : Option Bytes := none
  /-- The terminal status the script of a stage has written since it was scheduled last. -/
  finished : Bytes → Option Status := fun _ => none
  /-- A terminal status of a script was overwritten without scheduling the stage again. -/
  overwritten : Bool := false
  /-- A call returned another status than completed for a stage whose script has completed it. -/
  misreported : Bool := false

/-- A file the script writes. -/
inductive ScriptWrite
  | status (st : Status)
  | detail (text : Bytes)
deriving DecidableEq

/-- The operations of a call begin with the process it belongs to. -/
inductive UpdateOp
  | lock (p : Nat)
  /-- The deferred unlock of a call that returns `report`. -/
  | unlock (p : Nat) (report : Option Report)
  | readMarker (p : Nat)
  | readStatus (p : Nat) (id : Bytes)
  | readDetail (p : Nat) (id : Bytes)
  | makeDir (p : Nat) (id : Bytes) (fails : Bool)
  | writeStatus (p : Nat) (id : Bytes) (st : Status) (fails : Bool)
  | writeDetail (p : Nat) (id : Bytes) (text : Bytes) (fails : Bool)
  | writeMarker (p : Nat) (id : Bytes) (fails : Bool)
  | systemctl (p : Nat) (fails : Bool)
  /-- `systemd-run`: whether it gets to creating the unit, and whether it reports that. -/
  | systemdRun (p : Nat) (id : Bytes) (created reported : Bool)
  /-- The timer of a stage elapses and its script starts. -/
  | start (id : Bytes)
  | put (id : Bytes) (write : ScriptWrite)
  /-- The script ends or is killed, and the unit is collected. -/
  | exit (id : Bytes)
  /-- The waiting timer is stopped. -/
  | stop
  /-- The panel or the agent is restarted. -/
  | restart
deriving DecidableEq

namespace UpdateOp

def Reply : UpdateOp → Type
  | readMarker _ | readStatus _ _ | readDetail _ _ | systemctl _ _ => Option Bytes
  | makeDir _ _ _ | writeStatus _ _ _ _ | writeDetail _ _ _ _ | writeMarker _ _ _
  | systemdRun _ _ _ _ => Bool
  | _ => Unit

/-- The process whose call issues the operation. -/
def process? : UpdateOp → Option Nat
  | lock p | unlock p _ | readMarker p | readStatus p _ | readDetail p _ | makeDir p _ _
  | writeStatus p _ _ _ | writeDetail p _ _ _ | writeMarker p _ _ | systemctl p _
  | systemdRun p _ _ _ => some p
  | start _ | put _ _ | exit _ | stop | restart => none

end UpdateOp

namespace UpdateState

variable (s : UpdateState)

/-- A status is written to the file of a stage: by its script, to schedule it, or by a call that
gives it up. -/
def writeStatus (id : Bytes) (st : Status) (finished : Bytes → Option Status)
    (overwritten : Bool) : UpdateState :=
  { s with status := Function.update s.status id (some st.file), finished, overwritten }

def writeDetail (id text : Bytes) : UpdateState :=
  { s with detail := Function.update s.detail id (some (text ++ ascii "\n")) }

/-- The report tells a stage's script has not completed although it has. -/
def misreports (report : Option Report) : Bool :=
  report.any fun r => r.id.any fun id => s.finished id = some .completed && r.status ≠ .completed

end UpdateState

def UpdateOp.exec (s : UpdateState) : (op : UpdateOp) → UpdateState × op.Reply
  | .lock _ => ({ s with locked := true }, ())
  | .unlock _ report =>
    ({ s with locked := false, loaded := none,
              misreported := s.misreported || s.misreports report }, ())
  | .readMarker _ => (s, s.marker)
  | .readStatus _ id => ({ s with loaded := some id }, s.status id)
  | .readDetail _ id => (s, s.detail id)
  | .makeDir _ id fails =>
    if fails || s.dirs.contains id then (s, false) else ({ s with dirs := id :: s.dirs }, true)
  | .writeStatus _ id st fails =>
    if fails then (s, false)
    else if st = .scheduled then
      ({ s.writeStatus id st (Function.update s.finished id none) s.overwritten with
          loaded := some id }, true)
    else (s.writeStatus id st s.finished (s.overwritten || (s.finished id).isSome), true)
  | .writeDetail _ id text fails => if fails then (s, false) else (s.writeDetail id text, true)
  | .writeMarker _ id fails =>
    if fails then (s, false) else ({ s with marker := some (id ++ ascii "\n") }, true)
  | .systemctl _ fails => (s, if fails then none else some s.unit.shown)
  | .systemdRun _ id created reported =>
    -- a unit of this name must not exist
    if created && s.unit = .gone then ({ s with unit := .timer id }, reported) else (s, false)
  | .start id => ({ s with unit := .service id }, ())
  | .put id (.status st) =>
    (s.writeStatus id st
      (if st.terminal then Function.update s.finished id (some st) else s.finished)
      (s.overwritten || (s.finished id).isSome), ())
  | .put id (.detail text) => (s.writeDetail id text, ())
  | .exit _ => ({ s with unit := .gone }, ())
  | .stop => ({ s with unit := .gone }, ())
  | .restart => ({ s with process := s.process + 1, locked := false, loaded := none }, ())

def UpdateOp.ready (s : UpdateState) (op : UpdateOp) : Bool :=
  op.process?.all (· = s.process) &&
    match op with
    | .lock _ => !s.locked
    | .start id => s.unit = .timer id
    | .stop => s.unit.waiting
    | _ => true

abbrev UpdateProg := Prog UpdateOp UpdateOp.Reply

inductive UpdateError
  | confirmationRequired
  | invalidStage
  /-- A file of the stage could not be read. -/
  | unreadable
  | stageConflict
  | stageIntegrity
  | installedPath
  | statusWrite
  | upgradeSchedule
  /-- An agent's operation is active already. -/
  | operationConflict
  /-- The release, or the snapshot to go back to, is not available. -/
  | unavailable
  | newOperation
  | staging
deriving DecidableEq

/-- What a call returns; `Latest` may have nothing to tell. -/
abbrev Outcome := Except UpdateError (Option Report)

/-- Which writes of a status with its detail fail. -/
structure WriteFaults where
  status : Bool := false
  detail : Bool := false
deriving DecidableEq

/-- The `defer` of a call. -/
def returning (p : Nat) (outcome : Outcome) : UpdateProg Outcome :=
  .call (.unlock p outcome.toOption.join) fun _ => .done outcome

/-! ## The panel -/

namespace Panel

structure Config where
  /-- The version in the record of a stage, if it can be read and is valid. -/
  version : Bytes → Option Bytes

def validStageIdByte (c : UInt8) : Bool :=
  (97 ≤ c && c ≤ 122) || (65 ≤ c && c ≤ 90) || (48 ≤ c && c ≤ 57) || c = 46 || c = 95 || c = 45

def validStageID (id : Bytes) : Bool :=
  3 ≤ id.length && id.length ≤ 96 && id.all validStageIdByte

def writeStageStatus (p : Nat) (id : Bytes) (st : Status) (detail : Bytes) (faults : WriteFaults) :
    UpdateProg Bool :=
  .call (.writeDetail p id (if trimSpace detail = [] then stageStatusDetail st else detail)
      faults.detail) fun (ok : Bool) =>
    if ok then .call (.writeStatus p id st faults.status) .done else .done false

section
variable (cfg : Config) (p : Nat) (id : Bytes)

def getLocked : UpdateProg (Except UpdateError Report) :=
  if !validStageID id || (cfg.version id).isNone then .done (.error .invalidStage)
  else
    .call (.readStatus p id) fun (payload : Option Bytes) =>
      if payload = none then .done (.error .unreadable)
      else
        (readStatus (payload.getD [])).elim (.done (.error .invalidStage)) fun st =>
          .call (.readDetail p id) fun (detail : Option Bytes) =>
            .done (.ok ⟨some id, st, readStatusDetail detail st⟩)

/-- How reconciling goes: whether `systemctl` fails, and the writes. -/
structure Reconciling where
  systemctl : Bool := false
  write : WriteFaults := {}
deriving DecidableEq

def interrupted : Bytes :=
  ascii "Detached upgrade unit ended before writing a terminal result; the operation was interrupted."

def reconcileInterruptedLocked (record : Report) (faults : Reconciling) : UpdateProg Report :=
  if !record.status.pending then .done record
  else
    .call (.systemctl p faults.systemctl) fun (output : Option Bytes) =>
      if output.map detachedUpgradeState = some (false, true) then do
        let written ← writeStageStatus p id .failed interrupted faults.write
        if written then .done { record with status := .failed, detail := interrupted }
        else .done record
      else .done record

variable (faults : Reconciling)

/-- The body of `Get`. -/
def getReconciled : UpdateProg (Except UpdateError Report) := do
  let record ← getLocked cfg p id
  match record with
  | .error e => .done (.error e)
  | .ok record => do
      let record ← reconcileInterruptedLocked p id record faults
      .done (.ok record)

def get : UpdateProg Outcome :=
  .call (.lock p) fun _ => do
    let record ← getReconciled cfg p id faults
    returning p (record.map some)

def latest : UpdateProg Outcome :=
  .call (.lock p) fun _ => .call (.readMarker p) fun (marker : Option Bytes) =>
    if marker = none then returning p (.ok none)
    else if !validStageID (trimSpace (marker.getD [])) then returning p (.error .invalidStage)
    else do
      let record ← getReconciled cfg p (trimSpace (marker.getD [])) faults
      returning p (record.map some)

/-- The arguments of `Schedule` and how its steps go. -/
structure Scheduling where
  id : Bytes
  version : Bytes
  confirmed : Bool := true
  reconciling : Reconciling := {}
  /-- The files of the stage match its record. -/
  intact : Bool := true
  /-- The installed executables are where they should be. -/
  installed : Bool := true
  scheduled : WriteFaults := {}
  created : Bool := true
  reported : Bool := true
  failed : WriteFaults := {}
deriving DecidableEq

def Scheduling.create (c : Scheduling) (p : Nat) : UpdateProg Outcome := do
  let written ← writeStageStatus p c.id .scheduled (stageStatusDetail .scheduled) c.scheduled
  if !written then returning p (.error .statusWrite)
  else
    .call (.systemdRun p c.id c.created c.reported) fun (ok : Bool) =>
      if ok then returning p (.ok (some ⟨some c.id, .scheduled, stageStatusDetail .scheduled⟩))
      else do
        let _ ← writeStageStatus p c.id .failed
          (ascii "Could not create the detached systemd upgrade unit.") c.failed
        returning p (.error .upgradeSchedule)

def Scheduling.check (c : Scheduling) (p : Nat) (record : Report) : UpdateProg Outcome :=
  if c.version = [] || cfg.version c.id ≠ some c.version then returning p (.error .invalidStage)
  else if record.status.pending || record.status =
    .completed then returning p (.error .stageConflict)
  else if record.status = .idle then returning p (.error .invalidStage)
  else if !c.intact then returning p (.error .stageIntegrity)
  else if !c.installed then returning p (.error .installedPath)
  else c.create p

def schedule (c : Scheduling) : UpdateProg Outcome :=
  if !c.confirmed then .done (.error .confirmationRequired)
  else
    .call (.lock p) fun _ => do
      let record ← getReconciled cfg p c.id c.reconciling
      match record with
      | .error e => returning p (.error e)
      | .ok record => c.check cfg p record

end

/-- How the packaged installer and the check of the installed release come out. -/
inductive Ending
  | matching
  | restored
  | notRestored
  | failed
deriving DecidableEq

def writeState (st : Status) (detail : String) : List ScriptWrite :=
    [.detail (ascii detail), .status st]

def rollbackRunning : List ScriptWrite :=
  writeState .running
    "Installed panel or CLI release identity does not match the verified stage; automatic rollback is running."

/-- The writes of the upgrade runner. -/
def upgradeRunner : Ending → List ScriptWrite
  | .matching =>
    writeState .running "Packaged panel installer is running." ++
    writeState .completed "New panel and CLI release identities match the verified stage and passed the health check."
  | .restored =>
    writeState .running "Packaged panel installer is running." ++
    rollbackRunning ++
    writeState .failed "Installed release identity did not match the verified stage; the previous release was restored."
  | .notRestored =>
    writeState .running "Packaged panel installer is running." ++
    rollbackRunning ++
    writeState .failed "Installed release identity did not match the verified stage and automatic rollback failed; inspect the lifecycle journals."
  | .failed =>
    writeState .running "Packaged panel installer is running." ++
    writeState .failed "Packaged panel installer failed; inspect the upgrade and panel service journals."

end Panel

/-! ## The agent -/

namespace Agent

def loadOperation (p : Nat) : UpdateProg Report :=
  .call (.readMarker p) fun (marker : Option Bytes) =>
    if marker = none then
      .done ⟨none, .idle, ascii "No agent lifecycle operation has been scheduled."⟩
    else if trimSpace (marker.getD []) = [] ||
        base (trimSpace (marker.getD [])) ≠ trimSpace (marker.getD []) then
      .done ⟨none, .failed, ascii "The agent lifecycle state marker is invalid."⟩
    else
      .call (.readStatus p (trimSpace (marker.getD []))) fun (status : Option Bytes) =>
        .call (.readDetail p (trimSpace (marker.getD []))) fun (detail : Option Bytes) =>
          .done (operation (trimSpace (marker.getD [])) status detail)

def writeOperationStatus (p : Nat) (id : Bytes) (st : Status) (detail : Bytes)
    (faults : WriteFaults) :
    UpdateProg Bool :=
  .call (.writeStatus p id st faults.status) fun (ok : Bool) =>
    if ok then .call (.writeDetail p id detail faults.detail) .done else .done false

def interrupted : Bytes :=
  ascii "Detached agent lifecycle unit ended before writing a terminal result; the operation was interrupted."

def reconcileOperation (p : Nat) (id : Bytes) (operation : Report) (faults : Panel.Reconciling) :
    UpdateProg Report :=
  .call (.systemctl p faults.systemctl) fun (output : Option Bytes) =>
    if output.map detachedAgentLifecycleState = some (false, true) then do
      -- here a failed write is not looked at
      let _ ← writeOperationStatus p id .failed interrupted faults.write
      .done { operation with status := .failed, detail := interrupted }
    else .done operation

def status (p : Nat) (faults : Panel.Reconciling) : UpdateProg Outcome :=
  .call (.lock p) fun _ => do
    let operation ← loadOperation p
    match operation.id with
    | some id =>
      if operation.status.pending then do
        let operation ← reconcileOperation p id operation faults
        returning p (.ok (some operation))
      else returning p (.ok (some operation))
    | none => returning p (.ok (some operation))

/-- Which steps of `newOperation` fail, and in which order the map of its files is walked. -/
structure Making where
  dir : Bool := false
  write : WriteFaults := {}
  statusFirst : Bool := true
  marker : Bool := false
deriving DecidableEq

def scheduledDetail : Bytes := ascii "Detached agent lifecycle operation is scheduled."

/-- The loop over the files of a new operation. -/
def writeNew (p : Nat) (id : Bytes) (faults : Making) : UpdateProg Bool :=
  if faults.statusFirst then writeOperationStatus p id .scheduled scheduledDetail faults.write
  else
    .call (.writeDetail p id scheduledDetail faults.write.detail) fun (ok : Bool) =>
      if ok then .call (.writeStatus p id .scheduled faults.write.status) .done else .done false

def newOperation (p : Nat) (id : Bytes) (faults : Making) : UpdateProg Bool :=
  .call (.makeDir p id faults.dir) fun (made : Bool) =>
    if !made then .done false
    else do
      let written ← writeNew p id faults
      if written then .call (.writeMarker p id faults.marker) .done else .done false

inductive StagingFault
  | download
  | archive
deriving DecidableEq

def StagingFault.detail : StagingFault → Bytes
  | download => ascii "Release archive download or checksum verification failed."
  | archive => ascii "Release archive validation failed."

/-- The id of a new operation and how the steps of `Upgrade` and `Rollback` go. -/
structure Operation where
  id : Bytes
  /-- The checks before the operation is made. -/
  available : Bool := true
  making : Making := {}
  stagingFails : Option StagingFault := none
  staging : WriteFaults := {}
  /-- The verified archive cannot be removed. -/
  removalFails : Bool := false
  runner : Bool := true
  created : Bool := true
  reported : Bool := true
  failed : WriteFaults := {}
deriving DecidableEq

/-- Giving up an operation that could not be started. -/
def Operation.giveUp (o : Operation) (p : Nat) : UpdateProg Outcome := do
  let _ ← writeOperationStatus p o.id .failed
    (ascii "Could not create the detached systemd lifecycle unit.") o.failed
  returning p (.error .upgradeSchedule)

def Operation.schedule (o : Operation) (p : Nat) : UpdateProg Outcome :=
  if !o.runner then o.giveUp p
  else
    .call (.systemdRun p o.id o.created o.reported) fun (ok : Bool) =>
      if ok then do
        let operation ← loadOperation p
        returning p (.ok (some operation))
      else o.giveUp p

/-- `stageUpgrade` after the operation is made, and what follows. -/
def Operation.stage (o : Operation) (p : Nat) : UpdateProg Outcome :=
  match o.stagingFails with
  | some fault => do
      let _ ← writeOperationStatus p o.id .failed fault.detail o.staging
      returning p (.error .staging)
  | none => if o.removalFails then returning p (.error .staging) else o.schedule p

/-- `Upgrade` and `Rollback` up to the new operation, which then goes on with `next`. -/
def beginOperation (p : Nat) (o : Operation) (next : UpdateProg Outcome) : UpdateProg Outcome :=
  .call (.lock p) fun _ => do
    let operation ← loadOperation p
    if operation.status.pending then returning p (.error .operationConflict)
    else if !o.available then returning p (.error .unavailable)
    else do
      let made ← newOperation p o.id o.making
      if made then next else returning p (.error .newOperation)

def upgrade (p : Nat) (o : Operation) : UpdateProg Outcome := beginOperation p o (o.stage p)

def rollback (p : Nat) (o : Operation) : UpdateProg Outcome := beginOperation p o (o.schedule p)

inductive Action
  | upgrade
  | rollback
  | other
deriving DecidableEq

def writeStatus (st : Status) (detail : String) : List ScriptWrite :=
    [.status st, .detail (ascii detail)]

/-- The writes of the lifecycle runner, by its action and whether the installer succeeds. -/
def agentLifecycleRunner (action : Action) (ok : Bool) : List ScriptWrite :=
  writeStatus .running "Agent lifecycle installer is running." ++
    match action, ok with
    | .upgrade, true =>
      writeStatus .completed "Agent upgrade completed and the managed service passed its active-state check."
    | .upgrade, false =>
      writeStatus .failed "Agent upgrade failed; the lifecycle installer attempted automatic rollback."
    | .rollback, true =>
      writeStatus .completed "Agent rollback completed and the restored service passed its active-state check."
    | .rollback, false =>
      writeStatus .failed "Agent rollback failed; inspect the hserver-agent-lifecycle journal."
    | .other, _ => writeStatus .failed "Unsupported agent lifecycle action."

end Agent

/-! ## Both programs with their units -/

/-- The program that schedules and reports. -/
inductive Component
  | panel
  | agent
deriving DecidableEq

inductive UpdateCall
  | get (p : Nat) (id : Bytes) (faults : Panel.Reconciling)
  | latest (p : Nat) (faults : Panel.Reconciling)
  | schedule (p : Nat) (c : Panel.Scheduling)
  /-- The script of a stage, killed after `lasting` of its writes. -/
  | upgradeRunner (id : Bytes) (ending : Panel.Ending) (lasting : Nat)
  | status (p : Nat) (faults : Panel.Reconciling)
  | upgrade (p : Nat) (o : Agent.Operation)
  | rollback (p : Nat) (o : Agent.Operation)
  | agentLifecycleRunner (id : Bytes) (action : Agent.Action) (ok : Bool) (lasting : Nat)
  | stop
  | restart
deriving DecidableEq

/-- Whose calls they are; a timer is stopped and a program is restarted from outside. -/
def UpdateCall.PartOf (component : Component) : UpdateCall → Prop
  | get _ _ _ | latest _ _ | schedule _ _ | upgradeRunner _ _ _ => component = .panel
  | status _ _ | upgrade _ _ | rollback _ _ | agentLifecycleRunner _ _ _ _ => component = .agent
  | stop | restart => True

/-- The value of a script is not looked at. -/
def runScript (id : Bytes) : List ScriptWrite → UpdateProg Outcome
  | [] => .call (.exit id) fun _ => .done (.ok none)
  | write :: rest => .call (.put id write) fun _ => runScript id rest

def UpdateCall.program (cfg : Panel.Config) : UpdateCall → UpdateProg Outcome
  | get p id faults => Panel.get cfg p id faults
  | latest p faults => Panel.latest cfg p faults
  | schedule p c => Panel.schedule cfg p c
  | upgradeRunner id ending lasting =>
    .call (.start id) fun _ => runScript id ((Panel.upgradeRunner ending).take lasting)
  | status p faults => Agent.status p faults
  | upgrade p o => Agent.upgrade p o
  | rollback p o => Agent.rollback p o
  | agentLifecycleRunner id action ok lasting =>
    .call (.start id) fun _ => runScript id ((Agent.agentLifecycleRunner action ok).take lasting)
  | stop => .call .stop fun _ => .done (.ok none)
  | restart => .call .restart fun _ => .done (.ok none)

def updateSystem (cfg : Panel.Config) : System UpdateState UpdateOp UpdateOp.Reply UpdateCall Outcome where
  sem := { exec := UpdateOp.exec, ready := UpdateOp.ready }
  program := UpdateCall.program cfg

end HeyServer.Updates
