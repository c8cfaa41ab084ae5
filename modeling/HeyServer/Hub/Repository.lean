import HeyServer.Lib.Interleaving
import HeyServer.Hub.Database

/-!
# Agent hub: repository

The operations the hub performs on its shared state, each atomic, and the methods
of `Repository` as programs of them.

## Implementation notes

A method that reads the clock gets the reading as an argument. The receiver checks
for a nil repository are left out.
-/

namespace HeyServer.Hub
open Lib

/-! ## Operations -/

/-- The mutexes of the service. -/
inductive Mutex
  | profileApply | deployDomainEnsure | integrationStatus | metrics
  deriving DecidableEq

/-- One SQL statement, one transaction, or one step on a mutex. -/
inductive Op
  | insertNode (id name tokenHash : Bytes) (stamp : Time)
  | selectNode (id : Bytes)
  | selectTokenHash (id : Bytes)
  | selectProfile (nodeId : Bytes)
  | selectObservation (nodeId : Bytes)
  | saveProfile (nodeId : Bytes) (normalized : AgentProfile) (expectedRevision : Int) (stamp : Time)
  | updateHeartbeat (nodeId : Bytes) (columns : HeartbeatColumns) (stamp : Time)
  | insertTask (nodeId : Bytes) (kind : TaskKind) (payload : Bytes) (stamp : Time)
  | createApply (nodeId : Bytes) (expectedRevision : Int) (normalized : AgentProfile)
      (payload : Bytes) (stamp : Time)
  | claimTask (nodeId : Bytes) (stamp : Time)
  | completeTask (nodeId : Bytes) (taskId : Nat) (columns : ResultColumns) (stamp : Time)
  | selectTask (id : Nat)
  | selectTaskForNode (nodeId : Bytes) (id : Nat)
  | selectTasksForNode (nodeId : Bytes) (limit : Nat)
  | selectLatestTask (nodeId : Bytes) (kind : TaskKind)
  | lock (mutex : Mutex)
  | unlock (mutex : Mutex)

/-- What an operation returns; the reads that join a node with another table tell a missing
node from a missing row. -/
@[reducible] def Reply : Op → Type
  | .insertNode .. => Except HubError Unit
  | .selectNode _ => Option NodeRow
  | .selectTokenHash _ => Option Bytes
  | .selectProfile _ => Option (Option ProfileRow)
  | .selectObservation _ => Option (Option ObservationRow)
  | .saveProfile .. => Except HubError Int
  | .updateHeartbeat .. => Except HubError Unit
  | .insertTask .. => Except HubError Nat
  | .createApply .. => Except HubError (Option Nat)
  | .claimTask .. => Option (Nat × TaskRow)
  | .completeTask .. => Except HubError Nat
  | .selectTask _ => Option TaskRow
  | .selectTaskForNode .. => Option TaskRow
  | .selectTasksForNode .. => List (Nat × TaskRow)
  | .selectLatestTask .. => Option (Nat × TaskRow)
  | .lock _ => Unit
  | .unlock _ => Unit

/-- The database and the mutexes that are held. -/
structure HubState where
  db : Db
  held : Mutex → Bool

def HubState.initial : HubState := ⟨.empty, fun _ => false⟩

/-- A transaction commits its database or leaves the old one. -/
def HubState.commit {α : Type} (s : HubState) :
    Except HubError (Db × α) → HubState × Except HubError α
  | .ok (db, a) => ({ s with db := db }, .ok a)
  | .error e => (s, .error e)

def ofNode (nodeId : Bytes) (_ : Nat) (row : TaskRow) : Bool := row.nodeId = nodeId

def HubState.exec (s : HubState) : (op : Op) → HubState × Reply op
  | .insertNode id name tokenHash stamp =>
    s.commit (s.db.insertNode id name tokenHash stamp)
  | .selectNode id => (s, s.db.nodes id)
  | .selectTokenHash id => (s, (s.db.nodes id).map (·.tokenHash))
  | .selectProfile nodeId => (s, (s.db.nodes nodeId).map fun _ => s.db.profiles nodeId)
  | .selectObservation nodeId => (s, (s.db.nodes nodeId).map fun _ => s.db.observations nodeId)
  | .saveProfile nodeId normalized expectedRevision stamp =>
    s.commit (s.db.saveNodeProfile nodeId normalized expectedRevision stamp)
  | .updateHeartbeat nodeId columns stamp =>
    s.commit (s.db.updateHeartbeat nodeId columns stamp)
  | .insertTask nodeId kind payload stamp => s.commit (s.db.insertTask nodeId kind payload stamp)
  | .createApply nodeId expectedRevision normalized payload stamp =>
    s.commit (s.db.createProfileApplyTask nodeId expectedRevision normalized payload stamp)
  | .claimTask nodeId stamp =>
    ({ s with db := (s.db.claimNextTask nodeId stamp).1 }, (s.db.claimNextTask nodeId stamp).2)
  | .completeTask nodeId taskId columns stamp =>
    s.commit (s.db.completeTask nodeId taskId columns stamp)
  | .selectTask id => (s, s.db.tasks.get? id)
  | .selectTaskForNode nodeId id => (s, (s.db.tasks.get? id).filter (ofNode nodeId id))
  | .selectTasksForNode nodeId limit => (s, s.db.tasks.latest (ofNode nodeId) limit)
  | .selectLatestTask nodeId kind =>
    (s, (s.db.tasks.latest (fun _ row => row.nodeId = nodeId && row.kind = kind) 1).head?)
  | .lock m => ({ s with held := Function.update s.held m true }, ())
  | .unlock m => ({ s with held := Function.update s.held m false }, ())

/-- A mutex that is held makes the next locker wait. -/
def HubState.ready (s : HubState) : Op → Bool
  | .lock m => !s.held m
  | _ => true

def hubSemantics : Semantics HubState Op Reply := ⟨HubState.exec, HubState.ready⟩

/-- Computations of the hub: programs of operations that may fail. -/
abbrev HubM (α : Type) := ExceptT HubError (Prog Op Reply) α

/-- One operation. -/
def query (op : Op) : HubM (Reply op) := ExceptT.lift (Prog.perform op)

/-- One operation that may itself fail. -/
def execute {α : Type} (op : Op) (reply : Reply op → Except HubError α) : HubM α := do
  let r ← query op
  reply r

/-- `Lock` and a deferred `Unlock`. -/
def withLock {α : Type} (m : Mutex) (body : HubM α) : HubM α :=
  ExceptT.mk (.call (.lock m) fun _ =>
    body.run >>= fun result => .call (.unlock m) fun _ => .done result)

/-! ## Rows -/

variable (text : Bytes)

/-- `json.Unmarshal` into a slice of strings. -/
def unmarshalCapabilities : Option (List Bytes) :=
  match Json.parse text with
  | some .null => some []
  | some (.arr items) =>
    items.mapM fun item =>
      match item with
      | .str s => some s
      | .null => some []
      | _ => none
  | _ => none

/-- A column with a default for an empty text. -/
def orDefault (default : String) : Bytes := if text = [] then ascii default else text

/-- `scanNode` under the context its caller adds. -/
def scanNode (env : Env) (context : String) (id : Bytes) (row : NodeRow) :
    Except HubError (Node Inventory) :=
  match unmarshalCapabilities (orDefault row.capabilitiesJson "[]") with
  | none => .error (.json (ascii (context ++ ": decode capabilities")))
  | some capabilities =>
    match env.unmarshalInventory (orDefault row.inventoryJson "{}") with
    | none => .error (.json (ascii (context ++ ": decode inventory")))
    | some inventory =>
      .ok
        { id := id, name := row.name, hostname := row.hostname
          agentVersion := row.agentVersion, protocolVersion := row.protocolVersion
          capabilities := capabilities, inventory := inventory, lastSeenAt := row.lastSeenAt
          createdAt := row.createdAt, updatedAt := row.updatedAt }

/-- A map column; an empty text and `null` are the empty map. -/
def unmarshalColumn : Option StrMap :=
  StrMap.unmarshal (if text = [] ∨ text = ascii "null" then ascii "{}" else text)

/-- `scanTask` under the context its caller adds. -/
def scanTask (context : String) (id : Nat) (row : TaskRow) : Except HubError Task :=
  match unmarshalColumn row.payloadJson with
  | none => .error (.json (ascii (context ++ ": decode payload")))
  | some payload =>
    match unmarshalColumn row.resultJson with
    | none => .error (.json (ascii (context ++ ": decode result")))
    | some result =>
      .ok
        { id := id, nodeId := row.nodeId, kind := row.kind, payload := payload
          status := row.status, result := result, error := row.error
          createdAt := row.createdAt, startedAt := row.startedAt
          completedAt := row.completedAt }

/-- The rows of `ListTasksForNode`. -/
def scanTasks (rows : List (Nat × TaskRow)) : Except HubError (List Task) :=
  rows.mapM fun row => scanTask "agent hub: list node task row" row.1 row.2

/-! ## Methods -/

structure AgentProfileRecord where
  profile : AgentProfile
  revision : Int
  configured : Bool
  deriving DecidableEq

structure AgentProfileObservationRecord where
  state : ObservationState
  revision : Int
  errorCode : Bytes
  updatedAt : Time

namespace Repository

variable (env : Env)

def getNode (id : Bytes) : HubM (Node Inventory) := do
  match ← query (.selectNode id) with
  | none => throw (.sentinel .notFound)
  | some row => scanNode env "agent hub: get node" id row

def createNode (req : RegisterNodeRequest) (tokenHash : Bytes) (now : Time) :
    HubM (Node Inventory) := do
  if tokenHash = [] ∨ req.id = [] ∨ req.name = [] then
    throw (invalidInput "agent hub: create node")
  else
    execute (.insertNode req.id req.name tokenHash now) id
    getNode env req.id

/-- The stored profile as `GetNodeProfile` reads it. -/
def readProfile : Option ProfileRow → Except HubError AgentProfileRecord
  | none => .ok ⟨emptyAgentProfile, 0, false⟩
  | some row =>
    if row.profileJson = [] then .ok ⟨emptyAgentProfile, 0, false⟩
    else
      match decodePersistedAgentProfile row.profileJson with
      | .error e => .error (e.under "agent hub: decode node profile")
      | .ok profile =>
        match normalizeAgentProfile profile with
        | .error e => .error (e.under "agent hub: validate node profile")
        | .ok normalized =>
          if row.revision < 1 then
            .error (.plain (ascii "agent hub: invalid node profile revision"))
          else .ok ⟨normalized, row.revision, true⟩

variable (nodeId : Bytes)

def getNodeProfile : HubM AgentProfileRecord := do
  match ← query (.selectProfile nodeId) with
  | none => throw (.sentinel .notFound)
  | some row => readProfile row

def saveNodeProfile (profile : AgentProfile) (expectedRevision : Int)
    (now : Time) : HubM AgentProfileRecord := do
  if expectedRevision < 0 then throw (invalidInput "agent hub: profile revision")
  else
    let normalized ← normalizeAgentProfile profile
    let revision ← execute (.saveProfile nodeId normalized expectedRevision now) id
    return ⟨normalized, revision, true⟩

/-- The stored observation as `GetNodeProfileObservation` reads it. -/
def readObservation : Option ObservationRow → Except HubError (Option AgentProfileObservationRecord)
  | none => .ok none
  | some row =>
    if row.revision < 0 then .error (.plain (ascii "agent hub: invalid profile observation"))
    else
      match validateAgentProfileObservation (some ⟨row.state, row.revision, row.errorCode⟩) with
      | .error e => .error (e.under "agent hub: validate profile observation")
      | .ok _ => .ok (some ⟨row.state, row.revision, row.errorCode, row.updatedAt⟩)

def getNodeProfileObservation : HubM (Option AgentProfileObservationRecord) := do
  match ← query (.selectObservation nodeId) with
  | none => throw (.sentinel .notFound)
  | some row => readObservation row

def authenticateToken (nodeId token : Bytes) : HubM (Node Inventory) := do
  match ← query (.selectTokenHash nodeId) with
  | none => throw (.sentinel .unauthorized)
  | some storedHash =>
    if storedHash ≠ env.tokenDigest token then throw (.sentinel .unauthorized)
    else getNode env nodeId

def updateHeartbeat (nodeId : Bytes) (req : HeartbeatRequest Inventory)
    (serverNow : Time) : HubM Unit := do
  validateAgentProfileObservation req.profile
  match env.marshalInventory req.inventory with
  | none => throw (.plain (ascii "agent hub: heartbeat inventory"))
  | some inventory =>
    execute (.updateHeartbeat nodeId
      ⟨req.hostname, req.agentVersion, req.protocolVersion, req.capabilities, inventory,
        req.profile⟩ serverNow) id

def getTask (id : Nat) : HubM Task := do
  match ← query (.selectTask id) with
  | none => throw (.sentinel .notFound)
  | some row => scanTask "agent hub: get task" id row

def getTaskForNode (id : Nat) : HubM Task := do
  match ← query (.selectTaskForNode nodeId id) with
  | none => throw (.sentinel .notFound)
  | some row => scanTask "agent hub: get node task" id row

def listTasksForNode (limit : Nat) : HubM (List Task) := do
  let rows ← query (.selectTasksForNode nodeId limit)
  scanTasks rows

def createTask (req : TaskRequest) (now : Time) : HubM Task := do
  if req.kind = .profileApply then
    throw (invalidInput "agent hub: profile apply tasks require the dedicated endpoint")
  else
    let taskId ← execute (.insertTask nodeId req.kind req.payload.marshal now) id
    getTask taskId

/-- No task stands for a revision that is already applied. -/
def createProfileApplyTask (expectedRevision : Int) (profile : AgentProfile)
    (now : Time) : HubM (Option Task) := do
  let (normalized, payload) ← profileApplyTaskPayload profile expectedRevision
  let created ← execute (.createApply nodeId expectedRevision normalized payload now) id
  match created with
  | none => return none
  | some taskId => some <$> getTask taskId

def getLatestProfileApplyTask : HubM (Option Task) := do
  match ← query (.selectLatestTask nodeId .profileApply) with
  | none => return none
  | some (id, row) => some <$> scanTask "agent hub: get latest profile apply task" id row

def claimNextTask (now : Time) : HubM (Option Task) := do
  match ← query (.claimTask nodeId now) with
  | none => return none
  | some (id, row) => some <$> scanTask "agent hub: claim task" id row

/-- The extra check of a profile apply's result, skipped when the task cannot be read. -/
def checkCompletion (taskId : Nat) (req : TaskResultRequest) : HubM Unit := do
  match ← query (.selectTaskForNode nodeId taskId) with
  | none => return ()
  | some row =>
    match scanTask "agent hub: get node task" taskId row with
    | .error _ => return ()
    | .ok task =>
      if task.kind = .profileApply then validateProfileApplyTaskResult task req
      else return ()

def completeTask (taskId : Nat) (req : TaskResultRequest) (now : Time) : HubM Task := do
  checkCompletion nodeId taskId req
  let affected ← execute
    (.completeTask nodeId taskId ⟨req.status, req.result.marshal, req.error⟩ now) id
  if affected ≠ 1 then throw (.sentinel .taskNotClaimed)
  else getTask taskId

end Repository

end HeyServer.Hub
