import HeyServer.Lib.RowTable
import HeyServer.Hub.TaskResults

/-!
# Agent hub: database

The four tables of the hub and the statements and transactions its repository
executes on them. A transaction that fails is rolled back, so each is a function
from a database to an error or to the database it commits.

## Implementation notes

Text columns hold the bytes the program writes; time columns hold times. Statements
fail only as the schema makes them fail (unique and foreign keys, `CHECK`).
-/

namespace HeyServer.Hub
open Lib Except

structure NodeRow where
  name : Bytes
  hostname : Bytes
  agentVersion : Bytes
  protocolVersion : Bytes
  capabilitiesJson : Bytes
  inventoryJson : Bytes
  tokenHash : Bytes
  lastSeenAt : Option Time
  createdAt : Time
  updatedAt : Time

structure TaskRow where
  nodeId : Bytes
  kind : TaskKind
  payloadJson : Bytes
  status : TaskStatus
  resultJson : Bytes
  error : Bytes
  createdAt : Time
  startedAt : Option Time
  completedAt : Option Time

structure ProfileRow where
  profileJson : Bytes
  revision : Int
  updatedAt : Time

structure ObservationRow where
  state : ObservationState
  revision : Int
  errorCode : Bytes
  updatedAt : Time

/-! ## What statements write -/

/-- The columns `CREATE TABLE` fills in by default. -/
def newNodeRow (name tokenHash : Bytes) (stamp : Time) : NodeRow where
  name := name
  hostname := []
  agentVersion := []
  protocolVersion := []
  capabilitiesJson := ascii "[]"
  inventoryJson := ascii "{}"
  tokenHash := tokenHash
  lastSeenAt := none
  createdAt := stamp
  updatedAt := stamp

/-- What one heartbeat writes. -/
structure HeartbeatColumns where
  hostname : Bytes
  agentVersion : Bytes
  protocolVersion : Bytes
  capabilities : List Bytes
  inventoryJson : Bytes
  profile : Option AgentProfileObservation

/-- `json.Marshal` of the advertised capabilities. -/
def marshalCapabilities (capabilities : List Bytes) : Bytes :=
  (Json.arr (capabilities.map .str)).encode

/-- The `CHECK` constraints of an observation. -/
def observationAllowed (observation : AgentProfileObservation) : Bool :=
  (match observation.state with
    | .other _ => false
    | _ => true) && 0 ≤ observation.revision && isSafeProfileErrorCode observation.errorCode

/-- The observation row a heartbeat leaves: the one it carries, or none. -/
def observationRow (columns : HeartbeatColumns) (stamp : Time) : Option ObservationRow :=
  if hasCapability columns.capabilities .profileApply then
    columns.profile.map fun o => ⟨o.state, o.revision, o.errorCode, stamp⟩
  else none

/-- The node row after a heartbeat. -/
def NodeRow.seen (row : NodeRow) (columns : HeartbeatColumns) (stamp : Time) : NodeRow :=
  { row with
    hostname := columns.hostname
    agentVersion := columns.agentVersion
    protocolVersion := columns.protocolVersion
    capabilitiesJson := marshalCapabilities columns.capabilities
    inventoryJson := columns.inventoryJson
    lastSeenAt := some stamp
    updatedAt := stamp }

def newTaskRow (nodeId : Bytes) (kind : TaskKind) (payload : Bytes) (stamp : Time) : TaskRow where
  nodeId := nodeId
  kind := kind
  payloadJson := payload
  status := .queued
  resultJson := ascii "{}"
  error := []
  createdAt := stamp
  startedAt := none
  completedAt := none

/-- The row once a node has claimed it. -/
def TaskRow.claimed (stamp : Time) (row : TaskRow) : TaskRow :=
  { row with status := .running, startedAt := some stamp }

def TaskRow.inFlight (row : TaskRow) : Bool := row.status = .queued || row.status = .running

/-- The row carries another revision, or none that can be read. -/
def TaskRow.conflictsWith (row : TaskRow) (revision : Int) : Bool :=
  match profileApplyPayloadRevision row.payloadJson with
  | .ok existing => existing ≠ revision
  | .error _ => true

/-- The profile stored under a revision is the requested one. -/
def ProfileRow.check (row : ProfileRow) (normalized : AgentProfile) : Except HubError Unit :=
  match decodePersistedAgentProfile row.profileJson with
  | .error _ => .error (invalidInput "agent hub: profile apply desired profile is invalid")
  | .ok decoded =>
    match normalizeAgentProfile decoded with
    | .error _ => .error (invalidInput "agent hub: profile apply desired profile is invalid")
    | .ok stored =>
      if stored.marshal ≠ normalized.marshal then
        .error (invalidInput "agent hub: profile apply profile does not match desired state")
      else .ok ()

/-- What a reported result writes. -/
structure ResultColumns where
  status : TaskStatus
  resultJson : Bytes
  error : Bytes

/-- The `CHECK` constraint of a task's status. -/
def statusAllowed : TaskStatus → Bool
  | .other _ => false
  | _ => true

/-- The rows the `UPDATE` of `CompleteTask` names. -/
def completes (nodeId : Bytes) (taskId : Nat) (id : Nat) (row : TaskRow) : Bool :=
  id = taskId && row.nodeId = nodeId && row.status = .running

/-- The row with a reported result. -/
def TaskRow.reported (columns : ResultColumns) (stamp : Time) (row : TaskRow) : TaskRow :=
  { row with
    status := columns.status
    resultJson := columns.resultJson
    error := columns.error
    completedAt := some stamp }

/-! ## Statements and transactions -/

/-- `agent_nodes`, `agent_tasks`, `agent_node_profiles` and `agent_node_profile_observations`. -/
structure Db where
  nodes : Bytes → Option NodeRow
  tasks : RowTable TaskRow
  profiles : Bytes → Option ProfileRow
  observations : Bytes → Option ObservationRow

namespace Db

/-- The database after `Migrate`. -/
def empty : Db := ⟨fun _ => none, .empty, fun _ => none, fun _ => none⟩

/-! ## Nodes -/

variable (db : Db)

/-- The `INSERT` of `CreateNode`. -/
def insertNode (id name tokenHash : Bytes) (stamp : Time) : Except HubError (Db × Unit) :=
  match db.nodes id with
  | some _ => .error (.sentinel .alreadyExists)
  | none =>
    .ok ({ db with
      nodes := Function.update db.nodes id (some (newNodeRow name tokenHash stamp)) }, ())

variable (nodeId : Bytes)

/-- The transaction of `UpdateHeartbeat`. -/
def updateHeartbeat (columns : HeartbeatColumns) (stamp : Time) : Except HubError (Db × Unit) :=
  match db.nodes nodeId with
  | none => .error (.sentinel .notFound)
  | some row =>
    if hasCapability columns.capabilities .profileApply ∧
        columns.profile.any fun o => !observationAllowed o then
      .error (.plain (ascii "agent hub: heartbeat profile observation"))
    else
      .ok ({ db with
        nodes := Function.update db.nodes nodeId (some (row.seen columns stamp))
        observations :=
          Function.update db.observations nodeId (observationRow columns stamp) }, ())

/-! ## Desired profiles -/

/-- The transaction of `SaveNodeProfile`, for an already normalized profile. -/
def saveNodeProfile (normalized : AgentProfile)
    (expectedRevision : Int) (stamp : Time) : Except HubError (Db × Int) :=
  let write (newRevision : Int) : Db :=
    { db with profiles :=
        Function.update db.profiles nodeId (some ⟨normalized.marshal, newRevision, stamp⟩) }
  match db.nodes nodeId with
  | none => .error (.sentinel .notFound)
  | some _ =>
    match db.profiles nodeId with
    | none =>
      if expectedRevision ≠ 0 then .error (.sentinel .profileRevisionStale)
      else do
        let _ ← canonicalProfileApplyDocument normalized 1
        .ok (write 1, 1)
    | some current =>
      if current.revision < 1 ∨ current.revision ≠ expectedRevision then
        .error (.sentinel .profileRevisionStale)
      else do
        let newRevision := Decimal.wrap64 (current.revision + 1)
        let _ ← canonicalProfileApplyDocument normalized newRevision
        .ok (write newRevision, newRevision)

/-! ## Tasks -/

/-- The `INSERT` of a queued task; it returns the key of the new row. -/
def insertTask (kind : TaskKind) (payload : Bytes) (stamp : Time) : Except HubError (Db × Nat) :=
  match db.nodes nodeId with
  | none => .error (.sentinel .notFound)
  | some _ =>
    .ok ({ db with tasks := db.tasks.insert (newTaskRow nodeId kind payload stamp) },
      db.tasks.seq + 1)

/-- Queued or running profile applies of a node, newest first. -/
def inFlightApplies : List (Nat × TaskRow) :=
  (db.tasks.select fun _ row =>
    row.nodeId = nodeId && row.kind = .profileApply && row.inFlight).reverse

/-- The last heartbeat observed the revision as applied. -/
def observedApplied (revision : Int) : Bool :=
  (db.observations nodeId).any fun o => o.state = .applied && o.revision = revision

/-- The transaction of `CreateProfileApplyTask`: no task when the revision is already applied,
the one in flight for it, or a new one. -/
def createProfileApplyTask (expectedRevision : Int)
    (normalized : AgentProfile) (payload : Bytes) (stamp : Time) :
    Except HubError (Db × Option Nat) :=
  match db.nodes nodeId with
  | none => .error (.sentinel .notFound)
  | some _ =>
    match db.profiles nodeId with
    | none => .error (.sentinel .profileNotConfigured)
    | some row =>
      if row.revision ≠ expectedRevision then .error (.sentinel .profileRevisionStale)
      else do
        row.check normalized
        if observedApplied db nodeId expectedRevision then .ok (db, none)
        else if (db.inFlightApplies nodeId).any fun task =>
            task.2.conflictsWith expectedRevision then
          .error (.sentinel .profileApplyInFlight)
        else
          match (db.inFlightApplies nodeId).head? with
          | some task => .ok (db, some task.1)
          | none => do
              let (db, id) ← db.insertTask nodeId .profileApply payload stamp
              .ok (db, some id)

/-- `UPDATE … RETURNING` of `ClaimNextTask`: the oldest queued task of a node, now running. -/
def claimNextTask (stamp : Time) : Db × Option (Nat × TaskRow) :=
  match db.tasks.first? fun _ row => row.nodeId = nodeId && row.status = .queued with
  | none => (db, none)
  | some (id, row) =>
    ({ db with tasks := db.tasks.update (fun id' _ => id' = id) (TaskRow.claimed stamp) },
      some (id, row.claimed stamp))

/-- The `UPDATE` of `CompleteTask` and the number of rows it changed. -/
def completeTask (taskId : Nat) (columns : ResultColumns)
    (stamp : Time) : Except HubError (Db × Nat) :=
  let matched := db.tasks.select (completes nodeId taskId)
  if matched ≠ [] ∧ !statusAllowed columns.status then
    .error (.plain (ascii "agent hub: complete task"))
  else
    .ok ({ db with tasks :=
        db.tasks.update (completes nodeId taskId) (TaskRow.reported columns stamp) },
      matched.length)

/-! ## What a committed statement did -/

section
variable {db db' : Db} {nodeId : Bytes} {stamp : Time}

theorem insertNode_ok {id name tokenHash : Bytes} {u : Unit}
    (h : db.insertNode id name tokenHash stamp = .ok (db', u)) : db.nodes id = none ∧
      db' = { db with
        nodes := Function.update db.nodes id (some (newNodeRow name tokenHash stamp)) } := by
  rw [insertNode] at h
  split at h
  · cases h
  · next hnone => exact ⟨hnone, (Prod.mk.inj (ok.inj h)).1.symm⟩

theorem updateHeartbeat_ok {columns : HeartbeatColumns} {u : Unit}
    (h : db.updateHeartbeat nodeId columns stamp = .ok (db', u)) :
    ∃ row, db.nodes nodeId = some row ∧ db' = { db with
        nodes := Function.update db.nodes nodeId (some (row.seen columns stamp))
        observations := Function.update db.observations nodeId
          (observationRow columns stamp) } := by
  rw [updateHeartbeat] at h
  split at h
  · cases h
  · next row hrow =>
      split_ifs at h
      exact ⟨row, hrow, (Prod.mk.inj (ok.inj h)).1.symm⟩

theorem insertTask_ok {kind : TaskKind} {payload : Bytes} {id : Nat}
    (h : db.insertTask nodeId kind payload stamp = .ok (db', id)) :
    db' = { db with tasks := db.tasks.insert (newTaskRow nodeId kind payload stamp) } ∧
      id = db.tasks.seq + 1 := by
  rw [insertTask] at h
  split at h
  · cases h
  · obtain ⟨hdb, hid⟩ := Prod.mk.inj (ok.inj h)
    exact ⟨hdb.symm, hid.symm⟩

variable {normalized : AgentProfile}

/-- A profile apply leaves the tasks alone or adds one for the stored profile, and only when no
other is in flight. -/
theorem createProfileApplyTask_ok {revision : Int} {payload : Bytes} {id : Option Nat}
    (h : db.createProfileApplyTask nodeId revision normalized payload stamp = .ok (db', id)) :
    db' = db ∨ (∃ row, db.profiles nodeId = some row ∧ row.revision = revision ∧
        row.check normalized = .ok ()) ∧ db.inFlightApplies nodeId = [] ∧
        db' = { db with tasks := db.tasks.insert (newTaskRow nodeId .profileApply payload stamp) } := by
  rw [createProfileApplyTask] at h
  split at h
  · cases h
  split at h
  · cases h
  next row hrow =>
    obtain ⟨hrevision, h⟩ := ite_error_eq_ok.mp h
    obtain ⟨⟨⟩, hcheck, h⟩ := bind_eq_ok.mp h
    split_ifs at h with happlied hconflict
    · exact .inl (Prod.mk.inj (ok.inj h)).1.symm
    · split at h
      · exact .inl (Prod.mk.inj (ok.inj h)).1.symm
      · next hnone =>
          obtain ⟨⟨db1, id1⟩, hinsert, h⟩ := bind_eq_ok.mp h
          cases h
          refine .inr ⟨⟨row, hrow, not_not.mp hrevision, hcheck⟩, ?_, (insertTask_ok hinsert).1⟩
          exact List.head?_eq_none_iff.mp hnone

/-- A claim finds nothing queued, or takes the oldest queued task of the node. -/
theorem claimNextTask_cases (db : Db) (nodeId : Bytes) (stamp : Time) :
    db.claimNextTask nodeId stamp = (db, none) ∨
      ∃ id row, db.tasks.get? id = some row ∧ row.nodeId = nodeId ∧ row.status = .queued ∧
        (∀ id' row', db.tasks.get? id' = some row' → row'.nodeId = nodeId →
          row'.status = .queued → id ≤ id') ∧ db.claimNextTask nodeId stamp =
          ({ db with tasks := db.tasks.update (fun id' _ => id' = id) (TaskRow.claimed stamp) },
            some (id, row.claimed stamp)) := by
  rw [claimNextTask]
  split
  · exact .inl rfl
  · next id row hfirst =>
      obtain ⟨hget, hqueued, hleast⟩ := RowTable.first?_eq_some hfirst
      rw [Bool.and_eq_true, decide_eq_true_eq, decide_eq_true_eq] at hqueued
      refine .inr ⟨id, row, hget, hqueued.1, hqueued.2, ?_, rfl⟩
      intro id' row' hget' hnode hstatus
      exact hleast id' row' hget' (by simp [hnode, hstatus])

theorem completeTask_ok {taskId : Nat} {columns : ResultColumns} {affected : Nat}
    (h : db.completeTask nodeId taskId columns stamp = .ok (db', affected)) :
    affected = (db.tasks.select (completes nodeId taskId)).length ∧ db' = { db with
        tasks := db.tasks.update (completes nodeId taskId) (TaskRow.reported columns stamp) } := by
  rw [completeTask] at h
  split_ifs at h
  obtain ⟨hdb, haffected⟩ := Prod.mk.inj (ok.inj h)
  exact ⟨haffected.symm, hdb.symm⟩

/-- A saved profile follows the stored revision by one, or is the first. -/
theorem saveNodeProfile_ok {expectedRevision revision : Int}
    (h : db.saveNodeProfile nodeId normalized expectedRevision stamp = .ok (db', revision)) :
    ((db.profiles nodeId = none ∧ expectedRevision = 0 ∧ revision = 1) ∨
      (∃ row, db.profiles nodeId = some row ∧ row.revision = expectedRevision ∧
        1 ≤ row.revision ∧ revision = Decimal.wrap64 (row.revision + 1))) ∧
      (∃ document, canonicalProfileApplyDocument normalized revision = .ok document) ∧
      db' = { db with profiles :=
        Function.update db.profiles nodeId (some ⟨normalized.marshal, revision, stamp⟩) } := by
  rw [saveNodeProfile] at h
  split at h
  · cases h
  split at h
  · next hnone =>
      split_ifs at h with hexpected
      obtain ⟨document, hdocument, h⟩ := bind_eq_ok.mp h
      cases h
      exact ⟨.inl ⟨hnone, not_not.mp hexpected, rfl⟩, ⟨document, hdocument⟩, rfl⟩
  · next row hrow =>
      split_ifs at h with hexpected
      obtain ⟨document, hdocument, h⟩ := bind_eq_ok.mp h
      cases h
      rw [not_or, not_lt, not_not] at hexpected
      exact ⟨.inr ⟨row, hrow, hexpected.2, hexpected.1, rfl⟩, ⟨document, hdocument⟩, rfl⟩

end

end Db

end HeyServer.Hub
