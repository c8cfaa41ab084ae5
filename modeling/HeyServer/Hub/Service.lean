import HeyServer.Hub.Repository

/-!
# Agent hub: service

The methods of `Service` as programs, and the hub as a system of calls that may be
made at any time and interleave operation by operation.

## Implementation notes

A call carries the readings its clock gives, in the order it takes them. The random
token of a registration is an argument of the call.
-/

namespace HeyServer.Hub
open Lib

/-! ## Profile status -/

inductive ApplyState
  | manualRequired | notRequested | queued | running | awaitingHeartbeat | applied | failed
  | drifted
  deriving DecidableEq

structure AgentProfileApplyResponse where
  state : ApplyState
  reason : Bytes
  taskId : Option Nat
  desiredRevision : Option Int
  observedRevision : Option Int
  observedState : Option ObservationState

structure AgentProfileObservedResponse where
  capabilities : List Bytes
  online : Bool
  lastSeenAt : Option Time
  agentVersion : Bytes
  protocolVersion : Bytes
  /-- `none` is `not_reported`. -/
  profileState : Option ObservationState
  profileRevision : Option Int
  profileErrorCode : Option Bytes

structure AgentProfileResponse where
  nodeId : Bytes
  configured : Bool
  revision : Int
  profile : Option AgentProfile
  observed : AgentProfileObservedResponse
  apply : AgentProfileApplyResponse

variable (record : AgentProfileRecord)

/-- The newest profile apply, if it is for the desired revision. -/
def matchingTask (latestTask : Option Task) : Option Task :=
  latestTask.filter fun task =>
    record.configured &&
      (match profileApplyPayloadRevisionFromTask task with
        | .ok revision => revision = record.revision
        | .error _ => false)

/-- State and reason as far as the newest task decides them. -/
def applyStateOfTask (capable : Bool) (task : Option Task) : ApplyState × Bytes :=
  if capable then
    match task with
    | none => (.notRequested, [])
    | some task =>
      match task.status with
      | .queued => (.queued, [])
      | .running => (.running, [])
      | .completed => (.awaitingHeartbeat, [])
      | .failed =>
        (.failed, if task.error ≠ [] ∧ isSafeProfileErrorCode task.error then task.error
          else ascii "profile_apply_failed")
      | .other _ => (.notRequested, [])
  else (.manualRequired, ascii "self_apply_not_supported")

/-- What an observation of a configured node makes of them. -/
def applyStateOfObservation (matched : Bool)
    (observation : AgentProfileObservationRecord) (fromTask : ApplyState × Bytes) :
    ApplyState × Bytes :=
  if observation.state = .applied ∧ observation.revision = record.revision then (.applied, [])
  else if observation.state = .pendingRestart ∧ observation.revision = record.revision then
    (.awaitingHeartbeat, [])
  else if observation.state = .failed ∧ observation.revision = record.revision then
    (.failed, if observation.errorCode = [] then ascii "profile_apply_failed"
      else observation.errorCode)
  else if observation.revision ≠ record.revision ∧ !matched then
    (.drifted, ascii "profile_revision_drift")
  else fromTask

def profileResponse (node : Node Inventory) (online : Bool)
    (observation : Option AgentProfileObservationRecord) (latestTask : Option Task) :
    AgentProfileResponse :=
  let capable := hasCapability node.capabilities .profileApply
  -- An observation of a node that lost the capability is not shown.
  let observation := if capable then observation else none
  let task := matchingTask record latestTask
  let fromTask := applyStateOfTask capable task
  let state :=
    match record.configured, observation with
    | true, some o => applyStateOfObservation record task.isSome o fromTask
    | _, _ => fromTask
  { nodeId := node.id
    configured := record.configured
    revision := record.revision
    profile := if record.configured then some record.profile else none
    observed :=
      { capabilities := node.capabilities
        online := online
        lastSeenAt := node.lastSeenAt
        agentVersion := node.agentVersion
        protocolVersion := node.protocolVersion
        profileState := observation.map (·.state)
        profileRevision := observation.map (·.revision)
        profileErrorCode := observation.map (·.errorCode) }
    apply :=
      { state := state.1
        reason := state.2
        taskId := if capable then task.map (·.id) else none
        desiredRevision := if record.configured then some record.revision else none
        observedRevision := observation.map (·.revision)
        observedState := observation.map (·.state) } }

/-! ## Methods -/

/-- The readings one call takes from the clock. -/
abbrev Clock := Nat → Time

namespace Service

variable (env : Env)

def authenticateNode (nodeId token : Bytes) : HubM (Node Inventory) :=
  if !validNodeId nodeId ∨ token = [] then throw (.sentinel .unauthorized)
  else Repository.authenticateToken env nodeId token

def registerNode (req : RegisterNodeRequest) (token : Bytes) (clock : Clock) :
    HubM (Node Inventory × Bytes) := do
  validateRegisterNodeRequest req
  let node ← Repository.createNode env req (env.tokenDigest token) (clock 0)
  return (node, token)

/-- The time the heartbeat was accepted at. -/
def heartbeat (nodeId token : Bytes) (req : HeartbeatRequest Inventory)
    (clock : Clock) : HubM Time := do
  if !validNodeId nodeId ∨ req.nodeId ≠ nodeId then throw (.sentinel .unauthorized)
  else
    let _ ← authenticateNode env nodeId token
    if req.protocolVersion ≠ protocolVersion then throw (.sentinel .unsupportedProtocol)
    else
      validateHeartbeatFields env req
      if heartbeatFreshnessWindow < heartbeatAge (clock 0) req.sentAt then
        throw (.sentinel .staleHeartbeat)
      else
        withLock .profileApply do
          Repository.updateHeartbeat env nodeId req (clock 0)
          return clock 0

def getNode (id : Bytes) : HubM (Node Inventory) :=
  if !validNodeId id then throw (.sentinel .notFound) else Repository.getNode env id

variable (nodeId : Bytes)

def getNodeProfile (now : Time) : HubM AgentProfileResponse := do
  let node ← getNode env nodeId
  let record ← Repository.getNodeProfile nodeId
  let observation ← Repository.getNodeProfileObservation nodeId
  let latestTask ← Repository.getLatestProfileApplyTask nodeId
  return profileResponse record node (isNodeOnline now node) observation latestTask

def updateNodeProfile (profile : AgentProfile)
    (expectedRevision : Int) (clock : Clock) : HubM AgentProfileResponse := do
  let _ ← getNode env nodeId
  if expectedRevision < 0 then throw (invalidInput "agent hub: profile revision")
  else
    let _ ← normalizeAgentProfile profile
    let _ ← Repository.saveNodeProfile nodeId profile expectedRevision (clock 0)
    getNodeProfile env nodeId (clock 1)

/-- The node lacks a capability a task needs. -/
def capabilityUnavailable (capability : Capability) : HubError :=
  .wrapped (ascii "agent hub: node does not advertise " ++ capability.text) .capabilityUnavailable

/-- The node has not been seen lately. -/
def nodeOffline (kind : TaskKind) (nodeId : Bytes) : HubError :=
  .wrapped (ascii "agent hub: cannot queue " ++ kind.text ++ ascii " for " ++ nodeId) .nodeOffline

/-- A completed apply of the revision that no heartbeat has reported as failed. -/
def awaitsHeartbeat (latestTask : Option Task)
    (observation : Option AgentProfileObservationRecord) (expectedRevision : Int) : Option Task :=
  latestTask.filter fun task =>
    task.status = .completed &&
      (match profileApplyPayloadRevisionFromTask task with
        | .ok revision => revision = expectedRevision
        | .error _ => false) &&
      !(observation.any fun o => o.state = .failed && o.revision = expectedRevision)

/-- No task stands for a revision that is already applied. -/
def applyNodeProfile (expectedRevision : Int) (clock : Clock) : HubM (Option Task) := do
  if !validNodeId nodeId then throw (.sentinel .notFound)
  else if expectedRevision < 1 then throw (invalidInput "agent hub: profile apply revision")
  else
    withLock .profileApply do
      let node ← Repository.getNode env nodeId
      let record ← Repository.getNodeProfile nodeId
      if !record.configured then throw (.sentinel .profileNotConfigured)
      else if record.revision ≠ expectedRevision then throw (.sentinel .profileRevisionStale)
      else if !hasCapability node.capabilities .profileApply then
        throw (capabilityUnavailable .profileApply)
      else
        let observation ← Repository.getNodeProfileObservation nodeId
        if observation.any fun o => o.state = .applied && o.revision = expectedRevision then
          return none
        else if !isNodeOnline (clock 0) node then throw (nodeOffline .profileApply nodeId)
        else
          let latestTask ← Repository.getLatestProfileApplyTask nodeId
          match awaitsHeartbeat latestTask observation expectedRevision with
          | some task => return some task
          | none =>
            Repository.createProfileApplyTask nodeId expectedRevision record.profile (clock 1)

/-- The task is an ensure in flight for the same target and domain. -/
def sameEnsure (payload : StrMap) (task : Task) : Bool :=
  task.kind = .deployDomainAction && (task.status = .queued || task.status = .running) &&
    field task.payload "action" = ascii "ensure" &&
    field task.payload "target" = field payload "target" &&
    field task.payload "domain" = field payload "domain"

/-- How many of a node's tasks the coalescing checks look at. -/
def recentTasks : Nat := 50

variable (req : TaskRequest) (clock : Clock)

def enqueueDeployDomainEnsure : HubM Task := do
  validateTaskRequest env req
  if !validNodeId nodeId then throw (.sentinel .notFound)
  else
    withLock .deployDomainEnsure do
      let node ← Repository.getNode env nodeId
      if !hasCapability node.capabilities .deployDomainAction then
        throw (capabilityUnavailable .deployDomainAction)
      else if !isNodeOnline (clock 0) node then throw (nodeOffline .deployDomainAction nodeId)
      else
        let tasks ← Repository.listTasksForNode nodeId recentTasks
        match tasks.find? (sameEnsure req.payload) with
        | some task =>
          if field task.payload "expected_revision" ≠ field req.payload "expected_revision" then
            throw (.sentinel .deployDomainEnsureConflict)
          else return task
        | none => Repository.createTask nodeId req (clock 1)

def isEnsure : Bool :=
  req.kind = .deployDomainAction && field req.payload "action" = ascii "ensure"

def enqueueTask : HubM Task := do
  if isEnsure req then enqueueDeployDomainEnsure env nodeId req clock
  else if !validNodeId nodeId then throw (.sentinel .notFound)
  else
    let node ← Repository.getNode env nodeId
    validateTaskRequest env req
    match (capabilityForTask req.kind).filter fun c => !hasCapability node.capabilities c with
    | some required => throw (capabilityUnavailable required)
    | none =>
      if !isNodeOnline (clock 0) node then throw (nodeOffline req.kind nodeId)
      else Repository.createTask nodeId req (clock 1)

/-- The two probes coalesce with one that is queued or running. -/
def enqueueProbe (mutex : Mutex) (kind : TaskKind) (capability : Capability)
    (nodeId : Bytes) (clock : Clock) : HubM Task := do
  if !validNodeId nodeId then throw (.sentinel .notFound)
  else
    withLock mutex do
      let node ← Repository.getNode env nodeId
      if !hasCapability node.capabilities capability then
        throw (capabilityUnavailable capability)
      else if !isNodeOnline (clock 0) node then throw (nodeOffline kind nodeId)
      else
        let tasks ← Repository.listTasksForNode nodeId recentTasks
        match tasks.find? fun task =>
            task.kind = kind && (task.status = .queued || task.status = .running) with
        | some task => return task
        | none => Repository.createTask nodeId ⟨kind, .empty⟩ (clock 1)

def enqueueIntegrationStatusTask : Bytes → Clock → HubM Task :=
  enqueueProbe env .integrationStatus .integrationStatus .integrationStatus

def enqueueMetricsTask : Bytes → Clock → HubM Task :=
  enqueueProbe env .metrics .metricsRead .metricsRead

def pollTaskForNode : HubM (Option Task) :=
  if !validNodeId nodeId then throw (.sentinel .unauthorized)
  else Repository.claimNextTask nodeId (clock 0)

def pollTask (nodeId token : Bytes) (clock : Clock) : HubM (Option Task) := do
  let _ ← authenticateNode env nodeId token
  pollTaskForNode nodeId clock

/-- The checks of the kinds with a stricter result. -/
def checkResult (task : Task) (req : TaskResultRequest) (now : Time) : Except HubError Unit := do
  if task.kind = .integrationStatus then validateIntegrationStatusTaskResult env req
  if task.kind = .metricsRead then validateMetricsTaskResult env req now
  if task.kind = .profileApply then validateProfileApplyTaskResult task req

def completeTaskForNode (taskId : Int) (req : TaskResultRequest) (clock : Clock) : HubM Task := do
  if !validNodeId nodeId then throw (.sentinel .unauthorized)
  else if taskId ≤ 0 then throw (invalidInput "agent hub: complete task")
  else
    validateTaskResultRequest req
    match ← query (.selectTaskForNode nodeId taskId.toNat) with
    | none => Repository.completeTask nodeId taskId.toNat req (clock 0)
    | some row =>
      let task ← scanTask "agent hub: get node task" taskId.toNat row
      checkResult env task req (clock 0)
      Repository.completeTask nodeId taskId.toNat req (clock 1)

def completeTask (nodeId token : Bytes) (taskId : Int) (req : TaskResultRequest)
    (clock : Clock) : HubM Task := do
  let _ ← authenticateNode env nodeId token
  completeTaskForNode env nodeId taskId req clock

end Service

/-! ## The hub as a system -/

/-- What the service and the repository offer. -/
inductive Call
  | registerNode (req : RegisterNodeRequest) (token : Bytes) (clock : Clock)
  | heartbeat (nodeId token : Bytes) (req : HeartbeatRequest Inventory) (clock : Clock)
  | getNodeProfile (nodeId : Bytes) (clock : Clock)
  | updateNodeProfile (nodeId : Bytes) (profile : AgentProfile) (expectedRevision : Int)
      (clock : Clock)
  | saveNodeProfile (nodeId : Bytes) (profile : AgentProfile) (expectedRevision : Int)
      (clock : Clock)
  | applyNodeProfile (nodeId : Bytes) (expectedRevision : Int) (clock : Clock)
  | createProfileApplyTask (nodeId : Bytes) (expectedRevision : Int) (profile : AgentProfile)
      (clock : Clock)
  | enqueueTask (nodeId : Bytes) (req : TaskRequest) (clock : Clock)
  | enqueueIntegrationStatusTask (nodeId : Bytes) (clock : Clock)
  | enqueueMetricsTask (nodeId : Bytes) (clock : Clock)
  | createTask (nodeId : Bytes) (req : TaskRequest) (clock : Clock)
  | pollTask (nodeId token : Bytes) (clock : Clock)
  | pollTaskForNode (nodeId : Bytes) (clock : Clock)
  | claimNextTask (nodeId : Bytes) (clock : Clock)
  | completeTask (nodeId token : Bytes) (taskId : Int) (req : TaskResultRequest) (clock : Clock)
  | completeTaskForNode (nodeId : Bytes) (taskId : Int) (req : TaskResultRequest) (clock : Clock)
  | repositoryCompleteTask (nodeId : Bytes) (taskId : Nat) (req : TaskResultRequest)
      (clock : Clock)

/-- What a call returns when it does not fail. -/
inductive Outcome
  | registered (node : Node Inventory) (token : Bytes)
  | accepted (serverAt : Time)
  | task (task : Option Task)
  | profile (response : AgentProfileResponse)
  | record (record : AgentProfileRecord)

def Call.method (env : Env) : Call → HubM Outcome
  | .registerNode req token clock =>
    (fun r => .registered r.1 r.2) <$> Service.registerNode env req token clock
  | .heartbeat nodeId token req clock => .accepted <$> Service.heartbeat env nodeId token req clock
  | .getNodeProfile nodeId clock => .profile <$> Service.getNodeProfile env nodeId (clock 0)
  | .updateNodeProfile nodeId profile expectedRevision clock =>
    .profile <$> Service.updateNodeProfile env nodeId profile expectedRevision clock
  | .saveNodeProfile nodeId profile expectedRevision clock =>
    .record <$> Repository.saveNodeProfile nodeId profile expectedRevision (clock 0)
  | .applyNodeProfile nodeId expectedRevision clock =>
    .task <$> Service.applyNodeProfile env nodeId expectedRevision clock
  | .createProfileApplyTask nodeId expectedRevision profile clock =>
    .task <$> Repository.createProfileApplyTask nodeId expectedRevision profile (clock 0)
  | .enqueueTask nodeId req clock =>
    (fun t => .task (some t)) <$> Service.enqueueTask env nodeId req clock
  | .enqueueIntegrationStatusTask nodeId clock =>
    (fun t => .task (some t)) <$> Service.enqueueIntegrationStatusTask env nodeId clock
  | .enqueueMetricsTask nodeId clock =>
    (fun t => .task (some t)) <$> Service.enqueueMetricsTask env nodeId clock
  | .createTask nodeId req clock =>
    (fun t => .task (some t)) <$> Repository.createTask nodeId req (clock 0)
  | .pollTask nodeId token clock => .task <$> Service.pollTask env nodeId token clock
  | .pollTaskForNode nodeId clock => .task <$> Service.pollTaskForNode nodeId clock
  | .claimNextTask nodeId clock => .task <$> Repository.claimNextTask nodeId (clock 0)
  | .completeTask nodeId token taskId req clock =>
    (fun t => .task (some t)) <$> Service.completeTask env nodeId token taskId req clock
  | .completeTaskForNode nodeId taskId req clock =>
    (fun t => .task (some t)) <$> Service.completeTaskForNode env nodeId taskId req clock
  | .repositoryCompleteTask nodeId taskId req clock =>
    (fun t => .task (some t)) <$> Repository.completeTask nodeId taskId req (clock 0)

/-- The repository stores already validated values: who calls it past the service brings a
result that `ValidateTaskResultRequest` accepts. -/
def Call.Validated : Call → Prop
  | .repositoryCompleteTask _ _ req _ => validateTaskResultRequest req = .ok ()
  | _ => True

abbrev HubValue := Except HubError Outcome

def hub (env : Env) : System HubState Op Reply Call HubValue :=
    ⟨hubSemantics, fun c => (c.method env).run⟩

abbrev HubEvent := Event HubState Op Call

/-- The runs of the hub from an empty database. -/
abbrev HubRun (env : Env) (trace : List HubEvent) (cfg : Config HubState Op Reply Call HubValue) :
    Prop :=
  Run (hub env) Call.Validated HubState.initial trace cfg

end HeyServer.Hub
