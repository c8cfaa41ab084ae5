import HeyServer.Hub.ProfileCodec
import HeyServer.Hub.Service

/-!
# Agent hub: the operations of a call

Which operations each call can issue, with what it has checked before it issues
them. The theorems about runs use this instead of the programs.
-/

namespace HeyServer.Hub
open Lib Prog Repository Prog.Issues

/-- The statements that only read. -/
def Op.isRead : Op → Bool
  | .selectNode _ | .selectTokenHash _ | .selectProfile _ | .selectObservation _
  | .selectTask _ | .selectTaskForNode .. | .selectTasksForNode .. | .selectLatestTask .. => true
  | _ => false

variable {op : Op} {P : Op → Prop} {α β : Type}

theorem exec_isRead (h : op.isRead = true) (s : HubState) : (s.exec op).1 = s := by
  cases op <;> first | rfl | cases h

/-- The node a call claims a task for. -/
def Call.claimant : Call → Option Bytes
  | .pollTask nodeId _ _ | .pollTaskForNode nodeId _ | .claimNextTask nodeId _ => some nodeId
  | _ => none

/-- The node and the task a call reports a result for. -/
def Call.reporter : Call → Option (Bytes × Nat)
  | .completeTask nodeId _ taskId _ _ | .completeTaskForNode nodeId taskId _ _ =>
    some (nodeId, taskId.toNat)
  | .repositoryCompleteTask nodeId taskId _ _ => some (nodeId, taskId)
  | _ => none

/-- The node and the task a call asks for. -/
def Call.request : Call → Option (Bytes × TaskRequest)
  | .enqueueTask nodeId req _ | .createTask nodeId req _ => some (nodeId, req)
  | .enqueueIntegrationStatusTask nodeId _ => some (nodeId, ⟨.integrationStatus, .empty⟩)
  | .enqueueMetricsTask nodeId _ => some (nodeId, ⟨.metricsRead, .empty⟩)
  | _ => none

/-- The node and the heartbeat a call brings. -/
def Call.beat : Call → Option (Bytes × HeartbeatRequest Inventory)
  | .heartbeat nodeId _ req _ => some (nodeId, req)
  | _ => none

/-- The columns a heartbeat writes. -/
def HeartbeatColumns.Of (env : Env) (columns : HeartbeatColumns)
    (req : HeartbeatRequest Inventory) : Prop :=
  env.marshalInventory req.inventory = some columns.inventoryJson ∧
    columns.capabilities = req.capabilities ∧ columns.profile = req.profile ∧
    validateAgentProfileObservation req.profile = .ok ()

/-- What a call has made sure of when it issues an operation. -/
def Op.IssuedBy (env : Env) (c : Call) : Op → Prop
  | .completeTask nodeId taskId columns _ =>
    c.reporter = some (nodeId, taskId) ∧
      (columns.status = .completed ∨ columns.status = .failed) ∧
      ∃ result : StrMap, columns.resultJson = result.marshal
  | .claimTask nodeId _ => c.claimant = some nodeId
  | .insertTask nodeId kind payload _ =>
    kind ≠ .profileApply ∧ ∃ req, c.request = some (nodeId, req) ∧ kind = req.kind ∧
      payload = req.payload.marshal
  | .createApply _ revision normalized payload _ =>
    normalized.Normalized ∧ 1 ≤ revision ∧
      (applyDocument normalized revision).marshal.length ≤ maxProfileJsonBytes ∧
      payload = (applyPayload normalized revision).marshal
  | .saveProfile _ normalized expectedRevision _ => normalized.Normalized ∧ 0 ≤ expectedRevision
  | .updateHeartbeat nodeId columns _ =>
    validNodeId nodeId = true ∧ ∃ req, c.beat = some (nodeId, req) ∧ columns.Of env req
  | _ => True

theorem issuedBy_isRead {env : Env} {c : Call} (h : op.isRead = true) : op.IssuedBy env c := by
  cases op <;> trivial

/-! ## Repository methods -/

theorem issues_query (hop : P op) : (query op).run.Issues P :=
  ⟨hop, fun _ => trivial⟩

theorem issues_query_bind {f : Reply op → HubM α} (hop : P op)
    (hf : ∀ r, (f r).run.Issues P) : (query op >>= f).run.Issues P :=
  ⟨hop, hf⟩

theorem issues_execute {reply : Reply op → Except HubError α}
    (hop : P op) : (execute op reply).run.Issues P :=
  issues_query_bind hop fun _ => trivial

theorem issues_withLock {m : Mutex} {body : HubM α} (hlock : P (.lock m))
    (hunlock : P (.unlock m)) (hbody : body.run.Issues P) : (withLock m body).run.Issues P := by
  refine ⟨hlock, fun _ => hbody.bind ?_⟩
  intro result
  exact ⟨hunlock, fun _ => trivial⟩

section
variable {P : Op → Prop} (hread : ∀ op : Op, op.isRead = true → P op)
include hread

variable (env : Env)

theorem getNode_issues (id : Bytes) : (getNode env id).run.Issues P := by
  apply issues_query_bind (hread _ rfl)
  rintro (_ | row) <;> trivial

variable (nodeId : Bytes)

theorem getNodeProfile_issues : (getNodeProfile nodeId).run.Issues P := by
  apply issues_query_bind (hread _ rfl)
  rintro (_ | row) <;> trivial

theorem getNodeProfileObservation_issues :
    (getNodeProfileObservation nodeId).run.Issues P := by
  apply issues_query_bind (hread _ rfl)
  rintro (_ | row) <;> trivial

theorem getLatestProfileApplyTask_issues :
    (getLatestProfileApplyTask nodeId).run.Issues P := by
  apply issues_query_bind (hread _ rfl)
  rintro (_ | ⟨id, row⟩)
  · trivial
  · exact mapE (issues_liftM _)

theorem getTask_issues (id : Nat) : (getTask id).run.Issues P := by
  apply issues_query_bind (hread _ rfl)
  rintro (_ | row) <;> trivial

theorem listTasksForNode_issues (limit : Nat) :
    (listTasksForNode nodeId limit).run.Issues P :=
  issues_query_bind (hread _ rfl) fun _ => trivial

theorem createNode_issues (req : RegisterNodeRequest) (tokenHash : Bytes) (now : Time)
    (hop : P (.insertNode req.id req.name tokenHash now)) :
    (createNode env req tokenHash now).run.Issues P := by
  apply issues_guard
  intro _
  exact (issues_execute hop).bindE fun _ => getNode_issues hread env req.id

theorem createTask_issues (req : TaskRequest) (now : Time)
    (hop : req.kind ≠ .profileApply → P (.insertTask nodeId req.kind req.payload.marshal now)) :
    (createTask nodeId req now).run.Issues P := by
  apply issues_guard
  intro hkind
  exact (issues_execute (hop hkind)).bindE fun id => getTask_issues hread id

theorem createProfileApplyTask_issues (revision : Int) (profile : AgentProfile) (now : Time)
    (hop : ∀ normalized, normalized.Normalized → 1 ≤ revision →
      (applyDocument normalized revision).marshal.length ≤ maxProfileJsonBytes →
      P (.createApply nodeId revision normalized (applyPayload normalized revision).marshal now)) :
    (createProfileApplyTask nodeId revision profile now).run.Issues P := by
  apply issues_liftM_bind
  rintro ⟨normalized, payload⟩ h
  obtain ⟨hpos, hnormal, hlen, rfl⟩ := (profileApplyTaskPayload_ok_iff _ _ _ _).mp h
  apply (issues_execute
    (hop normalized (normalizeAgentProfile_normalized hnormal) hpos hlen)).bindE
  rintro (_ | id)
  · trivial
  · exact (getTask_issues hread id).mapE

theorem checkCompletion_issues (taskId : Nat) (req : TaskResultRequest) :
    (checkCompletion nodeId taskId req).run.Issues P := by
  apply issues_query_bind (hread _ rfl)
  rintro (_ | row)
  · trivial
  · dsimp only
    split
    · trivial
    · split_ifs <;> trivial

theorem completeTask_issues (taskId : Nat) (req : TaskResultRequest) (now : Time)
    (hop : P (.completeTask nodeId taskId ⟨req.status, req.result.marshal, req.error⟩ now)) :
    (completeTask nodeId taskId req now).run.Issues P := by
  apply (checkCompletion_issues hread nodeId taskId req).bindE
  intro _
  apply (issues_execute hop).bindE
  intro affected
  exact issues_guard fun _ => getTask_issues hread taskId

end

theorem saveNodeProfile_issues (nodeId : Bytes) (profile : AgentProfile)
    (expectedRevision : Int) (now : Time)
    (hop : ∀ normalized, normalized.Normalized → 0 ≤ expectedRevision →
      P (.saveProfile nodeId normalized expectedRevision now)) :
    (saveNodeProfile nodeId profile expectedRevision now).run.Issues P := by
  apply issues_guard
  intro hneg
  apply issues_liftM_bind
  intro normalized hnormal
  apply (issues_execute
    (hop normalized (normalizeAgentProfile_normalized hnormal) (not_lt.mp hneg))).bindE
  intro revision
  trivial

theorem claimNextTask_issues {nodeId : Bytes} {now : Time} (hop : P (.claimTask nodeId now)) :
    (claimNextTask nodeId now).run.Issues P := by
  apply issues_query_bind hop
  rintro (_ | ⟨id, row⟩)
  · trivial
  · exact mapE (issues_liftM _)

/-! ## Service methods -/

section
variable {P : Op → Prop} (hread : ∀ op : Op, op.isRead = true → P op) (env : Env) (nodeId : Bytes)
  {clock : Clock}
include hread

theorem authenticateNode_issues (token : Bytes) :
    (Service.authenticateNode env nodeId token).run.Issues P := by
  refine issues_guard fun _ => issues_query_bind (hread _ rfl) ?_
  rintro (_ | stored)
  · trivial
  · exact issues_guard fun _ => getNode_issues hread env nodeId

theorem serviceGetNode_issues : (Service.getNode env nodeId).run.Issues P :=
  issues_guard fun _ => getNode_issues hread env nodeId

theorem serviceGetNodeProfile_issues (now : Time) :
    (Service.getNodeProfile env nodeId now).run.Issues P := by
  apply (serviceGetNode_issues hread env nodeId).bindE
  intro node
  apply (getNodeProfile_issues hread nodeId).bindE
  intro record
  apply (getNodeProfileObservation_issues hread nodeId).bindE
  intro observation
  apply (getLatestProfileApplyTask_issues hread nodeId).bindE
  intro task
  trivial

theorem updateNodeProfile_issues (profile : AgentProfile) (expectedRevision : Int)
    (hop : ∀ normalized, normalized.Normalized → 0 ≤ expectedRevision →
      P (.saveProfile nodeId normalized expectedRevision (clock 0))) :
    (Service.updateNodeProfile env nodeId profile expectedRevision clock).run.Issues P := by
  apply (serviceGetNode_issues hread env nodeId).bindE
  intro node
  apply issues_guard
  intro _
  apply issues_liftM_bind
  intro _ _
  apply (saveNodeProfile_issues nodeId profile expectedRevision (clock 0) hop).bindE
  intro record
  exact serviceGetNodeProfile_issues hread env nodeId (clock 1)

theorem completeTaskForNode_issues (taskId : Int) (req : TaskResultRequest)
    (hop : validateTaskResultRequest req = .ok () → ∀ now,
      P (.completeTask nodeId taskId.toNat ⟨req.status, req.result.marshal, req.error⟩ now)) :
    (Service.completeTaskForNode env nodeId taskId req clock).run.Issues P := by
  apply issues_guard
  intro _
  apply issues_guard
  intro _
  apply issues_liftM_bind
  intro _ hvalid
  apply issues_query_bind (hread _ rfl)
  rintro (_ | row)
  · exact completeTask_issues hread nodeId _ req (clock 0) (hop hvalid _)
  · apply issues_liftM_bind
    intro task _
    apply issues_liftM_bind
    intro _ _
    exact completeTask_issues hread nodeId _ req (clock 1) (hop hvalid _)

variable (hlock : ∀ m, P (.lock m) ∧ P (.unlock m))
include hlock

theorem heartbeat_issues (token : Bytes) (req : HeartbeatRequest Inventory)
    (hop : ∀ columns : HeartbeatColumns, validNodeId nodeId = true → columns.Of env req →
      P (.updateHeartbeat nodeId columns (clock 0))) :
    (Service.heartbeat env nodeId token req clock).run.Issues P := by
  apply issues_guard
  intro hnode
  rw [not_or, Bool.not_eq_true, Bool.not_eq_false'] at hnode
  apply (authenticateNode_issues hread env nodeId token).bindE
  intro node
  apply issues_guard
  intro _
  apply issues_liftM_bind
  intro _ _
  apply issues_guard
  intro _
  refine issues_withLock (hlock _).1 (hlock _).2 (bindE ?_ fun _ => trivial)
  apply issues_liftM_bind
  intro _ hvalid
  split
  · trivial
  · next inventory hinventory => exact issues_execute (hop _ hnode.1 ⟨hinventory, rfl, rfl, hvalid⟩)

theorem applyNodeProfile_issues (revision : Int)
    (hop : ∀ normalized, normalized.Normalized → 1 ≤ revision →
      (applyDocument normalized revision).marshal.length ≤ maxProfileJsonBytes →
      P (.createApply nodeId revision normalized (applyPayload normalized revision).marshal
        (clock 1))) : (Service.applyNodeProfile env nodeId revision clock).run.Issues P := by
  apply issues_guard
  intro _
  apply issues_guard
  intro _
  apply issues_withLock (hlock _).1 (hlock _).2
  apply (getNode_issues hread env nodeId).bindE
  intro node
  apply (getNodeProfile_issues hread nodeId).bindE
  intro record
  apply issues_guard
  intro _
  apply issues_guard
  intro _
  apply issues_guard
  intro _
  apply (getNodeProfileObservation_issues hread nodeId).bindE
  intro observation
  split
  · trivial
  apply issues_guard
  intro _
  apply (getLatestProfileApplyTask_issues hread nodeId).bindE
  intro latestTask
  split
  · trivial
  · exact createProfileApplyTask_issues hread nodeId revision record.profile (clock 1) hop

section
variable (req : TaskRequest)
  (hop : req.kind ≠ .profileApply → P (.insertTask nodeId req.kind req.payload.marshal (clock 1)))
include req hop

theorem enqueueDeployDomainEnsure_issues :
    (Service.enqueueDeployDomainEnsure env nodeId req clock).run.Issues P := by
  apply issues_liftM_bind
  intro _ _
  apply issues_guard
  intro _
  apply issues_withLock (hlock _).1 (hlock _).2
  apply (getNode_issues hread env nodeId).bindE
  intro node
  apply issues_guard
  intro _
  apply issues_guard
  intro _
  apply (listTasksForNode_issues hread nodeId _).bindE
  intro tasks
  split
  · exact issues_guard fun _ => trivial
  · exact createTask_issues hread nodeId req (clock 1) hop

theorem enqueueTask_issues : (Service.enqueueTask env nodeId req clock).run.Issues P := by
  rw [Service.enqueueTask]
  split
  · exact enqueueDeployDomainEnsure_issues hread env nodeId hlock req hop
  apply issues_guard
  intro _
  apply (getNode_issues hread env nodeId).bindE
  intro node
  apply issues_liftM_bind
  intro _ _
  split
  · trivial
  · exact issues_guard fun _ => createTask_issues hread nodeId req (clock 1) hop

end

theorem enqueueProbe_issues (mutex : Mutex) (kind : TaskKind) (capability : Capability)
    (hop : P (.insertTask nodeId kind StrMap.empty.marshal (clock 1))) :
    (Service.enqueueProbe env mutex kind capability nodeId clock).run.Issues P := by
  apply issues_guard
  intro _
  apply issues_withLock (hlock _).1 (hlock _).2
  apply (getNode_issues hread env nodeId).bindE
  intro node
  apply issues_guard
  intro _
  apply issues_guard
  intro _
  apply (listTasksForNode_issues hread nodeId _).bindE
  intro tasks
  split
  · trivial
  · exact createTask_issues hread nodeId ⟨kind, .empty⟩ (clock 1) fun _ => hop

end

/-- Every call issues only operations it has made sure of. -/
theorem hub_issues (env : Env) (c : Call) (hc : c.Validated) :
    ((hub env).program c).Issues (Op.IssuedBy env c) := by
  have hread : ∀ op : Op, op.isRead = true → op.IssuedBy env c := fun op => issuedBy_isRead
  have hlock : ∀ m, (Op.lock m).IssuedBy env c ∧ (Op.unlock m).IssuedBy env c :=
    fun _ => ⟨trivial, trivial⟩
  have hcompleted : ∀ {nodeId taskId} {req : TaskResultRequest},
      c.reporter = some (nodeId, taskId) → validateTaskResultRequest req = .ok () → ∀ now,
      (Op.completeTask nodeId taskId ⟨req.status, req.result.marshal, req.error⟩ now).IssuedBy
        env c := by
    intro nodeId taskId req hreporter hvalid now
    simp only [validateTaskResultRequest, bind_eq_ok, require_eq_ok, exists_const, Bool.or_eq_true,
      decide_eq_true_eq] at hvalid
    exact ⟨hreporter, hvalid.1, req.result, rfl⟩
  cases c with
  | registerNode req token clock =>
    refine mapE (issues_liftM_bind fun _ _ => ?_)
    exact (createNode_issues hread env req _ _ trivial).bindE fun _ => trivial
  | heartbeat nodeId token req clock =>
    refine (heartbeat_issues hread env nodeId hlock token req ?_).mapE
    exact fun columns hnode hcolumns => ⟨hnode, req, rfl, hcolumns⟩
  | getNodeProfile nodeId clock => exact (serviceGetNodeProfile_issues hread env nodeId _).mapE
  | updateNodeProfile nodeId profile revision clock =>
    refine (updateNodeProfile_issues hread env nodeId profile revision ?_).mapE
    exact fun _ hnormal hrevision => ⟨hnormal, hrevision⟩
  | saveNodeProfile nodeId profile revision clock =>
    refine (saveNodeProfile_issues nodeId profile revision _ ?_).mapE
    exact fun _ hnormal hrevision => ⟨hnormal, hrevision⟩
  | applyNodeProfile nodeId revision clock =>
    refine (applyNodeProfile_issues hread env nodeId hlock revision ?_).mapE
    exact fun _ hnormal hpos hlen => ⟨hnormal, hpos, hlen, rfl⟩
  | createProfileApplyTask nodeId revision profile clock =>
    refine (createProfileApplyTask_issues hread nodeId revision profile _ ?_).mapE
    exact fun _ hnormal hpos hlen => ⟨hnormal, hpos, hlen, rfl⟩
  | enqueueTask nodeId req clock =>
    refine (enqueueTask_issues hread env nodeId hlock req ?_).mapE
    exact fun hkind => ⟨hkind, req, rfl, rfl, rfl⟩
  | enqueueIntegrationStatusTask nodeId clock | enqueueMetricsTask nodeId clock =>
    refine (enqueueProbe_issues hread env nodeId hlock _ _ _ ?_).mapE
    exact ⟨by decide, _, rfl, rfl, rfl⟩
  | createTask nodeId req clock =>
    refine (createTask_issues hread nodeId req _ ?_).mapE
    exact fun hkind => ⟨hkind, req, rfl, rfl, rfl⟩
  | pollTask nodeId token clock =>
    refine mapE ((authenticateNode_issues hread env nodeId token).bindE fun _ => ?_)
    exact issues_guard fun _ => claimNextTask_issues rfl
  | pollTaskForNode nodeId clock =>
    exact mapE (issues_guard fun _ => claimNextTask_issues rfl)
  | claimNextTask nodeId clock => exact mapE (claimNextTask_issues rfl)
  | completeTask nodeId token taskId req clock =>
    refine mapE ((authenticateNode_issues hread env nodeId token).bindE fun _ => ?_)
    exact completeTaskForNode_issues hread env nodeId taskId req (hcompleted rfl)
  | completeTaskForNode nodeId taskId req clock =>
    exact (completeTaskForNode_issues hread env nodeId taskId req (hcompleted rfl)).mapE
  | repositoryCompleteTask nodeId taskId req clock =>
    exact (completeTask_issues hread nodeId taskId req _ (hcompleted rfl hc _)).mapE

/-- After one operation the program goes on with its reply. -/
theorem run_map_query_bind (op : Op) (g : Reply op → HubM β) (f : β → Outcome) :
    (f <$> (query op >>= g)).run = .call op fun r => (f <$> g r).run := rfl

/-- After one operation that may fail the program goes on or stops with its error. -/
theorem run_map_execute_bind (op : Op) (reply : Reply op → Except HubError α)
    (g : α → HubM β) (f : β → Outcome) : (f <$> (execute op reply >>= g)).run = .call op fun r =>
      match reply r with
      | .ok a => (f <$> g a).run
      | .error e => .done (.error e) := by
  have hassoc : execute op reply >>= g = query op >>= fun r => liftM (reply r) >>= g :=
    LawfulMonad.bind_assoc _ _ _
  rw [hassoc, run_map_query_bind]
  congr 1
  funext r
  cases reply r <;> rfl

/-- The rule for one operation that may fail. -/
theorem ensures_execute {d : Discipline hubSemantics P}
    {Q : List (HubState × Op) → HubValue → Prop} {own : List (HubState × Op)}
    {reply : Reply op → Except HubError α} {g : α → HubM β} {f : β → Outcome} {s : HubState}
    (hok : ∀ t a, d.inv t → d.grows s t → reply (t.exec op).2 = .ok a →
      d.Ensures Q (own ++ [(t, op)]) (f <$> g a).run (t.exec op).1)
    (herror : ∀ t e, d.inv t → reply (t.exec op).2 = .error e → Q (own ++ [(t, op)]) (.error e)) :
    d.Ensures Q own (f <$> (execute op reply >>= g)).run s := by
  rw [run_map_execute_bind]
  intro t ht hgrows
  change d.Ensures Q _ (match reply (t.exec op).2 with
    | .ok a => (f <$> g a).run
    | .error e => .done (.error e)) (t.exec op).1
  cases hreply : reply (t.exec op).2 with
  | ok a => exact hok t a ht hgrows hreply
  | error e => exact herror t e ht hreply

end HeyServer.Hub
