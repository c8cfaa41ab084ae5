import HeyServer.Hub.Heartbeats
import HeyServer.Hub.ProfileRevisions
import HeyServer.Hub.TaskReturns

/-!
# Agent hub: reported profile status

`GetNodeProfile` reports `applied` exactly when the last accepted heartbeat of the
node observed the stored revision as applied.

## Implementation notes

The method makes four reads. Run without interruption it answers for one state,
which `Db.profileStatus` describes; other calls may also run between its reads,
and then each part of the answer holds at the read it comes from.
-/

namespace HeyServer.Hub
open Lib List Option Service

/-! ## The answer for one state -/

/-- A row that must be there, as it is read. -/
def orNotFound {α β : Type} (row : Option α) (read : α → Except HubError β) : Except HubError β :=
  match row with
  | none => .error (.sentinel .notFound)
  | some row => read row

/-- The newest task, as it is read. -/
def latestTaskOf : Option (Nat × TaskRow) → Except HubError (Option Task)
  | none => .ok none
  | some (id, row) => some <$> scanTask "agent hub: get latest profile apply task" id row

/-- The newest profile apply of a node. -/
def Db.latestApply (db : Db) (nodeId : Bytes) : Except HubError (Option Task) :=
  latestTaskOf
    (db.tasks.latest (fun _ row => row.nodeId = nodeId && row.kind = .profileApply) 1).head?

/-- What `GetNodeProfile` answers when nothing runs in between. -/
def Db.profileStatus (env : Env) (db : Db) (nodeId : Bytes) (now : Time) :
    Except HubError AgentProfileResponse :=
  if !validNodeId nodeId then .error (.sentinel .notFound)
  else
    match db.nodes nodeId with
    | none => .error (.sentinel .notFound)
    | some row => do
        let node ← scanNode env "agent hub: get node" nodeId row
        let record ← Repository.readProfile (db.profiles nodeId)
        let observation ← Repository.readObservation (db.observations nodeId)
        let latestTask ← db.latestApply nodeId
        .ok (profileResponse record node (isNodeOnline now node) observation latestTask)

section
variable (env : Env) (nodeId : Bytes)

theorem getNode_eq_execute : Repository.getNode env nodeId = execute (.selectNode nodeId) fun row =>
      orNotFound row (scanNode env "agent hub: get node" nodeId) := by
  rw [Repository.getNode, execute]
  congr 1
  funext row
  cases row <;> rfl

theorem getNodeProfile_eq_execute :
    Repository.getNodeProfile nodeId = execute (.selectProfile nodeId) fun row =>
      orNotFound row Repository.readProfile := by
  rw [Repository.getNodeProfile, execute]
  congr 1
  funext row
  cases row <;> rfl

theorem getNodeProfileObservation_eq_execute :
    Repository.getNodeProfileObservation nodeId = execute (.selectObservation nodeId) fun row =>
      orNotFound row Repository.readObservation := by
  rw [Repository.getNodeProfileObservation, execute]
  congr 1
  funext row
  cases row <;> rfl

theorem getLatestProfileApplyTask_eq_execute : Repository.getLatestProfileApplyTask nodeId =
      execute (.selectLatestTask nodeId .profileApply) latestTaskOf := by
  rw [Repository.getLatestProfileApplyTask, execute]
  congr 1
  funext row
  cases row with
  | none => rfl
  | some task =>
    dsimp only [latestTaskOf]
    cases scanTask "agent hub: get latest profile apply task" task.1 task.2 <;> rfl

end

/-- A read gives what the state holds. -/
theorem yields_execute {α : Type} (op : Op) (hop : op.isRead = true)
    (reply : Reply op → Except HubError α) (s : HubState) :
    Prog.Yields hubSemantics (execute op reply) s (reply (s.exec op).2) := by
  change (liftM (reply (s.exec op).2) : HubM α).run.run hubSemantics (s.exec op).1 = _
  rw [exec_isRead hop]
  exact Prog.yields_liftM _ _ s

/-- `Db.profileStatus` is what the method computes. -/
theorem yields_profileStatus (env : Env) (nodeId : Bytes) (now : Time) (s : HubState) :
    Prog.Yields hubSemantics (Service.getNodeProfile env nodeId now) s
      (s.db.profileStatus env nodeId now) := by
  rw [getNodeProfile, getNode, Db.profileStatus]
  split_ifs
  · rfl
  rw [getNode_eq_execute, getNodeProfile_eq_execute, getNodeProfileObservation_eq_execute,
    getLatestProfileApplyTask_eq_execute]
  have hnode := yields_execute (.selectNode nodeId) rfl
    (fun row => orNotFound row (scanNode env "agent hub: get node" nodeId)) s
  have hprofile := yields_execute (.selectProfile nodeId) rfl
    (fun row => orNotFound row Repository.readProfile) s
  have hobservation := yields_execute (.selectObservation nodeId) rfl
    (fun row => orNotFound row Repository.readObservation) s
  have hlatest := yields_execute (.selectLatestTask nodeId .profileApply) rfl latestTaskOf s
  simp only [HubState.exec] at hnode hprofile hobservation hlatest
  cases hrow : s.db.nodes nodeId with
  | none =>
    rw [hrow] at hnode
    exact hnode.bind_error
  | some row =>
    rw [hrow] at hnode hprofile hobservation
    refine hnode.bind fun node _ => hprofile.bind fun record _ => ?_
    exact hobservation.bind fun observation _ => hlatest.bind fun latestTask _ => rfl

/-! ## When the answer is `applied` -/

variable (record : AgentProfileRecord)

/-- No task makes the answer `applied`; an observation of the stored revision does. -/
theorem profileResponse_applied_iff (node : Node Inventory)
    (online : Bool) (observation : Option AgentProfileObservationRecord)
    (latestTask : Option Task) :
    (profileResponse record node online observation latestTask).apply.state = .applied ↔
      hasCapability node.capabilities .profileApply = true ∧ record.configured = true ∧
        ∃ o, observation = some o ∧ o.state = .applied ∧ o.revision = record.revision := by
  have hfrom : ∀ capable, (applyStateOfTask capable (matchingTask record latestTask)).1 ≠
      .applied := by
    intro capable
    unfold applyStateOfTask
    split_ifs
    · split
      · nofun
      · split <;> nofun
    · nofun
  rw [profileResponse]
  cases hasCapability node.capabilities .profileApply with
  | false =>
    constructor
    · intro hstate
      cases hconfigured : record.configured <;>
        rw [hconfigured] at hstate <;> exact absurd hstate (hfrom false)
    · rintro ⟨hcapable, -⟩
      cases hcapable
  | true =>
    cases hconfigured : record.configured with
    | false =>
      constructor
      · intro hstate
        exact absurd hstate (hfrom true)
      · rintro ⟨-, hfalse, -⟩
        cases hfalse
    | true =>
      cases observation with
      | none =>
        constructor
        · intro hstate
          exact absurd hstate (hfrom true)
        · rintro ⟨-, -, o, ho, -⟩
          cases ho
      | some o =>
        simp only [true_and, some.injEq, exists_eq_left', applyStateOfObservation, if_true]
        split_ifs with happlied
        · exact ⟨fun _ => happlied, fun _ => rfl⟩
        all_goals
          constructor
          · intro hstate
            first | exact absurd hstate (hfrom true) | cases hstate
          · intro hboth
            exact absurd hboth happlied

/-! ## What is read -/

variable {observation : Option AgentProfileObservationRecord}

theorem readObservation_eq {stored : Option ObservationRow}
    (h : Repository.readObservation stored = .ok observation) : observation =
      stored.map fun row => ⟨row.state, row.revision, row.errorCode, row.updatedAt⟩ := by
  cases stored with
  | none => exact (Except.ok.inj h).symm
  | some row =>
    rw [Repository.readObservation] at h
    split_ifs at h
    split at h
    · cases h
    · exact (Except.ok.inj h).symm

theorem readProfile_configured {stored : Option ProfileRow} {record : AgentProfileRecord}
    (h : Repository.readProfile stored = .ok record) (hconfigured : record.configured = true) :
    stored.map (·.revision) = some record.revision := by
  cases stored with
  | none =>
    cases h
    cases hconfigured
  | some row =>
    rw [Repository.readProfile] at h
    split at h
    · cases h
      cases hconfigured
    split at h
    · cases h
    split at h
    · cases h
    split_ifs at h
    cases h
    rfl

variable {trace : List HubEvent}

/-- What is stored is the last save, and it can be read. -/
theorem SavesInv.readProfile {nodeId : Bytes} {s : HubState}
    (h : SavesInv nodeId trace s) {row : ProfileRow} (hrow : s.db.profiles nodeId = some row) :
    ∃ save, (saves nodeId trace).getLast? = some save ∧ save.normalized.marshal = row.profileJson ∧
      save.revision = row.revision ∧
      Repository.readProfile (s.db.profiles nodeId) =
        .ok ⟨save.normalized, row.revision, true⟩ := by
  have hlatest := h.latest
  rw [hrow] at hlatest ⊢
  obtain ⟨save, hlast, hsave⟩ := map_eq_some_iff.mp hlatest.symm
  obtain ⟨hjson, hrevision⟩ := Prod.mk.inj hsave
  obtain ⟨hnormal, hvalid, -⟩ := h.valid save (mem_of_getLast? hlast)
  have hnonempty : save.normalized.marshal ≠ [] := by
    simp [AgentProfile.marshal, AgentProfile.toJson, Json.encode]
  refine ⟨save, hlast, hjson, hrevision, ?_⟩
  rw [Repository.readProfile, ← hjson, if_neg hnonempty,
    decodePersistedAgentProfile_marshal hnormal]
  dsimp only
  rw [show normalizeAgentProfile save.normalized = .ok save.normalized from hnormal]
  dsimp only
  rw [← hrevision, if_neg (Int.not_lt.mpr hvalid.1)]

/-- The newest profile apply can be read. -/
theorem latestApply_ok {db : Db} (h : ∀ id row, db.tasks.get? id = some row → row.Readable)
    (nodeId : Bytes) : ∃ task, db.latestApply nodeId = .ok task := by
  rw [Db.latestApply]
  cases hlatest : (db.tasks.latest (fun _ row => row.nodeId = nodeId && row.kind = .profileApply)
    1).head? with
  | none => exact ⟨none, rfl⟩
  | some task =>
    obtain ⟨id, row⟩ := task
    have hmem := mem_of_mem_take (mem_of_head? hlatest)
    obtain ⟨hget, -⟩ := RowTable.mem_select.mp (mem_reverse.mp hmem)
    obtain ⟨task, hscan, -⟩ :=
      scanTask_readable (h id row hget) "agent hub: get latest profile apply task" id
    rw [latestTaskOf, hscan]
    exact ⟨some task, rfl⟩

/-- A node that was seen can be read, with the capabilities it advertised. -/
theorem scanNode_seen {env : Env} {row : NodeRow} {capabilities : List Bytes}
    {inventory : Inventory}
    (hcapabilities : row.capabilitiesJson = marshalCapabilities capabilities)
    (hinventory : env.marshalInventory inventory = some row.inventoryJson) (context : String)
    (nodeId : Bytes) : ∃ node, scanNode env context nodeId row = .ok node ∧
      node.capabilities = capabilities.map Utf8.sanitize := by
  have hread : (env.unmarshalInventory (orDefault row.inventoryJson "{}")).isSome := by
    rw [orDefault]
    split_ifs
    · exact env.unmarshal_default
    · exact env.unmarshal_marshal _ _ hinventory
  obtain ⟨inventory', hread⟩ := isSome_iff_exists.mp hread
  have htext : orDefault row.capabilitiesJson "[]" = marshalCapabilities capabilities := by
    rw [orDefault, hcapabilities, if_neg]
    cases capabilities <;> simp [marshalCapabilities, Json.encode]
  rw [scanNode, htext, unmarshalCapabilities_marshal, hread]
  exact ⟨_, rfl, rfl⟩

/-! ## Over whole runs -/

/-- The heartbeat advertised profile applies and observed the revision as applied. -/
def HeartbeatRequest.Applied (req : HeartbeatRequest Inventory) (revision : Int) : Prop :=
  hasCapability req.capabilities .profileApply = true ∧
    ∃ o, req.profile = some o ∧ o.state = .applied ∧ o.revision = revision

/-- A stored observation is the one of the last heartbeat. -/
theorem NodeInv.applied {env : Env} {nodeId : Bytes} {s : HubState} (h : NodeInv env nodeId trace s)
    (hread : Repository.readObservation (s.db.observations nodeId) = .ok observation)
    {o : AgentProfileObservationRecord} (ho : observation = some o) (hstate : o.state = .applied) :
    ∃ req, lastBeat nodeId trace = some req ∧ req.Applied o.revision := by
  have hrow := readObservation_eq hread
  rw [ho] at hrow
  obtain ⟨row, hstored, rfl⟩ := map_eq_some_iff.mp hrow.symm
  cases hlast : lastBeat nodeId trace with
  | none =>
    rw [h.unseen hlast] at hstored
    cases hstored
  | some req =>
    obtain ⟨-, -, _, stamp, -, -, -, hobservation⟩ := h.seen req hlast
    refine ⟨req, rfl, ?_⟩
    rw [hstored, HeartbeatRequest.observation] at hobservation
    split_ifs at hobservation with hcapable
    obtain ⟨reported, hprofile, rfl⟩ := map_eq_some_iff.mp hobservation.symm
    exact ⟨hcapable, reported, hprofile, hstate, rfl⟩

/-- The observation of a heartbeat can be read. -/
theorem HeartbeatRequest.readObservation {req : HeartbeatRequest Inventory}
    (hvalid : validateAgentProfileObservation req.profile = .ok ()) {o : AgentProfileObservation}
    (ho : req.profile = some o) (hcapable : hasCapability req.capabilities .profileApply = true)
    (stamp : Time) : Repository.readObservation (req.observation stamp) =
      .ok (some ⟨o.state, o.revision, o.errorCode, stamp⟩) := by
  have hrevision : ¬o.revision < 0 := by
    intro hneg
    rw [ho, validateAgentProfileObservation, if_pos hneg] at hvalid
    cases hvalid
  rw [ho] at hvalid
  rw [HeartbeatRequest.observation, if_pos hcapable, ho, map_some, Repository.readObservation,
    if_neg hrevision]
  rw [hvalid]

section
variable {env : Env} {trace : List HubEvent} {cfg : Config HubState Op Reply Call HubValue}

theorem profileStatus_applied_iff (run : HubRun env trace cfg) (nodeId : Bytes) (now : Time) :
    (∃ response, cfg.state.db.profileStatus env nodeId now = .ok response ∧
      response.apply.state = .applied) ↔
    ∃ req revision, lastBeat nodeId trace = some req ∧ req.Applied revision ∧
      (cfg.state.db.profiles nodeId).map (·.revision) = some revision := by
  have hnode : NodeInv env nodeId trace cfg.state :=
    run.history (hub_issues env) (nodeInv_initial env nodeId) fun _ _ hop ih => ih.step hop
  constructor
  · rintro ⟨response, hstatus, happlied⟩
    obtain ⟨-, hstatus⟩ := ite_error_eq_ok.mp hstatus
    split at hstatus
    · cases hstatus
    obtain ⟨node, -, hstatus⟩ := bind_eq_ok.mp hstatus
    obtain ⟨record, hrecord, hstatus⟩ := bind_eq_ok.mp hstatus
    obtain ⟨observation, hobservation, hstatus⟩ := bind_eq_ok.mp hstatus
    obtain ⟨latestTask, -, hstatus⟩ := bind_eq_ok.mp hstatus
    cases hstatus
    obtain ⟨-, hconfigured, o, ho, hstate, hrevision⟩ :=
      (profileResponse_applied_iff _ _ _ _ _).mp happlied
    obtain ⟨req, hlast, hreq⟩ := hnode.applied hobservation ho hstate
    refine ⟨req, o.revision, hlast, hreq, ?_⟩
    rw [hrevision]
    exact readProfile_configured hrecord hconfigured
  · rintro ⟨req, revision, hlast, ⟨hcapable, o, ho, hstate, rfl⟩, hstored⟩
    obtain ⟨hvalid, hobserved, row, stamp, hrow, hcapabilities, hinventory, hobservation⟩ :=
      hnode.seen req hlast
    obtain ⟨stored, hprofile, hrevision⟩ := map_eq_some_iff.mp hstored
    obtain ⟨save, -, -, -, hrecord⟩ := (savesInv_run run nodeId).readProfile hprofile
    obtain ⟨node, hscan, hnodecaps⟩ :=
      scanNode_seen hcapabilities hinventory "agent hub: get node" nodeId
    obtain ⟨task, htask⟩ := latestApply_ok (fun id => readable_run run id) nodeId
    refine ⟨profileResponse ⟨save.normalized, stored.revision, true⟩ node (isNodeOnline now node)
      (some ⟨o.state, o.revision, o.errorCode, stamp⟩) task, ?_, ?_⟩
    · rw [Db.profileStatus, hvalid, hrow, hobservation]
      refine bind_eq_ok.mpr ⟨node, hscan, bind_eq_ok.mpr ⟨_, hrecord, bind_eq_ok.mpr
        ⟨_, HeartbeatRequest.readObservation hobserved ho hcapable stamp,
          bind_eq_ok.mpr ⟨task, htask, rfl⟩⟩⟩⟩
    · refine (profileResponse_applied_iff _ _ _ _ _).mpr ⟨?_, rfl, _, rfl, hstate, hrevision.symm⟩
      rw [hnodecaps, hasCapability_sanitize]
      exact hcapable

/-- A profile is stored for registered nodes only. -/
theorem nodes_of_profiles (run : HubRun env trace cfg) (nodeId : Bytes) :
    (cfg.state.db.profiles nodeId).isSome → (cfg.state.db.nodes nodeId).isSome := by
  refine run.history (J := fun _ s => (s.db.profiles nodeId).isSome → (s.db.nodes nodeId).isSome)
    (hub_issues env) (fun h => h) ?_
  intro trace e _ ih
  have hstep : DbStep e.before.db e.op (e.after (hub env).sem).db := exec_dbStep e.before e.op
  generalize (e.after (hub env).sem).db = db at hstep ⊢
  generalize e.op = op at hstep
  cases hstep with
  | @register id | @beat id =>
    intro hprofile
    by_cases hid : nodeId = id
    · simp [hid]
    · simpa [hid] using ih hprofile
  | @save id normalized expected stamp revision hok =>
    intro hprofile
    by_cases hid : nodeId = id
    · subst hid
      cases hnode : e.before.db.nodes nodeId with
      | none =>
        rw [Db.saveNodeProfile, hnode] at hok
        cases hok
      | some node => simp
    · exact ih (by simpa [hid] using hprofile)
  | _ => exact ih

/-- Every profile that is stored can be read and applied: `GetNodeProfile` returns the profile and
the revision of the last accepted save, the document of every save fits, and the transaction of
`CreateProfileApplyTask` refuses the stored revision only for another apply in flight. -/
theorem stored_profile_appliable (run : HubRun env trace cfg) (nodeId : Bytes) :
    (∀ row, cfg.state.db.profiles nodeId = some row → ∃ save payload,
      (saves nodeId trace).getLast? = some save ∧
      Prog.Yields hubSemantics (Repository.getNodeProfile nodeId) cfg.state
        (.ok ⟨save.normalized, save.revision, true⟩) ∧
      profileApplyTaskPayload save.normalized save.revision = .ok (save.normalized, payload) ∧
      ∀ stamp error, cfg.state.db.createProfileApplyTask nodeId save.revision save.normalized payload
        stamp = .error error → error = .sentinel .profileApplyInFlight) ∧
    (∀ save ∈ saves nodeId trace, ∃ document, document.length ≤ maxProfileJsonBytes ∧
      canonicalProfileApplyDocument save.normalized save.revision =
        .ok (save.normalized, document)) ∧
    (∀ i profile expected clock outcome,
      cfg.calls[i]? = some (.saveNodeProfile nodeId profile expected clock, .done (.ok outcome)) →
      ∃ save ∈ saves nodeId trace, save.call = i ∧
        normalizeAgentProfile profile = .ok save.normalized ∧
        outcome = .record ⟨save.normalized, save.revision, true⟩) := by
  have hinv := savesInv_run run nodeId
  refine ⟨?_, ?_, ?_⟩
  · intro row hrow
    obtain ⟨node, hnode⟩ := isSome_iff_exists.mp
      (nodes_of_profiles run nodeId (isSome_iff_exists.mpr ⟨row, hrow⟩))
    obtain ⟨save, hsave, hjson, hrevision, hread⟩ := hinv.readProfile hrow
    obtain ⟨hnormal, hvalid, hlen⟩ := hinv.valid save (mem_of_getLast? hsave)
    have hpayload := (profileApplyTaskPayload_ok_iff _ _ _ _).mpr ⟨hvalid.1, hnormal, hlen, rfl⟩
    refine ⟨save, _, hsave, ?_, hpayload, ?_⟩
    · have hyields := yields_execute (.selectProfile nodeId) rfl
        (fun row => orNotFound row Repository.readProfile) cfg.state
      rw [← getNodeProfile_eq_execute] at hyields
      simpa only [HubState.exec, hnode, Option.map_some, orNotFound, hread, hrevision] using hyields
    · intro stamp error herror
      have hcheck : row.check save.normalized = .ok () := by
        rw [ProfileRow.check, ← hjson, decodePersistedAgentProfile_marshal hnormal]
        dsimp only
        rw [show normalizeAgentProfile save.normalized = .ok save.normalized from hnormal]
        exact if_neg (not_not.mpr rfl)
      rw [Db.createProfileApplyTask, hnode, hrow] at herror
      dsimp only at herror
      rw [if_neg (not_not.mpr hrevision.symm), hcheck, Db.insertTask, hnode] at herror
      simp only [bind, Except.bind] at herror
      split_ifs at herror with happlied hconflict
      · exact (Except.error.inj herror).symm
      · split at herror <;> cases herror
  · intro save hsave
    obtain ⟨hnormal, hvalid, hlen⟩ := hinv.valid save hsave
    exact ⟨_, hlen, (canonicalProfileApplyDocument_ok_iff _ _ _ _).mpr
      ⟨hvalid.1, hnormal, rfl, hlen⟩⟩
  · intro i profile expected clock outcome hcall
    obtain ⟨save, hsave, hi, -, hreturned⟩ := ((saveReturned_run run hcall).ok_iff outcome).mp rfl
    exact ⟨save, hsave, hi, hreturned⟩

/-- What a finished `GetNodeProfile` read, each part in its own state. -/
def StatusReturned (nodeId : Bytes) (own : List (HubState × Op)) (v : HubValue) : Prop :=
  ∀ response, v = .ok (.profile response) → ∃ s t record node online observation task,
    (s, .selectProfile nodeId) ∈ own ∧ (t, .selectObservation nodeId) ∈ own ∧
    Repository.readProfile (s.db.profiles nodeId) = .ok record ∧
    Repository.readObservation (t.db.observations nodeId) = .ok observation ∧
    response = profileResponse record node online observation task

/-- `StatusReturned`, for the calls that ask for a status. -/
def Call.StatusReturned : Call → List (HubState × Op) → HubValue → Prop
  | .getNodeProfile nodeId _, own, v => Hub.StatusReturned nodeId own v
  | _, _, _ => True

theorem orNotFound_map_ok {α β γ : Type} {row : Option α} {value : β} {read : β → Except HubError γ}
    {a : γ} (h : orNotFound (row.map fun _ => value) read = .ok a) : read value = .ok a := by
  cases row with
  | none => cases h
  | some row => exact h

theorem statusReturned_error (nodeId : Bytes) (own : List (HubState × Op)) (e : HubError) :
    StatusReturned nodeId own (.error e) := by
  intro response hv
  cases hv

theorem ensures_getNodeProfile (env : Env) (nodeId : Bytes) (now : Time) (s : HubState) :
    (Discipline.free hubSemantics).Ensures (StatusReturned nodeId) []
      (.profile <$> Service.getNodeProfile env nodeId now).run s := by
  rw [getNodeProfile, getNode]
  split_ifs
  · exact statusReturned_error nodeId [] (.sentinel .notFound)
  rw [getNode_eq_execute]
  refine ensures_execute ?_ fun _ e _ _ => statusReturned_error nodeId _ e
  intro _ node _ _ _
  rw [getNodeProfile_eq_execute]
  refine ensures_execute ?_ fun _ e _ _ => statusReturned_error nodeId _ e
  intro t record _ _ hrecord
  rw [getNodeProfileObservation_eq_execute]
  refine ensures_execute ?_ fun _ e _ _ => statusReturned_error nodeId _ e
  intro t' observation _ _ hobservation
  rw [getLatestProfileApplyTask_eq_execute]
  refine ensures_execute ?_ fun _ e _ _ => statusReturned_error nodeId _ e
  intro _ task _ _ _ response hv
  refine ⟨t, t', record, node, isNodeOnline now node, observation, task, by simp, by simp,
    orNotFound_map_ok hrecord, orNotFound_map_ok hobservation, ?_⟩
  exact (Outcome.profile.inj (Except.ok.inj hv)).symm

/-- `applied` is reported exactly when it is observed: asked in any reached state the hub answers
`applied` if and only if the last accepted heartbeat observed the stored revision as applied, and a
call whose reads other calls interrupt answers so only if the last heartbeat at its read of the
observation observed the revision stored at its read of the profile. -/
theorem applied_iff_observed (run : HubRun env trace cfg) (nodeId : Bytes) :
    (∀ now, (∃ response,
        ((Service.getNodeProfile env nodeId now).run.run hubSemantics cfg.state).2 = .ok response ∧
        response.apply.state = .applied) ↔
      ∃ req revision, lastBeat nodeId trace = some req ∧ req.Applied revision ∧
        (cfg.state.db.profiles nodeId).map (·.revision) = some revision) ∧
    (∀ i clock response,
      cfg.calls[i]? = some (.getNodeProfile nodeId clock, .done (.ok (.profile response))) →
      response.apply.state = .applied →
      ∃ e ∈ trace, ∃ earlier e' later, e.id = i ∧ e'.id = i ∧ trace = earlier ++ e' :: later ∧
        ∃ req revision, lastBeat nodeId earlier = some req ∧ req.Applied revision ∧
          (e.before.db.profiles nodeId).map (·.revision) = some revision) := by
  constructor
  · intro now
    rw [show (getNodeProfile env nodeId now).run.run hubSemantics cfg.state = _ from
      yields_profileStatus env nodeId now cfg.state]
    exact profileStatus_applied_iff run nodeId now
  · intro i clock response hcall happlied
    have hreturned := run.settled (Discipline.free hubSemantics) (Q := Call.StatusReturned) trivial
      (fun c hc => (hub_issues env c hc).mono fun _ _ => trivial) (by
        intro c _ s _
        cases c with
        | getNodeProfile nodeId clock => exact ensures_getNodeProfile env nodeId _ s
        | _ => exact ensures_free [] _ s) i _ _ hcall
    obtain ⟨s, t, record, node, online, observation, task, hs, ht, hrecord, hobservation, rfl⟩ :=
      hreturned response rfl
    obtain ⟨-, hconfigured, o, ho, hstate, hrevision⟩ :=
      (profileResponse_applied_iff _ _ _ _ _).mp happlied
    obtain ⟨e, he, hid, rfl, -⟩ := mem_ownSteps.mp hs
    obtain ⟨e', he', hid', rfl, -⟩ := mem_ownSteps.mp ht
    obtain ⟨earlier, later, hsplit⟩ := append_of_mem he'
    have hnode : NodeInv env nodeId earlier e'.before :=
      (run.history_before (hub_issues env) (nodeInv_initial env nodeId)
        (fun _ _ hop _ ih => ih.step hop) hsplit).1
    obtain ⟨req, hlast, hreq⟩ := hnode.applied hobservation ho hstate
    refine ⟨e, he, earlier, e', later, hid, hid', hsplit, req, o.revision, hlast, hreq, ?_⟩
    rw [hrevision]
    exact readProfile_configured hrecord hconfigured

end

/-- A heartbeat that observes revision one as applied. -/
def appliedBeat : HeartbeatRequest Inventory where
  protocolVersion := protocolVersion
  nodeId := ascii "n1"
  agentVersion := []
  capabilities := [Capability.profileApply.text]
  hostname := []
  sentAt := 3
  inventory := {}
  profile := some ⟨.applied, 1, []⟩

/-- A saved profile is observed as applied. -/
def observedCalls : List Call :=
  [.registerNode ⟨ascii "n1", ascii "node"⟩ (ascii "t") fun _ => 1,
    .saveNodeProfile (ascii "n1") emptyAgentProfile 0 fun _ => 2,
    .heartbeat (ascii "n1") (ascii "t") appliedBeat fun _ => 3]

def observedRun : List HubEvent × Config HubState Op Reply Call HubValue :=
  Run.serialRun (hub Env.plain) HubState.initial observedCalls

theorem observedRun_run : HubRun Env.plain observedRun.1 observedRun.2 := by
  refine Run.serialRun_run observedCalls ?_ (by decide +kernel)
  simp [observedCalls, Call.Validated]

theorem stored_profile_appliable_once : Prog.Yields hubSemantics
    (Repository.getNodeProfile (ascii "n1")) observedRun.2.state
    (.ok ⟨emptyAgentProfile, 1, true⟩) := by
  have hrow : (observedRun.2.state.db.profiles (ascii "n1")).isSome := by decide +kernel
  have hlast : ((saves (ascii "n1") observedRun.1).getLast?.map fun save =>
      (⟨save.normalized, save.revision, true⟩ : AgentProfileRecord)) =
      some ⟨emptyAgentProfile, 1, true⟩ := by decide +kernel
  obtain ⟨row, hrow⟩ := isSome_iff_exists.mp hrow
  obtain ⟨save, -, hsave, hyields, -⟩ :=
    (stored_profile_appliable observedRun_run (ascii "n1")).1 row hrow
  rwa [← Option.some.inj ((congrArg (Option.map _) hsave).symm.trans hlast)]

theorem applied_iff_observed_once :
    (∃ response,
      ((Service.getNodeProfile Env.plain (ascii "n1") 4).run.run hubSemantics
        observedRun.2.state).2 = .ok response ∧ response.apply.state = .applied) := by
  refine ((applied_iff_observed observedRun_run (ascii "n1")).1 4).mpr ?_
  have hbeat : (lastBeat (ascii "n1") observedRun.1).map (fun req =>
      (hasCapability req.capabilities .profileApply, req.profile)) =
      some (true, some ⟨.applied, 1, []⟩) := by decide +kernel
  obtain ⟨req, hlast, hreq⟩ := map_eq_some_iff.mp hbeat
  obtain ⟨hcapable, hprofile⟩ := Prod.mk.inj hreq
  exact ⟨req, 1, hlast, ⟨hcapable, _, hprofile, rfl, rfl⟩, by decide +kernel⟩

end HeyServer.Hub
