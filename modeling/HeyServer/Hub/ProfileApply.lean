import HeyServer.Hub.ProfileRevisions

/-!
# Agent hub: profile applies

A node has at most one profile apply in flight, and each carries the document of
a profile that was stored for the node under its revision.

## Implementation notes

`agent.profile.apply` tasks are created by one transaction only: the generic
`CreateTask` refuses the kind. Rows are never deleted, so the rows of a state are
the tasks ever created.
-/

namespace HeyServer.Hub
open Lib List

/-- The check accepts only the stored profile. -/
theorem ProfileRow.check_ok {row : ProfileRow} {stored normalized : AgentProfile}
    (hrow : row.profileJson = stored.marshal) (hstored : stored.Normalized)
    (hnormal : normalized.Normalized) (h : row.check normalized = .ok ()) :
      normalized = stored := by
  rw [check, hrow, decodePersistedAgentProfile_marshal hstored] at h
  dsimp only at h
  rw [show normalizeAgentProfile stored = .ok stored from hstored] at h
  dsimp only at h
  split_ifs at h with hsame
  have hread := decodePersistedAgentProfile_marshal hstored
  rw [not_not.mp hsame, decodePersistedAgentProfile_marshal hnormal] at hread
  exact Except.ok.inj hread

/-- What the transaction has seen when a profile apply appears. -/
theorem exec_creates_apply {env : Env} {c : Call} {s : HubState} {op : Op} {id : Nat}
    {row : TaskRow}
    (hop : op.IssuedBy env c) (hbefore : s.db.tasks.get? id = none)
    (hafter : (s.exec op).1.db.tasks.get? id = some row) (hkind : row.kind = .profileApply) :
    ∃ revision normalized stamp stored,
      op = .createApply row.nodeId revision normalized row.payloadJson stamp ∧
      s.db.profiles row.nodeId = some stored ∧ stored.revision = revision ∧
      stored.check normalized = .ok () ∧ s.db.inFlightApplies row.nodeId = [] := by
  have hstep := exec_taskStep s op id
  rw [hbefore, hafter] at hstep
  obtain ⟨-, nodeId, kind, payload, stamp, hcreates, rfl⟩ := hstep.of_none
  have hdb := exec_dbStep s op
  generalize (s.exec op).1.db = db at hafter hdb
  cases hdb with
  | same =>
    rw [hbefore] at hafter
    cases hafter
  | enqueue =>
    obtain ⟨-, rfl, -, -⟩ := hcreates
    exact absurd hkind hop.1
  | apply hstored hrevision hcheck hnone =>
    obtain ⟨rfl, -, rfl, rfl⟩ := hcreates
    exact ⟨_, _, _, _, rfl, hstored, hrevision, hcheck, hnone⟩
  | _ => exact hcreates.elim

theorem not_inFlight_of_nil {db : Db} {nodeId : Bytes} (h : db.inFlightApplies nodeId = [])
    {id : Nat} {row : TaskRow} (hget : db.tasks.get? id = some row) (hnode : row.nodeId = nodeId)
    (hkind : row.kind = .profileApply) : row.inFlight = false := by
  by_contra hflight
  rw [Bool.not_eq_false] at hflight
  have hmem : (id, row) ∈ db.inFlightApplies nodeId := by
    refine mem_reverse.mpr (RowTable.mem_select.mpr ⟨hget, ?_⟩)
    simp [hnode, hkind, hflight]
  rw [h] at hmem
  cases hmem

/-- Where the profile applies stand. -/
structure ApplyInv (trace : List HubEvent) (s : HubState) : Prop where
  single : ∀ id id' row row', s.db.tasks.get? id = some row → s.db.tasks.get? id' = some row' →
    row.kind = .profileApply → row'.kind = .profileApply → row.nodeId = row'.nodeId →
    row.inFlight = true → row'.inFlight = true → id = id'
  source : ∀ id row, s.db.tasks.get? id = some row → row.kind = .profileApply →
    ∃ save ∈ saves row.nodeId trace,
      row.payloadJson = (applyPayload save.normalized save.revision).marshal

namespace ApplyInv
variable {env : Env} {trace : List HubEvent} {e : HubEvent}

/-- A task in flight that was not there before is alone. -/
theorem single_step (h : ApplyInv trace e.before) (hop : e.op.IssuedBy env e.call) {id id' : Nat}
    {row row' : TaskRow} (hget : (e.after hubSemantics).db.tasks.get? id = some row)
    (hget' : (e.after hubSemantics).db.tasks.get? id' = some row')
    (hkind : row.kind = .profileApply) (hkind' : row'.kind = .profileApply)
    (hnode : row.nodeId = row'.nodeId) (hflight : row.inFlight = true)
    (hflight' : row'.inFlight = true) : id = id' := by
  have hstep := taskStep_event e id
  have hstep' := taskStep_event e id'
  rw [hget] at hstep
  rw [hget'] at hstep'
  rcases hstep.of_after with hnew | ⟨old, hold, hnode₁, hkind₁, -, hflight₁⟩ <;>
    rcases hstep'.of_after with hnew' | ⟨old', hold', hnode₂, hkind₂, -, hflight₂⟩
  · rw [hnew] at hstep
    rw [hnew'] at hstep'
    rw [hstep.of_none.1, hstep'.of_none.1]
  · obtain ⟨-, -, -, -, -, -, -, -, hnil⟩ := exec_creates_apply hop hnew hget hkind
    have hout := not_inFlight_of_nil hnil hold' (hnode₂.symm.trans hnode.symm) (hkind₂ ▸ hkind')
    rw [hflight₂ hflight'] at hout
    cases hout
  · obtain ⟨-, -, -, -, -, -, -, -, hnil⟩ := exec_creates_apply hop hnew' hget' hkind'
    have hout := not_inFlight_of_nil hnil hold (hnode₁.symm.trans hnode) (hkind₁ ▸ hkind)
    rw [hflight₁ hflight] at hout
    cases hout
  · exact h.single id id' old old' hold hold' (hkind₁ ▸ hkind) (hkind₂ ▸ hkind')
      (hnode₁.symm.trans (hnode.trans hnode₂)) (hflight₁ hflight) (hflight₂ hflight')

section
variable (h : ApplyInv trace e.before)
  (hsaves : ∀ nodeId, SavesInv nodeId trace e.before)
  (hop : e.op.IssuedBy env e.call)
include h hsaves hop

/-- A new task carries the last save, an old one is unchanged. -/
theorem source_step {id : Nat} {row : TaskRow}
    (hget : (e.after hubSemantics).db.tasks.get? id = some row) (hkind : row.kind = .profileApply) :
    ∃ save ∈ saves row.nodeId (trace ++ [e]),
      row.payloadJson = (applyPayload save.normalized save.revision).marshal := by
  have hmono : ∀ save ∈ saves row.nodeId trace, save ∈ saves row.nodeId (trace ++ [e]) := by
    intro save hsave
    rw [saves_append]
    exact mem_append_left _ hsave
  have hstep := taskStep_event e id
  rw [hget] at hstep
  rcases hstep.of_after with hnew | ⟨old, hold, hnode, hkind', hpayload, -⟩
  · obtain ⟨revision, normalized, stamp, stored, hopeq, hrow, rfl, hcheck, -⟩ :=
      exec_creates_apply hop hnew hget hkind
    rw [hopeq] at hop
    obtain ⟨hnormal, -, -, hpayload⟩ := hop
    have hlatest := (hsaves row.nodeId).latest
    rw [hrow] at hlatest
    obtain ⟨save, hlast, hstored⟩ := Option.map_eq_some_iff.mp hlatest.symm
    obtain ⟨hjson, hrevision⟩ := Prod.mk.inj hstored
    have hmem := mem_of_getLast? hlast
    refine ⟨save, hmono save hmem, ?_⟩
    obtain ⟨hsave, -, -⟩ := (hsaves row.nodeId).valid save hmem
    rw [hpayload, ProfileRow.check_ok hjson.symm hsave hnormal hcheck, hrevision]
  · rw [hnode] at hmono ⊢
    obtain ⟨save, hsave, hold'⟩ := h.source id old hold (hkind' ▸ hkind)
    exact ⟨save, hmono save hsave, hpayload.trans hold'⟩

theorem step : ApplyInv (trace ++ [e]) (e.after hubSemantics) where
  single _ _ _ _ := h.single_step hop
  source _ _ := h.source_step hsaves hop

end

end ApplyInv

theorem applyInv_initial : ApplyInv [] HubState.initial where
  single := by
    intro id _ row _ hget
    cases hget
  source := by
    intro id row hget
    cases hget

section
variable {env : Env} {trace : List HubEvent} {cfg : Config HubState Op Reply Call HubValue}

theorem applyInv_run (run : HubRun env trace cfg) : ApplyInv trace cfg.state := by
  refine (run.history (J := fun trace s => (∀ nodeId, SavesInv nodeId trace s) ∧ ApplyInv trace s)
    (hub_issues env) ⟨savesInv_initial, applyInv_initial⟩ ?_).2
  rintro trace e hop ⟨hsaves, happly⟩
  exact ⟨fun nodeId => (hsaves nodeId).step hop, happly.step hsaves hop⟩

/-- Single-flight profile apply: a node has at most one in flight, and each one ever created
carries the canonical document of the one profile saved for the node under its revision. -/
theorem profile_apply_single_flight (run : HubRun env trace cfg) :
    (∀ id id' row row', cfg.state.db.tasks.get? id = some row →
      cfg.state.db.tasks.get? id' = some row' → row.kind = .profileApply →
      row'.kind = .profileApply → row.nodeId = row'.nodeId → row.inFlight = true →
      row'.inFlight = true → id = id') ∧
    (∀ id row, cfg.state.db.tasks.get? id = some row → row.kind = .profileApply →
      ∃ save ∈ saves row.nodeId trace, ∃ document,
        canonicalProfileApplyDocument save.normalized save.revision =
          .ok (save.normalized, document) ∧
        row.payloadJson =
          (payloadMap (Base64.encode document) (Decimal.formatInt save.revision)).marshal ∧
        profileApplyPayloadRevision row.payloadJson = .ok save.revision ∧
        ∀ other ∈ saves row.nodeId trace, other.revision = save.revision → other = save) := by
  have hinv := applyInv_run run
  refine ⟨hinv.single, ?_⟩
  intro id row hget hkind
  obtain ⟨save, hsave, hpayload⟩ := hinv.source id row hget hkind
  have hsaves := savesInv_run run row.nodeId
  obtain ⟨hnormal, hrevision, hlen⟩ := hsaves.valid save hsave
  refine ⟨save, hsave, (applyDocument save.normalized save.revision).marshal, ?_, hpayload, ?_, ?_⟩
  · exact (canonicalProfileApplyDocument_ok_iff _ _ _ _).mpr ⟨hrevision.1, hnormal, rfl, hlen⟩
  · exact (profileApplyPayloadRevision_ok_iff _ _).mpr
      ⟨save.normalized, hnormal, hrevision, hlen, hpayload⟩
  · intro other hother heq
    refine hsaves.expected_inj hother hsave ?_
    rw [hsaves.expected_eq hother, hsaves.expected_eq hsave, heq]

end

/-- One profile is saved and applied twice. -/
def twoApplies : List Call :=
  [.registerNode ⟨ascii "n1", ascii "node"⟩ (ascii "t") fun _ => 1,
    .saveNodeProfile (ascii "n1") emptyAgentProfile 0 fun _ => 2,
    .createProfileApplyTask (ascii "n1") 1 emptyAgentProfile fun _ => 3,
    .createProfileApplyTask (ascii "n1") 1 emptyAgentProfile fun _ => 4]

def twoAppliesRun : List HubEvent × Config HubState Op Reply Call HubValue :=
  Run.serialRun (hub Env.plain) HubState.initial twoApplies

theorem twoAppliesRun_run : HubRun Env.plain twoAppliesRun.1 twoAppliesRun.2 := by
  refine Run.serialRun_run twoApplies ?_ (by decide +kernel)
  simp [twoApplies, Call.Validated]

theorem profile_apply_single_flight_coalesced :
    (twoAppliesRun.2.state.db.tasks.get? 1).map (fun row => (row.kind, row.inFlight)) =
        some (.profileApply, true) ∧
      ∀ id id' row row', twoAppliesRun.2.state.db.tasks.get? id = some row →
        twoAppliesRun.2.state.db.tasks.get? id' = some row' → row.kind = .profileApply →
        row'.kind = .profileApply → row.nodeId = row'.nodeId → row.inFlight = true →
        row'.inFlight = true → id = id' :=
  ⟨by decide +kernel, (profile_apply_single_flight twoAppliesRun_run).1⟩

end HeyServer.Hub
