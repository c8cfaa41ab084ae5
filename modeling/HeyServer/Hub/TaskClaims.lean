import HeyServer.Hub.TaskQueue

/-!
# Agent hub: claims and completions

Who claims a task and who completes it, over any interleaving of calls: every task
is claimed once, by its own node and in order, and only its node's report after
the claim writes a result.
-/

namespace HeyServer.Hub
open Lib List Option RowTable

/-! ## Claims -/

/-- Call number `call` claimed a task for a node. -/
structure Claim where
  call : Nat
  node : Bytes
  task : Nat

/-- The claim an event made. -/
def claimOf (e : HubEvent) : Option Claim :=
  match e.op with
  | .claimTask nodeId stamp =>
    (e.before.db.claimNextTask nodeId stamp).2.map fun claimed => ⟨e.id, nodeId, claimed.1⟩
  | _ => none

/-- The claims of a run, in order. -/
def claims (trace : List HubEvent) : List Claim := trace.filterMap claimOf

theorem claims_append (trace : List HubEvent) (e : HubEvent) :
    claims (trace ++ [e]) = claims trace ++ (claimOf e).toList := by
  rw [claims, filterMap_append]
  cases h : claimOf e <;> simp [claims, h]

variable {e : HubEvent} {id : Nat} {row row' : TaskRow} {env : Env} {trace : List HubEvent}

/-- A claim takes the oldest queued task of the call's node. -/
theorem claimOf_eq_some {claim : Claim} (h : claimOf e = some claim) :
    ∃ stamp row, e.op = .claimTask claim.node stamp ∧ claim.call = e.id ∧
      e.before.db.tasks.get? claim.task = some row ∧ row.nodeId = claim.node ∧
      row.status = .queued ∧
      (∀ id row, e.before.db.tasks.get? id = some row → row.nodeId = claim.node →
        row.status = .queued → claim.task ≤ id) ∧
      (e.after hubSemantics).db.tasks.get? claim.task = some (row.claimed stamp) := by
  unfold claimOf at h
  split at h
  · next nodeId stamp hop =>
      obtain ⟨⟨id, row⟩, hclaimed, rfl⟩ := map_eq_some_iff.mp h
      rcases e.before.db.claimNextTask_cases nodeId stamp with
        hnone | ⟨id', row', hget, hnode, hstatus, hleast, hclaim⟩
      · rw [hnone] at hclaimed
        cases hclaimed
      · rw [hclaim] at hclaimed
        cases hclaimed
        refine ⟨stamp, row', hop, rfl, hget, hnode, hstatus, hleast, ?_⟩
        have hafter : (e.after hubSemantics).db = (e.before.db.claimNextTask nodeId stamp).1 := by
          change (e.before.exec e.op).1.db = _
          rw [hop]
          rfl
        rw [hafter, hclaim]
        rw [get?_update, hget, map_some, if_pos (decide_eq_true rfl)]
  · cases h

/-- A task that leaves the queue was claimed by the event that took it. -/
theorem claimOf_of_taken {nodeId : Bytes} {stamp : Time}
    (hop : e.op = .claimTask nodeId stamp) (hbefore : e.before.db.tasks.get? id = some row)
    (hafter : (e.after hubSemantics).db.tasks.get? id = some row')
    (hstatus : row.status ≠ row'.status) :
    claimOf e = some ⟨e.id, nodeId, id⟩ := by
  have hdb : (e.after hubSemantics).db = (e.before.db.claimNextTask nodeId stamp).1 := by
    change (e.before.exec e.op).1.db = _
    rw [hop]
    rfl
  rw [hdb] at hafter
  unfold claimOf
  rw [hop]
  dsimp only
  rcases e.before.db.claimNextTask_cases nodeId stamp with hnone | ⟨id', taken, -, -, -, -, hclaim⟩
  · rw [hnone, hbefore] at hafter
    cases hafter
    exact absurd rfl hstatus
  · rw [hclaim] at hafter ⊢
    rw [get?_update, hbefore, map_some] at hafter
    by_cases hid : id = id'
    · rw [hid]
      rfl
    · rw [if_neg (by simpa using hid)] at hafter
      cases hafter
      exact absurd rfl hstatus

/-- Where a run's claims stand: claimed tasks are their node's and have left the queue, what is
still queued for the node is newer, and every task that left the queue was claimed. -/
structure ClaimsInv (trace : List HubEvent) (s : HubState) : Prop where
  claimed : ∀ claim ∈ claims trace, ∃ row, s.db.tasks.get? claim.task = some row ∧
    row.nodeId = claim.node ∧ row.status ≠ .queued
  older : ∀ claim ∈ claims trace, ∀ id row, s.db.tasks.get? id = some row →
    row.nodeId = claim.node → row.status = .queued → claim.task < id
  ordered : (claims trace).Pairwise fun a b => a.node = b.node → a.task < b.task
  complete : ∀ id row, s.db.tasks.get? id = some row → row.status ≠ .queued →
    ∃ claim ∈ claims trace, claim.task = id ∧ claim.node = row.nodeId

namespace ClaimsInv
variable {env : Env} {trace : List HubEvent} {e : HubEvent}

/-- A task still queued after an event was queued before it, or is new. -/
theorem queued_before (hop : e.op.IssuedBy env e.call) {id : Nat} {row : TaskRow}
    (hget : (e.after hubSemantics).db.tasks.get? id = some row) (hqueued : row.status = .queued) :
    e.before.db.tasks.get? id = some row ∨ id = e.before.db.tasks.seq + 1 := by
  have hstep := taskStep_event e id
  rw [hget] at hstep
  cases hbefore : e.before.db.tasks.get? id with
  | none =>
    rw [hbefore] at hstep
    exact .inr hstep.of_none.1
  | some old =>
    rw [hbefore] at hstep
    obtain ⟨row', hrow', -, -, -, hsame⟩ := hstep.of_some hop
    cases hrow'
    exact .inl (by rw [hsame hqueued])

theorem claimed_after (hop : e.op.IssuedBy env e.call) {id : Nat} {row : TaskRow}
    (hget : e.before.db.tasks.get? id = some row) (hstatus : row.status ≠ .queued) :
    ∃ row', (e.after hubSemantics).db.tasks.get? id = some row' ∧ row'.nodeId = row.nodeId ∧
      row'.status ≠ .queued := by
  have hstep := taskStep_event e id
  rw [hget] at hstep
  obtain ⟨row', hrow', hnode, -, -, hsame⟩ := hstep.of_some hop
  refine ⟨row', hrow', hnode, ?_⟩
  intro hqueued
  exact hstatus (hsame hqueued ▸ hqueued)

theorem step (h : ClaimsInv trace e.before) (hop : e.op.IssuedBy env e.call) :
    ClaimsInv (trace ++ [e]) (e.after hubSemantics) := by
  constructor
  · intro claim hclaim
    rw [claims_append, mem_append, mem_toList] at hclaim
    rcases hclaim with hclaim | hclaim
    · obtain ⟨row, hget, hnode, hstatus⟩ := h.claimed claim hclaim
      obtain ⟨row', hget', hnode', hstatus'⟩ := claimed_after hop hget hstatus
      exact ⟨row', hget', hnode'.trans hnode, hstatus'⟩
    · obtain ⟨stamp, row, -, -, -, hnode, -, -, hafter⟩ := claimOf_eq_some hclaim
      exact ⟨_, hafter, hnode, nofun⟩
  · intro claim hclaim id row hget hnode hqueued
    rw [claims_append, mem_append, mem_toList] at hclaim
    rcases hclaim with hclaim | hclaim
    · rcases queued_before hop hget hqueued with hbefore | hnew
      · exact h.older claim hclaim id row hbefore hnode hqueued
      · obtain ⟨old, hold, -, -⟩ := h.claimed claim hclaim
        have := get?_le_seq hold
        omega
    · obtain ⟨stamp, old, -, -, hold, -, -, hleast, hafter⟩ := claimOf_eq_some hclaim
      rcases queued_before hop hget hqueued with hbefore | hnew
      · have hle := hleast id row hbefore hnode hqueued
        refine lt_of_le_of_ne hle ?_
        rintro rfl
        rw [hafter] at hget
        cases hget
        cases hqueued
      · have := get?_le_seq hold
        omega
  · rw [claims_append, pairwise_append]
    refine ⟨h.ordered, ?_, ?_⟩
    · cases claimOf e with
      | none => exact List.Pairwise.nil
      | some new => exact pairwise_singleton _ _
    · -- the claim of an event is newer than the node's claims before it
      intro claim hclaim new hnew hnode
      obtain ⟨stamp, row, -, -, hget, hrow, hqueued, -, -⟩ := claimOf_eq_some (mem_toList.mp hnew)
      exact h.older claim hclaim new.task row hget (hrow.trans hnode.symm) hqueued
  · intro id row hget hstatus
    rw [claims_append]
    have hstep := taskStep_event e id
    rw [hget] at hstep
    generalize hbefore : e.before.db.tasks.get? id = before at hstep
    cases hstep with
    | keep =>
      obtain ⟨claim, hclaim, htask⟩ := h.complete id row hbefore hstatus
      exact ⟨claim, mem_append_left _ hclaim, htask⟩
    | create hid hcreate => exact absurd rfl hstatus
    | @claim stamp old hclaim hqueued =>
      have htaken : old.status ≠ (old.claimed stamp).status := by
        rw [hqueued]
        exact nofun
      have hnew := claimOf_of_taken hclaim hbefore hget htaken
      refine ⟨⟨e.id, old.nodeId, id⟩, mem_append_right _ ?_, rfl, rfl⟩
      exact mem_toList.mpr hnew
    | @complete columns stamp old hcomplete hrunning =>
      have hold : old.status ≠ .queued := by
        rw [hrunning]
        exact nofun
      obtain ⟨claim, hclaim, htask⟩ := h.complete id old hbefore hold
      exact ⟨claim, mem_append_left _ hclaim, htask⟩

end ClaimsInv

theorem claimsInv_initial : ClaimsInv [] HubState.initial where
  claimed := by simp [claims]
  older := by simp [claims]
  ordered := List.Pairwise.nil
  complete := by
    intro id row hget
    cases hget

variable {cfg : Config HubState Op Reply Call HubValue}

theorem claimsInv_run (run : HubRun env trace cfg) : ClaimsInv trace cfg.state :=
  run.history (hub_issues env) claimsInv_initial fun _ _ hop ih => ih.step hop

/-- No task is claimed twice. -/
theorem ClaimsInv.nodup {s : HubState} (h : ClaimsInv trace s) :
    ((claims trace).map Claim.task).Nodup := by
  apply pairwise_map.mpr
  refine h.ordered.imp_of_mem ?_
  intro a b ha hb hlt htask
  obtain ⟨row, hrow, hnode, -⟩ := h.claimed a ha
  obtain ⟨row', hrow', hnode', -⟩ := h.claimed b hb
  rw [htask, hrow'] at hrow
  cases hrow
  exact absurd htask (hlt (hnode.symm.trans hnode')).ne

/-! ## Outcomes -/

/-- The writer of an outcome is a report of the task's node, and the task was claimed before. -/
theorem outcome_writer (run : HubRun env trace cfg)
    {earlier later : List HubEvent} (htrace : trace = earlier ++ e :: later)
    (hbefore : e.before.db.tasks.get? id = some row)
    (hafter : (e.after hubSemantics).db.tasks.get? id = some row')
    (hne : row'.outcome ≠ row.outcome) :
    e.call.reporter = some (row.nodeId, id) ∧
      ∃ claim ∈ claims earlier, claim.task = id ∧ claim.node = row.nodeId := by
  obtain ⟨hclaims, hop⟩ := run.history_before (hub_issues env) claimsInv_initial
    (fun _ _ hop _ (ih : ClaimsInv _ _) => ih.step hop) htrace
  have hstep := taskStep_event e id
  rw [hbefore, hafter] at hstep
  cases hstep with
  | keep | claim => exact absurd rfl hne
  | complete hcomplete hrunning =>
    rw [hcomplete] at hop
    refine ⟨hop.1, hclaims.complete id row hbefore ?_⟩
    rw [hrunning]
    exact nofun

end HeyServer.Hub
