import HeyServer.Lib.History
import HeyServer.Hub.Commits
import HeyServer.Hub.Issued

/-!
# Agent hub: the task queue

What happens to a task over any interleaving of calls. `exec_taskStep` says once
what one operation can do to one task; everything about runs follows from it.
-/

namespace HeyServer.Hub
open Lib Option RowTable

/-! ## One operation and one task -/

/-- The operation adds this task when it commits. -/
def Op.Creates (nodeId : Bytes) (kind : TaskKind) (payload : Bytes) (stamp : Time) : Op → Prop
  | .insertTask nodeId' kind' payload' stamp' =>
    nodeId' = nodeId ∧ kind' = kind ∧ payload' = payload ∧ stamp' = stamp
  | .createApply nodeId' _ _ payload' stamp' =>
    nodeId' = nodeId ∧ .profileApply = kind ∧ payload' = payload ∧ stamp' = stamp
  | _ => False

/-- What an operation can do to the task under one key, when `seq` is the last key in use. -/
inductive TaskStep (op : Op) (seq id : Nat) : Option TaskRow → Option TaskRow → Prop
  | keep (row) : TaskStep op seq id row row
  | create {nodeId kind payload stamp} (hid : id = seq + 1)
      (hop : op.Creates nodeId kind payload stamp) :
      TaskStep op seq id none (some (newTaskRow nodeId kind payload stamp))
  | claim {stamp row} (hop : op = .claimTask row.nodeId stamp) (hstatus : row.status = .queued) :
      TaskStep op seq id (some row) (some (row.claimed stamp))
  | complete {columns stamp row} (hop : op = .completeTask row.nodeId id columns stamp)
      (hstatus : row.status = .running) :
      TaskStep op seq id (some row) (some (row.reported columns stamp))

theorem taskStep_insert {op : Op} {nodeId : Bytes} {kind : TaskKind} {payload : Bytes}
    {stamp : Time} (hop : op.Creates nodeId kind payload stamp) (t : RowTable TaskRow) (id : Nat) :
    TaskStep op t.seq id (t.get? id) ((t.insert
      (newTaskRow nodeId kind payload stamp)).get? id) := by
  rw [get?_insert]
  split_ifs with hid
  · have hnone : t.get? id = none := by
      apply eq_none_iff_forall_ne_some.mpr
      intro row hrow
      have := get?_le_seq hrow
      omega
    rw [hnone]
    exact .create hid hop
  · exact .keep _

theorem taskStep_claim {t : RowTable TaskRow} {claimed : Nat} {row : TaskRow}
    (hget : t.get? claimed = some row) (hstatus : row.status = .queued) (stamp : Time) (id : Nat) :
    TaskStep (.claimTask row.nodeId stamp) t.seq id (t.get? id)
      ((t.update (fun id' _ => id' = claimed) (TaskRow.claimed stamp)).get? id) := by
  rw [get?_update]
  by_cases hid : id = claimed
  · subst hid
    rw [hget, map_some, if_pos (decide_eq_true rfl)]
    exact .claim rfl hstatus
  · simp only [hid, decide_false, Bool.false_eq_true, if_false, map_id']
    exact .keep _

theorem completes_iff {nodeId : Bytes} {taskId id : Nat} {row : TaskRow} :
    completes nodeId taskId id row = true ↔
      id = taskId ∧ row.nodeId = nodeId ∧ row.status = .running := by
  simp [completes, and_assoc]

theorem taskStep_complete (nodeId : Bytes) (taskId : Nat) (columns : ResultColumns) (stamp : Time)
    (t : RowTable TaskRow) (id : Nat) :
    TaskStep (.completeTask nodeId taskId columns stamp) t.seq id (t.get? id)
      ((t.update (completes nodeId taskId) (TaskRow.reported columns stamp)).get? id) := by
  rw [get?_update]
  cases hget : t.get? id with
  | none => exact .keep _
  | some row =>
    rw [map_some]
    split_ifs with hcompletes
    · obtain ⟨rfl, rfl, hstatus⟩ := completes_iff.mp hcompletes
      exact .complete rfl hstatus
    · exact .keep _

/-- What one operation does to one task. -/
theorem exec_taskStep (s : HubState) (op : Op) (id : Nat) :
    TaskStep op s.db.tasks.seq id (s.db.tasks.get? id) ((s.exec op).1.db.tasks.get? id) := by
  have hstep := exec_dbStep s op
  generalize (s.exec op).1.db = db at hstep ⊢
  cases hstep with
  | enqueue | apply =>
    apply taskStep_insert
    exact ⟨rfl, rfl, rfl, rfl⟩
  | claim hget hstatus => exact taskStep_claim hget hstatus _ id
  | report => exact taskStep_complete _ _ _ _ _ id
  | _ => exact .keep _

theorem taskStep_event (e : HubEvent) (id : Nat) :
    TaskStep e.op e.before.db.tasks.seq id (e.before.db.tasks.get? id)
      ((e.after hubSemantics).db.tasks.get? id) :=
  exec_taskStep e.before e.op id

namespace TaskStep
variable {env : Env} {c : Call} {op : Op} {seq id : Nat} {before after : Option TaskRow}
  {row : TaskRow}

/-- Rows stay, with their node, kind and payload, and never return to the queue. -/
theorem of_some (h : TaskStep op seq id (some row) after) (hop : op.IssuedBy env c) :
    ∃ row', after = some row' ∧ row'.nodeId = row.nodeId ∧ row'.kind = row.kind ∧
      row'.payloadJson = row.payloadJson ∧ (row'.status = .queued → row' = row) := by
  cases h with
  | keep => exact ⟨row, rfl, rfl, rfl, rfl, fun _ => rfl⟩
  | claim hclaim hstatus => exact ⟨_, rfl, rfl, rfl, rfl, nofun⟩
  | complete hcomplete hstatus =>
    subst hcomplete
    obtain ⟨-, hfinal, -⟩ := hop
    refine ⟨_, rfl, rfl, rfl, rfl, ?_⟩
    intro hqueued
    rcases hfinal with hfinal | hfinal <;> exact absurd (hfinal.symm.trans hqueued) nofun

/-- A row that was not there has just been created under the next key. -/
theorem of_none (h : TaskStep op seq id none (some row)) :
    id = seq + 1 ∧ ∃ nodeId kind payload stamp, op.Creates nodeId kind payload stamp ∧
      row = newTaskRow nodeId kind payload stamp := by
  cases h with
  | create hid hop => exact ⟨hid, _, _, _, _, hop, rfl⟩

/-- Where a row came from. A task in flight was in flight before. -/
theorem of_after (h : TaskStep op seq id before (some row)) :
    before = none ∨ ∃ old, before = some old ∧ row.nodeId = old.nodeId ∧ row.kind = old.kind ∧
      row.payloadJson = old.payloadJson ∧ (row.inFlight = true → old.inFlight = true) := by
  cases h with
  | keep => exact .inr ⟨row, rfl, rfl, rfl, rfl, fun h => h⟩
  | create hid hcreates => exact .inl rfl
  | claim _ hstatus | complete _ hstatus =>
    refine .inr ⟨_, rfl, rfl, rfl, rfl, fun _ => ?_⟩
    rw [TaskRow.inFlight, hstatus]
    rfl

end TaskStep

/-! ## Histories of a task -/

/-- The states of a run, before each event and after the last. -/
def states (trace : List HubEvent) (s : HubState) : List HubState := trace.map (·.before) ++ [s]

/-- The values a part of a task takes one after the other. -/
def taskHistory {α : Type} [DecidableEq α] (part : TaskRow → α) (id : Nat) (trace : List HubEvent)
    (s : HubState) : List α :=
  changes ((states trace s).map fun t => (t.db.tasks.get? id).map part)

theorem taskHistory_append {α : Type} [DecidableEq α] (part : TaskRow → α) (id : Nat)
    (trace : List HubEvent) (e : HubEvent) (s : HubState) : taskHistory part id (trace ++ [e]) s =
      record (taskHistory part id trace e.before) ((s.db.tasks.get? id).map part) := by
  have hstates : states (trace ++ [e]) s = states trace e.before ++ [s] := by simp [states]
  rw [taskHistory, hstates, List.map_append]
  exact changes_append _ _

/-- What `CompleteTask` writes besides the status. -/
def TaskRow.outcome (row : TaskRow) : Bytes × Bytes × Option Time :=
  (row.resultJson, row.error, row.completedAt)

/-- How a task gets to a status. -/
def statusPath : Option TaskStatus → List TaskStatus
  | some .queued => [.queued]
  | some .running => [.queued, .running]
  | some .completed => [.queued, .running, .completed]
  | some .failed => [.queued, .running, .failed]
  | _ => []

/-- The outcome of a task without a result. -/
def noOutcome : Bytes × Bytes × Option Time := (ascii "{}", [], none)

/-- What the row of a task says about its past. -/
def outcomePath : Option TaskRow → List (Bytes × Bytes × Option Time)
  | none => []
  | some row => if row.inFlight then [noOutcome] else [noOutcome, row.outcome]

/-- Histories that agree with the current row: the statuses are the path to the current one,
and there is no outcome until the task is done, then one. -/
structure Agrees (statuses : List TaskStatus) (outcomes : List (Bytes × Bytes × Option Time))
    (row : Option TaskRow) : Prop where
  status : statuses = statusPath (row.map (·.status))
  outcome : outcomes = outcomePath row
  known : ∀ r, row = some r → statusAllowed r.status = true
  pending : ∀ r, row = some r → r.inFlight = true → r.outcome = noOutcome

namespace Agrees
variable {statuses : List TaskStatus} {outcomes : List (Bytes × Bytes × Option Time)}
  {row row' : Option TaskRow}

section
variable (h : Agrees statuses outcomes row)
include h

theorem status_eq (r : TaskRow) (hr : row = some r) : statuses.getLast? = some r.status := by
  have hknown := h.known r hr
  rw [h.status, hr, map_some]
  cases hstatus : r.status with
  | other text => simp [hstatus, statusAllowed] at hknown
  | _ => rfl

theorem outcome_eq (r : TaskRow) (hr : row = some r) : outcomes.getLast? = some r.outcome := by
  rw [h.outcome, hr, outcomePath]
  split_ifs with hflight
  · rw [h.pending r hr hflight]
    rfl
  · rfl

/-- One more operation keeps the histories and the row in agreement. -/
theorem step {env : Env} {c : Call} {op : Op} {seq id : Nat}
    (hstep : TaskStep op seq id row row') (hop : op.IssuedBy env c) :
    Agrees (record statuses (row'.map (·.status)))
      (record outcomes (row'.map TaskRow.outcome)) row' := by
  cases hstep with
  | keep =>
    rw [record_map_same h.status_eq, record_map_same h.outcome_eq]
    exact h
  | create hid hcreate =>
    rw [h.status, h.outcome]
    refine ⟨rfl, rfl, ?_, ?_⟩
    · rintro r ⟨⟩
      rfl
    · rintro r ⟨⟩ _
      rfl
  | @claim stamp r hclaim hqueued =>
    have hflight : r.inFlight = true := by simp [TaskRow.inFlight, hqueued]
    have hnone := h.pending r rfl hflight
    have hsame : record outcomes (some (r.claimed stamp).outcome) = outcomes :=
      record_same fun a ha => (h.outcome_eq r rfl).trans ha
    rw [map_some, map_some, hsame, h.status, h.outcome, map_some, hqueued]
    refine ⟨rfl, ?_, ?_, ?_⟩
    · rw [outcomePath, if_pos hflight]
      rfl
    · rintro _ ⟨⟩
      rfl
    · rintro _ ⟨⟩ _
      exact hnone
  | @complete columns stamp r hcomplete hrunning =>
    subst hcomplete
    obtain ⟨-, hfinal, -⟩ := hop
    have hflight : r.inFlight = true := by simp [TaskRow.inFlight, hrunning]
    have hdone : (r.reported columns stamp).inFlight = false := by
      rcases hfinal with hfinal | hfinal <;> simp [TaskRow.inFlight, TaskRow.reported, hfinal]
    have hnew : record outcomes (some (r.reported columns stamp).outcome) =
        outcomes ++ [(r.reported columns stamp).outcome] := by
      apply record_new
      rw [h.outcome_eq r rfl, h.pending r rfl hflight]
      simp [noOutcome, TaskRow.outcome, TaskRow.reported]
    rw [map_some, map_some, hnew, h.status, h.outcome, map_some, hrunning]
    refine ⟨?_, ?_, ?_, ?_⟩
    · rcases hfinal with hfinal | hfinal <;> simp [TaskRow.reported, hfinal, statusPath, record]
    · rw [outcomePath, outcomePath, if_pos hflight, hdone]
      rfl
    · rintro _ ⟨⟩
      rcases hfinal with hfinal | hfinal <;> simp [TaskRow.reported, hfinal, statusAllowed]
    · rintro _ ⟨⟩ hcontra
      rw [hdone] at hcontra
      cases hcontra

end

end Agrees

/-- In every run the histories of a task agree with its row. -/
theorem agrees_run {env : Env} {trace : List HubEvent}
    {cfg : Config HubState Op Reply Call HubValue} (run : HubRun env trace cfg) (id : Nat) :
    Agrees (taskHistory (·.status) id trace cfg.state)
      (taskHistory TaskRow.outcome id trace cfg.state)
      (cfg.state.db.tasks.get? id) := by
  refine run.history (P := Op.IssuedBy env)
    (J := fun trace s => Agrees (taskHistory (·.status) id trace s)
      (taskHistory TaskRow.outcome id trace s) (s.db.tasks.get? id)) (hub_issues env) ?_ ?_
  · have hnone : HubState.initial.db.tasks.get? id = none := rfl
    refine ⟨rfl, rfl, ?_, ?_⟩
    · intro r hr
      cases hr
    · intro r hr
      cases hr
  · intro trace e hop ih
    rw [taskHistory_append, taskHistory_append]
    exact ih.step (exec_taskStep e.before e.op id) hop

end HeyServer.Hub
