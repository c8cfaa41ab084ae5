import HeyServer.Hub.TaskClaims

/-!
# Agent hub: what a call returned

Relates the value a finished call returned to the operations it executed: a task
a poll returned is one the call claimed, and a report that failed changed nothing.
Other calls may run between any two operations.
-/

namespace HeyServer.Hub
open Lib List RowTable Prog TaskStatus Repository

/-! ## Rows can be read back -/

/-- The map columns of a task hold encoded maps. -/
def TaskRow.Readable (row : TaskRow) : Prop :=
  (∃ m : StrMap, row.payloadJson = m.marshal) ∧ ∃ m : StrMap, row.resultJson = m.marshal

theorem unmarshalColumn_marshal (m : StrMap) : ∃ m', unmarshalColumn m.marshal = some m' := by
  rw [unmarshalColumn]
  split_ifs
  · exact ⟨.empty, rfl⟩
  · exact ⟨_, StrMap.unmarshal_marshal m⟩

/-- A readable row is scanned to a task with its key and node. -/
theorem scanTask_readable {row : TaskRow} (h : row.Readable) (context : String) (id : Nat) :
    ∃ task, scanTask context id row = .ok task ∧ task.id = id ∧ task.nodeId = row.nodeId := by
  obtain ⟨⟨m, hm⟩, ⟨n, hn⟩⟩ := h
  obtain ⟨payload, hpayload⟩ := unmarshalColumn_marshal m
  obtain ⟨result, hresult⟩ := unmarshalColumn_marshal n
  rw [scanTask, hm, hn, hpayload, hresult]
  exact ⟨_, rfl, rfl, rfl⟩

variable {env : Env} {c : Call} {op : Op} {nodeId : Bytes} {stamp : Time}
  {own : List (HubState × Op)} {s : HubState} {taskId : Nat}

theorem readable_create {kind : TaskKind}
    {payload : Bytes} (hcreates : op.Creates nodeId kind payload stamp)
    (hop : op.IssuedBy env c) : (newTaskRow nodeId kind payload stamp).Readable := by
  refine ⟨?_, .empty, rfl⟩
  cases op with
  | insertTask n k p t =>
    obtain ⟨-, -, rfl, -⟩ := hcreates
    obtain ⟨-, req, -, -, hpayload⟩ := hop
    exact ⟨req.payload, hpayload⟩
  | createApply n r normalized p t =>
    obtain ⟨-, -, rfl, -⟩ := hcreates
    exact ⟨_, hop.2.2.2⟩
  | _ => exact hcreates.elim

theorem readable_step {seq id : Nat}
    {before after : Option TaskRow} (hstep : TaskStep op seq id before after)
    (hop : op.IssuedBy env c) (h : ∀ row, before = some row → row.Readable) :
    ∀ row, after = some row → row.Readable := by
  intro row hrow
  cases hstep with
  | keep => exact h row hrow
  | create hid hcreates =>
    cases hrow
    exact readable_create hcreates hop
  | @claim stamp old hclaim hqueued =>
    cases hrow
    exact h old rfl
  | @complete columns stamp old hcomplete hrunning =>
    cases hrow
    rw [hcomplete] at hop
    exact ⟨(h old rfl).1, hop.2.2⟩

theorem readable_initial (id : Nat) :
    ∀ row, HubState.initial.db.tasks.get? id = some row → row.Readable := by
  intro row hget
  cases hget

theorem readable_run {trace : List HubEvent}
    {cfg : Config HubState Op Reply Call HubValue} (run : HubRun env trace cfg) (id : Nat) :
    ∀ row, cfg.state.db.tasks.get? id = some row → row.Readable := by
  refine run.history (J := fun _ s => ∀ row, s.db.tasks.get? id = some row → row.Readable)
    (hub_issues env) (readable_initial id) ?_
  intro trace e hop ih
  exact readable_step (exec_taskStep e.before e.op id) hop ih

/-- Some call can issue the operation. -/
def Op.Issuable (env : Env) (op : Op) : Prop := ∃ c : Call, op.IssuedBy env c

/-- Rows stay readable and never vanish, whatever the calls do. -/
def rowsKept (env : Env) : Discipline hubSemantics (Op.Issuable env) where
  inv s := ∀ id row, s.db.tasks.get? id = some row → row.Readable
  grows s t := ∀ id row, s.db.tasks.get? id = some row → ∃ row', t.db.tasks.get? id = some row'
  refl _ _ row h := ⟨row, h⟩
  trans hab hbc id row h := by
    obtain ⟨row', h'⟩ := hab id row h
    exact hbc id row' h'
  keeps s op hop h id := by
    obtain ⟨c, hop⟩ := hop
    exact readable_step (exec_taskStep s op id) hop (h id)
  extends_ s op hop h id row hget := by
    obtain ⟨c, hop⟩ := hop
    have hstep := exec_taskStep s op id
    rw [hget] at hstep
    obtain ⟨row', hrow', -⟩ := hstep.of_some hop
    exact ⟨row', hrow'⟩

/-! ## Polls and reports -/

/-- None of the steps changed the state. -/
def Quiet (own : List (HubState × Op)) : Prop := ∀ step ∈ own, (step.1.exec step.2).1 = step.1

theorem quiet_append {t : HubState} (h : Quiet own)
    (hstep : (t.exec op).1 = t) : Quiet (own ++ [(t, op)]) :=
  forall_mem_snoc h hstep

/-- What a finished call's value says about its own steps. -/
structure Returned (c : Call) (own : List (HubState × Op)) (v : HubValue) : Prop where
  claimed : ∀ nodeId, c.claimant = some nodeId → ∀ task, v = .ok (.task (some task)) →
    ∃ s stamp row, (s, .claimTask nodeId stamp) ∈ own ∧
      (s.db.claimNextTask nodeId stamp).2 = some (task.id, row) ∧ task.nodeId = nodeId
  quiet : c.reporter.isSome → ∀ e, v = .error e → Quiet own

theorem returned_error (h : Quiet own) (e : HubError) : Returned c own (.error e) where
  claimed := by
    intro nodeId hc task hv
    cases hv
  quiet := fun _ _ _ => h

theorem ensures_trivial (hclaimant : c.claimant = none)
    (hreporter : c.reporter = none) (own : List (HubState × Op)) (p : Prog Op Reply HubValue)
    (s : HubState) : (rowsKept env).Ensures (Returned c) own p s := by
  induction p generalizing own s with
  | done v =>
    -- a call that neither claims nor reports has nothing to answer for
    refine ⟨fun nodeId hc => ?_, fun hc => ?_⟩
    · rw [hclaimant] at hc
      cases hc
    · rw [hreporter] at hc
      cases hc
  | call op rest ih =>
    intro t ht hgrows
    exact ih _ _ _

theorem issuable_isRead (h : op.isRead = true) : op.Issuable env :=
  ⟨.claimNextTask [] fun _ => 0, issuedBy_isRead h⟩

/-- A first part that only reads and may fail. -/
theorem ensures_after_reads {α β : Type} {x : HubM α} {g : α → HubM β}
    {f : β → Outcome} (hx : x.run.Issues fun op => op.isRead = true)
    (hg : ∀ a own s, Quiet own → (rowsKept env).inv s →
      (rowsKept env).Ensures (Returned c) own (f <$> g a).run s)
    (hown : Quiet own) (hs : (rowsKept env).inv s) :
    (rowsKept env).Ensures (Returned c) own (f <$> (x >>= g)).run s := by
  rw [run_mapE, run_bindE, bind_assoc]
  refine Discipline.Ensures.bind hx (fun op => issuable_isRead)
    (fun own t op hop hquiet => quiet_append hquiet (exec_isRead hop t)) ?_ hown hs
  intro r own s hquiet hinv
  cases r with
  | ok a =>
    have hrest := hg a own s hquiet hinv
    rw [run_mapE] at hrest
    exact hrest
  | error e => exact returned_error hquiet e

/-- A claim returns the task it took. -/
theorem ensures_claim (hclaimant : c.claimant = some nodeId)
    (hreporter : c.reporter = none) (now : Time) (own : List (HubState × Op)) (s : HubState) :
    (rowsKept env).Ensures (Returned c) own (.task <$> claimNextTask nodeId now).run s := by
  rw [claimNextTask, run_map_query_bind]
  intro t ht hgrows
  have hmem : (t, Op.claimTask nodeId now) ∈ own ++ [(t, Op.claimTask nodeId now)] :=
    mem_append_right _ (mem_singleton_self _)
  have hnone : c.reporter.isSome → ∀ e : HubError, ∀ v : HubValue, v = .error e →
      Quiet (own ++ [(t, Op.claimTask nodeId now)]) := by
    intro hsome
    rw [hreporter] at hsome
    cases hsome
  have hexec : (hubSemantics.exec t (.claimTask nodeId now)).2 =
      (t.db.claimNextTask nodeId now).2 :=
    rfl
  rcases t.db.claimNextTask_cases nodeId now with h | ⟨id, row, hget, hnode, -, -, h⟩
  · rw [hexec, h]
    refine ⟨?_, fun hsome e hv => hnone hsome e _ hv⟩
    intro nodeId' _ task hv
    cases hv
  · have hrow : (row.claimed now).Readable := ht id row hget
    obtain ⟨task, hscan, hid, htask⟩ := scanTask_readable hrow "agent hub: claim task" id
    have hreply : (t.db.claimNextTask nodeId now).2 = some (id, row.claimed now) := by rw [h]
    rw [hexec, hreply]
    dsimp only
    rw [hscan]
    refine ⟨?_, fun hsome e hv => hnone hsome e _ hv⟩
    intro nodeId' hnode' task' hv
    cases hclaimant.symm.trans hnode'
    have htask' : task = task' := by
      injection hv with hv
      injection hv with hv
      exact Option.some.inj hv
    subst htask'
    refine ⟨t, now, row.claimed now, hmem, ?_, htask.trans hnode⟩
    rw [hreply, hid]

variable {columns : ResultColumns}

/-- The `UPDATE` of a report that counts other than one row has changed none. -/
theorem completeTask_unchanged {db db' : Db} {affected : Nat}
    (h : db.completeTask nodeId taskId columns stamp = .ok (db', affected)) (hne : affected ≠ 1) :
    db' = db := by
  obtain ⟨rfl, hdb⟩ := Db.completeTask_ok h
  have hkey := db.tasks.select_key (completes nodeId taskId) taskId
    fun id row hrow => (completes_iff.mp hrow).1
  have hnil : db.tasks.select (completes nodeId taskId) = [] := by
    cases hget : db.tasks.get? taskId with
    | none => simpa [hget] using hkey
    | some row =>
      rw [hget] at hkey
      dsimp only at hkey
      split_ifs at hkey with hrow
      · rw [hkey] at hne
        exact absurd rfl hne
      · exact hkey
  rw [hdb, update_eq_self hnil]

/-- A report that counts one row has completed the task under its key. -/
theorem completeTask_present {db db' : Db}
    (h : db.completeTask nodeId taskId columns stamp = .ok (db', 1)) :
    ∃ row, db'.tasks.get? taskId = some row := by
  obtain ⟨hlen, hdb⟩ := Db.completeTask_ok h
  obtain ⟨⟨id, row⟩, hmem⟩ := exists_mem_of_length_pos (by omega :
    0 < (db.tasks.select (completes nodeId taskId)).length)
  obtain ⟨hget, hrow⟩ := mem_select.mp hmem
  obtain ⟨rfl, -⟩ := completes_iff.mp hrow
  refine ⟨row.reported columns stamp, ?_⟩
  rw [hdb]
  rw [get?_update, hget, Option.map_some, if_pos hrow]

section
variable (hclaimant : c.claimant = none)
include hclaimant

variable (own : List (HubState × Op))

theorem returned_task (task : Task) : Returned c own (.ok (.task (some task))) where
  claimed := by
    intro nodeId hc
    rw [hclaimant] at hc
    cases hc
  quiet := by
    intro _ e hv
    cases hv

/-- Reading back a task that is there succeeds. -/
theorem ensures_getTask {row : TaskRow} (hget : s.db.tasks.get? taskId = some row) :
    (rowsKept env).Ensures (Returned c) own
      ((fun t => Outcome.task (some t)) <$> getTask taskId).run s := by
  rw [getTask, run_map_query_bind]
  intro t ht hgrows
  obtain ⟨row', hrow'⟩ := hgrows taskId row hget
  obtain ⟨task, hscan, -, -⟩ := scanTask_readable
    (ht taskId row' hrow') "agent hub: get task" taskId
  have hreply : (hubSemantics.exec t (.selectTask taskId)).2 = some row' := hrow'
  rw [hreply]
  dsimp only
  rw [hscan]
  exact returned_task hclaimant _ task

/-- The `UPDATE` of a report and what follows it. -/
theorem ensures_update (nodeId : Bytes)
    (taskId : Nat) (columns : ResultColumns) (now : Time) (own : List (HubState × Op))
    (s : HubState) (hown : Quiet own) : (rowsKept env).Ensures (Returned c) own
      ((fun t => Outcome.task (some t)) <$>
        (execute (.completeTask nodeId taskId columns now) id >>= fun affected =>
          if affected ≠ 1 then throw (.sentinel .taskNotClaimed)
          else getTask taskId)).run s := by
  rw [run_map_execute_bind]
  intro t ht hgrows
  cases hdb : t.db.completeTask nodeId taskId columns now with
  | error e =>
    have hexec : hubSemantics.exec t (.completeTask nodeId taskId columns now) = (t, .error e) := by
      change t.commit (t.db.completeTask nodeId taskId columns now) = _
      rw [hdb]
      rfl
    have hstate : (t.exec (.completeTask nodeId taskId columns now)).1 = t :=
      congrArg Prod.fst hexec
    rw [hexec]
    exact returned_error (quiet_append hown hstate) e
  | ok committed =>
    obtain ⟨db', affected⟩ := committed
    have hexec : hubSemantics.exec t (.completeTask nodeId taskId columns now) =
        ({ t with db := db' }, .ok affected) := by
      change t.commit (t.db.completeTask nodeId taskId columns now) = _
      rw [hdb]
      rfl
    rw [hexec]
    dsimp only [id]
    split_ifs with hone
    · have hstate : (t.exec (.completeTask nodeId taskId columns now)).1 = t := by
        refine (congrArg Prod.fst hexec).trans ?_
        rw [completeTask_unchanged hdb hone]
      exact returned_error (quiet_append hown hstate) _
    · obtain rfl := not_not.mp hone
      obtain ⟨row, hrow⟩ := completeTask_present hdb
      exact ensures_getTask hclaimant _ hrow

/-- A report that fails has left every row as it was. -/
theorem ensures_complete (nodeId : Bytes)
    (taskId : Nat) (req : TaskResultRequest) (now : Time) (own : List (HubState × Op))
    (s : HubState)
    (hown : Quiet own) (hs : (rowsKept env).inv s) : (rowsKept env).Ensures (Returned c) own
      ((fun t => Outcome.task (some t)) <$> completeTask nodeId taskId req now).run s := by
  refine ensures_after_reads (checkCompletion_issues (fun _ h => h) nodeId taskId req) ?_ hown hs
  intro _ own s hquiet hinv
  exact ensures_update hclaimant nodeId taskId _ now own s hquiet

end

/-- A guard in front of a program that ensures the same. -/
theorem ensures_guard {β : Type} {condition : Prop} [Decidable condition]
    {e : HubError} {x : HubM β} {f : β → Outcome} (hown : Quiet own)
    (hx : (rowsKept env).Ensures (Returned c) own (f <$> x).run s) :
    (rowsKept env).Ensures (Returned c) own (f <$> (if condition then throw e else x)).run s := by
  split_ifs
  · exact returned_error hown e
  · exact hx

theorem ensures_completeForNode (hclaimant : c.claimant = none)
    (nodeId : Bytes) (taskId : Int) (req : TaskResultRequest) (clock : Clock)
    (own : List (HubState × Op)) (s : HubState) (hown : Quiet own) (hs : (rowsKept env).inv s) :
    (rowsKept env).Ensures (Returned c) own ((fun t => Outcome.task (some t)) <$>
        Service.completeTaskForNode env nodeId taskId req clock).run s := by
  apply ensures_guard hown
  apply ensures_guard hown
  refine ensures_after_reads (issues_liftM _) ?_ hown hs
  intro _ own s hown hs
  refine ensures_after_reads (issues_query rfl) ?_ hown hs
  intro row own s hown hs
  cases row with
  | none => exact ensures_complete hclaimant nodeId taskId.toNat req _ own s hown hs
  | some row =>
    refine ensures_after_reads (issues_liftM _) ?_ hown hs
    intro task own s hown hs
    refine ensures_after_reads (issues_liftM _) ?_ hown hs
    intro _ own s hown hs
    exact ensures_complete hclaimant nodeId taskId.toNat req _ own s hown hs

/-- What every call ensures, whatever the others do meanwhile. -/
theorem hub_ensures (env : Env) (c : Call) (s : HubState) (hs : (rowsKept env).inv s) :
    (rowsKept env).Ensures (Returned c) [] ((hub env).program c) s := by
  have hnil : Quiet [] := fun step hstep => by cases hstep
  cases c with
  | pollTask nodeId token clock =>
    refine ensures_after_reads (authenticateNode_issues (fun _ h => h) env nodeId token) ?_ hnil hs
    intro _ own s hown _
    apply ensures_guard hown
    exact ensures_claim rfl rfl _ own s
  | pollTaskForNode nodeId clock =>
    apply ensures_guard hnil
    exact ensures_claim rfl rfl _ [] s
  | claimNextTask nodeId clock => exact ensures_claim rfl rfl _ [] s
  | completeTask nodeId token taskId req clock =>
    refine ensures_after_reads (authenticateNode_issues (fun _ h => h) env nodeId token) ?_ hnil hs
    intro _ own s hown hs
    exact ensures_completeForNode rfl nodeId taskId req clock own s hown hs
  | completeTaskForNode nodeId taskId req clock =>
    exact ensures_completeForNode rfl nodeId taskId req clock [] s hnil hs
  | repositoryCompleteTask nodeId taskId req clock =>
    exact ensures_complete rfl nodeId taskId req _ [] s hnil hs
  | _ => exact ensures_trivial rfl rfl [] _ s

/-- In every run the value of a finished call tells what the call did. -/
theorem returned_run {trace : List HubEvent}
    {cfg : Config HubState Op Reply Call HubValue} (run : HubRun env trace cfg) {i : Nat}
    {v : HubValue} (hcall : cfg.calls[i]? = some (c, .done v)) :
      Returned c (ownSteps i trace) v := by
  exact run.settled (rowsKept env) readable_initial
    (fun c hc => (hub_issues env c hc).mono fun op hop => ⟨c, hop⟩)
    (fun c _ s hs => hub_ensures env c s hs) i c _ hcall

/-! ## The queue over whole runs -/

/-- Call number `i` was a poll of a node and returned a task. -/
def Polled (cfg : Config HubState Op Reply Call HubValue) (i : Nat) (nodeId : Bytes) (task : Task) :
    Prop :=
  ∃ c, cfg.calls[i]? = some (c, .done (.ok (.task (some task)))) ∧ c.claimant = some nodeId

section
variable {env : Env} {trace : List HubEvent} {cfg : Config HubState Op Reply Call HubValue}

/-- A task a poll returned is one it claimed, for its own node. -/
theorem polled_claims (run : HubRun env trace cfg) {i : Nat} {nodeId : Bytes} {task : Task}
    (h : Polled cfg i nodeId task) : task.nodeId = nodeId ∧
      ⟨i, nodeId, task.id⟩ ∈ claims trace := by
  obtain ⟨c, hcall, hclaimant⟩ := h
  obtain ⟨s, stamp, row, hmem, hclaim, hnode⟩ :=
    (returned_run run hcall).claimed nodeId hclaimant task rfl
  obtain ⟨e, he, hid, hbefore, hop⟩ := mem_ownSteps.mp hmem
  refine ⟨hnode, mem_filterMap.mpr ⟨e, he, ?_⟩⟩
  rw [claimOf, hop]
  dsimp only
  rw [hbefore, hclaim, hid]
  rfl

theorem statusPath_prefix (status : Option TaskStatus) :
    ∃ final ∈ [completed, failed],
      statusPath status <+: [.queued, .running, final] := by
  cases status with
  | none => exact ⟨.completed, by simp, by simp [statusPath]⟩
  | some status =>
    cases status with
    | failed => exact ⟨.failed, by simp, by simp [statusPath]⟩
    | _ => exact ⟨.completed, by simp, by simp [statusPath]⟩

theorem outcomePath_length (row : Option TaskRow) : (outcomePath row).length ≤ 2 := by
  cases row with
  | none => exact Nat.zero_le _
  | some row =>
    rw [outcomePath]
    split_ifs <;> simp

/-- The task queue over any run of the hub: statuses only advance, each task is returned by one
poll of its own node and the polls of a node return ascending keys, an outcome is written at most
once and by a report of the owner after the claim, and a report that fails changes nothing. -/
theorem task_queue_safe (run : HubRun env trace cfg) :
    (∀ id, ∃ final ∈ [completed, failed],
      taskHistory (·.status) id trace cfg.state <+: [.queued, .running, final]) ∧
    (∀ i nodeId task, Polled cfg i nodeId task →
      task.nodeId = nodeId ∧ ⟨i, nodeId, task.id⟩ ∈ claims trace ∧
        ∃ row, cfg.state.db.tasks.get? task.id = some row ∧ row.nodeId = nodeId) ∧
    (∀ i j nodeId nodeId' task task', Polled cfg i nodeId task → Polled cfg j nodeId' task' →
      task.id = task'.id → i = j) ∧
    (claims trace).Pairwise (fun a b => a.node = b.node → a.task < b.task) ∧
    (∀ id, (taskHistory TaskRow.outcome id trace cfg.state).length ≤ 2) ∧
    (∀ earlier e later id row row', trace = earlier ++ e :: later →
      e.before.db.tasks.get? id = some row →
      (e.after hubSemantics).db.tasks.get? id = some row' → row'.outcome ≠ row.outcome →
      e.call.reporter = some (row.nodeId, id) ∧
        ∃ claim ∈ claims earlier, claim.task = id ∧ claim.node = row.nodeId) ∧
    (∀ i c error, cfg.calls[i]? = some (c, .done (.error error)) → c.reporter.isSome →
      ∀ e ∈ trace, e.id = i → e.after hubSemantics = e.before) := by
  refine ⟨?_, ?_, ?_, (claimsInv_run run).ordered, ?_, ?_, ?_⟩
  · intro id
    rw [(agrees_run run id).status]
    exact statusPath_prefix _
  · intro i nodeId task hpolled
    obtain ⟨hnode, hclaim⟩ := polled_claims run hpolled
    obtain ⟨row, hget, hrow, -⟩ := (claimsInv_run run).claimed _ hclaim
    exact ⟨hnode, hclaim, row, hget, hrow⟩
  · intro i j nodeId nodeId' task task' h h' htask
    have hclaims := inj_on_of_nodup_map (claimsInv_run run).nodup (polled_claims run h).2
      (polled_claims run h').2 htask
    exact congrArg Claim.call hclaims
  · intro id
    rw [(agrees_run run id).outcome]
    exact outcomePath_length _
  · intro earlier e later id row row' htrace hbefore hafter hne
    exact outcome_writer run htrace hbefore hafter hne
  · intro i c error hcall hreporter e he hid
    have hmem : (e.before, e.op) ∈ ownSteps i trace := mem_ownSteps.mpr ⟨e, he, hid, rfl, rfl⟩
    exact (returned_run run hcall).quiet hreporter error rfl _ hmem

end

/-- One task through the queue: registered, created, claimed and completed. -/
def oneTaskCalls : List Call :=
  [.registerNode ⟨ascii "n1", ascii "node"⟩ (ascii "t") fun _ => 1,
    .createTask (ascii "n1") ⟨.metricsRead, .empty⟩ fun _ => 2,
    .claimNextTask (ascii "n1") fun _ => 3,
    .repositoryCompleteTask (ascii "n1") 1 ⟨.completed, .empty, []⟩ fun _ => 4]

def oneTaskRun : List HubEvent × Config HubState Op Reply Call HubValue :=
  Run.serialRun (hub Env.plain) HubState.initial oneTaskCalls

theorem oneTaskRun_run : HubRun Env.plain oneTaskRun.1 oneTaskRun.2 := by
  refine Run.serialRun_run oneTaskCalls ?_ (by decide +kernel)
  have hresult : validateTaskResultRequest ⟨.completed, .empty, []⟩ = .ok () := rfl
  simp [oneTaskCalls, Call.Validated, hresult]

theorem task_queue_safe_one_task :
    taskHistory (·.status) 1 oneTaskRun.1 oneTaskRun.2.state = [.queued, .running, .completed] ∧
      ∃ final ∈ [completed, failed],
        taskHistory (·.status) 1 oneTaskRun.1 oneTaskRun.2.state <+: [.queued, .running, final] :=
  ⟨by decide +kernel, (task_queue_safe oneTaskRun_run).1 1⟩

end HeyServer.Hub
