import HeyServer.Updates.Knowledge

/-!
# Finished upgrades and interrupted ones

A call that has read a pending status and finds the unit gone marks the stage as failed. Between the
two the script can complete the stage and end. As long as no script writes its terminal status
between the moment a call has read the status of that stage and the moment it returns, a terminal
status stays and is told.
-/

namespace HeyServer.Updates
open Lib List Option Prog Leads Panel Agent

/-! ## The programs -/

section Programs
variable {p : Nat} {k : Known} {id : Bytes}

/-- What a report says about its stage was read from the stage's status. -/
def Known.Reads (k : Known) (r : Report) : Prop :=
  ∀ id, r.id = some id → ∃ payload, k = .read id payload ∧ Tells payload r.status

variable {r : Report} {st : Status} {g : Place} {writes : List ScriptWrite}

theorem Known.Reads.answers (h : k.Reads r) : k.Answers (some r) := by
  intro r' id hr' hid
  cases hr'
  exact .inl (h id hid)

theorem Known.answers_none (k : Known) : k.Answers none := by
  intro r id hr
  cases hr

theorem Known.answers_unfinished (hid : r.id = some id) :
    (Known.unfinished id).Answers (some r) := by
  intro r' id' hr' hid'
  cases hr'
  exact .inr (congrArg Known.unfinished (some.inj (hid.symm.trans hid')))

/-- A pending status was not read from what a finished script leaves. -/
theorem notFinal_of_pending {payload : Option Bytes} (htells : Known.Tells payload st)
    (hpending : st.pending = true) : Known.NotFinal payload := by
  intro t ht hpayload
  rw [htells t ht hpayload, pending_of_terminal ht] at hpending
  cases hpending

/-- A part of a call keeps to what the call knows and ends, from `g`, at a place of `Q`. -/
abbrev UpdateProg.Keeps {α : Type} (prog : UpdateProg α) (Q : α → Place → Prop) (g : Place) :
    Prop :=
  prog.Leads Place.Permits Place.next Q g

/-- A call, or its rest, keeps to what it knows. -/
abbrev UpdateProg.Ends (prog : UpdateProg Outcome) (g : Place) : Prop :=
    prog.Keeps (fun _ _ => True) g

theorem returning_leads {outcome : Outcome} (h : k.Answers outcome.toOption.join) :
    (returning p outcome).Ends (.inside p k) :=
  ⟨.unlock p h, fun _ => trivial⟩

theorem returning_error_leads (e : UpdateError) : (returning p (.error e)).Ends (.inside p k) :=
  returning_leads k.answers_none

/-- A check that ends the call. -/
theorem guard_leads {c : Prop} [Decidable c] {e : UpdateError} {next : UpdateProg Outcome}
    (h : next.Ends (.inside p k)) : (if c then returning p (.error e) else next).Ends
    (.inside p k) :=
  ite (fun _ => returning_error_leads e) fun _ => h

/-- After writing a status the stage is known to be unfinished, unless a write has failed. -/
def Written (p : Nat) (k : Known) (id : Bytes) (ok : Bool) (g : Place) : Prop :=
  (ok = false ∧ g = .inside p k) ∨ g = .inside p (.unfinished id)

/-- A call may end with an error whether the write has failed or not. -/
theorem Written.error_leads {ok : Bool} (h : Written p k id ok g) (e : UpdateError) :
    (returning p (.error e)).Ends g := by
  rcases h with ⟨-, rfl⟩ | rfl
  · exact returning_error_leads e
  · exact returning_error_leads e

theorem Written.unfinished (h : Written p k id true g) : g = .inside p (.unfinished id) :=
  h.resolve_left fun hfalse => Bool.noConfusion hfalse.1

/-- A call may write this status to the stage. -/
def Known.MayWrite (p : Nat) (k : Known) (id : Bytes) (st : Status) : Prop :=
  ∀ fails, (Place.inside p k).Permits (.writeStatus p id st fails)

section
variable (h : k.MayWrite p id st)
include h

theorem writeStatus_leads (fails : Bool) :
    UpdateProg.Keeps (.call (.writeStatus p id st fails) .done) (Written p k id) (.inside p k) := by
  refine ⟨h fails, ?_⟩
  intro (ok : Bool)
  change Written p k id ok (if st = .scheduled ∧
    ok = false then .inside p k else .inside p (.unfinished id))
  split_ifs with hfailed
  · exact .inl ⟨hfailed.2, rfl⟩
  · exact .inr rfl

variable (detail : Bytes) (faults : WriteFaults)

/-- The detail first, as the panel does. -/
theorem detail_status_leads :
    UpdateProg.Keeps (.call (.writeDetail p id detail faults.detail) fun (ok : Bool) =>
      if ok then .call (.writeStatus p id st faults.status) .done else .done false)
      (Written p k id) (.inside p k) := by
  refine ⟨.neutral k rfl rfl, ?_⟩
  intro (ok : Bool)
  cases ok with
  | false => exact .inl ⟨rfl, rfl⟩
  | true => exact writeStatus_leads h faults.status

theorem writeStageStatus_leads :
    (writeStageStatus p id st detail faults).Keeps (Written p k id) (.inside p k) :=
  detail_status_leads h _ faults

theorem writeOperationStatus_leads :
    (writeOperationStatus p id st detail faults).Keeps (Written p k id) (.inside p k) := by
  refine (writeStatus_leads h faults.status).bind ?_
  intro ok g hwritten
  cases ok with
  | false => exact hwritten
  | true =>
    rw [hwritten.unfinished]
    exact ⟨.neutral _ rfl rfl, fun _ => .inr rfl⟩

end

/-! ### The panel -/

/-- A record of the stage that was read, or an error. -/
def Loaded (p : Nat) (id : Bytes) (record : Except UpdateError Report) (g : Place) : Prop :=
  ∃ k, g = .inside p k ∧ ∀ r, record = .ok r → r.id = some id ∧ k.Reads r

variable (cfg : Panel.Config)

theorem getLocked_leads : (getLocked cfg p id).Keeps (Loaded p id) (.inside p k) := by
  refine ite (fun _ => ⟨k, rfl, fun r hr => by cases hr⟩) (fun _ => ⟨.readStatus p k id, ?_⟩)
  intro (payload : Option Bytes)
  have herror : ∀ e, Loaded p id (.error e) (.inside p (.read id payload)) :=
    fun e => ⟨_, rfl, fun r hr => by cases hr⟩
  refine ite (fun _ => herror _) (fun _ => ?_)
  cases hstatus : readStatus (payload.getD []) with
  | none => exact herror _
  | some st =>
    refine ⟨.neutral _ rfl rfl, fun detail => ⟨_, rfl, ?_⟩⟩
    intro r hr
    cases hr
    refine ⟨rfl, ?_⟩
    intro id' hid
    cases hid
    refine ⟨payload, rfl, ?_⟩
    intro t ht hpayload
    rw [hpayload] at hstatus
    exact some.inj (hstatus.symm.trans (readStatus_file ht))

/-- After reconciling a call can answer with what it has. -/
def Reconciled (p : Nat) (r : Report) (g : Place) : Prop :=
    ∃ k, g = .inside p k ∧ k.Answers (some r)

theorem reconciled_unfinished (hid : r.id = some id) :
    Reconciled p r (.inside p (.unfinished id)) :=
  ⟨_, rfl, Known.answers_unfinished hid⟩

/-- A stage whose status was read as pending may be marked as failed. -/
theorem mayInterrupt (hid : r.id = some id) (hr : k.Reads r)
    (hpending : r.status.pending = true) : k.MayWrite p id .failed := by
  obtain ⟨payload, rfl, htells⟩ := hr id hid
  exact fun fails => .interrupt p id (notFinal_of_pending htells hpending) fails

theorem reconcileInterruptedLocked_leads (hid : r.id = some id) (hr : k.Reads r)
    (faults : Panel.Reconciling) :
    (reconcileInterruptedLocked p id r faults).Keeps (Reconciled p) (.inside p k) := by
  have hunchanged : Reconciled p r (.inside p k) := ⟨k, rfl, hr.answers⟩
  refine ite (fun _ => hunchanged) (fun hpending => ⟨.neutral k rfl rfl, ?_⟩)
  intro (output : Option Bytes)
  rw [Bool.not_eq_true, Bool.not_eq_false'] at hpending
  refine ite (fun _ => ?_) (fun _ => hunchanged)
  refine (writeStageStatus_leads (mayInterrupt hid hr hpending) _ _).bind ?_
  intro written g hwritten
  refine ite (fun h => ?_) (fun _ => ?_)
  · rw [h] at hwritten
    rw [hwritten.unfinished]
    exact reconciled_unfinished hid
  · rcases hwritten with ⟨-, rfl⟩ | rfl
    · exact hunchanged
    · exact reconciled_unfinished hid

/-- `Get` before it returns. -/
def Got (p : Nat) (record : Except UpdateError Report) (g : Place) : Prop :=
  ∃ k, g = .inside p k ∧ k.Answers record.toOption

variable (faults : Panel.Reconciling)

theorem getReconciled_leads : (getReconciled cfg p id faults).Keeps (Got p) (.inside p k) := by
  refine (getLocked_leads cfg).bind ?_
  rintro record g ⟨k', rfl, hread⟩
  cases record with
  | error e => exact ⟨k', rfl, k'.answers_none⟩
  | ok r =>
    obtain ⟨hid, hr⟩ := hread r rfl
    exact (reconcileInterruptedLocked_leads hid hr faults).bind fun r' g' h => h

theorem returning_record_leads {record : Except UpdateError Report} (h : Got p record g) :
    (returning p (record.map some)).Ends g := by
  obtain ⟨k, rfl, hanswers⟩ := h
  cases record with
  | error e => exact returning_error_leads e
  | ok r => exact returning_leads hanswers

theorem get_leads : (get cfg p id faults).Ends .outside :=
  ⟨.lock p, fun _ => (getReconciled_leads cfg faults).bind fun _ _ h => returning_record_leads h⟩

theorem latest_leads : (latest cfg p faults).Ends .outside := by
  refine ⟨.lock p, fun _ => ⟨.neutral _ rfl rfl, ?_⟩⟩
  intro (marker : Option Bytes)
  refine ite (fun _ => returning_leads (Known.answers_none _)) (fun _ => ?_)
  refine guard_leads ?_
  exact (getReconciled_leads cfg faults).bind fun _ _ h => returning_record_leads h

theorem mayGiveUp (p : Nat) (id : Bytes) : (Known.unfinished id).MayWrite p id .failed :=
  fun fails => .giveUp p id fails

theorem maySchedule (p : Nat) (k : Known) (id : Bytes) : k.MayWrite p id .scheduled :=
  fun fails => .schedule p k id fails

theorem create_leads (c : Panel.Scheduling) : (c.create p).Ends (.inside p k) := by
  refine (writeStageStatus_leads (maySchedule p k c.id) _ _).bind ?_
  intro written g hwritten
  refine ite (fun _ => ?_) (fun h => ?_)
  · exact hwritten.error_leads _
  · rw [Bool.not_eq_true, Bool.not_eq_false'] at h
    rw [h] at hwritten
    rw [hwritten.unfinished]
    refine ⟨.systemdRun p c.id _ _, ?_⟩
    intro (ok : Bool)
    refine ite (fun _ => ?_) (fun _ => ?_)
    · exact returning_leads (Known.answers_unfinished rfl)
    · exact (writeStageStatus_leads (mayGiveUp p c.id) _ _).bind fun _ _ hgiven =>
        hgiven.error_leads _

theorem schedule_leads (c : Panel.Scheduling) : (schedule cfg p c).Ends .outside := by
  refine ite (fun _ => trivial) (fun _ => ⟨.lock p, fun _ => ?_⟩)
  refine (getReconciled_leads cfg c.reconciling).bind ?_
  rintro record g ⟨k', rfl, -⟩
  cases record with
  | error e => exact returning_error_leads e
  | ok r =>
    refine guard_leads ?_
    refine guard_leads ?_
    refine guard_leads ?_
    refine guard_leads ?_
    refine guard_leads ?_
    exact create_leads c

/-! ### The agent -/

/-- An operation that was read from the stage it tells about. -/
def Operated (p : Nat) (r : Report) (g : Place) : Prop := ∃ k, g = .inside p k ∧ k.Reads r

theorem loadOperation_leads : (loadOperation p).Keeps (Operated p) (.inside p k) := by
  refine ⟨.neutral k rfl rfl, ?_⟩
  intro (marker : Option Bytes)
  have hnone : ∀ st detail, Operated p ⟨none, st, detail⟩ (.inside p k) :=
    fun st detail => ⟨k, rfl, fun id hid => by cases hid⟩
  refine ite (fun _ => hnone _ _) (fun _ => ?_)
  refine ite (fun _ => hnone _ _) (fun _ => ⟨.readStatus p k _, ?_⟩)
  intro (payload : Option Bytes)
  refine ⟨.neutral _ rfl rfl, ?_⟩
  intro (detail : Option Bytes)
  refine ⟨_, rfl, ?_⟩
  intro id' hid
  cases (operation_id _ payload detail).symm.trans hid
  refine ⟨payload, rfl, ?_⟩
  intro t ht hpayload
  rw [hpayload]
  cases t with
  | completed | failed => rfl
  | _ => cases ht

theorem reconcileOperation_leads (hid : r.id = some id) (hr : k.Reads r)
    (hpending : r.status.pending = true) (faults : Panel.Reconciling) :
    (reconcileOperation p id r faults).Keeps (Reconciled p) (.inside p k) := by
  refine ⟨.neutral k rfl rfl, ?_⟩
  intro (output : Option Bytes)
  refine ite (fun _ => ?_) (fun _ => ⟨k, rfl, hr.answers⟩)
  refine (writeOperationStatus_leads (mayInterrupt hid hr hpending) _ _).bind ?_
  rintro written g (⟨-, rfl⟩ | rfl)
  · -- the write failed; the status that was read is not final, so that nothing is contradicted
    obtain ⟨payload, rfl, htells⟩ := hr id hid
    refine ⟨_, rfl, Known.Reads.answers ?_⟩
    intro id' hid'
    cases hid.symm.trans hid'
    refine ⟨payload, rfl, ?_⟩
    intro t ht hpayload
    exact absurd hpayload (notFinal_of_pending htells hpending t ht)
  · exact reconciled_unfinished hid

theorem status_leads : (status p faults).Ends .outside := by
  refine ⟨.lock p, fun _ => loadOperation_leads.bind ?_⟩
  rintro r g ⟨k', rfl, hr⟩
  have hreturn : (returning p (.ok (some r))).Ends (.inside p k') := returning_leads hr.answers
  cases hid : r.id with
  | none => exact hreturn
  | some id =>
    refine ite (fun hpending => ?_) (fun _ => hreturn)
    refine (reconcileOperation_leads hid hr hpending faults).bind ?_
    rintro r' g' ⟨k'', rfl, hanswers⟩
    exact returning_leads hanswers

variable (faults : Agent.Making)

theorem newOperation_leads : (newOperation p id faults).Keeps (Written p k id) (.inside p k) := by
  refine ⟨.neutral k rfl rfl, ?_⟩
  intro (made : Bool)
  refine ite (fun _ => .inl ⟨rfl, rfl⟩) (fun _ => ?_)
  refine (ite (fun _ => writeOperationStatus_leads (maySchedule p k id) _ _)
    (fun _ => detail_status_leads (maySchedule p k id) _ _)).bind ?_
  intro written g hwritten
  cases written with
  | false => exact hwritten
  | true =>
    rw [hwritten.unfinished]
    exact ⟨.neutral _ rfl rfl, fun _ => .inr rfl⟩

variable (o : Agent.Operation)

theorem giveUp_leads : (o.giveUp p).Ends (.inside p (.unfinished o.id)) :=
  (writeOperationStatus_leads (mayGiveUp p o.id) _ _).bind fun _ _ hgiven => hgiven.error_leads _

theorem operation_schedule_leads : (o.schedule p).Ends (.inside p (.unfinished o.id)) := by
  refine ite (fun _ => giveUp_leads o) (fun _ => ⟨.systemdRun p o.id _ _, ?_⟩)
  intro (ok : Bool)
  refine ite (fun _ => loadOperation_leads.bind ?_) (fun _ => giveUp_leads o)
  rintro r g ⟨k', rfl, hr⟩
  exact returning_leads hr.answers

theorem stage_leads : (o.stage p).Ends (.inside p (.unfinished o.id)) := by
  unfold Agent.Operation.stage
  cases o.stagingFails with
  | none =>
    exact guard_leads (operation_schedule_leads o)
  | some fault =>
    exact (writeOperationStatus_leads (mayGiveUp p o.id) _ _).bind fun _ _ hgiven =>
      hgiven.error_leads _

theorem beginOperation_leads {next : UpdateProg Outcome}
    (hnext : next.Ends (.inside p (.unfinished o.id))) :
    (beginOperation p o next).Ends .outside := by
  refine ⟨.lock p, fun _ => loadOperation_leads.bind ?_⟩
  rintro r g ⟨k', rfl, -⟩
  refine guard_leads ?_
  refine guard_leads ?_
  refine (newOperation_leads o.making).bind ?_
  intro made g' hmade
  cases made with
  | false => exact hmade.error_leads _
  | true =>
    rw [hmade.unfinished]
    exact hnext

/-! ### The scripts -/

/-- Only details follow a terminal status. -/
def Finishes : List ScriptWrite → Prop
  | [] => True
  | .status st :: rest => if st.terminal then ∀ w ∈ rest, ∃ text,
    w = .detail text else Finishes rest
  | .detail _ :: rest => Finishes rest

theorem Finishes.take (h : Finishes writes) (n : Nat) : Finishes (writes.take n) := by
  induction writes generalizing n with
  | nil =>
    rw [take_nil]
    trivial
  | cons w rest ih =>
    cases n with
    | zero => trivial
    | succ n =>
      rw [take_succ_cons]
      cases w with
      | detail text => exact ih h n
      | status st =>
        unfold Finishes at h ⊢
        split_ifs at h ⊢ with hst
        · exact fun w hw => h w (mem_of_mem_take hw)
        · exact ih h n

theorem ending_obeys (h : ∀ w ∈ writes, ∃ text, w = .detail text) :
    (runScript id writes).Obeys Place.Permits Place.next (.ending id) := by
  induction writes with
  | nil => exact ⟨.exitEnding id, fun _ => trivial⟩
  | cons w rest ih =>
    obtain ⟨text, rfl⟩ := h w mem_cons_self
    exact ⟨.detail id text, fun _ => ih fun w hw => h w (mem_cons_of_mem _ hw)⟩

theorem writing_obeys (h : Finishes writes) :
    (runScript id writes).Obeys Place.Permits Place.next (.writing id) := by
  induction writes with
  | nil => exact ⟨.exitWriting id, fun _ => trivial⟩
  | cons w rest ih =>
    refine ⟨.put id w, fun _ => ?_⟩
    cases w with
    | detail text => exact ih h
    | status st =>
      unfold Finishes at h
      rw [Place.next]
      split_ifs at h ⊢ with hst
      · exact ending_obeys h
      · exact ih h

theorem script_obeys (h : Finishes writes) (lasting : Nat) :
    (.call (.start id) fun _ => runScript id (writes.take lasting) : UpdateProg Outcome).Obeys
      Place.Permits Place.next .outside :=
  ⟨.start id, fun _ => writing_obeys (h.take lasting)⟩

end Programs

theorem program_obeys (cfg : Panel.Config) (c : UpdateCall) :
    (UpdateCall.program cfg c).Obeys Place.Permits Place.next .outside := by
  cases c with
  | get p id faults => exact (get_leads cfg faults).obeys
  | latest p faults => exact (latest_leads cfg faults).obeys
  | schedule p c => exact (schedule_leads cfg c).obeys
  | upgradeRunner id ending lasting =>
    refine script_obeys ?_ lasting
    cases ending <;> simp [upgradeRunner, rollbackRunning, writeState, Finishes, Status.terminal]
  | status p faults => exact (status_leads faults).obeys
  | upgrade p o => exact (beginOperation_leads o (stage_leads o)).obeys
  | rollback p o => exact (beginOperation_leads o (operation_schedule_leads o)).obeys
  | agentLifecycleRunner id action ok lasting =>
    refine script_obeys ?_ lasting
    cases action with
    | upgrade | rollback =>
      cases ok <;> simp [agentLifecycleRunner, writeStatus, Finishes, Status.terminal]
    | other => simp [agentLifecycleRunner, writeStatus, Finishes, Status.terminal]
  | stop => exact ⟨.stop, fun _ => trivial⟩
  | restart => exact ⟨.restart, fun _ => trivial⟩

/-! ## Runs -/

/-- If every script writes its terminal status while no call that has read or scheduled its stage is
still to return, the terminal status is never overwritten and a completed stage is told as such. -/
theorem finished_stays_finished {cfg : Panel.Config} {component : Component} {store : Store}
    {trace : List (Event UpdateState UpdateOp UpdateCall)}
    {last : Config UpdateState UpdateOp UpdateOp.Reply UpdateCall Outcome}
    (run : Run (updateSystem cfg) (UpdateCall.PartOf component) { toStore := store } trace last)
    (hundisturbed : ∀ e ∈ trace, undisturbed e.before e.op = true) :
    last.state.overwritten = false ∧ last.state.misreported = false := by
  have hguarded := (run.guarded hundisturbed).restarts fun _ _ => False
  have hsound : Sound last.state := by
    refine hguarded.typed Place.Permits Place.next Place.Knows Place.lock .outside rfl
      (fun c _ => program_obeys cfg c) ?_ (fun _ _ _ rebooted => rebooted.elim) (fun _ _ => trivial)
      ?_ ?_ ?_
    · exact ⟨fun id t ht => absurd ht.symm (some_ne_none t), fun _ _ => rfl, rfl, rfl⟩
    · intro g op s hready hs hg hpermits
      exact exec_keeps (Bool.and_eq_true_iff.mp hready).1 hs hg hpermits
    · intro g op s t hready hs hg hpermits htaken
      exact taken_free (Bool.and_eq_true_iff.mp hready).1 hpermits htaken
    · intro g g' op s hready hs hg _ hpermits hapart
      obtain ⟨hready, hclear⟩ := Bool.and_eq_true_iff.mp hready
      exact exec_other hready hclear hg hpermits hapart
  exact ⟨hsound.kept, hsound.told⟩

/-- Every record names the same version. -/
def oneVersion : Panel.Config := ⟨fun _ => some (ascii "2.0.0")⟩

/-- A staged release. -/
def stagedStore : Store where
  marker := some (ascii "v2-1\n")
  status := fun _ => some Status.staged.file

/-- The upgrade is scheduled and completed, and then looked at. -/
def calmUpgrade : List UpdateCall :=
  [.schedule 0 ⟨ascii "v2-1", ascii "2.0.0", true, {}, true, true, {}, true, true, {}⟩,
    .upgradeRunner (ascii "v2-1") .matching 9, .latest 0 {}, .get 0 (ascii "v2-1") {}]

theorem calm_upgrade_stays_finished :
    (Run.serialRun (updateSystem oneVersion)
      { toStore := stagedStore } calmUpgrade).2.state.finished
        (ascii "v2-1") = some .completed ∧
      (Run.serialRun (updateSystem oneVersion)
        { toStore := stagedStore } calmUpgrade).2.state.overwritten =
        false ∧
      (Run.serialRun (updateSystem oneVersion)
        { toStore := stagedStore } calmUpgrade).2.state.misreported =
        false := by
  have hrun : Run (updateSystem oneVersion) (UpdateCall.PartOf .panel) { toStore := stagedStore }
      (Run.serialRun (updateSystem oneVersion) { toStore := stagedStore } calmUpgrade).1
      (Run.serialRun (updateSystem oneVersion) { toStore := stagedStore } calmUpgrade).2 := by
    apply Run.serialRun_run
    · simp [calmUpgrade, UpdateCall.PartOf]
    · decide +kernel
  have hundisturbed : ∀ e ∈ (Run.serialRun (updateSystem oneVersion) { toStore := stagedStore }
      calmUpgrade).1, undisturbed e.before e.op = true := by
    decide +kernel
  exact ⟨by decide +kernel, finished_stays_finished hrun hundisturbed⟩

/-- The panel reads the status while the script runs, and asks for the unit when it has ended. -/
def panelRace : List (Run.Choice UpdateCall) :=
  [.invoke (.schedule 0 ⟨ascii "v2-1", ascii "2.0.0", true, {}, true, true, {}, true, true, {}⟩)] ++
    List.replicate 7 (.step 0) ++ [.invoke (.upgradeRunner (ascii "v2-1") .matching 9)] ++
    List.replicate 3 (.step 1) ++ [.invoke (.get 0 (ascii "v2-1") {})] ++
    List.replicate 2 (.step 2) ++ List.replicate 3 (.step 1) ++ List.replicate 5 (.step 2)

/-- The same with the agent. -/
def agentRace : List (Run.Choice UpdateCall) :=
  [.invoke (.upgrade 0 ⟨ascii "op-1", true, {}, none, {}, false, true, true, true, {}⟩)] ++
    List.replicate 11 (.step 0) ++ [.invoke
      (.agentLifecycleRunner (ascii "op-1") .upgrade true 9)] ++
    List.replicate 3 (.step 1) ++ [.invoke (.status 0 {})] ++
    List.replicate 3 (.step 2) ++ List.replicate 3 (.step 1) ++ List.replicate 5 (.step 2)

/-- The completed stage is marked as failed, and told as failed. -/
def wronglyInterrupted (id : Bytes) (s : UpdateState) : Bool :=
  s.finished id = some .completed && s.status id = some Status.failed.file && s.overwritten &&
    s.misreported

theorem completed_reported_interrupted :
    (∃ trace last, Run (updateSystem oneVersion) (UpdateCall.PartOf .panel)
      { toStore := stagedStore }
        trace last ∧ wronglyInterrupted (ascii "v2-1") last.state = true) ∧
      ∃ trace last, Run (updateSystem oneVersion) (UpdateCall.PartOf .agent) {} trace last ∧
        wronglyInterrupted (ascii "op-1") last.state = true := by
  constructor
  · refine Run.exists_scheduled panelRace ?_ (by decide +kernel)
    simp [panelRace, UpdateCall.PartOf]
  · refine Run.exists_scheduled agentRace ?_ (by decide +kernel)
    simp [agentRace, UpdateCall.PartOf]

end HeyServer.Updates
