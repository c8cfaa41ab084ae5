import HeyServer.Uptime.Batching

/-!
# Heartbeats of deleted monitors

A batch is inserted as a whole. A check that was running when its monitor was deleted still
adds a heartbeat, and its insert violates a foreign key.

## Implementation notes

No insert fails for another reason here, and no monitor is created during a run.
-/

namespace HeyServer.Uptime
open Lib List Option

/-- Nothing but foreign keys makes an insert fail. -/
def noFaults (_ : Nat) : Bool := false

variable (own : List (Engine × EngineOp))

/-- What the last flush of a call took out of the buffer. -/
def taken : List UptimeHeartbeat :=
  own.foldl (fun batch step => if step.2 = .take then step.1.buffer else batch) []

/-- The event is the last one of a flush that took a batch. -/
def EndsFlush (e : EngineEvent) : Prop :=
  match e.op with
  | .insertBatch batch => (e.before.insertBatch noFaults batch).2 = true
  | .putBack _ => True
  | _ => False

/-- Of a batch, the heartbeats whose monitors exist are in the table. -/
def Stored (e : Engine) (batch : List UptimeHeartbeat) : Prop :=
  ∀ h ∈ batch, (e.db.getMonitor h.monitorID).isSome → h ∈ e.db.stored

/-- When a flush ends, what it took out of the buffer is stored. -/
def FlushesStore (trace : List EngineEvent) : Prop :=
  AtEach (fun earlier e => EndsFlush e →
    Stored (e.after (engineSemantics noFaults)) (taken (ownSteps e.id earlier))) trace

/-- A batch that is inserted has all its monitors or none of them. -/
def Unmixed (e : EngineEvent) : Prop :=
  match e.op with
  | .insertBatch batch =>
    (∀ h ∈ batch, (e.before.db.getMonitor h.monitorID).isSome) ∨
      ∀ h ∈ batch, ¬ (e.before.db.getMonitor h.monitorID).isSome
  | _ => True

/-! ## The batch a flush inserts -/

variable (own : List (Engine × EngineOp))

theorem taken_concat (step : Engine × EngineOp) :
    taken (own ++ [step]) = if step.2 = .take then step.1.buffer else taken own := by
  simp [taken]

/-- A flush inserts what it took, and puts it back after its insert has failed. -/
def FlushStep : EngineOp → Prop
  | .insertBatch batch => taken own = batch
  | .putBack batch => taken own = batch ∧
      ∃ s, (s, .insertBatch batch) ∈ own ∧ (s.insertBatch noFaults batch).2 = false
  | _ => True

abbrev EngineProg.FollowsFlush {V : Type} (p : EngineProg V) (own : List (Engine × EngineOp)) :
    Prop :=
  p.Follows (engineSemantics noFaults) FlushStep own

theorem follows_insertOrPutBack {own : List (Engine × EngineOp)} {batch : List UptimeHeartbeat}
    (h : taken own = batch) : (insertOrPutBack batch).FollowsFlush own := by
  refine ⟨h, fun s => ?_⟩
  show (if (s.insertBatch noFaults batch).2 then pure () else Prog.perform
    (EngineOp.putBack batch) :
    EngineProg Unit).FollowsFlush (own ++ [(s, .insertBatch batch)])
  split_ifs with hok
  · trivial
  · refine ⟨⟨?_, s, by simp, by simpa using hok⟩, fun _ => trivial⟩
    rw [taken_concat, if_neg (by simp), h]

theorem follows_flush : flush.FollowsFlush own := by
  refine ⟨trivial, fun s => ?_⟩
  refine Prog.Follows.ite trivial (follows_insertOrPutBack ?_)
  rw [taken_concat, if_pos rfl]
  rfl

theorem follows_add (h : UptimeHeartbeat) (own : List (Engine × EngineOp)) :
    (add h).FollowsFlush own := by
  refine ⟨trivial, fun s => ?_⟩
  exact Prog.Follows.ite (follows_flush _) trivial

theorem follows_runCheck (c : Check) (own : List (Engine × EngineOp)) :
    (runCheck c).FollowsFlush own :=
  (follows_add _ own).bind fun _ _ => ⟨trivial, fun _ => trivial⟩

theorem follows_program (c : EngineCall) : c.program.FollowsFlush [] := by
  cases c with
  | add h => exact (follows_add h []).bind fun _ _ => trivial
  | flush => exact (follows_flush []).bind fun _ _ => trivial
  | removeMonitor id => exact ⟨trivial, fun _ => trivial⟩
  | tick c =>
    refine ⟨trivial, fun s => ?_⟩
    exact Prog.Follows.ite ((follows_runCheck c _).bind fun _ _ => trivial) trivial
  | checkNow c =>
    refine ⟨trivial, fun s => ?_⟩
    show (checkFound c (s.db.getMonitor c.monitorID)).FollowsFlush _
    cases s.db.getMonitor c.monitorID with
    | none => trivial
    | some m =>
      exact Prog.Follows.ite trivial ((follows_runCheck _ _).bind fun _ own =>
        (follows_flush own).bind fun _ _ => trivial)
  | deleteMonitor id =>
    refine ⟨trivial, fun s => ?_⟩
    generalize ((engineSemantics noFaults).exec s (EngineOp.getMonitor id)).2 = found
    cases found with
    | none => trivial
    | some m => exact ⟨trivial, fun _ => ⟨trivial, fun _ => trivial⟩⟩

/-! ## Monitors only go -/

theorem Engine.exec_getMonitor {e : Engine} {op : EngineOp} {id : Nat}
    (h : ((e.exec noFaults op).1.db.getMonitor id).isSome) : (e.db.getMonitor id).isSome := by
  cases op with
  | append _ | take | putBack _ | getMonitor _ | running _ | removeMonitor _ => exact h
  | transition c =>
    rw [← (transition_frame e.db c).1]
    exact h
  | insertBatch batch =>
    rcases e.insertBatch_cases noFaults batch with ⟨-, -, hmonitors, -⟩ | ⟨-, hdb, -⟩
    · rw [← hmonitors]
      exact h
    · rw [← hdb]
      exact h
  | deleteMonitor gone =>
    obtain ⟨m, hm⟩ := isSome_iff_exists.mp h
    rw [show ((e.exec noFaults (.deleteMonitor gone)).1.db.getMonitor id) =
      (e.db.monitors.delete fun key _ => key = gone).get? id from rfl, RowTable.get?_delete] at hm
    exact isSome_iff_exists.mpr ⟨m, (filter_eq_some_iff.mp hm).1⟩

section Runs
variable {init : Engine} {trace : List EngineEvent} {cfg : EngineConfig}

/-- A monitor that is there now was there at every earlier step. -/
theorem monitor_was_there (run : Run (engineSystem noFaults) (fun _ => True) init trace cfg)
    {earlier later : List EngineEvent} {e : EngineEvent} (hsplit : trace = earlier ++ e :: later)
    {id : Nat}
    (h : (e.before.db.getMonitor id).isSome) {past : EngineEvent} (hpast : past ∈ earlier) :
    (past.before.db.getMonitor id).isSome := by
  have hall := run.evolves_before (J := fun trace s => ∀ past ∈ trace, ∀ id,
    (s.db.getMonitor id).isSome → (past.before.db.getMonitor id).isSome) (by simp) ?_ hsplit
  · exact hall past hpast id h
  · intro trace e _ ih past hpast id hid
    have hbefore : (e.before.db.getMonitor id).isSome := Engine.exec_getMonitor hid
    rcases mem_append.mp hpast with hpast | hpast
    · exact ih past hpast id hbefore
    · rw [mem_singleton.mp hpast]
      exact hbefore

/-- If no batch that is inserted mixes heartbeats of monitors that exist with heartbeats of
monitors that do not, then each flush stores what it took: however checks, adds, flushes and
deletions interleave. -/
theorem flushes_store
    (run : Run (engineSystem noFaults) (fun _ => True) init trace cfg)
    (hunmixed : ∀ e ∈ trace, Unmixed e) : FlushesStore trace := by
  intro earlier e later hsplit hends
  obtain ⟨hfollows, -⟩ := run.follows (P := fun _ => FlushStep)
    (fun c _ => follows_program c) hsplit
  obtain ⟨id, c, op, before⟩ := e
  cases op with
  | insertBatch batch =>
    have htaken : taken (ownSteps id earlier) = batch := hfollows
    have hok : (before.insertBatch noFaults batch).2 = true := hends
    rcases before.insertBatch_cases noFaults batch with ⟨-, hstored, -, -⟩ | ⟨hno, -, -⟩
    · intro h hmem _
      rw [htaken] at hmem
      show h ∈ (before.insertBatch noFaults batch).1.db.stored
      rw [hstored]
      exact mem_append_right _ hmem
    · rw [hok] at hno
      cases hno
  | putBack batch =>
    obtain ⟨htaken, s, hown, hfailed⟩ := hfollows
    obtain ⟨past, hpast, -, hbefore, hop⟩ := mem_ownSteps.mp hown
    have hmixed := hunmixed past (by rw [hsplit]; exact mem_append_left _ hpast)
    rw [Unmixed, hop, hbefore] at hmixed
    rcases hmixed with hall | hnone
    · obtain ⟨db, hdb⟩ := isSome_iff_exists.mp (UptimeDb.insertHeartbeatBatch_isSome hall)
      simp [Engine.insertBatch, noFaults, hdb] at hfailed
    · -- none of the monitors was there, and none has come back
      intro h hmem hnow
      rw [htaken] at hmem
      have hthen := monitor_was_there run hsplit (e := ⟨id, c, .putBack batch, before⟩) hnow hpast
      rw [hbefore] at hthen
      exact absurd hthen (hnone h hmem)
  | append _ | take | transition _ | getMonitor _ | deleteMonitor _ | running _ | removeMonitor _ =>
    exact hends.elim

end Runs

instance (e : EngineEvent) : Decidable (EndsFlush e) := by
  unfold EndsFlush
  split <;> infer_instance

instance (e : Engine) (batch : List UptimeHeartbeat) : Decidable (Stored e batch) :=
  inferInstanceAs (Decidable (∀ h ∈ batch, _))

instance (trace : List EngineEvent) : Decidable (FlushesStore trace) :=
  inferInstanceAs (Decidable (AtEach _ trace))

instance (e : EngineEvent) : Decidable (Unmixed e) := by
  unfold Unmixed
  split <;> infer_instance

/-- Two heartbeats are stored, then the monitor is deleted, and the heartbeat of a check that
was running is put back. -/
def orderlyChoices : List (Run.Choice EngineCall) :=
  [.invoke (.add (beat 1)), .step 0, .invoke (.add (beat 2)), .step 1, .invoke .flush, .step 2,
    .step 2, .invoke (.deleteMonitor 1), .step 3, .step 3, .step 3, .invoke (.add (beat 3)),
    .step 4, .invoke .flush, .step 5, .step 5, .step 5]

theorem flushes_store_orderly :
    ∃ trace cfg, Run (engineSystem noFaults) (fun _ => True) oneMonitor trace cfg ∧
      (∀ e ∈ trace, Unmixed e) ∧ (∃ e ∈ trace, EndsFlush e) ∧ FlushesStore trace := by
  obtain ⟨trace, cfg, run, hunmixed, hends⟩ : ∃ trace cfg,
      Run (engineSystem noFaults) (fun _ => True) oneMonitor trace cfg ∧
        (∀ e ∈ trace, Unmixed e) ∧ ∃ e ∈ trace, EndsFlush e :=
    Run.exists_scheduled orderlyChoices (fun _ _ => trivial) (by decide +kernel)
  exact ⟨trace, cfg, run, hunmixed, hends, flushes_store run hunmixed⟩

/-- A second monitor next to the first. -/
def twoMonitors : Engine :=
  { oneMonitor with db := oneMonitor.db.createMonitor ⟨1, 0, true, false⟩ }

/-- A failing check of the second monitor. -/
def lateCheck : Check := ⟨2, ⟨1, 0, true, false⟩, ⟨.down, [], 0, 0, [], 0⟩, 0, 0, 0⟩

/-- The second monitor is deleted while a check of it is running; the heartbeat of that check
and one of the first monitor are then flushed together. -/
def staleChoices : List (Run.Choice EngineCall) :=
  [.invoke (.tick lateCheck), .step 0, .invoke (.deleteMonitor 2), .step 1, .step 1, .step 1,
    .step 0, .step 0, .invoke (.add (beat 1)), .step 2, .invoke .flush, .step 3, .step 3, .step 3]

theorem stale_heartbeat_blocks :
    ∃ trace cfg, Run (engineSystem noFaults) (fun _ => True) twoMonitors trace cfg ∧
      ¬ FlushesStore trace :=
  Run.exists_scheduled staleChoices (fun _ _ => trivial) (by decide +kernel)

end HeyServer.Uptime
