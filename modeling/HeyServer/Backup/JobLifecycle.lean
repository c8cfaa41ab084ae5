import HeyServer.Backup.Jobs
import HeyServer.Lib.History

/-!
# The life of a job

A job is pending, then running, then done or failed. Nothing in the table keeps a worker from
reporting about a job that was dismissed or given up in the meantime: such a report brings the job
back. The theorem says what holds as long as reports find their job active.
-/

namespace HeyServer.Backup
open Lib List Option

def JobStatus.ended (status : JobStatus) : Bool := status = .done || status = .failed

theorem Job.isActive_iff (j : Job) : j.isActive = true ↔ j.status.ended = false := by
  rw [Job.isActive, JobStatus.ended]
  cases j.status <;> decide

/-- Progress and results are reported about jobs that are still active. -/
def JobOp.Live (t : JobTable) : JobOp → Prop
  | .updateJobDetail id _ _ => ∀ j ∈ t.job? id, j.isActive = true
  | .setJob id status _ _ => status ≠ .pending ∧ ∀ j ∈ t.job? id, j.isActive = true
  | _ => True

/-- No job ends before it has been running. -/
def JobOp.InTurn (t : JobTable) : JobOp → Prop
  | .setJob id status _ _ => status.ended = true → ∀ j ∈ t.job? id, j.status ≠ .pending
  | .dismissJob id _ _ => ∀ j ∈ t.job? id, j.status ≠ .pending
  | .reconcileStaleJobs now => ∀ entry ∈ t.jobs, ∀ j ∈ t.heap[entry.2]?,
      j.staleReason now ≠ none → j.status ≠ .pending
  | _ => True

instance (t : JobTable) : (op : JobOp) → Decidable (op.Live t)
  | .updateJobDetail .. => inferInstanceAs (Decidable (∀ j ∈ t.job? _, _))
  | .setJob .. => inferInstanceAs (Decidable (_ ∧ ∀ j ∈ t.job? _, _))
  | .newJob .. | .appendJobLog .. | .setJobCommand .. | .setJobOutput .. | .dismissJob ..
  | .reconcileStaleJobs .. | .activeJobs => inferInstanceAs (Decidable True)

instance (t : JobTable) : (op : JobOp) → Decidable (op.InTurn t)
  | .setJob .. => inferInstanceAs (Decidable (_ → ∀ j ∈ t.job? _, _))
  | .dismissJob .. => inferInstanceAs (Decidable (∀ j ∈ t.job? _, _))
  | .reconcileStaleJobs .. =>
    inferInstanceAs (Decidable (∀ entry ∈ t.jobs, ∀ j ∈ t.heap[entry.2]?, _ → _))
  | .newJob .. | .updateJobDetail .. | .appendJobLog .. | .setJobCommand .. | .setJobOutput ..
  | .activeJobs => inferInstanceAs (Decidable True)

/-! ## What an operation does to one job -/

/-- The fields that say how a job ended. -/
structure Job.Agrees (j j' : Job) : Prop where
  status : j'.status = j.status
  doneAt : j'.doneAt = j.doneAt
  message : j'.message = j.message

theorem Job.Agrees.rfl (j : Job) : j.Agrees j := ⟨Eq.refl _, Eq.refl _, Eq.refl _⟩

theorem Job.Agrees.trans {j j' j'' : Job} (h : j.Agrees j') (h' : j'.Agrees j'') : j.Agrees j'' :=
  ⟨h'.status.trans h.status, h'.doneAt.trans h.doneAt, h'.message.trans h.message⟩

/-- What becomes of the job `j` when `op` is executed in `t`. -/
inductive JobOp.Effect (t : JobTable) (op : JobOp) (j : Job) : Job → Prop
  | kept {j' : Job} (agrees : j.Agrees j') : Effect t op j j'
  | progress {id : Bytes} {report : Progress} {now : Nat} {j' : Job}
      (isOp : op = .updateJobDetail id report now) (tracked : t.job? id = some j)
      (status : j'.status = .running) : Effect t op j j'
  | result {id : Bytes} {status : JobStatus} {msg : Bytes} {now : Nat} {j' : Job}
      (isOp : op = .setJob id status msg now) (tracked : t.job? id = some j)
      (status : j'.status = status) : Effect t op j j'
  | dismissed {id reason : Bytes} {now : Nat} {j' : Job}
      (isOp : op = .dismissJob id reason now) (tracked : t.job? id = some j)
      (active : j.isActive = true) (status : j'.status = .failed) : Effect t op j j'
  | abandoned {now : Nat} {entry : Bytes × Nat} {j' : Job} (isOp : op = .reconcileStaleJobs now)
      (listed : entry ∈ t.jobs) (tracked : t.heap[entry.2]? = some j)
      (stale : j.staleReason now ≠ none) (status : j'.status = .failed) : Effect t op j j'

namespace JobTable
variable {t : JobTable} {id : Bytes} {f : Job → Job} {p : Nat} {j : Job}

theorem job?_of_pointer (hp : t.pointer? id = some p) (h : t.heap[p]? = some j) :
    t.job? id = some j := by
  rw [job?, hp, bind_some, h]

theorem heap_length_modify : (t.modify id f).heap.length = t.heap.length := by
  rw [modify]
  split
  · exact length_modify ..
  · rfl

/-- A change of one record, when `f` does what `Changed` says. -/
theorem heap_modify_cases {Changed : Job → Prop} (h : t.heap[p]? = some j)
    (hf : t.job? id = some j → Changed (f j)) (hsame : Changed j) :
    ∃ j', (t.modify id f).heap[p]? = some j' ∧ Changed j' := by
  rw [modify]
  split
  · rename_i q hq
    rw [getElem?_modify, h]
    refine ⟨_, rfl, ?_⟩
    dsimp only
    split_ifs with hp
    · exact hf (job?_of_pointer (hp ▸ hq) h)
    · exact hsame
  · exact ⟨j, h, hsame⟩

/-- Reconciliation ends a stale job once and leaves the others. -/
theorem foldl_reconcile (zone : Zone) (now : Nat) (entries : List (Bytes × Nat)) {heap : List Job}
    (h : heap[p]? = some j) :
    ∃ j', (entries.foldl (fun heap entry =>
      heap.modify entry.2 (Job.reconcile zone now)) heap)[p]? =
        some j' ∧
      (j' = j ∨ ∃ entry ∈ entries, entry.2 = p ∧ ∃ reason, j.staleReason now = some reason ∧
        j' = j.abandon zone reason now) := by
  induction entries generalizing heap j with
  | nil => exact ⟨j, h, .inl rfl⟩
  | cons entry entries ih =>
    by_cases hentry : entry.2 = p
    · have hnext : (heap.modify entry.2 (Job.reconcile zone now))[p]? =
          some (j.reconcile zone now) := by
        rw [hentry, getElem?_modify_eq, h]
        rfl
      obtain ⟨j', hj', hcases⟩ := ih hnext
      refine ⟨j', hj', ?_⟩
      cases hstale : j.staleReason now with
      | none =>
        rw [Job.reconcile, hstale] at hcases
        rcases hcases with rfl | ⟨entry', -, -, reason, hreason, -⟩
        · exact .inl rfl
        · rw [hstale] at hreason
          cases hreason
      | some reason =>
        rw [Job.reconcile, hstale] at hcases
        rcases hcases with rfl | ⟨-, -, -, reason', hreason', -⟩
        · exact .inr ⟨entry, mem_cons_self, hentry, reason, rfl, rfl⟩
        · cases hreason'
    · have hnext : (heap.modify entry.2 (Job.reconcile zone now))[p]? = some j := by
        rw [getElem?_modify_ne _ _ hentry, h]
      obtain ⟨j', hj', hcases⟩ := ih hnext
      refine ⟨j', hj', hcases.imp_right ?_⟩
      rintro ⟨entry', hmem, hrest⟩
      exact ⟨entry', mem_cons_of_mem _ hmem, hrest⟩

end JobTable

namespace JobOp
variable {zone : Zone} {t : JobTable} {op : JobOp} {p : Nat} {j : Job}

/-- No operation does anything else to a job that exists. -/
theorem exec_effect (zone : Zone) (op : JobOp) (h : t.heap[p]? = some j) :
    ∃ j', (exec zone t op).1.heap[p]? = some j' ∧ op.Effect t j j' := by
  have hkept : op.Effect t j j := .kept (Job.Agrees.rfl j)
  cases op with
  | newJob jobType source now =>
    refine ⟨j, ?_, hkept⟩
    exact List.getElem?_append_left (List.getElem?_eq_some_iff.mp h).1 |>.trans h
  | updateJobDetail id report now =>
    refine JobTable.heap_modify_cases h (fun htracked => .progress rfl htracked ?_) hkept
    rw [Job.updateDetail, Job.computeETA]
    split_ifs <;> rfl
  | appendJobLog id line now =>
    show ∃ j', (t.appendJobLog zone id line now).heap[p]? = some j' ∧ _
    rw [JobTable.appendJobLog]
    split_ifs
    · exact ⟨j, h, hkept⟩
    all_goals exact JobTable.heap_modify_cases h (fun _ => .kept ⟨rfl, rfl, rfl⟩) hkept
  | setJobCommand | setJobOutput =>
    exact JobTable.heap_modify_cases h (fun _ => .kept ⟨rfl, rfl, rfl⟩) hkept
  | setJob id status msg now =>
    show ∃ j', (t.setJob zone id status msg now).heap[p]? = some j' ∧ _
    rw [JobTable.setJob]
    split_ifs
    · exact JobTable.heap_modify_cases h
        (fun htracked => .result rfl htracked (by cases status <;> rfl)) hkept
    · exact ⟨j, h, hkept⟩
  | dismissJob id reason now =>
    show ∃ j', (t.dismissJob zone id reason now).1.heap[p]? = some j' ∧ _
    rw [JobTable.dismissJob]
    cases hjob : t.job? id with
    | none => exact ⟨j, h, hkept⟩
    | some other =>
      dsimp only
      split_ifs with hactive
      · refine JobTable.heap_modify_cases h ?_ hkept
        intro htracked
        obtain rfl : other = j := some.inj (hjob.symm.trans htracked)
        exact .dismissed rfl hjob hactive rfl
      · exact ⟨j, h, hkept⟩
  | reconcileStaleJobs now =>
    obtain ⟨j', hj', rfl | ⟨entry, hlisted, rfl, reason, hreason, rfl⟩⟩ :=
      JobTable.foldl_reconcile zone now t.jobs h
    · exact ⟨j', hj', hkept⟩
    · refine ⟨_, hj', .abandoned rfl hlisted h ?_ rfl⟩
      rw [hreason]
      exact some_ne_none reason
  | activeJobs => exact ⟨j, h, hkept⟩

/-- A job comes into being when it is created, and is pending then. -/
theorem exec_new {j' : Job} (h : t.heap[p]? = none) (h' : (exec zone t op).1.heap[p]? = some j') :
    j'.status = .pending := by
  have hold : ∀ t' : JobTable, t'.heap.length = t.heap.length → t'.heap[p]? ≠ some j' := by
    intro t' hlength hsome
    have hp := (List.getElem?_eq_some_iff.mp hsome).1
    rw [hlength] at hp
    exact absurd (getElem?_eq_none_iff.mp h) (Nat.not_le.mpr hp)
  cases op with
  | newJob jobType source now =>
    have hp := getElem?_eq_none_iff.mp h
    replace h' : (t.heap ++ [_])[p]? = some j' := h'
    rw [getElem?_append_right hp, getElem?_singleton] at h'
    split at h'
    · cases h'
      rfl
    · cases h'
  | appendJobLog id line now =>
    refine absurd h' (hold (t.appendJobLog zone id line now) ?_)
    rw [JobTable.appendJobLog]
    split_ifs
    · rfl
    all_goals exact JobTable.heap_length_modify
  | setJob id status msg now =>
    refine absurd h' (hold (t.setJob zone id status msg now) ?_)
    rw [JobTable.setJob]
    split_ifs
    · exact JobTable.heap_length_modify
    · rfl
  | dismissJob id reason now =>
    refine absurd h' (hold (t.dismissJob zone id reason now).1 ?_)
    rw [JobTable.dismissJob]
    split
    · rfl
    · split_ifs
      · exact JobTable.heap_length_modify
      · rfl
  | reconcileStaleJobs now =>
    refine absurd h' (hold (t.reconcileStaleJobs zone now) ?_)
    exact t.jobs.foldlRecOn _ (motive := fun heap : List Job => heap.length = t.heap.length) rfl
      fun heap hlength entry _ => (length_modify ..).trans hlength
  | activeJobs => exact absurd h' (hold t rfl)
  | updateJobDetail | setJobCommand | setJobOutput =>
    exact absurd h' (hold _ JobTable.heap_length_modify)

end JobOp

/-! ## What a whole run does to a job -/

/-- The status of the job at a place of the heap. -/
def statusAt (p : Nat) (t : JobTable) : Option JobStatus := (t.heap[p]?).map Job.status

/-- The statuses a job has had one after the other, from the first event to the last state. -/
def statusHistory (p : Nat) (trace : List (Event JobTable JobOp JobCall)) (last : JobTable) :
    List JobStatus :=
  changes (trace.map (fun e => statusAt p e.before) ++ [statusAt p last])

/-- Pending, then running, then ended. -/
def chain : List (List JobStatus) :=
  [[], [.pending], [.pending, .running], [.pending, .running, .done], [.pending, .running, .failed]]

/-- The same for jobs that may end before they run. -/
def forward : List (List JobStatus) := [.pending, .done] :: [.pending, .failed] :: chain

/-- The history of a job is one of `paths` and ends with its present status. -/
structure OnPath (paths : List (List JobStatus)) (history : List JobStatus)
    (now : Option JobStatus) : Prop where
  onPath : history ∈ paths
  unborn : now = none → history = []
  present : ∀ status, now = some status → history.getLast? = some status

/-- A status that may follow another. -/
def Steps (paths : List (List JobStatus)) (status status' : JobStatus) : Prop :=
  status' = status ∨ ∀ path ∈ paths, path.getLast? = some status → path ++ [status'] ∈ paths

instance (paths : List (List JobStatus)) (status status' : JobStatus) :
    Decidable (Steps paths status status') := by
  unfold Steps
  infer_instance

/-- The only short cuts are from pending to an end. -/
theorem Steps.chain {status status' : JobStatus} (h : Steps forward status status')
    (hcut : status'.ended = true → status ≠ .pending) : Steps chain status status' := by
  revert h hcut
  cases status <;> cases status' <;> decide

theorem OnPath.record {paths : List (List JobStatus)} {history : List JobStatus}
    {now next : Option JobStatus} (h : OnPath paths history now) (hpending : [.pending] ∈ paths)
    (hborn : now = none → ∀ status, next = some status → status = .pending)
    (hlives : ∀ status, now = some status → ∃ status', next = some status' ∧
      Steps paths status status') : OnPath paths (Lib.record history next) next := by
  cases now with
  | none =>
    obtain rfl := h.unborn rfl
    cases next with
    | none => exact ⟨h.onPath, fun _ => rfl, fun _ hsome => by cases hsome⟩
    | some status =>
      obtain rfl := hborn rfl status rfl
      refine ⟨hpending, (fun hnone => by cases hnone), ?_⟩
      intro status hstatus
      exact hstatus
  | some status =>
    obtain ⟨status', rfl, hstep⟩ := hlives status rfl
    have hlast := h.present status rfl
    by_cases hsame : status' = status
    · rw [hsame, record_same fun a ha => (some.inj ha) ▸ hlast]
      exact ⟨h.onPath, (fun hnone => by cases hnone), fun s hs => hlast.trans hs⟩
    · have hnew : history.getLast? ≠ some status' := by
        rw [hlast]
        exact fun heq => hsame (some.inj heq).symm
      rw [record_new hnew]
      refine ⟨hstep.resolve_left hsame history h.onPath hlast, (fun hnone => by cases hnone), ?_⟩
      intro s hs
      rw [getLast?_concat, hs]

namespace JobOp
variable {t : JobTable} {op : JobOp} {j j' : Job}

section
variable (h : op.Effect t j j') (hlive : op.Live t)
include h hlive

/-- A report finds its job active, and no job becomes pending again. -/
theorem Effect.kept_or_active : j.Agrees j' ∨ j.isActive = true ∧ j'.status ≠ .pending := by
  cases h with
  | kept agrees => exact .inl agrees
  | progress isOp tracked status =>
    subst isOp
    exact .inr ⟨hlive j tracked, by rw [status]; decide⟩
  | result isOp tracked status =>
    subst isOp
    exact .inr ⟨hlive.2 j tracked, by rw [status]; exact hlive.1⟩
  | dismissed isOp tracked active status => exact .inr ⟨active, by rw [status]; decide⟩
  | abandoned isOp listed tracked stale status =>
    refine .inr ⟨?_, by rw [status]; decide⟩
    by_contra hended
    rw [Job.staleReason, Bool.not_eq_true _ |>.mp hended] at stale
    exact stale rfl

theorem Effect.forward : Steps Backup.forward j.status j'.status := by
  rcases h.kept_or_active hlive with agrees | ⟨hactive, hstatus⟩
  · exact .inl agrees.status
  · rw [Job.isActive_iff] at hactive
    revert hactive hstatus
    cases j.status <;> cases j'.status <;> decide

/-- A job that has been running before it ends takes no short cut. -/
theorem Effect.chain (hturn : op.InTurn t) : Steps Backup.chain j.status j'.status := by
  have hforward := h.forward hlive
  cases h with
  | kept agrees => exact .inl agrees.status
  | progress isOp tracked status =>
    apply hforward.chain
    intro hended
    rw [status] at hended
    cases hended
  | result isOp tracked status =>
    subst isOp
    exact hforward.chain fun hended => hturn (status ▸ hended) j tracked
  | dismissed isOp tracked active status =>
    subst isOp
    exact hforward.chain fun _ => hturn j tracked
  | abandoned isOp listed tracked stale status =>
    subst isOp
    exact hforward.chain fun _ => hturn _ listed j tracked stale

/-- A job that has ended stays as it is. -/
theorem Effect.settled (hended : j.status.ended = true) : j.Agrees j' := by
  rcases h.kept_or_active hlive with agrees | ⟨hactive, -⟩
  · exact agrees
  · rw [Job.isActive_iff, hended] at hactive
    cases hactive

end

end JobOp

/-! ## The theorem -/

section Runs
variable {zone : Zone} {trace : List (Event JobTable JobOp JobCall)}
  {cfg : Config JobTable JobOp JobOp.Reply JobCall JobResult}

/-- What each step allows holds of the whole history of a job. -/
theorem onPath_of_steps (run : Run (jobSystem zone) (fun _ => True) {} trace cfg)
    (paths : List (List JobStatus)) (hnil : [] ∈ paths) (hpending : [.pending] ∈ paths)
    (hsteps : ∀ e ∈ trace, ∀ j j', e.op.Effect e.before j j' → Steps paths j.status j'.status)
    (p : Nat) : OnPath paths (statusHistory p trace cfg.state) (statusAt p cfg.state) := by
  refine run.evolves (J := fun trace t =>
    (∀ e ∈ trace, ∀ j j', e.op.Effect e.before j j' → Steps paths j.status j'.status) →
      OnPath paths (statusHistory p trace t) (statusAt p t))
    ?_ ?_ hsteps
  · intro _
    exact ⟨hnil, fun _ => rfl, fun status hstatus => by cases hstatus⟩
  · intro trace e _ ih hsteps
    rw [statusHistory, map_append, map_singleton, changes_append]
    have hpast := ih fun e' he' => hsteps e' (mem_append_left _ he')
    refine hpast.record hpending ?_ ?_
    · intro hnone status hstatus
      obtain ⟨j', hj', rfl⟩ := map_eq_some_iff.mp hstatus
      exact JobOp.exec_new (map_eq_none_iff.mp hnone) hj'
    · intro status hstatus
      obtain ⟨j, hj, rfl⟩ := map_eq_some_iff.mp hstatus
      obtain ⟨j', hj', heffect⟩ := JobOp.exec_effect zone e.op hj
      refine ⟨j'.status, map_eq_some_iff.mpr ⟨j', hj', rfl⟩, ?_⟩
      exact hsteps e (mem_append_right _ (mem_singleton_self e)) j j' heffect

/-- A job that has ended is the same ever after. -/
theorem agrees_of_ended (run : Run (jobSystem zone) (fun _ => True) {} trace cfg)
    (hlive : ∀ e ∈ trace, e.op.Live e.before) {e : Event JobTable JobOp JobCall} (he : e ∈ trace)
    {p : Nat} {j : Job} (hj : e.before.heap[p]? = some j) (hended : j.status.ended = true) :
    ∃ j', cfg.state.heap[p]? = some j' ∧ j.Agrees j' := by
  -- the job is looked at before an event and then after each later one
  refine run.evolves (J := fun trace t =>
    (∀ e ∈ trace, e.op.Live e.before) → ∀ e ∈ trace, ∀ j, e.before.heap[p]? = some j →
      j.status.ended = true → ∃ j', t.heap[p]? = some j' ∧ j.Agrees j')
    ?_ ?_ hlive e he j hj hended
  · intro _ e he
    cases he
  · intro trace e _ ih hlive e' he' j hj hended
    have hlast := hlive e (mem_append_right _ (mem_singleton_self e))
    rcases mem_append.mp he' with hpast | hnow
    · obtain ⟨mid, hmid, hagrees⟩ :=
        ih (fun e' he' => hlive e' (mem_append_left _ he')) e' hpast j hj hended
      obtain ⟨j', hj', heffect⟩ := JobOp.exec_effect zone e.op hmid
      exact ⟨j', hj', hagrees.trans (heffect.settled hlast (hagrees.status ▸ hended))⟩
    · obtain rfl := mem_singleton.mp hnow
      obtain ⟨j', hj', heffect⟩ := JobOp.exec_effect zone e'.op hj
      exact ⟨j', hj', heffect.settled hlast hended⟩

/-- As long as progress and results are reported about active jobs, every job only moves forward
and keeps the way it ended; if moreover no job ends while it is pending, it goes through all three
stages. -/
theorem jobs_move_forward (run : Run (jobSystem zone) (fun _ => True) {} trace cfg)
    (hlive : ∀ e ∈ trace, e.op.Live e.before) :
    (∀ p, statusHistory p trace cfg.state ∈ forward) ∧
      ((∀ e ∈ trace, e.op.InTurn e.before) → ∀ p, statusHistory p trace cfg.state ∈ chain) ∧
      ∀ e ∈ trace, ∀ (p : Nat) (j : Job), e.before.heap[p]? = some j → j.status.ended = true →
        ∃ j', cfg.state.heap[p]? = some j' ∧ j.Agrees j' := by
  refine ⟨?_, ?_, ?_⟩
  · intro p
    have hpath := onPath_of_steps run forward (by decide) (by decide)
      (fun e he j j' heffect => heffect.forward (hlive e he)) p
    exact hpath.onPath
  · intro hturn p
    have hpath := onPath_of_steps run chain (by decide) (by decide)
      (fun e he j j' heffect => heffect.chain (hlive e he) (hturn e he)) p
    exact hpath.onPath
  · intro e he p j hj hended
    exact agrees_of_ended run hlive he hj hended

end Runs

/-- A job that runs to its end under reports of its own. -/
def calmCalls : List JobCall :=
  let id := newJobId utc (ascii "files") 0
  [.newJob (ascii "files") [] 0, .updateJobProgress id ⟨.files, 20, ascii "tar", 0, 0, []⟩ 1,
    .setJob id .done (ascii "ok") 2, .dismissJob id [] 3, .listActiveJobs 4]

theorem jobs_move_forward_calm :
    statusHistory 0 (Run.serialRun (jobSystem utc) {} calmCalls).1
      (Run.serialRun (jobSystem utc) {} calmCalls).2.state ∈ chain := by
  have hrun : Run (jobSystem utc) (fun _ => True) {} (Run.serialRun (jobSystem utc) {} calmCalls).1
      (Run.serialRun (jobSystem utc) {} calmCalls).2 :=
    Run.serialRun_run calmCalls (fun _ _ => trivial) (by decide +kernel)
  have hlive : ∀ e ∈ (Run.serialRun (jobSystem utc) {} calmCalls).1, e.op.Live e.before := by
    decide +kernel
  have hturn : ∀ e ∈ (Run.serialRun (jobSystem utc) {} calmCalls).1, e.op.InTurn e.before := by
    decide +kernel
  exact (jobs_move_forward hrun hlive).2.1 hturn 0

/-- A user dismisses a job whose worker is still at it: the worker's next report and its result
bring the job back. -/
def dismissedCalls : List JobCall :=
  let id := newJobId utc (ascii "files") 0
  [.newJob (ascii "files") [] 0, .updateJobProgress id ⟨.files, 20, ascii "tar", 0, 0, []⟩ 1,
    .dismissJob id [] 2, .updateJobProgress id ⟨.files, 30, ascii "tar", 0, 0, []⟩ 3,
    .setJob id .done (ascii "ok") 4]

theorem dismissed_job_comes_back :
    Run (jobSystem utc) (fun _ => True) {} (Run.serialRun (jobSystem utc) {} dismissedCalls).1
        (Run.serialRun (jobSystem utc) {} dismissedCalls).2 ∧
      statusHistory 0 (Run.serialRun (jobSystem utc) {} dismissedCalls).1
        (Run.serialRun (jobSystem utc) {} dismissedCalls).2.state =
          [.pending, .running, .failed, .running, .done] := by
  constructor
  · exact Run.serialRun_run dismissedCalls (fun _ _ => trivial) (by decide +kernel)
  · decide +kernel

end HeyServer.Backup
