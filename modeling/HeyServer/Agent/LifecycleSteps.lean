import HeyServer.Agent.ProfileLifecycle

/-!
# What the programs on a node can do

For each program the operations it issues, and for each operation what it can do
to the running process and to the files.
-/

namespace HeyServer.Agent
open Lib Hub Option

theorem issues_issue {P : NodeOp → Prop} (op : NodeOp) (h : P op) : (issue op).Issues P :=
  ⟨h, fun _ => trivial⟩

/-! ## The installer -/

namespace Installer

/-- The operations of an installer run with this snapshot and this new active file. -/
def Installs (snapshot : Snapshot) (canonical : Bytes) : NodeOp → Prop
  | .read .installer _ | .readUnit | .writeUnit _ | .isActive | .restart | .stop => True
  | .write .installer .active data => data = canonical ∨ snapshot.files .active = some data
  | .write .installer .candidate data => snapshot.files .candidate = some data
  | .write .installer _ _ => True
  | .remove .active => snapshot.files .active = none
  | .remove _ => True
  | _ => False

variable {snapshot : Snapshot} {canonical : Bytes} (faults : Fault → Bool) {P : NodeOp → Prop}

theorem issues_writeFile {fault : Fault} {file : ProfileFile}
    {data : Option Bytes} (h : ∀ d ∈ data, P (.write .installer file d)) :
    (writeFile faults fault file data).Issues P := by
  unfold writeFile
  split_ifs
  · trivial
  · cases data with
    | none => trivial
    | some data => exact (issues_issue _ (h data rfl)).bind fun _ => trivial

theorem issues_systemctlRestart (fails down : Fault) :
    (systemctlRestart faults fails down).Issues (Installs snapshot canonical) := by
  rw [systemctlRestart]
  split_ifs
  · exact (issues_issue .stop trivial).bind fun _ => trivial
  · trivial
  · exact (issues_issue .restart trivial).bind fun _ => trivial

theorem issues_restoreFile (file : ProfileFile) :
    (restoreFile faults snapshot file).Issues (Installs snapshot canonical) := by
  rw [restoreFile]
  split_ifs
  · trivial
  · cases hdata : snapshot.files file with
    | none =>
      apply issues_issue
      cases file <;> first | exact hdata | trivial
    | some data =>
      apply issues_issue
      cases file <;> first | exact hdata | exact .inr hdata | trivial

theorem issues_restoreFiles (files : List ProfileFile) :
    (restoreFiles faults snapshot files).Issues (Installs snapshot canonical) := by
  induction files with
  | nil => trivial
  | cons file files ih => exact (issues_restoreFile faults file).bind fun _ => ih

theorem issues_rollback : (rollback faults (some snapshot)).Issues
    (Installs snapshot canonical) := by
  have hunit : (restoreUnit faults snapshot.unit).Issues (Installs snapshot canonical) := by
    cases snapshot.unit with
    | none => trivial
    | some unit =>
      rw [restoreUnit]
      split_ifs
      · trivial
      · exact issues_issue _ trivial
  have hservice : (restoreService faults snapshot).Issues (Installs snapshot canonical) := by
    rw [restoreService]
    split_ifs
    · exact (issues_systemctlRestart faults _ _).bind fun _ => trivial
    · trivial
    · exact issues_issue _ trivial
  exact (hunit.bind fun _ => issues_restoreFiles faults _).bind fun _ => hservice

theorem issues_recordFailure (hwrite : ∀ data, P (.write .installer .state data))
    (code : ProfileErrorCode) (revision : Bytes) :
      (recordFailure faults code revision).Issues P := by
  rw [recordFailure]
  split_ifs
  · trivial
  · exact issues_writeFile faults fun data _ => hwrite data

theorem issues_profileApplyFail (code : ProfileErrorCode) (revision : Option Int) :
    (profileApplyFail faults code revision (some snapshot)).Issues
    (Installs snapshot canonical) := by
  refine (issues_issue (.read .installer .state) trivial).bind fun _ => ?_
  refine (issues_rollback faults).bind fun _ => ?_
  exact (issues_recordFailure faults (fun _ => trivial) _ _).bind fun _ => trivial

/-- A failure before the transaction only writes the state file. -/
theorem issues_profileApplyFail_none (hread : P (.read .installer .state))
    (hwrite : ∀ data, P (.write .installer .state data)) (code : ProfileErrorCode)
    (revision : Option Int) : (profileApplyFail faults code revision none).Issues P := by
  refine (issues_issue _ hread).bind fun _ => ?_
  exact (issues_recordFailure faults hwrite _ _).bind fun _ => trivial

theorem issues_profileActiveChecks (rounds stable : Nat) :
    (profileActiveChecks rounds stable).Issues (Installs snapshot canonical) := by
  induction rounds generalizing stable with
  | zero => trivial
  | succ rounds ih =>
    refine (issues_issue .isActive trivial).bind fun active => ?_
    split_ifs
    · trivial
    · exact ih _
    · exact ih _

theorem issues_restartService (env : Env) (profile : AgentProfile) :
    (restartService env faults profile).Issues (Installs snapshot canonical) := by
  refine (issues_issue .readUnit trivial).bind fun unit => ?_
  refine (issues_issue _ trivial).bind fun _ => ?_
  split_ifs
  · trivial
  · refine (issues_systemctlRestart faults _ _).bind fun restarted => ?_
    split_ifs
    · trivial
    · exact issues_profileActiveChecks _ _

variable {candidate : Candidate}

theorem issues_publishProfile : (publishProfile faults candidate snapshot).Issues
      (Installs snapshot candidate.canonical) := by
  have hwrite : (writeFile faults .writeActive .active (some candidate.canonical)).Issues
      (Installs snapshot candidate.canonical) :=
    issues_writeFile faults fun _ h => .inl (some.inj h).symm
  have hkeep : (keepPrevious faults (snapshot.files .active)).Issues
      (Installs snapshot candidate.canonical) := by
    cases snapshot.files .active with
    | none => trivial
    | some data =>
      rw [keepPrevious]
      exact issues_writeFile faults fun _ _ => trivial
  have hremove : (removeCandidate faults).Issues (Installs snapshot candidate.canonical) := by
    rw [removeCandidate]
    split_ifs
    · trivial
    · exact issues_issue _ trivial
  refine hwrite.bind fun published => ?_
  split_ifs
  · exact issues_profileApplyFail faults _ _
  refine hkeep.bind fun saved => ?_
  split_ifs
  · exact issues_profileApplyFail faults _ _
  refine (issues_writeFile faults fun _ _ => trivial).bind fun recorded => ?_
  split_ifs
  · exact issues_profileApplyFail faults _ _
  · exact hremove.bind fun _ => trivial

theorem issues_installUnit (env : Env) : (installUnit env faults candidate snapshot).Issues
      (Installs snapshot candidate.canonical) := by
  rw [installUnit]
  split_ifs
  · exact issues_profileApplyFail faults _ _
  · exact issues_profileApplyFail faults _ _
  refine (issues_writeFile faults fun _ _ => trivial).bind fun recorded => ?_
  split_ifs
  · exact issues_profileApplyFail faults _ _
  refine (issues_restartService faults env _).bind fun stable => ?_
  split_ifs
  · exact issues_profileApplyFail faults _ _
  · exact issues_publishProfile faults

section Snapshot
variable {P : NodeOp → Prop} (hread : ∀ file, P (.read .installer file))
include hread

/-- Before the transaction the installer only reads. -/
theorem issues_snapshotFiles (copied : Snapshot) (files : List ProfileFile) :
    (snapshotFiles faults copied files).Issues P := by
  induction files generalizing copied with
  | nil => trivial
  | cons file files ih =>
    refine (issues_issue _ (hread file)).bind fun data => ?_
    cases data with
    | none => exact ih copied
    | some data =>
      split_ifs
      · trivial
      · exact ih _

theorem issues_profileSnapshotTransaction (hunit : P .readUnit) (hactive : P .isActive) :
    (profileSnapshotTransaction faults).Issues P := by
  rw [profileSnapshotTransaction]
  split_ifs
  · trivial
  · trivial
  · refine (issues_issue _ hunit).bind fun unit => ?_
    refine (issues_snapshotFiles faults hread _ _).bind fun result => ?_
    dsimp only
    split_ifs
    · trivial
    · exact (issues_issue _ hactive).bind fun _ => trivial

end Snapshot

end Installer

/-- The operations of some installer run. -/
def Installer.Acts (op : NodeOp) : Prop := ∃ snapshot canonical, Installs snapshot canonical op

theorem Installer.issues_applyProfile (env : Env) (faults : Fault → Bool) :
    (applyProfile env faults).Issues Acts := by
  have hacts : ∀ {α : Type} {p : NodeM α} {snapshot : Snapshot} {canonical : Bytes},
      p.Issues (Installs snapshot canonical) → p.Issues Acts :=
    fun h => h.mono fun _ hop => ⟨_, _, hop⟩
  have hnone : ∀ code revision, (profileApplyFail faults code revision none).Issues Acts :=
    fun code revision => issues_profileApplyFail_none faults ⟨.empty, [], trivial⟩
      (fun _ => ⟨.empty, [], trivial⟩) code revision
  rw [applyProfile]
  split_ifs
  · exact hnone _ _
  · exact hnone _ _
  refine (issues_issue (.read .installer .candidate) ⟨.empty, [], trivial⟩).bind
    fun file => ?_
  cases profileParseCandidate env faults file with
  | error failure => exact hnone _ _
  | ok candidate =>
    have hsnapshot : (profileSnapshotTransaction faults).Issues (Installs .empty []) :=
      issues_profileSnapshotTransaction faults (fun _ => trivial) trivial trivial
    refine (hacts hsnapshot).bind ?_
    rintro ⟨transaction, copied⟩
    cases transaction with
    | none => exact hnone _ _
    | some snapshot =>
      cases copied with
      | true => exact hacts (issues_installUnit faults env)
      | false =>
        have hfail : (profileApplyFail faults .corrupt (some candidate.revision)
            (some snapshot)).Issues (Installs snapshot candidate.canonical) :=
          issues_profileApplyFail faults _ _
        exact hacts hfail

/-- The operations that neither configure the agent nor send for it. -/
def NodeOp.Quiet : NodeOp → Prop
  | .configure _ _ | .send _ _ => False
  | _ => True

theorem Installer.Acts.quiet {op : NodeOp} (h : Acts op) : op.Quiet := by
  obtain ⟨snapshot, canonical, h⟩ := h
  cases op with
  | configure | send => exact h
  | _ => trivial

/-! ## The agent's `apply` -/

/-- The operations of an `apply` for this wrapper: it never writes the active file. -/
def Stages (pid : Nat) (wrapper : ProfileWrapper) : NodeOp → Prop
  | .read (.agent owner) _ => owner = pid
  | .write (.agent owner) .candidate data =>
    owner = pid ∧ marshalProfileWrapper wrapper = .ok data
  | .write (.agent _) .active _ => False
  | .write (.agent owner) _ _ => owner = pid
  | .schedule owner revision => owner = pid ∧ revision = wrapper.revision
  | _ => False

section Apply
variable {pid : Nat} {wrapper : ProfileWrapper}

theorem issues_writeAtomicProfileFile {P : NodeOp → Prop} {file : ProfileFile}
    {data : Option Bytes} (fate : WriteFate) (h : ∀ d ∈ data, P (.write (.agent pid) file d)) :
    (writeAtomicProfileFile pid file data fate).Issues P := by
  cases fate with
  | lost => trivial
  | done | unsynced =>
    cases data with
    | none => trivial
    | some data => exact (issues_issue _ (h data rfl)).bind fun _ => trivial

theorem issues_scheduleProfileApply (faults : ApplyFaults) :
    (scheduleProfileApply pid wrapper.revision faults).Issues (Stages pid wrapper) := by
  rw [scheduleProfileApply]
  split_ifs
  · exact (issues_issue (.schedule pid wrapper.revision) ⟨rfl, rfl⟩).bind fun _ => trivial
  · exact (issues_writeAtomicProfileFile _ fun _ _ => rfl).bind fun _ => trivial

theorem issues_stageProfile (active : Option ProfileWrapper) (faults : ApplyFaults) :
    (stageProfile pid wrapper active faults).Issues (Stages pid wrapper) := by
  have hprevious : (savePrevious pid faults.previous active).Issues (Stages pid wrapper) := by
    cases active with
    | none => trivial
    | some active =>
      rw [savePrevious, writeWrapper]
      exact issues_writeAtomicProfileFile _ fun _ _ => rfl
  have hcandidate : (writeWrapper pid .candidate wrapper faults.candidate).Issues
      (Stages pid wrapper) := by
    refine issues_writeAtomicProfileFile _ fun data hdata => ⟨rfl, ?_⟩
    cases hmarshal : marshalProfileWrapper wrapper with
    | error e =>
      rw [hmarshal] at hdata
      cases hdata
    | ok text =>
      rw [hmarshal] at hdata
      rw [some.inj hdata]
  rw [stageProfile]
  split_ifs
  · trivial
  refine hprevious.bind fun saved => ?_
  split_ifs
  · trivial
  refine hcandidate.bind fun staged => ?_
  split_ifs
  · trivial
  refine (issues_writeAtomicProfileFile _ fun _ _ => rfl).bind fun recorded => ?_
  split_ifs
  · trivial
  · exact issues_scheduleProfileApply faults

end Apply

theorem issues_apply (pid : Nat) (payload : StrMap) (faults : ApplyFaults) :
    (apply pid payload faults).Issues NodeOp.Quiet := by
  have hquiet : ∀ {wrapper : ProfileWrapper} {op : NodeOp}, Stages pid wrapper op → op.Quiet := by
    intro wrapper op h
    cases op with
    | configure | send => exact h
    | _ => trivial
  unfold apply
  cases decodeProfileTaskPayload payload with
  | error code => trivial
  | ok wrapper =>
    split_ifs
    · trivial
    refine (issues_issue (.read (.agent pid) .active) trivial).bind fun activeFile => ?_
    cases readWrapper activeFile with
    | error e => trivial
    | ok active =>
      refine (issues_issue (.read (.agent pid) .state) trivial).bind fun stateFile => ?_
      cases readState stateFile with
      | error e => trivial
      | ok state =>
        cases hshort : applyShortcut wrapper active state with
        | some result =>
          simp only [hshort]
          trivial
        | none =>
          simp only [hshort]
          exact (issues_stageProfile active faults).mono fun _ => hquiet

/-! ## Processes -/

namespace Node

/-- What an operation does to the running process: it stays, is gone, or is a new one. -/
inductive ProcessStep (node next : Node) : Prop
  | kept (hpid : next.agent.map Process.pid = node.agent.map Process.pid)
      (hnext : next.nextPid = node.nextPid)
  | gone (hagent : next.agent = none) (hnext : next.nextPid = node.nextPid)
  | spawned (hagent : next.agent = some ⟨node.nextPid, none⟩)
      (hnext : next.nextPid = node.nextPid + 1)

theorem exec_processStep (node : Node) (op : NodeOp) : ProcessStep node (node.exec op).1 := by
  cases op with
  | start | restart => exact .spawned rfl rfl
  | stop => exact .gone rfl rfl
  | configure pid config =>
    refine .kept ?_ rfl
    change (node.agent.map _).map _ = _
    rw [map_map]
    rfl
  | _ => exact .kept rfl rfl

theorem runs_iff {node : Node} {pid : Nat} :
    node.runs pid = true ↔ node.agent.map Process.pid = some pid := by
  rw [runs]
  cases node.agent <;> simp

end Node

end HeyServer.Agent
