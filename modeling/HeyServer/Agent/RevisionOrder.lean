import HeyServer.Agent.LifecycleSteps

/-!
# The order of revisions on a node

Calls that run one after the other: the agent's `apply` with any payload and any
failed step, and whole runs of the installer that succeed or roll back. The
active revision only grows as long as no installer run fails while it copies the
files it may have to put back; a rollback from an incomplete copy removes the
active file.

## Implementation notes

`FilesStep` says what one call can do to the candidate and the active file, and the
order of the revisions follows from it alone.
-/

namespace HeyServer.Agent
open Lib Hub List Option Function Prog Except Node

namespace Node

/-- The revision of a readable active file. -/
def activeRevision (node : Node) : Option Int :=
  match readWrapper (node.files .active) with
  | .ok (some wrapper) => some wrapper.revision
  | _ => none

/-- The state file says that this revision waits for a restart. -/
def Pending (node : Node) (revision : Int) : Prop :=
  ∃ document, readState (node.files .state) = .ok (some document) ∧
    document.state = .pendingRestart ∧ document.revision = revision

theorem activeRevision_eq_some {node : Node} {r : Int} : node.activeRevision = some r ↔
      ∃ wrapper, readWrapper (node.files .active) = .ok (some wrapper) ∧ wrapper.revision = r := by
  rw [activeRevision]
  split
  · rename_i wrapper h
    simp [h]
  · rename_i h
    constructor
    · intro h
      cases h
    · rintro ⟨wrapper, hwrapper, -⟩
      exact (h wrapper hwrapper).elim

/-- Both files hold profiles, and the candidate is not older than the active profile. -/
structure Ordered (node : Node) : Prop where
  active : ∀ data, node.files .active = some data →
    ∃ wrapper, decodeProfileWrapper data = .ok wrapper
  candidate : ∀ data, node.files .candidate = some data →
    ∃ wrapper, decodeProfileWrapper data = .ok wrapper ∧
      ∀ r, node.activeRevision = some r → r ≤ wrapper.revision

theorem fresh_ordered (unit : Bytes) : (fresh unit).Ordered :=
  ⟨nofun, nofun⟩

/-- What one call does to the candidate and the active file. -/
inductive FilesStep (node next : Node) : Prop
  | kept (active : next.files .active = node.files .active)
      (candidate : next.files .candidate = node.files .candidate ∨ next.files .candidate = none)
  | staged (active : next.files .active = node.files .active) (data : Bytes)
      (wrapper : ProfileWrapper) (candidate : next.files .candidate = some data)
      (decoded : decodeProfileWrapper data = .ok wrapper)
      (newer : ∀ r, node.activeRevision = some r → r < wrapper.revision)
  | installed (data : Bytes) (source : node.files .candidate = some data)
      (active : next.files .active = some data)
      (candidate : next.files .candidate = node.files .candidate ∨ next.files .candidate = none)

variable {node next : Node}

theorem activeRevision_congr (h : next.files .active = node.files .active) :
    next.activeRevision = node.activeRevision := by
  rw [activeRevision, activeRevision, h]

theorem activeRevision_of_decoded {node : Node} {data : Bytes} {wrapper : ProfileWrapper}
    (hfile : node.files .active = some data) (hdecode : decodeProfileWrapper data = .ok wrapper) :
    node.activeRevision = some wrapper.revision :=
  activeRevision_eq_some.mpr ⟨wrapper, readWrapper_eq_ok.mpr ⟨data, hfile, hdecode⟩, rfl⟩

theorem FilesStep.ordered (hstep : FilesStep node next) (h : node.Ordered) : next.Ordered := by
  cases hstep with
  | kept hactive hcandidate =>
    refine ⟨hactive ▸ h.active, ?_⟩
    rw [activeRevision_congr hactive]
    rcases hcandidate with hcandidate | hcandidate
    · exact hcandidate ▸ h.candidate
    · intro data hdata
      cases hcandidate.symm.trans hdata
  | staged hactive data wrapper hcandidate hdecode hnewer =>
    refine ⟨hactive ▸ h.active, ?_⟩
    intro data' hdata'
    cases hcandidate.symm.trans hdata'
    refine ⟨wrapper, hdecode, ?_⟩
    rw [activeRevision_congr hactive]
    exact fun r hr => Int.le_of_lt (hnewer r hr)
  | installed data hsource hactive hcandidate =>
    obtain ⟨wrapper, hdecode, -⟩ := h.candidate data hsource
    refine ⟨?_, ?_⟩
    · intro data' hdata'
      cases hactive.symm.trans hdata'
      exact ⟨wrapper, hdecode⟩
    · intro data' hdata'
      -- the candidate, if it is still there, is the new active profile
      rcases hcandidate with hcandidate | hcandidate
      · obtain rfl : data = data' := by
          rw [hcandidate, hsource] at hdata'
          exact some.inj hdata'
        refine ⟨wrapper, hdecode, ?_⟩
        intro r hr
        rw [activeRevision_of_decoded hactive hdecode] at hr
        exact (some.inj hr).ge
      · cases hcandidate.symm.trans hdata'

theorem FilesStep.advances (hstep : FilesStep node next) (h : node.Ordered)
    {r : Int} (hr : node.activeRevision = some r) :
      ∃ r', next.activeRevision = some r' ∧ r ≤ r' := by
  cases hstep with
  | kept hactive | staged hactive => exact ⟨r, (activeRevision_congr hactive).trans hr, le_rfl⟩
  | installed data hsource hactive =>
    obtain ⟨wrapper, hdecode, hle⟩ := h.candidate data hsource
    exact ⟨wrapper.revision, activeRevision_of_decoded hactive hdecode, hle r hr⟩

end Node

/-! ## The installer -/

/-- The operations that leave the candidate and the active file alone. -/
def NodeOp.Spares : NodeOp → Prop
  | .write _ file _ | .remove file => file ≠ .active ∧ file ≠ .candidate
  | _ => True

@[simp] theorem Node.setFile_files_self (node : Node) (file : ProfileFile) (data : Option Bytes) :
    (node.setFile file data).files file = data := by
  simp [setFile]

variable {node : Node} {wrapper : ProfileWrapper} {payload : StrMap}

theorem Node.setFile_files_ne {file other : ProfileFile} {data : Option Bytes}
    (h : file ≠ other) : (node.setFile file data).files other = node.files other :=
  update_of_ne h.symm _ _

theorem Node.exec_spares (node : Node) {op : NodeOp} (h : op.Spares) :
    (node.exec op).1.files .active = node.files .active ∧
      (node.exec op).1.files .candidate = node.files .candidate := by
  cases op with
  | write | remove => exact ⟨setFile_files_ne h.1, setFile_files_ne h.2⟩
  | _ => exact ⟨rfl, rfl⟩

theorem run_spares {α : Type} {p : NodeM α} (hp : p.Issues NodeOp.Spares) (node : Node) :
    (p.run nodeSemantics node).1.files .active = node.files .active ∧
      (p.run nodeSemantics node).1.files .candidate = node.files .candidate := by
  refine hp.run_inv (I := fun s : Node => s.files .active = node.files .active ∧
    s.files .candidate = node.files .candidate) ?_ ⟨rfl, rfl⟩
  intro s op hop hs
  have hexec := s.exec_spares hop
  exact ⟨hexec.1.trans hs.1, hexec.2.trans hs.2⟩

namespace Installer

/-- The candidate and the active file in the course of a run: as before, removed, or the new
profile. -/
def Halfway (node : Node) (canonical : Bytes) (s : Node) : Prop :=
  (s.files .active = node.files .active ∨ s.files .active = some canonical) ∧
    (s.files .candidate = node.files .candidate ∨ s.files .candidate = none)

variable {node : Node} {faults : Fault → Bool}

theorem Installs.halfway {snapshot : Snapshot} {canonical : Bytes} {s : Node} {op : NodeOp}
    (hactive : snapshot.files .active = node.files .active)
    (hcandidate : snapshot.files .candidate = node.files .candidate)
    (hop : Installs snapshot canonical op) (hs : Halfway node canonical s) :
    Halfway node canonical (s.exec op).1 := by
  have hspares : op.Spares → Halfway node canonical (s.exec op).1 := by
    intro h
    obtain ⟨ha, hc⟩ := s.exec_spares h
    exact ⟨ha ▸ hs.1, hc ▸ hs.2⟩
  have hcandidateKept : ∀ data, (s.setFile .active data).files .candidate = s.files .candidate :=
    fun data => setFile_files_ne nofun
  have hactiveKept : ∀ data, (s.setFile .candidate data).files .active = s.files .active :=
    fun data => setFile_files_ne nofun
  cases op with
  | write actor file data =>
    cases actor with
    | agent pid => exact hop.elim
    | installer =>
      cases file with
      | active =>
        refine ⟨?_, (hcandidateKept _).symm ▸ hs.2⟩
        rcases hop with rfl | hop
        · exact .inr (s.setFile_files_self _ _)
        · exact .inl ((s.setFile_files_self _ _).trans (hop.symm.trans hactive))
      | candidate =>
        refine ⟨(hactiveKept _).symm ▸ hs.1, .inl ?_⟩
        exact (s.setFile_files_self _ _).trans (Eq.trans (Eq.symm hop) hcandidate)
      | previous | state => exact hspares ⟨nofun, nofun⟩
  | remove file =>
    cases file with
    | active =>
      refine ⟨.inl ?_, (hcandidateKept _).symm ▸ hs.2⟩
      exact (s.setFile_files_self _ _).trans (Eq.trans (Eq.symm hop) hactive)
    | candidate => exact ⟨(hactiveKept _).symm ▸ hs.1, .inr (s.setFile_files_self _ _)⟩
    | previous | state => exact hspares ⟨nofun, nofun⟩
  | _ => exact hspares trivial

/-- The copies of the unit, the candidate and the active file do not fail. -/
def Copies (faults : Fault → Bool) : Prop :=
  faults .transactionOwner = false ∧ faults .snapshotUnit = false ∧
    faults (.snapshot .candidate) = false ∧ faults (.snapshot .active) = false

instance (faults : Fault → Bool) : Decidable (Copies faults) :=
  inferInstanceAs (Decidable (_ ∧ _))

theorem snapshotFiles_run (faults : Fault → Bool) (snapshot : Snapshot) (file : ProfileFile)
    (rest : List ProfileFile) (node : Node) :
    (snapshotFiles faults snapshot (file :: rest)).run nodeSemantics node =
      match node.files file with
      | none => (snapshotFiles faults snapshot rest).run nodeSemantics node
      | some data => if faults (.snapshot file) then (node, snapshot, false)
        else (snapshotFiles faults { snapshot with
          files := Function.update snapshot.files file (some data) } rest).run
          nodeSemantics node := by
  rw [snapshotFiles, readFile, issue, perform_bind, run_call]
  change run nodeSemantics (match node.files file with | none => _ | some data => _) node = _
  cases node.files file with
  | none => rfl
  | some data =>
    split_ifs <;> rfl

theorem snapshotFiles_cons_run {file : ProfileFile}
    (hfault : faults (.snapshot file) = false) {snapshot : Snapshot}
    (hnone : snapshot.files file = none) (rest : List ProfileFile) (node : Node) :
    (snapshotFiles faults snapshot (file :: rest)).run nodeSemantics node =
      (snapshotFiles faults { snapshot with
        files := Function.update snapshot.files file (node.files file) } rest).run
        nodeSemantics node := by
  rw [snapshotFiles_run]
  cases node.files file with
  | none =>
    have hsame : update snapshot.files file none = snapshot.files := by
      rw [← hnone, update_eq_self]
    rw [hsame]
  | some data => simp [hfault]

/-- Copying the other files only reads, and leaves the copies made before. -/
theorem snapshotFiles_run_of_notMem {file : ProfileFile} (node : Node)
    {files : List ProfileFile} (hfile : file ∉ files) (snapshot : Snapshot) :
    ((snapshotFiles faults snapshot files).run nodeSemantics node).2.1.files file =
      snapshot.files file := by
  induction files generalizing snapshot with
  | nil => rfl
  | cons next files ih =>
    rw [mem_cons, not_or] at hfile
    rw [snapshotFiles_run]
    cases node.files next with
    | none => exact ih hfile.2 snapshot
    | some data =>
      split_ifs
      · rfl
      · rw [ih hfile.2]
        exact update_of_ne hfile.1 _ _

/-- The operations that change nothing. -/
def Reads : NodeOp → Prop
  | .read _ _ | .readUnit | .isActive => True
  | _ => False

theorem run_reads {α : Type} {p : NodeM α} (hp : p.Issues Reads) (node : Node) :
    (p.run nodeSemantics node).1 = node := by
  refine hp.run_inv (I := fun s => s = node) ?_ rfl
  intro s op hop hs
  cases op with
  | read | readUnit | isActive => exact hs
  | _ => exact hop.elim

theorem snapshotFiles_profileNames (hcopies : Copies faults) (unit : Option Bytes) (node : Node) :
    let copy := ((snapshotFiles faults ⟨unit, fun _ => none, false⟩ profileNames).run
      nodeSemantics node).2.1
    copy.files .active = node.files .active ∧ copy.files .candidate = node.files .candidate := by
  obtain ⟨-, -, hcandidate, hactive⟩ := hcopies
  rw [profileNames, snapshotFiles_cons_run hcandidate rfl, snapshotFiles_cons_run hactive rfl]
  dsimp only
  rw [snapshotFiles_run_of_notMem node (by decide), snapshotFiles_run_of_notMem node (by decide)]
  simp

/-- Without a failed copy the snapshot, if there is one, has the candidate and the active
file of the node. -/
theorem profileSnapshotTransaction_files (hcopies : Copies faults) (node : Node) :
    ∀ snapshot ∈ ((profileSnapshotTransaction faults).run nodeSemantics node).2.1,
      snapshot.files .active = node.files .active ∧
        snapshot.files .candidate = node.files .candidate := by
  rw [profileSnapshotTransaction]
  split
  · intro snapshot hsnapshot
    cases hsnapshot
  have hcopied := snapshotFiles_profileNames hcopies (some node.unit) node
  rw [if_neg (by simp [hcopies.1, hcopies.2.1]), issue, perform_bind, run_call, run_bind]
  -- the copies are the same whether or not the remaining files could be copied
  intro snapshot hsnapshot
  dsimp only at hsnapshot
  split_ifs at hsnapshot
  all_goals
    cases hsnapshot
    exact hcopied

variable {candidate : Candidate}

theorem profileParseCandidate_eq_ok {env : Env} {file : Option Bytes}
    (h : profileParseCandidate env faults file = .ok candidate) :
    ∃ data, file = some data ∧ validateCandidate env.host data = .ok candidate := by
  cases file with
  | none => cases h
  | some data =>
    refine ⟨data, rfl, ?_⟩
    obtain ⟨-, h⟩ := ite_error_eq_ok.mp h
    obtain ⟨-, h⟩ := ite_error_eq_ok.mp h
    obtain ⟨-, h⟩ := ite_error_eq_ok.mp h
    split at h
    · cases h
    · next hvalid =>
      obtain ⟨-, h⟩ := ite_error_eq_ok.mp h
      obtain ⟨-, h⟩ := ite_error_eq_ok.mp h
      obtain ⟨-, h⟩ := ite_error_eq_ok.mp h
      rw [hvalid, ok.inj h]

/-- What the installer publishes is the candidate file as the agent wrote it. -/
theorem candidate_canonical {env : Env} (hordered : node.Ordered)
    (h : profileParseCandidate env faults (node.files .candidate) = .ok candidate) :
    ∃ data, node.files .candidate = some data ∧ candidate.canonical = data := by
  obtain ⟨data, hdata, hvalid⟩ := profileParseCandidate_eq_ok h
  obtain ⟨wrapper, hdecode, -⟩ := hordered.candidate data hdata
  obtain ⟨hshape, hnormal, hrevision, hmarshal, -⟩ :=
    (decodeProfileApplyDocument_ok_iff _ _).mp ((decodeProfileWrapper_ok_iff _ _).mp hdecode)
  rw [hmarshal, hshape] at hvalid
  obtain ⟨rfl, -⟩ := validateCandidate_document hnormal hvalid
  exact ⟨data, hdata, (hmarshal.trans (congrArg _ hshape)).symm⟩

/-- A run whose copies do not fail keeps the active file or replaces it by the candidate. -/
theorem applyProfile_filesStep (env : Env) (hcopies : Copies faults) (hordered : node.Ordered) :
    node.FilesStep ((applyProfile env faults).run nodeSemantics node).1 := by
  have hnone : ∀ code revision,
      node.FilesStep ((profileApplyFail faults code revision none).run nodeSemantics node).1 := by
    intro code revision
    have hspares := run_spares (issues_profileApplyFail_none faults (P := NodeOp.Spares) trivial
      (fun _ => ⟨by decide, by decide⟩) code revision) node
    exact .kept hspares.1 (.inl hspares.2)
  rw [applyProfile]
  split_ifs
  · exact hnone _ _
  · exact hnone _ _
  have hread : nodeSemantics.exec node (.read .installer .candidate) =
      (node, node.files .candidate) := rfl
  rw [readFile, issue, perform_bind, run_call, hread]
  cases hparse : profileParseCandidate env faults (node.files .candidate) with
  | error failure => exact hnone _ _
  | ok candidate =>
    rw [run_bind, run_reads
      (issues_profileSnapshotTransaction faults (fun _ => trivial) trivial trivial)]
    have hfiles := profileSnapshotTransaction_files hcopies node
    generalize ((profileSnapshotTransaction faults).run nodeSemantics node).2 = result at hfiles
    obtain ⟨transaction, copied⟩ := result
    cases transaction with
    | none => exact hnone _ _
    | some snapshot =>
      obtain ⟨hactive, hcandidate⟩ := hfiles snapshot rfl
      have hinstalls : ∀ p : NodeM Bool, p.Issues (Installs snapshot candidate.canonical) →
          Halfway node candidate.canonical (p.run nodeSemantics node).1 :=
        fun p hp => hp.run_inv (I := Halfway node candidate.canonical)
          (fun s op hop hs => hop.halfway hactive hcandidate hs) ⟨.inl rfl, .inl rfl⟩
      obtain ⟨data, hdata, hcanonical⟩ := candidate_canonical hordered hparse
      have hstep : ∀ p : NodeM Bool, p.Issues (Installs snapshot candidate.canonical) →
          node.FilesStep (p.run nodeSemantics node).1 := by
        intro p hp
        obtain ⟨hnew | hnew, hold⟩ := hinstalls p hp
        · exact .kept hnew hold
        · exact .installed data hdata (hcanonical ▸ hnew) hold
      cases copied with
      | true => exact hstep _ (issues_installUnit faults env)
      | false => exact hstep _ (issues_profileApplyFail faults _ _)

end Installer

/-! ## The agent's `apply` -/

theorem applyShortcut_eq_none {active : Option ProfileWrapper}
    {state : Option ProfileStateDocument} (h : applyShortcut wrapper active state = none) :
    (∀ old ∈ active, old.revision < wrapper.revision) ∧
      ∀ document ∈ state, document.state = .pendingRestart →
        document.revision < wrapper.revision := by
  have hpending : pendingShortcut wrapper state = none → ∀ document ∈ state,
      document.state = .pendingRestart → document.revision < wrapper.revision := by
    rintro hnone document hdocument hstate
    obtain rfl := mem_def.mp hdocument
    simp only [pendingShortcut, hstate, ne_eq, not_true_eq_false, if_false] at hnone
    split_ifs at hnone
    omega
  cases active with
  | none => exact ⟨nofun, hpending h⟩
  | some old =>
    simp only [applyShortcut] at h
    split_ifs at h
    refine ⟨?_, hpending h⟩
    rintro other hother
    cases hother
    omega

/-- What `apply` does with the two documents it reads. -/
def applyRead (pid : Nat) (wrapper : ProfileWrapper) (faults : ApplyFaults) (node : Node)
    (active : Except WrapperError (Option ProfileWrapper))
    (state : Except WrapperError (Option ProfileStateDocument)) : Node × ApplyResult :=
  match active, state with
  | .error _, _ => (node, .error .corrupt)
  | .ok _, .error _ => (node, .error .stateCorrupt)
  | .ok active, .ok state =>
    match applyShortcut wrapper active state with
    | some result => (node, result)
    | none => (stageProfile pid wrapper active faults).run nodeSemantics node

/-- `apply` alone on a node reads the two files of that node. -/
theorem apply_read {pid : Nat} {faults : ApplyFaults}
    (hpayload : decodeProfileTaskPayload payload = .ok wrapper) (hready : faults.ready = true) :
    (apply pid payload faults).run nodeSemantics node =
      applyRead pid wrapper faults node (readWrapper (node.files .active))
        (readState (node.files .state)) := by
  have hactive : nodeSemantics.exec node (.read (.agent pid) .active) =
      (node, node.files .active) := rfl
  have hstate : nodeSemantics.exec node (.read (.agent pid) .state) = (node, node.files .state) := rfl
  unfold apply
  simp only [hpayload, hready, Bool.true_eq_false, if_false, readFile, issue, perform_bind,
    run_call, hactive]
  cases readWrapper (node.files .active) with
  | error e => rfl
  | ok active =>
    simp only [run_call, hstate]
    cases readState (node.files .state) with
    | error e => rfl
    | ok state =>
      dsimp only [applyRead]
      cases applyShortcut wrapper active state <;> rfl

variable (pid : Nat)

/-- An `apply` leaves the node as it is, or the files hold nothing that is as new as its
profile and it goes on to stage it. -/
theorem apply_run (payload : StrMap) (faults : ApplyFaults) (node : Node) :
    ((apply pid payload faults).run nodeSemantics node).1 = node ∨
      ∃ wrapper active, decodeProfileTaskPayload payload = .ok wrapper ∧
        (∀ r, node.activeRevision = some r → r < wrapper.revision) ∧
        ¬ node.Pending wrapper.revision ∧ (apply pid payload faults).run nodeSemantics node =
          (stageProfile pid wrapper active faults).run nodeSemantics node := by
  cases hpayload : decodeProfileTaskPayload payload with
  | error code =>
    left
    rw [apply, hpayload]
    rfl
  | ok wrapper =>
    cases hready : faults.ready with
    | false =>
      left
      simp only [apply, hpayload, hready]
      rfl
    | true =>
      rw [apply_read hpayload hready]
      generalize hactive : readWrapper (node.files .active) = active,
        hstate : readState (node.files .state) = state
      fun_cases applyRead pid wrapper faults node active state with
      | case4 active state hshort =>
        obtain ⟨hnewer, hpending⟩ := applyShortcut_eq_none hshort
        refine .inr ⟨wrapper, active, rfl, ?_, ?_, rfl⟩
        · intro r hr
          obtain ⟨old, hold, rfl⟩ := activeRevision_eq_some.mp hr
          rw [hactive] at hold
          exact hnewer old (ok.inj hold)
        · rintro ⟨document, hdocument, hlocal, hrevision⟩
          rw [hstate] at hdocument
          have := hpending document (ok.inj hdocument) hlocal
          omega
      | _ => exact .inl rfl

theorem decodeProfileWrapper_of_payload
    {data : Bytes} (hpayload : decodeProfileTaskPayload payload = .ok wrapper)
    (hdata : marshalProfileWrapper wrapper = .ok data) :
      decodeProfileWrapper data = .ok wrapper := by
  obtain ⟨p, r, hnormal, hrevision, hlen, -, rfl⟩ :=
    (decodeProfileTaskPayload_ok_iff _ _).mp hpayload
  obtain ⟨q, hq, -, -, rfl, -⟩ := (marshalProfileWrapper_ok_iff data).mp hdata
  cases hq.symm.trans hnormal
  exact decodeProfileWrapper_marshal hnormal hrevision hlen

/-- What staging leaves in the candidate and the active file. -/
def Staged (node : Node) (wrapper : ProfileWrapper) (s : Node) : Prop :=
  s.files .active = node.files .active ∧ (s.files .candidate = node.files .candidate ∨
    ∃ data, s.files .candidate = some data ∧ marshalProfileWrapper wrapper = .ok data)

theorem Stages.staged {pid : Nat} {s : Node} {op : NodeOp}
    (hop : Stages pid wrapper op) (hs : Staged node wrapper s) :
      Staged node wrapper (s.exec op).1 := by
  have hspares : op.Spares → Staged node wrapper (s.exec op).1 := by
    intro h
    obtain ⟨ha, hc⟩ := s.exec_spares h
    exact ⟨ha.trans hs.1, hc ▸ hs.2⟩
  cases op with
  | write actor file data =>
    cases actor with
    | installer => exact hop.elim
    | agent owner =>
      cases file with
      | candidate =>
        have hactive : (s.setFile .candidate (some data)).files .active = s.files .active :=
          setFile_files_ne nofun
        exact ⟨hactive.trans hs.1, .inr ⟨data, s.setFile_files_self _ _, hop.2⟩⟩
      | active => exact hop.elim
      | previous | state => exact hspares ⟨nofun, nofun⟩
  | remove file => exact hop.elim
  | _ => exact hspares trivial

theorem apply_filesStep (payload : StrMap) (faults : ApplyFaults) (node : Node) :
    node.FilesStep ((apply pid payload faults).run nodeSemantics node).1 := by
  rcases apply_run pid payload faults node with h | ⟨wrapper, active, hpayload, hnewer, -, h⟩
  · rw [h]
    exact .kept rfl (.inl rfl)
  · have hstaged : Staged node wrapper
        ((stageProfile pid wrapper active faults).run nodeSemantics node).1 :=
      (issues_stageProfile active faults).run_inv (I := Staged node wrapper)
        (fun s op hop hs => hop.staged hs) ⟨rfl, .inl rfl⟩
    obtain ⟨hactive, hcandidate | ⟨data, hcandidate, hmarshal⟩⟩ := hstaged
    · rw [h]
      exact .kept hactive (.inl hcandidate)
    · rw [h]
      exact .staged hactive data wrapper hcandidate
        (decodeProfileWrapper_of_payload hpayload hmarshal) hnewer

/-- A write that reports success has put its data in the file. -/
theorem writeAtomicProfileFile_run (file : ProfileFile) (data : Option Bytes)
    (fate : WriteFate) (node : Node) :
    let result := (writeAtomicProfileFile pid file data fate).run nodeSemantics node
    result.1.scheduled = node.scheduled ∧
      (result.2 ≠ false → ∃ d, data = some d ∧ result.1 = node.setFile file (some d)) := by
  cases fate with
  | lost => exact ⟨rfl, fun h => absurd rfl h⟩
  | done =>
    cases data with
    | none => exact ⟨rfl, fun h => absurd rfl h⟩
    | some data => exact ⟨rfl, fun _ => ⟨data, rfl, rfl⟩⟩
  | unsynced =>
    cases data with
    | none | some => exact ⟨rfl, fun h => absurd rfl h⟩

theorem savePrevious_scheduled (fate : WriteFate) (active : Option ProfileWrapper) (node : Node) :
    ((savePrevious pid fate active).run nodeSemantics node).1.scheduled = node.scheduled := by
  cases active with
  | none => rfl
  | some active => exact (writeAtomicProfileFile_run pid .previous _ fate node).1

/-- Staging schedules nothing, or it has recorded the revision as pending. -/
theorem stageProfile_scheduled (wrapper : ProfileWrapper)
    (active : Option ProfileWrapper) (faults : ApplyFaults) (node : Node) :
    let next := ((stageProfile pid wrapper active faults).run nodeSemantics node).1
    next.scheduled = node.scheduled ∨
      next.scheduled = wrapper.revision :: node.scheduled ∧
        ∃ data, writeState ⟨profileSchemaVersion, .pendingRestart, wrapper.revision, []⟩ =
          some data ∧ next.files .state = some data := by
  intro next
  have hprevious := savePrevious_scheduled pid faults.previous active node
  change ((stageProfile pid wrapper active faults).run nodeSemantics node).1.scheduled = _ ∨
    ((stageProfile pid wrapper active faults).run nodeSemantics node).1.scheduled = _ ∧ ∃ data, _ ∧
      ((stageProfile pid wrapper active faults).run nodeSemantics node).1.files .state = _
  rw [stageProfile]
  split_ifs
  · exact .inl rfl
  rw [run_bind]
  generalize (savePrevious pid faults.previous active).run nodeSemantics node = saved at *
  split_ifs
  · exact .inl hprevious
  have hcandidate := (writeAtomicProfileFile_run pid .candidate
    (marshalProfileWrapper wrapper).toOption faults.candidate saved.1).1
  rw [run_bind, writeWrapper]
  generalize (writeAtomicProfileFile pid .candidate (marshalProfileWrapper wrapper).toOption
    faults.candidate).run nodeSemantics saved.1 = staged at *
  split_ifs
  · exact .inl (hcandidate.trans hprevious)
  have hstate := writeAtomicProfileFile_run pid .state
    (writeState ⟨profileSchemaVersion, .pendingRestart, wrapper.revision, []⟩) faults.pending
    staged.1
  rw [run_bind]
  generalize (writeAtomicProfileFile pid .state
    (writeState ⟨profileSchemaVersion, .pendingRestart, wrapper.revision, []⟩)
    faults.pending).run nodeSemantics staged.1 = recorded at *
  have hsame := hstate.1.trans (hcandidate.trans hprevious)
  split_ifs with hrecorded
  · exact .inl hsame
  obtain ⟨data, hdata, hfile⟩ := hstate.2 hrecorded
  rw [scheduleProfileApply]
  split_ifs
  · refine .inr ⟨congrArg _ hsame, data, hdata, ?_⟩
    change recorded.1.files .state = _
    rw [hfile, setFile_files_self]
  · left
    rw [run_bind]
    exact (writeAtomicProfileFile_run pid .state _ faults.failed recorded.1).1.trans hsame

theorem pending_of_writeState
    {data : Bytes} (hpayload : decodeProfileTaskPayload payload = .ok wrapper)
    (hdata : writeState ⟨profileSchemaVersion, .pendingRestart, wrapper.revision, []⟩ = some data)
    (hfile : node.files .state = some data) : node.Pending wrapper.revision := by
  have hvalid : ValidRevision wrapper.revision :=
    StateWrite.FromPayload.valid ⟨payload, wrapper, hpayload, rfl⟩
  refine ⟨⟨profileSchemaVersion, .pendingRestart, wrapper.revision, []⟩, ?_, rfl, rfl⟩
  rw [writeState] at hdata
  split_ifs at hdata with hzero
  · cases hzero
  · rw [hfile, ← some.inj hdata]
    exact readState_some_eq_ok.mpr
      (decodeState_marshal (StateWrite.sound_without_code hvalid) hvalid.2 (.inr rfl))

/-! ## Calls one after the other -/

/-- An installer run of this call does not fail while it copies the unit, the candidate and
the active file. -/
def NodeCall.Copies : NodeCall → Prop
  | .applyProfile faults => Installer.Copies faults
  | _ => True

theorem run_map_state {α : Type} (f : α → NodeValue) (p : NodeM α) (node : Node) :
    ((f <$> p).run nodeSemantics node).1 = (p.run nodeSemantics node).1 := by
  rw [map_eq_pure_bind, run_bind]
  rfl

variable (env : Installer.Env)

theorem call_filesStep {c : NodeCall} (hcopies : c.Copies)
    (hordered : node.Ordered) : node.FilesStep ((c.program env).run nodeSemantics node).1 := by
  cases c with
  | boot | exit | startAgent => exact .kept rfl (.inl rfl)
  | heartbeat pid ready => cases ready <;> exact .kept rfl (.inl rfl)
  | apply pid payload faults =>
    rw [NodeCall.program, run_map_state]
    exact apply_filesStep pid payload faults node
  | applyProfile faults =>
    rw [NodeCall.program, run_map_state]
    exact Installer.applyProfile_filesStep env hcopies hordered

/-- A call that schedules an installer run for a revision makes that revision pending. -/
theorem call_scheduled (c : NodeCall) (node : Node) :
    let next := ((c.program env).run nodeSemantics node).1
    next.scheduled = node.scheduled ∨ ∃ r, next.scheduled = r :: node.scheduled ∧
      ¬ node.Pending r ∧ next.Pending r := by
  cases c with
  | boot | exit | startAgent => exact .inl rfl
  | heartbeat pid ready => cases ready <;> exact .inl rfl
  | apply pid payload faults =>
    rw [NodeCall.program, run_map_state]
    rcases apply_run pid payload faults node with h | ⟨wrapper, active, hpayload, -, hfree, h⟩
    · exact .inl (congrArg scheduled h)
    · rw [h]
      rcases stageProfile_scheduled pid wrapper active faults node with
        hsame | ⟨hscheduled, data, hdata, hfile⟩
      · exact .inl hsame
      · exact .inr ⟨wrapper.revision, hscheduled, hfree,
          pending_of_writeState hpayload hdata hfile⟩
  | applyProfile faults =>
    rw [NodeCall.program, run_map_state]
    left
    refine (Installer.issues_applyProfile env faults).run_inv
      (I := fun s : Node => s.scheduled = node.scheduled) ?_ rfl
    rintro s op ⟨snapshot, canonical, hop⟩ hs
    cases op with
    | schedule pid revision => exact hop.elim
    | _ => exact hs

/-- The node after the first `k` calls. -/
def nodeAfter (init : Node) (calls : List NodeCall) (k : Nat) : Node :=
  Run.serialState (nodeSystem env) init (calls.take k)

section Calls
variable (env : Installer.Env) (init : Node) (calls : List NodeCall)

/-- Call number `i` schedules an installer run for this revision. -/
def SchedulesAt (i : Nat) (r : Int) : Prop :=
  (nodeAfter env init calls (i + 1)).scheduled = r :: (nodeAfter env init calls i).scheduled

/-- The revisions of a node whose calls run one after the other. -/
structure RevisionsAdvance : Prop where
  /-- The revision of the active file never decreases. -/
  active_le : ∀ i j r, i ≤ j → (nodeAfter env init calls i).activeRevision = some r →
    ∃ r', (nodeAfter env init calls j).activeRevision = some r' ∧ r ≤ r'
  /-- An `apply` for an older revision writes nothing and schedules nothing. -/
  stale_apply : ∀ i pid payload faults wrapper r, calls[i]? = some (.apply pid payload faults) →
    decodeProfileTaskPayload payload = .ok wrapper →
    (nodeAfter env init calls i).activeRevision = some r → wrapper.revision < r →
    nodeAfter env init calls (i + 1) = nodeAfter env init calls i
  /-- Between two installer runs scheduled for one revision it was not pending. -/
  schedule_once : ∀ i j r, i < j → SchedulesAt env init calls i r →
    SchedulesAt env init calls j r → ∃ k, i < k ∧ k ≤ j ∧ ¬ (nodeAfter env init calls k).Pending r
  /-- A revision for which an installer run is scheduled is pending then. -/
  scheduled_pending : ∀ i r, SchedulesAt env init calls i r →
    (nodeAfter env init calls (i + 1)).Pending r
  /-- An observation `applied` names the revision of the active file. -/
  applied_active : ∀ i observation, observation = (loadActiveProfile
      ((nodeAfter env init calls i).files .active)
      ((nodeAfter env init calls i).files .state)).observation → observation.state = .applied →
    (nodeAfter env init calls i).activeRevision = some observation.revision

variable {env init calls}

theorem nodeAfter_succ {k : Nat} {c : NodeCall} (h : calls[k]? = some c) :
    nodeAfter env init calls (k + 1) =
      ((c.program env).run nodeSemantics (nodeAfter env init calls k)).1 := by
  rw [nodeAfter, take_add_one, h, toList_some, Run.serialState_append]
  rfl

theorem nodeAfter_end {k : Nat} (h : calls[k]? = none) :
    nodeAfter env init calls (k + 1) = nodeAfter env init calls k := by
  rw [nodeAfter, take_add_one, h, toList_none, append_nil]
  rfl

/-- The step rule: what every call keeps holds after any number of calls. -/
theorem nodeAfter_filesStep (hcopies : ∀ c ∈ calls, c.Copies) {k : Nat}
    (h : (nodeAfter env init calls k).Ordered) :
    (nodeAfter env init calls k).FilesStep (nodeAfter env init calls (k + 1)) := by
  cases hcall : calls[k]? with
  | none =>
    rw [nodeAfter_end hcall]
    exact .kept rfl (.inl rfl)
  | some c =>
    rw [nodeAfter_succ hcall]
    exact call_filesStep env (hcopies c (mem_of_getElem? hcall)) h

theorem nodeAfter_ordered (hinit : init.Ordered) (hcopies : ∀ c ∈ calls, c.Copies) (k : Nat) :
    (nodeAfter env init calls k).Ordered := by
  induction k with
  | zero => exact hinit
  | succ k ih => exact (nodeAfter_filesStep hcopies ih).ordered ih

theorem nodeAfter_scheduled {i : Nat} {r : Int} (h : SchedulesAt env init calls i r) :
    ¬ (nodeAfter env init calls i).Pending r ∧ (nodeAfter env init calls (i + 1)).Pending r := by
  rw [SchedulesAt] at h
  cases hcall : calls[i]? with
  | none =>
    rw [nodeAfter_end hcall] at h
    exact absurd h (cons_ne_self _ _).symm
  | some c =>
    rw [nodeAfter_succ hcall] at h ⊢
    rcases call_scheduled env c (nodeAfter env init calls i) with hsame | ⟨r', hscheduled, hfacts⟩
    · exact absurd (hsame.symm.trans h) (cons_ne_self _ _).symm
    · cases hscheduled.symm.trans h
      exact hfacts

/-- Along any calls whose installer runs copy what they may have to put back, the revisions
only advance. -/
theorem profile_revisions_advance (hinit : init.Ordered) (hcopies : ∀ c ∈ calls, c.Copies) :
    RevisionsAdvance env init calls where
  active_le := by
    intro i j r hij hr
    induction j, hij using Nat.le_induction with
    | base => exact ⟨r, hr, le_rfl⟩
    | succ j hij ih =>
      obtain ⟨middle, hmiddle, hle⟩ := ih
      have hordered : (nodeAfter env init calls j).Ordered := nodeAfter_ordered hinit hcopies j
      obtain ⟨last, hlast, hle'⟩ :=
        (nodeAfter_filesStep hcopies hordered).advances hordered hmiddle
      exact ⟨last, hlast, hle.trans hle'⟩
  stale_apply := by
    intro i pid payload faults wrapper r hcall hpayload hr hlt
    rw [nodeAfter_succ hcall, NodeCall.program, run_map_state]
    rcases apply_run pid payload faults (nodeAfter env init calls i) with
      h | ⟨other, active, hother, hnewer, -⟩
    · exact h
    · cases hpayload.symm.trans hother
      exact absurd (hnewer r hr) (Int.not_lt.mpr hlt.le)
  schedule_once := by
    intro i j r hij _ hj
    exact ⟨j, hij, le_rfl, (nodeAfter_scheduled hj).1⟩
  scheduled_pending := fun i r h => (nodeAfter_scheduled h).2
  applied_active := by
    rintro i observation rfl happlied
    obtain ⟨wrapper, hwrapper, hrevision⟩ := loadActiveProfile_applied happlied
    rw [hrevision]
    exact activeRevision_eq_some.mpr ⟨wrapper, hwrapper, rfl⟩

end Calls

/-! ## Two sequences of calls -/

/-- The payload of a profile that allows nothing. -/
def barePayload (revision : Int) : StrMap :=
  applyPayload ⟨false, false, false, false, [], [], []⟩ revision

/-- Revision 5 is installed and revision 3 comes too late. -/
def lateApply : List NodeCall :=
  [.boot, .startAgent 0 bareConfig, .apply 0 (barePayload 5) .none, .applyProfile fun _ => false,
    .startAgent 1 bareConfig, .apply 1 (barePayload 3) .none]

theorem profile_revisions_advance_late :
    (nodeAfter quietEnv (.fresh []) lateApply 4).activeRevision = some 5 ∧
      RevisionsAdvance quietEnv (.fresh []) lateApply := by
  have hcopies : ∀ c ∈ lateApply, c.Copies := by
    simp [lateApply, NodeCall.Copies, Installer.Copies]
  exact ⟨by decide +kernel, profile_revisions_advance (fresh_ordered []) hcopies⟩

/-- Revision 5 is installed, the run for revision 6 cannot copy the unit, and revision 3 is
installed after that. -/
def failedCopy : List NodeCall :=
  [.boot, .startAgent 0 bareConfig, .apply 0 (barePayload 5) .none, .applyProfile fun _ => false,
    .startAgent 1 bareConfig, .apply 1 (barePayload 6) .none,
    .applyProfile fun fault => fault = .snapshotUnit,
    .boot, .startAgent 2 bareConfig, .apply 2 (barePayload 3) .none, .applyProfile fun _ => false]

theorem failedCopy_checks :
    (Run.serialReady (nodeSystem quietEnv) ([], ⟨.fresh [], []⟩) failedCopy &&
      (nodeAfter quietEnv (.fresh []) failedCopy 4).activeRevision == some 5 &&
      (nodeAfter quietEnv (.fresh []) failedCopy 11).activeRevision == some 3) = true := by
  decide +kernel

theorem profile_revisions_go_back :
    Run.serialReady (nodeSystem quietEnv) ([], ⟨.fresh [], []⟩) failedCopy = true ∧
      ¬ RevisionsAdvance quietEnv (.fresh []) failedCopy := by
  have hchecks := failedCopy_checks
  rw [Bool.and_eq_true, Bool.and_eq_true, beq_iff_eq, beq_iff_eq] at hchecks
  obtain ⟨⟨hready, hfive⟩, hthree⟩ := hchecks
  refine ⟨hready, fun h => ?_⟩
  obtain ⟨r, hr, hle⟩ := h.active_le 4 11 5 (by decide) hfive
  rw [hthree] at hr
  cases hr
  exact absurd hle (by decide)

end HeyServer.Agent
