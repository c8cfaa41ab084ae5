import HeyServer.Lib.Interleaving

/-!
# Rollbacks

A run records the commit its checkout was at and the commit it deployed. `Rollback` takes the newest
commit a successful run recorded as the previous one.

## Implementation notes

Runs hold the mutex of the service and follow one another. A column is `none` where the source
leaves it empty. What git and the executor answer is an input of the run.
-/

namespace HeyServer.Deploy.Rollback
open Lib (AtEach)

/-- A finished row of `deploy_runs`. -/
structure Run (Commit : Type) where
  rollback : Bool
  success : Bool
  prevCommit : Option Commit
  commit : Option Commit

/-- The checkout of a target, if there is one, and its runs, newest first. -/
structure Target (Commit : Type) where
  head : Option Commit
  runs : List (Run Commit)

/-- The commit a clone or a pull brings, whether `HEAD` can be read before and after it, and
whether the executor succeeds. -/
structure Answers (Commit : Type) where
  fetched : Option Commit
  headRead : Bool
  newHeadRead : Bool
  executed : Bool

inductive Request (Commit : Type)
  | deploy (answers : Answers Commit)
  | rollback (eligible checkedOut executed : Bool)

namespace Target
variable {Commit : Type} [DecidableEq Commit] {t : Target Commit} {request : Request Commit}

section
variable (t : Target Commit)

def finaliseRun (run : Run Commit) : Target Commit :=
  { t with runs := run :: t.runs }

def executeRun (a : Answers Commit) : Target Commit :=
  -- a checkout that is cloned now was at no commit before
  let prevCommit := if a.headRead then t.head else none
  match a.fetched with
  | none => t.finaliseRun ⟨false, false, prevCommit, none⟩
  | some commit =>
    { t with head := some commit }.finaliseRun
      ⟨false, a.executed, prevCommit, if a.newHeadRead then some commit else none⟩

def executeRollback (toCommit : Commit) (checkedOut executed : Bool) : Target Commit :=
  if checkedOut then
    { t with head := some toCommit }.finaliseRun ⟨true, executed, none, some toCommit⟩
  else t.finaliseRun ⟨true, false, none, some toCommit⟩

/-- The commit `Rollback` checks out. -/
def latestRollbackCommit : Option Commit :=
  t.runs.findSome? fun run => if run.success then run.prevCommit else none

def step : Request Commit → Target Commit
  | .deploy answers => t.executeRun answers
  | .rollback eligible checkedOut executed =>
    match t.latestRollbackCommit with
    | none => t
    | some toCommit => if eligible then t.executeRollback toCommit checkedOut executed else t

/-- A target after a sequence of requests, from the checkout it is set up with. -/
def history (head : Option Commit) (requests : List (Request Commit)) : Target Commit :=
  requests.foldl step ⟨head, []⟩

/-- The commits that were deployed successfully, newest first. -/
def deployed : List Commit :=
  t.runs.filterMap fun run => if run.success then run.commit else none

/-- The commit that was live before the one that is live now. -/
def previousVersion : Option Commit :=
  match t.deployed with
  | [] => none
  | live :: earlier => earlier.find? (· ≠ live)

/-- An accepted rollback checks out the previous version. -/
def GoesBack : Prop :=
  ∀ commit, t.latestRollbackCommit = some commit → t.previousVersion = some commit

/-- The newest successful run is a rollback. -/
def rolledBack : Bool := (t.runs.find? (·.success)).any (·.rollback)

/-- A deployment that succeeds finds the checkout at the live commit, can read it and brings
another commit. -/
def orderly : Request Commit → Bool
  | .deploy ⟨some commit, headRead, newHeadRead, true⟩ =>
    headRead && newHeadRead && t.head = t.deployed.head? && t.head ≠ some commit
  | _ => true

/-- A rollback goes to the previous version, or stays at the live commit if the last one brought
it. -/
def Tracks : Prop :=
  if t.rolledBack then
    ∃ live earlier, t.deployed = live :: earlier ∧ t.latestRollbackCommit = some live
  else t.latestRollbackCommit = t.previousVersion

end

theorem Tracks.failed (h : Tracks t) {head : Option Commit} {run : Run Commit}
    (hrun : run.success = false) : Tracks ({ t with head := head }.finaliseRun run) := by
  simpa [Tracks, finaliseRun, latestRollbackCommit, rolledBack, previousVersion, deployed, hrun]
    using h

theorem Tracks.deploys (h : Tracks t) {commit : Commit} (hhead : t.head = t.deployed.head?)
    (hnew : t.head ≠ some commit) :
    Tracks ({ t with head := some commit }.finaliseRun ⟨false, true, t.head, some commit⟩) := by
  simp only [Tracks, rolledBack, latestRollbackCommit, previousVersion, deployed] at hhead h
  cases hdeployed : t.runs.filterMap fun run => if run.success then run.commit else none with
  | nil =>
    -- nothing was deployed, so there is nothing to go back to
    rw [hdeployed] at hhead h
    split_ifs at h
    · simp at h
    · simpa [Tracks, finaliseRun, latestRollbackCommit, rolledBack, previousVersion, deployed,
        hdeployed, hhead] using h
  | cons live earlier =>
    rw [hdeployed] at hhead
    have hlive : live ≠ commit := fun heq => hnew (hhead.trans (congrArg some heq))
    simp [Tracks, finaliseRun, latestRollbackCommit, rolledBack, previousVersion, deployed,
      hdeployed, hhead, hlive]

theorem Tracks.step (h : Tracks t) (horderly : t.orderly request = true) :
    Tracks (t.step request) := by
  cases request with
  | deploy answers =>
    obtain ⟨_ | commit, headRead, newHeadRead, _ | _⟩ := answers
    · exact h.failed rfl
    · exact h.failed rfl
    · exact h.failed rfl
    · simp only [orderly, Bool.and_eq_true, decide_eq_true_eq] at horderly
      obtain ⟨⟨⟨rfl, rfl⟩, hhead⟩, hnew⟩ := horderly
      exact h.deploys hhead hnew
  | rollback eligible checkedOut executed =>
    rw [Target.step]
    cases hto : t.latestRollbackCommit with
    | none => exact h
    | some toCommit =>
      split_ifs
      · cases checkedOut with
        | false => exact h.failed rfl
        | true =>
          cases executed with
          | false => exact h.failed rfl
          | true =>
            simpa [Tracks, executeRollback, finaliseRun, latestRollbackCommit, rolledBack,
              deployed] using hto
      · exact h

end Target

end HeyServer.Deploy.Rollback
