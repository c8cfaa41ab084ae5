import HeyServer.Lib.Typestate

/-!
# One snapshot at a time

A snapshot run takes the flag `running` before it starts in the background and clears it when it
has ended. Aborting clears the flag as well, while the run it aborts is still going on until its
restic process ends; the next run may then start beside it, and either of them clears the flag of
the other.

## Implementation notes

A call of `RunAsync` goes on as the goroutine it starts. `inFlight` and `executing` are not kept by
the program: they count the runs between taking and clearing the flag and the bodies of
`runTracked` that are being executed.
-/

namespace HeyServer.Snapshot
open Lib

structure RunState where
  running : Bool := false
  inFlight : Nat := 0
  executing : Nat := 0
deriving DecidableEq

inductive RunOp
  /-- The critical section of `RunAsync`. -/
  | tryStart
  /-- `runTracked` starts. -/
  | enter
  /-- `runTracked` returns. -/
  | leave
  /-- The deferred critical section of the goroutine. -/
  | clear
  /-- The critical section of `AbortRunning`. -/
  | abort
  /-- `killResticWorkers`, which does not wait for the runs. -/
  | kill
deriving DecidableEq

def RunOp.Reply : RunOp → Type
  | .tryStart => Bool
  | _ => Unit

def RunOp.exec (s : RunState) : (op : RunOp) → RunState × op.Reply
  | .tryStart =>
    if s.running then (s, false)
    else ({ s with running := true, inFlight := s.inFlight + 1 }, true)
  | .enter => ({ s with executing := s.executing + 1 }, ())
  | .leave => ({ s with executing := s.executing - 1 }, ())
  | .clear => ({ s with running := false, inFlight := s.inFlight - 1 }, ())
  | .abort => ({ s with running := false }, ())
  | .kill => (s, ())

inductive RunCall
  /-- `RunAsync`, with the outcome of the checks before the flag is taken. -/
  | runAsync (ready : Bool)
  | abortRunning

inductive RunResult
  | notReady
  | alreadyRunning
  | ended
deriving DecidableEq

def RunCall.program : RunCall → Prog RunOp RunOp.Reply RunResult
  | .runAsync false => .done .notReady
  | .runAsync true =>
    .call .tryStart fun (started : Bool) =>
      if started then
        .call .enter fun _ => .call .leave fun _ => .call .clear fun _ => .done .ended
      else .done .alreadyRunning
  | .abortRunning => .call .abort fun _ => .call .kill fun _ => .done .ended

def runSystem : System RunState RunOp RunOp.Reply RunCall RunResult where
  sem := { exec := RunOp.exec }
  program := RunCall.program

/-! ## What a run knows -/

/-- Where a call is: it has not taken the flag, has taken it, executes the body or is done with it.
-/
inductive Stage
  | outside | started | inside | finished
deriving DecidableEq

namespace Stage

def Permits : Stage → RunOp → Prop
  | .outside, .tryStart | .outside, .abort | .outside, .kill => True
  | .started, .enter => True
  | .inside, .leave => True
  | .finished, .clear => True
  | _, _ => False

def next : (g : Stage) → (op : RunOp) → op.Reply → Stage
  | _, .tryStart, (taken : Bool) => if taken then .started else .outside
  | _, .enter, _ => .inside
  | _, .leave, _ => .finished
  | _, .clear, _ => .outside
  | g, .abort, _ => g
  | g, .kill, _ => g

/-- A call that has taken the flag is the only one in flight. -/
def Holds : Stage → RunState → Prop
  | .outside, _ => True
  | .started, s => s.inFlight = 1 ∧ s.executing = 0
  | .inside, s => s.inFlight = 1 ∧ s.executing = 1
  | .finished, s => s.inFlight = 1 ∧ s.executing = 0

/-- The flag. -/
def lock : Stage → Option Unit
  | .outside => none
  | _ => some ()

/-- Which operations are left to a call at each stage. -/
theorem Permits.cases {g : Stage} {op : RunOp} (h : g.Permits op) :
    (g = .outside ∧ (op = .tryStart ∨ op = .abort ∨ op = .kill)) ∨ (g = .started ∧ op = .enter) ∨
      (g = .inside ∧ op = .leave) ∨ (g = .finished ∧ op = .clear) := by
  cases g <;> cases op <;> first | exact h.elim | decide

theorem Holds.inFlight {g : Stage} {s : RunState} (h : g.Holds s) (hlock : g.lock = some ()) :
    s.inFlight = 1 := by
  cases g with
  | outside => cases hlock
  | started | inside | finished => exact h.1

end Stage

theorem program_obeys (c : RunCall) : (RunCall.program c).Obeys Stage.Permits Stage.next .outside := by
  cases c with
  | runAsync ready =>
    cases ready with
    | false => trivial
    | true =>
      refine ⟨trivial, ?_⟩
      intro started
      cases started with
      | false => trivial
      | true => exact ⟨trivial, fun _ => ⟨trivial, fun _ => ⟨trivial, fun _ => trivial⟩⟩⟩
  | abortRunning => exact ⟨trivial, fun _ => ⟨trivial, fun _ => trivial⟩⟩

/-- The flag tells whether a run is in flight, and at most that run executes its body. -/
structure Exclusive (s : RunState) : Prop where
  flag : s.inFlight = if s.running then 1 else 0
  idle : s.inFlight = 0 → s.executing = 0
  one : s.executing ≤ 1

/-- The flag is aborted only while no run is in flight. -/
def abortIdle (s : RunState) : RunOp → Bool
  | .abort => s.inFlight = 0
  | _ => true

section Steps
variable {s : RunState} {g g' : Stage} {op : RunOp}

theorem exec_tryStart_busy (h : s.running = true) : RunOp.exec s .tryStart = (s, false) := if_pos h

/-- A call's own operation keeps the exclusion and leads to its next stage. -/
theorem exec_keeps (hs : Exclusive s) (hg : g.Holds s) (hpermits : g.Permits op)
    (habort : (true && abortIdle s op) = true) :
    Exclusive (RunOp.exec s op).1 ∧ (g.next op (RunOp.exec s op).2).Holds (RunOp.exec s op).1 := by
  rcases hpermits.cases with ⟨rfl, rfl | rfl | rfl⟩ | ⟨rfl, rfl⟩ | ⟨rfl, rfl⟩ | ⟨rfl, rfl⟩
  · by_cases hrunning : s.running = true
    · rw [exec_tryStart_busy hrunning]
      exact ⟨hs, trivial⟩
    · have hzero : s.inFlight = 0 := by rw [hs.flag, if_neg hrunning]
      have hidle := hs.idle hzero
      rw [RunOp.exec, if_neg hrunning]
      refine ⟨⟨?_, ?_, hs.one⟩, ?_, hidle⟩
      · exact congrArg (· + 1) hzero
      · intro habsurd
        exact absurd habsurd (Nat.succ_ne_zero _)
      · exact congrArg (· + 1) hzero
  · have hzero : s.inFlight = 0 := of_decide_eq_true habort
    exact ⟨⟨hzero, hs.idle, hs.one⟩, trivial⟩
  · exact ⟨hs, trivial⟩
  · have hone : s.executing + 1 = 1 := congrArg (· + 1) hg.2
    refine ⟨⟨hs.flag, ?_, Nat.le_of_eq hone⟩, hg.1, hone⟩
    intro hzero
    exact absurd (hg.1.symm.trans hzero) Nat.one_ne_zero
  · have hzero : s.executing - 1 = 0 := congrArg (· - 1) hg.2
    exact ⟨⟨hs.flag, fun _ => hzero, Nat.le_trans (Nat.le_of_eq hzero) (Nat.zero_le 1)⟩, hg.1,
      hzero⟩
  · have hzero : s.inFlight - 1 = 0 := congrArg (· - 1) hg.1
    exact ⟨⟨hzero, fun _ => hg.2, hs.one⟩, trivial⟩

/-- While a run holds the flag, the operations of the others change nothing. -/
theorem exec_other (hs : Exclusive s) (hg : g.Holds s) (hpermits : g'.Permits op)
    (habort : (true && abortIdle s op) = true) (hapart : Apart Stage.lock g g') :
    g.Holds (RunOp.exec s op).1 := by
  by_cases houtside : g = .outside
  · rw [houtside]
    trivial
  · have hlock : g.lock = some () := by
      cases g with
      | outside => exact absurd rfl houtside
      | started | inside | finished => rfl
    have hone := hg.inFlight hlock
    have hother := hapart () hlock
    have hrunning : s.running = true := by
      by_contra hnot
      rw [hs.flag, if_neg hnot] at hone
      cases hone
    rcases hpermits.cases with ⟨-, rfl | rfl | rfl⟩ | ⟨rfl, -⟩ | ⟨rfl, -⟩ | ⟨rfl, -⟩
    · rw [exec_tryStart_busy hrunning]
      exact hg
    · have hzero : s.inFlight = 0 := of_decide_eq_true habort
      rw [hzero] at hone
      cases hone
    · exact hg
    all_goals exact absurd rfl hother

end Steps

section Runs
variable {trace : List (Event RunState RunOp RunCall)}
  {cfg : Config RunState RunOp RunOp.Reply RunCall RunResult}

theorem exclusive_of_guarded (run : Run (runSystem.guarded abortIdle) (fun _ => True)
    {} trace cfg) :
    Exclusive cfg.state := by
  refine (run.restarts fun _ _ => False).typed (I := Exclusive) Stage.Permits Stage.next
    Stage.Holds Stage.lock .outside rfl (fun c _ => program_obeys c)
    ⟨rfl, fun _ => rfl, Nat.zero_le 1⟩ (fun _ _ _ rebooted => rebooted.elim) (fun _ _ => trivial)
    ?_ ?_ ?_
  · intro g op s ready hs hg hpermits
    exact exec_keeps hs hg hpermits ready
  · -- the flag is free, so nobody holds it
    intro g op s _ _ hs _ hpermits htaken
    rcases hpermits.cases with ⟨rfl, rfl | rfl | rfl⟩ | ⟨rfl, rfl⟩ | ⟨rfl, rfl⟩ | ⟨rfl, rfl⟩
    · by_cases hrunning : s.running = true
      · rw [show (runSystem.guarded abortIdle).sem.exec s .tryStart = (s, false) from
          exec_tryStart_busy hrunning] at htaken
        cases htaken
      · right
        intro g' hg' hlock
        have hone := hg'.inFlight hlock
        rw [hs.flag, if_neg hrunning] at hone
        cases hone
    · cases htaken
    · cases htaken
    · exact .inl rfl
    · exact .inl rfl
    · cases htaken
  · intro g g' op s ready hs hg _ hpermits hapart
    exact exec_other hs hg hpermits ready hapart

/-- If the flag is only aborted while no run is in flight, at most one body is executed at any
time. -/
theorem one_snapshot_at_a_time (run : Run runSystem (fun _ => True) {} trace cfg)
    (habort : ∀ e ∈ trace, e.op = .abort → e.before.inFlight = 0) :
    cfg.state.executing ≤ 1 := by
  have hguard : ∀ e ∈ trace, abortIdle e.before e.op = true := by
    intro e he
    cases hop : e.op with
    | abort => exact decide_eq_true (habort e he hop)
    | _ => rfl
  exact (exclusive_of_guarded (run.guarded hguard)).one

end Runs

/-- Two snapshots one after the other, and an abort after them. -/
def calmCalls : List RunCall := [.runAsync true, .runAsync true, .abortRunning]

theorem one_snapshot_at_a_time_calm :
    (Run.serialRun runSystem {} calmCalls).2.state.executing ≤ 1 := by
  have hrun : Run runSystem (fun _ => True) {} (Run.serialRun runSystem {} calmCalls).1
      (Run.serialRun runSystem {} calmCalls).2 :=
    Run.serialRun_run calmCalls (fun _ _ => trivial) (by decide +kernel)
  have habort : ∀ e ∈ (Run.serialRun runSystem {} calmCalls).1,
      e.op = .abort → e.before.inFlight = 0 := by
    decide +kernel
  exact one_snapshot_at_a_time hrun habort

/-- A run is aborted while its body is executed, and another one starts. -/
def overlapping : List (Run.Choice RunCall) :=
  [.invoke (.runAsync true), .step 0, .step 0, .invoke .abortRunning, .step 1,
    .invoke (.runAsync true), .step 2, .step 2]

theorem abort_lets_two_run :
    ∃ trace cfg, Run runSystem (fun _ => True) {} trace cfg ∧ cfg.state.executing = 2 :=
  Run.exists_scheduled overlapping (fun _ _ => trivial) (by decide +kernel)

end HeyServer.Snapshot
