import HeyServer.Lib.Interleaving
import Mathlib.Algebra.BigOperators.Group.List.Basic
import Mathlib.Tactic.Abel

/-!
# What calls hold

A call may take something out of the shared state and keep it for a while: the rest of its
program carries it. What the state has and what the pending calls hold make up one account,
and an account that every step of every program keeps is kept by every run.
-/

namespace HeyServer.Lib
open List

variable {S O C V M : Type} {R : O → Type} [AddCommMonoid M]

/-- Every step of the program moves what it holds into the state or back, and brings in what
`gain` says. -/
def Prog.Balanced (sem : Semantics S O R) (stock : S → M) (holds : Prog O R V → M) (gain : O → M) :
    Prog O R V → Prop
  | .done _ => True
  | .call op rest =>
    (∀ s, stock (sem.exec s op).1 + holds (rest (sem.exec s op).2) =
      stock s + holds (.call op rest) + gain op) ∧
    ∀ r, (rest r).Balanced sem stock holds gain

/-- What all the calls made so far hold together. -/
def Config.held (holds : Prog O R V → M) (cfg : Config S O R C V) : M :=
  (cfg.calls.map fun call => holds call.2).sum

/-- One more step of one call changes only what that call holds. -/
theorem sum_set {α : Type} {f : α → M} {xs : List α} {i : Nat} {x : α} (hx : xs[i]? = some x)
    (y : α) :
    ((xs.set i y).map f).sum + f x = (xs.map f).sum + f y := by
  induction xs generalizing i with
  | nil => cases hx
  | cons head tail ih =>
    cases i with
    | zero =>
      cases hx
      rw [set_cons_zero, map_cons, map_cons, sum_cons, sum_cons]
      abel
    | succ i =>
      rw [set_cons_succ, map_cons, map_cons, sum_cons, sum_cons, add_assoc, ih hx, add_assoc]

/-- The rule of accounts: calls that hold nothing at first and whose programs are balanced
leave the account of every run even. -/
theorem Run.conserved [IsLeftCancelAdd M] {sys : System S O R C V} {allowed : C → Prop} {init : S}
    {trace : List (Event S O C)} {cfg : Config S O R C V} (run : Run sys allowed init trace cfg)
    (stock : S → M) (holds : Prog O R V → M) (gain : O → M)
    (hempty : ∀ c, allowed c → holds (sys.program c) = 0)
    (hbalanced : ∀ c, allowed c → (sys.program c).Balanced sys.sem stock holds gain) :
    stock cfg.state + cfg.held holds = stock init + (trace.map fun e => gain e.op).sum := by
  induction run with
  | start => simp [Config.held]
  | invoke run c ok ih => simpa [Config.held, hempty c ok] using ih
  | @exec trace cfg run id c op rest pending ready ih =>
    have hstep : (Prog.call op rest).Balanced sys.sem stock holds gain :=
      run.pending (P := fun _ p => p.Balanced sys.sem stock holds gain) hbalanced
        (fun c op rest r h => h.2 r) _ (mem_of_getElem? pending)
    have hset := sum_set (f := fun call : C × Prog O R V => holds call.2) pending
      (c, rest (sys.sem.exec cfg.state op).2)
    have hmove := hstep.1 cfg.state
    rw [map_append, sum_append, map_singleton, sum_singleton, ← add_assoc, ← ih]
    apply add_left_cancel (a := holds (.call op rest))
    calc holds (.call op rest) + (stock (sys.sem.exec cfg.state op).1 +
          ((cfg.calls.set id (c, rest (sys.sem.exec cfg.state op).2)).map
            fun call => holds call.2).sum)
        = stock (sys.sem.exec cfg.state op).1 +
            (((cfg.calls.set id (c, rest (sys.sem.exec cfg.state op).2)).map
              fun call => holds call.2).sum + holds (.call op rest)) := by abel
      _ = stock (sys.sem.exec cfg.state op).1 +
            ((cfg.calls.map fun call => holds call.2).sum +
              holds (rest (sys.sem.exec cfg.state op).2)) := by rw [hset]
      _ = (stock (sys.sem.exec cfg.state op).1 + holds (rest (sys.sem.exec cfg.state op).2)) +
            (cfg.calls.map fun call => holds call.2).sum := by abel
      _ = (stock cfg.state + holds (.call op rest) + gain op) +
            (cfg.calls.map fun call => holds call.2).sum := by rw [hmove]
      _ = holds (.call op rest) + (stock cfg.state + cfg.held holds + gain op) := by
            abel

end HeyServer.Lib
