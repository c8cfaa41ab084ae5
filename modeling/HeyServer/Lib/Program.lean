import Mathlib.Data.List.Basic

/-!
# Programs of atomic operations

A program is a tree of atomic operations: each node names one operation and
continues with its reply. The operations are data, so one program can be run
alone, cut by a crash after any operation, or interleaved with other programs.
-/

namespace HeyServer.Lib

/-- A computation that issues operations `op : O` and reads replies of type `R op`. -/
inductive Prog (O : Type) (R : O → Type) (α : Type)
  | done (value : α)
  | call (op : O) (rest : R op → Prog O R α)

/-- What one operation does to the state and what it replies. An operation that
is not `ready` waits, as a lock that is held does. -/
structure Semantics (S O : Type) (R : O → Type) where
  exec : S → (op : O) → S × R op
  ready : S → O → Bool := fun _ _ => true

namespace Prog

variable {S O α β γ : Type} {R : O → Type}

/-- Sequential composition. -/
def bind : Prog O R α → (α → Prog O R β) → Prog O R β
  | done a, f => f a
  | call op rest, f => call op fun r => (rest r).bind f

/-- The program that issues one operation and returns its reply. -/
def perform (op : O) : Prog O R (R op) := call op done

instance : Monad (Prog O R) where
  pure := done
  bind := bind

@[simp] theorem done_bind (a : α) (f : α → Prog O R β) : done a >>= f = f a := rfl

@[simp] theorem call_bind (op : O) (rest : R op → Prog O R α) (f : α → Prog O R β) :
    call op rest >>= f = call op fun r => rest r >>= f := rfl

@[simp] theorem perform_bind (op : O) (f : R op → Prog O R β) :
    (perform op : Prog O R (R op)) >>= f = call op f := rfl

theorem bind_done (p : Prog O R α) : p >>= done = p := by
  induction p with
  | done a => rfl
  | call op rest ih =>
    exact congrArg (call op) (funext ih)

theorem bind_assoc (p : Prog O R α) (f : α → Prog O R β) (g : β → Prog O R γ) :
    p >>= f >>= g = p >>= fun a => f a >>= g := by
  induction p with
  | done a => rfl
  | call op rest ih =>
    exact congrArg (call op) (funext ih)

instance : LawfulMonad (Prog O R) := LawfulMonad.mk' _ bind_done done_bind bind_assoc

/-! ## Running alone -/

/-- The final state and value when the program runs without interruption. -/
def run (sem : Semantics S O R) : Prog O R α → S → S × α
  | done a, s => (s, a)
  | call op rest, s => (rest (sem.exec s op).2).run sem (sem.exec s op).1

section
variable (sem : Semantics S O R)

@[simp] theorem run_done (a : α) (s : S) : (done a : Prog O R α).run sem s = (s, a) := rfl

@[simp] theorem run_call (op : O) (rest : R op → Prog O R α) (s : S) :
    (call op rest).run sem s = (rest (sem.exec s op).2).run sem (sem.exec s op).1 := rfl

theorem run_bind (p : Prog O R α) (f : α → Prog O R β) (s : S) :
    (p >>= f).run sem s = (f (p.run sem s).2).run sem (p.run sem s).1 := by
  induction p generalizing s with
  | done a => rfl
  | call op rest ih =>
    rw [call_bind, run_call, run_call]
    exact ih _ _

end

/-- The states a crash can leave behind: the one before each operation and the last one. -/
def crashStates (sem : Semantics S O R) : Prog O R α → S → List S
  | done _, s => [s]
  | call op rest, s => s :: (rest (sem.exec s op).2).crashStates sem (sem.exec s op).1

theorem crashStates_call (sem : Semantics S O R) (op : O) (rest : R op → Prog O R α) (s : S) :
    (call op rest).crashStates sem s =
      s :: (rest (sem.exec s op).2).crashStates sem (sem.exec s op).1 := rfl

/-! ## The operations a program can issue -/

/-- Every operation the program can issue, under any replies, satisfies `P`. -/
def Issues (P : O → Prop) : Prog O R α → Prop
  | done _ => True
  | call op rest => P op ∧ ∀ r, (rest r).Issues P

variable {P : O → Prop} {p : Prog O R α} {f : α → Prog O R β} {sem : Semantics S O R}
  {own : List (S × O)}

theorem Issues.mono {Q : O → Prop} (h : ∀ op, P op → Q op) (hp : p.Issues P) : p.Issues Q := by
  induction p with
  | done a => trivial
  | call op rest ih => exact ⟨h op hp.1, fun r => ih r (hp.2 r)⟩

theorem Issues.bind (hp : p.Issues P) (hf : ∀ a, (f a).Issues P) : (p >>= f).Issues P := by
  induction p with
  | done a => exact hf a
  | call op rest ih => exact ⟨hp.1, fun r => ih r (hp.2 r)⟩

theorem Issues.map {f : α → β} (hp : p.Issues P) : (f <$> p).Issues P := by
  exact hp.bind fun _ => trivial

theorem Issues.ite {c : Prop} [Decidable c] {q : Prog O R α} (hp : p.Issues P)
    (hq : q.Issues P) : (if c then p else q).Issues P := by
  split_ifs
  · exact hp
  · exact hq

theorem issues_true (p : Prog O R α) : p.Issues fun _ => True := by
  induction p with
  | done a => trivial
  | call op rest ih => exact ⟨trivial, ih⟩

/-- Every operation the program issues is related by `P` to those it has issued before and
the states they ran in, whatever happens in between. -/
def Follows (sem : Semantics S O R) (P : List (S × O) → O → Prop) :
    List (S × O) → Prog O R α → Prop
  | _, done _ => True
  | own, call op rest => P own op ∧ ∀ t, (rest (sem.exec t op).2).Follows sem P (own ++ [(t, op)])

theorem Issues.follows {Q : List (S × O) → O → Prop}
    (h : ∀ own op, P op → Q own op) (hp : p.Issues P) (own : List (S × O)) :
      p.Follows sem Q own := by
  induction p generalizing own with
  | done a => trivial
  | call op rest ih => exact ⟨h own op hp.1, fun t => ih _ (hp.2 _) _⟩

theorem Follows.bind {P : List (S × O) → O → Prop} (hp : p.Follows sem P own)
    (hf : ∀ a own, (f a).Follows sem P own) : (p >>= f).Follows sem P own := by
  induction p generalizing own with
  | done a => exact hf a own
  | call op rest ih => exact ⟨hp.1, fun t => ih _ (hp.2 t)⟩

/-- Sequencing after a first part whose operations keep `K` of the own steps. -/
theorem Follows.bind_keeping {P : List (S × O) → O → Prop} {F : O → Prop}
    {K : List (S × O) → Prop} (hp : p.Issues F)
    (hF : ∀ own op, F op → P own op) (hkeep : ∀ own t op, F op → K own → K (own ++ [(t, op)]))
    (hf : ∀ a own, K own → (f a).Follows sem P own) (hown : K own) :
      (p >>= f).Follows sem P own := by
  induction p generalizing own with
  | done a => exact hf a own hown
  | call op rest ih => exact ⟨hF own op hp.1, fun t => ih _ (hp.2 _) (hkeep own t op hp.1 hown)⟩

theorem Follows.map {P : List (S × O) → O → Prop} {f : α → β} (hp : p.Follows sem P own) :
    (f <$> p).Follows sem P own := by
  induction p generalizing own with
  | done a => trivial
  | call op rest ih => exact ⟨hp.1, fun t => ih _ (hp.2 t)⟩

theorem Follows.ite {P : List (S × O) → O → Prop} {c : Prop} [Decidable c]
    {q : Prog O R α} (hp : p.Follows sem P own) (hq : q.Follows sem P own) :
    (if c then p else q).Follows sem P own := by
  split_ifs
  · exact hp
  · exact hq

/-- What every operation of a program keeps holds when it has run. -/
theorem Issues.run_inv {I : S → Prop}
    (hp : p.Issues P) (hstep : ∀ s op, P op → I s → I (sem.exec s op).1) {s : S} (hs : I s) :
    I (p.run sem s).1 := by
  induction p generalizing s with
  | done a => exact hs
  | call op rest ih => exact ih _ (hp.2 _) (hstep s op hp.1 hs)

/-! ## Programs that may fail -/

section Fallible
variable {ε : Type} {P : O → Prop}

theorem run_bindE (x : ExceptT ε (Prog O R) α) (f : α → ExceptT ε (Prog O R) β) :
    (x >>= f).run = x.run >>= fun r => match r with
      | .ok a => (f a).run
      | .error e => done (.error e) := by
  rw [ExceptT.run_bind]
  congr 1
  funext r
  cases r <;> rfl

/-- Run without interruption, the program leaves the state as it is and gives `v`. -/
def Yields (sem : Semantics S O R) (x : ExceptT ε (Prog O R) α) (s : S) (v : Except ε α) : Prop :=
  x.run.run sem s = (s, v)

variable {sem : Semantics S O R} {x : ExceptT ε (Prog O R) α} {f : α → ExceptT ε (Prog O R) β}
  {s : S}

theorem Yields.bind {v : Except ε α} {w : α → Except ε β}
    (hx : Yields sem x s v) (hf : ∀ a, v = .ok a → Yields sem (f a) s (w a)) :
    Yields sem (x >>= f) s (v >>= w) := by
  rw [Yields, run_bindE, run_bind, hx]
  cases v with
  | ok a => exact hf a rfl
  | error e => rfl

theorem Yields.bind_error {e : ε} (hx : Yields sem x s (.error e)) :
    Yields sem (x >>= f) s (.error e) := by
  rw [Yields, run_bindE, run_bind, hx]
  rfl

theorem Yields.run_bind {a : α} (hx : Yields sem x s (.ok a)) :
    (x >>= f).run.run sem s = (f a).run.run sem s := by
  rw [run_bindE, Prog.run_bind, hx]

theorem Yields.state_eq {v : Except ε α} (hx : Yields sem x s v) : (x.run.run sem s).1 = s := by
  rw [hx]

theorem yields_liftM (sem : Semantics S O R) (v : Except ε α) (s : S) :
    Yields sem (liftM v : ExceptT ε (Prog O R) α) s v := by
  cases v <;> rfl

theorem run_liftM_bind (e : Except ε α) (f : α → ExceptT ε (Prog O R) β) :
    ((liftM e : ExceptT ε (Prog O R) α) >>= f).run = match e with
      | .ok a => (f a).run
      | .error e => done (.error e) := by
  cases e <;> rfl

theorem run_mapE (x : ExceptT ε (Prog O R) α) (f : α → β) :
    (f <$> x).run = x.run >>= fun r => done (r.map f) := by
  rw [ExceptT.run_map]
  rfl

@[simp] theorem issues_throw (e : ε) : (throw e : ExceptT ε (Prog O R) α).run.Issues P := trivial

@[simp] theorem issues_liftM (e : Except ε α) : (liftM e : ExceptT ε (Prog O R) α).run.Issues P :=
    trivial

theorem Issues.bindE (hx : x.run.Issues P) (hf : ∀ a, (f a).run.Issues P) :
    (x >>= f).run.Issues P := by
  apply hx.bind
  intro r
  cases r with
  | ok a => exact hf a
  | error e => trivial

/-- What follows a check is only reached with the value the check gives. -/
theorem issues_liftM_bind {e : Except ε α} (hf : ∀ a, e = .ok a → (f a).run.Issues P) :
    ((liftM e : ExceptT ε (Prog O R) α) >>= f).run.Issues P := by
  cases e with
  | ok a => exact hf a rfl
  | error e => trivial

/-- A guard that throws leaves the other branch. -/
theorem issues_guard {c : Prop} [Decidable c] {e : ε}
    (hx : ¬ c → x.run.Issues P) : (if c then throw e else x).run.Issues P := by
  split_ifs with hc
  · exact issues_throw e
  · exact hx hc

theorem Issues.mapE {f : α → β} (hx : x.run.Issues P) : (f <$> x).run.Issues P := by
  rw [run_mapE]
  exact hx.bind fun _ => trivial

end Fallible

end Prog

end HeyServer.Lib
