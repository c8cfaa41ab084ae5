import HeyServer.Lib.Interleaving

/-!
# What calls rely on and what they owe

The other calls only change the shared state in the direction of `grows`. Under this assumption a
program guards its operations, and an operation that takes a charge on itself is followed by one
that discharges it.

## Implementation notes

The invariant of a `Rely` is a fact about the states of the run at hand: the rules ask for it at
every event, so that it may hold because of an assumption on the whole run.
-/

namespace HeyServer.Lib
open List

variable {S O C V X α β : Type} {R : O → Type}

/-- Whatever the replies, the program comes to an operation that pays for `x`. -/
def Prog.Pays (pays : O → X → Prop) (x : X) : Prog O R α → Prop
  | .done _ => False
  | .call op rest => pays op x ∨ ∀ r, (rest r).Pays pays x

theorem Prog.Pays.bind {pays : O → X → Prop} {x : X} {p : Prog O R α} (h : p.Pays pays x)
    (f : α → Prog O R β) : (p >>= f).Pays pays x := by
  induction p with
  | done a => exact h.elim
  | call op rest ih =>
    rcases h with hop | hrest
    · exact .inl hop
    · exact .inr fun r => ih r (hrest r)

/-- An operation is guarded, may incur a charge and may pay one. -/
structure Duties (S O X : Type) where
  guard : S → O → Prop
  incurs : S → O → X → Prop
  pays : O → X → Prop

/-- What a call may assume: every operation moves the state along `grows`. -/
structure Rely (sem : Semantics S O R) where
  inv : S → Prop
  grows : S → S → Prop
  refl : ∀ s, grows s s
  trans : ∀ {a b c}, grows a b → grows b c → grows a c
  extends_ : ∀ s op, inv s → sem.ready s op = true → grows s (sem.exec s op).1

namespace Rely
variable {sem : Semantics S O R}

/-- Whatever the others do in between, each operation of the program is guarded, what it incurs is
paid by the rest of the program, and the value at the end satisfies `Q` from then on. -/
def Fulfils (r : Rely sem) (w : Duties S O X) (Q : α → S → Prop) : Prog O R α → S → Prop
  | .done v, s => ∀ t, r.inv t → r.grows s t → Q v t
  | .call op rest, s => ∀ t, r.inv t → r.grows s t → sem.ready t op = true →
      w.guard t op ∧ (∀ x, w.incurs t op x → (rest (sem.exec t op).2).Pays w.pays x) ∧
        r.Fulfils w Q (rest (sem.exec t op).2) (sem.exec t op).1

theorem Fulfils.mono {r : Rely sem} {w : Duties S O X} {Q : α → S → Prop} {p : Prog O R α} {s t : S}
    (h : r.Fulfils w Q p s) (hst : r.grows s t) : r.Fulfils w Q p t := by
  cases p with
  | done | call => exact fun u hu htu => h u hu (r.trans hst htu)

/-- Sequencing: the second part starts from what the first part has established. -/
theorem Fulfils.bind {r : Rely sem} {w : Duties S O X} {P : α → S → Prop} {Q : β → S → Prop}
    {p : Prog O R α} {f : α → Prog O R β} {s : S} (hp : r.Fulfils w P p s)
    (hf : ∀ a t, (∀ u, r.inv u → r.grows t u → P a u) → r.Fulfils w Q (f a) t) :
    r.Fulfils w Q (p >>= f) s := by
  induction p generalizing s with
  | done a => exact hf a s hp
  | call op rest ih =>
    intro t ht hst hready
    obtain ⟨hguard, hpays, hrest⟩ := hp t ht hst hready
    exact ⟨hguard, fun x hx => (hpays x hx).bind f, ih _ hrest⟩

end Rely

namespace Run
variable {sys : System S O R C V} {allowed : C → Prop} {init : S}
  {trace : List (Event S O C)} {cfg : Config S O R C V} {w : Duties S O X} {Q : C → V → S → Prop}

section Rules
variable (run : Run sys allowed init trace cfg) (r : Rely sys.sem)
  (hprogram : ∀ c, allowed c → ∀ s, r.inv s → r.Fulfils w (Q c) (sys.program c) s)
include run hprogram

section
variable (hstates : r.inv cfg.state ∧ ∀ e ∈ trace, r.inv e.before)
include hstates

/-- What every program fulfils at its start is fulfilled by what is left of each call. -/
theorem fulfilled {id : Nat} {c : C}
    {p : Prog O R V} (hcall : cfg.calls[id]? = some (c, p)) : r.Fulfils w (Q c) p cfg.state := by
  refine run.tracked_at (P := fun _ => True) (I := r.inv)
    (K := fun c _ p s => r.Fulfils w (Q c) p s)
    ⟨hstates.1, fun e he => ⟨hstates.2 e he, trivial⟩⟩ hprogram ?_ ?_ id c p hcall
  · intro c own op rest s hs hready h
    exact (h s hs (r.refl s) hready).2.2
  · intro c own p s op _ hs hready h
    exact h.mono (r.extends_ s op hs hready)

theorem returned {c : C} {v : V} (hcall : (c, .done v) ∈ cfg.calls) : Q c v cfg.state := by
  obtain ⟨id, hid⟩ := getElem?_of_mem hcall
  exact run.fulfilled r hprogram hstates hid cfg.state hstates.1 (r.refl _)

end

theorem guard_holds (hstates : ∀ e ∈ trace, r.inv e.before) :
    ∀ e ∈ trace, w.guard e.before e.op := by
  induction run with
  | start => simp
  | invoke run c ok ih => exact ih hstates
  | @exec trace cfg run id c op rest pending ready ih =>
    obtain ⟨hearlier, hnow⟩ := of_forall_mem_snoc hstates
    refine forall_mem_snoc (ih hearlier) ?_
    exact (run.fulfilled r hprogram ⟨hnow, hearlier⟩ pending cfg.state hnow (r.refl _) ready).1

/-- The rule of charges: `I` holds as long as `x` is not incurred, or a pending call is going to pay
for `x`, which restores `I`. -/
theorem owed {I : S → Prop} {x : X} {G : S → O → Prop} (hstates : ∀ e ∈ trace, r.inv e.before)
    (hevents : ∀ e ∈ trace, G e.before e.op) (hinit : I init)
    (hkeep : ∀ s op, r.inv s → sys.sem.ready s op = true → G s op → I s →
      I (sys.sem.exec s op).1 ∨ w.incurs s op x)
    (hpays : ∀ s op, G s op → w.pays op x → I (sys.sem.exec s op).1) :
    I cfg.state ∨ ∃ call ∈ cfg.calls, call.2.Pays w.pays x := by
  induction run with
  | start => exact .inl hinit
  | invoke run c ok ih =>
    rcases ih hstates hevents with hstate | ⟨call, hcall, hcallpays⟩
    · exact .inl hstate
    · exact .inr ⟨call, mem_append_left _ hcall, hcallpays⟩
  | @exec trace cfg run id c op rest pending ready ih =>
    obtain ⟨hearlier, hnow⟩ := of_forall_mem_snoc hstates
    obtain ⟨hpast, hnext⟩ := of_forall_mem_snoc hevents
    have hlt : id < cfg.calls.length := (List.getElem?_eq_some_iff.mp pending).1
    have hself : (c, rest (sys.sem.exec cfg.state op).2) ∈
        cfg.calls.set id (c, rest (sys.sem.exec cfg.state op).2) :=
      mem_of_getElem? (getElem?_set_self hlt)
    rcases ih hearlier hpast with hstate | ⟨call, hcall, hcallpays⟩
    · rcases hkeep cfg.state op hnow ready hnext hstate with hstate' | hincurs
      · exact .inl hstate'
      · have hrest := (run.fulfilled r hprogram ⟨hnow, hearlier⟩ pending cfg.state hnow (r.refl _)
          ready).2.1 x hincurs
        exact .inr ⟨_, hself, hrest⟩
    · obtain ⟨id', hid'⟩ := getElem?_of_mem hcall
      by_cases hsame : id = id'
      · -- the call that is going to pay takes its next step
        subst hsame
        cases pending.symm.trans hid'
        rcases hcallpays with hop | hrest
        · exact .inl (hpays cfg.state op hnext hop)
        · exact .inr ⟨_, hself, hrest _⟩
      · refine .inr ⟨call, mem_of_getElem? (i := id') ?_, hcallpays⟩
        rw [getElem?_set_ne hsame, hid']

end Rules

end Run

end HeyServer.Lib
