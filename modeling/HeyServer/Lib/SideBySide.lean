import HeyServer.Lib.Typestate

/-!
# Systems side by side

A typing says what the calls of a system know when there are no locks, and which invariant follows.
Two systems that share nothing run side by side, and so do their typings.
-/

namespace HeyServer.Lib

variable {S S' O O' C C' V V' G G' : Type} {R : O → Type} {R' : O' → Type}

/-- What the calls of a system know, as long as every operation meets its guard. -/
structure Typing (G : Type) (sys : System S O R C V) (guard : S → O → Bool) (I : S → Prop) where
  permits : G → O → Prop
  next : (g : G) → (op : O) → R op → G
  Holds : G → S → Prop
  entry : G
  obeys : ∀ c, (sys.program c).Obeys permits next entry
  known : ∀ s, I s → Holds entry s
  step : ∀ g op s, guard s op = true → I s → Holds g s → permits g op →
    I (sys.sem.exec s op).1 ∧ Holds (next g op (sys.sem.exec s op).2) (sys.sem.exec s op).1
  other : ∀ g g' op s, guard s op = true → I s → Holds g s → Holds g' s → permits g' op →
    Holds g (sys.sem.exec s op).1

theorem Typing.keeps {sys : System S O R C V} {guard : S → O → Bool} {I : S → Prop}
    (T : Typing G sys guard I) {allowed : C → Prop} {init : S} {trace : List (Event S O C)}
    {cfg : Config S O R C V} (run : Run sys allowed init trace cfg)
    (hguard : ∀ e ∈ trace, guard e.before e.op = true) (hinit : I init) : I cfg.state := by
  have hmeets : ∀ (s : S) (op : O), (sys.guarded guard).sem.ready s op = true → guard s op = true :=
    fun _ _ ready => (Bool.and_eq_true_iff.mp ready).2
  refine ((run.guarded hguard).restarts fun _ _ => False).typed (I := I) T.permits T.next T.Holds
    (fun _ => (none : Option Unit)) T.entry rfl (fun c _ => T.obeys c) hinit
    (fun _ _ _ rebooted => rebooted.elim) T.known ?_ ?_ ?_
  · intro g op s ready hs hg hpermits
    exact T.step g op s (hmeets s op ready) hs hg hpermits
  · intro g op s t _ _ _ _ ht
    cases ht
  · intro g g' op s ready hs hg hg' hpermits _
    exact T.other g g' op s (hmeets s op ready) hs hg hg' hpermits

/-! ## Two systems -/

namespace Prog
variable {α β : Type}

def inl : Prog O R α → Prog (O ⊕ O') (Sum.elim R R') (α ⊕ β)
  | .done a => .done (.inl a)
  | .call op rest => .call (.inl op) fun r => (rest r).inl

def inr : Prog O' R' β → Prog (O ⊕ O') (Sum.elim R R') (α ⊕ β)
  | .done b => .done (.inr b)
  | .call op rest => .call (.inr op) fun r => (rest r).inr

end Prog

def Semantics.pair (sem : Semantics S O R) (sem' : Semantics S' O' R') :
    Semantics (S × S') (O ⊕ O') (Sum.elim R R') where
  exec s
    | .inl op => (((sem.exec s.1 op).1, s.2), (sem.exec s.1 op).2)
    | .inr op => ((s.1, (sem'.exec s.2 op).1), (sem'.exec s.2 op).2)
  ready s
    | .inl op => sem.ready s.1 op
    | .inr op => sem'.ready s.2 op

def System.pair (sys : System S O R C V) (sys' : System S' O' R' C' V') :
    System (S × S') (O ⊕ O') (Sum.elim R R') (C ⊕ C') (V ⊕ V') where
  sem := sys.sem.pair sys'.sem
  program
    | .inl c => (sys.program c).inl
    | .inr c => (sys'.program c).inr

/-- Both guards, each for its own operations. -/
def pairGuard (guard : S → O → Bool) (guard' : S' → O' → Bool) (s : S × S') : O ⊕ O' → Bool
  | .inl op => guard s.1 op
  | .inr op => guard' s.2 op

section Pair
variable {permits : G → O → Prop} {next : (g : G) → (op : O) → R op → G}
  {permits' : G' → O' → Prop} {next' : (g : G') → (op : O') → R' op → G'}

def pairPermits (permits : G → O → Prop) (permits' : G' → O' → Prop) (g : G × G') : O ⊕ O' → Prop
  | .inl op => permits g.1 op
  | .inr op => permits' g.2 op

def pairNext (next : (g : G) → (op : O) → R op → G) (next' : (g : G') → (op : O') → R' op → G')
    (g : G × G') : (op : O ⊕ O') → Sum.elim R R' op → G × G'
  | .inl op, r => (next g.1 op r, g.2)
  | .inr op, r => (g.1, next' g.2 op r)

theorem Prog.Obeys.inl {α β : Type} {p : Prog O R α} {g : G × G'} (h : p.Obeys permits next g.1) :
    (p.inl : Prog (O ⊕ O') (Sum.elim R R') (α ⊕ β)).Obeys (pairPermits permits permits')
      (pairNext next next') g := by
  induction p generalizing g with
  | done a => trivial
  | call op rest ih => exact ⟨h.1, fun r => ih r (h.2 r)⟩

theorem Prog.Obeys.inr {α β : Type} {p : Prog O' R' β} {g : G × G'}
    (h : p.Obeys permits' next' g.2) :
    (p.inr : Prog (O ⊕ O') (Sum.elim R R') (α ⊕ β)).Obeys (pairPermits permits permits')
      (pairNext next next') g := by
  induction p generalizing g with
  | done a => trivial
  | call op rest ih => exact ⟨h.1, fun r => ih r (h.2 r)⟩

end Pair

/-- What is known side by side. -/
def Typing.pair {sys : System S O R C V} {sys' : System S' O' R' C' V'} {guard : S → O → Bool}
    {guard' : S' → O' → Bool} {I : S → Prop} {I' : S' → Prop} (T : Typing G sys guard I)
    (T' : Typing G' sys' guard' I') :
    Typing (G × G') (sys.pair sys') (pairGuard guard guard') fun s => I s.1 ∧ I' s.2 where
  permits := pairPermits T.permits T'.permits
  next := pairNext T.next T'.next
  Holds g s := T.Holds g.1 s.1 ∧ T'.Holds g.2 s.2
  entry := (T.entry, T'.entry)
  obeys
    | .inl c => (T.obeys c).inl
    | .inr c => (T'.obeys c).inr
  known s hs := ⟨T.known s.1 hs.1, T'.known s.2 hs.2⟩
  step
    | g, .inl op, s, hguard, hs, hg, hpermits =>
      let h := T.step g.1 op s.1 hguard hs.1 hg.1 hpermits
      ⟨⟨h.1, hs.2⟩, h.2, hg.2⟩
    | g, .inr op, s, hguard, hs, hg, hpermits =>
      let h := T'.step g.2 op s.2 hguard hs.2 hg.2 hpermits
      ⟨⟨hs.1, h.1⟩, hg.1, h.2⟩
  other
    | g, g', .inl op, s, hguard, hs, hg, hg', hpermits =>
      ⟨T.other g.1 g'.1 op s.1 hguard hs.1 hg.1 hg'.1 hpermits, hg.2⟩
    | g, g', .inr op, s, hguard, hs, hg, hg', hpermits =>
      ⟨hg.1, T'.other g.2 g'.2 op s.2 hguard hs.2 hg.2 hg'.2 hpermits⟩

end HeyServer.Lib
