import HeyServer.Lib.Program
import Mathlib.Data.List.Induction

/-!
# Interleaved programs

Any number of calls run at the same time on one shared state. A step invokes a
new call or lets one pending call execute its next operation. The trace keeps,
in order, which call executed which operation in which state.

## Implementation notes

`Run.inv` is the rule for properties of the shared state: it suffices to look at
each operation once. `Run.settled` is the rule for what a single call returns: its
program is checked against every state the other calls can produce, described
by a preorder that every operation respects.
-/

namespace HeyServer.Lib
open List Option

/-- Calls `c : C` with their programs over one shared state. -/
structure System (S O : Type) (R : O → Type) (C V : Type) where
  sem : Semantics S O R
  program : C → Prog O R V

/-- The shared state and every call made so far with what is left of its program. -/
structure Config (S O : Type) (R : O → Type) (C V : Type) where
  state : S
  calls : List (C × Prog O R V)

/-- Call number `id` executed `op` in the state `before`. -/
structure Event (S O C : Type) where
  id : Nat
  call : C
  op : O
  before : S

namespace Event
variable {S O C : Type} {R : O → Type}

/-- The state an event leaves behind. -/
def after (sem : Semantics S O R) (e : Event S O C) : S := (sem.exec e.before e.op).1

end Event

variable {S O C V : Type} {R : O → Type}

/-- The runs of a system from `init` in which only `allowed` calls are made. -/
inductive Run (sys : System S O R C V) (allowed : C → Prop) (init : S) :
    List (Event S O C) → Config S O R C V → Prop
  | start : Run sys allowed init [] ⟨init, []⟩
  | invoke {trace cfg} (run : Run sys allowed init trace cfg) (c : C) (ok : allowed c) :
      Run sys allowed init trace ⟨cfg.state, cfg.calls ++ [(c, sys.program c)]⟩
  | exec {trace cfg} (run : Run sys allowed init trace cfg) {id : Nat} {c : C} {op : O}
      {rest : R op → Prog O R V} (pending : cfg.calls[id]? = some (c, .call op rest))
      (ready : sys.sem.ready cfg.state op) :
      Run sys allowed init (trace ++ [⟨id, c, op, cfg.state⟩])
        ⟨(sys.sem.exec cfg.state op).1,
          cfg.calls.set id (c, rest (sys.sem.exec cfg.state op).2)⟩

/-- The operations call number `id` has executed, with the states they ran in. -/
def ownSteps (id : Nat) (trace : List (Event S O C)) : List (S × O) :=
  (trace.filter fun e => e.id = id).map fun e => (e.before, e.op)

theorem ownSteps_append (id : Nat) (trace : List (Event S O C)) (e : Event S O C) :
    ownSteps id (trace ++ [e]) = ownSteps id trace ++ if e.id =
      id then [(e.before, e.op)] else [] := by
  by_cases h : e.id = id <;> simp [ownSteps, h]

theorem mem_ownSteps {id : Nat} {trace : List (Event S O C)} {s : S} {op : O} :
    (s, op) ∈ ownSteps id trace ↔ ∃ e ∈ trace, e.id = id ∧ e.before = s ∧ e.op = op := by
  simp [ownSteps, and_assoc]

variable {α : Type} {xs : List α} {x : α} {P : List α → α → Prop}

/-- An element of a list with one more at its end is that last one or stands before it. -/
theorem snoc_eq_append_cons {earlier later : List α} {last : α}
    (h : xs ++ [last] = earlier ++ x :: later) :
    (x = last ∧ earlier = xs) ∨ ∃ later', xs = earlier ++ x :: later' := by
  rcases eq_nil_or_concat later with rfl | ⟨later, y, rfl⟩
  · obtain ⟨hxs, hlast⟩ := append_inj' h rfl
    exact .inl ⟨(singleton_inj.mp hlast).symm, hxs.symm⟩
  · rw [concat_eq_append, ← cons_append, ← append_assoc] at h
    exact .inr ⟨later, (append_inj' h rfl).1⟩

/-- What holds of the elements of a list and of one more holds of those of the list with it. -/
theorem forall_mem_snoc {p : α → Prop} (h : ∀ y ∈ xs, p y) (hx : p x) : ∀ y ∈ xs ++ [x], p y :=
  forall_mem_append.mpr ⟨h, forall_mem_singleton.mpr hx⟩

theorem of_forall_mem_snoc {p : α → Prop} (h : ∀ y ∈ xs ++ [x], p y) : (∀ y ∈ xs, p y) ∧ p x :=
  (forall_mem_append.mp h).imp_right forall_mem_singleton.mp

/-- Every element of the list stands to those before it in the relation `P`. -/
def AtEach {α : Type} (P : List α → α → Prop) (xs : List α) : Prop :=
  ∀ earlier x later, xs = earlier ++ x :: later → P earlier x

theorem AtEach.init {later : List α} (h : AtEach P (xs ++ later)) : AtEach P xs :=
  fun earlier x rest hsplit => h earlier x (rest ++ later) (by simp [hsplit])

theorem atEach_concat : AtEach P (xs ++ [x]) ↔ AtEach P xs ∧ P xs x := by
  constructor
  · exact fun h => ⟨h.init, h xs x [] rfl⟩
  · rintro ⟨hall, hlast⟩ earlier y later hsplit
    rcases snoc_eq_append_cons hsplit with ⟨rfl, rfl⟩ | ⟨later', hxs⟩
    · exact hlast
    · exact hall earlier y later' hxs

/-- Elements that meet the condition after anything can be added. -/
theorem AtEach.append {ys : List α} (h : AtEach P xs)
    (hys : ∀ y ∈ ys, ∀ earlier, P earlier y) : AtEach P (xs ++ ys) := by
  induction ys generalizing xs with
  | nil => rwa [append_nil]
  | cons y ys ih =>
    have hy : AtEach P (xs ++ [y]) := atEach_concat.mpr ⟨h, hys y mem_cons_self xs⟩
    rw [append_cons]
    exact ih hy fun z hz => hys z (mem_cons_of_mem y hz)

@[simp] theorem atEach_nil : AtEach P [] :=
  fun _ _ _ h => absurd h (by simp)

section Fold
variable {σ : Type} {f : σ → α → σ} {s : σ} {M : σ → α → Prop} {I J : σ → Prop}

/-- What steps keep under their condition holds after steps that all meet it. -/
theorem AtEach.foldl (h : AtEach (fun earlier x => M (earlier.foldl f s) x) xs) (hs : I s)
    (hstep : ∀ t x, I t → M t x → I (f t x)) : I (xs.foldl f s) := by
  induction xs using reverseRecOn with
  | nil => exact hs
  | append_singleton xs x ih =>
    obtain ⟨hearlier, hx⟩ := atEach_concat.mp h
    rw [foldl_append]
    exact hstep _ x (ih hearlier) hx

/-- A property that steps keep exactly under their condition holds in every state passed
exactly if all steps meet it. -/
theorem foldl_iff_atEach (hs : I s ∧ J s) (hI : ∀ t x, I t → M t x → I (f t x))
    (hJ : ∀ t x, I t → J t → (J (f t x) ↔ M t x)) :
    (∀ earlier later, xs = earlier ++ later → J (earlier.foldl f s)) ↔
      AtEach (fun earlier x => M (earlier.foldl f s) x) xs := by
  have hboth : ∀ {ys}, AtEach (fun earlier x => M (earlier.foldl f s) x) ys →
      I (ys.foldl f s) ∧ J (ys.foldl f s) := fun h =>
    h.foldl (I := fun t => I t ∧ J t) hs fun t x ht hx =>
      ⟨hI t x ht.1 hx, (hJ t x ht.1 ht.2).mpr hx⟩
  constructor
  · intro hall
    induction xs using reverseRecOn with
    | nil => exact atEach_nil
    | append_singleton xs x ih =>
      have hearlier := ih fun earlier later hsplit =>
        hall earlier (later ++ [x]) (by simp [hsplit])
      have hafter := hall (xs ++ [x]) [] (append_nil _).symm
      rw [foldl_append] at hafter
      exact atEach_concat.mpr ⟨hearlier, (hJ _ x (hboth hearlier).1 (hboth hearlier).2).mp hafter⟩
  · rintro h earlier later rfl
    exact (hboth h.init).2

end Fold

theorem atEach_iff : AtEach P xs ↔ ∀ i (h : i < xs.length), P (xs.take i) xs[i] := by
  constructor
  · intro hall i hi
    refine hall (xs.take i) xs[i] (xs.drop (i + 1)) ?_
    rw [getElem_cons_drop, take_append_drop]
  · rintro hall earlier x later rfl
    simpa using hall earlier.length (by simp)

instance {α : Type} {P : List α → α → Prop} [∀ earlier x, Decidable (P earlier x)] (xs : List α) :
    Decidable (AtEach P xs) :=
  decidable_of_iff _ atEach_iff.symm

/-- Of two different elements of a list one stands before the other. -/
theorem split_of_mem {y : α} (hx : x ∈ xs) (hy : y ∈ xs) (hne : x ≠ y) :
    (∃ earlier later, xs = earlier ++ y :: later ∧ x ∈ earlier) ∨
      ∃ earlier later, xs = earlier ++ x :: later ∧ y ∈ earlier := by
  obtain ⟨before, after, rfl⟩ := append_of_mem hx
  rcases mem_append.mp hy with hy | hy
  · exact .inr ⟨before, after, rfl, hy⟩
  · have hy : y ∈ after := (mem_cons.mp hy).resolve_left hne.symm
    obtain ⟨between, later, rfl⟩ := append_of_mem hy
    exact .inl ⟨before ++ x :: between, later, by simp, by simp⟩

namespace Run
variable {sys : System S O R C V} {allowed : C → Prop} {init : S}
  {trace : List (Event S O C)} {cfg : Config S O R C V}

/-- A property of every allowed program and of what is left after one of its replies
holds of every pending program. -/
theorem pending (run : Run sys allowed init trace cfg) {P : C → Prog O R V → Prop}
    (hprogram : ∀ c, allowed c → P c (sys.program c))
    (hrest : ∀ c op rest r, P c (.call op rest) → P c (rest r)) :
    ∀ call ∈ cfg.calls, P call.1 call.2 := by
  induction run with
  | start => simp
  | invoke run c ok ih => exact forall_mem_snoc ih (hprogram c ok)
  | exec run pending ready ih =>
    intro call hcall
    rcases mem_or_eq_of_mem_set hcall with hcall | rfl
    · exact ih call hcall
    · exact hrest _ _ _ _ (ih _ (mem_of_getElem? pending))

variable {P : C → O → Prop} {e : Event S O C} {J : List (Event S O C) → S → Prop}

section
variable (run : Run sys allowed init trace cfg)
include run

/-- Every event belongs to a call that has been made. -/
theorem made : ∀ e ∈ trace, cfg.calls[e.id]?.map Prod.fst = some e.call := by
  induction run with
  | start => simp
  | @invoke trace cfg run c ok ih =>
    intro e he
    obtain ⟨call, hcall, hfst⟩ := map_eq_some_iff.mp (ih e he)
    rw [List.getElem?_append_left (List.getElem?_eq_some_iff.mp hcall).1, hcall, map_some, hfst]
  | @exec trace cfg run id c op rest pending ready ih =>
    have hset : ∀ id' : Nat, ((cfg.calls.set id (c, rest (sys.sem.exec cfg.state op).2))[id']?).map
        Prod.fst = cfg.calls[id']?.map Prod.fst := by
      intro id'
      by_cases hid : id = id'
      · subst hid
        rw [List.getElem?_set_self (List.getElem?_eq_some_iff.mp pending).1, pending]
        rfl
      · rw [getElem?_set_ne hid]
    simp only [hset]
    refine forall_mem_snoc ih ?_
    rw [pending]
    rfl

theorem id_lt : ∀ e ∈ trace, e.id < cfg.calls.length := by
  intro e he
  obtain ⟨call, hcall, -⟩ := map_eq_some_iff.mp (run.made e he)
  exact (List.getElem?_eq_some_iff.mp hcall).1

/-- Events with one number belong to one call. -/
theorem call_eq {e' : Event S O C} (he : e ∈ trace)
    (he' : e' ∈ trace) (hid : e.id = e'.id) : e.call = e'.call := by
  have h := run.made e he
  rw [hid, run.made e' he'] at h
  exact (some.inj h).symm

end

section History
variable (run : Run sys allowed init trace cfg)
  (hprogram : ∀ c, allowed c → (sys.program c).Issues (P c)) (hinit : J [] init)
  {earlier later : List (Event S O C)}
include run hprogram hinit

/-- The history rule: what holds of the empty trace and is kept by every operation a call
can issue when it is ready holds of the whole trace and the state it leads to. -/
theorem history_ready
    (hstep : ∀ trace e, P e.call e.op → sys.sem.ready e.before e.op = true → J trace e.before →
      J (trace ++ [e]) (e.after sys.sem)) : J trace cfg.state := by
  induction run with
  | start => exact hinit
  | invoke run c ok ih => exact ih
  | exec run pending ready ih =>
    have hcalls := run.pending hprogram fun c op rest r h => h.2 r
    exact hstep _ _ (hcalls _ (mem_of_getElem? pending)).1 ready ih

/-- The history rule for steps that need not be ready. -/
theorem history
    (hstep : ∀ trace e, P e.call e.op → J trace e.before → J (trace ++ [e]) (e.after sys.sem)) :
    J trace cfg.state :=
  run.history_ready hprogram hinit fun trace e hop _ => hstep trace e hop

/-- The history rule at each event: it holds of the events before it and the state it ran in. -/
theorem history_before
    (hstep : ∀ trace e, P e.call e.op → sys.sem.ready e.before e.op = true → J trace e.before →
      J (trace ++ [e]) (e.after sys.sem))
    (h : trace = earlier ++ e :: later) : J earlier e.before ∧ P e.call e.op := by
  refine (run.history_ready (P := P)
    (J := fun trace s => J trace s ∧ ∀ earlier e later, trace = earlier ++ e :: later →
      J earlier e.before ∧ P e.call e.op) hprogram ⟨hinit, by simp⟩ ?_).2 earlier e later h
  rintro trace e hop hready ⟨hJ, hsplit⟩
  refine ⟨hstep trace e hop hready hJ, ?_⟩
  intro earlier e' later heq
  rcases snoc_eq_append_cons heq with ⟨rfl, rfl⟩ | ⟨later, htrace⟩
  · exact ⟨hJ, hop⟩
  · exact hsplit earlier e' later htrace

end History

/-- A property of every operation the allowed programs can issue holds of each event. -/
theorem issued (run : Run sys allowed init trace cfg)
    (hprogram : ∀ c, allowed c → (sys.program c).Issues (P c)) : ∀ e ∈ trace, P e.call e.op :=
  run.history (J := fun trace _ => ∀ e ∈ trace, P e.call e.op) hprogram (by simp)
    fun _ _ hop hpast => forall_mem_snoc hpast hop

section Evolution
variable (run : Run sys allowed init trace cfg) (hinit : J [] init)
  (hstep : ∀ trace e, sys.sem.ready e.before e.op = true → J trace e.before →
    J (trace ++ [e]) (e.after sys.sem))
include run hinit hstep

/-- The history rule when nothing has to be known about the programs. -/
theorem evolves : J trace cfg.state :=
  run.history_ready (P := fun _ _ => True) (fun c _ => (sys.program c).issues_true) hinit
    fun trace e _ => hstep trace e

theorem evolves_before {earlier later : List (Event S O C)} (h : trace = earlier ++ e :: later) :
    J earlier e.before :=
  (run.history_before (P := fun _ _ => True) (fun c _ => (sys.program c).issues_true) hinit
    (fun trace e _ => hstep trace e) h).1

end Evolution

/-- The invariant rule: what holds at first and is kept by every operation the allowed
programs can issue holds in every state, before and after every event. -/
theorem inv (run : Run sys allowed init trace cfg) {P : O → Prop} {I : S → Prop}
    (hprogram : ∀ c, allowed c → (sys.program c).Issues P) (hinit : I init)
    (hstep : ∀ s op, P op → I s → I (sys.sem.exec s op).1) :
      I cfg.state ∧ ∀ e ∈ trace, I e.before := by
  refine run.history (P := fun _ => P) (J := fun trace s => I s ∧ ∀ e ∈ trace, I e.before)
    hprogram ⟨hinit, by simp⟩ ?_
  intro trace e hop ih
  exact ⟨hstep _ _ hop ih.1, forall_mem_snoc ih.2 ih.1⟩

/-! ### Calls that run alone -/

/-- The events of a call that runs alone. -/
def soloEvents (sem : Semantics S O R) (id : Nat) (c : C) : Prog O R V → S → List (Event S O C)
  | .done _, _ => []
  | .call op rest, s =>
    ⟨id, c, op, s⟩ :: soloEvents sem id c (rest (sem.exec s op).2) (sem.exec s op).1

/-- No operation of the call has to wait. -/
def unblocked (sem : Semantics S O R) : Prog O R V → S → Bool
  | .done _, _ => true
  | .call op rest, s => sem.ready s op && unblocked sem (rest (sem.exec s op).2) (sem.exec s op).1

variable {calls : List (C × Prog O R V)}

/-- A pending call may run to its end without interruption. -/
theorem finish {id : Nat} {c : C} {p : Prog O R V} {s : S}
    (run : Run sys allowed init trace ⟨s, calls⟩) (hpending : calls[id]? = some (c, p))
    (hready : unblocked sys.sem p s = true) :
    Run sys allowed init (trace ++ soloEvents sys.sem id c p s)
      ⟨(p.run sys.sem s).1, calls.set id (c, .done (p.run sys.sem s).2)⟩ := by
  induction p generalizing trace calls s with
  | done v =>
    have hset : calls.set id (c, .done v) = calls := by
      obtain ⟨hid, hget⟩ := List.getElem?_eq_some_iff.mp hpending
      rw [← hget]
      exact set_getElem_self hid
    rw [soloEvents, append_nil, Prog.run_done, hset]
    exact run
  | call op rest ih =>
    rw [unblocked, Bool.and_eq_true] at hready
    have hid := (List.getElem?_eq_some_iff.mp hpending).1
    have hnext := ih _ (run.exec hpending hready.1) (getElem?_set_self hid) hready.2
    rw [append_assoc, set_set] at hnext
    exact hnext

/-- A call made now may run to its end at once. -/
theorem solo {s : S} (run : Run sys allowed init trace ⟨s, calls⟩)
    (c : C) (ok : allowed c) (hready : unblocked sys.sem (sys.program c) s = true) :
    Run sys allowed init (trace ++ soloEvents sys.sem calls.length c (sys.program c) s)
      ⟨((sys.program c).run sys.sem s).1,
        calls ++ [(c, .done ((sys.program c).run sys.sem s).2)]⟩ := by
  have hpending : (calls ++ [(c, sys.program c)])[calls.length]? = some (c, sys.program c) := by
    simp
  have hfinish := (run.invoke c ok).finish hpending hready
  rw [set_append_right _ _ (Nat.le_refl _), Nat.sub_self] at hfinish
  exact hfinish

/-- One more call that runs alone. -/
def serve (sys : System S O R C V) (past : List (Event S O C) × Config S O R C V) (c : C) :
    List (Event S O C) × Config S O R C V :=
  (past.1 ++ soloEvents sys.sem past.2.calls.length c (sys.program c) past.2.state,
    ⟨((sys.program c).run sys.sem past.2.state).1,
      past.2.calls ++ [(c, .done ((sys.program c).run sys.sem past.2.state).2)]⟩)

/-- No call of a sequence has to wait for anything. -/
def serialReady (sys : System S O R C V) (past : List (Event S O C) × Config S O R C V) :
    List C → Bool
  | [] => true
  | c :: cs => unblocked sys.sem (sys.program c) past.2.state &&
    serialReady sys (serve sys past c) cs

/-- Calls made one after the other are a run. -/
theorem serial {past : List (Event S O C) × Config S O R C V}
    (run : Run sys allowed init past.1 past.2)
    (cs : List C) (hallowed : ∀ c ∈ cs, allowed c) (hready : serialReady sys past cs = true) :
    Run sys allowed init (cs.foldl (serve sys) past).1 (cs.foldl (serve sys) past).2 := by
  induction cs generalizing past with
  | nil => exact run
  | cons c cs ih =>
    rw [serialReady, Bool.and_eq_true] at hready
    exact ih (run.solo c (hallowed c mem_cons_self) hready.1)
      (fun c' hc' => hallowed c' (mem_cons_of_mem _ hc')) hready.2

section
variable (sys : System S O R C V)

/-- Calls made one after the other from the start. -/
def serialRun (init : S) (cs : List C) : List (Event S O C) × Config S O R C V :=
  cs.foldl (serve sys) ([], ⟨init, []⟩)

/-- The state calls made one after the other leave. -/
def serialState (s : S) (cs : List C) : S :=
  cs.foldl (fun s c => ((sys.program c).run sys.sem s).1) s

theorem serialState_append (s : S) (cs : List C) (c : C) :
    serialState sys s (cs ++ [c]) = ((sys.program c).run sys.sem (serialState sys s cs)).1 := by
  rw [serialState, foldl_append]
  rfl

end

theorem start_past : Run sys allowed init
    (([], ⟨init, []⟩) : List (Event S O C) × Config S O R C V).1
    (([], ⟨init, []⟩) : List (Event S O C) × Config S O R C V).2 :=
  Run.start

theorem serialRun_run (cs : List C) (hallowed : ∀ c ∈ cs, allowed c)
    (hready : serialReady sys ([], ⟨init, []⟩) cs = true) :
    Run sys allowed init (serialRun sys init cs).1 (serialRun sys init cs).2 := by
  exact start_past.serial cs hallowed hready

end Run

/-! ## What one call returns under interference -/

/-- How the shared state evolves: an invariant and a preorder that every operation
with `P` respects. -/
structure Discipline (sem : Semantics S O R) (P : O → Prop) where
  inv : S → Prop
  grows : S → S → Prop
  refl : ∀ s, grows s s
  trans : ∀ {a b c}, grows a b → grows b c → grows a c
  keeps : ∀ s op, P op → inv s → inv (sem.exec s op).1
  extends_ : ∀ s op, P op → inv s → grows s (sem.exec s op).1

/-- No assumption on what the other calls do. -/
def Discipline.free (sem : Semantics S O R) : Discipline sem fun _ => True where
  inv _ := True
  grows _ _ := True
  refl _ := trivial
  trans _ _ := trivial
  keeps _ _ _ _ := trivial
  extends_ _ _ _ _ := trivial

namespace Discipline
variable {sem : Semantics S O R} {P : O → Prop}

/-- Whatever the other calls do in between, the program ends with a value that
`Q` relates to its own operations and the states they ran in. -/
def Ensures (d : Discipline sem P) (Q : List (S × O) → V → Prop) :
    List (S × O) → Prog O R V → S → Prop
  | own, .done v, _ => Q own v
  | own, .call op rest, s => ∀ t, d.inv t → d.grows s t →
      d.Ensures Q (own ++ [(t, op)]) (rest (sem.exec t op).2) (sem.exec t op).1

variable {d : Discipline sem P} {Q : List (S × O) → V → Prop} {own : List (S × O)} {s : S}
  {α : Type}

theorem Ensures.mono {p : Prog O R V} {t : S} (h : d.Ensures Q own p s)
    (hst : d.grows s t) : d.Ensures Q own p t := by
  cases p with
  | done v => exact h
  | call op rest => exact fun u hu htu => h u hu (d.trans hst htu)

/-- Sequencing: a first part whose operations keep `K` of the call's own steps. -/
theorem Ensures.bind {F : O → Prop} {K : List (S × O) → Prop} {p : Prog O R α} {f : α → Prog O R V}
    (hp : p.Issues F) (hF : ∀ op, F op → P op)
    (hkeep : ∀ own t op, F op → K own → K (own ++ [(t, op)]))
    (hf : ∀ a own s, K own → d.inv s → d.Ensures Q own (f a) s)
    (hown : K own) (hs : d.inv s) : d.Ensures Q own (p >>= f) s := by
  induction p generalizing own s with
  | done a => exact hf a own s hown hs
  | call op rest ih =>
    intro t ht hgrows
    exact ih _ (hp.2 _) (hkeep own t op hp.1 hown) (d.keeps t op (hF op hp.1) ht)

theorem Ensures.of_forall
    (h : ∀ own v, Q own v) (own : List (S × O)) (p : Prog O R V) (s : S) : d.Ensures Q own p s := by
  induction p generalizing own s with
  | done v => exact h own v
  | call op rest ih => exact fun t _ _ => ih _ _ _

theorem Ensures.map {f : α → V} {p : Prog O R α}
    (h : d.Ensures (fun own a => Q own (f a)) own p s) : d.Ensures Q own (f <$> p) s := by
  induction p generalizing own s with
  | done a => exact h
  | call op rest ih => exact fun t ht hgrows => ih _ (h t ht hgrows)

theorem Ensures.ite {c : Prop} [Decidable c] {p q : Prog O R V} (hp : d.Ensures Q own p s)
    (hq : d.Ensures Q own q s) : d.Ensures Q own (if c then p else q) s := by
  split_ifs
  · exact hp
  · exact hq

end Discipline

namespace Run
variable {sys : System S O R C V} {allowed : C → Prop} {init : S}
  {trace : List (Event S O C)} {cfg : Config S O R C V}

section
variable (run : Run sys allowed init trace cfg)
include run

variable {K : C → List (S × O) → Prog O R V → S → Prop} {P : O → Prop}

/-- The rule for single calls: what holds of every program at its start, is kept by its own
steps and is not disturbed by the steps of others holds of what is left of each call. The states
of the run satisfy `I` and its operations `P`. -/
theorem tracked_at {I : S → Prop} (hstates : I cfg.state ∧ ∀ e ∈ trace, I e.before ∧ P e.op)
    (hstart : ∀ c, allowed c → ∀ s, I s → K c [] (sys.program c) s)
    (hown : ∀ c own op rest s, I s → sys.sem.ready s op = true → K c own (.call op rest) s →
      K c (own ++ [(s, op)]) (rest (sys.sem.exec s op).2) (sys.sem.exec s op).1)
    (hother : ∀ c own p s op, P op → I s → sys.sem.ready s op = true → K c own p s →
      K c own p (sys.sem.exec s op).1) :
    ∀ id c p, cfg.calls[id]? = some (c, p) → K c (ownSteps id trace) p cfg.state := by
  induction run with
  | start => simp
  | @invoke trace cfg run c ok ih =>
    intro id c' p hcall
    rcases Nat.lt_or_ge id cfg.calls.length with hid | hid
    · rw [getElem?_append_left hid] at hcall
      exact ih hstates id c' p hcall
    · have hnew : id = cfg.calls.length := by
        have := (List.getElem?_eq_some_iff.mp hcall).1
        rw [length_append, length_singleton] at this
        omega
      have hnone : ownSteps id trace = [] := by
        simp only [ownSteps, map_eq_nil_iff, filter_eq_nil_iff, decide_eq_true_eq]
        intro e he
        have := run.id_lt e he
        omega
      rw [getElem?_append_right hid, hnew, Nat.sub_self] at hcall
      obtain ⟨rfl, rfl⟩ : c = c' ∧ sys.program c = p := by simpa using hcall
      rw [hnone]
      exact hstart c ok _ hstates.1
  | @exec trace cfg run id c op rest pending ready ih =>
    obtain ⟨hearlier, hinv, hop⟩ := of_forall_mem_snoc hstates.2
    have hbefore := ih ⟨hinv, hearlier⟩
    intro id' c' p hcall
    rw [ownSteps_append]
    by_cases hid : id = id'
    · subst hid
      rw [List.getElem?_set_self (List.getElem?_eq_some_iff.mp pending).1] at hcall
      obtain ⟨rfl, rfl⟩ : c = c' ∧ rest _ = p := by simpa using hcall
      rw [if_pos rfl]
      exact hown c _ op rest _ hinv ready (hbefore id c _ pending)
    · rw [getElem?_set_ne hid] at hcall
      rw [if_neg hid, append_nil]
      exact hother c' _ p _ op hop hinv ready (hbefore id' c' p hcall)
/-- The rule for single calls with an invariant that every operation keeps. -/
theorem tracked {I : S → Prop}
    (hissues : ∀ c, allowed c → (sys.program c).Issues P) (hinit : I init)
    (hkeeps : ∀ s op, P op → I s → I (sys.sem.exec s op).1)
    (hstart : ∀ c, allowed c → ∀ s, I s → K c [] (sys.program c) s)
    (hown : ∀ c own op rest s, I s → K c own (.call op rest) s →
      K c (own ++ [(s, op)]) (rest (sys.sem.exec s op).2) (sys.sem.exec s op).1)
    (hother : ∀ c own p s op, P op → I s → K c own p s → K c own p (sys.sem.exec s op).1) :
    ∀ id c p, cfg.calls[id]? = some (c, p) → K c (ownSteps id trace) p cfg.state := by
  obtain ⟨hlast, hbefore⟩ := run.inv hissues hinit hkeeps
  have hissued := run.issued (P := fun _ => P) hissues
  apply run.tracked_at ⟨hlast, fun e he => ⟨hbefore e he, hissued e he⟩⟩ hstart
  · exact fun c own op rest s hs _ h => hown c own op rest s hs h
  · exact fun c own p s op hop hs _ h => hother c own p s op hop hs h
/-- What every program ensures under interference relates the value of each finished call
to the operations that call executed in the run. -/
theorem settled (d : Discipline sys.sem P) {Q : C → List (S × O) → V → Prop} (hinit : d.inv init)
    (hissues : ∀ c, allowed c → (sys.program c).Issues P)
    (hensures : ∀ c, allowed c → ∀ s, d.inv s → d.Ensures (Q c) [] (sys.program c) s) :
    ∀ id c p, cfg.calls[id]? = some (c, p) → d.Ensures (Q c) (ownSteps id trace) p cfg.state := by
  apply run.tracked (K := fun c own p s => d.Ensures (Q c) own p s) hissues hinit d.keeps hensures
  · intro c own op rest s hs h
    exact h s hs (d.refl s)
  · intro c own p s op hop hs h
    exact h.mono (d.extends_ s op hop hs)

/-- What a call has executed determines what it may execute next: `P` relates the
operations it has executed to its next one, at every step of every call. -/
theorem follows {P : C → List (S × O) → O → Prop}
    (hprogram : ∀ c, allowed c → (sys.program c).Follows sys.sem (P c) [])
    {earlier later : List (Event S O C)} {e : Event S O C} (h : trace = earlier ++ e :: later) :
    P e.call (ownSteps e.id earlier) e.op ∧ sys.sem.ready e.before e.op := by
  induction run generalizing later with
  | start => simp at h
  | invoke run c ok ih => exact ih h
  | @exec trace cfg run id c op rest pending ready ih =>
    rcases snoc_eq_append_cons h with ⟨rfl, rfl⟩ | ⟨later, htrace⟩
    · have hcall := run.tracked (P := fun _ => True) (I := fun _ => True)
        (K := fun c own p _ => p.Follows sys.sem (P c) own)
        (fun c _ => (sys.program c).issues_true) trivial (fun _ _ _ _ => trivial)
        (fun c ok _ _ => hprogram c ok) (fun c own op rest s _ hp => hp.2 s)
        (fun c own p s op _ _ hp => hp) id c _ pending
      exact ⟨hcall.1, ready⟩
    · exact ih htrace

end

/-! ### Chosen schedules -/

/-- What happens next: a new call is made or a pending one takes a step. -/
inductive Choice (C : Type)
  | invoke (c : C)
  | step (id : Nat)

/-- The run after one choice; there is none if the call has ended or has to wait. -/
def advance (sys : System S O R C V) (past : List (Event S O C) × Config S O R C V) :
    Choice C → Option (List (Event S O C) × Config S O R C V)
  | .invoke c => some (past.1, ⟨past.2.state, past.2.calls ++ [(c, sys.program c)]⟩)
  | .step id =>
    match past.2.calls[id]? with
    | some (c, .call op rest) =>
      if sys.sem.ready past.2.state op then
        some (past.1 ++ [⟨id, c, op, past.2.state⟩],
          ⟨(sys.sem.exec past.2.state op).1,
            past.2.calls.set id (c, rest (sys.sem.exec past.2.state op).2)⟩)
      else none
    | _ => none

/-- The run of a schedule from the start. -/
def scheduled (sys : System S O R C V) (init : S) (choices : List (Choice C)) :
    Option (List (Event S O C) × Config S O R C V) :=
  choices.foldlM (advance sys) ([], ⟨init, []⟩)

theorem advance_run {past next : List (Event S O C) × Config S O R C V} {choice : Choice C}
    (run : Run sys allowed init past.1 past.2) (hallowed : ∀ c, choice = .invoke c → allowed c)
    (h : advance sys past choice = some next) : Run sys allowed init next.1 next.2 := by
  cases choice with
  | invoke c =>
    cases h
    exact run.invoke c (hallowed c rfl)
  | step id =>
    rw [advance] at h
    split at h
    · rename_i c op rest hpending
      split_ifs at h with hready
      cases h
      exact run.exec hpending hready
    · cases h

/-- A schedule that never has to wait is a run. -/
theorem scheduled_run {choices : List (Choice C)} {next : List (Event S O C) × Config S O R C V}
    (hallowed : ∀ c, .invoke c ∈ choices → allowed c)
    (h : scheduled sys init choices = some next) : Run sys allowed init next.1 next.2 := by
  have hstart : Run sys allowed init _ _ := start_past
  rw [scheduled] at h
  generalize (([], ⟨init, []⟩) : List (Event S O C) × Config S O R C V) = past at hstart h
  induction choices generalizing past with
  | nil =>
    cases h
    exact hstart
  | cons choice choices ih =>
    obtain ⟨mid, hmid, hrest⟩ := bind_eq_some_iff.mp h
    exact ih (fun c hc => hallowed c (mem_cons_of_mem _ hc)) mid
      (advance_run hstart (fun c hc => hallowed c (hc ▸ mem_cons_self)) hmid) hrest

/-- What evaluates to true at the end of a schedule holds at the end of a run. -/
theorem exists_scheduled {Q : List (Event S O C) → Config S O R C V → Prop}
    [∀ trace cfg, Decidable (Q trace cfg)] (choices : List (Choice C))
    (hallowed : ∀ c, .invoke c ∈ choices → allowed c)
    (h : ((scheduled sys init choices).any fun past => decide (Q past.1 past.2)) = true) :
    ∃ trace cfg, Run sys allowed init trace cfg ∧ Q trace cfg := by
  obtain ⟨past, hpast, hQ⟩ := (any_eq_true _ _).mp h
  exact ⟨past.1, past.2, scheduled_run hallowed hpast, of_decide_eq_true hQ⟩

end Run

end HeyServer.Lib
