import HeyServer.Lib.Custody
import HeyServer.Uptime.Engine
import Mathlib.Algebra.Order.Group.Multiset

/-!
# Heartbeats between check and table

A heartbeat is in the batcher's buffer, in a batch a flush has taken out of it, or in the
table. A flush that is about to insert its batch or to put it back holds the batch.
-/

namespace HeyServer.Uptime
open Lib List

variable {V : Type}

abbrev EngineEvent := Event Engine EngineOp EngineCall

abbrev EngineConfig := Config Engine EngineOp EngineReply EngineCall EngineResult

/-- The batch a program has taken and neither stored nor put back. -/
def holds : EngineProg V → List UptimeHeartbeat
  | .call (.insertBatch batch) _ => batch
  | .call (.putBack batch) _ => batch
  | _ => []

/-- The batches being inserted. -/
def inFlight (cfg : EngineConfig) : List UptimeHeartbeat :=
  cfg.calls.flatMap fun call => holds call.2

/-- The heartbeats passed to `Add`. -/
def added (trace : List EngineEvent) : List UptimeHeartbeat :=
  trace.flatMap fun e =>
    match e.op with
    | .append h => [h]
    | _ => []

variable (faulty : Nat → Bool)

/-- The calls that have a batch out. -/
def flushing (trace : List EngineEvent) : List Nat :=
  trace.foldl (fun ids e =>
    match e.op with
    | .take => if e.before.buffer = [] then ids else ids ++ [e.id]
    | .insertBatch batch =>
      if (e.before.insertBatch faulty batch).2 then ids.filter (· ≠ e.id) else ids
    | .putBack _ => ids.filter (· ≠ e.id)
    | _ => ids) []

/-- No flush takes a batch while another one is out. -/
def SingleFlusher (trace : List EngineEvent) : Prop :=
  AtEach (fun earlier e => e.op = .take → flushing faulty earlier = []) trace

/-- The call deletes no monitor. -/
def EngineCall.KeepsMonitors : EngineCall → Prop
  | .deleteMonitor _ => False
  | _ => True

/-! ## What the programs hold -/

/-- What a program holds after one of its operations. -/
def Hands : (op : EngineOp) → (EngineReply op → EngineProg V) → Prop
  | .take, rest => ∀ batch, holds (rest batch) = batch
  | .insertBatch batch, rest => batch ≠ [] ∧ holds (rest true) = [] ∧ holds (rest false) = batch
  | .putBack batch, rest => batch ≠ [] ∧ holds (rest ()) = []
  | .append _, rest => ∀ r, holds (rest r) = []
  | .transition _, rest => holds (rest ()) = []
  | .getMonitor _, rest => ∀ r, holds (rest r) = []
  | .deleteMonitor _, rest => holds (rest ()) = []
  | .running _, rest => ∀ r, holds (rest r) = []
  | .removeMonitor _, rest => holds (rest ()) = []

/-- The program takes batches and lets go of them as `flush` does. -/
def Handles : EngineProg V → Prop
  | .done _ => True
  | .call op rest => Hands op rest ∧ ∀ r, Handles (rest r)

variable {α : Type} {f : α → EngineProg V} {p : EngineProg α}

theorem holds_bind (hf : ∀ a, holds (f a) = []) : holds (p >>= f) = holds p := by
  cases p with
  | done a => exact hf a
  | call op rest => cases op <;> rfl

theorem Hands.bind {op : EngineOp} {rest : EngineReply op → EngineProg α}
    (h : Hands op rest) (hf : ∀ a, holds (f a) = []) : Hands op fun r => rest r >>= f := by
  cases op with
  | take =>
    intro batch
    rw [holds_bind hf]
    exact h batch
  | insertBatch batch => exact ⟨h.1, (holds_bind hf).trans h.2.1, (holds_bind hf).trans h.2.2⟩
  | putBack batch => exact ⟨h.1, (holds_bind hf).trans h.2⟩
  | append _ | getMonitor _ | running _ => exact fun r => (holds_bind hf).trans (h r)
  | transition _ | deleteMonitor _ | removeMonitor _ => exact (holds_bind hf).trans h

theorem Handles.bind (hp : Handles p)
    (hf : ∀ a, Handles (f a) ∧ holds (f a) = []) : Handles (p >>= f) := by
  induction p with
  | done a => exact (hf a).1
  | call op rest ih => exact ⟨hp.1.bind fun a => (hf a).2, fun r => ih r (hp.2 r)⟩

/-- The program begins without a batch. -/
def Idle (p : EngineProg V) : Prop := Handles p ∧ holds p = []

theorem Idle.bind (hp : Idle p) (hf : ∀ a, Idle (f a)) : Idle (p >>= f) :=
  ⟨hp.1.bind hf, (holds_bind fun a => (hf a).2).trans hp.2⟩

theorem idle_pure (v : V) : Idle (pure v : EngineProg V) := ⟨trivial, rfl⟩

/-- An operation that brings no batch. -/
theorem idle_call {op : EngineOp} {rest : EngineReply op → EngineProg V}
    (hop : (∀ r, holds (rest r) = []) → Hands op rest) (hholds : holds (.call op rest) = [])
    (h : ∀ r, Idle (rest r)) : Idle (.call op rest) :=
  ⟨⟨hop fun r => (h r).2, fun r => (h r).1⟩, hholds⟩

theorem idle_flush : Idle flush := by
  have hrest : ∀ batch : List UptimeHeartbeat,
      Handles (if batch = [] then pure () else insertOrPutBack batch) ∧
        holds (if batch = [] then pure () else insertOrPutBack batch) = batch := by
    intro batch
    split_ifs with hempty
    · rw [hempty]
      exact ⟨trivial, rfl⟩
    · refine ⟨⟨⟨hempty, rfl, rfl⟩, ?_⟩, rfl⟩
      rintro (_ | _)
      · exact ⟨⟨hempty, rfl⟩, fun _ => trivial⟩
      · trivial
  exact ⟨⟨fun batch => (hrest batch).2, fun batch => (hrest batch).1⟩, rfl⟩

theorem idle_add (h : UptimeHeartbeat) : Idle (add h) := by
  refine idle_call id rfl ?_
  rintro (_ | _)
  · exact idle_pure ()
  · exact idle_flush

theorem idle_runCheck (c : Check) : Idle (runCheck c) :=
  (idle_add _).bind fun _ => ⟨⟨rfl, fun _ => trivial⟩, rfl⟩

theorem idle_program (c : EngineCall) : Idle c.program := by
  cases c with
  | add h => exact (idle_add h).bind fun _ => idle_pure _
  | flush => exact idle_flush.bind fun _ => idle_pure _
  | removeMonitor id => exact ⟨⟨rfl, fun _ => trivial⟩, rfl⟩
  | tick c =>
    refine idle_call id rfl ?_
    rintro (_ | _)
    · exact idle_pure _
    · exact (idle_runCheck c).bind fun _ => idle_pure _
  | checkNow c =>
    refine idle_call id rfl ?_
    rintro (_ | m)
    · exact idle_pure _
    · show Idle (checkFound c (some m))
      unfold checkFound
      dsimp only
      split_ifs
      · exact idle_pure _
      · exact (idle_runCheck _).bind fun _ => idle_flush.bind fun _ => idle_pure _
  | deleteMonitor monitor =>
    refine idle_call id rfl ?_
    rintro (_ | m)
    · exact idle_pure _
    · exact ⟨⟨rfl, fun _ => ⟨rfl, fun _ => trivial⟩⟩, rfl⟩

/-! ## The account -/

/-- What the table and the buffer have. -/
def stock (e : Engine) : Multiset UptimeHeartbeat := e.db.stored + e.buffer

/-- What an operation brings in. -/
def gain : EngineOp → Multiset UptimeHeartbeat
  | .append h => {h}
  | _ => 0

variable (faulty : Nat → Bool)

/-- A batch goes into the table as a whole or stays with the flush. -/
theorem Engine.insertBatch_cases (e : Engine) (batch : List UptimeHeartbeat) :
    ((e.insertBatch faulty batch).2 = true ∧
      (e.insertBatch faulty batch).1.db.stored = e.db.stored ++ batch ∧
      (e.insertBatch faulty batch).1.db.getMonitor = e.db.getMonitor ∧
      (e.insertBatch faulty batch).1.buffer = e.buffer) ∨ ((e.insertBatch faulty batch).2 = false ∧
      (e.insertBatch faulty batch).1.db = e.db ∧
        (e.insertBatch faulty batch).1.buffer = e.buffer) := by
  unfold Engine.insertBatch
  by_cases hfaulty : faulty e.attempts = true
  · simp [hfaulty]
  · cases hinsert : e.db.insertHeartbeatBatch batch with
    | none => simp [hfaulty]
    | some db =>
      obtain ⟨-, hmonitors, -, hstored⟩ := UptimeDb.insertHeartbeatBatch_eq_some hinsert
      simp [hfaulty, hmonitors, hstored]

/-- The operation deletes no monitor. -/
def EngineOp.KeepsMonitors : EngineOp → Prop
  | .deleteMonitor _ => False
  | _ => True

theorem keepsMonitors_flush : flush.Issues EngineOp.KeepsMonitors := by
  refine ⟨trivial, fun batch => ?_⟩
  refine Prog.Issues.ite trivial ⟨trivial, ?_⟩
  rintro (_ | _)
  · exact ⟨trivial, fun _ => trivial⟩
  · trivial

theorem keepsMonitors_add (h : UptimeHeartbeat) : (add h).Issues EngineOp.KeepsMonitors := by
  refine ⟨trivial, ?_⟩
  rintro (_ | _)
  · trivial
  · exact keepsMonitors_flush

theorem keepsMonitors_runCheck (c : Check) : (runCheck c).Issues EngineOp.KeepsMonitors :=
  (keepsMonitors_add _).bind fun _ => ⟨trivial, fun _ => trivial⟩

theorem keepsMonitors_program {c : EngineCall} (h : c.KeepsMonitors) :
    c.program.Issues EngineOp.KeepsMonitors := by
  cases c with
  | add heartbeat => exact (keepsMonitors_add heartbeat).bind fun _ => trivial
  | flush => exact keepsMonitors_flush.bind fun _ => trivial
  | tick c =>
    refine ⟨trivial, ?_⟩
    rintro (_ | _)
    · trivial
    · exact (keepsMonitors_runCheck c).bind fun _ => trivial
  | checkNow c =>
    refine ⟨trivial, ?_⟩
    rintro (_ | m)
    · trivial
    · show (checkFound c (some m)).Issues _
      exact Prog.Issues.ite trivial
        ((keepsMonitors_runCheck _).bind fun _ => keepsMonitors_flush.bind fun _ => trivial)
  | deleteMonitor id => exact h.elim
  | removeMonitor id => exact ⟨trivial, fun _ => trivial⟩

/-- An operation that moves nothing. -/
theorem balanced_idle {e next : Engine} {p : EngineProg V} (hdb : next.db.stored = e.db.stored)
    (hbuffer : next.buffer = e.buffer) (hholds : holds p = []) :
    stock next + (holds p : Multiset UptimeHeartbeat) =
      stock e + (([] : List UptimeHeartbeat) : Multiset UptimeHeartbeat) + 0 := by
  rw [hholds, stock, stock, hdb, hbuffer, add_zero]

theorem Handles.balanced {p : EngineProg V} (hp : Handles p)
    (hkeeps : p.Issues EngineOp.KeepsMonitors) :
    p.Balanced (engineSemantics faulty) stock
      (fun p => (holds p : Multiset UptimeHeartbeat)) gain := by
  induction p with
  | done v => trivial
  | call op rest ih =>
    refine ⟨?_, fun r => ih r (hp.2 r) (hkeeps.2 r)⟩
    intro e
    have hhands := hp.1
    cases op with
    | append h =>
      show (e.db.stored : Multiset UptimeHeartbeat) + (e.buffer ++ [h] : List UptimeHeartbeat) +
        (holds (rest _) : Multiset UptimeHeartbeat) = stock e + ([] : List UptimeHeartbeat) + {h}
      rw [hhands _, stock, ← Multiset.coe_add, Multiset.coe_nil, add_zero, add_zero, add_assoc]
      rfl
    | take =>
      show (e.db.stored : Multiset UptimeHeartbeat) + ([] : List UptimeHeartbeat) +
        (holds (rest e.buffer) : Multiset UptimeHeartbeat) =
          stock e + ([] : List UptimeHeartbeat) + 0
      rw [hhands _, stock, Multiset.coe_nil, add_zero, add_zero, add_zero]
    | insertBatch batch =>
      obtain ⟨-, htrue, hfalse⟩ := hhands
      show stock (e.insertBatch faulty batch).1 + (holds (rest (e.insertBatch faulty batch).2) :
        Multiset UptimeHeartbeat) = stock e + (batch : Multiset UptimeHeartbeat) + 0
      rcases e.insertBatch_cases faulty batch with ⟨hok, hstored, -, hbuffer⟩ | ⟨hok, hdb, hbuffer⟩
      · rw [hok, htrue, stock, stock, hstored, hbuffer, ← Multiset.coe_add, Multiset.coe_nil]
        abel
      · rw [hok, hfalse, stock, stock, hdb, hbuffer, add_zero]
    | putBack batch =>
      show (e.db.stored : Multiset UptimeHeartbeat) + (batch ++ e.buffer : List UptimeHeartbeat) +
        (holds (rest ()) : Multiset UptimeHeartbeat) =
          stock e + (batch : Multiset UptimeHeartbeat) + 0
      rw [hhands.2, stock, ← Multiset.coe_add, Multiset.coe_nil]
      abel
    | transition c => exact balanced_idle (transition_frame e.db c).2 rfl hhands
    | getMonitor id | running id => exact balanced_idle rfl rfl (hhands _)
    | removeMonitor id => exact balanced_idle rfl rfl hhands
    | deleteMonitor id => exact hkeeps.1.elim

theorem held_eq_inFlight (cfg : EngineConfig) :
    cfg.held (fun p => (holds p : Multiset UptimeHeartbeat)) = inFlight cfg := by
  unfold Config.held inFlight
  induction cfg.calls with
  | nil => rfl
  | cons call calls ih =>
    rw [map_cons, sum_cons, ih, flatMap_cons, Multiset.coe_add]

variable (trace : List EngineEvent)

theorem sum_gain_eq_added :
    (trace.map fun e => gain e.op).sum = (added trace : Multiset UptimeHeartbeat) := by
  unfold added
  induction trace with
  | nil => rfl
  | cons e trace ih =>
    rw [map_cons, sum_cons, ih, flatMap_cons, ← Multiset.coe_add]
    congr 1
    cases e.op <;> rfl

/-! ## The order -/

theorem flushing_concat (e : EngineEvent) : flushing faulty (trace ++ [e]) = match e.op with
      | .take => if e.before.buffer = [] then flushing faulty trace
          else flushing faulty trace ++ [e.id]
      | .insertBatch batch =>
        if (e.before.insertBatch faulty batch).2 then (flushing faulty trace).filter (· ≠ e.id)
        else flushing faulty trace
      | .putBack _ => (flushing faulty trace).filter (· ≠ e.id)
      | _ => flushing faulty trace := by
  simp only [flushing, foldl_append, foldl_cons, foldl_nil]

theorem added_concat (e : EngineEvent) : added (trace ++ [e]) = added trace ++ match e.op with
      | .append h => [h]
      | _ => [] := by
  simp [added]

section Set
variable {α β : Type} {f : α → List β} {xs : List α} {i : Nat} {x y : α}

theorem flatMap_set_same (hx : xs[i]? = some x) (hf : f y = f x) :
    (xs.set i y).flatMap f = xs.flatMap f := by
  obtain ⟨hi, rfl⟩ := List.getElem?_eq_some_iff.mp hx
  rw [flatMap_def, map_set, hf, ← map_set, set_getElem_self, flatMap_def]

/-- Where no other element has anything, one element's part is all there is. -/
theorem flatMap_eq_of_alone (hx : xs[i]? = some x)
    (hothers : ∀ j z, xs[j]? = some z → j ≠ i → f z = []) : xs.flatMap f = f x := by
  induction xs generalizing i with
  | nil => cases hx
  | cons head tail ih =>
    cases i with
    | zero =>
      cases hx
      have htail : tail.flatMap f = [] := by
        refine flatMap_eq_nil_iff.mpr fun z hz => ?_
        obtain ⟨j, hj⟩ := mem_iff_getElem?.mp hz
        exact hothers (j + 1) z hj (by omega)
      rw [flatMap_cons, htail, append_nil]
    | succ i =>
      have hhead : f head = [] := hothers 0 head rfl (by omega)
      rw [flatMap_cons, hhead, nil_append]
      exact ih hx fun j z hz hne => hothers (j + 1) z hz (by omega)

end Set

/-- A call that holds a batch is the only one that has a batch out. -/
def Alone (ids : List Nat) (calls : List (EngineCall × EngineProg EngineResult)) : Prop :=
  ∀ id call, calls[id]? = some call → holds call.2 ≠ [] → ids = [id]

section Alone
variable {ids : List Nat} {calls : List (EngineCall × EngineProg EngineResult)} {id : Nat}
  {call call' : EngineCall × EngineProg EngineResult}

section
variable (h : Alone ids calls) (hids : ids = [] ∨ ids = [id])
include h hids

/-- The others hold nothing. -/
theorem Alone.others {j : Nat} (hj : calls[j]? = some call) (hne : j ≠ id) : holds call.2 = [] := by
  by_contra hholds
  have hsingle := h j call hj hholds
  rcases hids with rfl | rfl
  · cases hsingle
  · exact hne (singleton_inj.mp hsingle).symm

/-- After a step of one call, when the others hold nothing. -/
theorem Alone.set {next : List Nat}
    (hnext : holds call'.2 ≠ [] → next = [id]) : Alone next (calls.set id call') := by
  intro j call'' hj hholds
  by_cases hid : id = j
  · subst hid
    obtain ⟨hlt, hget⟩ := List.getElem?_eq_some_iff.mp hj
    rw [getElem_set_self] at hget
    rw [← hget] at hholds
    exact hnext hholds
  · rw [getElem?_set_ne hid] at hj
    exact absurd (h.others hids hj (Ne.symm hid)) hholds

theorem Alone.flatMap_set (hcall : calls[id]? = some call) :
    (calls.set id call').flatMap (fun call => holds call.2) = holds call'.2 := by
  refine flatMap_eq_of_alone
    (List.getElem?_set_self (List.getElem?_eq_some_iff.mp hcall).1) fun j z hz hne => ?_
  rw [getElem?_set_ne (Ne.symm hne)] at hz
  exact h.others hids hz hne

end

end Alone

/-- With one flusher, what was stored, what is in flight and the buffer are what was added,
in this order. -/
def InOrder (init : Engine) (trace : List EngineEvent) (cfg : EngineConfig) : Prop :=
  (∃ inserted, cfg.state.db.stored = init.db.stored ++ inserted ∧
    inserted ++ inFlight cfg ++ cfg.state.buffer = init.buffer ++ added trace) ∧
  Alone (flushing faulty trace) cfg.calls

section Steps
variable {faulty : Nat → Bool} {init next : Engine} {trace : List EngineEvent} {cfg : EngineConfig}
  {e : EngineEvent} {id : Nat} {call : EngineCall × EngineProg EngineResult} {c : EngineCall}
  {p : EngineProg EngineResult}

section
variable (h : InOrder faulty init trace cfg) (hcall : cfg.calls[id]? = some call)
include h hcall

/-- A step that moves no batch; it may add to the buffer. -/
theorem InOrder.idle {more : List UptimeHeartbeat} (hdb : next.db.stored = cfg.state.db.stored)
    (hbuffer : next.buffer = cfg.state.buffer ++ more) (hcallHolds : holds call.2 = [])
    (hholds : holds p = []) (hadded : added (trace ++ [e]) = added trace ++ more)
    (hflushing : flushing faulty (trace ++ [e]) = flushing faulty trace) :
    InOrder faulty init (trace ++ [e]) ⟨next, cfg.calls.set id (c, p)⟩ := by
  obtain ⟨⟨inserted, hstored, horder⟩, halone⟩ := h
  refine ⟨⟨inserted, hdb.trans hstored, ?_⟩, ?_⟩
  · have hflight : inFlight ⟨next, cfg.calls.set id (c, p)⟩ = inFlight cfg :=
      flatMap_set_same hcall (hholds.trans hcallHolds.symm)
    rw [hflight, hbuffer, ← append_assoc, horder, hadded, append_assoc]
  · rw [hflushing]
    intro j other hj hother
    by_cases hid : id = j
    · subst hid
      rw [List.getElem?_set_self (List.getElem?_eq_some_iff.mp hcall).1] at hj
      cases hj
      exact absurd hholds hother
    · rw [getElem?_set_ne hid] at hj
      exact halone j other hj hother

/-- A step of the only call that may hold a batch moves it between the buffer, the call and
the table. -/
theorem InOrder.move (hids : flushing faulty trace = [] ∨ flushing faulty trace = [id])
    (put : List UptimeHeartbeat) (hdb : next.db.stored = cfg.state.db.stored ++ put)
    (hparts : put ++ holds p ++ next.buffer = holds call.2 ++ cfg.state.buffer)
    (hadded : added (trace ++ [e]) = added trace)
    (hnext : holds p ≠ [] → flushing faulty (trace ++ [e]) = [id]) :
    InOrder faulty init (trace ++ [e]) ⟨next, cfg.calls.set id (c, p)⟩ := by
  obtain ⟨⟨inserted, hstored, horder⟩, halone⟩ := h
  have hbefore : inFlight cfg = holds call.2 :=
    flatMap_eq_of_alone hcall fun j z hz hne => halone.others hids hz hne
  have hafter : inFlight ⟨next, cfg.calls.set id (c, p)⟩ = holds p := halone.flatMap_set hids hcall
  refine ⟨⟨inserted ++ put, by rw [hdb, hstored, append_assoc], ?_⟩, halone.set hids hnext⟩
  calc inserted ++ put ++ inFlight ⟨next, cfg.calls.set id (c, p)⟩ ++ next.buffer
      = inserted ++ (put ++ holds p ++ next.buffer) := by rw [hafter]; simp
    _ = inserted ++ inFlight cfg ++ cfg.state.buffer := by rw [hparts, hbefore]; simp
    _ = init.buffer ++ added (trace ++ [e]) := by rw [horder, hadded]

/-- A call that is about to insert or put back a batch is the one with a batch out. -/
theorem InOrder.flushing_eq (hholds : holds call.2 ≠ []) : flushing faulty trace = [id] :=
  h.2 id call hcall hholds

end

theorem InOrder.invoke (h : InOrder faulty init trace cfg) (c : EngineCall) :
    InOrder faulty init trace ⟨cfg.state, cfg.calls ++ [(c, (engineSystem faulty).program c)]⟩ := by
  obtain ⟨⟨inserted, hstored, horder⟩, halone⟩ := h
  have hnew : holds ((engineSystem faulty).program c) = [] := (idle_program c).2
  refine ⟨⟨inserted, hstored, ?_⟩, ?_⟩
  · rw [← horder]
    simp [inFlight, hnew]
  · intro id call hcall hholds
    rcases Nat.lt_or_ge id cfg.calls.length with hid | hid
    · rw [getElem?_append_left hid] at hcall
      exact halone id call hcall hholds
    · rw [getElem?_append_right hid] at hcall
      rw [mem_singleton.mp (mem_of_getElem? hcall)] at hholds
      exact absurd hnew hholds

section
variable {batch : List UptimeHeartbeat} (h : InOrder faulty init trace cfg)
include h

theorem InOrder.take {rest : EngineReply .take → EngineProg EngineResult}
    (hcall : cfg.calls[id]? = some (c, .call .take rest)) (hhands : Hands .take rest)
    (hfree : flushing faulty trace = []) :
    InOrder faulty init (trace ++ [⟨id, c, .take, cfg.state⟩])
      ⟨{ cfg.state with buffer := [] }, cfg.calls.set id (c, rest cfg.state.buffer)⟩ := by
  have hrest : holds (rest cfg.state.buffer) = cfg.state.buffer := hhands _
  refine h.move hcall (.inl hfree) [] (append_nil _).symm ?_
    ((added_concat trace _).trans (append_nil _)) ?_
  · show [] ++ holds (rest cfg.state.buffer) ++ [] = [] ++ cfg.state.buffer
    rw [hrest, append_nil]
  · intro hholds
    have hbuffer : cfg.state.buffer ≠ [] := fun hnil => hholds (hrest.trans hnil)
    rw [flushing_concat, hfree]
    exact if_neg hbuffer

theorem InOrder.insertBatch {rest : EngineReply (.insertBatch batch) → EngineProg EngineResult}
    (hcall : cfg.calls[id]? = some (c, .call (.insertBatch batch) rest))
    (hhands : Hands (.insertBatch batch) rest) :
    InOrder faulty init (trace ++ [⟨id, c, .insertBatch batch, cfg.state⟩])
      ⟨(cfg.state.insertBatch faulty batch).1,
        cfg.calls.set id (c, rest (cfg.state.insertBatch faulty batch).2)⟩ := by
  obtain ⟨hne, htrue, hfalse⟩ := hhands
  have hids := h.flushing_eq hcall hne
  have hsame := (added_concat trace ⟨id, c, .insertBatch batch, cfg.state⟩).trans (append_nil _)
  have hout := flushing_concat faulty trace ⟨id, c, .insertBatch batch, cfg.state⟩
  rw [hids] at hout
  rcases cfg.state.insertBatch_cases faulty batch with
    ⟨hok, hinsert, -, hbuffer⟩ | ⟨hok, hdb, hbuffer⟩
  · have hrest : holds (rest (cfg.state.insertBatch faulty batch).2) = [] := by
      rw [hok, htrue]
    refine h.move hcall (.inr hids) batch hinsert ?_ hsame fun hholds => absurd hrest hholds
    show batch ++ holds (rest (cfg.state.insertBatch faulty batch).2) ++
      (cfg.state.insertBatch faulty batch).1.buffer = batch ++ cfg.state.buffer
    rw [hrest, hbuffer, append_nil]
  · have hrest : holds (rest (cfg.state.insertBatch faulty batch).2) = batch := by
      rw [hok, hfalse]
    refine h.move hcall (.inr hids) [] ?_ ?_ hsame fun _ => ?_
    · rw [hdb, append_nil]
    · show [] ++ holds (rest (cfg.state.insertBatch faulty batch).2) ++
        (cfg.state.insertBatch faulty batch).1.buffer = batch ++ cfg.state.buffer
      rw [hrest, hbuffer, nil_append]
    · rw [hout]
      exact if_neg (by simp [hok])

theorem InOrder.putBack {rest : EngineReply (.putBack batch) → EngineProg EngineResult}
    (hcall : cfg.calls[id]? = some (c, .call (.putBack batch) rest))
    (hhands : Hands (.putBack batch) rest) :
    InOrder faulty init (trace ++ [⟨id, c, .putBack batch, cfg.state⟩])
      ⟨{ cfg.state with buffer := batch ++ cfg.state.buffer }, cfg.calls.set id (c, rest ())⟩ := by
  obtain ⟨hne, hrest⟩ := hhands
  refine h.move hcall (.inr (h.flushing_eq hcall hne)) [] (append_nil _).symm ?_
    ((added_concat trace _).trans (append_nil _)) fun hholds => absurd hrest hholds
  show [] ++ holds (rest ()) ++ (batch ++ cfg.state.buffer) = batch ++ cfg.state.buffer
  rw [hrest, nil_append, nil_append]

end

end Steps

theorem inOrder_of_run {faulty : Nat → Bool} {init : Engine} {trace : List EngineEvent}
    {cfg : EngineConfig} (run : Run (engineSystem faulty) EngineCall.KeepsMonitors init trace cfg)
    (hsingle : SingleFlusher faulty trace) : InOrder faulty init trace cfg := by
  induction run with
  | start =>
    refine ⟨⟨[], by simp, by simp [inFlight, added]⟩, ?_⟩
    intro id call hcall
    cases hcall
  | @invoke trace cfg run c ok ih => exact (ih hsingle).invoke c
  | @exec trace cfg run id c op rest pending ready ih =>
    have hbefore := ih hsingle.init
    obtain ⟨hhands, -⟩ : Handles (Prog.call op rest) :=
      run.pending (P := fun _ p => Handles p) (fun c _ => (idle_program c).1)
        (fun c op rest r h => h.2 r) _ (mem_of_getElem? pending)
    obtain ⟨hkeeps, -⟩ : (Prog.call op rest).Issues EngineOp.KeepsMonitors :=
      run.pending (P := fun _ p => p.Issues EngineOp.KeepsMonitors)
        (fun c ok => keepsMonitors_program ok) (fun c op rest r h => h.2 r) _
        (mem_of_getElem? pending)
    have hlog := added_concat trace ⟨id, c, op, cfg.state⟩
    have hout := flushing_concat faulty trace ⟨id, c, op, cfg.state⟩
    cases op with
    | append h => exact hbefore.idle pending rfl rfl rfl (hhands _) hlog hout
    | transition check =>
      exact hbefore.idle pending (transition_frame _ check).2 (append_nil _).symm rfl
        hhands hlog hout
    | getMonitor _ | running _ =>
      exact hbefore.idle pending rfl (append_nil _).symm rfl (hhands _) hlog hout
    | removeMonitor _ =>
      exact hbefore.idle pending rfl (append_nil _).symm rfl hhands hlog hout
    | deleteMonitor _ => exact hkeeps.elim
    | take => exact hbefore.take pending hhands ((atEach_concat.mp hsingle).2 rfl)
    | insertBatch batch => exact hbefore.insertBatch pending hhands
    | putBack batch => exact hbefore.putBack pending hhands

/-! ## Every run -/

/-- The heartbeat of a check of the first monitor. -/
def beat (n : Int) : UptimeHeartbeat := ⟨1, .up, [], none, none, [], n⟩

/-- One monitor, no heartbeats. -/
def oneMonitor : Engine := ⟨UptimeDb.empty.createMonitor ⟨1, 0, true, false⟩, [], [], fun _ => true, 0⟩

/-- A second heartbeat is added while the first one is out and its insert fails; the next
flush stores both. -/
def retryChoices : List (Run.Choice EngineCall) :=
  [.invoke (.add (beat 1)), .step 0, .invoke .flush, .step 1, .invoke (.add (beat 2)), .step 2,
    .step 1, .step 1, .invoke .flush, .step 3, .step 3]

instance (faulty : Nat → Bool) (trace : List EngineEvent) :
    Decidable (SingleFlusher faulty trace) :=
  inferInstanceAs (Decidable (AtEach _ trace))

end HeyServer.Uptime
