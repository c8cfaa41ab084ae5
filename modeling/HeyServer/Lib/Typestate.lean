import HeyServer.Lib.Interleaving

/-!
# What a call knows

Calls run interleaved, and the process may crash and start again, which ends all of them.
Between two of its operations a call knows something about the shared state. A typestate
says which operations a call may issue when it knows `g` and what it knows after a reply.

## Implementation notes

Knowledge need not survive every operation of the others. Calls that hold different locks
are enough: `Restarts.typed` asks for stability under the operations of calls that hold
none of the locks the knowledge belongs to.
-/

namespace HeyServer.Lib
open List

variable {S O C V G T : Type} {R : O → Type}

/-- The program only issues operations its knowledge permits. -/
def Prog.Obeys {α : Type} (permits : G → O → Prop) (next : (g : G) → (op : O) → R op → G) :
    G → Prog O R α → Prop
  | _, .done _ => True
  | g, .call op rest => permits g op ∧ ∀ r, (rest r).Obeys permits next (next g op r)

namespace Prog.Obeys
variable {α β : Type} {permits : G → O → Prop} {next : (g : G) → (op : O) → R op → G} {g : G}

theorem ite {c : Prop} [Decidable c] {p q : Prog O R α} (hp : c → p.Obeys permits next g)
    (hq : ¬ c → q.Obeys permits next g) : (if c then p else q).Obeys permits next g := by
  split_ifs with hc
  · exact hp hc
  · exact hq hc

/-- A program that runs alone keeps what each permitted operation keeps, up to any crash. -/
theorem alone {sem : Semantics S O R} {K : G → S → Prop}
    (hstep : ∀ g op s, K g s → permits g op → K (next g op (sem.exec s op).2) (sem.exec s op).1)
    {p : Prog O R α} {s : S} (hp : p.Obeys permits next g) (hs : K g s) :
    (∀ t ∈ p.crashStates sem s, ∃ g', K g' t) ∧ ∃ g', K g' (p.run sem s).1 := by
  induction p generalizing g s with
  | done a => exact ⟨fun t ht => ⟨g, mem_singleton.mp ht ▸ hs⟩, g, hs⟩
  | call op rest ih =>
    obtain ⟨hcrash, hrun⟩ := ih _ (hp.2 (sem.exec s op).2) (hstep g op s hs hp.1)
    refine ⟨?_, hrun⟩
    intro t ht
    rcases mem_cons.mp ht with rfl | ht
    · exact ⟨g, hs⟩
    · exact hcrash t ht

end Prog.Obeys

/-- The program only issues operations its knowledge permits, and `Q` relates its value to what is
known when it ends. -/
def Prog.Leads {α : Type} (permits : G → O → Prop) (next : (g : G) → (op : O) → R op → G)
    (Q : α → G → Prop) : G → Prog O R α → Prop
  | g, .done a => Q a g
  | g, .call op rest => permits g op ∧ ∀ r, (rest r).Leads permits next Q (next g op r)

namespace Prog.Leads
variable {α β : Type} {permits : G → O → Prop} {next : (g : G) → (op : O) → R op → G} {g : G}
  {Q : α → G → Prop}

theorem bind {Q' : β → G → Prop} {p : Prog O R α} {f : α → Prog O R β}
    (hp : p.Leads permits next Q g) (hf : ∀ a g', Q a g' → (f a).Leads permits next Q' g') :
    (p >>= f).Leads permits next Q' g := by
  induction p generalizing g with
  | done a => exact hf a g hp
  | call op rest ih => exact ⟨hp.1, fun r => ih r (hp.2 r)⟩

theorem obeys {p : Prog O R α} (hp : p.Leads permits next Q g) : p.Obeys permits next g := by
  induction p generalizing g with
  | done a => trivial
  | call op rest ih => exact ⟨hp.1, fun r => ih r (hp.2 r)⟩

theorem ite {c : Prop} [Decidable c] {p q : Prog O R α} (hp : c → p.Leads permits next Q g)
    (hq : ¬ c → q.Leads permits next Q g) : (if c then p else q).Leads permits next Q g := by
  split_ifs with hc
  · exact hp hc
  · exact hq hc

end Prog.Leads

/-- Runs in which the process may crash: all calls are gone, and the state is one that
`reboot` leads to. -/
inductive Restarts (sys : System S O R C V) (allowed : C → Prop) (reboot : S → S → Prop)
    (init : S) :
    Config S O R C V → Prop
  | start : Restarts sys allowed reboot init ⟨init, []⟩
  | invoke {cfg} (run : Restarts sys allowed reboot init cfg) (c : C) (ok : allowed c) :
      Restarts sys allowed reboot init ⟨cfg.state, cfg.calls ++ [(c, sys.program c)]⟩
  | exec {cfg} (run : Restarts sys allowed reboot init cfg) {id : Nat} {c : C} {op : O}
      {rest : R op → Prog O R V} (pending : cfg.calls[id]? = some (c, .call op rest))
      (ready : sys.sem.ready cfg.state op = true) :
      Restarts sys allowed reboot init
        ⟨(sys.sem.exec cfg.state op).1, cfg.calls.set id (c, rest (sys.sem.exec cfg.state op).2)⟩
  | crash {cfg} (run : Restarts sys allowed reboot init cfg) {s : S}
      (rebooted : reboot cfg.state s) : Restarts sys allowed reboot init ⟨s, []⟩

/-- A run without a crash. -/
theorem Run.restarts {sys : System S O R C V} {allowed : C → Prop} {init : S}
    {trace : List (Event S O C)} {cfg : Config S O R C V} (run : Run sys allowed init trace cfg)
    (reboot : S → S → Prop) : Restarts sys allowed reboot init cfg := by
  induction run with
  | start => exact .start
  | invoke run c ok ih => exact ih.invoke c ok
  | exec run pending ready ih => exact ih.exec pending ready

/-- A symmetric relation between all pairs of a list holds of any two places. -/
theorem pairwise_getElem? {α : Type} {r : α → α → Prop} (hsymm : ∀ a b, r a b → r b a)
    {xs : List α} (h : xs.Pairwise r) {i j : Nat} (hij : i ≠ j) {x y : α} (hx : xs[i]? = some x)
    (hy : xs[j]? = some y) : r x y := by
  obtain ⟨hi, rfl⟩ := List.getElem?_eq_some_iff.mp hx
  obtain ⟨hj, rfl⟩ := List.getElem?_eq_some_iff.mp hy
  rw [pairwise_iff_getElem] at h
  rcases Nat.lt_or_gt_of_ne hij with hlt | hgt
  · exact h i j hi hj hlt
  · exact hsymm _ _ (h j i hj hi hgt)

/-- Changing one element keeps the relation if the new element stands in it to the others. -/
theorem pairwise_set {α : Type} {r : α → α → Prop} (hsymm : ∀ a b, r a b → r b a) {xs : List α}
    {i : Nat} {y : α} (h : xs.Pairwise r) (hy : ∀ j z, i ≠ j → xs[j]? = some z → r y z) :
    (xs.set i y).Pairwise r := by
  rw [pairwise_iff_getElem]
  intro j k hj hk hjk
  rw [length_set] at hj hk
  rw [getElem_set, getElem_set]
  split_ifs with hij hik hik
  · omega
  · exact hy k _ hik (getElem?_eq_getElem hk)
  · exact hsymm _ _ (hy j _ hij (getElem?_eq_getElem hj))
  · exact pairwise_iff_getElem.mp h j k hj hk hjk

section Rule
variable {sys : System S O R C V} {allowed : C → Prop} {reboot : S → S → Prop} {init : S}
  {I : S → Prop}

/-- Two calls hold no common lock. -/
def Apart (locks : G → Option T) (g g' : G) : Prop := ∀ t, locks g = some t → locks g' ≠ some t

theorem Apart.symm {locks : G → Option T} {g g' : G} (h : Apart locks g g') : Apart locks g' g :=
  fun t ht ht' => h t ht' ht

/-- The typestate rule: an invariant that every permitted operation keeps, when it is ready,
together with the knowledge it gives, where knowledge is only disturbed by those who hold the same
lock, and a lock is only taken when nobody holds it, holds in every run with restarts. -/
theorem Restarts.typed {cfg : Config S O R C V} (run : Restarts sys allowed reboot init cfg)
    (permits : G → O → Prop) (next : (g : G) → (op : O) → R op → G) (K : G → S → Prop)
    (locks : G → Option T) (entry : G) (hfree : locks entry = none)
    (hprogram : ∀ c, allowed c → (sys.program c).Obeys permits next entry)
    (hinit : I init) (hreboot : ∀ s s', I s → reboot s s' → I s') (hentry : ∀ s, I s → K entry s)
    (hstep : ∀ g op s, sys.sem.ready s op = true → I s → K g s → permits g op →
      I (sys.sem.exec s op).1 ∧ K (next g op (sys.sem.exec s op).2) (sys.sem.exec s op).1)
    (htaken : ∀ g op s t, sys.sem.ready s op = true → I s → K g s → permits g op →
      locks (next g op (sys.sem.exec s op).2) = some t →
        locks g = some t ∨ ∀ g', K g' s → locks g' ≠ some t)
    (hother : ∀ g g' op s, sys.sem.ready s op = true → I s → K g s → K g' s → permits g' op →
      Apart locks g g' → K g (sys.sem.exec s op).1) : I cfg.state := by
  -- each call has its knowledge, and no two calls hold the same lock
  suffices h : I cfg.state ∧ ∃ gs : List G, gs.length = cfg.calls.length ∧
      (∀ (i : Nat) (call : C × Prog O R V) (g : G), cfg.calls[i]? = some call → gs[i]? = some g →
        call.2.Obeys permits next g ∧ K g cfg.state) ∧ gs.Pairwise (Apart locks) from h.1
  induction run with
  | start => exact ⟨hinit, [], rfl, by simp, List.Pairwise.nil⟩
  | @invoke cfg run c ok ih =>
    obtain ⟨hI, gs, hlength, hknown, hapart⟩ := ih
    refine ⟨hI, gs ++ [entry], by simp [hlength], ?_, ?_⟩
    · intro i call g hcall hg
      rcases Nat.lt_or_ge i cfg.calls.length with hi | hi
      · rw [getElem?_append_left hi] at hcall
        rw [getElem?_append_left (hlength ▸ hi)] at hg
        exact hknown i call g hcall hg
      · rw [getElem?_append_right hi, getElem?_singleton] at hcall
        rw [getElem?_append_right (hlength ▸ hi), getElem?_singleton] at hg
        split_ifs at hcall with hlast
        rw [if_pos (by omega)] at hg
        cases hcall
        cases hg
        exact ⟨hprogram c ok, hentry _ hI⟩
    · refine pairwise_append.mpr ⟨hapart, pairwise_singleton _ _, ?_⟩
      intro g _ g' hg' t _
      rw [mem_singleton.mp hg', hfree]
      exact Option.some_ne_none t |>.symm
  | @exec cfg run id c op rest pending ready ih =>
    obtain ⟨hI, gs, hlength, hknown, hapart⟩ := ih
    have hid : id < cfg.calls.length := (List.getElem?_eq_some_iff.mp pending).1
    have hg : gs[id]? = some gs[id] := getElem?_eq_getElem (hlength ▸ hid)
    obtain ⟨⟨hpermits, hrest⟩, hK⟩ := hknown id _ _ pending hg
    obtain ⟨hI', hK'⟩ := hstep _ op _ ready hI hK hpermits
    refine ⟨hI', gs.set id (next gs[id] op (sys.sem.exec cfg.state op).2), by simp [hlength],
      ?_, ?_⟩
    · intro i call g hcall hgi
      by_cases hi : id = i
      · subst hi
        rw [getElem?_set_self hid] at hcall
        rw [getElem?_set_self (hlength ▸ hid)] at hgi
        cases hcall
        cases hgi
        exact ⟨hrest _, hK'⟩
      · rw [getElem?_set_ne hi] at hcall hgi
        obtain ⟨hobeys, hKi⟩ := hknown i call g hcall hgi
        refine ⟨hobeys, hother g gs[id] op _ ready hI hKi hK hpermits ?_⟩
        exact pairwise_getElem? (fun _ _ h => h.symm) hapart (Ne.symm hi) hgi hg
    · refine pairwise_set (fun _ _ h => h.symm) hapart ?_
      intro j g hj hgj t ht
      rcases htaken _ op _ t ready hI hK hpermits ht with hheld | hfree
      · exact pairwise_getElem? (fun _ _ h => h.symm) hapart hj hg hgj t hheld
      · have hj' : j < cfg.calls.length := hlength ▸ (List.getElem?_eq_some_iff.mp hgj).1
        exact hfree g (hknown j _ g (getElem?_eq_getElem hj') hgj).2
  | crash run rebooted ih => exact ⟨hreboot _ _ ih.1 rebooted, [], rfl, by simp, List.Pairwise.nil⟩

end Rule

/-! ## Guarded runs -/

/-- The system in which an operation waits until `guard` holds. -/
def System.guarded (sys : System S O R C V) (guard : S → O → Bool) : System S O R C V where
  sem := { sys.sem with ready := fun s op => sys.sem.ready s op && guard s op }
  program := sys.program

/-- A run in which every operation meets its guard is one of the guarded system. -/
theorem Run.guarded {sys : System S O R C V} {allowed : C → Prop} {init : S}
    {trace : List (Event S O C)} {cfg : Config S O R C V} (run : Run sys allowed init trace cfg)
    {guard : S → O → Bool} (h : ∀ e ∈ trace, guard e.before e.op = true) :
    Run (sys.guarded guard) allowed init trace cfg := by
  induction run with
  | start => exact .start
  | invoke run c ok ih => exact (ih h).invoke c ok
  | exec run pending ready ih =>
    obtain ⟨hpast, hguard⟩ := of_forall_mem_snoc h
    exact (ih hpast).exec pending (Bool.and_eq_true_iff.mpr ⟨ready, hguard⟩)

/-! ## Start-up -/

section Startup
variable {ε α : Type} {sem : Semantics S O R} {lost : S → S} {startup : Prog O R (Except ε α)}

/-- What a crash and the start-up after it make of a state. The start-up may fail or crash as
well, and then runs again; `lost` takes away what is not durable. -/
inductive Reboots (sem : Semantics S O R) (lost : S → S) (startup : Prog O R (Except ε α)) :
    S → S → Prop
  | up {s : S} {a : α} (ok : (startup.run sem (lost s)).2 = .ok a) :
      Reboots sem lost startup s (startup.run sem (lost s)).1
  | again {s t s' : S} (crash : t ∈ startup.crashStates sem (lost s))
      (rest : Reboots sem lost startup t s') : Reboots sem lost startup s s'

/-- An invariant that a crash and every permitted operation of the start-up keep. -/
theorem Reboots.keeps {s s' : S} (reboots : Reboots sem lost startup s s')
    {permits : G → O → Prop} {next : (g : G) → (op : O) → R op → G} {entry : G}
    (hobeys : startup.Obeys permits next entry) {K : G → S → Prop} {I : S → Prop}
    (hentry : ∀ s, I s → K entry (lost s)) (hinv : ∀ g s, K g s → I s)
    (hstep : ∀ g op s, K g s → permits g op → K (next g op (sem.exec s op).2) (sem.exec s op).1)
    (hs : I s) : I s' := by
  induction reboots with
  | @up s a ok =>
    obtain ⟨-, g, hg⟩ := hobeys.alone (K := K) hstep (hentry s hs)
    exact hinv g _ hg
  | @again s t s' crash rest ih =>
    obtain ⟨g, hg⟩ := (hobeys.alone (K := K) hstep (hentry s hs)).1 t crash
    exact ih (hinv g t hg)

end Startup

end HeyServer.Lib
