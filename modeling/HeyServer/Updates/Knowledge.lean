import HeyServer.Updates.Detached

/-!
# What the calls and scripts of an upgrade know

A call that holds the mutex knows what it has read as the status of a stage, a script knows whether
it has finished its stage. As long as no script finishes its stage while a call that has read the
status is still to return, what they know stays true.

## Implementation notes

What a call knows is tied to the life of its process: once the program is restarted, nothing is
claimed about it, and it never goes on. Calls of one process exclude each other by the mutex,
scripts by the unit.
-/

namespace HeyServer.Updates
open Lib Option Function UpdateOp

/-! ## Status texts -/

variable {st : Status}

theorem readStatus_file (h : st.terminal = true) : readStatus st.file = some st := by
  cases st with
  | completed | failed => decide +kernel
  | _ => cases h

theorem operation_id (id : Bytes) (status detail : Option Bytes) :
    (operation id status detail).id = some id := by
  unfold operation
  cases [Status.scheduled, .running, .completed, .failed].find?
    (·.text = readAgentUpdateFile status) with
  | none | some => rfl

theorem pending_of_terminal (h : st.terminal = true) : st.pending = false := by
  cases st with
  | completed | failed => rfl
  | _ => cases h

/-! ## What a call knows -/

/-- What a call that holds the mutex has found out. -/
inductive Known
  | nothing
  /-- It has read this text as the status of a stage. -/
  | read (id : Bytes) (payload : Option Bytes)
  /-- No script has finished the stage. -/
  | unfinished (id : Bytes)

namespace Known

def Holds : Known → UpdateState → Prop
  | nothing, _ => True
  | read id payload, s => s.loaded = some id ∧ ∀ t, s.finished id = some t → payload = some t.file
  | unfinished id, s => s.loaded = some id ∧ s.finished id = none

/-- The text is not what a finished script leaves. -/
def NotFinal (payload : Option Bytes) : Prop := ∀ t :
    Status, t.terminal = true → payload ≠ some t.file

/-- The status tells what the text says, if that is what a finished script leaves. -/
def Tells (payload : Option Bytes) (st : Status) : Prop :=
  ∀ t : Status, t.terminal = true → payload = some t.file → st = t

/-- The report is about the stage the call has looked at, or about none. -/
def Answers (k : Known) (report : Option Report) : Prop :=
  ∀ r id, report = some r → r.id = some id →
    (∃ payload, k = read id payload ∧ Tells payload r.status) ∨ k = unfinished id

end Known

/-- Where a call is. -/
inductive Place
  | outside
  /-- It holds the mutex of its process. -/
  | inside (p : Nat) (k : Known)
  /-- A script that has not finished its stage. -/
  | writing (id : Bytes)
  /-- A script that has. -/
  | ending (id : Bytes)

/-- Operations of a call that change neither what it knows nor what the others do. -/
def UpdateOp.neutral : UpdateOp → Bool
  | readMarker _ | readDetail _ _ | makeDir _ _ _ | writeDetail _ _ _ _ | writeMarker _ _ _
  | systemctl _ _ => true
  | _ => false

namespace Place

inductive Permits : Place → UpdateOp → Prop
  | lock (p : Nat) : Permits outside (.lock p)
  | start (id : Bytes) : Permits outside (.start id)
  | stop : Permits outside .stop
  | restart : Permits outside .restart
  | neutral {p : Nat} {op : UpdateOp} (k : Known) (h : op.neutral = true)
    (own : op.process? = some p) :
      Permits (inside p k) op
  | readStatus (p : Nat) (k : Known) (id : Bytes) : Permits (inside p k) (.readStatus p id)
  | schedule (p : Nat) (k : Known) (id : Bytes) (fails : Bool) :
      Permits (inside p k) (.writeStatus p id .scheduled fails)
  | interrupt (p : Nat) (id : Bytes) {payload : Option Bytes} (h : Known.NotFinal payload)
    (fails : Bool) :
      Permits (inside p (.read id payload)) (.writeStatus p id .failed fails)
  | giveUp (p : Nat) (id : Bytes) (fails : Bool) :
      Permits (inside p (.unfinished id)) (.writeStatus p id .failed fails)
  | systemdRun (p : Nat) (id : Bytes) (created reported : Bool) :
      Permits (inside p (.unfinished id)) (.systemdRun p id created reported)
  | unlock (p : Nat) {k : Known} {report : Option Report} (answers : k.Answers report) :
      Permits (inside p k) (.unlock p report)
  | put (id : Bytes) (write : ScriptWrite) : Permits (writing id) (.put id write)
  | detail (id text : Bytes) : Permits (ending id) (.put id (.detail text))
  | exitWriting (id : Bytes) : Permits (writing id) (.exit id)
  | exitEnding (id : Bytes) : Permits (ending id) (.exit id)

def next : (g : Place) → (op : UpdateOp) → op.Reply → Place
  | _, .lock p, _ => inside p .nothing
  | _, .unlock _ _, _ => outside
  | _, .readStatus p id, payload => inside p (.read id payload)
  | g, .writeStatus p id st _, (ok : Bool) =>
    if st = .scheduled ∧ ok = false then g else inside p (.unfinished id)
  | _, .start id, _ => writing id
  | g, .put id (.status st), _ => if st.terminal then ending id else g
  | _, .exit _, _ => outside
  | g, _, _ => g

/-- The mutex of a process, or the unit. -/
inductive Resource
  | mutex (p : Nat)
  | unit

def lock : Place → Option Resource
  | outside => none
  | inside p _ => some (.mutex p)
  | writing _ | ending _ => some .unit

def Knows : Place → UpdateState → Prop
  | outside, _ => True
  | inside p k, s => p ≤ s.process ∧ (s.process = p → s.locked = true ∧ k.Holds s)
  | writing id, s => s.unit = .service id ∧ s.finished id = none
  | ending id, s => s.unit = .service id

/-- An operation of a process is issued by a call that takes its mutex or holds it. -/
theorem Permits.own {g : Place} {op : UpdateOp} {p : Nat} (h : g.Permits op)
    (hp : op.process? = some p) :
    (g = outside ∧ op = .lock p) ∨ ∃ k, g = inside p k := by
  cases h with
  | lock q =>
    cases hp
    exact .inl ⟨rfl, rfl⟩
  | neutral k hneutral hown =>
    cases hown.symm.trans hp
    exact .inr ⟨k, rfl⟩
  | readStatus q k id => exact .inr ⟨k, by cases hp; rfl⟩
  | schedule q k id fails => exact .inr ⟨k, by cases hp; rfl⟩
  | interrupt | giveUp | systemdRun | unlock => exact .inr ⟨_, by cases hp; rfl⟩
  | _ => cases hp

end Place

/-! ## The invariant -/

/-- A finished stage has the status its script gave it, and nothing has gone wrong so far. -/
structure Sound (s : UpdateState) : Prop where
  final : ∀ id t, s.finished id = some t → t.terminal = true ∧ s.status id = some t.file
  timer : ∀ id, s.unit = .timer id → s.finished id = none
  kept : s.overwritten = false
  told : s.misreported = false

/-- A script writes a terminal status only while no call that has read the status of its stage, or
scheduled it, is still to return. -/
def undisturbed (s : UpdateState) : UpdateOp → Bool
  | .put id (.status st) => !st.terminal || s.loaded ≠ some id
  | _ => true

/-- What a call knows depends on what was loaded and what is finished only. -/
theorem Known.Holds.congr {k : Known} {s s' : UpdateState} (hk : k.Holds s)
    (hloaded : s'.loaded = s.loaded) (hfinished : s'.finished = s.finished) : k.Holds s' := by
  cases k with
  | nothing => trivial
  | read | unfinished =>
    dsimp only [Known.Holds]
    rw [hloaded, hfinished]
    exact hk

/-- The two states agree on all that is claimed about them. -/
structure SameView (s s' : UpdateState) : Prop where
  status : s'.status = s.status
  process : s'.process = s.process
  locked : s'.locked = s.locked
  unit : s'.unit = s.unit
  loaded : s'.loaded = s.loaded
  finished : s'.finished = s.finished
  overwritten : s'.overwritten = s.overwritten
  misreported : s'.misreported = s.misreported

namespace SameView
variable {s s' : UpdateState} (h : SameView s s')
include h

theorem sound (hs : Sound s) : Sound s' where
  final id t := by
    rw [h.finished, h.status]
    exact hs.final id t
  timer id := by
    rw [h.unit, h.finished]
    exact hs.timer id
  kept := h.overwritten.trans hs.kept
  told := h.misreported.trans hs.told

theorem knows {g : Place} (hg : g.Knows s) : g.Knows s' := by
  cases g with
  | outside => trivial
  | inside p k =>
    refine ⟨hg.1.trans h.process.ge, ?_⟩
    intro hp
    obtain ⟨hlocked, hk⟩ := hg.2 (h.process.symm.trans hp)
    exact ⟨h.locked.trans hlocked, hk.congr h.loaded h.finished⟩
  | writing id => exact ⟨h.unit.trans hg.1, by rw [h.finished]; exact hg.2⟩
  | ending id => exact h.unit.trans hg

end SameView

section Steps
variable {s : UpdateState} {g g' : Place} {op : UpdateOp} {p : Nat} {id : Bytes}

theorem sameView_refl (s : UpdateState) : SameView s s := ⟨rfl, rfl, rfl, rfl, rfl, rfl, rfl, rfl⟩

theorem sameView_writeDetail (s : UpdateState) (id text : Bytes) :
    SameView s (s.writeDetail id text) :=
  ⟨rfl, rfl, rfl, rfl, rfl, rfl, rfl, rfl⟩

theorem sameView_neutral (h : op.neutral = true) : SameView s (op.exec s).1 := by
  cases op with
  | readMarker | readDetail | systemctl => exact sameView_refl s
  | writeDetail p id text fails =>
    dsimp only [exec]
    split_ifs with hfails
    · exact sameView_refl s
    · exact sameView_writeDetail s id text
  | makeDir | writeMarker =>
    dsimp only [exec]
    split_ifs with hfails
    · exact sameView_refl s
    · exact ⟨rfl, rfl, rfl, rfl, rfl, rfl, rfl, rfl⟩
  | _ => cases h

theorem next_neutral (h : op.neutral = true) (r : op.Reply) : g.next op r = g := by
  cases op with
  | readMarker | readDetail | systemctl | makeDir | writeDetail | writeMarker => rfl
  | _ => cases h

theorem process_eq_of_ready (h : op.ready s = true) (hp : op.process? = some p) :
    s.process = p := by
  unfold ready at h
  rw [hp] at h
  have hall : decide (p = s.process) = true := (Bool.and_eq_true_iff.mp h).1
  exact (of_decide_eq_true hall).symm

/-- Operations of a process and of its scripts do not end the process. -/
theorem exec_process (h : op ≠ .restart) : (op.exec s).1.process = s.process := by
  cases op with
  | makeDir | writeDetail | writeMarker => exact (sameView_neutral rfl).process
  | writeStatus | systemdRun =>
    dsimp only [exec]
    split_ifs <;> rfl
  | put id write => cases write <;> rfl
  | restart => exact absurd rfl h
  | _ => rfl

/-- A status that does not finish a stage can be written to an unfinished one. -/
theorem Sound.writeStatus (hs : Sound s) (hnone : s.finished id = none) (st : Status) :
    Sound (s.writeStatus id st s.finished (s.overwritten || (s.finished id).isSome)) where
  final id' t ht := by
    have hne : id' ≠ id := by
      rintro rfl
      exact some_ne_none t (ht.symm.trans hnone)
    refine ⟨(hs.final id' t ht).1, ?_⟩
    exact (update_of_ne hne _ _).trans (hs.final id' t ht).2
  timer := hs.timer
  kept := by
    rw [hs.kept, hnone]
    rfl
  told := hs.told

/-- Scheduling a stage starts it anew. -/
theorem Sound.schedule (hs : Sound s) (id : Bytes) :
    Sound { s.writeStatus id .scheduled (Function.update s.finished id none) s.overwritten with
      loaded := some id } where
  final id' t ht := by
    have hne : id' ≠ id := by
      rintro rfl
      exact some_ne_none t (ht.symm.trans (update_self _ _ _))
    have ht' : s.finished id' = some t := (update_of_ne hne _ _).symm.trans ht
    refine ⟨(hs.final id' t ht').1, ?_⟩
    exact (update_of_ne hne _ _).trans (hs.final id' t ht').2
  timer id' hunit := by
    by_cases hid : id' = id
    · rw [hid]
      exact update_self _ _ _
    · exact (update_of_ne hid _ _).trans (hs.timer id' hunit)
  kept := hs.kept
  told := hs.told

/-- The script of an unfinished stage finishes it. -/
theorem Sound.finish (hs : Sound s) (hnone : s.finished id = none) (hunit : s.unit = .service id)
    {st : Status} (hst : st.terminal = true) :
    Sound (s.writeStatus id st (Function.update s.finished id (some st))
      (s.overwritten || (s.finished id).isSome)) where
  final id' t ht := by
    by_cases hid : id' = id
    · rw [hid] at ht ⊢
      have hself : update s.finished id (some st) id = some st := update_self _ _ _
      have hst' : st = t := some.inj (hself.symm.trans ht)
      rw [← hst']
      exact ⟨hst, update_self _ _ _⟩
    · have ht' : s.finished id' = some t := (update_of_ne hid _ _).symm.trans ht
      refine ⟨(hs.final id' t ht').1, ?_⟩
      exact (update_of_ne hid _ _).trans (hs.final id' t ht').2
  timer id' htimer := by cases hunit.symm.trans htimer
  kept := (hs.writeStatus hnone st).kept
  told := hs.told

variable {k : Known}

/-- A call that answers from what it knows does not report a completed stage as anything else. -/
theorem misreports_eq_false (hk : k.Holds s) {report : Option Report}
    (answers : k.Answers report) : s.misreports report = false := by
  rw [Bool.eq_false_iff]
  intro h
  obtain ⟨r, hr, h⟩ := (any_eq_true _ _).mp h
  obtain ⟨id, hid, h⟩ := (any_eq_true _ _).mp h
  obtain ⟨hfinished, hstatus⟩ := Bool.and_eq_true_iff.mp h
  have hfinished : s.finished id = some .completed := of_decide_eq_true hfinished
  have hstatus : r.status ≠ .completed := of_decide_eq_true hstatus
  rcases answers r id hr hid with ⟨payload, rfl, htells⟩ | rfl
  · exact hstatus (htells .completed rfl (hk.2 _ hfinished))
  · exact some_ne_none _ (hfinished.symm.trans hk.2)

/-- The operation keeps the invariant and leads to what the call knows next. -/
def Keeps (g : Place) (s : UpdateState) (op : UpdateOp) : Prop :=
  Sound (op.exec s).1 ∧ (g.next op (op.exec s).2).Knows (op.exec s).1

section
variable (hs : Sound s)
include hs

/-- A failure is written for a stage that is not finished. -/
theorem keeps_failed (hp : p ≤ s.process) (hlocked : s.locked = true)
    (hk : (Known.unfinished id).Holds s) (fails : Bool) :
    Keeps (.inside p k) s (.writeStatus p id .failed fails) := by
  cases fails with
  | true => exact ⟨hs, hp, fun _ => ⟨hlocked, hk⟩⟩
  | false => exact ⟨hs.writeStatus hk.2 .failed, hp, fun _ => ⟨hlocked, hk⟩⟩

theorem keeps_systemdRun (hg : (Place.inside p (.unfinished id)).Knows s) (hp : s.process = p)
    (created reported : Bool) :
    Keeps (.inside p (.unfinished id)) s (.systemdRun p id created reported) := by
  obtain ⟨hlocked, hloaded, hnone⟩ := hg.2 hp
  dsimp only [Keeps, exec]
  split_ifs with hcreated
  · refine ⟨⟨hs.final, ?_, hs.kept, hs.told⟩, hg.1, fun _ => ⟨hlocked, hloaded, hnone⟩⟩
    intro id' htimer
    cases htimer
    exact hnone
  · exact ⟨hs, hg⟩

theorem keeps_put (hg : (Place.writing id).Knows s) (write : ScriptWrite) :
    Keeps (.writing id) s (.put id write) := by
  cases write with
  | detail text =>
    have hview := sameView_writeDetail s id text
    exact ⟨hview.sound hs, hview.knows hg⟩
  | status st =>
    dsimp only [Keeps, exec, Place.next]
    split_ifs with hst
    · exact ⟨hs.finish hg.2 hg.1 hst, hg.1⟩
    · exact ⟨hs.writeStatus hg.2 st, hg⟩

end

theorem exec_keeps (hready : op.ready s = true) (hs : Sound s) (hg : g.Knows s)
    (hpermits : g.Permits op) : Keeps g s op := by
  cases hpermits with
  | lock p =>
    have hp := process_eq_of_ready hready rfl
    exact ⟨⟨hs.final, hs.timer, hs.kept, hs.told⟩, hp.ge, fun _ => ⟨rfl, trivial⟩⟩
  | start id =>
    have hunit : s.unit = .timer id := of_decide_eq_true (Bool.and_eq_true_iff.mp hready).2
    refine ⟨⟨hs.final, ?_, hs.kept, hs.told⟩, rfl, hs.timer id hunit⟩
    intro id' htimer
    cases htimer
  | stop | exitWriting | exitEnding =>
    refine ⟨⟨hs.final, ?_, hs.kept, hs.told⟩, trivial⟩
    intro id' htimer
    cases htimer
  | restart => exact ⟨⟨hs.final, hs.timer, hs.kept, hs.told⟩, trivial⟩
  | neutral k hneutral hown =>
    have hview : SameView s (op.exec s).1 := sameView_neutral hneutral
    rw [Keeps, next_neutral hneutral]
    exact ⟨hview.sound hs, hview.knows hg⟩
  | readStatus p k id =>
    have hlocked := (hg.2 (process_eq_of_ready hready rfl)).1
    refine ⟨⟨hs.final, hs.timer, hs.kept, hs.told⟩, hg.1, fun _ => ⟨hlocked, rfl, ?_⟩⟩
    intro t ht
    exact (hs.final id t ht).2
  | schedule p k id fails =>
    have hlocked := (hg.2 (process_eq_of_ready hready rfl)).1
    cases fails with
    | true => exact ⟨hs, hg⟩
    | false =>
      refine ⟨hs.schedule id, hg.1, fun _ => ⟨hlocked, rfl, ?_⟩⟩
      exact update_self _ _ _
  | interrupt p id hfinal fails =>
    obtain ⟨hlocked, hloaded, hread⟩ := hg.2 (process_eq_of_ready hready rfl)
    -- a text that is not final is the status of no finished stage
    have hnone : s.finished id = none := by
      rw [eq_none_iff_forall_ne_some]
      intro t ht
      exact hfinal t (hs.final id t ht).1 (hread t ht)
    exact keeps_failed hs hg.1 hlocked ⟨hloaded, hnone⟩ fails
  | giveUp p id fails =>
    obtain ⟨hlocked, hk⟩ := hg.2 (process_eq_of_ready hready rfl)
    exact keeps_failed hs hg.1 hlocked hk fails
  | systemdRun p id created reported =>
    exact keeps_systemdRun hs hg (process_eq_of_ready hready rfl) created reported
  | unlock p answers =>
    obtain ⟨hlocked, hk⟩ := hg.2 (process_eq_of_ready hready rfl)
    refine ⟨⟨hs.final, hs.timer, hs.kept, ?_⟩, trivial⟩
    change (s.misreported || s.misreports _) = false
    rw [hs.told, misreports_eq_false hk answers]
    rfl
  | put id write => exact keeps_put hs hg write
  | detail id text =>
    have hview := sameView_writeDetail s id text
    exact ⟨hview.sound hs, hview.knows hg⟩

/-- A call of the living process that holds the mutex excludes the others of this process. -/
theorem process_ne_of_apart {q : Nat} (hready : op.ready s = true)
    (hg : (Place.inside p k).Knows s) (hpermits : g'.Permits op) (hq : op.process? = some q)
    (hapart : Apart Place.lock (.inside p k) g') : s.process ≠ p := by
  intro hp
  have hlocked := (hg.2 hp).1
  have hpq : q = p := (process_eq_of_ready hready hq).symm.trans hp
  rcases hpermits.own hq with ⟨rfl, rfl⟩ | ⟨k', rfl⟩
  · have hfree : (!s.locked) = true := (Bool.and_eq_true_iff.mp hready).2
    rw [hlocked] at hfree
    cases hfree
  · exact hapart (.mutex p) rfl (congrArg (fun n => some (Place.Resource.mutex n)) hpq)

/-- What a call knows about a stage survives a write of another stage's script. -/
theorem Known.Holds.finish (hk : k.Holds s) (st : Status) (st' : Option Status)
    (b : Bool) (hid : s.loaded ≠ some id) :
    k.Holds (s.writeStatus id st (Function.update s.finished id st') b) := by
  cases k with
  | nothing => trivial
  | read id' payload =>
    have hne : id' ≠ id := fun heq => hid (heq ▸ hk.1)
    refine ⟨hk.1, ?_⟩
    intro t ht
    exact hk.2 t ((update_of_ne hne _ _).symm.trans ht)
  | unfinished id' =>
    have hne : id' ≠ id := fun heq => hid (heq ▸ hk.1)
    exact ⟨hk.1, (update_of_ne hne _ _).trans hk.2⟩

/-- An operation of another process, a script or the outside leaves a call what it knows. -/
theorem knows_inside (hready : op.ready s = true) (hclear : undisturbed s op = true)
    (hg : (Place.inside p k).Knows s) (hpermits : g'.Permits op)
    (hapart : Apart Place.lock (.inside p k) g') : (Place.inside p k).Knows (op.exec s).1 := by
  cases hop : op.process? with
  | some q =>
    have hne := process_ne_of_apart hready hg hpermits hop hapart
    have hprocess : (op.exec s).1.process = s.process := by
      apply exec_process
      rintro rfl
      cases hop
    refine ⟨hg.1.trans hprocess.ge, ?_⟩
    intro hp
    exact absurd (hprocess.symm.trans hp) hne
  | none =>
    cases op with
    | put id write =>
      cases write with
      | detail text => exact (sameView_writeDetail s id text).knows hg
      | status st =>
        refine ⟨hg.1, ?_⟩
        intro hp
        obtain ⟨hlocked, hk⟩ := hg.2 hp
        dsimp only [exec]
        split_ifs with hst
        · have hid : s.loaded ≠ some id := by
            have hor := Bool.or_eq_true_iff.mp hclear
            rw [hst] at hor
            exact of_decide_eq_true (hor.resolve_left Bool.false_ne_true)
          exact ⟨hlocked, hk.finish st _ _ hid⟩
        · exact ⟨hlocked, hk.congr rfl rfl⟩
    | start | exit | stop => exact ⟨hg.1, fun hp => ⟨(hg.2 hp).1, (hg.2 hp).2.congr rfl rfl⟩⟩
    | restart =>
      refine ⟨Nat.le_succ_of_le hg.1, ?_⟩
      intro hp
      exact absurd hg.1 (hp ▸ Nat.not_succ_le_self _)
    | _ => cases hop

/-- Scheduling a stage, and all else that is written from outside its script, leaves a stage
unfinished. -/
theorem finished_other (hg : s.finished id = none) (hpermits : g'.Permits op)
    (hunit : g'.lock ≠ some .unit) : (op.exec s).1.finished id = none := by
  cases hpermits with
  | neutral k hneutral hown =>
    rw [(sameView_neutral hneutral).finished]
    exact hg
  | schedule p k id' fails =>
    cases fails with
    | true => exact hg
    | false =>
      change update s.finished id' none id = none
      by_cases hid : id = id'
      · rw [hid, update_self]
      · rw [update_of_ne hid]
        exact hg
  | interrupt p id' hfinal fails | giveUp p id' fails =>
    cases fails with
    | true | false => exact hg
  | systemdRun p id' created reported =>
    dsimp only [exec]
    split_ifs with hcreated
    · exact hg
    · exact hg
  | put | detail => exact absurd rfl hunit
  | _ => exact hg

section
variable (hready : op.ready s = true)
include hready

/-- A running script is only ended by itself. -/
theorem unit_other (hg : s.unit = .service id) (hpermits : g'.Permits op)
    (hunit : g'.lock ≠ some .unit) : (op.exec s).1.unit = .service id := by
  cases hpermits with
  | neutral k hneutral hown => exact (sameView_neutral hneutral).unit.trans hg
  | start id' =>
    have htimer : s.unit = .timer id' := of_decide_eq_true (Bool.and_eq_true_iff.mp hready).2
    cases hg.symm.trans htimer
  | stop =>
    have hwaiting : s.unit.waiting = true := (Bool.and_eq_true_iff.mp hready).2
    rw [hg] at hwaiting
    cases hwaiting
  | schedule p k id' fails | interrupt p id' hfinal fails | giveUp p id' fails =>
    cases fails with
    | true | false => exact hg
  | systemdRun p id' created reported =>
    dsimp only [exec]
    rw [if_neg]
    · exact hg
    · rw [hg, Bool.and_eq_true_iff]
      exact fun h => UnitState.noConfusion (of_decide_eq_true h.2)
  | put | detail | exitWriting | exitEnding => exact absurd rfl hunit
  | _ => exact hg

/-- What a call knows is not disturbed by the others. -/
theorem exec_other (hclear : undisturbed s op = true) (hg : g.Knows s)
    (hpermits : g'.Permits op) (hapart : Apart Place.lock g g') : g.Knows (op.exec s).1 := by
  cases g with
  | outside => trivial
  | inside p k => exact knows_inside hready hclear hg hpermits hapart
  | writing id =>
    have hunit := hapart .unit rfl
    exact ⟨unit_other hready hg.1 hpermits hunit, finished_other hg.2 hpermits hunit⟩
  | ending id => exact unit_other hready hg hpermits (hapart .unit rfl)

/-- A mutex, or the unit, is only taken when nobody has it. -/
theorem taken_free {resource : Place.Resource} (hpermits : g.Permits op)
    (htaken : (g.next op (op.exec s).2).lock = some resource) :
    g.lock = some resource ∨ ∀ g' : Place, g'.Knows s → g'.lock ≠ some resource := by
  cases hpermits with
  | lock p =>
    right
    intro g' hg' hlock
    have hfree : (!s.locked) = true := (Bool.and_eq_true_iff.mp hready).2
    have hp := process_eq_of_ready hready rfl
    cases htaken
    cases g' with
    | inside q k =>
      cases hlock
      rw [(hg'.2 hp).1] at hfree
      cases hfree
    | _ => cases hlock
  | start id =>
    right
    intro g' hg' hlock
    have htimer : s.unit = .timer id := of_decide_eq_true (Bool.and_eq_true_iff.mp hready).2
    cases htaken
    cases g' with
    | writing id' => cases htimer.symm.trans hg'.1
    | ending id' => cases htimer.symm.trans hg'
    | _ => cases hlock
  | neutral k hneutral hown =>
    rw [next_neutral hneutral] at htaken
    exact .inl htaken
  | schedule p k id fails =>
    left
    dsimp only [Place.next] at htaken
    split_ifs at htaken with hfails
    · exact htaken
    · exact htaken
  | put id write =>
    left
    cases write with
    | detail text => exact htaken
    | status st =>
      dsimp only [Place.next] at htaken
      split_ifs at htaken with hst
      · exact htaken
      · exact htaken
  | readStatus | interrupt | giveUp | systemdRun | detail => exact .inl htaken
  | unlock | exitWriting | exitEnding | stop | restart => cases htaken

end

end Steps

end HeyServer.Updates
