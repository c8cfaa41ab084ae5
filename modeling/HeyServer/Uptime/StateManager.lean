import HeyServer.Lib.Interleaving
import HeyServer.Uptime.Store

/-!
# Check results, incidents and alerts

`StateManager.Transition` turns the result of a check into the state of its monitor, opens
and resolves incidents and sends alerts. The alerts sent are kept in the order they were
sent.

## Implementation notes

The clock is read several times in one transition, and each reading is a number of nanoseconds of
its own. Nothing is assumed of them. The checks of other monitors may come in between.
-/

namespace HeyServer.Uptime
open Lib List UptimeDb UptimeMonitor

/-- What a check found; the readings it did not take are zero. -/
structure CheckResult where
  status : Status
  msg : Bytes
  pingMs : ℚ
  statusCode : Int
  tlsExpiry : Bytes
  checkedAt : Int
  deriving DecidableEq

/-- A call of `Transition`: the monitor, the result of its check and the readings of the
clock by the manager, by the store and by `time.Since`. -/
structure Check where
  monitorID : Nat
  monitor : UptimeMonitor
  result : CheckResult
  now : Int
  stored : Int
  since : Int
  deriving DecidableEq

inductive AlertKind
  | down | recovery | reminder
  deriving DecidableEq

structure Alert where
  kind : AlertKind
  monitorID : Nat
  result : CheckResult
  deriving DecidableEq

/-- The tables and the alerts sent so far. -/
structure UptimeService where
  db : UptimeDb
  alerts : List Alert

/-- `Format(time.RFC3339)` of a reading of the clock. -/
def rfc3339 (t : Int) : Int := t / 1000000000

def minutes (n : Int) : Int := n * 60000000000

namespace UptimeMonitorState

variable (state : UptimeMonitorState)

/-- `UP` and `TLS_WARN` -/
def succeed (status : Status) (now : Int) : UptimeMonitorState :=
  { state with
    consecutiveUps := state.consecutiveUps + 1
    consecutiveFails := 0
    lastCheckAt := some (rfc3339 now)
    activeIncidentID := none
    currentStatus := status }

/-- `DOWN` -/
def fail (now : Int) : UptimeMonitorState :=
  { state with
    consecutiveFails := state.consecutiveFails + 1
    consecutiveUps := 0
    lastCheckAt := some (rfc3339 now) }

/-- The last alert is at least the reminder interval ago. -/
def reminderDue (monitor : UptimeMonitor) (since : Int) : Bool :=
  0 < monitor.alertReminderMins &&
    state.lastAlertAt.any fun at_ =>
      minutes monitor.alertReminderMins ≤ since - at_ * 1000000000

end UptimeMonitorState

variable (db : UptimeDb)

/-- `StateManager.Transition`: the tables it leaves and the alerts it sends. -/
def transition (c : Check) : UptimeDb × List Alert :=
  match db.getState c.monitorID with
  | none => (db, [])
  | some state =>
    match c.result.status with
    | .up | .tlsWarn =>
      let (resolved, _) := db.resolveOpenIncidents c.monitorID (rfc3339 c.stored)
      let next := state.succeed c.result.status c.now
      (resolved.updateState c.monitorID next,
        if state.currentStatus = .down ∧ 1 ≤ next.consecutiveUps then
          [⟨.recovery, c.monitorID, c.result⟩]
        else [])
    | .down =>
      let next := state.fail c.now
      if state.currentStatus ≠ .down ∧ c.monitor.retries ≤ next.consecutiveFails then
        let incident : UptimeIncident :=
          ⟨c.monitorID, ascii "down", c.result.msg, rfc3339 c.stored, none⟩
        let alerted := { next with
          currentStatus := .down
          lastAlertAt := some (rfc3339 c.now) }
        match db.createIncident incident with
        | some (opened, id) =>
          (opened.updateState c.monitorID { alerted with activeIncidentID := some id },
            [⟨.down, c.monitorID, c.result⟩])
        | none => (db.updateState c.monitorID alerted, [⟨.down, c.monitorID, c.result⟩])
      else if state.currentStatus = .down ∧ next.reminderDue c.monitor c.since = true then
        (db.updateState c.monitorID { next with lastAlertAt := some (rfc3339 c.now) },
          [⟨.reminder, c.monitorID, c.result⟩])
      else (db.updateState c.monitorID next, [])
    | .pending | .maintenance => (db.updateState c.monitorID state, [])

namespace UptimeService

variable (s : UptimeService)

def step (c : Check) : UptimeService :=
  ⟨(transition s.db c).1, s.alerts ++ (transition s.db c).2⟩

def run (checks : List Check) : UptimeService := checks.foldl step s

@[simp] theorem run_nil : s.run [] = s := rfl

@[simp] theorem run_concat (checks : List Check) (c : Check) :
    s.run (checks ++ [c]) = (s.run checks).step c := by
  simp [run]

/-- The kinds of the alerts about one monitor. -/
def kinds (id : Nat) : List AlertKind :=
  (s.alerts.filter fun a => a.monitorID = id).map Alert.kind

end UptimeService

/-- The results of one monitor's checks. -/
def history (id : Nat) (checks : List Check) : List CheckResult :=
  (checks.filter fun c => c.monitorID = id).map Check.result

variable (results : List CheckResult)

/-- The length of the run of failures a sequence of results ends with. -/
def consecutiveFailures : Nat :=
  results.foldl (fun n r =>
    match r.status with
    | .down => n + 1
    | .up | .tlsWarn => 0
    | .pending | .maintenance => n) 0

variable (kinds : List AlertKind)

/-- The alerts without the reminders. -/
def switches : List AlertKind := kinds.filter (· ≠ .reminder)

/-- Down and recovery in turn, down first. -/
def Alternates : Prop :=
  AtEach (fun earlier kind => kind = if earlier.getLast? = some .down then .recovery else .down)
    kinds

/-- The failures that make a monitor go down. -/
def UptimeMonitor.limit (m : UptimeMonitor) : Int := max 1 m.retries

/-- What the state of a monitor, its incidents and the alerts about it have to do with the
results of its checks. -/
structure FollowsChecks (id : Nat) (m : UptimeMonitor) (start : UptimeService)
    (checks : List Check) : Prop where
  /-- The monitor is down when it has exactly one unresolved incident, and that is its
  active one. -/
  incident : ∃ state, (start.run checks).db.getState id = some state ∧
    (state.currentStatus = .down ↔ ((start.run checks).db.openIncidents id).length = 1) ∧
    (state.currentStatus = .down →
      ∃ row ∈ (start.run checks).db.openIncidents id, state.activeIncidentID = some row.1)
  alternate : Alternates (switches ((start.run checks).kinds id))
  /-- A down alert is sent exactly at the failure that makes the limit full. -/
  down : ∀ earlier c later, checks = earlier ++ c :: later → c.monitorID = id →
    ((∃ a ∈ (transition (start.run earlier).db c).2, a.kind = .down) ↔
      c.result.status = .down ∧
        (consecutiveFailures (history id (earlier ++ [c])) : Int) = m.limit ∧
        ∀ state, (start.run earlier).db.getState id = some state → state.currentStatus ≠ .down)
  /-- Reminders come after a down alert that no recovery has followed yet. -/
  reminder : AtEach (fun earlier kind => kind = .reminder →
    (switches earlier).getLast? = some .down) ((start.run checks).kinds id)

/-! ## One transition -/

/-- A transition writes the state of its monitor, after it may have resolved its incidents or
opened one, and sends alerts about it. -/
theorem transition_cases (c : Check) : (∀ a ∈ (transition db c).2, a.monitorID = c.monitorID) ∧
      ((transition db c).1 = db ∨ ∃ prepared next,
        (transition db c).1 = prepared.updateState c.monitorID next ∧ (prepared = db ∨
            prepared = (db.resolveOpenIncidents c.monitorID (rfc3339 c.stored)).1 ∨
            ∃ id, db.createIncident
              ⟨c.monitorID, ascii "down", c.result.msg, rfc3339 c.stored, none⟩ =
                some (prepared, id))) := by
  unfold transition
  cases db.getState c.monitorID with
  | none => exact ⟨by simp, .inl rfl⟩
  | some state =>
    cases c.result.status with
    | up | tlsWarn =>
      dsimp only
      refine ⟨?_, .inr ⟨_, _, rfl, .inr (.inl rfl)⟩⟩
      split_ifs <;> simp
    | pending | maintenance => exact ⟨by simp, .inr ⟨_, _, rfl, .inl rfl⟩⟩
    | down =>
      dsimp only
      split_ifs
      · cases db.createIncident
          ⟨c.monitorID, ascii "down", c.result.msg, rfc3339 c.stored, none⟩ with
        | none => exact ⟨by simp, .inr ⟨_, _, rfl, .inl rfl⟩⟩
        | some opened => exact ⟨by simp, .inr ⟨_, _, rfl, .inr (.inr ⟨opened.2, rfl⟩)⟩⟩
      · exact ⟨by simp, .inr ⟨_, _, rfl, .inl rfl⟩⟩
      · exact ⟨by simp, .inr ⟨_, _, rfl, .inl rfl⟩⟩

/-- A transition leaves the other monitors alone. -/
theorem transition_other {c : Check} {id : Nat} (hne : id ≠ c.monitorID) :
    (transition db c).1.getState id = db.getState id ∧
      (transition db c).1.openIncidents id = db.openIncidents id := by
  rcases (transition_cases db c).2 with hsame | ⟨prepared, next, hwritten, hprepared⟩
  · rw [hsame]
    exact ⟨rfl, rfl⟩
  rw [hwritten, getState_updateState_other hne, openIncidents_updateState]
  rcases hprepared with rfl | rfl | ⟨incident, hcreate⟩
  · exact ⟨rfl, rfl⟩
  · exact ⟨rfl, openIncidents_resolveOpenIncidents_other hne _⟩
  · obtain ⟨-, -, hget, hopen⟩ := createIncident_frame hcreate
    exact ⟨by rw [hget], hopen id hne⟩

/-- A transition leaves the monitors and the heartbeats alone. -/
theorem transition_frame (c : Check) :
    (transition db c).1.getMonitor = db.getMonitor ∧ (transition db c).1.stored = db.stored := by
  rcases (transition_cases db c).2 with hsame | ⟨prepared, next, hwritten, hprepared⟩
  · rw [hsame]
    exact ⟨rfl, rfl⟩
  rw [hwritten]
  rcases hprepared with rfl | rfl | ⟨incident, hcreate⟩
  · exact ⟨rfl, rfl⟩
  · exact ⟨rfl, rfl⟩
  · obtain ⟨hmonitors, hstored, -⟩ := createIncident_frame hcreate
    exact ⟨hmonitors, hstored⟩

section Own
variable {db : UptimeDb} {c : Check} {state : UptimeMonitorState}

section
variable (hstate : db.getState c.monitorID = some state)
include hstate

/-- A successful check resolves what is open and ends an outage. -/
theorem transition_up (hup : c.result.status = .up ∨ c.result.status = .tlsWarn) :
    (transition db c).1.getState c.monitorID = some (state.succeed c.result.status c.now) ∧
      (transition db c).1.openIncidents c.monitorID = [] ∧ (transition db c).2 =
        if state.currentStatus = .down then [⟨.recovery, c.monitorID, c.result⟩] else [] := by
  have hvalue : transition db c =
      (((db.resolveOpenIncidents c.monitorID (rfc3339 c.stored)).1.updateState c.monitorID
        (state.succeed c.result.status c.now)),
        if state.currentStatus = .down then [⟨.recovery, c.monitorID, c.result⟩] else []) := by
    rcases hup with hup | hup <;> simp [transition, hstate, hup, UptimeMonitorState.succeed]
  rw [hvalue]
  exact ⟨getState_updateState_self hstate _,
    RowTable.select_update_self fun _ _ _ => by simp [isOpen], rfl⟩

/-- The failure that makes the limit full opens an incident and sends the down alert. -/
theorem transition_goes_down (hdown : c.result.status = .down) (hwas : state.currentStatus ≠ .down)
    (hretries : c.monitor.retries ≤ (state.consecutiveFails + 1 : Nat))
    (hnone : db.openIncidents c.monitorID = []) :
    ∃ row next, (transition db c).1.getState c.monitorID = some next ∧
      (transition db c).1.openIncidents c.monitorID = [row] ∧
      (transition db c).2 = [⟨.down, c.monitorID, c.result⟩] ∧
      next.currentStatus = .down ∧ next.consecutiveFails = state.consecutiveFails + 1 ∧
      next.activeIncidentID = some row.1 := by
  have hfk : (db.monitors.get? c.monitorID).isSome :=
    db.state_fk _ (Option.isSome_iff_exists.mpr ⟨state, hstate⟩)
  obtain ⟨opened, hcreate, hopen⟩ := createIncident_new
    (i := ⟨c.monitorID, ascii "down", c.result.msg, rfc3339 c.stored, none⟩) hfk hnone rfl
  have hget : opened.getState c.monitorID = db.getState c.monitorID :=
    congrFun (createIncident_frame hcreate).2.2.1 c.monitorID
  have hguard : state.currentStatus ≠ .down ∧
      c.monitor.retries ≤ ((state.fail c.now).consecutiveFails : Int) := ⟨hwas, hretries⟩
  unfold transition
  rw [hstate, hdown]
  dsimp only
  rw [if_pos hguard, hcreate]
  exact ⟨_, _, getState_updateState_self (hget.trans hstate) _, hopen, rfl, rfl, rfl, rfl⟩

/-- Any other failure only counts; a monitor that is down may get a reminder. -/
theorem transition_fails (hdown : c.result.status = .down)
    (hstays : state.currentStatus = .down ∨
      (state.consecutiveFails + 1 : Nat) < c.monitor.retries) :
    (∃ next, (transition db c).1.getState c.monitorID = some next ∧
      next.currentStatus = state.currentStatus ∧
      next.consecutiveFails = state.consecutiveFails + 1 ∧
      next.activeIncidentID = state.activeIncidentID) ∧
    (transition db c).1.openIncidents c.monitorID = db.openIncidents c.monitorID ∧
    ((transition db c).2 = [] ∨
      state.currentStatus = .down ∧ (transition db c).2 =
        [⟨.reminder, c.monitorID, c.result⟩]) := by
  have hguard : ¬ (state.currentStatus ≠ .down ∧
      c.monitor.retries ≤ ((state.fail c.now).consecutiveFails : Int)) := by
    rintro ⟨hwas, hretries⟩
    rcases hstays with hstays | hstays
    · exact hwas hstays
    · exact absurd hretries (not_le.mpr hstays)
  unfold transition
  rw [hstate, hdown]
  dsimp only
  rw [if_neg hguard]
  split_ifs with hremind
  · exact ⟨⟨_, getState_updateState_self hstate _, rfl, rfl, rfl⟩, rfl, .inr ⟨hremind.1, rfl⟩⟩
  · exact ⟨⟨_, getState_updateState_self hstate _, rfl, rfl, rfl⟩, rfl, .inl rfl⟩

/-- A result that is neither success nor failure changes nothing. -/
theorem transition_idle (hidle : c.result.status = .pending ∨ c.result.status = .maintenance) :
    (transition db c).1.getState c.monitorID = some state ∧
      (transition db c).1.openIncidents c.monitorID = db.openIncidents c.monitorID ∧
      (transition db c).2 = [] := by
  have hvalue : transition db c = (db.updateState c.monitorID state, []) := by
    rcases hidle with hidle | hidle <;> simp [transition, hstate, hidle]
  rw [hvalue]
  exact ⟨getState_updateState_self hstate _, rfl, rfl⟩

end

end Own

/-! ## Every sequence of checks -/

@[simp] theorem consecutiveFailures_concat (r : CheckResult) :
    consecutiveFailures (results ++ [r]) = match r.status with
      | .down => consecutiveFailures results + 1
      | .up | .tlsWarn => 0
      | .pending | .maintenance => consecutiveFailures results := by
  simp [consecutiveFailures]

theorem history_concat_self {id : Nat} (checks : List Check) {c : Check} (h : c.monitorID = id) :
    history id (checks ++ [c]) = history id checks ++ [c.result] := by
  simp [history, h]

@[simp] theorem switches_concat (kind : AlertKind) :
    switches (kinds ++ [kind]) = if kind =
      .reminder then switches kinds else switches kinds ++ [kind] := by
  cases kind <;> simp [switches]

/-- The part of the tables and the alerts that belong to one monitor, after results of its
checks: either it is down, with its one incident and a down alert, or it is not. -/
structure Tracks (id : Nat) (m : UptimeMonitor) (db : UptimeDb) (results : List CheckResult)
    (kinds : List AlertKind) (state : UptimeMonitorState) : Prop where
  getState : db.getState id = some state
  fails : state.consecutiveFails = consecutiveFailures results
  phase :
    (state.currentStatus = .down ∧
      (∃ row, db.openIncidents id = [row] ∧ state.activeIncidentID = some row.1) ∧
      (switches kinds).getLast? = some .down) ∨
    (state.currentStatus ≠ .down ∧ db.openIncidents id = [] ∧
      (switches kinds).getLast? ≠ some .down ∧ (consecutiveFailures results : Int) < m.limit)
  alternate : Alternates (switches kinds)
  reminder : AtEach (fun earlier kind => kind = .reminder →
    (switches earlier).getLast? = some .down) kinds

section Steps
variable {id : Nat} {m : UptimeMonitor} {db : UptimeDb} {results : List CheckResult}
  {kinds : List AlertKind} {state : UptimeMonitorState} {c : Check}

theorem UptimeMonitor.limit_le {m : UptimeMonitor} {n : Nat} :
    m.limit ≤ (n + 1 : Nat) ↔ m.retries ≤ (n + 1 : Nat) := by
  unfold limit
  omega

/-- The kinds of what one transition sends about its own monitor. -/
def sentKinds (db : UptimeDb) (c : Check) : List AlertKind := (transition db c).2.map Alert.kind

section
variable (h : Tracks c.monitorID c.monitor db results kinds state)
include h

theorem Tracks.up (hup : c.result.status = .up ∨ c.result.status = .tlsWarn) :
    Tracks c.monitorID c.monitor (transition db c).1 (results ++ [c.result])
      (kinds ++ sentKinds db c) (state.succeed c.result.status c.now) := by
  obtain ⟨hget, hopen, hsent⟩ := transition_up h.getState hup
  have hnext : (state.succeed c.result.status c.now).currentStatus ≠ .down := by
    rcases hup with hup | hup <;> simp [UptimeMonitorState.succeed, hup]
  have hzero : consecutiveFailures (results ++ [c.result]) = 0 := by
    rcases hup with hup | hup <;> simp [hup]
  have hlimit : ((0 : Nat) : Int) < c.monitor.limit := by
    unfold limit
    omega
  rcases h.phase with ⟨hdown, -, hlast⟩ | ⟨hdown, -, hlast, -⟩
  · -- the outage ends with a recovery
    have hkinds : sentKinds db c = [.recovery] := by simp [sentKinds, hsent, hdown]
    rw [hkinds]
    refine ⟨hget, hzero.symm, .inr ⟨hnext, hopen, by simp, by rwa [hzero]⟩, ?_, ?_⟩
    · rw [switches_concat, if_neg (by decide)]
      exact atEach_concat.mpr ⟨h.alternate, by simp [hlast]⟩
    · exact atEach_concat.mpr ⟨h.reminder, fun hkind => by cases hkind⟩
  · have hkinds : sentKinds db c = [] := by simp [sentKinds, hsent, hdown]
    rw [hkinds, append_nil]
    exact ⟨hget, hzero.symm, .inr ⟨hnext, hopen, hlast, by rwa [hzero]⟩, h.alternate, h.reminder⟩

theorem Tracks.fails_again (hdown : c.result.status = .down) :
    ∃ next, Tracks c.monitorID c.monitor (transition db c).1 (results ++ [c.result])
      (kinds ++ sentKinds db c) next := by
  have hcount : consecutiveFailures (results ++ [c.result]) = consecutiveFailures results + 1 := by
    simp [hdown]
  rcases h.phase with ⟨hwas, ⟨row, hrow, hactive⟩, hlast⟩ | ⟨hwas, hnone, hlast, hlimit⟩
  · -- the monitor is down: at most a reminder
    obtain ⟨⟨next, hget, hstatus, hfails, hsame⟩, hopen, hsent⟩ :=
      transition_fails h.getState hdown (.inl hwas)
    have hincident : ∃ row, (transition db c).1.openIncidents c.monitorID = [row] ∧
        next.activeIncidentID = some row.1 := ⟨row, hopen.trans hrow, hsame.trans hactive⟩
    refine ⟨next, ?_⟩
    rcases hsent with hsent | ⟨-, hsent⟩
    · have hkinds : sentKinds db c = [] := by simp [sentKinds, hsent]
      rw [hkinds, append_nil]
      exact ⟨hget, by rw [hfails, h.fails, hcount], .inl ⟨hstatus.trans hwas, hincident, hlast⟩,
        h.alternate, h.reminder⟩
    · have hkinds : sentKinds db c = [.reminder] := by simp [sentKinds, hsent]
      have hswitches : switches (kinds ++ [.reminder]) = switches kinds := by simp
      rw [hkinds]
      exact ⟨hget, by rw [hfails, h.fails, hcount],
        .inl ⟨hstatus.trans hwas, hincident, by rwa [hswitches]⟩,
          by rw [hswitches]; exact h.alternate,
        atEach_concat.mpr ⟨h.reminder, fun _ => hlast⟩⟩
  · by_cases hretries : c.monitor.retries ≤ (state.consecutiveFails + 1 : Nat)
    · -- the limit is full
      obtain ⟨row, next, hget, hopen, hsent, hstatus, hfails, hactive⟩ :=
        transition_goes_down h.getState hdown hwas hretries hnone
      have hkinds : sentKinds db c = [.down] := by simp [sentKinds, hsent]
      rw [hkinds]
      refine ⟨next, hget, by rw [hfails, h.fails, hcount],
        .inl ⟨hstatus, ⟨row, hopen, hactive⟩, by simp⟩, ?_, ?_⟩
      · rw [switches_concat, if_neg (by decide)]
        exact atEach_concat.mpr ⟨h.alternate, by simp [hlast]⟩
      · exact atEach_concat.mpr ⟨h.reminder, fun hkind => by cases hkind⟩
    · obtain ⟨⟨next, hget, hstatus, hfails, -⟩, hopen, hsent⟩ :=
        transition_fails h.getState hdown (.inr (not_le.mp hretries))
      have hkinds : sentKinds db c = [] := by
        rcases hsent with hsent | ⟨hbad, -⟩
        · simp [sentKinds, hsent]
        · exact absurd hbad hwas
      rw [hkinds, append_nil]
      refine ⟨next, hget, by rw [hfails, h.fails, hcount],
        .inr ⟨by rwa [hstatus], hopen.trans hnone, hlast, ?_⟩, h.alternate, h.reminder⟩
      rw [hcount, ← h.fails]
      exact not_le.mp fun hle => hretries (limit_le.mp hle)

/-- A check of the monitor itself. -/
theorem Tracks.own :
    ∃ next, Tracks c.monitorID c.monitor (transition db c).1 (results ++ [c.result])
      (kinds ++ sentKinds db c) next := by
  cases hstatus : c.result.status with
  | up => exact ⟨_, h.up (.inl hstatus)⟩
  | tlsWarn => exact ⟨_, h.up (.inr hstatus)⟩
  | down => exact h.fails_again hstatus
  | pending | maintenance =>
    obtain ⟨hget, hopen, hsent⟩ := transition_idle h.getState (by simp [hstatus])
    have hkinds : sentKinds db c = [] := by simp [sentKinds, hsent]
    have hcount : consecutiveFailures (results ++ [c.result]) = consecutiveFailures results := by
      simp [hstatus]
    rw [hkinds, append_nil]
    exact ⟨state, hget, by rw [h.fails, hcount], by rw [hopen, hcount]; exact h.phase,
      h.alternate, h.reminder⟩

/-- When a down alert is sent. -/
theorem Tracks.down_sent : (∃ a ∈ (transition db c).2, a.kind = .down) ↔ c.result.status = .down ∧
        (consecutiveFailures (results ++ [c.result]) : Int) = c.monitor.limit ∧
        state.currentStatus ≠ .down := by
  cases hstatus : c.result.status with
  | up | tlsWarn =>
    obtain ⟨-, -, hsent⟩ := transition_up h.getState (by simp [hstatus])
    rw [hsent]
    split_ifs <;> simp
  | pending | maintenance =>
    obtain ⟨-, -, hsent⟩ := transition_idle h.getState (by simp [hstatus])
    simp [hsent]
  | down =>
    have hcount : consecutiveFailures (results ++ [c.result]) = state.consecutiveFails + 1 := by
      simp [hstatus, h.fails]
    rw [hcount]
    rcases h.phase with ⟨hwas, -, -⟩ | ⟨hwas, hnone, -, hlimit⟩
    · obtain ⟨-, -, hsent⟩ := transition_fails h.getState hstatus (.inl hwas)
      rcases hsent with hsent | ⟨-, hsent⟩ <;> simp [hsent, hwas]
    · rw [← h.fails] at hlimit
      by_cases hretries : c.monitor.retries ≤ (state.consecutiveFails + 1 : Nat)
      · obtain ⟨-, -, -, -, hsent, -⟩ :=
          transition_goes_down h.getState hstatus hwas hretries hnone
        have hfull := limit_le.mpr hretries
        have heq : ((state.consecutiveFails + 1 : Nat) : Int) = c.monitor.limit := by omega
        simp [hsent, heq, hwas]
      · obtain ⟨-, -, hsent⟩ := transition_fails h.getState hstatus (.inr (not_le.mp hretries))
        have hshort : ((state.consecutiveFails + 1 : Nat) : Int) ≠ c.monitor.limit :=
          fun heq => hretries (limit_le.mp heq.ge)
        rcases hsent with hsent | ⟨hbad, -⟩
        · rw [hsent]
          constructor
          · rintro ⟨a, ha, -⟩
            exact absurd ha not_mem_nil
          · rintro ⟨-, heq, -⟩
            exact absurd heq hshort
        · exact absurd hbad hwas

end

end Steps

namespace UptimeService

theorem kinds_step_self (s : UptimeService) (c : Check) :
    (s.step c).kinds c.monitorID = s.kinds c.monitorID ++ sentKinds s.db c := by
  have hall : (transition s.db c).2.filter (fun a => a.monitorID = c.monitorID) =
      (transition s.db c).2 :=
    filter_eq_self.mpr fun a ha => by simp [(transition_cases _ _).1 a ha]
  simp only [kinds, step, filter_append, map_append, hall, sentKinds]

theorem kinds_step_other {id : Nat} {c : Check} (s : UptimeService) (hne : id ≠ c.monitorID) :
    (s.step c).kinds id = s.kinds id := by
  have hnone : (transition s.db c).2.filter (fun a => a.monitorID = id) = [] :=
    filter_eq_nil_iff.mpr fun a ha => by simp [(transition_cases _ _).1 a ha, hne.symm]
  simp only [kinds, step, filter_append, hnone, append_nil]

/-- The checks of a monitor that has just been created keep its part in step with its
history. -/
theorem run_tracks (db : UptimeDb) (m : UptimeMonitor) (alerts : List Alert)
    (hfresh : ∀ a ∈ alerts, a.monitorID ≠ db.monitors.seq + 1) (checks : List Check)
    (hm : ∀ c ∈ checks, c.monitorID = db.monitors.seq + 1 → c.monitor = m) :
    ∃ state, Tracks (db.monitors.seq + 1) m
      ((⟨db.createMonitor m, alerts⟩ : UptimeService).run checks).db
      (history (db.monitors.seq + 1) checks)
      (((⟨db.createMonitor m, alerts⟩ : UptimeService).run checks).kinds (db.monitors.seq + 1))
      state := by
  induction checks using reverseRecOn with
  | nil =>
    have hkinds : (⟨db.createMonitor m, alerts⟩ : UptimeService).kinds (db.monitors.seq + 1) =
        [] := by
      rw [kinds, filter_eq_nil_iff.mpr fun a ha => by simpa using hfresh a ha, map_nil]
    rw [run_nil, hkinds]
    refine ⟨.initial, by simp [getState, createMonitor], rfl, .inr ⟨by decide,
      openIncidents_createMonitor m, by decide, ?_⟩, atEach_nil, atEach_nil⟩
    show ((0 : Nat) : Int) < m.limit
    unfold limit
    omega
  | append_singleton checks c ih =>
    obtain ⟨state, htracks⟩ := ih fun c hc => hm c (mem_append_left _ hc)
    rw [run_concat]
    by_cases hid : c.monitorID = db.monitors.seq + 1
    · have hmonitor := hm c (by simp) hid
      rw [history_concat_self _ hid]
      rw [← hid, ← hmonitor] at htracks ⊢
      rw [kinds_step_self]
      exact htracks.own
    · obtain ⟨hget, hopen⟩ := transition_other
        ((⟨db.createMonitor m, alerts⟩ : UptimeService).run checks).db (Ne.symm hid)
      have hhistory : history (db.monitors.seq + 1) (checks ++ [c]) =
          history (db.monitors.seq + 1) checks := by simp [history, hid]
      rw [hhistory, kinds_step_other _ (Ne.symm hid)]
      exact ⟨state, hget.trans htracks.getState, htracks.fails, by
        simpa only [step, hopen] using htracks.phase, htracks.alternate, htracks.reminder⟩

/-- Uptime alerts and incidents follow the results of the checks: of a monitor created in
any state of the tables, whatever the results of its checks and of those of other monitors. -/
theorem alerts_follow_checks (db : UptimeDb) (m : UptimeMonitor) (alerts : List Alert)
    (hfresh : ∀ a ∈ alerts, a.monitorID ≠ db.monitors.seq + 1) (checks : List Check)
    (hm : ∀ c ∈ checks, c.monitorID = db.monitors.seq + 1 → c.monitor = m) :
    FollowsChecks (db.monitors.seq + 1) m ⟨db.createMonitor m, alerts⟩ checks := by
  obtain ⟨state, htracks⟩ := run_tracks db m alerts hfresh checks hm
  refine ⟨⟨state, htracks.getState, ?_, ?_⟩, htracks.alternate, ?_, htracks.reminder⟩
  · rcases htracks.phase with ⟨hdown, ⟨row, hrow, -⟩, -⟩ | ⟨hdown, hnone, -, -⟩
    · simp [hdown, hrow]
    · simp [hdown, hnone]
  · intro hdown
    rcases htracks.phase with ⟨-, ⟨row, hrow, hactive⟩, -⟩ | ⟨hnot, -, -, -⟩
    · exact ⟨row, by simp [hrow], hactive⟩
    · exact absurd hdown hnot
  · rintro earlier c later rfl hid
    obtain ⟨before, hbefore⟩ := run_tracks db m alerts hfresh earlier
      fun c' hc' => hm c' (mem_append_left _ hc')
    have hmonitor := hm c (by simp) hid
    rw [history_concat_self _ hid]
    rw [← hid, ← hmonitor] at hbefore ⊢
    rw [hbefore.down_sent, hbefore.getState]
    simp

/-- Three failures and a success of the first monitor, five minutes apart. -/
def outage (m : UptimeMonitor) : List Check :=
  let check (status : Status) (n : Int) : Check :=
    ⟨1, m, ⟨status, [], 0, 0, [], minutes (5 * n)⟩, minutes (5 * n), minutes (5 * n),
      minutes (5 * n)⟩
  [check .down 1, check .down 2, check .down 3, check .up 4]

/-- A monitor with two retries and reminders every minute. -/
def retried : UptimeMonitor := ⟨2, 1, true, false⟩

/-- Down, a reminder, recovery. -/
theorem alerts_follow_outage :
    FollowsChecks 1 retried ⟨UptimeDb.empty.createMonitor retried, []⟩ (outage retried) ∧
      ((⟨UptimeDb.empty.createMonitor retried, []⟩ : UptimeService).run (outage retried)).kinds 1 =
        [.down, .reminder, .recovery] :=
  ⟨alerts_follow_checks empty retried [] (by simp) (outage retried) (by simp [outage]), by decide⟩

end UptimeService

end HeyServer.Uptime
