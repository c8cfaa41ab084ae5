import HeyServer.Lib.RowTable
import HeyServer.Lib.Text
import Mathlib.Data.Rat.Defs

/-!
# The uptime tables

Monitors with their state, incidents and heartbeats, and the statements the uptime
service issues on them.

## Implementation notes

Foreign keys are part of the type: every row that names a monitor names one that is
there. A statement fails for that reason only. Times in the tables are RFC 3339 text
with whole seconds in UTC, so they are numbers of seconds here.
-/

namespace HeyServer.Uptime
open Lib List Option RowTable

inductive Status
  | down | up | pending | maintenance | tlsWarn
  deriving DecidableEq

/-- What the checks read of a monitor; its key is kept apart. -/
structure UptimeMonitor where
  retries : Int
  alertReminderMins : Int
  isActive : Bool
  maintenanceMode : Bool
  deriving DecidableEq

structure UptimeMonitorState where
  currentStatus : Status
  consecutiveFails : Nat
  consecutiveUps : Nat
  lastCheckAt : Option Int
  lastAlertAt : Option Int
  activeIncidentID : Option Nat
  deriving DecidableEq

/-- The column defaults of `uptime_monitor_state`. -/
def UptimeMonitorState.initial : UptimeMonitorState := ⟨.pending, 0, 0, none, none, none⟩

structure UptimeIncident where
  monitorID : Nat
  type : Bytes
  cause : Bytes
  startedAt : Int
  resolvedAt : Option Int
  deriving DecidableEq

structure UptimeHeartbeat where
  monitorID : Nat
  status : Status
  msg : Bytes
  pingMs : Option ℚ
  statusCode : Option Int
  tlsExpiry : Bytes
  createdAt : Int
  deriving DecidableEq

/-- A row of `uptime_heartbeats_hourly`; the bucket is the number of the hour. -/
structure HourlyRow where
  monitorID : Nat
  hourBucket : Int
  totalChecks : Nat
  upChecks : Nat
  downChecks : Nat
  avgPingMs : Option ℚ
  minPingMs : Option ℚ
  maxPingMs : Option ℚ
  deriving DecidableEq

structure UptimeDb where
  monitors : RowTable UptimeMonitor
  states : Nat → Option UptimeMonitorState
  incidents : RowTable UptimeIncident
  heartbeats : RowTable UptimeHeartbeat
  hourly : List HourlyRow
  state_fk : ∀ id, (states id).isSome → (monitors.get? id).isSome
  incident_fk : ∀ row ∈ incidents.rows, (monitors.get? row.2.monitorID).isSome
  heartbeat_fk : ∀ row ∈ heartbeats.rows, (monitors.get? row.2.monitorID).isSome
  hourly_fk : ∀ row ∈ hourly, (monitors.get? row.monitorID).isSome

namespace UptimeDb

def empty : UptimeDb where
  monitors := .empty
  states _ := none
  incidents := .empty
  heartbeats := .empty
  hourly := []
  state_fk := by simp
  incident_fk := by simp [RowTable.empty]
  heartbeat_fk := by simp [RowTable.empty]
  hourly_fk := by simp

variable (db : UptimeDb) (id : Nat)

def getMonitor : Option UptimeMonitor := db.monitors.get? id

variable {monitors : RowTable UptimeMonitor}

theorem isSome_insert {id : Nat}
    (h : (monitors.get? id).isSome) (m : UptimeMonitor) : ((monitors.insert m).get? id).isSome := by
  rw [get?_insert]
  split_ifs with hid
  · rfl
  · exact h

theorem isSome_delete {id gone : Nat} (h : (monitors.get? id).isSome) (hne : id ≠ gone) :
    ((monitors.delete fun key _ => key = gone).get? id).isSome := by
  rw [get?_delete, isSome_iff_exists]
  obtain ⟨m, hm⟩ := isSome_iff_exists.mp h
  exact ⟨m, by simp [hm, hne]⟩

/-- `CreateMonitor`: the monitor under the next key, and its row of state. -/
def createMonitor (m : UptimeMonitor) : UptimeDb :=
  { db with
    monitors := db.monitors.insert m
    states := fun id => if id = db.monitors.seq + 1 then some .initial else db.states id
    state_fk := by
      intro id h
      by_cases hid : id = db.monitors.seq + 1
      · rw [RowTable.get?_insert, if_pos hid]
        rfl
      · rw [if_neg hid] at h
        exact isSome_insert (db.state_fk id h) m
    incident_fk := fun row hrow => isSome_insert (db.incident_fk row hrow) m
    heartbeat_fk := fun row hrow => isSome_insert (db.heartbeat_fk row hrow) m
    hourly_fk := fun row hrow => isSome_insert (db.hourly_fk row hrow) m }

/-- `DeleteMonitor`; the rows that name the monitor go with it. -/
def deleteMonitor (gone : Nat) : UptimeDb where
  monitors := db.monitors.delete fun key _ => key = gone
  states id := if id = gone then none else db.states id
  incidents := db.incidents.delete fun _ i => i.monitorID = gone
  heartbeats := db.heartbeats.delete fun _ h => h.monitorID = gone
  hourly := db.hourly.filter fun row => row.monitorID ≠ gone
  state_fk := by
    intro id h
    by_cases hid : id = gone
    · rw [if_pos hid] at h
      cases h
    · rw [if_neg hid] at h
      exact isSome_delete (db.state_fk id h) hid
  incident_fk := by
    intro row hrow
    obtain ⟨hmem, hne⟩ := List.mem_filter.mp hrow
    exact isSome_delete (db.incident_fk row hmem) (by simpa using hne)
  heartbeat_fk := by
    intro row hrow
    obtain ⟨hmem, hne⟩ := List.mem_filter.mp hrow
    exact isSome_delete (db.heartbeat_fk row hmem) (by simpa using hne)
  hourly_fk := by
    intro row hrow
    obtain ⟨hmem, hne⟩ := List.mem_filter.mp hrow
    exact isSome_delete (db.hourly_fk row hmem) (by simpa using hne)

def getState : Option UptimeMonitorState := db.states id

/-- `UPDATE uptime_monitor_state … WHERE monitor_id = ?` -/
def updateState (state : UptimeMonitorState) : UptimeDb :=
  { db with
    states := fun key => (db.states key).map fun old => if key = id then state else old
    state_fk := by
      intro key h
      rw [Option.isSome_map] at h
      exact db.state_fk key h }

/-! ## Incidents -/

/-- `WHERE monitor_id = ? AND resolved_at IS NULL` -/
def isOpen (_ : Nat) (i : UptimeIncident) : Bool :=
  i.monitorID = id && i.resolvedAt.isNone

/-- The unresolved incidents of a monitor. -/
def openIncidents : List (Nat × UptimeIncident) := db.incidents.select (isOpen id)

/-- `ORDER BY started_at DESC, id DESC LIMIT 1`, from rows in the order of their keys. -/
def newest? : List (Nat × UptimeIncident) → Option (Nat × UptimeIncident) :=
  List.foldl (fun best row =>
    match best with
    | none => some row
    | some b => if b.2.startedAt ≤ row.2.startedAt then some row else some b) none

/-- `CreateIncident`: an open incident is taken for the new one. It fails for a monitor that
is not there. -/
def createIncident (i : UptimeIncident) : Option (UptimeDb × Nat) :=
  match newest? (db.openIncidents i.monitorID) with
  | some row => some (db, row.1)
  | none =>
    if h : (db.monitors.get? i.monitorID).isSome then
      some ({ db with
        incidents := db.incidents.insert i
        incident_fk := by
          intro row hrow
          rcases List.mem_append.mp hrow with hrow | hrow
          · exact db.incident_fk row hrow
          · rw [List.mem_singleton.mp hrow]
            exact h }, db.incidents.seq + 1)
    else none

/-- `ResolveOpenIncidents`, with the number of rows affected. -/
def resolveOpenIncidents (now : Int) : UptimeDb × Nat :=
  ({ db with
    incidents := db.incidents.update (isOpen id) fun i => { i with resolvedAt := some now }
    incident_fk := by
      intro row hrow
      obtain ⟨old, hold, rfl⟩ := List.mem_map.mp hrow
      have hfk := db.incident_fk old hold
      by_cases hopen : isOpen id old.1 old.2 = true
      · simpa [hopen] using hfk
      · simpa [hopen] using hfk },
    (db.openIncidents id).length)

/-! ## Heartbeats -/

/-- `INSERT INTO uptime_heartbeats`; it fails for a monitor that is not there. -/
def insertHeartbeat (h : UptimeHeartbeat) : Option UptimeDb :=
  if hfk : (db.monitors.get? h.monitorID).isSome then
    some { db with
      heartbeats := db.heartbeats.insert h
      heartbeat_fk := by
        intro row hrow
        rcases List.mem_append.mp hrow with hrow | hrow
        · exact db.heartbeat_fk row hrow
        · rw [List.mem_singleton.mp hrow]
          exact hfk }
  else none

/-- `InsertHeartbeatBatch`: all of the batch, or on a failure nothing. -/
def insertHeartbeatBatch (batch : List UptimeHeartbeat) : Option UptimeDb :=
  batch.foldlM insertHeartbeat db

/-- The heartbeats stored, in the order they were inserted. -/
def stored : List UptimeHeartbeat := db.heartbeats.rows.map Prod.snd

/-! ## What the statements leave -/

section Reads
variable {db}

theorem getState_updateState_self {id : Nat} {old : UptimeMonitorState}
    (h : db.getState id = some old) (new : UptimeMonitorState) :
    (db.updateState id new).getState id = some new := by
  rw [getState] at h
  simp [getState, updateState, h]

theorem getState_updateState_other {id other : Nat} (hne : id ≠ other) (new : UptimeMonitorState) :
    (db.updateState other new).getState id = db.getState id := by
  simp [getState, updateState, hne]

@[simp] theorem openIncidents_updateState (id other : Nat) (new : UptimeMonitorState) :
    (db.updateState other new).openIncidents id = db.openIncidents id := rfl

theorem openIncidents_resolveOpenIncidents_other {id other : Nat} (hne : id ≠ other) (now : Int) :
    (db.resolveOpenIncidents other now).1.openIncidents id = db.openIncidents id := by
  refine select_update_of_disjoint fun _ i hopen => ?_
  have hid : i.monitorID = other := by simp [isOpen] at hopen; exact hopen.1
  simp [isOpen, hid, hne.symm]

/-- A new incident leaves everything but the incidents of its monitor. -/
theorem createIncident_frame {i : UptimeIncident} {opened : UptimeDb} {key : Nat}
    (h : db.createIncident i = some (opened, key)) :
    opened.getMonitor = db.getMonitor ∧ opened.stored = db.stored ∧ opened.getState = db.getState ∧
      ∀ id, id ≠ i.monitorID → opened.openIncidents id = db.openIncidents id := by
  unfold createIncident at h
  split at h
  · cases h
    exact ⟨rfl, rfl, rfl, fun _ _ => rfl⟩
  · split_ifs at h
    cases h
    refine ⟨rfl, rfl, rfl, fun id hne => ?_⟩
    calc (db.incidents.insert i).select (isOpen id)
        = db.incidents.select (isOpen id) ++
            if isOpen id (db.incidents.seq + 1) i then [(db.incidents.seq + 1, i)] else [] :=
          select_insert _ _ _
      _ = db.openIncidents id := by simp [isOpen, openIncidents, hne.symm]

/-- An incident of a monitor that has none open is a new row. -/
theorem createIncident_new {i : UptimeIncident} (hfk : (db.monitors.get? i.monitorID).isSome)
    (hnone : db.openIncidents i.monitorID = []) (hopen : i.resolvedAt = none) :
    ∃ opened, db.createIncident i = some (opened, db.incidents.seq + 1) ∧
      opened.openIncidents i.monitorID = [(db.incidents.seq + 1, i)] := by
  have hnewest : newest? (db.openIncidents i.monitorID) = none := by rw [hnone]; rfl
  unfold createIncident
  rw [hnewest]
  simp only [dif_pos hfk]
  refine ⟨_, rfl, ?_⟩
  calc (db.incidents.insert i).select (isOpen i.monitorID)
      = db.openIncidents i.monitorID ++
          if isOpen i.monitorID (db.incidents.seq + 1) i then [(db.incidents.seq + 1, i)] else [] :=
        select_insert _ _ _
    _ = [(db.incidents.seq + 1, i)] := by simp [isOpen, hnone, hopen]

/-- Nothing names a monitor before it is there. -/
theorem openIncidents_createMonitor (m : UptimeMonitor) :
    (db.createMonitor m).openIncidents (db.monitors.seq + 1) = [] := by
  apply filter_eq_nil_iff.mpr
  intro row hrow hopen
  have hid : row.2.monitorID = db.monitors.seq + 1 := by
    simp [isOpen] at hopen
    exact hopen.1
  obtain ⟨m', hm'⟩ := isSome_iff_exists.mp (db.incident_fk row hrow)
  have hle := get?_le_seq hm'
  omega

theorem insertHeartbeat_eq_some {h : UptimeHeartbeat} {next : UptimeDb}
    (hnext : db.insertHeartbeat h = some next) :
    (db.getMonitor h.monitorID).isSome ∧ next.getMonitor = db.getMonitor ∧
      next.hourly = db.hourly ∧ next.stored = db.stored ++ [h] := by
  unfold insertHeartbeat at hnext
  split_ifs at hnext with hfk
  cases hnext
  exact ⟨hfk, rfl, rfl, map_append⟩

variable {batch : List UptimeHeartbeat}

/-- A batch that was stored had all its monitors, and nothing else has changed. -/
theorem insertHeartbeatBatch_eq_some {next : UptimeDb}
    (hnext : db.insertHeartbeatBatch batch = some next) :
    (∀ h ∈ batch, (db.getMonitor h.monitorID).isSome) ∧ next.getMonitor = db.getMonitor ∧
      next.hourly = db.hourly ∧ next.stored = db.stored ++ batch := by
  induction batch generalizing db with
  | nil =>
    cases hnext
    exact ⟨by simp, rfl, rfl, by simp⟩
  | cons h batch ih =>
    rw [insertHeartbeatBatch, foldlM_cons] at hnext
    obtain ⟨mid, hmid, hrest⟩ := bind_eq_some_iff.mp hnext
    obtain ⟨hfk, hmonitors, hhourly, hstored⟩ := insertHeartbeat_eq_some hmid
    obtain ⟨hfks, hmonitors', hhourly', hstored'⟩ := ih hrest
    rw [hmonitors] at hfks
    refine ⟨?_, hmonitors'.trans hmonitors, hhourly'.trans hhourly, by rw [hstored', hstored]; simp⟩
    intro x hx
    rcases mem_cons.mp hx with rfl | hx
    · exact hfk
    · exact hfks x hx

/-- A batch whose monitors are all there is stored. -/
theorem insertHeartbeatBatch_isSome (h : ∀ x ∈ batch, (db.getMonitor x.monitorID).isSome) :
    (db.insertHeartbeatBatch batch).isSome := by
  induction batch generalizing db with
  | nil => exact isSome_some
  | cons x batch ih =>
    have hfk : (db.monitors.get? x.monitorID).isSome := h x mem_cons_self
    obtain ⟨next, hnext⟩ : ∃ next, db.insertHeartbeat x = some next := by
      unfold insertHeartbeat
      rw [dif_pos hfk]
      exact ⟨_, rfl⟩
    rw [insertHeartbeatBatch, foldlM_cons, hnext]
    refine ih fun y hy => ?_
    rw [(insertHeartbeat_eq_some hnext).2.1]
    exact h y (mem_cons_of_mem _ hy)

end Reads

end UptimeDb

end HeyServer.Uptime
