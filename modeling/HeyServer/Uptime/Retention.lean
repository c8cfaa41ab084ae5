import HeyServer.Lib.Rollup
import HeyServer.Uptime.StateManager
import Mathlib.Algebra.Order.BigOperators.Group.List

/-!
# Compaction of heartbeats

`CompactHeartbeats` sums up the heartbeats before a cutoff by monitor and hour and deletes
them. A new sum replaces the row of its hour. `UptimePercent` reads the heartbeats alone.

## Implementation notes

The two statements of a compaction run without anything in between. Averages are exact.
-/

namespace HeyServer.Uptime
open Lib List UptimeDb HourlyRow UptimeDb

/-- `strftime('%Y-%m-%dT%H:00:00Z', created_at)` -/
def hourOf (t : Int) : Int := t / 3600

namespace UptimeHeartbeat

/-- `GROUP BY monitor_id, hour_bucket` -/
def bucket (h : UptimeHeartbeat) : Nat × Int := (h.monitorID, hourOf h.createdAt)

end UptimeHeartbeat

namespace HourlyRow

/-- `UNIQUE(monitor_id, hour_bucket)` -/
def bucket (row : HourlyRow) : Nat × Int := (row.monitorID, row.hourBucket)

/-- `AVG`; of no value it is null. -/
def average (pings : List ℚ) : Option ℚ :=
  if pings = [] then none else some (pings.sum / pings.length)

/-- The row of a group. -/
def summary (bucket : Nat × Int) (group : List UptimeHeartbeat) : HourlyRow where
  monitorID := bucket.1
  hourBucket := bucket.2
  totalChecks := group.length
  upChecks := group.countP fun h => h.status = .up
  downChecks := group.countP fun h => h.status = .down
  avgPingMs := average (group.filterMap UptimeHeartbeat.pingMs)
  minPingMs := (group.filterMap UptimeHeartbeat.pingMs).min?
  maxPingMs := (group.filterMap UptimeHeartbeat.pingMs).max?

@[simp] theorem bucket_summary (b : Nat × Int) (group : List UptimeHeartbeat) :
    (summary b group).bucket = b := rfl

end HourlyRow

namespace UptimeDb
variable (db : UptimeDb) (now olderThanDays : Int)

/-- `time.Now().UTC().AddDate(0, 0, -olderThanDays)` -/
def cutoff : Int := rfc3339 now - olderThanDays * 86400

/-- The heartbeats before a cutoff. -/
def before (limit : Int) : List UptimeHeartbeat := db.stored.filter fun h => h.createdAt < limit

/-- The rows of their groups. -/
def summaries (limit : Int) : List HourlyRow :=
  (Rollup.groups UptimeHeartbeat.bucket (db.before limit)).map fun g => .summary g.1 g.2

theorem summaries_fk {limit : Int} {row : HourlyRow} (h : row ∈ db.summaries limit) :
    (db.monitors.get? row.monitorID).isSome := by
  obtain ⟨g, hg, rfl⟩ := mem_map.mp h
  obtain ⟨⟨x, hx, hbucket⟩, -⟩ := Rollup.mem_groups.mp hg
  obtain ⟨stored, hstored, rfl⟩ := mem_map.mp (mem_filter.mp hx).1
  have hfk := db.heartbeat_fk stored hstored
  rw [show (summary g.1 g.2).monitorID = stored.2.monitorID from
    (congrArg Prod.fst hbucket).symm]
  exact hfk

/-- `CompactHeartbeats`, with the number of heartbeats deleted. -/
def compactHeartbeats : UptimeDb × Nat :=
  let limit := cutoff now olderThanDays
  ({ db with
    hourly := Rollup.replaceAll bucket db.hourly (db.summaries limit)
    heartbeats := db.heartbeats.delete fun _ h => h.createdAt < limit
    heartbeat_fk := fun row hrow => db.heartbeat_fk row (List.mem_filter.mp hrow).1
    hourly_fk := by
      intro row hrow
      rcases Rollup.mem_replaceAll hrow with hold | hnew
      · exact db.hourly_fk row hold
      · exact db.summaries_fk hnew },
    (db.before limit).length)

/-- `strftime('%Y-%m-%dT%H:%M:%SZ', 'now', '-n hours')` -/
def windowStart (now : Int) (periodHours : Nat) : Int := rfc3339 now - periodHours * 3600

/-- The total and the up checks that `UptimePercent` selects. -/
def uptimeCounts (id periodHours : Nat) (now : Int) : Nat × Nat :=
  let window := db.stored.filter fun h => h.monitorID = id ∧
    windowStart now periodHours ≤ h.createdAt
  (window.length, window.countP fun h => h.status = .up)

def uptimePercent (id periodHours : Nat) (now : Int) : ℚ :=
  let (total, up) := db.uptimeCounts id periodHours now
  if total = 0 then 100 else up / total * 100

end UptimeDb

/-! ## Runs -/

inductive RetentionStep
  | insert (batch : List UptimeHeartbeat)
  | compact (now olderThanDays : Int)

/-- The tables and every heartbeat ever inserted. -/
structure Ledger where
  db : UptimeDb
  inserted : List UptimeHeartbeat

namespace Ledger

def step (l : Ledger) : RetentionStep → Ledger
  | .insert batch =>
    match l.db.insertHeartbeatBatch batch with
    | some db => ⟨db, l.inserted ++ batch⟩
    | none => l
  | .compact now olderThanDays => ⟨(l.db.compactHeartbeats now olderThanDays).1, l.inserted⟩

def run (l : Ledger) (steps : List RetentionStep) : Ledger := steps.foldl step l

/-- The tables with nothing compacted yet. -/
def start (db : UptimeDb) : Ledger := ⟨db, db.stored⟩

end Ledger

/-- The sum of a column over the hourly rows of a monitor. -/
def aggregated (id : Nat) (column : HourlyRow → Nat) (rows : List HourlyRow) : Nat :=
  (rows.map fun row => if row.monitorID = id then column row else 0).sum

/-- The number of heartbeats of a monitor that a condition holds of. -/
def counted (id : Nat) (p : UptimeHeartbeat → Bool) (hs : List UptimeHeartbeat) : Nat :=
  hs.countP fun h => h.monitorID = id && p h

/-- The hourly checks and the raw heartbeats of a monitor are the heartbeats ever inserted
for it, and so are those that were up. -/
def Conserved (l : Ledger) : Prop :=
  ∀ id,
    aggregated id totalChecks l.db.hourly + counted id (fun _ => true) l.db.stored =
      counted id (fun _ => true) l.inserted ∧
    aggregated id upChecks l.db.hourly + counted id (·.status = .up) l.db.stored =
      counted id (·.status = .up) l.inserted

variable (db : UptimeDb)

/-- No heartbeat that is compacted belongs to an hour that has a row already. -/
def Fresh (limit : Int) : Prop :=
  ∀ h ∈ db.before limit, ∀ row ∈ db.hourly, row.bucket ≠ h.bucket

/-! ## One compaction -/

section Compaction
variable {db : UptimeDb} {limit : Int} {id : Nat} {column : HourlyRow → Nat}
  {p : UptimeHeartbeat → Bool}

/-- The rows a compaction replaces. -/
def replaced (db : UptimeDb) (limit : Int) : List HourlyRow :=
  Rollup.replaced bucket db.hourly (db.summaries limit)

theorem replaced_eq_nil : replaced db limit = [] ↔ Fresh db limit := by
  exact Rollup.replaced_rollup_eq_nil bucket_summary

theorem stored_compact (now days : Int) : (db.compactHeartbeats now days).1.stored =
      db.stored.filter fun h => !decide (h.createdAt < cutoff now days) := by
  simp [stored, compactHeartbeats, RowTable.delete, filter_map, Function.comp_def]

/-- A compaction keeps the counts of a period exactly when it takes no check of the period. -/
theorem uptimeCounts_compact_iff (db : UptimeDb) (id periodHours : Nat) (now days : Int) :
    (db.compactHeartbeats now days).1.uptimeCounts id periodHours now =
      db.uptimeCounts id periodHours now ↔
      ∀ h ∈ db.stored, h.monitorID = id → windowStart now periodHours ≤ h.createdAt →
        cutoff now days ≤ h.createdAt := by
  unfold uptimeCounts
  rw [stored_compact, filter_comm]
  constructor
  · intro hcounts h hh hid hwindow
    have hkept := length_filter_eq_length_iff.mp (congrArg Prod.fst hcounts)
    simpa using hkept h (mem_filter.mpr ⟨hh, by simp [hid, hwindow]⟩)
  · intro hkept
    rw [filter_eq_self.mpr]
    intro h hh
    obtain ⟨hstored, hwindow⟩ := mem_filter.mp hh
    obtain ⟨hid, hstart⟩ := of_decide_eq_true hwindow
    simpa using hkept h hstored hid hstart

/-- A compaction loses exactly what the rows it replaces have counted. -/
theorem compact_account (db : UptimeDb) (id : Nat)
    (hcolumn : ∀ b g, column (.summary b g) = g.countP p) (now days : Int) :
    aggregated id column (db.compactHeartbeats now days).1.hourly +
        counted id p (db.compactHeartbeats now days).1.stored +
        aggregated id column (replaced db (cutoff now days)) =
      aggregated id column db.hourly + counted id p db.stored := by
  have hsum : ∀ hs : List UptimeHeartbeat,
      (hs.map fun h => if h.monitorID = id && p h then 1 else 0).sum = counted id p hs := by
    intro hs
    induction hs with
    | nil => rfl
    | cons h hs ih =>
      rw [map_cons, sum_cons, ih, counted, counted, countP_cons, Nat.add_comm]
  have hgroup : ∀ b g, (∀ h ∈ g, UptimeHeartbeat.bucket h = b) →
      (if b.1 = id then column (.summary b g) else 0) =
        (g.map fun h => if h.monitorID = id && p h then 1 else 0).sum := by
    intro b g hg
    -- all heartbeats of a group are of its monitor
    have hid : ∀ h ∈ g, h.monitorID = b.1 := fun h hh => congrArg Prod.fst (hg h hh)
    rw [hsum, counted, hcolumn]
    split_ifs with hb
    · exact countP_congr fun h hh => by simp [hid h hh, hb]
    · exact (countP_eq_zero.mpr fun h hh => by simp [hid h hh, hb]).symm
  have haccount := Rollup.sum_compact UptimeHeartbeat.bucket
    (w := fun row : HourlyRow => if row.monitorID = id then column row else 0)
    bucket_summary hgroup db.hourly db.stored fun h => h.createdAt < cutoff now days
  rw [hsum, hsum, ← stored_compact] at haccount
  exact haccount

end Compaction

/-! ## Every sequence of compactions -/

theorem totalChecks_summary (b : Nat × Int) (g : List UptimeHeartbeat) :
    (summary b g).totalChecks = g.countP fun _ => true := by
  simp [summary]

theorem upChecks_summary (b : Nat × Int) (g : List UptimeHeartbeat) :
    (summary b g).upChecks = g.countP fun h => h.status = .up := rfl

/-- An insert puts the same heartbeats into the table and into the account. -/
theorem Ledger.step_insert (l : Ledger) (batch : List UptimeHeartbeat) :
    (l.step (.insert batch)).db.hourly = l.db.hourly ∧
      ∃ more, (l.step (.insert batch)).db.stored = l.db.stored ++ more ∧
        (l.step (.insert batch)).inserted = l.inserted ++ more := by
  cases hinsert : l.db.insertHeartbeatBatch batch with
  | none =>
    have hstep : l.step (.insert batch) = l := by simp [Ledger.step, hinsert]
    rw [hstep]
    exact ⟨rfl, [], by simp, by simp⟩
  | some db =>
    have hstep : l.step (.insert batch) = ⟨db, l.inserted ++ batch⟩ := by
      simp [Ledger.step, hinsert]
    obtain ⟨-, -, hhourly, hstored⟩ := insertHeartbeatBatch_eq_some hinsert
    rw [hstep]
    exact ⟨hhourly, batch, hstored, rfl⟩

variable {l : Ledger}

theorem Conserved.insert (h : Conserved l) (batch : List UptimeHeartbeat) :
    Conserved (l.step (.insert batch)) := by
  obtain ⟨hhourly, more, hstored, hinserted⟩ := l.step_insert batch
  intro id
  obtain ⟨htotal, hup⟩ := h id
  rw [hhourly, hstored, hinserted]
  unfold counted at htotal hup ⊢
  rw [countP_append, countP_append, countP_append, countP_append]
  omega

/-- Every row counts at least one check. -/
def Counts : Prop := ∀ row ∈ db.hourly, 0 < row.totalChecks

theorem Counts.step (h : Counts l.db) (s : RetentionStep) : Counts (l.step s).db := by
  cases s with
  | insert batch =>
    rw [Counts, (l.step_insert batch).1]
    exact h
  | compact now days =>
    intro row hrow
    rcases Rollup.mem_replaceAll hrow with hold | hnew
    · exact h row hold
    · obtain ⟨g, hg, rfl⟩ := mem_map.mp hnew
      obtain ⟨⟨x, hx, hbucket⟩, hrows⟩ := Rollup.mem_groups.mp hg
      rw [hrows]
      exact length_pos_of_mem (Rollup.mem_group.mpr ⟨hx, hbucket⟩)

/-- A compaction keeps the account exactly when it replaces no row. -/
theorem conserved_compact_iff (hcounts : Counts l.db) (hbefore : Conserved l) (now days : Int) :
    Conserved (l.step (.compact now days)) ↔ Fresh l.db (cutoff now days) := by
  rw [← replaced_eq_nil]
  constructor
  · intro hafter
    by_contra hsome
    obtain ⟨row, hrow⟩ := exists_mem_of_ne_nil _ hsome
    -- the row counted a check of its monitor, and that check is lost
    have hlost : 0 < aggregated row.monitorID totalChecks
        (replaced l.db (cutoff now days)) := by
      have hpos := hcounts row (mem_filter.mp hrow).1
      have hle := le_sum_of_mem (mem_map_of_mem (f := fun r : HourlyRow =>
        if r.monitorID = row.monitorID then r.totalChecks else 0) hrow)
      rw [if_pos rfl] at hle
      exact Nat.lt_of_lt_of_le hpos hle
    have haccount := compact_account l.db row.monitorID totalChecks_summary now days
    have hkept : aggregated row.monitorID totalChecks
          (l.db.compactHeartbeats now days).1.hourly +
        counted row.monitorID (fun _ => true) (l.db.compactHeartbeats now days).1.stored =
        counted row.monitorID (fun _ => true) l.inserted := (hafter row.monitorID).1
    have hwas := (hbefore row.monitorID).1
    omega
  · intro hnone id
    have htotal := compact_account l.db id totalChecks_summary now days
    have hup := compact_account l.db id upChecks_summary now days
    rw [hnone] at htotal hup
    obtain ⟨h1, h2⟩ := hbefore id
    exact ⟨htotal.trans h1, hup.trans h2⟩

/-- A step keeps the account exactly when it meets the condition on compactions. -/
def MeetsFresh : RetentionStep → Prop
  | .insert _ => True
  | .compact now days => Fresh db (cutoff now days)

theorem conserved_step_iff (hcounts : Counts l.db) (hbefore : Conserved l)
    (s : RetentionStep) : Conserved (l.step s) ↔ MeetsFresh l.db s := by
  cases s with
  | insert batch => exact iff_of_true (hbefore.insert batch) trivial
  | compact now days => exact conserved_compact_iff hcounts hbefore now days

theorem counts_start {db : UptimeDb} (hnone : db.hourly = []) : Counts (Ledger.start db).db := by
  intro row hrow
  rw [show (Ledger.start db).db.hourly = [] from hnone] at hrow
  cases hrow

theorem conserved_start {db : UptimeDb} (hnone : db.hourly = []) : Conserved (Ledger.start db) := by
  intro id
  simp [Ledger.start, hnone, aggregated]

/-- Compaction loses no check, in any state a sequence of inserts and compactions leads
through, exactly when no compaction meets a heartbeat of an hour that has a row already. -/
theorem compaction_conserves_iff (db : UptimeDb) (hnone : db.hourly = [])
    (steps : List RetentionStep) :
    (∀ earlier later, steps = earlier ++ later → Conserved ((Ledger.start db).run earlier)) ↔
      AtEach (fun earlier s => MeetsFresh ((Ledger.start db).run earlier).db s) steps :=
  foldl_iff_atEach (I := fun l => Counts l.db) ⟨counts_start hnone, conserved_start hnone⟩
    (fun _ s hcounts _ => hcounts.step s)
    fun _ s hcounts hbefore => conserved_step_iff hcounts hbefore s

instance (db : UptimeDb) (limit : Int) : Decidable (Fresh db limit) :=
  inferInstanceAs (Decidable (∀ h ∈ db.before limit, ∀ row ∈ db.hourly, row.bucket ≠ h.bucket))

instance (db : UptimeDb) : (s : RetentionStep) → Decidable (MeetsFresh db s)
  | .insert _ => .isTrue trivial
  | .compact now days => inferInstanceAs (Decidable (Fresh db (cutoff now days)))

/-- A database with one monitor. -/
def monitored : UptimeDb := empty.createMonitor ⟨1, 0, true, false⟩

/-- A heartbeat of the first monitor at a time in seconds. -/
def checkAt (status : Status) (t : Int) : UptimeHeartbeat := ⟨1, status, [], none, none, [], t⟩

/-- The only check, a failed one, at the start of the epoch. -/
def oldOutage : UptimeDb := ((Ledger.start monitored).run [.insert [checkAt .down 0]]).db

/-- After sixty days and the default compaction, the 90-day figure has forgotten it. -/
theorem uptime_percent_forgets :
    oldOutage.uptimeCounts 1 (24 * 90) (5184000 * 1000000000) = (1, 0) ∧
      oldOutage.uptimePercent 1 (24 * 90) (5184000 * 1000000000) = 0 ∧
      (oldOutage.compactHeartbeats (5184000 * 1000000000) 30).1.uptimeCounts 1 (24 * 90)
        (5184000 * 1000000000) = (0, 0) ∧
      (oldOutage.compactHeartbeats (5184000 * 1000000000) 30).1.uptimePercent 1 (24 * 90)
        (5184000 * 1000000000) = 100 := by
  decide +kernel

/-- Three checks in two hours, compacted a day later, each hour at once. -/
def wholeHours : List RetentionStep :=
  [.insert [checkAt .up 60, checkAt .down 120, checkAt .up 3660],
    .compact (90000 * 1000000000) 1, .compact (93600 * 1000000000) 1]

theorem compaction_conserves_wholeHours :
    AtEach (fun earlier s => MeetsFresh ((Ledger.start monitored).run earlier).db s) wholeHours ∧
      ∀ earlier later, wholeHours = earlier ++ later →
        Conserved ((Ledger.start monitored).run earlier) := by
  have hfresh : AtEach (fun earlier s => MeetsFresh ((Ledger.start monitored).run earlier).db s)
      wholeHours := by
    decide +kernel
  exact ⟨hfresh, (compaction_conserves_iff monitored rfl wholeHours).mpr hfresh⟩

/-- The same with a cutoff inside the first hour. -/
def splitHour : List RetentionStep :=
  [.insert [checkAt .up 60, checkAt .up 120], .compact (86500 * 1000000000) 1,
    .compact (90000 * 1000000000) 1]

theorem compaction_loses_check :
    ¬ Conserved ((Ledger.start monitored).run splitHour) := by
  intro h
  have hone := (h 1).1
  revert hone
  decide +kernel

end HeyServer.Uptime
