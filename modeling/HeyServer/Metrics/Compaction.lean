import HeyServer.Lib.Interleaving
import HeyServer.Lib.Rollup
import Mathlib.Algebra.Order.BigOperators.Group.List

/-!
# Compaction of system metrics

Raw samples older than an hour become minute rows, minute rows older than a day become
hourly rows. A new row replaces the row of its bucket, and an hourly average is the average
of minute averages.

## Implementation notes

Times are whole seconds, as RFC 3339 writes them, and a bucket is the time its text names.
Values are exact. The two statements of a compaction run without anything in between.
-/

namespace HeyServer.Metrics
open Lib Rollup List

/-- The columns of `system_metrics` that compaction reads. -/
structure MetricRow where
  timestamp : Int
  cpuPercent : ℚ
  memPercent : ℚ
  swapPercent : ℚ
  load1 : ℚ
  netRX : Nat
  netTX : Nat
  diskRootPct : ℚ
  deriving DecidableEq

/-- A row of `system_metrics_minute` or `system_metrics_hourly` -/
structure AggregatedRow where
  bucket : Int
  sampleCount : Nat
  cpuAvg : ℚ
  cpuMax : ℚ
  memAvg : ℚ
  memMax : ℚ
  swapAvg : ℚ
  swapMax : ℚ
  load1Avg : ℚ
  netRXTotal : Nat
  netTXTotal : Nat
  diskRootAvg : ℚ
  diskRootMax : ℚ
  deriving DecidableEq

open AggregatedRow

/-- `strftime('%Y-%m-%dT%H:%M:00Z', …)` -/
def minuteBucket (t : Int) : Int := t - t % 60

/-- `strftime('%Y-%m-%dT%H:00:00Z', …)` -/
def hourBucket (t : Int) : Int := t - t % 3600

theorem hourBucket_minuteBucket (t : Int) : hourBucket (minuteBucket t) = hourBucket t := by
  unfold hourBucket minuteBucket
  omega

namespace MetricRow

def minute (x : MetricRow) : Int := minuteBucket x.timestamp

def hour (x : MetricRow) : Int := hourBucket x.timestamp

end MetricRow

namespace AggregatedRow

def hour (row : AggregatedRow) : Int := hourBucket row.bucket

/-- The row of the samples of one minute. -/
def ofSamples (bucket : Int) (g : List MetricRow) : AggregatedRow where
  bucket
  sampleCount := g.length
  cpuAvg := mean MetricRow.cpuPercent g
  cpuMax := peak MetricRow.cpuPercent g
  memAvg := mean MetricRow.memPercent g
  memMax := peak MetricRow.memPercent g
  swapAvg := mean MetricRow.swapPercent g
  swapMax := peak MetricRow.swapPercent g
  load1Avg := mean MetricRow.load1 g
  netRXTotal := (g.map MetricRow.netRX).sum
  netTXTotal := (g.map MetricRow.netTX).sum
  diskRootAvg := mean MetricRow.diskRootPct g
  diskRootMax := peak MetricRow.diskRootPct g

/-- The row of the minute rows of one hour. -/
def ofMinutes (bucket : Int) (g : List AggregatedRow) : AggregatedRow where
  bucket
  sampleCount := (g.map sampleCount).sum
  cpuAvg := mean cpuAvg g
  cpuMax := peak cpuMax g
  memAvg := mean memAvg g
  memMax := peak memMax g
  swapAvg := mean swapAvg g
  swapMax := peak swapMax g
  load1Avg := mean load1Avg g
  netRXTotal := (g.map netRXTotal).sum
  netTXTotal := (g.map netTXTotal).sum
  diskRootAvg := mean diskRootAvg g
  diskRootMax := peak diskRootMax g

theorem bucket_ofSamples (b : Int) (g : List MetricRow) : (ofSamples b g).bucket = b := rfl

theorem bucket_ofMinutes (b : Int) (g : List AggregatedRow) : (ofMinutes b g).bucket = b := rfl

end AggregatedRow

structure MetricsDb where
  raw : List MetricRow
  minute : List AggregatedRow
  hourly : List AggregatedRow

namespace MetricsDb
variable (db : MetricsDb) (now : Int)

def empty : MetricsDb := ⟨[], [], []⟩

/-- `InsertMetric`, which stamps the sample with the clock. -/
def insertMetric (m : MetricRow) : MetricsDb :=
  { db with raw := db.raw ++ [{ m with timestamp := now }] }

/-- The raw rows older than an hour. -/
def oldSamples : List MetricRow := db.raw.filter fun x => x.timestamp < now - 3600

/-- The minute rows older than a day. -/
def oldMinutes : List AggregatedRow := db.minute.filter fun row => row.bucket < now - 86400

/-- `CompactToMinute`, with the number of raw rows deleted. -/
def compactToMinute : MetricsDb × Nat :=
  ({ db with
    minute := replaceAll bucket db.minute
      (rollup MetricRow.minute ofSamples (db.oldSamples now))
    raw := db.raw.filter fun x => !decide (x.timestamp < now - 3600) },
    (db.oldSamples now).length)

/-- `CompactToHourly`, with the number of minute rows deleted. -/
def compactToHourly : MetricsDb × Nat :=
  ({ db with
    hourly := replaceAll bucket db.hourly
      (rollup hour ofMinutes (db.oldMinutes now))
    minute := db.minute.filter fun row => !decide (row.bucket < now - 86400) },
    (db.oldMinutes now).length)

/-- The samples the three tables count. -/
def total : Nat :=
  db.raw.length + (db.minute.map sampleCount).sum +
    (db.hourly.map sampleCount).sum

end MetricsDb

/-! ## Runs -/

inductive MetricsStep
  | insert (now : Int) (m : MetricRow)
  | toMinute (now : Int)
  | toHourly (now : Int)

/-- The tables with the number of samples inserted, and the samples that have reached the
minute table and have not left it, and those that have reached the hourly table. -/
structure Ledger where
  db : MetricsDb
  inserted : Nat
  inMinute : List MetricRow
  inHourly : List MetricRow

namespace Ledger

def start : Ledger := ⟨.empty, 0, [], []⟩

variable (l : Ledger)

def step : MetricsStep → Ledger
  | .insert now m => { l with db := l.db.insertMetric now m, inserted := l.inserted + 1 }
  | .toMinute now =>
    { l with
      db := (l.db.compactToMinute now).1
      inMinute := l.inMinute ++ l.db.oldSamples now }
  | .toHourly now =>
    { l with
      db := (l.db.compactToHourly now).1
      inMinute := l.inMinute.filter fun x => !decide (x.minute < now - 86400)
      inHourly := l.inHourly ++ l.inMinute.filter fun x => x.minute < now - 86400 }

variable (steps : List MetricsStep)

def run : Ledger := steps.foldl step l

@[simp] theorem run_concat (s : MetricsStep) : l.run (steps ++ [s]) = (l.run steps).step s := by
  simp [run]

end Ledger

/-! ## What a row says about its samples -/

/-- The measured quantities. -/
inductive Gauge
  | cpu | mem | swap | load | disk
  deriving DecidableEq

namespace Gauge

instance : Fintype Gauge := ⟨{cpu, mem, swap, load, disk}, by rintro (_ | _ | _ | _ | _) <;> decide⟩

def sample : Gauge → MetricRow → ℚ
  | cpu => MetricRow.cpuPercent
  | mem => MetricRow.memPercent
  | swap => MetricRow.swapPercent
  | load => MetricRow.load1
  | disk => MetricRow.diskRootPct

def average : Gauge → AggregatedRow → ℚ
  | cpu => cpuAvg
  | mem => memAvg
  | swap => swapAvg
  | load => load1Avg
  | disk => diskRootAvg

/-- The column of the maximum; the load has none. -/
def maximum? : Gauge → Option (AggregatedRow → ℚ)
  | cpu => some cpuMax
  | mem => some memMax
  | swap => some swapMax
  | load => none
  | disk => some diskRootMax

theorem average_ofSamples (q : Gauge) (b : Int) (g : List MetricRow) :
    q.average (.ofSamples b g) = mean q.sample g := by
  cases q <;> rfl

theorem average_ofMinutes (q : Gauge) (b : Int) (g : List AggregatedRow) :
    q.average (.ofMinutes b g) = mean q.average g := by
  cases q <;> rfl

variable {column : AggregatedRow → ℚ}

theorem maximum_ofSamples {q : Gauge} (h : q.maximum? = some column)
    (b : Int) (g : List MetricRow) : column (.ofSamples b g) = peak q.sample g := by
  cases q <;> cases h <;> rfl

theorem maximum_ofMinutes {q : Gauge} (h : q.maximum? = some column)
    (b : Int) (g : List AggregatedRow) : column (.ofMinutes b g) = peak column g := by
  cases q <;> cases h <;> rfl

end Gauge

/-- The row has the sample count, the averages and the maxima of the samples. -/
structure AggregatedRow.Agrees (row : AggregatedRow) (samples : List MetricRow) : Prop where
  count : row.sampleCount = samples.length
  average : ∀ q : Gauge, q.average row = mean q.sample samples
  maximum : ∀ (q : Gauge) (column : AggregatedRow → ℚ), q.maximum? = some column →
    column row = peak q.sample samples

/-- Every inserted sample is counted once, and each hourly row agrees with the samples of
its hour that have reached the hourly table. -/
structure Conserved (l : Ledger) : Prop where
  counted : l.db.total = l.inserted
  agrees : ∀ row ∈ l.db.hourly, row.Agrees (group MetricRow.hour l.inHourly row.bucket)

variable (db : MetricsDb)

/-- No raw row that is compacted belongs to a minute that has a row already. -/
def FreshMinutes (now : Int) : Prop :=
  ∀ x ∈ db.oldSamples now, ∀ row ∈ db.minute, row.bucket ≠ x.minute

/-- No minute row that is compacted belongs to an hour that has a row already. -/
def FreshHours (now : Int) : Prop :=
  ∀ x ∈ db.oldMinutes now, ∀ row ∈ db.hourly, row.bucket ≠ x.hour

/-- In each hour that is compacted, the average of the minute averages is the average that
weighs them by their sample counts. -/
def Balanced (now : Int) : Prop :=
  ∀ x ∈ db.oldMinutes now, ∀ q : Gauge,
    mean q.average (group hour (db.oldMinutes now) x.hour) =
      weightedMean sampleCount q.average
        (group hour (db.oldMinutes now) x.hour)

/-- The condition on a step. -/
def Meets : MetricsStep → Prop
  | .insert _ _ => True
  | .toMinute now => FreshMinutes db now
  | .toHourly now => FreshHours db now ∧ Balanced db now

/-! ## The account -/

section Account
variable (db : MetricsDb) (now : Int)

/-- The minute rows a compaction replaces. -/
def lostMinutes : List AggregatedRow :=
  replaced bucket db.minute
    (rollup MetricRow.minute ofSamples (db.oldSamples now))

/-- The hourly rows a compaction replaces. -/
def lostHours : List AggregatedRow :=
  replaced bucket db.hourly
    (rollup hour ofMinutes (db.oldMinutes now))

theorem lostMinutes_eq_nil : lostMinutes db now = [] ↔ FreshMinutes db now :=
  replaced_rollup_eq_nil bucket_ofSamples

theorem lostHours_eq_nil : lostHours db now = [] ↔ FreshHours db now :=
  replaced_rollup_eq_nil bucket_ofMinutes

/-- `CompactToMinute` loses exactly what the rows it replaces have counted. -/
theorem total_compactToMinute : (db.compactToMinute now).1.total +
        ((lostMinutes db now).map sampleCount).sum = db.total := by
  have hone : ∀ (b : Int) (g : List MetricRow),
      (ofSamples b g).sampleCount = (g.map fun _ => 1).sum := by
    simp [ofSamples]
  have haccount := sum_compact MetricRow.minute bucket_ofSamples (fun b g _ => hone b g)
    db.minute db.raw fun x => decide (x.timestamp < now - 3600)
  simp only [map_const', sum_replicate, nsmul_one, Nat.cast_id] at haccount
  unfold MetricsDb.total MetricsDb.compactToMinute lostMinutes MetricsDb.oldSamples
  dsimp only
  omega

/-- `CompactToHourly` loses exactly what the rows it replaces have counted. -/
theorem total_compactToHourly : (db.compactToHourly now).1.total +
        ((lostHours db now).map sampleCount).sum = db.total := by
  have haccount := sum_compact hour (v := sampleCount)
    (w := sampleCount) bucket_ofMinutes (fun _ _ _ => rfl) db.hourly db.minute
    fun row => decide (row.bucket < now - 86400)
  unfold MetricsDb.total MetricsDb.compactToHourly lostHours MetricsDb.oldMinutes
  dsimp only
  omega

end Account

/-! ## What the tables hold -/

/-- As long as nothing was lost: the minute rows are those of the samples that have reached
them, each sample of the hourly table has a row there, and hourly rows count samples. -/
structure Sound (l : Ledger) : Prop where
  mem_minute : ∀ row, row ∈ l.db.minute ↔
    row ∈ rollup MetricRow.minute ofSamples l.inMinute
  nodup_minute : (l.db.minute.map bucket).Nodup
  hourly_covers : ∀ x ∈ l.inHourly, ∃ row ∈ l.db.hourly, row.bucket = x.hour
  hourly_counts : ∀ row ∈ l.db.hourly, 0 < row.sampleCount

namespace Sound
variable {l : Ledger}

theorem start : Sound Ledger.start where
  mem_minute row := by simp [Ledger.start, MetricsDb.empty, mem_rollup]
  nodup_minute := nodup_nil
  hourly_covers x hx := by simp [Ledger.start] at hx
  hourly_counts row hrow := by simp [Ledger.start, MetricsDb.empty] at hrow

/-- A sample of the minute table and the row it is counted in. -/
theorem minute_covers (h : Sound l) {x : MetricRow} (hx : x ∈ l.inMinute) :
    ∃ row ∈ l.db.minute, row.bucket = x.minute :=
  ⟨_, (h.mem_minute _).mpr (mem_rollup.mpr ⟨x, hx, rfl⟩), rfl⟩

theorem minute_row (h : Sound l) {row : AggregatedRow} (hrow : row ∈ l.db.minute) :
    row = .ofSamples row.bucket (group MetricRow.minute l.inMinute row.bucket) ∧
      group MetricRow.minute l.inMinute row.bucket ≠ [] := by
  obtain ⟨x, hx, rfl⟩ := mem_rollup.mp ((h.mem_minute row).mp hrow)
  exact ⟨rfl, ne_nil_of_mem (mem_group.mpr ⟨hx, rfl⟩)⟩

theorem minute_counts (h : Sound l) {row : AggregatedRow} (hrow : row ∈ l.db.minute) :
    0 < row.sampleCount := by
  obtain ⟨heq, hne⟩ := h.minute_row hrow
  rw [heq]
  exact length_pos_of_ne_nil hne

end Sound

/-- A row that counts samples is missed when it is replaced. -/
theorem sum_sampleCount_eq_zero (rows : List AggregatedRow)
    (hcounts : ∀ row ∈ rows, 0 < row.sampleCount) :
    (rows.map sampleCount).sum = 0 ↔ rows = [] := by
  constructor
  · intro hzero
    by_contra hsome
    obtain ⟨row, hrow⟩ := exists_mem_of_ne_nil _ hsome
    have hle := le_sum_of_mem (mem_map_of_mem (f := sampleCount) hrow)
    have hpos := hcounts row hrow
    omega
  · rintro rfl
    rfl

/-! ### Compaction to minutes -/

section ToMinute
variable {l : Ledger} {now : Int}

theorem minute_toMinute (hfresh : FreshMinutes l.db now) : (l.step (.toMinute now)).db.minute =
      l.db.minute ++ rollup MetricRow.minute ofSamples (l.db.oldSamples now) :=
  replaceAll_of_replaced_eq_nil (nodup_tags_rollup _ _ bucket_ofSamples)
    ((lostMinutes_eq_nil l.db now).mpr hfresh)

theorem Sound.toMinute (h : Sound l) (hfresh : FreshMinutes l.db now) :
    Sound (l.step (.toMinute now)) where
  mem_minute row := by
    have hapart : ∀ x ∈ l.inMinute, ∀ y ∈ l.db.oldSamples now, x.minute ≠ y.minute := by
      intro x hx y hy
      obtain ⟨covering, hcovering, hbucket⟩ := h.minute_covers hx
      exact hbucket ▸ hfresh y hy covering hcovering
    rw [minute_toMinute hfresh, mem_append, h.mem_minute]
    exact (mem_rollup_append hapart).symm
  nodup_minute := by
    rw [minute_toMinute hfresh, map_append, nodup_append']
    refine ⟨h.nodup_minute, nodup_tags_rollup _ _ bucket_ofSamples, ?_⟩
    intro b hold hnew
    obtain ⟨row, hrow, rfl⟩ := mem_map.mp hold
    obtain ⟨x, hx, heq⟩ := (mem_tags_rollup bucket_ofSamples).mp hnew
    exact hfresh x hx row hrow heq.symm
  hourly_covers := h.hourly_covers
  hourly_counts := h.hourly_counts

theorem conserved_toMinute_iff (h : Sound l) (hbefore : Conserved l) :
    Conserved (l.step (.toMinute now)) ↔ FreshMinutes l.db now := by
  have htotal : (l.step (.toMinute now)).db.total +
      ((lostMinutes l.db now).map sampleCount).sum = l.db.total :=
    total_compactToMinute l.db now
  have hzero := sum_sampleCount_eq_zero (lostMinutes l.db now) fun row hrow =>
    h.minute_counts (mem_filter.mp hrow).1
  rw [lostMinutes_eq_nil] at hzero
  rw [← hzero]
  have hcounted := hbefore.counted
  constructor
  · intro hafter
    have : (l.step (.toMinute now)).db.total = l.inserted := hafter.counted
    omega
  · intro hnone
    refine ⟨?_, hbefore.agrees⟩
    show (l.step (.toMinute now)).db.total = l.inserted
    omega

end ToMinute

/-! ### Compaction to hours -/

section ToHourly
variable {l : Ledger} {now : Int}

/-- The samples that move to the hourly table. -/
def moved (l : Ledger) (now : Int) : List MetricRow :=
  l.inMinute.filter fun x => x.minute < now - 86400

/-- The minute rows of an hour that are compacted. -/
def minutesOf (l : Ledger) (now b : Int) : List AggregatedRow :=
  group hour (l.db.oldMinutes now) b

theorem hourly_toHourly (hfresh : FreshHours l.db now) : (l.step (.toHourly now)).db.hourly =
      l.db.hourly ++ rollup hour ofMinutes (l.db.oldMinutes now) :=
  replaceAll_of_replaced_eq_nil (nodup_tags_rollup _ _ bucket_ofMinutes)
    ((lostHours_eq_nil l.db now).mpr hfresh)

theorem Sound.moved_covers (h : Sound l) {x : MetricRow} (hx : x ∈ moved l now) :
    ∃ row ∈ l.db.oldMinutes now, row.bucket = x.minute := by
  obtain ⟨hin, hold⟩ := mem_filter.mp hx
  obtain ⟨row, hrow, hbucket⟩ := h.minute_covers hin
  exact ⟨row, mem_filter.mpr ⟨hrow, by rw [hbucket]; exact hold⟩, hbucket⟩

theorem hour_of_bucket {row : AggregatedRow} {x : MetricRow} (h : row.bucket = x.minute) :
    row.hour = x.hour := by
  rw [hour, h]
  exact hourBucket_minuteBucket x.timestamp

/-- The samples of the minute rows of an hour are the samples of that hour that move. -/
theorem Sound.samples_perm (h : Sound l) (now b : Int) :
    ((minutesOf l now b).flatMap fun row => group MetricRow.minute l.inMinute row.bucket).Perm
      (group MetricRow.hour (moved l now) b) := by
  have hnodup : ((minutesOf l now b).map bucket).Nodup :=
    h.nodup_minute.sublist ((filter_sublist.trans filter_sublist).map _)
  have hperm := flatMap_group_perm MetricRow.minute l.inMinute hnodup
  rw [flatMap_map] at hperm
  refine hperm.trans (List.Perm.of_eq ?_)
  rw [group, moved, filter_filter]
  refine filter_congr fun x hx => ?_
  rw [← Bool.decide_and, decide_eq_decide, mem_map]
  constructor
  · rintro ⟨row, hrow, hbucket⟩
    obtain ⟨hold, hhour⟩ := mem_group.mp hrow
    have hlt := of_decide_eq_true (mem_filter.mp hold).2
    exact ⟨(hour_of_bucket hbucket).symm.trans hhour, hbucket ▸ hlt⟩
  · rintro ⟨hhour, hlt⟩
    have hmoved : x ∈ moved l now := mem_filter.mpr ⟨hx, by simpa using hlt⟩
    obtain ⟨row, hrow, hbucket⟩ := h.moved_covers hmoved
    exact ⟨row, mem_group.mpr ⟨hrow, (hour_of_bucket hbucket).trans hhour⟩, hbucket⟩

theorem mem_minutesOf {b : Int} {row : AggregatedRow} (hrow : row ∈ minutesOf l now b) :
    row ∈ l.db.minute :=
  (mem_filter.mp (mem_group.mp hrow).1).1

/-- The new row of an hour agrees with its samples exactly when its averages are those that
weigh the minutes. -/
theorem Sound.agrees_ofMinutes_iff (h : Sound l) {b : Int} (hne : minutesOf l now b ≠ []) :
    (ofMinutes b (minutesOf l now b)).Agrees (group MetricRow.hour (moved l now) b) ↔
      ∀ q : Gauge, mean q.average (minutesOf l now b) =
        weightedMean sampleCount q.average (minutesOf l now b) := by
  have hperm := h.samples_perm now b
  have hparts : ∀ row ∈ minutesOf l now b, group MetricRow.minute l.inMinute row.bucket ≠ [] :=
    fun _ hrow => (h.minute_row (mem_minutesOf hrow)).2
  have hsome : (minutesOf l now b).flatMap
      (fun row => group MetricRow.minute l.inMinute row.bucket) ≠ [] := by
    obtain ⟨row, hrow⟩ := exists_mem_of_ne_nil _ hne
    obtain ⟨x, hx⟩ := exists_mem_of_ne_nil _ (hparts row hrow)
    exact ne_nil_of_mem (mem_flatMap.mpr ⟨row, hrow, hx⟩)
  have hcount : ∀ row ∈ minutesOf l now b,
      row.sampleCount = (group MetricRow.minute l.inMinute row.bucket).length :=
    fun row hrow => congrArg sampleCount (h.minute_row (mem_minutesOf hrow)).1
  have hmean : ∀ q : Gauge, ∀ row ∈ minutesOf l now b,
      q.average row = mean q.sample (group MetricRow.minute l.inMinute row.bucket) :=
    fun q row hrow => (congrArg q.average (h.minute_row (mem_minutesOf hrow)).1).trans
      (q.average_ofSamples _ _)
  have hweighted : ∀ q : Gauge, mean q.sample (group MetricRow.hour (moved l now) b) =
      weightedMean sampleCount q.average (minutesOf l now b) := by
    intro q
    rw [← mean_perm hperm, mean_flatMap hparts, weightedMean, weightedMean]
    congr 2
    · exact map_congr_left fun row hrow => by rw [hcount row hrow, hmean q row hrow]
    · exact map_congr_left fun row hrow => by rw [hcount row hrow]
  constructor
  · intro hagrees q
    rw [← hweighted q, ← hagrees.average q, q.average_ofMinutes]
  · intro heven
    refine ⟨?_, fun q => ?_, fun q column hcolumn => ?_⟩
    · rw [← hperm.length_eq, length_flatMap]
      exact congrArg sum (map_congr_left hcount)
    · rw [q.average_ofMinutes, heven q, hweighted q]
    · rw [Gauge.maximum_ofMinutes hcolumn, ← peak_perm hsome hperm, peak_flatMap hne hparts]
      unfold peak
      congr 2
      refine map_congr_left fun row hrow => ?_
      exact (congrArg column (h.minute_row (mem_minutesOf hrow)).1).trans
        (Gauge.maximum_ofSamples hcolumn _ _)

theorem Sound.toHourly (h : Sound l) (hfresh : FreshHours l.db now) :
    Sound (l.step (.toHourly now)) where
  mem_minute row := by
    have hrest : row ∈ rollup MetricRow.minute ofSamples
          (l.inMinute.filter fun x => !decide (x.minute < now - 86400)) ↔
        row ∈ rollup MetricRow.minute ofSamples l.inMinute ∧
          (!decide (row.bucket < now - 86400)) = true :=
      mem_rollup_filter bucket_ofSamples fun b => !decide (b < now - 86400)
    refine Iff.trans ?_ hrest.symm
    rw [← h.mem_minute]
    exact mem_filter
  nodup_minute := h.nodup_minute.sublist (filter_sublist.map _)
  hourly_covers x hx := by
    rw [hourly_toHourly hfresh]
    rcases mem_append.mp hx with hin | hmoved
    · obtain ⟨row, hrow, hbucket⟩ := h.hourly_covers x hin
      exact ⟨row, mem_append_left _ hrow, hbucket⟩
    · obtain ⟨row, hrow, hbucket⟩ := h.moved_covers hmoved
      refine ⟨_, mem_append_right _ (mem_rollup.mpr ⟨row, hrow, rfl⟩), ?_⟩
      exact hour_of_bucket hbucket
  hourly_counts row hrow := by
    rw [hourly_toHourly hfresh] at hrow
    rcases mem_append.mp hrow with hold | hnew
    · exact h.hourly_counts row hold
    · obtain ⟨x, hx, rfl⟩ := mem_rollup.mp hnew
      have hpos := h.minute_counts (mem_filter.mp hx).1
      have hmem : x ∈ group hour (l.db.oldMinutes now) x.hour :=
        mem_group.mpr ⟨hx, rfl⟩
      exact Nat.lt_of_lt_of_le hpos
        (le_sum_of_mem (mem_map_of_mem (f := sampleCount) hmem))

theorem group_inHourly (l : Ledger) (now b : Int) :
    group MetricRow.hour (l.step (.toHourly now)).inHourly b =
      group MetricRow.hour l.inHourly b ++ group MetricRow.hour (moved l now) b :=
  filter_append ..

/-- The hours of old rows get no sample. -/
theorem group_inHourly_old (h : Sound l) (hfresh : FreshHours l.db now) {row : AggregatedRow}
    (hrow : row ∈ l.db.hourly) : group MetricRow.hour (l.step (.toHourly now)).inHourly row.bucket =
      group MetricRow.hour l.inHourly row.bucket := by
  rw [group_inHourly, append_right_eq_self, group, filter_eq_nil_iff]
  intro x hx hhour
  obtain ⟨old, hold, hbucket⟩ := h.moved_covers hx
  exact hfresh old hold row hrow
    ((of_decide_eq_true hhour).symm.trans (hour_of_bucket hbucket).symm)

/-- The hours of new rows had no sample. -/
theorem group_inHourly_new (h : Sound l) (hfresh : FreshHours l.db now) {x : AggregatedRow}
    (hx : x ∈ l.db.oldMinutes now) : group MetricRow.hour (l.step (.toHourly now)).inHourly x.hour =
      group MetricRow.hour (moved l now) x.hour := by
  rw [group_inHourly, append_left_eq_self, group, filter_eq_nil_iff]
  intro y hy hhour
  obtain ⟨row, hrow, hbucket⟩ := h.hourly_covers y hy
  exact hfresh x hx row hrow (hbucket.trans (of_decide_eq_true hhour))

theorem agrees_toHourly_iff (h : Sound l) (hbefore : Conserved l) (hfresh : FreshHours l.db now) :
    (∀ row ∈ (l.step (.toHourly now)).db.hourly,
        row.Agrees (group MetricRow.hour (l.step (.toHourly now)).inHourly row.bucket)) ↔
      Balanced l.db now := by
  have hnew : ∀ x ∈ l.db.oldMinutes now,
      ((ofMinutes x.hour (minutesOf l now x.hour)).Agrees
        (group MetricRow.hour (l.step (.toHourly now)).inHourly x.hour) ↔
      ∀ q : Gauge, mean q.average (minutesOf l now x.hour) =
        weightedMean sampleCount q.average (minutesOf l now x.hour)) := by
    intro x hx
    rw [group_inHourly_new h hfresh hx]
    exact h.agrees_ofMinutes_iff (ne_nil_of_mem (mem_group.mpr ⟨hx, rfl⟩))
  rw [hourly_toHourly hfresh]
  constructor
  · intro hall x hx
    have hrolled : ofMinutes x.hour (minutesOf l now x.hour) ∈
        rollup hour ofMinutes (l.db.oldMinutes now) :=
      mem_rollup.mpr ⟨x, hx, rfl⟩
    exact (hnew x hx).mp (hall _ (mem_append_right _ hrolled))
  · intro heven row hrow
    rcases mem_append.mp hrow with hold | hrolled
    · rw [group_inHourly_old h hfresh hold]
      exact hbefore.agrees row hold
    · obtain ⟨x, hx, rfl⟩ := mem_rollup.mp hrolled
      exact (hnew x hx).mpr (heven x hx)

theorem conserved_toHourly_iff (h : Sound l) (hbefore : Conserved l) :
    Conserved (l.step (.toHourly now)) ↔ FreshHours l.db now ∧ Balanced l.db now := by
  have htotal : (l.step (.toHourly now)).db.total +
      ((lostHours l.db now).map sampleCount).sum = l.db.total :=
    total_compactToHourly l.db now
  have hzero := sum_sampleCount_eq_zero (lostHours l.db now) fun row hrow =>
    h.hourly_counts row (mem_filter.mp hrow).1
  rw [lostHours_eq_nil] at hzero
  have hcounted := hbefore.counted
  constructor
  · intro hafter
    have hkept : (l.step (.toHourly now)).db.total = l.inserted := hafter.counted
    have hfresh : FreshHours l.db now := hzero.mp (by omega)
    exact ⟨hfresh, (agrees_toHourly_iff h hbefore hfresh).mp hafter.agrees⟩
  · rintro ⟨hfresh, heven⟩
    refine ⟨?_, (agrees_toHourly_iff h hbefore hfresh).mpr heven⟩
    have hnone := hzero.mpr hfresh
    show (l.step (.toHourly now)).db.total = l.inserted
    omega

end ToHourly

/-! ## Every sequence of steps -/

variable {l : Ledger}

theorem Sound.insert (h : Sound l) (now : Int) (m : MetricRow) : Sound (l.step (.insert now m)) :=
  ⟨h.mem_minute, h.nodup_minute, h.hourly_covers, h.hourly_counts⟩

theorem Conserved.insert (h : Conserved l) (now : Int) (m : MetricRow) :
    Conserved (l.step (.insert now m)) := by
  refine ⟨?_, h.agrees⟩
  have hcounted := h.counted
  simp only [Ledger.step, MetricsDb.insertMetric, MetricsDb.total, length_append,
    length_singleton] at hcounted ⊢
  omega

theorem Sound.step (h : Sound l) {s : MetricsStep} (hmeets : Meets l.db s) : Sound (l.step s) := by
  cases s with
  | insert now m => exact h.insert now m
  | toMinute now => exact h.toMinute hmeets
  | toHourly now => exact h.toHourly hmeets.1

theorem conserved_step_iff (h : Sound l) (hbefore : Conserved l) (s : MetricsStep) :
    Conserved (l.step s) ↔ Meets l.db s := by
  cases s with
  | insert now m => exact iff_of_true (hbefore.insert now m) trivial
  | toMinute now => exact conserved_toMinute_iff h hbefore
  | toHourly now => exact conserved_toHourly_iff h hbefore

/-- Compaction counts every sample once and keeps the statistics of the hours, in any state
a sequence of steps leads through, exactly when no compaction meets a bucket that has a row
already and no hour has minutes whose sample counts would shift its averages. -/
theorem metrics_conserved_iff (steps : List MetricsStep) :
    (∀ earlier later, steps = earlier ++ later → Conserved (Ledger.start.run earlier)) ↔
      AtEach (fun earlier s => Meets (Ledger.start.run earlier).db s) steps := by
  have hstart : Conserved Ledger.start := by
    refine ⟨rfl, ?_⟩
    intro row hrow
    cases hrow
  -- the tables keep their meaning, and with it a step keeps the account exactly if it may
  exact foldl_iff_atEach ⟨Sound.start, hstart⟩ (fun _ _ hsound hmeets => hsound.step hmeets)
    fun _ s hsound hconserved => conserved_step_iff hsound hconserved s

instance (db : MetricsDb) (now : Int) : Decidable (FreshMinutes db now) :=
  inferInstanceAs (Decidable (∀ x ∈ db.oldSamples now, ∀ row ∈ db.minute, row.bucket ≠ x.minute))

instance (db : MetricsDb) (now : Int) : Decidable (FreshHours db now) :=
  inferInstanceAs (Decidable (∀ x ∈ db.oldMinutes now, ∀ row ∈ db.hourly, row.bucket ≠ x.hour))

instance (db : MetricsDb) (now : Int) : Decidable (Balanced db now) :=
  inferInstanceAs (Decidable (∀ x ∈ db.oldMinutes now, ∀ q : Gauge,
    mean q.average (group hour (db.oldMinutes now) x.hour) =
      weightedMean sampleCount q.average
        (group hour (db.oldMinutes now) x.hour)))

instance (db : MetricsDb) : (s : MetricsStep) → Decidable (Meets db s)
  | .insert _ _ => .isTrue trivial
  | .toMinute now => inferInstanceAs (Decidable (FreshMinutes db now))
  | .toHourly now => inferInstanceAs (Decidable (FreshHours db now ∧ Balanced db now))

/-- A sample with some processor load at a time. -/
def sampleAt (t : Int) (cpu : ℚ) : MetricsStep := .insert t ⟨0, cpu, 0, 0, 0, 0, 0, 0⟩

/-- Two minutes of two samples each, compacted as a whole to minutes and to an hour. -/
def wholeBuckets : List MetricsStep :=
  [sampleAt 0 10, sampleAt 30 20, sampleAt 60 40, sampleAt 90 60, .toMinute 3720, .toHourly 90000]

theorem metrics_conserved_wholeBuckets :
    ∀ earlier later, wholeBuckets = earlier ++ later → Conserved (Ledger.start.run earlier) := by
  have hmeets : AtEach (fun earlier s => Meets (Ledger.start.run earlier).db s) wholeBuckets := by
    decide +kernel
  exact (metrics_conserved_iff wholeBuckets).mpr hmeets

/-- A cutoff inside the minute of both samples. -/
def splitMinute : List MetricsStep :=
  [sampleAt 0 10, sampleAt 30 20, .toMinute 3620, .toMinute 3660]

/-- Two samples in one minute of an hour and one in the next. -/
def unevenMinutes : List MetricsStep :=
  [sampleAt 0 0, sampleAt 30 0, sampleAt 60 30, .toMinute 3720, .toHourly 90000]

/-- A sample of the split minute is lost, and the uneven hour has 15 for the average of
0, 0 and 30. -/
theorem compaction_loses_sample_and_average :
    ¬ Conserved (Ledger.start.run splitMinute) ∧ ¬ Conserved (Ledger.start.run unevenMinutes) := by
  constructor
  · intro h
    have hcounted := h.counted
    revert hcounted
    decide +kernel
  · intro h
    have hall : ∀ row ∈ (Ledger.start.run unevenMinutes).db.hourly,
        Gauge.cpu.average row = mean Gauge.cpu.sample
          (group MetricRow.hour (Ledger.start.run unevenMinutes).inHourly row.bucket) :=
      fun row hrow => (h.agrees row hrow).average .cpu
    revert hall
    decide +kernel

end HeyServer.Metrics
