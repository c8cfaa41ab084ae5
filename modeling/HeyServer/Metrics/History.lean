import HeyServer.Metrics.Compaction

/-!
# Metric history

`QueryHistory` reads one of the three tables, chosen by the length of the window. A sample is in the
table its age and the last compactions have brought it to.

## Implementation notes

Clock and duration are nanoseconds. The rows are not sorted.
-/

namespace HeyServer.Metrics
open Lib Rollup List AggregatedRow Ledger MetricsDb MetricsStep

/-- `time.Now().UTC().Add(-duration).Format(time.RFC3339)` -/
def historyCutoff (now duration : Int) : Int := (now - duration) / 1000000000

/-- `QueryHistory`: the rows of the span, raw or of the table its length selects. -/
def MetricsDb.queryHistory (db : MetricsDb) (now duration : Int) :
    List MetricRow × List AggregatedRow :=
  if duration ≤ 3600000000000 then
    (db.raw.filter fun x => historyCutoff now duration ≤ x.timestamp, [])
  else
    ([], (if 86400000000000 < duration then db.hourly else db.minute).filter fun row =>
      historyCutoff now duration ≤ row.bucket)

/-- The samples that the returned rows count. -/
def accounted (rows : List MetricRow × List AggregatedRow) : Nat :=
  rows.1.length + (rows.2.map AggregatedRow.sampleCount).sum

def MetricsStep.sample? : MetricsStep → Option MetricRow
  | .insert now m => some { m with timestamp := now }
  | _ => none

/-- The time of a sample's row in the table that is read, the samples of this table, and the others.
-/
def Ledger.selected (l : Ledger) (duration : Int) :
    (MetricRow → Int) × List MetricRow × List MetricRow :=
  if duration ≤ 3600000000000 then (MetricRow.timestamp, l.db.raw, l.inMinute ++ l.inHourly)
  else if 86400000000000 < duration then (MetricRow.hour, l.inHourly, l.db.raw ++ l.inMinute)
  else (MetricRow.minute, l.inMinute, l.db.raw ++ l.inHourly)

/-- The samples of the window are in the table that is read, in rows that begin in the window. -/
def Ledger.Reached (l : Ledger) (now duration : Int) : Prop :=
  (∀ x ∈ (l.selected duration).2.2, x.timestamp < historyCutoff now duration) ∧
    ∀ x ∈ (l.selected duration).2.1, historyCutoff now duration ≤ x.timestamp →
      historyCutoff now duration ≤ (l.selected duration).1 x

/-- No compaction meets a bucket that has a row already. -/
def KeepsRows (db : MetricsDb) : MetricsStep → Prop
  | .insert _ _ => True
  | .toMinute now => FreshMinutes db now
  | .toHourly now => FreshHours db now

/-! ## What the rows count -/

/-- Whatever buckets are chosen, their rows count the samples that fall into them. -/
def Tallies (key : MetricRow → Int) (rows : List AggregatedRow) (samples : List MetricRow) : Prop :=
  ∀ p : Int → Bool, ((rows.filter fun row => p row.bucket).map AggregatedRow.sampleCount).sum =
    samples.countP fun x => p (key x)

structure Tallied (l : Ledger) (samples : List MetricRow) : Prop where
  minute : Tallies MetricRow.minute l.db.minute l.inMinute
  hourly : Tallies MetricRow.hour l.db.hourly l.inHourly
  samples : ∀ p : MetricRow → Bool,
    samples.countP p = l.db.raw.countP p + l.inMinute.countP p + l.inHourly.countP p

section Steps
variable {l : Ledger} {samples : List MetricRow} {now : Int}

theorem countP_split (p q : MetricRow → Bool) (xs : List MetricRow) :
    (xs.filter q).countP p + (xs.filter fun x => !q x).countP p = xs.countP p := by
  rw [← countP_append]
  exact (filter_append_perm q xs).countP_eq p

theorem Tallied.toMinute (h : Tallied l samples) (hfresh : FreshMinutes l.db now) :
    Tallied (l.step (.toMinute now)) samples where
  minute p := by
    have hnew : (((rollup MetricRow.minute ofSamples (l.db.oldSamples now)).filter
        fun row => p row.bucket).map sampleCount).sum =
        (l.db.oldSamples now).countP fun x => p x.minute := by
      rw [sum_rollup_filter (v := fun _ => 1) bucket_ofSamples
        (by simp [ofSamples]), countP_eq_length_filter]
      simp
    rw [minute_toMinute hfresh, filter_append, map_append, sum_append, h.minute, hnew]
    exact countP_append.symm
  hourly := h.hourly
  samples p := by
    have hraw := countP_split p (fun x => x.timestamp < now - 3600) l.db.raw
    have hall := h.samples p
    simp only [step, compactToMinute, oldSamples, countP_append]
    omega

theorem Tallied.toHourly (h : Tallied l samples) (hfresh : FreshHours l.db now) :
    Tallied (l.step (.toHourly now)) samples where
  minute p := by
    have hkept := h.minute fun b => !decide (b < now - 86400) && p b
    simp only [step, compactToHourly, filter_filter, countP_filter]
    simpa only [Bool.and_comm] using hkept
  hourly p := by
    -- the minute rows that move count the samples that move
    have hmoved := h.minute fun b => decide (b < now - 86400) && p (hourBucket b)
    have hnew : (((rollup hour ofMinutes (l.db.oldMinutes now)).filter
        fun row => p row.bucket).map sampleCount).sum =
        (moved l now).countP fun x => p x.hour := by
      rw [sum_rollup_filter bucket_ofMinutes (fun _ _ => rfl), oldMinutes,
        filter_filter, moved, countP_filter]
      simpa only [hour, MetricRow.hour, MetricRow.minute, hourBucket_minuteBucket,
        Bool.and_comm] using hmoved
    rw [hourly_toHourly hfresh, filter_append, map_append, sum_append, h.hourly, hnew]
    exact countP_append.symm
  samples p := by
    have hminute := countP_split p (fun x => x.minute < now - 86400) l.inMinute
    have hall := h.samples p
    simp only [step, compactToHourly, countP_append]
    omega

end Steps

theorem tallied_run {steps : List MetricsStep}
    (hkeeps : AtEach (fun earlier s => KeepsRows (start.run earlier).db s) steps) :
    Tallied (start.run steps) (steps.filterMap sample?) := by
  induction steps using reverseRecOn with
  | nil => exact ⟨fun _ => rfl, fun _ => rfl, fun _ => rfl⟩
  | append_singleton steps s ih =>
    obtain ⟨hbefore, hs⟩ := atEach_concat.mp hkeeps
    have h := ih hbefore
    rw [run_concat, filterMap_append]
    cases s with
    | insert now m =>
      refine ⟨h.minute, h.hourly, fun p => ?_⟩
      have hall := h.samples p
      simp only [step, insertMetric, countP_append, sample?, filterMap_cons, filterMap_nil]
      omega
    | toMinute now => exact (append_nil _).symm ▸ h.toMinute hs
    | toHourly now => exact (append_nil _).symm ▸ h.toHourly hs

/-! ## The window -/

/-- Of the samples since `c`, all are counted by rows since `c` exactly when none is elsewhere and
none is in a row that begins earlier. -/
theorem countP_window_iff {key : MetricRow → Int} (hkey : ∀ x, key x ≤ x.timestamp) (c : Int)
    (xs ys : List MetricRow) :
    xs.countP (fun x => c ≤ key x) = xs.countP (c ≤ ·.timestamp) + ys.countP (c ≤ ·.timestamp) ↔
      (∀ y ∈ ys, y.timestamp < c) ∧ ∀ x ∈ xs, c ≤ x.timestamp → c ≤ key x := by
  have hsplit := countP_split (c ≤ ·.timestamp) (fun x => c ≤ key x) xs
  have hin : (xs.filter fun x => c ≤ key x).countP (c ≤ ·.timestamp) = xs.countP fun x =>
      c ≤ key x := by
    rw [countP_filter]
    refine countP_congr fun x _ => ?_
    have := hkey x
    simp only [Bool.and_eq_true, decide_eq_true_eq]
    omega
  have hnone : ys.countP (c ≤ ·.timestamp) = 0 ↔ ∀ y ∈ ys, y.timestamp < c := by
    simp [countP_eq_zero]
  have hlate : (xs.filter fun x => !decide (c ≤ key x)).countP (c ≤ ·.timestamp) = 0 ↔
      ∀ x ∈ xs, c ≤ x.timestamp → c ≤ key x := by
    rw [countP_filter, countP_eq_zero]
    simp
  rw [← hnone, ← hlate]
  omega

section Window
variable {l : Ledger} {samples : List MetricRow} (duration : Int)

theorem selected_le (x : MetricRow) : (l.selected duration).1 x ≤ x.timestamp := by
  unfold selected
  split_ifs
  · exact le_rfl
  · exact Int.sub_le_self _ (Int.emod_nonneg _ (by decide))
  · exact Int.sub_le_self _ (Int.emod_nonneg _ (by decide))

theorem Tallied.accounted_eq (h : Tallied l samples) (now : Int) :
    accounted (l.db.queryHistory now duration) =
      (l.selected duration).2.1.countP fun x =>
        historyCutoff now duration ≤ (l.selected duration).1 x := by
  unfold queryHistory selected accounted
  split_ifs
  · simp [countP_eq_length_filter]
  · simpa using h.hourly fun b => historyCutoff now duration ≤ b
  · simpa using h.minute fun b => historyCutoff now duration ≤ b

theorem Tallied.samples_eq (h : Tallied l samples) (p : MetricRow → Bool) :
    samples.countP p = (l.selected duration).2.1.countP p + (l.selected duration).2.2.countP p := by
  rw [h.samples]
  unfold selected
  split_ifs <;> dsimp only <;> rw [countP_append] <;> omega

end Window

/-- As long as no row is replaced, the history accounts for the samples of its window exactly when
they have reached the table it reads. -/
theorem history_accounts_iff {steps : List MetricsStep}
    (hkeeps : AtEach (fun earlier s => KeepsRows (start.run earlier).db s) steps)
    (now duration : Int) :
    accounted ((start.run steps).db.queryHistory now duration) =
        (steps.filterMap sample?).countP (historyCutoff now duration ≤ ·.timestamp) ↔
      (start.run steps).Reached now duration := by
  have h := tallied_run hkeeps
  rw [h.accounted_eq, h.samples_eq duration]
  exact countP_window_iff (selected_le duration) _ _ _

instance (db : MetricsDb) : (s : MetricsStep) → Decidable (KeepsRows db s)
  | .insert _ _ => .isTrue trivial
  | .toMinute now => inferInstanceAs (Decidable (FreshMinutes db now))
  | .toHourly now => inferInstanceAs (Decidable (FreshHours db now))

/-- Two samples of one minute, compacted after an hour. -/
def onlyOld : List MetricsStep := [sampleAt 0 10, sampleAt 30 20, .toMinute 3720]

theorem two_hours_onlyOld :
    accounted ((start.run onlyOld).db.queryHistory 3720000000000 7200000000000) =
      (onlyOld.filterMap sample?).countP (historyCutoff 3720000000000 7200000000000 ≤
        ·.timestamp) := by
  have hkeeps : AtEach (fun earlier s => KeepsRows (start.run earlier).db s) onlyOld := by
    decide +kernel
  refine (history_accounts_iff hkeeps 3720000000000 7200000000000).mpr ⟨?_, ?_⟩
  · decide +kernel
  · decide +kernel

/-- The last two hours come without the sample of the last minute, which is still in the raw table.
-/
theorem two_hours_miss_last_minute :
    accounted ((start.run [sampleAt 0 10, sampleAt 3700 20, .toMinute 3720]).db.queryHistory
        3720000000000 7200000000000) = 1 ∧
      ([sampleAt 0 10, sampleAt 3700 20, .toMinute 3720].filterMap sample?).countP
        (historyCutoff 3720000000000 7200000000000 ≤ ·.timestamp) = 2 := by
  decide +kernel

end HeyServer.Metrics
