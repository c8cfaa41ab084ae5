import HeyServer.Backup.Jobs

/-!
# The ids of jobs

An id is the type of the job, the local time in whole seconds and a suffix. The suffix is meant to
be the fraction of the second, but its layout has no decimal point, so it is the same nine zeros
every time. Jobs of one type that are started while the clocks show the same second share an id,
and the later record takes the place of the earlier one.
-/

namespace HeyServer.Backup
open Lib List Layout

/-- A call of `newJob` or `StartJob`. -/
inductive Start
  | newJob (jobType source : Bytes) (now : Nat)
  | startJob (jobType source message : Bytes) (now later : Nat)

namespace Start

def jobType : Start → Bytes
  | .newJob jobType .. => jobType
  | .startJob jobType .. => jobType

/-- The instant of the call. -/
def now : Start → Nat
  | .newJob _ _ now => now
  | .startJob _ _ _ now _ => now

def call : Start → JobCall
  | .newJob jobType source now => .newJob jobType source now
  | .startJob jobType source message now later => .startJob jobType source message now later

end Start

/-- The ids of the jobs tracked at a moment. -/
def JobTable.ids (t : JobTable) : List Bytes := t.jobs.map Prod.fst

/-! ## The text of an id -/

variable (zone : Zone)

theorem newJobId_eq (jobType : Bytes) (now : Nat) : newJobId zone jobType now =
      jobType ++ 0x2D :: (format compact (zone.moment now) ++ ascii "-000000000") := by
  rw [newJobId, randomSuffix, format_nine_zeros]
  simp only [append_assoc]
  rfl

/-- The digits after the last separator of a text. -/
theorem takeWhile_reverse_digits {digits : Bytes} (h : digits.all Json.isDigit = true) (s : Bytes) :
    (s ++ 0x2D :: digits).reverse.takeWhile Json.isDigit = digits.reverse := by
  have hdigits : ∀ b ∈ digits.reverse, Json.isDigit b = true :=
    fun b hb => all_eq_true.mp h b (mem_reverse.mp hb)
  rw [reverse_append, reverse_cons, append_assoc, takeWhile_append_of_pos hdigits]
  simp [Json.isDigit]

theorem append_digits_inj {s s' digits digits' : Bytes} (h : digits.all Json.isDigit = true)
    (h' : digits'.all Json.isDigit = true) (heq : s ++ 0x2D :: digits = s' ++ 0x2D :: digits') :
    s = s' ∧ digits = digits' := by
  have hdigits : digits = digits' := by
    apply reverse_injective
    rw [← takeWhile_reverse_digits h s, heq, takeWhile_reverse_digits h' s']
  subst hdigits
  exact ⟨append_cancel_right heq, rfl⟩

theorem moment_wall (now : Nat) :
    (zone.moment now).wall = WallClock.ofSeconds (zone (now / secondNanos)) := by
  rw [Zone.moment]

/-- Two ids are the same when the types are and the clocks show the same second. -/
theorem newJobId_eq_iff (jobType jobType' : Bytes) (now now' : Nat) :
    newJobId zone jobType now = newJobId zone jobType' now' ↔
      jobType = jobType' ∧ zone (now / secondNanos) = zone (now' / secondNanos) := by
  constructor
  · intro h
    rw [newJobId_eq, newJobId_eq] at h
    have htext : jobType ++ 0x2D :: format compact (zone.moment now) =
        jobType' ++ 0x2D :: format compact (zone.moment now') := by
      apply (append_left_inj (ascii "-000000000")).mp
      rw [append_assoc, append_assoc, cons_append, cons_append]
      exact h
    obtain ⟨htype, hclock⟩ := append_digits_inj (format_compact_digits _)
      (format_compact_digits _) htext
    have hshort : ∀ now, (zone.moment now).wall.Short := by
      intro now
      exact WallClock.short_ofSeconds _
    have hwall := format_compact_inj (hshort now) (hshort now') hclock
    rw [moment_wall, moment_wall] at hwall
    exact ⟨htype, WallClock.ofSeconds_injective hwall⟩
  · rintro ⟨rfl, hclock⟩
    have hwall : (zone.moment now).wall = (zone.moment now').wall := by
      rw [moment_wall, moment_wall, hclock]
    rw [newJobId_eq, newJobId_eq, format_compact, format_compact, hwall]

/-! ## The table -/

theorem JobTable.mem_ids_newJob {zone : Zone} {t : JobTable} {jobType source id : Bytes}
    {now : Nat} :
    id ∈ (t.newJob zone jobType source now).ids ↔ id = newJobId zone jobType now ∨ id ∈ t.ids := by
  simp only [newJob, insert, ids, map_cons, mem_cons, mem_map, mem_filter, decide_eq_true_eq]
  constructor
  · rintro (rfl | ⟨entry, ⟨hmem, -⟩, rfl⟩)
    · exact .inl rfl
    · exact .inr ⟨entry, hmem, rfl⟩
  · rintro (rfl | ⟨entry, hmem, rfl⟩)
    · exact .inl rfl
    · by_cases hid : entry.1 = newJobId zone jobType now
      · exact .inl hid
      · exact .inr ⟨entry, ⟨hmem, hid⟩, rfl⟩

namespace Start

/-- The state and the result of a call that runs alone. -/
def run (zone : Zone) (c : Start) (t : JobTable) : JobTable × JobResult :=
  ((jobSystem zone).program c.call).run (jobSystem zone).sem t

theorem run_result (zone : Zone) (c : Start) (t : JobTable) :
    (c.run zone t).2 = .id (newJobId zone c.jobType c.now) := by
  cases c with
  | newJob jobType source now => rfl
  | startJob jobType source message now later =>
    show ((JobCall.startProgram jobType source message now later).run (jobSemantics zone) t).2 = _
    rw [JobCall.startProgram, Prog.run_call]
    split_ifs <;> rfl

theorem mem_ids_run {zone : Zone} {c : Start} {t : JobTable} {id : Bytes} :
    id ∈ (c.run zone t).1.ids ↔ id = newJobId zone c.jobType c.now ∨ id ∈ t.ids := by
  cases c with
  | newJob jobType source now => exact JobTable.mem_ids_newJob
  | startJob jobType source message now later =>
    show id ∈ ((JobCall.startProgram jobType source message now later).run
      (jobSemantics zone) t).1.ids ↔ _
    rw [JobCall.startProgram, Prog.run_call]
    split_ifs
    · have hids : ((t.newJob zone jobType source now).modify (newJobId zone jobType now)
          (Job.updateDetail ⟨.preparing, 2, message, 0, 0, []⟩ later)).ids =
            (t.newJob zone jobType source now).ids := by
        rw [JobTable.ids, JobTable.modify]
        split <;> rfl
      exact (Iff.of_eq (congrArg (id ∈ ·) hids)).trans JobTable.mem_ids_newJob
    · exact JobTable.mem_ids_newJob

end Start

/-- The table after a sequence of calls. -/
def afterStarts (zone : Zone) (starts : List Start) : JobTable :=
  Run.serialState (jobSystem zone) {} (starts.map Start.call)

theorem afterStarts_concat (zone : Zone) (starts : List Start) (c : Start) :
    afterStarts zone (starts ++ [c]) = (c.run zone (afterStarts zone starts)).1 := by
  rw [afterStarts, map_append, map_singleton, Run.serialState_append]
  rfl

theorem mem_ids_afterStarts {zone : Zone} {starts : List Start} {id : Bytes} :
    id ∈ (afterStarts zone starts).ids ↔ ∃ c ∈ starts, newJobId zone c.jobType c.now = id := by
  induction starts using reverseRecOn with
  | nil => simp [afterStarts, Run.serialState, JobTable.ids]
  | append_singleton starts c ih =>
    rw [afterStarts_concat, Start.mem_ids_run, ih]
    constructor
    · rintro (rfl | ⟨c', hc', rfl⟩)
      · exact ⟨c, by simp, rfl⟩
      · exact ⟨c', mem_append_left _ hc', rfl⟩
    · rintro ⟨c', hc', rfl⟩
      rcases mem_append.mp hc' with hc' | hc'
      · exact .inr ⟨c', hc', rfl⟩
      · exact .inl (by rw [mem_singleton.mp hc'])

/-! ## The theorem -/

/-- A relation between each element and those before it is one between all pairs. -/
theorem atEach_iff_pairwise {α : Type} {r : α → α → Prop} {xs : List α} :
    AtEach (fun earlier x => ∀ y ∈ earlier, r y x) xs ↔ xs.Pairwise r := by
  induction xs using reverseRecOn with
  | nil => simp
  | append_singleton xs x ih =>
    rw [atEach_concat, ih, pairwise_append]
    simp

/-- Every call returns an id that no tracked job has, exactly if no two calls for one type are made
while the clocks show the same second. -/
theorem job_ids_fresh_iff (zone : Zone) (starts : List Start) :
    AtEach (fun earlier c => ∃ id, (c.run zone (afterStarts zone earlier)).2 = .id id ∧
        id ∉ (afterStarts zone earlier).ids) starts ↔
      starts.Pairwise fun c c' => c.jobType = c'.jobType →
        zone (c.now / secondNanos) ≠ zone (c'.now / secondNanos) := by
  have hfresh : ∀ (earlier : List Start) (c : Start),
    (∃ id, (c.run zone (afterStarts zone earlier)).2 = .id id ∧
      id ∉ (afterStarts zone earlier).ids) ↔
        ∀ c' ∈ earlier, c'.jobType = c.jobType →
          zone (c'.now / secondNanos) ≠ zone (c.now / secondNanos) := by
    intro earlier c
    rw [Start.run_result]
    constructor
    · rintro ⟨id, hid, hnot⟩ c' hc' htype hclock
      obtain rfl := JobResult.id.inj hid
      exact hnot (mem_ids_afterStarts.mpr
        ⟨c', hc', (newJobId_eq_iff zone _ _ _ _).mpr ⟨htype, hclock⟩⟩)
    · intro hother
      refine ⟨_, rfl, ?_⟩
      intro hmem
      obtain ⟨c', hc', heq⟩ := mem_ids_afterStarts.mp hmem
      obtain ⟨htype, hclock⟩ := (newJobId_eq_iff zone _ _ _ _).mp heq
      exact hother c' hc' htype hclock
  rw [← atEach_iff_pairwise]
  constructor
  · intro h earlier c later hsplit
    exact (hfresh earlier c).mp (h earlier c later hsplit)
  · intro h earlier c later hsplit
    exact (hfresh earlier c).mpr (h earlier c later hsplit)

/-- Two backups started a nanosecond apart: the second takes the id of the first, and the first is
no longer tracked. -/
theorem ids_collide_within_a_second :
    ((Start.newJob (ascii "files") (ascii "manual") 1).run utc
        (afterStarts utc [.newJob (ascii "files") (ascii "manual") 0])).2 =
        .id (newJobId utc (ascii "files") 0) ∧
      newJobId utc (ascii "files") 0 ∈
        (afterStarts utc [.newJob (ascii "files") (ascii "manual") 0]).ids ∧
      (afterStarts utc [.newJob (ascii "files") (ascii "manual") 0,
        .newJob (ascii "files") (ascii "manual") 1]).jobs.map Prod.snd = [1] := by
  have hreplaced : (afterStarts utc [.newJob (ascii "files") (ascii "manual") 0,
      .newJob (ascii "files") (ascii "manual") 1]).jobs.map Prod.snd = [1] := by
    decide +kernel
  refine ⟨?_, ?_, hreplaced⟩
  · rw [Start.run_result]
    exact congrArg JobResult.id ((newJobId_eq_iff utc _ _ _ _).mpr ⟨rfl, by decide +kernel⟩)
  · exact mem_ids_afterStarts.mpr ⟨_, mem_singleton_self _, rfl⟩

end HeyServer.Backup
