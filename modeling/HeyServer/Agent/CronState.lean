import HeyServer.Agent.CronJobs

/-!
# The state of the cron jobs stays usable

What `saveJobs` writes, `loadJobs` reads back, as long as the text keeps the reader's limit of one
mebibyte. The writer has no such limit: 256 jobs with the longest command do not fit.
-/

namespace HeyServer.Agent.Cron
open Lib Text Utf8 List Json Json

/-! ## Reading back -/

/-- The texts that a request chooses freely are UTF-8. -/
def CronJob.plain (job : CronJob) : Bool :=
  valid job.schedule && valid job.command && valid job.description

section Saved
variable {env : Env} {job : CronJob} {jobs : List CronJob}

theorem validateAll_eq_ok :
    validateAll env jobs = .ok () ↔ ∀ job ∈ jobs, validateCronJob env job true = .ok () := by
  induction jobs with
  | nil => simp [validateAll]
  | cons job rest ih =>
    rw [validateAll, bind_eq_ok, forall_mem_cons, ← ih]
    exact ⟨fun ⟨_, hjob, hrest⟩ => ⟨hjob, hrest⟩, fun ⟨hjob, hrest⟩ => ⟨(), hjob, hrest⟩⟩

theorem toNat_of_hexValue {b : UInt8} (h : (hexValue b).isSome) : b.toNat < 0x80 := by
  unfold hexValue at h
  split_ifs at h
  all_goals first | omega | cases h

/-- The id and the user of an accepted job are ASCII. -/
theorem ascii_of_accepted (h : validateCronJob env job true = .ok ()) :
    valid job.id ∧ valid job.user := by
  rw [validateCronJob, ite_error_eq_ok] at h
  obtain ⟨hpassed, -⟩ := h
  simp only [Bool.true_and, Bool.not_true, Bool.false_and, Bool.or_eq_true, Bool.not_eq_true',
    not_or, Bool.not_eq_false] at hpassed
  obtain ⟨⟨⟨⟨⟨⟨⟨⟨⟨⟨hid, -⟩, huser⟩, -⟩, -⟩, -⟩, -⟩, -⟩, -⟩, -⟩, -⟩ := hpassed
  constructor
  · apply valid_of_ascii
    simp only [validAgentCronID, Bool.and_eq_true, decide_eq_true_eq, all_eq_true] at hid
    obtain ⟨⟨-, hstart⟩, hdigits⟩ := hid
    intro b hb
    rw [← take_append_drop 5 job.id, mem_append] at hb
    rcases hb with hb | hb
    · have hname : job.id.take 5 = ascii "cron-" := (prefix_iff_eq_take.mp hstart).symm
      have hplain : (ascii "cron-").all (fun b => b.toNat < 0x80) = true := by decide
      rw [hname] at hb
      exact of_decide_eq_true (all_eq_true.mp hplain b hb)
    · exact toNat_of_hexValue (hdigits b hb)
  · apply valid_of_ascii
    intro b hb
    cases huser' : job.user with
    | nil => simp [huser'] at hb
    | cons first rest =>
      simp only [huser', isSystemUser, Bool.and_eq_true, Bool.or_eq_true, decide_eq_true_eq,
        all_eq_true, UInt8.le_iff_toNat_le] at huser
      rw [huser', mem_cons] at hb
      rcases hb with rfl | hb
      · rcases huser.1.1 with h | rfl
        · exact Nat.lt_of_le_of_lt h.2 (by decide)
        · decide
      · rcases huser.2 b hb with ((h | h) | rfl) | rfl
        · exact Nat.lt_of_le_of_lt h.2 (by decide)
        · exact Nat.lt_of_le_of_lt h.2 (by decide)
        · decide
        · decide

theorem decodeJob_toJson (job : CronJob) : decodeJob job.toJson = some job := by
  rw [CronJob.toJson]
  split_ifs with h
  · cases job
    cases h
    rfl
  · rfl

theorem decodeItems_toJson (jobs : List CronJob) :
    decodeItems (jobs.map CronJob.toJson) = some jobs := by
  induction jobs with
  | nil => rfl
  | cons job rest ih => simp [decodeItems, decodeJob_toJson, ih]

theorem sanitized_toJson (hjob : validateCronJob env job true = .ok ())
    (hplain : job.plain = true) :
    job.toJson.sanitized = job.toJson := by
  obtain ⟨hid, huser⟩ := ascii_of_accepted hjob
  simp only [CronJob.plain, Bool.and_eq_true] at hplain
  have hkey : ∀ key ∈ [ascii "id", ascii "schedule", ascii "user", ascii "command",
      ascii "description", ascii "enabled"], sanitize key = key := by decide
  simp only [forall_mem_cons] at hkey
  rw [CronJob.toJson]
  split_ifs <;>
    simp only [sanitized, sanitizedMembers, cons_append, nil_append,
      append_nil, sanitize_of_valid, *]

theorem sanitizedItems_toJson (hjobs : ∀ job ∈ jobs, validateCronJob env job true = .ok ())
    (hplain : ∀ job ∈ jobs, job.plain = true) :
    sanitizedItems (jobs.map CronJob.toJson) = jobs.map CronJob.toJson := by
  induction jobs with
  | nil => rfl
  | cons job rest ih =>
    rw [forall_mem_cons] at hjobs hplain
    rw [map_cons, sanitizedItems, sanitized_toJson hjobs.1 hplain.1, ih hjobs.2 hplain.2]

theorem fits_toJson (jobs : List CronJob) (depth : Nat) : fits (depth + 2) (toJson jobs) := by
  rw [toJson, fits]
  induction jobs with
  | nil => rfl
  | cons job rest ih =>
    have hjob : fits (depth + 1) job.toJson := by
      rw [CronJob.toJson]
      split_ifs <;> rfl
    rw [map_cons, fitsItems, hjob, ih]
    rfl

/-- What was saved is read back, if it keeps the limit. -/
theorem loadJobs_stateText (hcount : jobs.length ≤ maxCronJobs)
    (hvalid : validateAll env jobs = .ok ())
    (hplain : ∀ job ∈ jobs, job.plain = true) (hsize : (stateText jobs).length ≤ maxCronStateBytes)
    (cron : Option Bytes) : loadJobs env ⟨some (stateText jobs), cron⟩ = .ok jobs := by
  have hread : readManagedFile (stateText jobs) = .ok (stateText jobs) :=
    if_neg (Nat.not_lt.mpr (Nat.le_trans hsize (by decide)))
  have hparse : unmarshal (stateText jobs) = some jobs := by
    rw [unmarshal, stateText, parse_encodeIndent _ (fits_toJson jobs 9998), toJson, sanitized,
      sanitizedItems_toJson (validateAll_eq_ok.mp hvalid) hplain]
    exact decodeItems_toJson jobs
  rw [loadJobs]
  simp only [hread, hparse, hvalid, bind, Except.bind]
  rw [if_neg (Nat.not_lt.mpr hsize), if_neg (Nat.not_lt.mpr hcount)]

end Saved

/-! ## One call -/

section Calls
variable {env : Env} {files : Files} {c : CronCall}

/-- A call changes nothing, or it comes to the replacement of both files. -/
theorem run_cases (env : Env) (files : Files) (c : CronCall) :
    (∃ e, c.run env files = (files, .error e)) ∨
      ∃ stored jobs, loadJobs env files = .ok stored ∧
        cronRevision env stored = c.expectedRevision ∧
        c.apply stored = .ok jobs ∧ jobs.length ≤ maxCronJobs ∧ validateAll env jobs = .ok () ∧
        c.run env files = replaceFiles env files jobs c.faults := by
  rw [CronCall.run]
  cases c.check env with
  | error e => exact .inl ⟨e, rfl⟩
  | ok =>
    rw [mutate]
    cases hchanged : changedJobs env files c.expectedRevision c.apply c.faults with
    | error e => exact .inl ⟨e, rfl⟩
    | ok jobs =>
      dsimp only
      rw [saveJobs]
      cases prepareSave files c.faults with
      | error e => exact .inl ⟨e, rfl⟩
      | ok =>
        rw [changedJobs, ite_error_eq_ok, ite_error_eq_ok, bind_eq_ok] at hchanged
        obtain ⟨-, -, stored, hstored, hchanged⟩ := hchanged
        rw [ite_error_eq_ok, bind_eq_ok] at hchanged
        obtain ⟨hrevision, jobs', happly, hchanged⟩ := hchanged
        rw [ite_error_eq_ok, bind_eq_ok] at hchanged
        obtain ⟨hcount, _, hvalid, hjobs⟩ := hchanged
        obtain rfl := Except.ok.inj hjobs
        exact .inr ⟨stored, jobs', hstored, not_not.mp hrevision, happly, Nat.le_of_not_lt hcount,
          hvalid, rfl⟩

/-- The job of a request. -/
def CronCall.job? : CronCall → Option CronJob
  | create job _ _ _ | update job _ _ => some job
  | delete .. => none

/-- The texts of the request are UTF-8, the new list is saved in at most a mebibyte, and the cron
file can be put back when the state file cannot be written. -/
structure Fits (env : Env) (files : Files) (c : CronCall) : Prop where
  texts : ∀ job ∈ c.job?, job.plain = true
  size : ∀ stored jobs, loadJobs env files = .ok stored → c.apply stored = .ok jobs →
    (stateText jobs).length ≤ maxCronStateBytes
  restored : c.faults.writeCron = false → c.faults.writeState = true → c.faults.restoreCron = false

/-- A successful call stores the new list, a call for another revision and a failed call nothing. -/
structure Usable (env : Env) (files : Files) (c : CronCall) : Prop where
  saved : (c.run env files).2 = .ok () → ∃ stored jobs, loadJobs env files = .ok stored ∧
    c.apply stored = .ok jobs ∧ loadJobs env (c.run env files).1 = .ok jobs ∧
    (c.run env files).1.cron = some (renderCronJobs jobs env.shell)
  outdated : ∀ stored, loadJobs env files = .ok stored →
    cronRevision env stored ≠ c.expectedRevision →
    (c.run env files).1 = files
  failed : ∀ e, (c.run env files).2 = .error e → (c.run env files).1 = files

/-- The state file can be read, and its texts are UTF-8. -/
def Readable (env : Env) (files : Files) : Prop :=
  ∃ stored, loadJobs env files = .ok stored ∧ ∀ job ∈ stored, job.plain = true

variable {stored jobs : List CronJob}

theorem plain_replaceJob {job : CronJob} (hjob : job.plain = true)
    (hstored : ∀ job ∈ stored, job.plain = true) (h : replaceJob job stored = .ok jobs) :
    ∀ job ∈ jobs, job.plain = true := by
  induction stored generalizing jobs with
  | nil => cases h
  | cons first rest ih =>
    rw [forall_mem_cons] at hstored
    rw [replaceJob] at h
    split_ifs at h
    · cases h
      exact forall_mem_cons.mpr ⟨hjob, hstored.2⟩
    · obtain ⟨rest', hrest, rfl⟩ := map_eq_ok.mp h
      exact forall_mem_cons.mpr ⟨hstored.1, ih hstored.2 hrest⟩

theorem plain_removeJob {id : Bytes}
    (hstored : ∀ job ∈ stored, job.plain = true) (h : removeJob id stored = .ok jobs) :
    ∀ job ∈ jobs, job.plain = true := by
  induction stored generalizing jobs with
  | nil => cases h
  | cons first rest ih =>
    rw [forall_mem_cons] at hstored
    rw [removeJob] at h
    split_ifs at h
    · cases h
      exact hstored.2
    · obtain ⟨rest', hrest, rfl⟩ := map_eq_ok.mp h
      exact forall_mem_cons.mpr ⟨hstored.1, ih hstored.2 hrest⟩

theorem plain_apply (htexts : ∀ job ∈ c.job?, job.plain = true)
    (hstored : ∀ job ∈ stored, job.plain = true) (h : c.apply stored = .ok jobs) :
    ∀ job ∈ jobs, job.plain = true := by
  cases c with
  | create job raw revision faults =>
    cases h
    exact forall_mem_append.mpr ⟨hstored, forall_mem_singleton.mpr (htexts job rfl)⟩
  | update job revision faults => exact plain_replaceJob (htexts job rfl) hstored h
  | delete id revision faults => exact plain_removeJob hstored h

theorem usable_step (hfiles : Readable env files) (hfits : Fits env files c) :
    Usable env files c ∧ Readable env (c.run env files).1 := by
  obtain ⟨stored, hload, hplain⟩ := hfiles
  have hunchanged : ∀ e, c.run env files = (files, .error e) →
      Usable env files c ∧ Readable env (c.run env files).1 := by
    intro e hrun
    rw [hrun]
    refine ⟨⟨fun hok => ?_, fun _ _ _ => ?_, fun _ _ => ?_⟩, stored, hload, hplain⟩
    · rw [hrun] at hok
      cases hok
    · rw [hrun]
    · rw [hrun]
  rcases run_cases env files c with ⟨e, hrun⟩ | ⟨stored', jobs, hload', hrevision, happly, hcount,
    hvalid, hrun⟩
  · exact hunchanged e hrun
  · obtain rfl := Except.ok.inj (hload'.symm.trans hload)
    by_cases hfails : c.faults.writeCron = true ∨ c.faults.writeState = true
    · refine hunchanged .file ?_
      rw [hrun, replaceFiles]
      rcases hfails with hcron | hstate
      · rw [if_pos hcron]
      · by_cases hcron : c.faults.writeCron = true
        · rw [if_pos hcron]
        · rw [if_neg hcron, if_pos hstate,
            hfits.restored (Bool.eq_false_iff.mpr hcron) hstate, if_neg Bool.false_ne_true]
    · obtain ⟨hcron, hstate⟩ := not_or.mp hfails
      have hnew : c.run env files =
          (⟨some (stateText jobs), some (renderCronJobs jobs env.shell)⟩, .ok ()) := by
        rw [hrun, replaceFiles, if_neg hcron, if_neg hstate]
      have hread := loadJobs_stateText hcount hvalid (plain_apply hfits.texts hplain happly)
        (hfits.size _ _ hload happly) (some (renderCronJobs jobs env.shell))
      refine ⟨⟨fun _ => ⟨stored', jobs, hload, happly, ?_, ?_⟩, fun other hother hne => ?_,
        fun e herror => ?_⟩, jobs, ?_, plain_apply hfits.texts hplain happly⟩
      · rw [hnew]
        exact hread
      · rw [hnew]
      · cases hload.symm.trans hother
        exact absurd hrevision hne
      · rw [hnew] at herror
        cases herror
      · rw [hnew]
        exact hread

end Calls

/-! ## Sequences of calls -/

/-- Each call has the property in the files it finds. -/
def Along (env : Env) (P : Files → CronCall → Prop) : Files → List CronCall → Prop
  | _, [] => True
  | files, c :: rest => P files c ∧ Along env P (c.run env files).1 rest

variable {files : Files}

theorem along_usable {env : Env} (hfiles : Readable env files) {calls : List CronCall}
    (hfits : Along env (Fits env) files calls) : Along env (Usable env) files calls := by
  induction calls generalizing files with
  | nil => trivial
  | cons c rest ih =>
    obtain ⟨husable, hnext⟩ := usable_step hfiles hfits.1
    exact ⟨husable, ih hnext hfits.2⟩

/-- Calls whose lists fit keep the cron state usable. -/
theorem cron_state_usable (env : Env) {calls : List CronCall}
    (hfits : Along env (Fits env) {} calls) :
    Along env (Usable env) {} calls :=
  along_usable ⟨[], rfl, fun _ h => absurd h not_mem_nil⟩ hfits

/-- A server on which every user exists. The digest tells no lists apart. -/
def laxEnv : Env := ⟨fun _ => true, fun _ => List.replicate 64 0x61, ascii "/bin/sh"⟩

/-- A nightly job is created and deleted again. -/
def createAndDelete : List CronCall :=
  [.create { schedule := ascii "0 3 * * *", user := ascii "root", command := ascii "true" }
      [0, 0, 0, 0, 0, 0] (List.replicate 64 0x61) {},
    .delete (ascii "cron-000000000000") (List.replicate 64 0x61) {}]

theorem created_and_deleted :
    Along laxEnv (fun files c => (c.run laxEnv files).2 = .ok ()) {} createAndDelete ∧
      Along laxEnv (Usable laxEnv) {} createAndDelete := by
  refine ⟨⟨by decide +kernel, by decide +kernel, trivial⟩,
    cron_state_usable laxEnv ⟨?_, ?_, trivial⟩⟩
  · refine ⟨fun job hjob => ?_, fun stored jobs hload happly => ?_, fun _ h => by cases h⟩
    · cases hjob
      decide
    · cases hload
      cases happly
      decide +kernel
  · refine ⟨fun job hjob => (by cases hjob), fun stored jobs hload happly => ?_,
      fun _ h => by cases h⟩
    have hone : ∃ job, loadJobs laxEnv (createAndDelete[0].run laxEnv {}).1 = .ok [job] ∧
        job.id = ascii "cron-000000000000" :=
      ⟨⟨ascii "cron-000000000000", ascii "0 3 * * *", ascii "root", ascii "true", [], false⟩,
        by decide +kernel, rfl⟩
    obtain ⟨job, hjob, hid⟩ := hone
    cases hjob.symm.trans hload
    rw [CronCall.apply, removeJob, if_pos hid] at happly
    cases happly
    decide +kernel

/-! ## A list that does not fit -/

/-- A job with the longest command. -/
def longJob : CronJob :=
  { schedule := ascii "0 3 * * *", user := ascii "root", command := List.replicate 4096 0x61 }

def longCreate : CronCall := .create longJob [0, 0, 0, 0, 0, 0] (List.replicate 64 0x61) {}

/-- The job as it is stored. -/
def longSaved : CronJob := { longJob with id := newCronID [0, 0, 0, 0, 0, 0] }

theorem validate_longJob (id : Bytes) (requireID : Bool)
    (hid : (requireID = true ∧ validAgentCronID id = true) ∨ (requireID = false ∧ id = [])) :
    validateCronJob laxEnv { longJob with id := id } requireID = .ok () := by
  have hbreak : hasBreak longJob.command = false := by
    rw [hasBreak, containsAny, any_eq_false]
    intro b hb
    rw [eq_of_mem_replicate hb]
    decide
  have hlength : longJob.command.length = 4096 := length_replicate
  have hother : isSystemUser longJob.user = true ∧ hasBreak longJob.schedule = false ∧
      (fields longJob.schedule).length = 5 ∧ longJob.schedule.length = 9 := by decide
  obtain ⟨huser, hline, hfields, hshort⟩ := hother
  rcases hid with ⟨rfl, hid⟩ | ⟨rfl, rfl⟩
  · simp [validateCronJob, laxEnv, hbreak, hlength, huser, hline, hfields, hshort, hid]
    decide
  · simp [validateCronJob, laxEnv, hbreak, hlength, huser, hline, hfields, hshort]
    decide

theorem length_encodeChars (n : Nat) : (encodeChars (List.replicate n 0x61)).length = n := by
  induction n with
  | zero => rfl
  | succ n ih =>
    rw [replicate_succ, encodeChars, pieces_cons_ascii (by decide), flatMap_cons,
      length_append, ← encodeChars, ih, Nat.add_comm]
    rfl

theorem length_command (job : CronJob) (d : Nat) {n : Nat}
    (hcommand : (encodeChars job.command).length = n) :
    n < (encodeSpaced indentation [0x20] d job.toJson).length := by
  rw [CronJob.toJson]
  split_ifs <;>
    simp only [encodeSpaced, spacedMembers, encodeString, cons_append,
      nil_append, append_nil, length_cons, length_append, hcommand] <;>
    omega

theorem length_spacedItems {v : Json} {m d : Nat}
    (hv : m < (encodeSpaced indentation [0x20] (d + 1) v).length) (n : Nat) : n * (m + 1) ≤
    (spacedItems indentation [0x20] d (List.replicate n v)).length := by
  induction n with
  | zero => simp
  | succ n ih =>
    rw [replicate_succ, spacedItems, Nat.add_mul, Nat.one_mul]
    simp only [length_cons, length_append]
    omega

theorem length_encodeIndent {v : Json} {m : Nat}
    (hv : m < (encodeSpaced indentation [0x20] (0 + 1) v).length) (n : Nat) :
    (n + 1) * (m + 1) ≤ (encodeIndent (.arr (List.replicate (n + 1) v))).length := by
  have hitems := length_spacedItems hv n
  rw [replicate_succ, encodeIndent, encodeSpaced, Nat.add_mul, Nat.one_mul]
  simp only [length_cons, length_append]
  omega

theorem length_stateText {k : Nat} (hk : 0 < k) :
    k * 4097 ≤ (stateText (List.replicate k longSaved)).length := by
  obtain ⟨n, rfl⟩ := Nat.exists_eq_succ_of_ne_zero (Nat.ne_of_gt hk)
  have hjob := length_command longSaved (0 + 1) (length_encodeChars 4096)
  rw [stateText, toJson, map_replicate, length_append]
  exact Nat.le_trans (length_encodeIndent hjob n) (Nat.le_add_right _ _)

theorem length_renderLong {k : Nat} (hk : k ≤ 256) :
    (renderCronJobs (List.replicate k longSaved) laxEnv.shell).length ≤
      maxAgentNginxConfigBytes := by
  have hjob : (renderJob longSaved).length ≤ 4500 := by
    have hcommand : longSaved.command.length = 4096 := length_replicate
    have hrest : longSaved.id.length = 17 ∧ longSaved.description = [] ∧ longSaved.enabled = false ∧
        longSaved.schedule.length = 9 ∧ longSaved.user.length = 4 := by decide
    obtain ⟨hid, hdescription, henabled, hschedule, huser⟩ := hrest
    have htext : (ascii "\n# HSERVER ").length = 11 ∧ (ascii "\n").length = 1 ∧
        (ascii "# DISABLED ").length = 11 ∧ (ascii " ").length = 1 := by decide
    rw [renderJob, if_pos hdescription, henabled, if_neg Bool.false_ne_true]
    simp only [length_append, length_nil, hcommand, hid, hschedule, huser, htext]
    decide
  have hjobs : ((replicate k longSaved).flatMap renderJob).length ≤ 256 * 4500 := by
    rw [length_flatMap, map_replicate, sum_replicate_nat]
    exact Nat.mul_le_mul hk hjob
  have hhead : (ascii "# Managed by Heyserver. Changes outside Heyserver will be replaced.\n" ++
      ascii "SHELL=" ++ laxEnv.shell ++ ascii "\n" ++
      ascii "PATH=/usr/local/sbin:/usr/local/bin:/usr/sbin:/usr/bin:/sbin:/bin\n").length ≤
        1000 := by
    decide +kernel
  rw [renderCronJobs, length_append, maxAgentNginxConfigBytes]
  omega

/-- One more long job is saved. -/
theorem longCreate_run {k : Nat} (hk : k < 256)
    (hload : loadJobs laxEnv files = .ok (List.replicate k longSaved))
    (hstate : ∀ content ∈ files.state, content.length ≤ maxAgentNginxConfigBytes)
    (hcron : ∀ content ∈ files.cron, content.length ≤ maxAgentNginxConfigBytes) :
    longCreate.run laxEnv files = (⟨some (stateText (List.replicate (k + 1) longSaved)),
      some (renderCronJobs (List.replicate (k + 1) longSaved) laxEnv.shell)⟩, .ok ()) := by
  have hbackup : ∀ file : Option Bytes, (∀ content ∈ file,
    content.length ≤ maxAgentNginxConfigBytes) →
      backupCronFile file false = .ok () := by
    intro file hfile
    cases file with
    | none => rfl
    | some content =>
      rw [backupCronFile, readManagedFile, if_neg (Nat.not_lt.mpr (hfile content rfl))]
      rfl
  have hprepare : prepareSave files {} = .ok () := by
    simp [prepareSave, hbackup _ hstate, hbackup _ hcron, bind, Except.bind]
  have hvalid : validateAll laxEnv (replicate (k + 1) longSaved) = .ok () := by
    rw [validateAll_eq_ok]
    intro job hjob
    rw [eq_of_mem_replicate hjob]
    exact validate_longJob _ true (.inl ⟨rfl, by decide⟩)
  have hcheck : longCreate.check laxEnv = .ok () := validate_longJob [] false (.inr ⟨rfl, rfl⟩)
  have happly : longCreate.apply (replicate k longSaved) = .ok (replicate (k + 1) longSaved) := by
    rw [replicate_succ']
    rfl
  have hchanged : changedJobs laxEnv files longCreate.expectedRevision longCreate.apply {} =
      .ok (replicate (k + 1) longSaved) := by
    have hsha : isSHA256 longCreate.expectedRevision = true := by decide
    have hrevision : cronRevision laxEnv (replicate k longSaved) = longCreate.expectedRevision := rfl
    have hcount : ¬ maxCronJobs < (replicate (k + 1) longSaved).length := by
      rw [length_replicate]
      exact Nat.not_lt.mpr hk
    simp only [changedJobs, hsha, hload, hrevision, happly, hvalid, if_neg hcount, bind,
      Except.bind]
    rfl
  rw [CronCall.run, hcheck]
  rw [mutate, show longCreate.faults = {} from rfl, hchanged]
  dsimp only
  rw [saveJobs, hprepare]
  rfl

theorem size_of_loadJobs {env : Env} {jobs : List CronJob} {content : Bytes}
    (h : loadJobs env files = .ok jobs) (hstate : files.state = some content) :
    content.length ≤ maxCronStateBytes := by
  rw [loadJobs, hstate] at h
  obtain ⟨content', hread, hrest⟩ := bind_eq_ok.mp h
  cases (ite_error_eq_ok.mp hread).2
  exact Nat.le_of_not_lt (ite_error_eq_ok.mp hrest).1

/-- The calls would have to leave a list that cannot be read. -/
theorem not_along_longCreate {n k : Nat} (hn : k + n = 256)
    (hload : loadJobs laxEnv files = .ok (List.replicate k longSaved))
    (hstate : 0 < k → files.state = some (stateText (List.replicate k longSaved)))
    (hcron : ∀ content ∈ files.cron, content.length ≤ maxAgentNginxConfigBytes) :
    ¬ Along laxEnv (Usable laxEnv) files (List.replicate n longCreate) := by
  induction n generalizing k files with
  | zero =>
    intro _
    have hlong := length_stateText (k := k) (by omega)
    have hshort := size_of_loadJobs hload (hstate (by omega))
    rw [maxCronStateBytes] at hshort
    omega
  | succ n ih =>
    rintro ⟨husable, hrest⟩
    have hrun := longCreate_run (by omega) hload
      (fun content hcontent => Nat.le_trans (size_of_loadJobs hload hcontent) (by decide)) hcron
    rw [hrun] at hrest
    obtain ⟨stored, jobs, hstored, happly, hread, -⟩ := husable.saved (by rw [hrun])
    cases hload.symm.trans hstored
    cases happly
    rw [hrun] at hread
    refine ih (k := k + 1) (by omega) (hread.trans ?_) (fun _ => rfl) ?_ hrest
    · rw [replicate_succ']
      rfl
    · rintro content ⟨⟩
      exact length_renderLong (by omega)

/-- The longest jobs fill a state that is no longer read, and a state file that cannot be written
leaves a changed cron file when this cannot be put back. -/
theorem state_outgrows_reader :
    ¬ Along laxEnv (Usable laxEnv) {} (List.replicate 256 longCreate) ∧
      (CronCall.create { schedule := ascii "0 3 * * *", user := ascii "root", command := ascii "true" }
        [0, 0, 0, 0, 0, 0] (List.replicate 64 0x61)
        { writeState := true, restoreCron := true }).run laxEnv {} =
        (⟨none, some (renderCronJobs [⟨ascii "cron-000000000000", ascii "0 3 * * *", ascii "root",
          ascii "true", [], false⟩] (ascii "/bin/sh"))⟩, .error .file) := by
  refine ⟨not_along_longCreate (k := 0) rfl rfl (fun h => ?_) (fun content hcontent => ?_), ?_⟩
  · exact absurd h (Nat.lt_irrefl 0)
  · cases hcontent
  · decide +kernel

end HeyServer.Agent.Cron
