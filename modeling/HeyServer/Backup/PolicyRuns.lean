import HeyServer.Gdrive.Settings
import HeyServer.Snapshot.Settings

/-!
# Background work and policy updates

Snapshot runs and Drive uploads take hours, and at their end they save the settings they loaded at
their start. A policy the operator has saved in the meantime is undone. It stays if nothing is saved
on settings loaded before it, apart from an empty list of paths, which is stored as no list at all.
-/

namespace HeyServer.Backup
open Lib Prog.Obeys

/-! ## Snapshot settings -/

namespace SnapshotPolicy
open Snapshot

/-- A policy that is read as it is stored. -/
structure Valid (f : SettingsUpdate) : Prop where
  repoFolder : f.repoFolder ≠ []
  destination : f.destination ≠ []
  keepDaily : 0 < f.keepDaily
  keepWeekly : 0 < f.keepWeekly
  keepMonthly : 0 < f.keepMonthly

/-- An empty list of paths is not kept. -/
def keepable (f : SettingsUpdate) : Bool := f.enabledPaths ≠ some []

theorem lawful : codec.Lawful Valid where
  stored_write _ := rfl
  read_stored x f hvalid hstored := by
    cases x with
    | absent | broken => cases hstored
    | doc st =>
      cases hstored
      have hdestination : normalizedDestination st.destination = st.destination :=
        if_neg hvalid.destination
      have hkeep : ∀ {n : Int} (d : Int), 0 < n → orDefault n d = n := by
        intro n d hn
        exact if_neg (not_le.mpr hn)
      show (loadSettings (.doc st)).1.toSettingsUpdate = st.toSettingsUpdate
      simp only [loadSettings, hdestination, if_neg hvalid.repoFolder, hkeep _ hvalid.keepDaily,
        hkeep _ hvalid.keepWeekly, hkeep _ hvalid.keepMonthly]

variable {update : SettingsUpdate}

theorem valid_of_validate {s : Snapshot.Service}
    (h : s.validateSettingsUpdate update = .ok ()) : Valid (requested update) := by
  simp only [Snapshot.Service.validateSettingsUpdate, ite_error_eq_ok] at h
  obtain ⟨-, hfolder, hdaily, hweekly, hmonthly, -⟩ := h
  have hdestination : normalizedDestination update.destination ≠ [] := by
    rw [normalizedDestination]
    split_ifs with hempty
    · decide
    · exact hempty
  refine ⟨?_, hdestination, ?_, ?_, ?_⟩
  · rintro (hempty : update.repoFolder = [])
    exact hfolder (.inl (hempty ▸ rfl))
  · show 0 < update.keepDaily
    omega
  · show 0 < update.keepWeekly
    omega
  · show 0 < update.keepMonthly
    omega

theorem fields_applyUpdate {cur : Settings} (h : keepable (requested update) = true) :
    codec.fields (applyUpdate cur update) = requested update := by
  have hpaths : update.enabledPaths ≠ some [] := of_decide_eq_true h
  have hcopy : copyPaths update.enabledPaths = update.enabledPaths := by
    rw [copyPaths.eq_def]
    split
    · exact absurd ‹_› hpaths
    · rfl
  show (applyUpdate cur update).toSettingsUpdate = requested update
  simp only [applyUpdate, requested, hcopy]

theorem program_obeys (c : SettingsCall) :
    c.program.Obeys (DocPermits codec Valid keepable) docNext none := by
  cases c with
  | updateSettings service update readable written =>
    refine ⟨trivial, fun cur => ?_⟩
    refine ite (fun _ => trivial) fun _ => ?_
    cases hvalidate : service.validateSettingsUpdate update with
    | error e => trivial
    | ok _ =>
      refine ⟨fun hkeep => ?_, fun _ => trivial⟩
      exact ⟨valid_of_validate hvalidate, fields_applyUpdate hkeep⟩
  | runAsync outcome readable written =>
    refine ⟨trivial, fun st => ?_⟩
    refine ite (fun _ => trivial) fun _ => ?_
    cases outcome with
    | refused => trivial
    | failed | finished => exact ⟨⟨rfl, fun _ => rfl⟩, fun _ => trivial⟩
  | status cleared readable written =>
    refine ⟨trivial, fun st => ?_⟩
    refine ite (fun _ => trivial) fun _ => ?_
    refine ite (fun _ => ⟨⟨rfl, fun hvalid => ?_⟩, fun _ => trivial⟩) fun _ => trivial
    have hdestination : normalizedDestination st.doc.destination = st.doc.destination :=
      if_neg hvalid.destination
    rw [hdestination]
    rfl

end SnapshotPolicy

/-! ## Drive settings -/

namespace DrivePolicy
open Gdrive Text

/-- A policy that is read as it is stored. -/
structure Valid (f : SettingsUpdate) : Prop where
  folder : validateRemoteFolder f.folder = .ok f.folder
  retention : 0 ≤ f.remoteRetentionDays ∧ f.remoteRetentionDays ≤ 365

theorem folder_ne {folder : Bytes} (h : validateRemoteFolder folder = .ok folder) :
    folder ≠ [] := by
  rintro rfl
  cases h

theorem lawful : codec.Lawful Valid where
  stored_write _ := rfl
  read_stored x f hvalid hstored := by
    cases x with
    | absent | broken => cases hstored
    | doc st retentionSet =>
      cases retentionSet with
      | false => cases hstored
      | true =>
        cases hstored
        have hretention : ¬ (st.remoteRetentionDays < 0 ∨ st.remoteRetentionDays > 365) := by
          have h := hvalid.retention
          omega
        show (loadSettings (.doc st true)).1.toSettingsUpdate = st.toSettingsUpdate
        simp only [loadSettings, if_neg (folder_ne hvalid.folder), hvalid.folder,
          Bool.true_eq_false, if_false, if_neg hretention]

theorem safeByte_ascii {b : UInt8} (h : safeByte b = true) :
    b.toNat < 0x80 ∧ isSpaceRune b.toNat = false := by
  have hall : ∀ b, safeByte b = true → b.toNat < 0x80 ∧ isSpaceRune b.toNat = false :=
    forall_byte (by decide +kernel)
  exact hall b h

/-- A folder that was accepted is accepted again. -/
theorem validateRemoteFolder_again {value folder : Bytes}
    (h : validateRemoteFolder value = .ok folder) :
    folder = trimSpace value ∧ validateRemoteFolder folder = .ok folder := by
  have hchecks := h
  simp only [validateRemoteFolder, ite_error_eq_ok] at hchecks
  obtain ⟨hrequired, hlength, hsafe, hsegments, hfolder⟩ := hchecks
  cases hfolder
  have hbytes : ∀ b ∈ trimSpace value, safeByte b = true := by
    intro b hb
    rw [← not_not.mp hsafe, sanitizePath] at hb
    split_ifs at hb
    · cases hb
    · exact (List.mem_filter.mp hb).2
  have htrim : trimSpace (trimSpace value) = trimSpace value :=
    trimSpace_eq_self (fun b hb => (safeByte_ascii (hbytes b hb)).1)
      fun b hb => (safeByte_ascii (hbytes b hb)).2
  refine ⟨rfl, ?_⟩
  simp only [validateRemoteFolder, ite_error_eq_ok, htrim]
  exact ⟨hrequired, hlength, hsafe, hsegments, trivial⟩

theorem fails_obeys (message : Bytes) (second third : Access) (g : Option (Loaded Settings)) :
    (SettingsCall.fails message second third).Obeys
    (DocPermits codec Valid fun _ => true) docNext g := by
  refine ⟨by cases g <;> trivial, fun st => ?_⟩
  exact ⟨⟨rfl, fun _ => rfl⟩, fun _ => ⟨trivial, fun _ => trivial⟩⟩

theorem program_obeys (c : SettingsCall) :
    c.program.Obeys (DocPermits codec Valid fun _ => true) docNext none := by
  cases c with
  | updateSettings update access =>
    rw [SettingsCall.program]
    cases hfolder : validateRemoteFolder update.folder with
    | error e => trivial
    | ok folder =>
      obtain ⟨hrequested, hagain⟩ := validateRemoteFolder_again hfolder
      refine ite (fun _ => trivial) fun hretention => ?_
      refine ⟨trivial, fun current => ?_⟩
      refine ite (fun _ => trivial) fun _ => ⟨fun _ => ?_, fun _ => trivial⟩
      subst hrequested
      refine ⟨⟨hagain, ?_⟩, rfl⟩
      show 0 ≤ update.remoteRetentionDays ∧ update.remoteRetentionDays ≤ 365
      omega
  | clearLastError access =>
    refine ⟨trivial, fun current => ?_⟩
    exact ite (fun _ => trivial) fun _ => ⟨⟨rfl, fun _ => rfl⟩, fun _ => trivial⟩
  | uploadTracked transfer first second third =>
    cases transfer with
    | refused => trivial
    | failed message => exact ⟨trivial, fun settings => fails_obeys message second third _⟩
    | finished at_ file => exact ⟨trivial, fun settings => ⟨⟨rfl, fun _ => rfl⟩, fun _ => trivial⟩⟩
  | restoreTracked transfer first second third =>
    cases transfer with
    | refused => trivial
    | failed message => exact ⟨trivial, fun settings => fails_obeys message second third _⟩
    | finished at_ file => exact ⟨trivial, fun _ => trivial⟩

end DrivePolicy

/-! ## Both side by side -/

/-- The settings of both components, with all calls that change them. -/
def policySystem := Snapshot.settingsSystem.pair Gdrive.settingsSystem

section Runs
variable {snapshots : Snapshot.Stored} {drive : Gdrive.Row}

/-- In a run in which nobody saves settings loaded before the last update, or settings that could
not be loaded, and no snapshot update has an empty list of paths, the stored policies are always
those of the last updates. -/
theorem policies_kept {trace} {cfg} (run : Run policySystem (fun _ => True)
      (⟨snapshots, 0, none⟩, ⟨drive, 0, none⟩) trace cfg)
    (hsnapshots : ∀ e ∈ trace, ∀ st basis, e.op = .inl (.save st basis none true) →
      basis = some e.before.1.version)
    (hdrive : ∀ e ∈ trace, ∀ st basis, e.op = .inr (.save st basis none true) →
      basis = some e.before.2.version)
    (hpaths : ∀ e ∈ trace, ∀ st basis f, e.op = .inl (.save st basis (some f) true) →
      f.enabledPaths ≠ some []) :
    (∀ f, cfg.state.1.last = some f → Snapshot.codec.stored cfg.state.1.content = some f) ∧
      ∀ f, cfg.state.2.last = some f → Gdrive.codec.stored cfg.state.2.content = some f := by
  have hguard : ∀ e ∈ trace,
      pairGuard (docGuard SnapshotPolicy.keepable) (docGuard fun _ => true) e.before e.op =
        true := by
    intro e he
    cases hop : e.op with
    | inl op =>
      show docGuard SnapshotPolicy.keepable e.before.1 op = true
      fun_cases docGuard SnapshotPolicy.keepable e.before.1 op with
      | case1 st basis => exact decide_eq_true (hsnapshots e he st basis hop)
      | case2 st basis f => exact decide_eq_true (hpaths e he st basis f hop)
      | case3 => rfl
    | inr op =>
      show docGuard (fun _ => true) e.before.2 op = true
      fun_cases docGuard (fun _ => true) e.before.2 op with
      | case1 st basis => exact decide_eq_true (hdrive e he st basis hop)
      | case2 | case3 => rfl
  have typing := (docTyping SnapshotPolicy.lawful Snapshot.SettingsCall.program
    SnapshotPolicy.program_obeys).pair
      (docTyping DrivePolicy.lawful Gdrive.SettingsCall.program DrivePolicy.program_obeys)
  obtain ⟨hcurrent, hcurrent'⟩ := typing.keeps run hguard
    ⟨(fun _ hf => by cases hf), (fun _ hf => by cases hf)⟩
  exact ⟨fun f hf => (hcurrent f hf).2, fun f hf => (hcurrent' f hf).2⟩

end Runs

def someService : Snapshot.Service := .new (ascii "/var/lib/hserver") (ascii "/srv/sites") []

/-- The operator keeps the snapshots of two days. -/
def shortPolicy : Snapshot.SettingsUpdate :=
  ⟨ascii "s3", ascii "agency/snapshots", some [ascii "vhosts"], 2, 1, 1, true⟩

def drivePolicy : Gdrive.SettingsUpdate := ⟨ascii "agency/backups", true, 0, false, true⟩

/-- A run, an update and another run; an upload, an update and an error. -/
def calmPolicyCalls : List (Snapshot.SettingsCall ⊕ Gdrive.SettingsCall) :=
  [.inl (.runAsync (.finished (ascii "2026-08-27T00:00:00Z") none) true true),
    .inr (.uploadTracked (.finished (ascii "2026-08-27T00:00:00Z") (ascii "a.tar.gz"))
      ⟨true, true⟩ ⟨true, true⟩ ⟨true, true⟩),
    .inl (.updateSettings someService shortPolicy true true),
    .inr (.updateSettings drivePolicy ⟨true, true⟩),
    .inl (.runAsync (.failed (ascii "restic not installed")) true true),
    .inr (.uploadTracked (.failed (ascii "quota")) ⟨true, true⟩ ⟨true, true⟩ ⟨true, true⟩)]

def noSettings : Document Snapshot.Stored Snapshot.SettingsUpdate ×
    Document Gdrive.Row Gdrive.SettingsUpdate :=
  (⟨.absent, 0, none⟩, ⟨.absent, 0, none⟩)

theorem policies_kept_calm :
    (Run.serialRun policySystem noSettings calmPolicyCalls).2.state.1.last = some shortPolicy ∧
    Snapshot.codec.stored
      (Run.serialRun policySystem noSettings calmPolicyCalls).2.state.1.content =
        some shortPolicy := by
  have hrun : Run policySystem (fun _ => True) (⟨.absent, 0, none⟩, ⟨.absent, 0, none⟩)
      (Run.serialRun policySystem noSettings calmPolicyCalls).1
      (Run.serialRun policySystem noSettings calmPolicyCalls).2 :=
    Run.serialRun_run calmPolicyCalls (fun _ _ => trivial) (by decide +kernel)
  have hlast : (Run.serialRun policySystem noSettings calmPolicyCalls).2.state.1.last =
      some shortPolicy := by
    decide +kernel
  have hguard : ∀ e ∈ (Run.serialRun policySystem noSettings calmPolicyCalls).1,
      pairGuard (docGuard SnapshotPolicy.keepable) (docGuard fun _ => true) e.before e.op =
        true := by
    decide +kernel
  refine ⟨hlast, (policies_kept hrun ?_ ?_ ?_).1 _ hlast⟩
  · intro e he st basis hop
    have h := hguard e he
    rw [hop] at h
    exact of_decide_eq_true h
  · intro e he st basis hop
    have h := hguard e he
    rw [hop] at h
    exact of_decide_eq_true h
  · intro e he st basis f hop
    have h := hguard e he
    rw [hop] at h
    exact of_decide_eq_true h

/-- A snapshot run has loaded the settings when the operator changes them. -/
def overtakenRun : List (Run.Choice (Snapshot.SettingsCall ⊕ Gdrive.SettingsCall)) :=
  [.invoke (.inl (.runAsync (.finished (ascii "2026-08-27T00:00:00Z") none) true true)), .step 0,
    .invoke (.inl (.updateSettings someService shortPolicy true true)), .step 1, .step 1, .step 0]

/-- After both calls the stored policy is the one before the update. -/
theorem run_undoes_update :
    ∃ trace cfg, Run policySystem (fun _ => True) noSettings trace cfg ∧
      cfg.state.1.last = some shortPolicy ∧
      Snapshot.codec.stored cfg.state.1.content = some Snapshot.defaultSettings.toSettingsUpdate ∧
      Snapshot.defaultSettings.toSettingsUpdate ≠ shortPolicy :=
  Run.exists_scheduled overtakenRun (fun _ _ => trivial) (by decide +kernel)

end HeyServer.Backup
