import HeyServer.Lib.Document
import HeyServer.Lib.Fallible
import HeyServer.Snapshot.Manifest

/-!
# The settings of the snapshots

The operator replaces the whole policy. A run keeps the settings it has loaded at its start and
saves them with its result at its end, and reading the status clears an error that is over.

## Implementation notes

The outcome of the checks and of the run, whether the file can be read and whether a save succeeds
are arguments of a call. The file is represented by the settings it decodes to.
-/

namespace HeyServer.Snapshot
open Lib Text List Service

/-- The contents of the settings file. -/
inductive Stored
  | absent
  | broken
  | doc (st : Settings)
deriving DecidableEq

def defaultSettings : Settings where
  destination := ascii "gdrive"
  repoFolder := ascii "hserver-snapshots"
  enabledPaths := none
  keepDaily := 14
  keepWeekly := 8
  keepMonthly := 6
  passwordAcknowledged := false
  lastRunAt := []
  lastSnapshot := []
  lastError := []

/-- A number that is set, or else the default. -/
def orDefault (n default : Int) : Int := if n ≤ 0 then default else n

def normalizedDestination (destination : Bytes) : Bytes :=
  if destination = [] then ascii "gdrive" else destination

/-- `loadSettings`: the settings and whether they could be read. -/
def loadSettings : Stored → Settings × Bool
  | .absent => (defaultSettings, true)
  | .broken => (defaultSettings, false)
  | .doc st =>
    ({ st with
      repoFolder := if st.repoFolder = [] then ascii "hserver-snapshots" else st.repoFolder
      destination := normalizedDestination st.destination
      keepDaily := orDefault st.keepDaily 14
      keepWeekly := orDefault st.keepWeekly 8
      keepMonthly := orDefault st.keepMonthly 6 }, true)

def codec : Codec Stored Settings SettingsUpdate where
  read := loadSettings
  fallback := defaultSettings
  write := .doc
  fields := Settings.toSettingsUpdate
  stored
    | .doc st => some st.toSettingsUpdate
    | _ => none

/-! ## Updates -/

inductive SettingsError
  | unavailable
  | destination
  | repoFolder
  | keepDaily
  | keepWeekly
  | keepMonthly
  | tooManyPaths
  | unknownPath (id : Bytes)
  | duplicatePath (id : Bytes)
  | notSaved
deriving DecidableEq

/-- `repoFolderPattern` -/
def repoFolderPattern : Bytes → Bool
  | [] => false
  | first :: rest =>
    isAlnum first && decide (rest.length ≤ 127) &&
      rest.all fun b => isAlnum b || b = 0x2E || b = 0x5F || b = 0x2F || b = 0x2D

/-- The loop over the identifiers, with those seen before. -/
def checkPaths (allowed : List Bytes) : List Bytes → List Bytes → Except SettingsError Unit
  | _, [] => .ok ()
  | seen, id :: rest =>
    if id ∉ allowed then .error (.unknownPath id)
    else if id ∈ seen then .error (.duplicatePath id)
    else checkPaths allowed (id :: seen) rest

variable (s : Service) (update : SettingsUpdate)

def Service.validateSettingsUpdate : Except SettingsError Unit :=
  let manifest := defaultManifest s.dataDir s.vhostsRoot
  let paths := update.enabledPaths.getD []
  if normalizedDestination update.destination ≠ ascii "gdrive" ∧
      normalizedDestination update.destination ≠ ascii "s3" then .error .destination
  else if repoFolderPattern update.repoFolder = false ∨
      clean update.repoFolder ≠ update.repoFolder then .error .repoFolder
  else if update.keepDaily < 1 ∨ update.keepDaily > 365 then .error .keepDaily
  else if update.keepWeekly < 1 ∨ update.keepWeekly > 260 then .error .keepWeekly
  else if update.keepMonthly < 1 ∨ update.keepMonthly > 120 then .error .keepMonthly
  else if paths.length > manifest.length then .error .tooManyPaths
  else checkPaths (manifest.map (·.id)) [] paths

/-- `append([]string(nil), paths...)`: an empty slice becomes nil. -/
def copyPaths : Option (List Bytes) → Option (List Bytes)
  | some [] => none
  | paths => paths

theorem getD_copyPaths (paths : Option (List Bytes)) (ids : List Bytes) :
    (copyPaths paths).getD ids = if paths.getD [] = [] then ids else paths.getD [] := by
  rcases paths with _ | _ | _ <;> rfl

/-- The settings `UpdateSettings` saves. -/
def applyUpdate (cur : Settings) (update : SettingsUpdate) : Settings :=
  { cur with
    repoFolder := update.repoFolder
    destination := normalizedDestination update.destination
    enabledPaths := copyPaths update.enabledPaths
    keepDaily := update.keepDaily
    keepWeekly := update.keepWeekly
    keepMonthly := update.keepMonthly
    passwordAcknowledged := update.passwordAcknowledged }

/-- The policy an update asks for. -/
def requested : SettingsUpdate :=
  { update with destination := normalizedDestination update.destination }

/-! ## The selection -/

def Service.enabledIds (exist : Bytes → Bool) (settings : Settings) : List Bytes :=
  ((s.manifestForUI exist settings).filter (·.enabled)).map (·.id)

def Service.requiredIds : List Bytes :=
  ((defaultManifest s.dataDir s.vhostsRoot).filter (·.required)).map (·.id)

theorem mem_enabledIds {s : Service} {exist : Bytes → Bool} {settings : Settings} {id : Bytes} :
    id ∈ s.enabledIds exist settings ↔
      (id ∈ allowed settings (defaultManifest s.dataDir s.vhostsRoot) ∧
        id ∈ (defaultManifest s.dataDir s.vhostsRoot).map (·.id)) ∨ id ∈ s.requiredIds := by
  simp only [enabledIds, manifestForUI, requiredIds, mem_map, mem_filter]
  constructor
  · rintro ⟨_, ⟨⟨b, hb, rfl⟩, henabled⟩, rfl⟩
    rcases Bool.or_eq_true_iff.1 henabled with h | h
    · exact .inl ⟨of_decide_eq_true h, b, hb, rfl⟩
    · exact .inr ⟨b, ⟨hb, h⟩, rfl⟩
  · rintro (⟨hallowed, b, hb, rfl⟩ | ⟨b, ⟨hb, hrequired⟩, rfl⟩)
    · exact ⟨_, ⟨⟨b, hb, rfl⟩, Bool.or_eq_true_iff.2 (.inl (decide_eq_true hallowed))⟩, rfl⟩
    · exact ⟨_, ⟨⟨b, hb, rfl⟩, Bool.or_eq_true_iff.2 (.inr hrequired)⟩, rfl⟩

theorem mem_of_checkPaths {allowed seen paths : List Bytes}
    (h : checkPaths allowed seen paths = .ok ()) : ∀ id ∈ paths, id ∈ allowed := by
  fun_induction checkPaths allowed seen paths with
  | case1 => exact fun _ hid => absurd hid not_mem_nil
  | case2 | case3 => cases h
  | case4 seen id rest hknown _ ih => exact forall_mem_cons.2 ⟨not_not.1 hknown, ih h⟩

/-- An empty list is saved as no choice, which is read back as every entry of the manifest. -/
theorem selection_listed_iff (s : Service) (exist : Bytes → Bool) (cur : Settings)
    (update : SettingsUpdate) (accepted : s.validateSettingsUpdate update = .ok ()) :
    (∀ id, id ∈ s.enabledIds exist (codec.read (codec.write (applyUpdate cur update))).1 ↔
        id ∈ update.enabledPaths.getD [] ∨ id ∈ s.requiredIds) ↔
      update.enabledPaths.getD [] ≠ [] := by
  have hread : ∀ base, allowed (codec.read (codec.write (applyUpdate cur update))).1 base =
      (copyPaths update.enabledPaths).getD (base.map (·.id)) := fun _ => rfl
  simp only [mem_enabledIds, hread, getD_copyPaths]
  constructor
  · intro hlisted hempty
    have hnginx := (hlisted (ascii "nginx")).1
      (.inl ⟨by simp [hempty, defaultManifest], by simp [defaultManifest]⟩)
    rw [hempty] at hnginx
    revert hnginx
    simp [requiredIds, defaultManifest, ascii]
  · intro hne id
    simp only [validateSettingsUpdate, ite_error_eq_ok] at accepted
    have hknown := mem_of_checkPaths accepted.2.2.2.2.2.2
    rw [if_neg hne]
    exact or_congr_left (and_iff_left_of_imp (hknown id))

def exampleService : Service := .new (ascii "/var/lib/hserver") (ascii "/var/www") []

/-- The default policy with these entries switched on. -/
def listing (paths : List Bytes) : SettingsUpdate :=
  { defaultSettings.toSettingsUpdate with enabledPaths := some paths }

theorem nginx_selection_listed :
    exampleService.validateSettingsUpdate (listing [ascii "nginx"]) = .ok () ∧
      ∀ id, id ∈ exampleService.enabledIds (fun _ => true)
          (codec.read (codec.write (applyUpdate defaultSettings (listing [ascii "nginx"])))).1 ↔
        id ∈ [ascii "nginx"] ∨ id ∈ exampleService.requiredIds :=
  ⟨by decide +kernel, (selection_listed_iff _ _ _ _ (by decide +kernel)).2 (by decide)⟩

theorem empty_selection_enables_nginx :
    exampleService.validateSettingsUpdate (listing []) = .ok () ∧
      ascii "nginx" ∈ exampleService.enabledIds (fun _ => true)
        (codec.read (codec.write (applyUpdate defaultSettings (listing [])))).1 ∧
      ascii "nginx" ∉ exampleService.requiredIds := by
  decide +kernel

/-! ## Programs -/

abbrev SettingsM := Prog (DocOp Settings SettingsUpdate) DocOp.Reply

def truncate (s : Bytes) (n : Nat) : Bytes :=
  if s.length ≤ n then s else s.take n ++ [0xE2, 0x80, 0xA6]

inductive RunOutcome
  /-- One of the checks before the run fails. -/
  | refused
  | failed (message : Bytes)
  | finished (at_ : Bytes) (snapshot : Option Bytes)

inductive SettingsCall
  | updateSettings (service : Service) (update : SettingsUpdate) (readable written : Bool)
  | runAsync (outcome : RunOutcome) (readable written : Bool)
  /-- `cleared` says whether the repository answered. -/
  | status (cleared readable written : Bool)

namespace SettingsCall

def result (saved : Bool) : Except SettingsError Unit := if saved then .ok () else .error .notSaved

def program : SettingsCall → SettingsM (Except SettingsError Unit)
  | .updateSettings service update readable written =>
    .call (.load readable) fun (cur : Loaded Settings) =>
      if cur.basis = none then .done (.error .unavailable)
      else
        match service.validateSettingsUpdate update with
        | .error e => .done (.error e)
        | .ok () =>
          .call (.save (applyUpdate cur.doc update) cur.basis (some (requested update)) written)
            fun (saved : Bool) => .done (result saved)
  | .runAsync outcome readable written =>
    .call (.load readable) fun (st : Loaded Settings) =>
      if st.basis = none then .done (.error .unavailable)
      else
        match outcome with
        | .refused => .done (.ok ())
        | .failed message =>
          .call (.save { st.doc with lastError := truncate message 500 } st.basis none written)
            fun _ => .done (.ok ())
        | .finished at_ snapshot =>
          .call (.save { st.doc with
              lastRunAt := at_, lastError := [],
              lastSnapshot := snapshot.getD st.doc.lastSnapshot } st.basis none written)
            fun _ => .done (.ok ())
  | .status cleared readable written =>
    .call (.load readable) fun (st : Loaded Settings) =>
      if st.basis = none then .done (.error .unavailable)
      else if cleared && decide (st.doc.lastError ≠ []) then
        .call (.save { st.doc with
            destination := normalizedDestination st.doc.destination, lastError := [] }
            st.basis none written)
          fun _ => .done (.ok ())
      else .done (.ok ())

end SettingsCall

def settingsSystem : System (Document Stored SettingsUpdate) (DocOp Settings SettingsUpdate)
    DocOp.Reply SettingsCall (Except SettingsError Unit) :=
  ⟨docSemantics codec, SettingsCall.program⟩

end HeyServer.Snapshot
