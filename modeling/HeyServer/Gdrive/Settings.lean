import HeyServer.Lib.Document
import HeyServer.Lib.Text

/-!
# The settings of the Drive backups

As for the snapshots, the operator replaces the whole policy, and uploads load the settings at their
start and save them with their result. An error is recorded even if the settings cannot be loaded,
and then on the defaults.

## Implementation notes

The outcome of a transfer, whether the row can be read and whether a save succeeds are arguments of
a call. The row is represented by the settings it decodes to.
-/

namespace HeyServer.Gdrive
open Lib Text

/-- The operator-controlled policy. -/
structure SettingsUpdate where
  folder : Bytes
  autoUpload : Bool
  remoteRetentionDays : Int
  notifyOnSuccess : Bool
  notifyOnFailure : Bool
deriving DecidableEq

structure Settings extends SettingsUpdate where
  lastUploadAt : Bytes
  lastUploadFile : Bytes
  lastError : Bytes
deriving DecidableEq

/-- A decoded row: the settings, and whether it has a `remoteRetentionDays`. -/
inductive Row
  | absent
  | broken
  | doc (st : Settings) (retentionSet : Bool)
deriving DecidableEq

def defaultSettings : Settings where
  folder := ascii "hserver-backups"
  autoUpload := false
  remoteRetentionDays := 30
  notifyOnSuccess := true
  notifyOnFailure := true
  lastUploadAt := []
  lastUploadFile := []
  lastError := []

inductive FolderError
  | required
  | tooLong
  | unsafePath
  | segments
deriving DecidableEq

/-- A byte of `safeRemotePathRe`. -/
def safeByte (b : UInt8) : Bool :=
  isAlnum b || b = 0x2D || b = 0x5F || b = 0x2E || b = 0x2F

/-- `sanitizePath`; what is left after the filter matches `safeRemotePathRe`. -/
def sanitizePath (s : Bytes) : Bytes :=
  let out := (trimByte 0x2F (trimSpace s)).filter safeByte
  if dotdot ∈ split 0x2F out then [] else out

def validateRemoteFolder (value : Bytes) : Except FolderError Bytes :=
  let folder := trimSpace value
  if folder = [] then .error .required
  else if folder.length > 255 then .error .tooLong
  else if sanitizePath folder ≠ folder then .error .unsafePath
  else if (split 0x2F folder).any fun part => part = [] || part = dot || part = dotdot then
    .error .segments
  else .ok folder

/-- `loadSettings`: the settings and whether they could be read. -/
def loadSettings : Row → Settings × Bool
  | .absent => (defaultSettings, true)
  | .broken => (defaultSettings, false)
  | .doc st retentionSet =>
    let withFolder (folder : Bytes) : Settings × Bool :=
      if retentionSet = false then
        ({ st with folder := folder, remoteRetentionDays := 30 }, true)
      else if st.remoteRetentionDays < 0 ∨
        st.remoteRetentionDays > 365 then (defaultSettings, false)
      else ({ st with folder := folder }, true)
    if st.folder = [] then withFolder (ascii "hserver-backups")
    else
      match validateRemoteFolder st.folder with
      | .error _ => (defaultSettings, false)
      | .ok folder => withFolder folder

def codec : Codec Row Settings SettingsUpdate where
  read := loadSettings
  fallback := defaultSettings
  write st := .doc st true
  fields := Settings.toSettingsUpdate
  stored
    | .doc st true => some st.toSettingsUpdate
    | _ => none

/-! ## Programs -/

inductive SettingsError
  | unavailable
  | folder (e : FolderError)
  | retention
  | transfer
  | notSaved
deriving DecidableEq

abbrev SettingsM := Prog (DocOp Settings SettingsUpdate) DocOp.Reply

/-- The outcome of an upload or a restore. -/
inductive Transfer
  /-- It ends before the settings are loaded. -/
  | refused
  | failed (message : Bytes)
  | finished (at_ file : Bytes)

/-- What the loads and saves of a call meet. -/
structure Access where
  readable : Bool
  written : Bool

inductive SettingsCall
  | updateSettings (update : SettingsUpdate) (access : Access)
  | clearLastError (access : Access)
  | uploadTracked (transfer : Transfer) (first second third : Access)
  | restoreTracked (transfer : Transfer) (first second third : Access)

/-- `recordError` -/
def recordError (message : Bytes) (access : Access) (rest : SettingsM (Except SettingsError Unit)) :
    SettingsM (Except SettingsError Unit) :=
  .call (.load access.readable) fun (st : Loaded Settings) =>
    .call (.save { st.doc with lastError := message } st.basis none access.written) fun _ => rest

/-- The policy an update asks for. -/
def requested (update : SettingsUpdate) : SettingsUpdate :=
  { update with folder := trimSpace update.folder }

/-- The settings `UpdateSettings` saves. -/
def applyUpdate (cur : Settings) (update : SettingsUpdate) (folder : Bytes) : Settings :=
  { cur with
    folder := folder
    autoUpload := update.autoUpload
    remoteRetentionDays := update.remoteRetentionDays
    notifyOnSuccess := update.notifyOnSuccess
    notifyOnFailure := update.notifyOnFailure }

namespace SettingsCall

def result (saved : Bool) : Except SettingsError Unit := if saved then .ok () else .error .notSaved

/-- An error is recorded, and the settings are loaded again to see whether it is to be reported. -/
def fails (message : Bytes) (second third : Access) : SettingsM (Except SettingsError Unit) :=
  recordError message second (.call (.load third.readable) fun _ => .done (.error .transfer))

def program : SettingsCall → SettingsM (Except SettingsError Unit)
  | .updateSettings update access =>
    match validateRemoteFolder update.folder with
    | .error e => .done (.error (.folder e))
    | .ok folder =>
      if update.remoteRetentionDays < 0 ∨ update.remoteRetentionDays > 365 then
        .done (.error .retention)
      else
        .call (.load access.readable) fun (current : Loaded Settings) =>
          if current.basis = none then .done (.error .unavailable)
          else
            .call (.save (applyUpdate current.doc update folder) current.basis
                (some (requested update)) access.written)
              fun (saved : Bool) => .done (result saved)
  | .clearLastError access =>
    .call (.load access.readable) fun (current : Loaded Settings) =>
      if current.basis = none then .done (.error .unavailable)
      else
        .call (.save { current.doc with lastError := [] } current.basis none access.written)
          fun (saved : Bool) => .done (result saved)
  | .uploadTracked transfer first second third =>
    match transfer with
    | .refused => .done (.error .transfer)
    | .failed message => .call (.load first.readable) fun _ => fails message second third
    | .finished at_ file =>
      .call (.load first.readable) fun (settings : Loaded Settings) =>
        .call (.save { settings.doc with lastUploadAt := at_, lastUploadFile := file, lastError :=
          [] }
            settings.basis none first.written)
          fun _ => .done (.ok ())
  | .restoreTracked transfer first second third =>
    match transfer with
    | .refused => .done (.error .transfer)
    | .failed message => .call (.load first.readable) fun _ => fails message second third
    | .finished _ _ => .call (.load first.readable) fun _ => .done (.ok ())

end SettingsCall

def settingsSystem : System (Document Row SettingsUpdate) (DocOp Settings SettingsUpdate)
    DocOp.Reply SettingsCall (Except SettingsError Unit) :=
  ⟨docSemantics codec, SettingsCall.program⟩

end HeyServer.Gdrive
