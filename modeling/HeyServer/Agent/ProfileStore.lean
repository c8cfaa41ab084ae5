import HeyServer.Agent.PayloadAgreement

/-!
# Agent: profile store

The files of the profile directory as the agent reads and writes them: the
wrapper files, the state file, and the observation and configuration derived
from them.

## Implementation notes

A file is its contents, `none` if it does not exist. The readers distinguish no
kinds of failure that any caller tells apart, so a failed read is one error.
-/

namespace HeyServer.Agent
open Lib Hub ProfileErrorCode

/-- The four files of the profile directory. -/
inductive ProfileFile
  | candidate | active | previous | state
  deriving DecidableEq

/-- The states of the state file. -/
inductive LocalState
  | pendingRestart | active | failed
  deriving DecidableEq

namespace LocalState

def text : LocalState → Bytes
  | pendingRestart => ascii "pending_restart"
  | active => ascii "active"
  | failed => ascii "failed"

def ofText (value : Bytes) : Option LocalState :=
  [pendingRestart, active, failed].find? fun state => value = state.text

theorem ofText_text (state : LocalState) : ofText state.text = some state := by
  cases state <;> decide

end LocalState

structure ProfileStateDocument where
  schemaVersion : Int
  state : LocalState
  revision : Int
  errorCode : Bytes
  deriving DecidableEq

/-- The members of a state file with the revision as it is spelled. -/
def stateFields (schemaVersion : Int) (state : LocalState) (revision errorCode : Bytes) : Fields :=
  [(ascii "schema_version", .num (Decimal.formatInt schemaVersion)),
    (ascii "state", .str state.text), (ascii "revision", .num revision)] ++
    if errorCode = [] then [] else [(ascii "error_code", .str errorCode)]

variable (document : ProfileStateDocument)

/-- `json.Marshal` of the state struct. -/
def ProfileStateDocument.marshal : Bytes :=
  (Json.obj (stateFields document.schemaVersion document.state
    (Decimal.formatInt document.revision) document.errorCode)).encode

/-- The codes the agent reports. -/
def profileErrorCodes : List ProfileErrorCode :=
  [.missing, .corrupt, .stateCorrupt, .revisionInvalid, .payloadInvalid, .payloadTooLarge,
    .applyUnavailable, .scheduleFailed, .storeFailed, .superseded]

def safeProfileErrorCode (code fallback : Bytes) : Bytes :=
  if profileErrorCodes.any fun known => code = known.text then code else fallback

/-! ## Readers -/

def readWrapper : Option Bytes → Except WrapperError (Option ProfileWrapper)
  | none => .ok none
  | some data =>
    if maxProfileDocumentBytes < data.length then .error .payloadTooBig
    else (decodeProfileWrapper data).map some

/-- The optional member of a state file. -/
def decodeErrorCode (fields : Fields) : Option Bytes :=
  match fields.lookup (ascii "error_code") with
  | none => some []
  | some value => FromJson.fromJson value

/-- The members of a state file as a document, before it is checked. -/
def decodeStateFields (fields : Fields) : Option ProfileStateDocument := do
  let schemaVersion ← (fields.lookup (ascii "schema_version")).bind FromJson.fromJson
  let state ← (fields.lookup (ascii "state")).bind FromJson.fromJson
  let state ← LocalState.ofText state
  let revision ← (fields.lookup (ascii "revision")).bind FromJson.fromJson
  let errorCode ← decodeErrorCode fields
  return ⟨schemaVersion, state, revision, errorCode⟩

/-- The checks of `readState` after decoding. -/
def ProfileStateDocument.Sound : Prop :=
  document.schemaVersion = profileSchemaVersion ∧ 1 ≤ document.revision ∧
    (document.state ≠ .failed → document.errorCode = []) ∧
    (document.errorCode ≠ [] → safeProfileErrorCode document.errorCode [] = document.errorCode)

instance (document : ProfileStateDocument) : Decidable document.Sound :=
  inferInstanceAs (Decidable (_ ∧ _))

def decodeState (data : Bytes) : Except WrapperError ProfileStateDocument :=
  if maxProfileDocumentBytes < data.length then .error .invalid
  else
    match Json.parse data with
    | some (.obj fields) =>
      match decodeStateFields fields with
      | some document =>
        if document.Sound ∧ (data = document.marshal ∨ data = document.marshal ++ [0x0A]) then
          .ok document
        else .error .invalid
      | none => .error .invalid
    | _ => .error .invalid

def readState : Option Bytes → Except WrapperError (Option ProfileStateDocument)
  | none => .ok none
  | some data => (decodeState data).map some

/-! ## What the files mean -/

/-- The three results of `loadActiveProfile`; without a wrapper `active` is `none`. -/
structure LoadedProfile where
  active : Option ProfileWrapper
  observation : AgentProfileObservation
  failed : Bool
  deriving DecidableEq

/-- The observation of a state file that says `failed`. -/
def failedObservation (state : ProfileStateDocument) : AgentProfileObservation :=
  ⟨.failed, state.revision,
    safeProfileErrorCode state.errorCode storeFailed.text⟩

def loadActiveProfile (active state : Option Bytes) : LoadedProfile :=
  match readWrapper active with
  | .error _ => ⟨none, ⟨.failed, 0, corrupt.text⟩, true⟩
  | .ok active =>
    match readState state, active with
    | .error _, _ =>
      ⟨active, ⟨.failed, (active.map (·.revision)).getD 0, stateCorrupt.text⟩,
        true⟩
    | .ok none, none => ⟨none, ⟨.notConfigured, 0, []⟩, true⟩
    | .ok (some state), none =>
      match state.state with
      | .pendingRestart => ⟨none, ⟨.pendingRestart, state.revision, []⟩, false⟩
      | .failed => ⟨none, failedObservation state, false⟩
      | .active => ⟨none, ⟨.failed, state.revision, stateCorrupt.text⟩, true⟩
    | .ok (some state), some wrapper =>
      match state.state with
      | .pendingRestart => ⟨some wrapper, ⟨.pendingRestart, state.revision, []⟩, false⟩
      | .failed => ⟨some wrapper, failedObservation state, false⟩
      | .active =>
        if state.revision ≠ wrapper.revision then
          ⟨some wrapper, ⟨.failed, wrapper.revision, stateCorrupt.text⟩, true⟩
        else ⟨some wrapper, ⟨.applied, wrapper.revision, []⟩, false⟩
    | .ok none, some wrapper => ⟨some wrapper, ⟨.applied, wrapper.revision, []⟩, false⟩

/-- The deployment fields of the agent's configuration. -/
structure DeployConfig where
  allowDeployRead : Bool
  allowDeployActions : Bool
  allowDeployDomainRead : Bool
  allowDeployDomainActions : Bool
  deployPlansPath : Bytes
  deployAcmeWebroot : Bytes
  deployWriteRoots : List Bytes
  deriving DecidableEq

/-- All seven fields are taken from the profile. -/
def applyProfileOverlay (profile : AgentProfile) : DeployConfig where
  allowDeployRead := profile.allowDeployRead
  allowDeployActions := profile.allowDeployActions
  allowDeployDomainRead := profile.allowDeployDomainRead
  allowDeployDomainActions := profile.allowDeployDomainActions
  deployPlansPath := profile.deployPlansFile
  deployAcmeWebroot := profile.deployAcmeWebroot
  deployWriteRoots := profile.deployWriteRoots

/-- The end of `loadConfigFromEnv`: the deployment fields of the environment, replaced by
those of an active profile. -/
def loadConfigFromEnv (env : DeployConfig) (active state : Option Bytes) : DeployConfig :=
  let loaded := loadActiveProfile active state
  match loaded.active with
  | some wrapper =>
    if loaded.failed = false ∧ 0 < wrapper.revision then applyProfileOverlay wrapper.profile
    else env
  | none => env

/-! ## Readable files -/

variable {wrapper : ProfileWrapper} {active state : Option Bytes}

theorem readWrapper_eq_ok {file : Option Bytes} : readWrapper file = .ok (some wrapper) ↔
      ∃ data, file = some data ∧ decodeProfileWrapper data = .ok wrapper := by
  cases file with
  | none => simp [readWrapper]
  | some data =>
    rw [readWrapper]
    split_ifs with hlen
    · have hdecode : decodeProfileWrapper data = .error .payloadTooBig := by
        rw [decodeProfileWrapper, if_pos (.inr hlen)]
      simp [hdecode]
    · cases hdecode : decodeProfileWrapper data <;> simp [Except.map, hdecode]

theorem decodeProfileWrapper_revision_pos {data : Bytes}
    (h : decodeProfileWrapper data = .ok wrapper) : 0 < wrapper.revision := by
  obtain ⟨-, -, hvalid, -⟩ :=
    (decodeProfileApplyDocument_ok_iff _ _).mp ((decodeProfileWrapper_ok_iff _ _).mp h)
  exact hvalid.1

theorem decodeState_eq_ok {data : Bytes} {document : ProfileStateDocument}
    (h : decodeState data = .ok document) :
    document.Sound ∧ (data = document.marshal ∨ data = document.marshal ++ [0x0A]) := by
  rw [decodeState] at h
  split_ifs at h
  split at h
  · split at h
    · split_ifs at h with hsound
      cases h
      exact hsound
    · cases h
  · cases h

/-- An observation `applied` names the revision of the active file. -/
theorem loadActiveProfile_applied
    (h : (loadActiveProfile active state).observation.state = .applied) :
    ∃ wrapper, readWrapper active = .ok (some wrapper) ∧
      (loadActiveProfile active state).observation.revision = wrapper.revision := by
  cases hactive : readWrapper active with
  | error e => simp [loadActiveProfile, hactive] at h
  | ok wrapper =>
    cases hstate : readState state with
    | error e => simp [loadActiveProfile, hactive, hstate] at h
    | ok document =>
      cases wrapper with
      | none =>
        cases document with
        | none => simp [loadActiveProfile, hactive, hstate] at h
        | some document =>
          cases hlocal : document.state <;>
            simp [loadActiveProfile, hactive, hstate, hlocal, failedObservation] at h
      | some wrapper =>
        refine ⟨wrapper, rfl, ?_⟩
        cases document with
        | none => simp [loadActiveProfile, hactive, hstate]
        | some document =>
          cases hlocal : document.state with
          | pendingRestart => simp [loadActiveProfile, hactive, hstate, hlocal] at h
          | failed =>
            simp [loadActiveProfile, hactive, hstate, hlocal, failedObservation] at h
          | active =>
            simp only [loadActiveProfile, hactive, hstate, hlocal] at h ⊢
            split_ifs <;> rfl

section
variable (h : readWrapper active = .ok (some wrapper))
include h

theorem loadActiveProfile_active : (loadActiveProfile active state).active = some wrapper := by
  rw [loadActiveProfile, h]
  cases readState state with
  | error e => rfl
  | ok document =>
    cases document with
    | none => rfl
    | some document =>
      cases hlocal : document.state with
      | pendingRestart | failed => simp only [hlocal]
      | active =>
        simp only [hlocal]
        split_ifs <;> rfl

end

end HeyServer.Agent
