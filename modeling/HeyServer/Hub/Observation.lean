import HeyServer.Hub.Profile

/-!
# Agent hub: profile observations

What an agent may report about its profile: one of four states, a revision
and an error code of a closed list.
-/

namespace HeyServer.Hub
open Lib

/-- The error codes an agent may report; none of them carries local details. -/
inductive ProfileErrorCode
  | notConfigured | invalidProfile | permissionDenied | writeFailed | restartFailed
  | applyFailed | profileApplyFailed | unsupported | notSupported | timeout | staleRevision
  | invalidRevision | agentError | unknown | missing | corrupt | stateCorrupt
  | revisionInvalid | payloadInvalid | payloadTooLarge | applyUnavailable | scheduleFailed
  | storeFailed | superseded
  deriving DecidableEq

namespace ProfileErrorCode

/-- The code on the wire. -/
def text : ProfileErrorCode → Bytes
  | notConfigured => ascii "not_configured"
  | invalidProfile => ascii "invalid_profile"
  | permissionDenied => ascii "permission_denied"
  | writeFailed => ascii "write_failed"
  | restartFailed => ascii "restart_failed"
  | applyFailed => ascii "apply_failed"
  | profileApplyFailed => ascii "profile_apply_failed"
  | unsupported => ascii "unsupported"
  | notSupported => ascii "not_supported"
  | timeout => ascii "timeout"
  | staleRevision => ascii "stale_revision"
  | invalidRevision => ascii "invalid_revision"
  | agentError => ascii "agent_error"
  | unknown => ascii "unknown"
  | missing => ascii "profile_missing"
  | corrupt => ascii "profile_corrupt"
  | stateCorrupt => ascii "profile_state_corrupt"
  | revisionInvalid => ascii "profile_revision_invalid"
  | payloadInvalid => ascii "profile_payload_invalid"
  | payloadTooLarge => ascii "profile_payload_too_large"
  | applyUnavailable => ascii "profile_apply_unavailable"
  | scheduleFailed => ascii "profile_schedule_failed"
  | storeFailed => ascii "profile_store_failed"
  | superseded => ascii "profile_superseded"

/-- Every error code, in the order of the source. -/
def all : List ProfileErrorCode :=
  [.notConfigured, .invalidProfile, .permissionDenied, .writeFailed, .restartFailed,
    .applyFailed, .profileApplyFailed, .unsupported, .notSupported, .timeout, .staleRevision,
    .invalidRevision, .agentError, .unknown, .missing, .corrupt, .stateCorrupt, .revisionInvalid,
    .payloadInvalid, .payloadTooLarge, .applyUnavailable, .scheduleFailed, .storeFailed,
    .superseded]

end ProfileErrorCode

def isSafeProfileErrorCode (value : Bytes) : Bool :=
  value = [] || ProfileErrorCode.all.any fun code => value = code.text

theorem isSafeProfileErrorCode_text (code : ProfileErrorCode) :
    isSafeProfileErrorCode code.text = true := by
  have hmem : code ∈ ProfileErrorCode.all := by
    cases code <;> decide
  rw [isSafeProfileErrorCode, Bool.or_eq_true, List.any_eq_true]
  exact .inr ⟨code, hmem, decide_eq_true rfl⟩

def validateAgentProfileObservation : Option AgentProfileObservation → Except HubError Unit
  | none => .ok ()
  | some observation =>
    if observation.revision < 0 then
      .error (invalidInput "agent hub: profile observation revision must be non-negative")
    else
      match observation.state with
      | .other _ => .error (invalidInput "agent hub: profile observation state is invalid")
      | _ =>
        if isSafeProfileErrorCode observation.errorCode = false then
          .error (invalidInput "agent hub: profile observation error code is invalid")
        else .ok ()

end HeyServer.Hub
