import HeyServer.Hub.TaskRequests

/-!
# Agent hub: task results

The checks a reported result passes before it is stored: the general one and the
stricter ones of three task kinds.

## Implementation notes

The program ranges over a result map in no fixed order; the model takes the keys in
their order. Only which of several wrong fields is named depends on it.
-/

namespace HeyServer.Hub
open Lib

def maxTaskErrorLength : Nat := 4096
def maxTaskResultValueLength : Nat := 5242880

/-- One entry of a result. -/
def validResultEntry (entry : Bytes × Bytes) : Bool :=
  entry.1 ≠ [] && entry.1.length ≤ maxTaskPayloadValueLength && !Text.containsControl entry.1 &&
    entry.2.length ≤ maxTaskResultValueLength && !Text.containsControl entry.2

/-- `ValidateTaskResultRequest` -/
def validateTaskResultRequest (req : TaskResultRequest) : Except HubError Unit := do
  require (req.status = .completed || req.status = .failed) "agent hub: task result status"
  require (req.error.length ≤ maxTaskErrorLength && !Text.containsControl req.error)
    "agent hub: task result error"
  require (!(req.status = .failed && Text.trimSpace req.error = []))
    "agent hub: failed task requires error"
  require (req.result.size ≤ 100) "agent hub: task result"
  require (req.result.entries.all validResultEntry) "agent hub: task result"

/-- `ValidateIntegrationStatusTaskResult` -/
def validateIntegrationStatusTaskResult (env : Env) (req : TaskResultRequest) :
    Except HubError Unit :=
  match req.status with
  | .completed => do
      require (req.error = [] && req.result.size = 1)
        "agent hub: integration.status completed result is invalid"
      require ((req.result.lookup (ascii "data")).any (· ≠ []))
        "agent hub: integration.status result data is required"
      require (env.decodesIntegrationStatus (req.result.get (ascii "data")))
        "agent hub: integration.status result data is invalid"
  | .failed =>
    require (req.error = ascii "integration_status_failed" && req.result.size = 0)
      "agent hub: integration.status failed result is invalid"
  | _ => .error (invalidInput "agent hub: integration.status task result status is invalid")

/-- `ValidateMetricsTaskResult` -/
def validateMetricsTaskResult (env : Env) (req : TaskResultRequest) (now : Time) :
    Except HubError Unit :=
  match req.status with
  | .completed => do
      require (req.error = [] && req.result.size = 1)
        "agent hub: metrics.read completed result is invalid"
      match req.result.lookup (ascii "data") with
      | none => .error (invalidInput "agent hub: metrics.read result data is required")
      | some data => env.checkMetricsSnapshot data now
  | .failed =>
    require (req.error = ascii "metrics_unavailable" && req.result.size = 0)
      "agent hub: metrics.read failed result is invalid"
  | _ => .error (invalidInput "agent hub: metrics.read result status is invalid")

/-- `profileApplyPayloadRevisionFromTask` -/
def profileApplyPayloadRevisionFromTask (task : Task) : Except HubError Int :=
  profileApplyPayloadRevision task.payload.marshal

def validProfileApplyResultState : Bytes → Bool := isOneOf ["restart_scheduled", "already_active"]

/-- One field of a completed profile apply result. -/
def checkProfileApplyField (revision : Int) (entry : Bytes × Bytes) : Except HubError Unit :=
  if entry.1 = ascii "revision" then
    require (entry.2 = Decimal.formatInt revision)
      "agent hub: profile apply result revision is invalid"
  else if entry.1 = ascii "state" then
    require (validProfileApplyResultState entry.2)
      "agent hub: profile apply result state is invalid"
  else if entry.1 = ascii "error_code" then
    require (isSafeProfileErrorCode entry.2)
      "agent hub: profile apply result error code is invalid"
  else .error (invalidInput "agent hub: profile apply result field is invalid")

/-- `ValidateProfileApplyTaskResult` -/
def validateProfileApplyTaskResult (task : Task) (req : TaskResultRequest) :
    Except HubError Unit := do
  require (task.kind = .profileApply) "agent hub: profile apply result has wrong task kind"
  match profileApplyPayloadRevisionFromTask task with
  | .error _ => .error (invalidInput "agent hub: profile apply task payload is invalid")
  | .ok revision =>
    validateTaskResultRequest req
    match req.status with
    | .completed =>
      require (req.error = [])
        "agent hub: profile apply completed result cannot carry an error"
      req.result.entries.forM (checkProfileApplyField revision)
      require ((req.result.lookup (ascii "revision")).isSome &&
        (req.result.lookup (ascii "state")).isSome)
        "agent hub: profile apply completed result is incomplete"
    | .failed =>
      require (req.result.size = 0 && isSafeProfileErrorCode req.error && req.error ≠ [])
        "agent hub: profile apply failed result must use a safe error code"
    | _ => .error (invalidInput "agent hub: profile apply result status is invalid")

end HeyServer.Hub
