import HeyServer.Deploy.Webhooks
import HeyServer.Lib.Interleaving
import HeyServer.Lib.RowTable

/-!
# Deployment targets and webhook deliveries

The panel answers webhook requests concurrently and may be restarted at any moment. A request
starts a run after it was authenticated, its delivery was registered and the target was found
ready.

## Implementation notes

Calls are made of single statements and file reads. Restarts move secrets that older versions
left in the database into files. `received` and the key of a webhook run are not stored by the
program: they say which requests arrived and which delivery a run was started for. The
checks of the host before a deployment are an argument of the call.
-/

namespace HeyServer.Deploy
open Lib Text Decimal

/-! ## The store -/

/-- A row of `deploy_targets` -/
structure DeployTarget where
  branch : Bytes
  webhookProvider : WebhookProvider
  webhookToken : Bytes
  autoDeploy : Bool
  isActive : Bool
  deriving DecidableEq

/-- The primary key of `deploy_webhook_deliveries` -/
structure DeliveryKey where
  targetId : Nat
  provider : WebhookProvider
  deliveryId : Bytes
  deriving DecidableEq

structure WebhookRequest where
  targetId : Nat
  headers : WebhookHeaders
  body : Bytes
  now : Int
  deriving DecidableEq

/-- The column `trigger`, with the delivery that is behind `webhook`. -/
inductive Trigger
  | manual
  | webhook (key : DeliveryKey)
  deriving DecidableEq

/-- A row of `deploy_runs` -/
structure DeployRun where
  targetId : Nat
  trigger : Trigger
  branch : Bytes
  deriving DecidableEq

structure DeployStore where
  targets : RowTable DeployTarget
  secrets : Nat → Option Bytes
  deliveries : List DeliveryKey
  runs : List DeployRun
  received : List WebhookRequest

def webhookSecretReference (id : Nat) : Bytes :=
  ascii "file:" ++ (ascii "target-" ++ formatNat id ++ ascii ".secret")

inductive DeployOp
  /-- the body of a request is read -/
  | receive (request : WebhookRequest)
  | readTarget (id : Nat)
  | readSecret (id : Nat)
  /-- `INSERT … ON CONFLICT … DO NOTHING` -/
  | registerDelivery (key : DeliveryKey)
  | insertRun (run : DeployRun)
  /-- `SELECT id, webhook_token … WHERE webhook_token <> ''` -/
  | listTokens
  /-- the rename that ends a write -/
  | writeSecret (id : Nat) (secret : Bytes)
  /-- the update of a token that is as it was listed -/
  | setReference (id : Nat) (stored : Bytes)

namespace DeployOp

def Reply : DeployOp → Type
  | receive _ | writeSecret _ _ | setReference _ _ => Unit
  | readTarget _ => Option DeployTarget
  | readSecret _ => Option Bytes
  | registerDelivery _ => Option Bool
  | insertRun _ => Option Nat
  | listTokens => List (Nat × Bytes)

end DeployOp

namespace DeployStore
variable (s : DeployStore)

/-- The insertion of a delivery, with whether it is new; it fails when there is no target. -/
def registerDelivery (key : DeliveryKey) : DeployStore × Option Bool :=
  if (s.targets.get? key.targetId).isNone then (s, none)
  else if key ∈ s.deliveries then (s, some false)
  else ({ s with deliveries := s.deliveries ++ [key] }, some true)

/-- The insertion of a run, with its id; it fails when there is no target. -/
def insertRun (run : DeployRun) : DeployStore × Option Nat :=
  if (s.targets.get? run.targetId).isNone then (s, none)
  else ({ s with runs := s.runs ++ [run] }, some (s.runs.length + 1))

def exec : (op : DeployOp) → DeployStore × op.Reply
  | .receive request => ({ s with received := s.received ++ [request] }, ())
  | .readTarget id => (s, s.targets.get? id)
  | .readSecret id => (s, s.secrets id)
  | .registerDelivery key => s.registerDelivery key
  | .insertRun run => s.insertRun run
  | .listTokens =>
    (s, (s.targets.rows.map fun row => (row.1, row.2.webhookToken)).filter fun row => row.2 ≠ [])
  | .writeSecret id secret => ({ s with secrets := Function.update s.secrets id (some secret) }, ())
  | .setReference id stored =>
    ({ s with
      targets := s.targets.update (fun key row => key = id && row.webhookToken = stored)
        fun row => { row with webhookToken := webhookSecretReference id } }, ())

/-- The secret a token stands for: the file it refers to, or the token of an older version. -/
def secretOf (id : Nat) (token : Bytes) : Option Bytes :=
  if token = [] then none
  else if token = webhookSecretReference id then s.secrets id
  else some token

/-- A target as it is stored, with its secret. -/
def stored (id : Nat) : Option (DeployTarget × Option Bytes) :=
  (s.targets.get? id).map fun row =>
    ({ row with webhookToken := [] }, s.secretOf id row.webhookToken)

end DeployStore

def deploySemantics : Semantics DeployStore DeployOp DeployOp.Reply where
  exec := DeployStore.exec

/-! ## Programs -/

abbrev DeployProg (α : Type) := Prog DeployOp DeployOp.Reply α

inductive WebhookStatus
  | notConfigured | unavailable | healthy
  deriving DecidableEq

/-- What `GetTarget` returns. -/
structure ResolvedTarget where
  row : DeployTarget
  token : Bytes
  status : WebhookStatus

def validateStoredWebhookSecret (secret : Bytes) : Bool :=
  secret ≠ [] && secret.length ≤ 4096 && !containsAny secret (ascii "\r\n\x00")

inductive TriggerError
  | notFound | disabled | preflight | statement
  deriving DecidableEq

inductive DeployResponse
  | bodyTooLarge
  | unknownTarget
  | secretUnavailable
  | notConfigured
  | unauthorized
  | badRequest (detail : Bytes)
  | pong
  | ignored (event : Bytes)
  | alreadyProcessed
  | registrationFailed
  | autoDeployDisabled
  | skipped (ref target : Bytes)
  | refused (error : TriggerError)
  | queued (runId : Nat)
  deriving DecidableEq

section Programs
variable {α : Type} (id : Nat)

def resolveWebhookSecret (stored : Bytes) (next : Bytes → WebhookStatus → DeployProg α) :
    DeployProg α :=
  if stored = [] then next [] .notConfigured
  else if stored ≠ webhookSecretReference id then next [] .unavailable
  else .call (.readSecret id) fun
    | none => next [] .unavailable
    | some secret =>
      if validateStoredWebhookSecret secret then next secret .healthy else next [] .unavailable

def getTarget (next : Option ResolvedTarget → DeployProg α) : DeployProg α :=
  .call (.readTarget id) fun
    | none => next none
    | some row => resolveWebhookSecret id row.webhookToken fun token status =>
      next (some ⟨row, token, status⟩)

def requireEligible (eligible : Bool) (next : Except TriggerError Unit → DeployProg α) :
    DeployProg α :=
  getTarget id fun
    | none => next (.error .notFound)
    | some target =>
      if target.row.isActive && eligible then next (.ok ()) else next (.error .preflight)

def triggerDeploy (trigger : Trigger) (eligible : Bool)
    (next : Except TriggerError Nat → DeployProg α) : DeployProg α :=
  getTarget id fun
    | none => next (.error .notFound)
    | some target =>
      if !target.row.isActive then next (.error .disabled)
      else requireEligible id eligible fun
        | .error e => next (.error e)
        | .ok () => .call (.insertRun ⟨id, trigger, target.row.branch⟩) fun
            | none => next (.error .statement)
            | some runId => next (.ok runId)

/-- The answer to a request for a deployment. -/
def respond : Except TriggerError Nat → DeployProg DeployResponse
  | .error e => .done (.refused e)
  | .ok runId => .done (.queued runId)

def registerWebhookDelivery (key : DeliveryKey) (next : DeployProg DeployResponse) :
    DeployProg DeployResponse :=
  match key.provider with
  | .other _ => .done (.badRequest (ascii "unsupported provider"))
  | _ =>
    if !validWebhookDeliveryID key.deliveryId then .done (.badRequest (ascii "invalid delivery ID"))
    else .call (.registerDelivery key) fun
      | none => .done .registrationFailed
      | some false => .done .alreadyProcessed
      | some true => next

/-- The end of `handleDeployWebhook`, for a delivery that was authenticated. -/
def deployDelivery (row : DeployTarget) (delivery : WebhookDelivery) (eligible : Bool) :
    DeployProg DeployResponse :=
  if delivery.event = ascii "ping" then .done .pong
  else if delivery.event ≠ ascii "push" then .done (.ignored delivery.event)
  else
    let key : DeliveryKey := ⟨id, delivery.provider, delivery.deliveryId⟩
    registerWebhookDelivery key <|
      if !row.autoDeploy || !row.isActive then .done .autoDeployDisabled
      else if delivery.ref ≠ headsPath ++ row.branch then
        .done (.skipped delivery.ref (headsPath ++ row.branch))
      else triggerDeploy id (.webhook key) eligible respond

def handleDeployWebhook (env : WebhookEnv) (request : WebhookRequest) (eligible : Bool) :
    DeployProg DeployResponse :=
  .call (.receive request) fun _ =>
    if 10 * 1024 * 1024 < request.body.length then .done .bodyTooLarge
    else getTarget request.targetId fun
      | none => .done .unknownTarget
      | some target =>
        if target.token = [] then
          if target.status = .unavailable then .done .secretUnavailable else .done .notConfigured
        else
          match authenticateWebhook env target.row.webhookProvider target.token request.headers
            request.body request.now with
          | .error (.authentication _) => .done .unauthorized
          | .error (.request detail) => .done (.badRequest detail)
          | .ok delivery => deployDelivery request.targetId target.row delivery eligible

/-- `POST /api/deploy/manual/{targetId}` -/
def handleDeployManual (eligible : Bool) : DeployProg DeployResponse :=
  triggerDeploy id .manual eligible respond

inductive StartupError
  | invalidReference (id : Nat)
  | invalidSecret (id : Nat)
  deriving DecidableEq

/-- `migrateWebhookSecrets` for the tokens it has listed. -/
def migrateWebhookSecrets : List (Nat × Bytes) → DeployProg (Except StartupError Unit)
  | [] => .done (.ok ())
  | (id, stored) :: rest =>
    if stored = webhookSecretReference id then migrateWebhookSecrets rest
    else if (ascii "file:").isPrefixOf stored then .done (.error (.invalidReference id))
    else if validateStoredWebhookSecret stored then
      .call (.writeSecret id stored) fun _ => .call (.setReference id stored) fun _ =>
        migrateWebhookSecrets rest
    else .done (.error (.invalidSecret id))

/-- The start of the deployment service. -/
def newService : DeployProg (Except StartupError Unit) :=
  .call .listTokens fun tokens => migrateWebhookSecrets tokens

end Programs

inductive DeployCall
  | webhook (request : WebhookRequest) (eligible : Bool)
  | manual (id : Nat) (eligible : Bool)

/-- The panel with its deployment targets. -/
def deploySystem (env : WebhookEnv) :
    System DeployStore DeployOp DeployOp.Reply DeployCall DeployResponse where
  sem := deploySemantics
  program
    | .webhook request eligible => handleDeployWebhook env request eligible
    | .manual id eligible => handleDeployManual id eligible

end HeyServer.Deploy
