import HeyServer.Deploy.Staging
import HeyServer.Lib.Base64
import HeyServer.Lib.Fallible
import HeyServer.Lib.IpAddr
import HeyServer.Lib.Text

/-!
# Webhook authentication

A provider signs the body of a delivery with the secret of the target. GitHub signs the body
alone; GitLab signs the delivery id, a time and the body. An accepted delivery is reduced to
its provider, id, event and ref.

## Implementation notes

The keyed hash and the decoding of a body into `ref` are parameters. A timestamp is compared as
whole nanoseconds: where the difference of two times saturates it is outside the window on the
same side.
-/

namespace HeyServer.Deploy
open Lib Utf8 Text List

/-- `DeployWebhookProvider` -/
inductive WebhookProvider
  | gitHub
  | gitLab
  | other (name : Bytes)
  deriving DecidableEq

structure WebhookHeaders where
  gitHubEvent : Bytes
  gitHubDelivery : Bytes
  gitHubSignature : Bytes
  gitLabEvent : Bytes
  gitLabWebhookId : Bytes
  gitLabTimestamp : Bytes
  gitLabSignatures : Bytes
  deriving DecidableEq

structure WebhookDelivery where
  provider : WebhookProvider
  deliveryId : Bytes
  event : Bytes
  ref : Bytes
  deriving DecidableEq

/-- `ErrWebhookAuthentication` and `ErrWebhookRequest`, with what was wrong. -/
inductive WebhookError
  | authentication (detail : Bytes)
  | request (detail : Bytes)
  deriving DecidableEq

/-- What authentication takes from elsewhere: the keyed hash, and the `ref` of a JSON body, if
it decodes. -/
structure WebhookEnv where
  hmac : Bytes → Bytes → Bytes
  payloadRef : Bytes → Option Bytes

/-- The head of a ref that names a branch. -/
def headsPath : Bytes := ascii "refs/heads/"

/-! ## Checks -/

/-- `webhookDeliveryPattern`: `^[A-Za-z0-9][A-Za-z0-9_.:-]{0,127}$` -/
def validWebhookDeliveryID (value : Bytes) : Bool :=
  value.head?.any isAlnum && value.length ≤ 128 &&
    value.all fun b => isAlnum b || (ascii "_.:-").contains b

/-- `hex.DecodeString` -/
def decodeHex : Bytes → Option Bytes
  | [] => some []
  | a :: b :: rest => do
      return UInt8.ofNat ((← IpAddr.hexValue a) * 16 + (← IpAddr.hexValue b)) :: (← decodeHex rest)
  | [_] => none

section Env
variable (env : WebhookEnv)

def verifySignature (secret signature body : Bytes) : Bool :=
  if (ascii "sha256=").isPrefixOf signature then
    match decodeHex (trimPrefix signature (ascii "sha256=")) with
    | none => false
    | some received => env.hmac secret body = received
  else false

def webhookPushRef (body : Bytes) : Except WebhookError Bytes :=
  match env.payloadRef body with
  | none => .error (.request (ascii "push body must be valid JSON"))
  | some decoded =>
    let ref := trimSpace decoded
    if !headsPath.isPrefixOf ref || 266 < ref.length ||
      !Staging.validGitBranch (trimPrefix ref headsPath) then
      .error (.request (ascii "push ref is invalid"))
    else .ok ref

def decodeGitLabSigningSecret (secret : Bytes) : Option Bytes :=
  if (ascii "whsec_").isPrefixOf secret then
    let encoded := trimPrefix secret (ascii "whsec_")
    if encoded = [] || 1024 < encoded.length then none
    else
      ((Base64.decode encoded).orElse fun _ => Base64.decodeRaw encoded).filter fun key =>
        16 ≤ key.length && key.length ≤ 512
  else none

/-! ## Providers -/

def authenticateGitHubWebhook (secret : Bytes) (headers : WebhookHeaders) (body : Bytes) :
    Except WebhookError WebhookDelivery :=
  if secret = [] || !verifySignature env secret headers.gitHubSignature body then
    .error (.authentication (ascii "invalid GitHub signature"))
  else
    let event := trimSpace headers.gitHubEvent
    if event = [] || 64 < event.length then .error (.request (ascii "invalid GitHub event"))
    else if event ≠ ascii "push" then .ok ⟨.gitHub, [], event, []⟩
    else if !validWebhookDeliveryID headers.gitHubDelivery then
      .error (.request (ascii "invalid GitHub delivery ID"))
    else do
      let ref ← webhookPushRef env body
      .ok ⟨.gitHub, headers.gitHubDelivery, event, ref⟩

/-- `gitLabWebhookClockSkew`, in nanoseconds. -/
def gitLabWebhookClockSkew : Int := 5 * 60 * 1000000000

/-- The text GitLab signs. -/
def gitLabMessage (headers : WebhookHeaders) (body : Bytes) : Bytes :=
  headers.gitLabWebhookId ++ ascii "." ++ headers.gitLabTimestamp ++ ascii "." ++ body

/-- One of the signatures is the expected one. -/
def verifyGitLabSignatures (expected signatures : Bytes) : Bool :=
  (fields signatures).any fun signature =>
    (ascii "v1,").isPrefixOf signature &&
      Base64.decode (trimPrefix signature (ascii "v1,")) = some expected

def authenticateGitLabWebhook (secret : Bytes) (headers : WebhookHeaders) (body : Bytes)
    (now : Int) :
    Except WebhookError WebhookDelivery :=
  match decodeGitLabSigningSecret secret with
  | none => .error (.authentication (ascii "invalid GitLab signing token"))
  | some key =>
    if !validWebhookDeliveryID headers.gitLabWebhookId then
      .error (.request (ascii "invalid GitLab webhook ID"))
    else
      match Decimal.parseInt headers.gitLabTimestamp with
      | none => .error (.request (ascii "invalid GitLab timestamp"))
      | some timestamp =>
        let delta := now - timestamp * 1000000000
        if delta < -gitLabWebhookClockSkew || gitLabWebhookClockSkew < delta then
          .error (.authentication (ascii "GitLab timestamp is outside the five-minute window"))
        else if !verifyGitLabSignatures (env.hmac key (gitLabMessage headers body))
            headers.gitLabSignatures then
          .error (.authentication (ascii "invalid GitLab signature"))
        else
          let event := trimSpace headers.gitLabEvent
          if event = [] || 64 < event.length then
            .error (.request (ascii "invalid GitLab event"))
          else if event ≠ ascii "Push Hook" then
            .ok ⟨.gitLab, headers.gitLabWebhookId, event, []⟩
          else do
            let ref ← webhookPushRef env body
            .ok ⟨.gitLab, headers.gitLabWebhookId, ascii "push", ref⟩

variable (provider : WebhookProvider)

def authenticateWebhook (secret : Bytes) (headers : WebhookHeaders)
    (body : Bytes) (now : Int) : Except WebhookError WebhookDelivery :=
  match provider with
  | .gitHub => authenticateGitHubWebhook env secret headers body
  | .gitLab => authenticateGitLabWebhook env secret headers body now
  | .other _ => .error (.request (ascii "unsupported provider"))

/-! ## What an accepted push tells -/

/-- The delivery carries a signature of its body under the secret. -/
def Signed (secret : Bytes) (headers : WebhookHeaders) (body : Bytes) : Prop :=
  match provider with
  | .gitHub => ∃ digest, headers.gitHubSignature = ascii "sha256=" ++ digest ∧
      decodeHex digest = some (env.hmac secret body)
  | .gitLab => ∃ key encoded, decodeGitLabSigningSecret secret = some key ∧
      ascii "v1," ++ encoded ∈ fields headers.gitLabSignatures ∧
      Base64.decode encoded = some (env.hmac key (gitLabMessage headers body))
  | .other _ => False

/-- The event header of a push. -/
def IsPush (headers : WebhookHeaders) : Prop :=
  match provider with
  | .gitHub => trimSpace headers.gitHubEvent = ascii "push"
  | .gitLab => trimSpace headers.gitLabEvent = ascii "Push Hook"
  | .other _ => False

/-- The id of the delivery in its headers. -/
def headerDeliveryId (headers : WebhookHeaders) : Bytes :=
  match provider with
  | .gitHub => headers.gitHubDelivery
  | .gitLab => headers.gitLabWebhookId
  | .other _ => []

theorem append_of_isPrefixOf {start s : Bytes} (h : start.isPrefixOf s = true) :
    s = start ++ trimPrefix s start := by
  obtain ⟨rest, rfl⟩ := isPrefixOf_iff_prefix.mp h
  rw [trimPrefix, if_pos h, drop_left]

variable {env}

theorem verifySignature_eq_true {secret signature body : Bytes}
    (h : verifySignature env secret signature body = true) :
    ∃ digest, signature = ascii "sha256=" ++ digest ∧
      decodeHex digest = some (env.hmac secret body) := by
  unfold verifySignature at h
  split_ifs at h with hstart
  refine ⟨_, append_of_isPrefixOf hstart, ?_⟩
  split at h
  · cases h
  · next hdecoded => rw [hdecoded, of_decide_eq_true h]

theorem verifyGitLabSignatures_eq_true {expected signatures : Bytes}
    (h : verifyGitLabSignatures expected signatures = true) :
    ∃ encoded, ascii "v1," ++ encoded ∈ fields signatures ∧
      Base64.decode encoded = some expected := by
  obtain ⟨signature, hmem, hsignature⟩ := any_eq_true.mp h
  rw [Bool.and_eq_true] at hsignature
  refine ⟨trimPrefix signature (ascii "v1,"), ?_, of_decide_eq_true hsignature.2⟩
  rwa [← append_of_isPrefixOf hsignature.1]

theorem webhookPushRef_eq_ok {body ref : Bytes} (h : webhookPushRef env body = .ok ref) :
    ∃ decoded, env.payloadRef body = some decoded ∧ trimSpace decoded = ref := by
  unfold webhookPushRef at h
  split at h
  · cases h
  · next decoded hdecoded => exact ⟨decoded, hdecoded, Except.ok.inj (ite_error_eq_ok.mp h).2⟩

/-- A delivery that is accepted as a push to a branch was signed with the secret, and its
headers and body say so. -/
structure Accepted (env : WebhookEnv) (provider : WebhookProvider) (secret : Bytes)
    (headers : WebhookHeaders) (body branch : Bytes) (delivery : WebhookDelivery) : Prop where
  signed : Signed env provider secret headers body
  push : IsPush provider headers
  ref : ∃ decoded, env.payloadRef body = some decoded ∧ trimSpace decoded = headsPath ++ branch
  provider_eq : delivery.provider = provider
  deliveryId_eq : delivery.deliveryId = headerDeliveryId provider headers

theorem headsPath_append_ne_nil (branch : Bytes) : headsPath ++ branch ≠ [] := by
  intro h
  exact absurd (append_eq_nil_iff.mp h).1 (by decide)

section Accepted
variable {secret : Bytes} {headers : WebhookHeaders} {body branch : Bytes} {now : Int}
  {delivery : WebhookDelivery}

theorem accepted_gitHub (h : authenticateGitHubWebhook env secret headers body = .ok delivery)
    (hevent : delivery.event = ascii "push") (href : delivery.ref = headsPath ++ branch) :
    Accepted env .gitHub secret headers body branch delivery := by
  obtain ⟨hverified, h⟩ := ite_error_eq_ok.mp h
  obtain ⟨-, h⟩ := ite_error_eq_ok.mp h
  simp only [Bool.or_eq_true, not_or, Bool.not_eq_true', Bool.not_eq_false] at hverified
  split at h
  · next hpush =>
    cases h
    exact absurd hevent hpush
  next hpush =>
  obtain ⟨-, h⟩ := ite_error_eq_ok.mp h
  obtain ⟨ref, hbody, h⟩ := bind_eq_ok.mp h
  cases h
  obtain ⟨decoded, hdecoded, htrimmed⟩ := webhookPushRef_eq_ok hbody
  exact ⟨verifySignature_eq_true hverified.2, not_not.mp hpush,
    ⟨decoded, hdecoded, htrimmed.trans href⟩, rfl, rfl⟩

theorem accepted_gitLab (h : authenticateGitLabWebhook env secret headers body now = .ok delivery)
    (href : delivery.ref = headsPath ++ branch) :
    Accepted env .gitLab secret headers body branch delivery := by
  unfold authenticateGitLabWebhook at h
  split at h
  · cases h
  · next key hkey =>
    obtain ⟨-, h⟩ := ite_error_eq_ok.mp h
    split at h
    · cases h
    · obtain ⟨-, h⟩ := ite_error_eq_ok.mp h
      obtain ⟨hverified, h⟩ := ite_error_eq_ok.mp h
      obtain ⟨-, h⟩ := ite_error_eq_ok.mp h
      rw [Bool.not_eq_true', Bool.not_eq_false] at hverified
      obtain ⟨encoded, hmem, hencoded⟩ := verifyGitLabSignatures_eq_true hverified
      -- an event that is not a push hook has no ref, even when its header says push
      split at h
      · cases h
        exact absurd href.symm (headsPath_append_ne_nil branch)
      next hpush =>
      obtain ⟨ref, hbody, h⟩ := bind_eq_ok.mp h
      cases h
      obtain ⟨decoded, hdecoded, htrimmed⟩ := webhookPushRef_eq_ok hbody
      exact ⟨⟨key, encoded, hkey, hmem, hencoded⟩, not_not.mp hpush,
        ⟨decoded, hdecoded, htrimmed.trans href⟩, rfl, rfl⟩

theorem accepted_of_authenticateWebhook {provider : WebhookProvider}
    (h : authenticateWebhook env provider secret headers body now = .ok delivery)
    (hevent : delivery.event = ascii "push") (href : delivery.ref = headsPath ++ branch) :
    Accepted env provider secret headers body branch delivery := by
  cases provider with
  | gitHub => exact accepted_gitHub h hevent href
  | gitLab => exact accepted_gitLab h href
  | other name => cases h

end Accepted

end Env

end HeyServer.Deploy
