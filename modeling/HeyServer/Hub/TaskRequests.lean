import HeyServer.Hub.Heartbeat

/-!
# Agent hub: task requests

`ValidateTaskRequest`, the allowlist gate for tasks the panel creates, with the
field checks it uses.

## Implementation notes

The checks that differ only in their bounds and characters are one definition;
each keeps its own name and values.
-/

namespace HeyServer.Hub
open Lib Text
open Json (asText asBool)

def maxTaskPayloadValueLength : Nat := 255
def maxNginxConfigBytes : Nat := 2097152
def maxEncodedNginxConfigSize : Nat := (maxNginxConfigBytes + 2) / 3 * 4
def maxManagedPathLength : Nat := 4096
def maxCronJobBytes : Nat := 8192
def maxEncodedCronJobSize : Nat := (maxCronJobBytes + 2) / 3 * 4
def maxFirewallRuleBytes : Nat := 1024
def maxEncodedFirewallSize : Nat := (maxFirewallRuleBytes + 2) / 3 * 4

/-! ## Field checks -/

/-- The text is one of a fixed list. -/
def isOneOf (names : List String) (value : Bytes) : Bool := names.any fun name => value = ascii name

/-- A bounded name of letters, digits and, after the first, some other characters. -/
def validName (bound : Nat) (others : String) (value : Bytes) : Bool :=
  value ≠ [] && value.length ≤ bound &&
    runesMatch asciiLetterOrDigit (fun r => asciiLetterOrDigit r || oneOf others r) value

def validContainerName : Bytes → Bool := validName 128 "_.-"
def validNginxConfigName : Bytes → Bool := validName 255 "._-"
def validPhpPool : Bytes → Bool := validName 128 "._-"
def validPm2Name : Bytes → Bool := validName 128 "._:@-"

def validUnitName (value : Bytes) : Bool :=
  value ≠ [] && value.length ≤ maxTaskPayloadValueLength && trimSpace value = value &&
    runesMatch asciiLetterOrDigit
      (fun r => (asciiLetterOrDigit r || oneOf ":_.@-" r) && !isSpaceRune r &&
        !isControlRune r) value

def validContainerAction : Bytes → Bool := isOneOf ["start", "stop", "restart"]
def validDeployAction : Bytes → Bool := isOneOf ["preflight", "deploy", "restart", "rollback"]
def validDeployDomainAction : Bytes → Bool :=
  isOneOf ["create", "delete", "ensure", "tls-enable", "tls-disable", "tls-renew"]
def validPhpAction : Bytes → Bool := isOneOf ["test", "reload", "restart"]
def validPm2Action : Bytes → Bool := isOneOf ["start", "stop", "restart", "reload"]
def validDatabaseEngine : Bytes → Bool := isOneOf ["mariadb", "postgresql"]

def isLowerHexRune (r : Nat) : Bool := (0x30 ≤ r && r ≤ 0x39) || (0x61 ≤ r && r ≤ 0x66)

def validSha256 (value : Bytes) : Bool := value.length = 64 && (Utf8.runes value).all isLowerHexRune

/-- A fixed prefix and twelve lower-case hex digits. -/
def validHexId (start : String) (value : Bytes) : Bool :=
  value.length = (ascii start).length + 12 && (ascii start).isPrefixOf value &&
    (Utf8.runes (value.drop (ascii start).length)).all isLowerHexRune

def validCronId : Bytes → Bool := validHexId "cron-"
def validFirewallId : Bytes → Bool := validHexId "fw-"

def validDomainLabel (label : Bytes) : Bool :=
  label ≠ [] && label.length ≤ 63 && label.head? ≠ some 0x2D && label.getLast? ≠ some 0x2D &&
    (Utf8.runes label).all fun r =>
      (0x61 ≤ r && r ≤ 0x7A) || (0x30 ≤ r && r ≤ 0x39) || r = 0x2D

section
variable (value : Bytes)

def validDeployDomainName : Bool :=
  value ≠ [] && value.length ≤ 253 && value.head? ≠ some 0x2E && value.getLast? ≠ some 0x2E &&
    2 ≤ (split 0x2E value).length && (split 0x2E value).all validDomainLabel

def validNginxConfigContent (content : Bytes) : Bool :=
  Utf8.valid content && content.all fun b => !(b < 0x20 && b ≠ 0x0A && b ≠ 0x0D && b ≠ 0x09)

/-- Base64 text of valid configuration content within the size limit. -/
def validEncodedContent (encoded : Bytes) : Bool :=
  match Base64.decode encoded with
  | none => false
  | some content => content.length ≤ maxNginxConfigBytes && validNginxConfigContent content

def validPhpVersion : Bool :=
  match split 0x2E value with
  | [major, minor] =>
    major ≠ [] && minor ≠ [] &&
      ([major, minor].all fun part => (Utf8.runes part).all fun r => 0x30 ≤ r && r ≤ 0x39) &&
      value.length ≤ 16
  | _ => false

def validManagedAbsolutePath : Bool :=
  1 < value.length && value.length ≤ maxManagedPathLength && isAbs value &&
    clean value = value && !value.contains 0

/-- Distinct known cleanup targets. -/
def validDiskCleanupTargets : Bool :=
  (split 0x2C value).length ≤ 4 &&
    (split 0x2C value).all (isOneOf ["apt-cache", "journal", "tmp-old", "rotated-logs"]) &&
    (split 0x2C value).Nodup

/-- A canonical line count between 1 and 500. -/
def validLineCount : Bool :=
  match Decimal.parseInt value with
  | none => false
  | some lines => 1 ≤ lines && lines ≤ 500 && Decimal.formatInt lines = value

end

def safeToken (env : Env) (value : Bytes) : Bool :=
  value ≠ [] && (Utf8.runes value).all fun r => env.isLetterOrDigit r || oneOf "_-" r

def validSystemUser (value : Bytes) : Bool :=
  value ≠ [] && value.length ≤ 32 &&
    runesMatch (fun r => (0x61 ≤ r && r ≤ 0x7A) || r = 0x5F)
      (fun r => (0x61 ≤ r && r ≤ 0x7A) || r = 0x5F || (0x30 ≤ r && r ≤ 0x39) || r = 0x2D) value

/-! ## Encoded cron jobs and firewall rules -/

/-- The distinct keys of an object lie in a list and their number within bounds. -/
def closedKeys (members : Fields) (known : List String) (least : Nat) : Bool :=
  (members.map Prod.fst).dedup.length ≥ least &&
    (members.map Prod.fst).dedup.length ≤ known.length &&
    (members.map Prod.fst).all (isOneOf known)

def hasKey (members : Fields) (key : String) : Bool :=
  (members.map Prod.fst).contains (ascii key)

/-- `json.Unmarshal` of one struct field: members under its key are taken in order, `null`
keeps the value and a value of another type is an error. -/
def structField {α : Type} (read : Json → Option α) (zero : α) (members : Fields) (key : String) :
    Option α :=
  (members.filter fun m => m.1 = ascii key).foldl
    (fun acc m =>
      match acc, m.2 with
      | none, _ => none
      | some a, .null => some a
      | some _, value => read value)
    (some zero)

def lineBreaks : Bytes := [0x0D, 0x0A, 0x00]

def validCronJob (members : Fields) (requireId : Bool) : Bool :=
  match structField asText [] members "id", structField asText [] members "schedule",
    structField asText [] members "user", structField asText [] members "command",
    structField asText [] members "description", structField asBool false members "enabled" with
  | some id, some schedule, some user, some command, some description, some _ =>
    (["schedule", "user", "command", "enabled"].all (hasKey members)) &&
      (if requireId then validCronId id else id = []) && validSystemUser user &&
      command ≠ [] && command.length ≤ 4096 && !containsAny command lineBreaks &&
      description.length ≤ 160 && !containsAny description lineBreaks &&
      schedule.length ≤ 160 && !containsAny schedule lineBreaks &&
      fieldCount schedule = 5
  | _, _, _, _, _, _ => false

/-- The object in a bounded base64 text. -/
def encodedObject (encoded : Bytes) (maxBytes : Nat) : Option Fields :=
  match Base64.decode encoded with
  | none => none
  | some raw =>
    if raw = [] ∨ maxBytes < raw.length ∨ !Utf8.valid raw then none
    else
      match Json.parse raw with
      | some (.obj members) => some members
      | _ => none

def validCronJobPayload (encoded : Bytes) (requireId : Bool) : Bool :=
  match encodedObject encoded maxCronJobBytes with
  | none => false
  | some members =>
    closedKeys members ["id", "schedule", "user", "command", "description", "enabled"] 4 &&
      validCronJob members requireId

/-- No source, or an IPv4 address or network. -/
def validFirewallSource (env : Env) (source : Bytes) : Bool :=
  if source = [] then true
  else
    match env.parseIp source with
    | some v4 => v4
    | none => env.parseCidr source = some true

def validFirewallRulePayload (env : Env) (encoded : Bytes) : Bool :=
  match encodedObject encoded maxFirewallRuleBytes with
  | none => false
  | some members =>
    closedKeys members ["action", "protocol", "port", "source", "comment"] 2 &&
      hasKey members "action" && hasKey members "protocol" &&
      match structField asText [] members "action", structField asText [] members "protocol",
        structField Decimal.readInt 0 members "port", structField asText [] members "source",
        structField asText [] members "comment" with
      | some action, some protocol, some port, some source, some comment =>
        isOneOf ["ACCEPT", "DROP"] action && isOneOf ["tcp", "udp", "all"] protocol &&
          (if protocol = ascii "all" then port = 0 else 0 ≤ port && port ≤ 65535) &&
          comment.length ≤ 80 && !containsAny comment lineBreaks &&
          validFirewallSource env source
      | _, _, _, _, _ => false

/-! ## Release versions -/

inductive ReleaseState
  | current | behind | ahead | unknown
  deriving DecidableEq

/-- `releaseversion.parse`: three numbers, without a suffix. -/
def parseRelease (value : Bytes) : Option (Nat × Nat × Nat) :=
  let normalized := trimPrefix (trimSpace value) (ascii "v")
  if containsAny normalized (ascii "-+") then none
  else
    match (split 0x2E normalized).map Decimal.parseUint with
    | [some major, some minor, some patch] => some (major, minor, patch)
    | _ => none

/-- `releaseversion.Compare` -/
def compareReleases (candidate current : Bytes) : ReleaseState :=
  match parseRelease candidate, parseRelease current with
  | some (a, b, c), some (x, y, z) =>
    if a < x then .behind else if x < a then .ahead
    else if b < y then .behind else if y < b then .ahead
    else if c < z then .behind else if z < c then .ahead
    else .current
  | _, _ => .unknown

/-! ## The gate -/

/-- Kinds the panel may create; profile applies have their own endpoint. -/
def isPanelTask : TaskKind → Bool
  | .profileApply | .other _ => false
  | _ => true

/-- Kinds that may come without any payload. -/
def allowsEmptyPayload : TaskKind → Bool
  | .diskCleanupScan | .containerList | .nginxConfigList | .phpInventory | .pm2List
  | .cronInventory | .firewallInventory | .domainInventory | .sslInventory
  | .databaseInventory | .backupInventory | .deployInventory | .agentUpdateStatus
  | .integrationStatus | .metricsRead => true
  | _ => false

variable (kind : TaskKind)

/-- The kinds and keys whose values are encoded files, cron jobs or firewall rules. -/
def encodedValueLimit (key : Bytes) : Option Nat :=
  if (kind = .nginxConfigWrite ∨ kind = .phpConfigWrite) ∧ key = ascii "content_b64" then
    some maxEncodedNginxConfigSize
  else if (kind = .cronCreate ∨ kind = .cronUpdate) ∧ key = ascii "job_b64" then
    some maxEncodedCronJobSize
  else if kind = .firewallAdd ∧ key = ascii "rule_b64" then some maxEncodedFirewallSize
  else if kind = .filesWrite ∧ key = ascii "content_b64" then some maxEncodedNginxConfigSize
  else none

def isManagedPath (key : Bytes) : Bool :=
  (kind = .filesBrowse || kind = .filesRead || kind = .filesWrite) && key = ascii "path"

/-- One entry of a payload. An encoded value may be empty, any other may not. -/
def validPayloadEntry (env : Env) (kind : TaskKind) (entry : Bytes × Bytes) : Bool :=
  let plainLimit :=
    if isManagedPath kind entry.1 then maxManagedPathLength else maxTaskPayloadValueLength
  entry.1 ≠ [] && entry.1.length ≤ maxTaskPayloadValueLength && safeToken env entry.1 &&
    !containsControl entry.2 &&
    match encodedValueLimit kind entry.1 with
    | some limit => entry.2.length ≤ limit
    | none => entry.2 ≠ [] && entry.2.length ≤ plainLimit

variable (payload : StrMap)

/-- The value of a payload key. -/
def field (key : String) : Bytes := payload.get (ascii key)

/-- A kind without payload fields. -/
def requireNoPayload (payload : StrMap) : Except HubError Unit :=
  if payload.size = 0 then .ok ()
  else .error (.wrapped (ascii "agent hub: " ++ kind.text ++
    ascii " does not accept payload fields") .invalidInput)

def checkDeployDomainAction : Except HubError Unit :=
  if field payload "action" = ascii "ensure" then do
    require (payload.size = 4 && validNginxConfigName (field payload "target") &&
      validDeployDomainName (field payload "domain") &&
      (validSha256 (field payload "expected_revision") ||
        field payload "expected_revision" = ascii "absent"))
      "agent hub: deploy.domain.action ensure requires a valid target, domain, and expected revision"
    require (payload.entries.all fun entry =>
      isOneOf ["target", "domain", "action", "expected_revision"] entry.1)
      "agent hub: deploy.domain.action ensure has an invalid field"
  else
    let minimumFields :=
      if field payload "action" = ascii "tls-enable" ∧ field payload "email" ≠ [] then 4 else 3
    require (payload.size = minimumFields && validNginxConfigName (field payload "target") &&
      validDeployDomainName (field payload "domain") &&
      validDeployDomainAction (field payload "action"))
      "agent hub: deploy.domain.action requires a valid target, domain, and fixed action"

def checkAgentUpdateAction : Except HubError Unit :=
  if field payload "action" = ascii "upgrade" then
    require (payload.size = 2 &&
      compareReleases (field payload "version") (field payload "version") = .current)
      "agent hub: agent.update.action upgrade requires an exact stable version"
  else if field payload "action" = ascii "rollback" then
    require (payload.size = 1)
      "agent hub: agent.update.action rollback accepts only the action field"
  else .error (invalidInput "agent hub: agent.update.action requires upgrade or rollback")

def validReload (value : Bytes) : Bool := isOneOf ["true", "false"] value

/-- The fields each kind requires. -/
def checkTaskFields (env : Env) (kind : TaskKind) (payload : StrMap) : Except HubError Unit :=
  match kind with
  | .serviceStatus => do
      require (payload.size = 1 && field payload "service" ≠ [])
        "agent hub: service.status requires service"
      require (validUnitName (field payload "service")) "agent hub: invalid systemd unit"
  | .serviceAction => do
      require (payload.size = 2 && field payload "service" ≠ [] && field payload "action" ≠ [])
        "agent hub: service.action requires service and action"
      require (validUnitName (field payload "service")) "agent hub: invalid systemd unit"
      require (isOneOf ["start", "stop", "restart"] (field payload "action"))
        "agent hub: unsupported service action"
  | .hostAction => do
      require (payload.size = 1 && field payload "action" ≠ [])
        "agent hub: host.action requires action"
      require (isOneOf ["memory-optimize", "swap-reset", "temp-clean", "reboot", "reboot-cancel"]
        (field payload "action")) "agent hub: unsupported host action"
  | .processSignal => do
      require (payload.size = 3 && field payload "pid" ≠ [] && field payload "start_time" ≠ [] &&
        field payload "signal" ≠ []) "agent hub: process.signal requires pid, start_time, and signal"
      require ((Decimal.parseInt (field payload "pid")).any (1 < ·) &&
        (Decimal.parseUint (field payload "start_time")).any (· ≠ 0))
        "agent hub: invalid process identity"
      require (isOneOf ["term", "kill"] (field payload "signal"))
        "agent hub: unsupported process signal"
  | .diskCleanupExecute =>
    require (payload.size = 1 && validDiskCleanupTargets (field payload "targets"))
      "agent hub: disk.cleanup.execute requires valid targets"
  | .logsRead =>
    require (payload.size = 2 && validLogSource (field payload "source") &&
      validLineCount (field payload "lines"))
      "agent hub: logs.read requires a valid source and lines between 1 and 500"
  | .containerAction =>
    require (payload.size = 2 && validContainerName (field payload "container") &&
      validContainerAction (field payload "action"))
      "agent hub: container.action requires a valid container and action"
  | .nginxAction =>
    require (payload.size = 1 && isOneOf ["test", "reload"] (field payload "action"))
      "agent hub: nginx.action requires test or reload"
  | .nginxConfigRead =>
    require (payload.size = 1 && validNginxConfigName (field payload "name"))
      "agent hub: nginx.config.read requires a valid name"
  | .nginxConfigWrite => do
      require (payload.size = 4 && validNginxConfigName (field payload "name") &&
        validSha256 (field payload "checksum") && validReload (field payload "reload"))
        "agent hub: nginx.config.write requires valid name, content, checksum, and reload fields"
      require (validEncodedContent (field payload "content_b64"))
        "agent hub: nginx.config.write content is invalid or too large"
  | .phpConfigRead =>
    require (payload.size = 2 && validPhpVersion (field payload "version") &&
      validPhpPool (field payload "pool"))
      "agent hub: php.config.read requires a valid version and pool"
  | .phpConfigWrite => do
      require (payload.size = 5 && validPhpVersion (field payload "version") &&
        validPhpPool (field payload "pool") && validSha256 (field payload "checksum") &&
        validReload (field payload "reload"))
        "agent hub: php.config.write requires valid version, pool, content, checksum, and reload fields"
      require (validEncodedContent (field payload "content_b64"))
        "agent hub: php.config.write content is invalid or too large"
  | .phpAction =>
    require (payload.size = 2 && validPhpVersion (field payload "version") &&
      validPhpAction (field payload "action"))
      "agent hub: php.action requires a valid version and action"
  | .pm2Logs =>
    require (payload.size = 2 && validPm2Name (field payload "name") &&
      validLineCount (field payload "lines"))
      "agent hub: pm2.logs requires a valid name and canonical line count"
  | .pm2Action =>
    require (payload.size = 2 && validPm2Name (field payload "name") &&
      validPm2Action (field payload "action"))
      "agent hub: pm2.action requires a valid name and action"
  | .cronCreate =>
    require (payload.size = 2 && validSha256 (field payload "revision") &&
      validCronJobPayload (field payload "job_b64") false)
      "agent hub: cron write requires a valid job and revision"
  | .cronUpdate =>
    require (payload.size = 2 && validSha256 (field payload "revision") &&
      validCronJobPayload (field payload "job_b64") true)
      "agent hub: cron write requires a valid job and revision"
  | .cronDelete =>
    require (payload.size = 2 && validCronId (field payload "id") &&
      validSha256 (field payload "revision"))
      "agent hub: cron.delete requires a valid id and revision"
  | .cronRun =>
    require (payload.size = 1 && validCronId (field payload "id"))
      "agent hub: cron.run requires a valid id"
  | .firewallAdd =>
    require (payload.size = 2 && validSha256 (field payload "revision") &&
      validFirewallRulePayload env (field payload "rule_b64"))
      "agent hub: firewall.add requires a valid rule and revision"
  | .firewallDelete =>
    require (payload.size = 2 && validFirewallId (field payload "id") &&
      validSha256 (field payload "revision"))
      "agent hub: firewall.delete requires a valid id and revision"
  | .domainAction =>
    require (payload.size = 2 && validNginxConfigName (field payload "config") &&
      isOneOf ["enable", "disable"] (field payload "action"))
      "agent hub: domain.action requires a valid config and action"
  | .sslAction =>
    require (payload.size = 2 && validNginxConfigName (field payload "name") &&
      isOneOf ["check", "renew"] (field payload "action"))
      "agent hub: ssl.action requires a valid certificate name and action"
  | .databaseAction =>
    require (payload.size = 2 && validDatabaseEngine (field payload "engine") &&
      field payload "action" = ascii "restart")
      "agent hub: database.action requires a valid engine and restart action"
  | .backupRun =>
    require (payload.size = 1 && validNginxConfigName (field payload "plan"))
      "agent hub: backup.run requires a valid plan ID"
  | .filesBrowse | .filesRead =>
    require (payload.size = 1 && validManagedAbsolutePath (field payload "path"))
      "agent hub: file read requires a valid absolute path"
  | .filesWrite => do
      require (payload.size = 3 && validManagedAbsolutePath (field payload "path") &&
        validSha256 (field payload "checksum"))
        "agent hub: files.write requires valid path, content, and checksum fields"
      require (validEncodedContent (field payload "content_b64"))
        "agent hub: files.write content is invalid or too large"
  | .deployAction =>
    require (payload.size = 2 && validNginxConfigName (field payload "target") &&
      validDeployAction (field payload "action"))
      "agent hub: deploy.action requires a valid target and action"
  | .deployDomainInventory =>
    require (payload.size = 1 && validNginxConfigName (field payload "target"))
      "agent hub: deploy.domain.inventory requires a valid target"
  | .deployDomainHealth =>
    require (payload.size = 2 && validNginxConfigName (field payload "target") &&
      validDeployDomainName (field payload "domain"))
      "agent hub: deploy.domain.health requires a valid target and domain"
  | .deployDomainAction => checkDeployDomainAction payload
  | .agentUpdateAction => checkAgentUpdateAction payload
  | .profileApply | .other _ => .ok ()
  | kind => requireNoPayload kind payload

/-- `ValidateTaskRequest` -/
def validateTaskRequest (env : Env) (req : TaskRequest) : Except HubError Unit := do
  if !isPanelTask req.kind then
    throw (.wrapped (ascii "agent hub: task kind " ++ env.quote req.kind.text) .invalidInput)
  require ((req.payload.size ≠ 0 || allowsEmptyPayload req.kind) && req.payload.size ≤ 6)
    "agent hub: task payload"
  require (req.payload.entries.all (validPayloadEntry env req.kind)) "agent hub: task payload"
  checkTaskFields env req.kind req.payload

theorem validateTaskRequest_isPanelTask {env : Env} {req : TaskRequest}
    (h : validateTaskRequest env req = .ok ()) : isPanelTask req.kind = true := by
  rw [validateTaskRequest] at h
  by_contra hkind
  rw [if_pos (by simpa using hkind)] at h
  cases h

theorem validateTaskRequest_fields {env : Env} {req : TaskRequest}
    (h : validateTaskRequest env req = .ok ()) :
      checkTaskFields env req.kind req.payload = .ok () := by
  have hkind := validateTaskRequest_isPanelTask h
  rw [validateTaskRequest, if_neg (by simp [hkind])] at h
  obtain ⟨⟨⟩, -, h⟩ := bind_eq_ok.mp h
  obtain ⟨⟨⟩, -, h⟩ := bind_eq_ok.mp h
  exact h

/-- `capabilityForTask` -/
def capabilityForTask : TaskKind → Option Capability
  | .serviceStatus => some .serviceStatus
  | .serviceAction => some .serviceAction
  | .hostAction => some .hostAction
  | .processSignal => some .processSignal
  | .diskCleanupScan | .diskCleanupExecute => some .diskCleanup
  | .logsRead => some .logsRead
  | .containerList => some .containerRead
  | .containerAction => some .containerAction
  | .nginxAction => some .nginxAction
  | .nginxConfigList | .nginxConfigRead => some .nginxConfigRead
  | .nginxConfigWrite => some .nginxConfigWrite
  | .phpInventory | .phpConfigRead => some .phpRead
  | .phpConfigWrite => some .phpWrite
  | .phpAction => some .phpAction
  | .pm2List | .pm2Logs => some .pm2Read
  | .pm2Action => some .pm2Action
  | .cronInventory => some .cronRead
  | .cronCreate | .cronUpdate | .cronDelete => some .cronWrite
  | .cronRun => some .cronRun
  | .firewallInventory => some .firewallRead
  | .firewallAdd | .firewallDelete => some .firewallWrite
  | .domainInventory => some .domainRead
  | .domainAction => some .domainAction
  | .sslInventory => some .sslRead
  | .sslAction => some .sslAction
  | .databaseInventory => some .databaseRead
  | .databaseAction => some .databaseAction
  | .backupInventory => some .backupRead
  | .backupRun => some .backupRun
  | .filesBrowse | .filesRead => some .filesRead
  | .filesWrite => some .filesWrite
  | .deployInventory => some .deployRead
  | .deployAction => some .deployAction
  | .deployDomainInventory | .deployDomainHealth => some .deployDomainRead
  | .deployDomainAction => some .deployDomainAction
  | .agentUpdateStatus => some .agentUpdateRead
  | .agentUpdateAction => some .agentUpdateAction
  | .integrationStatus => some .integrationStatus
  | .metricsRead => some .metricsRead
  | .profileApply => some .profileApply
  | .other _ => none

end HeyServer.Hub
