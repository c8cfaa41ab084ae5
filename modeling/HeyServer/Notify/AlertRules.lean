import HeyServer.Lib.Fallible
import HeyServer.Lib.Text
import Mathlib.Algebra.Order.Field.Rat

/-!
# Alert rules and their checks

`ValidateAndNormalizeAlertRule` and the evaluator's `checkRule`, which applies it to every
rule it reads.

## Implementation notes

`strings.ToLower` is a parameter. What a check reads of the host is an argument of the check.
The texts of alerts are left out.
-/

namespace HeyServer.Notify
open Lib Text Utf8

/-- A row of `alert_rules`; a threshold that is not a finite number is `none`. -/
structure AlertRule where
  name : Bytes
  type : Bytes
  threshold : Option ℚ
  durationMins : Int
  target : Bytes
  enabled : Bool
  cooldownMins : Int
  deriving DecidableEq

inductive AlertType
  | cpuUsage | memoryUsage | diskUsage | sslExpiry | serviceDown | failedLogins
  deriving DecidableEq

namespace AlertType

def text : AlertType → Bytes
  | cpuUsage => ascii "cpu_usage"
  | memoryUsage => ascii "memory_usage"
  | diskUsage => ascii "disk_usage"
  | sslExpiry => ascii "ssl_expiry"
  | serviceDown => ascii "service_down"
  | failedLogins => ascii "failed_logins"

/-- `isSupportedAlertType`, with the type that is meant. -/
def supported? (text : Bytes) : Option AlertType :=
  [cpuUsage, memoryUsage, diskUsage, sslExpiry, serviceDown, failedLogins].find? fun type =>
    type.text = text

end AlertType

variable (toLower : Bytes → Bytes)

/-- `NormalizeAlertType` -/
def normalizeAlertType (value : Bytes) : Bytes :=
  let value := toLower (trimSpace value)
  if value = ascii "cpu" then AlertType.cpuUsage.text
  else if value = ascii "memory" then AlertType.memoryUsage.text
  else if value = ascii "disk" then AlertType.diskUsage.text
  else value

inductive AlertRuleError
  | nameRequired
  | nameLength
  | unsupportedType (type : Bytes)
  | thresholdNotFinite
  | durationRange
  | cooldownRange
  | targetControl
  | percentageRange
  | targetNotAbsolute
  | expiryRange
  | invalidDNSName
  | invalidUnit
  | loginsRange
  deriving DecidableEq

def maxAlertNameLength : Nat := 128
def maxAlertDuration : Int := 24 * 60
def maxAlertCooldown : Int := 7 * 24 * 60

/-- `[a-z0-9]` -/
def isLowerAlnum (b : UInt8) : Bool := (0x30 ≤ b && b ≤ 0x39) || (0x61 ≤ b && b ≤ 0x7A)

/-- `^[a-z0-9](?:[a-z0-9-]{0,61}[a-z0-9])?$` -/
def dnsLabelPattern (label : Bytes) : Bool :=
  label.length ≤ 63 && label.head?.any isLowerAlnum && label.getLast?.any isLowerAlnum &&
    label.all fun b => isLowerAlnum b || b = 0x2D

def validDNSName (value : Bytes) : Bool :=
  value ≠ [] && value.length ≤ 253 && value.getLast? ≠ some 0x2E &&
    (split 0x2E value).all dnsLabelPattern

/-- `^[A-Za-z0-9][A-Za-z0-9_.@:-]{0,254}\.(?:service|socket|timer|mount|path|target)$` -/
def systemdUnitPattern (unit : Bytes) : Bool :=
  [ascii ".service", ascii ".socket", ascii ".timer", ascii ".mount", ascii ".path",
    ascii ".target"].any fun suffix =>
      let stem := unit.take (unit.length - suffix.length)
      suffix.isSuffixOf unit && stem.length ≤ 255 && stem.head?.any isAlnum &&
        stem.all fun b => isAlnum b || (ascii "_.@:-").contains b

/-- `validatePercentageThreshold` -/
def validatePercentageThreshold (value : ℚ) : Except AlertRuleError Unit :=
  if value < 0 ∨ 100 < value then .error .percentageRange else .ok ()

section
variable (rule : AlertRule)

/-- The checks of threshold and target for each type. -/
def normalizeTarget (threshold : ℚ) : AlertType → Except AlertRuleError AlertRule
  | .cpuUsage | .memoryUsage =>
    (validatePercentageThreshold threshold).map fun _ => { rule with target := [] }
  | .diskUsage =>
    let target := if rule.target = [] then [0x2F] else rule.target
    validatePercentageThreshold threshold >>= fun _ =>
      if !isAbs target then .error .targetNotAbsolute
      else .ok { rule with target := clean target }
  | .sslExpiry =>
    let target := toLower rule.target
    if threshold < 0 ∨ 3650 < threshold then .error .expiryRange
    else if !validDNSName target then .error .invalidDNSName
    else .ok { rule with target }
  | .serviceDown =>
    if !systemdUnitPattern rule.target then .error .invalidUnit
    else .ok { rule with threshold := some 1 }
  | .failedLogins =>
    if threshold < 1 ∨ 1000000 < threshold ∨ threshold.den ≠ 1 then .error .loginsRange
    else .ok { rule with target := [] }

/-- The part of `ValidateAndNormalizeAlertRule` after the type is known. -/
def normalizeLimits (kind : AlertType) : Except AlertRuleError AlertRule :=
  match rule.threshold with
  | none => .error .thresholdNotFinite
  | some threshold =>
    if rule.durationMins < 0 ∨ maxAlertDuration < rule.durationMins then .error .durationRange
    else if rule.cooldownMins < 1 ∨ maxAlertCooldown < rule.cooldownMins then
      .error .cooldownRange
    else
      let target := trimSpace rule.target
      if containsControl target then .error .targetControl
      else normalizeTarget toLower { rule with target } threshold kind

/-- `ValidateAndNormalizeAlertRule`, with the type of the rule. -/
def validateAndNormalizeAlertRule : Except AlertRuleError (AlertRule × AlertType) :=
  let name := trimSpace rule.name
  let type := normalizeAlertType toLower rule.type
  if name = [] then .error .nameRequired
  else if maxAlertNameLength < (runes name).length ∨ containsControl name then .error .nameLength
  else
    match AlertType.supported? type with
    | none => .error (.unsupportedType type)
    | some kind => (normalizeLimits toLower { rule with name, type } kind).map fun rule =>
      (rule, kind)

end

/-! ## Checks -/

/-- `monitor.Stats` -/
structure Stats where
  cpuUsage : ℚ
  memoryPercentage : ℚ
  disks : List (Bytes × ℚ)

/-- What the checks find on the host. -/
structure Readings where
  stats : Option Stats
  /-- days until the certificate of a name expires; none when it cannot be read -/
  certDays : Bytes → Option ℚ
  /-- `systemctl is-active --quiet` -/
  isActive : Bytes → Bool
  failedSSH : Nat

/-- A value and whether it reaches the threshold. -/
def atLeast (threshold value : ℚ) : ℚ × Bool := (value, threshold ≤ value)

variable (r : Readings)

section
variable (rule : AlertRule)

def checkDisk (threshold : ℚ) : ℚ × Bool :=
  match r.stats with
  | none => (0, false)
  | some s =>
    let target := if rule.target = [] then [0x2F] else rule.target
    match s.disks.find? fun d => d.1 = target with
    | none => (0, false)
    | some d => atLeast threshold d.2

def checkSSL (threshold : ℚ) : ℚ × Bool :=
  if rule.target = [] then (0, false)
  else
    match r.certDays rule.target with
    | none => (0, false)
    | some days => (days, days ≤ threshold)

def checkService : ℚ × Bool :=
  if rule.target = [] then (0, false)
  else if r.isActive rule.target then (0, false)
  else (1, true)

/-- `checkRule`: an invalid rule does not trigger. -/
def checkRule : ℚ × Bool :=
  match validateAndNormalizeAlertRule toLower rule with
  | .error _ => (0, false)
  | .ok (rule, kind) =>
    let threshold := rule.threshold.getD 0
    match kind with
    | .cpuUsage => (r.stats.map fun s => atLeast threshold s.cpuUsage).getD (0, false)
    | .memoryUsage => (r.stats.map fun s => atLeast threshold s.memoryPercentage).getD (0, false)
    | .diskUsage => checkDisk r rule threshold
    | .sslExpiry => checkSSL r rule threshold
    | .serviceDown => checkService r rule
    | .failedLogins => atLeast threshold r.failedSSH

end

variable {toLower : Bytes → Bytes}

/-- A rule that triggers has a duration of at most a day and a cooldown of at most a week. -/
theorem bounds_of_triggered {r : Readings} {rule : AlertRule}
    (h : (checkRule toLower r rule).2 = true) : (0 ≤ rule.durationMins ∧ rule.durationMins ≤ 1440) ∧
      1 ≤ rule.cooldownMins ∧ rule.cooldownMins ≤ 10080 := by
  cases hvalid : validateAndNormalizeAlertRule toLower rule with
  | error e => simp [checkRule, hvalid] at h
  | ok out =>
    unfold validateAndNormalizeAlertRule at hvalid
    rw [ite_error_eq_ok, ite_error_eq_ok] at hvalid
    obtain ⟨-, -, hvalid⟩ := hvalid
    split at hvalid
    · cases hvalid
    · obtain ⟨limits, hlimits, -⟩ := map_eq_ok.mp hvalid
      unfold normalizeLimits at hlimits
      split at hlimits
      · cases hlimits
      · obtain ⟨hduration, hlimits⟩ := ite_error_eq_ok.mp hlimits
        obtain ⟨hcooldown, -⟩ := ite_error_eq_ok.mp hlimits
        dsimp only [maxAlertDuration, maxAlertCooldown] at hduration hcooldown
        omega

end HeyServer.Notify
