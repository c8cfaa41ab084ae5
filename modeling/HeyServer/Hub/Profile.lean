import HeyServer.Hub.Types

/-!
# Agent hub: profiles

The desired deployment profile of a node: its validation and normal form, its
JSON form, the versioned apply document, and the two-field task payload that
carries the document in base64.

## Implementation notes

Strict decoding works on the parsed object: one complete object whose keys are
distinct. The raw text of a member is represented by its parsed value.
-/

namespace HeyServer.Hub
open Lib

def maxProfilePathBytes : Nat := 4096

def maxProfileWriteRoots : Nat := 16

def maxProfileJsonBytes : Nat := 16384

def maxProfileEncodedBytes : Nat := (maxProfileJsonBytes + 2) / 3 * 4

def profileApplySchemaVersion : Int := 1

def emptyAgentProfile : AgentProfile := ⟨false, false, false, false, [], [], []⟩

/-! ## Validation and normal form -/

/-- A byte of `^[A-Za-z0-9._/+:-]+$`. -/
def isProfileSafePathByte (b : UInt8) : Bool :=
  (0x41 ≤ b.toNat && b.toNat ≤ 0x5A) || (0x61 ≤ b.toNat && b.toNat ≤ 0x7A) ||
    (0x30 ≤ b.toNat && b.toNat ≤ 0x39) || b = 0x2E || b = 0x5F || b = 0x2F || b = 0x2B ||
    b = 0x3A || b = 0x2D

variable (value : Bytes)

/-- `profileSafePathPattern.MatchString` -/
def matchesProfileSafePath : Bool :=
  !value.isEmpty && value.all isProfileSafePathByte

def validateProfileString (field : String) : Except HubError Unit :=
  if !Utf8.valid value || decide (maxProfilePathBytes < value.length) ||
      value.any (fun b => b = 0x0D || b = 0x0A || b = 0x00) then
    .error (invalidInput s!"agent hub: {field} is invalid or exceeds {maxProfilePathBytes} UTF-8 bytes")
  else .ok ()

def validateOptionalProfilePath (file : Bool) : Except HubError Unit :=
  if value = [] then .ok () else do
    validateProfileString value "profile path"
    if value = [0x2F] ∨ Text.isAbs value = false ∨ Text.clean value ≠ value then
      .error (invalidInput "agent hub: profile path must be a clean absolute path other than /")
    else if matchesProfileSafePath value = false then
      .error (invalidInput "agent hub: profile path must match ^[A-Za-z0-9._/+:-]+$")
    else if file ∧ value.getLast? = some 0x2F then
      .error (invalidInput "agent hub: profile file path must not have a trailing slash")
    else .ok ()

variable (profile : AgentProfile)

def validateProfileDependencies : Except HubError Unit :=
  if profile.allowDeployActions ∧ ¬ profile.allowDeployRead then
    .error (invalidInput "agent hub: allowDeployActions requires allowDeployRead")
  else if profile.allowDeployDomainRead ∧ ¬ profile.allowDeployRead then
    .error (invalidInput "agent hub: allowDeployDomainRead requires allowDeployRead")
  else if profile.allowDeployDomainActions ∧ ¬ profile.allowDeployDomainRead then
    .error (invalidInput "agent hub: allowDeployDomainActions requires allowDeployDomainRead")
  else .ok ()

/-- The loop of `normalizeProfileRoots` over the roots, after the roots `seen`. -/
def checkProfileRoots (seen : List Bytes) : List Bytes → Except HubError Unit
  | [] => .ok ()
  | root :: rest => do
      validateOptionalProfilePath root false
      if root = [] then
        .error (invalidInput "agent hub: deployWriteRoots contains an empty root")
      else if root ∈ seen then
        .error (invalidInput "agent hub: deployWriteRoots contains a duplicate root")
      else checkProfileRoots (root :: seen) rest

def normalizeProfileRoots (raw : List Bytes) : Except HubError (List Bytes) :=
  if maxProfileWriteRoots < raw.length then
    .error (invalidInput s!"agent hub: deployWriteRoots accepts at most {maxProfileWriteRoots} roots")
  else do
    checkProfileRoots [] raw
    return raw.insertionSort (· ≤ ·)

def normalizeAgentProfile : Except HubError AgentProfile := do
  validateProfileDependencies profile
  validateOptionalProfilePath profile.deployPlansFile true
  validateOptionalProfilePath profile.deployAcmeWebroot false
  let roots ← normalizeProfileRoots profile.deployWriteRoots
  return { profile with deployWriteRoots := roots }

/-! ## JSON forms -/

/-- `json.Marshal` of the profile struct, as a value. -/
def AgentProfile.toJson : Json :=
  .obj
    [(ascii "allowDeployRead", .bool profile.allowDeployRead),
      (ascii "allowDeployActions", .bool profile.allowDeployActions),
      (ascii "allowDeployDomainRead", .bool profile.allowDeployDomainRead),
      (ascii "allowDeployDomainActions", .bool profile.allowDeployDomainActions),
      (ascii "deployPlansFile", .str profile.deployPlansFile),
      (ascii "deployAcmeWebroot", .str profile.deployAcmeWebroot),
      (ascii "deployWriteRoots", .arr (profile.deployWriteRoots.map .str))]

def AgentProfile.marshal : Bytes := profile.toJson.encode

structure ProfileApplyDocument where
  schemaVersion : Int
  revision : Int
  profile : AgentProfile
  deriving DecidableEq

variable (document : ProfileApplyDocument)

def ProfileApplyDocument.toJson : Json :=
  .obj
    [(ascii "schema_version", .num (Decimal.formatInt document.schemaVersion)),
      (ascii "revision", .num (Decimal.formatInt document.revision)),
      (ascii "profile", document.profile.toJson)]

def ProfileApplyDocument.marshal : Bytes :=
  document.toJson.encode

abbrev Fields := List (Bytes × Json)

/-- An object with pairwise distinct keys. -/
def strictObject : Json → Except HubError Fields
  | .obj fields =>
    if (fields.map Prod.fst).Nodup then .ok fields
    else .error (.plain (ascii "agent hub: duplicate JSON object field"))
  | _ => .error (.plain (ascii "agent hub: JSON value must be an object"))

variable (data : Bytes)

def decodeStrictJsonObject : Except HubError Fields :=
  match Json.parse data with
  | some value => strictObject value
  | none => .error (.json [])

/-- The types the hub decodes a member into. -/
class FromJson (α : Type) where
  fromJson : Json → Option α

instance : FromJson Bool where
  fromJson := Json.asBool

instance : FromJson Bytes where
  fromJson := Json.asText

instance : FromJson Int where
  fromJson := Decimal.readInt

def decodeRequiredJsonField (α : Type) [FromJson α] (fields : Fields) (field : Bytes) :
    Except HubError α :=
  match fields.lookup field with
  | none | some .null =>
    .error (.plain (ascii "agent hub: profile field " ++ field ++
      ascii " is required and non-null"))
  | some value =>
    match FromJson.fromJson value with
    | some a => .ok a
    | none =>
      .error (.json (ascii "agent hub: profile field " ++ field ++
        ascii " has the wrong JSON type"))

theorem decodeRequiredJsonField_ok {α : Type} [FromJson α] {fields : Fields} {field : Bytes}
    {a : α} (h : decodeRequiredJsonField α fields field = .ok a) :
    ∃ value, fields.lookup field = some value ∧ FromJson.fromJson value = some a := by
  unfold decodeRequiredJsonField at h
  split at h
  · cases h
  · cases h
  next value _ _ =>
    split at h
    next a' ha =>
      cases h
      exact ⟨value, ‹_›, ha⟩
    · cases h

/-- A failure reported with a message of the caller's own. -/
def orFail {α : Type} (x : Except HubError α) (message : String) : Except HubError α :=
  x.mapError fun _ => .plain (ascii message)

@[simp] theorem orFail_eq_ok {α : Type} {x : Except HubError α} {message : String} {a : α} :
    orFail x message = .ok a ↔ x = .ok a := by
  cases x <;> simp [orFail, Except.mapError]

/-- A member that is there and not `null`. -/
def requiredField (fields : Fields) (field : Bytes) (message : String) : Except HubError Json :=
  match fields.lookup field with
  | none | some .null => .error (.plain (ascii message))
  | some value => .ok value

/-- Every key is one of the names. -/
def onlyFields (names : List Bytes) (message : String) (fields : Fields) : Except HubError Unit :=
  if fields.all fun f => f.1 ∈ names then .ok () else .error (.plain (ascii message))

def decodeProfileRoots : Json → Except HubError (List Bytes)
  | .arr items =>
    items.mapM fun item =>
      match item with
      | .str root => .ok root
      | _ => .error (.plain
          (ascii "agent hub: profile field deployWriteRoots must be an array of strings"))
  | _ => .error (.json
      (ascii "agent hub: profile field deployWriteRoots must be an array of strings"))

/-- The write roots of a persisted row may have the historical comma-separated form. -/
def decodeLegacyRoots (roots : Bytes) : List Bytes :=
  if roots = [] then [] else (Text.split 0x2C roots).map Text.trimSpace

def agentProfileFields : List Bytes :=
  [ascii "allowDeployRead", ascii "allowDeployActions", ascii "allowDeployDomainRead",
    ascii "allowDeployDomainActions", ascii "deployPlansFile", ascii "deployAcmeWebroot",
    ascii "deployWriteRoots"]

/-- `decodeAgentProfileJSON` on the parsed text. -/
def decodeAgentProfile (value : Json) (allowLegacyRoots : Bool) : Except HubError AgentProfile := do
  let fields ← strictObject value
  onlyFields agentProfileFields "agent hub: unknown profile field" fields
  let allowDeployRead ← decodeRequiredJsonField Bool fields (ascii "allowDeployRead")
  let allowDeployActions ← decodeRequiredJsonField Bool fields (ascii "allowDeployActions")
  let allowDeployDomainRead ← decodeRequiredJsonField Bool fields (ascii "allowDeployDomainRead")
  let allowDeployDomainActions ←
    decodeRequiredJsonField Bool fields (ascii "allowDeployDomainActions")
  let deployPlansFile ← decodeRequiredJsonField Bytes fields (ascii "deployPlansFile")
  let deployAcmeWebroot ← decodeRequiredJsonField Bytes fields (ascii "deployAcmeWebroot")
  let rootsRaw ← requiredField fields (ascii "deployWriteRoots")
    "agent hub: profile field deployWriteRoots is required and non-null"
  let deployWriteRoots ← match allowLegacyRoots, rootsRaw with
    | true, .str legacyRoots => .ok (decodeLegacyRoots legacyRoots)
    | _, _ => decodeProfileRoots rootsRaw
  return ⟨allowDeployRead, allowDeployActions, allowDeployDomainRead, allowDeployDomainActions,
    deployPlansFile, deployAcmeWebroot, deployWriteRoots⟩

def decodePersistedAgentProfile : Except HubError AgentProfile :=
  match Json.parse data with
  | some value => decodeAgentProfile value true
  | none => .error (.json [])

/-! ## The apply document -/

def decodeProfileApplyDocument : Except HubError ProfileApplyDocument :=
  if data = [] ∨ maxProfileJsonBytes < data.length then
    .error (.plain (ascii "profile apply document is too large"))
  else do
    let fields ← decodeStrictJsonObject data
    onlyFields [ascii "schema_version", ascii "revision", ascii "profile"]
      "unknown profile apply document field" fields
    let schemaVersion ← orFail (decodeRequiredJsonField Int fields (ascii "schema_version"))
      "profile apply document schema is invalid"
    if schemaVersion ≠ profileApplySchemaVersion then
      .error (.plain (ascii "profile apply document schema is invalid"))
    else
      let revision ← orFail (decodeRequiredJsonField Int fields (ascii "revision"))
        "profile apply document revision is invalid"
      if revision < 1 then
        .error (.plain (ascii "profile apply document revision is invalid"))
      else
        let profileRaw ← requiredField fields (ascii "profile")
          "profile apply document profile is required"
        let profile ← decodeAgentProfile profileRaw false
        let profile ← normalizeAgentProfile profile
        if (ProfileApplyDocument.mk schemaVersion revision profile).marshal ≠ data then
          .error (.plain (ascii "profile apply document is not canonical"))
        else .ok ⟨schemaVersion, revision, profile⟩

/-- The document of a profile under a revision. -/
def applyDocument (revision : Int) : ProfileApplyDocument :=
  ⟨profileApplySchemaVersion, revision, profile⟩

def canonicalProfileApplyDocument (revision : Int) : Except HubError (AgentProfile × Bytes) :=
  if revision < 1 then .error (invalidInput "agent hub: profile apply revision")
  else do
    let normalized ← normalizeAgentProfile profile
    if maxProfileJsonBytes < (applyDocument normalized revision).marshal.length then
      .error (invalidInput
        s!"agent hub: canonical profile apply document exceeds {maxProfileJsonBytes} bytes")
    else .ok (normalized, (applyDocument normalized revision).marshal)

/-! ## The task payload -/

def profileJsonB64Key : Bytes := ascii "profile_json_b64"

def revisionKey : Bytes := ascii "revision"

/-- The string map `{"profile_json_b64": ..., "revision": ...}`. -/
def payloadMap (encoded revision : Bytes) : StrMap :=
  ⟨[(profileJsonB64Key, encoded), (revisionKey, revision)], by
    simpa using (by decide : profileJsonB64Key < revisionKey)⟩

def profileApplyPayloadRevision (payload : Bytes) : Except HubError Int := do
  let fields ← decodeStrictJsonObject payload
  if fields.length ≠ 2 then .error (.plain (ascii "invalid profile apply payload")) else
  let revisionValue ← orFail (decodeRequiredJsonField Bytes fields revisionKey)
    "invalid profile apply revision"
  let encoded ← orFail (decodeRequiredJsonField Bytes fields profileJsonB64Key)
    "invalid profile apply profile payload"
  if (payloadMap encoded revisionValue).marshal ≠ payload then
    .error (.plain (ascii "invalid profile apply payload"))
  else
    match Decimal.parseInt revisionValue with
    | none => .error (.plain (ascii "invalid profile apply revision"))
    | some revision =>
      if revision < 1 ∨ Decimal.formatInt revision ≠ revisionValue then
        .error (.plain (ascii "invalid profile apply revision"))
      else
        match Base64.decode encoded with
        | none => .error (.plain (ascii "invalid profile apply profile payload"))
        | some profileJson =>
          if Base64.encode profileJson ≠ encoded ∨ profileJson = [] ∨
              maxProfileJsonBytes < profileJson.length ∨
              maxProfileEncodedBytes < encoded.length then
            .error (.plain (ascii "invalid profile apply profile payload"))
          else
            let document ← orFail (decodeProfileApplyDocument profileJson)
              "invalid profile apply profile payload"
            if document.revision ≠ revision then
              .error (.plain (ascii "invalid profile apply profile payload"))
            else .ok revision

/-- What `CreateProfileApplyTask` prepares before its transaction: the normalized profile
and the text of the task payload. -/
def profileApplyTaskPayload (expectedRevision : Int) : Except HubError (AgentProfile × Bytes) :=
  if expectedRevision < 1 then .error (invalidInput "agent hub: profile apply revision")
  else do
    let (normalized, profileJson) ← canonicalProfileApplyDocument profile expectedRevision
    if maxProfileJsonBytes < profileJson.length ∨
        maxProfileEncodedBytes < (Base64.encode profileJson).length then
      .error (invalidInput "agent hub: profile apply payload exceeds size limit")
    else
      .ok (normalized,
        (payloadMap (Base64.encode profileJson) (Decimal.formatInt expectedRevision)).marshal)

end HeyServer.Hub
