import HeyServer.Hub.Observation

/-!
# Agent: profile wrapper

The agent's own decoder of profile documents and of the payload of an
`agent.profile.apply` task.
-/

namespace HeyServer.Agent
open Lib Hub

/-- The envelope the agent stores and receives. -/
structure ProfileWrapper where
  schemaVersion : Int
  revision : Int
  profile : AgentProfile
  deriving DecidableEq

def profileSchemaVersion : Int := 1

def maxProfileDocumentBytes : Nat := 16384

/-- The failures of the wrapper codec; the task handler tells the first two apart. -/
inductive WrapperError
  | payloadTooBig
  | revision
  | invalid
  deriving DecidableEq

variable (wrapper : ProfileWrapper)

/-- `json.Marshal` of the wrapper struct, as a value. -/
def ProfileWrapper.toJson : Json :=
  .obj
    [(ascii "schema_version", .num (Decimal.formatInt wrapper.schemaVersion)),
      (ascii "revision", .num (Decimal.formatInt wrapper.revision)),
      (ascii "profile", wrapper.profile.toJson)]

/-- A failure of the shared profile code. -/
def orInvalid {α : Type} (x : Except HubError α) : Except WrapperError α :=
  x.mapError fun _ => .invalid

@[simp] theorem orInvalid_eq_ok {α : Type} {x : Except HubError α} {a : α} :
    orInvalid x = .ok a ↔ x = .ok a := by
  cases x <;> simp [orInvalid, Except.mapError]

def marshalProfileWrapper : Except WrapperError Bytes :=
  if wrapper.schemaVersion ≠ profileSchemaVersion ∨ wrapper.revision ≤ 0 then .error .revision
  else do
    let normalized ← orInvalid (normalizeAgentProfile wrapper.profile)
    let wrapper : ProfileWrapper := ⟨wrapper.schemaVersion, wrapper.revision, normalized⟩
    if maxProfileDocumentBytes < wrapper.toJson.encode.length then .error .payloadTooBig
    else .ok wrapper.toJson.encode

/-- One complete object with distinct keys. -/
def strictJsonObject (data : Bytes) : Except WrapperError Fields :=
  match Json.parse data with
  | some (.obj fields) => if (fields.map Prod.fst).Nodup then .ok fields else .error .invalid
  | _ => .error .invalid

/-- A member that is there and not `null`. -/
def rawField (fields : Fields) (field : Bytes) (missing : WrapperError) :
    Except WrapperError Json :=
  match fields.lookup field with
  | none | some .null => .error missing
  | some value => .ok value

/-- The integer of a member. -/
def integer (value : Json) (wrong : WrapperError) : Except WrapperError Int :=
  match (FromJson.fromJson value : Option Int) with
  | some i => .ok i
  | none => .error wrong

def decodeProfileWrapper (data : Bytes) : Except WrapperError ProfileWrapper :=
  if data = [] ∨ maxProfileDocumentBytes < data.length then .error .payloadTooBig
  else do
    let fields ← strictJsonObject data
    if fields.any fun f => f.1 ∉ [ascii "schema_version", ascii "revision", ascii "profile"] then
      .error .invalid
    else
      let schemaRaw ← rawField fields (ascii "schema_version") .invalid
      let schema ← integer schemaRaw .invalid
      if schema ≠ profileSchemaVersion then .error .invalid
      else
        let revisionRaw ← rawField fields (ascii "revision") .revision
        let revision ← integer revisionRaw .revision
        if revision ≤ 0 then .error .revision
        else
          let profileRaw ← rawField fields (ascii "profile") .invalid
          let profile ← orInvalid (decodeAgentProfile profileRaw false)
          let normalized ← orInvalid (normalizeAgentProfile profile)
          let canonical ← marshalProfileWrapper ⟨profileSchemaVersion, revision, normalized⟩
          if data ≠ canonical then .error .invalid
          else .ok ⟨profileSchemaVersion, revision, normalized⟩

/-- The result of `decodeProfileTaskPayload`: the wrapper, or the error code it reports. -/
def decodeProfileTaskPayload (payload : StrMap) : Except ProfileErrorCode ProfileWrapper :=
  if payload.size ≠ 2 then .error .payloadInvalid
  else
    match payload.lookup revisionKey, payload.lookup profileJsonB64Key with
    | some rawRevision, some encoded =>
      if rawRevision = [] ∨ encoded = [] then .error .payloadInvalid
      else
        match Decimal.parseInt rawRevision with
        | none => .error .revisionInvalid
        | some revision =>
          if revision ≤ 0 ∨ Decimal.formatInt revision ≠ rawRevision then
            .error .revisionInvalid
          else if (maxProfileDocumentBytes + 2) / 3 * 4 < encoded.length then
            .error .payloadTooLarge
          else
            match Base64.decode encoded with
            | none => .error .payloadInvalid
            | some decoded =>
              if Base64.encode decoded ≠ encoded then .error .payloadInvalid
              else if maxProfileDocumentBytes < decoded.length then .error .payloadTooLarge
              else
                match decodeProfileWrapper decoded with
                | .error .payloadTooBig => .error .payloadTooLarge
                | .error .revision => .error .revisionInvalid
                | .error .invalid => .error .payloadInvalid
                | .ok wrapper =>
                  if wrapper.revision ≠ revision then .error .revisionInvalid
                  else .ok wrapper
    | _, _ => .error .payloadInvalid

end HeyServer.Agent
