import HeyServer.Lib.Decimal
import HeyServer.Lib.FileTree
import HeyServer.Lib.Paths
import HeyServer.Lib.RowTable

/-!
# Staging targets

A deployment target has a project directory in which git and compose work. A staging target is
derived from a production target and must not share a directory with any other target or with the
panel's own data. The service resolves the links of the directories when a target is stored.

## Implementation notes

The service's mutex makes every call one step. The file tree does not change. The kernel later works
with the path as it was stored; the service compares what it makes of the cleaned path.

The repository URL, the deploy script and the webhook token are checked by functions that are not
modelled; `webhook` says whether provider and token pass. Columns that no check reads are left out.
-/

namespace HeyServer.Deploy.Staging
open Lib Text Decimal

inductive Environment
  | production
  | staging
deriving DecidableEq

inductive DeployKind
  | unset
  | script
  | compose
  | other (name : Bytes)
deriving DecidableEq

/-- A row of `deploy_targets`. -/
structure Target where
  name : Bytes
  repoURL : Bytes
  branch : Bytes
  projectDir : Bytes
  environment : Environment
  sourceTargetID : Option Nat
  deployKind : DeployKind
  composeFile : Bytes
  deployScript : Bytes
  updatedAt : Nat
deriving DecidableEq

inductive TargetError
  /-- `ErrInvalidTarget` with its reason -/
  | invalidTarget (reason : Bytes)
  | targetNotFound (id : Nat)
  | targetChanged
  | stagingTargetsAttached
  | projectDomainsAttached
  /-- a statement or the file of the webhook secret failed -/
  | failed
deriving DecidableEq

/-! ## Checks of a target -/

structure Checks where
  validateRepositoryURL : Bytes → Bool
  validateDeployScript : Bytes → Bool

def validGitBranch (value : Bytes) : Bool :=
  !(value = [] || 255 < value.length || ascii "-" <+: value || ascii "." <+: value ||
    ascii "." <:+ value || ascii "/" <:+ value || ascii ".." <:+: value || ascii "//" <:+: value ||
    ascii "@\x7b" <:+: value) &&
  !containsAny value (ascii " ~^:?*[\\" ++ [0, 0x7F])

def validComposeFile (value : Bytes) : Bool :=
  !(isAbs value || value.contains 0) && clean value ≠ dot && clean value ≠ dotdot &&
    !(dotdot ++ [0x2F] <+: clean value)

def invalid (reason : String) : Except TargetError Unit := .error (.invalidTarget (ascii reason))

def oneLine (name : Bytes) : Bool := name.length ≤ 128 && !containsAny name [0x0D, 0x0A, 0]

def validateDeployTarget (checks : Checks) (name repoURL branch projectDir : Bytes)
    (kind : DeployKind)
    (composeFile deployScript : Bytes) (webhook : Bool) : Except TargetError Unit :=
  if name = [] || projectDir = [] then invalid "name and project directory are required"
  else if !oneLine name then invalid "name must be one line of at most 128 bytes"
  else if !isAbs projectDir then invalid "project directory must be absolute"
  else if !checks.validateRepositoryURL repoURL then invalid "repository URL is invalid"
  else if !validGitBranch branch then invalid "branch is invalid"
  else if kind = .script && composeFile ≠ [] then
    invalid "compose file is only valid for compose targets"
  else if kind = .script && !checks.validateDeployScript deployScript then
    invalid "deploy script is invalid"
  else if kind = .compose && trimSpace deployScript ≠ [] then
    invalid "compose targets use fixed commands and cannot define a deploy script"
  else if kind = .compose && composeFile ≠ [] && !validComposeFile composeFile then
    invalid "compose file must be a relative path inside the project directory"
  else if kind ≠ .script && kind ≠ .compose then
    invalid "deployment kind must be script or compose"
  else if !webhook then invalid "webhook provider or token is invalid"
  else .ok ()

/-! ## Directories -/

/-- The parts that were missing, the outermost last, on what their directory resolves to. -/
def rejoin (resolved : Bytes) (suffix : List Bytes) : Bytes :=
  clean (suffix.reverse.foldl filepathJoin resolved)

/-- The loop of `resolvePotentialProjectDir`; `current` has these components, the last one first. -/
def resolveUp (t : FileTree) (cleaned : Bytes) : List Bytes → List Bytes → Except FsError Bytes
  | [], suffix =>
    match t.evalSymlinks (absolute []) with
    | .ok resolved => .ok (rejoin resolved suffix)
    | .error .notExist => .ok cleaned
    | .error e => .error e
  | name :: up, suffix =>
    match t.evalSymlinks (absolute (name :: up).reverse) with
    | .ok resolved => .ok (rejoin resolved suffix)
    | .error .notExist => resolveUp t cleaned up (suffix ++ [name])
    | .error e => .error e

def resolvePotentialProjectDir (t : FileTree) (value : Bytes) : Except FsError Bytes :=
  if !isAbs (clean value) then .error .invalid
  else resolveUp t (clean value) (components value).reverse []

def projectDirContains (parent child : Bytes) : Bool :=
  rel parent child = dot ||
    (rel parent child ≠ dotdot && !(dotdot ++ [0x2F] <+: rel parent child))

def projectDirsOverlap (left right : Bytes) : Bool :=
  projectDirContains left right || projectDirContains right left

structure Service where
  tree : FileTree
  checks : Checks
  /-- The configured data directory, if there is one. -/
  configured : Option Bytes
  isAbs_configured : ∀ d, configured = some d → isAbs d = true

variable (s : Service)

def Service.dataDir : Option Bytes := s.configured.map clean

/-- The loop over stored targets: none can be left unresolved or overlap the candidate. -/
def checkRows (t : FileTree) (candidate : Bytes) (unresolved overlaps : Nat → Bytes) :
    List (Nat × Target) → Except TargetError Unit
  | [] => .ok ()
  | (id, row) :: rest =>
    match resolvePotentialProjectDir t row.projectDir with
    | .error _ => .error (.invalidTarget (unresolved id))
    | .ok existing =>
      if projectDirsOverlap candidate existing then .error (.invalidTarget (overlaps id))
      else checkRows t candidate unresolved overlaps rest

def Service.checkDataDir (candidate : Bytes) : Except TargetError Unit :=
  match s.dataDir with
  | none => .ok ()
  | some dir =>
    match resolvePotentialProjectDir s.tree dir with
    | .error _ => invalid "Heyserver data directory cannot be resolved"
    | .ok resolved =>
      if projectDirsOverlap candidate resolved then
        invalid "staging project directory must not overlap the Heyserver data directory"
      else .ok ()

variable (targets : RowTable Target)

def Service.validateIsolatedProjectDir (excludeTargetID : Nat)
    (candidate : Bytes) : Except TargetError Unit :=
  match resolvePotentialProjectDir s.tree candidate with
  | .error _ => invalid "staging project directory cannot be resolved"
  | .ok resolved => do
      s.checkDataDir resolved
      checkRows s.tree resolved
        (fun id => ascii "deployment target " ++ formatNat id ++
          ascii " project directory cannot be resolved")
        (fun id => ascii "staging project directory overlaps deployment target " ++ formatNat id)
        (targets.select fun id _ => id ≠ excludeTargetID)

def Service.validateProductionProjectDir
    (excludeTargetID : Nat) (candidate : Bytes) : Except TargetError Unit :=
  match resolvePotentialProjectDir s.tree candidate with
  | .error _ => invalid "production project directory cannot be resolved"
  | .ok resolved =>
    checkRows s.tree resolved
      (fun id => ascii "staging target " ++ formatNat id ++
        ascii " project directory cannot be resolved")
      (fun id => ascii "production project directory overlaps staging target " ++ formatNat id)
      (targets.select fun id row => row.environment = .staging && id ≠ excludeTargetID)

/-! ## Calls -/

structure TargetRequest where
  name : Bytes
  repoURL : Bytes := []
  branch : Bytes := []
  projectDir : Bytes
  deployKind : DeployKind := .unset
  composeFile : Bytes := []
  deployScript : Bytes := []
  webhook : Bool := true
deriving DecidableEq

/-- What `normalizeCreateTargetRequest` and `normalizeUpdateTargetRequest` make of a request before
they check it. -/
def TargetRequest.normalize (req : TargetRequest) : TargetRequest :=
  { req with
    name := trimSpace req.name
    repoURL := trimSpace req.repoURL
    branch := if trimSpace req.branch = [] then ascii "main" else trimSpace req.branch
    projectDir := trimSpace req.projectDir
    composeFile := trimSpace req.composeFile
    deployKind := if req.deployKind = .unset then .script else req.deployKind }

def TargetRequest.validate (checks : Checks) (req : TargetRequest) : Except TargetError Unit :=
  validateDeployTarget checks req.name req.repoURL req.branch req.projectDir req.deployKind
    req.composeFile req.deployScript req.webhook

def TargetRequest.row (req : TargetRequest) (now : Nat) : Target where
  name := req.name
  repoURL := req.repoURL
  branch := req.branch
  projectDir := req.projectDir
  environment := .production
  sourceTargetID := none
  deployKind := req.deployKind
  composeFile := req.composeFile
  deployScript := req.deployScript
  updatedAt := now

structure StagingRequest where
  name : Bytes := []
  branch : Bytes := []
  projectDir : Bytes
deriving DecidableEq

abbrev Changed := Except TargetError (RowTable Target)

/-- The transaction commits, or nothing is stored. -/
def store (fails : Bool) (targets : RowTable Target) : Changed :=
  if fails then .error .failed else .ok targets

def Service.createTarget (request : TargetRequest) (now : Nat) (fails : Bool) : Changed := do
  let req := request.normalize
  req.validate s.checks
  s.validateProductionProjectDir targets 0 req.projectDir
  store fails (targets.insert (req.row now))

/-- The row of a staging target, its unset fields filled in from the source. -/
def stagingRow (source : Target) (sourceID : Nat) (request : StagingRequest) (now : Nat) :
    Target where
  name := if trimSpace request.name = [] then source.name ++
    ascii " Staging" else trimSpace request.name
  repoURL := source.repoURL
  branch := if trimSpace request.branch = [] then source.branch else trimSpace request.branch
  projectDir := clean (trimSpace request.projectDir)
  environment := .staging
  sourceTargetID := some sourceID
  deployKind := source.deployKind
  composeFile := source.composeFile
  deployScript := source.deployScript
  updatedAt := now

def Service.createStagingTarget (sourceTargetID : Nat)
    (request : StagingRequest) (webhook : Bool) (now : Nat) (fails : Bool) : Changed :=
  if trimSpace request.projectDir = [] || !isAbs (trimSpace request.projectDir) then
    .error (.invalidTarget (ascii "staging project directory must be absolute"))
  else
    match targets.get? sourceTargetID with
    | none => .error (.targetNotFound sourceTargetID)
    | some source =>
      let row := stagingRow source sourceTargetID request now
      if source.environment ≠ .production || source.sourceTargetID ≠ none then
        .error (.invalidTarget (ascii "staging targets must be derived from a production target"))
      else if !oneLine row.name then
        .error (.invalidTarget (ascii "staging name must be one line of at most 128 bytes"))
      else do
        validateDeployTarget s.checks row.name source.repoURL row.branch
          (trimSpace request.projectDir)
          source.deployKind source.composeFile source.deployScript webhook
        s.validateIsolatedProjectDir targets 0 (trimSpace request.projectDir)
        store fails (targets.insert row)

/-- The `UPDATE` of a target. -/
def setTarget (id : Nat) (req : TargetRequest) (now : Nat) : RowTable Target :=
  targets.update (fun id' _ => id' = id) fun row =>
    { req.row now with environment := row.environment, sourceTargetID := row.sourceTargetID }

def Service.updateTarget (id : Nat) (request : TargetRequest)
    (expectedUpdatedAt : Option Nat) (now : Nat) (fails : Bool) : Changed :=
  match targets.get? id with
  | none => .ok targets
  | some existing =>
    if expectedUpdatedAt = none then .error (.invalidTarget (ascii "expectedUpdatedAt is required"))
    else if expectedUpdatedAt ≠ some existing.updatedAt then .error .targetChanged
    else do
      let req := request.normalize
      req.validate s.checks
      if existing.environment = .staging then
        s.validateIsolatedProjectDir targets id req.projectDir
      else s.validateProductionProjectDir targets id req.projectDir
      store fails (setTarget targets id req now)

def Service.deleteTarget (id domains : Nat) (fails : Bool) : Changed :=
  if (targets.select fun _ row => row.sourceTargetID = some id) ≠
    [] then .error .stagingTargetsAttached
  else if 0 < domains then .error .projectDomainsAttached
  else store fails (targets.delete fun id' _ => id' = id)

inductive TargetCall
  | create (request : TargetRequest) (now : Nat) (fails : Bool)
  | createStaging (sourceTargetID : Nat) (request : StagingRequest) (webhook : Bool) (now : Nat)
      (fails : Bool)
  | update (id : Nat) (request : TargetRequest) (expectedUpdatedAt : Option Nat) (now : Nat)
      (fails : Bool)
  | delete (id domains : Nat) (fails : Bool)
deriving DecidableEq

def Service.call : TargetCall → Changed
  | .create request now fails => s.createTarget targets request now fails
  | .createStaging source request webhook now fails =>
    s.createStagingTarget targets source request webhook now fails
  | .update id request expectedUpdatedAt now fails =>
    s.updateTarget targets id request expectedUpdatedAt now fails
  | .delete id domains fails => Service.deleteTarget targets id domains fails

/-- A call that returns an error stores nothing. -/
def Service.step (c : TargetCall) : RowTable Target :=
  match s.call targets c with
  | .ok targets' => targets'
  | .error _ => targets

/-- The targets after some calls. -/
def Service.run (calls : List TargetCall) : RowTable Target :=
  calls.foldl s.step .empty

end HeyServer.Deploy.Staging
