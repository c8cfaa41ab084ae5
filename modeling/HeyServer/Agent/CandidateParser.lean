import HeyServer.Agent.ProfileStore

/-!
# Installer: candidate validation

The validator the installer runs on `candidate.json` before it applies it: path
rules, protected locations, the field checks, and the canonical document it
writes as the next `active.json`.

## Implementation notes

A text value is represented by its UTF-8 bytes. A value with lone surrogates has
no UTF-8 form; its bytes are not valid UTF-8 and encoding it fails. The links of
the file system are a parameter.
-/

namespace HeyServer.Agent.Installer
open Lib Hub Text

def slash : UInt8 := 0x2F

/-! ## Paths -/

/-- `posixpath.normpath`: two leading slashes are kept, three or more are one. -/
def normpath (path : Bytes) : Bytes :=
  if path = [] then dot
  else
    let rooted := isAbs path
    let slashes :=
      if !rooted then 0
      else if [slash, slash].isPrefixOf path && !([slash, slash, slash].isPrefixOf path) then 2
      else 1
    let kept := ((split slash path).foldl (pushComponent rooted) []).reverse
    let path := List.replicate slashes slash ++ join slash kept
    if path = [] then dot else path

/-- `posixpath.join` of two parts. -/
def joinPath (base part : Bytes) : Bytes :=
  if isAbs part then part
  else if base = [] ∨ base.getLast? = some slash then base ++ part
  else base ++ slash :: part

/-- `str.rstrip("/")` -/
def stripSlashes (path : Bytes) : Bytes := (path.reverse.dropWhile (· = slash)).reverse

/-- The path with these components below the root. -/
def absolute (components : List Bytes) : Bytes := slash :: join slash components

/-- What reading a link gives: its target, that there is no link, or another error. -/
inductive Link
  | target (path : Bytes)
  | notLink
  | error

/-- The host the validator runs on. -/
structure Host where
  rootPrefix : Bytes
  /-- Configuration, token, unit, binary and lifecycle files, then two directories. -/
  dynamicProtectedPaths : List Bytes
  readlink : Bytes → Link
  realpath : Bytes → Bytes

def rootJoin (host : Host) (logical : Bytes) : Bytes :=
  if host.rootPrefix = [] ∨ host.rootPrefix = [slash] ∨ isAbs logical = false then logical
  else stripSlashes host.rootPrefix ++ logical

/-- The path below the staged root, if it lies there. -/
def logicalFromActual (host : Host) (actual : Bytes) : Bytes × Bool :=
  let staged := stripSlashes host.rootPrefix
  if host.rootPrefix = [] ∨ host.rootPrefix = [slash] then (actual, false)
  else if actual = staged then ([slash], true)
  else if (staged ++ [slash]).isPrefixOf actual then (actual.drop staged.length, true)
  else (actual, false)

/-- One pass over the components: all are plain, the path moves through a link, or a link
cannot be read. -/
inductive Pass
  | plain (path : Bytes)
  | moved (path : Bytes)
  | unreadable

def resolvePass (host : Host) (resolved : List Bytes) : List Bytes → Pass
  | [] => .plain (absolute resolved)
  | component :: rest =>
    match host.readlink (rootJoin host (absolute (resolved ++ [component]))) with
    | .error => .unreadable
    | .notLink => resolvePass host (resolved ++ [component]) rest
    | .target target =>
      let replacement :=
        if isAbs target then normpath target
        else normpath (joinPath (absolute resolved) target)
      .moved (normpath (rest.foldl joinPath replacement))

/-- The loop of `resolve_rooted_path`, with the rounds that are left. -/
def resolveLoop (host : Host) : Nat → List Bytes → Bytes → Option Bytes
  | 0, _, _ => none
  | rounds + 1, seen, current =>
    if current ∈ seen then none
    else
      match resolvePass host [] ((split slash current).filter (· ≠ [])) with
      | .plain path => some path
      | .moved next => resolveLoop host rounds (current :: seen) next
      | .unreadable => none

def resolveRootedPath (host : Host) (path : Bytes) : Option Bytes :=
  resolveLoop host 64 [] (normpath path)

def pathPair (host : Host) (path : Bytes) (rooted : Bool) : Bytes × Option Bytes :=
  let lexical := normpath path
  if rooted then (lexical, (resolveRootedPath host lexical).map normpath)
  else
    let resolved := host.realpath lexical
    (lexical, if resolved = [] then none else some (normpath resolved))

inductive Relation
  | contains | inside | disjoint
  deriving DecidableEq

def pathRelation (candidate prot : Bytes) : Relation :=
  if candidate = prot ∨ (stripSlashes candidate ++ [slash]).isPrefixOf prot = true then .contains
  else if (stripSlashes prot ++ [slash]).isPrefixOf candidate = true then .inside
  else .disjoint

inductive TargetKind
  | file | directory
  deriving DecidableEq

def staticProtectedRoots : List Bytes :=
  [ascii "/etc", ascii "/usr", ascii "/bin", ascii "/sbin", ascii "/boot", ascii "/proc",
    ascii "/sys", ascii "/dev", ascii "/run"]

/-- A protected path, whether it is below the staged root, and its kind. -/
structure Reference where
  path : Bytes
  rooted : Bool
  kind : TargetKind

def protectedReferences (host : Host) : List Reference :=
  staticProtectedRoots.map (⟨·, true, .directory⟩) ++
    host.dynamicProtectedPaths.zipIdx.filterMap fun (actual, index) =>
      if actual = [] then none
      else
        let logical := logicalFromActual host actual
        some ⟨logical.1, logical.2, if index < 5 then .file else .directory⟩

def relationIsForbidden (relation : Relation) : TargetKind → Bool
  | .directory => relation ≠ .disjoint
  | .file => relation = .contains

/-- The rejections of `reject_protected_write_path` for one protected path. -/
def overlaps (host : Host) (lexical resolved : Bytes) (reference : Reference) : Bool :=
  match pathPair host reference.path reference.rooted with
  | (_, none) => true
  | (protectedLexical, some protectedResolved) =>
    let lexicalRelation := pathRelation lexical protectedLexical
    let resolvedRelation := pathRelation resolved protectedResolved
    relationIsForbidden lexicalRelation reference.kind ||
      relationIsForbidden resolvedRelation reference.kind ||
      (resolved ≠ lexical && lexicalRelation ≠ resolvedRelation &&
        (lexicalRelation ≠ .disjoint || resolvedRelation ≠ .disjoint))

def rejectProtectedWritePath (host : Host) (value deployPlansFile : Bytes) :
    Except ProfileErrorCode Unit :=
  if value = [] then .ok ()
  else
    match pathPair host value true with
    | (_, none) => .error .payloadInvalid
    | (lexical, some resolved) =>
      let references := protectedReferences host ++
        if deployPlansFile = [] then [] else [⟨deployPlansFile, true, .file⟩]
      if references.any (overlaps host lexical resolved) then .error .payloadInvalid else .ok ()

/-! ## Fields -/

def validatePath (value : Bytes) (file : Bool) : Except ProfileErrorCode Unit :=
  -- encoding a text with lone surrogates fails
  if Utf8.valid value = false then .error .payloadInvalid
  else if maxProfilePathBytes < value.length ∨
      value.any (fun b => b = 0x0D || b = 0x0A || b = 0x00) then .error .payloadInvalid
  else if value = [] then .ok ()
  else if value = [slash] ∨ isAbs value = false ∨ [slash, slash].isPrefixOf value then
    .error .payloadInvalid
  else if file ∧ value.getLast? = some slash then .error .payloadInvalid
  else if matchesProfileSafePath value = false then .error .payloadInvalid
  else if normpath value ≠ value then .error .payloadInvalid
  else .ok ()

def asInteger : Json → Option Int
  | .num literal => Decimal.integerLiteral literal
  | _ => none

mutual
/-- No object of the document has a key twice. -/
def distinctKeys : Json → Bool
  | .arr items => distinctItems items
  | .obj members => decide (members.map Prod.fst).Nodup && distinctMembers members
  | _ => true

def distinctItems : List Json → Bool
  | [] => true
  | item :: items => distinctKeys item && distinctItems items

def distinctMembers : List (Bytes × Json) → Bool
  | [] => true
  | (_, value) :: members => distinctKeys value && distinctMembers members
end

/-- `json.loads` with the hook that refuses duplicate keys. -/
def loads (data : Bytes) : Except ProfileErrorCode Json :=
  match if Utf8.valid data then Json.parse data else none with
  | some value => if distinctKeys value then .ok value else .error .payloadInvalid
  | none => .error .payloadInvalid

def wrapperFields : List Bytes := [ascii "schema_version", ascii "revision", ascii "profile"]

def profileFields : List Bytes :=
  [ascii "allowDeployRead", ascii "allowDeployActions", ascii "allowDeployDomainRead",
    ascii "allowDeployDomainActions", ascii "deployPlansFile", ascii "deployAcmeWebroot",
    ascii "deployWriteRoots"]

/-- The members of an object whose keys are exactly `expected`. -/
def exactFields (expected : List Bytes) : Json → Except ProfileErrorCode Fields
  | .obj members =>
    if (members.map Prod.fst).all (· ∈ expected) ∧ expected.all (· ∈ members.map Prod.fst) then
      .ok members
    else .error .payloadInvalid
  | _ => .error .payloadInvalid

/-- The member of an object as a value of one type. -/
def field {α : Type} (read : Json → Option α) (members : Fields) (key : Bytes)
    (wrong : ProfileErrorCode) : Except ProfileErrorCode α :=
  match (members.lookup key).bind read with
  | some value => .ok value
  | none => .error wrong

/-- The loop over the write roots. -/
def checkRoots (host : Host) (deployPlansFile : Bytes) :
    List Json → Except ProfileErrorCode (List Bytes)
  | [] => .ok []
  | item :: items => do
      match Json.asText item with
      | none => .error .payloadInvalid
      | some root =>
        if root = [] then .error .payloadInvalid
        else do
          validatePath root false
          rejectProtectedWritePath host root deployPlansFile
          let roots ← checkRoots host deployPlansFile items
          return root :: roots

def asItems : Json → Option (List Json)
  | .arr items => some items
  | _ => none

/-- The checks of the profile object, with the roots sorted. -/
def checkProfile (host : Host) (members : Fields) : Except ProfileErrorCode AgentProfile := do
  let allowDeployRead ← field Json.asBool members (ascii "allowDeployRead") .payloadInvalid
  let allowDeployActions ← field Json.asBool members (ascii "allowDeployActions") .payloadInvalid
  let allowDeployDomainRead ← field Json.asBool members
    (ascii "allowDeployDomainRead") .payloadInvalid
  let allowDeployDomainActions ←
    field Json.asBool members (ascii "allowDeployDomainActions") .payloadInvalid
  let deployPlansFile ← field Json.asText members (ascii "deployPlansFile") .payloadInvalid
  validatePath deployPlansFile true
  let deployAcmeWebroot ← field Json.asText members (ascii "deployAcmeWebroot") .payloadInvalid
  validatePath deployAcmeWebroot false
  rejectProtectedWritePath host deployAcmeWebroot deployPlansFile
  let items ← field asItems members (ascii "deployWriteRoots") .payloadInvalid
  if maxProfileWriteRoots < items.length then .error .payloadInvalid
  else do
    let roots ← checkRoots host deployPlansFile items
    if ¬ roots.Nodup then .error .payloadInvalid
    else if allowDeployActions ∧ ¬ allowDeployRead then .error .payloadInvalid
    else if allowDeployDomainRead ∧ ¬ allowDeployRead then .error .payloadInvalid
    else if allowDeployDomainActions ∧ ¬ allowDeployDomainRead then .error .payloadInvalid
    else
      return ⟨allowDeployRead, allowDeployActions, allowDeployDomainRead,
        allowDeployDomainActions, deployPlansFile, deployAcmeWebroot,
        roots.insertionSort (· ≤ ·)⟩

/-! ## The canonical document -/

/-- A character of a string as `json.dumps` writes it without `ensure_ascii`. -/
def dumpByte (b : UInt8) : Bytes :=
  if b = 0x22 then [0x5C, 0x22]
  else if b = 0x5C then [0x5C, 0x5C]
  else if b = 0x0A then [0x5C, 0x6E]
  else if b = 0x0D then [0x5C, 0x72]
  else if b = 0x09 then [0x5C, 0x74]
  else if b = 0x0C then [0x5C, 0x66]
  else if b = 0x08 then [0x5C, 0x62]
  else if b.toNat < 0x20 then Json.unicodeEscape b.toNat
  else [b]

def dumpString (s : Bytes) : Bytes := 0x22 :: (s.flatMap dumpByte ++ [0x22])

mutual
/-- `json.dumps` with the separators `,` and `:`. -/
def dumps : Json → Bytes
  | .null => ascii "null"
  | .bool b => if b then ascii "true" else ascii "false"
  | .num literal => literal
  | .str s => dumpString s
  | .arr [] => [0x5B, 0x5D]
  | .arr (v :: vs) => 0x5B :: (dumps v ++ dumpItems vs)
  | .obj [] => [0x7B, 0x7D]
  | .obj ((k, v) :: ms) => 0x7B :: (dumpString k ++ 0x3A :: (dumps v ++ dumpMembers ms))

def dumpItems : List Json → Bytes
  | [] => [0x5D]
  | v :: vs => 0x2C :: (dumps v ++ dumpItems vs)

def dumpMembers : List (Bytes × Json) → Bytes
  | [] => [0x7D]
  | (k, v) :: ms => 0x2C :: (dumpString k ++ 0x3A :: (dumps v ++ dumpMembers ms))
end

/-- What the validator hands to the installer. -/
structure Candidate where
  revision : Int
  profile : AgentProfile
  canonical : Bytes
  deriving DecidableEq

/-- The validator on the contents of the candidate file. -/
def validateCandidate (host : Host) (data : Bytes) : Except ProfileErrorCode Candidate :=
  if data = [] ∨ maxProfileDocumentBytes < data.length then .error .payloadTooLarge
  else do
    let wrapper ← loads data
    let members ← exactFields wrapperFields wrapper
    let schema ← field asInteger members (ascii "schema_version") .payloadInvalid
    if schema ≠ 1 then .error .payloadInvalid
    else do
      let revision ← field asInteger members (ascii "revision") .revisionInvalid
      if revision < 1 ∨ Decimal.maxInt64 < revision then .error .revisionInvalid
      else do
        let profile ← field some members (ascii "profile") .payloadInvalid
        let fields ← exactFields profileFields profile
        let profile ← checkProfile host fields
        let canonical := dumps (ProfileWrapper.toJson ⟨1, revision, profile⟩)
        if maxProfileDocumentBytes < canonical.length then .error .payloadTooLarge
        else return ⟨revision, profile, canonical⟩

end HeyServer.Agent.Installer
