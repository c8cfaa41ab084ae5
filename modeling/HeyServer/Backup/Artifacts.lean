import HeyServer.Backup.Jobs
import HeyServer.Lib.Affixes
import HeyServer.Lib.Fallible
import HeyServer.Lib.Paths

/-!
# Backup artifacts

The backup directory as the service sees it (package `backup`, files `backup.go` and `validity.go`).
All that is known of an artifact is read off its file name: its kind, whether it was left behind by
an interrupted backup, and its id, by which it is deleted, restored or purged.
-/

namespace HeyServer.Backup
open Lib Utf8 Lib.Text Lib.Affixes

inductive BackupType
  | full | database | files
  deriving DecidableEq, Repr

inductive ArtifactStatus
  | completed | invalid | orphaned | failed
  deriving DecidableEq, Repr

/-! ## File names -/

def isIdByte (b : UInt8) : Bool :=
  isAlnum b || b = 0x2D || b = 0x5F || b = 0x2E

/-- Runes outside of ASCII are dropped with all their bytes. -/
def sanitize (s : Bytes) : Bytes := s.filter isIdByte

def partEnding : Bytes := ascii ".part"

def tarEnding : Bytes := ascii ".tar.gz"

def sqlGzEnding : Bytes := ascii ".sql.gz"

def sqlEnding : Bytes := ascii ".sql"

section
variable (filename : Bytes)

def buildID : Bytes :=
  stripEach [tarEnding, sqlGzEnding, sqlEnding] (trimSuffix filename partEnding)

def parseType : BackupType :=
  let filename := trimSuffix filename partEnding
  if ascii "-db-" <:+: filename ∨ ascii "_db_" <:+: filename then .database
  else if ascii "-files" <:+: filename ∨ ascii "_files" <:+: filename then .files
  else .full

def isRecognizedBackupArtifact (name : Bytes) : Bool :=
  let base := trimSuffix name partEnding
  tarEnding <:+ base || sqlGzEnding <:+ base || sqlEnding <:+ base

def isOrphanedArtifact (name : Bytes) : Bool :=
  partEnding <:+ name || ascii "-partial-files.tar.gz" <:+ name ||
    (ascii "-partial-db-" <:+: name && (sqlGzEnding <:+ name || sqlEnding <:+ name))

def minDatabaseBackupBytes : Int := 128

def minFilesBackupBytes : Int := 1024

/-- No letter outside of ASCII has a lower case in one of the endings looked for. -/
def backupValidity (size : Int) : ArtifactStatus :=
  let lower := toLower filename
  if size ≤ 0 then .invalid
  else if sqlGzEnding <:+ lower ∨ sqlEnding <:+ lower then
    if size < minDatabaseBackupBytes then .invalid else .completed
  else if tarEnding <:+ lower then
    if size < minFilesBackupBytes then .invalid else .completed
  else .completed

end

inductive Engine
  | postgresql | mariadb
  deriving DecidableEq, Repr

def Engine.name : Engine → Bytes
  | .postgresql => ascii "postgresql"
  | .mariadb => ascii "mariadb"

/-! ## Listing -/

structure BackupInfo where
  id : Bytes
  name : Bytes
  type : BackupType
  path : Bytes
  size : Int
  diskSize : Int
  status : ArtifactStatus
  createdAt : Int
  deriving DecidableEq, Repr

/-- An entry of a directory with what `Info` tells about it. -/
structure DirEntry where
  name : Bytes
  isDir : Bool
  size : Int
  /-- The 512-byte blocks the file takes. -/
  blocks : Int
  modTime : Int
  deriving DecidableEq, Repr

def allocatedFileBytes (e : DirEntry) : Int := if 0 < e.blocks then e.blocks * 512 else e.size

def backupDiskBytes (info : BackupInfo) : Int :=
    if 0 < info.diskSize then info.diskSize else info.size

/-- What `os.ReadDir` answers, with no entries for a directory that cannot be read. The empty path
names no directory. -/
structure Disk where
  readDir : Bytes → List DirEntry
  isName_of_mem : ∀ dir, ∀ e ∈ readDir dir, isName e.name = true
  nodup : ∀ dir, ((readDir dir).map DirEntry.name).Nodup
  nowhere : readDir [] = []

structure Service where
  backupDir : Bytes
  legacyDirs : List Bytes
  vhostsRoot : Bytes
  deriving DecidableEq

def legacyIdPrefix : Bytes := ascii "legacy-"

namespace Service

def newService (dir vhostsRoot : Bytes) (legacyDirs : List Bytes) : Service :=
  let vhostsRoot := trimSpace vhostsRoot
  { backupDir := dir
    legacyDirs := legacyDirs
    vhostsRoot := if isAbs vhostsRoot then clean vhostsRoot else [] }

def newAt (dir : Bytes) : Service := newService dir [] []

end Service

/-- The description of one directory entry. -/
def backupInfo (dir idPrefix : Bytes) (e : DirEntry) : BackupInfo where
  id := idPrefix ++ buildID e.name
  name := e.name
  type := parseType e.name
  path := filepathJoin dir e.name
  size := e.size
  diskSize := allocatedFileBytes e
  status :=
    if isOrphanedArtifact e.name then .orphaned
    else backupValidity (trimSuffix e.name partEnding) e.size
  createdAt := e.modTime

/-- The entries that are shown. -/
def isShown (orphanedOnly : Bool) (e : DirEntry) : Bool :=
  !e.isDir && isRecognizedBackupArtifact e.name && (!orphanedOnly || isOrphanedArtifact e.name)

def listDirectory (disk : Disk) (dir : Bytes) (orphanedOnly : Bool) (idPrefix : Bytes) :
    List BackupInfo :=
  ((disk.readDir dir).filter (isShown orphanedOnly)).map (backupInfo dir idPrefix)

namespace Service

/-- The backups as they are found, before they are sorted. -/
def found (s : Service) (disk : Disk) : List BackupInfo :=
  listDirectory disk s.backupDir false [] ++
    (s.legacyDirs.filter fun legacyDir =>
      clean legacyDir ≠ clean s.backupDir).flatMap fun legacyDir =>
      listDirectory disk legacyDir true legacyIdPrefix

/-- A list that `List` may return: what is found, newest first. `sort.Slice` leaves open how backups
of the same time are ordered. -/
structure Listing (s : Service) (disk : Disk) (list : List BackupInfo) : Prop where
  perm : list.Perm (s.found disk)
  newestFirst : list.Pairwise fun a b => b.createdAt ≤ a.createdAt

end Service

/-! ## Calls by id -/

inductive ArtifactError
  | notFound (id : Bytes)
  | notRestorable (id : Bytes) (status : ArtifactStatus)
  | noEngine (base : Bytes)
  | noIds
  | tooManyIds
  | jobsActive
  | notOrphaned (id : Bytes)
  | removeFailed (path : Bytes)
  deriving DecidableEq, Repr

/-- The files a call has removed, and its error. -/
structure Removal where
  removed : List Bytes
  error : Option ArtifactError
  deriving DecidableEq, Repr

/-- `os.Remove`, which fails for the paths in `fails`. -/
def remove (fails : Bytes → Bool) (path : Bytes) : Removal :=
  if fails path then ⟨[], some (.removeFailed path)⟩ else ⟨[path], none⟩

def delete (fails : Bytes → Bool) (list : List BackupInfo) (id : Bytes) : Removal :=
  match list.find? fun b => b.id = sanitize id with
  | some b => remove fails b.path
  | none => ⟨[], some (.notFound id)⟩

variable (list : List BackupInfo) (id : Bytes)

def restoreCandidate : Except ArtifactError BackupInfo :=
  match list.find? fun b => b.id = sanitize id with
  | none => .error (.notFound id)
  | some found => if found.status ≠ .completed then .error
    (.notRestorable id found.status) else .ok found

def databaseEngineFromBackupName (name : Bytes) : Except ArtifactError Engine :=
  let base := base name
  if ascii "-postgresql.sql.gz" <:+ base ∨ ascii "-postgresql.sql" <:+ base then .ok .postgresql
  else if ascii "-mariadb.sql.gz" <:+ base ∨ ascii "-mariadb.sql" <:+ base then .ok .mariadb
  else .error (.noEngine base)

/-- What is restored, and from which file. -/
inductive RestorePlan
  | database (path : Bytes) (engine : Engine)
  | files (path : Bytes)
  | full (path : Bytes)
  deriving DecidableEq, Repr

/-- The part of `Restore` after the backup has been found. -/
def restoreFound (found : BackupInfo) : Except ArtifactError RestorePlan :=
  match found.type with
  | .database => (databaseEngineFromBackupName found.name).map (.database found.path)
  | .files => .ok (.files found.path)
  | .full => .ok (.full found.path)

def restore : Except ArtifactError RestorePlan :=
  restoreCandidate list id >>= restoreFound

/-- The map of the orphaned backups by id, in which a later backup replaces an earlier one. -/
def orphanedById : Option BackupInfo :=
  (list.filter fun item => item.status = .orphaned).reverse.find? fun item => item.id = id

def selectOrphaned (orphaned : Bytes → Option BackupInfo) :
    List Bytes → List Bytes → Except ArtifactError (List BackupInfo)
  | _, [] => .ok []
  | seen, rawID :: rest =>
    let id := sanitize rawID
    if id = [] ∨ id ∈ seen then selectOrphaned orphaned seen rest
    else
      match orphaned id with
      | none => .error (.notOrphaned rawID)
      | some item => (selectOrphaned orphaned (id :: seen) rest).map (item :: ·)

structure Purge extends Removal where
  freed : Int
  deriving DecidableEq, Repr

def Purge.refused (e : ArtifactError) : Purge := ⟨⟨[], some e⟩, 0⟩

def removeSelected (fails : Bytes → Bool) : List BackupInfo → Purge
  | [] => ⟨⟨[], none⟩, 0⟩
  | item :: rest =>
    if fails item.path then .refused (.removeFailed item.path)
    else
      let after := removeSelected fails rest
      ⟨⟨item.path :: after.removed, after.error⟩, backupDiskBytes item + after.freed⟩

def purgeOrphaned (active : List Job) (fails : Bytes → Bool) (list : List BackupInfo)
    (ids : List Bytes) : Purge :=
  if ids = [] then .refused .noIds
  else if 200 < ids.length then .refused .tooManyIds
  else if active ≠ [] then .refused .jobsActive
  else
    match selectOrphaned (orphanedById list) [] ids with
    | .error e => .refused e
    | .ok selected => removeSelected fails selected

end HeyServer.Backup
