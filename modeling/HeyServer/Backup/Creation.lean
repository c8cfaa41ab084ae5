import HeyServer.Backup.Artifacts
import HeyServer.Lib.Base64Url

/-!
# Creating backups

`Create` and the job that does the same with progress reports (package `backup`, files `backup.go`,
`job_tracked.go` and `pg_env.go`). A database dump or an archive is written straight to its final
place, under a name made of the options, and removed again if a later step fails. A full backup is
an archive of a database backup and a files backup, its two parts.

## Implementation notes

What a tool does is an argument: whether it opened its output, and what it left there. The files are
known by their cleaned paths. A part of a job that goes on after its time is over writes to a file
that has been removed already.
-/

namespace HeyServer.Backup
open Lib Utf8 Lib.Text Lib.Affixes Lib.Base64

structure CreateOptions where
  type : Bytes
  name : Bytes
  engine : Bytes
  database : Bytes
  compressionLevel : Int
  retentionCount : Int
  vhosts : List Bytes
  deriving DecidableEq

inductive CreateError
  | databaseWithVhosts
  | badType
  | noVhostsRoot
  | vhostsRootUnavailable
  | vhostsRootNotDirectory
  | tooManyVhosts
  | invalidVhost (name : Bytes)
  | duplicateVhost (name : Bytes)
  | vhostUnavailable (name : Bytes)
  | vhostLink (name : Bytes)
  | vhostNotDirectory (name : Bytes)
  | noDirectory
  | noCapacity
  | dumpFailed
  | databaseTooSmall (size : Int)
  | filesFailed
  | filesNotCreated (path : Bytes)
  /-- Which of the two parts failed. -/
  | partsRequired (database files : Bool)
  | archiveFailed
  | archiveNotCreated (path : Bytes)
  deriving DecidableEq, Repr

/-! ## Checking the options -/

inductive PathKind
  | missing | link | directory | other
  deriving DecidableEq

/-- What the check of the options asks for. -/
structure Checks where
  /-- `strings.ToLower` -/
  lower : Bytes → Bytes
  lower_ascii : ∀ s : Bytes, (∀ b ∈ s, b.toNat < 0x80) → lower s = toLower s
  /-- `os.Stat` for the root, `os.Lstat` for what lies in it. -/
  pathKind : Bytes → PathKind

/-- The regular expression `portableVhostNameRe`. -/
def isPortableVhostName (name : Bytes) : Bool :=
  name.head?.any isAlnum && name.length ≤ 253 && name.tail.all isIdByte

def requestedType (checks : Checks) (opts : CreateOptions) : Bytes :=
  let backupType := checks.lower (trimSpace opts.type)
  if backupType = [] then ascii "full" else backupType

namespace Service

def validatedVhostsRoot (s : Service) (checks : Checks) : Except CreateError Unit :=
  if s.vhostsRoot = [] then .error .noVhostsRoot
  else
    match checks.pathKind s.vhostsRoot with
    | .missing => .error .vhostsRootUnavailable
    | .directory => .ok ()
    | .link | .other => .error .vhostsRootNotDirectory

def checkVhosts (s : Service) (checks : Checks) : List Bytes → List Bytes → Except CreateError Unit
  | _, [] => .ok ()
  | seen, name :: rest =>
    if name = dot ∨ name = dotdot ∨ isPortableVhostName name =
      false then .error (.invalidVhost name)
    else if name ∈ seen then .error (.duplicateVhost name)
    else
      match checks.pathKind (filepathJoin s.vhostsRoot name) with
      | .missing => .error (.vhostUnavailable name)
      | .link => .error (.vhostLink name)
      | .other => .error (.vhostNotDirectory name)
      | .directory => s.checkVhosts checks (name :: seen) rest

def validateCreateOptions (s : Service) (checks : Checks) (opts : CreateOptions) :
    Except CreateError Unit :=
  let backupType := requestedType checks opts
  if backupType = ascii "database" then
    if opts.vhosts ≠ [] then .error .databaseWithVhosts else .ok ()
  else if backupType ≠ ascii "files" ∧ backupType ≠ ascii "full" then .error .badType
  else do
    s.validatedVhostsRoot checks
    if 16 < opts.vhosts.length then .error .tooManyVhosts
    else s.checkVhosts checks [] opts.vhosts

end Service

/-! ## Names and contents -/

section
variable (opts : CreateOptions)

def namePart (ts : Bytes) : Bytes :=
  sanitize (if opts.name = [] then ascii "backup-" ++ ts else opts.name)

def engineOf : Bytes :=
  if opts.engine = [] then ascii "postgresql" else opts.engine

def databaseOf : Bytes :=
  sanitize (if opts.database = [] then ascii "all" else opts.database)

end

section
variable (namePart : Bytes)

def databaseFilename (opts : CreateOptions) : Bytes :=
  namePart ++ ascii "-db-" ++ databaseOf opts ++ ascii "-" ++ engineOf opts ++ sqlGzEnding

def filesFilename : Bytes := namePart ++ ascii "-files.tar.gz"

def fullFilename : Bytes := namePart ++ ascii "-full.tar.gz"

def partialName : Bytes := namePart ++ ascii "-partial"

end

def Service.fullPartialPaths (s : Service) (namePart : Bytes) (opts : CreateOptions) : List Bytes :=
  let base := partialName (sanitize namePart)
  [filepathJoin s.backupDir (databaseFilename base opts),
    filepathJoin s.backupDir (filesFilename base)]

/-- The command `gzip` and the reader of package `compress/gzip`. -/
structure Gzip where
  gzip : Int → Bytes → Bytes
  gunzip : Bytes → Option Bytes
  gunzip_gzip : ∀ level text, gunzip (gzip level text) = some text

def databaseTargetHeader : Bytes := ascii "-- HSERVER_DATABASE_TARGET "

def databaseBackupHeader (database : Bytes) : Bytes :=
  databaseTargetHeader ++ encodeRawUrl database ++ [0x0A]

/-! ## What is dumped -/

/-- A program and its arguments. -/
structure Command where
  program : Bytes
  args : List Bytes

/-- The command without the file that names the account. -/
def mysqlDumpCommand (database : Bytes) : Command :=
  ⟨ascii "mysqldump", [if database = ascii "all" then ascii "--all-databases" else database]⟩

/-- The command without the account and the environment it gets from `sudo` and `env`. -/
def pgDumpCommand (db engine : Bytes) : Command :=
  if engine ≠ ascii "postgresql" then mysqlDumpCommand db
  else if db ≠ ascii "all" then
    ⟨ascii "pg_dump", [ascii "--clean", ascii "--if-exists", ascii "-Fp", db]⟩
  else ⟨ascii "pg_dumpall", [ascii "--clean", ascii "--if-exists"]⟩

/-- What a dump holds. -/
inductive Dumped
  | all
  | database (name : Bytes)
  /-- No database is named; the options decide. -/
  | unnamed
  deriving DecidableEq

def Dumped.named : List Bytes → Dumped
  | [name] => .database name
  | _ => .unnamed

/-- An argument that starts with a dash is an option for the tools. -/
def Command.dumped (c : Command) : Dumped :=
  if c.program = ascii "pg_dumpall" ∨
      c.program = ascii "mysqldump" ∧ ascii "--all-databases" ∈ c.args then .all
  else .named (c.args.filter fun arg => !(ascii "-").isPrefixOf arg)

/-- What a restore takes a target for. -/
def restored (target : Bytes) : Dumped :=
  if target = ascii "all" then .all else .database target

/-! ## Files -/

structure File where
  data : Bytes
  blocks : Int
  modTime : Int
  deriving DecidableEq

/-- The files by their cleaned paths. -/
abbrev Files := Bytes → Option File

namespace Files

def put (files : Files) (path : Bytes) (f : File) : Files :=
    fun p => if p = path then some f else files p

/-- The files whose removal succeeds are gone. -/
def removeAll (files : Files) (removes : Bytes → Bool) (paths : List Bytes) : Files :=
  fun p => if p ∈ paths ∧ removes p = true then none else files p

end Files

/-- A command that writes a file. -/
inductive ToolRun
  | notOpened
  /-- It failed, was stopped or ran out of time. -/
  | broken (left : File)
  | finished (output : Bytes) (blocks modTime : Int)
  deriving DecidableEq

/-- The longest file name. -/
def nameMax : Nat := 255

/-- The files after the command has run, and whether it succeeded. -/
def ToolRun.exec (run : ToolRun) (path : Bytes) (content : Bytes → Bytes) (files : Files) :
    Files × Bool :=
  if nameMax < (base path).length then (files, false)
  else
    match run with
    | .notOpened => (files, false)
    | .broken left => (files.put path left, false)
    | .finished output blocks modTime => (files.put path ⟨content output, blocks, modTime⟩, true)

/-- The synchronous call and the job. -/
inductive Mode
  | sync | tracked
  deriving DecidableEq

/-- What happens around a call. -/
structure Host where
  /-- `os.MkdirAll` and the check of the free space. -/
  directory : Bool
  capacity : Bool
  dump : ToolRun
  tar : ToolRun
  /-- The `tar` that joins the parts of a full backup. -/
  bundle : ToolRun
  /-- The files that can be removed. -/
  removes : Bytes → Bool
  /-- What `List` returns when old backups are looked for. -/
  list : List BackupInfo
  now : Int

/-! ## The three kinds of backups -/

namespace Service

def statBackup (s : Service) (files : Files) (now : Int) (filename : Bytes) (type : BackupType) :
    BackupInfo :=
  let fullPath := filepathJoin s.backupDir filename
  match files fullPath with
  | none => ⟨buildID filename, filename, type, fullPath, 0, 0, .failed, now⟩
  | some f =>
    ⟨buildID filename, filename, type, fullPath, f.data.length,
      if 0 < f.blocks then f.blocks * 512 else f.data.length,
      backupValidity filename f.data.length, f.modTime⟩

section Create

variable (mode : Mode) (gz : Gzip) (host : Host) (s : Service) (opts : CreateOptions)

section
variable (namePart : Bytes) (level : Int) (files : Files)

def createDatabase : Files × Except CreateError BackupInfo :=
  let filename := databaseFilename namePart opts
  let fullPath := filepathJoin s.backupDir filename
  let content (dump : Bytes) := gz.gzip level (databaseBackupHeader (databaseOf opts) ++ dump)
  let dumped := host.dump.exec fullPath content files
  let removed := dumped.1.removeAll host.removes [fullPath]
  let info := s.statBackup dumped.1 host.now filename .database
  if dumped.2 = false then (removed, .error .dumpFailed)
  else if info.size < minDatabaseBackupBytes then (removed, .error (.databaseTooSmall info.size))
  else (dumped.1, .ok info)

/-- The job does not look at the archive it has got. -/
def createFiles : Files × Except CreateError BackupInfo :=
  let filename := filesFilename namePart
  let fullPath := filepathJoin s.backupDir filename
  let archived := host.tar.exec fullPath id files
  let removed := archived.1.removeAll host.removes [fullPath]
  let info := s.statBackup archived.1 host.now filename .files
  if archived.2 = false then (removed, .error .filesFailed)
  else if mode = .sync ∧ info.status ≠ .completed then (removed, .error (.filesNotCreated fullPath))
  else (archived.1, .ok info)

/-- The part of a full backup up to its last check. -/
def assembleFull : Files × Except CreateError BackupInfo :=
  let filename := fullFilename namePart
  let fullPath := filepathJoin s.backupDir filename
  let database := s.createDatabase gz host opts (partialName namePart) level files
  let site := s.createFiles mode host (partialName namePart) database.1
  match database.2, site.2 with
  | .ok dbInfo, .ok filesInfo =>
    let archived := host.bundle.exec fullPath id site.1
    if archived.2 = false then (archived.1, .error .archiveFailed)
    else
      let files :=
        if mode = .sync then archived.1.removeAll host.removes [dbInfo.path, filesInfo.path]
        else archived.1
      let info := s.statBackup files host.now filename .full
      if info.status ≠ .completed then (files, .error (.archiveNotCreated fullPath))
      else (files, .ok info)
  | .error _, .error _ => (site.1, .error (.partsRequired true true))
  | .error _, .ok _ => (site.1, .error (.partsRequired true false))
  | .ok _, .error _ => (site.1, .error (.partsRequired false true))

/-- The paths `applyRetention` removes, of the list it got. -/
def retentionPaths (type : BackupType) (keep : Int) (list : List BackupInfo) : List Bytes :=
  ((list.filter fun b => b.type = type ∧ b.status = .completed).drop keep.toNat).map BackupInfo.path

/-- The paths a full backup removes once it is complete. -/
def removedByFull (list : List BackupInfo) : List Bytes :=
  (if 0 < opts.retentionCount then retentionPaths .full opts.retentionCount list else []) ++
    s.fullPartialPaths namePart opts

def createFull : Files × Except CreateError BackupInfo :=
  let assembled := s.assembleFull mode gz host opts namePart level files
  match assembled.2 with
  | .error e =>
    let outputs := s.fullPartialPaths namePart opts ++
      [filepathJoin s.backupDir (fullFilename namePart)]
    (assembled.1.removeAll host.removes outputs, .error e)
  | .ok info =>
    (assembled.1.removeAll host.removes (s.removedByFull opts namePart host.list), .ok info)

end

/-- What is checked before anything is written. -/
def prepare (checks : Checks) : Except CreateError Unit := do
  s.validateCreateOptions checks opts
  if s.backupDir = [] ∨ host.directory = false then .error .noDirectory
  else if host.capacity = false then .error .noCapacity
  else .ok ()

def gzipLevel (opts : CreateOptions) : Int :=
  if opts.compressionLevel < 1 ∨ 9 < opts.compressionLevel then 6 else opts.compressionLevel

/-- `Create` and `runCreateJob`. The kind is read off the type as it was given. -/
def create (checks : Checks) (ts : Bytes) (files : Files) : Files × Except CreateError BackupInfo :=
  match s.prepare host opts checks with
  | .error e => (files, .error e)
  | .ok () =>
    let name := namePart opts ts
    if opts.type = ascii "database" then s.createDatabase gz host opts name (gzipLevel opts) files
    else if opts.type = ascii "files" then s.createFiles mode host name files
    else s.createFull mode gz host opts name (gzipLevel opts) files

end Create

end Service

end HeyServer.Backup
