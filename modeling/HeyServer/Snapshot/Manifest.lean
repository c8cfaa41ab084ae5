import HeyServer.Lib.Paths

/-!
# The manifest of a snapshot

A snapshot is made of the paths of a fixed manifest, of which the operator may switch some off, and
of a staging directory with the dumps of the databases. Entries of the manifest bring patterns of
what is not to be included.

## Implementation notes

Whether a path exists is a parameter. Labels are left out.
-/

namespace HeyServer.Snapshot
open Lib Text

structure ManifestEntry where
  id : Bytes
  path : Bytes
  required : Bool := false
  enabled : Bool := true
  available : Bool := false
  exclude : List Bytes := []
deriving DecidableEq

/-- The operator-controlled policy; there are no `enabledPaths` while the slice is nil. -/
structure SettingsUpdate where
  destination : Bytes
  repoFolder : Bytes
  enabledPaths : Option (List Bytes)
  keepDaily : Int
  keepWeekly : Int
  keepMonthly : Int
  passwordAcknowledged : Bool
deriving DecidableEq

/-- The persisted settings: the policy and the results of the runs. -/
structure Settings extends SettingsUpdate where
  lastRunAt : Bytes
  lastSnapshot : Bytes
  lastError : Bytes
deriving DecidableEq

structure Service where
  dataDir : Bytes
  vhostsRoot : Bytes
  localDir : Bytes

/-- `NewWithS3` -/
def Service.new (dataDir vhostsRoot localDir : Bytes) : Service where
  dataDir := dataDir
  vhostsRoot := vhostsRoot
  localDir := if localDir = [] then filepathJoin dataDir (ascii "backups") else localDir

def defaultManifest (dataDir vhostsRoot : Bytes) : List ManifestEntry :=
  [{ id := ascii "vhosts", path := vhostsRoot, required := true },
    { id := ascii "nginx", path := ascii "/etc/nginx" },
    { id := ascii "letsencrypt", path := ascii "/etc/letsencrypt" },
    { id := ascii "postgresql-cfg", path := ascii "/etc/postgresql" },
    { id := ascii "mysql-cfg", path := ascii "/etc/mysql" },
    { id := ascii "php", path := ascii "/etc/php" },
    { id := ascii "hserver-data", path := dataDir,
      exclude := [ascii "backups", ascii "snapshot-staging"] },
    { id := ascii "cron-d", path := ascii "/etc/cron.d" },
    { id := ascii "systemd", path := ascii "/etc/systemd/system" },
    { id := ascii "root-crontab", path := [] }]

def pathAvailable (exist : Bytes → Bool) (e : ManifestEntry) : Bool :=
  if e.path = [] ∨ e.id = ascii "root-crontab" then true else exist e.path

/-- The identifiers the operator has switched on; all of them while there is no choice. -/
def allowed (settings : Settings) (base : List ManifestEntry) : List Bytes :=
  settings.enabledPaths.getD (base.map (·.id))

variable (s : Service)

def Service.manifestForUI (exist : Bytes → Bool) (settings : Settings) : List ManifestEntry :=
  let base := defaultManifest s.dataDir s.vhostsRoot
  base.map fun e =>
    { e with
      enabled := decide (e.id ∈ allowed settings base) || e.required
      available := pathAvailable exist e }

def Service.resolvedManifest (exist : Bytes → Bool) (settings : Settings) : List ManifestEntry :=
  (s.manifestForUI exist settings).filter fun e => e.enabled && e.available

variable (entries : List ManifestEntry)

def collectExcludes : List Bytes :=
  entries.flatMap fun e =>
    if e.enabled = false ∨ e.path = [] ∨ e.exclude = [] then []
    else
      e.exclude.flatMap fun ex =>
        let pattern := filepathJoin (trimRight 0x2F e.path) ex
        [pattern, pattern ++ ascii "/**"]

def manifestBackupPaths (stagingDir : Bytes) : List Bytes :=
  stagingDir :: (entries.filter fun e => e.path ≠ [] && e.enabled).map (·.path)

def Service.stagingDir : Bytes := filepathJoin s.localDir (ascii "snapshot-staging")

end HeyServer.Snapshot
