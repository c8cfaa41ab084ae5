import HeyServer.Lib.Fallible
import HeyServer.Lib.JsonRoundTrip
import HeyServer.Lib.Text

/-!
# The agent's cron jobs

The agent keeps its cron jobs in a state file of its own and renders them into a file for the cron
daemon. A change names the revision of the list it was made for; the cron file is replaced first,
then the state file, and the cron file is put back if the second replacement fails.

## Implementation notes

The controller's mutex and its lock file make every call one step. Which file steps fail is an
argument of a call, and so are the random bytes of a new id and the outcome of the syntax check by
`crontab`. A file is replaced by a rename, so that a failed replacement leaves it as it was. Keys of
the state file are matched as they are written. Backups of the two files are left out.
-/

namespace HeyServer.Agent.Cron
open Lib Text Utf8

structure CronJob where
  id : Bytes := []
  schedule : Bytes := []
  user : Bytes := []
  command : Bytes := []
  description : Bytes := []
  enabled : Bool := false
deriving DecidableEq

inductive CronError
  | changed
  | notFound
  | invalid
  | unknownUser
  | stateTooLarge
  | stateInvalid
  /-- A file step failed. -/
  | file
  | syntaxTest
  | notEnabled
deriving DecidableEq

structure Env where
  /-- The outcome of `user.Lookup`. -/
  knownUser : Bytes → Bool
  /-- The hexadecimal SHA-256 digest. -/
  digest : Bytes → Bytes
  shell : Bytes

def maxCronJobs : Nat := 256

def maxCronStateBytes : Nat := 1048576

def maxAgentNginxConfigBytes : Nat := 2097152

/-! ## Checks -/

/-- `^[a-f0-9]{64}$` -/
def isSHA256 (s : Bytes) : Bool :=
  s.length = 64 && s.all fun b => (0x61 ≤ b && b ≤ 0x66) || (0x30 ≤ b && b ≤ 0x39)

/-- `^[a-z_][a-z0-9_-]{0,31}$` -/
def isSystemUser : Bytes → Bool
  | [] => false
  | b :: rest =>
    ((0x61 ≤ b && b ≤ 0x7A) || b = 0x5F) && rest.length ≤ 31 &&
      rest.all fun c => (0x61 ≤ c && c ≤ 0x7A) || (0x30 ≤ c && c ≤ 0x39) || c = 0x5F || c = 0x2D

def validAgentCronID (value : Bytes) : Bool :=
  value.length = 17 && ascii "cron-" <+: value && (value.drop 5).all fun b =>
    (Json.hexValue b).isSome

/-- `strings.ContainsAny` with the bytes that end a line or a string. -/
def hasBreak (s : Bytes) : Bool := containsAny s [0x0D, 0x0A, 0]

variable (env : Env) (job : CronJob)

def validateCronJob (requireID : Bool) : Except CronError Unit :=
  if (requireID && !validAgentCronID job.id) || (!requireID && job.id ≠ []) ||
    !isSystemUser job.user ||
      job.command.length = 0 || 4096 < job.command.length || hasBreak job.command ||
      160 < job.description.length || hasBreak job.description || 160 < job.schedule.length ||
      hasBreak job.schedule || (fields job.schedule).length ≠ 5 then .error .invalid
  else if !env.knownUser job.user then .error .unknownUser
  else .ok ()

def validateAll (env : Env) : List CronJob → Except CronError Unit
  | [] => .ok ()
  | job :: rest => do
      validateCronJob env job true
      validateAll env rest

def hexEncode (raw : List UInt8) : Bytes :=
  raw.flatMap fun b => [Json.hexDigit (b.toNat / 16), Json.hexDigit (b.toNat % 16)]

/-- The id made of six random bytes. -/
def newCronID (raw : List UInt8) : Bytes := ascii "cron-" ++ hexEncode raw

/-! ## Texts of a list of jobs -/

def CronJob.toJson : Json :=
  .obj ([(ascii "id", .str job.id), (ascii "schedule", .str job.schedule),
    (ascii "user", .str job.user),
      (ascii "command", .str job.command)] ++
    (if job.description = [] then [] else [(ascii "description", .str job.description)]) ++
    [(ascii "enabled", .bool job.enabled)])

def toJson (jobs : List CronJob) : Json := .arr (jobs.map CronJob.toJson)

/-- A string field of `json.Unmarshal`: `null` leaves it as it is. -/
def setString (set : Bytes → CronJob) : Json → Option CronJob
  | .str s => some (set s)
  | .null => some job
  | _ => none

def setField (key : Bytes) (v : Json) : Option CronJob :=
  if key = ascii "id" then setString job (fun s => { job with id := s }) v
  else if key = ascii "schedule" then setString job (fun s => { job with schedule := s }) v
  else if key = ascii "user" then setString job (fun s => { job with user := s }) v
  else if key = ascii "command" then setString job (fun s => { job with command := s }) v
  else if key = ascii "description" then setString job (fun s => { job with description := s }) v
  else if key = ascii "enabled" then
    match v with
    | .bool b => some { job with enabled := b }
    | .null => some job
    | _ => none
  else some job

def setFields : CronJob → List (Bytes × Json) → Option CronJob
  | job, [] => some job
  | job, (key, v) :: rest => (setField job key v).bind fun job => setFields job rest

def decodeJob : Json → Option CronJob
  | .null => some {}
  | .obj members => setFields {} members
  | _ => none

def decodeItems : List Json → Option (List CronJob)
  | [] => some []
  | v :: vs => (decodeJob v).bind fun job => (decodeItems vs).map (job :: ·)

/-- `json.Unmarshal` into a list of jobs. -/
def unmarshal (content : Bytes) : Option (List CronJob) :=
  match Json.parse content with
  | some (.arr items) => decodeItems items
  | some .null => some []
  | _ => none

section
variable (jobs : List CronJob)

/-- The contents of the state file. -/
def stateText : Bytes := (toJson jobs).encodeIndent ++ [0x0A]

def cronRevision : Bytes := env.digest (toJson jobs).encode

def renderJob : Bytes :=
  ascii "\n# HSERVER " ++ job.id ++
    (if job.description = [] then [] else ascii " - " ++ job.description) ++ ascii "\n" ++
    (if job.enabled then [] else ascii "# DISABLED ") ++
    job.schedule ++ ascii " " ++ job.user ++ ascii " " ++ job.command ++ ascii "\n"

def renderCronJobs (shell : Bytes) : Bytes :=
  ascii "# Managed by Heyserver. Changes outside Heyserver will be replaced.\n" ++
    ascii "SHELL=" ++ shell ++ ascii "\n" ++
    ascii "PATH=/usr/local/sbin:/usr/local/bin:/usr/sbin:/usr/bin:/sbin:/bin\n" ++
    jobs.flatMap renderJob

end

/-! ## Files -/

/-- The state file and the cron file, if they exist. -/
structure Files where
  state : Option Bytes := none
  cron : Option Bytes := none
deriving DecidableEq

/-- The file steps of a call, in their order, and whether each one fails. -/
structure Faults where
  /-- The lock file cannot be created or locked. -/
  lock : Bool := false
  readState : Bool := false
  /-- The syntax check of the rendered jobs fails. -/
  syntaxTest : Bool := false
  /-- A directory cannot be made. -/
  directories : Bool := false
  backupState : Bool := false
  backupCron : Bool := false
  writeCron : Bool := false
  writeState : Bool := false
  restoreCron : Bool := false
deriving DecidableEq

/-- `readManagedFile` of a file whose reading does not fail. -/
def readManagedFile (content : Bytes) : Except CronError Bytes :=
  if maxAgentNginxConfigBytes < content.length then .error .stateTooLarge else .ok content

variable (files : Files)

def loadJobs : Except CronError (List CronJob) :=
  match files.state with
  | none => .ok []
  | some content => do
      let content ← readManagedFile content
      if maxCronStateBytes < content.length then .error .stateTooLarge
      else
        match unmarshal content with
        | none => .error .stateInvalid
        | some jobs =>
          if maxCronJobs < jobs.length then .error .stateInvalid
          else do
            validateAll env jobs
            .ok jobs

/-- `backupCronFile`: an existing file is read and copied. -/
def backupCronFile (file : Option Bytes) (fails : Bool) : Except CronError Unit :=
  match file with
  | none => .ok ()
  | some content => do
      let _ ← readManagedFile content
      if fails then .error .file else .ok ()

abbrev Outcome := Files × Except CronError Unit

/-- Both replacements, after everything before them went well. -/
def replaceFiles (jobs : List CronJob) (faults : Faults) : Outcome :=
  if faults.writeCron then (files, .error .file)
  else if faults.writeState then
    -- `restoreCronFile`, whose error is not looked at
    if faults.restoreCron then
      ({ files with cron := some (renderCronJobs jobs env.shell) }, .error .file)
    else (files, .error .file)
  else (⟨some (stateText jobs), some (renderCronJobs jobs env.shell)⟩, .ok ())

/-- What `saveJobs` does before it replaces a file. -/
def prepareSave (faults : Faults) : Except CronError Unit :=
  if faults.syntaxTest then .error .syntaxTest
  else if faults.directories then .error .file
  else do
    backupCronFile files.state faults.backupState
    backupCronFile files.cron faults.backupCron

def saveJobs (jobs : List CronJob) (faults : Faults) : Outcome :=
  match prepareSave files faults with
  | .error e => (files, .error e)
  | .ok _ => replaceFiles env files jobs faults

/-- The list a change leads to, when it may be saved. -/
def changedJobs (expectedRevision : Bytes)
    (apply : List CronJob → Except CronError (List CronJob)) (faults : Faults) :
    Except CronError (List CronJob) :=
  if !isSHA256 expectedRevision then .error .changed
  else if faults.lock || faults.readState then .error .file
  else do
    let stored ← loadJobs env files
    if cronRevision env stored ≠ expectedRevision then .error .changed
    else do
      let jobs ← apply stored
      if maxCronJobs < jobs.length then .error .invalid
      else do
        validateAll env jobs
        .ok jobs

def mutate (expectedRevision : Bytes)
    (apply : List CronJob → Except CronError (List CronJob)) (faults : Faults) : Outcome :=
  match changedJobs env files expectedRevision apply faults with
  | .error e => (files, .error e)
  | .ok jobs => saveJobs env files jobs faults

/-! ## Calls -/

/-- The first job with the id of `job` is replaced. -/
def replaceJob (job : CronJob) : List CronJob → Except CronError (List CronJob)
  | [] => .error .notFound
  | first :: rest =>
    if first.id = job.id then .ok (job :: rest) else (replaceJob job rest).map (first :: ·)

/-- The first job with this id is taken out. -/
def removeJob (id : Bytes) : List CronJob → Except CronError (List CronJob)
  | [] => .error .notFound
  | first :: rest => if first.id = id then .ok rest else (removeJob id rest).map (first :: ·)

inductive CronCall
  /-- `Create`, with the random bytes of the new id. -/
  | create (job : CronJob) (raw : List UInt8) (expectedRevision : Bytes) (faults : Faults)
  | update (job : CronJob) (expectedRevision : Bytes) (faults : Faults)
  | delete (id expectedRevision : Bytes) (faults : Faults)
deriving DecidableEq

namespace CronCall

def expectedRevision : CronCall → Bytes
  | create _ _ revision _ | update _ revision _ | delete _ revision _ => revision

def faults : CronCall → Faults
  | create _ _ _ faults | update _ _ faults | delete _ _ faults => faults

/-- What the call does to the list. -/
def apply : CronCall → List CronJob → Except CronError (List CronJob)
  | create job raw _ _, jobs => .ok (jobs ++ [{ job with id := newCronID raw }])
  | update job _ _, jobs => replaceJob job jobs
  | delete id _ _, jobs => removeJob id jobs

/-- The checks before the lock is taken; writing is enabled. -/
def check (env : Env) : CronCall → Except CronError Unit
  | create job _ _ _ => validateCronJob env { job with id := [] } false
  | update job _ _ => validateCronJob env job true
  | delete id _ _ => if validAgentCronID id then .ok () else .error .invalid

def run (env : Env) (files : Files) (c : CronCall) : Outcome :=
  match c.check env with
  | .error e => (files, .error e)
  | .ok _ => mutate env files c.expectedRevision c.apply c.faults

end CronCall

end HeyServer.Agent.Cron
