import HeyServer.Lib.Interleaving
import HeyServer.Lib.Text
import HeyServer.Lib.WallClock

/-!
# Backup jobs

Backups, restores, snapshots and uploads are tracked as jobs. A worker reports its progress and
its result under the id of its job; a user may dismiss the job, and a request for the active jobs
ends those that were silent for too long.

## Implementation notes

`jobs` maps ids to pointers, as the source does: a record that is replaced or forgotten stays in
`heap`, where the pointer is its place. Each critical section is one operation; the times it reads
are its arguments. The file the jobs are saved to and the subscribers are left out.
-/

namespace HeyServer.Backup
open Lib Text

/-- The bytes of a literal that is not ASCII. -/
def utf8 (s : String) : Bytes := s.toList.flatMap String.utf8EncodeChar

inductive JobStatus
  | pending | running | done | failed
deriving DecidableEq, Repr

inductive JobPhase
  | preparing | database | files | archive | retention
  | gdriveUpload | gdriveRestore | restore | verify | done
deriving DecidableEq, Repr

/-- `Job`. Times are nanoseconds since 1970; there is none while a time is the zero time. -/
structure Job where
  id : Bytes
  jobType : Bytes
  source : Bytes
  status : JobStatus
  phase : JobPhase
  progress : Int
  message : Bytes
  error : Bytes := []
  startedAt : Nat
  updatedAt : Option Nat
  doneAt : Option Nat := none
  etaSeconds : Nat := 0
  bytesDone : Int := 0
  bytesTotal : Int := 0
  sizeEstimate : Int := 0
  outputFile : Bytes := []
  speed : Bytes := []
  command : Bytes := []
  logs : List Bytes := []
deriving DecidableEq

def Job.isActive (j : Job) : Bool := j.status = .pending || j.status = .running

/-! ## Times -/

def secondNanos : Nat := 1000000000

def jobRetention : Nat := 24 * 3600 * secondNanos

def jobStaleAfter : Nat := 15 * 60 * secondNanos

def jobMaxRuntime : Nat := 6 * 3600 * secondNanos

/-- What the clocks of a time zone show, in seconds, at a second since 1970. -/
abbrev Zone := Nat → Nat

/-- Universal time. -/
def utc : Zone := fun second => second

/-- The local reading of an instant. -/
def Zone.moment (zone : Zone) (now : Nat) : Moment where
  wall := WallClock.ofSeconds (zone (now / secondNanos))
  nanos := now % secondNanos

def randomSuffix (zone : Zone) (now : Nat) : Bytes :=
  Layout.format (ascii "000000000") (zone.moment now)

/-- The id `newJob` gives a job. -/
def newJobId (zone : Zone) (jobType : Bytes) (now : Nat) : Bytes :=
  jobType ++ ascii "-" ++ Layout.format Layout.compact (zone.moment now) ++ ascii "-" ++
    randomSuffix zone now

/-! ## Changes of one job -/

def maxJobLogLines : Nat := 200

def maxJobLogLineLen : Nat := 800

/-- `…` -/
def ellipsis : Bytes := utf8 "…"

def truncateJobMessage (msg : Bytes) (n : Nat) : Bytes :=
  let msg := trimSpace msg
  if msg.length ≤ n then msg else msg.take n ++ ellipsis

section
variable (zone : Zone) (now : Nat)

/-- A line of the job's log, with the time of day. -/
def logEntry (line : Bytes) : Bytes :=
  ascii "[" ++ Layout.format (ascii "15:04:05.000") (zone.moment now) ++ ascii "] " ++ line

/-- `computeETA`, with an exact quotient. -/
def Job.computeETA (j : Job) : Job :=
  if j.progress ≤ 0 ∨ 100 ≤ j.progress then { j with etaSeconds := 0 }
  else if now < j.startedAt + secondNanos then j
  else
    let progress := j.progress.toNat
    { j with etaSeconds := (now - j.startedAt) * (100 - progress) / (progress * secondNanos) }

/-- What a worker reports about its progress. -/
structure Progress where
  phase : JobPhase
  progress : Int
  message : Bytes
  bytesDone : Int := 0
  bytesTotal : Int := 0
  speed : Bytes := []

def Job.updateDetail (p : Progress) (now : Nat) (j : Job) : Job :=
  { j with
    status := .running
    phase := p.phase
    progress := max 0 (min p.progress 100)
    message := if p.message ≠ [] then p.message else j.message
    bytesDone := if p.bytesDone > 0 then p.bytesDone else j.bytesDone
    bytesTotal := if p.bytesTotal > 0 then p.bytesTotal else j.bytesTotal
    speed := if p.speed ≠ [] then p.speed else j.speed
    updatedAt := some now }.computeETA now

def Job.appendLog (line : Bytes) (now : Nat) (j : Job) : Job :=
  let logs := j.logs ++ [logEntry zone now line]
  { j with
    updatedAt := some now
    logs := logs.drop (logs.length - maxJobLogLines) }

def Job.setCommand (cmd : Bytes) (j : Job) : Job := { j with command := cmd }

def Job.setOutput (outputFile : Bytes) (sizeEstimate : Int) (j : Job) : Job :=
  { j with
    outputFile := outputFile
    sizeEstimate := if sizeEstimate > 0 then sizeEstimate else j.sizeEstimate }

/-- Dismissal and reconciliation end a job the same way. -/
def Job.abandon (reason : Bytes) (now : Nat) (j : Job) : Job :=
  { j with
    status := .failed
    phase := .done
    progress := 100
    error := reason
    message := reason
    doneAt := some now
    etaSeconds := 0
    logs := j.logs ++ [logEntry zone now (utf8 "✗ " ++ reason)] }

/-- `setJob` on the record. -/
def Job.set (status : JobStatus) (msg : Bytes) (now : Nat) (j : Job) : Job :=
  match status with
  | .done =>
    { j with
      status := .done
      message := msg
      phase := .done
      progress := 100
      doneAt := some now
      etaSeconds := 0
      logs := j.logs ++ [logEntry zone now (utf8 "✓ " ++ msg)] }
  | .failed =>
    { j with
      status := .failed
      phase := .done
      progress := 100
      error := truncateJobMessage msg 600
      message := truncateJobMessage msg 200
      doneAt := some now
      etaSeconds := 0
      logs := j.logs ++ [logEntry zone now (utf8 "✗ " ++ msg)] }
  | status => { j with status := status, message := msg }

/-- The reason for which a job is ended when the active jobs are asked for. -/
def Job.staleReason (j : Job) : Option Bytes :=
  if !j.isActive then none
  else if j.startedAt + jobMaxRuntime < now then
    some (utf8 "İşlem zaman aşımına uğradı (6 saat)")
  else if j.updatedAt.getD j.startedAt + jobStaleAfter < now then
    some (utf8 "İşlem yanıt vermiyor — panel yeniden başlatıldı veya süreç sonlandı")
  else none

def Job.reconcile (j : Job) : Job :=
  match j.staleReason now with
  | some reason => j.abandon zone reason now
  | none => j

end

/-! ## The table of jobs -/

structure JobTable where
  heap : List Job := []
  jobs : List (Bytes × Nat) := []

namespace JobTable

/-- `s.jobs[id]` -/
def pointer? (t : JobTable) (id : Bytes) : Option Nat := t.jobs.lookup id

/-- The record tracked under an id. -/
def job? (t : JobTable) (id : Bytes) : Option Job := (t.pointer? id).bind fun p => t.heap[p]?

def insert (t : JobTable) (job : Job) : JobTable where
  heap := t.heap ++ [job]
  jobs := (job.id, t.heap.length) :: t.jobs.filter fun entry => entry.1 ≠ job.id

/-- A change of the record tracked under an id, if there is one. -/
def modify (t : JobTable) (id : Bytes) (f : Job → Job) : JobTable :=
  match t.pointer? id with
  | some p => { t with heap := t.heap.modify p f }
  | none => t

def newJob (zone : Zone) (jobType source : Bytes) (now : Nat) (t : JobTable) : JobTable :=
  t.insert {
    id := newJobId zone jobType now
    jobType := jobType
    source := if source = [] then ascii "manual" else source
    status := .pending
    phase := .preparing
    progress := 0
    message := utf8 "Hazırlanıyor…"
    startedAt := now
    updatedAt := some now }

def appendJobLog (zone : Zone) (id line : Bytes) (now : Nat) (t : JobTable) : JobTable :=
  let line := trimSpace line
  if line = [] then t
  else
    let line := if maxJobLogLineLen < line.length then line.take maxJobLogLineLen ++
      ellipsis else line
    t.modify id (Job.appendLog zone line now)

/-- Whether a record is forgotten once some job has ended. -/
def pruned (t : JobTable) (now p : Nat) : Bool :=
  t.heap[p]?.any fun j => decide (j.startedAt + jobRetention < now) && !j.isActive

def pruneJobs (now : Nat) (t : JobTable) : JobTable :=
  { t with jobs := t.jobs.filter fun entry => !t.pruned now entry.2 }

def setJob (zone : Zone) (id : Bytes) (status : JobStatus) (msg : Bytes) (now : Nat)
    (t : JobTable) : JobTable :=
  if (t.pointer? id).isSome then (t.modify id (Job.set zone status msg now)).pruneJobs now else t

inductive DismissError
  | notFound
  | notActive
deriving DecidableEq

def dismissReason (reason : Bytes) : Bytes :=
  if reason = [] then utf8 "Kullanıcı tarafından kapatıldı" else reason

def dismissJob (zone : Zone) (id reason : Bytes) (now : Nat) (t : JobTable) :
    JobTable × Except DismissError Unit :=
  match t.job? id with
  | none => (t, .error .notFound)
  | some j =>
    if j.isActive then (t.modify id (Job.abandon zone (dismissReason reason) now), .ok ())
    else (t, .error .notActive)

/-- `reconcileStaleJobsLocked`: the tracked records one after the other. -/
def reconcileStaleJobs (zone : Zone) (now : Nat) (t : JobTable) : JobTable :=
  { t with heap := t.jobs.foldl (fun heap entry =>
    heap.modify entry.2 (Job.reconcile zone now)) t.heap }

def activeJobs (t : JobTable) : List Job :=
  t.jobs.filterMap fun entry => (t.heap[entry.2]?).filter Job.isActive

end JobTable

/-! ## Critical sections and calls -/

inductive JobOp
  | newJob (jobType source : Bytes) (now : Nat)
  | updateJobDetail (id : Bytes) (progress : Progress) (now : Nat)
  | appendJobLog (id line : Bytes) (now : Nat)
  | setJobCommand (id cmd : Bytes)
  | setJobOutput (id outputFile : Bytes) (sizeEstimate : Int)
  | setJob (id : Bytes) (status : JobStatus) (msg : Bytes) (now : Nat)
  | dismissJob (id reason : Bytes) (now : Nat)
  | reconcileStaleJobs (now : Nat)
  | activeJobs

def JobOp.Reply : JobOp → Type
  | .newJob .. => Bytes
  | .dismissJob .. => Except JobTable.DismissError Unit
  | .activeJobs => List Job
  | _ => Unit

def JobOp.exec (zone : Zone) (t : JobTable) : (op : JobOp) → JobTable × op.Reply
  | .newJob jobType source now => (t.newJob zone jobType source now, newJobId zone jobType now)
  | .updateJobDetail id progress now => (t.modify id (Job.updateDetail progress now), ())
  | .appendJobLog id line now => (t.appendJobLog zone id line now, ())
  | .setJobCommand id cmd => (t.modify id (Job.setCommand cmd), ())
  | .setJobOutput id outputFile sizeEstimate =>
    (t.modify id (Job.setOutput outputFile sizeEstimate), ())
  | .setJob id status msg now => (t.setJob zone id status msg now, ())
  | .dismissJob id reason now => t.dismissJob zone id reason now
  | .reconcileStaleJobs now => (t.reconcileStaleJobs zone now, ())
  | .activeJobs => (t, t.activeJobs)

def jobSemantics (zone : Zone) : Semantics JobTable JobOp JobOp.Reply where
  exec := JobOp.exec zone

/-- The calls that reach the table of jobs. -/
inductive JobCall
  | newJob (jobType source : Bytes) (now : Nat)
  | startJob (jobType source message : Bytes) (now later : Nat)
  | updateJobProgress (id : Bytes) (progress : Progress) (now : Nat)
  | appendJobLog (id line : Bytes) (now : Nat)
  | setJobCommand (id cmd : Bytes)
  | setJobOutput (id outputFile : Bytes) (sizeEstimate : Int)
  | setJob (id : Bytes) (status : JobStatus) (msg : Bytes) (now : Nat)
  | completeJob (id : Bytes) (success : Bool) (message outputFile : Bytes) (now : Nat)
  | dismissJob (id reason : Bytes) (now : Nat)
  | listActiveJobs (now : Nat)

inductive JobResult
  | unit
  | id (id : Bytes)
  | dismissed (result : Except JobTable.DismissError Unit)
  | jobs (jobs : List Job)

abbrev JobProg := Prog JobOp JobOp.Reply JobResult

namespace JobCall

/-- `StartJob`: the first report of progress is a critical section of its own. -/
def startProgram (jobType source message : Bytes) (now later : Nat) : JobProg :=
  .call (.newJob jobType source now) fun id =>
    if message ≠ [] then
      .call (.updateJobDetail id ⟨.preparing, 2, message, 0, 0, []⟩ later) fun _ => .done (.id id)
    else .done (.id id)

/-- `CompleteJob` -/
def completeProgram (id : Bytes) (success : Bool) (message outputFile : Bytes) (now : Nat) :
    JobProg :=
  if success then
    if outputFile ≠ [] then
      .call (.setJobOutput id outputFile 0) fun _ =>
        .call (.setJob id .done message now) fun _ => .done .unit
    else .call (.setJob id .done message now) fun _ => .done .unit
  else .call (.setJob id .failed message now) fun _ => .done .unit

def program : JobCall → JobProg
  | .newJob jobType source now => .call (.newJob jobType source now) fun id => .done (.id id)
  | .startJob jobType source message now later => startProgram jobType source message now later
  | .updateJobProgress id progress now =>
    .call (.updateJobDetail id progress now) fun _ => .done .unit
  | .appendJobLog id line now => .call (.appendJobLog id line now) fun _ => .done .unit
  | .setJobCommand id cmd => .call (.setJobCommand id cmd) fun _ => .done .unit
  | .setJobOutput id outputFile sizeEstimate =>
    .call (.setJobOutput id outputFile sizeEstimate) fun _ => .done .unit
  | .setJob id status msg now => .call (.setJob id status msg now) fun _ => .done .unit
  | .completeJob id success message outputFile now =>
    completeProgram id success message outputFile now
  | .dismissJob id reason now => .call (.dismissJob id reason now) fun r => .done (.dismissed r)
  | .listActiveJobs now =>
    .call (.reconcileStaleJobs now) fun _ => .call .activeJobs fun jobs => .done (.jobs jobs)

end JobCall

def jobSystem (zone : Zone) : System JobTable JobOp JobOp.Reply JobCall JobResult where
  sem := jobSemantics zone
  program := JobCall.program

end HeyServer.Backup
