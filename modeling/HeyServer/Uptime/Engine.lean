import HeyServer.Uptime.StateManager

/-!
# The uptime engine

Scheduled checks, checks an operator asks for, the batcher that collects heartbeats and
the handler that deletes a monitor, as programs over the shared state. Each critical section
and each statement is one operation.

## Implementation notes

An insert of a batch fails when a foreign key does, and in any other way at the attempts
a parameter names. The locks that keep two checks of one monitor apart are left out: the programs
interleave more freely than in the service.
-/

namespace HeyServer.Uptime
open Lib Prog

/-- The tables, the alerts sent, the batcher's buffer, the monitors with a running worker
and the number of batches tried so far. -/
structure Engine where
  db : UptimeDb
  alerts : List Alert
  buffer : List UptimeHeartbeat
  workers : Nat → Bool
  attempts : Nat

inductive EngineOp
  | append (h : UptimeHeartbeat)
  | take
  | insertBatch (batch : List UptimeHeartbeat)
  | putBack (batch : List UptimeHeartbeat)
  | transition (c : Check)
  | getMonitor (id : Nat)
  | deleteMonitor (id : Nat)
  | running (id : Nat)
  | removeMonitor (id : Nat)
  deriving DecidableEq

abbrev EngineReply : EngineOp → Type
  | .append _ => Bool
  | .take => List UptimeHeartbeat
  | .insertBatch _ => Bool
  | .getMonitor _ => Option UptimeMonitor
  | .running _ => Bool
  | _ => Unit

namespace Engine

/-- The batch is full. -/
def batchSize : Nat := 100

def insertBatch (faulty : Nat → Bool) (e : Engine) (batch : List UptimeHeartbeat) : Engine × Bool :=
  let tried := { e with attempts := e.attempts + 1 }
  if faulty e.attempts then (tried, false)
  else
    match e.db.insertHeartbeatBatch batch with
    | some db => ({ tried with db := db }, true)
    | none => (tried, false)

def exec (faulty : Nat → Bool) (e : Engine) : (op : EngineOp) → Engine × EngineReply op
  | .append h =>
    let buffer := e.buffer ++ [h]
    ({ e with buffer := buffer }, decide (batchSize ≤ buffer.length))
  | .take => ({ e with buffer := [] }, e.buffer)
  | .insertBatch batch => e.insertBatch faulty batch
  | .putBack batch => ({ e with buffer := batch ++ e.buffer }, ())
  | .transition c =>
    let (db, sent) := Uptime.transition e.db c
    ({ e with db := db, alerts := e.alerts ++ sent }, ())
  | .getMonitor id => (e, e.db.getMonitor id)
  | .deleteMonitor id => ({ e with db := e.db.deleteMonitor id }, ())
  | .running id => (e, e.workers id)
  | .removeMonitor id => ({ e with workers := fun key => key ≠ id && e.workers key }, ())

end Engine

def engineSemantics (faulty : Nat → Bool) : Semantics Engine EngineOp EngineReply where
  exec := Engine.exec faulty
  ready _ _ := true

inductive EngineResult
  | done | notFound | paused
  deriving DecidableEq

abbrev EngineProg := Prog EngineOp EngineReply

/-- The end of a flush: the batch goes into the table or back in front of the buffer. -/
def insertOrPutBack (batch : List UptimeHeartbeat) : EngineProg Unit := do
  let ok ← perform (EngineOp.insertBatch batch)
  if ok then pure () else perform (EngineOp.putBack batch)

/-- `HeartbeatBatcher.Flush` -/
def flush : EngineProg Unit := do
  let batch ← perform EngineOp.take
  if batch = [] then pure () else insertOrPutBack batch

/-- `HeartbeatBatcher.Add` -/
def add (h : UptimeHeartbeat) : EngineProg Unit := do
  let shouldFlush ← perform (EngineOp.append h)
  if shouldFlush then flush else pure ()

variable (c : Check)

/-- The heartbeat of a check. -/
def Check.heartbeat : UptimeHeartbeat where
  monitorID := c.monitorID
  status := c.result.status
  msg := c.result.msg
  pingMs := if 0 < c.result.pingMs then some c.result.pingMs else none
  statusCode := if 0 < c.result.statusCode then some c.result.statusCode else none
  tlsExpiry := c.result.tlsExpiry
  createdAt := rfc3339 c.result.checkedAt

def runCheck : EngineProg Unit := do
  add c.heartbeat
  perform (EngineOp.transition c)

inductive EngineCall
  | add (h : UptimeHeartbeat)
  | flush
  | tick (c : Check)
  | checkNow (c : Check)
  | deleteMonitor (id : Nat)
  | removeMonitor (id : Nat)

/-- A turn of `monitorWorker`: a worker that was stopped does nothing more. -/
def tick : EngineProg EngineResult := do
  let running ← perform (EngineOp.running c.monitorID)
  if running then
    runCheck c
    pure .done
  else pure .done

/-- The rest of `CheckNow` once the monitor has been read. -/
def checkFound : Option UptimeMonitor → EngineProg EngineResult
  | none => pure .notFound
  | some m =>
    if !m.isActive || m.maintenanceMode then pure .paused
    else do
      runCheck { c with monitor := m }
      flush
      pure .done

/-- `Engine.CheckNow` -/
def checkNow : EngineProg EngineResult :=
  perform (EngineOp.getMonitor c.monitorID) >>= checkFound c

/-- The handler that deletes a monitor and then stops its worker. -/
def handleDelete (id : Nat) : EngineProg EngineResult := do
  let found : Option UptimeMonitor ← perform (EngineOp.getMonitor id)
  match found with
  | none => pure .notFound
  | some _ =>
    perform (EngineOp.deleteMonitor id)
    perform (EngineOp.removeMonitor id)
    pure .done

def EngineCall.program : EngineCall → EngineProg EngineResult
  | .add h => do
      Uptime.add h
      pure .done
  | .flush => do
      Uptime.flush
      pure .done
  | .tick c => Uptime.tick c
  | .checkNow c => Uptime.checkNow c
  | .deleteMonitor id => handleDelete id
  | .removeMonitor id => do
      perform (EngineOp.removeMonitor id)
      pure .done

def engineSystem (faulty : Nat → Bool) :
    System Engine EngineOp EngineReply EngineCall EngineResult where
  sem := engineSemantics faulty
  program := EngineCall.program

end HeyServer.Uptime
