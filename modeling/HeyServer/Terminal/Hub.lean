import HeyServer.Lib.Rely
import HeyServer.Lib.Utf8

/-!
# The terminal relay

A managed node keeps one connection to the hub, and every browser terminal of that node is a session
on it. The hub maps a node to its connection, a connection maps session ids to sessions; each map
has its own lock, and connections are attached, replaced and shut down while sessions are opened and
closed.

## Implementation notes

Connections and sessions are pointers: a connection is the number of its `Attach`, a session carries
the fields that never change. What `ReadJSON` returns, which case a `select` takes and in which
order a map is walked are arguments of the calls. `swapped` and the two kinds of a `Delivery` are
recorded for the statements only.
-/

namespace HeyServer.Terminal
open Lib

/-! ## Messages -/

inductive MessageType
  | typeOpen
  | typeReady
  | typeInput
  | typeOutput
  | typeResize
  | typeClose
  | typeError
  | typePing
  | typePong
  | other (name : Bytes)
deriving DecidableEq

structure Message where
  type : MessageType
  sessionID : Bytes := []
  data : Bytes := []
  cols : UInt16 := 0
  rows : UInt16 := 0
deriving DecidableEq

/-! ## Hub, connections and sessions -/

structure Session where
  agent : Nat
  id : Bytes
  ptr : Nat
deriving DecidableEq

/-- A message in the channel of a session: read from the agent, or put there by a shutdown. -/
inductive Delivery
  | relayed (m : Message)
  | closing (m : Message)
deriving DecidableEq

def Delivery.relayed? : Delivery → Option Message
  | .relayed m => some m
  | .closing _ => none

/-- The state of a `sync.Once`. -/
inductive Once
  | idle
  | running
  | finished
deriving DecidableEq

structure AgentConnection where
  nodeID : Bytes
  /-- The transport is closed. -/
  closed : Bool := false
  /-- The context of `Run` is done. -/
  cancelled : Bool := false
  sessions : List Session := []
  closeOnce : Once := .idle
  /-- The map has been exchanged when the transport was closed. -/
  swapped : Bool := false

structure Relay where
  agents : Bytes → Option Nat
  connections : Nat → AgentConnection
  /-- The number of the next connection. -/
  next : Nat
  created : List Session
  events : Session → List Delivery
  /-- How many messages have been received from the channel. -/
  taken : Session → Nat
  /-- The `Done` channel is closed. -/
  done : Session → Bool

def newHub : Relay where
  agents _ := none
  connections _ := { nodeID := [] }
  next := 0
  created := []
  events _ := []
  taken _ := 0
  done _ := false

/-- The capacity of `events`. -/
def eventsCapacity : Nat := 64

namespace Relay

variable (s : Relay)

def modify (c : Nat) (f : AgentConnection → AgentConnection) : Relay :=
  { s with connections := Function.update s.connections c (f (s.connections c)) }

/-- The sessions in the map of a connection. -/
def sessions (c : Nat) : List Session := (s.connections c).sessions

def find (c : Nat) (id : Bytes) : Option Session := (s.sessions c).find? fun x => x.id = id

def hasRoom (x : Session) : Bool := (s.events x).length - s.taken x < eventsCapacity

def push (x : Session) (d : Delivery) : Relay :=
  { s with events := Function.update s.events x (s.events x ++ [d]) }

end Relay

/-! ## Atomic steps -/

/-- The case a `select` takes. -/
inductive Outcome
  | sent
  | finished
  | cancelled
deriving DecidableEq

inductive RelayOp
  | attach (nodeID : Bytes)
  | agent (nodeID : Bytes)
  | register (c : Nat) (id : Bytes)
  | write (c : Nat) (m : Message) (fails : Bool)
  | readJSON (c : Nat) (m : Message)
  | session (c : Nat) (id : Bytes)
  | relay (c : Nat) (x : Session) (m : Message) (outcome : Outcome)
  | unregister (c : Nat) (id : Bytes)
  | finish (x : Session)
  | cancel (c : Nat)
  | close (c : Nat)
  | begin (c : Nat)
  | unmap (c : Nat)
  | swap (c : Nat)
  | notify (x : Session) (reason : Bytes)
  | ended (c : Nat)
  | receive (x : Session)
  | isDone (x : Session)
  | deref (x : Session)
deriving DecidableEq

def RelayOp.Reply : RelayOp → Type
  | .attach _ => Nat × Option Nat
  | .agent _ => Option Nat
  | .register .. => Option Session
  | .write .. => Bool
  | .session .. => Option Session
  | .unregister .. => Option Session
  | .begin _ => Bool
  | .swap _ => List Session
  | .receive _ => Option Delivery
  | .isDone _ => Bool
  | _ => Unit

/-- The session that `register` creates. -/
def Relay.fresh (s : Relay) (c : Nat) (id : Bytes) : Session := ⟨c, id, s.created.length⟩

def closeMessage (id reason : Bytes) : Message :=
    { type := .typeClose, sessionID := id, data := reason }

def RelayOp.exec (s : Relay) : (op : RelayOp) → Relay × op.Reply
  | .attach nodeID =>
    ({ s with
        agents := Function.update s.agents nodeID (some s.next)
        connections := Function.update s.connections s.next { nodeID := nodeID }
        next := s.next + 1 }, (s.next, s.agents nodeID))
  | .agent nodeID => (s, s.agents nodeID)
  | .register c id =>
    if (s.find c id).isSome then (s, none)
    else
      ({ s.modify c fun a => { a with sessions := a.sessions ++ [s.fresh c id] } with
          created := s.created ++ [s.fresh c id] }, some (s.fresh c id))
  | .write c _ fails => (s, !(s.connections c).closed && !fails)
  | .readJSON .. => (s, ())
  | .session c id => (s, s.find c id)
  | .relay _ x m outcome => (if outcome = .sent then s.push x (.relayed m) else s, ())
  | .unregister c id =>
    (s.modify c fun a => { a with sessions := a.sessions.filter fun x => x.id ≠ id }, s.find c id)
  | .finish x => ({ s with done := Function.update s.done x true }, ())
  | .cancel c => (s.modify c fun a => { a with cancelled := true }, ())
  | .close c => (s.modify c fun a => { a with closed := true }, ())
  | .begin c =>
    if (s.connections c).closeOnce = .idle then
      (s.modify c fun a => { a with closeOnce := .running }, true)
    else (s, false)
  | .unmap c =>
    (if s.agents (s.connections c).nodeID = some c then
      { s with agents := Function.update s.agents (s.connections c).nodeID none }
    else s, ())
  | .swap c =>
    (s.modify c fun a => { a with sessions := [], swapped := a.swapped || a.closed }, s.sessions c)
  | .notify x reason => (if s.hasRoom x then s.push x (.closing (closeMessage x.id reason)) else s, ())
  | .ended c => (s.modify c fun a => { a with closeOnce := .finished }, ())
  | .receive x => ({ s with taken := Function.update s.taken x (s.taken x + 1) },
    (s.events x)[s.taken x]?)
  | .isDone x => (s, s.done x)
  | .deref _ => (s, ())

/-- A pointer exists before it is used. A channel operation waits until it can be made, and the
second caller of a `sync.Once` until the first has returned. -/
def RelayOp.ready (s : Relay) : RelayOp → Bool
  | .register c _ => c < s.next
  | .cancel c => c < s.next
  | .begin c => c < s.next && (s.connections c).closeOnce ≠ .running
  | .relay c x _ outcome =>
    match outcome with
    | .sent => s.hasRoom x
    | .finished => s.done x
    | .cancelled => (s.connections c).cancelled
  | .receive x => s.taken x < (s.events x).length
  | .deref x => x ∈ s.created
  | _ => true

def relaySemantics : Semantics Relay RelayOp RelayOp.Reply where
  exec := RelayOp.exec
  ready := RelayOp.ready

/-! ## Programs -/

abbrev RelayProg := Prog RelayOp RelayOp.Reply

/-- The order in which a map is walked. -/
structure MapOrder where
  arrange : List Session → List Session
  perm : ∀ xs, (arrange xs).Perm xs

def removeSession (c : Nat) (id : Bytes) (notify : Bool) : RelayProg Unit :=
  .call (.unregister c id) fun (removed : Option Session) =>
    if notify && removed.isSome then .call (.write c (closeMessage id []) false) fun _ => .done ()
    else .done ()

def endSessions (reason : Bytes) : List Session → RelayProg Unit
  | [] => .done ()
  | x :: xs => .call (.notify x reason) fun _ => .call (.finish x) fun _ => endSessions reason xs

/-- What the first caller of `shutdown` does. -/
def shutdownOnce (c : Nat) (reason : Bytes) (order : MapOrder) : RelayProg Unit :=
  .call (.unmap c) fun _ => .call (.close c) fun _ =>
    .call (.swap c) fun (sessions : List Session) =>
    endSessions reason (order.arrange sessions) >>= fun _ => .call (.ended c) fun _ => .done ()

def shutdown (c : Nat) (reason : Bytes) (order : MapOrder) : RelayProg Unit :=
  .call (.begin c) fun (first : Bool) => if first then shutdownOnce c reason order else .done ()

/-- What `ReadJSON` gives next and the case the `select` for it takes. -/
structure Reading where
  message : Message
  outcome : Outcome

/-- The part of the loop after the session of a message has been looked up. -/
def dispatch (c : Nat) (r : Reading) (again : RelayProg Unit) : Option Session → RelayProg Unit
  | none => again
  | some x => .call (.relay c x r.message r.outcome) fun _ =>
    if r.outcome = .cancelled then .done ()
    else if r.message.type = .typeClose ∨ r.message.type = .typeError then
      removeSession c r.message.sessionID false >>= fun _ => .call (.finish x) fun _ => again
    else again

/-- The loop of `Run`; after the last reading `ReadJSON` fails. -/
def runLoop (c : Nat) : List Reading → RelayProg Unit
  | [] => .done ()
  | r :: rest => .call (.readJSON c r.message) fun _ =>
    if r.message.type = .typePing then
      .call (.write c { type := .typePong } false) fun _ => runLoop c rest
    else if r.message.sessionID = [] then runLoop c rest
    else .call (.session c r.message.sessionID) fun (found : Option Session) =>
      dispatch c r (runLoop c rest) found

def replacePrevious (order : MapOrder) : Option Nat → RelayProg Unit
  | none => .done ()
  | some previous => shutdown previous (ascii "agent connection replaced") order

inductive OpenError
  | agentOffline
  | sessionMissing
  | sessionExists
  | writeFailed
deriving DecidableEq

inductive RelayResult
  | ended
  | opened (x : Session)
  | failed (err : OpenError)
  | received (d : Option Delivery)
  | sent (ok : Bool)
deriving DecidableEq

/-- The part of `open` after the session has been registered. -/
def announce (c : Nat) (id : Bytes) (cols rows : UInt16) (fails : Bool) :
    Option Session → RelayProg RelayResult
  | none => .done (.failed .sessionExists)
  | some x => .call (.write c { type := .typeOpen, sessionID := id, cols := cols, rows :=
    rows } fails)
      fun (ok : Bool) =>
        if ok then .done (.opened x)
        else removeSession c id false >>= fun _ => .call (.finish x) fun _ =>
          .done (.failed .writeFailed)

def openOn (id : Bytes) (cols rows : UInt16) (fails : Bool) : Option Nat → RelayProg RelayResult
  | none => .done (.failed .agentOffline)
  | some c =>
    if id = [] then .done (.failed .sessionMissing)
    else .call (.register c id) fun (x : Option Session) => announce c id cols rows fails x

inductive RelayCall
  /-- The request of an agent: `Attach` and then `Run`. -/
  | serve (nodeID : Bytes) (readings : List Reading) (replaced disconnected : MapOrder)
  | openSession (nodeID id : Bytes) (cols rows : UInt16) (fails : Bool)
  | close (x : Session)
  | send (x : Session) (m : Message) (fails : Bool)
  | shutdown (c : Nat) (reason : Bytes) (order : MapOrder)
  /-- The context of `Run` is done: its goroutine closes the transport. -/
  | cancel (c : Nat)
  | receive (x : Session)

def RelayCall.program : RelayCall → RelayProg RelayResult
  | .serve nodeID readings replaced disconnected =>
    .call (.attach nodeID) fun (attached : Nat × Option Nat) =>
      replacePrevious replaced attached.2 >>= fun _ => runLoop attached.1 readings >>= fun _ =>
        Terminal.shutdown attached.1 (ascii "agent disconnected") disconnected >>= fun _ =>
          .done .ended
  | .openSession nodeID id cols rows fails =>
    .call (.agent nodeID) fun (agent : Option Nat) => openOn id cols rows fails agent
  | .close x => .call (.deref x) fun _ => removeSession x.agent x.id true >>= fun _ =>
    .call (.finish x) fun _ => .done .ended
  | .send x m fails => .call (.deref x) fun _ => .call (.isDone x) fun (done : Bool) =>
    if done then .done (.failed .sessionMissing)
    else .call (.write x.agent { m with sessionID := x.id } fails) fun (ok : Bool) =>
      .done (.sent ok)
  | .shutdown c reason order => Terminal.shutdown c reason order >>= fun _ => .done .ended
  | .cancel c => .call (.cancel c) fun _ => .call (.close c) fun _ => .done .ended
  | .receive x => .call (.receive x) fun (d : Option Delivery) => .done (.received d)

def relaySystem : System Relay RelayOp RelayOp.Reply RelayCall RelayResult where
  sem := relaySemantics
  program := RelayCall.program

abbrev RelayEvent := Event Relay RelayOp RelayCall

end HeyServer.Terminal
