import HeyServer.Terminal.Messages

/-!
# Isolation of the relay

What holds in every run of agents connecting, browsers opening and closing sessions, and connections
being replaced, cancelled and shut down, when the sessions have distinct ids.

Two windows are left open. A session that `Close` or the loop has just taken out of the map is
closed by that call and not by a shutdown that ends meanwhile. A message read before its session is
registered is dropped, unless the loop has not looked it up yet; and pings are never relayed.
-/

namespace HeyServer.Terminal
open Lib

abbrev RelayConfig := Config Relay RelayOp RelayOp.Reply RelayCall RelayResult

/-- The value of a call that has returned. -/
def returned? : RelayCall × RelayProg RelayResult → Option RelayResult
  | (_, .done v) => some v
  | (_, .call _ _) => none

/-- `Open` has returned the session. -/
def Opened (cfg : RelayConfig) (x : Session) : Prop := .opened x ∈ cfg.calls.filterMap returned?

instance (cfg : RelayConfig) (x : Session) : Decidable (Opened cfg x) :=
  inferInstanceAs (Decidable (_ ∈ _))

/-- A node is mapped to the connection attached last, until its shutdown begins, and to none after
it has ended. -/
def MapsLatest (s : Relay) : Prop :=
  ∀ nodeID c,
    (s.agents nodeID = some c → latest s nodeID = some c ∧
      (s.connections c).closeOnce ≠ .finished) ∧
    (latest s nodeID = some c → (s.connections c).closeOnce = .idle → s.agents nodeID = some c)

/-- What has been received from the channel of a session and came from the agent. -/
def received (s : Relay) (x : Session) : List Message :=
  ((s.events x).take (s.taken x)).filterMap Delivery.relayed?

/-- The step closes the `Done` channel of the session. -/
def Finishes (op : RelayOp) (x : Session) : Prop := op = .finish x

structure Isolated (trace : List RelayEvent) (cfg : RelayConfig) : Prop where
  maps : MapsLatest cfg.state
  /-- Once a shutdown has ended, the sessions opened on the connection are closed, or they are out of
  its map and the call that has removed them closes them in the steps it has left. -/
  closed : ∀ x, Opened cfg x → (cfg.state.connections x.agent).closeOnce = .finished →
    cfg.state.done x = true ∨
      x ∉ cfg.state.sessions x.agent ∧ ∃ call ∈ cfg.calls, call.2.Pays Finishes x
  /-- The agent messages a session receives are, in order, the first ones read for it from its
  connection, where only messages read before it existed are left out. -/
  ordered : ∀ x ∈ cfg.state.created, ∃ early rest, readsFor x trace = early ++ rest ∧
    (∀ e ∈ early, x ∉ e.before.created) ∧ received cfg.state x <+: messages rest

/-- The hub maps nodes to their last connections, and sessions are closed with their connection and
receive only their own messages, in order. -/
theorem relay_isolated {trace : List RelayEvent} {cfg : RelayConfig}
    (run : Run relaySystem (fun _ => True) newHub trace cfg) (hdistinct : DistinctIds cfg.state) :
    Isolated trace cfg := by
  have hguarded := (guarded_run run hdistinct).1
  have hwf := (wellFormed_states run).1
  refine ⟨?_, ?_, ?_⟩
  · intro nodeID c
    constructor
    · intro hmapped
      refine ⟨hguarded.mapped nodeID c hmapped, ?_⟩
      intro hfinished
      exact (hguarded.ended c (hwf.mapped nodeID c hmapped).1 hfinished).2 nodeID hmapped
    · exact hguarded.idle nodeID c
  · intro x hopened hended
    obtain ⟨⟨c, p⟩, hcall, hreturned⟩ := List.mem_filterMap.mp hopened
    cases p with
    | done v =>
      cases hreturned
      exact closed_or_owed run hdistinct hcall hended
    | call op rest => cases hreturned
  · intro x hx
    obtain ⟨early, rest, hparted⟩ := (relayed_run run hdistinct).parted x hx
    exact ⟨early, rest, hparted.reads, hparted.unborn,
      ((List.take_prefix _ _).filterMap _).trans hparted.sent⟩

/-! ## Some runs -/

def inOrder : MapOrder := ⟨id, fun _ => List.Perm.refl _⟩

def output (data : Bytes) : Message := { type := .typeOutput, sessionID := ascii "s1", data :=
    data }

def shell : Session := ⟨0, ascii "s1", 0⟩

/-- An agent connects, a browser opens a session and receives the two messages sent for it; then the
connection is shut down. -/
def terminalChoices : List (Run.Choice RelayCall) :=
  [.invoke (.serve (ascii "node") [⟨output (ascii "a"), .sent⟩,
    ⟨output (ascii "b"), .sent⟩] inOrder inOrder),
    .step 0, .invoke (.openSession (ascii "node") (ascii "s1") 80 24 false), .step 1, .step 1,
      .step 1,
    .step 0, .step 0, .step 0, .step 0, .step 0, .step 0,
    .invoke (.receive shell), .step 2, .invoke (.receive shell), .step 3,
    .step 0, .step 0, .step 0, .step 0, .step 0, .step 0, .step 0]

theorem terminal_isolated :
    ∃ trace cfg, Run relaySystem (fun _ => True) newHub trace cfg ∧ DistinctIds cfg.state ∧
      Opened cfg shell ∧ (cfg.state.connections 0).closeOnce = .finished ∧
      received cfg.state shell = [output (ascii "a"), output (ascii "b")] ∧ Isolated trace cfg := by
  obtain ⟨trace, cfg, run, hdistinct, hopened, hfinished, hreceived⟩ : ∃ trace cfg,
      Run relaySystem (fun _ => True) newHub trace cfg ∧ DistinctIds cfg.state ∧ Opened cfg shell ∧
        (cfg.state.connections 0).closeOnce = .finished ∧
        received cfg.state shell = [output (ascii "a"), output (ascii "b")] :=
    Run.exists_scheduled terminalChoices (fun _ _ => trivial) (by decide +kernel)
  exact ⟨trace, cfg, run, hdistinct, hopened, hfinished, hreceived, relay_isolated run hdistinct⟩

/-- A browser closes its session; the connection is shut down before the `Done` channel is closed.
-/
def closingChoices : List (Run.Choice RelayCall) :=
  [.invoke (.serve (ascii "node") [] inOrder inOrder), .step 0,
    .invoke (.openSession (ascii "node") (ascii "s1") 80 24 false), .step 1, .step 1, .step 1,
    .invoke (.close shell), .step 2, .step 2,
    .invoke (.shutdown 0 [] inOrder), .step 3, .step 3, .step 3, .step 3, .step 3]

/-- The agent sends a message for the session before the session is registered, and one after. -/
def earlyChoices : List (Run.Choice RelayCall) :=
  [.invoke (.serve (ascii "node") [⟨output (ascii "a"), .sent⟩,
    ⟨output (ascii "b"), .sent⟩] inOrder inOrder),
    .step 0, .step 0, .step 0, .invoke (.openSession (ascii "node") (ascii "s1") 80 24 false),
    .step 1, .step 1, .step 1, .step 0, .step 0, .step 0, .invoke (.receive shell), .step 2]

/-- The agent sends a ping with the id of the session, and a message after it. -/
def pingChoices : List (Run.Choice RelayCall) :=
  [.invoke (.serve (ascii "node") [⟨{ output [] with type := .typePing }, .sent⟩,
      ⟨output (ascii "b"), .sent⟩] inOrder inOrder),
    .step 0, .invoke (.openSession (ascii "node") (ascii "s1") 80 24 false), .step 1, .step 1,
      .step 1,
    .step 0, .step 0, .step 0, .step 0, .step 0, .invoke (.receive shell), .step 2]

/-- The message a step reads for the session id, pings included. -/
def RelayOp.messageFor? (c : Nat) (id : Bytes) : RelayOp → Option Message
  | .readJSON c' m => if c' = c ∧ m.sessionID = id then some m else none
  | _ => none

theorem open_after_shutdown_and_early_message :
    (∃ trace cfg, Run relaySystem (fun _ => True) newHub trace cfg ∧ DistinctIds cfg.state ∧
      ∃ x, Opened cfg x ∧ (cfg.state.connections x.agent).closeOnce = .finished ∧
        cfg.state.done x = false) ∧
    (∃ trace cfg, Run relaySystem (fun _ => True) newHub trace cfg ∧ DistinctIds cfg.state ∧
      ∃ x, Opened cfg x ∧
        ¬ received cfg.state x <+: trace.filterMap fun e => e.op.messageFor? x.agent x.id) ∧
    ∃ trace cfg, Run relaySystem (fun _ => True) newHub trace cfg ∧ DistinctIds cfg.state ∧
      ∃ x, Opened cfg x ∧ (∀ e ∈ trace, e.op.messageFor? x.agent x.id ≠ none →
        x ∈ e.before.created) ∧
        ¬ received cfg.state x <+: trace.filterMap fun e => e.op.messageFor? x.agent x.id := by
  refine ⟨?_, ?_, ?_⟩
  · obtain ⟨trace, cfg, run, hdistinct, hopen⟩ : ∃ trace cfg,
        Run relaySystem (fun _ => True) newHub trace cfg ∧ DistinctIds cfg.state ∧
          Opened cfg shell ∧
          (cfg.state.connections shell.agent).closeOnce = .finished ∧
            cfg.state.done shell = false :=
      Run.exists_scheduled closingChoices (fun _ _ => trivial) (by decide +kernel)
    exact ⟨trace, cfg, run, hdistinct, shell, hopen⟩
  · obtain ⟨trace, cfg, run, hdistinct, hmissed⟩ : ∃ trace cfg,
        Run relaySystem (fun _ => True) newHub trace cfg ∧ DistinctIds cfg.state ∧
          Opened cfg shell ∧
          ¬ received cfg.state shell <+:
            trace.filterMap fun e => e.op.messageFor? shell.agent shell.id :=
      Run.exists_scheduled earlyChoices (fun _ _ => trivial) (by decide +kernel)
    exact ⟨trace, cfg, run, hdistinct, shell, hmissed⟩
  · obtain ⟨trace, cfg, run, hdistinct, hmissed⟩ : ∃ trace cfg,
        Run relaySystem (fun _ => True) newHub trace cfg ∧ DistinctIds cfg.state ∧
          Opened cfg shell ∧
          (∀ e ∈ trace, e.op.messageFor? shell.agent shell.id ≠ none → shell ∈ e.before.created) ∧
          ¬ received cfg.state shell <+:
            trace.filterMap fun e => e.op.messageFor? shell.agent shell.id :=
      Run.exists_scheduled pingChoices (fun _ _ => trivial) (by decide +kernel)
    exact ⟨trace, cfg, run, hdistinct, shell, hmissed⟩

end HeyServer.Terminal
