import HeyServer.Hub.Commits
import HeyServer.Hub.Issued

/-!
# Agent hub: accepted heartbeats

What the database holds about a node comes from the last heartbeat of it that was
accepted.
-/

namespace HeyServer.Hub
open Lib List Function Json

/-! ## Capabilities are stored as JSON -/

theorem sanitizedItems_strings (items : List Bytes) :
    Json.sanitizedItems (items.map .str) = (items.map Utf8.sanitize).map .str := by
  induction items with
  | nil => rfl
  | cons item rest ih => simp only [map_cons, sanitizedItems, sanitized, ih]

theorem mapM_strings (items : List Bytes) : (items.map Json.str).mapM (fun item => match item with
      | .str s => some s
      | .null => some []
      | _ => none) = some items := by
  induction items with
  | nil => rfl
  | cons item rest ih => simp only [map_cons, mapM_cons, ih, Option.bind_eq_bind,
      Option.bind_some, Option.pure_def]

variable (capabilities : List Bytes)

theorem unmarshalCapabilities_marshal : unmarshalCapabilities (marshalCapabilities capabilities) =
      some (capabilities.map Utf8.sanitize) := by
  have hfits : fits maxNestingDepth (.arr (capabilities.map .str)) = true :=
    fitsItems_strings 9999 capabilities
  rw [unmarshalCapabilities, marshalCapabilities, parse_encode _ hfits, sanitized,
    sanitizedItems_strings]
  exact mapM_strings _

theorem Capability.text_ascii (c : Capability) : ∀ b ∈ c.text, b.toNat < 0x80 := by
  cases c <;> decide +kernel

/-- Replacing stray bytes neither adds a capability nor removes one. -/
theorem hasCapability_sanitize (c : Capability) :
    hasCapability (capabilities.map Utf8.sanitize) c = hasCapability capabilities c := by
  simp only [hasCapability, any_map, Function.comp_def, Utf8.sanitize_eq_iff c.text_ascii]

/-! ## The last accepted heartbeat -/

variable (nodeId : Bytes)

/-- The heartbeat of a node an event committed. -/
def beatOf (e : HubEvent) : Option (HeartbeatRequest Inventory) :=
  match e.op with
  | .updateHeartbeat nodeId' columns stamp =>
    if nodeId' = nodeId ∧ (e.before.db.updateHeartbeat nodeId' columns stamp).isOk then
      e.call.beat.map Prod.snd
    else none
  | _ => none

/-- The last heartbeat of a node that was accepted. -/
def lastBeat (trace : List HubEvent) : Option (HeartbeatRequest Inventory) :=
  (trace.filterMap (beatOf nodeId)).getLast?

theorem lastBeat_append (trace : List HubEvent) (e : HubEvent) :
    lastBeat nodeId (trace ++ [e]) = (beatOf nodeId e).or (lastBeat nodeId trace) := by
  rw [lastBeat, filterMap_append]
  cases h : beatOf nodeId e <;> simp [lastBeat, h]

/-- What an event can do to a node and its observation, with the heartbeat it committed. -/
inductive NodeStep (env : Env) (nodeId : Bytes) : Option (HeartbeatRequest Inventory) →
    Option NodeRow × Option ObservationRow → Option NodeRow × Option ObservationRow → Prop
  | keep (node) : NodeStep env nodeId none node node
  | register {name tokenHash stamp observation} :
      NodeStep env nodeId none (none, observation)
        (some (newNodeRow name tokenHash stamp), observation)
  | beat {req columns stamp row observation} (hnode : validNodeId nodeId = true)
      (hcolumns : columns.Of env req) :
      NodeStep env nodeId (some req) (some row, observation)
        (some (row.seen columns stamp), observationRow columns stamp)

variable {env : Env} {e : HubEvent}

theorem nodeStep_heartbeat {nodeId nodeId' : Bytes}
    {columns : HeartbeatColumns} {stamp : Time} (hop : e.op.IssuedBy env e.call)
    (heq : e.op = .updateHeartbeat nodeId' columns stamp) : NodeStep env nodeId (beatOf nodeId e)
      (e.before.db.nodes nodeId, e.before.db.observations nodeId)
      ((e.after hubSemantics).db.nodes nodeId, (e.after hubSemantics).db.observations nodeId) := by
  have hafter : (e.after hubSemantics).db =
      (e.before.commit (e.before.db.updateHeartbeat nodeId' columns stamp)).1.db := by
    change (e.before.exec e.op).1.db = _
    rw [heq]
    rfl
  rw [beatOf, heq, hafter]
  dsimp only
  cases hcommit : e.before.db.updateHeartbeat nodeId' columns stamp with
  | error error =>
    rw [if_neg (fun h => by cases h.2)]
    exact .keep _
  | ok committed =>
    obtain ⟨row, hrow, hdb⟩ := Db.updateHeartbeat_ok hcommit
    change NodeStep env nodeId _ _ (committed.1.nodes nodeId, committed.1.observations nodeId)
    rw [hdb]
    dsimp only
    rw [heq] at hop
    obtain ⟨hnode, req, hbeat, hcolumns⟩ := hop
    by_cases hsame : nodeId' = nodeId
    · subst hsame
      rw [if_pos ⟨rfl, rfl⟩, hbeat, hrow, update_self, update_self]
      exact .beat hnode hcolumns
    · rw [if_neg (fun h => hsame h.1), update_of_ne (Ne.symm hsame), update_of_ne (Ne.symm hsame)]
      exact .keep _

theorem nodeStep_event (hop : e.op.IssuedBy env e.call) (nodeId : Bytes) :
    NodeStep env nodeId (beatOf nodeId e)
      (e.before.db.nodes nodeId, e.before.db.observations nodeId)
      ((e.after hubSemantics).db.nodes nodeId, (e.after hubSemantics).db.observations nodeId) := by
  have hstep : DbStep e.before.db e.op (e.after hubSemantics).db := exec_dbStep e.before e.op
  cases heq : e.op with
  | updateHeartbeat nodeId' columns stamp => exact nodeStep_heartbeat hop heq
  | insertNode nodeId' name tokenHash stamp =>
    rw [beatOf, heq]
    rw [heq] at hstep
    generalize (e.after hubSemantics).db = db at hstep ⊢
    cases hstep with
    | same => exact .keep _
    | register hnone =>
      dsimp only
      by_cases hsame : nodeId = nodeId'
      · subst hsame
        rw [hnone, update_self]
        exact .register
      · rw [update_of_ne hsame]
        exact .keep _
  | _ =>
    rw [beatOf, heq]
    rw [heq] at hstep
    generalize (e.after hubSemantics).db = db at hstep ⊢
    cases hstep <;> exact .keep _

/-- The observation a heartbeat leaves. -/
def HeartbeatRequest.observation (req : HeartbeatRequest Inventory) (stamp : Time) :
    Option ObservationRow :=
  if hasCapability req.capabilities .profileApply then
    req.profile.map fun o => ⟨o.state, o.revision, o.errorCode, stamp⟩
  else none

/-- Where a node stands: never seen, or as its last heartbeat left it. -/
structure NodeInv (env : Env) (nodeId : Bytes) (trace : List HubEvent) (s : HubState) : Prop where
  unseen : lastBeat nodeId trace = none → s.db.observations nodeId = none
  seen : ∀ req, lastBeat nodeId trace = some req → validNodeId nodeId = true ∧
    validateAgentProfileObservation req.profile = .ok () ∧
    ∃ row stamp, s.db.nodes nodeId = some row ∧
      row.capabilitiesJson = marshalCapabilities req.capabilities ∧
      env.marshalInventory req.inventory = some row.inventoryJson ∧
      s.db.observations nodeId = req.observation stamp

theorem nodeInv_initial (env : Env) (nodeId : Bytes) : NodeInv env nodeId [] HubState.initial where
  unseen _ := rfl
  seen := by
    intro req h
    cases h

variable {trace : List HubEvent}

theorem NodeInv.step {nodeId : Bytes}
    (h : NodeInv env nodeId trace e.before) (hop : e.op.IssuedBy env e.call) :
    NodeInv env nodeId (trace ++ [e]) (e.after hubSemantics) := by
  obtain ⟨hunseen, hseen⟩ := h
  have hstep := nodeStep_event hop nodeId
  have hlast := lastBeat_append nodeId trace e
  generalize beatOf nodeId e = beat at hstep hlast
  generalize hbefore : (e.before.db.nodes nodeId, e.before.db.observations nodeId) = before at hstep
  generalize hafter : ((e.after hubSemantics).db.nodes nodeId,
    (e.after hubSemantics).db.observations nodeId) = after at hstep
  cases hstep with
  | keep =>
    obtain ⟨hnode, hobservation⟩ := Prod.mk.inj (hafter.trans hbefore.symm)
    constructor <;> rw [hlast, Option.none_or, hobservation]
    · exact hunseen
    · rw [hnode]
      exact hseen
  | register =>
    obtain ⟨hnone, rfl⟩ := Prod.mk.inj hbefore
    obtain ⟨-, hobservation⟩ := Prod.mk.inj hafter
    constructor <;> rw [hlast, Option.none_or, hobservation]
    · exact hunseen
    · intro req hreq
      obtain ⟨-, -, row, -, hrow, -⟩ := hseen req hreq
      rw [hnone] at hrow
      cases hrow
  | @beat req columns stamp row _ hnode hcolumns =>
    obtain ⟨hrow, hobservation⟩ := Prod.mk.inj hafter
    obtain ⟨hinventory, hcapabilities, hprofile, hvalid⟩ := hcolumns
    constructor <;> rw [hlast, Option.some_or]
    · intro hnone
      cases hnone
    · intro req' hreq
      cases hreq
      refine ⟨hnode, hvalid, row.seen columns stamp, stamp, hrow, ?_, hinventory, ?_⟩
      · rw [← hcapabilities]
        rfl
      · rw [hobservation, observationRow, HeartbeatRequest.observation, hcapabilities, hprofile]

end HeyServer.Hub
