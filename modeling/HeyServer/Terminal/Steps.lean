import HeyServer.Terminal.Hub

/-!
# One step of the relay

`Effect` says once what an operation can do to the state. What happens to a connection, to its map,
to the map of the hub and to the sessions follows by cases over it, and the invariants of whole runs
only use these lemmas.
-/

namespace HeyServer.Terminal
open Lib List Function RelayOp Relay

namespace Relay
variable {s : Relay} {c : Nat}

@[simp] theorem connections_modify_self (s : Relay) (c : Nat)
    (f : AgentConnection → AgentConnection) :
    (s.modify c f).connections c = f (s.connections c) := update_self _ _ _

theorem connections_modify_of_ne {c' : Nat} (h : c' ≠ c) (f : AgentConnection → AgentConnection) :
    (s.modify c f).connections c' = s.connections c' := update_of_ne h _ _

theorem sessions_modify (s : Relay) (c c' : Nat) (f : AgentConnection → AgentConnection) :
    (s.modify c' f).sessions c = if c = c' then
    (f (s.connections c)).sessions else s.sessions c := by
  split_ifs with h
  · subst h
    rw [sessions, connections_modify_self]
  · rw [sessions, connections_modify_of_ne h]
    rfl

theorem find_some {id : Bytes} {x : Session} (h : s.find c id = some x) :
    x ∈ s.sessions c ∧ x.id = id :=
  ⟨mem_of_find?_eq_some h, by simpa using find?_some h⟩

theorem find_none {id : Bytes} (h : s.find c id = none) : ∀ x ∈ s.sessions c, x.id ≠ id := by
  simpa [find] using h

/-- The state after a connection has been attached. -/
def attached (s : Relay) (nodeID : Bytes) : Relay :=
  { s with
      agents := Function.update s.agents nodeID (some s.next)
      connections := Function.update s.connections s.next { nodeID := nodeID }
      next := s.next + 1 }

/-- The state after a session has been registered. -/
def registered (s : Relay) (c : Nat) (id : Bytes) : Relay :=
  { s.modify c fun a => { a with sessions := a.sessions ++ [s.fresh c id] } with
      created := s.created ++ [s.fresh c id] }

theorem connections_attached_self (s : Relay) (nodeID : Bytes) :
    (s.attached nodeID).connections s.next = { nodeID := nodeID } := update_self _ _ _

theorem connections_attached_of_ne {nodeID : Bytes} (h : c ≠ s.next) :
    (s.attached nodeID).connections c = s.connections c := update_of_ne h _ _

theorem agents_attached (s : Relay) (nodeID n : Bytes) :
    (s.attached nodeID).agents n = if n = nodeID then some s.next else s.agents n :=
  update_apply _ _ _ _

theorem events_push (s : Relay) (x y : Session) (d : Delivery) :
    (s.push y d).events x = if x = y then s.events y ++ [d] else s.events x :=
  update_apply _ _ _ _

theorem sessions_registered (s : Relay) (c c' : Nat) (id : Bytes) :
    (s.registered c' id).sessions c =
      if c = c' then s.sessions c ++ [s.fresh c' id] else s.sessions c :=
  sessions_modify s c c' fun a => { a with sessions := a.sessions ++ [s.fresh c' id] }

theorem closeOnce_registered (s : Relay) (c c' : Nat) (id : Bytes) :
    ((s.registered c' id).connections c).closeOnce = (s.connections c).closeOnce := by
  rw [registered]
  by_cases h : c = c'
  · subst h
    rw [connections_modify_self]
  · rw [connections_modify_of_ne h]

end Relay

/-- The operations on one connection. -/
inductive Changes (s : Relay) : RelayOp → Nat → (AgentConnection → AgentConnection) → Prop
  | unregister (c : Nat) (id : Bytes) : Changes s (.unregister c id) c fun a =>
    { a with sessions := a.sessions.filter fun x => x.id ≠ id }
  | cancel (c : Nat) : Changes s (.cancel c) c fun a => { a with cancelled := true }
  | close (c : Nat) : Changes s (.close c) c fun a => { a with closed := true }
  | begin {c : Nat} (hidle : (s.connections c).closeOnce = .idle) :
      Changes s (.begin c) c fun a => { a with closeOnce := .running }
  | swap (c : Nat) : Changes s (.swap c) c fun a =>
    { a with sessions := [], swapped := a.swapped || a.closed }
  | ended (c : Nat) : Changes s (.ended c) c fun a => { a with closeOnce := .finished }

/-- What an operation does to the state. -/
inductive Effect (s : Relay) : RelayOp → Relay → Prop
  | attach (nodeID : Bytes) : Effect s (.attach nodeID) (s.attached nodeID)
  | register {c : Nat} {id : Bytes} (hnew : s.find c id = none) :
      Effect s (.register c id) (s.registered c id)
  | change {op : RelayOp} {c : Nat} {f : AgentConnection → AgentConnection} (h : Changes s op c f) :
      Effect s op (s.modify c f)
  | unmap {c : Nat} (hmapped : s.agents (s.connections c).nodeID = some c) : Effect s (.unmap c)
      { s with agents := Function.update s.agents (s.connections c).nodeID none }
  | relay (c : Nat) (x : Session) (m : Message) :
    Effect s (.relay c x m .sent) (s.push x (.relayed m))
  | notify (x : Session) (reason : Bytes) :
      Effect s (.notify x reason) (s.push x (.closing (closeMessage x.id reason)))
  | finish (x : Session) : Effect s (.finish x) { s with done := Function.update s.done x true }
  | receive (x : Session) : Effect s (.receive x)
      { s with taken := Function.update s.taken x (s.taken x + 1) }
  | none (op : RelayOp) (hop : ∀ c x m, op ≠ .relay c x m .sent) : Effect s op s

theorem effect_exec (s : Relay) (op : RelayOp) : Effect s op (RelayOp.exec s op).1 := by
  cases op with
  | attach nodeID => exact .attach nodeID
  | register c id =>
    rw [exec]
    split_ifs with hfound
    · exact .none _ fun _ _ _ => RelayOp.noConfusion
    · exact .register (by simpa using hfound)
  | unregister c id => exact .change (.unregister c id)
  | cancel c => exact .change (.cancel c)
  | close c => exact .change (.close c)
  | swap c => exact .change (.swap c)
  | ended c => exact .change (.ended c)
  | begin c =>
    rw [exec]
    split_ifs with hidle
    · exact .change (.begin hidle)
    · exact .none _ fun _ _ _ => RelayOp.noConfusion
  | unmap c =>
    rw [exec]
    split_ifs with hmapped
    · exact .unmap hmapped
    · exact .none _ fun _ _ _ => RelayOp.noConfusion
  | relay c x m outcome =>
    cases outcome with
    | sent => exact .relay c x m
    | finished | cancelled =>
      exact .none _ fun _ _ _ h => Outcome.noConfusion (relay.inj h).2.2.2
  | notify x reason =>
    rw [exec]
    split_ifs
    · exact .notify x reason
    · exact .none _ fun _ _ _ => RelayOp.noConfusion
  | finish x => exact .finish x
  | receive x => exact .receive x
  | agent _ | write _ _ _ | readJSON _ _ | session _ _ | isDone _ | deref _ =>
    exact .none _ fun _ _ _ => RelayOp.noConfusion

/-! ## Connections -/

/-- A connection after a step of any call. -/
structure Advances (a b : AgentConnection) : Prop where
  nodeID : b.nodeID = a.nodeID
  closed : a.closed = true → b.closed = true
  swapped : a.swapped = true → b.swapped = true
  started : a.closeOnce ≠ .idle → b.closeOnce ≠ .idle
  emptied : b.swapped = true → a.swapped = true ∨ b.sessions = [] ∧ b.closed = true

theorem Advances.refl (a : AgentConnection) : Advances a a := ⟨rfl, id, id, id, .inl⟩

variable {s t : Relay} {op : RelayOp} {c : Nat} {x : Session}
  {f : AgentConnection → AgentConnection}

theorem Changes.advances (h : Changes s op c f) (a : AgentConnection) : Advances a (f a) := by
  cases h with
  | unregister | cancel => exact ⟨rfl, id, id, id, .inl⟩
  | close => exact ⟨rfl, fun _ => rfl, id, id, .inl⟩
  | begin | ended => exact ⟨rfl, id, id, fun _ => Once.noConfusion, .inl⟩
  | swap =>
    refine ⟨rfl, id, fun hswapped => by simp [hswapped], id, ?_⟩
    intro hswapped
    exact ((Bool.or_eq_true _ _).mp hswapped).imp_right fun hclosed => ⟨rfl, hclosed⟩

theorem advances_modify (hf : ∀ a, Advances a (f a)) (c' : Nat) :
    Advances (s.connections c') ((s.modify c f).connections c') := by
  by_cases h : c' = c
  · subst h
    rw [connections_modify_self]
    exact hf _
  · rw [connections_modify_of_ne h]
    exact Advances.refl _

section
variable (h : Effect s op t)
include h

theorem Effect.advances (hc : c < s.next) : Advances (s.connections c) (t.connections c) := by
  cases h with
  | attach nodeID =>
    rw [connections_attached_of_ne (Nat.ne_of_lt hc)]
    exact Advances.refl _
  | @register c' key hnew =>
    exact advances_modify (f := fun a => { a with sessions := a.sessions ++ [s.fresh c' key] })
      (fun a => ⟨rfl, id, id, id, .inl⟩) c
  | change hchange => exact advances_modify hchange.advances c
  | unmap | relay | notify | finish | receive | none => exact Advances.refl _

/-- Only the end of its shutdown marks a connection as shut down. -/
theorem Effect.finished (hc : c < s.next) (hfinished : (t.connections c).closeOnce = .finished) :
    (s.connections c).closeOnce = .finished ∨ op = .ended c := by
  cases h with
  | attach nodeID =>
    rw [connections_attached_of_ne (Nat.ne_of_lt hc)] at hfinished
    exact .inl hfinished
  | register hnew =>
    rw [closeOnce_registered] at hfinished
    exact .inl hfinished
  | @change op c' f hchange =>
    by_cases hcc : c = c'
    · subst hcc
      rw [connections_modify_self] at hfinished
      cases hchange with
      | unregister | cancel | close | swap => exact .inl hfinished
      | begin => cases hfinished
      | ended => exact .inr rfl
    · rw [connections_modify_of_ne hcc] at hfinished
      exact .inl hfinished
  | unmap | relay | notify | finish | receive | none => exact .inl hfinished

/-! ## The map of a connection -/

/-- A step only adds the session it registers to a map. -/
theorem Effect.mem_sessions (hx : x ∈ t.sessions c) :
    x ∈ s.sessions c ∨ ∃ id, op = .register c id ∧ x = s.fresh c id ∧
      t.created = s.created ++ [x] := by
  cases h with
  | attach nodeID =>
    by_cases hc : c = s.next
    · subst hc
      rw [sessions, connections_attached_self] at hx
      cases hx
    · rw [sessions, connections_attached_of_ne hc] at hx
      exact .inl hx
  | @register c' id hnew =>
    rw [sessions_registered] at hx
    split_ifs at hx with hc
    · subst hc
      rcases mem_append.mp hx with hold | hnew
      · exact .inl hold
      · obtain rfl := mem_singleton.mp hnew
        exact .inr ⟨id, rfl, rfl, rfl⟩
    · exact .inl hx
  | @change op c' f hchange =>
    rw [sessions_modify] at hx
    split_ifs at hx with hc
    · cases hchange with
      | unregister => exact .inl (mem_filter.mp hx).1
      | swap => cases hx
      | cancel | close | begin | ended => exact .inl hx
    · exact .inl hx
  | unmap | relay | notify | finish | receive | none => exact .inl hx

/-- A session stays in its map until it is removed or the map is exchanged. -/
theorem Effect.sessions_kept (hc : c < s.next) (hx : x ∈ s.sessions c) :
    x ∈ t.sessions c ∨ op = .unregister c x.id ∨ op = .swap c := by
  cases h with
  | attach nodeID =>
    rw [sessions, connections_attached_of_ne (Nat.ne_of_lt hc)]
    exact .inl hx
  | @register c' id hnew =>
    rw [sessions_registered]
    split_ifs
    · exact .inl (mem_append_left _ hx)
    · exact .inl hx
  | @change op c' f hchange =>
    rw [sessions_modify]
    split_ifs with hcc
    · subst hcc
      cases hchange with
      | unregister _ id =>
        by_cases hid : x.id = id
        · rw [hid]
          exact .inr (.inl rfl)
        · exact .inl (mem_filter.mpr ⟨hx, by simpa using hid⟩)
      | swap => exact .inr (.inr rfl)
      | cancel | close | begin | ended => exact .inl hx
    · exact .inl hx
  | unmap | relay | notify | finish | receive | none => exact .inl hx

theorem Effect.created : t.created = s.created ∨
      ∃ c id, op = .register c id ∧ t = s.registered c id ∧
        t.created = s.created ++ [s.fresh c id] := by
  cases h with
  | @register c id hnew => exact .inr ⟨c, id, rfl, rfl, rfl⟩
  | attach | change | unmap | relay | notify | finish | receive | none => exact .inl rfl

/-! ## The hub -/

theorem Effect.next : t.next = s.next ∨ ∃ nodeID, op = .attach nodeID ∧ t = s.attached nodeID := by
  cases h with
  | attach nodeID => exact .inr ⟨nodeID, rfl, rfl⟩
  | register | change | unmap | relay | notify | finish | receive | none => exact .inl rfl

/-- A step only maps a node to the connection it attaches. -/
theorem Effect.agents {nodeID : Bytes} (hmapped : t.agents nodeID = some c) :
    s.agents nodeID = some c ∨ t = s.attached nodeID ∧ c = s.next := by
  cases h with
  | attach n =>
    rw [agents_attached] at hmapped
    split_ifs at hmapped with hn
    · subst hn
      exact .inr ⟨rfl, (Option.some.inj hmapped).symm⟩
    · exact .inl hmapped
  | @unmap c' _ =>
    dsimp only at hmapped
    rw [update_apply] at hmapped
    split_ifs at hmapped
    exact .inl hmapped
  | register | change | relay | notify | finish | receive | none => exact .inl hmapped

/-- A node keeps its connection until it is attached again or the connection is taken out. -/
theorem Effect.agents_kept {nodeID : Bytes} (hmapped : s.agents nodeID = some c) :
    t.agents nodeID = some c ∨ t = s.attached nodeID ∨ op = .unmap c := by
  cases h with
  | attach n =>
    rw [agents_attached]
    split_ifs with hn
    · subst hn
      exact .inr (.inl rfl)
    · exact .inl hmapped
  | @unmap c' hold =>
    by_cases hn : nodeID = (s.connections c').nodeID
    · subst hn
      cases hold.symm.trans hmapped
      exact .inr (.inr rfl)
    · exact .inl ((update_of_ne hn _ _).trans hmapped)
  | register | change | relay | notify | finish | receive | none => exact .inl hmapped

/-! ## The sessions -/

theorem Effect.done (hdone : t.done x = true) : s.done x = true ∨ op = .finish x := by
  cases h with
  | finish y =>
    dsimp only at hdone
    rw [update_apply] at hdone
    split_ifs at hdone with hxy
    · exact .inr (by rw [hxy])
    · exact .inl hdone
  | attach | register | change | unmap | relay | notify | receive | none => exact .inl hdone

theorem Effect.done_kept (hdone : s.done x = true) : t.done x = true := by
  cases h with
  | finish y =>
    by_cases hxy : x = y
    · rw [hxy]
      exact update_self _ _ _
    · exact (update_of_ne hxy _ _).trans hdone
  | attach | register | change | unmap | relay | notify | receive | none => exact hdone

/-- A step puts the message it relays into the channel of its session, and no other. -/
theorem Effect.events (x : Session) :
    (t.events x).filterMap Delivery.relayed? = (s.events x).filterMap Delivery.relayed? ∧
        (∀ c m, op ≠ .relay c x m .sent) ∨
      ∃ c m, op = .relay c x m .sent ∧ t.events x = s.events x ++ [.relayed m] := by
  cases h with
  | relay c y m =>
    rw [events_push]
    split_ifs with hxy
    · subst hxy
      exact .inr ⟨c, m, rfl, rfl⟩
    · refine .inl ⟨rfl, ?_⟩
      intro c' m' hop
      exact hxy (relay.inj hop).2.1.symm
  | notify y reason =>
    refine .inl ⟨?_, fun _ _ => RelayOp.noConfusion⟩
    rw [Relay.events_push]
    split_ifs with hxy
    · subst hxy
      simp [Delivery.relayed?]
    · rfl
  | change hchange =>
    refine .inl ⟨rfl, ?_⟩
    cases hchange with
    | unregister | cancel | close | begin | swap | ended => exact fun _ _ => RelayOp.noConfusion
  | none op hop => exact .inl ⟨rfl, fun c m => hop c x m⟩
  | attach | register | unmap | finish | receive => exact .inl ⟨rfl, fun _ _ => RelayOp.noConfusion⟩

end

end HeyServer.Terminal
