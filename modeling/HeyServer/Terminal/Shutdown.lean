import HeyServer.Terminal.Sessions

/-!
# Attached connections and shutdowns

In every run the hub maps a node to the connection that was attached last, unless the shutdown of
that connection has begun; and when a shutdown has ended, each session that `Open` returned on the
connection is closed or about to be closed by the call that removed it.
-/

namespace HeyServer.Terminal
open Lib List Relay

/-- The connection of a node that was attached last. -/
def latest (s : Relay) (nodeID : Bytes) : Option Nat :=
  ((List.range s.next).filter fun c => (s.connections c).nodeID = nodeID).getLast?

theorem latest_lt {s : Relay} {nodeID : Bytes} {c : Nat} (h : latest s nodeID = some c) :
    c < s.next :=
  mem_range.mp (mem_filter.mp (mem_of_getLast? h)).1

theorem latest_attached (s : Relay) (nodeID n : Bytes) :
    latest (s.attached n) nodeID = if nodeID = n then some s.next else latest s nodeID := by
  have hold : (range s.next).filter (fun c => ((s.attached n).connections c).nodeID = nodeID) =
      (range s.next).filter fun c => (s.connections c).nodeID = nodeID := by
    apply filter_congr
    intro c hc
    rw [connections_attached_of_ne (Nat.ne_of_lt (mem_range.mp hc))]
  have hnew : ((s.attached n).connections s.next).nodeID = n := by rw [connections_attached_self]
  rw [latest, show (s.attached n).next = s.next + 1 from rfl, range_succ, filter_append, hold]
  by_cases h : nodeID = n
  · subst h
    simp [hnew]
  · have hne : n ≠ nodeID := fun heq => h heq.symm
    simp [hnew, h, hne, latest]

/-! ## Every run -/

section Runs

variable {trace : List RelayEvent}
  {cfg : Config Relay RelayOp RelayOp.Reply RelayCall RelayResult}

section
variable (run : Run relaySystem (fun _ => True) newHub trace cfg)
include run

/-- Every state of a run is well formed, and sessions are only added. -/
theorem wellFormed_states :
    WellFormed cfg.state ∧ ∀ e ∈ trace, WellFormed e.before ∧
      e.before.created ⊆ cfg.state.created := by
  refine run.evolves
    (J := fun trace s => WellFormed s ∧ ∀ e ∈ trace, WellFormed e.before ∧
      e.before.created ⊆ s.created)
    ⟨wellFormed_newHub, by simp⟩ ?_
  rintro trace e hready ⟨hwf, hbefore⟩
  refine ⟨hwf.step hready, forall_mem_snoc ?_ ⟨hwf, created_subset _ _⟩⟩
  intro e' he'
  exact ⟨(hbefore e' he').1, List.Subset.trans (hbefore e' he').2 (created_subset _ _)⟩

theorem inv_states (hdistinct : DistinctIds cfg.state) :
    relayRely.inv cfg.state ∧ ∀ e ∈ trace, relayRely.inv e.before := by
  obtain ⟨hlast, hbefore⟩ := wellFormed_states run
  refine ⟨⟨hlast, hdistinct⟩, ?_⟩
  intro e he
  obtain ⟨hwf, hsubset⟩ := hbefore e he
  exact ⟨hwf, fun x hx y hy => hdistinct x (hsubset hx) y (hsubset hy)⟩

end

/-- What the guarded steps keep. -/
structure Guarded (s : Relay) : Prop where
  mapped : ∀ nodeID c, s.agents nodeID = some c → latest s nodeID = some c
  idle : ∀ nodeID c, latest s nodeID = some c → (s.connections c).closeOnce = .idle →
    s.agents nodeID = some c
  ended : ∀ c < s.next, (s.connections c).closeOnce = .finished →
    (s.connections c).swapped = true ∧ ∀ nodeID, s.agents nodeID ≠ some c
  done : ∀ x, s.done x = true → x ∈ s.created ∧ x ∉ s.sessions x.agent

/-- A step attaches a connection or leaves the last one of each node. -/
theorem latest_exec (s : Relay) (op : RelayOp) :
    (∃ nodeID, (RelayOp.exec s op).1 = s.attached nodeID) ∨
      ∀ nodeID, latest (RelayOp.exec s op).1 nodeID = latest s nodeID := by
  rcases (effect_exec s op).next with hnext | ⟨nodeID, -, heq⟩
  · refine .inr fun nodeID => ?_
    rw [latest, latest, hnext]
    congr 1
    apply filter_congr
    intro c hc
    rw [((effect_exec s op).advances (mem_range.mp hc)).nodeID]
  · exact .inl ⟨nodeID, heq⟩

theorem Guarded.step {s : Relay} (h : Guarded s) (hwf : WellFormed s) {op : RelayOp}
    (hguard : relayDuties.guard s op) : Guarded (RelayOp.exec s op).1 where
  mapped nodeID c hc := by
    rcases (effect_exec s op).agents hc with hold | ⟨heq, rfl⟩
    · rcases latest_exec s op with ⟨n, heq⟩ | hlatest
      · rw [heq, agents_attached] at hc
        rw [heq, latest_attached]
        split_ifs at hc ⊢
        · exact hc
        · exact h.mapped nodeID c hc
      · rw [hlatest]
        exact h.mapped nodeID c hold
    · rw [heq, latest_attached, if_pos rfl]
  idle nodeID c hc hidle := by
    rcases latest_exec s op with ⟨n, heq⟩ | hlatest
    · rw [heq, latest_attached] at hc
      rw [heq, agents_attached]
      split_ifs at hc ⊢
      · exact hc
      · rw [heq, connections_attached_of_ne (Nat.ne_of_lt (latest_lt hc))] at hidle
        exact h.idle nodeID c hc hidle
    · rw [hlatest] at hc
      have hbefore : (s.connections c).closeOnce = .idle := by
        by_contra hstarted
        exact ((effect_exec s op).advances (latest_lt hc)).started hstarted hidle
      rcases (effect_exec s op).agents_kept (h.idle nodeID c hc hbefore) with hkept | heq | rfl
      · exact hkept
      · have hnew := hlatest nodeID
        rw [heq, latest_attached, if_pos rfl, hc] at hnew
        exact absurd (latest_lt hc) (Option.some.inj hnew).not_gt
      · exact absurd hbefore hguard.2
  ended c hc hfinished := by
    by_cases hold : c < s.next
    · rcases (effect_exec s op).finished hold hfinished with hbefore | rfl
      · obtain ⟨hswapped, hunmapped⟩ := h.ended c hold hbefore
        have hgrows := grows_exec hwf op
        exact ⟨hgrows.swapped c hold hswapped, hgrows.unmapped c hold hunmapped⟩
      · have hgrows := grows_exec hwf (.ended c)
        exact ⟨hgrows.swapped c hold hguard.2.1, hgrows.unmapped c hold hguard.2.2⟩
    · rcases (effect_exec s op).next with heq | ⟨nodeID, -, heq⟩
      · rw [heq] at hc
        exact absurd hc hold
      · rw [heq] at hc hfinished
        obtain rfl : c = s.next := Nat.le_antisymm (Nat.lt_succ_iff.mp hc) (not_lt.mp hold)
        rw [connections_attached_self] at hfinished
        cases hfinished
  done x hx := by
    rcases (effect_exec s op).done hx with hold | rfl
    · obtain ⟨hcreated, hgone⟩ := h.done x hold
      exact ⟨created_subset s op hcreated, gone_exec hwf hcreated hgone op⟩
    · exact ⟨created_subset s _ hguard.1, gone_exec hwf hguard.1 hguard.2 _⟩

theorem guarded_newHub : Guarded newHub where
  mapped := by simp [newHub]
  idle := by simp [newHub, latest]
  ended := by simp [newHub]
  done := by simp [newHub]

theorem guarded_run (run : Run relaySystem (fun _ => True) newHub trace cfg)
    (hdistinct : DistinctIds cfg.state) : Guarded cfg.state ∧ ∀ e ∈ trace, Guarded e.before := by
  have hguards := run.guard_holds relayRely (Q := fun _ => Promised)
    (fun call _ s _ => fulfils_program call s) (inv_states run hdistinct).2
  have hwf := (wellFormed_states run).2
  refine run.evolves
    (J := fun trace s => (∀ e ∈ trace, relayDuties.guard e.before e.op ∧ WellFormed e.before) →
      Guarded s ∧ ∀ e ∈ trace, Guarded e.before)
    (fun _ => ⟨guarded_newHub, by simp⟩) ?_ fun e he => ⟨hguards e he, (hwf e he).1⟩
  intro trace e _ ih hall
  obtain ⟨hpast, hguard, hwf⟩ := of_forall_mem_snoc hall
  obtain ⟨hnow, hbefore⟩ := ih hpast
  exact ⟨hnow.step hwf hguard, forall_mem_snoc hbefore hnow⟩

/-- The session is still to be opened, is in the map of its connection, or is closed. -/
def Clear (x : Session) (s : Relay) : Prop :=
  x ∉ s.created ∨ x ∈ s.sessions x.agent ∨ s.done x = true

theorem clear_exec {s : Relay} {x : Session} (hwf : WellFormed s) (op : RelayOp) (h : Clear x s) :
    Clear x (RelayOp.exec s op).1 ∨ relayDuties.incurs s op x := by
  rcases h with hnew | hlisted | hdone
  · rcases (effect_exec s op).created with heq | ⟨c, id, -, hstate, heq⟩
    · rw [← heq] at hnew
      exact .inl (.inl hnew)
    · by_cases hx : x = s.fresh c id
      · subst hx
        refine .inl (.inr (.inl ?_))
        rw [hstate, sessions_registered, if_pos (show (s.fresh c id).agent = c from rfl)]
        exact mem_append_right _ (mem_singleton_self _)
      · refine .inl (.inl ?_)
        rw [heq]
        simp [hnew, hx]
  · have hlt : x.agent < s.next := hwf.agent_lt x (hwf.listed _ x hlisted).1
    rcases (effect_exec s op).sessions_kept hlt hlisted with hkept | rfl | rfl
    · exact .inl (.inr (.inl hkept))
    · exact .inr ⟨hlisted, rfl⟩
    · exact .inr hlisted
  · exact .inl (.inr (.inr ((effect_exec s op).done_kept hdone)))

/-- A session that `Open` returned on a connection whose shutdown has ended is closed, or a call
that has removed it closes it in the steps it has left. -/
theorem closed_or_owed (run : Run relaySystem (fun _ => True) newHub trace cfg)
    (hdistinct : DistinctIds cfg.state) {c : RelayCall} {x : Session}
    (hopened : (c, .done (.opened x)) ∈ cfg.calls)
    (hended : (cfg.state.connections x.agent).closeOnce = .finished) :
    cfg.state.done x = true ∨ x ∉ cfg.state.sessions x.agent ∧
      ∃ call ∈ cfg.calls, call.2.Pays relayDuties.pays x := by
  have hinv := inv_states run hdistinct
  obtain ⟨hcreated, hsettled⟩ : Promised (.opened x) cfg.state :=
    run.returned relayRely (Q := fun _ => Promised)
      (fun call _ s _ => fulfils_program call s) hinv hopened
  have hswapped := ((guarded_run run hdistinct).1.ended _ (hinv.1.1.agent_lt x hcreated) hended).1
  have hclear := run.owed relayRely (Q := fun _ => Promised) (I := Clear x) (x := x)
    (G := fun _ _ => True) (fun call _ s _ => fulfils_program call s) hinv.2 (fun _ _ => trivial)
    (.inl (by simp [newHub])) (fun s op hs _ _ => clear_exec hs.1 op) (by
      rintro s op - rfl
      exact .inr (.inr (Function.update_self _ _ _)))
  rcases hclear with (hnew | hlisted | hdone) | howed
  · exact absurd hcreated hnew
  · exact absurd hlisted (hsettled hswapped)
  · exact .inl hdone
  · exact .inr ⟨hsettled hswapped, howed⟩

end Runs

end HeyServer.Terminal
