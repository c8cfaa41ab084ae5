import HeyServer.Terminal.Steps

/-!
# What a connection does with its sessions

Connections only ever advance: closed, shut down, with fewer old sessions. Relying on that, every
call that takes a session out of a map closes its `Done` channel in the steps it has left.
-/

namespace HeyServer.Terminal
open Lib List RelayOp Relay Rely.Fulfils

/-! ## Invariants -/

/-- What holds whatever the calls do. -/
structure WellFormed (s : Relay) : Prop where
  ptr_lt : ∀ x ∈ s.created, x.ptr < s.created.length
  agent_lt : ∀ x ∈ s.created, x.agent < s.next
  listed : ∀ c, ∀ x ∈ s.sessions c, x ∈ s.created ∧ x.agent = c
  mapped : ∀ nodeID c, s.agents nodeID = some c → c < s.next ∧ (s.connections c).nodeID = nodeID
  closed : ∀ c < s.next, (s.connections c).swapped = true → (s.connections c).closed = true

variable {s : Relay}

theorem next_le (s : Relay) (op : RelayOp) : s.next ≤ (RelayOp.exec s op).1.next := by
  rcases (effect_exec s op).next with h | ⟨nodeID, -, h⟩
  · exact h.ge
  · rw [h]
    exact Nat.le_succ _

theorem created_subset (s : Relay) (op : RelayOp) : s.created ⊆ (RelayOp.exec s op).1.created := by
  rcases (effect_exec s op).created with h | ⟨c, id, -, -, h⟩
  · rw [h]
    exact List.Subset.refl _
  · rw [h]
    exact subset_append_left _ _

/-- A session that is not in its map stays out of it. -/
theorem gone_exec (hwf : WellFormed s) {x : Session} (hx : x ∈ s.created)
    (hgone : x ∉ s.sessions x.agent) (op : RelayOp) :
      x ∉ (RelayOp.exec s op).1.sessions x.agent := by
  intro hmem
  rcases (effect_exec s op).mem_sessions hmem with hold | ⟨id, -, hfresh, -⟩
  · exact hgone hold
  · rw [hfresh] at hx
    exact Nat.lt_irrefl _ (hwf.ptr_lt _ hx)

theorem WellFormed.step (h : WellFormed s) {op : RelayOp}
    (hready : RelayOp.ready s op = true) : WellFormed (RelayOp.exec s op).1 where
  ptr_lt x hx := by
    rcases (effect_exec s op).created with heq | ⟨c, id, -, -, heq⟩
    · rw [heq] at hx ⊢
      exact h.ptr_lt x hx
    · rw [heq] at hx
      rw [heq, length_append]
      exact forall_mem_snoc (fun x hx => Nat.lt_add_right _ (h.ptr_lt x hx))
        (Nat.lt_succ_self _) x hx
  agent_lt x hx := by
    apply Nat.lt_of_lt_of_le _ (next_le s op)
    rcases (effect_exec s op).created with heq | ⟨c, id, rfl, -, heq⟩
    · rw [heq] at hx
      exact h.agent_lt x hx
    · rw [heq] at hx
      refine forall_mem_snoc h.agent_lt ?_ x hx
      exact of_decide_eq_true hready
  listed c x hx := by
    rcases (effect_exec s op).mem_sessions hx with hold | ⟨id, -, hfresh, hcreated⟩
    · obtain ⟨hmem, hagent⟩ := h.listed c x hold
      exact ⟨created_subset s op hmem, hagent⟩
    · rw [hcreated, hfresh]
      exact ⟨mem_append_right _ (mem_singleton_self _), rfl⟩
  mapped nodeID c hc := by
    rcases (effect_exec s op).agents hc with hold | ⟨heq, rfl⟩
    · obtain ⟨hlt, hnode⟩ := h.mapped nodeID c hold
      exact ⟨Nat.lt_of_lt_of_le hlt (next_le s op),
        ((effect_exec s op).advances hlt).nodeID.trans hnode⟩
    · rw [heq, connections_attached_self]
      exact ⟨Nat.lt_succ_self _, rfl⟩
  closed c hc hswapped := by
    by_cases hold : c < s.next
    · have hadvances := (effect_exec s op).advances hold
      rcases hadvances.emptied hswapped with hbefore | ⟨-, hclosed⟩
      · exact hadvances.closed (h.closed c hold hbefore)
      · exact hclosed
    · rcases (effect_exec s op).next with heq | ⟨nodeID, -, heq⟩
      · rw [heq] at hc
        exact absurd hc hold
      · rw [heq] at hc hswapped
        obtain rfl : c = s.next := Nat.le_antisymm (Nat.lt_succ_iff.mp hc) (not_lt.mp hold)
        rw [connections_attached_self] at hswapped
        cases hswapped

theorem wellFormed_newHub : WellFormed newHub where
  ptr_lt := by simp [newHub]
  agent_lt := by simp [newHub]
  listed := by simp [newHub, sessions]
  mapped := by simp [newHub]
  closed := by simp [newHub]

/-- The session is not in the map that a connection has after its shutdown. -/
def Settled (s : Relay) (x : Session) : Prop :=
  (s.connections x.agent).swapped = true → x ∉ s.sessions x.agent

/-- What the others can have changed when a call takes its next step. -/
structure Grows (s t : Relay) : Prop where
  next : s.next ≤ t.next
  created : s.created ⊆ t.created
  closed : ∀ c < s.next, (s.connections c).closed = true → (t.connections c).closed = true
  swapped : ∀ c < s.next, (s.connections c).swapped = true → (t.connections c).swapped = true
  started : ∀ c < s.next, (s.connections c).closeOnce ≠ .idle → (t.connections c).closeOnce ≠ .idle
  unmapped : ∀ c < s.next, (∀ nodeID, s.agents nodeID ≠ some c) → ∀ nodeID, t.agents nodeID ≠ some c
  gone : ∀ x ∈ s.created, x ∉ s.sessions x.agent → x ∉ t.sessions x.agent
  settled : ∀ x ∈ s.created, Settled s x → Settled t x

theorem Grows.refl (s : Relay) : Grows s s where
  next := le_rfl
  created := List.Subset.refl _
  closed _ _ h := h
  swapped _ _ h := h
  started _ _ h := h
  unmapped _ _ h := h
  gone _ _ h := h
  settled _ _ h := h

theorem Grows.trans {a b c : Relay} (hab : Grows a b) (hbc : Grows b c) : Grows a c where
  next := hab.next.trans hbc.next
  created := List.Subset.trans hab.created hbc.created
  closed i hi h := hbc.closed i (hi.trans_le hab.next) (hab.closed i hi h)
  swapped i hi h := hbc.swapped i (hi.trans_le hab.next) (hab.swapped i hi h)
  started i hi h := hbc.started i (hi.trans_le hab.next) (hab.started i hi h)
  unmapped i hi h := hbc.unmapped i (hi.trans_le hab.next) (hab.unmapped i hi h)
  gone x hx h := hbc.gone x (hab.created hx) (hab.gone x hx h)
  settled x hx h := hbc.settled x (hab.created hx) (hab.settled x hx h)

theorem grows_exec (hwf : WellFormed s) (op : RelayOp) : Grows s (RelayOp.exec s op).1 where
  next := next_le s op
  created := created_subset s op
  closed c hc := ((effect_exec s op).advances hc).closed
  swapped c hc := ((effect_exec s op).advances hc).swapped
  started c hc := ((effect_exec s op).advances hc).started
  unmapped c hc hnone nodeID hmapped := by
    rcases (effect_exec s op).agents hmapped with hold | ⟨-, rfl⟩
    · exact hnone nodeID hold
    · exact Nat.lt_irrefl _ hc
  gone x hx hgone := gone_exec hwf hx hgone op
  settled x hx hsettled hswapped := by
    rcases ((effect_exec s op).advances (hwf.agent_lt x hx)).emptied hswapped with
      hbefore | ⟨hempty, -⟩
    · exact gone_exec hwf hx (hsettled hbefore) op
    · rw [sessions, hempty]
      exact not_mem_nil

/-- The sessions have pairwise distinct ids. -/
def DistinctIds (s : Relay) : Prop := ∀ x ∈ s.created, ∀ y ∈ s.created, x.id = y.id → x = y

instance (s : Relay) : Decidable (DistinctIds s) :=
  inferInstanceAs (Decidable (∀ x ∈ s.created, ∀ y ∈ s.created, x.id = y.id → x = y))

def relayRely : Rely relaySemantics where
  inv s := WellFormed s ∧ DistinctIds s
  grows := Grows
  refl := Grows.refl
  trans := Grows.trans
  extends_ _ op h _ := grows_exec h.1 op

/-! ## What the programs guarantee -/

/-- A session taken out of a map is charged to the call that took it; closing `Done` pays for it. -/
def relayDuties : Duties Relay RelayOp Session where
  guard t
    | .unmap c => c < t.next ∧ (t.connections c).closeOnce ≠ .idle
    | .ended c => c < t.next ∧ (t.connections c).swapped = true ∧ ∀ nodeID, t.agents nodeID ≠ some c
    | .finish x => x ∈ t.created ∧ x ∉ t.sessions x.agent
    | _ => True
  incurs t
    | .unregister c id => fun x => x ∈ t.sessions c ∧ x.id = id
    | .swap c => fun x => x ∈ t.sessions c
    | _ => fun _ => False
  pays op x := op = .finish x

abbrev Fulfils {α : Type} (Q : α → Relay → Prop) (p : RelayProg α) (s : Relay) : Prop :=
  relayRely.Fulfils relayDuties Q p s

section Programs

variable {α : Type} {Q : α → Relay → Prop} {s : Relay}
  {k : RelayProg α} {x : Session} {t : Relay} {c : Nat}

/-- A step that is guarded, incurs nothing and whose reply is not used. -/
theorem Fulfils.skip {o : RelayOp} (hk : Fulfils Q k s)
    (hguard : ∀ t, relayRely.inv t → Grows s t → relayDuties.guard t o)
    (hincurs : ∀ t x, ¬ relayDuties.incurs t o x) : Fulfils Q (.call o fun _ => k) s := by
  intro t ht hst hready
  refine ⟨hguard t ht hst, fun x hx => absurd hx (hincurs t x), ?_⟩
  exact mono hk (hst.trans (grows_exec ht.1 o))

theorem Fulfils.finish (hk : Fulfils Q k s) (hx : x ∈ s.created)
    (hgone : x ∉ s.sessions x.agent) : Fulfils Q (.call (.finish x) fun _ => k) s :=
  hk.skip (fun _ _ hst => ⟨hst.created hx, hst.gone x hx hgone⟩) fun _ _ h => h

variable (reason : Bytes)

theorem fulfils_endSessions {Q : Relay → Prop} {xs : List Session}
    (hxs : ∀ x ∈ xs, x ∈ s.created ∧ x ∉ s.sessions x.agent)
    (hQ : ∀ t, relayRely.inv t → Grows s t → Q t) :
      Fulfils (fun _ => Q) (endSessions reason xs) s := by
  induction xs with
  | nil => exact hQ
  | cons x xs ih =>
    have hx := hxs x mem_cons_self
    have hrest := ih fun y hy => hxs y (mem_cons_of_mem x hy)
    exact (hrest.finish hx.1 hx.2).skip (fun _ _ _ => trivial) fun _ _ h => h

theorem endSessions_pays {xs : List Session} (hx : x ∈ xs) :
    (endSessions reason xs).Pays relayDuties.pays x := by
  induction xs with
  | nil => cases hx
  | cons y ys ih =>
    rcases mem_cons.mp hx with rfl | hx
    · exact .inr fun _ => .inl rfl
    · exact .inr fun _ => .inr fun _ => ih hx

theorem unmapped_unmap (hwf : WellFormed t) (c : Nat) (nodeID : Bytes) :
    (RelayOp.exec t (.unmap c)).1.agents nodeID ≠ some c := by
  rw [exec]
  split_ifs with hmapped
  · dsimp only
    rw [Function.update_apply]
    split_ifs with hn
    · exact (Option.some_ne_none c).symm
    · exact fun h => hn (hwf.mapped _ _ h).2.symm
  · intro h
    rw [← (hwf.mapped _ _ h).2] at h
    exact hmapped h

theorem fulfils_shutdownOnce (order : MapOrder) (hc : c < s.next)
    (hstarted : (s.connections c).closeOnce ≠ .idle) :
    Fulfils (fun _ _ => True) (shutdownOnce c reason order) s := by
  intro t1 hinv1 hgrows1 _
  have hc1 : c < t1.next := hc.trans_le hgrows1.next
  have hunmapped : ∀ nodeID, (exec t1 (.unmap c)).1.agents nodeID ≠ some c :=
    unmapped_unmap hinv1.1 c
  have hcu : c < (exec t1 (.unmap c)).1.next := hc1.trans_le (next_le t1 _)
  refine ⟨⟨hc1, hgrows1.started c hc hstarted⟩, fun _ h => h.elim, ?_⟩
  intro t2 hinv2 hgrows2 _
  have hc2 : c < t2.next := hcu.trans_le hgrows2.next
  have hclosed : ((exec t2 (.close c)).1.connections c).closed = true := by
    dsimp only [exec]
    rw [connections_modify_self]
  have hgrowsu := hgrows2.trans (grows_exec hinv2.1 (.close c))
  refine ⟨trivial, fun _ h => h.elim, ?_⟩
  intro t3 hinv3 hgrows3 _
  have hcc : c < (exec t2 (.close c)).1.next := hc2.trans_le (next_le t2 _)
  have hc3 : c < t3.next := hcc.trans_le hgrows3.next
  have hclosed3 : (t3.connections c).closed = true := hgrows3.closed c hcc hclosed
  have hgrows4 := (hgrowsu.trans hgrows3).trans (grows_exec hinv3.1 (.swap c))
  have hempty : (exec t3 (.swap c)).1.sessions c = [] := by
    dsimp only [exec]
    rw [sessions_modify, if_pos rfl]
  have hswapped : ((exec t3 (.swap c)).1.connections c).swapped = true := by
    dsimp only [exec]
    rw [connections_modify_self]
    simp [hclosed3]
  have hc4 : c < (exec t3 (.swap c)).1.next := hc3.trans_le (next_le t3 _)
  refine ⟨trivial, ?_, ?_⟩
  · intro x hx
    exact (endSessions_pays reason ((order.perm _).mem_iff.mpr hx)).bind _
  · -- the sessions of the old map are charged to this call; none of them is in the new one
    refine bind (P := fun _ t => relayDuties.guard t (.ended c)) ?_ ?_
    · apply fulfils_endSessions
      · intro x hx
        obtain ⟨hcreated, hagent⟩ := hinv3.1.listed c x ((order.perm _).mem_iff.mp hx)
        refine ⟨created_subset t3 _ hcreated, ?_⟩
        rw [hagent]
        change x ∉ (exec t3 (.swap c)).1.sessions c
        rw [hempty]
        exact not_mem_nil
      · intro t _ hgrows
        exact ⟨hc4.trans_le hgrows.next, hgrows.swapped c hc4 hswapped,
          (hgrows4.trans hgrows).unmapped c hcu hunmapped⟩
    · intro _ t hguard u hu hgrows _
      exact ⟨hguard u hu hgrows, fun _ h => h.elim, fun _ _ _ => trivial⟩

theorem fulfils_shutdown (c : Nat) (reason : Bytes) (order : MapOrder) (s : Relay) :
    Fulfils (fun _ _ => True) (shutdown c reason order) s := by
  intro t hinv _ hready
  have hlt : c < t.next := of_decide_eq_true ((Bool.and_eq_true _ _).mp hready).1
  refine ⟨trivial, fun _ h => h.elim, ?_⟩
  change Fulfils _ ((fun first : Bool => if first then shutdownOnce c reason order else .done ())
    (exec t (.begin c)).2) (exec t (.begin c)).1
  rw [exec]
  split_ifs with hidle
  · dsimp only
    rw [if_pos rfl]
    refine fulfils_shutdownOnce (s := t.modify c _) reason order hlt ?_
    rw [connections_modify_self]
    exact Once.noConfusion
  · exact fun _ _ _ => trivial

/-- A call that removes a session and then closes its channel. -/
theorem fulfils_removeSession (hx : x ∈ s.created) (notify : Bool) (hk : Fulfils Q k s) :
    Fulfils Q (removeSession x.agent x.id notify >>= fun _ => .call (.finish x) fun _ => k) s := by
  intro t ht hst _
  have hxt : x ∈ t.created := hst.created hx
  have hgone : x ∉ (exec t (.unregister x.agent x.id)).1.sessions x.agent := by
    dsimp only [exec]
    rw [sessions_modify, if_pos rfl]
    simp
  have hfinish : Fulfils Q (.call (.finish x) fun _ => k) (exec t (.unregister x.agent x.id)).1 :=
    Fulfils.finish (mono hk (hst.trans (grows_exec ht.1 _))) (created_subset t _ hxt) hgone
  refine ⟨trivial, ?_, ?_⟩
  · rintro y ⟨hy, hid⟩
    obtain rfl := ht.2 y (ht.1.listed _ y hy).1 x hxt hid
    dsimp only
    split_ifs
    · exact .inr fun _ => .inl rfl
    · exact .inl rfl
  · dsimp only
    split_ifs
    · exact hfinish.skip (fun _ _ _ => trivial) fun _ _ h => h
    · exact hfinish

theorem fulfils_runLoop {Q : Relay → Prop} (c : Nat) (readings : List Reading)
    (hQ : ∀ t, relayRely.inv t → Grows s t → Q t) :
      Fulfils (fun _ => Q) (runLoop c readings) s := by
  induction readings with
  | nil => exact hQ
  | cons r rest ih =>
    apply Fulfils.skip
    · split_ifs
      · exact ih.skip (fun _ _ _ => trivial) fun _ _ h => h
      · exact ih
      · intro t ht hst _
        refine ⟨trivial, fun _ h => h.elim, ?_⟩
        change Fulfils _ (dispatch c r (runLoop c rest) (t.find c r.message.sessionID)) t
        have hagain : Fulfils (fun _ => Q) (runLoop c rest) t := mono ih hst
        cases hfound : t.find c r.message.sessionID with
        | none => exact hagain
        | some x =>
          obtain ⟨hlisted, hid⟩ := find_some hfound
          obtain ⟨hx, hagent⟩ := ht.1.listed c x hlisted
          refine Fulfils.skip (o := .relay c x r.message r.outcome) ?_ (fun _ _ _ => trivial)
            fun _ _ h => h
          split_ifs
          · exact fun u hu htu => hQ u hu (hst.trans htu)
          · rw [← hid, ← hagent]
            exact fulfils_removeSession hx false (hagent ▸ hagain)
          · exact hagain
    · exact fun _ _ _ => trivial
    · exact fun _ _ h => h

/-- What the value of a call says from then on: a session that `Open` returned is in no map that its
connection has after its shutdown. -/
def Promised : RelayResult → Relay → Prop
  | .opened x, t => x ∈ t.created ∧ Settled t x
  | _, _ => True

theorem fulfils_announce (hx : x ∈ s.created) (cols rows : UInt16) (fails : Bool) :
    Fulfils Promised (announce x.agent x.id cols rows fails (some x)) s := by
  intro t ht hst _
  have hxt : x ∈ t.created := hst.created hx
  refine ⟨trivial, fun _ h => h.elim, ?_⟩
  change Fulfils _ (if (!(t.connections x.agent).closed && !fails) = true then _ else _) t
  split_ifs with hok
  · -- the transport was open when the message was written
    have hopen : (t.connections x.agent).closed = false := by
      simpa using ((Bool.and_eq_true _ _).mp hok).1
    have hsettled : Settled t x := by
      intro hswapped
      rw [ht.1.closed _ (ht.1.agent_lt x hxt) hswapped] at hopen
      cases hopen
    intro u _ htu
    exact ⟨htu.created hxt, htu.settled x hxt hsettled⟩
  · exact fulfils_removeSession hxt false fun _ _ _ => trivial

theorem fulfils_openOn (id : Bytes) (cols rows : UInt16) (fails : Bool) (agent : Option Nat)
    (s : Relay) : Fulfils Promised (openOn id cols rows fails agent) s := by
  cases agent with
  | none => exact fun _ _ _ => trivial
  | some c =>
    rw [openOn]
    split_ifs
    · exact fun _ _ _ => trivial
    · intro t ht _ _
      refine ⟨trivial, fun _ h => h.elim, ?_⟩
      change Fulfils _ (announce c id cols rows fails (exec t (.register c id)).2)
        (exec t (.register c id)).1
      rw [exec]
      split_ifs
      · exact fun _ _ _ => trivial
      · exact fulfils_announce (x := t.fresh c id)
          (mem_append_right _ (mem_singleton_self _)) cols rows fails

theorem fulfils_program (call : RelayCall) (s : Relay) : Fulfils Promised call.program s := by
  cases call with
  | serve nodeID readings replaced disconnected =>
    intro t _ _ _
    refine ⟨trivial, fun _ h => h.elim, ?_⟩
    apply bind (P := fun _ _ => True)
    · change Fulfils _ (replacePrevious replaced (t.agents nodeID)) _
      cases t.agents nodeID with
      | none => exact fun _ _ _ => trivial
      | some previous => exact fulfils_shutdown previous _ replaced _
    · intro _ u _
      apply bind (P := fun _ _ => True)
      · exact fulfils_runLoop _ readings fun _ _ _ => trivial
      · intro _ v _
        apply bind (fulfils_shutdown _ _ disconnected v)
        exact fun _ _ _ _ _ _ => trivial
  | openSession nodeID id cols rows fails =>
    intro t _ _ _
    exact ⟨trivial, fun _ h => h.elim, fulfils_openOn id cols rows fails _ _⟩
  | close x =>
    intro t _ _ hready
    refine ⟨trivial, fun _ h => h.elim, ?_⟩
    exact fulfils_removeSession (of_decide_eq_true hready) true fun _ _ _ => trivial
  | send x m fails =>
    intro t _ _ _
    refine ⟨trivial, fun _ h => h.elim, ?_⟩
    intro u _ _ _
    refine ⟨trivial, fun _ h => h.elim, ?_⟩
    change Fulfils _ (if u.done x = true then _ else _) u
    split_ifs
    · exact fun _ _ _ => trivial
    · exact fun v _ _ _ => ⟨trivial, fun _ h => h.elim, fun _ _ _ => trivial⟩
  | shutdown c reason order =>
    apply bind (fulfils_shutdown c reason order s)
    exact fun _ _ _ _ _ _ => trivial
  | cancel c =>
    have hdone : Fulfils Promised (.done .ended) s := fun _ _ _ => trivial
    exact (hdone.skip (o := .close c) (fun _ _ _ => trivial) fun _ _ h => h).skip
      (fun _ _ _ => trivial) fun _ _ h => h
  | receive x => exact fun _ _ _ _ => ⟨trivial, fun _ h => h.elim, fun _ _ _ => trivial⟩

end Programs

end HeyServer.Terminal
