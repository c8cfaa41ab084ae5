import HeyServer.Hub.TaskQueue

/-!
# Agent hub: revisions of a desired profile

The accepted saves of a node's profile form a chain: each was made with the
revision the one before it left, so no update is lost.
-/

namespace HeyServer.Hub
open Lib List Option Decimal

/-! ## Saves -/

/-- The revision stored for a node; no profile is revision zero. -/
def Db.storedRevision (db : Db) (nodeId : Bytes) : Int :=
  ((db.profiles nodeId).map (·.revision)).getD 0

/-- Call number `call` saved a profile. -/
structure Save where
  call : Nat
  normalized : AgentProfile
  expected : Int
  revision : Int

/-- The save of a node's profile an event committed. -/
def saveOf (nodeId : Bytes) (e : HubEvent) : Option Save :=
  match e.op with
  | .saveProfile nodeId' normalized expected stamp =>
    if nodeId' = nodeId then
      match e.before.db.saveNodeProfile nodeId' normalized expected stamp with
      | .ok committed => some ⟨e.id, normalized, expected, committed.2⟩
      | .error _ => none
    else none
  | _ => none

/-- The accepted saves of a node's profile, in order. -/
def saves (nodeId : Bytes) (trace : List HubEvent) : List Save := trace.filterMap (saveOf nodeId)

theorem saves_append (nodeId : Bytes) (trace : List HubEvent) (e : HubEvent) :
    saves nodeId (trace ++ [e]) = saves nodeId trace ++ (saveOf nodeId e).toList := by
  rw [saves, filterMap_append]
  cases h : saveOf nodeId e <;> simp [saves, h]

variable {nodeId : Bytes} {save : Save} {trace : List HubEvent}

/-- What a committed save did. -/
theorem saveOf_eq_some {e : HubEvent} (h : saveOf nodeId e = some save) :
    ∃ stamp db', e.op = .saveProfile nodeId save.normalized save.expected stamp ∧ save.call = e.id ∧
      e.before.db.saveNodeProfile nodeId save.normalized save.expected stamp =
        .ok (db', save.revision) ∧ (e.after hubSemantics).db = db' := by
  unfold saveOf at h
  split at h
  · next nodeId' normalized expected stamp hop =>
      split_ifs at h with hnode
      subst hnode
      split at h
      · next committed hok =>
          cases h
          refine ⟨stamp, committed.1, hop, rfl, hok, ?_⟩
          change (e.before.exec e.op).1.db = _
          rw [hop]
          change (e.before.commit (e.before.db.saveNodeProfile nodeId' normalized expected stamp)).1.db = _
          rw [hok]
          rfl
      · cases h
  · cases h

/-- Without a save of its own a node's profile stays. -/
theorem profiles_of_saveOf_none {e : HubEvent} (h : saveOf nodeId e = none) :
    (e.after hubSemantics).db.profiles nodeId = e.before.db.profiles nodeId := by
  have hstep : DbStep e.before.db e.op (e.after hubSemantics).db := exec_dbStep e.before e.op
  generalize (e.after hubSemantics).db = db at hstep ⊢
  rw [saveOf] at h
  cases hop : e.op with
  | saveProfile nodeId' normalized expected stamp =>
    rw [hop] at h hstep
    cases hstep with
    | same => rfl
    | save hok =>
      dsimp only at h
      rw [hok] at h
      split_ifs at h with hnode
      exact Function.update_of_ne (Ne.symm hnode) _ _
  | _ =>
    rw [hop] at hstep
    cases hstep <;> rfl

/-! ## The chain -/

/-- Beyond the largest revision the next one is negative and refused. -/
theorem wrap64_succ {r : Int} (hr : ValidRevision r) (hpos : 1 ≤ Decimal.wrap64 (r + 1)) :
    Decimal.wrap64 (r + 1) = r + 1 ∧ ValidRevision (r + 1) := by
  simp only [ValidRevision, wrap64, minInt64, maxInt64] at hr hpos ⊢
  omega

/-- Where the saves of a node stand: the `k`-th was made with revision `k` and left `k + 1`, and
what is stored is the last one. -/
structure SavesInv (nodeId : Bytes) (trace : List HubEvent) (s : HubState) : Prop where
  chain : ∀ (k : Nat) (save : Save), (saves nodeId trace)[k]? = some save →
    save.expected = k ∧ save.revision = k + 1
  valid : ∀ save ∈ saves nodeId trace, save.normalized.Normalized ∧ ValidRevision save.revision ∧
    (applyDocument save.normalized save.revision).marshal.length ≤ maxProfileJsonBytes
  latest : (s.db.profiles nodeId).map (fun row => (row.profileJson, row.revision)) =
    (saves nodeId trace).getLast?.map fun save => (save.normalized.marshal, save.revision)

namespace SavesInv
variable {env : Env} {nodeId : Bytes} {trace : List HubEvent} {s : HubState}

theorem storedRevision_eq (h : SavesInv nodeId trace s) :
    s.db.storedRevision nodeId = (saves nodeId trace).length := by
  have hrevision : (s.db.profiles nodeId).map (·.revision) =
      (saves nodeId trace).getLast?.map (·.revision) := by
    have hsnd := congrArg (Option.map Prod.snd) h.latest
    rwa [Option.map_map, Option.map_map] at hsnd
  rw [Db.storedRevision, hrevision]
  rcases eq_nil_or_concat (saves nodeId trace) with hnil | ⟨earlier, last, hlast⟩
  · rw [hnil]
    rfl
  · rw [concat_eq_append] at hlast
    have hget : (saves nodeId trace)[earlier.length]? = some last := by simp [hlast]
    rw [hlast, getLast?_append_cons, getLast?_singleton, length_append]
    exact (h.chain _ _ hget).2

/-- The revision a save was made with is the number of saves before it. -/
theorem saved (h : SavesInv nodeId trace s) {normalized : AgentProfile} {expected revision : Int}
    {stamp : Time} {db' : Db} (hnormal : normalized.Normalized)
    (hok : s.db.saveNodeProfile nodeId normalized expected stamp = .ok (db', revision)) :
    expected = (saves nodeId trace).length ∧ revision = (saves nodeId trace).length + 1 ∧
      ValidRevision revision ∧
      (applyDocument normalized revision).marshal.length ≤ maxProfileJsonBytes := by
  have hstored := h.storedRevision_eq
  obtain ⟨hcase, ⟨⟨q, document⟩, hdocument⟩, -⟩ := Db.saveNodeProfile_ok hok
  obtain ⟨hpos, hq, rfl, hlen⟩ := (canonicalProfileApplyDocument_ok_iff _ _ _ _).mp hdocument
  obtain rfl : normalized = q := Except.ok.inj (hnormal.symm.trans hq)
  rcases hcase with ⟨hnone, rfl, rfl⟩ | ⟨row, hrow, rfl, hone, rfl⟩
  · rw [Db.storedRevision, hnone] at hstored
    have hzero : ((saves nodeId trace).length : Int) = 0 := hstored.symm
    exact ⟨hzero.symm, by omega, by decide, hlen⟩
  · rw [Db.storedRevision, hrow] at hstored
    have hcount : row.revision = (saves nodeId trace).length := hstored
    have hvalid : ValidRevision row.revision := by
      have hlatest := h.latest
      rw [hrow] at hlatest
      obtain ⟨save, hsave, heq⟩ := map_eq_some_iff.mp hlatest.symm
      rw [← (Prod.mk.inj heq).2]
      exact (h.valid save (mem_of_getLast? hsave)).2.1
    obtain ⟨hwrap, hnext⟩ := wrap64_succ hvalid hpos
    rw [hwrap] at hlen ⊢
    exact ⟨hcount, by omega, hnext, hlen⟩

theorem step {e : HubEvent} (h : SavesInv nodeId trace e.before) (hop : e.op.IssuedBy env e.call) :
    SavesInv nodeId (trace ++ [e]) (e.after hubSemantics) := by
  cases hsave : saveOf nodeId e with
  | none =>
    have hsaves : saves nodeId (trace ++ [e]) = saves nodeId trace := by
      rw [saves_append, hsave, toList_none, append_nil]
    constructor
    · rw [hsaves]
      exact h.chain
    · rw [hsaves]
      exact h.valid
    · rw [hsaves, profiles_of_saveOf_none hsave]
      exact h.latest
  | some save =>
    have hsaves : saves nodeId (trace ++ [e]) = saves nodeId trace ++ [save] := by
      rw [saves_append, hsave, toList_some]
    obtain ⟨stamp, db', hopeq, -, hok, hdb⟩ := saveOf_eq_some hsave
    rw [hopeq] at hop
    obtain ⟨hexpected, hrevision, hvalid, hlen⟩ := h.saved hop.1 hok
    constructor
    · rw [hsaves]
      intro k save' hget
      rcases Nat.lt_or_ge k (saves nodeId trace).length with hk | hk
      · rw [getElem?_append_left hk] at hget
        exact h.chain k save' hget
      · have hlast := (List.getElem?_eq_some_iff.mp hget).1
        rw [length_append, length_singleton] at hlast
        have hk' : k = (saves nodeId trace).length := by omega
        rw [hk', getElem?_concat_length] at hget
        cases hget
        rw [hk']
        exact ⟨hexpected, hrevision⟩
    · rw [hsaves]
      exact forall_mem_snoc h.valid ⟨hop.1, hvalid, hlen⟩
    · rw [hsaves, hdb, (Db.saveNodeProfile_ok hok).2.2]
      simp

end SavesInv

theorem savesInv_initial (nodeId : Bytes) : SavesInv nodeId [] HubState.initial where
  chain := by simp [saves]
  valid := by simp [saves]
  latest := rfl

theorem savesInv_run {env : Env}
    {cfg : Config HubState Op Reply Call HubValue} (run : HubRun env trace cfg) (nodeId : Bytes) :
    SavesInv nodeId trace cfg.state :=
  run.history (hub_issues env) (savesInv_initial nodeId) fun _ _ hop ih => ih.step hop

theorem SavesInv.expected_eq {s : HubState}
    (h : SavesInv nodeId trace s) (hsave : save ∈ saves nodeId trace) :
    save.expected = save.revision - 1 := by
  obtain ⟨k, hk⟩ := mem_iff_getElem?.mp hsave
  obtain ⟨hexpected, hrevision⟩ := h.chain k save hk
  omega

/-- Two saves made with the same revision are one. -/
theorem SavesInv.expected_inj {s : HubState}
    (h : SavesInv nodeId trace s) {save' : Save} (hsave : save ∈ saves nodeId trace)
    (hsave' : save' ∈ saves nodeId trace) (heq : save.expected = save'.expected) :
      save = save' := by
  obtain ⟨k, hk⟩ := mem_iff_getElem?.mp hsave
  obtain ⟨k', hk'⟩ := mem_iff_getElem?.mp hsave'
  have hkk : (k : Int) = k' := by rw [← (h.chain k _ hk).1, ← (h.chain k' _ hk').1, heq]
  rw [Int.ofNat_inj.mp hkk, hk'] at hk
  exact (some.inj hk).symm

/-! ## Calls -/

/-- A stale writer is told so. -/
theorem saveNodeProfile_stale {db : Db} {expected : Int}
    (hnode : db.nodes nodeId ≠ none) (hrevision : db.storedRevision nodeId ≠ expected)
    (normalized : AgentProfile) (stamp : Time) :
    db.saveNodeProfile nodeId normalized expected stamp =
      .error (.sentinel .profileRevisionStale) := by
  obtain ⟨node, hnode⟩ := ne_none_iff_exists'.mp hnode
  cases hrow : db.profiles nodeId with
  | none =>
    have hne : expected ≠ 0 := by
      rw [Db.storedRevision, hrow] at hrevision
      exact hrevision.symm
    rw [Db.saveNodeProfile, hnode, hrow]
    exact if_pos hne
  | some row =>
    have hne : row.revision ≠ expected := by
      rw [Db.storedRevision, hrow] at hrevision
      exact hrevision
    rw [Db.saveNodeProfile, hnode, hrow]
    exact if_pos (.inr hne)

/-- What a finished `SaveNodeProfile` did: it was refused before its transaction, or it returned
what its one transaction replied. -/
def SaveReturned (nodeId : Bytes) (profile : AgentProfile) (expected : Int)
    (own : List (HubState × Op)) (v : HubValue) : Prop :=
  (own = [] ∧ ∃ error, v = .error error) ∨
    ∃ s normalized stamp, normalizeAgentProfile profile = .ok normalized ∧
      own = [(s, .saveProfile nodeId normalized expected stamp)] ∧
      v = (s.db.saveNodeProfile nodeId normalized expected stamp).map
        fun committed => .record ⟨normalized, committed.2, true⟩

/-- `SaveReturned`, for the calls that are saves. -/
def Call.SaveReturned : Call → List (HubState × Op) → HubValue → Prop
  | .saveNodeProfile nodeId profile expected _, own,
    v => Hub.SaveReturned nodeId profile expected own v
  | _, _, _ => True

theorem ensures_saveNodeProfile (nodeId : Bytes) (profile : AgentProfile) (expected : Int)
    (now : Time) (s : HubState) :
    (Discipline.free hubSemantics).Ensures (SaveReturned nodeId profile expected) []
      (.record <$> Repository.saveNodeProfile nodeId profile expected now).run s := by
  rw [Repository.saveNodeProfile]
  split_ifs
  · exact .inl ⟨rfl, _, rfl⟩
  · cases hnormal : normalizeAgentProfile profile with
    | error e => exact .inl ⟨rfl, e, rfl⟩
    | ok normalized =>
      change (Discipline.free hubSemantics).Ensures _ []
        (Outcome.record <$> (execute (.saveProfile nodeId normalized expected now) id >>=
          fun revision => pure ⟨normalized, revision, true⟩)).run s
      intro t _ _
      have hreply : (hubSemantics.exec t (.saveProfile nodeId normalized expected now)).2 =
          (t.db.saveNodeProfile nodeId normalized expected now).map Prod.snd := by
        change (t.commit (t.db.saveNodeProfile nodeId normalized expected now)).2 = _
        cases t.db.saveNodeProfile nodeId normalized expected now <;> rfl
      rw [hreply]
      cases hsave : t.db.saveNodeProfile nodeId normalized expected now with
      | error | ok => exact .inr ⟨t, normalized, now, hnormal, rfl, by rw [hsave]; rfl⟩

theorem ensures_free (own : List (HubState × Op)) (p : Prog Op Reply HubValue) (s : HubState) :
    (Discipline.free hubSemantics).Ensures (fun _ _ => True) own p s := by
  induction p generalizing own s with
  | done v => trivial
  | call op rest ih => exact fun t _ _ => ih _ _ _

section
variable {env : Env} {trace : List HubEvent} {cfg : Config HubState Op Reply Call HubValue}
  {i : Nat} {nodeId : Bytes} {profile : AgentProfile} {expected : Int} {v : HubValue}

theorem saveReturned_run (run : HubRun env trace cfg) {clock : Clock}
    (hcall : cfg.calls[i]? = some (.saveNodeProfile nodeId profile expected clock, .done v)) :
    SaveReturned nodeId profile expected (ownSteps i trace) v := by
  refine run.settled (Discipline.free hubSemantics)
    (Q := Call.SaveReturned) trivial ?_ ?_ i _ _ hcall
  · exact fun c hc => (hub_issues env c hc).mono fun _ _ => trivial
  · intro c _ s _
    cases c with
    | saveNodeProfile nodeId profile expected clock =>
      exact ensures_saveNodeProfile nodeId profile expected _ s
    | _ => exact ensures_free [] _ s

section
variable (h : SaveReturned nodeId profile expected (ownSteps i trace) v)
include h

/-- A finished save that ran its transaction returned what the transaction replied. -/
theorem SaveReturned.value {e : HubEvent} (he : e ∈ trace) (hid : e.id = i) :
    ∃ normalized stamp, normalizeAgentProfile profile = .ok normalized ∧
      e.op = .saveProfile nodeId normalized expected stamp ∧
      v = (e.before.db.saveNodeProfile nodeId normalized expected stamp).map
        fun committed => .record ⟨normalized, committed.2, true⟩ := by
  have hmem : (e.before, e.op) ∈ ownSteps i trace := mem_ownSteps.mpr ⟨e, he, hid, rfl, rfl⟩
  rcases h with ⟨hnil, -⟩ | ⟨s, normalized, stamp, hnormal, hown, hv⟩
  · rw [hnil] at hmem
    cases hmem
  · rw [hown] at hmem
    obtain ⟨hbefore, hop⟩ := Prod.mk.inj (mem_singleton.mp hmem)
    rw [hbefore]
    exact ⟨normalized, stamp, hnormal, hop, hv⟩

/-- A finished save succeeded exactly when it is among the accepted ones. -/
theorem SaveReturned.ok_iff (outcome : Outcome) :
    v = .ok outcome ↔ ∃ save ∈ saves nodeId trace, save.call = i ∧ save.expected = expected ∧
      normalizeAgentProfile profile = .ok save.normalized ∧
      outcome = .record ⟨save.normalized, save.revision, true⟩ := by
  constructor
  · intro hv
    rcases h with ⟨-, error, herror⟩ | ⟨s, normalized, stamp, hnormal, hown, hvalue⟩
    · cases hv.symm.trans herror
    · obtain ⟨committed, hsave, houtcome⟩ := map_eq_ok.mp (hvalue.symm.trans hv)
      have hmem : (s, Op.saveProfile nodeId normalized expected stamp) ∈ ownSteps i trace := by
        rw [hown]
        exact mem_singleton_self _
      obtain ⟨e, he, hid, hbefore, hop⟩ := mem_ownSteps.mp hmem
      refine ⟨⟨i, normalized, expected, committed.2⟩, ?_, rfl, rfl, hnormal, houtcome.symm⟩
      refine mem_filterMap.mpr ⟨e, he, ?_⟩
      rw [saveOf, hop]
      dsimp only
      rw [if_pos rfl, hbefore, hsave, hid]
  · rintro ⟨save, hsave, hcall, hexpected, hnormal, rfl⟩
    obtain ⟨e, he, hof⟩ := mem_filterMap.mp hsave
    obtain ⟨stamp, db', hop, hid, hok, -⟩ := saveOf_eq_some hof
    obtain ⟨normalized, stamp', hnormal', hop', hv⟩ := h.value he (hid.symm.trans hcall)
    rw [hop] at hop'
    injection hop' with _ hnormalized _ hstamp
    rw [hv, ← hnormalized, ← hstamp, ← hexpected, hok]
    rfl

end

/-- No update of a desired profile is lost: the accepted saves form a chain, each leaves its own
profile stored, a writer with another revision than the stored one is refused and changes nothing,
a call succeeds exactly when it is in the chain, and no revision is used twice. -/
theorem profile_saves_chain (run : HubRun env trace cfg) (nodeId : Bytes) :
    (∀ (k : Nat) (save : Save), (saves nodeId trace)[k]? = some save →
      save.expected = k ∧ save.revision = k + 1) ∧
    (∀ e ∈ trace, ∀ save, saveOf nodeId e = some save →
      ∃ stamp, (e.after hubSemantics).db.profiles nodeId =
        some ⟨save.normalized.marshal, save.revision, stamp⟩) ∧
    (∀ e ∈ trace, saveOf nodeId e = none →
      (e.after hubSemantics).db.profiles nodeId = e.before.db.profiles nodeId) ∧
    (∀ i profile expected clock v,
      cfg.calls[i]? = some (.saveNodeProfile nodeId profile expected clock, .done v) →
      (∀ e ∈ trace, e.id = i → e.before.db.nodes nodeId ≠ none →
        e.before.db.storedRevision nodeId ≠ expected →
        v = .error (.sentinel .profileRevisionStale) ∧ e.after hubSemantics = e.before) ∧
      (∀ outcome, v = .ok outcome ↔
        ∃ save ∈ saves nodeId trace, save.call = i ∧ save.expected = expected ∧
          normalizeAgentProfile profile = .ok save.normalized ∧
          outcome = .record ⟨save.normalized, save.revision, true⟩)) ∧
    (∀ (i j : Nat) profile profile' expected clock clock' outcome outcome',
      cfg.calls[i]? = some (.saveNodeProfile nodeId profile expected clock, .done (.ok outcome)) →
      cfg.calls[j]? = some (.saveNodeProfile nodeId profile' expected clock',
        .done (.ok outcome')) →
      i = j) := by
  have hinv := savesInv_run run nodeId
  refine ⟨hinv.chain, ?_, fun e _ => profiles_of_saveOf_none, ?_, ?_⟩
  · intro e _ save hsave
    obtain ⟨stamp, db', -, -, hok, hdb⟩ := saveOf_eq_some hsave
    refine ⟨stamp, ?_⟩
    rw [hdb, (Db.saveNodeProfile_ok hok).2.2]
    exact Function.update_self _ _ _
  · intro i profile expected clock v hcall
    have hreturned := saveReturned_run run hcall
    refine ⟨?_, hreturned.ok_iff⟩
    intro e he hid hnode hrevision
    obtain ⟨normalized, stamp, -, hop, hv⟩ := hreturned.value he hid
    have hstale := saveNodeProfile_stale hnode hrevision normalized stamp
    constructor
    · rw [hv, hstale]
      rfl
    · change (e.before.exec e.op).1 = e.before
      rw [hop]
      change (e.before.commit (e.before.db.saveNodeProfile nodeId normalized expected stamp)).1 = _
      rw [hstale]
      rfl
  · intro i j profile profile' expected clock clock' outcome outcome' hi hj
    obtain ⟨save, hsave, rfl, hexpected, -⟩ := ((saveReturned_run run hi).ok_iff outcome).mp rfl
    obtain ⟨save', hsave', rfl, hexpected', -⟩ := ((saveReturned_run run hj).ok_iff outcome').mp rfl
    rw [hinv.expected_inj hsave hsave' (hexpected.trans hexpected'.symm)]

end

/-- Two writers with the same revision, and a third with the next one. -/
def threeSaves : List Call :=
  [.registerNode ⟨ascii "n1", ascii "node"⟩ (ascii "t") fun _ => 1,
    .saveNodeProfile (ascii "n1") emptyAgentProfile 0 fun _ => 2,
    .saveNodeProfile (ascii "n1") emptyAgentProfile 0 fun _ => 3,
    .saveNodeProfile (ascii "n1") emptyAgentProfile 1 fun _ => 4]

def threeSavesRun : List HubEvent × Config HubState Op Reply Call HubValue :=
  Run.serialRun (hub Env.plain) HubState.initial threeSaves

theorem threeSavesRun_run : HubRun Env.plain threeSavesRun.1 threeSavesRun.2 := by
  refine Run.serialRun_run threeSaves ?_ (by decide +kernel)
  simp [threeSaves, Call.Validated]

theorem profile_saves_chain_three :
    (saves (ascii "n1") threeSavesRun.1).map
    (fun save => (save.call, save.expected, save.revision)) =
        [(1, 0, 1), (3, 1, 2)] ∧
      ∀ (k : Nat) (save : Save), (saves (ascii "n1") threeSavesRun.1)[k]? = some save →
        save.expected = k ∧ save.revision = k + 1 :=
  ⟨by decide +kernel, (profile_saves_chain threeSavesRun_run (ascii "n1")).1⟩

end HeyServer.Hub
