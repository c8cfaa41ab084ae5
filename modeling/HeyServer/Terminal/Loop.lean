import HeyServer.Terminal.Shutdown

/-!
# The loop of a connection

One loop reads from a connection and relays each message to the session it names. Where the loop is
can be read off the steps it has made, and these belong to one call: the one that attached the
connection.
-/

namespace HeyServer.Terminal
open Lib List

/-! ## Where the loop of a connection is -/

inductive Position
  | idle
  /-- A message has been read and its session has to be looked up. -/
  | looking (m : Message)
  | delivering (x : Session) (m : Message)
  | ended
deriving DecidableEq

/-- The connection whose loop makes the step. -/
def RelayOp.loopOf : RelayOp → Option Nat
  | .readJSON c _ => some c
  | .session c _ => some c
  | .relay c _ _ _ => some c
  | _ => none

def Position.found : Position → Option Session → Position
  | .looking m, some x => .delivering x m
  | _, _ => .idle

/-- The position after a step of the loop. -/
def Position.advance (pos : Position) (t : Relay) : RelayOp → Position
  | .readJSON _ m => if m.type = .typePing ∨ m.sessionID = [] then .idle else .looking m
  | .session c id => pos.found (t.find c id)
  | .relay _ _ _ outcome => if outcome = .cancelled then .ended else .idle
  | _ => pos

def Position.next (c : Nat) (pos : Position) (step : Relay × RelayOp) : Position :=
  if step.2.loopOf = some c then pos.advance step.1 step.2 else pos

def position (c : Nat) (steps : List (Relay × RelayOp)) : Position :=
  steps.foldl (Position.next c) .idle

theorem position_append (c : Nat) (steps : List (Relay × RelayOp)) (t : Relay) (op : RelayOp) :
    position c (steps ++ [(t, op)]) = (position c steps).next c (t, op) := by
  rw [position, foldl_append]
  rfl

variable {c : Nat} {op : RelayOp} {own : List (Relay × RelayOp)} {steps : List (Relay × RelayOp)}

theorem position_quiet {t : Relay}
    (h : op.loopOf ≠ some c) : position c (steps ++ [(t, op)]) = position c steps := by
  rw [position_append, Position.next, if_neg h]

theorem position_loop {t : Relay} (h : op.loopOf = some c) :
    position c (steps ++ [(t, op)]) = (position c steps).advance t op := by
  rw [position_append, Position.next, if_pos h]

/-- The call has attached the connection. -/
def AttachedBy (own : List (Relay × RelayOp)) (c : Nat) : Prop :=
  ∃ t nodeID, (t, .attach nodeID) ∈ own ∧ t.next = c

/-- Where the loop has to be for its next step. -/
def Position.Allows (pos : Position) : RelayOp → Prop
  | .readJSON _ _ => pos = .idle
  | .session _ id => ∃ m, pos = .looking m ∧ m.sessionID = id
  | .relay _ x m _ => pos = .delivering x m
  | _ => True

/-- A loop runs on the connection its call has attached and in its order; sessions have an id. -/
def LoopStep (own : List (Relay × RelayOp)) (op : RelayOp) : Prop :=
  (∀ c, op.loopOf = some c → AttachedBy own c ∧ (position c own).Allows op) ∧
    ∀ c id, op = .register c id → id ≠ []

/-- The operations about which `LoopStep` says nothing. -/
def Plain : RelayOp → Prop
  | .readJSON .. => False
  | .session .. => False
  | .relay .. => False
  | .register .. => False
  | _ => True

theorem Plain.loopOf (h : Plain op) : op.loopOf = none := by
  cases op with
  | readJSON | session | relay | register => exact h.elim
  | _ => rfl

theorem Plain.loopStep {o : RelayOp} (h : Plain o) (own : List (Relay × RelayOp)) :
    LoopStep own o := by
  constructor
  · intro c hc
    rw [h.loopOf] at hc
    cases hc
  · rintro c id rfl
    exact h.elim

theorem issues_removeSession (c : Nat) (id : Bytes) (notify : Bool) :
    (removeSession c id notify).Issues Plain := by
  refine ⟨trivial, fun removed => ?_⟩
  apply Prog.Issues.ite
  · exact ⟨trivial, fun _ => trivial⟩
  · trivial

theorem issues_endSessions (reason : Bytes) (xs : List Session) :
    (endSessions reason xs).Issues Plain := by
  induction xs with
  | nil => trivial
  | cons x xs ih => exact ⟨trivial, fun _ => ⟨trivial, fun _ => ih⟩⟩

theorem issues_shutdown (c : Nat) (reason : Bytes) (order : MapOrder) :
    (shutdown c reason order).Issues Plain := by
  refine ⟨trivial, fun (first : Bool) => ?_⟩
  apply Prog.Issues.ite
  · refine ⟨trivial, fun _ => ⟨trivial, fun _ => ⟨trivial, fun sessions => ?_⟩⟩⟩
    exact (issues_endSessions reason _).bind fun _ => ⟨trivial, fun _ => trivial⟩
  · trivial

/-- The loop can read its next message. -/
def AtRead (c : Nat) (own : List (Relay × RelayOp)) : Prop :=
    AttachedBy own c ∧ position c own = .idle

theorem AttachedBy.append (h : AttachedBy own c)
    (step : Relay × RelayOp) : AttachedBy (own ++ [step]) c := by
  obtain ⟨t, nodeID, hmem, hnext⟩ := h
  exact ⟨t, nodeID, mem_append_left _ hmem, hnext⟩

theorem AtRead.plain (h : AtRead c own) (t : Relay) (hop : Plain op) :
    AtRead c (own ++ [(t, op)]) := by
  refine ⟨h.1.append _, ?_⟩
  rw [position_quiet, h.2]
  rw [hop.loopOf]
  exact (Option.some_ne_none c).symm

/-- A step of the loop in its order. -/
theorem loopStep_of_allows
    (hop : op.loopOf = some c) (hattached : AttachedBy own c) (hpos : (position c own).Allows op) :
    LoopStep own op := by
  constructor
  · intro c' hc'
    cases hop.symm.trans hc'
    exact ⟨hattached, hpos⟩
  · rintro c' id rfl
    cases hop

theorem follows_dispatch {r : Reading} {again : RelayProg Unit}
    (hagain : ∀ own', AtRead c own' → again.Follows relaySemantics LoopStep own')
    (hattached : AttachedBy own c) (found : Option Session)
    (hpos : position c own = (Position.looking r.message).found found) :
    (dispatch c r again found).Follows relaySemantics LoopStep own := by
  cases found with
  | none => exact hagain own ⟨hattached, hpos⟩
  | some x =>
    refine ⟨loopStep_of_allows rfl hattached hpos, fun t => ?_⟩
    have hnext : position c (own ++ [(t, .relay c x r.message r.outcome)]) =
        if r.outcome = .cancelled then .ended else .idle := position_loop rfl
    split_ifs at hnext ⊢ with hcancelled hclose
    · trivial
    · have hread : AtRead c (own ++ [(t, .relay c x r.message r.outcome)]) :=
        ⟨hattached.append _, hnext⟩
      refine Prog.Follows.bind_keeping (issues_removeSession c _ false)
        (fun own op hop => hop.loopStep own) (fun own u op hop hown => hown.plain u hop) ?_ hread
      intro _ own' hown'
      exact ⟨Plain.loopStep (o := .finish x) trivial own',
        fun u => hagain _ (hown'.plain u trivial)⟩
    · exact hagain _ ⟨hattached.append _, hnext⟩

theorem follows_runLoop (c : Nat) (readings : List Reading)
    (hown : AtRead c own) : (runLoop c readings).Follows relaySemantics LoopStep own := by
  induction readings generalizing own with
  | nil => trivial
  | cons r rest ih =>
    refine ⟨loopStep_of_allows rfl hown.1 hown.2, fun t => ?_⟩
    have hpos : position c (own ++ [(t, .readJSON c r.message)]) =
        if r.message.type = .typePing ∨ r.message.sessionID = [] then .idle else .looking r.message :=
      position_loop rfl
    have hattached := hown.1.append (t, .readJSON c r.message)
    split_ifs with hping hempty
    · rw [if_pos (.inl hping)] at hpos
      have hread : AtRead c (own ++ [(t, .readJSON c r.message)]) := ⟨hattached, hpos⟩
      exact ⟨Plain.loopStep (o := .write c _ false) trivial _, fun u => ih (hread.plain u trivial)⟩
    · rw [if_pos (.inr hempty)] at hpos
      exact ih ⟨hattached, hpos⟩
    · rw [if_neg (by simp [hping, hempty])] at hpos
      refine ⟨loopStep_of_allows rfl hattached ⟨r.message, hpos, rfl⟩, fun u => ?_⟩
      apply follows_dispatch (fun own' => ih) (hattached.append _)
      rw [position_loop rfl, hpos]
      rfl

theorem follows_openOn (id : Bytes) (cols rows : UInt16) (fails : Bool) (agent : Option Nat)
    (own : List (Relay × RelayOp)) :
    (openOn id cols rows fails agent).Follows relaySemantics LoopStep own := by
  cases agent with
  | none => trivial
  | some c =>
    rw [openOn]
    split_ifs with hempty
    · trivial
    · refine ⟨⟨fun c' hc' => (by cases hc'), ?_⟩, fun t => ?_⟩
      · rintro c' id' hop
        obtain ⟨-, rfl⟩ := RelayOp.register.inj hop
        exact hempty
      · have hrest : ∀ x, (announce c id cols rows fails x).Issues Plain := by
          intro x
          cases x with
          | none => trivial
          | some x =>
            refine ⟨trivial, fun (ok : Bool) => ?_⟩
            apply Prog.Issues.ite
            · trivial
            · exact (issues_removeSession c id false).bind fun _ => ⟨trivial, fun _ => trivial⟩
        exact (hrest _).follows (fun own op hop => hop.loopStep own) _

theorem follows_program (call : RelayCall) : call.program.Follows relaySemantics LoopStep [] := by
  have hplain : ∀ own op, Plain op → LoopStep own op := fun own op hop => hop.loopStep own
  have hissued : ∀ {call : RelayCall}, call.program.Issues Plain →
      call.program.Follows relaySemantics LoopStep [] := fun h => h.follows hplain []
  cases call with
  | serve nodeID readings replaced disconnected =>
    refine ⟨hplain _ (.attach nodeID) trivial, fun t => ?_⟩
    have hread : AtRead t.next [(t, .attach nodeID)] :=
      ⟨⟨t, nodeID, mem_singleton_self _, rfl⟩, rfl⟩
    have hreplace : ∀ previous, (replacePrevious replaced previous).Issues Plain := by
      intro previous
      cases previous with
      | none => trivial
      | some previous => exact issues_shutdown previous _ replaced
    refine Prog.Follows.bind_keeping (hreplace _) hplain
      (fun own u op hop hown => hown.plain u hop) ?_ hread
    intro _ own hown
    apply Prog.Follows.bind (follows_runLoop t.next readings hown)
    intro _ own'
    have hissues : (shutdown t.next (ascii "agent disconnected") disconnected >>= fun _ =>
        (.done .ended : RelayProg RelayResult)).Issues Plain :=
      (issues_shutdown t.next _ disconnected).bind fun _ => trivial
    exact hissues.follows hplain own'
  | openSession nodeID id cols rows fails =>
    exact ⟨hplain _ (.agent nodeID) trivial, fun t => follows_openOn id cols rows fails _ _⟩
  | close x =>
    refine hissued ⟨trivial, fun _ => ?_⟩
    exact (issues_removeSession x.agent x.id true).bind fun _ => ⟨trivial, fun _ => trivial⟩
  | send x m fails =>
    refine hissued ⟨trivial, fun _ => ⟨trivial, fun (done : Bool) => ?_⟩⟩
    apply Prog.Issues.ite
    · trivial
    · exact ⟨trivial, fun _ => trivial⟩
  | shutdown c reason order => exact hissued ((issues_shutdown c reason order).bind fun _ => trivial)
  | cancel c => exact hissued ⟨trivial, fun _ => ⟨trivial, fun _ => trivial⟩⟩
  | receive x => exact hissued ⟨trivial, fun _ => trivial⟩

/-! ## One loop for each connection -/

def stepsOf (trace : List RelayEvent) : List (Relay × RelayOp) :=
    trace.map fun e => (e.before, e.op)

theorem position_own {i : Nat} {trace : List RelayEvent}
    (h : ∀ e ∈ trace, e.op.loopOf = some c → e.id = i) :
    position c (stepsOf trace) = position c (ownSteps i trace) := by
  rw [position, position]
  generalize Position.idle = pos
  induction trace generalizing pos with
  | nil => rfl
  | cons e trace ih =>
    have htail := ih fun e' he' => h e' (mem_cons_of_mem e he')
    have hcons : stepsOf (e :: trace) = (e.before, e.op) :: stepsOf trace := rfl
    rw [hcons, foldl_cons, htail]
    by_cases hid : e.id = i
    · have hown : ownSteps i (e :: trace) = (e.before, e.op) :: ownSteps i trace := by
        simp [ownSteps, hid]
      rw [hown, foldl_cons]
    · have hown : ownSteps i (e :: trace) = ownSteps i trace := by simp [ownSteps, hid]
      have hquiet : e.op.loopOf ≠ some c := fun hloop => hid (h e mem_cons_self hloop)
      rw [hown, Position.next, if_neg hquiet]

section Runs

variable {trace : List RelayEvent}
  {cfg : Config Relay RelayOp RelayOp.Reply RelayCall RelayResult}

section
variable (run : Run relaySystem (fun _ => True) newHub trace cfg)
include run

/-- A connection is attached once. -/
theorem attach_once {f f' : RelayEvent}
    (hf : f ∈ trace) (hf' : f' ∈ trace) {n n' : Bytes} (hop : f.op = .attach n)
    (hop' : f'.op = .attach n')
    (hsame : f.before.next = f'.before.next) : f = f' := by
  have hlater : ∀ {earlier later : List RelayEvent} {e : RelayEvent},
    trace = earlier ++ e :: later →
      ∀ e' ∈ earlier, ∀ n, e'.op = .attach n → e'.before.next < e.before.next := by
    intro earlier later e hsplit
    refine run.evolves_before
      (J := fun trace s => ∀ e ∈ trace, ∀ n, e.op = .attach n → e.before.next < s.next)
      (by simp) ?_ hsplit
    intro trace e _ ih e' he' n hattach
    rcases mem_append.mp he' with he' | he'
    · exact (ih e' he' n hattach).trans_le (next_le e.before e.op)
    · rw [mem_singleton.mp he'] at hattach ⊢
      rw [Event.after, hattach]
      exact Nat.lt_succ_self _
  by_contra hne
  rcases split_of_mem hf hf' hne with ⟨earlier, later, hsplit, hmem⟩ | ⟨earlier, later, hsplit,
    hmem⟩
  · exact absurd (hlater hsplit f hmem n hop) hsame.not_lt
  · exact absurd (hlater hsplit f' hmem n' hop') hsame.symm.not_lt

theorem exists_attach {e : RelayEvent} (he : e ∈ trace) {c : Nat} (hloop : e.op.loopOf = some c) :
    ∃ f ∈ trace, f.id = e.id ∧ f.before.next = c ∧ ∃ n, f.op = .attach n := by
  obtain ⟨earlier, later, hsplit⟩ := append_of_mem he
  have hstep := (run.follows (P := fun _ => LoopStep) (fun call _ => follows_program call) hsplit).1
  obtain ⟨t, n, hown, hnext⟩ := (hstep.1 c hloop).1
  obtain ⟨f, hf, hid, hbefore, hop⟩ := mem_ownSteps.mp hown
  refine ⟨f, ?_, hid, by rw [hbefore, hnext], n, hop⟩
  rw [hsplit]
  exact mem_append_left _ hf

end

/-- What is known of each event of a run. -/
structure Sound (earlier : List RelayEvent) (e : RelayEvent) : Prop where
  allows : ∀ c, e.op.loopOf = some c → (position c (stepsOf earlier)).Allows e.op
  named : ∀ c id, e.op = .register c id → id ≠ []
  ready : RelayOp.ready e.before e.op = true
  wellFormed : WellFormed e.before
  distinct : DistinctIds e.before
  guarded : Guarded e.before

theorem sound_events (run : Run relaySystem (fun _ => True) newHub trace cfg)
    (hdistinct : DistinctIds cfg.state) : AtEach Sound trace := by
  intro earlier e later hsplit
  have hmem : e ∈ trace := by
    rw [hsplit]
    exact mem_append_right _ mem_cons_self
  obtain ⟨hstep, hready⟩ := run.follows (P := fun _ => LoopStep)
    (fun call _ => follows_program call) hsplit
  obtain ⟨hwf, hids⟩ := (inv_states run hdistinct).2 e hmem
  refine ⟨?_, hstep.2, hready, hwf, hids, (guarded_run run hdistinct).2 e hmem⟩
  intro c hloop
  have hown : position c (stepsOf earlier) = position c (ownSteps e.id earlier) := by
    apply position_own
    intro e' he' hloop'
    obtain ⟨f, hf, hid, hnext, n, hop⟩ := exists_attach run hmem hloop
    obtain ⟨f', hf', hid', hnext', n', hop'⟩ :=
      exists_attach run (hsplit ▸ mem_append_left _ he') hloop'
    obtain rfl := attach_once run hf hf' hop hop' (hnext.trans hnext'.symm)
    exact hid'.symm.trans hid
  rw [hown]
  exact (hstep.1 c hloop).2

end Runs

end HeyServer.Terminal
