import HeyServer.Terminal.Loop

/-!
# The messages of a session

While a session is in the map of its connection, what it has been sent and the message in flight are
together what has been read for it since it was registered; afterwards it is sent at most the
message in flight.
-/

namespace HeyServer.Terminal
open Lib List RelayOp Relay

/-- The step reads a message for the session id; a ping is answered, whatever it carries. -/
def RelayOp.carries (c : Nat) (id : Bytes) : RelayOp → Bool
  | .readJSON c' m => c' = c ∧ m.sessionID = id ∧ m.type ≠ .typePing
  | _ => false

def RelayOp.message? : RelayOp → Option Message
  | .readJSON _ m => some m
  | _ => none

variable (x : Session)

/-- The steps that read a message for the session from its connection. -/
def readsFor (trace : List RelayEvent) : List RelayEvent :=
  trace.filter fun e => e.op.carries x.agent x.id

def messages (reads : List RelayEvent) : List Message := reads.filterMap fun e => e.op.message?

/-- The agent messages that the channel of the session has been sent. -/
def relayed (s : Relay) (x : Session) : List Message := (s.events x).filterMap Delivery.relayed?

/-- The message on its way to the session. -/
def Position.inFlight : Position → List Message
  | .looking m => if m.sessionID = x.id then [m] else []
  | .delivering y m => if y = x then [m] else []
  | _ => []

@[simp] theorem Position.inFlight_idle : Position.idle.inFlight x = [] := rfl

/-- Every message read from now on will be sent. -/
def Live (pos : Position) (s : Relay) (x : Session) : Prop :=
  x ∈ s.sessions x.agent ∧ pos ≠ .ended ∨ ∃ m, pos = .delivering x m

/-- The messages read for the session: those before it existed, and the others. -/
structure Parted (trace : List RelayEvent) (s : Relay) (x : Session)
    (early rest : List RelayEvent) :
    Prop where
  reads : readsFor x trace = early ++ rest
  unborn : ∀ e ∈ early, x ∉ e.before.created
  sent : relayed s x <+: messages rest
  current : Live (position x.agent (stepsOf trace)) s x →
    messages rest = relayed s x ++ (position x.agent (stepsOf trace)).inFlight x

/-- What the channels hold agrees with what has been read. -/
structure Relayed (trace : List RelayEvent) (s : Relay) : Prop where
  grown : ∀ e ∈ trace, e.before.created ⊆ s.created
  ids : ∀ x ∈ s.created, x.id ≠ []
  silent : ∀ x, x ∉ s.created → relayed s x = []
  looking : ∀ c m, position c (stepsOf trace) = .looking m → m.sessionID ≠ [] ∧ m.type ≠ .typePing ∧
    ∃ before e, trace.filter (fun e => e.op.carries c m.sessionID) = before ++ [e] ∧
      e.op = .readJSON c m
  delivering : ∀ c x m, position c (stepsOf trace) = .delivering x m →
    x ∈ s.created ∧ x.agent = c ∧ x.id = m.sessionID
  parted : ∀ x ∈ s.created, ∃ early rest, Parted trace s x early rest

section Steps

variable {trace : List RelayEvent} {e : RelayEvent} {c : Nat} {x : Session} {s : Relay}

theorem position_concat_quiet (h : e.op.loopOf ≠ some c) :
    position c (stepsOf (trace ++ [e])) = position c (stepsOf trace) := by
  rw [stepsOf, map_append]
  exact position_quiet h

theorem position_concat_loop (h : e.op.loopOf = some c) :
    position c (stepsOf (trace ++ [e])) = (position c (stepsOf trace)).advance e.before e.op := by
  rw [stepsOf, map_append]
  exact position_loop h

theorem filter_concat_quiet {id : Bytes} (h : e.op.carries c id = false) :
    (trace ++ [e]).filter (fun e => e.op.carries c id) = trace.filter fun e =>
      e.op.carries c id := by
  rw [filter_append, filter_singleton, h]
  exact append_nil _

theorem readsFor_concat_quiet (h : e.op.carries x.agent x.id = false) :
    readsFor x (trace ++ [e]) = readsFor x trace := filter_concat_quiet h

theorem carries_of_loopOf_ne {op : RelayOp} (h : op.loopOf ≠ some c) (id : Bytes) :
    op.carries c id = false := by
  cases op with
  | readJSON c' m =>
    have hne : c' ≠ c := fun heq => h (by rw [heq]; rfl)
    simp [carries, hne]
  | _ => rfl

theorem grown_concat {t : Relay} (h : ∀ e ∈ trace, e.before.created ⊆ s.created)
    (hbefore : e.before = s) (hst : s.created ⊆ t.created) :
    ∀ e' ∈ trace ++ [e], e'.before.created ⊆ t.created :=
  forall_mem_snoc (fun e' he' => List.Subset.trans (h e' he') hst) (hbefore ▸ hst)

/-- A step that is not one of the loop of the session, with the session at most leaving its map. -/
theorem Parted.quiet {t : Relay} {early rest : List RelayEvent}
    (h : Parted trace s x early rest) (hloop : e.op.loopOf ≠ some x.agent)
    (hrelayed : relayed t x = relayed s x)
    (hlisted : x ∈ t.sessions x.agent → x ∈ s.sessions x.agent) :
    Parted (trace ++ [e]) t x early rest where
  reads := by rw [readsFor_concat_quiet (carries_of_loopOf_ne hloop _), h.reads]
  unborn := h.unborn
  sent := by rw [hrelayed]; exact h.sent
  current hlive := by
    rw [position_concat_quiet hloop] at hlive ⊢
    rw [hrelayed]
    exact h.current (hlive.imp_left fun hleft => ⟨hlisted hleft.1, hleft.2⟩)

section
variable (h : Relayed trace e.before)
include h

/-- A step of the loop of one connection, which changes no map: the other loops stay where they are.
-/
theorem Relayed.loop {t : Relay} (hloop : e.op.loopOf = some c)
    (hcreated : t.created = e.before.created)
    (hsessions : ∀ c', t.sessions c' = e.before.sessions c')
    (hrelayed : ∀ x, relayed t x = relayed e.before x ∨ x ∈ e.before.created ∧ x.agent = c)
    (hlooking : ∀ m, position c (stepsOf (trace ++ [e])) = .looking m →
      m.sessionID ≠ [] ∧ m.type ≠ .typePing ∧
      ∃ before e', (trace ++ [e]).filter (fun e => e.op.carries c m.sessionID) = before ++ [e'] ∧
        e'.op = .readJSON c m)
    (hdelivering : ∀ x m, position c (stepsOf (trace ++ [e])) = .delivering x m →
      x ∈ e.before.created ∧ x.agent = c ∧ x.id = m.sessionID)
    (hparted : ∀ x ∈ e.before.created, x.agent = c →
      ∀ early rest, Parted trace e.before x early rest →
      ∃ early rest, Parted (trace ++ [e]) t x early rest) : Relayed (trace ++ [e]) t := by
  have hother : ∀ {c'}, c' ≠ c → e.op.loopOf ≠ some c' := by
    intro c' hne heq
    exact hne (Option.some.inj (heq.symm.trans hloop))
  refine ⟨grown_concat h.grown rfl (by rw [hcreated]; exact List.Subset.refl _), ?_, ?_, ?_, ?_, ?_⟩
  · rw [hcreated]
    exact h.ids
  · intro x hx
    rw [hcreated] at hx
    rw [(hrelayed x).resolve_right fun hmem => hx hmem.1, h.silent x hx]
  · intro c' m hpos
    by_cases hc : c' = c
    · subst hc
      exact hlooking m hpos
    · rw [position_concat_quiet (hother hc)] at hpos
      rw [filter_concat_quiet (carries_of_loopOf_ne (hother hc) _)]
      exact h.looking c' m hpos
  · intro c' x m hpos
    rw [hcreated]
    by_cases hc : c' = c
    · subst hc
      exact hdelivering x m hpos
    · rw [position_concat_quiet (hother hc)] at hpos
      exact h.delivering c' x m hpos
  · intro x hx
    rw [hcreated] at hx
    obtain ⟨early, rest, hbefore⟩ := h.parted x hx
    by_cases hc : x.agent = c
    · exact hparted x hx hc early rest hbefore
    · refine ⟨early, rest, hbefore.quiet (hother hc)
        ((hrelayed x).resolve_right fun hmem => hc hmem.2) ?_⟩
      rw [hsessions]
      exact id

theorem Relayed.read {m : Message} (hop : e.op = .readJSON c m)
    (hsound : Sound trace e) : Relayed (trace ++ [e]) e.before := by
  have hidle : position c (stepsOf trace) = .idle := by
    have := hsound.allows c (by rw [hop]; rfl)
    rwa [hop] at this
  have hloop : e.op.loopOf = some c := by rw [hop]; rfl
  have hpos : position c (stepsOf (trace ++ [e])) =
      if m.type = .typePing ∨ m.sessionID = [] then .idle else .looking m := by
    rw [position_concat_loop hloop, hop]
    rfl
  refine h.loop hloop rfl (fun _ => rfl) (fun _ => .inl rfl) ?_ ?_ ?_
  · intro m' hlooking
    rw [hpos] at hlooking
    split_ifs at hlooking with hskip
    obtain rfl := Position.looking.inj hlooking
    obtain ⟨htype, hid⟩ := not_or.mp hskip
    refine ⟨hid, htype, trace.filter fun e => e.op.carries c m.sessionID, e, ?_, hop⟩
    rw [filter_append, filter_singleton, hop]
    simp [carries, htype]
  · intro x m' hdelivering
    rw [hpos] at hdelivering
    split_ifs at hdelivering
  · rintro x hx rfl early rest hparted
    -- nothing was in flight, so a live session has been sent all that was read
    have hcurrent : ∀ {pos : Position}, Live pos e.before x → (∀ m, pos ≠ .delivering x m) →
        messages rest = relayed e.before x := by
      intro pos hlive hpos
      rcases hlive with ⟨hlisted, -⟩ | ⟨m, hm⟩
      · have := hparted.current (.inl ⟨hlisted, by rw [hidle]; exact Position.noConfusion⟩)
        rwa [hidle, Position.inFlight_idle, append_nil] at this
      · exact absurd hm (hpos m)
    by_cases hcarries : m.sessionID = x.id ∧ m.type ≠ .typePing
    · obtain ⟨hid, htype⟩ := hcarries
      have hnext : position x.agent (stepsOf (trace ++ [e])) = .looking m := by
        rw [hpos, if_neg]
        rw [hid]
        simp [htype, h.ids x hx]
      refine ⟨early, rest ++ [e], ?_, hparted.unborn, ?_, ?_⟩
      · have hcarried : e.op.carries x.agent x.id = true := by
          rw [hop]
          simp [carries, hid, htype]
        rw [readsFor, filter_append, ← readsFor, hparted.reads, filter_singleton, hcarried,
          append_assoc]
        rfl
      · rw [messages, filterMap_append]
        exact hparted.sent.trans (prefix_append _ _)
      · intro hlive
        rw [hnext] at hlive ⊢
        rw [messages, filterMap_append, ← messages, hcurrent hlive (fun _ => Position.noConfusion)]
        simp [Position.inFlight, hid, hop, message?]
    · have hquiet : e.op.carries x.agent x.id = false := by
        rw [hop]
        simpa [carries] using hcarries
      refine ⟨early, rest, ?_, hparted.unborn, hparted.sent, ?_⟩
      · rw [readsFor_concat_quiet hquiet, hparted.reads]
      · intro hlive
        rw [hpos] at hlive ⊢
        split_ifs at hlive ⊢ with hskip
        · rw [hcurrent hlive (fun _ => Position.noConfusion)]
          exact (append_nil _).symm
        · rw [hcurrent hlive (fun _ => Position.noConfusion), Position.inFlight, if_neg]
          · exact (append_nil _).symm
          · exact fun hid => hcarries ⟨hid, (not_or.mp hskip).1⟩

theorem Relayed.lookUp {id : Bytes} (hop : e.op = .session c id)
    (hsound : Sound trace e) : Relayed (trace ++ [e]) e.before := by
  have hloop : e.op.loopOf = some c := by rw [hop]; rfl
  obtain ⟨m, hlook, rfl⟩ : ∃ m, position c (stepsOf trace) = .looking m ∧ m.sessionID = id := by
    have := hsound.allows c hloop
    rwa [hop] at this
  have hpos : position c (stepsOf (trace ++ [e])) =
      (Position.looking m).found (e.before.find c m.sessionID) := by
    rw [position_concat_loop hloop, hlook, hop]
    rfl
  refine h.loop hloop rfl (fun _ => rfl) (fun _ => .inl rfl) ?_ ?_ ?_
  · intro m' hlooking
    rw [hpos] at hlooking
    cases hfind : e.before.find c m.sessionID with
    | none | some => rw [hfind] at hlooking; cases hlooking
  · intro x m' hdelivering
    rw [hpos] at hdelivering
    cases hfind : e.before.find c m.sessionID with
    | none => rw [hfind] at hdelivering; cases hdelivering
    | some y =>
      rw [hfind] at hdelivering
      obtain ⟨rfl, rfl⟩ := Position.delivering.inj hdelivering
      obtain ⟨hlisted, hid⟩ := find_some hfind
      obtain ⟨hcreated, hagent⟩ := hsound.wellFormed.listed _ _ hlisted
      exact ⟨hcreated, hagent, hid⟩
  · rintro x hx rfl early rest hparted
    refine ⟨early, rest, ?_, hparted.unborn, hparted.sent, ?_⟩
    · rw [readsFor_concat_quiet (by rw [hop]; rfl), hparted.reads]
    · intro hlive
      rw [hpos] at hlive ⊢
      cases hfind : e.before.find x.agent m.sessionID with
      | none =>
        rw [hfind] at hlive
        have hlisted : x ∈ e.before.sessions x.agent := by
          rcases hlive with ⟨hlisted, -⟩ | ⟨m', hm'⟩
          · exact hlisted
          · cases hm'
        have hne : m.sessionID ≠ x.id := (find_none hfind x hlisted).symm
        have hcurrent := hparted.current (.inl ⟨hlisted, by rw [hlook]; exact Position.noConfusion⟩)
        rw [hlook, Position.inFlight, if_neg hne] at hcurrent
        exact hcurrent
      | some y =>
        rw [hfind] at hlive
        obtain ⟨hy, hid⟩ := find_some hfind
        have hlisted : x ∈ e.before.sessions x.agent := by
          rcases hlive with ⟨hlisted, -⟩ | ⟨m', hm'⟩
          · exact hlisted
          · rw [← (Position.delivering.inj hm').1]
            rwa [(hsound.wellFormed.listed _ y hy).2]
        have hcurrent := hparted.current (.inl ⟨hlisted, by rw [hlook]; exact Position.noConfusion⟩)
        have hsame : y = x ↔ m.sessionID = x.id := by
          constructor
          · rintro rfl
            exact hid.symm
          · intro heq
            exact hsound.distinct y (hsound.wellFormed.listed _ y hy).1 x hx (hid.trans heq)
        rw [hlook, Position.inFlight] at hcurrent
        rw [hcurrent, Position.found, Position.inFlight]
        rw [if_congr hsame rfl rfl]

end

/-- The channels after a step that relays to one session. -/
theorem relayed_relay (s : Relay) (c : Nat) (y : Session) (m : Message) (outcome : Outcome)
    (x : Session) :
    relayed (RelayOp.exec s (.relay c y m outcome)).1 x =
      relayed s x ++ if x = y ∧ outcome = .sent then [m] else [] := by
  rcases (effect_exec s (.relay c y m outcome)).events x with ⟨hsame, hne⟩ | ⟨c', m', hop, hevents⟩
  · rw [relayed, hsame, if_neg, append_nil, relayed]
    rintro ⟨rfl, rfl⟩
    exact hne c m rfl
  · obtain ⟨-, rfl, rfl, rfl⟩ := relay.inj hop
    rw [relayed, hevents, filterMap_append, if_pos ⟨rfl, rfl⟩]
    rfl

section
variable {y : Session} {m : Message} {outcome : Outcome} {early rest : List RelayEvent}

/-- Relaying changes no map. -/
theorem frame_relay (s : Relay) (c : Nat) (y : Session) (m : Message) (outcome : Outcome) :
    (exec s (.relay c y m outcome)).1.created = s.created ∧
      ∀ c', (exec s (.relay c y m outcome)).1.sessions c' = s.sessions c' := by
  rw [exec]
  split_ifs
  · exact ⟨rfl, fun _ => rfl⟩
  · exact ⟨rfl, fun _ => rfl⟩

theorem position_relay (hop : e.op = .relay c y m outcome) :
    position c (stepsOf (trace ++ [e])) = if outcome = .cancelled then .ended else .idle := by
  rw [position_concat_loop (by rw [hop]; rfl), hop]
  rfl

section
variable (hop : e.op = .relay y.agent y m outcome)
  (hdeliver : position y.agent (stepsOf trace) = .delivering y m)
include hop hdeliver

/-- The message in flight is the next one of its session. -/
theorem Parted.relay_own (h : Parted trace e.before y early rest)
    (hgone : outcome = .finished → y ∉ e.before.sessions y.agent) :
    Parted (trace ++ [e]) (exec e.before (.relay y.agent y m outcome)).1 y early rest := by
  have hcurrent := h.current (.inr ⟨m, hdeliver⟩)
  rw [hdeliver, Position.inFlight, if_pos rfl] at hcurrent
  refine ⟨?_, h.unborn, ?_, ?_⟩
  · rw [readsFor_concat_quiet (by rw [hop]; rfl), h.reads]
  · rw [relayed_relay, hcurrent]
    split_ifs
    · exact prefix_rfl
    · rw [append_nil]
      exact prefix_append _ _
  · intro hlive
    rw [position_relay hop] at hlive ⊢
    cases outcome with
    | sent =>
      rw [relayed_relay, if_pos ⟨rfl, rfl⟩, hcurrent]
      exact (append_nil _).symm
    | finished =>
      -- a session whose channel is closed is in no map
      rcases hlive with ⟨hlisted, -⟩ | ⟨m', hm'⟩
      · rw [(frame_relay _ _ _ _ _).2] at hlisted
        exact absurd hlisted (hgone rfl)
      · cases hm'
    | cancelled =>
      rcases hlive with ⟨-, hended⟩ | ⟨m', hm'⟩
      · exact absurd rfl hended
      · cases hm'

/-- The other sessions of the connection were sent all that was read for them. -/
theorem Parted.relay_other (h : Parted trace e.before x early rest) (hc : x.agent = y.agent)
    (hxy : x ≠ y) :
    Parted (trace ++ [e]) (exec e.before (.relay y.agent y m outcome)).1 x early rest := by
  have hrelayed : relayed (exec e.before (.relay y.agent y m outcome)).1 x =
      relayed e.before x := by
    rw [relayed_relay, if_neg fun hsent => hxy hsent.1, append_nil]
  refine ⟨?_, h.unborn, by rw [hrelayed]; exact h.sent, ?_⟩
  · rw [readsFor_concat_quiet (by rw [hop]; rfl), h.reads]
  · intro hlive
    rw [hc, position_relay hop] at hlive ⊢
    have hlisted : x ∈ e.before.sessions x.agent := by
      rcases hlive with ⟨hlisted, -⟩ | ⟨m', hm'⟩
      · rwa [(frame_relay _ _ _ _ _).2] at hlisted
      · split_ifs at hm'
    have hcurrent := h.current (.inl ⟨hlisted, by rw [hc, hdeliver]; exact Position.noConfusion⟩)
    rw [hc, hdeliver, Position.inFlight, if_neg fun heq => hxy heq.symm, append_nil] at hcurrent
    rw [hrelayed, hcurrent]
    split_ifs
    · exact (append_nil _).symm
    · exact (append_nil _).symm

end

theorem Relayed.relay (h : Relayed trace e.before) (hop : e.op = .relay c y m outcome)
    (hsound : Sound trace e) : Relayed (trace ++ [e]) (RelayOp.exec e.before e.op).1 := by
  have hloop : e.op.loopOf = some c := by rw [hop]; rfl
  have hdeliver : position c (stepsOf trace) = .delivering y m := by
    have := hsound.allows c hloop
    rwa [hop] at this
  obtain ⟨hy, rfl, -⟩ := h.delivering c y m hdeliver
  have hready := hsound.ready
  obtain ⟨hcreated, hsessions⟩ := frame_relay e.before y.agent y m outcome
  have hpos : position y.agent (stepsOf (trace ++ [e])) = _ := position_relay hop
  rw [hop] at hready ⊢
  refine h.loop hloop hcreated hsessions ?_ ?_ ?_ ?_
  · intro x
    by_cases hxy : x = y
    · exact .inr (hxy.symm ▸ ⟨hy, rfl⟩)
    · rw [relayed_relay, if_neg fun hsent => hxy hsent.1, append_nil]
      exact .inl rfl
  · intro m' hlooking
    rw [hpos] at hlooking
    split_ifs at hlooking
  · intro x m' hdelivering
    rw [hpos] at hdelivering
    split_ifs at hdelivering
  · intro x hx hc early rest hparted
    by_cases hxy : x = y
    · subst hxy
      refine ⟨early, rest, hparted.relay_own hop hdeliver ?_⟩
      rintro rfl
      exact (hsound.guarded.done x hready).2
    · exact ⟨early, rest, hparted.relay_other hop hdeliver hc hxy⟩

end

/-- The session that a step creates has been sent nothing, and only the message whose session is
being looked up can still reach it. -/
theorem Relayed.parted_new (h : Relayed trace s) (hx : x ∉ s.created) :
    ∃ early rest, readsFor x trace = early ++ rest ∧ (∀ e ∈ early, x ∉ e.before.created) ∧
      messages rest = (position x.agent (stepsOf trace)).inFlight x := by
  have hunborn : ∀ e ∈ trace, x ∉ e.before.created := fun e he hmem => hx (h.grown e he hmem)
  have hall : (position x.agent (stepsOf trace)).inFlight x = [] → ∃ early rest,
      readsFor x trace = early ++ rest ∧ (∀ e ∈ early, x ∉ e.before.created) ∧
        messages rest = (position x.agent (stepsOf trace)).inFlight x := by
    intro hnone
    refine ⟨readsFor x trace, [], (append_nil _).symm, ?_, by rw [hnone]; rfl⟩
    exact fun e he => hunborn e (mem_filter.mp he).1
  cases hpos : position x.agent (stepsOf trace) with
  | idle | ended => rw [hpos] at hall; exact hall rfl
  | delivering y m =>
    rw [hpos] at hall
    apply hall
    rw [Position.inFlight, if_neg]
    rintro rfl
    exact hx (h.delivering _ y m hpos).1
  | looking m =>
    rw [hpos] at hall
    by_cases hid : m.sessionID = x.id
    · obtain ⟨-, -, before, e, hreads, hop⟩ := h.looking _ m hpos
      rw [hid] at hreads
      refine ⟨before, [e], hreads, ?_, ?_⟩
      · intro e' he'
        have hmem : e' ∈ readsFor x trace := by
          rw [readsFor, hreads]
          exact mem_append_left _ he'
        exact hunborn e' (mem_filter.mp hmem).1
      · simp [messages, hop, message?, Position.inFlight, hid]
    · apply hall
      rw [Position.inFlight, if_neg hid]

theorem Relayed.quiet (h : Relayed trace e.before) (hloop : e.op.loopOf = none)
    (hsound : Sound trace e) :
    Relayed (trace ++ [e]) (RelayOp.exec e.before e.op).1 := by
  have hnone : ∀ c, e.op.loopOf ≠ some c := by
    intro c hc
    rw [hloop] at hc
    cases hc
  have hrelayed : ∀ x, relayed (exec e.before e.op).1 x = relayed e.before x := by
    intro x
    rcases (effect_exec e.before e.op).events x with ⟨hsame, -⟩ | ⟨c, m, hop, -⟩
    · exact hsame
    · rw [hop] at hloop
      cases hloop
  refine ⟨grown_concat h.grown rfl (created_subset _ _), ?_, ?_, ?_, ?_, ?_⟩
  · intro x hx
    rcases (effect_exec e.before e.op).created with heq | ⟨c, id, hop, -, heq⟩
    · rw [heq] at hx
      exact h.ids x hx
    · rw [heq] at hx
      exact forall_mem_snoc h.ids (hsound.named c id hop) x hx
  · intro x hx
    rw [hrelayed]
    exact h.silent x fun hold => hx (created_subset _ _ hold)
  · intro c m hlooking
    rw [position_concat_quiet (hnone c)] at hlooking
    rw [filter_concat_quiet (carries_of_loopOf_ne (hnone c) _)]
    exact h.looking c m hlooking
  · intro c x m hdelivering
    rw [position_concat_quiet (hnone c)] at hdelivering
    obtain ⟨hcreated, hrest⟩ := h.delivering c x m hdelivering
    exact ⟨created_subset _ _ hcreated, hrest⟩
  · intro x hx
    by_cases hold : x ∈ e.before.created
    · obtain ⟨early, rest, hparted⟩ := h.parted x hold
      refine ⟨early, rest, hparted.quiet (hnone _) (hrelayed x) ?_⟩
      intro hlisted
      by_contra hgone
      exact gone_exec hsound.wellFormed hold hgone e.op hlisted
    · obtain ⟨early, rest, hreads, hunborn, hmessages⟩ := h.parted_new hold
      refine ⟨early, rest, ?_, hunborn, ?_, ?_⟩
      · rw [readsFor_concat_quiet (carries_of_loopOf_ne (hnone _) _), hreads]
      · rw [hrelayed, h.silent x hold]
        exact nil_prefix
      · intro _
        rw [hrelayed, h.silent x hold, position_concat_quiet (hnone _), hmessages]
        rfl

theorem Relayed.step (h : Relayed trace e.before) (hsound : Sound trace e) :
    Relayed (trace ++ [e]) (RelayOp.exec e.before e.op).1 := by
  cases hop : e.op with
  | readJSON c m => exact h.read hop hsound
  | session c id => exact h.lookUp hop hsound
  | relay c y m outcome =>
    rw [← hop]
    exact h.relay hop hsound
  | _ =>
    rw [← hop]
    exact h.quiet (by rw [hop]; rfl) hsound

end Steps

theorem relayed_run {trace : List RelayEvent}
    {cfg : Config Relay RelayOp RelayOp.Reply RelayCall RelayResult}
    (run : Run relaySystem (fun _ => True) newHub trace cfg) (hdistinct : DistinctIds cfg.state) :
    Relayed trace cfg.state := by
  refine run.evolves (J := fun trace s => AtEach Sound trace → Relayed trace s) ?_ ?_
    (sound_events run hdistinct)
  · intro _
    refine ⟨by simp, by simp [newHub], fun _ _ => rfl, ?_, ?_, by simp [newHub]⟩
    · intro c m hlooking
      cases hlooking
    · intro c x m hdelivering
      cases hdelivering
  · intro trace e _ ih hsound
    obtain ⟨hearlier, hlast⟩ := atEach_concat.mp hsound
    exact (ih hearlier).step hlast

end HeyServer.Terminal
