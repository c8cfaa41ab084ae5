import HeyServer.Lib.Interleaving
import HeyServer.Lib.Utf8

/-!
# OAuth states

Connecting to Google Drive takes three requests: `start` hands out a random state, the public
callback brings a code for it, and `complete` exchanges the code for a token. A state waits in
`states` for its callback and then in `pending` for its completion; each request holds the lock only
while it moves it.

## Implementation notes

The random states and the clock readings are arguments of the calls. `exchange` is the request to
the token endpoint, made without the lock.
-/

namespace HeyServer.Gdrive.OAuth
open Lib List Option Function

structure OAuthState where
  redirectURI : Bytes
  userID : Int
  createdAt : Int
deriving DecidableEq

structure PendingOAuth where
  code : Bytes
  redirectURI : Bytes
  userID : Int
  createdAt : Int
deriving DecidableEq

/-- The two maps of the manager. -/
structure Flows where
  states : Bytes → Option OAuthState
  pending : Bytes → Option PendingOAuth

def noFlows : Flows := ⟨fun _ => none, fun _ => none⟩

/-- Ten minutes in nanoseconds. -/
def oauthStateTTL : Int := 10 * 60 * 1000000000

def purgeExpired (now : Int) (s : Flows) : Flows where
  states state := (s.states state).filter fun st => now - oauthStateTTL ≤ st.createdAt
  pending state := (s.pending state).filter fun p => now - oauthStateTTL ≤ p.createdAt

/-- Whether a callback is accepted. -/
def accepts (s : Flows) (state : Bytes) (now : Int) : Bool :=
  (s.states state).any fun st => now - st.createdAt ≤ oauthStateTTL

/-! ## Critical sections -/

inductive OAuthOp
  | start (state redirectURI : Bytes) (userID purged created : Int)
  /-- The clock is read twice: for the check and for the entry. -/
  | callback (code state : Bytes) (now stored : Int)
  | take (state : Bytes)
  | exchange (code redirectURI : Bytes)
deriving DecidableEq

def OAuthOp.Reply : OAuthOp → Type
  | .callback .. => Bool
  | .take _ => Option PendingOAuth
  | _ => Unit

def OAuthOp.exec (s : Flows) : (op : OAuthOp) → Flows × op.Reply
  | .start state redirectURI userID purged created =>
    let s := purgeExpired purged s
    ({ s with states := Function.update s.states state (some ⟨redirectURI, userID, created⟩) }, ())
  | .callback code state now stored =>
    match s.states state with
    | none => (s, false)
    | some st =>
      if oauthStateTTL < now - st.createdAt then (s, false)
      else
        ({ states := Function.update s.states state none
           pending := Function.update s.pending state
            (some ⟨code, st.redirectURI, st.userID, stored⟩) }, true)
  | .take state => ({ s with pending := Function.update s.pending state none }, s.pending state)
  | .exchange .. => (s, ())

def oauthSemantics : Semantics Flows OAuthOp OAuthOp.Reply where
  exec := OAuthOp.exec

/-! ## Calls -/

inductive OAuthCall
  | start (configured : Bool) (state redirectURI : Bytes) (userID purged created : Int)
  | storeCallbackCode (code state : Bytes) (now stored : Int)
  | complete (state : Bytes) (userID now : Int)
deriving DecidableEq

inductive OAuthResult
  | started (state : Bytes)
  | stored
  | exchanged
  | notConfigured
  | invalidState
  | invalidPending
  | otherUser
deriving DecidableEq

abbrev OAuthProg := Prog OAuthOp OAuthOp.Reply OAuthResult

/-- The part of `complete` after the lock is released. -/
def completeTaken (userID now : Int) : Option PendingOAuth → OAuthProg
  | none => .done .invalidPending
  | some p =>
    if oauthStateTTL < now - p.createdAt then .done .invalidPending
    else if p.userID ≠ userID then .done .otherUser
    else .call (.exchange p.code p.redirectURI) fun _ => .done .exchanged

def OAuthCall.program : OAuthCall → OAuthProg
  | .start configured state redirectURI userID purged created =>
    if configured then
      .call (.start state redirectURI userID purged created) fun _ => .done (.started state)
    else .done .notConfigured
  | .storeCallbackCode code state now stored =>
    .call (.callback code state now stored) fun (accepted : Bool) =>
      .done (if accepted then .stored else .invalidState)
  | .complete state userID now => .call (.take state) (completeTaken userID now)

def oauthSystem : System Flows OAuthOp OAuthOp.Reply OAuthCall OAuthResult where
  sem := oauthSemantics
  program := OAuthCall.program

abbrev OAuthEvent := Event Flows OAuthOp OAuthCall

/-! ## Where a state is -/

/-- The state a step hands out. -/
def OAuthOp.started : OAuthOp → Option Bytes
  | .start state .. => some state
  | _ => none

variable (trace : List OAuthEvent)

/-- `randomState` never gives a state twice. -/
def DistinctStates : Prop := (trace.filterMap fun e => e.op.started).Nodup

instance (trace : List OAuthEvent) : Decidable (DistinctStates trace) :=
  inferInstanceAs (Decidable (List.Nodup _))

variable (state : Bytes)

/-- The step is a callback for the state that was accepted. -/
def Accepted (e : OAuthEvent) : Prop :=
  ∃ code now stored, e.op = .callback code state now stored ∧ accepts e.before state now = true

/-- The step takes the pending code of the state. -/
def Taken (e : OAuthEvent) : Prop :=
  e.op = .take state ∧ (e.before.pending state).isSome = true

/-- The first accepted callback for the state brought the code, in time after the start by the user.
-/
def Granted (p : PendingOAuth) : Prop :=
  ∃ earlier callback later, trace = earlier ++ callback :: later ∧
    (∃ now, callback.op = .callback p.code state now p.createdAt ∧
      accepts callback.before state now = true ∧
      ∃ start ∈ earlier, ∃ purged created,
        start.op = .start state p.redirectURI p.userID purged created ∧
          now - created ≤ oauthStateTTL) ∧
    ∀ e ∈ earlier, ¬ Accepted state e

theorem Granted.append {trace : List OAuthEvent} {state : Bytes} {p : PendingOAuth}
    (h : Granted trace state p) (more : List OAuthEvent) : Granted (trace ++ more) state p := by
  obtain ⟨earlier, callback, later, rfl, hgrant⟩ := h
  exact ⟨earlier, callback, later ++ more, by simp, hgrant⟩

/-- What the maps say of a state agrees with what has happened. -/
structure Tracked (trace : List OAuthEvent) (s : Flows) (state : Bytes) : Prop where
  /-- Nothing is known of a state before it is handed out. -/
  fresh : (∀ e ∈ trace, e.op.started ≠ some state) →
    s.states state = none ∧ s.pending state = none ∧ ∀ e ∈ trace, ¬ Accepted state e ∧
      ¬ Taken state e
  waiting : ∀ st, s.states state = some st →
    (∃ e ∈ trace, ∃ purged, e.op = .start state st.redirectURI st.userID purged st.createdAt) ∧
      s.pending state = none ∧ ∀ e ∈ trace, ¬ Accepted state e ∧ ¬ Taken state e
  held : ∀ p, s.pending state = some p → Granted trace state p ∧ ∀ e ∈ trace, ¬ Taken state e

section Steps

variable {trace : List OAuthEvent} {e : OAuthEvent} {state : Bytes}

theorem forall_mem_concat {P : OAuthEvent → Prop} :
    (∀ e' ∈ trace ++ [e], P e') ↔ (∀ e' ∈ trace, P e') ∧ P e := by
  simp [or_imp, forall_and]

/-- A step that does not concern the state, except that its entries may expire. -/
theorem Tracked.quiet (h : Tracked trace e.before state)
    (haccepted : ¬ Accepted state e) (htaken : ¬ Taken state e)
    (hstates : ∀ st, (e.after oauthSemantics).states state = some st →
      e.before.states state = some st)
    (hpending : ∀ p, (e.after oauthSemantics).pending state = some p →
      e.before.pending state = some p) :
    Tracked (trace ++ [e]) (e.after oauthSemantics) state where
  fresh hnew := by
    obtain ⟨hwait, hheld, hnone⟩ := h.fresh (forall_mem_concat.mp hnew).1
    refine ⟨?_, ?_, forall_mem_concat.mpr ⟨hnone, haccepted, htaken⟩⟩
    · apply eq_none_iff_forall_not_mem.mpr
      intro st hst
      rw [hstates st hst] at hwait
      cases hwait
    · apply eq_none_iff_forall_not_mem.mpr
      intro p hp
      rw [hpending p hp] at hheld
      cases hheld
  waiting st hst := by
    obtain ⟨⟨start, hmem, hop⟩, hheld, hnone⟩ := h.waiting st (hstates st hst)
    refine ⟨⟨start, mem_append_left _ hmem, hop⟩, ?_,
      forall_mem_concat.mpr ⟨hnone, haccepted, htaken⟩⟩
    apply eq_none_iff_forall_not_mem.mpr
    intro p hp
    rw [hpending p hp] at hheld
    cases hheld
  held p hp := by
    obtain ⟨hgranted, hnone⟩ := h.held p (hpending p hp)
    exact ⟨hgranted.append [e], forall_mem_concat.mpr ⟨hnone, htaken⟩⟩

section
variable {op : OAuthOp} (hop : e.op = op)
include hop

theorem not_accepted_of_ne (h : ∀ code now stored, op ≠ .callback code state now stored) :
    ¬ Accepted state e := by
  rintro ⟨code, now, stored, hcallback, -⟩
  exact h code now stored (hop.symm.trans hcallback)

theorem not_taken_of_ne (h : op ≠ .take state) : ¬ Taken state e :=
  fun htaken => h (hop.symm.trans htaken.1)

theorem after_eq : e.after oauthSemantics = (OAuthOp.exec e.before op).1 := by
  rw [Event.after, hop]
  rfl

end

variable {x code : Bytes} {s : Flows} {now stored : Int}

theorem Tracked.start {redirectURI : Bytes} {userID purged created : Int}
    (h : Tracked trace e.before state) (hop : e.op = .start x redirectURI userID purged created)
    (hnew : ∀ e' ∈ trace, e'.op.started ≠ some x) :
    Tracked (trace ++ [e]) (e.after oauthSemantics) state := by
  have haccepted : ¬ Accepted state e := not_accepted_of_ne hop (by intros; simp)
  have htaken : ¬ Taken state e := not_taken_of_ne hop (by simp)
  have hafter := after_eq hop
  have hpending : (e.after oauthSemantics).pending state =
      (e.before.pending state).filter fun p => purged - oauthStateTTL ≤ p.createdAt := by
    rw [hafter]
    rfl
  by_cases hx : state = x
  · subst hx
    obtain ⟨-, hheld, hnone⟩ := h.fresh hnew
    have hstates : (e.after oauthSemantics).states state = some ⟨redirectURI, userID, created⟩ := by
      rw [hafter]
      exact update_self _ _ _
    rw [hheld, filter_none] at hpending
    refine ⟨?_, ?_, ?_⟩
    · intro hall
      exact absurd (by rw [hop]; rfl) ((forall_mem_concat.mp hall).2)
    · intro st hst
      cases hstates.symm.trans hst
      exact ⟨⟨e, by simp, purged, hop⟩, hpending, forall_mem_concat.mpr ⟨hnone, haccepted, htaken⟩⟩
    · intro p hp
      rw [hpending] at hp
      cases hp
  · apply h.quiet haccepted htaken
    · intro st hst
      rw [hafter] at hst
      change update (purgeExpired purged e.before).states x _ state = _ at hst
      rw [update_of_ne hx] at hst
      exact (filter_eq_some_iff.mp hst).1
    · intro p hp
      rw [hpending] at hp
      exact (filter_eq_some_iff.mp hp).1

theorem accepts_iff :
    accepts s x now = true ↔ ∃ st, s.states x = some st ∧ now - st.createdAt ≤ oauthStateTTL := by
  rw [accepts]
  cases s.states x with
  | none | some => simp

theorem exec_callback_refused
    (h : accepts s x now = false) : OAuthOp.exec s (.callback code x now stored) = (s, false) := by
  rw [OAuthOp.exec]
  cases hst : s.states x with
  | none => rfl
  | some st =>
    refine if_pos (lt_of_not_ge ?_)
    intro hle
    rw [accepts_iff.mpr ⟨st, hst, hle⟩] at h
    cases h

section
variable (h : Tracked trace e.before state)
include h

theorem Tracked.callback (hop : e.op = .callback code x now stored) :
    Tracked (trace ++ [e]) (e.after oauthSemantics) state := by
  have htaken : ¬ Taken state e := not_taken_of_ne hop (by simp)
  have hafter := after_eq hop
  cases hresult : accepts e.before x now with
  | false =>
    rw [exec_callback_refused hresult] at hafter
    apply h.quiet _ htaken
    · rw [hafter]
      exact fun _ hst => hst
    · rw [hafter]
      exact fun _ hp => hp
    · rintro ⟨code', now', stored', hcallback, haccepts⟩
      rw [hop] at hcallback
      injection hcallback with _ hx hnow _
      rw [← hx, ← hnow, hresult] at haccepts
      cases haccepts
  | true =>
    obtain ⟨st, hst, hintime⟩ := accepts_iff.mp hresult
    simp only [OAuthOp.exec, hst, if_neg (not_lt_of_ge hintime)] at hafter
    by_cases hx : state = x
    · subst hx
      obtain ⟨⟨start, hmem, purged, hstartop⟩, -, hnone⟩ := h.waiting st hst
      have hwait : (e.after oauthSemantics).states state = none := by
        rw [hafter]
        exact update_self _ _ _
      have hheld : (e.after oauthSemantics).pending state =
          some ⟨code, st.redirectURI, st.userID, stored⟩ := by
        rw [hafter]
        exact update_self _ _ _
      refine ⟨?_, ?_, ?_⟩
      · intro hall
        have hnot := (forall_mem_concat.mp hall).1 start hmem
        rw [hstartop] at hnot
        exact absurd rfl hnot
      · intro st' hst'
        rw [hwait] at hst'
        cases hst'
      · intro p hp
        cases hheld.symm.trans hp
        refine ⟨⟨trace, e, [], rfl, ⟨now, hop, hresult, start, hmem, purged, st.createdAt, hstartop,
          hintime⟩, fun e' he' => (hnone e' he').1⟩, ?_⟩
        exact forall_mem_concat.mpr ⟨fun e' he' => (hnone e' he').2, htaken⟩
    · apply h.quiet _ htaken
      · intro st' hst'
        rw [hafter] at hst'
        exact (update_of_ne hx _ _).symm.trans hst'
      · intro p hp
        rw [hafter] at hp
        exact (update_of_ne hx _ _).symm.trans hp
      · rintro ⟨code', now', stored', hcallback, -⟩
        rw [hop] at hcallback
        injection hcallback with _ hsame _ _
        exact hx hsame.symm

theorem Tracked.take (hop : e.op = .take x) :
    Tracked (trace ++ [e]) (e.after oauthSemantics) state := by
  have haccepted : ¬ Accepted state e := not_accepted_of_ne hop (by intros; simp)
  have hafter := after_eq hop
  by_cases htaken : Taken state e
  · obtain ⟨htake, hsome⟩ := htaken
    rw [hop] at htake
    injection htake with hx
    subst hx
    have hheld : (e.after oauthSemantics).pending x = none := by
      rw [hafter]
      exact update_self _ _ _
    refine ⟨?_, ?_, ?_⟩
    · intro hall
      rw [(h.fresh (forall_mem_concat.mp hall).1).2.1] at hsome
      cases hsome
    · intro st hst
      rw [hafter] at hst
      rw [(h.waiting st hst).2.1] at hsome
      cases hsome
    · intro p hp
      rw [hheld] at hp
      cases hp
  · apply h.quiet haccepted htaken
    · rw [hafter]
      exact fun _ hst => hst
    · intro p hp
      rw [hafter] at hp
      by_cases hx : state = x
      · subst hx
        change update e.before.pending state none state = _ at hp
        rw [update_self] at hp
        cases hp
      · exact (update_of_ne hx _ _).symm.trans hp

theorem Tracked.exchange {redirectURI : Bytes}
    (hop : e.op = .exchange code redirectURI) :
      Tracked (trace ++ [e]) (e.after oauthSemantics) state := by
  apply h.quiet
  · exact not_accepted_of_ne hop (by intros; simp)
  · exact not_taken_of_ne hop (by simp)
  · rw [after_eq hop]
    exact fun _ hst => hst
  · rw [after_eq hop]
    exact fun _ hp => hp

theorem Tracked.step (hdistinct : DistinctStates (trace ++ [e])) :
    Tracked (trace ++ [e]) (e.after oauthSemantics) state := by
  cases hop : e.op with
  | start x redirectURI userID purged created =>
    apply h.start hop
    intro e' he' hsame
    rw [DistinctStates, filterMap_append, nodup_append] at hdistinct
    refine hdistinct.2.2 x (mem_filterMap.mpr ⟨e', he', hsame⟩) x ?_ rfl
    rw [filterMap_cons, hop]
    exact mem_cons_self
  | callback code x now stored => exact h.callback hop
  | take x => exact h.take hop
  | exchange code redirectURI => exact h.exchange hop

end

end Steps

/-! ## Exchanges -/

/-- A call that exchanges a code has taken it, for the state it completes, and has checked its age
and its user. -/
def ExchangeStep (c : OAuthCall) (own : List (Flows × OAuthOp)) : OAuthOp → Prop
  | .exchange code redirectURI =>
    ∃ state userID now t stored, c = .complete state userID now ∧ own = [(t, .take state)] ∧
      t.pending state = some ⟨code, redirectURI, userID, stored⟩ ∧ now - stored ≤ oauthStateTTL
  | _ => True

theorem follows_program (c : OAuthCall) : c.program.Follows oauthSemantics (ExchangeStep c) [] := by
  cases c with
  | start configured state redirectURI userID purged created =>
    exact Prog.Follows.ite ⟨trivial, fun _ => trivial⟩ trivial
  | storeCallbackCode code state now stored => exact ⟨trivial, fun _ => trivial⟩
  | complete state userID now =>
    refine ⟨trivial, fun t => ?_⟩
    change (completeTaken userID now (t.pending state)).Follows _ _ _
    cases hp : t.pending state with
    | none => trivial
    | some p =>
      rw [completeTaken]
      split_ifs with hexpired hother
      · trivial
      · trivial
      · obtain rfl := not_not.mp hother
        exact ⟨⟨state, p.userID, now, t, p.createdAt, rfl, rfl, hp, not_lt.mp hexpired⟩,
          fun _ => trivial⟩

section Runs

variable {trace : List OAuthEvent} {cfg : Config Flows OAuthOp OAuthOp.Reply OAuthCall OAuthResult}

section
variable (run : Run oauthSystem (fun _ => True) noFlows trace cfg)
include run

variable {earlier later : List OAuthEvent}

theorem tracked_before (hdistinct : DistinctStates trace) {e : OAuthEvent}
    (hsplit : trace = earlier ++ e :: later) (state : Bytes) : Tracked earlier e.before state := by
  have hearlier : DistinctStates earlier := by
    rw [DistinctStates, hsplit, filterMap_append, nodup_append] at hdistinct
    exact hdistinct.1
  refine run.evolves_before (J := fun trace s => DistinctStates trace →
    ∀ state, Tracked trace s state)
    ?_ ?_ hsplit hearlier state
  · intro _ x
    exact ⟨fun _ => ⟨rfl, rfl, by simp⟩, fun st hst => (by cases hst), fun p hp => (by cases hp)⟩
  · intro trace e _ ih hnodup x
    refine (ih ?_ x).step hnodup
    rw [DistinctStates, filterMap_append, nodup_append] at hnodup
    exact hnodup.1

/-- The step by which the code of an exchange was taken. -/
theorem exists_taken {e : OAuthEvent} {code redirectURI : Bytes}
    (hsplit : trace = earlier ++ e :: later) (hop : e.op = .exchange code redirectURI) :
    ∃ state userID now stored, e.call = .complete state userID now ∧ now - stored ≤ oauthStateTTL ∧
      ∃ f ∈ earlier, f.id = e.id ∧ f.op = .take state ∧
        f.before.pending state = some ⟨code, redirectURI, userID, stored⟩ ∧
        ownSteps e.id earlier = [(f.before, f.op)] := by
  have hfollows := (run.follows (P := ExchangeStep) (fun c _ => follows_program c) hsplit).1
  rw [hop] at hfollows
  obtain ⟨state, userID, now, t, stored, hcall, hown, hp, hintime⟩ := hfollows
  have hmem : (t, OAuthOp.take state) ∈ ownSteps e.id earlier := by
    rw [hown]
    exact mem_singleton_self _
  obtain ⟨f, hf, hid, rfl, hfop⟩ := mem_ownSteps.mp hmem
  exact ⟨state, userID, now, stored, hcall, hintime, f, hf, hid, hfop, hp, hfop ▸ hown⟩

/-- The code of a state is taken once. -/
theorem taken_once (hdistinct : DistinctStates trace) {state : Bytes} {f f' : OAuthEvent}
    (hf : f ∈ trace)
    (hf' : f' ∈ trace) (htaken : Taken state f) (htaken' : Taken state f') : f = f' := by
  by_contra hne
  rcases split_of_mem hf hf' hne with ⟨earlier, later, hsplit, hmem⟩ | ⟨earlier, later, hsplit,
    hmem⟩
  · obtain ⟨p, hp⟩ := isSome_iff_exists.mp htaken'.2
    exact ((tracked_before run hdistinct hsplit state).held p hp).2 f hmem htaken
  · obtain ⟨p, hp⟩ := isSome_iff_exists.mp htaken.2
    exact ((tracked_before run hdistinct hsplit state).held p hp).2 f' hmem htaken'

end

/-- Every exchange is made by a completion by the user who started its state, within the lifetime of
the first accepted callback, which came within the lifetime of the state and brought the code; and
no completion of that state has made an exchange before. -/
theorem exchange_authorised (run : Run oauthSystem (fun _ => True) noFlows trace cfg)
    (hdistinct : DistinctStates trace) {earlier later : List OAuthEvent} {e : OAuthEvent}
    {code redirectURI : Bytes} (hsplit : trace = earlier ++ e :: later)
    (hop : e.op = .exchange code redirectURI) :
    ∃ state userID now stored, e.call = .complete state userID now ∧ now - stored ≤ oauthStateTTL ∧
      Granted earlier state ⟨code, redirectURI, userID, stored⟩ ∧
      ∀ e' ∈ earlier, ∀ code' redirectURI', e'.op = .exchange code' redirectURI' →
        ∀ userID' now', e'.call ≠ .complete state userID' now' := by
  obtain ⟨state, userID, now, stored, hcall, hintime, f, hf, hid, hfop, hp, hown⟩ :=
    exists_taken run hsplit hop
  refine ⟨state, userID, now, stored, hcall, hintime, ?_, ?_⟩
  · obtain ⟨before, between, rfl⟩ := append_of_mem hf
    have hsplit' : trace = before ++ f :: (between ++ e :: later) := by simp [hsplit]
    exact ((tracked_before run hdistinct hsplit' state).held _ hp).1.append (f :: between)
  · intro e' he' code' redirectURI' hop' userID' now' hcall'
    obtain ⟨before, between, hearlier⟩ := append_of_mem he'
    have hsplit' : trace = before ++ e' :: (between ++ e :: later) := by simp [hsplit, hearlier]
    obtain ⟨state', _, _, _, hsame, -, f', hf', hid', hfop', hp', -⟩ :=
      exists_taken run hsplit' hop'
    obtain ⟨rfl, -, -⟩ : state = state' ∧ userID' = _ ∧ now' = _ :=
      OAuthCall.complete.inj (hcall'.symm.trans hsame)
    have hmem : f ∈ trace := by rw [hsplit]; exact mem_append_left _ hf
    have hmem' : f' ∈ trace := by rw [hsplit']; exact mem_append_left _ hf'
    obtain rfl := taken_once run hdistinct hmem hmem' ⟨hfop, by rw [hp]; rfl⟩
      ⟨hfop', by rw [hp']; rfl⟩
    -- both exchanges belong to the call that took the code, and it had made no other step
    have hstep : (e'.before, e'.op) ∈ ownSteps e.id earlier :=
      mem_ownSteps.mpr ⟨e', he', hid'.symm.trans hid, rfl, rfl⟩
    rw [hown, mem_singleton, hfop, hop'] at hstep
    cases (Prod.mk.inj hstep).2

end Runs

/-- A user connects: the start, the callback and the completion. -/
def connecting : List OAuthCall :=
  [.start true (ascii "f00d") (ascii "https://panel/callback") 1 0 0,
    .storeCallbackCode (ascii "code") (ascii "f00d") 60 60,
    .complete (ascii "f00d") 1 120]

theorem connecting_authorised :
    ∃ earlier e, (Run.serialRun oauthSystem noFlows connecting).1 = earlier ++ [e] ∧
      e.op = .exchange (ascii "code") (ascii "https://panel/callback") ∧
      ∃ state userID now stored, e.call = .complete state userID now ∧
        now - stored ≤ oauthStateTTL ∧
        Granted earlier state ⟨ascii "code", ascii "https://panel/callback", userID, stored⟩ ∧
        ∀ e' ∈ earlier, ∀ code' redirectURI', e'.op = .exchange code' redirectURI' →
          ∀ userID' now', e'.call ≠ .complete state userID' now' := by
  have hsplit := (take_append_drop 3 (Run.serialRun oauthSystem noFlows connecting).1).symm
  refine ⟨_, _, hsplit, rfl, exchange_authorised
    (Run.serialRun_run connecting (fun _ _ => trivial) ?_) ?_
    hsplit rfl⟩
  · decide +kernel
  · decide +kernel

end HeyServer.Gdrive.OAuth
