import HeyServer.Gdrive.Session

/-!
# Disconnecting

A request that has loaded the token goes on with it, whatever happens to the file: it saves the
token it gets in exchange and writes the configuration. Disconnecting does not wait for such
requests, so both files may come back after it has returned. Both stay away if it runs while no
other call is in progress.
-/

namespace HeyServer.Gdrive
open Lib List Prog.Leads

/-! ## What a call knows -/

/-- Where a call is: it has not begun, has not seen a token, has one, or disconnects. -/
inductive Stage
  | outside
  | inside (ticket : Nat)
  | holding (ticket : Nat)
  | removing (ticket : Nat)
  | removed (ticket : Nat)
  | gone (ticket : Nat)

namespace Stage

def Permits : Stage → DriveOp → Prop
  | .outside, .start _ => True
  | .inside _, .loadToken | .inside _, .lockRefresh | .inside _, .unlockRefresh
  | .inside _, .exchange => True
  | .inside _, .saveToken _ connect => connect = true
  | .inside t, .finish ticket disconnect => ticket = t ∧ disconnect = false
  | .holding _, .loadToken | .holding _, .lockRefresh | .holding _, .unlockRefresh
  | .holding _, .exchange | .holding _, .saveToken _ _ | .holding _, .writeConfig _ => True
  | .holding t, .finish ticket disconnect => ticket = t ∧ disconnect = false
  | .removing _, .deleteToken => True
  | .removed _, .removeConf => True
  | .gone t, .finish ticket disconnect => ticket = t ∧ disconnect = true
  | _, _ => False

def next : (g : Stage) → (op : DriveOp) → op.Reply → Stage
  | _, .start disconnect, (ticket : Nat) => if disconnect then .removing ticket else .inside ticket
  | .inside t, .loadToken, (td : Option TokenData) => if td.isSome then .holding t else .inside t
  | .inside t, .saveToken _ _, _ => .holding t
  | .removing t, .deleteToken, _ => .removed t
  | .removed t, .removeConf, _ => .gone t
  | _, .finish _ _, _ => .outside
  | g, _, _ => g

/-- A call in progress is among the active ones; a call that disconnects is the only one. A call
that has a token began before anything was disconnected. -/
def Holds : Stage → Drive → Prop
  | .outside, _ => True
  | .inside t, s => t ∈ s.active
  | .holding t, s => t ∈ s.active ∧ s.disconnected = false
  | .removing t, s => s.active = [t] ∧ s.alone = true
  | .removed t, s => s.active = [t] ∧ s.alone = true ∧ s.token = none
  | .gone t, s => s.active = [t] ∧ s.alone = true

/-- The ticket of a call. -/
def ticket : Stage → Option Nat
  | .outside => none
  | .inside t | .holding t | .removing t | .removed t | .gone t => some t

theorem Holds.mem_active {g : Stage} {s : Drive} (h : g.Holds s) {t : Nat}
    (ht : g.ticket = some t) :
    t ∈ s.active := by
  cases g with
  | outside => cases ht
  | inside t' =>
    cases ht
    exact h
  | holding t' =>
    cases ht
    exact h.1
  | removing t' | removed t' | gone t' =>
    obtain rfl := Option.some.inj ht
    rw [h.1]
    exact mem_singleton_self t'

end Stage

/-! ## The programs -/

/-- The call with this ticket is in progress and does not disconnect. -/
def Within (t : Nat) (g : Stage) : Prop := g = .inside t ∨ g = .holding t

abbrev Leads {α : Type} (Q : α → Stage → Prop) (g : Stage) (p : DriveM α) : Prop :=
  p.Leads Stage.Permits Stage.next Q g

variable {g : Stage} {t : Nat}

theorem leads_loadToken {α : Type} {Q : α → Stage → Prop}
    {rest : Option TokenData → DriveM α} (hg : Within t g)
    (hnone : ∀ g', Within t g' → Leads Q g' (rest none))
    (hsome : ∀ td, Leads Q (.holding t) (rest (some td))) : Leads Q g (.call .loadToken rest) := by
  have hwithin := hg
  rcases hg with rfl | rfl
  all_goals
    refine ⟨trivial, ?_⟩
    intro td
    cases td with
    | none => exact hnone _ hwithin
    | some td => exact hsome td

theorem leads_exchangeToken (td : TokenData) (uri : Bytes) (answer : Option Issued) (t : Nat) :
    Leads (fun _ g => g = .holding t) (.holding t) (exchangeToken td uri answer) := by
  refine ⟨trivial, fun _ => ?_⟩
  cases answer with
  | none => exact ⟨trivial, fun _ => rfl⟩
  | some tok =>
    refine ite (fun _ => ⟨trivial, fun _ => rfl⟩) fun _ => ?_
    refine ite (fun _ => ⟨trivial, fun _ => rfl⟩) fun _ => ?_
    exact ⟨trivial, fun _ => ⟨trivial, fun _ => rfl⟩⟩

theorem leads_refreshIfNeeded (td : TokenData) (uri : Bytes) (env : Refresh) (t : Nat) :
    Leads (fun _ g => g = .holding t) (.holding t) (refreshIfNeeded td uri env) := by
  refine ite (fun _ => rfl) fun _ => ?_
  refine ⟨trivial, fun _ => ⟨trivial, fun fresh => ?_⟩⟩
  cases fresh with
  | none => exact leads_exchangeToken ..
  | some fresh =>
    refine ite (fun _ => ⟨trivial, fun _ => rfl⟩) fun _ => ?_
    exact leads_exchangeToken ..

theorem leads_effectiveRedirectURI (req : Request) (hg : Within t g) :
    Leads (fun _ g' => Within t g') g (effectiveRedirectURI req) :=
  leads_loadToken hg (fun _ hg' => hg') fun _ => .inr rfl

section
variable (req : Request) (env : Refresh) (hg : Within t g)
include req env hg

theorem leads_readyWith {refresh : TokenData → Bytes → Refresh →
    DriveM (Except DriveError TokenData)}
    (hrefresh : ∀ td uri, Leads (fun _ g => g = .holding t) (.holding t) (refresh td uri env)) :
    Leads (fun _ g' => Within t g') g (readyWith refresh req env) := by
  refine (leads_effectiveRedirectURI req hg).bind ?_
  intro uri g' hg'
  refine ite (fun _ => hg') fun _ => ?_
  refine leads_loadToken hg' (fun _ hg'' => hg'') ?_
  intro td
  refine (hrefresh td uri).bind ?_
  rintro result g'' rfl
  cases result with
  | error e => exact .inr rfl
  | ok td => exact ⟨trivial, fun _ => .inr rfl⟩

theorem leads_ensureReady : Leads (fun _ g' => Within t g') g (ensureReady req env) :=
  leads_readyWith req env hg fun td uri => leads_refreshIfNeeded td uri env t

theorem leads_refreshSession : Leads (fun _ g' => Within t g') g (refreshSession req env) :=
  leads_readyWith req env hg fun _ uri => leads_refreshIfNeeded _ uri env t

theorem leads_status : Leads (fun _ g' => Within t g') g (status req env) := by
  refine (leads_effectiveRedirectURI req hg).bind ?_
  intro uri g' hg'
  refine ite (fun _ => hg') fun _ => ?_
  refine leads_loadToken hg' (fun _ hg'' => hg'') ?_
  intro td
  refine (leads_refreshIfNeeded td uri env t).bind ?_
  rintro result g'' rfl
  cases result <;> exact .inr rfl

end

theorem leads_oauthComplete (session : Option Bytes) (answer : Option Issued) (t : Nat) :
    Leads (fun _ g' => Within t g') (.inside t) (oauthComplete session answer) := by
  cases session with
  | none => exact .inl rfl
  | some uri =>
    refine ⟨trivial, fun _ => ?_⟩
    cases answer with
    | none => exact .inl rfl
    | some tok =>
      refine ite (fun _ => .inl rfl) fun _ => ?_
      exact ⟨rfl, fun _ => ⟨trivial, fun _ => .inr rfl⟩⟩

/-- Every call that does not disconnect stays within its ticket. -/
theorem leads_body (c : DriveCall) (hc : c.isDisconnect = false) (t : Nat) :
    Leads (fun _ g' => Within t g') (.inside t) c.body := by
  cases c with
  | ensureReady req env => exact leads_ensureReady req env (.inl rfl)
  | refreshSession req env => exact leads_refreshSession req env (.inl rfl)
  | upload req env again =>
    refine (leads_refreshSession req env (.inl rfl)).bind ?_
    intro result g hg
    cases result with
    | ok value => exact hg
    | error e => exact leads_ensureReady req again hg
  | status req env => exact leads_status req env (.inl rfl)
  | oauthComplete session answer => exact leads_oauthComplete session answer t
  | disconnect => cases hc

theorem program_obeys (c : DriveCall) : c.program.Obeys Stage.Permits Stage.next .outside := by
  refine ⟨trivial, fun ticket => ?_⟩
  cases hc : c.isDisconnect with
  | true =>
    cases c with
    | disconnect =>
      exact ⟨trivial, fun _ => ⟨trivial, fun _ => ⟨⟨rfl, rfl⟩, fun _ => trivial⟩⟩⟩
    | _ => cases hc
  | false =>
    have hleads : Leads (fun _ _ => True) (.inside ticket)
        (c.body >>= fun result => .call (.finish ticket false) fun _ => .done result) := by
      refine (leads_body c hc ticket).bind ?_
      rintro result g (rfl | rfl)
      · exact ⟨⟨rfl, rfl⟩, fun _ => trivial⟩
      · exact ⟨⟨rfl, rfl⟩, fun _ => trivial⟩
    exact hleads.obeys

/-! ## The invariant -/

/-- A call that disconnects begins when no other call is in progress, and no call begins before it
has returned. -/
def disconnectsAlone (s : Drive) : DriveOp → Bool
  | .start true => s.active = []
  | .start false => !s.alone
  | _ => true

structure Final (s : Drive) : Prop where
  issued : ∀ t ∈ s.active, t < s.next
  files : s.disconnected = true → s.token = none ∧ s.conf = none

variable {s : Drive} {op : DriveOp}

theorem Final.finish (hs : Final s) (ticket : Nat) (disconnect : Bool) :
    Final (DriveOp.exec s (.finish ticket disconnect)).1 :=
  ⟨fun t ht => hs.issued t (mem_of_mem_filter ht), hs.files⟩

/-- Whatever is written while nothing has been disconnected. -/
theorem Final.of_connected (hissued : ∀ t ∈ s.active, t < s.next) (h : s.disconnected = false) :
    Final s :=
  ⟨hissued, fun hd => Bool.noConfusion (h.symm.trans hd)⟩

theorem Final.exec (hs : Final s) (hg : g.Holds s) (hpermits : g.Permits op)
    (hguard : disconnectsAlone s op = true) :
    Final (op.exec s).1 ∧ (g.next op (op.exec s).2).Holds (op.exec s).1 := by
  cases g with
  | outside =>
    cases op with
    | start disconnect =>
      refine ⟨⟨?_, hs.files⟩, ?_⟩
      · intro t ht
        rcases mem_cons.mp ht with rfl | ht
        · exact Nat.lt_succ_self s.next
        · exact Nat.lt_succ_of_lt (hs.issued t ht)
      · cases disconnect with
        | false => exact mem_cons_self
        | true =>
          have hidle : s.active = [] := of_decide_eq_true hguard
          exact ⟨congrArg (s.next :: ·) hidle, Bool.or_true _⟩
    | _ => cases hpermits
  | inside t =>
    cases op with
    | loadToken =>
      refine ⟨hs, ?_⟩
      dsimp only [Stage.next]
      split_ifs with hsome
      · refine ⟨hg, Bool.eq_false_iff.mpr fun hd => ?_⟩
        -- after a disconnection there is no token to load
        have hloaded : (s.token.filter _).isSome = true := hsome
        rw [(hs.files hd).1] at hloaded
        cases hloaded
      · exact hg
    | saveToken td connect =>
      obtain rfl : connect = true := hpermits
      exact ⟨Final.of_connected hs.issued (Bool.and_false _), hg, Bool.and_false _⟩
    | finish ticket disconnect => exact ⟨hs.finish ticket disconnect, trivial⟩
    | lockRefresh | unlockRefresh | exchange => exact ⟨⟨hs.issued, hs.files⟩, hg⟩
    | start _ | writeConfig _ | deleteToken | removeConf => cases hpermits
  | holding t =>
    have hconnected : s.disconnected = false := hg.2
    cases op with
    | saveToken td connect =>
      have hstill : (DriveOp.exec s (.saveToken td connect)).1.disconnected = false :=
        Bool.and_eq_false_imp.mpr fun h => Bool.noConfusion (hconnected.symm.trans h)
      exact ⟨Final.of_connected hs.issued hstill, hg.1, hstill⟩
    | writeConfig td => exact ⟨Final.of_connected hs.issued hconnected, hg⟩
    | finish ticket disconnect => exact ⟨hs.finish ticket disconnect, trivial⟩
    | loadToken | lockRefresh | unlockRefresh | exchange => exact ⟨⟨hs.issued, hs.files⟩, hg⟩
    | start _ | deleteToken | removeConf => cases hpermits
  | removing t =>
    cases op with
    | deleteToken => exact ⟨⟨hs.issued, fun h => ⟨rfl, (hs.files h).2⟩⟩, hg.1, hg.2, rfl⟩
    | _ => cases hpermits
  | removed t =>
    cases op with
    | removeConf => exact ⟨⟨hs.issued, fun _ => ⟨hg.2.2, rfl⟩⟩, hg.1, hg.2.1⟩
    | _ => cases hpermits
  | gone t =>
    cases op with
    | finish ticket disconnect => exact ⟨hs.finish ticket disconnect, trivial⟩
    | _ => cases hpermits

section Others
variable {g g' : Stage} {t : Nat}

theorem Stage.Permits.ticket {disconnect : Bool} (h : g.Permits (.finish t disconnect)) :
    g.ticket = some t := by
  cases g with
  | inside t' | holding t' | gone t' => exact congrArg some h.1.symm
  | outside | removing t' | removed t' => cases h

/-- A call stays in progress while others go on. -/
theorem mem_active_exec (ht : t ∈ s.active) (hpermits : g'.Permits op)
    (hother : g'.ticket ≠ some t) : t ∈ (op.exec s).1.active := by
  cases op with
  | start disconnect => exact mem_cons_of_mem s.next ht
  | finish ticket disconnect =>
    have hne : t ≠ ticket := by
      rintro rfl
      exact hother hpermits.ticket
    exact mem_filter.mpr ⟨ht, decide_eq_true hne⟩
  | _ => exact ht

/-- Nothing happens beside a call that disconnects. -/
theorem none_beside (hactive : s.active = [t]) (halone : s.alone = true)
    (hg' : g'.Holds s) (hpermits : g'.Permits op) (hother : g'.ticket ≠ some t)
    (hguard : disconnectsAlone s op = true) : False := by
  cases hticket : g'.ticket with
  | some t' =>
    have hmem := hg'.mem_active hticket
    rw [hactive, mem_singleton] at hmem
    exact hother (hmem ▸ hticket)
  | none =>
    -- a call that has not begun would have to begin
    cases g' with
    | outside =>
      cases op with
      | start disconnect =>
        cases disconnect with
        | false =>
          rw [disconnectsAlone, halone] at hguard
          cases hguard
        | true =>
          have hidle : s.active = [] := of_decide_eq_true hguard
          rw [hactive] at hidle
          cases hidle
      | _ => cases hpermits
    | _ => cases hticket

/-- Nothing is disconnected while another call is in progress. -/
theorem connected_exec (hmem : t ∈ s.active) (hconnected : s.disconnected = false)
    (hg' : g'.Holds s) (hpermits : g'.Permits op) (hother : g'.ticket ≠ some t) :
    (op.exec s).1.disconnected = false := by
  cases op with
  | saveToken td connect =>
    exact Bool.and_eq_false_imp.mpr fun h => Bool.noConfusion (hconnected.symm.trans h)
  | removeConf =>
    cases g' with
    | removed t' =>
      rw [hg'.1, mem_singleton] at hmem
      exact absurd (congrArg some hmem.symm) hother
    | _ => cases hpermits
  | _ => exact hconnected

theorem Stage.Holds.exec_other (hg : g.Holds s) (hg' : g'.Holds s) (hpermits : g'.Permits op)
    (hguard : disconnectsAlone s op = true) (hapart : Apart Stage.ticket g g') :
    g.Holds (op.exec s).1 := by
  cases g with
  | outside => trivial
  | inside t => exact mem_active_exec hg hpermits (hapart t rfl)
  | holding t =>
    exact ⟨mem_active_exec hg.1 hpermits (hapart t rfl),
      connected_exec hg.1 hg.2 hg' hpermits (hapart t rfl)⟩
  | removed t => exact (none_beside hg.1 hg.2.1 hg' hpermits (hapart t rfl) hguard).elim
  | removing t | gone t => exact (none_beside hg.1 hg.2 hg' hpermits (hapart t rfl) hguard).elim

/-- A ticket is new when it is given to a call. -/
theorem ticket_next (hs : Final s) (hpermits : g.Permits op)
    (ht : (g.next op (op.exec s).2).ticket = some t) :
    g.ticket = some t ∨ ∀ g' : Stage, g'.Holds s → g'.ticket ≠ some t := by
  cases op with
  | start disconnect =>
    have hnext : s.next = t := by
      cases disconnect with
      | false | true => exact Option.some.inj ht
    right
    intro g' hg' ht'
    exact Nat.lt_irrefl t (hnext ▸ hs.issued t (hg'.mem_active ht'))
  | loadToken =>
    left
    cases g with
    | inside t' =>
      have hsame (b : Bool) : (if b then Stage.holding t' else .inside t').ticket = some t' := by
        cases b <;> rfl
      exact (hsame _).symm.trans ht
    | holding t' => exact ht
    | outside | removing t' | removed t' | gone t' => cases hpermits
  | finish ticket disconnect => cases g <;> cases ht
  | _ =>
    left
    cases g <;> exact ht

end Others

/-! ## Runs -/

section Runs
variable {trace : List (Event Drive DriveOp DriveCall)}
  {cfg : Config Drive DriveOp DriveOp.Reply DriveCall (Except DriveError Unit)}

theorem final_of_guarded {token conf : Option TokenData}
    (run : Run (driveSystem.guarded disconnectsAlone) (fun _ => True)
      { token := token, conf := conf } trace cfg) :
    Final cfg.state := by
  have hguard : ∀ (s : Drive) (op : DriveOp),
      (driveSystem.guarded disconnectsAlone).sem.ready s op = true → disconnectsAlone s op = true :=
    fun _ _ ready => (Bool.and_eq_true_iff.mp ready).2
  refine (run.restarts fun _ _ => False).typed (I := Final) Stage.Permits Stage.next
    Stage.Holds Stage.ticket .outside rfl (fun c _ => program_obeys c)
    (Final.of_connected (fun _ h => by cases h) rfl) (fun _ _ _ rebooted => rebooted.elim)
    (fun _ _ => trivial) ?_ ?_ ?_
  · intro g op s ready hs hg hpermits
    exact hs.exec hg hpermits (hguard s op ready)
  · intro g op s t _ hs _ hpermits ht
    exact ticket_next hs hpermits ht
  · intro g g' op s ready _ hg hg' hpermits hapart
    exact hg.exec_other hg' hpermits (hguard s op ready) hapart

/-- If a call that disconnects begins while no other call is in progress, and none begins before it
has returned, the token and the configuration are gone until the next connection. -/
theorem disconnect_is_final (token conf : Option TokenData)
    (run : Run driveSystem (fun _ => True) { token := token, conf := conf } trace cfg)
    (hidle : ∀ e ∈ trace, e.op = .start true → e.before.active = [])
    (hwait : ∀ e ∈ trace, e.op = .start false → e.before.alone = false) :
    cfg.state.disconnected = true → cfg.state.token = none ∧ cfg.state.conf = none := by
  have hguard : ∀ e ∈ trace, disconnectsAlone e.before e.op = true := by
    intro e he
    cases hop : e.op with
    | start disconnect =>
      cases disconnect with
      | false => exact Bool.not_eq_true' _ |>.mpr (hwait e he hop)
      | true => exact decide_eq_true (hidle e he hop)
    | _ => rfl
  exact (final_of_guarded (run.guarded hguard)).files

end Runs

def someToken : Issued := ⟨ascii "access", ascii "refresh", ascii "Bearer", some (2 * year2000)⟩

def anyRequest : Request := ⟨true, true, [], ascii "https://panel/oauth"⟩

/-- A refresh while the token is valid. -/
def noRefresh : Refresh := ⟨year2000, year2000, none⟩

/-- A connection, an upload, and after it a disconnection. -/
def calmCalls : List DriveCall :=
  [.oauthComplete (some (ascii "https://panel/oauth")) (some someToken),
    .upload anyRequest noRefresh noRefresh, .disconnect]

theorem disconnect_is_final_calm :
    (Run.serialRun driveSystem {} calmCalls).2.state.disconnected = true ∧
    (Run.serialRun driveSystem {} calmCalls).2.state.token = none ∧
    (Run.serialRun driveSystem {} calmCalls).2.state.conf = none := by
  have hrun : Run driveSystem (fun _ => True) { token := none, conf := none }
      (Run.serialRun driveSystem {} calmCalls).1 (Run.serialRun driveSystem {} calmCalls).2 :=
    Run.serialRun_run calmCalls (fun _ _ => trivial) (by decide +kernel)
  have hidle : ∀ e ∈ (Run.serialRun driveSystem {} calmCalls).1,
      e.op = .start true → e.before.active = [] := by
    decide +kernel
  have hwait : ∀ e ∈ (Run.serialRun driveSystem {} calmCalls).1,
      e.op = .start false → e.before.alone = false := by
    decide +kernel
  have hgone : (Run.serialRun driveSystem {} calmCalls).2.state.disconnected = true := by
    decide +kernel
  exact ⟨hgone, disconnect_is_final none none hrun hidle hwait hgone⟩

/-- A request loads the token, the panel is disconnected, and the request goes on. -/
def overtaken : List (Run.Choice DriveCall) :=
  [.invoke (.oauthComplete (some (ascii "https://panel/oauth")) (some someToken)),
    .step 0, .step 0, .step 0, .step 0, .step 0,
    .invoke (.ensureReady anyRequest noRefresh), .step 1, .step 1, .step 1,
    .invoke .disconnect, .step 2, .step 2, .step 2, .step 2, .step 1, .step 1]

/-- All calls have returned, the last of those that connect or disconnect did disconnect, and
there is a configuration. -/
theorem configuration_comes_back :
    ∃ trace cfg, Run driveSystem (fun _ => True) {} trace cfg ∧ cfg.state.active = [] ∧
      cfg.state.disconnected = true ∧ cfg.state.conf.isSome = true :=
  Run.exists_scheduled overtaken (fun _ _ => trivial) (by decide +kernel)

end HeyServer.Gdrive
