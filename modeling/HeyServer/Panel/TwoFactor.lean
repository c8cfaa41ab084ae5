import HeyServer.Panel.Steps

/-!
# Two-factor protection

The handlers for the second factor read the user, do other work and then write the
secret and the flag without a condition. While 2FA is enabled, a write that relies on
what is still stored leaves it as it is or belongs to a disable request with a valid
code; one that relies on an older state can turn it off or replace the secret.

## Implementation notes

All calls are covered except the deletion of a user and the bare `UpdateUserTOTP`,
which only the handlers make. No statement inside a transaction touches the two
columns, so a commit publishes them as they were.
-/

namespace HeyServer.Panel
open Lib List Option RowTable

/-- The secret and the flag of a user. -/
def PanelDb.totp (db : PanelDb) (id : Nat) : Option (Bytes × Bool) :=
  (db.users.get? id).map fun row => (row.totpSecret, row.totpEnabled)

/-- Every call but a deletion and the bare update of the two columns. -/
def PanelCall.KeepsUsers : PanelCall → Prop
  | .updateUserTOTP .. | .delete _ => False
  | _ => True

variable (env : Env)

/-- The event is the write of a disable request whose code is valid for the secret. -/
def Disables (id : Nat) (secret : Bytes) (e : PanelEvent) : Prop :=
  ∃ code now, e.call = .totpDisable (some id) code now ∧
    env.verifyTOTP secret code now = some true ∧ e.op = .exec (.updateTotp id [] false now)

variable (e : PanelEvent)

/-- What is enabled stays enabled with its secret, unless its owner disables it. -/
def KeepsTotp : Prop :=
  ∀ id secret, e.before.db.totp id = some (secret, true) →
    (e.after panelSemantics).db.totp id = some (secret, true) ∨ Disables env id secret e

/-- The user whose two columns an operation writes. -/
def totpWrite? : PanelOp → Option Nat
  | .exec (.updateTotp id ..) => some id
  | _ => none

def PanelCall.isSetup : PanelCall → Bool
  | .totpSetup .. => true
  | _ => false

/-- This event reads the user. -/
def readsUser (id : Nat) : Bool :=
  match e.op with
  | .exec (.selectById key) => key = id
  | _ => false

/-- A write while 2FA is enabled comes from a request that has read the stored secret, and
not from a setup request. -/
def Current (earlier : List PanelEvent) (e : PanelEvent) : Prop :=
  ∀ id ∈ totpWrite? e.op, ∀ stored ∈ e.before.db.totp id, stored.2 = true →
    e.call.isSetup = false ∧ ∀ read ∈ earlier, read.id = e.id → readsUser read id = true →
      (read.before.db.totp id).map Prod.fst = some stored.1

instance (earlier : List PanelEvent) (e : PanelEvent) : Decidable (Current earlier e) :=
  inferInstanceAs (Decidable (∀ id ∈ totpWrite? e.op, ∀ stored ∈ e.before.db.totp id, _))

/-! ## The two columns -/

namespace PanelDb

theorem totp_update (db : PanelDb) {p : Nat → UserRow → Bool} {f : UserRow → UserRow}
    (hf : ∀ row, (f row).totpSecret = row.totpSecret ∧ (f row).totpEnabled = row.totpEnabled)
    (id : Nat) :
    PanelDb.totp { db with users := db.users.update p f } id = db.totp id := by
  rw [totp, totp, RowTable.get?_update, Option.map_map]
  congr 1
  funext row
  by_cases hp : p id row = true
  · simp [hp, hf]
  · simp [hp]

variable {db : PanelDb}

theorem totp_insertUser {id : Nat} {x : Bytes × Bool} (h : db.totp id = some x)
    (email name password role : Bytes) (now : Nat) :
    (db.insertUser email name password role now).1.totp id = some x := by
  fun_cases insertUser db email name password role now
  case case3 =>
    obtain ⟨row, hget, hrow⟩ := map_eq_some_iff.mp h
    have hle := get?_le_seq hget
    rw [totp, get?_insert, if_neg (by omega), hget, map_some, hrow]
  all_goals exact h

/-- Only an update of the two columns and a deletion change them. -/
theorem totp_exec {id : Nat} {x : Bytes × Bool} (h : db.totp id = some x) {stmt : Stmt}
    (hwrite : ∀ key secret enabled now, stmt ≠ .updateTotp key secret enabled now)
    (hdelete : ∀ key, stmt ≠ .deleteUser key) : (db.exec stmt).1.totp id = some x := by
  cases stmt with
  | insertUser email name password role now => exact totp_insertUser h email name password role now
  | updateProfile key email name role now =>
    rw [exec]
    fun_cases updateProfile db key email name role now
    case case4 =>
      refine (totp_update db ?_ id).trans h
      exact fun _ => ⟨rfl, rfl⟩
    all_goals exact h
  | updatePassword key hash now =>
    refine (totp_update db ?_ id).trans h
    exact fun _ => ⟨rfl, rfl⟩
  | updateTotp key secret enabled now => exact absurd rfl (hwrite key secret enabled now)
  | deleteUser key => exact absurd rfl (hdelete key)
  | insertCode userId hash now =>
    rw [exec, insertCode]
    split_ifs
    · exact h
    · exact h
  | _ => exact h

theorem totp_updateTotp (db : PanelDb) (id key : Nat) (secret : Bytes) (enabled : Bool)
    (now : Nat) :
    (db.exec (.updateTotp key secret enabled now)).1.totp id =
      if id = key then (db.totp id).map fun _ => (secret, enabled) else db.totp id := by
  change ((db.users.update (fun k _ => k = key) _).get? id).map _ = _
  rw [RowTable.get?_update, totp, Option.map_map]
  simp only [decide_eq_true_eq]
  split_ifs
  · rw [Option.map_map]
    rfl
  · rfl

end PanelDb

/-! ## What a handler writes -/

/-- A handler writes the two columns of the user it has read: a verify request the secret it
has read, a disable request only with a code that is valid for that secret. -/
def WritesRead (c : PanelCall) (own : List (PanelState × PanelOp)) (op : PanelOp) : Prop :=
  ∀ id secret enabled now, op = .exec (.updateTotp id secret enabled now) →
    ∃ s row, (s, .exec (.selectById id)) ∈ own ∧ s.db.totp id = some row ∧
      match c with
      | .totpSetup .. => True
      | .totpVerify .. => secret = row.1 ∧ enabled = true
      | .totpDisable user code at_ => user = some id ∧ env.verifyTOTP row.1 code at_ = some true ∧
          secret = [] ∧ enabled = false ∧ now = at_
      | _ => False

section Handlers
variable {env : Env} {c : PanelCall} {own : List (PanelState × PanelOp)} {id now : Nat}

/-- The handlers start with a read of the user. -/
theorem follows_selectById {next : Option (Nat × UserRow) → PanelM HandlerResult}
    (hnone : ∀ own, (next none).Follows panelSemantics (WritesRead env c) own)
    (hsome : ∀ s key row, s.db.totp id = some (row.totpSecret, row.totpEnabled) →
      (next (some (key, row))).Follows panelSemantics (WritesRead env c)
        [(s, .exec (.selectById id))]) :
    (issue (.exec (.selectById id)) >>= next).Follows panelSemantics (WritesRead env c) [] := by
  refine ⟨nofun, fun s => ?_⟩
  change (next (s.db.exec (.selectById id)).2).Follows _ _ _
  cases hfound : (s.db.exec (.selectById id)).2 with
  | none => exact hnone _
  | some found =>
    obtain ⟨hget, hkey, -⟩ := first?_eq_some hfound
    refine hsome s found.1 found.2 ?_
    rw [← of_decide_eq_true hkey, PanelDb.totp, hget]
    rfl

theorem follows_updateUserTOTP {α : Type} {secret : Bytes} {enabled : Bool}
    {next : Except RepoError Unit → PanelM α}
    (hwrite : WritesRead env c own (.exec (.updateTotp id secret enabled now)))
    (hnext : ∀ own, (next (.ok ())).Follows panelSemantics (WritesRead env c) own) :
    (updateUserTOTP id secret enabled now >>= next).Follows panelSemantics (WritesRead env c) own :=
  ⟨hwrite, fun _ => hnext _⟩

/-- Storing new recovery codes does not touch the two columns. -/
theorem follows_saveRecoveryCodes (codes : List (Bytes × Bytes))
    {next : Except RepoError Unit → PanelM HandlerResult}
    (hnext : ∀ saved, ∃ v, next saved = .done v)
    (own : List (PanelState × PanelOp)) :
    (saveRecoveryCodes env id codes now >>= next).Follows panelSemantics
    (WritesRead env c) own := by
  have hissues : (saveRecoveryCodes env id codes now >>= next).Issues
      (PanelCall.May (.saveRecoveryCodes id codes now)) := by
    refine Prog.Issues.bind (issues_saveRecoveryCodes env codes trivial fun _ =>
      trivial) fun saved => ?_
    obtain ⟨v, hv⟩ := hnext saved
    rw [hv]
    trivial
  refine hissues.follows ?_ own
  rintro own op hmay id secret enabled now rfl
  exact hmay.elim

theorem follows_handleTOTPSetup (bodyEmpty : Bool) (user : Option Nat)
    (generated : Option TotpSetup)
    (now : Nat) : (handleTOTPSetup env bodyEmpty user generated now).Follows panelSemantics
      (WritesRead env (.totpSetup bodyEmpty user generated now)) [] := by
  refine .ite trivial ?_
  cases user with
  | none => trivial
  | some id =>
    refine follows_selectById (fun _ => trivial) fun s key row hrow => ?_
    refine .ite trivial ?_
    cases generated with
    | none => trivial
    | some setup =>
      refine follows_updateUserTOTP ?_ fun own => ?_
      · rintro _ _ _ _ ⟨⟩
        exact ⟨s, _, mem_singleton_self _, hrow, trivial⟩
      · refine follows_saveRecoveryCodes setup.recoveryCodes ?_ own
        intro saved
        cases saved with
        | error | ok => exact ⟨_, rfl⟩

theorem follows_handleTOTPVerify (user : Option Nat) (code : Bytes) (now : Nat) :
    (handleTOTPVerify env user code now).Follows panelSemantics
      (WritesRead env (.totpVerify user code now)) [] := by
  cases user with
  | none => trivial
  | some id =>
    refine .ite trivial ?_
    refine follows_selectById (fun _ => trivial) fun s key row hrow => ?_
    refine .ite trivial ?_
    split
    · trivial
    · trivial
    · refine follows_updateUserTOTP ?_ fun _ => trivial
      rintro _ _ _ _ ⟨⟩
      exact ⟨s, _, mem_singleton_self _, hrow, rfl, rfl⟩

theorem follows_handleTOTPDisable (user : Option Nat) (code : Bytes) (now : Nat) :
    (handleTOTPDisable env user code now).Follows panelSemantics
      (WritesRead env (.totpDisable user code now)) [] := by
  cases user with
  | none => trivial
  | some id =>
    refine .ite trivial ?_
    refine follows_selectById (fun _ => trivial) fun s key row hrow => ?_
    refine .ite trivial ?_
    split
    · next hvalid =>
      refine follows_updateUserTOTP ?_ fun _ => trivial
      rintro _ _ _ _ ⟨⟩
      exact ⟨s, _, mem_singleton_self _, hrow, rfl, hvalid, rfl, rfl, rfl⟩
    · trivial

end Handlers

theorem writesRead_program (c : PanelCall) (hc : c.KeepsUsers) :
    (c.program env).Follows panelSemantics (WritesRead env c) [] := by
  cases c with
  | updateUserTOTP | delete => exact hc.elim
  | totpSetup bodyEmpty user generated now =>
    exact (follows_handleTOTPSetup bodyEmpty user generated now).map
  | totpVerify user code now => exact (follows_handleTOTPVerify user code now).map
  | totpDisable user code now => exact (follows_handleTOTPDisable user code now).map
  | _ =>
    refine (issues_program env _).follows ?_ []
    rintro own op hmay id secret enabled now rfl
    exact hmay.elim

/-! ## Runs -/

/-- Whoever has the two columns has them unchanged in the second database. -/
def PanelDb.SameTotp (db db' : PanelDb) : Prop :=
  ∀ id x, db.totp id = some x → db'.totp id = some x

theorem not_deleteUser_of_may {c : PanelCall} (hc : c.KeepsUsers) {stmt : Stmt} (h : c.MayStmt stmt)
    (id : Nat) : stmt ≠ .deleteUser id := by
  rintro rfl
  cases c with
  | delete id => exact hc
  | _ => exact h

section Runs
variable {env : Env} {db : PanelDb} {trace : List PanelEvent} {cfg : PanelConfig}

section
variable {earlier later : List PanelEvent} {e : PanelEvent}
  (run : PanelRun env PanelCall.KeepsUsers ⟨db, none, 0⟩ trace cfg)
  (h : trace = earlier ++ e :: later)
include run h

theorem copies_sameTotp : e.before.Copies PanelDb.SameTotp ∧ e.call.KeepsUsers ∧
    e.call.May e.op := by
  refine run.history_before (P := fun c op => c.KeepsUsers ∧ c.May op)
    (J := fun _ s => s.Copies PanelDb.SameTotp) ?_ nofun ?_ h
  · intro c hc
    exact (issues_program env c).mono fun op hop => ⟨hc, hop⟩
  · rintro _ ⟨number, c, op, s⟩ ⟨hc, hmay⟩ hready hcopies
    refine hcopies.exec (fun _ _ _ h => h) hready ?_
    rintro tx stmt rfl d copy hsame id x hx
    refine PanelDb.totp_exec (hsame id x hx) ?_ (not_deleteUser_of_may hc hmay.1)
    rintro key secret enabled now rfl
    exact hmay.2

/-- An operation other than a write of the two columns keeps them. -/
theorem sameTotp_after
    (hwrite : ∀ id secret enabled now, e.op ≠ .exec (.updateTotp id secret enabled now)) :
    e.before.db.SameTotp (e.after panelSemantics).db := by
  obtain ⟨hcopies, hc, hmay⟩ := copies_sameTotp run h
  refine hcopies.published (fun _ _ _ h => h) ?_
  intro stmt hop id x hx
  rw [hop] at hmay
  refine PanelDb.totp_exec hx ?_ (not_deleteUser_of_may hc hmay)
  rintro key secret enabled now rfl
  exact hwrite key secret enabled now hop

end

/-- From any user table, in every interleaving of calls whose writes are current: a user's
2FA stays enabled with its secret until a disable request with a code that is valid for that
secret is processed. -/
theorem two_factor_kept (run : PanelRun env PanelCall.KeepsUsers ⟨db, none, 0⟩ trace cfg)
    (hcurrent : AtEach Current trace) : ∀ e ∈ trace, KeepsTotp env e := by
  intro e he id secret hbefore
  obtain ⟨earlier, later, hsplit⟩ := append_of_mem he
  by_cases hwrite : ∀ id secret enabled now, e.op ≠ .exec (.updateTotp id secret enabled now)
  · exact .inl (sameTotp_after run hsplit hwrite id _ hbefore)
  push Not at hwrite
  obtain ⟨key, newSecret, enabled, now, hop⟩ := hwrite
  have hafter : (e.after panelSemantics).db.totp id =
      (e.before.db.exec (.updateTotp key newSecret enabled now)).1.totp id := by
    rw [Event.after, hop]
    rfl
  rw [hafter, PanelDb.totp_updateTotp]
  by_cases hid : id = key
  · subst hid
    rw [if_pos rfl, hbefore, map_some]
    obtain ⟨hsetup, hreads⟩ := hcurrent earlier e later hsplit id (by rw [hop]; rfl) _ hbefore rfl
    have hfollows := (run.follows (P := WritesRead env)
      (fun c hc => writesRead_program env c hc) hsplit).1
    obtain ⟨s, row, hown, hrow, hcall⟩ := hfollows id newSecret enabled now hop
    obtain ⟨read, hmem, hread, rfl, hreadOp⟩ := mem_ownSteps.mp hown
    have hsecret : row.1 = secret := by
      have hsame := hreads read hmem hread (by rw [readsUser, hreadOp]; exact decide_eq_true rfl)
      rw [hrow] at hsame
      exact some.inj hsame
    cases hkind : e.call with
    | totpSetup bodyEmpty user generated at_ =>
      rw [hkind] at hsetup
      cases hsetup
    | totpVerify user code at_ =>
      rw [hkind] at hcall
      obtain ⟨rfl, rfl⟩ := hcall
      exact .inl (by rw [hsecret])
    | totpDisable user code at_ =>
      rw [hkind] at hcall
      obtain ⟨rfl, hvalid, rfl, rfl, rfl⟩ := hcall
      exact .inr ⟨code, now, hkind, hsecret ▸ hvalid, hop⟩
    | _ =>
      rw [hkind] at hcall
      exact hcall.elim
  · rw [if_neg hid]
    exact .inl hbefore

end Runs

/-! ## A setup that overlaps a verification -/

def factorOwner : UserRow :=
  ⟨ascii "ops@example.com", ascii "Ops", ascii "h", .admin, ascii "000000", false, 0, 0⟩

/-- A user whose 2FA is set up and not yet enabled; with `plainEnv` the code is the secret. -/
def setUpDb : PanelDb := ⟨RowTable.empty.insert factorOwner, RowTable.empty⟩

def newSetup : TotpSetup := ⟨ascii "111111", []⟩

/-- 2FA is enabled, a new setup and a wrong code are refused, the right code disables it. -/
def orderedRequests : List PanelCall :=
  [.totpVerify (some 1) (ascii "000000") 1, .totpSetup true (some 1) (some newSetup) 2,
    .totpDisable (some 1) (ascii "111111") 3, .totpDisable (some 1) (ascii "000000") 4]

def orderedRun : List PanelEvent × PanelConfig :=
  Run.serialRun (panelSystem plainEnv) ⟨setUpDb, none, 0⟩ orderedRequests

theorem orderedRun_run :
    PanelRun plainEnv PanelCall.KeepsUsers ⟨setUpDb, none, 0⟩ orderedRun.1 orderedRun.2 := by
  refine Run.serialRun_run orderedRequests ?_ (by decide +kernel)
  simp [orderedRequests, PanelCall.KeepsUsers]

theorem two_factor_kept_ordered :
    AtEach Current orderedRun.1 ∧
      (orderedRun.1.map fun e => e.before.db.totp 1) =
        [some (ascii "000000", false), some (ascii "000000", false), some (ascii "000000", true),
          some (ascii "000000", true), some (ascii "000000", true), some (ascii "000000", true)] ∧
      ∀ e ∈ orderedRun.1, KeepsTotp plainEnv e := by
  have hcurrent : AtEach Current orderedRun.1 := by decide +kernel
  exact ⟨hcurrent, by decide +kernel, two_factor_kept orderedRun_run hcurrent⟩

/-- The setup request reads the user, 2FA is enabled, and the setup request writes. -/
def overlapChoices : List (Run.Choice PanelCall) :=
  [.invoke (.totpSetup true (some 1) (some newSetup) 1),
    .invoke (.totpVerify (some 1) (ascii "000000") 1), .step 0, .step 1, .step 1, .step 0]

/-- The event turns 2FA off, and no disable request has been made. -/
def turnsOff : Bool :=
  e.call.isSetup && e.before.db.totp 1 == some (ascii "000000", true) &&
    (e.after panelSemantics).db.totp 1 == some (ascii "111111", false)

theorem not_keepsTotp_of_turnsOff {env : Env} {e : PanelEvent} (h : turnsOff e = true) :
    ¬ KeepsTotp env e := by
  intro hkeeps
  rw [turnsOff, Bool.and_eq_true, Bool.and_eq_true, beq_iff_eq, beq_iff_eq] at h
  obtain ⟨⟨hsetup, hbefore⟩, hafter⟩ := h
  rcases hkeeps 1 _ hbefore with hkept | ⟨code, now, hcall, -⟩
  · rw [hafter] at hkept
    cases hkept
  · rw [hcall] at hsetup
    cases hsetup

theorem two_factor_lost :
    ∃ trace cfg, PanelRun plainEnv PanelCall.KeepsUsers ⟨setUpDb, none, 0⟩ trace cfg ∧
      ∃ e ∈ trace, ¬ KeepsTotp plainEnv e := by
  obtain ⟨trace, cfg, run, e, he, hoff⟩ : ∃ trace cfg, PanelRun plainEnv PanelCall.KeepsUsers
      ⟨setUpDb, none, 0⟩ trace cfg ∧ ∃ e ∈ trace, turnsOff e = true :=
    Run.exists_scheduled overlapChoices (by simp [overlapChoices, PanelCall.KeepsUsers])
      (by decide +kernel)
  exact ⟨trace, cfg, run, e, he, not_keepsTotp_of_turnsOff hoff⟩

end HeyServer.Panel
