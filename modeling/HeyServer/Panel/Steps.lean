import HeyServer.Panel.Handlers

/-!
# The statements of each call

For each call of the panel the statements it can issue, inside a transaction or
outside. Everything that is said of a column or a table later starts from here.
-/

namespace HeyServer.Panel
open Lib Prog Issues

theorem issues_issue {P : PanelOp → Prop} (op : PanelOp) (h : P op) : (issue op).Issues P :=
  ⟨h, fun _ => trivial⟩

/-- The statement can be one of this call. -/
def PanelCall.MayStmt : PanelCall → Stmt → Prop
  | .create .., .insertUser .. => True
  | .update .., .updateProfile .. | .update .., .selectRole _ => True
  | .updateWithPassword .., .updateProfile .. | .updateWithPassword .., .selectRole _
  | .updateWithPassword .., .updatePassword .. => True
  | .updatePassword .., .updatePassword .. => True
  | .updateUserTOTP .., .updateTotp .. => True
  | .delete _, .deleteUser _ | .delete _, .selectRole _ => True
  | .saveRecoveryCodes .., .deleteCodes _ | .saveRecoveryCodes .., .insertCode .. => True
  | .useRecoveryCode .., .selectUnused _ | .useRecoveryCode .., .markUsed .. => True
  | .totpSetup .., .selectById _ | .totpSetup .., .updateTotp .. | .totpSetup .., .deleteCodes _
  | .totpSetup .., .insertCode .. => True
  | .totpVerify .., .selectById _ | .totpVerify .., .updateTotp .. => True
  | .totpDisable .., .selectById _ | .totpDisable .., .updateTotp .. => True
  | .login .., .selectByEmail _ | .totpLogin .., .selectByEmail _ => True
  | .recoveryLogin .., .selectByEmail _ | .recoveryLogin .., .selectUnused _
  | .recoveryLogin .., .markUsed .. => True
  | _, _ => False

/-- The statements that are issued inside transactions. -/
def Stmt.InTx : Stmt → Prop
  | .updateProfile .. | .updatePassword .. | .selectRole _ | .deleteUser _ | .deleteCodes _
  | .insertCode .. => True
  | _ => False

/-- The operation can be one of this call. -/
def PanelCall.May (c : PanelCall) : PanelOp → Prop
  | .exec stmt => c.MayStmt stmt
  | .txExec _ stmt => c.MayStmt stmt ∧ stmt.InTx
  | _ => True

variable {c : PanelCall}

theorem may_exec {stmt : Stmt} (h : c.MayStmt stmt) : c.May (.exec stmt) := h

theorem may_txExec {tx : Nat} {stmt : Stmt} (h : c.MayStmt stmt) (htx : stmt.InTx) :
    c.May (.txExec tx stmt) :=
  ⟨h, htx⟩

/-- A transaction issues what its statements issue. -/
theorem issues_tx {α : Type} {p : Nat → PanelM (Except RepoError α)}
    (hp : ∀ tx, (p tx).Issues c.May) :
    Prog.Issues c.May (do
      let tx ← issue .begin
      let result ← p tx
      finishTx tx result) := by
  refine (issues_issue .begin trivial).bind fun tx => (hp tx).bind fun result => ?_
  cases result with
  | error e => exact (issues_issue (.rollback tx) trivial).bind fun _ => trivial
  | ok a => exact (issues_issue (.commit tx) trivial).bind fun _ => trivial

section Statements
variable {P : PanelOp → Prop} {tx : Nat}

theorem issues_updateStatements {u : UserArg} {hash : Option Bytes} {now : Nat}
    (hprofile : P (.txExec tx (.updateProfile u.id u.email u.name u.role now)))
    (hrole : P (.txExec tx (.selectRole u.id)))
    (hpassword : ∀ text ∈ hash, P (.txExec tx (.updatePassword u.id text now))) :
    (updateStatements tx u hash now).Issues P := by
  refine (issues_issue _ hprofile).bind fun result => ?_
  cases result with
  | error e => trivial
  | ok changed =>
    dsimp only
    split_ifs
    · exact (issues_issue _ hrole).bind fun _ => trivial
    · cases hash with
      | none => trivial
      | some text => exact (issues_issue _ (hpassword text rfl)).bind fun _ => trivial

theorem issues_deleteStatements {id : Nat} (hdelete : P (.txExec tx (.deleteUser id)))
    (hrole : P (.txExec tx (.selectRole id))) : (deleteStatements tx id).Issues P := by
  refine (issues_issue _ hdelete).bind fun changed => ?_
  split_ifs
  · exact (issues_issue _ hrole).bind fun _ => trivial
  · trivial

theorem issues_insertCodes (env : Env) {userId now : Nat}
    (hinsert : ∀ hash, P (.txExec tx (.insertCode userId hash now)))
    (codes : List (Bytes × Bytes)) : (insertCodes env tx userId now codes).Issues P := by
  induction codes with
  | nil => trivial
  | cons code codes ih =>
    rw [insertCodes]
    cases env.hashPassword code.1 code.2 with
    | none => trivial
    | some hash =>
      refine (issues_issue _ (hinsert hash)).bind fun result => ?_
      cases result with
      | error e => trivial
      | ok key => exact ih

end Statements

/-- The statements of `SaveRecoveryCodes`. -/
def saveStatements (env : Env) (tx userId : Nat) (codes : List (Bytes × Bytes)) (now : Nat) :
    PanelM (Except RepoError Unit) := do
  let _ ← issue (.txExec tx (.deleteCodes userId))
  insertCodes env tx userId now codes

theorem saveRecoveryCodes_eq (env : Env) (userId : Nat) (codes : List (Bytes × Bytes)) (now : Nat) :
    saveRecoveryCodes env userId codes now = (do
      let tx ← issue .begin
      let result ← saveStatements env tx userId codes now
      finishTx tx result) := by
  simp only [saveRecoveryCodes, saveStatements, bind_assoc]

theorem issues_saveStatements {P : PanelOp → Prop} (env : Env) {tx userId now : Nat}
    (hdelete : P (.txExec tx (.deleteCodes userId)))
    (hinsert : ∀ hash, P (.txExec tx (.insertCode userId hash now)))
    (codes : List (Bytes × Bytes)) : (saveStatements env tx userId codes now).Issues P :=
  (issues_issue _ hdelete).bind fun _ => issues_insertCodes env hinsert codes

section Calls
variable {c : PanelCall} (env : Env)

theorem issues_updateWithPassword {u : UserArg} {plain : Option Bytes} {salt : Bytes} {now : Nat}
    (hprofile : c.MayStmt (.updateProfile u.id u.email u.name u.role now))
    (hrole : c.MayStmt (.selectRole u.id))
    (hpassword : plain ≠ none → ∀ text, c.MayStmt (.updatePassword u.id text now)) :
    (updateWithPassword env u plain salt now).Issues c.May := by
  rw [updateWithPassword]
  cases hhash : hashOptional env salt plain with
  | error e => trivial
  | ok hash =>
    refine issues_tx fun tx =>
      issues_updateStatements (may_txExec hprofile trivial) (may_txExec hrole trivial) ?_
    rintro text htext
    obtain rfl := Option.mem_def.mp htext
    refine may_txExec (hpassword ?_ text) trivial
    rintro rfl
    cases hhash

theorem issues_saveRecoveryCodes {userId now : Nat} (codes : List (Bytes × Bytes))
    (hdelete : c.MayStmt (.deleteCodes userId))
    (hinsert : ∀ hash, c.MayStmt (.insertCode userId hash now)) :
    (saveRecoveryCodes env userId codes now).Issues c.May := by
  rw [saveRecoveryCodes_eq]
  exact issues_tx fun tx =>
    issues_saveStatements env (may_txExec hdelete trivial)
      (fun hash => may_txExec (hinsert hash) trivial) codes

theorem issues_useRecoveryCode {userId now : Nat} (code : Bytes)
    (hselect : c.MayStmt (.selectUnused userId)) (hmark : ∀ id, c.MayStmt (.markUsed id now)) :
    (useRecoveryCode env userId code now).Issues c.May := by
  refine (issues_issue _ (may_exec hselect)).bind fun candidates => ?_
  cases matchingCode env code candidates with
  | none => trivial
  | some found => exact (issues_issue _ (may_exec (hmark found.1))).bind fun _ => trivial

theorem issues_updateUserTOTP {id now : Nat} {secret : Bytes} {enabled : Bool}
    (h : c.MayStmt (.updateTotp id secret enabled now)) :
    (updateUserTOTP id secret enabled now).Issues c.May :=
  (issues_issue _ (may_exec h)).bind fun _ => trivial

theorem issues_withUser {email password : Bytes} {next : Nat → UserRow → PanelM HandlerResult}
    (hselect : c.MayStmt (.selectByEmail email)) (hnext : ∀ id user, (next id user).Issues c.May) :
    (withUser env email password next).Issues c.May := by
  refine (issues_issue _ (may_exec hselect)).bind fun found => ?_
  cases found with
  | none => trivial
  | some found =>
    dsimp only
    split_ifs
    · trivial
    · exact hnext _ _

theorem issues_issueToken {P : PanelOp → Prop} (signed : Bool) (id : Nat) :
    (issueToken signed id).Issues P := by
  rw [issueToken]
  split_ifs
  · trivial
  · trivial

end Calls

variable (env : Env)

theorem issues_handleTOTPSetup (bodyEmpty : Bool) (user : Option Nat)
    (generated : Option TotpSetup) (now : Nat) :
    (handleTOTPSetup env bodyEmpty user generated now).Issues
      (PanelCall.May (.totpSetup bodyEmpty user generated now)) := by
  refine ite trivial ?_
  cases user with
  | none => trivial
  | some id =>
    refine bind (issues_issue _ (may_exec trivial)) fun found => ?_
    cases found with
    | none => trivial
    | some found =>
      refine ite trivial ?_
      cases generated with
      | none => trivial
      | some setup =>
        refine bind (issues_updateUserTOTP trivial) fun stored => ?_
        cases stored with
        | error e => trivial
        | ok stored =>
          refine bind (issues_saveRecoveryCodes env _ trivial fun _ => trivial)
            fun saved => ?_
          cases saved <;> trivial

theorem issues_handleTOTPVerify (user : Option Nat) (code : Bytes) (now : Nat) :
    (handleTOTPVerify env user code now).Issues (PanelCall.May (.totpVerify user code now)) := by
  cases user with
  | none => trivial
  | some id =>
    refine ite trivial ?_
    refine bind (issues_issue _ (may_exec trivial)) fun found => ?_
    cases found with
    | none => trivial
    | some found =>
      refine ite trivial ?_
      split
      · trivial
      · trivial
      · refine bind (issues_updateUserTOTP trivial) fun stored => ?_
        cases stored <;> trivial

theorem issues_handleTOTPDisable (user : Option Nat) (code : Bytes) (now : Nat) :
    (handleTOTPDisable env user code now).Issues (PanelCall.May (.totpDisable user code now)) := by
  cases user with
  | none => trivial
  | some id =>
    refine ite trivial ?_
    refine bind (issues_issue _ (may_exec trivial)) fun found => ?_
    cases found with
    | none => trivial
    | some found =>
      refine ite trivial ?_
      split
      · refine bind (issues_updateUserTOTP trivial) fun stored => ?_
        cases stored <;> trivial
      · trivial

theorem issues_handleTOTPRecovery (req : Credentials) (signed : Bool) (now : Nat) :
    (handleTOTPRecovery env req signed now).Issues
      (PanelCall.May (.recoveryLogin req signed now)) := by
  refine ite trivial (ite trivial (issues_withUser env trivial fun id user => ?_))
  refine ite trivial ?_
  refine bind (issues_useRecoveryCode env _ trivial fun _ => trivial) fun ok => ?_
  exact ite trivial (issues_issueToken signed id)

/-- Every call issues its own statements only. -/
theorem issues_program (c : PanelCall) : (c.program env).Issues c.May := by
  cases c with
  | create u now => exact map (bind (issues_issue _ (may_exec trivial)) fun _ => trivial)
  | update u now =>
    exact map (issues_updateWithPassword env trivial trivial fun h => absurd rfl h)
  | updateWithPassword u plain salt now =>
    exact map (issues_updateWithPassword env trivial trivial fun _ _ => trivial)
  | updatePassword id plain salt now =>
    refine map ?_
    rw [updatePassword]
    cases env.hashPassword plain salt with
    | none => trivial
    | some hash => exact bind (issues_issue _ (may_exec trivial)) fun _ => trivial
  | updateUserTOTP id secret enabled now => exact map (issues_updateUserTOTP trivial)
  | delete id =>
    exact map (issues_tx fun tx =>
      issues_deleteStatements (may_txExec trivial trivial) (may_txExec trivial trivial))
  | saveRecoveryCodes userId codes now =>
    exact map (issues_saveRecoveryCodes env codes trivial fun _ => trivial)
  | useRecoveryCode userId code now =>
    exact map (issues_useRecoveryCode env code trivial fun _ => trivial)
  | totpSetup bodyEmpty user generated now =>
    exact map (issues_handleTOTPSetup env bodyEmpty user generated now)
  | totpVerify user code now => exact map (issues_handleTOTPVerify env user code now)
  | totpDisable user code now => exact map (issues_handleTOTPDisable env user code now)
  | login req signed =>
    refine map ?_
    refine ite trivial (ite trivial (issues_withUser env trivial fun id user => ?_))
    exact ite trivial (issues_issueToken signed id)
  | totpLogin req signed now =>
    refine map ?_
    refine ite trivial (ite trivial (ite trivial
      (issues_withUser env trivial fun id user => ?_)))
    exact ite (issues_issueToken signed id)
      (ite (issues_issueToken signed id) trivial)
  | recoveryLogin req signed now => exact map (issues_handleTOTPRecovery env req signed now)

end HeyServer.Panel
