import HeyServer.Panel.Steps

/-!
# The last administrator

The guards in the update and the deletion of a user keep an administrator in the
table, whatever statements and transactions run in between. A call that is refused
publishes nothing.

## Implementation notes

The invariant is proved for single statements; `DbState.Holds` carries it to the
published table and to the working copy of an open transaction.
-/

namespace HeyServer.Panel
open Lib RowTable

/-- Some user is an administrator. -/
def PanelDb.HasAdmin (db : PanelDb) : Prop :=
  ∃ id row, db.users.get? id = some row ∧ row.role = .admin

namespace PanelDb

variable {db : PanelDb}

theorem otherAdmin_iff {id : Nat} : db.otherAdmin id = true ↔
      ∃ other row, db.users.get? other = some row ∧ row.role = .admin ∧ other ≠ id := by
  simp only [otherAdmin, List.any_eq_true, Bool.and_eq_true, decide_eq_true_eq]
  constructor
  · rintro ⟨⟨other, row⟩, hmem, hrole, hne⟩
    exact ⟨other, row, mem_rows.mp hmem, hrole, hne⟩
  · rintro ⟨other, row, hget, hrole, hne⟩
    exact ⟨(other, row), mem_rows.mpr hget, hrole, hne⟩

variable {f : UserRow → UserRow}

/-- There is an administrator after an update that leaves every administrator it names one,
or leaves another one alone. -/
theorem hasAdmin_update {users : RowTable UserRow} {codes codes' : RowTable RecoveryCodeRow}
    (h : HasAdmin ⟨users, codes⟩) {p : Nat → UserRow → Bool}
    (hkeep : ∀ id row, users.get? id = some row → row.role = .admin → p id row = true →
      (f row).role = .admin ∨
        ∃ other row', users.get? other = some row' ∧ row'.role = .admin ∧ p other row' = false) :
    HasAdmin ⟨users.update p f, codes'⟩ := by
  have hspared : ∀ id row, users.get? id = some row → row.role = .admin → p id row = false →
      HasAdmin ⟨users.update p f, codes'⟩ := by
    intro id row hget hrole hp
    refine ⟨id, row, ?_, hrole⟩
    rw [get?_update, hget, Option.map_some, hp]
    rfl
  obtain ⟨id, row, hget, hrole⟩ := h
  cases hp : p id row with
  | false => exact hspared id row hget hrole hp
  | true =>
    rcases hkeep id row hget hrole hp with hnew | ⟨other, row', hother, hrole', hp'⟩
    · refine ⟨id, f row, ?_, hnew⟩
      rw [get?_update, hget, Option.map_some, hp]
      rfl
    · exact hspared other row' hother hrole' hp'

section
variable (h : db.HasAdmin)
include h

theorem hasAdmin_updateProfile (id : Nat) (email name role : Bytes) (now : Nat) :
    (db.updateProfile id email name role now).1.HasAdmin := by
  fun_cases updateProfile db id email name role now
  case case4 hrole _ =>
    refine hasAdmin_update h ?_
    intro key row _ hadmin hmay
    -- the guard: the new role is `admin`, or there is another administrator
    simp only [mayUpdate, hadmin, ne_eq, not_true_eq_false, decide_false, Bool.false_or,
      Bool.and_eq_true, Bool.or_eq_true, decide_eq_true_eq] at hmay
    rcases hmay with ⟨-, rfl | hother⟩
    · have hadmin : Role.ofText Role.admin.text = some .admin := by decide
      exact .inl (Option.some.inj (hrole.symm.trans hadmin))
    · obtain ⟨other, row', hget, hrole', hne⟩ := otherAdmin_iff.mp hother
      exact .inr ⟨other, row', hget, hrole', by simp [mayUpdate, hne]⟩
  all_goals exact h

theorem hasAdmin_deleteUser (id : Nat) : (db.deleteUser id).1.HasAdmin := by
  have hspared : ∀ key row, db.users.get? key = some row → row.role = .admin →
      db.mayDelete id key row = false → (db.deleteUser id).1.HasAdmin := by
    intro key row hget hrole hmay
    refine ⟨key, row, ?_, hrole⟩
    change (db.users.delete (db.mayDelete id)).get? key = some row
    rw [get?_delete, hget, Option.filter_some, hmay]
    rfl
  obtain ⟨key, row, hget, hrole⟩ := h
  cases hmay : db.mayDelete id key row with
  | false => exact hspared key row hget hrole hmay
  | true =>
    simp only [mayDelete, hrole, ne_eq, not_true_eq_false, decide_false, Bool.false_or,
      Bool.and_eq_true] at hmay
    obtain ⟨other, row', hother, hrole', hne⟩ := otherAdmin_iff.mp hmay.2
    exact hspared other row' hother hrole' (by simp [mayDelete, hne])

theorem hasAdmin_insertUser (email name password role : Bytes)
    (now : Nat) : (db.insertUser email name password role now).1.HasAdmin := by
  fun_cases insertUser db email name password role now
  case case3 =>
    obtain ⟨id, row, hget, hrole⟩ := h
    refine ⟨id, row, ?_, hrole⟩
    have hle := get?_le_seq hget
    rw [get?_insert, if_neg (by omega), hget]
  all_goals exact h

end

/-- No statement takes the last administrator away. -/
theorem hasAdmin_exec (h : db.HasAdmin) (stmt : Stmt) : (db.exec stmt).1.HasAdmin := by
  cases stmt with
  | insertUser email name password role now =>
    exact hasAdmin_insertUser h email name password role now
  | updateProfile id email name role now => exact hasAdmin_updateProfile h id email name role now
  | updatePassword id | updateTotp id => exact hasAdmin_update h fun _ _ _ hrole _ => .inl hrole
  | deleteUser id => exact hasAdmin_deleteUser h id
  | insertCode userId hash now =>
    rw [exec, insertCode]
    split_ifs
    · exact h
    · exact h
  | _ => exact h

end PanelDb

/-! ## Refused calls -/

/-- The call was refused with one of the three errors. -/
def PanelValue.isRefusal : PanelValue → Bool
  | .created (.error e) | .repo (.error e) => e.isRefusal
  | _ => false

variable (own : List (PanelState × PanelOp))

/-- None of these steps changes the published tables. -/
def Unpublished : Prop :=
  ∀ step ∈ own, (panelSemantics.exec step.1 step.2).1.db = step.1.db

theorem unpublished_nil : Unpublished [] := fun _ h => absurd h List.not_mem_nil

theorem Unpublished.append {own : List (PanelState × PanelOp)} (h : Unpublished own)
    {s : PanelState} {op : PanelOp} (hstep : (panelSemantics.exec s op).1.db = s.db) :
    Unpublished (own ++ [(s, op)]) :=
  forall_mem_snoc h hstep

/-- What a finished call tells about its own steps. -/
def Refused (v : PanelValue) : Prop :=
  v.isRefusal = true → Unpublished own

/-- A transaction that fails publishes nothing. -/
theorem refused_tx {p : Nat → PanelM (Except RepoError Unit)}
    (hp : ∀ tx, (p tx).Issues DbOp.Private) (s : PanelState) :
    anyInterference.Ensures Refused []
      (PanelValue.repo <$> (do
        let tx ← issue .begin
        let result ← p tx
        finishTx tx result)) s := by
  have hkeep : ∀ own t (op : PanelOp), op.Private → Unpublished own → Unpublished (own ++ [(t, op)]) :=
    fun own t op hop hown => hown.append (DbState.exec_private hop)
  rw [map_bind]
  refine Discipline.Ensures.bind (F := DbOp.Private) (K := Unpublished)
    (issues_issue .begin trivial) (fun _ _ => trivial) hkeep ?_ unpublished_nil trivial
  intro tx own s hown _
  rw [map_bind]
  refine Discipline.Ensures.bind (hp tx) (fun _ _ => trivial) hkeep ?_ hown trivial
  intro result own s hown _
  cases result with
  | error e => exact fun t _ _ _ => hkeep own t (.rollback tx) trivial hown
  | ok a => exact fun t _ _ h => by cases h

theorem refused_create (u : UserArg) (now : Nat) (s : PanelState) :
    anyInterference.Ensures Refused [] (PanelValue.created <$> create u now) s := by
  intro t _ _
  change Refused _ (PanelValue.created
    ((t.db.insertUser u.email u.name u.password u.role now).2.mapError _))
  -- A failed insert leaves the table alone.
  have hkept : ∀ e, (t.db.insertUser u.email u.name u.password u.role now).2 = .error e →
      (t.db.insertUser u.email u.name u.password u.role now).1 = t.db := by
    fun_cases PanelDb.insertUser t.db u.email u.name u.password u.role now
    case case3 => exact fun _ h => by cases h
    all_goals exact fun _ _ => rfl
  cases hinsert : (t.db.insertUser u.email u.name u.password u.role now).2 with
  | error e => exact fun _ => unpublished_nil.append (hkept e hinsert)
  | ok id => exact fun h => by cases h

theorem refused_call (env : Env) (c : PanelCall) (s : PanelState) :
    anyInterference.Ensures Refused [] (c.program env) s := by
  have hupdate : ∀ u plain salt now, anyInterference.Ensures Refused []
      (PanelValue.repo <$> updateWithPassword env u plain salt now) s := by
    intro u plain salt now
    rw [updateWithPassword]
    cases hashOptional env salt plain with
    | error e => exact fun _ _ h => by cases h
    | ok hash => exact refused_tx (fun _ => issues_updateStatements trivial trivial fun _ _ => trivial) s
  cases c with
  | create u now => exact refused_create u now s
  | update u now => exact hupdate u none [] now
  | updateWithPassword u plain salt now => exact hupdate u plain salt now
  | updatePassword id plain salt now =>
    rw [PanelCall.program, updatePassword]
    cases env.hashPassword plain salt with
    | none => exact fun h => by cases h
    | some hash => exact fun t _ _ h => by cases h
  | updateUserTOTP id secret enabled now => exact fun t _ _ h => by cases h
  | delete id => exact refused_tx (fun _ => issues_deleteStatements trivial trivial) s
  | saveRecoveryCodes userId codes now =>
    rw [PanelCall.program, saveRecoveryCodes_eq]
    exact refused_tx (fun _ => issues_saveStatements env trivial (fun _ => trivial) codes) s
  | useRecoveryCode | totpSetup | totpVerify | totpDisable | login | totpLogin | recoveryLogin =>
    exact (Discipline.Ensures.of_forall (fun _ _ h => by cases h) [] _ s).map

/-! ## Runs -/

section Runs
variable {env : Env} {init : PanelState} {trace : List PanelEvent} {cfg : PanelConfig}

theorem holds_hasAdmin_run (run : PanelRun env (fun _ => True) init trace cfg)
    (hinit : init.Holds PanelDb.HasAdmin) :
    cfg.state.Holds PanelDb.HasAdmin ∧ ∀ e ∈ trace, e.before.Holds PanelDb.HasAdmin := by
  refine run.inv (P := fun _ => True) (fun c _ => Prog.issues_true _) hinit ?_
  intro s op _ h
  exact h.exec fun stmt _ db hdb => PanelDb.hasAdmin_exec hdb stmt

/-- From any user table with an administrator, in every interleaving of calls, there is an
administrator at every moment, and a call that was refused did not change the tables. -/
theorem last_admin_kept (db : PanelDb) (hadmin : db.HasAdmin)
    (run : PanelRun env (fun _ => True) ⟨db, none, 0⟩ trace cfg) :
    (cfg.state.db.HasAdmin ∧ ∀ e ∈ trace, e.before.db.HasAdmin) ∧
      ∀ id c v, cfg.calls[id]? = some (c, .done v) → v.isRefusal = true →
        ∀ e ∈ trace, e.id = id → (e.after panelSemantics).db = e.before.db := by
  have hholds := holds_hasAdmin_run run ⟨hadmin, fun _ h => by cases h⟩
  refine ⟨⟨hholds.1.1, fun e he => (hholds.2 e he).1⟩, ?_⟩
  intro id c v hcall hrefused e he hid
  have hown : Refused (ownSteps id trace) v :=
    run.settled anyInterference (Q := fun _ => Refused) trivial (fun c _ => Prog.issues_true _)
      (fun c _ s _ => refused_call env c s) id c _ hcall
  exact hown hrefused (e.before, e.op) (mem_ownSteps.mpr ⟨e, he, hid, rfl, rfl⟩)

end Runs

/-! ## Two administrators who leave -/

def rootUser : UserRow :=
  ⟨ascii "root@example.com", ascii "Root", ascii "h", .admin, [], false, 0, 0⟩

/-- A panel with one user, its administrator. -/
def oneAdmin : PanelDb := ⟨RowTable.empty.insert rootUser, RowTable.empty⟩

/-- A second administrator comes, the first one goes, the second one cannot. -/
def leavingCalls : List PanelCall :=
  [.create ⟨0, ascii "ops@example.com", ascii "Ops", ascii "h", ascii "admin"⟩ 1, .delete 1,
    .delete 2]

def leavingRun : List PanelEvent × PanelConfig :=
  Run.serialRun (panelSystem plainEnv) ⟨oneAdmin, none, 0⟩ leavingCalls

theorem leavingRun_run :
    PanelRun plainEnv (fun _ => True) ⟨oneAdmin, none, 0⟩ leavingRun.1 leavingRun.2 :=
  Run.serialRun_run leavingCalls (fun _ _ => trivial) (by decide +kernel)

theorem last_admin_kept_leaving :
    leavingRun.2.value? 2 = some (.repo (.error .lastAdmin)) ∧ leavingRun.2.state.db.HasAdmin :=
  ⟨by decide +kernel,
    (last_admin_kept oneAdmin ⟨1, rootUser, by decide +kernel, rfl⟩ leavingRun_run).1.1⟩

end HeyServer.Panel
