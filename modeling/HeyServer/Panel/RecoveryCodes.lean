import HeyServer.Panel.Steps

/-!
# Single use of recovery codes

`UseRecoveryCode` reads the unused codes, compares the hashes and then marks the one
it found, in two statements. A code that is marked is never found again, so it can be
accepted twice only by calls that have all found it before the first of them marks it.

## Implementation notes

A marked code stays marked or is deleted, and its key is not given out again: this is
proved for single statements (`PanelDb.spent_exec`) and carried over transactions.
-/

namespace HeyServer.Panel
open Lib List Option RowTable

/-- The code a call hands to `UseRecoveryCode`. -/
def PanelCall.recoveryCode? : PanelCall → Option Bytes
  | .useRecoveryCode _ code _ => some code
  | .recoveryLogin req _ _ => some (upper (Text.trimSpace req.code))
  | _ => none

/-- The call accepted a recovery code. -/
def PanelCall.accepted : PanelCall → PanelValue → Bool
  | .useRecoveryCode .., .used ok => ok
  | .recoveryLogin .., .handled (.ok _) => true
  | _, _ => false

variable (env : Env)

/-- The stored code a step of a call finds for it. -/
def found? (c : PanelCall) (s : PanelState) : PanelOp → Option Nat
  | .exec (.selectUnused user) =>
    c.recoveryCode?.bind fun code =>
      (matchingCode env code (s.db.exec (.selectUnused user)).2).map Prod.fst
  | _ => none

/-- The stored code an operation marks as used. -/
def marked? : PanelOp → Option Nat
  | .exec (.markUsed row _) => some row
  | _ => none

/-- This event finds the stored code. -/
def Finds (e : PanelEvent) (row : Nat) : Prop := found? env e.call e.before e.op = some row

/-- This event marks the stored code. -/
def Marks (e : PanelEvent) (row : Nat) : Prop := marked? e.op = some row

/-- The call has found the stored code among the unused ones and has marked it. -/
def Redeems (trace : List PanelEvent) (id row : Nat) : Prop :=
  (∃ e ∈ trace, e.id = id ∧ Finds env e row) ∧ ∃ e ∈ trace, e.id = id ∧ Marks e row

/-- When a call finds a code, no other call that has found it still has to mark it. -/
def Alone (earlier : List PanelEvent) (e : PanelEvent) : Prop :=
  ∀ row ∈ found? env e.call e.before e.op, ∀ other ∈ earlier, other.id ≠ e.id →
    Finds env other row → ∃ mark ∈ earlier, mark.id = other.id ∧ Marks mark row

instance (env : Env) (e : PanelEvent) (row : Nat) : Decidable (Finds env e row) :=
  inferInstanceAs (Decidable (_ = _))

instance (e : PanelEvent) (row : Nat) : Decidable (Marks e row) :=
  inferInstanceAs (Decidable (_ = _))

instance (env : Env) (trace : List PanelEvent) (id row : Nat) :
    Decidable (Redeems env trace id row) :=
  inferInstanceAs (Decidable (_ ∧ _))

instance (env : Env) (earlier : List PanelEvent) (e : PanelEvent) :
    Decidable (Alone env earlier e) :=
  inferInstanceAs (Decidable (∀ row ∈ found? env e.call e.before e.op, _))

/-! ## Stored codes -/

namespace PanelDb

/-- What a statement can do to the table of codes. -/
inductive CodesStep (codes : RowTable RecoveryCodeRow) : RowTable RecoveryCodeRow → Prop
  | keep : CodesStep codes codes
  | insert (code : RecoveryCodeRow) : CodesStep codes (codes.insert code)
  | delete (p : Nat → RecoveryCodeRow → Bool) : CodesStep codes (codes.delete p)
  | mark (row now : Nat) : CodesStep codes
      (codes.update (fun key _ => key = row) fun code =>
        { code with used := true, usedAt := some now })

theorem exec_codesStep (db : PanelDb) (stmt : Stmt) :
    CodesStep db.totpRecoveryCodes (db.exec stmt).1.totpRecoveryCodes := by
  cases stmt with
  | insertUser email name password role now =>
    rw [exec]
    fun_cases insertUser db email name password role now <;> exact .keep
  | updateProfile id email name role now =>
    rw [exec]
    fun_cases updateProfile db id email name role now <;> exact .keep
  | deleteUser id =>
    exact .delete fun _ code => (db.users.select (db.mayDelete id)).any fun row =>
      row.1 = code.userId
  | deleteCodes userId => exact .delete fun _ code => code.userId = userId
  | insertCode userId hash now =>
    rw [exec, insertCode]
    split_ifs
    · exact .keep
    · exact .insert _
  | markUsed row now => exact .mark row now
  | _ => exact .keep

/-- The key has been given out. -/
def Issued (row : Nat) (db : PanelDb) : Prop := row ≤ db.totpRecoveryCodes.seq

/-- The key has been given out and its code is marked or gone. -/
def Spent (row : Nat) (db : PanelDb) : Prop :=
  Issued row db ∧ ∀ code, db.totpRecoveryCodes.get? row = some code → code.used = true

variable {row : Nat} {db : PanelDb}

theorem issued_exec (h : Issued row db) (stmt : Stmt) : Issued row (db.exec stmt).1 := by
  have hstep := exec_codesStep db stmt
  rw [Issued] at h ⊢
  generalize (db.exec stmt).1.totpRecoveryCodes = codes at hstep
  cases hstep with
  | keep => exact h
  | insert code => exact Nat.le_succ_of_le h
  | delete | mark => exact h

theorem spent_exec (h : Spent row db) (stmt : Stmt) : Spent row (db.exec stmt).1 := by
  refine ⟨issued_exec h.1 stmt, ?_⟩
  intro code hcode
  have hissued : row ≤ db.totpRecoveryCodes.seq := h.1
  have hstep := exec_codesStep db stmt
  generalize (db.exec stmt).1.totpRecoveryCodes = codes at hstep hcode
  cases hstep with
  | keep => exact h.2 code hcode
  | insert code' =>
    rw [get?_insert, if_neg (by omega)] at hcode
    exact h.2 code hcode
  | delete p =>
    rw [get?_delete, filter_eq_some_iff] at hcode
    exact h.2 code hcode.1
  | mark key now =>
    rw [get?_update, map_eq_some_iff] at hcode
    obtain ⟨old, hold, rfl⟩ := hcode
    split_ifs
    · rfl
    · exact h.2 old hold

end PanelDb

variable {c : PanelCall} {op : PanelOp} {row : Nat}

theorem found?_eq_some {env : Env} {s : PanelState} (h : found? env c s op = some row) :
    ∃ user code hash, op = .exec (.selectUnused user) ∧ c.recoveryCode? = some code ∧
      (row, hash) ∈ (s.db.exec (.selectUnused user)).2 ∧ env.checkPassword hash code = true := by
  unfold found? at h
  split at h
  · rename_i user
    obtain ⟨code, hcode, hmatch⟩ := bind_eq_some_iff.mp h
    obtain ⟨⟨key, hash⟩, hfind, rfl⟩ := map_eq_some_iff.mp hmatch
    have hcheck := find?_some (p := fun c : Nat × Bytes => env.checkPassword c.2 code) hfind
    exact ⟨user, code, hash, rfl, hcode, mem_of_find?_eq_some hfind, hcheck⟩
  · cases h

theorem marked?_eq_some (h : marked? op = some row) : ∃ now, op = .exec (.markUsed row now) := by
  unfold marked? at h
  split at h
  · rename_i key now
    cases h
    exact ⟨now, rfl⟩
  · cases h

/-- A found code is not spent, and its key has been given out. -/
theorem issued_of_found {env : Env} {s : PanelState}
    (h : found? env c s op = some row) : s.db.Issued row ∧ ¬ s.db.Spent row := by
  obtain ⟨user, code, hash, -, -, hmem, -⟩ := found?_eq_some h
  -- only a code that is stored and not marked is found
  obtain ⟨⟨key, stored⟩, hselected, heq⟩ := mem_map.mp hmem
  cases heq
  obtain ⟨hget, hcode⟩ := mem_select.mp hselected
  rw [Bool.and_eq_true, decide_eq_true_eq, Bool.not_eq_true'] at hcode
  have hused := hcode.2
  refine ⟨get?_le_seq hget, ?_⟩
  intro hspent
  rw [hspent.2 stored hget] at hused
  cases hused

/-! ## What a call marks -/

/-- A call marks nothing but the code it has found. -/
def MarksFound (c : PanelCall) (own : List (PanelState × PanelOp)) (op : PanelOp) : Prop :=
  ∀ row, marked? op = some row → ∃ step ∈ own, found? env c step.1 step.2 = some row

/-- A call that accepts a code has found it and has marked it. -/
def AcceptsMarked (c : PanelCall) (own : List (PanelState × PanelOp)) (v : PanelValue) : Prop :=
  c.accepted v = true → ∃ row, (∃ step ∈ own, found? env c step.1 step.2 = some row) ∧
    ∃ step ∈ own, marked? step.2 = some row

theorem recoveryCode_of_may {now : Nat} (h : c.May (.exec (.markUsed row now))) :
    c.recoveryCode? ≠ none := by
  cases c with
  | useRecoveryCode | recoveryLogin => exact some_ne_none _
  | _ => exact h.elim

section Calls
variable {env : Env} {c : PanelCall} {code : Bytes} {userId now : Nat}

/-- What `useRecoveryCode` does with the matching row. -/
def markMatching (now : Nat) : Option (Nat × Bytes) → PanelM Bool
  | none => pure false
  | some found => do
      let _ ← issue (.exec (.markUsed found.1 now))
      return true

theorem follows_useRecoveryCode {α : Type} {next : Bool → PanelM α}
    (hcode : c.recoveryCode? = some code)
    (hnext : ∀ ok own, (next ok).Follows panelSemantics (MarksFound env c) own)
    (own : List (PanelState × PanelOp)) :
    (useRecoveryCode env userId code now >>= next).Follows panelSemantics
    (MarksFound env c) own := by
  refine ⟨(fun _ h => by cases h), fun t => ?_⟩
  change Prog.Follows _ _ _
    (markMatching now (matchingCode env code (t.db.exec (.selectUnused userId)).2) >>= next)
  cases hmatch : matchingCode env code (t.db.exec (.selectUnused userId)).2 with
  | none => exact hnext false _
  | some found =>
    refine ⟨?_, fun _ => hnext true _⟩
    intro row hrow
    cases hrow
    refine ⟨(t, .exec (.selectUnused userId)), by simp, ?_⟩
    rw [found?, hcode, bind_some, hmatch]
    rfl

/-- If the code is accepted, the own steps hold the read that found it and the update. -/
theorem ensures_useRecoveryCode {α : Type} {next : Bool → PanelM α}
    {Q : List (PanelState × PanelOp) → α → Prop} (hcode : c.recoveryCode? = some code)
    (hnext : ∀ ok own s, (ok = true → ∃ row, (∃ step ∈ own, found? env c step.1 step.2 = some row) ∧
      ∃ step ∈ own, marked? step.2 = some row) → anyInterference.Ensures Q own (next ok) s)
    (own : List (PanelState × PanelOp)) (s : PanelState) :
    anyInterference.Ensures Q own (useRecoveryCode env userId code now >>= next) s := by
  intro t _ _
  change anyInterference.Ensures Q _
    (markMatching now (matchingCode env code (t.db.exec (.selectUnused userId)).2) >>= next) _
  cases hmatch : matchingCode env code (t.db.exec (.selectUnused userId)).2 with
  | none => exact hnext false _ _ fun h => by cases h
  | some found =>
    intro t' _ _
    refine hnext true _ _ fun _ => ⟨found.1, ⟨(t, .exec (.selectUnused userId)), by simp, ?_⟩,
      (t', .exec (.markUsed found.1 now)), by simp, rfl⟩
    rw [found?, hcode, bind_some, hmatch]
    rfl

end Calls

theorem marksFound_program (c : PanelCall) :
    (c.program env).Follows panelSemantics (MarksFound env c) [] := by
  cases c with
  | useRecoveryCode userId code now =>
    rw [PanelCall.program, map_eq_pure_bind]
    refine follows_useRecoveryCode (c := .useRecoveryCode userId code now) rfl ?_ []
    exact fun _ _ => trivial
  | recoveryLogin req signed now =>
    refine Prog.Follows.map (.ite trivial (.ite trivial ⟨(fun _ h => by cases h), fun t => ?_⟩))
    generalize (panelSemantics.exec t (.exec (.selectByEmail (Text.trimSpace req.email)))).2 = found
    cases found with
    | none => trivial
    | some found =>
      refine .ite trivial (.ite trivial ?_)
      refine follows_useRecoveryCode (c := .recoveryLogin req signed now) rfl ?_ _
      intro ok own
      exact .ite trivial (.ite trivial trivial)
  | _ =>
    refine (issues_program env _).follows ?_ []
    intro own op hmay row hrow
    obtain ⟨now, rfl⟩ := marked?_eq_some hrow
    exact absurd rfl (recoveryCode_of_may hmay)

theorem acceptsMarked_program (c : PanelCall) (s : PanelState) :
    anyInterference.Ensures (AcceptsMarked env c) [] (c.program env) s := by
  cases c with
  | useRecoveryCode userId code now =>
    rw [PanelCall.program, map_eq_pure_bind]
    refine ensures_useRecoveryCode (c := .useRecoveryCode userId code now) rfl ?_ [] s
    exact fun ok own s h => h
  | recoveryLogin req signed now =>
    refine Discipline.Ensures.map (.ite (fun h => by cases h) (.ite (fun h => by cases h) ?_))
    intro t _ _
    generalize (panelSemantics.exec t (.exec (.selectByEmail (Text.trimSpace req.email)))).2 = found
    cases found with
    | none => exact fun h => by cases h
    | some found =>
      refine .ite (fun h => by cases h) (.ite (fun h => by cases h) ?_)
      refine ensures_useRecoveryCode (c := .recoveryLogin req signed now) rfl ?_ _ _
      intro ok own s hown
      cases ok with
      | false => exact fun h => by cases h
      | true => exact .ite (fun h => by cases h) (.ite (fun _ => hown rfl) fun h => by cases h)
  | _ => exact Discipline.Ensures.of_forall (fun _ _ h => by cases h) [] _ s

/-! ## Runs -/

section Runs
variable {env : Env} {db : PanelDb} {trace : List PanelEvent} {cfg : PanelConfig}

/-- The keys that were found have been given out, and those that were marked after they had
been found are spent. -/
structure CodesInv (env : Env) (trace : List PanelEvent) (s : PanelState) : Prop where
  issued : ∀ e ∈ trace, ∀ row, Finds env e row → s.Holds (PanelDb.Issued row)
  spent : ∀ earlier e later, trace = earlier ++ e :: later → ∀ row, Marks e row →
    (∃ found ∈ earlier, Finds env found row) → s.Holds (PanelDb.Spent row)

variable {e : PanelEvent} {earlier later : List PanelEvent}

theorem CodesInv.step (h : CodesInv env trace e.before)
    (hready : panelSemantics.ready e.before e.op = true) :
    CodesInv env (trace ++ [e]) (e.after panelSemantics) := by
  have hissued : ∀ row, e.before.Holds (PanelDb.Issued row) →
      (e.after panelSemantics).Holds (PanelDb.Issued row) := by
    intro row hrow
    exact hrow.exec fun stmt _ db hdb => PanelDb.issued_exec hdb stmt
  constructor
  · intro e' he' row hfinds
    refine hissued row ?_
    rcases mem_append.mp he' with he' | he'
    · exact h.issued e' he' row hfinds
    · obtain rfl := mem_singleton.mp he'
      obtain ⟨user, code, hash, hop, -⟩ := found?_eq_some hfinds
      rw [hop] at hready
      exact DbState.holds_of_tx_none (DbState.tx_of_ready_exec hready) (issued_of_found hfinds).1
  · intro earlier e' later hsplit row hmarks hfound
    rcases snoc_eq_append_cons hsplit with ⟨rfl, rfl⟩ | ⟨later, htrace⟩
    · obtain ⟨found, hmem, hfinds⟩ := hfound
      have hrow := h.issued found hmem row hfinds
      obtain ⟨now, hop⟩ := marked?_eq_some hmarks
      rw [hop] at hready
      have htx := DbState.tx_of_ready_exec hready
      rw [Event.after, hop]
      refine DbState.holds_of_tx_none htx ⟨PanelDb.issued_exec hrow.1 _, ?_⟩
      intro code hcode
      change (RowTable.update _ _ _).get? row = some code at hcode
      rw [get?_update, map_eq_some_iff] at hcode
      obtain ⟨old, -, rfl⟩ := hcode
      rw [decide_eq_true rfl]
      rfl
    · have hspent := h.spent earlier e' later htrace row hmarks hfound
      exact hspent.exec fun stmt _ db hdb => PanelDb.spent_exec hdb stmt

section
variable (run : PanelRun env (fun _ => True) ⟨db, none, 0⟩ trace cfg)
include run

section
variable (h : trace = earlier ++ e :: later)
include h

theorem codesInv : CodesInv env earlier e.before := by
  refine run.evolves_before (J := CodesInv env) ⟨by simp, by simp⟩ ?_ h
  intro trace e hready hinv
  exact hinv.step hready

/-- Every mark comes after a read of the same call that found the code. -/
theorem found_of_marks {row : Nat}
    (hmarks : Marks e row) : ∃ found ∈ earlier, found.id = e.id ∧ Finds env found row := by
  have hfollows := (run.follows (P := MarksFound env) (fun c _ => marksFound_program env c) h).1
  obtain ⟨⟨s, op⟩, hown, hfound⟩ := hfollows row hmarks
  obtain ⟨found, hmem, hid, rfl, rfl⟩ := mem_ownSteps.mp hown
  have hcall : found.call = e.call := run.call_eq (by simp [h, hmem]) (by simp [h]) hid
  refine ⟨found, hmem, hid, ?_⟩
  rw [Finds, hcall]
  exact hfound

/-- Of two calls that find one code, the later one finds it before the earlier marks it. -/
theorem not_marked_of_finds {row : Nat}
    (hfinds : Finds env e row) : ∀ mark ∈ earlier, ¬ Marks mark row := by
  intro mark hmem hmarks
  obtain ⟨before, after, hsplit⟩ := append_of_mem hmem
  have htrace : trace = before ++ mark :: (after ++ e :: later) := by simp [h, hsplit]
  obtain ⟨found, hfound, -, hfinds'⟩ := found_of_marks run htrace hmarks
  have hspent := (codesInv run h).spent before mark after hsplit row hmarks ⟨found, hfound, hfinds'⟩
  exact (issued_of_found hfinds).2 hspent.1

end

end

/-- In every run from any tables in which no call finds a code while another call that has
found it still has to mark it: each call that accepts a recovery code has found a stored
unused code that matches and has marked it, and no stored code does this for two calls. -/
theorem recovery_code_used_once (run : PanelRun env (fun _ => True) ⟨db, none, 0⟩ trace cfg)
    (halone : AtEach (Alone env) trace) :
    (∀ id c v, cfg.calls[id]? = some (c, .done v) → c.accepted v = true →
      ∃ row, Redeems env trace id row) ∧
    ∀ row first second, Redeems env trace first row → Redeems env trace second row →
      first = second := by
  constructor
  · intro id c v hcall haccepted
    have hown : AcceptsMarked env c (ownSteps id trace) v :=
      run.settled anyInterference (Q := AcceptsMarked env) trivial (fun c _ => Prog.issues_true _)
        (fun c _ s _ => acceptsMarked_program env c s) id c _ hcall
    obtain ⟨row, ⟨⟨s, op⟩, hfound, hfinds⟩, ⟨⟨s', op'⟩, hmark, hmarks⟩⟩ := hown haccepted
    obtain ⟨found, hmem, hid, rfl, rfl⟩ := mem_ownSteps.mp hfound
    obtain ⟨mark, hmem', hid', rfl, rfl⟩ := mem_ownSteps.mp hmark
    refine ⟨row, ⟨found, hmem, hid, ?_⟩, mark, hmem', hid', hmarks⟩
    have hmade := run.made found hmem
    rw [hid, hcall] at hmade
    rw [Finds, ← some.inj hmade]
    exact hfinds
  · rintro row first second ⟨⟨found, hmem, rfl, hfinds⟩, -⟩ ⟨⟨found', hmem', rfl, hfinds'⟩, -⟩
    by_contra hid
    have hne : found ≠ found' := fun h => hid (congrArg Event.id h)
    -- the later of the two reads contradicts `Alone`
    rcases split_of_mem hmem hmem' hne with
      ⟨earlier, later, hsplit, hearlier⟩ | ⟨earlier, later, hsplit, hearlier⟩
    · obtain ⟨mark, hmark, -, hmarks⟩ :=
        halone earlier found' later hsplit row hfinds' found hearlier hid hfinds
      exact not_marked_of_finds run hsplit hfinds' mark hmark hmarks
    · obtain ⟨mark, hmark, -, hmarks⟩ :=
        halone earlier found later hsplit row hfinds found' hearlier (Ne.symm hid) hfinds'
      exact not_marked_of_finds run hsplit hfinds mark hmark hmarks

end Runs

/-! ## One code, one after the other and at the same time -/

def codeOwner : UserRow :=
  ⟨ascii "ops@example.com", ascii "Ops", ascii "h", .admin, ascii "S", true, 0, 0⟩

/-- One user with one recovery code. -/
def oneCode : PanelDb :=
  ⟨RowTable.empty.insert codeOwner,
    RowTable.empty.insert ⟨1, ascii "AAAAA-AAAAA", false, none, 0⟩⟩

/-- The code is used, used again, stored again and used. -/
def orderlyCalls : List PanelCall :=
  [.useRecoveryCode 1 (ascii "AAAAA-AAAAA") 1, .useRecoveryCode 1 (ascii "AAAAA-AAAAA") 2,
    .saveRecoveryCodes 1 [(ascii "AAAAA-AAAAA", [])] 3, .useRecoveryCode 1 (ascii "AAAAA-AAAAA") 4]

def orderlyRun : List PanelEvent × PanelConfig :=
  Run.serialRun (panelSystem plainEnv) ⟨oneCode, none, 0⟩ orderlyCalls

theorem orderlyRun_run :
    PanelRun plainEnv (fun _ => True) ⟨oneCode, none, 0⟩ orderlyRun.1 orderlyRun.2 :=
  Run.serialRun_run orderlyCalls (fun _ _ => trivial) (by decide +kernel)

theorem recovery_code_used_once_orderly :
    AtEach (Alone plainEnv) orderlyRun.1 ∧
      (List.range 4).map orderlyRun.2.value? =
        [some (.used true), some (.used false), some (.repo (.ok ())), some (.used true)] ∧
      ∀ row first second, Redeems plainEnv orderlyRun.1 first row →
        Redeems plainEnv orderlyRun.1 second row → first = second := by
  have halone : AtEach (Alone plainEnv) orderlyRun.1 := by decide +kernel
  exact ⟨halone, by decide +kernel, (recovery_code_used_once orderlyRun_run halone).2⟩

/-- Two calls read the unused codes before either of them marks one. -/
def hastyChoices : List (Run.Choice PanelCall) :=
  [.invoke (.useRecoveryCode 1 (ascii "AAAAA-AAAAA") 1),
    .invoke (.useRecoveryCode 1 (ascii "AAAAA-AAAAA") 1), .step 0, .step 1, .step 0, .step 1]

theorem recovery_code_used_twice :
    ∃ trace cfg, PanelRun plainEnv (fun _ => True) ⟨oneCode, none, 0⟩ trace cfg ∧
      cfg.value? 0 = some (.used true) ∧ cfg.value? 1 = some (.used true) ∧
      Redeems plainEnv trace 0 1 ∧ Redeems plainEnv trace 1 1 :=
  Run.exists_scheduled hastyChoices (fun _ _ => trivial) (by decide +kernel)

end HeyServer.Panel
