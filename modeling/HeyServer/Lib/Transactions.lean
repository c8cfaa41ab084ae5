import HeyServer.Lib.Interleaving

/-!
# A database with one connection

Statements run one at a time on a single connection. A transaction holds the
connection from `begin` to `commit` or `rollback`, works on a copy of the data and
publishes the copy when it commits.

## Implementation notes

A statement outside a transaction waits while one is open. What every statement
keeps holds of the published data and of the working copy alike (`DbState.Holds`),
so invariants are proved for single statements only.
-/

namespace HeyServer.Lib
open Option

/-- The operations of a program on the database with statements `St`. -/
inductive DbOp (St : Type)
  | exec (stmt : St)
  | begin
  | txExec (tx : Nat) (stmt : St)
  | commit (tx : Nat)
  | rollback (tx : Nat)

@[reducible] def DbReply {St : Type} (Rp : St → Type) : DbOp St → Type
  | .exec stmt | .txExec _ stmt => Rp stmt
  | .begin => Nat
  | _ => Unit

/-- The published data, and the number and working copy of an open transaction. -/
structure DbState (D : Type) where
  db : D
  tx : Option (Nat × D) := none
  nextTx : Nat := 0

namespace DbState
variable {D St : Type} {Rp : St → Type}

def exec (run : D → (stmt : St) → D × Rp stmt) (s : DbState D) : (op : DbOp St) →
    DbState D × DbReply Rp op
  | .exec stmt => ({ s with db := (run s.db stmt).1 }, (run s.db stmt).2)
  | .begin => ({ s with tx := some (s.nextTx, s.db), nextTx := s.nextTx + 1 }, s.nextTx)
  | .txExec _ stmt =>
    match s.tx with
    | some (tx, copy) => ({ s with tx := some (tx, (run copy stmt).1) }, (run copy stmt).2)
    | none => (s, (run s.db stmt).2)
  | .commit _ =>
    match s.tx with
    | some (_, copy) => ({ s with db := copy, tx := none }, ())
    | none => (s, ())
  | .rollback _ => ({ s with tx := none }, ())

/-- The transaction with this number is open. -/
def holds (s : DbState D) (tx : Nat) : Bool := s.tx.any fun t => t.1 = tx

def ready (s : DbState D) : DbOp St → Bool
  | .exec _ | .begin => s.tx.isNone
  | .txExec tx _ | .commit tx | .rollback tx => s.holds tx

/-- The property holds of the published data and of the working copy. -/
def Holds (P : D → Prop) (s : DbState D) : Prop := P s.db ∧ ∀ t ∈ s.tx, P t.2

end DbState

/-- The statement of an operation. -/
def DbOp.stmt? {St : Type} : DbOp St → Option St
  | .exec stmt | .txExec _ stmt => some stmt
  | _ => none

def dbSemantics {D St : Type} {Rp : St → Type} (run : D → (stmt : St) → D × Rp stmt) :
    Semantics (DbState D) (DbOp St) (DbReply Rp) where
  exec := DbState.exec run
  ready := DbState.ready

section Rules
variable {D St : Type} {Rp : St → Type} {run : D → (stmt : St) → D × Rp stmt}
  {s : DbState D} {op : DbOp St}

/-- The invariant rule: what the statement of an operation keeps, the operation keeps. -/
theorem DbState.Holds.exec {P : D → Prop} (h : s.Holds P)
    (hstmt : ∀ stmt ∈ op.stmt?, ∀ d, P d → P (run d stmt).1) : (s.exec run op).1.Holds P := by
  obtain ⟨db, tx, nextTx⟩ := s
  cases op with
  | exec stmt => exact ⟨hstmt stmt rfl db h.1, h.2⟩
  | begin => exact ⟨h.1, fun t ht => some.inj ht ▸ h.1⟩
  | txExec number stmt =>
    cases tx with
    | none => exact h
    | some t => exact ⟨h.1, fun t' ht' => some.inj ht' ▸ hstmt stmt rfl t.2 (h.2 t rfl)⟩
  | commit number =>
    cases tx with
    | none => exact h
    | some t => exact ⟨h.2 t rfl, nofun⟩
  | rollback number => exact ⟨h.1, nofun⟩

/-- No transaction is open when a statement of its own can run. -/
theorem DbState.tx_of_ready_exec {stmt : St}
    (h : (dbSemantics run).ready s (.exec stmt) = true) : s.tx = none :=
  isNone_iff_eq_none.mp h

theorem DbState.holds_of_tx_none {P : D → Prop} (htx : s.tx = none) (h : P s.db) : s.Holds P :=
  ⟨h, fun t ht => by rw [htx] at ht; cases ht⟩

/-- The working copy stands to the published data in the relation. -/
def DbState.Copies (Rel : D → D → Prop) (s : DbState D) : Prop := ∀ t ∈ s.tx, Rel s.db t.2

/-- A transaction starts from the published data, and nothing is published while it is open. -/
theorem DbState.Copies.exec {Rel : D → D → Prop} (hrefl : ∀ d, Rel d d)
    (h : s.Copies Rel) (hready : (dbSemantics run).ready s op = true)
    (hstmt : ∀ tx stmt, op = .txExec tx stmt → ∀ d copy, Rel d copy → Rel d (run copy stmt).1) :
    (s.exec run op).1.Copies Rel := by
  obtain ⟨db, tx, nextTx⟩ := s
  cases op with
  | exec stmt =>
    obtain rfl : tx = none := tx_of_ready_exec hready
    exact nofun
  | begin => exact fun t ht => some.inj ht ▸ hrefl db
  | txExec number stmt =>
    cases tx with
    | none => exact h
    | some t => exact fun t' ht' => some.inj ht' ▸ hstmt number stmt rfl db t.2 (h t rfl)
  | commit number =>
    cases tx with
    | none => exact h
    | some t => exact nofun
  | rollback number => exact nofun

/-- What an operation publishes: the effect of a statement, or the working copy. -/
theorem DbState.Copies.published {Rel : D → D → Prop} (hrefl : ∀ d, Rel d d) (h : s.Copies Rel)
    (hexec : ∀ stmt, op = .exec stmt → Rel s.db (run s.db stmt).1) :
      Rel s.db (s.exec run op).1.db := by
  obtain ⟨db, tx, nextTx⟩ := s
  cases op with
  | exec stmt => exact hexec stmt rfl
  | begin => exact hrefl db
  | txExec number stmt =>
    cases tx with
    | none | some => exact hrefl db
  | commit number =>
    cases tx with
    | none => exact hrefl db
    | some t => exact h t rfl
  | rollback number => exact hrefl db

/-- An operation that does not publish: everything but a statement of its own and a commit. -/
def DbOp.Private : DbOp St → Prop
  | .exec _ | .commit _ => False
  | _ => True

theorem DbState.exec_private (h : op.Private) : (s.exec run op).1.db = s.db := by
  cases op with
  | exec | commit => exact h.elim
  | begin | rollback => rfl
  | txExec number stmt =>
    obtain ⟨db, tx, nextTx⟩ := s
    cases tx <;> rfl

end Rules

end HeyServer.Lib
