import HeyServer.Lib.RowTable
import HeyServer.Lib.Transactions
import HeyServer.Lib.Text

/-!
# The user repository of the panel

The tables `users` and `totp_recovery_codes`, the SQL statements of the repository
and its methods as programs of statements and transactions.

## Implementation notes

A statement fails only by a constraint of the schema. Password hashing and its
check are parameters; the salt of a hash is an argument of the call. Times are
values of the clock at the statement.
-/

namespace HeyServer.Panel
open Lib

/-! ## Tables -/

inductive Role
  | admin | manager | viewer
  deriving DecidableEq

namespace Role

def text : Role → Bytes
  | admin => ascii "admin"
  | manager => ascii "manager"
  | viewer => ascii "viewer"

/-- The roles that the `CHECK` constraint lets in. -/
def ofText (text : Bytes) : Option Role :=
    [admin, manager, viewer].find? fun role => role.text = text

end Role

structure UserRow where
  email : Bytes
  name : Bytes
  password : Bytes
  role : Role
  totpSecret : Bytes
  totpEnabled : Bool
  createdAt : Nat
  updatedAt : Nat
  deriving DecidableEq

structure RecoveryCodeRow where
  userId : Nat
  codeHash : Bytes
  used : Bool
  usedAt : Option Nat
  createdAt : Nat
  deriving DecidableEq

structure PanelDb where
  users : RowTable UserRow
  totpRecoveryCodes : RowTable RecoveryCodeRow

/-! ## Statements -/

inductive SqlError
  | uniqueEmail | checkRole | foreignKey
  deriving DecidableEq

/-- The statements of the repository. -/
inductive Stmt
  | insertUser (email name password role : Bytes) (now : Nat)
  | updateProfile (id : Nat) (email name role : Bytes) (now : Nat)
  | updatePassword (id : Nat) (hash : Bytes) (now : Nat)
  | updateTotp (id : Nat) (secret : Bytes) (enabled : Bool) (now : Nat)
  | deleteUser (id : Nat)
  | selectRole (id : Nat)
  | selectById (id : Nat)
  | selectByEmail (email : Bytes)
  | deleteCodes (userId : Nat)
  | insertCode (userId : Nat) (hash : Bytes) (now : Nat)
  | selectUnused (userId : Nat)
  | markUsed (id : Nat) (now : Nat)

/-- The last key, the number of rows changed, or the rows read. -/
@[reducible] def Stmt.Reply : Stmt → Type
  | .insertUser .. | .updateProfile .. | .insertCode .. => Except SqlError Nat
  | .updatePassword .. | .updateTotp .. | .deleteUser .. | .deleteCodes .. | .markUsed .. => Nat
  | .selectRole _ => Option Role
  | .selectById _ | .selectByEmail _ => Option (Nat × UserRow)
  | .selectUnused _ => List (Nat × Bytes)

namespace PanelDb

variable (db : PanelDb) (id : Nat)

/-- `UNIQUE COLLATE NOCASE`: another user has this address, ASCII letters without their
case. -/
def emailTaken (email : Bytes) : Bool :=
  db.users.rows.any fun row => row.1 ≠ id && Text.toLower row.2.email = Text.toLower email

/-- `EXISTS (SELECT 1 FROM users AS other WHERE other.role = 'admin' AND other.id <> ?)` -/
def otherAdmin : Bool :=
  db.users.rows.any fun row => row.2.role = .admin && row.1 ≠ id

/-- The `WHERE` clause of the update in `UpdateWithPassword`. -/
def mayUpdate (role : Bytes) (key : Nat) (row : UserRow) : Bool :=
  key = id && (row.role ≠ .admin || role = Role.admin.text || db.otherAdmin id)

/-- The `WHERE` clause of `Delete`. -/
def mayDelete (key : Nat) (row : UserRow) : Bool :=
  key = id && (row.role ≠ .admin || db.otherAdmin id)

def insertUser (email name password role : Bytes) (now : Nat) : PanelDb × Except SqlError Nat :=
  match Role.ofText role with
  | none => (db, .error .checkRole)
  | some role =>
    if db.emailTaken 0 email then (db, .error .uniqueEmail)
    else
      let users := db.users.insert ⟨email, name, password, role, [], false, now, now⟩
      ({ db with users := users }, .ok users.seq)

def updateProfile (email name role : Bytes) (now : Nat) : PanelDb × Except SqlError Nat :=
  let matched := db.users.select (db.mayUpdate id role)
  if matched = [] then (db, .ok 0)
  else
    match Role.ofText role with
    | none => (db, .error .checkRole)
    | some newRole =>
      if db.emailTaken id email then (db, .error .uniqueEmail)
      else
        ({ db with users := db.users.update (db.mayUpdate id role) fun row =>
            { row with email := email, name := name, role := newRole, updatedAt := now } },
          .ok matched.length)

/-- The update of one user; the number of rows is 1 or 0. -/
def updateUser (f : UserRow → UserRow) : PanelDb × Nat :=
  ({ db with users := db.users.update (fun key _ => key = id) f },
    (db.users.select fun key _ => key = id).length)

/-- The codes of a deleted user go with it. -/
def deleteUser : PanelDb × Nat :=
  let matched := db.users.select (db.mayDelete id)
  ({ users := db.users.delete (db.mayDelete id)
     totpRecoveryCodes := db.totpRecoveryCodes.delete fun _ code =>
       matched.any fun row => row.1 = code.userId }, matched.length)

def insertCode (userId : Nat) (hash : Bytes) (now : Nat) : PanelDb × Except SqlError Nat :=
  if (db.users.get? userId).isNone then (db, .error .foreignKey)
  else
    let codes := db.totpRecoveryCodes.insert ⟨userId, hash, false, none, now⟩
    ({ db with totpRecoveryCodes := codes }, .ok codes.seq)

def markUsed (id now : Nat) : PanelDb × Nat :=
  let codes := db.totpRecoveryCodes.update (fun key _ => key = id) fun row =>
    { row with used := true, usedAt := some now }
  ({ db with totpRecoveryCodes := codes },
    (db.totpRecoveryCodes.select fun key _ => key = id).length)

def exec : (stmt : Stmt) → PanelDb × stmt.Reply
  | .insertUser email name password role now => db.insertUser email name password role now
  | .updateProfile id email name role now => db.updateProfile id email name role now
  | .updatePassword id hash now =>
    db.updateUser id fun row => { row with password := hash, updatedAt := now }
  | .updateTotp id secret enabled now =>
    db.updateUser id fun row =>
      { row with totpSecret := secret, totpEnabled := enabled, updatedAt := now }
  | .deleteUser id => db.deleteUser id
  | .selectRole id => (db, (db.users.get? id).map (·.role))
  | .selectById id => (db, db.users.first? fun key _ => key = id)
  | .selectByEmail email =>
    (db, db.users.first? fun _ row => Text.toLower row.email = Text.toLower email)
  | .deleteCodes userId =>
    ({ db with totpRecoveryCodes := db.totpRecoveryCodes.delete fun _ row => row.userId = userId },
      (db.totpRecoveryCodes.select fun _ row => row.userId = userId).length)
  | .insertCode userId hash now => db.insertCode userId hash now
  | .selectUnused userId =>
    (db, (db.totpRecoveryCodes.select fun _ row => row.userId = userId && !row.used).map
      fun row => (row.1, row.2.codeHash))
  | .markUsed id now => db.markUsed id now

end PanelDb

abbrev PanelState := DbState PanelDb

abbrev PanelOp := DbOp Stmt

def panelSemantics : Semantics PanelState PanelOp (DbReply Stmt.Reply) := dbSemantics PanelDb.exec

abbrev PanelM := Prog PanelOp (DbReply Stmt.Reply)

def issue (op : PanelOp) : PanelM (DbReply Stmt.Reply op) := Prog.perform op

/-! ## The repository -/

/-- The parts of the program that are not modelled: `auth.HashPassword` with its salt,
`auth.CheckPassword`, and `security.VerifyTOTP` with the time it is called. -/
structure Env where
  hashPassword : Bytes → Bytes → Option Bytes
  checkPassword : Bytes → Bytes → Bool
  verifyTOTP : Bytes → Bytes → Nat → Option Bool

/-- An environment to run examples in: hashes and codes are the texts themselves. -/
def plainEnv : Env where
  hashPassword plain _ := some plain
  checkPassword hash plain := hash = plain
  verifyTOTP secret code _ := some (secret = code)

inductive RepoError
  | notFound | duplicateEmail | lastAdmin
  /-- An error of the database, with the words in front of it. -/
  | sql (context : Bytes) (cause : SqlError)
  | hash (context : Bytes)
  deriving DecidableEq

/-- The three refusals of the repository. -/
def RepoError.isRefusal : RepoError → Bool
  | .notFound | .duplicateEmail | .lastAdmin => true
  | _ => false

/-- `isUniqueConstraint` -/
def sqlError (context : Bytes) : SqlError → RepoError
  | .uniqueEmail => .duplicateEmail
  | e => .sql context e

/-- The arguments of `Create` and `Update` that the statements read. -/
structure UserArg where
  id : Nat
  email : Bytes
  name : Bytes
  password : Bytes
  role : Bytes

def create (u : UserArg) (now : Nat) : PanelM (Except RepoError Nat) := do
  let result ← issue (.exec (.insertUser u.email u.name u.password u.role now))
  return result.mapError (sqlError (ascii "create user"))

/-- `Commit`, or the deferred `Rollback` of a transaction that failed. -/
def finishTx {α : Type} (tx : Nat) : Except RepoError α → PanelM (Except RepoError α)
  | .error e => do
      issue (.rollback tx)
      return .error e
  | .ok a => do
      issue (.commit tx)
      return .ok a

/-- The error for an update that changed no row. -/
def updateRefusal (role : Bytes) : Option Role → RepoError
  | some .admin => if role ≠ Role.admin.text then .lastAdmin else .notFound
  | _ => .notFound

/-- The second statement of `UpdateWithPassword`. -/
def storePassword (tx id : Nat) (now : Nat) : Option Bytes → PanelM (Except RepoError Unit)
  | none => pure (.ok ())
  | some hash => do
      let changed ← issue (.txExec tx (.updatePassword id hash now))
      return if changed ≠ 1 then .error .notFound else .ok ()

/-- The statements of `UpdateWithPassword`. -/
def updateStatements (tx : Nat) (u : UserArg) (hash : Option Bytes) (now : Nat) :
    PanelM (Except RepoError Unit) := do
  let result ← issue (.txExec tx (.updateProfile u.id u.email u.name u.role now))
  match result with
  | .error e => return .error (sqlError (ascii "update user") e)
  | .ok changed =>
    if changed ≠ 1 then do
      let current ← issue (.txExec tx (.selectRole u.id))
      return .error (updateRefusal u.role current)
    else storePassword tx u.id now hash

variable (env : Env)

/-- The hash of a password that may be absent. -/
def hashOptional (salt : Bytes) : Option Bytes → Except RepoError (Option Bytes)
  | none => .ok none
  | some plain =>
    match env.hashPassword plain salt with
    | none => .error (.hash (ascii "hash password"))
    | some hash => .ok (some hash)

def updateWithPassword (u : UserArg) (plainPassword : Option Bytes) (salt : Bytes)
    (now : Nat) : PanelM (Except RepoError Unit) :=
  match hashOptional env salt plainPassword with
  | .error e => pure (.error e)
  | .ok hash => do
      let tx ← issue .begin
      let result ← updateStatements tx u hash now
      finishTx tx result

def update (u : UserArg) (now : Nat) : PanelM (Except RepoError Unit) :=
  updateWithPassword env u none [] now

def updatePassword (id : Nat) (plainPassword salt : Bytes) (now : Nat) :
    PanelM (Except RepoError Unit) :=
  match env.hashPassword plainPassword salt with
  | none => pure (.error (.hash (ascii "hash password")))
  | some hash => do
      let _ ← issue (.exec (.updatePassword id hash now))
      return .ok ()

/-- The error for a deletion that removed no row. -/
def deleteRefusal : Option Role → RepoError
  | some .admin => .lastAdmin
  | _ => .notFound

/-- The statements of `Delete`. -/
def deleteStatements (tx id : Nat) : PanelM (Except RepoError Unit) := do
  let changed ← issue (.txExec tx (.deleteUser id))
  if changed ≠ 1 then do
    let current ← issue (.txExec tx (.selectRole id))
    return .error (deleteRefusal current)
  else return .ok ()

def delete (id : Nat) : PanelM (Except RepoError Unit) := do
  let tx ← issue .begin
  let result ← deleteStatements tx id
  finishTx tx result

def updateUserTOTP (id : Nat) (secret : Bytes) (enabled : Bool) (now : Nat) :
    PanelM (Except RepoError Unit) := do
  let _ ← issue (.exec (.updateTotp id secret enabled now))
  return .ok ()

/-- The loop of `SaveRecoveryCodes`, with a salt for each code. -/
def insertCodes (env : Env) (tx userId : Nat) (now : Nat) :
    List (Bytes × Bytes) → PanelM (Except RepoError Unit)
  | [] => pure (.ok ())
  | (code, salt) :: codes =>
    match env.hashPassword code salt with
    | none => pure (.error (.hash (ascii "hash recovery code")))
    | some hash => do
        let result ← issue (.txExec tx (.insertCode userId hash now))
        match result with
        | .error e => return .error (.sql (ascii "insert recovery code") e)
        | .ok _ => insertCodes env tx userId now codes

def saveRecoveryCodes (userId : Nat) (plainCodes : List (Bytes × Bytes)) (now : Nat) :
    PanelM (Except RepoError Unit) := do
  let tx ← issue .begin
  let _ ← issue (.txExec tx (.deleteCodes userId))
  let result ← insertCodes env tx userId now plainCodes
  finishTx tx result

/-- The code `UseRecoveryCode` marks: the first candidate whose hash matches. -/
def matchingCode (plainCode : Bytes) (candidates : List (Nat × Bytes)) : Option (Nat × Bytes) :=
  candidates.find? fun c => env.checkPassword c.2 plainCode

def useRecoveryCode (userId : Nat) (plainCode : Bytes) (now : Nat) : PanelM Bool := do
  let candidates ← issue (.exec (.selectUnused userId))
  match matchingCode env plainCode candidates with
  | none => return false
  | some c => do
      let _ ← issue (.exec (.markUsed c.1 now))
      return true

end HeyServer.Panel
