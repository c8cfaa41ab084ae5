import HeyServer.Panel.Users
import HeyServer.Lib.Text

/-!
# Login and two-factor handlers of the panel

The request handlers that read or write a user's second factor, over the
repository, and the system of all calls on the panel's database.

## Implementation notes

The body of a request comes decoded. Audit entries, cookies and the rate limiter do
not touch the tables and are left out; a token stands for the user it is issued to.
-/

namespace HeyServer.Panel
open Lib

structure HttpError where
  status : Nat
  message : Bytes
  deriving DecidableEq

/-- `TOTPSetup`; each recovery code comes with the salt of its hash. -/
structure TotpSetup where
  secret : Bytes
  recoveryCodes : List (Bytes × Bytes)
  deriving DecidableEq

inductive HandlerValue
  | setup (secret : Bytes) (recoveryCodes : List Bytes)
  | enabled
  | disabled
  | requiresTotp (email : Bytes)
  | token (userId : Nat)
  deriving DecidableEq

abbrev HandlerResult := Except HttpError HandlerValue

/-- `jsonError` -/
def fail (status : Nat) (message : String) : PanelM HandlerResult :=
  pure (.error ⟨status, ascii message⟩)

/-- `^[0-9]{6}$` -/
def isTotpCode (code : Bytes) : Bool :=
  code.length = 6 && code.all fun b => 0x30 ≤ b && b ≤ 0x39

/-! ## Two-factor settings -/

variable (env : Env) (id : Nat)

/-- The end of `handleTOTPSetup`. -/
def storeSetup (setup : TotpSetup) (now : Nat) : PanelM HandlerResult := do
  let stored ← updateUserTOTP id setup.secret false now
  match stored with
  | .error _ => fail 500 "failed to save TOTP secret"
  | .ok _ => do
      let saved ← saveRecoveryCodes env id setup.recoveryCodes now
      match saved with
      | .error _ => fail 500 "failed to save recovery codes"
      | .ok _ => return .ok (.setup setup.secret (setup.recoveryCodes.map Prod.fst))

/-- The part of `handleTOTPSetup` that depends on the user as read. -/
def setupFor (generated : Option TotpSetup) (now : Nat) :
    Option (Nat × UserRow) → PanelM HandlerResult
  | none => fail 401 "user not found"
  | some (_, dbUser) =>
    if dbUser.totpEnabled then fail 409 "2FA is already enabled"
    else
      match generated with
      | none => fail 500 "failed to generate TOTP secret"
      | some setup => storeSetup env id setup now

/-- `handleTOTPSetup`; `generated` is what `security.GenerateTOTP` returns. -/
def handleTOTPSetup (bodyEmpty : Bool) (user : Option Nat)
    (generated : Option TotpSetup) (now : Nat) : PanelM HandlerResult :=
  if bodyEmpty = false then fail 400 "2FA setup request body must be empty"
  else
    match user with
    | none => fail 401 "unauthorized"
    | some id => do
        let found ← issue (.exec (.selectById id))
        setupFor env id generated now found

/-- The end of `handleTOTPVerify`. -/
def enableTotp (secret : Bytes) (now : Nat) : PanelM HandlerResult := do
  let stored ← updateUserTOTP id secret true now
  match stored with
  | .error _ => fail 500 "failed to enable 2FA"
  | .ok _ => return .ok .enabled

/-- The part of `handleTOTPVerify` that depends on the user as read. -/
def verifyFor (code : Bytes) (now : Nat) : Option (Nat × UserRow) → PanelM HandlerResult
  | none => fail 401 "user not found"
  | some (_, dbUser) =>
    if dbUser.totpSecret = [] then fail 400 "totp setup not initiated"
    else
      match env.verifyTOTP dbUser.totpSecret code now with
      | none => fail 400 "totp verification error"
      | some false => fail 401 "invalid code"
      | some true => enableTotp id dbUser.totpSecret now

def handleTOTPVerify (user : Option Nat) (code : Bytes) (now : Nat) : PanelM HandlerResult :=
  match user with
  | none => fail 401 "unauthorized"
  | some id =>
    if isTotpCode code = false then fail 400 "code must contain exactly 6 digits"
    else do
      let found ← issue (.exec (.selectById id))
      verifyFor env id code now found

/-- The end of `handleTOTPDisable`. -/
def disableTotp (now : Nat) : PanelM HandlerResult := do
  let stored ← updateUserTOTP id [] false now
  match stored with
  | .error _ => fail 500 "failed to disable 2FA"
  | .ok _ => return .ok .disabled

/-- The part of `handleTOTPDisable` that depends on the user as read. -/
def disableFor (code : Bytes) (now : Nat) : Option (Nat × UserRow) → PanelM HandlerResult
  | none => fail 401 "user not found"
  | some (_, dbUser) =>
    if dbUser.totpEnabled = false ∨ dbUser.totpSecret = [] then fail 400 "2FA is not enabled"
    else
      match env.verifyTOTP dbUser.totpSecret code now with
      | some true => disableTotp id now
      | _ => fail 401 "invalid code"

def handleTOTPDisable (user : Option Nat) (code : Bytes) (now : Nat) : PanelM HandlerResult :=
  match user with
  | none => fail 401 "unauthorized"
  | some id =>
    if isTotpCode code = false then fail 400 "code must contain exactly 6 digits"
    else do
      let found ← issue (.exec (.selectById id))
      disableFor env id code now found

/-! ## Logins -/

/-- The decoded body of a login. -/
structure Credentials where
  email : Bytes
  password : Bytes
  /-- The second factor: a code, a recovery code, or nothing. -/
  code : Bytes := []

/-- A token for the user; `signed` tells whether `auth.GenerateToken` succeeds. -/
def issueToken (signed : Bool) (id : Nat) : PanelM HandlerResult :=
  if signed then pure (.ok (.token id)) else fail 500 "could not generate token"

/-- The common part of the logins: the user with this address and password goes on. -/
def withUser (email password : Bytes) (next : Nat → UserRow → PanelM HandlerResult) :
    PanelM HandlerResult := do
  let found ← issue (.exec (.selectByEmail email))
  match found with
  | none => fail 401 "invalid credentials"
  | some (id, user) =>
    if env.checkPassword user.password password = false then fail 401 "invalid credentials"
    else next id user

/-- The limits on the fields of a login. -/
def oversized (email password : Bytes) : Bool := 254 < email.length || 128 < password.length

variable (req : Credentials)

def handleLogin (signed : Bool) : PanelM HandlerResult :=
  let email := Text.trimSpace req.email
  if email = [] ∨ req.password = [] then fail 400 "email and password are required"
  else if oversized email req.password then fail 400 "invalid credentials"
  else withUser env email req.password fun id user =>
    if user.totpEnabled then pure (.ok (.requiresTotp user.email)) else issueToken signed id

def handleTOTPLogin (signed : Bool) (now : Nat) : PanelM HandlerResult :=
  let email := Text.trimSpace req.email
  if email = [] ∨ req.password = [] ∨ req.code = [] then
    fail 400 "email, password and code are required"
  else if oversized email req.password then fail 400 "invalid credentials"
  else if isTotpCode req.code = false then fail 400 "invalid credentials"
  else withUser env email req.password fun id user =>
    if user.totpEnabled = false ∨ user.totpSecret = [] then issueToken signed id
    else if env.verifyTOTP user.totpSecret req.code now = some true then issueToken signed id
    else fail 401 "invalid TOTP code"

/-- `strings.ToUpper` on ASCII letters; a recovery code with another letter never matches
the pattern. -/
def upper (text : Bytes) : Bytes := text.map Text.upperByte

/-- `[A-F0-9]` -/
def isHexUpper (b : UInt8) : Bool := (0x41 ≤ b && b ≤ 0x46) || (0x30 ≤ b && b ≤ 0x39)

/-- `^[A-F0-9]{5}-[A-F0-9]{5}$` -/
def isRecoveryCode (code : Bytes) : Bool :=
  code.length = 11 && (code.take 5).all isHexUpper && (code.drop 5).head? = some 0x2D &&
    (code.drop 6).all isHexUpper

def handleTOTPRecovery (signed : Bool) (now : Nat) : PanelM HandlerResult :=
  let email := Text.trimSpace req.email
  let code := upper (Text.trimSpace req.code)
  if email = [] ∨ req.password = [] ∨ code = [] then
    fail 400 "email, password and recovery_code are required"
  else if oversized email req.password ∨ isRecoveryCode code = false then
    fail 400 "invalid credentials"
  else withUser env email req.password fun id user =>
    if user.totpEnabled = false then fail 401 "invalid credentials"
    else do
      let ok ← useRecoveryCode env id code now
      if ok = false then fail 401 "invalid or already-used recovery code"
      else issueToken signed id

/-! ## Calls -/

inductive PanelCall
  | create (u : UserArg) (now : Nat)
  | update (u : UserArg) (now : Nat)
  | updateWithPassword (u : UserArg) (plainPassword : Option Bytes) (salt : Bytes) (now : Nat)
  | updatePassword (id : Nat) (plainPassword salt : Bytes) (now : Nat)
  | updateUserTOTP (id : Nat) (secret : Bytes) (enabled : Bool) (now : Nat)
  | delete (id : Nat)
  | saveRecoveryCodes (userId : Nat) (plainCodes : List (Bytes × Bytes)) (now : Nat)
  | useRecoveryCode (userId : Nat) (plainCode : Bytes) (now : Nat)
  | totpSetup (bodyEmpty : Bool) (user : Option Nat) (generated : Option TotpSetup) (now : Nat)
  | totpVerify (user : Option Nat) (code : Bytes) (now : Nat)
  | totpDisable (user : Option Nat) (code : Bytes) (now : Nat)
  | login (req : Credentials) (signed : Bool)
  | totpLogin (req : Credentials) (signed : Bool) (now : Nat)
  | recoveryLogin (req : Credentials) (signed : Bool) (now : Nat)

inductive PanelValue
  | created (result : Except RepoError Nat)
  | repo (result : Except RepoError Unit)
  | used (ok : Bool)
  | handled (result : HandlerResult)
  deriving DecidableEq

def PanelCall.program : PanelCall → PanelM PanelValue
  | .create u now => .created <$> Panel.create u now
  | .update u now => .repo <$> Panel.update env u now
  | .updateWithPassword u plain salt now => .repo <$> Panel.updateWithPassword env u plain salt now
  | .updatePassword id plain salt now => .repo <$> Panel.updatePassword env id plain salt now
  | .updateUserTOTP id secret enabled now => .repo <$> Panel.updateUserTOTP id secret enabled now
  | .delete id => .repo <$> Panel.delete id
  | .saveRecoveryCodes userId codes now => .repo <$> Panel.saveRecoveryCodes env userId codes now
  | .useRecoveryCode userId code now => .used <$> Panel.useRecoveryCode env userId code now
  | .totpSetup bodyEmpty user generated now =>
    .handled <$> handleTOTPSetup env bodyEmpty user generated now
  | .totpVerify user code now => .handled <$> handleTOTPVerify env user code now
  | .totpDisable user code now => .handled <$> handleTOTPDisable env user code now
  | .login req signed => .handled <$> handleLogin env req signed
  | .totpLogin req signed now => .handled <$> handleTOTPLogin env req signed now
  | .recoveryLogin req signed now => .handled <$> handleTOTPRecovery env req signed now

def panelSystem : System PanelState PanelOp (DbReply Stmt.Reply) PanelCall PanelValue where
  sem := panelSemantics
  program := PanelCall.program env

abbrev PanelEvent := Event PanelState PanelOp PanelCall

abbrev PanelConfig := Config PanelState PanelOp (DbReply Stmt.Reply) PanelCall PanelValue

/-- The interleaved runs of calls on the panel's database. -/
abbrev PanelRun (allowed : PanelCall → Prop) (init : PanelState)
    (trace : List PanelEvent) (cfg : PanelConfig) : Prop :=
  Run (panelSystem env) allowed init trace cfg

/-- The value of a finished call. -/
def PanelConfig.value? (cfg : PanelConfig) (id : Nat) : Option PanelValue :=
  match cfg.calls[id]? with
  | some (_, .done v) => some v
  | _ => none

/-- The discipline under which nothing is assumed of the other calls. -/
abbrev anyInterference : Discipline panelSemantics fun _ => True := Discipline.free panelSemantics

end HeyServer.Panel
