import HeyServer.Lib.Text
import HeyServer.Lib.Typestate

/-!
# Google Drive sessions

The panel keeps an OAuth token in a file and renders it into the configuration of rclone.
Connecting writes both, disconnecting removes both. Uploads and other requests load the token,
exchange it at the token endpoint when it is about to expire, save what they get and write the
configuration.

## Implementation notes

Every file access and every exchange is an operation; what the endpoint answers, the clock and
whether rclone is installed are arguments of the call. `rclone.conf` is represented by the token
rendered into it. `active`, `alone` and `disconnected` are not kept by the program: they say which
calls are in progress, whether one of them disconnects, and whether a call that disconnects has
returned since the last token of a completed connection was saved. Writes succeed; the parts of an
upload after the token is ready are left out.
-/

namespace HeyServer.Gdrive
open Lib Text

/-- `tokenData`; there is no expiry while it is the zero time. Times are in nanoseconds since 1970.
-/
structure TokenData where
  accessToken : Bytes
  refreshToken : Bytes
  tokenType : Bytes
  expiry : Option Nat
  redirectURI : Bytes
deriving DecidableEq

/-- January 1, 2000 -/
def year2000 : Nat := 946684800 * 1000000000

def twoMinutes : Nat := 120 * 1000000000

/-- An expiry the token endpoint may give. -/
def validExpiry (expiry : Option Nat) : Bool := expiry.any fun t => decide (year2000 ≤ t)

def tokenNeedsRefresh (now : Nat) (td : TokenData) : Bool :=
  td.refreshToken = [] || td.accessToken = [] || !validExpiry td.expiry ||
    td.expiry.any fun t => decide (t < now + twoMinutes)

/-! ## Operations -/

structure Drive where
  token : Option TokenData := none
  conf : Option TokenData := none
  /-- `refreshMu` is held. -/
  refreshing : Bool := false
  active : List Nat := []
  next : Nat := 0
  alone : Bool := false
  disconnected : Bool := false

inductive DriveOp
  /-- A call begins; `disconnect` says whether it is `Disconnect`. -/
  | start (disconnect : Bool)
  | finish (ticket : Nat) (disconnect : Bool)
  | loadToken
  /-- `connect` says whether the token is that of a completed connection. -/
  | saveToken (td : TokenData) (connect : Bool)
  | writeConfig (td : TokenData)
  | deleteToken
  | removeConf
  | lockRefresh
  | unlockRefresh
  | exchange
deriving DecidableEq

def DriveOp.Reply : DriveOp → Type
  | .start _ => Nat
  | .loadToken => Option TokenData
  | _ => Unit

def DriveOp.exec (s : Drive) : (op : DriveOp) → Drive × op.Reply
  | .start disconnect =>
    ({ s with active := s.next :: s.active, next := s.next + 1, alone := s.alone || disconnect },
      s.next)
  | .finish ticket disconnect =>
    ({ s with active := s.active.filter (· ≠ ticket), alone := s.alone && !disconnect }, ())
  | .loadToken => (s, s.token.filter fun td => td.refreshToken ≠ [])
  | .saveToken td connect =>
    ({ s with token := some td, disconnected := s.disconnected && !connect }, ())
  | .writeConfig td => ({ s with conf := some td }, ())
  | .deleteToken => ({ s with token := none }, ())
  | .removeConf => ({ s with conf := none, disconnected := true }, ())
  | .lockRefresh => ({ s with refreshing := true }, ())
  | .unlockRefresh => ({ s with refreshing := false }, ())
  | .exchange => (s, ())

def driveSemantics : Semantics Drive DriveOp DriveOp.Reply where
  exec := DriveOp.exec
  ready s
    | .lockRefresh => !s.refreshing
    | _ => true

/-! ## Programs -/

inductive DriveError
  | notConfigured
  | notConnected
  | rcloneNotFound
  | exchangeFailed
  | noRefreshToken
  | emptyAccessToken
  | invalidExpiry
  | pendingSession
deriving DecidableEq

abbrev DriveM := Prog DriveOp DriveOp.Reply

/-- What the token endpoint answers. -/
structure Issued where
  accessToken : Bytes
  refreshToken : Bytes
  tokenType : Bytes
  expiry : Option Nat

/-- The environment of one refresh: the clock when the token is checked and checked again, and the
answer of the endpoint. -/
structure Refresh where
  now : Nat
  later : Nat
  answer : Option Issued

/-- The installation and the request of a call. -/
structure Request where
  configured : Bool
  rcloneFound : Bool
  configuredRedirect : Bytes
  redirectURI : Bytes

variable (req : Request)

/-- `s.effectiveRedirectURI` -/
def effectiveRedirectURI : DriveM Bytes :=
  .call .loadToken fun (td : Option TokenData) =>
    .done (
      match td with
      | some td => if trimSpace td.redirectURI ≠ [] then trimSpace td.redirectURI else fallback req
      | none => fallback req)
where
  fallback (req : Request) : Bytes :=
    if trimSpace req.configuredRedirect ≠ [] then trimSpace req.configuredRedirect
    else trimSpace req.redirectURI

variable (td : TokenData) (uri : Bytes)

/-- The redirect of a token, or else the one given. -/
def tokenRedirect : Bytes :=
  if td.redirectURI ≠ [] then td.redirectURI else uri

/-- The token that an answer of the endpoint gives. -/
def updatedToken (tok : Issued) : TokenData where
  accessToken := tok.accessToken
  refreshToken := if tok.refreshToken = [] then td.refreshToken else tok.refreshToken
  tokenType := tok.tokenType
  expiry := tok.expiry
  redirectURI := if uri = [] then td.redirectURI else uri

/-- The exchange and what follows it, under `refreshMu`. -/
def exchangeToken (answer : Option Issued) : DriveM (Except DriveError TokenData) :=
  .call .exchange fun _ =>
    match answer with
    | none => .call .unlockRefresh fun _ => .done (.error .exchangeFailed)
    | some tok =>
      if tok.accessToken = [] then .call .unlockRefresh fun _ => .done (.error .emptyAccessToken)
      else if validExpiry tok.expiry = false then
        .call .unlockRefresh fun _ => .done (.error .invalidExpiry)
      else
        .call (.saveToken (updatedToken td uri tok) false) fun _ =>
          .call .unlockRefresh fun _ => .done (.ok (updatedToken td uri tok))

variable (env : Refresh)

def refreshIfNeeded : DriveM (Except DriveError TokenData) :=
  if tokenNeedsRefresh env.now td = false then .done (.ok td)
  else
    .call .lockRefresh fun _ =>
      .call .loadToken fun (fresh : Option TokenData) =>
        match fresh with
        | some fresh =>
          if tokenNeedsRefresh env.later fresh = false then
            .call .unlockRefresh fun _ => .done (.ok fresh)
          else exchangeToken fresh (tokenRedirect fresh (tokenRedirect td uri)) env.answer
        | none => exchangeToken td (tokenRedirect td uri) env.answer

/-- `forceRefresh` -/
def forceRefresh : DriveM (Except DriveError TokenData) :=
  refreshIfNeeded { td with expiry := none } uri env

/-- The common course of `ensureReady` and `RefreshSession`. -/
def readyWith (refresh : TokenData → Bytes → Refresh → DriveM (Except DriveError TokenData))
    (req : Request) (env : Refresh) : DriveM (Except DriveError Unit) := do
  let uri ← effectiveRedirectURI req
  if req.rcloneFound = false then .done (.error .rcloneNotFound)
  else
    .call .loadToken fun (td : Option TokenData) =>
      match td with
      | none => .done (.error .notConnected)
      | some td => do
          match ← refresh td uri env with
          | .error e => .done (.error e)
          | .ok td => .call (.writeConfig td) fun _ => .done (.ok ())

def ensureReady : DriveM (Except DriveError Unit) :=
  readyWith refreshIfNeeded req env

def refreshSession : DriveM (Except DriveError Unit) :=
  readyWith forceRefresh req env

/-- `uploadTracked` up to the copy: a failed refresh is tried once more. -/
def upload (env again : Refresh) : DriveM (Except DriveError Unit) := do
  match ← refreshSession req env with
  | .ok () => .done (.ok ())
  | .error _ => ensureReady req again

/-- `Status`: the token is refreshed, the configuration is not written. -/
def status : DriveM (Except DriveError Unit) := do
  let uri ← effectiveRedirectURI req
  if req.configured = false ∨ req.rcloneFound = false then .done (.error .notConfigured)
  else
    .call .loadToken fun (td : Option TokenData) =>
      match td with
      | none => .done (.error .notConnected)
      | some td => do
          match ← refreshIfNeeded td uri env with
          | .error e => .done (.error e)
          | .ok _ => .done (.ok ())

/-- `OAuthComplete`, with the redirect of the pending session, if there is one. -/
def oauthComplete (session : Option Bytes) (answer : Option Issued) :
    DriveM (Except DriveError Unit) :=
  match session with
  | none => .done (.error .pendingSession)
  | some uri =>
    .call .exchange fun _ =>
      match answer with
      | none => .done (.error .exchangeFailed)
      | some tok =>
        if tok.refreshToken = [] then .done (.error .noRefreshToken)
        else
          let td : TokenData := ⟨tok.accessToken, tok.refreshToken, tok.tokenType, tok.expiry, uri⟩
          .call (.saveToken td true) fun _ => .call (.writeConfig td) fun _ => .done (.ok ())

inductive DriveCall
  | ensureReady (req : Request) (env : Refresh)
  | refreshSession (req : Request) (env : Refresh)
  | upload (req : Request) (env again : Refresh)
  | status (req : Request) (env : Refresh)
  | oauthComplete (session : Option Bytes) (answer : Option Issued)
  | disconnect

namespace DriveCall

def body : DriveCall → DriveM (Except DriveError Unit)
  | .ensureReady req env => Gdrive.ensureReady req env
  | .refreshSession req env => Gdrive.refreshSession req env
  | .upload req env again => Gdrive.upload req env again
  | .status req env => Gdrive.status req env
  | .oauthComplete session answer => Gdrive.oauthComplete session answer
  | .disconnect => .call .deleteToken fun _ => .call .removeConf fun _ => .done (.ok ())

def isDisconnect : DriveCall → Bool
  | .disconnect => true
  | _ => false

def program (c : DriveCall) : DriveM (Except DriveError Unit) :=
  .call (.start c.isDisconnect) fun (ticket : Nat) =>
    c.body >>= fun result => .call (.finish ticket c.isDisconnect) fun _ => .done result

end DriveCall

def driveSystem : System Drive DriveOp DriveOp.Reply DriveCall (Except DriveError Unit) where
  sem := driveSemantics
  program := DriveCall.program

end HeyServer.Gdrive
