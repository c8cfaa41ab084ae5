import HeyServer.Lib.Decimal
import HeyServer.Lib.Program
import HeyServer.Lib.RowTable

/-!
# Notification channels

A channel is a row with a revision and a reference, and a protected file with the
configuration. An update first moves the row to the next revision with a pending reference,
then replaces the file, then publishes the reference. Start-up promotes what an interrupted
update left pending. A delivery reads the row and the file and leaves a receipt with the
revision it read.

## Implementation notes

Programs consist of the statements and file operations of the source. A write of a file is its
rename: the temporary file before it is read by nobody. The two flags of an update say
whether a write fails. `replaced` and `used` are not read by any program: they say whether a
file was replaced since its row was fenced, and which configuration a receipt stands for.
-/

namespace HeyServer.Notify
open Lib Decimal List

/-- A row of `notification_channels` -/
structure ChannelRow where
  name : Bytes
  type : Bytes
  config : Bytes
  enabled : Bool
  configRevision : Nat
  deriving DecidableEq

inductive Outcome
  | success | failure
  deriving DecidableEq

inductive Source
  | manualTest | alert | uptime | backup
  deriving DecidableEq

/-- A row of `notification_delivery_receipts`, with the configuration that was used. -/
structure Receipt where
  configRevision : Nat
  outcome : Outcome
  source : Source
  observedAt : Int
  used : Bytes
  deriving DecidableEq

structure ChannelDb where
  rows : RowTable ChannelRow
  receipts : Nat → Option Receipt

/-- The database, the transaction that is open on it, and the files of the channels with
those moved away. -/
structure ChannelStore where
  db : ChannelDb
  tx : Option ChannelDb
  files : Nat → Option Bytes
  tombstones : List (Nat × Bytes)
  replaced : Nat → Bool

/-- `channelConfigReference` -/
def reference (id : Nat) : Bytes := ascii "file:" ++
    (ascii "channel-" ++ formatNat id ++ ascii ".json")

/-- `channelConfigPendingReference` -/
def pendingReference (id : Nat) : Bytes :=
  ascii "pending:" ++ (ascii "channel-" ++ formatNat id ++ ascii ".json")

theorem pendingReference_ne_reference (id id' : Nat) : pendingReference id ≠ reference id' := by
  intro h
  have hpending : ascii "pending:" = 0x70 :: ascii "ending:" := by decide
  have hfile : ascii "file:" = 0x66 :: ascii "ile:" := by decide
  rw [pendingReference, reference, hpending, hfile, cons_append, cons_append] at h
  exact absurd (cons.inj h).1 (by decide)

/-- Why a file is written. -/
inductive WriteKind
  | create | change | restore | legacy
  deriving DecidableEq

inductive ChannelOp
  /-- `SELECT … WHERE id = ?` -/
  | readRow (id : Nat)
  /-- `SELECT … ORDER BY id ASC` -/
  | listRows
  | readFile (id : Nat)
  /-- the rename that ends a write -/
  | replaceFile (kind : WriteKind) (id : Nat) (content : Bytes) (fails : Bool)
  /-- the update that advances the revision of a row that is as it was read -/
  | fence (id : Nat) (name : Bytes) (enabled : Bool) (previous : ChannelRow)
  /-- `rollbackNotificationChannelUpdate` -/
  | rollback (id : Nat) (previous : ChannelRow) (fencedRevision : Nat)
  | publish (id : Nat) (configRevision : Nat)
  /-- the update of a reference at start-up -/
  | promote (id : Nat) (stored : Bytes)
  | upsert (id : Nat) (receipt : Receipt)
  | begin
  | insertRow (name type : Bytes) (enabled : Bool)
  | setReference (id : Nat)
  | deleteRow (id : Nat)
  | commit
  /-- the deferred `Rollback` of a transaction that was not committed -/
  | abort
  /-- the rename to a tombstone -/
  | entomb (id : Nat)
  | removeTombstone (id : Nat)

namespace ChannelOp

def Reply : ChannelOp → Type
  | readRow _ => Option ChannelRow
  | listRows => List (Nat × ChannelRow)
  | readFile _ => Option Bytes
  | replaceFile _ _ _ _ | fence _ _ _ _ | rollback _ _ _ | publish _ _ | promote _ _ => Bool
  | entomb _ => Bool
  | insertRow _ _ _ => Nat
  | upsert _ _ | begin | setReference _ | deleteRow _ | commit | abort | removeTombstone _ => Unit

end ChannelOp

namespace ChannelStore
variable (s : ChannelStore)

/-- An update of the row of one channel, with whether there was one. -/
def updateRow (id : Nat) (p : ChannelRow → Bool) (f : ChannelRow → ChannelRow) :
    ChannelStore × Bool :=
  ({ s with db := { s.db with rows := s.db.rows.update (fun key row => key = id && p row) f } },
    (s.db.rows.get? id).any p)

/-- A statement in the open transaction. -/
def inTx (f : ChannelDb → ChannelDb) : ChannelStore := { s with tx := s.tx.map f }

/-- The rows as the open transaction sees them. -/
def visible : ChannelDb := s.tx.getD s.db

/-- `UpsertContext`: a receipt gives way to one of a later revision, or of the same revision
and not observed earlier. -/
def upsert (id : Nat) (receipt : Receipt) : ChannelStore :=
  if (s.db.rows.get? id).isSome ∧ ∀ old ∈ s.db.receipts id,
      old.configRevision < receipt.configRevision ∨
        old.configRevision = receipt.configRevision ∧ old.observedAt ≤ receipt.observedAt
  then { s with db := { s.db with receipts := Function.update s.db.receipts id (some receipt) } }
  else s

def replaceFile (kind : WriteKind) (id : Nat) (content : Bytes) : ChannelStore :=
  { s with
    files := Function.update s.files id (some content)
    replaced := if kind = .change then Function.update s.replaced id true else s.replaced }

def entomb (id : Nat) (content : Bytes) : ChannelStore :=
  { s with
    files := Function.update s.files id none
    tombstones := s.tombstones ++ [(id, content)] }

def exec : (op : ChannelOp) → ChannelStore × op.Reply
  | .readRow id => (s, s.visible.rows.get? id)
  | .listRows => (s, s.db.rows.rows)
  | .readFile id => (s, s.files id)
  | .replaceFile kind id content fails =>
    if fails then (s, false) else (s.replaceFile kind id content, true)
  | .fence id name enabled previous =>
    let (s', fenced) := s.updateRow id
      (fun row => row.configRevision = previous.configRevision && row.config = previous.config)
      fun row => { row with
        name, enabled, config := pendingReference id, configRevision := row.configRevision + 1 }
    (if fenced then { s' with replaced := Function.update s'.replaced id false } else s', fenced)
  | .rollback id previous fencedRevision =>
    s.updateRow id
      (fun row => row.configRevision = fencedRevision && row.config = pendingReference id)
      fun row => { previous with type := row.type }
  | .publish id configRevision =>
    s.updateRow id
      (fun row => row.configRevision = configRevision && row.config = pendingReference id)
      fun row => { row with config := reference id }
  | .promote id stored =>
    s.updateRow id (fun row => row.config = stored) fun row => { row with config := reference id }
  | .upsert id receipt => (s.upsert id receipt, ())
  | .begin => ({ s with tx := some s.db }, ())
  | .insertRow name type enabled =>
    (s.inTx fun db => { db with
        rows := db.rows.insert ⟨name, type, ascii "\x7b\x7d", enabled, 1⟩ },
      s.visible.rows.seq + 1)
  | .setReference id =>
    (s.inTx fun db => { db with
        rows := db.rows.update (fun key _ => key = id) fun row =>
          { row with config := reference id } }, ())
  | .deleteRow id =>
    (s.inTx fun db => {
        rows := db.rows.delete fun key _ => key = id
        receipts := Function.update db.receipts id none }, ())
  | .commit => ({ s with db := s.visible, tx := none }, ())
  | .abort => ({ s with tx := none }, ())
  | .entomb id =>
    match s.files id with
    | none => (s, false)
    | some content => (s.entomb id content, true)
  | .removeTombstone id => ({ s with tombstones := s.tombstones.filter fun t => t.1 ≠ id }, ())

/-- A crash loses the open transaction. -/
def crashed : ChannelStore := { s with tx := none }

end ChannelStore

def channelSemantics : Semantics ChannelStore ChannelOp ChannelOp.Reply where
  exec := ChannelStore.exec

/-! ## Programs -/

inductive ChannelError
  | invalidConfig
  | noRows
  | notFound
  | secretStoreUnavailable
  | writeFailed
  | restoreFailed
  | rollbackFailed
  | concurrentUpdate
  | invalidPending
  | stageRemoval
  deriving DecidableEq

/-- A program of the repository. -/
abbrev ChannelProg := Prog ChannelOp ChannelOp.Reply (Except ChannelError Unit)

section Programs
variable (isObject : Bytes → Bool)

/-- `validateNotificationChannelConfig`; whether a text decodes into a JSON object is a
parameter. -/
def validConfig (config : Bytes) : Bool :=
  config ≠ [] && config.length ≤ 64 * 1024 && isObject config

variable (id : Nat)

/-- `readChannelConfig` and what is done with the configuration. -/
def readChannelConfig (stored : Bytes) (next : Bytes → ChannelProg) : ChannelProg :=
  if stored = reference id then
    .call (.readFile id) fun
      | none => .done (.error .secretStoreUnavailable)
      | some content =>
        if validConfig isObject content then next content
        else .done (.error .secretStoreUnavailable)
  else .done (.error .secretStoreUnavailable)

/-- The arguments of an update, with the faults of its two writes. -/
structure ChannelUpdate where
  id : Nat
  name : Bytes
  config : Bytes
  enabled : Bool
  writeFails : Bool
  restoreFails : Bool
  deriving DecidableEq

section Update
variable (u : ChannelUpdate) (previous : ChannelRow) (oldConfig : Bytes)

/-- The statement that ends an update. -/
def publishUpdate : ChannelProg :=
  .call (.publish u.id (previous.configRevision + 1)) fun (published : Bool) =>
    if published then .done (.ok ()) else .done (.error .concurrentUpdate)

def rollbackUpdate : ChannelProg :=
  .call (.rollback u.id previous (previous.configRevision + 1)) fun (rolledBack : Bool) =>
    if rolledBack then .done (.error .writeFailed) else .done (.error .rollbackFailed)

def restoreConfig : ChannelProg :=
  .call (.replaceFile .restore u.id oldConfig u.restoreFails) fun (restored : Bool) =>
    if restored then rollbackUpdate u previous else .done (.error .restoreFailed)

def writeConfig : ChannelProg :=
  .call (.replaceFile .change u.id u.config u.writeFails) fun (written : Bool) =>
    if written then publishUpdate u previous else restoreConfig u previous oldConfig

def fenceUpdate : ChannelProg :=
  .call (.fence u.id u.name u.enabled previous) fun (fenced : Bool) =>
    if fenced then writeConfig u previous oldConfig else .done (.error .noRows)

/-- `updateWithConfigWriter` -/
def updateWithConfigWriter : ChannelProg :=
  if validConfig isObject u.config then
    .call (.readRow u.id) fun
      | none => .done (.error .noRows)
      | some previous =>
        readChannelConfig isObject u.id previous.config fun oldConfig =>
          fenceUpdate u previous oldConfig
  else .done (.error .invalidConfig)

end Update

/-- The end of a transaction that is given up. -/
def abortWith (result : Except ChannelError Unit) : ChannelProg :=
  .call .abort fun _ => .done result

/-- `Create` -/
def create (name type config : Bytes) (enabled writeFails : Bool) : ChannelProg :=
  if validConfig isObject config then
    .call .begin fun _ => .call (.insertRow name type enabled) fun id =>
      .call (.replaceFile .create id config writeFails) fun (written : Bool) =>
        if written then
          .call (.setReference id) fun _ => .call .commit fun _ => .done (.ok ())
        else abortWith (.error .writeFailed)
  else .done (.error .invalidConfig)

/-- `deleteChannel` after it has read the row. -/
def deleteFound : Option ChannelRow → ChannelProg
  | none => abortWith (.ok ())
  | some row =>
    if row.config = reference id then
      .call (.entomb id) fun (moved : Bool) =>
        if moved then
          .call (.deleteRow id) fun _ => .call .commit fun _ =>
            .call (.removeTombstone id) fun _ => .done (.ok ())
        else abortWith (.error .stageRemoval)
    else abortWith (.error .secretStoreUnavailable)

/-- `deleteChannel` -/
def deleteChannel : ChannelProg :=
  .call .begin fun _ => .call (.readRow id) fun found => deleteFound id found

/-- The update of a reference at start-up, and what comes after it. -/
def promoteReference (stored : Bytes) (next : ChannelProg) : ChannelProg :=
  .call (.promote id stored) fun (promoted : Bool) =>
    if promoted then next else .done (.error .concurrentUpdate)

/-- `migrateLegacyChannelConfigs` for the rows it has listed. -/
def migrateConfigs : List (Nat × ChannelRow) → ChannelProg
  | [] => .done (.ok ())
  | (id, row) :: rest =>
    if (ascii "pending:").isPrefixOf row.config then
      if row.config = pendingReference id then
        readChannelConfig isObject id (reference id) fun _ =>
          promoteReference id row.config (migrateConfigs rest)
      else .done (.error .invalidPending)
    else if (ascii "file:").isPrefixOf row.config then
      readChannelConfig isObject id row.config fun _ => migrateConfigs rest
    else if validConfig isObject row.config then
      .call (.replaceFile .legacy id row.config false) fun (written : Bool) =>
        if written then promoteReference id row.config (migrateConfigs rest)
        else .done (.error .writeFailed)
    else .done (.error .invalidConfig)

/-- `NewNotificationChannelRepository` -/
def newRepository : ChannelProg :=
  .call .listRows fun rows => migrateConfigs isObject rows

/-! ### Deliveries -/

/-- A channel as `List` and `Get` return it. -/
structure Channel where
  id : Nat
  row : ChannelRow
  config : Bytes
  deriving DecidableEq

/-- The loop of `List` over the rows, and what is done with the channels. -/
def hydrate (next : List Channel → ChannelProg) :
    List (Nat × ChannelRow) → List Channel → ChannelProg
  | [], channels => next channels
  | (id, row) :: rest, channels =>
    readChannelConfig isObject id row.config fun config =>
      hydrate next rest (channels ++ [⟨id, row, config⟩])

/-- Where a message goes out: what each channel answers, and what the receipts say. -/
structure Sending where
  sends : Nat → Bytes → Bool
  source : Source
  observedAt : Int

variable (d : Sending)

/-- The receipt of an attempt; `SendWithResults` and `PersistDeliveryResults` -/
def Sending.receipt (channel : Channel) : Receipt where
  configRevision := channel.row.configRevision
  outcome := if d.sends channel.id channel.config then .success else .failure
  source := d.source
  observedAt := d.observedAt
  used := channel.config

/-- `PersistDeliveryResults`; a receipt whose revision is not positive is rejected. -/
def persistResults (d : Sending) : List Channel → ChannelProg
  | [] => .done (.ok ())
  | channel :: rest =>
    if 0 < channel.row.configRevision then
      .call (.upsert channel.id (d.receipt channel)) fun _ => persistResults d rest
    else persistResults d rest

/-- A dispatch to all enabled channels. -/
def dispatch : ChannelProg :=
  .call .listRows fun rows =>
    hydrate isObject (fun channels => persistResults d (channels.filter fun c => c.row.enabled))
      rows []

/-- `handleNotifyChannelTest` -/
def testChannel (id : Nat) : ChannelProg :=
  .call (.readRow id) fun
    | none => .done (.error .notFound)
    | some row => readChannelConfig isObject id row.config fun config =>
      persistResults d [⟨id, row, config⟩]

end Programs

/-! ## Availability -/

inductive IntegrationState
  | notConfigured | unavailable | healthy
  deriving DecidableEq

structure AvailabilityStatus where
  state : IntegrationState
  detail : Bytes
  deriving DecidableEq

/-- `ChannelAvailabilityWithReceipt`; whether the configuration of a type can be read and has
anything in it is a parameter. -/
def channelAvailabilityWithReceipt (configured : Bytes → Bytes → Option Bool) (channel : Channel)
    (receipt : Option Receipt) (now : Int) : AvailabilityStatus :=
  match configured channel.row.type channel.config with
  | none => ⟨.unavailable, ascii "config_unavailable"⟩
  | some false => ⟨.notConfigured, ascii "not_configured"⟩
  | some true =>
    if !channel.row.enabled then ⟨.unavailable, ascii "configured_disabled"⟩
    else
      match receipt with
      | none => ⟨.unavailable, ascii "probe_unverified"⟩
      | some receipt =>
        if receipt.configRevision ≠ channel.row.configRevision ∨ now < receipt.observedAt then
          ⟨.unavailable, ascii "probe_unverified"⟩
        else if receipt.outcome = .failure then ⟨.unavailable, ascii "delivery_failed"⟩
        else if now - receipt.observedAt > 7 * 24 * 3600000000000 then
          ⟨.unavailable, ascii "delivery_stale"⟩
        else ⟨.healthy, ascii "delivery_confirmed"⟩

/-- What `Get` returns when nothing else runs. -/
def ChannelStore.channel? (isObject : Bytes → Bool) (s : ChannelStore) (id : Nat) :
    Option Channel :=
  match s.db.rows.get? id, s.files id with
  | some row, some config =>
    if row.config = reference id ∧ validConfig isObject config then some ⟨id, row, config⟩ else none
  | _, _ => none

end HeyServer.Notify
