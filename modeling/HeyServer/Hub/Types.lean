import HeyServer.Lib.Fallible
import HeyServer.Lib.StrMap
import HeyServer.Lib.Decimal
import HeyServer.Lib.Base64
import HeyServer.Lib.Text

/-!
# Agent hub: types

The wire and record types of the agent hub. Names that the protocol closes are
enumerations; a name outside the list a request may still carry is `other`.
Times count nanoseconds from the zero time of the program.
-/

namespace HeyServer.Hub
open Lib

abbrev Time := Int

/-- Task kinds of the v1 protocol. -/
inductive TaskKind
  | serviceStatus | serviceAction | hostAction | processSignal | diskCleanupScan
  | diskCleanupExecute | logsRead | containerList | containerAction | nginxAction
  | nginxConfigList | nginxConfigRead | nginxConfigWrite | phpInventory | phpConfigRead
  | phpConfigWrite | phpAction | pm2List | pm2Logs | pm2Action | cronInventory | cronCreate
  | cronUpdate | cronDelete | cronRun | firewallInventory | firewallAdd | firewallDelete
  | domainInventory | domainAction | sslInventory | sslAction | databaseInventory
  | databaseAction | backupInventory | backupRun | filesBrowse | filesRead | filesWrite
  | deployInventory | deployAction | deployDomainInventory | deployDomainHealth
  | deployDomainAction | agentUpdateStatus | agentUpdateAction | integrationStatus
  | metricsRead | profileApply
  | other (text : Bytes)
  deriving DecidableEq

namespace TaskKind

/-- The name on the wire. -/
def text : TaskKind → Bytes
  | serviceStatus => ascii "service.status"
  | serviceAction => ascii "service.action"
  | hostAction => ascii "host.action"
  | processSignal => ascii "process.signal"
  | diskCleanupScan => ascii "disk.cleanup.scan"
  | diskCleanupExecute => ascii "disk.cleanup.execute"
  | logsRead => ascii "logs.read"
  | containerList => ascii "container.list"
  | containerAction => ascii "container.action"
  | nginxAction => ascii "nginx.action"
  | nginxConfigList => ascii "nginx.config.list"
  | nginxConfigRead => ascii "nginx.config.read"
  | nginxConfigWrite => ascii "nginx.config.write"
  | phpInventory => ascii "php.inventory"
  | phpConfigRead => ascii "php.config.read"
  | phpConfigWrite => ascii "php.config.write"
  | phpAction => ascii "php.action"
  | pm2List => ascii "pm2.list"
  | pm2Logs => ascii "pm2.logs"
  | pm2Action => ascii "pm2.action"
  | cronInventory => ascii "cron.inventory"
  | cronCreate => ascii "cron.create"
  | cronUpdate => ascii "cron.update"
  | cronDelete => ascii "cron.delete"
  | cronRun => ascii "cron.run"
  | firewallInventory => ascii "firewall.inventory"
  | firewallAdd => ascii "firewall.add"
  | firewallDelete => ascii "firewall.delete"
  | domainInventory => ascii "domain.inventory"
  | domainAction => ascii "domain.action"
  | sslInventory => ascii "ssl.inventory"
  | sslAction => ascii "ssl.action"
  | databaseInventory => ascii "database.inventory"
  | databaseAction => ascii "database.action"
  | backupInventory => ascii "backup.inventory"
  | backupRun => ascii "backup.run"
  | filesBrowse => ascii "files.browse"
  | filesRead => ascii "files.read"
  | filesWrite => ascii "files.write"
  | deployInventory => ascii "deploy.inventory"
  | deployAction => ascii "deploy.action"
  | deployDomainInventory => ascii "deploy.domain.inventory"
  | deployDomainHealth => ascii "deploy.domain.health"
  | deployDomainAction => ascii "deploy.domain.action"
  | agentUpdateStatus => ascii "agent.update.status"
  | agentUpdateAction => ascii "agent.update.action"
  | integrationStatus => ascii "integration.status"
  | metricsRead => ascii "metrics.read"
  | profileApply => ascii "agent.profile.apply"
  | other text => text

end TaskKind

/-- What an agent advertises in its heartbeats. -/
inductive Capability
  | inventory | serviceStatus | serviceAction | hostAction | processRead | processSignal
  | terminal | diskCleanup | logsRead | containerRead | containerAction | nginxAction
  | nginxConfigRead | nginxConfigWrite | phpRead | phpWrite | phpAction | pm2Read | pm2Action
  | cronRead | cronWrite | cronRun | firewallRead | firewallWrite | domainRead | domainAction
  | sslRead | sslAction | databaseRead | databaseAction | backupRead | backupRun | filesRead
  | filesWrite | deployRead | deployAction | deployDomainRead | deployDomainAction
  | agentUpdateRead | agentUpdateAction | integrationStatus | metricsRead | profileApply
  deriving DecidableEq

namespace Capability

/-- The name on the wire. -/
def text : Capability → Bytes
  | inventory => ascii "inventory"
  | serviceStatus => ascii "service.status"
  | serviceAction => ascii "service.action"
  | hostAction => ascii "host.action"
  | processRead => ascii "process.read"
  | processSignal => ascii "process.signal"
  | terminal => ascii "terminal"
  | diskCleanup => ascii "disk.cleanup"
  | logsRead => ascii "logs.read"
  | containerRead => ascii "container.read"
  | containerAction => ascii "container.action"
  | nginxAction => ascii "nginx.action"
  | nginxConfigRead => ascii "nginx.config.read"
  | nginxConfigWrite => ascii "nginx.config.write"
  | phpRead => ascii "php.read"
  | phpWrite => ascii "php.write"
  | phpAction => ascii "php.action"
  | pm2Read => ascii "pm2.read"
  | pm2Action => ascii "pm2.action"
  | cronRead => ascii "cron.read"
  | cronWrite => ascii "cron.write"
  | cronRun => ascii "cron.run"
  | firewallRead => ascii "firewall.read"
  | firewallWrite => ascii "firewall.write"
  | domainRead => ascii "domain.read"
  | domainAction => ascii "domain.action"
  | sslRead => ascii "ssl.read"
  | sslAction => ascii "ssl.action"
  | databaseRead => ascii "database.read"
  | databaseAction => ascii "database.action"
  | backupRead => ascii "backup.read"
  | backupRun => ascii "backup.run"
  | filesRead => ascii "files.read"
  | filesWrite => ascii "files.write"
  | deployRead => ascii "deploy.read"
  | deployAction => ascii "deploy.action"
  | deployDomainRead => ascii "deploy.domain.read"
  | deployDomainAction => ascii "deploy.domain.action"
  | agentUpdateRead => ascii "agent.update.read"
  | agentUpdateAction => ascii "agent.update.action"
  | integrationStatus => ascii "integration.status"
  | metricsRead => ascii "metrics.read"
  | profileApply => ascii "agent.profile.apply"

/-- Every capability of the protocol. -/
def all : List Capability :=
  [.inventory, .serviceStatus, .serviceAction, .hostAction, .processRead, .processSignal,
    .terminal, .diskCleanup, .logsRead, .containerRead, .containerAction, .nginxAction,
    .nginxConfigRead, .nginxConfigWrite, .phpRead, .phpWrite, .phpAction, .pm2Read, .pm2Action,
    .cronRead, .cronWrite, .cronRun, .firewallRead, .firewallWrite, .domainRead, .domainAction,
    .sslRead, .sslAction, .databaseRead, .databaseAction, .backupRead, .backupRun, .filesRead,
    .filesWrite, .deployRead, .deployAction, .deployDomainRead, .deployDomainAction,
    .agentUpdateRead, .agentUpdateAction, .integrationStatus, .metricsRead, .profileApply]

end Capability

/-- `hasCapability` over the names an agent advertised. -/
def hasCapability (capabilities : List Bytes) (capability : Capability) : Bool :=
  capabilities.any fun candidate => candidate = capability.text

/-- Task states; a result request may name any other state. -/
inductive TaskStatus
  | queued | running | completed | failed
  | other (text : Bytes)
  deriving DecidableEq

/-! ## Errors -/

/-- The sentinel errors of the hub. -/
inductive Sentinel
  | notFound | alreadyExists | unauthorized | invalidInput | unsupportedProtocol
  | staleHeartbeat | taskNotClaimed | capabilityUnavailable | nodeOffline
  | profileRevisionStale | profileNotConfigured | profileApplyInFlight
  | deployDomainEnsureConflict
  deriving DecidableEq

/-- An error of the hub: a sentinel, a sentinel wrapped with a context, a plain message,
or an error of the JSON decoder under a context. -/
inductive HubError
  | sentinel (s : Sentinel)
  | wrapped (context : Bytes) (s : Sentinel)
  | plain (message : Bytes)
  | json (context : Bytes)
  deriving DecidableEq

/-- `fmt.Errorf("...: %w", ErrInvalidInput)` -/
def invalidInput (context : String) : HubError := .wrapped (ascii context) .invalidInput

/-- `fmt.Errorf("context: %w", err)` -/
def HubError.under (context : String) : HubError → HubError
  | sentinel s => .wrapped (ascii context) s
  | wrapped inner s => .wrapped (ascii (context ++ ": ") ++ inner) s
  | plain message => .plain (ascii (context ++ ": ") ++ message)
  | json inner => .json (ascii (context ++ ": ") ++ inner)

/-! ## Requests and records -/

structure TaskRequest where
  kind : TaskKind
  payload : StrMap

structure TaskResultRequest where
  status : TaskStatus
  result : StrMap
  error : Bytes

structure Task where
  id : Nat
  nodeId : Bytes
  kind : TaskKind
  payload : StrMap
  status : TaskStatus
  result : StrMap
  error : Bytes
  createdAt : Time
  startedAt : Option Time
  completedAt : Option Time

structure RegisterNodeRequest where
  id : Bytes
  name : Bytes

structure AgentProfile where
  allowDeployRead : Bool
  allowDeployActions : Bool
  allowDeployDomainRead : Bool
  allowDeployDomainActions : Bool
  deployPlansFile : Bytes
  deployAcmeWebroot : Bytes
  deployWriteRoots : List Bytes
  deriving DecidableEq

/-- States of a profile observation; a heartbeat may carry any other text. -/
inductive ObservationState
  | notConfigured | pendingRestart | applied | failed
  | other (text : Bytes)
  deriving DecidableEq

structure AgentProfileObservation where
  state : ObservationState
  revision : Int
  errorCode : Bytes
  deriving DecidableEq

/-- A heartbeat; `I` is the host inventory it carries. -/
structure HeartbeatRequest (I : Type) where
  protocolVersion : Bytes
  nodeId : Bytes
  agentVersion : Bytes
  capabilities : List Bytes
  hostname : Bytes
  sentAt : Time
  inventory : I
  profile : Option AgentProfileObservation

structure Node (I : Type) where
  id : Bytes
  name : Bytes
  hostname : Bytes
  agentVersion : Bytes
  protocolVersion : Bytes
  capabilities : List Bytes
  inventory : I
  lastSeenAt : Option Time
  createdAt : Time
  updatedAt : Time

end HeyServer.Hub
