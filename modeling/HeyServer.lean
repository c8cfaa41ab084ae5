import HeyServer.Agent.AppliedTruth
import HeyServer.Agent.CronState
import HeyServer.Agent.FileRoots
import HeyServer.Agent.RevisionOrder
import HeyServer.Backup.DoneJobs
import HeyServer.Backup.JobIds
import HeyServer.Backup.JobLifecycle
import HeyServer.Backup.PolicyRuns
import HeyServer.Backup.RestoreRoots
import HeyServer.Backup.Schedule
import HeyServer.Database.QueryConsole
import HeyServer.Deploy.Environment
import HeyServer.Deploy.Rollback
import HeyServer.Deploy.StagingIsolation
import HeyServer.Deploy.WebhookRuns
import HeyServer.Gdrive.Disconnect
import HeyServer.Gdrive.OAuth
import HeyServer.Gdrive.Retention
import HeyServer.Hub.ClosedPayloads
import HeyServer.Hub.DomainEnsure
import HeyServer.Hub.ProfileApply
import HeyServer.Logs.StreamLines
import HeyServer.Logs.Tail
import HeyServer.Metrics.History
import HeyServer.Notify.AlertTiming
import HeyServer.Notify.ChannelCrash
import HeyServer.Panel.LastAdmin
import HeyServer.Panel.OutboundUrl
import HeyServer.Panel.RateLimiter
import HeyServer.Panel.RecoveryCodes
import HeyServer.Panel.TwoFactor
import HeyServer.Php.PoolNumbers
import HeyServer.Security.IpCheck
import HeyServer.Snapshot.Excludes
import HeyServer.Snapshot.RunLock
import HeyServer.Terminal.Isolation
import HeyServer.Updates.Interrupted
import HeyServer.Uptime.Retention
import HeyServer.Uptime.StaleHeartbeats
