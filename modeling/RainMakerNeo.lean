import RainMakerNeo.Ota.Coverage
import RainMakerNeo.Ota.ResumeTracker
import RainMakerNeo.Ota.StatusDelivery
import RainMakerNeo.Schedules.Removal
import RainMakerNeo.Schedules.RoundTrip
import RainMakerNeo.Ota.DownloadWindow
import RainMakerNeo.Ota.JobsMachine
import RainMakerNeo.Schedules.TimerPool
import RainMakerNeo.Common.WorkQueue
import RainMakerNeo.Common.Backoff
import RainMakerNeo.Automation.TriggerCodec
import RainMakerNeo.Automation.Report
import RainMakerNeo.State.ReportDelivery
import RainMakerNeo.Ota.DownloadQueue
import RainMakerNeo.Schedules.OneShot
import RainMakerNeo.Ota.Completion
import RainMakerNeo.Ota.ErrorRecovery
import RainMakerNeo.Core.Lifecycle
import RainMakerNeo.Core.FactoryReset
import RainMakerNeo.Cloud.ListeningGate
import RainMakerNeo.State.SubscriptionGate
import RainMakerNeo.Cloud.ResponseInbox
import RainMakerNeo.Node.PendingLocks
import RainMakerNeo.State.TagReport
import RainMakerNeo.Cloud.VersionHandshake
import RainMakerNeo.Node.ConfigDelivery
import RainMakerNeo.Bridge.PendingRequests
import RainMakerNeo.Bridge.SlotReuse
import RainMakerNeo.Ota.BlockRequest
import RainMakerNeo.Ota.JobChoice
import RainMakerNeo.Ota.Selection
import RainMakerNeo.Mqtt.Dispatch
import RainMakerNeo.Mqtt.EspLocks
import RainMakerNeo.Mqtt.EspChannels
import RainMakerNeo.Mqtt.EspSession
import RainMakerNeo.Osal.TimerChain
import RainMakerNeo.Osal.NvsIsolation
import RainMakerNeo.Osal.NvsMap
import RainMakerNeo.Osal.OtaSlots
import RainMakerNeo.LocalCtrl.Sec2Cache
import RainMakerNeo.Lib.NamedStore
import RainMakerNeo.Node.ParamValue
import RainMakerNeo.Node.StoredParams
import RainMakerNeo.Node.Timeseries
import RainMakerNeo.Claim.Credentials
import RainMakerNeo.Credentials.Migration
import RainMakerNeo.Ota.FirmwareVersion
import RainMakerNeo.Automation.Install
import RainMakerNeo.Ota.ImageEnd
import RainMakerNeo.Ota.RequestPayload
import RainMakerNeo.Ota.VersionLedger
import RainMakerNeo.Schedules.Update
import RainMakerNeo.Schedules.Replay
import RainMakerNeo.Osal.PosixScheduler
import RainMakerNeo.Osal.PosixEventLoop
import RainMakerNeo.Claim.NewlineEscape
import RainMakerNeo.HostCtrl.Delimiters
import RainMakerNeo.Common.EcdsaDer
import RainMakerNeo.Common.HexCodec
import RainMakerNeo.Mqtt.GroupTopics
import RainMakerNeo.LocalConfig.GroupInfo
import RainMakerNeo.LocalCtrl.DataPull
import RainMakerNeo.LocalCtrl.ServiceLifecycle
import RainMakerNeo.Core.SystemReset
import RainMakerNeo.Cloud.NotifySync
import RainMakerNeo.Ota.EventOwnership
import RainMakerNeo.Ota.EventPaths
import RainMakerNeo.Ota.StatusListShape
import RainMakerNeo.Osal.PosixSemaphore
import RainMakerNeo.Osal.PosixEventGroup
import RainMakerNeo.Mqtt.Budget
