import Nvshare.Wire
import Nvshare.Scheduler.State
import Nvshare.Scheduler.Handlers
import Nvshare.Scheduler.Contracts
import Nvshare.Scheduler.Step
import Nvshare.Scheduler.Queue
import Nvshare.Scheduler.Timer
import Nvshare.Scheduler.Table
import Nvshare.Scheduler.Status
import Nvshare.Scheduler.Clients
import Nvshare.Client.Process
import Nvshare.Client.Gate
import Nvshare.Client.Idle
import Nvshare.System.Step
import Nvshare.System.Status
import Nvshare.Cli
import Nvshare.Scheduler.Record
import Nvshare.System.Ids
import Nvshare.System.Requests
import Nvshare.System.Exclusion
import Nvshare.Hook.Memory
import Nvshare.Common.Io
import Nvshare.Common.Strlcpy
import Nvshare.Xopt.Parse
import Nvshare.Xopt.Nvsharectl
import Nvshare.Common.Time
import Nvshare.Hook.Launch
import Nvshare.Hook.Symbols
import Nvshare.Scheduler.Channel
import Nvshare.Scheduler.NewId
import Nvshare.Hook.Bootstrap
