import Filestore.App.Completion
import Filestore.App.Logging
import Filestore.App.Run
import Filestore.App.Shutdown
import Filestore.Common.Display
import Filestore.Common.Env
import Filestore.Common.SizeText
import Filestore.Examples.HelloServer
import Filestore.Server.WaitForStop
import Filestore.Store.Location
import Filestore.Telemetry.DistributedTrace
import Filestore.Telemetry.LoggingConfig
import Filestore.Telemetry.PanicHook
import Filestore.Telemetry.TracingContext
import Filestore.Transition.Schedule
