import Omux.Request.Encoding
import Omux.Actor.Guarantees
import Omux.Storage.Generations
import Omux.Native.Instances
import Omux.Envelope.Closed
import Omux.Envelope.Credits
import Omux.Envelope.Maintenance
import Omux.Domain.Forgotten
import Omux.Engine.ImportGrowth
import Omux.Engine.GitRoutes
import Omux.Engine.Identifiers
import Omux.Native.Workers
import Omux.Browser.Removable
import Omux.Setup.CrashSafe
import Omux.Domain.Pruning
import Omux.Domain.Batch
import Omux.Domain.Aggregate
import Omux.Domain.Usable
import Omux.Export.Unique
import Omux.Export.Links
import Omux.Domain.Jobs
import Omux.Execution.Cleanup
