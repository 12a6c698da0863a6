import Dfms.Basic
import Dfms.Wiring
import Dfms.WellWired
import Dfms.Container
import Dfms.Drop
import Dfms.Interleave
import Dfms.Readers
import Dfms.Execution
import Dfms.Delivered
import Dfms.ExpectedSize
import Dfms.Docker
import Dfms.DockerInit
import Dfms.Expiration
import Dfms.Lifecycle
