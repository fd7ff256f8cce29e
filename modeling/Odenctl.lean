import Odenctl.ControlPlane.ArtifactRegistration
import Odenctl.ControlPlane.Autoscaler
import Odenctl.ControlPlane.BillingStatements
import Odenctl.ControlPlane.CanaryRollback
import Odenctl.ControlPlane.CustomDomainLifecycle
import Odenctl.ControlPlane.EdgeWorkerScripts
import Odenctl.ControlPlane.FailedMutations
import Odenctl.ControlPlane.HttpAuthorization
import Odenctl.ControlPlane.InvoiceIssuance
import Odenctl.ControlPlane.InvoiceRetention
import Odenctl.ControlPlane.InvoiceSnapshots
import Odenctl.ControlPlane.NewestSnapshot
import Odenctl.ControlPlane.PlacementSelection
import Odenctl.ControlPlane.PreviewRollback
import Odenctl.ControlPlane.RuntimeScaling
import Odenctl.ControlPlane.SecretStorage
import Odenctl.ControlPlane.SnapshotFreshness
import Odenctl.ControlPlane.UsagePeriods
import Odenctl.ControlPlane.UsageReplays
import Odenctl.ControlPlane.WebhookDelivery
import Odenctl.Runtime.CachePruning
import Odenctl.Runtime.DevEdits
import Odenctl.Runtime.FailedCompiles
import Odenctl.Runtime.GracefulDrain
import Odenctl.Runtime.HttpAdmission
import Odenctl.Runtime.InvocationAccounting
import Odenctl.Runtime.InvocationResponse
import Odenctl.Runtime.LogRedaction
import Odenctl.Runtime.PackingBounds
import Odenctl.Runtime.PreparedComponents
import Odenctl.Runtime.RateLimiter
import Odenctl.Runtime.ResidentExit
import Odenctl.Runtime.ResponseAdmission
import Odenctl.Runtime.TraceContext
import Odenctl.Runtime.WarmSet
import Odenctl.Storage.AlarmDispatcher
import Odenctl.Storage.BackupRetention
import Odenctl.Storage.DatabasePool
import Odenctl.Storage.DatabaseRestore
import Odenctl.Storage.ObjectListing
import Odenctl.Storage.ObjectTransactions
import Odenctl.Storage.ObjectValues
import Odenctl.Storage.ScheduledBackups
