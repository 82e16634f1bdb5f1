import Pooler.Proofs.Admission
import Pooler.Proofs.Aliases
import Pooler.Proofs.AnthropicStream
import Pooler.Proofs.BatchActivation
import Pooler.Proofs.CacheKey
import Pooler.Proofs.CacheStore
import Pooler.Proofs.CatalogMerge
import Pooler.Proofs.ChatEncoder
import Pooler.Proofs.ChatRoundTrip
import Pooler.Proofs.ChatStream
import Pooler.Proofs.Chunking
import Pooler.Proofs.ConnectionReuse
import Pooler.Proofs.Continuation
import Pooler.Proofs.CrashRecovery
import Pooler.Proofs.DevinStream
import Pooler.Proofs.Drain
import Pooler.Proofs.ExtensionKeys
import Pooler.Proofs.FileParts
import Pooler.Proofs.Fingerprint
import Pooler.Proofs.GeminiStream
import Pooler.Proofs.Health
import Pooler.Proofs.HealthReport
import Pooler.Proofs.HotReload
import Pooler.Proofs.JsonRedaction
import Pooler.Proofs.ManagementRecords
import Pooler.Proofs.ModelFallback
import Pooler.Proofs.ModelPatterns
import Pooler.Proofs.Pointer
import Pooler.Proofs.QuotaOwners
import Pooler.Proofs.QuotaWindows
import Pooler.Proofs.RedactingWriter
import Pooler.Proofs.ResponsesStream
import Pooler.Proofs.RetryBudget
import Pooler.Proofs.Revisions
import Pooler.Proofs.RouteChoice
import Pooler.Proofs.SingleFlight
import Pooler.Proofs.StorageKeys
import Pooler.Proofs.TargetBudget
import Pooler.Proofs.Telemetry
import Pooler.Proofs.TextRedaction
import Pooler.Proofs.TokenRefresh
