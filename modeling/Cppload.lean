import Cppload.TokenBucketPolling
import Cppload.ConnectionPoolCleanup
import Cppload.Http11ClientClose
import Cppload.Http11ClientWire
import Cppload.RequestTarget
import Cppload.TracerSpans
import Cppload.TracerExport
import Cppload.OtlpPayload
import Cppload.PolicyVerdicts
import Cppload.AuthProviderReplies
import Cppload.AuthProviderRefresh
import Cppload.TokenRequest
import Cppload.RedactionLeaks
import Cppload.RedactionForms
import Cppload.SizeReaders
import Cppload.AssertionVerdicts
import Cppload.MetricsCollectorEviction
import Cppload.ShardedCollectorWindow
import Cppload.ScenarioEngineStop
import Cppload.ScenarioEngineFailure
import Cppload.ScenarioEnginePool
import Cppload.ScenarioEngineTls
import Cppload.WeightedChoice
import Cppload.ScoringAgreement
import Cppload.ConfigLoads
import Cppload.BaseUrlVariables
import Cppload.SlaLatency
import Cppload.GrpcWorker
import Cppload.PrometheusCounters
import Cppload.PrometheusServer
import Cppload.PrometheusText
import Cppload.VaultTransport
import Cppload.ControlPlaneServer
import Cppload.PythonCollector
import Cppload.DirectModePacing
import Cppload.HttpWorker
import Cppload.GrpcWorkerLoad
