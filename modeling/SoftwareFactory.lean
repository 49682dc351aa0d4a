import SoftwareFactory.Adapters.RedactionPasses
import SoftwareFactory.Adapters.RetryOutcomes
import SoftwareFactory.Adapters.WorkerContainment
import SoftwareFactory.Adapters.WorkerDecoding
import SoftwareFactory.Cache.PurgeExactness
import SoftwareFactory.Cache.TtlRefinement
import SoftwareFactory.Orchestrator.Atomicity
import SoftwareFactory.Orchestrator.AuditPolicy
import SoftwareFactory.Orchestrator.AuditRecovery
import SoftwareFactory.Orchestrator.Ledger
import SoftwareFactory.Protocol.AuditSuspension
import SoftwareFactory.Protocol.GateSafety
import SoftwareFactory.Protocol.LiveApproval
import SoftwareFactory.Protocol.MergeRecovery
import SoftwareFactory.Protocol.Provenance
import SoftwareFactory.Protocol.StatusAgreement
import SoftwareFactory.Scripts.MatrixTraceability
import SoftwareFactory.Scripts.ModifiedFiles
import SoftwareFactory.Scripts.RunSast
import SoftwareFactory.Security.RateGuarantees
import SoftwareFactory.StageA.BoundComparison
import SoftwareFactory.StageA.ControllerCustody
import SoftwareFactory.StageA.DirectoryLayout
import SoftwareFactory.StageA.FramedComparison
import SoftwareFactory.StageA.MutableDigest
import SoftwareFactory.StageA.NativeRefinement
import SoftwareFactory.StageA.SnapshotTotality
import SoftwareFactory.StageA.WindowsP11Custody
import SoftwareFactory.StageA.P10Rendering
import SoftwareFactory.StageA.P11Rendering
import SoftwareFactory.StageA.WriterResult
import SoftwareFactory.StageA.SessionCustody
import SoftwareFactory.Protocol.SecretFree
import SoftwareFactory.Protocol.StateGraph
import SoftwareFactory.Protocol.StateLog
import SoftwareFactory.Protocol.StateStorage
import SoftwareFactory.StageA.TokenSidCustody
import SoftwareFactory.Orchestrator.EnvLoader
