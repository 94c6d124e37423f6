import Akaal.TransportResume
import Akaal.RangeCover
import Akaal.WriteRetry
import Akaal.IncrementalExtract
import Akaal.ValidationVerdict
import Akaal.ProcessingEngine
import Akaal.CDCRoundTrip
import Akaal.CDCCausalOrder
import Akaal.CDCDispatchOrder
import Akaal.CDCBarrierLocks
import Akaal.CDCConsistency
import Akaal.CDCLoopFreedom
import Akaal.CDCBufferRecovery
import Akaal.CDCOrderingCoordinator
import Akaal.CDCCheckpointSigning
import Akaal.CDCQuarantine
import Akaal.BacklogRecovery
import Akaal.CutoverReadiness
import Akaal.JournalBinding
import Akaal.TokenForgery
import Akaal.IdempotencyHistory
import Akaal.WriterFencing
import Akaal.StateVersions
import Akaal.QueueStore
import Akaal.ResourceAccounting
import Akaal.AttemptIsolation
import Akaal.TableExclusion
import Akaal.RuntimeRecovery
import Akaal.FabricProcesses
import Akaal.SharedOwnership
import Akaal.TopologyGraph
import Akaal.MigrationRepository
import Akaal.LeaseFencing
import Akaal.PlanProgress
import Akaal.IdempotencyService
import Akaal.ReceiptSigning
import Akaal.AbacPolicies
import Akaal.RoleGrants
import Akaal.AuditLedger
import Akaal.MFAChallenges
import Akaal.Retention
import Akaal.DDLGeneration
import Akaal.TypeRegistry
import Akaal.CDCFrontierRuns
import Akaal.CDCRejectedDispatch
import Akaal.CDCUnblocked
import Akaal.CDCBufferTotals
import Akaal.MappingClosure
import Akaal.PlanCycles
import Akaal.CDCReconstructor
import Akaal.PayloadChecksums
import Akaal.WatermarkRuns
import Akaal.StreamJoin
import Akaal.ProceduralLexer
