import Veer.StepMachine
import Veer.AtomicCells
import Veer.FencedLease
import Veer.SingleFlight
import Veer.ListHeap
import Veer.RawURLEncoding
import Veer.ReconcileVocabulary
import Veer.ReconcileSafety
import Veer.ReconcileDigest
import Veer.ReconcilePlan
import Veer.ReconcileAttempt
import Veer.ReconcileAdmission
import Veer.ReconcilePrepare
import Veer.ReconcileLease
import Veer.ReconcilePlanning
import Veer.ReconcileObservation
import Veer.ObservationRun
import Veer.ObservationLine
import Veer.CapabilitySteps
import Veer.LeaseSteps
import Veer.LeaseFleet
import Veer.LeaseFencing
import Veer.LeaseWindow
import Veer.LeaseLineage
import Veer.CapabilityCells
import Veer.CapabilityThreads
import Veer.CapabilitySound
import Veer.CapabilityLinear
import Veer.PlanChain
import Veer.EffectTruth
import Veer.ReconcileQueue
import Veer.ReconcileDelivery
import Veer.ReconcileIdempotency
import Veer.IdempotencyWindow
import Veer.IdempotencyBounds
import Veer.IdempotencyRegister
import Veer.Hierarchy
import Veer.HierarchyClosure
import Veer.SnapshotOrder
import Veer.Identity
import Veer.Authorization
import Veer.BitMask
import Veer.PolicySet
import Veer.PolicySemantics
import Veer.PrefixCode
import Veer.HashFrames
import Veer.PolicyAcceptance
import Veer.PolicyVersion
import Veer.InputDigest
import Veer.Broker
import Veer.BrokerLocked
import Veer.BrokerSections
import Veer.BrokerLifecycle
import Veer.BrokerMachine
import Veer.BrokerMoves
import Veer.BrokerHelpers
import Veer.BrokerRefines
import Veer.BrokerSteps
import Veer.BrokerAuthority
import Veer.BrokerClock
import Veer.BrokerSound
import Veer.BrokerLeases
import Veer.BrokerOpenLeases
import Veer.KeyCache
import Veer.KeyCacheThrottle
import Veer.JsonText
import Veer.Administration
import Veer.AuditEvent
import Veer.AuditEncoding
import Veer.AuditChain
import Veer.AuditTamper
import Veer.ElevationLedger
import Veer.ElevationSpent
import Veer.ElevationClock
import Veer.MapVisits
import Veer.BearerText
import Veer.BearerExtract
import Veer.Calendar
import Veer.JsonTree
import Veer.ResourceEnvelope
import Veer.ResourceCanonical
import Veer.ResourceHistory
import Veer.JsonWidth
import Veer.Operation
import Veer.TargetResolution
import Veer.AuditProjection
import Veer.AuditElevation
import Veer.SourceRead
import Veer.GenerationGate
import Veer.AttemptMachine
import Veer.ObservationSwap
import Veer.CompensationRun
import Veer.PlanSemantics
import Veer.WorkIdentity
import Veer.TrustAnchors
import Veer.BrokerIndex
