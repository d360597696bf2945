import Mathlib

/-!
# Vocabulary of the reconciliation package

The closed string vocabularies are inductive types, so the `Parse` checks of the source
hold by typing. Durations are nanoseconds.
-/
namespace Veer.Reconcile

/-- The sentinel errors of `errors.go`. -/
inductive Sentinel
  | invalidEvidence | evidenceTooLarge | invalidVersion | invalidDigest | invalidPlan
  | planMismatch | replanBlocked | completedEffectMissing | invalidIdempotency
  | idempotencyConflict | reservationOutstanding | reservationLost | invalidLease | leaseHeld
  | leaseLost | fenceExhausted | dispatchWindow | dispatchAuthority | invalidAttempt
  | invalidTransition | attemptNotDefinitive | retryForbidden | generationBlocked
  | invalidSupersessionProof | invalidObservation | observationExhausted | invalidDelivery
  | capacity | invalidRetention | invalidTime | clockRegressed
  deriving DecidableEq, Repr

/-- A returned error, as the sentinels that `errors.Is` finds in its chain. -/
abbrev Failure := List Sentinel

def millisecond : Int := 1000000
def second : Int := 1000 * millisecond
def hour : Int := 3600 * second

def contractVersion : String := "veer.reconciliation.v1alpha1"
def maxEvidenceBytes : Nat := 262144
def maxEffectsPerOperation : Nat := 1000
def maxObservationAttempts : Nat := 1000
def httpIdempotencyWindow : Int := 24 * hour
def storeLeaseDuration : Int := 60 * second
def dispatchSafetyMargin : Int := 10 * second
def maxInt64 : Int := 2 ^ 63 - 1
def maxFence : Int := maxInt64
def maxUint32 : Nat := 2 ^ 32 - 1
def maxUint64 : Nat := 2 ^ 64 - 1

inductive EvidenceKind
  | desiredIntent | observedSnapshot | providerConnection | credentialReference
  | capability | quota | cost
  deriving DecidableEq, Repr

def EvidenceKind.string : EvidenceKind → String
  | desiredIntent => "DesiredIntent"
  | observedSnapshot => "ObservedSnapshot"
  | providerConnection => "ProviderConnection"
  | credentialReference => "CredentialReference"
  | capability => "Capability"
  | quota => "Quota"
  | cost => "Cost"

inductive PlanKind
  | forward | compensation
  deriving DecidableEq, Repr

def PlanKind.string : PlanKind → String
  | forward => "Forward"
  | compensation => "Compensation"

inductive PlanSelection
  | reuse | supersede
  deriving DecidableEq, Repr

inductive IdempotencyDisposition
  | reserved | replay
  deriving DecidableEq, Repr

inductive AttemptPurpose
  | forward | observation | providerCancel | compensation
  deriving DecidableEq, Repr

def AttemptPurpose.string : AttemptPurpose → String
  | forward => "Forward"
  | observation => "Observation"
  | providerCancel => "ProviderCancel"
  | compensation => "Compensation"

inductive AttemptState
  | prepared | dispatched | applied | noEffect | indeterminate
  deriving DecidableEq, Repr

def AttemptState.string : AttemptState → String
  | prepared => "Prepared"
  | dispatched => "Dispatched"
  | applied => "Applied"
  | noEffect => "NoEffect"
  | indeterminate => "Indeterminate"

/-- Provider-effect truth, independent from retry eligibility. -/
inductive EffectState
  | applied | noEffect | indeterminate
  deriving DecidableEq, Repr

/-- The conversion `AttemptState(outcome)`. -/
def EffectState.attemptState : EffectState → AttemptState
  | applied => .applied
  | noEffect => .noEffect
  | indeterminate => .indeterminate

inductive DispatchProof
  | neverBegan | unknown
  deriving DecidableEq, Repr

inductive MaintenanceKind
  | storeLease | queueVisibility
  deriving DecidableEq, Repr

inductive MaintenanceOutcome
  | succeeded | failed | unknown
  deriving DecidableEq, Repr

inductive MaintenanceDirective
  | continue | stopAndSurrender
  deriving DecidableEq, Repr

inductive ObservationDecision
  | continue | resolved | quarantine | alreadyDone
  deriving DecidableEq, Repr

end Veer.Reconcile
