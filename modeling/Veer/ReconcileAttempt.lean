import Veer.ReconcilePlan

/-!
# Physical attempts and their reduction to effect projections

The zero instant `0` stands for an unset time, as `IsZero` does in the source.
-/
namespace Veer.Reconcile

/-- The next qualified inverse in a validated reverse-order compensation schedule. -/
structure CompensationStep where
  initialized : Bool
  planDigest : PlanDigest
  original : EffectKey
  inverse : EffectKey
  dependencyOrder : Nat
  position : Nat
  total : Nat
  proofEvidence : DigestValue
  schedule : DigestValue
  deriving DecidableEq, Repr

def validCompensationStep (value : CompensationStep) : Bool :=
  value.initialized && value.planDigest.initialized && validateEffectKey value.original &&
    validateEffectKey value.inverse && !value.original.equal value.inverse &&
    decide (0 < value.dependencyOrder) && decide (0 < value.position) &&
    decide (value.position ≤ value.total) && value.proofEvidence.initialized &&
    value.schedule.initialized

def compensationStepsEqual (left right : CompensationStep) : Bool :=
  equalDigest left.planDigest right.planDigest && left.original.equal right.original &&
    left.inverse.equal right.inverse && left.dependencyOrder == right.dependencyOrder &&
    left.position == right.position && left.total == right.total &&
    equalDigest left.proofEvidence right.proofEvidence && equalDigest left.schedule right.schedule

/-- The bounded current truth about one logical effect. -/
structure EffectProjection where
  initialized : Bool
  key : EffectKey
  planDigest : PlanDigest
  sourceAttemptID : ID
  purpose : AttemptPurpose
  compensation : Option CompensationStep
  cancellationTarget : Option EffectKey
  state : AttemptState
  updatedAt : Int
  deriving DecidableEq, Repr

/-- One immutable snapshot of a physical provider call. -/
structure Attempt where
  initialized : Bool
  id : ID
  ordinal : Nat
  planDigest : PlanDigest
  planKind : PlanKind
  effect : EffectKey
  purpose : AttemptPurpose
  ownerID : ID
  fence : Int
  requestFingerprint : RequestFingerprint
  compensation : Option CompensationStep
  observationTarget : Option EffectProjection
  cancellationTarget : Option EffectProjection
  retryValidUntil : Int
  observationBinding : DigestValue
  observationDeadline : Int
  admissionBinding : DigestValue
  state : AttemptState
  preparedAt : Int
  dispatchedAt : Int
  resolvedAt : Int
  deriving DecidableEq, Repr

/-! ## Validation -/

def attemptPurposeMatchesPlan : AttemptPurpose → PlanKind → Bool
  | .forward, kind => kind == .forward
  | .compensation, kind => kind == .compensation
  | .observation, _ => true
  | .providerCancel, _ => true

def businessPurposeMatchesPlan (purpose : AttemptPurpose) (kind : PlanKind) : Bool :=
  (purpose == .forward && kind == .forward) || (purpose == .compensation && kind == .compensation)

def effectKeysShareExactScope (left right : EffectKey) : Bool :=
  validateEffectKey left && validateEffectKey right && left.sameLineage right

/-- The compensation block that attempts, admissions and projections share. -/
def compensationAgrees (purpose : AttemptPurpose) (compensation : Option CompensationStep)
    (planDigest : PlanDigest) (effect : EffectKey) : Bool :=
  match purpose, compensation with
  | .compensation, some step =>
    validCompensationStep step && equalDigest step.planDigest planDigest && step.inverse.equal effect
  | .compensation, none => false
  | _, compensation => compensation.isNone

def validateEffectProjection (value : EffectProjection) : Bool :=
  value.initialized && validateEffectKey value.key && value.planDigest.initialized &&
    validID value.sourceAttemptID && value.updatedAt != 0 &&
    compensationAgrees value.purpose value.compensation value.planDigest value.key &&
    match value.purpose, value.cancellationTarget with
    | .providerCancel, some target =>
      validateEffectKey target && !target.equal value.key && effectKeysShareExactScope target value.key
    | .providerCancel, none => false
    | _, target => target.isNone

def validCancellationTarget (target : EffectProjection) (planDigest : PlanDigest)
    (planKind : PlanKind) (cancellationEffect : EffectKey) : Bool :=
  validateEffectProjection target && !target.key.equal cancellationEffect &&
    equalDigest target.planDigest planDigest &&
    effectKeysShareExactScope target.key cancellationEffect &&
    businessPurposeMatchesPlan target.purpose planKind &&
    (target.state == .dispatched || target.state == .indeterminate)

def validObservationTarget (target : EffectProjection) (planDigest : PlanDigest)
    (planKind : PlanKind) (effect : EffectKey) : Bool :=
  validateEffectProjection target && target.state == .indeterminate &&
    target.purpose != .observation && target.key.equal effect &&
    equalDigest target.planDigest planDigest && attemptPurposeMatchesPlan target.purpose planKind

def cancellationAgrees (purpose : AttemptPurpose) (target : Option EffectProjection)
    (planDigest : PlanDigest) (planKind : PlanKind) (effect : EffectKey) : Bool :=
  match purpose, target with
  | .providerCancel, some target => validCancellationTarget target planDigest planKind effect
  | .providerCancel, none => false
  | _, target => target.isNone

/-- The instant is its own canonical form. -/
def isNormalized (value : Int) : Bool :=
  match normalizeTime value with
  | .ok normalized => normalized == value
  | .error _ => false

def retryWindowAgrees (purpose : AttemptPurpose) (retryValidUntil preparedAt : Int) : Bool :=
  retryValidUntil == 0 ||
    (isNormalized retryValidUntil && decide (preparedAt < retryValidUntil) &&
      purpose != .observation)

def observationAgrees (purpose : AttemptPurpose) (binding : DigestValue) (deadline preparedAt : Int)
    (target : Option EffectProjection) (planDigest : PlanDigest) (planKind : PlanKind)
    (effect : EffectKey) : Bool :=
  match purpose, target with
  | .observation, some target =>
    binding.initialized && isNormalized deadline && decide (preparedAt < deadline) &&
      validObservationTarget target planDigest planKind effect
  | .observation, none => false
  | _, target => !binding.initialized && deadline == 0 && target.isNone

/-- The times an attempt may carry in its state. -/
def timesAgree (state : AttemptState) (preparedAt dispatchedAt resolvedAt : Int) : Bool :=
  match state with
  | .prepared => dispatchedAt == 0 && resolvedAt == 0
  | .dispatched => decide (preparedAt ≤ dispatchedAt) && dispatchedAt != 0 && resolvedAt == 0
  | .applied => dispatchedAt != 0 && decide (dispatchedAt ≤ resolvedAt)
  | .noEffect | .indeterminate =>
    decide ((if dispatchedAt = 0 then preparedAt else dispatchedAt) ≤ resolvedAt) && resolvedAt != 0

def validateAttempt (value : Attempt) : Bool :=
  value.initialized && validID value.id && value.ordinal != 0 && value.planDigest.initialized &&
    validateEffectKey value.effect && validID value.ownerID && decide (1 ≤ value.fence) &&
    value.requestFingerprint.initialized && value.admissionBinding.initialized &&
    value.preparedAt != 0 && attemptPurposeMatchesPlan value.purpose value.planKind &&
    compensationAgrees value.purpose value.compensation value.planDigest value.effect &&
    cancellationAgrees value.purpose value.cancellationTarget value.planDigest value.planKind
      value.effect &&
    retryWindowAgrees value.purpose value.retryValidUntil value.preparedAt &&
    observationAgrees value.purpose value.observationBinding value.observationDeadline
      value.preparedAt value.observationTarget value.planDigest value.planKind value.effect &&
    timesAgree value.state value.preparedAt value.dispatchedAt value.resolvedAt

def Attempt.resolved (value : Attempt) : Bool :=
  value.state == .applied || value.state == .noEffect || value.state == .indeterminate

def Attempt.definitive (value : Attempt) : Bool :=
  value.state == .applied || value.state == .noEffect

def attemptLatestAt (value : Attempt) : Int :=
  if value.resolvedAt ≠ 0 then value.resolvedAt
  else if value.dispatchedAt ≠ 0 then value.dispatchedAt
  else value.preparedAt

/-! ## Transitions

The transitions of the source return an attempt also beside an error. -/

/-- The result of a call without the attempt that comes with an error. -/
def exceptOf {α : Type} (returned : α × Option Failure) : Except Failure α :=
  match returned.2 with
  | none => .ok returned.1
  | some failure => .error failure

@[simp] theorem exceptOf_none {α : Type} (value : α) : exceptOf (value, none) = .ok value := rfl

@[simp] theorem exceptOf_some {α : Type} (value : α) (failure : Failure) :
    exceptOf (value, some failure) = .error failure := rfl

def resolveAttemptReturned (before : Attempt) (outcome : EffectState) (resolvedAt : Int) :
    Attempt × Option Failure :=
  if !validateAttempt before || before.state != .dispatched then
    (before, some [.invalidTransition])
  else
    match normalizeTime resolvedAt with
    | .error _ => (before, some [.invalidTransition])
    | .ok now =>
      if now < before.dispatchedAt then (before, some [.invalidTransition])
      else ({ before with state := outcome.attemptState, resolvedAt := now }, none)

def resolveAttempt (before : Attempt) (outcome : EffectState) (resolvedAt : Int) :
    Except Failure Attempt :=
  exceptOf (resolveAttemptReturned before outcome resolvedAt)

/-- Only a proof that dispatch never began turns a prepared attempt into `NoEffect`. -/
def recoverAttemptReturned (before : Attempt) (proof : DispatchProof) (recoveredAt : Int) :
    Attempt × Option Failure :=
  if !validateAttempt before || before.resolved then (before, some [.invalidTransition])
  else
    match normalizeTime recoveredAt with
    | .error _ => (before, some [.invalidTransition])
    | .ok now =>
      if now < attemptLatestAt before then (before, some [.invalidTransition])
      else
        match before.state, proof with
        | .prepared, .neverBegan => ({ before with state := .noEffect, resolvedAt := now }, none)
        | .prepared, .unknown | .dispatched, .unknown =>
          ({ before with state := .indeterminate, resolvedAt := now }, none)
        | _, _ => (before, some [.invalidTransition])

def recoverAttempt (before : Attempt) (proof : DispatchProof) (recoveredAt : Int) :
    Except Failure Attempt :=
  exceptOf (recoverAttemptReturned before proof recoveredAt)

/-- No directive comes with an error. -/
def applyMaintenanceOutcomeReturned (before : Attempt) (_kind : MaintenanceKind)
    (outcome : MaintenanceOutcome) (observedAt : Int) :
    Attempt × Except Failure MaintenanceDirective :=
  if !validateAttempt before then (before, .error [.invalidTransition])
  else
    match normalizeTime observedAt with
    | .error _ => (before, .error [.invalidTransition])
    | .ok now =>
      if now < attemptLatestAt before then (before, .error [.invalidTransition])
      else if outcome = .succeeded then (before, .ok .continue)
      else if before.resolved then (before, .ok .stopAndSurrender)
      else
        match recoverAttemptReturned before .unknown now with
        | (_, some failure) => (before, .error failure)
        | (after, none) => (after, .ok .stopAndSurrender)

def applyMaintenanceOutcome (before : Attempt) (kind : MaintenanceKind)
    (outcome : MaintenanceOutcome) (observedAt : Int) :
    Except Failure (Attempt × MaintenanceDirective) :=
  let (after, result) := applyMaintenanceOutcomeReturned before kind outcome observedAt
  result.map fun directive => (after, directive)

/-- Observation results reach the effect only through `completeObservation`. -/
def effectProjectionFromAttempt (attempt : Attempt) : Except Failure EffectProjection :=
  if !validateAttempt attempt then .error [.invalidAttempt]
  else if attempt.purpose = .observation then .error [.invalidObservation]
  else .ok
    { initialized := true
      key := attempt.effect
      planDigest := attempt.planDigest
      sourceAttemptID := attempt.id
      purpose := attempt.purpose
      compensation := attempt.compensation
      cancellationTarget := attempt.cancellationTarget.map EffectProjection.key
      state := attempt.state
      updatedAt := attemptLatestAt attempt }

def optionalEffectKeysEqual : Option EffectKey → Option EffectKey → Bool
  | some left, some right => left.equal right
  | none, none => true
  | _, _ => false

def effectProjectionIdentityEqual (left right : EffectProjection) : Bool :=
  left.key.equal right.key && equalDigest left.planDigest right.planDigest &&
    left.purpose == right.purpose &&
    optionalEffectKeysEqual left.cancellationTarget right.cancellationTarget &&
    match left.compensation, right.compensation with
    | some left, some right => compensationStepsEqual left right
    | none, none => true
    | _, _ => false

def effectProjectionsEqual (left right : EffectProjection) : Bool :=
  effectProjectionIdentityEqual left right && left.state == right.state &&
    left.sourceAttemptID == right.sourceAttemptID && left.updatedAt == right.updatedAt

end Veer.Reconcile
