import Veer.AtomicCells
import Veer.ReconcileAttempt

/-!
# Retry, generation and observation gates, and one-use attempt admissions
-/
namespace Veer.Reconcile

open AtomicCells

/-- The process-local atomics that copies of capabilities share. -/
structure Atomics where
  flags : Cells Bool
  words : Cells Nat

def noAtomics : Atomics := ⟨⟨fun _ => false, 0⟩, ⟨fun _ => 0, 0⟩⟩

/-! ## Retry and supersession evidence -/

structure RetryProof where
  initialized : Bool
  effect : EffectKey
  fingerprint : RequestFingerprint
  adapterVersion : String
  validUntil : Int
  evidence : DigestValue
  deriving DecidableEq, Repr

def validRetryProof (value : RetryProof) : Bool :=
  value.initialized && validateEffectKey value.effect && value.fingerprint.initialized &&
    validVersion value.adapterVersion && value.validUntil != 0 && value.evidence.initialized

def newRetryProof [Sha256] (effect : EffectKey) (fingerprint : RequestFingerprint)
    (adapterVersion : String) (validUntil : Int) (canonicalEvidence : List UInt8) :
    Except Failure RetryProof :=
  match normalizeTime validUntil with
  | .error _ => .error [.retryForbidden]
  | .ok until_ =>
    if !validateEffectKey effect || !fingerprint.initialized || !validVersion adapterVersion ||
        decide (canonicalEvidence.length = 0) ||
        decide (canonicalEvidence.length > maxEvidenceBytes) then .error [.retryForbidden]
    else .ok
      { initialized := true
        effect := effect
        fingerprint := fingerprint
        adapterVersion := adapterVersion
        validUntil := until_
        evidence := digestFromHasher (writeHashFrame "veer.reconciliation.retry-proof.v1" ++
          writeHashFrame contractVersion ++ writeHashBytes effect.digest.digest ++
          writeHashBytes fingerprint.digest ++ writeHashFrame adapterVersion ++
          writeHashInt64 (unixMilli until_) ++ writeHashBytes canonicalEvidence) }

/-- A repeat is allowed after a proven `NoEffect`, or after `Indeterminate` with a live
proof of durable idempotency for the same request. -/
def checkRetry (databaseTime : Int) (projection : EffectProjection)
    (fingerprint : RequestFingerprint) (proof : Option RetryProof) : Except Failure Unit :=
  match normalizeTime databaseTime with
  | .error _ => .error [.retryForbidden]
  | .ok now =>
    if !validateEffectProjection projection || !fingerprint.initialized ||
        decide (now < projection.updatedAt) then .error [.retryForbidden]
    else
      match projection.state, proof with
      | .noEffect, none => .ok ()
      | .indeterminate, some proof =>
        if validRetryProof proof && proof.effect.equal projection.key &&
            equalDigest proof.fingerprint fingerprint && decide (now < proof.validUntil) then .ok ()
        else .error [.retryForbidden]
      | _, _ => .error [.retryForbidden]

structure SafeSupersessionProof where
  initialized : Bool
  prior : EffectKey
  candidate : EffectKey
  adapterVersion : String
  evidence : DigestValue
  deriving DecidableEq, Repr

def validSupersessionProof (value : SafeSupersessionProof) : Bool :=
  value.initialized && validateEffectKey value.prior && validateEffectKey value.candidate &&
    value.prior.workspaceID == value.candidate.workspaceID &&
    value.prior.resourceID == value.candidate.resourceID &&
    decide (value.prior.generation < value.candidate.generation) &&
    validVersion value.adapterVersion && value.evidence.initialized

/-- The proofs by printed prior effect; a foreign or repeated one blocks. -/
def indexSupersessionProofs (candidate : EffectKey) :
    List SafeSupersessionProof → AList (fun _ : String => SafeSupersessionProof) →
      Option (AList fun _ : String => SafeSupersessionProof)
  | [], proofByPrior => some proofByPrior
  | proof :: proofs, proofByPrior =>
    if !validSupersessionProof proof || !proof.candidate.equal candidate then none
    else if proof.prior.string ∈ proofByPrior then none
    else indexSupersessionProofs candidate proofs (proofByPrior.insert proof.prior.string proof)

/-- Walk the older projections, spending one proof on each open effect. -/
def gatePriorEffects (candidate : EffectKey) :
    List EffectProjection → List String → AList (fun _ : String => SafeSupersessionProof) →
      Option (AList fun _ : String => SafeSupersessionProof)
  | [], _, proofByPrior => some proofByPrior
  | projection :: prior, seen, proofByPrior =>
    if !validateEffectProjection projection ||
        projection.key.workspaceID != candidate.workspaceID ||
        projection.key.resourceID != candidate.resourceID ||
        decide (candidate.generation ≤ projection.key.generation) then none
    else if projection.key.string ∈ seen then none
    else if projection.state = .applied ∨ projection.state = .noEffect then
      gatePriorEffects candidate prior (projection.key.string :: seen) proofByPrior
    else
      match proofByPrior.lookup projection.key.string with
      | none => none
      | some proof =>
        if proof.prior.equal projection.key then
          gatePriorEffects candidate prior (projection.key.string :: seen)
            (proofByPrior.erase projection.key.string)
        else none

def checkGenerationDispatch (candidate : EffectKey) (prior : List EffectProjection)
    (proofs : List SafeSupersessionProof) : Except Failure Unit :=
  if !validateEffectKey candidate || decide (prior.length > maxEffectsPerOperation) ||
      decide (proofs.length > maxEffectsPerOperation) then .error [.generationBlocked]
  else
    match indexSupersessionProofs candidate proofs ∅ with
    | none => .error [.generationBlocked]
    | some proofByPrior =>
      match gatePriorEffects candidate prior [] proofByPrior with
      | none => .error [.generationBlocked]
      | some remaining =>
        if remaining.keys.length ≠ 0 then .error [.generationBlocked] else .ok ()

/-! ## Observation permits and admission values -/

/-- A one-use reservation for an observation attempt; `transition` is its shared word. -/
structure ObservationPermit where
  initialized : Bool
  effect : EffectKey
  version : Nat
  reservedAt : Int
  deadline : Int
  binding : DigestValue
  transition : Option Nat
  deriving DecidableEq, Repr

def observationReserved : Nat := 0
def observationAdmitted : Nat := 1
def observationPrepared : Nat := 2
def observationReleased : Nat := 3

def validateObservationPermit (value : ObservationPermit) : Bool :=
  value.initialized && validateEffectKey value.effect && decide (2 ≤ value.version) &&
    value.reservedAt != 0 && isNormalized value.deadline &&
    decide (value.reservedAt < value.deadline) && value.binding.initialized &&
    value.transition.isSome

structure AttemptAdmissionInput where
  databaseTime : Int
  plan : Plan
  effect : EffectKey
  purpose : AttemptPurpose
  requestFingerprint : RequestFingerprint
  cancellationRequested : Bool
  currentEffect : Option EffectProjection
  cancellationTarget : Option EffectProjection
  retryProof : Option RetryProof
  priorGenerationEffects : List EffectProjection
  safeSupersessionProofs : List SafeSupersessionProof
  observation : Option ObservationPermit
  compensation : Option CompensationStep

/-- A one-use capability; `use`, `observationTransition` and `replacementTransition` are
addresses of shared atomics. -/
structure AttemptAdmission where
  initialized : Bool
  planDigest : PlanDigest
  planKind : PlanKind
  effect : EffectKey
  purpose : AttemptPurpose
  requestFingerprint : RequestFingerprint
  compensation : Option CompensationStep
  observationTarget : Option EffectProjection
  cancellationTarget : Option EffectProjection
  retryValidUntil : Int
  observationBinding : DigestValue
  observationDeadline : Int
  observationTransition : Option Nat
  authorizedAt : Int
  binding : DigestValue
  replacementTransition : Option Nat
  use : Option Nat
  deriving DecidableEq, Repr

def validateAttemptAdmission (value : AttemptAdmission) : Bool :=
  value.initialized && value.planDigest.initialized && validateEffectKey value.effect &&
    value.requestFingerprint.initialized && value.authorizedAt != 0 && value.binding.initialized &&
    value.use.isSome &&
    !(value.replacementTransition.isSome && value.observationTransition.isSome) &&
    attemptPurposeMatchesPlan value.purpose value.planKind &&
    (value.replacementTransition.isNone || value.purpose == .forward ||
      value.purpose == .compensation) &&
    compensationAgrees value.purpose value.compensation value.planDigest value.effect &&
    cancellationAgrees value.purpose value.cancellationTarget value.planDigest value.planKind
      value.effect &&
    retryWindowAgrees value.purpose value.retryValidUntil value.authorizedAt &&
    observationAgrees value.purpose value.observationBinding value.observationDeadline
      value.authorizedAt value.observationTarget value.planDigest value.planKind value.effect &&
    (value.observationTransition.isSome == (value.purpose == .observation))

/-! ## Admission bindings -/

def writeCompensationStep (value : CompensationStep) : List UInt8 :=
  writeHashBytes value.planDigest.digest ++ writeHashBytes value.original.digest.digest ++
    writeHashBytes value.inverse.digest.digest ++ writeHashUint64 value.dependencyOrder ++
    writeHashUint64 value.position ++ writeHashUint64 value.total ++
    writeHashBytes value.proofEvidence.digest ++ writeHashBytes value.schedule.digest

def writeEffectProjection (value : EffectProjection) : List UInt8 :=
  writeHashBytes value.key.digest.digest ++ writeHashBytes value.planDigest.digest ++
    writeHashFrame value.sourceAttemptID ++ writeHashFrame value.purpose.string ++
    writeHashFrame value.state.string ++ writeHashInt64 (unixMilli value.updatedAt) ++
    (match value.cancellationTarget with
      | none => writeHashFrame "no-cancellation-target"
      | some target => writeHashBytes target.digest.digest) ++
    match value.compensation with
      | none => writeHashFrame "no-compensation"
      | some step => writeCompensationStep step

def writeProjectionOr (absent : String) : Option EffectProjection → List UInt8
  | none => writeHashFrame absent
  | some projection => writeEffectProjection projection

def writeInstantOr (absent : String) (value : Int) : List UInt8 :=
  if value = 0 then writeHashFrame absent else writeHashInt64 (unixMilli value)

def writeDigestOr (absent : String) (value : DigestValue) : List UInt8 :=
  if value.initialized then writeHashBytes value.digest else writeHashFrame absent

def deriveAttemptDispatchBinding [Sha256] (value : Attempt) : DigestValue :=
  digestFromHasher <|
    writeHashFrame "veer.reconciliation.attempt-dispatch.v1" ++ writeHashFrame contractVersion ++
    writeHashFrame value.id ++ writeHashUint64 value.ordinal ++
    writeHashBytes value.planDigest.digest ++ writeHashFrame value.planKind.string ++
    writeHashBytes value.effect.digest.digest ++ writeHashFrame value.purpose.string ++
    writeHashFrame value.ownerID ++ writeHashInt64 value.fence ++
    writeHashBytes value.requestFingerprint.digest ++ writeHashBytes value.admissionBinding.digest ++
    writeInstantOr "no-retry-expiry" value.retryValidUntil ++
    writeDigestOr "no-observation" value.observationBinding ++
    writeInstantOr "no-observation-deadline" value.observationDeadline ++
    writeProjectionOr "no-observation-target" value.observationTarget ++
    writeProjectionOr "no-cancellation-target" value.cancellationTarget ++
    writeHashInt64 (unixMilli value.preparedAt) ++
    match value.compensation with
      | none => writeHashFrame "0"
      | some step =>
        writeHashFrame "1" ++ writeHashBytes step.schedule.digest ++
          writeHashBytes step.proofEvidence.digest ++ writeHashUint64 step.position ++
          writeHashUint64 step.dependencyOrder

def deriveGenerationAdmissionBinding [Sha256] (candidate : EffectKey)
    (prior : List EffectProjection) (proofs : List SafeSupersessionProof) : DigestValue :=
  digestFromHasher <|
    writeHashFrame "veer.reconciliation.generation-admission.v1" ++
    writeHashFrame contractVersion ++ writeHashBytes candidate.digest.digest ++
    writeHashUint64 prior.length ++ prior.flatMap writeEffectProjection ++
    writeHashUint64 proofs.length ++ proofs.flatMap fun proof => writeHashBytes proof.evidence.digest

/-- The digest of a retry decision, and the end of its window when a proof backs it. -/
def checkRetryAdmission [Sha256] (now : Int) (effect : EffectKey)
    (projection : Option EffectProjection) (fingerprint : RequestFingerprint)
    (proof : Option RetryProof) : Except Failure (DigestValue × Int) :=
  let hasher := writeHashFrame "veer.reconciliation.retry-admission.v1" ++
    writeHashFrame contractVersion ++ writeHashBytes effect.digest.digest ++
    writeHashBytes fingerprint.digest ++ writeHashInt64 (unixMilli now)
  match projection with
  | none =>
    if proof.isSome then .error [.retryForbidden]
    else .ok (digestFromHasher (hasher ++ writeHashFrame "initial"), 0)
  | some projection =>
    if !validateEffectProjection projection || !projection.key.equal effect ||
        decide (now < projection.updatedAt) then .error [.retryForbidden]
    else
      match checkRetry now projection fingerprint proof with
      | .error failure => .error failure
      | .ok () =>
        match proof with
        | none =>
          .ok (digestFromHasher (hasher ++ writeEffectProjection projection ++
            writeHashFrame "no-proof"), 0)
        | some proof =>
          .ok (digestFromHasher (hasher ++ writeEffectProjection projection ++
            writeHashBytes proof.evidence.digest), proof.validUntil)

def noGenerationGate [Sha256] (purpose : AttemptPurpose) : DigestValue :=
  deriveDigest "veer.reconciliation.no-generation-gate.v1" [utf8 purpose.string]

structure MutationBindings where
  retryBinding : DigestValue
  retryValidUntil : Int
  generationBinding : DigestValue

def mutationAdmissionBindings [Sha256] (now : Int) (input : AttemptAdmissionInput) :
    Except Failure MutationBindings :=
  match input.purpose with
  | .providerCancel =>
    if input.priorGenerationEffects.length ≠ 0 ∨ input.safeSupersessionProofs.length ≠ 0 then
      .error [.invalidAttempt]
    else
      match checkRetryAdmission now input.effect input.currentEffect input.requestFingerprint
          input.retryProof with
      | .error failure => .error failure
      | .ok (retryBinding, retryValidUntil) =>
        .ok ⟨retryBinding, retryValidUntil, noGenerationGate input.purpose⟩
  | .observation =>
    if input.retryProof.isSome ∨ input.priorGenerationEffects.length ≠ 0 ∨
        input.safeSupersessionProofs.length ≠ 0 then .error [.invalidAttempt]
    else
      .ok ⟨deriveDigest "veer.reconciliation.nonmutation-admission.v1" [utf8 input.purpose.string],
        0, noGenerationGate input.purpose⟩
  | .forward | .compensation =>
    match checkRetryAdmission now input.effect input.currentEffect input.requestFingerprint
        input.retryProof with
    | .error failure => .error failure
    | .ok (retryBinding, retryValidUntil) =>
      match checkGenerationDispatch input.effect input.priorGenerationEffects
          input.safeSupersessionProofs with
      | .error failure => .error failure
      | .ok () =>
        .ok ⟨retryBinding, retryValidUntil, deriveGenerationAdmissionBinding input.effect
          input.priorGenerationEffects input.safeSupersessionProofs⟩

end Veer.Reconcile
