import Veer.ReconcileAdmission

/-!
# Minting admissions and preparing attempts

Each function is a pure decision followed by its atomic steps, in the order of the source.
-/
namespace Veer.Reconcile

open AtomicCells

def effectMatchesPlan (effect : EffectKey) (plan : Plan) : Bool :=
  effect.workspaceID == plan.workspaceID && effect.resourceID == plan.resourceID &&
    effect.operationID == plan.operationID && effect.generation == plan.generation

/-- After a cancellation only observation and provider cancellation may be prepared. -/
def canPrepareAfterCancellation : AttemptPurpose → Except Failure Unit
  | .observation | .providerCancel => .ok ()
  | .forward | .compensation => .error [.invalidTransition]

def cancellationAdmitted (input : AttemptAdmissionInput) : Except Failure Unit :=
  if input.cancellationRequested then canPrepareAfterCancellation input.purpose else .ok ()

def compensationStepMatchesPlan (step : CompensationStep) (plan : Plan) (effect : EffectKey) :
    Bool :=
  validCompensationStep step && plan.kind == .compensation &&
    equalDigest step.planDigest plan.digest && step.inverse.equal effect &&
    !effectSetContains plan.compensates step.inverse &&
    effectSetContains plan.compensates step.original

def compensationAdmitted (input : AttemptAdmissionInput) : Bool :=
  match input.purpose, input.compensation with
  | .compensation, some step => compensationStepMatchesPlan step input.plan input.effect
  | .compensation, none => false
  | _, compensation => compensation.isNone

structure AdmissionTargets where
  observationBinding : DigestValue
  observationDeadline : Int
  observationTransition : Option Nat
  observationTarget : Option EffectProjection
  cancellationTarget : Option EffectProjection

/-- The switch over the purpose in `NewAttemptAdmission`. -/
def admissionTargets (now : Int) (input : AttemptAdmissionInput) :
    Except Failure AdmissionTargets :=
  match input.purpose with
  | .observation =>
    match input.observation, input.currentEffect, input.cancellationTarget with
    | some permit, some current, none =>
      if validateObservationPermit permit && permit.effect.equal input.effect &&
          permit.reservedAt == now &&
          validObservationTarget current input.plan.digest input.plan.kind input.effect &&
          decide (current.updatedAt ≤ now) then
        .ok ⟨permit.binding, permit.deadline, permit.transition, some current, none⟩
      else .error [.invalidObservation]
    | _, _, _ => .error [.invalidObservation]
  | .providerCancel =>
    match input.cancellationTarget with
    | none => .error [.invalidAttempt]
    | some target =>
      if !input.cancellationRequested || input.observation.isSome ||
          !validCancellationTarget target input.plan.digest input.plan.kind input.effect ||
          decide (now < target.updatedAt) then .error [.invalidAttempt]
      else
        match input.currentEffect with
        | none => .ok ⟨.zero, 0, none, none, some target⟩
        | some current =>
          match current.cancellationTarget with
          | none => .error [.retryForbidden]
          | some priorTarget =>
            if priorTarget.equal target.key then .ok ⟨.zero, 0, none, none, some target⟩
            else .error [.retryForbidden]
  | .forward | .compensation =>
    if input.observation.isSome || input.cancellationTarget.isSome then .error [.invalidAttempt]
    else .ok ⟨.zero, 0, none, none, none⟩

def deriveAttemptAdmissionBinding [Sha256] (input : AttemptAdmissionInput)
    (bindings : MutationBindings) (targets : AdmissionTargets) (authorizedAt : Int) : DigestValue :=
  digestFromHasher <|
    writeHashFrame "veer.reconciliation.attempt-admission.v1" ++ writeHashFrame contractVersion ++
    writeHashBytes input.plan.digest.digest ++ writeHashBytes input.effect.digest.digest ++
    writeHashFrame input.purpose.string ++ writeHashBytes input.requestFingerprint.digest ++
    writeHashFrame (if input.cancellationRequested then "cancel-requested" else "not-canceled") ++
    writeHashBytes bindings.retryBinding.digest ++ writeHashBytes bindings.generationBinding.digest ++
    writeDigestOr "no-observation" targets.observationBinding ++
    writeInstantOr "no-observation-deadline" targets.observationDeadline ++
    writeProjectionOr "no-observation-target" targets.observationTarget ++
    (match input.compensation with
      | none => writeHashFrame "no-compensation"
      | some step =>
        writeHashBytes step.schedule.digest ++ writeHashBytes step.proofEvidence.digest ++
          writeHashUint64 step.position) ++
    writeProjectionOr "no-cancellation-target" targets.cancellationTarget ++
    writeHashInt64 (unixMilli authorizedAt)

def draftedAdmission [Sha256] (input : AttemptAdmissionInput) (bindings : MutationBindings)
    (targets : AdmissionTargets) (now : Int) : AttemptAdmission :=
  { initialized := true
    planDigest := input.plan.digest
    planKind := input.plan.kind
    effect := input.effect
    purpose := input.purpose
    requestFingerprint := input.requestFingerprint
    compensation := input.compensation
    observationTarget := targets.observationTarget
    cancellationTarget := targets.cancellationTarget
    retryValidUntil := bindings.retryValidUntil
    observationBinding := targets.observationBinding
    observationDeadline := targets.observationDeadline
    observationTransition := targets.observationTransition
    authorizedAt := now
    binding := deriveAttemptAdmissionBinding input bindings targets now
    replacementTransition := none
    use := none }

/-- Every check of `NewAttemptAdmission` up to its atomic steps; `use` is still nil. -/
def attemptAdmissionDraft [Sha256] (input : AttemptAdmissionInput) :
    Except Failure AttemptAdmission :=
  match normalizeTime input.databaseTime with
  | .error _ => .error [.invalidAttempt]
  | .ok now =>
    if !validatePlan input.plan || !validateEffectKey input.effect ||
        !effectMatchesPlan input.effect input.plan || !input.requestFingerprint.initialized ||
        !attemptPurposeMatchesPlan input.purpose input.plan.kind then .error [.invalidAttempt]
    else if effectSetContains input.plan.completedEffects input.effect then
      .error [.retryForbidden]
    else
      match cancellationAdmitted input with
      | .error failure => .error failure
      | .ok () =>
        if !compensationAdmitted input then .error [.invalidAttempt]
        else
          match mutationAdmissionBindings now input with
          | .error failure => .error failure
          | .ok bindings =>
            match admissionTargets now input with
            | .error failure => .error failure
            | .ok targets => .ok (draftedAdmission input bindings targets now)

/-- What an input has passed when its admission is drafted. -/
structure Drafted [Sha256] (input : AttemptAdmissionInput) (draft : AttemptAdmission) (now : Int)
    (bindings : MutationBindings) (targets : AdmissionTargets) : Prop where
  normalized : normalizeTime input.databaseTime = .ok now
  plan : validatePlan input.plan = true
  effect : validateEffectKey input.effect = true
  lineage : effectMatchesPlan input.effect input.plan = true
  purpose : attemptPurposeMatchesPlan input.purpose input.plan.kind = true
  incomplete : effectSetContains input.plan.completedEffects input.effect = false
  bound : mutationAdmissionBindings now input = .ok bindings
  targeted : admissionTargets now input = .ok targets
  built : draft = draftedAdmission input bindings targets now

theorem attemptAdmissionDraft_ok [Sha256] {input : AttemptAdmissionInput} {draft : AttemptAdmission}
    (h : attemptAdmissionDraft input = .ok draft) :
    ∃ now bindings targets, Drafted input draft now bindings targets := by
  revert h
  fun_cases attemptAdmissionDraft input
  case case8 now hnow hvalid hincomplete _ _ bindings hbindings targets htargets =>
    rintro ⟨⟩
    simp only [Bool.not_eq_true, Bool.or_eq_false_iff, Bool.not_eq_false'] at hvalid hincomplete
    obtain ⟨⟨⟨⟨hplan, heffect⟩, hlineage⟩, -⟩, hpurpose⟩ := hvalid
    exact ⟨now, bindings, targets,
      ⟨hnow, hplan, heffect, hlineage, hpurpose, hincomplete, hbindings, htargets, rfl⟩⟩
  all_goals simp

/-- Give the drafted admission its own one-use flag. -/
def AttemptAdmission.seal (draft : AttemptAdmission) (atomics : Atomics) :
    Atomics × AttemptAdmission :=
  let (flags, use) := atomics.flags.alloc
  ({ atomics with flags := flags }, { draft with use := some use })

/-- An observation admission first moves its permit from reserved to admitted. -/
def admitObservation (draft : AttemptAdmission) (atomics : Atomics) : Atomics × Bool :=
  match draft.observationTransition with
  | none => (atomics, true)
  | some transition =>
    let (words, swapped) :=
      atomics.words.compareAndSwap transition observationReserved observationAdmitted
    ({ atomics with words := words }, swapped)

def newAttemptAdmission [Sha256] (atomics : Atomics) (input : AttemptAdmissionInput) :
    Atomics × Except Failure AttemptAdmission :=
  match attemptAdmissionDraft input with
  | .error failure => (atomics, .error failure)
  | .ok draft =>
    let (admitted, swapped) := admitObservation draft atomics
    if swapped then
      let (sealed, admission) := draft.seal admitted
      (sealed, .ok admission)
    else (admitted, .error [.invalidObservation])

structure AttemptInput where
  id : ID
  ordinal : Nat
  admission : AttemptAdmission
  ownerID : ID
  fence : Int

def validAttemptInput (input : AttemptInput) : Bool :=
  validID input.id && input.ordinal != 0 && validateAttemptAdmission input.admission &&
    validID input.ownerID && decide (1 ≤ input.fence)

/-- The one compare-and-swap that spends an admission: on its replacement word, else on its
observation word, else on its own flag. -/
def consumeAdmission (admission : AttemptAdmission) (atomics : Atomics) : Atomics × Bool :=
  match admission.replacementTransition, admission.observationTransition, admission.use with
  | some transition, _, _ =>
    let (words, swapped) := atomics.words.compareAndSwap transition 1 2
    ({ atomics with words := words }, swapped)
  | none, some transition, _ =>
    let (words, swapped) :=
      atomics.words.compareAndSwap transition observationAdmitted observationPrepared
    ({ atomics with words := words }, swapped)
  | none, none, some use =>
    let (flags, swapped) := atomics.flags.compareAndSwap use false true
    ({ atomics with flags := flags }, swapped)
  | none, none, none => (atomics, false)

def preparedAttempt (input : AttemptInput) : Attempt :=
  { initialized := true
    id := input.id
    ordinal := input.ordinal
    planDigest := input.admission.planDigest
    planKind := input.admission.planKind
    effect := input.admission.effect
    purpose := input.admission.purpose
    ownerID := input.ownerID
    fence := input.fence
    requestFingerprint := input.admission.requestFingerprint
    compensation := input.admission.compensation
    observationTarget := input.admission.observationTarget
    cancellationTarget := input.admission.cancellationTarget
    retryValidUntil := input.admission.retryValidUntil
    observationBinding := input.admission.observationBinding
    observationDeadline := input.admission.observationDeadline
    admissionBinding := input.admission.binding
    state := .prepared
    preparedAt := input.admission.authorizedAt
    dispatchedAt := 0
    resolvedAt := 0 }

def newPreparedAttempt (atomics : Atomics) (input : AttemptInput) :
    Atomics × Except Failure Attempt :=
  if !validAttemptInput input then (atomics, .error [.invalidAttempt])
  else
    let (consumed, swapped) := consumeAdmission input.admission atomics
    if swapped then (consumed, .ok (preparedAttempt input))
    else (consumed, .error [.invalidAttempt])

end Veer.Reconcile
