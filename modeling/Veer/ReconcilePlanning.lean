import Veer.ReconcileLease

/-!
# Plan selection and lease replacement authority

`SelectPlan` reads its history with maps keyed by printed identifiers; they are association
lists here, and its loops are folds that stop at the first error.
-/
namespace Veer.Reconcile

open AtomicCells

structure CompensationProof where
  initialized : Bool
  original : EffectProjection
  inverse : EffectKey
  dependencyOrder : Nat
  adapterVersion : String
  evidence : DigestValue
  deriving DecidableEq, Repr

def validCompensationProof (value : CompensationProof) : Bool :=
  value.initialized && validateEffectProjection value.original &&
    value.original.state == .applied && validateEffectKey value.inverse &&
    decide (0 < value.dependencyOrder) && validVersion value.adapterVersion &&
    value.evidence.initialized

/-- The effects by printed key; later entries replace earlier ones. -/
def indexEffects (effects : List EffectKey) : AList (fun _ : String => EffectKey) :=
  effects.foldl (fun index effect => index.insert effect.string effect) ∅

structure CompensationScan where
  want : AList (fun _ : String => EffectKey)
  seenInverse : List String
  previousOrder : Option Nat

def scanCompensationProof (plan : Plan) (scan : CompensationScan) (proof : CompensationProof) :
    Option CompensationScan :=
  if !validCompensationProof proof || !effectMatchesPlan proof.inverse plan then none
  else if scan.previousOrder.any fun previous => previous ≤ proof.dependencyOrder then none
  else if (plan.compensates.map EffectKey.string).contains proof.inverse.string then none
  else
    match scan.want.lookup proof.original.key.string with
    | none => none
    | some original =>
      if !original.equal proof.original.key then none
      else if scan.seenInverse.contains proof.inverse.string then none
      else some
        { want := scan.want.erase proof.original.key.string
          seenInverse := proof.inverse.string :: scan.seenInverse
          previousOrder := some proof.dependencyOrder }

def validateCompensationPlan [Sha256] (plan : Plan) (proofs : List CompensationProof) : Bool :=
  validatePlan plan && plan.kind == .compensation &&
    decide (proofs.length ≤ maxEffectsPerOperation) && proofs.length == plan.compensates.length &&
    match proofs.foldlM (scanCompensationProof plan) ⟨indexEffects plan.compensates, [], none⟩ with
    | none => false
    | some scan => scan.want.keys.isEmpty

def deriveCompensationSchedule [Sha256] (plan : Plan) (proofs : List CompensationProof) :
    DigestValue :=
  digestFromHasher <|
    writeHashFrame "veer.reconciliation.compensation-schedule.v1" ++
    writeHashFrame contractVersion ++ writeHashBytes plan.digest.digest ++
    proofs.flatMap fun proof => writeHashBytes proof.evidence.digest

/-! ## Replacement authority -/

/-- `newLeaseReplacementAuthority` before it allocates its flag. -/
def leaseReplacementDraft [Sha256] (current candidate : Plan) (compensationSchedule : DigestValue)
    (admissionBinding : DigestValue) (transition : Option Nat) :
    Except Failure LeaseReplacementAuthority :=
  match leaseBindingFromPlan current, leaseBindingFromPlan candidate with
  | .ok expected, .ok replacement =>
    if expected.equal replacement || leaseRowKey expected != leaseRowKey replacement ||
        !leaseBindingMovesForward expected replacement ||
        (candidate.kind == .compensation) != compensationSchedule.initialized then
      .error [.invalidLease]
    else .ok
      { initialized := true
        expected := expected
        replacement := replacement
        replacementKind := candidate.kind
        compensationSchedule := compensationSchedule
        admissionBinding := admissionBinding
        transition := transition
        use := none }
  | _, _ => .error [.invalidLease]

def LeaseReplacementAuthority.seal (draft : LeaseReplacementAuthority) (atomics : Atomics) :
    Atomics × LeaseReplacementAuthority :=
  let (flags, use) := atomics.flags.alloc
  ({ atomics with flags := flags }, { draft with use := some use })

/-! ## Plan selection -/

structure AttemptHistory where
  seenAttempts : List String
  seenOrdinals : List Nat
  attemptEffects : AList (fun _ : String => EffectProjection)
  effectFloors : AList (fun _ : String => Int)

def logicalEffectIdentityFromAttempt (attempt : Attempt) : Except Failure EffectProjection :=
  if !validateAttempt attempt then .error [.invalidAttempt]
  else if attempt.purpose = .observation then
    match attempt.observationTarget with
    | none => .error [.invalidObservation]
    | some target => .ok target
  else effectProjectionFromAttempt attempt

/-- An observation says nothing newer than the effect it looked at. -/
def attemptFloor (attempt : Attempt) : Int :=
  match attempt.purpose, attempt.observationTarget with
  | .observation, some target => target.updatedAt
  | _, _ => attemptLatestAt attempt

def readAttempt (current : Plan) (history : AttemptHistory) (attempt : Attempt) :
    Except Failure AttemptHistory :=
  if !validateAttempt attempt then .error [.invalidAttempt]
  else if !equalDigest attempt.planDigest current.digest then .error [.planMismatch]
  else if !attempt.resolved then .error [.attemptNotDefinitive]
  else if history.seenAttempts.contains attempt.id then .error [.invalidAttempt]
  else if history.seenOrdinals.contains attempt.ordinal then .error [.invalidAttempt]
  else
    match logicalEffectIdentityFromAttempt attempt with
    | .error failure => .error failure
    | .ok identity =>
      let key := attempt.effect.string
      if (history.attemptEffects.lookup key).any
          fun prior => !effectProjectionIdentityEqual prior identity then .error [.invalidAttempt]
      else .ok
        { seenAttempts := attempt.id :: history.seenAttempts
          seenOrdinals := attempt.ordinal :: history.seenOrdinals
          attemptEffects := history.attemptEffects.insert key identity
          effectFloors :=
            if (history.effectFloors.lookup key).all fun prior => prior < attemptFloor attempt then
              history.effectFloors.insert key (attemptFloor attempt)
            else history.effectFloors }

structure EffectLedger where
  seenEffects : List String
  wantCompleted : AList (fun _ : String => EffectKey)

def readProjection (current : Plan) (history : AttemptHistory) (ledger : EffectLedger)
    (projection : EffectProjection) : Except Failure EffectLedger :=
  let key := projection.key.string
  if !validateEffectProjection projection then .error [.invalidAttempt]
  else if !equalDigest projection.planDigest current.digest then .error [.planMismatch]
  else if ledger.seenEffects.contains key then .error [.invalidAttempt]
  else if !(history.attemptEffects.lookup key).any
      fun identity => effectProjectionIdentityEqual projection identity then
    .error [.invalidAttempt]
  else if projection.updatedAt < (history.effectFloors.lookup key).getD 0 then
    .error [.attemptNotDefinitive]
  else if projection.state ≠ .applied ∧ projection.state ≠ .noEffect then
    .error [.attemptNotDefinitive]
  else .ok
    { seenEffects := key :: ledger.seenEffects
      wantCompleted :=
        if projection.state = .applied then ledger.wantCompleted.insert key projection.key
        else ledger.wantCompleted }

/-- The compensation block of `SelectPlan`: the schedule of a compensating candidate. -/
def selectSchedule [Sha256] (candidate : Plan) (proofs : List CompensationProof) :
    Except Failure DigestValue :=
  match candidate.kind with
  | .compensation =>
    if validateCompensationPlan candidate proofs then
      .ok (deriveCompensationSchedule candidate proofs)
    else .error [.invalidPlan]
  | .forward => if proofs.length ≠ 0 then .error [.invalidPlan] else .ok .zero

def completedMatches (wantCompleted : AList (fun _ : String => EffectKey))
    (completed : List EffectKey) : Bool :=
  wantCompleted.keys.length == completed.length &&
    completed.all fun effect =>
      (wantCompleted.lookup effect.string).any fun want => want.equal effect

/-- `SelectPlan` up to the allocation of the authority's flag. The reused plan comes with no
authority; the source returns the zero one, which no call accepts. -/
def selectPlanDraft [Sha256] (current candidate : Plan) (priorAttempts : List Attempt)
    (currentEffects : List EffectProjection) (freshObservation : Bool)
    (compensationProofs : List CompensationProof) :
    Except Failure (Plan × PlanSelection × Option LeaseReplacementAuthority) :=
  if !validatePlan current || !validatePlan candidate ||
      current.operationID != candidate.operationID ||
      current.workspaceID != candidate.workspaceID || current.resourceID != candidate.resourceID ||
      current.generation != candidate.generation then .error [.planMismatch]
  else if equalDigest current.digest candidate.digest then .ok (current, .reuse, none)
  else if (current.kind != candidate.kind &&
        (current.kind != .forward || candidate.kind != .compensation)) ||
      candidate.revision != (current.revision + 1) % 2 ^ 32 ||
      !(candidate.supersedes.any fun digest => equalDigest digest current.digest) ||
      !freshObservation || candidate.observed.equal current.observed then .error [.replanBlocked]
  else
    match selectSchedule candidate compensationProofs with
    | .error failure => .error failure
    | .ok schedule =>
      if currentEffects.length > maxEffectsPerOperation then .error [.invalidAttempt]
      else
        match priorAttempts.foldlM (readAttempt current) ⟨[], [], ∅, ∅⟩ with
        | .error failure => .error failure
        | .ok history =>
          match currentEffects.foldlM (readProjection current history)
              ⟨[], indexEffects current.completedEffects⟩ with
          | .error failure => .error failure
          | .ok ledger =>
            if ledger.seenEffects.length ≠ history.attemptEffects.keys.length then
              .error [.attemptNotDefinitive]
            else if !completedMatches ledger.wantCompleted candidate.completedEffects then
              .error [.completedEffectMissing]
            else
              match leaseReplacementDraft current candidate schedule .zero none with
              | .error failure => .error failure
              | .ok authority => .ok (candidate, .supersede, some authority)

/-- What a candidate has passed when it supersedes the current plan. -/
structure Supersedes [Sha256] (current candidate : Plan) (priorAttempts : List Attempt)
    (currentEffects : List EffectProjection) (compensationProofs : List CompensationProof)
    (authority : LeaseReplacementAuthority) (history : AttemptHistory) (ledger : EffectLedger) :
    Prop where
  validCurrent : validatePlan current = true
  validCandidate : validatePlan candidate = true
  operation : current.operationID = candidate.operationID
  workspace : current.workspaceID = candidate.workspaceID
  resource : current.resourceID = candidate.resourceID
  generation : current.generation = candidate.generation
  read : priorAttempts.foldlM (readAttempt current) ⟨[], [], ∅, ∅⟩ = .ok history
  projected : currentEffects.foldlM (readProjection current history)
    ⟨[], indexEffects current.completedEffects⟩ = .ok ledger
  completed : completedMatches ledger.wantCompleted candidate.completedEffects = true
  drafted : ∃ schedule, leaseReplacementDraft current candidate schedule .zero none = .ok authority

theorem selectPlanDraft_some [Sha256] {current candidate plan : Plan} {attempts : List Attempt}
    {effects : List EffectProjection} {fresh : Bool} {proofs : List CompensationProof}
    {selection : PlanSelection} {authority : LeaseReplacementAuthority}
    (h : selectPlanDraft current candidate attempts effects fresh proofs =
      .ok (plan, selection, some authority)) :
    plan = candidate ∧ ∃ history ledger,
      Supersedes current candidate attempts effects proofs authority history ledger := by
  revert h
  fun_cases selectPlanDraft current candidate attempts effects fresh proofs
  case case11 hlineage _ _ schedule _ _ history hread ledger hprojected _ hcompleted draft
      hdraft =>
    rintro ⟨⟩
    simp only [Bool.not_eq_true, Bool.or_eq_false_iff, Bool.not_eq_false', bne_eq_false_iff_eq]
      at hlineage hcompleted
    obtain ⟨⟨⟨⟨⟨hcurrent, hcandidate⟩, hoperation⟩, hworkspace⟩, hresource⟩, hgeneration⟩ := hlineage
    exact ⟨rfl, history, ledger, hcurrent, hcandidate, hoperation, hworkspace, hresource,
      hgeneration, hread, hprojected, hcompleted, schedule, hdraft⟩
  all_goals simp

def selectPlan [Sha256] (atomics : Atomics) (current candidate : Plan)
    (priorAttempts : List Attempt) (currentEffects : List EffectProjection)
    (freshObservation : Bool) (compensationProofs : List CompensationProof) :
    Atomics × Except Failure (Plan × PlanSelection × Option LeaseReplacementAuthority) :=
  match selectPlanDraft current candidate priorAttempts currentEffects freshObservation
      compensationProofs with
  | .error failure => (atomics, .error failure)
  | .ok (plan, selection, none) => (atomics, .ok (plan, selection, none))
  | .ok (plan, selection, some draft) =>
    let (sealed, authority) := draft.seal atomics
    (sealed, .ok (plan, selection, some authority))

/-! ## Generation replacement -/

def generationReplacementAllowed [Sha256] (current candidate : Plan)
    (input : AttemptAdmissionInput) : Bool :=
  validatePlan current && validatePlan candidate && current.workspaceID == candidate.workspaceID &&
    current.resourceID == candidate.resourceID && current.generation != maxInt64 &&
    candidate.generation == current.generation + 1 &&
    candidate.operationID != current.operationID && candidate.revision == 1 &&
    candidate.supersedes.isNone && validatePlan input.plan &&
    equalDigest input.plan.digest candidate.digest &&
    (input.purpose == .forward || input.purpose == .compensation)

/-- The admission and the authority share one fresh transition word. -/
def authorizeGenerationReplacement [Sha256] (atomics : Atomics) (current candidate : Plan)
    (input : AttemptAdmissionInput) :
    Atomics × Except Failure (LeaseReplacementAuthority × AttemptAdmission) :=
  if !generationReplacementAllowed current candidate input then (atomics, .error [.invalidLease])
  else
    match newAttemptAdmission atomics input with
    | (admitted, .error failure) => (admitted, .error failure)
    | (admitted, .ok admission) =>
      let (words, transition) := admitted.words.alloc
      let published : Atomics := { admitted with words := words }
      match leaseReplacementDraft current candidate .zero admission.binding (some transition) with
      | .error failure => (published, .error failure)
      | .ok draft =>
        let (sealed, authority) := draft.seal published
        (sealed, .ok (authority, { admission with replacementTransition := some transition }))

end Veer.Reconcile
