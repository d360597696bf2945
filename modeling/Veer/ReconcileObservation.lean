import Veer.ReconcilePlanning

/-!
# Observation budgets

Budgets are value copies: `transition` is the flag that all copies of one version share, and
every accepted call returns a new version with a fresh flag.
-/
namespace Veer.Reconcile

open AtomicCells

structure ObservationBudget where
  initialized : Bool
  effect : EffectKey
  maximum : Nat
  used : Nat
  deadline : Int
  lastAt : Int
  version : Nat
  inFlight : Bool
  binding : DigestValue
  transition : Option Nat
  done : Bool
  quarantined : Bool
  deriving DecidableEq, Repr

def validateObservationBudget (value : ObservationBudget) : Bool :=
  value.initialized && validateEffectKey value.effect && value.maximum != 0 &&
    decide (value.maximum ≤ maxObservationAttempts) && decide (value.used ≤ value.maximum) &&
    value.deadline != 0 && value.version != 0 && value.transition.isSome &&
    !(value.quarantined && !value.done) && value.inFlight == value.binding.initialized &&
    !(value.done && value.inFlight) && !(decide (0 < value.used) && value.lastAt == 0)

def deriveObservationBinding [Sha256] (effect : EffectKey) (version used : Nat)
    (reservedAt deadline : Int) : DigestValue :=
  digestFromHasher <|
    writeHashFrame "veer.reconciliation.observation-admission.v1" ++
    writeHashFrame contractVersion ++ writeHashBytes effect.digest.digest ++
    writeHashUint64 version ++ writeHashUint64 used ++ writeHashInt64 (unixMilli reservedAt) ++
    writeHashInt64 (unixMilli deadline)

def newObservationBudget (atomics : Atomics) (effect : EffectKey) (maximum : Nat)
    (deadline : Int) : Atomics × Except Failure ObservationBudget :=
  match normalizeTime deadline with
  | .error _ => (atomics, .error [.invalidObservation])
  | .ok until_ =>
    if !validateEffectKey effect || maximum == 0 || decide (maximum > maxObservationAttempts) then
      (atomics, .error [.invalidObservation])
    else
      let (flags, transition) := atomics.flags.alloc
      ({ atomics with flags := flags }, .ok
        { initialized := true
          effect := effect
          maximum := maximum
          used := 0
          deadline := until_
          lastAt := 0
          version := 1
          inFlight := false
          binding := .zero
          transition := some transition
          done := false
          quarantined := false })

/-- Spend a version's flag and, when that succeeds, give its successor a fresh one. -/
def ObservationBudget.advance (before after : ObservationBudget) (atomics : Atomics) :
    Atomics × Option ObservationBudget :=
  let (spent, swapped) := spendFlag before.transition atomics
  if swapped then
    let (flags, transition) := spent.flags.alloc
    ({ spent with flags := flags }, some { after with transition := some transition })
  else (spent, none)

def reserveObservation [Sha256] (atomics : Atomics) (before : ObservationBudget)
    (reservedAt : Int) : Atomics × Except Failure (ObservationBudget × ObservationPermit) :=
  if !validateObservationBudget before then (atomics, .error [.invalidObservation])
  else
    match normalizeTime reservedAt with
    | .error _ => (atomics, .error [.invalidObservation])
    | .ok now =>
      if before.lastAt ≠ 0 ∧ now < before.lastAt then (atomics, .error [.invalidObservation])
      else if before.done || before.inFlight || decide (before.maximum ≤ before.used) ||
          decide (before.deadline ≤ now) || before.version == maxUint64 then
        (atomics, .error [.observationExhausted])
      else
        let used := before.used + 1
        let version := before.version + 1
        let binding := deriveObservationBinding before.effect version used now before.deadline
        match before.advance { before with
            lastAt := now, used := used, version := version, inFlight := true,
            binding := binding } atomics with
        | (spent, none) => (spent, .error [.invalidObservation])
        | (spent, some after) =>
          let (words, transition) := spent.words.alloc
          ({ spent with words := words }, .ok (after,
            { initialized := true
              effect := before.effect
              version := version
              reservedAt := now
              deadline := before.deadline
              binding := binding
              transition := some transition }))

def releaseMatches (before : ObservationBudget) (permit : ObservationPermit) : Bool :=
  validateObservationBudget before && before.inFlight && validateObservationPermit permit &&
    permit.effect.equal before.effect && permit.version == before.version &&
    permit.reservedAt == before.lastAt && permit.deadline == before.deadline &&
    equalDigest permit.binding before.binding && before.version != maxUint64

/-- Retire the permit's word: the loop of the source reads it and swaps it for `released`,
and starts again only when another call moved the word in between. -/
def retirePermit (permit : ObservationPermit) (atomics : Atomics) : Atomics × Bool :=
  match permit.transition with
  | none => (atomics, false)
  | some transition =>
    let state := atomics.words.load transition
    if state ≠ observationReserved ∧ state ≠ observationAdmitted then (atomics, false)
    else
      let (words, swapped) := atomics.words.compareAndSwap transition state observationReleased
      ({ atomics with words := words }, swapped)

def releaseObservation (atomics : Atomics) (before : ObservationBudget)
    (permit : ObservationPermit) (releasedAt : Int) : Atomics × Except Failure ObservationBudget :=
  if !releaseMatches before permit then (atomics, .error [.invalidObservation])
  else
    match normalizeTime releasedAt with
    | .error _ => (atomics, .error [.invalidObservation])
    | .ok now =>
      if now < before.lastAt then (atomics, .error [.invalidObservation])
      else
        let (retired, swapped) := retirePermit permit atomics
        if !swapped then (retired, .error [.invalidObservation])
        else
          match before.advance { before with
              version := before.version + 1, inFlight := false, binding := .zero,
              lastAt := now } retired with
          | (spent, none) => (spent, .error [.invalidObservation])
          | (spent, some after) => (spent, .ok after)

def completionMatches (before : ObservationBudget) (current : EffectProjection)
    (attempt : Attempt) : Bool :=
  validateObservationBudget before && before.inFlight && validateEffectProjection current &&
    validateAttempt attempt && attempt.purpose == .observation &&
    attempt.effect.equal before.effect && attempt.observationBinding.initialized &&
    attempt.observationDeadline == before.deadline &&
    (attempt.observationTarget.any fun target =>
      effectProjectionIdentityEqual current target &&
        decide (target.updatedAt ≤ current.updatedAt)) &&
    equalDigest attempt.observationBinding before.binding && attempt.resolved &&
    decide (before.lastAt ≤ attempt.resolvedAt) && before.version != maxUint64

/-- The attempt settles exactly the effect it was admitted to look at. -/
def settlesTarget (current : EffectProjection) (attempt : Attempt) : Bool :=
  (attempt.observationTarget.any fun target => effectProjectionsEqual current target) &&
    attempt.definitive && attempt.dispatchedAt != 0

def completionAt (current : EffectProjection) (attempt : Attempt) : Int :=
  if attempt.resolvedAt < current.updatedAt then current.updatedAt else attempt.resolvedAt

/-- The projection a completion leaves, and whether it decides the budget. -/
def completionOutcome (before : ObservationBudget) (current : EffectProjection)
    (attempt : Attempt) : EffectProjection × ObservationDecision :=
  if settlesTarget current attempt then
    ({ current with
        state := attempt.state, sourceAttemptID := attempt.id, updatedAt := attempt.resolvedAt },
      .resolved)
  else if current.state = .applied ∨ current.state = .noEffect then (current, .resolved)
  else if before.maximum ≤ before.used ∨ before.deadline ≤ completionAt current attempt then
    (current, .quarantine)
  else (current, .continue)

/-- With the budget and projection that come also with an error. -/
def completeObservationReturned (atomics : Atomics) (before : ObservationBudget)
    (current : EffectProjection) (attempt : Attempt) :
    Atomics × ObservationBudget × EffectProjection × Except Failure ObservationDecision :=
  if !completionMatches before current attempt then
    (atomics, before, current, .error [.invalidObservation])
  else
    let (projection, decision) := completionOutcome before current attempt
    match before.advance { before with
        version := before.version + 1, inFlight := false, binding := .zero,
        lastAt := completionAt current attempt,
        done := decision != .continue || before.done,
        quarantined := decision == .quarantine || before.quarantined } atomics with
    | (spent, none) => (spent, before, current, .error [.invalidObservation])
    | (spent, some after) => (spent, after, projection, .ok decision)

def completeObservation (atomics : Atomics) (before : ObservationBudget)
    (current : EffectProjection) (attempt : Attempt) :
    Atomics × Except Failure (ObservationBudget × EffectProjection × ObservationDecision) :=
  let (spent, after, projection, result) :=
    completeObservationReturned atomics before current attempt
  (spent, result.map fun decision => (after, projection, decision))

def expireObservationBudget (atomics : Atomics) (before : ObservationBudget) (observedAt : Int) :
    Atomics × Except Failure (ObservationBudget × ObservationDecision) :=
  if !validateObservationBudget before then (atomics, .error [.invalidObservation])
  else if before.done then (atomics, .ok (before, .alreadyDone))
  else
    match normalizeTime observedAt with
    | .error _ => (atomics, .error [.invalidObservation])
    | .ok now =>
      if before.inFlight || decide (now < before.lastAt) || decide (now < before.deadline) ||
          before.version == maxUint64 then (atomics, .error [.invalidObservation])
      else
        match before.advance { before with
            version := before.version + 1, lastAt := now, done := true,
            quarantined := true } atomics with
        | (spent, none) => (spent, .error [.invalidObservation])
        | (spent, some after) => (spent, .ok (after, .quarantine))

end Veer.Reconcile
