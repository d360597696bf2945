import Veer.AttemptMachine
import Veer.ObservationLine

/-!
# Observations change truth by compare and swap

`CompleteObservation` writes the result of an observation only over the projection that its
admission captured. The attempt is any that calls can make of a prepared one.
-/
namespace Veer.Reconcile

/-! ## Equal projections -/

theorem compensationStep_eq {left right : CompensationStep} (hleft : validCompensationStep left = true)
    (hright : validCompensationStep right = true) (h : compensationStepsEqual left right = true) :
    left = right := by
  rcases left with ⟨li, lp, lo, lv, ld, ln, lt, le, ls⟩
  rcases right with ⟨ri, rp, ro, rv, rd, rn, rt, re, rs⟩
  simp only [validCompensationStep, Bool.and_eq_true] at hleft hright
  simp only [compensationStepsEqual, Bool.and_eq_true, equalDigest_iff, EffectKey.equal_iff,
    beq_iff_eq] at h
  obtain ⟨⟨⟨⟨⟨⟨⟨⟨-, rfl⟩, -, rfl⟩, -, rfl⟩, rfl⟩, rfl⟩, rfl⟩, -, rfl⟩, -, rfl⟩ := h
  obtain rfl : li = true := by tauto
  obtain rfl : ri = true := by tauto
  rfl

theorem compensationAgrees_step {purpose : AttemptPurpose} {step : CompensationStep}
    {planDigest : PlanDigest} {effect : EffectKey}
    (h : compensationAgrees purpose (some step) planDigest effect = true) :
    validCompensationStep step = true := by
  cases purpose with
  | compensation =>
    simp only [compensationAgrees, Bool.and_eq_true] at h
    exact h.1.1
  | forward | observation | providerCancel => simp [compensationAgrees] at h

theorem optionalEffectKeys_eq {left right : Option EffectKey}
    (h : optionalEffectKeysEqual left right = true) : left = right := by
  cases left <;> cases right <;> simp_all [optionalEffectKeysEqual, EffectKey.equal_iff]

/-- Between valid projections `effectProjectionsEqual` is equality of all fields. -/
theorem effectProjection_eq {left right : EffectProjection}
    (hleft : validateEffectProjection left = true) (hright : validateEffectProjection right = true)
    (h : effectProjectionsEqual left right = true) : left = right := by
  rcases left with ⟨li, lk, lp, la, lu, lc, lt, ls, ld⟩
  rcases right with ⟨ri, rk, rp, ra, ru, rc, rt, rs, rd⟩
  simp only [effectProjectionsEqual, effectProjectionIdentityEqual, Bool.and_eq_true,
    equalDigest_iff, EffectKey.equal_iff, beq_iff_eq] at h
  obtain ⟨⟨⟨⟨⟨⟨⟨⟨-, rfl⟩, -, rfl⟩, rfl⟩, htarget⟩, hstep⟩, rfl⟩, rfl⟩, rfl⟩ := h
  simp only [validateEffectProjection, Bool.and_eq_true] at hleft hright
  obtain rfl : li = true := by tauto
  obtain rfl : ri = true := by tauto
  obtain rfl := optionalEffectKeys_eq htarget
  have hcompensation : lc = rc := by
    cases lc with
    | none => cases rc with
      | none => rfl
      | some => simp at hstep
    | some => cases rc with
      | none => simp at hstep
      | some =>
        rw [compensationStep_eq (compensationAgrees_step hleft.1.2)
          (compensationAgrees_step hright.1.2) hstep]
  rw [hcompensation]

/-! ## Where an observation attempt comes from -/

/-- An observation attempt was admitted with a permit and the current projection of its effect. -/
structure Observes (admission : AttemptAdmission) (permit : ObservationPermit)
    (target : EffectProjection) : Prop where
  effect : permit.effect = admission.effect
  binding : admission.observationBinding = permit.binding
  deadline : admission.observationDeadline = permit.deadline
  captured : admission.observationTarget = some target
  known : target.updatedAt ≤ admission.authorizedAt

theorem admissionTargets_observes {now : Int} {input : AttemptAdmissionInput}
    {targets : AdmissionTargets} (hpurpose : input.purpose = .observation)
    (h : admissionTargets now input = .ok targets) :
    ∃ permit target, input.observation = some permit ∧ input.currentEffect = some target ∧
      permit.effect = input.effect ∧ target.updatedAt ≤ now ∧
      targets = ⟨permit.binding, permit.deadline, permit.transition, some target, none⟩ := by
  unfold admissionTargets at h
  rw [hpurpose] at h
  dsimp only at h
  split at h
  case h_1 permit target hpermit htarget _ =>
    split at h
    case isTrue hvalid =>
      simp only [Bool.and_eq_true, EffectKey.equal_iff, decide_eq_true_eq] at hvalid
      exact ⟨permit, target, hpermit, htarget, hvalid.1.1.1.2.2, hvalid.2, (Except.ok.inj h).symm⟩
    case isFalse => cases h
  case h_2 => cases h

theorem Minted.observes [Sha256] {admission : AttemptAdmission} (h : Minted admission)
    (hpurpose : admission.purpose = .observation) :
    ∃ input permit target, (∃ atomics, (newAttemptAdmission atomics input).2 = .ok admission) ∧
      input.observation = some permit ∧ input.currentEffect = some target ∧
      Observes admission permit target := by
  cases h with
  | @admitted atomics after input h =>
    obtain ⟨draft, now, bindings, targets, hdrafted, use, rfl⟩ := newAttemptAdmission_drafted h
    have hbuilt := hdrafted.built
    subst hbuilt
    obtain ⟨permit, target, hpermit, htarget, heffect, hknown, rfl⟩ :=
      admissionTargets_observes hpurpose hdrafted.targeted
    exact ⟨input, permit, target, ⟨atomics, by rw [h]⟩, hpermit, htarget, heffect, rfl, rfl, rfl,
      hknown⟩
  | @replacing atomics after current candidate input authority h =>
    revert h
    fun_cases authorizeGenerationReplacement atomics current candidate input
    case case4 hallowed _ _ hminted _ _ _ _ _ _ _ _ _ =>
      rintro ⟨⟩
      obtain ⟨draft, now, bindings, targets, hdrafted, use, rfl⟩ :=
        newAttemptAdmission_drafted hminted
      rw [hdrafted.built] at hpurpose
      change input.purpose = .observation at hpurpose
      simp [generationReplacementAllowed, hpurpose] at hallowed
    all_goals simp

theorem advance_transition {before draft next : ObservationBudget} {atomics after : Atomics}
    (h : before.advance draft atomics = (after, some next)) :
    ∃ transition, next = { draft with transition := transition } := by
  revert h
  fun_cases ObservationBudget.advance before draft atomics
  case case1 =>
    rintro ⟨⟩
    exact ⟨_, rfl⟩
  case case2 => simp

theorem reserveObservation_binding [Sha256] {atomics after : Atomics} {before budget : ObservationBudget}
    {reservedAt : Int} {permit : ObservationPermit}
    (h : reserveObservation atomics before reservedAt = (after, .ok (budget, permit))) :
    permit.binding = budget.binding ∧ permit.effect = budget.effect ∧
      permit.deadline = budget.deadline := by
  revert h
  fun_cases reserveObservation atomics before reservedAt
  case case6 hadvance words transition halloc =>
    rintro ⟨⟩
    obtain ⟨flag, rfl⟩ := advance_transition hadvance
    exact ⟨rfl, rfl, rfl⟩
  all_goals simp

/-! ## The swap -/

theorem attempt_observationTarget {attempt : Attempt} {target : EffectProjection}
    (hvalid : validateAttempt attempt = true) (hpurpose : attempt.purpose = .observation)
    (htarget : attempt.observationTarget = some target) : validateEffectProjection target = true := by
  simp only [validateAttempt, Bool.and_eq_true] at hvalid
  have hagrees := hvalid.1.2
  simp only [observationAgrees, hpurpose, htarget, validObservationTarget, Bool.and_eq_true] at hagrees
  exact hagrees.2.1.1.1.1.1

/-- What a completion that writes the projection has compared, and what it writes. -/
structure Swapped [Sha256] (prepare : AttemptInput) (attempt : Attempt) (budget : ObservationBudget)
    (current projection : EffectProjection) : Prop where
  purpose : attempt.purpose = .observation
  /-- The attempt was admitted with a permit of the budget's binding and the projection that was
  current then. -/
  admitted : ∃ input permit, (∃ atomics, (newAttemptAdmission atomics input).2 = .ok prepare.admission) ∧
    input.observation = some permit ∧ permit.binding = budget.binding ∧
    permit.effect = budget.effect ∧ permit.deadline = budget.deadline ∧
    input.currentEffect = some current
  /-- So does every permit with which the budget may have been reserved. -/
  reserved : ∀ atomics before reservedAt permit,
    (reserveObservation atomics before reservedAt).2 = .ok (budget, permit) →
      attempt.observationBinding = permit.binding ∧ attempt.effect = permit.effect ∧
        attempt.observationDeadline = permit.deadline
  captured : attempt.observationTarget = some current
  dispatched : attempt.dispatchedAt ≠ 0
  definitive : attempt.state = .applied ∨ attempt.state = .noEffect
  written : projection = { current with
    state := attempt.state, sourceAttemptID := attempt.id, updatedAt := attempt.resolvedAt }
  later : current.updatedAt ≤ projection.updatedAt

theorem completeObservationReturned_projection (atomics : Atomics) (budget : ObservationBudget)
    (current : EffectProjection) (attempt : Attempt) :
    (completeObservationReturned atomics budget current attempt).2.2.1 = current ∨
      completionMatches budget current attempt = true ∧ settlesTarget current attempt = true ∧
        (completeObservationReturned atomics budget current attempt).2.2.1 = { current with
          state := attempt.state, sourceAttemptID := attempt.id, updatedAt := attempt.resolvedAt } := by
  have houtcome : (completionOutcome budget current attempt).1 = current ∨
      settlesTarget current attempt = true ∧ (completionOutcome budget current attempt).1 =
        { current with
          state := attempt.state, sourceAttemptID := attempt.id, updatedAt := attempt.resolvedAt } := by
    unfold completionOutcome
    split_ifs with hsettles
    · exact .inr ⟨hsettles, rfl⟩
    all_goals exact .inl rfl
  fun_cases completeObservationReturned atomics budget current attempt
  case case3 hmatches projection decision hprojection _ _ _ =>
    rw [hprojection] at houtcome
    rcases houtcome with hsame | ⟨hsettles, hwritten⟩
    · exact .inl hsame
    · exact .inr ⟨by simpa using hmatches, hsettles, hwritten⟩
  all_goals exact .inl rfl

/-- Whatever attempt a prepared one has become, `CompleteObservation` gives the projection back
unchanged unless it is the one captured at admission and the attempt settled it. -/
theorem completeObservation_compares_and_swaps [Sha256] {atomics after : Atomics}
    {prepare : AttemptInput} {first : Attempt} (hminted : Minted prepare.admission)
    (hprepared : newPreparedAttempt atomics prepare = (after, .ok first)) (calls : List AttemptCall)
    (shared : Atomics) (budget : ObservationBudget) (current : EffectProjection) :
    (completeObservationReturned shared budget current (attemptAfter first calls)).2.2.1 = current ∨
      Swapped prepare (attemptAfter first calls) budget current
        (completeObservationReturned shared budget current (attemptAfter first calls)).2.2.1 := by
  have hsound := (AttemptSound.prepared hminted hprepared).run calls
  generalize attemptAfter first calls = attempt at hsound ⊢
  rcases completeObservationReturned_projection shared budget current attempt with
    hsame | ⟨hmatches, hsettles, hwritten⟩
  · exact .inl hsame
  right
  rw [hwritten]
  obtain ⟨-, rfl⟩ := newPreparedAttempt_ok hprepared
  simp only [completionMatches, Bool.and_eq_true, EffectKey.equal_iff, equalDigest_iff, beq_iff_eq,
    decide_eq_true_eq] at hmatches
  obtain ⟨⟨⟨⟨⟨⟨⟨⟨⟨⟨⟨⟨-, -⟩, hcurrent⟩, hvalid⟩, hpurpose⟩, -, heffect⟩, -⟩, hdeadline⟩, -⟩, -, hbinding⟩,
    -⟩, -⟩, -⟩ := hmatches
  simp only [settlesTarget, Bool.and_eq_true, bne_iff_ne] at hsettles
  obtain ⟨⟨hexact, hdefinitive⟩, hdispatched⟩ := hsettles
  -- the admission of the attempt
  have hframe := hsound.same
  have hadmission : prepare.admission.purpose = .observation := by
    rw [hframe] at hpurpose
    exact hpurpose
  obtain ⟨input, permit, target, hinput, hpermit, htarget, hobserves⟩ := hminted.observes hadmission
  have hcaptured : attempt.observationTarget = some target := by
    rw [hframe]
    exact hobserves.captured
  have hsame : current = target := by
    rw [hcaptured] at hexact
    exact effectProjection_eq hcurrent (attempt_observationTarget hvalid hpurpose hcaptured) hexact
  subst hsame
  have hpermitBinding : attempt.observationBinding = permit.binding := by
    rw [hframe]
    exact hobserves.binding
  have hpermitDeadline : attempt.observationDeadline = permit.deadline := by
    rw [hframe]
    exact hobserves.deadline
  have hpermitEffect : permit.effect = attempt.effect := by
    rw [hframe]
    exact hobserves.effect
  have hprepare : attempt.preparedAt = prepare.admission.authorizedAt := by
    rw [hframe]
    rfl
  have hstate : attempt.state = .applied ∨ attempt.state = .noEffect := by
    simpa [Attempt.definitive] using hdefinitive
  -- the target was current at the admission, and the attempt was resolved after its dispatch
  have hlater : current.updatedAt ≤ attempt.resolvedAt := by
    have hknown := hobserves.known
    have hfirst := hsound.dispatched hdispatched
    have htimes := validateAttempt_times hvalid
    rcases hstate with hstate | hstate <;> rw [hstate] at htimes <;>
      simp only [timesAgree, hdispatched, if_false, Bool.and_eq_true, decide_eq_true_eq] at htimes <;>
      omega
  refine ⟨hpurpose, ⟨input, permit, hinput, hpermit, ?_, ?_, ?_, htarget⟩, ?_, hcaptured, hdispatched,
    hstate, rfl, hlater⟩
  · rw [← hpermitBinding, hbinding]
  · rw [hpermitEffect, heffect]
  · rw [← hpermitDeadline, hdeadline]
  · intro atomics before reservedAt other hreserve
    obtain ⟨hother, hotherEffect, hotherDeadline⟩ :=
      reserveObservation_binding (Prod.ext rfl hreserve)
    exact ⟨hbinding.trans hother.symm, heffect.trans hotherEffect.symm,
      hdeadline.trans hotherDeadline.symm⟩

/-! ## An observation that settles its effect -/

section Sample

variable [Sha256]

def unknownProjection : EffectProjection :=
  ⟨true, sampleEffect, samplePlan.digest, "attempt-00000001", .forward, none, none, .indeterminate,
    1 * second⟩

def appliedByObservation : EffectProjection :=
  { unknownProjection with
    state := .applied, sourceAttemptID := "attempt-00000002", updatedAt := 4 * second }

/-- The sample budget after its first reservation. -/
def reservedBudget : ObservationBudget :=
  { sampleBudget with
    used := 1, lastAt := 1 * second, version := 2, inFlight := true
    binding := (samplePermit : ObservationPermit).binding, transition := some 1 }

def reservedAtomics : Atomics := (reserveObservation samplePool.atomics sampleBudget (1 * second)).1

def observationInput : AttemptAdmissionInput :=
  { sampleAdmissionInput with
    purpose := .observation
    currentEffect := some unknownProjection
    observation := some samplePermit }

/-- The lease is acquired, the attempt dispatched under it and resolved. -/
def observationCalls (first : Attempt) : List AttemptCall :=
  let table := ((⟨true, 0, 1, ∅⟩ : LeaseTable).acquire (1 * second) samplePlanBinding
    "owner-0000000001").1
  let authority := { sampleDispatchAuthority with
    planDigest := samplePlan.digest, attemptBinding := deriveAttemptDispatchBinding first }
  match table.authorizeDispatch noAtomics (2 * second) { sampleToken with
      binding := samplePlanBinding } (20 * second) authority with
  | (held, atomics, .ok permit) =>
    [.dispatch held atomics permit (3 * second), .resolve .applied (4 * second)]
  | (_, _, .error _) => []

end Sample

attribute [local instance] plainSha256

/-- The unknown effect is observed under a permit of the budget and becomes `Applied`. -/
theorem completeObservation_swaps_observed :
    (reserveObservation samplePool.atomics sampleBudget (1 * second)).2 =
        .ok (reservedBudget, samplePermit) ∧
      ∃ prepare first, attemptOf reservedAtomics observationInput "attempt-00000002" = some first ∧
        (completeObservationReturned reservedAtomics reservedBudget unknownProjection
          (attemptAfter first (observationCalls first))).2.2.1 = appliedByObservation ∧
        Swapped prepare (attemptAfter first (observationCalls first)) reservedBudget
          unknownProjection appliedByObservation := by
  have hrun : (attemptOf reservedAtomics observationInput "attempt-00000002").map
      (fun first => (completeObservationReturned reservedAtomics reservedBudget unknownProjection
        (attemptAfter first (observationCalls first))).2.2.1) = some appliedByObservation := by
    decide +kernel
  obtain ⟨first, hfirst, hwritten⟩ := Option.map_eq_some_iff.mp hrun
  obtain ⟨prepare, admitted, after, hminted, hprepared⟩ := attemptOf_prepared hfirst
  refine ⟨by decide +kernel, prepare, first, hfirst, hwritten, ?_⟩
  rcases completeObservation_compares_and_swaps hminted hprepared (observationCalls first)
    reservedAtomics reservedBudget unknownProjection with hsame | hswapped
  · exact absurd (hwritten.symm.trans hsame) (by decide +kernel)
  · rw [hwritten] at hswapped
    exact hswapped

end Veer.Reconcile
