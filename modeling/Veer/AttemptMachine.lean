import Veer.EffectTruth

/-!
# The attempt machine

An attempt starts at `NewPreparedAttempt` and any calls follow, with any arguments. The next call is
made on the attempt that a call returns, also when it comes with an error.
-/
namespace Veer.Reconcile

/-! ## Calls and runs -/

/-- One call on an attempt, with the arguments the caller chooses. -/
inductive AttemptCall
  | dispatch (table : LeaseTable) (atomics : Atomics) (permit : DispatchPermit) (dispatchedAt : Int)
  | resolve (outcome : EffectState) (resolvedAt : Int)
  | recover (proof : DispatchProof) (recoveredAt : Int)
  | maintain (kind : MaintenanceKind) (outcome : MaintenanceOutcome) (observedAt : Int)

def failureOf {α : Type} : Except Failure α → Option Failure
  | .ok _ => none
  | .error failure => some failure

def AttemptCall.perform [Sha256] (call : AttemptCall) (before : Attempt) :
    Attempt × Option Failure :=
  match call with
  | dispatch table atomics permit dispatchedAt =>
    (table.markAttemptDispatchedReturned atomics before permit dispatchedAt).2.2
  | resolve outcome resolvedAt => resolveAttemptReturned before outcome resolvedAt
  | recover proof recoveredAt => recoverAttemptReturned before proof recoveredAt
  | maintain kind outcome observedAt =>
    let returned := applyMaintenanceOutcomeReturned before kind outcome observedAt
    (returned.1, failureOf returned.2)

/-- The attempt that each call gives back is the one the next call is made on. -/
def attemptAfter [Sha256] (first : Attempt) (calls : List AttemptCall) : Attempt :=
  calls.foldl (fun attempt call => (call.perform attempt).1) first

/-- The state changes of an attempt. -/
inductive AttemptState.Next : AttemptState → AttemptState → Prop
  | dispatch : Next .prepared .dispatched
  | resolve (outcome : EffectState) : Next .dispatched outcome.attemptState
  | neverBegan : Next .prepared .noEffect
  | unknown : Next .prepared .indeterminate

theorem AttemptState.Next.of_applied {state : AttemptState} (h : state.Next .applied) :
    state = .dispatched := by
  generalize happlied : AttemptState.applied = after at h
  cases h with
  | resolve => rfl
  | dispatch | neverBegan | unknown => cases happlied

theorem AttemptState.Next.ne_prepared {state after : AttemptState} (h : state.Next after) :
    after ≠ .prepared := by
  cases h with
  | resolve outcome => cases outcome <;> simp [EffectState.attemptState]
  | dispatch | neverBegan | unknown => simp

/-- What a call does to a valid attempt: nothing, or one change of state at an instant that is not
before the latest one. -/
inductive Advances (before : Attempt) : Attempt → Prop
  | stay : Advances before before
  | dispatch (now : Int) : before.state = .prepared → before.preparedAt ≤ now →
      Advances before { before with state := .dispatched, dispatchedAt := now }
  | settle (state : AttemptState) (now : Int) : before.resolved = false → before.state.Next state →
      state ≠ .dispatched → attemptLatestAt before ≤ now →
      Advances before { before with state := state, resolvedAt := now }

theorem Advances.forward {before after : Attempt} (h : Advances before after) :
    after.state = before.state ∨ before.state.Next after.state := by
  cases h with
  | stay => exact .inl rfl
  | dispatch now hstate => exact .inr (hstate ▸ .dispatch)
  | settle state now hopen hnext => exact .inr hnext

theorem Advances.settled {before after : Attempt} (h : Advances before after)
    (hresolved : before.resolved = true) : after = before := by
  cases h with
  | stay => rfl
  | dispatch now hstate => simp [Attempt.resolved, hstate] at hresolved
  | settle state now hopen => simp [hopen] at hresolved

section Step

variable {before : Attempt}

theorem dispatchedAt_of_dispatched (hvalid : validateAttempt before = true)
    (hstate : before.state = .dispatched) : before.dispatchedAt ≠ 0 ∧ before.resolvedAt = 0 := by
  have htimes := validateAttempt_times hvalid
  rw [hstate] at htimes
  simp only [timesAgree, Bool.and_eq_true, bne_iff_ne, beq_iff_eq] at htimes
  exact ⟨htimes.1.2, htimes.2⟩

theorem resolvedAt_of_unresolved (hvalid : validateAttempt before = true)
    (hopen : before.resolved = false) : before.resolvedAt = 0 := by
  have htimes := validateAttempt_times hvalid
  unfold Attempt.resolved at hopen
  cases hstate : before.state with
  | prepared =>
    rw [hstate] at htimes
    simp only [timesAgree, Bool.and_eq_true, beq_iff_eq] at htimes
    exact htimes.2
  | dispatched => exact (dispatchedAt_of_dispatched hvalid hstate).2
  | applied | noEffect | indeterminate => simp [hstate] at hopen

theorem latestAt_of_dispatched (hvalid : validateAttempt before = true)
    (hstate : before.state = .dispatched) : attemptLatestAt before = before.dispatchedAt := by
  obtain ⟨hdispatched, hresolved⟩ := dispatchedAt_of_dispatched hvalid hstate
  simp [attemptLatestAt, hdispatched, hresolved]

theorem resolveAttemptReturned_advances (outcome : EffectState) (resolvedAt : Int) :
    Advances before (resolveAttemptReturned before outcome resolvedAt).1 := by
  fun_cases resolveAttemptReturned before outcome resolvedAt
  case case4 hvalid now _ htime =>
    simp only [Bool.not_eq_true, Bool.or_eq_false_iff, Bool.not_eq_false', bne_eq_false_iff_eq]
      at hvalid
    obtain ⟨hvalid, hstate⟩ := hvalid
    refine .settle _ now (by simp [Attempt.resolved, hstate]) (hstate ▸ .resolve outcome) ?_ ?_
    · cases outcome <;> simp [EffectState.attemptState]
    · rw [latestAt_of_dispatched hvalid hstate]
      omega
  all_goals exact .stay

theorem recoverAttemptReturned_advances (proof : DispatchProof) (recoveredAt : Int) :
    Advances before (recoverAttemptReturned before proof recoveredAt).1 := by
  fun_cases recoverAttemptReturned before proof recoveredAt
  case case4 hvalid now _ htime hstate =>
    simp only [Bool.not_eq_true, Bool.or_eq_false_iff] at hvalid
    exact .settle _ now hvalid.2 (hstate ▸ .neverBegan) (by simp) (by omega)
  case case5 hvalid now _ htime hstate =>
    simp only [Bool.not_eq_true, Bool.or_eq_false_iff] at hvalid
    exact .settle _ now hvalid.2 (hstate ▸ .unknown) (by simp) (by omega)
  case case6 hvalid now _ htime hstate =>
    simp only [Bool.not_eq_true, Bool.or_eq_false_iff] at hvalid
    exact .settle _ now hvalid.2 (hstate ▸ .resolve .indeterminate) (by simp) (by omega)
  all_goals exact .stay

theorem recoverAttemptReturned_unknown (recoveredAt : Int) :
    (recoverAttemptReturned before .unknown recoveredAt).1 = before ∨
      (recoverAttemptReturned before .unknown recoveredAt).1.state = .indeterminate := by
  unfold recoverAttemptReturned
  split
  · exact .inl rfl
  cases normalizeTime recoveredAt with
  | error => exact .inl rfl
  | ok =>
    dsimp only
    split
    · exact .inl rfl
    · cases before.state <;> simp

theorem applyMaintenanceOutcomeReturned_cases (kind : MaintenanceKind)
    (outcome : MaintenanceOutcome) (observedAt : Int) :
    (applyMaintenanceOutcomeReturned before kind outcome observedAt).1 = before ∨
      ∃ now, (applyMaintenanceOutcomeReturned before kind outcome observedAt).1 =
        (recoverAttemptReturned before .unknown now).1 := by
  fun_cases applyMaintenanceOutcomeReturned before kind outcome observedAt
  case case7 now _ _ _ _ after hrecovered =>
    exact .inr ⟨now, by rw [hrecovered]⟩
  all_goals exact .inl rfl

theorem markAttemptDispatchedReturned_advances [Sha256] (table : LeaseTable) (atomics : Atomics)
    (permit : DispatchPermit) (dispatchedAt : Int) :
    Advances before (table.markAttemptDispatchedReturned atomics before permit dispatchedAt).2.2.1 := by
  fun_cases LeaseTable.markAttemptDispatchedReturned table atomics before permit dispatchedAt
  case case7 hvalid _ now _ hinstant _ _ _ _ _ _ _ =>
    simp only [Bool.not_eq_true, Bool.or_eq_false_iff, bne_eq_false_iff_eq] at hvalid
    simp only [dispatchInstant, Bool.not_eq_true, Bool.not_eq_false', Bool.and_eq_true,
      decide_eq_true_eq] at hinstant
    exact .dispatch now hvalid.1.1.1.1.1.2 hinstant.1.1.1.1
  all_goals exact .stay

theorem AttemptCall.perform_advances [Sha256] (call : AttemptCall) (before : Attempt) :
    Advances before (call.perform before).1 := by
  cases call with
  | dispatch table atomics permit dispatchedAt =>
    exact markAttemptDispatchedReturned_advances table atomics permit dispatchedAt
  | resolve outcome resolvedAt => exact resolveAttemptReturned_advances outcome resolvedAt
  | recover proof recoveredAt => exact recoverAttemptReturned_advances proof recoveredAt
  | maintain kind outcome observedAt =>
    rcases applyMaintenanceOutcomeReturned_cases kind outcome observedAt with hstay | ⟨now, hrecover⟩
    · exact hstay.symm ▸ .stay
    · exact hrecover.symm ▸ recoverAttemptReturned_advances .unknown now

theorem AttemptCall.perform_failed [Sha256] (call : AttemptCall)
    (h : (call.perform before).2 ≠ none) : (call.perform before).1 = before := by
  revert h
  cases call with
  | dispatch table atomics permit dispatchedAt =>
    simp only [AttemptCall.perform]
    fun_cases LeaseTable.markAttemptDispatchedReturned table atomics before permit dispatchedAt <;> simp
  | resolve outcome resolvedAt =>
    simp only [AttemptCall.perform]
    fun_cases resolveAttemptReturned before outcome resolvedAt <;> simp
  | recover proof recoveredAt =>
    simp only [AttemptCall.perform]
    fun_cases recoverAttemptReturned before proof recoveredAt <;> simp
  | maintain kind outcome observedAt =>
    simp only [AttemptCall.perform]
    fun_cases applyMaintenanceOutcomeReturned before kind outcome observedAt <;> simp [failureOf]

/-- Maintenance leaves the attempt alone or makes it uncertain. -/
theorem maintenance_indeterminate [Sha256] (kind : MaintenanceKind) (outcome : MaintenanceOutcome)
    (observedAt : Int) :
    ((AttemptCall.maintain kind outcome observedAt).perform before).1 = before ∨
      ((AttemptCall.maintain kind outcome observedAt).perform before).1.state = .indeterminate := by
  rcases applyMaintenanceOutcomeReturned_cases kind outcome observedAt with hstay | ⟨now, hrecover⟩
  · exact .inl hstay
  · simp only [AttemptCall.perform, hrecover]
    exact recoverAttemptReturned_unknown now

end Step

/-! ## What a run keeps -/

theorem validateAttempt_update {before : Attempt} {state : AttemptState} {dispatchedAt resolvedAt : Int}
    (hvalid : validateAttempt before = true)
    (htimes : timesAgree state before.preparedAt dispatchedAt resolvedAt = true) :
    validateAttempt { before with
      state := state, dispatchedAt := dispatchedAt, resolvedAt := resolvedAt } = true := by
  simp only [validateAttempt, Bool.and_eq_true] at hvalid ⊢
  exact ⟨hvalid.1, htimes⟩

/-- What holds of every attempt that calls can make of `first`. -/
structure AttemptSound (first attempt : Attempt) : Prop where
  valid : validateAttempt attempt = true
  started : 0 < attempt.preparedAt
  same : attempt = { first with
    state := attempt.state, dispatchedAt := attempt.dispatchedAt, resolvedAt := attempt.resolvedAt }
  applied : attempt.state = .applied → attempt.dispatchedAt ≠ 0
  dispatched : attempt.dispatchedAt ≠ 0 → attempt.preparedAt ≤ attempt.dispatchedAt
  resolved : attempt.resolvedAt ≠ 0 → attempt.preparedAt ≤ attempt.resolvedAt ∧
    (attempt.dispatchedAt ≠ 0 → attempt.dispatchedAt ≤ attempt.resolvedAt)

variable {first : Attempt}

theorem AttemptSound.advance {before after : Attempt} (h : AttemptSound first before)
    (hadvance : Advances before after) : AttemptSound first after := by
  have hvalid := h.valid
  have hstarted := h.started
  cases hadvance with
  | stay => exact h
  | dispatch now hstate htime =>
    have hresolved := resolvedAt_of_unresolved hvalid (by simp [Attempt.resolved, hstate])
    refine ⟨?_, hstarted, ?_, by simp, fun _ => htime, fun hset => absurd hresolved hset⟩
    · apply validateAttempt_update hvalid
      simp only [timesAgree, Bool.and_eq_true, decide_eq_true_eq, bne_iff_ne, beq_iff_eq]
      omega
    · rw [h.same]
  | settle state now hopen hnext hstate htime =>
    have hresolved := resolvedAt_of_unresolved hvalid hopen
    -- the instant is not before the preparation, nor before the dispatch if there was one
    have hlatest : before.preparedAt ≤ now ∧
        (before.dispatchedAt ≠ 0 → before.dispatchedAt ≤ now) := by
      have hdispatched := h.dispatched
      unfold attemptLatestAt at htime
      split_ifs at htime <;> omega
    have happlied : state = .applied → before.dispatchedAt ≠ 0 := by
      rintro rfl
      exact (dispatchedAt_of_dispatched hvalid hnext.of_applied).1
    refine ⟨?_, hstarted, ?_, happlied, h.dispatched, fun _ => hlatest⟩
    · apply validateAttempt_update hvalid
      cases state with
      | prepared => exact absurd rfl hnext.ne_prepared
      | dispatched => exact absurd rfl hstate
      | applied =>
        simp only [timesAgree, Bool.and_eq_true, decide_eq_true_eq, bne_iff_ne]
        exact ⟨happlied rfl, hlatest.2 (happlied rfl)⟩
      | noEffect | indeterminate =>
        simp only [timesAgree, Bool.and_eq_true, decide_eq_true_eq, bne_iff_ne]
        refine ⟨?_, by omega⟩
        split_ifs <;> omega
    · rw [h.same]

/-! ## Prepared attempts -/

/-- An admission comes out of one of these two calls. -/
inductive Minted [Sha256] (admission : AttemptAdmission) : Prop
  | admitted {atomics after : Atomics} {input : AttemptAdmissionInput} :
      newAttemptAdmission atomics input = (after, .ok admission) → Minted admission
  | replacing {atomics after : Atomics} {current candidate : Plan} {input : AttemptAdmissionInput}
      {authority : LeaseReplacementAuthority} :
      authorizeGenerationReplacement atomics current candidate input =
        (after, .ok (authority, admission)) → Minted admission

theorem newAttemptAdmission_drafted [Sha256] {atomics after : Atomics}
    {input : AttemptAdmissionInput} {admission : AttemptAdmission}
    (h : newAttemptAdmission atomics input = (after, .ok admission)) :
    ∃ draft now bindings targets, Drafted input draft now bindings targets ∧
      ∃ use, admission = { draft with use := use } := by
  revert h
  fun_cases newAttemptAdmission atomics input
  case case2 draft hdraft admitted sealed sealedAdmission hsealed hadmitted =>
    rintro ⟨⟩
    obtain ⟨now, bindings, targets, hdrafted⟩ := attemptAdmissionDraft_ok hdraft
    exact ⟨draft, now, bindings, targets, hdrafted, _, (Prod.mk.inj hsealed).2.symm⟩
  all_goals simp

theorem Minted.authorizedAt [Sha256] {admission : AttemptAdmission} (h : Minted admission) :
    0 ≤ admission.authorizedAt := by
  have hnew : ∀ {atomics after : Atomics} {input : AttemptAdmissionInput}
      {minted : AttemptAdmission}, newAttemptAdmission atomics input = (after, .ok minted) →
      0 ≤ minted.authorizedAt := by
    intro atomics after input minted hminted
    obtain ⟨draft, now, bindings, targets, hdrafted, use, rfl⟩ := newAttemptAdmission_drafted hminted
    rw [hdrafted.built]
    exact (normalizeTime_ok hdrafted.normalized).2.2.1
  cases h with
  | admitted h => exact hnew h
  | @replacing atomics after current candidate input authority h =>
    revert h
    fun_cases authorizeGenerationReplacement atomics current candidate input
    case case4 hminted _ _ _ _ _ _ _ _ _ =>
      rintro ⟨⟩
      have hauthorized := hnew hminted
      exact hauthorized
    all_goals simp

theorem AttemptSound.prepared [Sha256] {atomics after : Atomics} {input : AttemptInput}
    (hminted : Minted input.admission) (h : newPreparedAttempt atomics input = (after, .ok first)) :
    AttemptSound first first := by
  have hinput : validAttemptInput input = true := by
    by_contra hbad
    rw [Bool.not_eq_true] at hbad
    simp [newPreparedAttempt, hbad] at h
  obtain ⟨-, rfl⟩ := newPreparedAttempt_ok h
  simp only [validAttemptInput, validateAttemptAdmission, Bool.and_eq_true] at hinput
  have hset : input.admission.authorizedAt ≠ 0 := by
    rw [← bne_iff_ne]
    tauto
  have hauthorized := hminted.authorizedAt
  refine ⟨?_, ?_, rfl, (fun h => nomatch h), fun h => absurd rfl h, fun h => absurd rfl h⟩
  · simp only [validateAttempt, preparedAttempt, Bool.and_eq_true]
    tauto
  · change 0 < input.admission.authorizedAt
    omega

/-! ## Runs -/

/-- What one call may do to an attempt. -/
structure CallSound (call : AttemptCall) (before : Attempt) (returned : Attempt × Option Failure) :
    Prop where
  forward : returned.1.state = before.state ∨ before.state.Next returned.1.state
  settled : before.resolved = true → returned.1 = before
  failed : returned.2 ≠ none → returned.1 = before
  maintained : ∀ kind outcome observedAt, call = .maintain kind outcome observedAt →
    returned.1 = before ∨ returned.1.state = .indeterminate

theorem AttemptCall.perform_sound [Sha256] (call : AttemptCall) (before : Attempt) :
    CallSound call before (call.perform before) where
  forward := (call.perform_advances before).forward
  settled := (call.perform_advances before).settled
  failed := call.perform_failed
  maintained := by
    rintro kind outcome observedAt rfl
    exact maintenance_indeterminate kind outcome observedAt

theorem attemptAfter_concat [Sha256] (first : Attempt) (calls : List AttemptCall)
    (call : AttemptCall) :
    attemptAfter first (calls ++ [call]) = (call.perform (attemptAfter first calls)).1 := by
  simp [attemptAfter]

theorem AttemptSound.run [Sha256] (h : AttemptSound first first) (calls : List AttemptCall) :
    AttemptSound first (attemptAfter first calls) := by
  induction calls using List.reverseRecOn with
  | nil => exact h
  | append_singleton calls call ih =>
    rw [attemptAfter_concat]
    exact ih.advance (call.perform_advances _)

/-- An applied attempt stood at the dispatch boundary earlier in its run. -/
theorem dispatched_before_applied [Sha256] (hfirst : first.state = .prepared)
    (calls : List AttemptCall) (h : (attemptAfter first calls).state = .applied) :
    ∃ earlier later, calls = earlier ++ later ∧
      (attemptAfter first earlier).state = .dispatched := by
  induction calls using List.reverseRecOn with
  | nil => simp [attemptAfter, hfirst] at h
  | append_singleton calls call ih =>
    rw [attemptAfter_concat] at h
    rcases (call.perform_sound (attemptAfter first calls)).forward with hsame | hnext
    · obtain ⟨earlier, later, rfl, hdispatched⟩ := ih (hsame.symm.trans h)
      exact ⟨earlier, later ++ [call], by rw [List.append_assoc], hdispatched⟩
    · rw [h] at hnext
      exact ⟨calls, [call], rfl, hnext.of_applied⟩

/-- An attempt stays valid and only moves forward, whatever is called on it. -/
theorem attempt_moves_forward [Sha256] {atomics after : Atomics} {input : AttemptInput}
    {first : Attempt} (hminted : Minted input.admission)
    (h : newPreparedAttempt atomics input = (after, .ok first)) (calls : List AttemptCall) :
    AttemptSound first (attemptAfter first calls) ∧
      ((attemptAfter first calls).state = .applied → ∃ earlier later, calls = earlier ++ later ∧
        (attemptAfter first earlier).state = .dispatched) ∧
      ∀ call : AttemptCall,
        CallSound call (attemptAfter first calls) (call.perform (attemptAfter first calls)) := by
  have hfirst : first.state = .prepared := by
    obtain ⟨-, rfl⟩ := newPreparedAttempt_ok h
    rfl
  exact ⟨(AttemptSound.prepared hminted h).run calls, dispatched_before_applied hfirst calls,
    fun call => call.perform_sound _⟩

/-- An attempt prepared from an admission of the input. -/
def attemptOf [Sha256] (atomics : Atomics) (input : AttemptAdmissionInput) (id : ID) : Option Attempt :=
  match newAttemptAdmission atomics input with
  | (_, .error _) => none
  | (admitted, .ok admission) =>
    (newPreparedAttempt admitted ⟨id, 1, admission, "owner-0000000001", 1⟩).2.toOption

theorem attemptOf_prepared [Sha256] {atomics : Atomics} {input : AttemptAdmissionInput} {id : ID}
    {first : Attempt} (h : attemptOf atomics input id = some first) :
    ∃ prepare admitted after, Minted prepare.admission ∧
      newPreparedAttempt admitted prepare = (after, .ok first) := by
  unfold attemptOf at h
  split at h
  · cases h
  case h_2 admitted admission hminted =>
    refine ⟨⟨id, 1, admission, "owner-0000000001", 1⟩, admitted, ?_⟩
    rcases hprepared : newPreparedAttempt admitted ⟨id, 1, admission, "owner-0000000001", 1⟩ with
      ⟨after, failure | prepared⟩
    · rw [hprepared] at h
      cases h
    · rw [hprepared] at h
      cases h
      exact ⟨after, .admitted hminted, rfl⟩

def sampleAttempt [Sha256] : Option Attempt :=
  attemptOf noAtomics sampleAdmissionInput "attempt-00000001"

attribute [local instance] plainSha256

/-- The sample attempt, recovered without a proof. -/
theorem attempt_moves_forward_sample :
    ∃ first, sampleAttempt = some first ∧
      AttemptSound first (attemptAfter first [.recover .unknown (2 * second)]) := by
  have hsome : sampleAttempt.isSome = true := by decide +kernel
  obtain ⟨first, hfirst⟩ := Option.isSome_iff_exists.mp hsome
  obtain ⟨prepare, atomics, after, hminted, hprepared⟩ := attemptOf_prepared hfirst
  exact ⟨first, hfirst, (attempt_moves_forward hminted hprepared _).1⟩

end Veer.Reconcile
