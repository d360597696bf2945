import Veer.CapabilityCells

/-!
# The truth about one logical effect

A store keeps the current version of every attempt on one effect and the effect's current
projection. It hands the projection to every admission and installs the projection of each
attempt that is not an observation whenever that attempt changes; observations reach it only
through `CompleteObservation`.
-/
namespace Veer.Reconcile

open AtomicCells StepMachine

structure EffectStore where
  atomics : Atomics
  table : LeaseTable
  admissions : List AttemptAdmission
  attempts : List Attempt
  current : Option EffectProjection

/-- Calls name admissions and attempts by their position in the store. -/
inductive TruthCall
  /-- Anything else in the process: budgets, leases and permits of this or other effects. -/
  | others (atomics : Atomics) (table : LeaseTable)
  | newAdmission (input : AttemptAdmissionInput)
  | prepare (admission : Nat) (id : ID) (ordinal : Nat) (ownerID : ID) (fence : Int)
  | dispatch (attempt : Nat) (permit : DispatchPermit) (dispatchedAt : Int)
  | resolve (attempt : Nat) (outcome : EffectState) (resolvedAt : Int)
  | recover (attempt : Nat) (proof : DispatchProof) (recoveredAt : Int)
  | maintain (attempt : Nat) (kind : MaintenanceKind) (outcome : MaintenanceOutcome)
      (observedAt : Int)
  | complete (budget : ObservationBudget) (attempt : Nat)

inductive TruthReply
  | done
  | refused
  /-- An attempt is new or has a new version. -/
  | advanced (after : Attempt)
  /-- An observation is complete; `settled` when it changed the effect's projection. -/
  | completed (attempt : Attempt) (settled : Bool)
  deriving DecidableEq

/-- The projection after an attempt has changed. -/
def EffectStore.install (store : EffectStore) (after : Attempt) : Option EffectProjection :=
  match effectProjectionFromAttempt after with
  | .ok projection => some projection
  | .error _ => store.current

def EffectStore.replace (store : EffectStore) (position : Nat) (after : Attempt) : EffectStore :=
  { store with attempts := store.attempts.set position after, current := store.install after }

def truthStep [Sha256] (effect : EffectKey) (store : EffectStore) :
    TruthCall → EffectStore × TruthReply
  | .others atomics table => ({ store with atomics := atomics, table := table }, .done)
  | .newAdmission input =>
    match newAttemptAdmission store.atomics
        { input with effect := effect, currentEffect := store.current } with
    | (atomics, .error _) => ({ store with atomics := atomics }, .refused)
    | (atomics, .ok admission) =>
      ({ store with atomics := atomics, admissions := store.admissions ++ [admission] }, .done)
  | .prepare position id ordinal ownerID fence =>
    match store.admissions[position]? with
    | none => (store, .refused)
    | some admission =>
      match newPreparedAttempt store.atomics ⟨id, ordinal, admission, ownerID, fence⟩ with
      | (atomics, .error _) => ({ store with atomics := atomics }, .refused)
      | (atomics, .ok attempt) =>
        ({ store with
            atomics := atomics, attempts := store.attempts ++ [attempt],
            current := store.install attempt }, .advanced attempt)
  | .dispatch position permit dispatchedAt =>
    match store.attempts[position]? with
    | none => (store, .refused)
    | some before =>
      match store.table.markAttemptDispatched store.atomics before permit dispatchedAt with
      | (table, atomics, .error _) =>
        ({ store with table := table, atomics := atomics }, .refused)
      | (table, atomics, .ok after) =>
        ({ store with table := table, atomics := atomics }.replace position after,
          .advanced after)
  | .resolve position outcome resolvedAt =>
    match store.attempts[position]? with
    | none => (store, .refused)
    | some before =>
      match resolveAttempt before outcome resolvedAt with
      | .error _ => (store, .refused)
      | .ok after => (store.replace position after, .advanced after)
  | .recover position proof recoveredAt =>
    match store.attempts[position]? with
    | none => (store, .refused)
    | some before =>
      match recoverAttempt before proof recoveredAt with
      | .error _ => (store, .refused)
      | .ok after => (store.replace position after, .advanced after)
  | .maintain position kind outcome observedAt =>
    match store.attempts[position]? with
    | none => (store, .refused)
    | some before =>
      match applyMaintenanceOutcome before kind outcome observedAt with
      | .error _ => (store, .refused)
      | .ok (after, _) =>
        if after = before then (store, .done)
        else (store.replace position after, .advanced after)
  | .complete budget position =>
    match store.attempts[position]?, store.current with
    | some attempt, some current =>
      match completeObservation store.atomics budget current attempt with
      | (atomics, .error _) => ({ store with atomics := atomics }, .refused)
      | (atomics, .ok (_, projection, _)) =>
        ({ store with atomics := atomics, current := some projection },
          .completed attempt (decide (projection ≠ current)))
    | _, _ => (store, .refused)

def truthMachine [Sha256] (effect : EffectKey) : Machine EffectStore TruthCall TruthReply :=
  ⟨truthStep effect⟩

/-! ## What each transition leaves -/

theorem validateAttempt_times {value : Attempt} (h : validateAttempt value = true) :
    timesAgree value.state value.preparedAt value.dispatchedAt value.resolvedAt = true := by
  simp only [validateAttempt, Bool.and_eq_true] at h
  exact h.2

variable {after : Attempt}

theorem resolveAttempt_ok {before : Attempt} {outcome : EffectState} {resolvedAt : Int}
    (h : resolveAttempt before outcome resolvedAt = .ok after) : after.dispatchedAt ≠ 0 := by
  revert h
  unfold resolveAttempt
  fun_cases resolveAttemptReturned before outcome resolvedAt
  case case4 hvalid now _ _ =>
    rintro ⟨⟩
    simp only [Bool.not_eq_true, Bool.or_eq_false_iff, Bool.not_eq_false', bne_eq_false_iff_eq]
      at hvalid
    have htimes := validateAttempt_times hvalid.1
    rw [hvalid.2] at htimes
    simp only [timesAgree, Bool.and_eq_true, bne_iff_ne] at htimes
    exact htimes.1.2
  all_goals simp

/-- The calls of `RecoverAttempt` that leave a valid `NoEffect` of a prepared attempt. -/
def provesNeverBegan (before : Attempt) (proof : DispatchProof) (recoveredAt : Int) : Bool :=
  proof == .neverBegan && before.state == .prepared && validateAttempt before &&
    match normalizeTime recoveredAt with
    | .ok now => decide (attemptLatestAt before ≤ now) && now != 0
    | .error _ => false

variable {proof : DispatchProof} {recoveredAt : Int}

theorem recoverAttempt_ok {before : Attempt}
    (h : recoverAttempt before proof recoveredAt = .ok after)
    (hafter : validateAttempt after = true) :
    after.state = .indeterminate ∨ provesNeverBegan before proof recoveredAt = true := by
  revert h
  unfold recoverAttempt
  fun_cases recoverAttemptReturned before proof recoveredAt
  case case4 hvalid now hnow htime hstate =>
    rintro ⟨⟩
    have htimes := validateAttempt_times hafter
    simp only [timesAgree, Bool.and_eq_true, bne_iff_ne] at htimes
    simp only [Bool.not_eq_true, Bool.or_eq_false_iff, Bool.not_eq_false'] at hvalid
    refine .inr ?_
    simp only [provesNeverBegan, hstate, hvalid.1, hnow, beq_self_eq_true, Bool.and_self,
      Bool.true_and, Bool.and_eq_true, decide_eq_true_eq, bne_iff_ne]
    exact ⟨by omega, htimes.2⟩
  case case5 | case6 =>
    rintro ⟨⟩
    exact .inl rfl
  all_goals simp

theorem recoverAttempt_purpose {before : Attempt}
    (h : recoverAttempt before proof recoveredAt = .ok after) : after.purpose = before.purpose := by
  revert h
  unfold recoverAttempt
  fun_cases recoverAttemptReturned before proof recoveredAt
  case case4 | case5 | case6 =>
    rintro ⟨⟩
    rfl
  all_goals simp

theorem recoverAttempt_neverBegan {before : Attempt}
    (h : provesNeverBegan before proof recoveredAt = true) :
    ∃ after, recoverAttempt before proof recoveredAt = .ok after ∧ validateAttempt after = true ∧
      after.state = .noEffect ∧ after.dispatchedAt = 0 ∧ after.purpose = before.purpose := by
  unfold provesNeverBegan at h
  cases hnow : normalizeTime recoveredAt with
  | error => simp [hnow] at h
  | ok now =>
    simp only [hnow, Bool.and_eq_true, beq_iff_eq, decide_eq_true_eq, bne_iff_ne] at h
    obtain ⟨⟨⟨rfl, hstate⟩, hvalid⟩, hlatest, hzero⟩ := h
    have htimes := validateAttempt_times hvalid
    rw [hstate] at htimes
    simp only [timesAgree, Bool.and_eq_true, beq_iff_eq] at htimes
    obtain ⟨hdispatched, hresolved⟩ := htimes
    have hunresolved : before.resolved = false := by simp [Attempt.resolved, hstate]
    have hprepared : attemptLatestAt before = before.preparedAt := by
      simp [attemptLatestAt, hdispatched, hresolved]
    refine ⟨{ before with state := .noEffect, resolvedAt := now }, ?_, ?_, rfl, hdispatched, rfl⟩
    · simp [recoverAttempt, recoverAttemptReturned, hvalid, hunresolved, hnow, hlatest.not_gt, hstate]
    · -- only the state and the resolution instant changed, and `timesAgree` reads both
      simp only [validateAttempt, Bool.and_eq_true] at hvalid ⊢
      refine ⟨hvalid.1, ?_⟩
      simp only [timesAgree, hdispatched, if_pos, Bool.and_eq_true, decide_eq_true_eq, bne_iff_ne]
      exact ⟨hprepared ▸ hlatest, hzero⟩

theorem applyMaintenanceOutcome_ok {before : Attempt} {kind : MaintenanceKind}
    {outcome : MaintenanceOutcome} {observedAt : Int} {directive : MaintenanceDirective}
    (h : applyMaintenanceOutcome before kind outcome observedAt = .ok (after, directive))
    (hafter : validateAttempt after = true) : after = before ∨ after.state = .indeterminate := by
  revert h
  unfold applyMaintenanceOutcome
  fun_cases applyMaintenanceOutcomeReturned before kind outcome observedAt
  case case4 | case5 =>
    rintro ⟨⟩
    exact .inl rfl
  case case7 hrecovered =>
    rintro ⟨⟩
    have hrecovered := (congrArg exceptOf hrecovered).trans (exceptOf_none _)
    rcases recoverAttempt_ok hrecovered hafter with hstate | hproof
    · exact .inr hstate
    · simp [provesNeverBegan] at hproof
  all_goals simp [Except.map]

variable {attempt : Attempt}

theorem completeObservation_projection {atomics spent : Atomics} {budget after : ObservationBudget}
    {current projection : EffectProjection} {decision : ObservationDecision}
    (h : completeObservation atomics budget current attempt =
      (spent, .ok (after, projection, decision))) :
    projection = current ∨ projection.state = attempt.state ∧ attempt.dispatchedAt ≠ 0 := by
  have hprojection : projection = (completionOutcome budget current attempt).1 := by
    revert h
    unfold completeObservation
    fun_cases completeObservationReturned atomics budget current attempt
    case case3 =>
      rintro ⟨⟩
      simp_all
    all_goals simp [Except.map]
  rw [hprojection]
  unfold completionOutcome
  split_ifs with hsettles
  · simp only [settlesTarget, Bool.and_eq_true, bne_iff_ne] at hsettles
    exact .inr ⟨rfl, hsettles.2⟩
  all_goals exact .inl rfl

theorem effectProjectionFromAttempt_ok {projection : EffectProjection}
    (h : effectProjectionFromAttempt attempt = .ok projection) :
    validateAttempt attempt = true ∧ attempt.purpose ≠ .observation ∧
      projection.state = attempt.state := by
  revert h
  fun_cases effectProjectionFromAttempt attempt
  case case3 hvalid hpurpose =>
    rintro ⟨⟩
    exact ⟨by simpa using hvalid, hpurpose, rfl⟩
  all_goals simp

theorem effectProjectionFromAttempt_of_valid (hvalid : validateAttempt attempt = true)
    (hpurpose : attempt.purpose ≠ .observation) :
    ∃ projection, effectProjectionFromAttempt attempt = .ok projection ∧
      projection.state = attempt.state := by
  fun_cases effectProjectionFromAttempt attempt
  case case1 hinvalid => simp [hvalid] at hinvalid
  case case2 hobservation => exact absurd hobservation hpurpose
  case case3 => exact ⟨_, rfl, rfl⟩

/-- A changed attempt either leaves the projection alone or gives it its own state. -/
theorem install_eq (store : EffectStore) (after : Attempt) :
    store.install after = store.current ∨
      ∃ projection, store.install after = some projection ∧ projection.state = after.state ∧
        validateAttempt after = true ∧ after.purpose ≠ .observation := by
  unfold EffectStore.install
  cases hprojection : effectProjectionFromAttempt after with
  | error => exact .inl rfl
  | ok projection =>
    obtain ⟨hvalid, hpurpose, hstate⟩ := effectProjectionFromAttempt_ok hprojection
    exact .inr ⟨projection, rfl, hstate, hvalid, hpurpose⟩

/-! ## Absence that no dispatched attempt has shown -/

def EffectStore.truth (store : EffectStore) : Option AttemptState :=
  store.current.map EffectProjection.state

/-- An attempt that was dispatched has come back as `NoEffect`: it was resolved by this step, or
it is an observation that this step completes. -/
def TruthReply.provesAbsence : TruthReply → Bool
  | .advanced after => after.state == .noEffect && after.dispatchedAt != 0
  | .completed attempt settled =>
    settled && attempt.state == .noEffect && attempt.dispatchedAt != 0
  | _ => false

/-- `RecoverAttempt` accepts a proof that an attempt of the effect, no observation, never began. -/
def EffectStore.recoversUndispatched (store : EffectStore) : TruthCall → Bool
  | .recover position proof recoveredAt =>
    match store.attempts[position]? with
    | some before => before.purpose != .observation && provesNeverBegan before proof recoveredAt
    | none => false
  | _ => false

theorem truth_install {store : EffectStore} (hbefore : store.truth ≠ some .noEffect)
    (h : (store.install after).map EffectProjection.state = some .noEffect) :
    after.state = .noEffect ∧ validateAttempt after = true ∧ after.purpose ≠ .observation := by
  rcases install_eq store after with hsame | ⟨projection, hinstall, hstate, hvalid, hpurpose⟩
  · rw [hsame] at h
    exact absurd h hbefore
  · rw [hinstall, Option.map_some, Option.some.injEq] at h
    exact ⟨hstate ▸ h, hvalid, hpurpose⟩

theorem truth_replace (store : EffectStore) (position : Nat) (hvalid : validateAttempt after = true)
    (hpurpose : after.purpose ≠ .observation) :
    (store.replace position after).truth = some after.state := by
  obtain ⟨projection, hprojection, hstate⟩ := effectProjectionFromAttempt_of_valid hvalid hpurpose
  change (store.install after).map EffectProjection.state = _
  unfold EffectStore.install
  rw [hprojection, ← hstate]
  rfl

section Runs

variable [Sha256]

/-- The truth becomes `NoEffect` only by a dispatched attempt or by a proof that none began. -/
theorem truth_step (effect : EffectKey) (store : EffectStore) (call : TruthCall)
    (hbefore : store.truth ≠ some .noEffect)
    (h : ((truthMachine effect).next store call).truth = some .noEffect) :
    ((truthMachine effect).entry store call).output.provesAbsence = true ∨
      store.recoversUndispatched call = true := by
  revert h
  change (truthStep effect store call).1.truth = some .noEffect →
    (truthStep effect store call).2.provesAbsence = true ∨ _
  fun_cases truthStep effect store call
  case case6 hprepared =>
    intro h
    have hstate := (truth_install hbefore h).1
    rw [(newPreparedAttempt_ok hprepared).2] at hstate
    cases hstate
  case case9 before _ table atomics after hdispatched =>
    intro h
    have hstate := (truth_install hbefore h).1
    have hok : (store.table.markAttemptDispatched store.atomics before _ _).2.2 = .ok after :=
      congrArg (fun result => result.2.2) hdispatched
    rw [(markAttemptDispatched_ok hok).2.2.2] at hstate
    cases hstate
  case case12 hresolved =>
    intro h
    have hstate := (truth_install hbefore h).1
    simp [TruthReply.provesAbsence, hstate, resolveAttempt_ok hresolved]
  case case15 before hposition after hrecovered =>
    intro h
    obtain ⟨hstate, hvalid, hpurpose⟩ := truth_install hbefore h
    rcases recoverAttempt_ok hrecovered hvalid with hunknown | hproof
    · rw [hstate] at hunknown
      cases hunknown
    have hbusiness : before.purpose ≠ .observation := by
      rw [← recoverAttempt_purpose hrecovered]
      exact hpurpose
    simp [EffectStore.recoversUndispatched, hposition, hbusiness, hproof]
  case case19 hmaintained hchanged =>
    intro h
    obtain ⟨hstate, hvalid, -⟩ := truth_install hbefore h
    rcases applyMaintenanceOutcome_ok hmaintained hvalid with hsame | hunknown
    · exact absurd hsame hchanged
    · rw [hstate] at hunknown
      cases hunknown
  case case21 current hcurrent _ atomics _ projection _ hcompleted =>
    intro h
    have hstate : projection.state = .noEffect := by simpa [EffectStore.truth] using h
    have hcurrentState : current.state ≠ .noEffect := by
      simpa [EffectStore.truth, hcurrent] using hbefore
    have hchanged : projection ≠ current := by
      rintro rfl
      exact hcurrentState hstate
    obtain ⟨hsame, hdispatched⟩ := (completeObservation_projection hcompleted).resolve_left hchanged
    rw [hstate] at hsame
    simp [TruthReply.provesAbsence, hchanged, ← hsame, hdispatched]
  all_goals
    intro h
    exact absurd h hbefore

theorem recovers_step (effect : EffectKey) (store : EffectStore) (call : TruthCall)
    (h : store.recoversUndispatched call = true) :
    ((truthMachine effect).next store call).truth = some .noEffect ∧
      ((truthMachine effect).entry store call).output.provesAbsence ≠ true := by
  cases call with
  | recover position proof recoveredAt =>
    cases hposition : store.attempts[position]? with
    | none => simp [EffectStore.recoversUndispatched, hposition] at h
    | some before =>
      simp only [EffectStore.recoversUndispatched, hposition, Bool.and_eq_true, bne_iff_ne] at h
      obtain ⟨after, hafter, hvalid, hstate, hdispatched, hpurpose⟩ := recoverAttempt_neverBegan h.2
      have hstep : truthStep effect store (.recover position proof recoveredAt) =
          (store.replace position after, .advanced after) := by
        change (match store.attempts[position]? with
          | none => (store, TruthReply.refused)
          | some before =>
            match recoverAttempt before proof recoveredAt with
            | .error _ => (store, .refused)
            | .ok after => (store.replace position after, .advanced after)) = _
        rw [hposition]
        simp only [hafter]
      have hobservation : after.purpose ≠ .observation := by rw [hpurpose]; exact h.1
      have hnext : (truthMachine effect).next store (.recover position proof recoveredAt) =
          store.replace position after := congrArg Prod.fst hstep
      have hreply : ((truthMachine effect).entry store (.recover position proof recoveredAt)).output =
          .advanced after := congrArg Prod.snd hstep
      refine ⟨hnext ▸ ?_, hreply ▸ ?_⟩
      · exact (truth_replace store position hvalid hobservation).trans (congrArg some hstate)
      · simp [TruthReply.provesAbsence, hdispatched]
  | _ => simp [EffectStore.recoversUndispatched] at h

/-- Whenever the truth is `NoEffect` after it was `Indeterminate`, a dispatched attempt has come
back as `NoEffect` in between. -/
def TruthEarned (effect : EffectKey) (store : EffectStore) (calls : List TruthCall) : Prop :=
  ∀ a n, a ≤ n → n ≤ calls.length →
    ((truthMachine effect).exec store (calls.take a)).truth = some .indeterminate →
    ((truthMachine effect).exec store (calls.take n)).truth = some .noEffect →
    ∃ (k : Nat) (e : _), a ≤ k ∧ k < n ∧ ((truthMachine effect).trace store calls)[k]? = some e ∧
      e.output.provesAbsence = true

/-- Before call `n` the truth has been `Indeterminate`, and no dispatched attempt has come back
as `NoEffect` since. -/
def InDoubt (effect : EffectKey) (store : EffectStore) (calls : List TruthCall) (n : Nat) : Prop :=
  (truthMachine effect).Unanswered (fun store => store.truth = some .indeterminate)
    (fun e => e.output.provesAbsence = true) store calls n

/-- Definitive absence is earned in a run exactly if no attempt is recovered as never begun
while the effect is in doubt. -/
theorem truth_earned_iff (effect : EffectKey) (store : EffectStore) (calls : List TruthCall) :
    TruthEarned effect store calls ↔
      ∀ (n : Nat) e, ((truthMachine effect).trace store calls)[n]? = some e →
        e.before.recoversUndispatched e.input = true → ¬ InDoubt effect store calls n := by
  have hrule := answered_iff (truthMachine effect)
    (A := fun store => store.truth = some .indeterminate)
    (B := fun store => store.truth = some .noEffect)
    (E := fun e => e.output.provesAbsence = true)
    (Q := fun e => e.before.recoversUndispatched e.input = true)
    (fun store hunknown habsent => by simp [hunknown] at habsent)
    (fun store call hbefore hafter => truth_step effect store call hbefore hafter)
    (fun store call hrecovers => recovers_step effect store call hrecovers) store calls
  refine Iff.trans ?_ hrule
  constructor
  · rintro hearned n hn habsent ⟨a, han, hunknown, hopen⟩
    obtain ⟨k, e, hak, hkn, he, hproof⟩ := hearned a n han hn hunknown habsent
    exact hopen k e hak hkn he hproof
  · intro hanswered a n han hn hunknown habsent
    by_contra hnone
    refine hanswered n hn habsent ⟨a, han, hunknown, ?_⟩
    intro k e hak hkn he hproof
    exact hnone ⟨k, e, hak, hkn, he, hproof⟩

/-! ## A retry that never began -/

def sampleFingerprint : RequestFingerprint := ⟨true, [7]⟩

/-- The first forward admission of the sample effect. -/
def sampleAdmissionInput : AttemptAdmissionInput :=
  { databaseTime := 1 * second
    plan := samplePlan
    effect := sampleEffect
    purpose := .forward
    requestFingerprint := sampleFingerprint
    cancellationRequested := false
    currentEffect := none
    cancellationTarget := none
    retryProof := none
    priorGenerationEffects := []
    safeSupersessionProofs := []
    observation := none
    compensation := none }

def freshEffectStore : EffectStore := ⟨noAtomics, ⟨true, 0, 8, ∅⟩, [], [], none⟩

/-- The owner of the first attempt is lost, a retry is admitted on the adapter's idempotency
proof, and the retry is then known never to have begun. -/
def blindRetryCalls : List TruthCall :=
  let proof := newRetryProof sampleEffect sampleFingerprint "v1" (100 * second) [1]
  [.newAdmission sampleAdmissionInput,
    .prepare 0 "attempt-00000001" 1 "owner-0000000001" 1,
    .recover 0 .unknown (2 * second),
    .newAdmission { sampleAdmissionInput with databaseTime := 3 * second, retryProof := proof.toOption },
    .prepare 1 "attempt-00000002" 2 "owner-0000000002" 2,
    .recover 1 .neverBegan (4 * second)]

end Runs

attribute [local instance] plainSha256

/-- The effect goes from `Indeterminate` to `NoEffect` although nothing was dispatched. -/
theorem truth_invented_by_retry :
    ((truthMachine sampleEffect).trace freshEffectStore blindRetryCalls).map
        (fun e => (e.after.truth, e.output.provesAbsence)) =
      [(none, false), (some .prepared, false), (some .indeterminate, false),
        (some .indeterminate, false), (some .prepared, false), (some .noEffect, false)] ∧
      ¬ TruthEarned sampleEffect freshEffectStore blindRetryCalls := by
  refine (and_iff_left_of_imp ?_).mpr (by decide +kernel)
  intro hrun hearned
  have htruth := congrArg (List.map Prod.fst) hrun
  have hproofs := congrArg (List.map Prod.snd) hrun
  rw [List.map_map] at htruth hproofs
  have hunknown := exec_take_of_trace (truthMachine sampleEffect) (n := 2)
    (f := EffectStore.truth) ((congrArg (·[2]?) htruth).trans rfl)
  have habsent := exec_take_of_trace (truthMachine sampleEffect) (n := 5)
    (f := EffectStore.truth) ((congrArg (·[5]?) htruth).trans rfl)
  obtain ⟨k, e, -, -, he, hproof⟩ := hearned 3 6 (by decide) (by decide) hunknown habsent
  have hmem := List.mem_map_of_mem (f := Prod.snd ∘ fun e => (e.after.truth, e.output.provesAbsence))
    (List.mem_of_getElem? he)
  rw [hproofs] at hmem
  simp [hproof] at hmem

end Veer.Reconcile
