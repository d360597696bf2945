import Veer.CapabilitySteps
import Veer.LeaseLineage
import Veer.ObservationRun

/-!
# What each call does to the shared cells
-/
namespace Veer.Reconcile

open StepMachine AtomicCells

/-! ## Budgets and permits -/

variable {atomics : Atomics}

theorem advance_cells {before draft : ObservationBudget} {after : Atomics}
    {next : Option ObservationBudget} (h : before.advance draft atomics = (after, next)) :
    Rises atomics.flags after.flags ∧ after.words = atomics.words := by
  cases next with
  | none =>
    rw [advance_none h]
    exact ⟨Rises.refl _, rfl⟩
  | some =>
    revert h
    fun_cases ObservationBudget.advance before draft atomics
    case case1 halloc hspend =>
      rintro ⟨⟩
      obtain ⟨p, -, -, rfl⟩ := spendFlag_true hspend
      cases halloc
      exact ⟨(rises_store _ p).trans (rises_alloc _), rfl⟩
    case case2 => simp

variable {failure : Failure}

section Reserve

variable [Sha256] {atomics after : Atomics} {before : ObservationBudget} {reservedAt : Int}

theorem reserveObservation_mints {budget : ObservationBudget} {permit : ObservationPermit}
    (h : reserveObservation atomics before reservedAt = (after, .ok (budget, permit))) :
    Rises atomics.flags after.flags ∧ after.words = atomics.words.alloc.1 ∧
      permit.transition = some atomics.words.allocated := by
  revert h
  fun_cases reserveObservation atomics before reservedAt
  case case6 hadvance words transition halloc =>
    rintro ⟨⟩
    obtain ⟨hflags, hwords⟩ := advance_cells hadvance
    cases halloc
    rw [hwords]
    exact ⟨hflags, rfl, rfl⟩
  all_goals simp

theorem reserveObservation_refuses
    (h : reserveObservation atomics before reservedAt = (after, .error failure)) : after = atomics := by
  revert h
  fun_cases reserveObservation atomics before reservedAt
  case case5 hadvance =>
    rintro ⟨rfl, -⟩
    exact advance_none hadvance
  case case6 => simp
  all_goals
    rintro ⟨rfl, -⟩
    rfl

end Reserve

/-! ## Admissions -/

theorem admissionTargets_ok {now : Int} {input : AttemptAdmissionInput} {targets : AdmissionTargets}
    (h : admissionTargets now input = .ok targets) :
    input.purpose ≠ .observation ∧ input.observation = none ∧
        targets.observationTransition = none ∨
      input.purpose = .observation ∧ ∃ permit p, input.observation = some permit ∧
        permit.transition = some p ∧ targets.observationTransition = some p := by
  revert h
  fun_cases admissionTargets now input
  case case1 hpurpose permit _ _ _ hpermit hvalid =>
    rintro ⟨⟩
    simp only [validateObservationPermit, Bool.and_eq_true] at hvalid
    obtain ⟨p, hp⟩ := Option.isSome_iff_exists.mp hvalid.1.1.1.1.2
    exact .inr ⟨hpurpose, permit, p, hpermit, hp, hp⟩
  all_goals simp_all
  all_goals
    rintro rfl
    rfl

/-- How an admission is spent: its replacement word, its observation word, or its own flag. -/
structure Admits (atomics after : Atomics) (input : AttemptAdmissionInput)
    (admission : AttemptAdmission) : Prop where
  use : admission.use = some atomics.flags.allocated
  flags : after.flags = atomics.flags.alloc.1
  replacement : admission.replacementTransition = none
  words : input.purpose ≠ .observation ∧ input.observation = none ∧
      admission.observationTransition = none ∧ after.words = atomics.words ∨
    ∃ permit p, input.purpose = .observation ∧ input.observation = some permit ∧
      permit.transition = some p ∧ admission.observationTransition = some p ∧
      atomics.words.load p = 0 ∧ after.words = atomics.words.store p 1

theorem admitObservation_true {draft : AttemptAdmission} {after : Atomics}
    (h : admitObservation draft atomics = (after, true)) :
    draft.observationTransition = none ∧ after = atomics ∨
      ∃ p, draft.observationTransition = some p ∧ atomics.words.load p = 0 ∧
        after = { atomics with words := atomics.words.store p 1 } := by
  revert h
  fun_cases admitObservation draft atomics
  case case1 hnone =>
    rintro ⟨rfl, -⟩
    exact .inl ⟨hnone, rfl⟩
  case case2 p hp words swapped hswap =>
    rintro ⟨⟩
    obtain ⟨hload, rfl⟩ := compareAndSwap_success hswap
    exact .inr ⟨p, hp, hload, rfl⟩

theorem admitObservation_false {draft : AttemptAdmission} {after : Atomics}
    (h : admitObservation draft atomics = (after, false)) : after = atomics := by
  revert h
  fun_cases admitObservation draft atomics
  case case1 => simp
  case case2 hswap =>
    rintro ⟨⟩
    rw [(compareAndSwap_failure hswap).2]

theorem leaseReplacementDraft_transition [Sha256] {current candidate : Plan}
    {schedule admissionBinding : DigestValue} {transition : Option Nat}
    {draft : LeaseReplacementAuthority}
    (h : leaseReplacementDraft current candidate schedule admissionBinding transition = .ok draft) :
    draft.transition = transition := by
  unfold leaseReplacementDraft at h
  split at h
  · split_ifs at h
    rw [← Except.ok.inj h]
  · simp at h

variable {admission : AttemptAdmission}

section Admission

variable [Sha256] {atomics after : Atomics} {input : AttemptAdmissionInput}

theorem newAttemptAdmission_ok (h : newAttemptAdmission atomics input = (after, .ok admission)) :
    Admits atomics after input admission := by
  revert h
  fun_cases newAttemptAdmission atomics input
  case case2 draft hdraft admitted sealed sealedAdmission hsealed hadmitted =>
    rintro ⟨⟩
    obtain ⟨now, bindings, targets, hdrafted⟩ := attemptAdmissionDraft_ok hdraft
    have htransition : draft.observationTransition = targets.observationTransition := by
      rw [hdrafted.built]
      rfl
    have hreplacement : draft.replacementTransition = none := by
      rw [hdrafted.built]
      rfl
    cases hsealed
    rcases admitObservation_true hadmitted with ⟨hnone, rfl⟩ | ⟨p, hp, hload, rfl⟩
    · refine ⟨rfl, rfl, hreplacement, .inl ?_⟩
      rcases admissionTargets_ok hdrafted.targeted with
        ⟨hpurpose, hobservation, -⟩ | ⟨-, _, q, -, -, hq⟩
      · exact ⟨hpurpose, hobservation, hnone, rfl⟩
      · rw [htransition, hq] at hnone
        exact absurd hnone (by simp)
    · refine ⟨rfl, rfl, hreplacement, .inr ?_⟩
      rcases admissionTargets_ok hdrafted.targeted with
        ⟨-, -, hnone⟩ | ⟨hpurpose, permit, q, hpermit, hq, htargets⟩
      · rw [htransition, hnone] at hp
        exact absurd hp (by simp)
      · rw [htransition, htargets, Option.some.injEq] at hp
        subst hp
        exact ⟨permit, q, hpurpose, hpermit, hq, htransition.trans htargets, hload, rfl⟩
  all_goals simp

theorem newAttemptAdmission_error
    (h : newAttemptAdmission atomics input = (after, .error failure)) : after = atomics := by
  revert h
  fun_cases newAttemptAdmission atomics input
  case case1 =>
    rintro ⟨rfl, -⟩
    rfl
  case case2 => simp
  case case3 hadmitted hswapped =>
    rw [Bool.not_eq_true] at hswapped
    subst hswapped
    rintro ⟨rfl, -⟩
    exact admitObservation_false hadmitted

/-- An authority and its admission, minted over one fresh word. -/
structure Pairs (atomics after : Atomics) (authority : LeaseReplacementAuthority)
    (admission : AttemptAdmission) : Prop where
  rises : Rises atomics.flags after.flags
  words : after.words = atomics.words.alloc.1
  transition : authority.transition = some atomics.words.allocated
  replacement : admission.replacementTransition = some atomics.words.allocated
  used : ∃ use, authority.use = some use ∧ use < after.flags.allocated
  use : ∃ use, admission.use = some use ∧ use < after.flags.allocated

/-- A replacement is authorized with a mutation only, so no permit is touched. -/
theorem admits_words_of_allowed {current candidate : Plan}
    (hallowed : generationReplacementAllowed current candidate input = true)
    (hadmits : Admits atomics after input admission) : after.words = atomics.words := by
  simp only [generationReplacementAllowed, Bool.and_eq_true, Bool.or_eq_true, beq_iff_eq]
    at hallowed
  rcases hadmits.words with ⟨-, -, -, hwords⟩ | ⟨_, _, hpurpose, -⟩
  · exact hwords
  · rw [hpurpose] at hallowed
    simp at hallowed

theorem authorizeGenerationReplacement_ok {current candidate : Plan}
    {authority : LeaseReplacementAuthority}
    (h : authorizeGenerationReplacement atomics current candidate input =
      (after, .ok (authority, admission))) :
    Pairs atomics after authority admission := by
  revert h
  fun_cases authorizeGenerationReplacement atomics current candidate input
  case case4 hallowed admitted minted hnew words transition halloc published draft hdraft sealed
      authority' hseal =>
    rintro ⟨⟩
    have hadmits := newAttemptAdmission_ok hnew
    have hwords := admits_words_of_allowed (by simpa using hallowed) hadmits
    cases halloc
    cases hseal
    have htransition := leaseReplacementDraft_transition hdraft
    have hflags : published.flags = atomics.flags.alloc.1 := hadmits.flags
    refine ⟨?_, ?_, ?_, ?_, ⟨_, rfl, Nat.lt_succ_self _⟩, ⟨_, hadmits.use, ?_⟩⟩
    · exact (rises_alloc atomics.flags).trans (hflags ▸ rises_alloc published.flags)
    · rw [← hwords]
      rfl
    · rw [← hwords]
      exact htransition
    · rw [← hwords]
    · have hrises := rises_alloc published.flags
      have hlt : atomics.flags.allocated < published.flags.allocated := by
        rw [hflags]
        exact Nat.lt_succ_self _
      exact hlt.trans_le hrises.allocated
  all_goals simp

theorem authorizeGenerationReplacement_error {current candidate : Plan}
    (h : authorizeGenerationReplacement atomics current candidate input = (after, .error failure)) :
    Rises atomics.flags after.flags ∧
      (after.words = atomics.words ∨ after.words = atomics.words.alloc.1) := by
  revert h
  fun_cases authorizeGenerationReplacement atomics current candidate input
  case case1 =>
    rintro ⟨rfl, -⟩
    exact ⟨Rises.refl _, .inl rfl⟩
  case case2 hnew =>
    rintro ⟨rfl, -⟩
    rw [newAttemptAdmission_error hnew]
    exact ⟨Rises.refl _, .inl rfl⟩
  case case3 hallowed admitted minted hnew words transition halloc published _ _ =>
    simp only [Prod.mk.injEq]
    rintro ⟨rfl, -⟩
    have hadmits := newAttemptAdmission_ok hnew
    have hwords := admits_words_of_allowed (by simpa using hallowed) hadmits
    cases halloc
    refine ⟨?_, .inr ?_⟩
    · exact hadmits.flags ▸ rises_alloc atomics.flags
    · rw [← hwords]
      rfl
  case case4 => simp

end Admission

section Selection

variable [Sha256] {atomics : Atomics} {current candidate : Plan} {attempts : List Attempt}
  {effects : List EffectProjection} {fresh : Bool} {proofs : List CompensationProof}

theorem selectPlan_words {after : Atomics}
    {result : Except Failure (Plan × PlanSelection × Option LeaseReplacementAuthority)}
    (h : selectPlan atomics current candidate attempts effects fresh proofs = (after, result)) :
    after.words = atomics.words := by
  unfold selectPlan at h
  split at h
  · rw [← (Prod.mk.inj h).1]
  · rw [← (Prod.mk.inj h).1]
  · rw [← (Prod.mk.inj h).1]

theorem selectPlan_transition {after : Atomics} {plan : Plan} {selection : PlanSelection}
    {authority : LeaseReplacementAuthority}
    (h : selectPlan atomics current candidate attempts effects fresh proofs =
      (after, .ok (plan, selection, some authority))) : authority.transition = none := by
  unfold selectPlan at h
  split at h
  · simp at h
  · simp at h
  rename_i draft hdraft
  simp only [LeaseReplacementAuthority.seal, Prod.mk.injEq, Except.ok.injEq,
    Option.some.injEq] at h
  obtain ⟨-, -, -, rfl⟩ := h
  obtain ⟨_, _, _, hsupersedes⟩ := selectPlanDraft_some hdraft
  obtain ⟨schedule, hdrafted⟩ := hsupersedes.drafted
  have htransition := leaseReplacementDraft_transition hdrafted
  exact htransition

end Selection

/-! ## Preparing an attempt -/

/-- The word that spends an admission, if it has one. -/
def AttemptAdmission.word (admission : AttemptAdmission) : Option Nat :=
  admission.replacementTransition.or admission.observationTransition

/-- An attempt was prepared: the admission's word went from `1` to `2`, or its flag was down. -/
inductive Spends (atomics : Atomics) (admission : AttemptAdmission) : Atomics → Prop
  | word {p : Nat} : admission.word = some p → atomics.words.load p = 1 →
      Spends atomics admission { atomics with words := atomics.words.store p 2 }
  | flag {p : Nat} : admission.word = none → admission.use = some p →
      atomics.flags.load p = false →
      Spends atomics admission { atomics with flags := atomics.flags.store p true }

theorem consumeAdmission_true {after : Atomics}
    (h : consumeAdmission admission atomics = (after, true)) : Spends atomics admission after := by
  revert h
  fun_cases consumeAdmission admission atomics
  case case1 hp words swapped hswap =>
    rintro ⟨⟩
    obtain ⟨hload, rfl⟩ := compareAndSwap_success hswap
    exact .word (by simp [AttemptAdmission.word, hp]) hload
  case case2 hp hnone words swapped hswap =>
    rintro ⟨⟩
    obtain ⟨hload, rfl⟩ := compareAndSwap_success hswap
    exact .word (by simp [AttemptAdmission.word, hp, hnone]) hload
  case case3 hp hobservation hreplacement flags swapped hswap =>
    rintro ⟨⟩
    obtain ⟨hload, rfl⟩ := compareAndSwap_success hswap
    exact .flag (by simp [AttemptAdmission.word, hobservation, hreplacement]) hp hload
  case case4 => simp

theorem consumeAdmission_false {after : Atomics}
    (h : consumeAdmission admission atomics = (after, false)) : after = atomics := by
  revert h
  fun_cases consumeAdmission admission atomics
  case case4 =>
    rintro ⟨rfl, -⟩
    rfl
  all_goals
    rename_i hswap
    rintro ⟨⟩
    rw [(compareAndSwap_failure hswap).2]

theorem newPreparedAttempt_ok {after : Atomics} {input : AttemptInput} {attempt : Attempt}
    (h : newPreparedAttempt atomics input = (after, .ok attempt)) :
    Spends atomics input.admission after ∧ attempt = preparedAttempt input := by
  revert h
  fun_cases newPreparedAttempt atomics input
  case case2 hconsume =>
    rintro ⟨⟩
    exact ⟨consumeAdmission_true hconsume, rfl⟩
  all_goals simp

theorem newPreparedAttempt_error {after : Atomics} {input : AttemptInput}
    (h : newPreparedAttempt atomics input = (after, .error failure)) : after = atomics := by
  revert h
  fun_cases newPreparedAttempt atomics input
  case case1 =>
    rintro ⟨rfl, -⟩
    rfl
  case case2 => simp
  case case3 hconsume hswapped =>
    rw [Bool.not_eq_true] at hswapped
    subst hswapped
    rintro ⟨rfl, -⟩
    exact consumeAdmission_false hconsume

end Veer.Reconcile
