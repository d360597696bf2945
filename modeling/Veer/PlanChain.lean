import Veer.StepMachine
import Veer.ReconcilePlanning

/-!
# Chains of plan revisions

Every superseding plan carries the effects its predecessor had completed together with those
found applied since. Along a chain of revisions nothing leaves that set, and the admission of
an attempt consults it first.
-/
namespace Veer.Reconcile

open AtomicCells StepMachine

/-! ## The required set -/

/-- The keys that are applied in a list of current projections. -/
def appliedKeys (effects : List EffectProjection) : List EffectKey :=
  (effects.filter fun projection => projection.state == .applied).map EffectProjection.key

variable {effects : List EffectProjection}

theorem mem_appliedKeys {effect : EffectKey} :
    effect ∈ appliedKeys effects ↔
      ∃ projection ∈ effects, projection.state = .applied ∧ projection.key = effect := by
  simp [appliedKeys, and_assoc]

theorem lookup_indexEffects {effects : List EffectKey} {key : String} {want : EffectKey}
    (h : (indexEffects effects).lookup key = some want) : want ∈ effects := by
  unfold indexEffects at h
  induction effects using List.reverseRecOn with
  | nil => simp at h
  | append_singleton effects effect ih =>
    rw [List.foldl_append, List.foldl_cons, List.foldl_nil] at h
    by_cases hkey : key = effect.string
    · subst hkey
      rw [AList.lookup_insert, Option.some.injEq] at h
      simp [h]
    · rw [AList.lookup_insert_ne hkey] at h
      exact List.mem_append_left _ (ih h)

theorem indexEffects_covers {effects : List EffectKey} {effect : EffectKey} (h : effect ∈ effects) :
    ∃ want, (indexEffects effects).lookup effect.string = some want := by
  unfold indexEffects
  induction effects using List.reverseRecOn with
  | nil => simp at h
  | append_singleton effects last ih =>
    rw [List.foldl_append, List.foldl_cons, List.foldl_nil]
    by_cases hkey : effect.string = last.string
    · exact ⟨last, by rw [hkey, AList.lookup_insert]⟩
    rw [AList.lookup_insert_ne hkey]
    rcases List.mem_append.mp h with hmem | hmem
    · exact ih hmem
    · rw [List.mem_singleton] at hmem
      exact absurd (congrArg EffectKey.string hmem) hkey

/-- What the ledger holds after `SelectPlan` has read some of the current projections. -/
structure LedgerOf (current : Plan) (read : List EffectProjection) (ledger : EffectLedger) :
    Prop where
  seen : ∀ projection ∈ read, projection.key.string ∈ ledger.seenEffects
  source : ∀ key want, ledger.wantCompleted.lookup key = some want →
    want ∈ current.completedEffects ∨ want ∈ appliedKeys read
  kept : ∀ effect ∈ current.completedEffects,
    ∃ want, ledger.wantCompleted.lookup effect.string = some want
  applied : ∀ effect ∈ appliedKeys read,
    ledger.wantCompleted.lookup effect.string = some effect

theorem ledgerOf_empty (current : Plan) :
    LedgerOf current [] ⟨[], indexEffects current.completedEffects⟩ where
  seen := by simp
  source _ _ h := .inl (lookup_indexEffects h)
  kept _ h := indexEffects_covers h
  applied := by simp [appliedKeys]

variable {history : AttemptHistory} {ledger : EffectLedger}

theorem readProjection_ok {current : Plan} {after : EffectLedger} {projection : EffectProjection}
    (h : readProjection current history ledger projection = .ok after) :
    projection.key.string ∉ ledger.seenEffects ∧
      after.seenEffects = projection.key.string :: ledger.seenEffects ∧
      after.wantCompleted =
        if projection.state = .applied then
          ledger.wantCompleted.insert projection.key.string projection.key
        else ledger.wantCompleted := by
  revert h
  fun_cases readProjection current history ledger projection
  case case7 hnew _ _ _ =>
    rintro ⟨⟩
    exact ⟨by simpa using hnew, rfl, rfl⟩
  all_goals simp

theorem LedgerOf.read {current : Plan} {read : List EffectProjection} {after : EffectLedger}
    {projection : EffectProjection} (hledger : LedgerOf current read ledger)
    (h : readProjection current history ledger projection = .ok after) :
    LedgerOf current (read ++ [projection]) after := by
  obtain ⟨hnew, hseen, hwant⟩ := readProjection_ok h
  -- a key read earlier is printed differently, so its entry is not overwritten
  have hother : ∀ earlier ∈ read, earlier.key.string ≠ projection.key.string := by
    intro earlier hmem heq
    exact hnew (heq ▸ hledger.seen earlier hmem)
  have hseenAll : ∀ p ∈ read ++ [projection], p.key.string ∈ after.seenEffects := by
    intro p hp
    rw [hseen]
    rcases List.mem_append.mp hp with hp | hp
    · exact List.mem_cons_of_mem _ (hledger.seen p hp)
    · rw [List.mem_singleton] at hp
      simp [hp]
  by_cases happlied : projection.state = .applied
  · rw [if_pos happlied] at hwant
    have hkeys : appliedKeys (read ++ [projection]) = appliedKeys read ++ [projection.key] := by
      simp [appliedKeys, happlied]
    refine ⟨hseenAll, ?_, ?_, ?_⟩
    · intro key want hlookup
      rw [hkeys]
      by_cases hkey : key = projection.key.string
      · rw [hwant, hkey, AList.lookup_insert, Option.some.injEq] at hlookup
        simp [hlookup]
      rw [hwant, AList.lookup_insert_ne hkey] at hlookup
      rcases hledger.source key want hlookup with hmem | hmem
      · exact .inl hmem
      · exact .inr (List.mem_append_left _ hmem)
    · intro effect hmem
      rw [hwant]
      by_cases hkey : effect.string = projection.key.string
      · exact ⟨projection.key, by rw [hkey, AList.lookup_insert]⟩
      · rw [AList.lookup_insert_ne hkey]
        exact hledger.kept effect hmem
    · intro effect hmem
      rw [hkeys] at hmem
      rw [hwant]
      rcases List.mem_append.mp hmem with hmem | hmem
      · obtain ⟨earlier, hearlier, -, rfl⟩ := mem_appliedKeys.mp hmem
        rw [AList.lookup_insert_ne (hother earlier hearlier)]
        exact hledger.applied _ hmem
      · rw [List.mem_singleton] at hmem
        rw [hmem, AList.lookup_insert]
  · rw [if_neg happlied] at hwant
    have hkeys : appliedKeys (read ++ [projection]) = appliedKeys read := by
      simp [appliedKeys, happlied]
    refine ⟨hseenAll, ?_, ?_, ?_⟩
    · rw [hwant, hkeys]
      exact hledger.source
    · rw [hwant]
      exact hledger.kept
    · rw [hwant, hkeys]
      exact hledger.applied

theorem ledgerOf_all {current : Plan}
    (h : effects.foldlM (readProjection current history)
      ⟨[], indexEffects current.completedEffects⟩ = .ok ledger) :
    LedgerOf current effects ledger :=
  foldlM_ok_induction (P := LedgerOf current) (fun _ _ _ _ hb hs => hb.read hs)
    (ledgerOf_empty current) h

variable {plan : Plan}

theorem validatePlan_completed [Sha256] (h : validatePlan plan = true) :
    validCanonicalEffects plan.completedEffects plan = true := by
  simp only [validatePlan, validPlanEffects, Bool.and_eq_true] at h
  exact h.1.2.1.1.2

theorem completedMatches_exact {want : AList (fun _ : String => EffectKey)}
    (hplan : validCanonicalEffects plan.completedEffects plan = true)
    (h : completedMatches want plan.completedEffects = true) :
    (∀ effect ∈ plan.completedEffects, want.lookup effect.string = some effect) ∧
      ∀ key effect, want.lookup key = some effect →
        effect ∈ plan.completedEffects ∧ effect.string = key := by
  simp only [completedMatches, Bool.and_eq_true, beq_iff_eq, List.all_eq_true, Option.any_eq_true,
    EffectKey.equal_iff] at h
  obtain ⟨hlength, hall⟩ := h
  have hlookup : ∀ effect ∈ plan.completedEffects, want.lookup effect.string = some effect := by
    intro effect hmem
    obtain ⟨found, hfound, -, rfl⟩ := hall effect hmem
    exact hfound
  -- distinct printed keys, all of them required, and as many as are required
  have hnodup : (plan.completedEffects.map EffectKey.string).Nodup :=
    List.pairwise_map.mpr ((validCanonicalEffects_sorted hplan).imp ne_of_lt)
  have hsubset : plan.completedEffects.map EffectKey.string ⊆ want.keys := by
    intro key hkey
    obtain ⟨effect, hmem, rfl⟩ := List.mem_map.mp hkey
    have hsome : (want.lookup effect.string).isSome := by rw [hlookup effect hmem]; rfl
    exact AList.lookup_isSome.mp hsome
  have hperm := (hnodup.subperm hsubset).perm_of_length_le (by simp [hlength])
  refine ⟨hlookup, ?_⟩
  intro key effect hkey
  have hmem : key ∈ want.keys := AList.lookup_isSome.mp (by rw [hkey]; rfl)
  obtain ⟨found, hfound, rfl⟩ := List.mem_map.mp (hperm.mem_iff.mpr hmem)
  obtain rfl : found = effect := Option.some.inj ((hlookup found hfound).symm.trans hkey)
  exact ⟨hfound, rfl⟩

section Chains

variable [Sha256]

theorem Supersedes.completed_iff {current candidate : Plan} {attempts : List Attempt}
    {proofs : List CompensationProof} {authority : LeaseReplacementAuthority}
    (h : Supersedes current candidate attempts effects proofs authority history ledger)
    (effect : EffectKey) :
    effect ∈ candidate.completedEffects ↔
      effect ∈ current.completedEffects ∨ effect ∈ appliedKeys effects := by
  have hledger := ledgerOf_all h.projected
  have hcurrent := validatePlan_completed h.validCurrent
  have hcandidate := validatePlan_completed h.validCandidate
  obtain ⟨hentry, hexact⟩ := completedMatches_exact hcandidate h.completed
  constructor
  · intro hmem
    exact hledger.source _ _ (hentry effect hmem)
  · rintro (hmem | hmem)
    · obtain ⟨want, hwant⟩ := hledger.kept effect hmem
      obtain ⟨hin, hstring⟩ := hexact _ _ hwant
      -- an applied key printed alike is of the candidate's lineage, so it is this key
      have hold := validCanonicalEffects_belongs hcurrent effect hmem
      have hnew := validCanonicalEffects_belongs hcandidate want hin
      simp only [effectBelongs, Bool.and_eq_true, beq_iff_eq] at hold hnew
      have hlineage : effect.sameLineage want = true := by
        simp only [EffectKey.sameLineage, Bool.and_eq_true, beq_iff_eq]
        simp [hold, hnew, h.operation, h.workspace, h.resource, h.generation]
      have heq := EffectKey.eq_of_string hold.1.1.1.1 hnew.1.1.1.1 hlineage hstring.symm
      rw [heq]
      exact hin
    · exact (hexact _ _ (hledger.applied effect hmem)).1

/-! ## Chains -/

/-- The arguments of one `SelectPlan` call besides the current plan. -/
structure Revision where
  atomics : Atomics
  candidate : Plan
  attempts : List Attempt
  effects : List EffectProjection
  fresh : Bool
  proofs : List CompensationProof

/-- `SelectPlan` answers the call with the next plan and `PlanSelectionSupersede`. -/
def Revises (current : Plan) (revision : Revision) (next : Plan) : Prop :=
  next = revision.candidate ∧ ∃ atomics authority,
    selectPlan revision.atomics current revision.candidate revision.attempts revision.effects
      revision.fresh revision.proofs = (atomics, .ok (next, .supersede, authority))

/-- The plans of a chain, the first one included. -/
def chainPlans (first : Plan) (revisions : List Revision) : List Plan :=
  first :: revisions.map Revision.candidate

theorem selectPlan_supersede {atomics after : Atomics} {current candidate : Plan}
    {attempts : List Attempt} {fresh : Bool} {proofs : List CompensationProof}
    {authority : Option LeaseReplacementAuthority}
    (h : selectPlan atomics current candidate attempts effects fresh proofs =
      (after, .ok (plan, .supersede, authority))) :
    ∃ draft, selectPlanDraft current candidate attempts effects fresh proofs =
      .ok (plan, .supersede, some draft) := by
  unfold selectPlan at h
  split at h
  · simp at h
  · rename_i reused selection hdraft
    -- the only answer without an authority is the reused plan
    revert hdraft
    fun_cases selectPlanDraft current candidate attempts effects fresh proofs
    case case2 =>
      rintro ⟨⟩
      simp at h
    all_goals simp
  · rename_i chosen selection draft hdraft
    cases h
    exact ⟨draft, hdraft⟩

theorem Revises.completed_iff {current next : Plan} {revision : Revision}
    (h : Revises current revision next) (effect : EffectKey) :
    effect ∈ next.completedEffects ↔
      effect ∈ current.completedEffects ∨ effect ∈ appliedKeys revision.effects := by
  obtain ⟨rfl, _, _, hselect⟩ := h
  obtain ⟨draft, hdraft⟩ := selectPlan_supersede hselect
  obtain ⟨-, history, ledger, hsupersedes⟩ := selectPlanDraft_some hdraft
  exact hsupersedes.completed_iff effect

variable {first : Plan} {revisions : List Revision}
variable {last : Plan}

theorem chain_subset (h : Path Revises first revisions last) :
    first.completedEffects ⊆ last.completedEffects := by
  induction h with
  | nil => exact List.Subset.refl _
  | cons hstep _ ih =>
    intro effect hmem
    exact ih ((hstep.completed_iff effect).mpr (.inl hmem))

theorem chain_cut {i : Nat} (h : Path Revises first revisions last)
    (hi : (chainPlans first revisions)[i]? = some plan) :
    Path Revises first (revisions.take i) plan ∧ Path Revises plan (revisions.drop i) last := by
  induction h generalizing i with
  | nil p =>
    cases i with
    | zero =>
      simp only [chainPlans, List.getElem?_cons_zero, Option.some.injEq] at hi
      exact hi ▸ ⟨.nil p, .nil p⟩
    | succ => simp [chainPlans] at hi
  | @cons p q last revision revisions hstep hpath ih =>
    cases i with
    | zero =>
      simp only [chainPlans, List.getElem?_cons_zero, Option.some.injEq] at hi
      exact hi ▸ ⟨.nil p, .cons hstep hpath⟩
    | succ i =>
      obtain ⟨hbefore, hafter⟩ := ih (i := i) (by simpa [chainPlans, hstep.1] using hi)
      exact ⟨.cons hstep hbefore, hafter⟩

theorem chain_between {later : Plan} {i j : Nat} (h : Path Revises first revisions last)
    (hij : i ≤ j) (hplan : (chainPlans first revisions)[i]? = some plan)
    (hlater : (chainPlans first revisions)[j]? = some later) :
    Path Revises plan ((revisions.take j).drop i) later := by
  have hbefore := (chain_cut h hlater).1
  have hpre : chainPlans first (revisions.take j) = (chainPlans first revisions).take (j + 1) := by
    simp [chainPlans, List.map_take]
  refine (chain_cut hbefore (i := i) ?_).2
  rw [hpre, List.getElem?_take, if_pos (by omega)]
  exact hplan

/-- A completed effect is rejected before anything else the caller supplies is read. -/
theorem newAttemptAdmission_completed {input : AttemptAdmissionInput}
    (h : input.effect ∈ input.plan.completedEffects) (atomics : Atomics) :
    ∃ failure, newAttemptAdmission atomics input = (atomics, .error failure) := by
  cases hdraft : attemptAdmissionDraft input with
  | error failure => exact ⟨failure, by simp [newAttemptAdmission, hdraft]⟩
  | ok =>
    obtain ⟨_, _, _, hdrafted⟩ := attemptAdmissionDraft_ok hdraft
    have hcontains := (effectSetContains_iff hdrafted.effect).mpr h
    rw [hdrafted.incomplete] at hcontains
    exact absurd hcontains (by simp)

/-- Along a chain the completed effects are the applied ones, and they stay closed. -/
structure AppliedOnce (first : Plan) (revisions : List Revision) : Prop where
  exact : ∀ (i : Nat) plan revision next, (chainPlans first revisions)[i]? = some plan →
    revisions[i]? = some revision → (chainPlans first revisions)[i + 1]? = some next →
    ∀ effect, effect ∈ next.completedEffects ↔
      effect ∈ plan.completedEffects ∨ effect ∈ appliedKeys revision.effects
  grows : ∀ (i j : Nat) plan later, i ≤ j → (chainPlans first revisions)[i]? = some plan →
    (chainPlans first revisions)[j]? = some later →
    plan.completedEffects ⊆ later.completedEffects
  rejected : ∀ revision ∈ revisions, ∀ effect ∈ appliedKeys revision.effects,
    ∀ (atomics : Atomics) (input : AttemptAdmissionInput),
      (chainPlans first revisions).getLast? = some input.plan → input.effect = effect →
      ∃ failure, newAttemptAdmission atomics input = (atomics, .error failure)

theorem chain_last (h : Path Revises first revisions last) :
    (chainPlans first revisions).getLast? = some last := by
  induction h with
  | nil => rfl
  | @cons p q last revision revisions hstep _ ih =>
    have hplans : chainPlans p (revision :: revisions) = p :: chainPlans q revisions := by
      simp [chainPlans, hstep.1]
    rw [hplans, List.getLast?_cons, ih]
    rfl

theorem chain_link {next : Plan} {revision : Revision} {i : Nat}
    (h : Path Revises first revisions last) (hplan : (chainPlans first revisions)[i]? = some plan)
    (hrevision : revisions[i]? = some revision)
    (hnext : (chainPlans first revisions)[i + 1]? = some next) : Revises plan revision next := by
  have hcut := (chain_cut h hplan).2
  have hdrop : revisions.drop i = revision :: revisions.drop (i + 1) := by
    obtain ⟨hlt, hget⟩ := List.getElem?_eq_some_iff.mp hrevision
    rw [List.drop_eq_getElem_cons hlt, hget]
  have hcandidate : next = revision.candidate := by
    simpa [chainPlans, hrevision, eq_comm] using hnext
  rw [hdrop] at hcut
  cases hcut with
  | cons hstep =>
    rw [hcandidate, ← hstep.1]
    exact hstep

theorem applied_effects_closed {first last : Plan} {revisions : List Revision}
    (h : Path Revises first revisions last) : AppliedOnce first revisions where
  exact i plan revision next hplan hrevision hnext :=
    (chain_link h hplan hrevision hnext).completed_iff
  grows i j plan later hij hplan hlater := chain_subset (chain_between h hij hplan hlater)
  rejected revision hmem effect happlied atomics input hlast heffect := by
    obtain ⟨i, hi⟩ := List.mem_iff_getElem?.mp hmem
    obtain ⟨plan, next, -, hstep, hrest⟩ := h.at_index hi
    have hnext : effect ∈ next.completedEffects := (hstep.completed_iff effect).mpr (.inr happlied)
    have hplan : last = input.plan := Option.some.inj ((chain_last h).symm.trans hlast)
    refine newAttemptAdmission_completed ?_ atomics
    rw [heffect, ← hplan]
    exact chain_subset hrest hnext

theorem revises_of_answer {current : Plan} {revision : Revision}
    (h : ((selectPlan revision.atomics current revision.candidate revision.attempts
      revision.effects revision.fresh revision.proofs).2.toOption.map
        fun answer => (answer.1, answer.2.1)) = some (revision.candidate, .supersede)) :
    Revises current revision revision.candidate := by
  refine ⟨rfl, ?_⟩
  cases hselect : selectPlan revision.atomics current revision.candidate revision.attempts
      revision.effects revision.fresh revision.proofs with
  | mk atomics answer =>
    rw [hselect] at h
    cases answer with
    | error => simp [Except.toOption] at h
    | ok answer =>
      obtain ⟨plan, selection, authority⟩ := answer
      simp only [Except.toOption, Option.map_some, Option.some.injEq, Prod.mk.injEq] at h
      exact ⟨atomics, authority, by rw [h.1, h.2]⟩

/-! ## A chain of three plans -/

/-- A forward attempt of the sample plan that the provider applied. -/
def appliedAttempt : Attempt :=
  { initialized := true
    id := "attempt-00000001"
    ordinal := 1
    planDigest := samplePlan.digest
    planKind := .forward
    effect := sampleEffect
    purpose := .forward
    ownerID := "owner-0000000001"
    fence := 1
    requestFingerprint := ⟨true, []⟩
    compensation := none
    observationTarget := none
    cancellationTarget := none
    retryValidUntil := 0
    observationBinding := .zero
    observationDeadline := 0
    admissionBinding := ⟨true, []⟩
    state := .applied
    preparedAt := 1 * second
    dispatchedAt := 2 * second
    resolvedAt := 3 * second }

def appliedProjection : EffectProjection :=
  ⟨true, sampleEffect, samplePlan.digest, "attempt-00000001", .forward, none, none, .applied,
    3 * second⟩

/-- The next revision of a plan, over a newer observation. -/
def Plan.revised (plan : Plan) (version : String) (completed : List EffectKey) : Plan :=
  Plan.sealed
    { plan with
      revision := plan.revision + 1
      observed := sampleEvidence .observedSnapshot version
      supersedes := some plan.digest
      completedEffects := completed }

/-- The effect is found applied at the first revision; the second one has no attempts of its
own. -/
def sampleRevisions : List Revision :=
  let second := samplePlan.revised "v2" [sampleEffect]
  [⟨noAtomics, second, [appliedAttempt], [appliedProjection], true, []⟩,
    ⟨noAtomics, second.revised "v3" [sampleEffect], [], [], true, []⟩]

end Chains

attribute [local instance] plainSha256

theorem applied_effects_closed_twice :
    @Path _ _ Revises samplePlan sampleRevisions
        ((samplePlan.revised "v2" [sampleEffect]).revised "v3" [sampleEffect]) ∧
      AppliedOnce samplePlan sampleRevisions := by
  have hpath : @Path _ _ Revises samplePlan sampleRevisions _ :=
    .cons (revises_of_answer (by decide +kernel))
      (.cons (revises_of_answer (by decide +kernel)) (.nil _))
  exact ⟨hpath, applied_effects_closed hpath⟩

end Veer.Reconcile
