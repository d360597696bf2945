import Veer.PlanSemantics
import Veer.ReconcileDelivery

/-!
# Work of one plan and of its revisions

A work key is derived from the digest of a plan, which leaves out its revision. Two plans of a chain
give a piece of work one identity exactly when the later one has returned to the inputs of the
earlier one, and then no effect has completed between them.
-/
namespace Veer.Reconcile
open Identity (URLParser plainURLParser)
open StepMachine (Path)

section

variable [Sha256]

def newWorkKey (plan : Plan) (canonicalWork : List UInt8) : Except Failure WorkKey :=
  if !validatePlan plan || canonicalWork.length == 0 ||
      decide (maxEvidenceBytes < canonicalWork.length) then .error [.invalidPlan]
  else .ok
    { value := digestFromHasher (writeHashFrame "veer.reconciliation.work.v1" ++
        writeHashFrame contractVersion ++ writeHashFrame plan.operationID ++
        writeHashBytes plan.digest.digest ++ writeHashBytes canonicalWork)
      planDigest := plan.digest }

theorem newWorkKey_ok {plan : Plan} {work : List UInt8} {key : WorkKey}
    (h : newWorkKey plan work = .ok key) : validatePlan plan = true ∧ validWorkKey key = true ∧
      key.planDigest = plan.digest := by
  unfold newWorkKey at h
  split at h
  · cases h
  case isFalse hvalid =>
    simp only [Bool.or_eq_true, Bool.not_eq_true', not_or, Bool.not_eq_false] at hvalid
    cases h
    refine ⟨hvalid.1.1, ?_, rfl⟩
    simp [validWorkKey, digestFromHasher, validPlan_sealed hvalid.1.1]

theorem newWorkKey_congr {plan later : Plan} {work : List UInt8} {key other : WorkKey}
    (hkey : newWorkKey plan work = .ok key) (hother : newWorkKey later work = .ok other)
    (hdigest : plan.digest = later.digest) (hoperation : plan.operationID = later.operationID) :
    key = other := by
  unfold newWorkKey at hkey hother
  split at hkey
  · cases hkey
  split at hother
  · cases hother
  rw [← Except.ok.inj hkey, ← Except.ok.inj hother, hdigest, hoperation]

theorem Revises.supersedes {current next : Plan} {revision : Revision}
    (h : Revises current revision next) : ∃ authority history ledger, Supersedes current next
      revision.attempts revision.effects revision.proofs authority history ledger := by
  obtain ⟨rfl, _, _, hselect⟩ := h
  obtain ⟨draft, hdraft⟩ := selectPlan_supersede hselect
  exact ⟨draft, (selectPlanDraft_some hdraft).2⟩

theorem Revises.valid {current next : Plan} {revision : Revision}
    (h : Revises current revision next) :
    validatePlan current = true ∧ validatePlan next = true := by
  obtain ⟨_, _, _, hsupersedes⟩ := h.supersedes
  exact ⟨hsupersedes.validCurrent, hsupersedes.validCandidate⟩

theorem Revises.digest_ne {current next : Plan} {revision : Revision}
    (h : Revises current revision next) : current.digest ≠ next.digest := by
  obtain ⟨_, _, _, hsupersedes⟩ := h.supersedes
  obtain ⟨rfl, atomics, authority, hselect⟩ := h
  intro hdigest
  -- plans with one digest would have been answered with the current one
  obtain ⟨answer, hanswer, hreuse⟩ := (selectPlan_reuse_iff hsupersedes.validCurrent
    hsupersedes.validCandidate fun _ => ⟨hsupersedes.operation, hsupersedes.workspace,
      hsupersedes.resource, hsupersedes.generation⟩).mpr hdigest
  rw [hselect] at hanswer
  cases hanswer
  cases hreuse

/-- How the work of the plans of a chain is told apart. -/
structure WorkSeparated [URLParser] (first : Plan) (revisions : List Revision) : Prop where
  neighbours : ∀ (i : Nat) plan next work key other,
    (chainPlans first revisions)[i]? = some plan → (chainPlans first revisions)[i + 1]? = some next →
    newWorkKey plan work = .ok key → newWorkKey next work = .ok other → key ≠ other
  returned : ∀ (i j : Nat) plan later input latest work key other, i ≤ j →
    (chainPlans first revisions)[i]? = some plan → (chainPlans first revisions)[j]? = some later →
    newPlan input = .ok plan → newPlan latest = .ok later → input.Sized → latest.Sized →
    newWorkKey plan work = .ok key → newWorkKey later work = .ok other →
    (key = other ↔ SameSemantics input latest)
  unchanged : ∀ (i j k : Nat) plan later input latest between, i ≤ k → k ≤ j →
    (chainPlans first revisions)[i]? = some plan → (chainPlans first revisions)[j]? = some later →
    (chainPlans first revisions)[k]? = some between →
    newPlan input = .ok plan → newPlan latest = .ok later → SameSemantics input latest →
    ∀ effect, effect ∈ between.completedEffects ↔ effect ∈ plan.completedEffects
  printed : ∀ plan ∈ chainPlans first revisions, ∀ later ∈ chainPlans first revisions,
    ∀ work key other, newWorkKey plan work = .ok key → newWorkKey later work = .ok other →
    key ≠ other → key.string ≠ other.string

theorem newPlan_completed [URLParser] {input : PlanInput} {plan : Plan}
    (h : newPlan input = .ok plan) (effect : EffectKey) :
    effect ∈ plan.completedEffects ↔ effect ∈ input.completedEffects := by
  obtain ⟨_, _, _, hplanned⟩ := newPlan_ok h
  rw [hplanned.same]
  exact (canonicalEffectSet_ok hplanned.completedSet).1.mem_iff

/-- A later plan of a chain shares the work of an earlier one only when it has returned to its
inputs, and nothing has completed between the two. -/
theorem work_keys_separated [URLParser] (hsum : Function.Injective Sha256.sum) {first last : Plan}
    {revisions : List Revision} (h : Path Revises first revisions last) :
    WorkSeparated first revisions where
  neighbours i plan next work key other hplan hnext hkey hother := by
    rintro rfl
    have hlength : revisions.length > i := by
      have hlt := (List.getElem?_eq_some_iff.mp hnext).1
      simpa [chainPlans] using hlt
    have hstep := chain_link h hplan (List.getElem?_eq_getElem hlength) hnext
    exact hstep.digest_ne
      ((newWorkKey_ok hkey).2.2.symm.trans (newWorkKey_ok hother).2.2)
  returned i j plan later input latest work key other _ _ _ hinput hlatest hsized hsized' hkey
      hother := by
    obtain ⟨_, _, _, hplanned⟩ := newPlan_ok hinput
    obtain ⟨_, _, _, hplanned'⟩ := newPlan_ok hlatest
    rw [← hplanned.digest_iff hsum hplanned' hsized hsized']
    constructor
    · rintro rfl
      exact (newWorkKey_ok hkey).2.2.symm.trans (newWorkKey_ok hother).2.2
    · intro hdigest
      apply newWorkKey_congr hkey hother hdigest
      have hsame := (hplanned.digest_iff hsum hplanned' hsized hsized').mp hdigest
      rw [hplanned.same, hplanned'.same]
      exact hsame.operation
  unchanged i j k plan later input latest between hik hkj hplan hlater hbetween hinput hlatest
      hsame effect := by
    have hbefore := chain_subset (chain_between h hik hplan hbetween)
    have hafter := chain_subset (chain_between h hkj hbetween hlater)
    refine ⟨?_, fun hmem => hbefore hmem⟩
    intro hmem
    have hlast := (newPlan_completed hlatest effect).mp (hafter hmem)
    exact (newPlan_completed hinput effect).mpr ((hsame.completedEffects effect).mpr hlast)
  printed plan _ later _ work key other hkey hother hne hstring :=
    hne (WorkKey.string_inj (newWorkKey_ok hkey).2.1 (newWorkKey_ok hother).2.1 hstring)

/-! ## An observation that comes back -/

def secondObserved : Plan := samplePlan.revised "v2" []

def thirdObserved : Plan := secondObserved.revised "v1" []

/-- The first observation, another one and the first one again; no effect is attempted. -/
def observedRevisions : List Revision :=
  [⟨noAtomics, secondObserved, [], [], true, []⟩, ⟨noAtomics, thirdObserved, [], [], true, []⟩]

theorem newWorkKey_of_valid {plan : Plan} {work : List UInt8} (hvalid : validatePlan plan = true)
    (hwork : work ≠ []) (hsize : work.length ≤ maxEvidenceBytes) :
    ∃ key, newWorkKey plan work = .ok key := by
  unfold newWorkKey
  rw [if_neg (by simp [hvalid, hwork, hsize])]
  exact ⟨_, rfl⟩

end

attribute [local instance] plainSha256 plainURLParser

theorem observed_steps :
    Revises samplePlan ⟨noAtomics, secondObserved, [], [], true, []⟩ secondObserved ∧
      Revises secondObserved ⟨noAtomics, thirdObserved, [], [], true, []⟩ thirdObserved :=
  ⟨revises_of_answer (by decide +kernel), revises_of_answer (by decide +kernel)⟩

theorem observed_path : @Path _ _ Revises samplePlan observedRevisions thirdObserved :=
  .cons observed_steps.1 (.cons observed_steps.2 (.nil _))

/-- The third plan gives a piece of work the identity that it had under the first one. -/
theorem work_key_returns :
    @Path _ _ Revises samplePlan observedRevisions thirdObserved ∧
      ∃ key, newWorkKey samplePlan [1] = .ok key ∧ newWorkKey thirdObserved [1] = .ok key := by
  refine ⟨observed_path, ?_⟩
  have hfirst := observed_steps.1.valid.1
  have hthird := observed_steps.2.valid.2
  obtain ⟨key, hkey⟩ := @newWorkKey_of_valid _ _ [1] hfirst (by decide) (by decide)
  obtain ⟨other, hother⟩ := @newWorkKey_of_valid _ _ [1] hthird (by decide) (by decide)
  have hsame := newWorkKey_congr hkey hother rfl rfl
  exact ⟨key, hkey, hsame ▸ hother⟩

theorem work_keys_separated_observed :
    WorkSeparated samplePlan observedRevisions :=
  work_keys_separated (fun _ _ h => h) observed_path

end Veer.Reconcile
