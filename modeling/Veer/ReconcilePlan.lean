import Veer.ReconcileDigest

/-!
# Effect keys and immutable plans
-/
namespace Veer.Reconcile

/-- A generation- and operation-bound logical provider effect. -/
structure EffectKey where
  initialized : Bool
  digest : DigestValue
  workspaceID : ID
  resourceID : ID
  operationID : ID
  generation : Int
  deriving DecidableEq, Repr

def validateEffectKey (value : EffectKey) : Bool :=
  value.initialized && value.digest.initialized && validID value.workspaceID &&
    validID value.resourceID && validID value.operationID && decide (1 ≤ value.generation)

def EffectKey.string (value : EffectKey) : String := formatDigest "rfx1_" value.digest

def EffectKey.equal (value other : EffectKey) : Bool :=
  validateEffectKey value && validateEffectKey other &&
    value.workspaceID == other.workspaceID && value.resourceID == other.resourceID &&
    value.operationID == other.operationID && value.generation == other.generation &&
    equalDigest value.digest other.digest

theorem EffectKey.equal_iff {value other : EffectKey} :
    value.equal other = true ↔ validateEffectKey value = true ∧ value = other := by
  rcases value with ⟨vi, vd, vw, vr, vo, vg⟩
  rcases other with ⟨oi, od, ow, or_, oo, og⟩
  simp only [EffectKey.equal, validateEffectKey, Bool.and_eq_true, beq_iff_eq, equalDigest_iff,
    decide_eq_true_eq, EffectKey.mk.injEq]
  aesop

/-- The lineage an effect key belongs to. -/
def EffectKey.sameLineage (value other : EffectKey) : Bool :=
  value.workspaceID == other.workspaceID && value.resourceID == other.resourceID &&
    value.operationID == other.operationID && value.generation == other.generation

/-- Within one lineage the printed form determines a valid key. -/
theorem EffectKey.eq_of_string {value other : EffectKey} (hv : validateEffectKey value = true)
    (ho : validateEffectKey other = true) (hl : value.sameLineage other = true)
    (hs : value.string = other.string) : value = other := by
  rcases value with ⟨vi, vd, vw, vr, vo, vg⟩
  rcases other with ⟨oi, od, ow, or_, oo, og⟩
  simp only [validateEffectKey, Bool.and_eq_true] at hv ho
  simp only [EffectKey.sameLineage, Bool.and_eq_true, beq_iff_eq] at hl
  obtain ⟨⟨⟨⟨⟨rfl, hvd⟩, -⟩, -⟩, -⟩, -⟩ := hv
  obtain ⟨⟨⟨⟨⟨rfl, hod⟩, -⟩, -⟩, -⟩, -⟩ := ho
  obtain ⟨⟨⟨rfl, rfl⟩, rfl⟩, rfl⟩ := hl
  rw [formatDigest_injective hvd hod hs]

theorem EffectKey.eq_of_digest {value other : EffectKey} (hv : validateEffectKey value = true)
    (ho : validateEffectKey other = true) (hl : value.sameLineage other = true)
    (hd : value.digest.digest = other.digest.digest) : value = other := by
  apply EffectKey.eq_of_string hv ho hl
  simp only [validateEffectKey, Bool.and_eq_true] at hv ho
  have hdigest : value.digest = other.digest := by
    rcases value with ⟨vi, ⟨vb, vd⟩, vw, vr, vo, vg⟩
    rcases other with ⟨oi, ⟨ob, od⟩, ow, or_, oo, og⟩
    simp_all
  rw [EffectKey.string, EffectKey.string, hdigest]

inductive IdentityKind
  | human | workload
  deriving DecidableEq, Repr

def IdentityKind.string : IdentityKind → String
  | human => "human"
  | workload => "workload"

structure Plan where
  initialized : Bool
  id : ID
  revision : Nat
  kind : PlanKind
  operationID : ID
  workspaceID : ID
  resourceID : ID
  environmentID : Option ID
  connectionID : Option ID
  generation : Int
  plannerVersion : String
  desired : Evidence
  observed : Evidence
  actorKind : IdentityKind
  actorFingerprint : String
  policyVersion : String
  authorizationInput : String
  providerBinding : Option ProviderBinding
  capability : Evidence
  quota : Evidence
  cost : Evidence
  supersedes : Option PlanDigest
  completedEffects : List EffectKey
  compensates : List EffectKey
  digest : PlanDigest
  deriving DecidableEq, Repr

def authorizationContractVersion : String := "veer.authorization.v1alpha1"

def writeEffects (values : List EffectKey) : List UInt8 :=
  writeHashUint64 values.length ++ values.flatMap fun effect => writeHashBytes effect.digest.digest

/-- The plan's own id, revision and predecessor do not enter its digest. -/
def derivePlanDigest [Sha256] (value : Plan) : PlanDigest :=
  digestFromHasher <|
    writeHashFrame "veer.reconciliation.plan.v1" ++ writeHashFrame contractVersion ++
    writeHashFrame value.kind.string ++ writeHashFrame value.operationID ++
    writeHashFrame value.workspaceID ++ writeHashFrame value.resourceID ++
    writeOptionalID value.environmentID ++ writeOptionalID value.connectionID ++
    writeHashInt64 value.generation ++ writeHashFrame value.plannerVersion ++
    writeEvidence value.desired ++ writeEvidence value.observed ++
    writeHashFrame value.actorKind.string ++ writeHashFrame value.actorFingerprint ++
    writeHashFrame authorizationContractVersion ++ writeHashFrame value.policyVersion ++
    writeHashFrame value.authorizationInput ++ writeProviderBinding value.providerBinding ++
    writeEvidence value.capability ++ writeEvidence value.quota ++ writeEvidence value.cost ++
    writeEffects value.completedEffects ++ writeEffects value.compensates

/-- `effectBelongs` is the part of the loop of `validCanonicalEffects` that looks at one key. -/
def effectBelongs (plan : Plan) (value : EffectKey) : Bool :=
  validateEffectKey value && value.operationID == plan.operationID &&
    value.workspaceID == plan.workspaceID && value.resourceID == plan.resourceID &&
    value.generation == plan.generation

/-- Strictly increasing printed keys, each of the plan's own lineage. -/
def validCanonicalEffects : List EffectKey → Plan → Bool
  | [], _ => true
  | [value], plan => effectBelongs plan value
  | value :: next :: rest, plan =>
    effectBelongs plan value && decide (value.string < next.string) &&
      validCanonicalEffects (next :: rest) plan

def effectSetContainsAll (superset subset : List EffectKey) : Bool :=
  subset.all fun effect => (superset.map EffectKey.string).contains effect.string

def effectSetContains (values : List EffectKey) (candidate : EffectKey) : Bool :=
  values.any fun value => value.equal candidate

def validActorProjection (fingerprint : String) : Bool :=
  "prn1_".toList.isPrefixOf fingerprint.toList && decide (5 < fingerprint.length) &&
    fingerprint != "prn1_invalid"

def inputDigestPrefix : String := "azi1_"
def policyVersionPrefix : String := "azv1_"

def validPlanBinding (value : Plan) : Bool :=
  match value.environmentID, value.connectionID, value.providerBinding with
  | none, none, none => true
  | some environment, some connection, some binding =>
    validID environment && validID connection && validateProviderBinding binding &&
      binding.connectionID == connection
  | _, _, _ => false

def validPlanPredecessor (value : Plan) : Bool :=
  match value.supersedes with
  | none => value.revision == 1
  | some digest => value.revision != 1 && digest.initialized

def validPlanEffects (value : Plan) : Bool :=
  (value.revision != 1 || value.completedEffects.isEmpty) &&
    validCanonicalEffects value.completedEffects value &&
    validCanonicalEffects value.compensates value &&
    match value.kind with
    | .forward => value.compensates.isEmpty
    | .compensation =>
      value.revision != 1 && !value.compensates.isEmpty &&
        effectSetContainsAll value.completedEffects value.compensates

/-- `ValidatePlan` returns only nil or `ErrInvalidPlan`. -/
def validatePlan [Sha256] (value : Plan) : Bool :=
  value.initialized && validID value.id && value.revision != 0 && validID value.operationID &&
    validID value.workspaceID && validID value.resourceID && decide (1 ≤ value.generation) &&
    validVersion value.plannerVersion && validActorProjection value.actorFingerprint &&
    validVersion value.policyVersion && value.digest.initialized &&
    parsesAs inputDigestPrefix value.authorizationInput &&
    parsesAs policyVersionPrefix value.policyVersion &&
    evidenceHasKind value.desired .desiredIntent &&
    evidenceHasKind value.observed .observedSnapshot &&
    evidenceHasKind value.capability .capability && evidenceHasKind value.quota .quota &&
    evidenceHasKind value.cost .cost && validPlanBinding value && validPlanPredecessor value &&
    validPlanEffects value && equalDigest value.digest (derivePlanDigest value)

/-- `NewPlan` seals a plan with the digest of its other fields. -/
def Plan.sealed [Sha256] (value : Plan) : Plan := { value with digest := derivePlanDigest value }

def sampleEvidence (kind : EvidenceKind) (version : String) : Evidence :=
  ⟨true, kind, version, ⟨true, []⟩⟩

/-- A small valid forward plan for concrete runs: revision one of generation one. -/
def samplePlan [Sha256] : Plan :=
  Plan.sealed
    { initialized := true
      id := "plan-00000000001"
      revision := 1
      kind := .forward
      operationID := "operation-000000"
      workspaceID := "workspace-000000"
      resourceID := "resource-0000000"
      environmentID := none
      connectionID := none
      generation := 1
      plannerVersion := "v1"
      desired := sampleEvidence .desiredIntent "v1"
      observed := sampleEvidence .observedSnapshot "v1"
      actorKind := .workload
      actorFingerprint := "prn1_actor"
      policyVersion := "azv1_AAAAAAAAAAAAAAAAAAAAAAAAAAAAAAAAAAAAAAAAAAA"
      authorizationInput := "azi1_AAAAAAAAAAAAAAAAAAAAAAAAAAAAAAAAAAAAAAAAAAA"
      providerBinding := none
      capability := sampleEvidence .capability "v1"
      quota := sampleEvidence .quota "v1"
      cost := sampleEvidence .cost "v1"
      supersedes := none
      completedEffects := []
      compensates := []
      digest := .zero }

example : @validatePlan plainSha256 (@samplePlan plainSha256) = true := by decide +kernel

/-- An effect of the sample plan's lineage. -/
def sampleEffect : EffectKey :=
  ⟨true, ⟨true, [1]⟩, "workspace-000000", "resource-0000000", "operation-000000", 1⟩

/-! ## Canonical effect sets -/

variable {values : List EffectKey}

theorem validCanonicalEffects_belongs {plan : Plan} (h : validCanonicalEffects values plan = true) :
    ∀ value ∈ values, effectBelongs plan value = true := by
  fun_induction validCanonicalEffects values plan with
  | case1 => simp
  | case2 =>
    intro v hv
    rw [List.mem_singleton] at hv
    subst hv
    exact h
  | case3 _ _ _ _ ih =>
    simp only [Bool.and_eq_true] at h
    intro v hv
    rcases List.mem_cons.mp hv with rfl | hv
    · exact h.1.1
    · exact ih h.2 v hv

theorem validCanonicalEffects_sorted {plan : Plan} (h : validCanonicalEffects values plan = true) :
    values.Pairwise fun a b => a.string < b.string := by
  rw [← List.isChain_iff_pairwise]
  fun_induction validCanonicalEffects values plan with
  | case1 => exact .nil
  | case2 => exact .singleton _
  | case3 _ _ _ _ ih =>
    simp only [Bool.and_eq_true, decide_eq_true_eq] at h
    exact .cons_cons h.1.2 (ih h.2)

theorem validCanonicalEffects_nodup {plan : Plan} (h : validCanonicalEffects values plan = true) :
    values.Nodup := by
  refine (validCanonicalEffects_sorted h).imp ?_
  rintro a b hab rfl
  exact lt_irrefl _ hab

theorem effectSetContains_iff {candidate : EffectKey} (h : validateEffectKey candidate = true) :
    effectSetContains values candidate = true ↔ candidate ∈ values := by
  simp only [effectSetContains, List.any_eq_true, EffectKey.equal_iff]
  constructor
  · rintro ⟨value, hm, -, rfl⟩
    exact hm
  · intro hm
    exact ⟨candidate, hm, h, rfl⟩

end Veer.Reconcile
