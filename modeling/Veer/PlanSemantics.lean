import Veer.HashFrames
import Veer.JsonText
import Veer.Operation
import Veer.PlanChain
import Veer.PolicySet

/-!
# What a plan digest stands for

`NewPlan` seals a plan with the digest of everything but its id, its revision and its predecessor.
The digest is a hash of length-framed fields, so it stands for exactly those fields. The effect
sets are written in the order of their printed keys, which makes the list a function of the set.
-/
namespace Veer.Authorization
open Reconcile (formatDigest parsesAs inputDigestPrefix policyVersionPrefix)
open JsonText (Scalar object)

def maxDecisionBytes : Nat := 1024

def Effect.string : Effect → String
  | allow => "Allow"
  | deny => "Deny"

def Reason.string : Reason → String
  | crossWorkspace => "CrossWorkspace"
  | reservedAction => "ReservedAction"
  | noMembership => "NoMembership"
  | noRoleBinding => "NoRoleBinding"
  | scopeNotGranted => "ScopeNotGranted"
  | actionNotGranted => "ActionNotGranted"
  | roleGranted => "RoleGranted"

def PolicyVersion.string (version : PolicyVersion) : String :=
  formatDigest policyVersionPrefix version

def InputDigest.string (digest : InputDigest) : String := formatDigest inputDigestPrefix digest

def Decision.allowed (decision : Decision) : Bool :=
  decision.initialized && decision.effect == .allow

/-- An allowed decision has one reason, a denied one any of the others. -/
def validateDecisionFields (decision : Decision) : Bool :=
  decision.initialized &&
    parsesAs policyVersionPrefix (PolicyVersion.string decision.policyVersion) &&
    parsesAs inputDigestPrefix (InputDigest.string decision.inputDigest) &&
    (decision.effect == .allow) == (decision.reason == .roleGranted)

def encodeDecision (decision : Decision) : List UInt8 :=
  (object Scalar.render
    [("contractVersion", .string contractVersion),
      ("policyVersion", .string (PolicyVersion.string decision.policyVersion)),
      ("inputDigest", .string (InputDigest.string decision.inputDigest)),
      ("effect", .string decision.effect.string),
      ("reason", .string decision.reason.string)]).flatMap String.utf8EncodeChar

def validateDecision (decision : Decision) : Bool :=
  validateDecisionFields decision &&
    decide ((encodeDecision decision).length ≤ maxDecisionBytes)

end Veer.Authorization

namespace Veer.Reconcile
open Identity (Principal URLParser validatePrincipal)
open Authorization (Decision validateDecision)
open Operations (Operation)
open PrefixCode (Reads)

/-! ## Building a plan -/

structure PlanInput where
  id : ID
  revision : Nat
  kind : PlanKind
  operation : Operation
  plannerVersion : String
  desiredIntent : Evidence
  observedSnapshot : Evidence
  actor : Principal
  authorization : Decision
  providerBinding : Option ProviderBinding
  capability : Evidence
  quota : Evidence
  cost : Evidence
  supersedes : Option PlanDigest
  completedEffects : List EffectKey
  compensates : List EffectKey

def terminalOperation : Audit.Phase → Bool
  | .succeeded | .failed | .canceled => true
  | _ => false

def validatePlanProviderBinding (op : Operation) (binding : Option ProviderBinding) :
    Except Failure Unit :=
  match op.providerConnectionID, binding with
  | none, none => .ok ()
  | none, some _ => .error [.planMismatch]
  | some _, none => .error [.planMismatch]
  | some connection, some binding =>
    if !validateProviderBinding binding || binding.connectionID != connection then
      .error [.planMismatch]
    else .ok ()

/-- The check of the last loop of `canonicalEffectSet`. -/
def repeatsNeighbour : List EffectKey → Bool
  | value :: next :: rest => value.equal next || repeatsNeighbour (next :: rest)
  | _ => false

/-- Keys of one operation with the same printed form are equal, so it does not matter that the sort
of the source is not stable. -/
def canonicalEffectSet (values : List EffectKey) (op : Operation) :
    Except Failure (List EffectKey) :=
  if maxEffectsPerOperation < values.length then .error [.invalidPlan]
  else if values.any fun value => !validateEffectKey value || value.operationID != op.id ||
      value.workspaceID != op.workspaceID || value.resourceID != op.resourceID ||
      value.generation != op.generation then .error [.invalidPlan]
  else
    let result := values.insertionSort fun left right => left.string ≤ right.string
    if repeatsNeighbour result then .error [.invalidPlan] else .ok result

/-- The kinds that a valid principal can have. -/
def identityKind : Identity.Kind → Option IdentityKind
  | .human => some .human
  | .workload => some .workload
  | .unknown => none

/-- The plan that `NewPlan` builds, before it has a digest. -/
def planOf (input : PlanInput) (actorKind : IdentityKind) (completed compensates : List EffectKey) :
    Plan where
  initialized := true
  id := input.id
  revision := input.revision
  kind := input.kind
  operationID := input.operation.id
  workspaceID := input.operation.workspaceID
  resourceID := input.operation.resourceID
  environmentID := input.operation.environmentID
  connectionID := input.operation.providerConnectionID
  generation := input.operation.generation
  plannerVersion := input.plannerVersion
  desired := input.desiredIntent
  observed := input.observedSnapshot
  actorKind := actorKind
  actorFingerprint := Identity.Fingerprint.string input.actor.fingerprint
  policyVersion := Authorization.PolicyVersion.string input.authorization.policyVersion
  authorizationInput := Authorization.InputDigest.string input.authorization.inputDigest
  providerBinding := input.providerBinding
  capability := input.capability
  quota := input.quota
  cost := input.cost
  supersedes := input.supersedes
  completedEffects := completed
  compensates := compensates
  digest := .zero

/-- The checks of `NewPlan` before it reads the effects. -/
def validPlanBasis [Sha256] [URLParser] (input : PlanInput) : Bool :=
  validID input.id && input.revision != 0 && validVersion input.plannerVersion &&
    (Operations.validate input.operation).isOk && !terminalOperation input.operation.phase &&
    (validatePrincipal input.actor).isOk && validateDecision input.authorization &&
    input.authorization.allowed && evidenceHasKind input.desiredIntent .desiredIntent &&
    evidenceHasKind input.observedSnapshot .observedSnapshot &&
    evidenceHasKind input.capability .capability && evidenceHasKind input.quota .quota &&
    evidenceHasKind input.cost .cost

/-- The checks of `NewPlan` after it has sorted the effects. -/
def validPlanShape (input : PlanInput) (completed compensates : List EffectKey) : Bool :=
  (match input.kind with
    | .forward => compensates.isEmpty
    | .compensation => input.revision != 1 && !compensates.isEmpty &&
      effectSetContainsAll completed compensates) &&
    (input.revision == 1) == input.supersedes.isNone &&
    input.supersedes.all DigestValue.initialized

def newPlan [Sha256] [URLParser] (input : PlanInput) : Except Failure Plan :=
  if !validPlanBasis input then .error [.invalidPlan]
  else
    match validatePlanProviderBinding input.operation input.providerBinding with
    | .error failure => .error failure
    | .ok () =>
      match canonicalEffectSet input.completedEffects input.operation with
      | .error failure => .error failure
      | .ok completed =>
        if input.revision == 1 && !completed.isEmpty then .error [.invalidPlan]
        else
          match canonicalEffectSet input.compensates input.operation with
          | .error failure => .error failure
          | .ok compensates =>
            if !validPlanShape input completed compensates then .error [.invalidPlan]
            else
              -- the principal is valid, so that its kind is one of the two
              match identityKind input.actor.kind with
              | none => .error [.invalidPlan]
              | some actorKind =>
                let value := (planOf input actorKind completed compensates).sealed
                if !validatePlan value then .error [.invalidPlan] else .ok value

/-- What an accepted input became. -/
structure Planned [Sha256] [URLParser] (input : PlanInput) (plan : Plan) (actorKind : IdentityKind)
    (completed compensates : List EffectKey) : Prop where
  basis : validPlanBasis input = true
  completedSet : canonicalEffectSet input.completedEffects input.operation = .ok completed
  compensatedSet : canonicalEffectSet input.compensates input.operation = .ok compensates
  kind : identityKind input.actor.kind = some actorKind
  same : plan = (planOf input actorKind completed compensates).sealed
  valid : validatePlan plan = true

variable {plan : Plan}

theorem newPlan_ok [Sha256] [URLParser] {input : PlanInput} (h : newPlan input = .ok plan) :
    ∃ actorKind completed compensates, Planned input plan actorKind completed compensates := by
  revert h
  fun_cases newPlan input
  case case9 hbasis _ completed hcompleted _ compensates hcompensates _ actorKind hkind value
      hvalid =>
    simp only [Bool.not_eq_true', Bool.not_eq_false] at hbasis hvalid
    intro h
    obtain rfl := Except.ok.inj h
    exact ⟨actorKind, completed, compensates, hbasis, hcompleted, hcompensates, hkind, rfl, hvalid⟩
  all_goals exact (fun h => nomatch h)

theorem newPlan_accepts [Sha256] [URLParser] {input : PlanInput} {actorKind : IdentityKind}
    {completed compensates : List EffectKey} (hbasis : validPlanBasis input = true)
    (hbinding : validatePlanProviderBinding input.operation input.providerBinding = .ok ())
    (hcompleted : canonicalEffectSet input.completedEffects input.operation = .ok completed)
    (hfirst : (input.revision == 1 && !completed.isEmpty) = false)
    (hcompensates : canonicalEffectSet input.compensates input.operation = .ok compensates)
    (hshape : validPlanShape input completed compensates = true)
    (hkind : identityKind input.actor.kind = some actorKind)
    (hvalid : validatePlan (planOf input actorKind completed compensates).sealed = true) :
    newPlan input = .ok (planOf input actorKind completed compensates).sealed := by
  simp [newPlan, hbasis, hbinding, hcompleted, hfirst, hcompensates, hshape, hkind, hvalid]

theorem canonicalEffectSet_ok {values result : List EffectKey} {op : Operation}
    (h : canonicalEffectSet values op = .ok result) :
    result.Perm values ∧ values.length ≤ maxEffectsPerOperation := by
  unfold canonicalEffectSet at h
  split_ifs at h with hcount
  dsimp only at h
  split_ifs at h
  cases h
  exact ⟨List.perm_insertionSort _ _, not_lt.mp hcount⟩

/-! ## Reading the fields back -/

theorem PlanKind.string_injective : Function.Injective PlanKind.string := by
  intro left right h
  cases left <;> cases right <;> first | rfl | (revert h; decide)

theorem EvidenceKind.string_injective : Function.Injective EvidenceKind.string := by
  intro left right h
  cases left <;> cases right <;> first | rfl | (revert h; decide)

theorem IdentityKind.string_injective : Function.Injective IdentityKind.string := by
  intro left right h
  cases left <;> cases right <;> first | rfl | (revert h; decide)

theorem planKind_reads : Reads (fun _ => True) (fun kind => writeHashFrame (PlanKind.string kind)) id :=
  word_reads PlanKind.string_injective fun kind => framable_of_le (by cases kind <;> decide)

theorem identityKind_reads :
    Reads (fun _ => True) (fun kind => writeHashFrame (IdentityKind.string kind)) id :=
  word_reads IdentityKind.string_injective fun kind => framable_of_le (by cases kind <;> decide)

theorem evidenceKind_reads :
    Reads (fun _ => True) (fun kind => writeHashFrame (EvidenceKind.string kind)) id :=
  word_reads EvidenceKind.string_injective fun kind => framable_of_le (by cases kind <;> decide)

/-- A bound far above the 32 bytes that the type of a digest has in the source. -/
def DigestValue.Sized (value : DigestValue) : Prop := value.digest.length ≤ 2 ^ 30

variable {value : DigestValue}

theorem DigestValue.Sized.fits (h : value.Sized) : FitsUint64 value.digest.length := by
  unfold DigestValue.Sized at h
  unfold FitsUint64
  omega

theorem DigestValue.Sized.framable (h : value.Sized) {start : String}
    (hstart : start.toList.length ≤ 100) : Framable (formatDigest start value) := by
  apply framable_of_length
  have hlength := formatDigest_length start value
  unfold DigestValue.Sized at h
  omega

def Evidence.Sized (value : Evidence) : Prop := validateEvidence value = true ∧ value.digest.Sized

theorem writeEvidence_reads : Reads Evidence.Sized writeEvidence id := by
  intro a b x y ha hb heq
  simp only [writeEvidence, List.append_assoc] at heq
  obtain ⟨hleft, hlsize⟩ := ha
  obtain ⟨hright, hrsize⟩ := hb
  simp only [validateEvidence, Bool.and_eq_true] at hleft hright
  obtain ⟨hkind, heq⟩ := evidenceKind_reads trivial trivial heq
  obtain ⟨hversion, heq⟩ := writeHashFrame_reads (validVersion_framable hleft.1.2)
    (validVersion_framable hright.1.2) heq
  obtain ⟨hdigest, hrest⟩ := writeHashBytes_reads hlsize.fits hrsize.fits heq
  refine ⟨?_, hrest⟩
  rcases a with ⟨ai, ak, av, ⟨adi, ad⟩⟩
  rcases b with ⟨bi, bk, bv, ⟨bdi, bd⟩⟩
  simp_all

/-- The digests and generations of a binding have the sizes of their types. -/
structure ProviderBinding.Sized (value : ProviderBinding) : Prop where
  valid : validateProviderBinding value = true
  connectionGeneration : FitsInt64 value.connectionGeneration
  connectionEvidence : value.connectionEvidence.digest.Sized
  credentialGeneration : FitsInt64 value.credentialGeneration
  credentialEvidence : value.credentialEvidence.digest.Sized

theorem writeProviderBinding_reads :
    Reads (fun value => ∀ binding ∈ value, ProviderBinding.Sized binding) writeProviderBinding id := by
  refine optional_reads (fun value => writeHashFrame value.connectionID ++
      writeHashInt64 value.connectionGeneration ++
      writeHashFrame value.connectionResourceVersion ++ writeEvidence value.connectionEvidence ++
      writeHashFrame value.credentialReferenceID ++ writeHashInt64 value.credentialGeneration ++
      writeHashFrame value.credentialResourceVersion ++ writeEvidence value.credentialEvidence)
    rfl (fun value => by simp only [writeProviderBinding, List.append_assoc]) ?_
  intro a b x y ha hb heq
  have hleft := ha.valid
  have hright := hb.valid
  simp only [validateProviderBinding, evidenceHasKind, Bool.and_eq_true] at hleft hright
  simp only [List.append_assoc] at heq
  obtain ⟨hconnection, heq⟩ := writeHashFrame_reads (validID_framable hleft.1.1.1.1.1.1.1.1.1.2)
    (validID_framable hright.1.1.1.1.1.1.1.1.1.2) heq
  obtain ⟨hgeneration, heq⟩ :=
    writeHashInt64_reads ha.connectionGeneration hb.connectionGeneration heq
  obtain ⟨hversion, heq⟩ := writeHashFrame_reads (validVersion_framable hleft.1.1.1.1.1.2)
    (validVersion_framable hright.1.1.1.1.1.2) heq
  obtain ⟨hevidence, heq⟩ := writeEvidence_reads ⟨hleft.1.1.1.2.1, ha.connectionEvidence⟩
    ⟨hright.1.1.1.2.1, hb.connectionEvidence⟩ heq
  obtain ⟨hcredential, heq⟩ := writeHashFrame_reads (validID_framable hleft.1.1.1.1.1.1.1.1.2)
    (validID_framable hright.1.1.1.1.1.1.1.1.2) heq
  obtain ⟨hcgeneration, heq⟩ :=
    writeHashInt64_reads ha.credentialGeneration hb.credentialGeneration heq
  obtain ⟨hcversion, heq⟩ := writeHashFrame_reads (validVersion_framable hleft.1.1.1.1.2)
    (validVersion_framable hright.1.1.1.1.2) heq
  obtain ⟨hcevidence, hrest⟩ := writeEvidence_reads ⟨hleft.1.2.1, ha.credentialEvidence⟩
    ⟨hright.1.2.1, hb.credentialEvidence⟩ heq
  have hinitialized : a.initialized = b.initialized :=
    hleft.1.1.1.1.1.1.1.1.1.1.trans hright.1.1.1.1.1.1.1.1.1.1.symm
  refine ⟨?_, hrest⟩
  cases a
  cases b
  simp only [id_eq] at *
  simp only [ProviderBinding.mk.injEq]
  exact ⟨hinitialized, hconnection, hgeneration, hversion, hevidence, hcredential, hcgeneration,
    hcversion, hcevidence⟩

/-- At most as many effects as an operation may have, with digests of the size of their type. -/
def SizedEffects (values : List EffectKey) : Prop :=
  values.length ≤ maxEffectsPerOperation ∧ ∀ value ∈ values, value.digest.Sized

theorem writeEffects_reads :
    Reads SizedEffects writeEffects (List.map fun value : EffectKey => value.digest.digest) := by
  have hbytes : Reads (fun value : EffectKey => value.digest.Sized)
      (fun value => writeHashBytes value.digest.digest) (fun value => value.digest.digest) :=
    writeHashBytes_reads.field.mono fun _ h => DigestValue.Sized.fits h
  refine (writeHashUint64_reads.counted hbytes).mono ?_
  rintro values ⟨hcount, hsized⟩
  refine ⟨?_, hsized⟩
  unfold maxEffectsPerOperation at hcount
  unfold FitsUint64
  omega

/-! ## What the digest binds -/

/-- A plan without its lineage: its id, its revision, its predecessor and the digest itself. -/
def Plan.semantics (plan : Plan) : Plan :=
  { plan with id := "", revision := 0, supersedes := none, digest := .zero }

/-- What a reader of the hashed bytes of a plan relies on. -/
structure Plan.Readable (plan : Plan) : Prop where
  initialized : plan.initialized = true
  operationID : Framable plan.operationID
  workspaceID : Framable plan.workspaceID
  resourceID : Framable plan.resourceID
  environmentID : ∀ id ∈ plan.environmentID, Framable id
  connectionID : ∀ id ∈ plan.connectionID, Framable id
  generation : FitsInt64 plan.generation
  plannerVersion : Framable plan.plannerVersion
  desired : plan.desired.Sized
  observed : plan.observed.Sized
  actorFingerprint : Framable plan.actorFingerprint
  policyVersion : Framable plan.policyVersion
  authorizationInput : Framable plan.authorizationInput
  providerBinding : ∀ binding ∈ plan.providerBinding, binding.Sized
  capability : plan.capability.Sized
  quota : plan.quota.Sized
  cost : plan.cost.Sized
  completed : SizedEffects plan.completedEffects
  completedBelong : ∀ effect ∈ plan.completedEffects, effectBelongs plan effect = true
  compensates : SizedEffects plan.compensates
  compensatesBelong : ∀ effect ∈ plan.compensates, effectBelongs plan effect = true

theorem effects_eq_of_digests {left right : Plan} {l m : List EffectKey}
    (hoperation : left.operationID = right.operationID)
    (hworkspace : left.workspaceID = right.workspaceID)
    (hresource : left.resourceID = right.resourceID)
    (hgeneration : left.generation = right.generation)
    (hl : ∀ effect ∈ l, effectBelongs left effect = true)
    (hm : ∀ effect ∈ m, effectBelongs right effect = true)
    (h : l.map (fun effect => effect.digest.digest) = m.map fun effect => effect.digest.digest) :
    l = m := by
  induction l generalizing m with
  | nil =>
    rw [List.map_nil] at h
    exact (List.map_eq_nil_iff.mp h.symm).symm
  | cons a l ih =>
    cases m with
    | nil => cases h
    | cons b =>
      rw [List.map_cons, List.map_cons, List.cons.injEq] at h
      have ha := hl a List.mem_cons_self
      have hb := hm b List.mem_cons_self
      simp only [effectBelongs, Bool.and_eq_true, beq_iff_eq] at ha hb
      have hsame : a = b := by
        apply EffectKey.eq_of_digest ha.1.1.1.1 hb.1.1.1.1 _ h.1
        simp only [EffectKey.sameLineage, ha, hb, hoperation, hworkspace, hresource, hgeneration,
          beq_self_eq_true, Bool.and_self]
      rw [hsame, ih (fun effect he => hl effect (List.mem_cons_of_mem _ he))
        (fun effect he => hm effect (List.mem_cons_of_mem _ he)) h.2]

section Digests

variable [Sha256] {left right : Plan}

theorem Plan.Readable.semantics_eq (hsum : Function.Injective Sha256.sum) (hl : left.Readable)
    (hr : right.Readable) (h : derivePlanDigest left = derivePlanDigest right) :
    left.semantics = right.semantics := by
  have hcode := hsum (congrArg DigestValue.digest h)
  simp only [List.append_assoc, List.append_cancel_left_eq] at hcode
  obtain ⟨hkind, hcode⟩ := planKind_reads trivial trivial hcode
  obtain ⟨hoperation, hcode⟩ := writeHashFrame_reads hl.operationID hr.operationID hcode
  obtain ⟨hworkspace, hcode⟩ := writeHashFrame_reads hl.workspaceID hr.workspaceID hcode
  obtain ⟨hresource, hcode⟩ := writeHashFrame_reads hl.resourceID hr.resourceID hcode
  obtain ⟨henvironment, hcode⟩ := writeOptionalID_reads hl.environmentID hr.environmentID hcode
  obtain ⟨hconnection, hcode⟩ := writeOptionalID_reads hl.connectionID hr.connectionID hcode
  obtain ⟨hgeneration, hcode⟩ := writeHashInt64_reads hl.generation hr.generation hcode
  obtain ⟨hplanner, hcode⟩ := writeHashFrame_reads hl.plannerVersion hr.plannerVersion hcode
  obtain ⟨hdesired, hcode⟩ := writeEvidence_reads hl.desired hr.desired hcode
  obtain ⟨hobserved, hcode⟩ := writeEvidence_reads hl.observed hr.observed hcode
  obtain ⟨hactor, hcode⟩ := identityKind_reads trivial trivial hcode
  obtain ⟨hfingerprint, hcode⟩ :=
    writeHashFrame_reads hl.actorFingerprint hr.actorFingerprint hcode
  rw [List.append_cancel_left_eq] at hcode
  obtain ⟨hpolicy, hcode⟩ := writeHashFrame_reads hl.policyVersion hr.policyVersion hcode
  obtain ⟨hinput, hcode⟩ := writeHashFrame_reads hl.authorizationInput hr.authorizationInput hcode
  obtain ⟨hbinding, hcode⟩ :=
    writeProviderBinding_reads hl.providerBinding hr.providerBinding hcode
  obtain ⟨hcapability, hcode⟩ := writeEvidence_reads hl.capability hr.capability hcode
  obtain ⟨hquota, hcode⟩ := writeEvidence_reads hl.quota hr.quota hcode
  obtain ⟨hcost, hcode⟩ := writeEvidence_reads hl.cost hr.cost hcode
  obtain ⟨hcompleted, hcode⟩ := writeEffects_reads hl.completed hr.completed hcode
  have hcompensates := writeEffects_reads.view_eq hl.compensates hr.compensates hcode
  have hcompleted := effects_eq_of_digests hoperation hworkspace hresource hgeneration
    hl.completedBelong hr.completedBelong hcompleted
  have hcompensates := effects_eq_of_digests hoperation hworkspace hresource hgeneration
    hl.compensatesBelong hr.compensatesBelong hcompensates
  have hinitialized : left.initialized = right.initialized :=
    hl.initialized.trans hr.initialized.symm
  clear hcode
  simp only [Plan.semantics, Plan.mk.injEq, true_and, and_true]
  exact ⟨hinitialized, hkind, hoperation, hworkspace, hresource, henvironment, hconnection,
    hgeneration, hplanner, hdesired, hobserved, hactor, hfingerprint, hpolicy, hinput, hbinding,
    hcapability, hquota, hcost, hcompleted, hcompensates⟩

theorem derivePlanDigest_of_semantics (h : left.semantics = right.semantics) :
    derivePlanDigest left = derivePlanDigest right :=
  show derivePlanDigest left.semantics = derivePlanDigest right.semantics from
    congrArg derivePlanDigest h

end Digests

/-! ## Accepted inputs -/

/-- The digests that a plan takes over from its input. -/
def PlanInput.digests (input : PlanInput) : List DigestValue :=
  [input.desiredIntent.digest, input.observedSnapshot.digest, input.capability.digest,
      input.quota.digest, input.cost.digest, input.actor.fingerprint,
      input.authorization.inputDigest] ++
    input.providerBinding.toList.flatMap (fun binding =>
      [binding.connectionEvidence.digest, binding.credentialEvidence.digest]) ++
    (input.completedEffects ++ input.compensates).map EffectKey.digest

/-- The digests and generations of an input have the sizes of their types. -/
structure PlanInput.Sized (input : PlanInput) : Prop where
  digests : ∀ digest ∈ input.digests, digest.Sized
  generation : FitsInt64 input.operation.generation
  binding : ∀ binding ∈ input.providerBinding,
    FitsInt64 binding.connectionGeneration ∧ FitsInt64 binding.credentialGeneration

/-- What the two inputs agree in, whatever their ids, revisions and predecessors are and in
whatever order they list the effects. -/
structure SameSemantics (left right : PlanInput) : Prop where
  kind : left.kind = right.kind
  operation : left.operation.id = right.operation.id
  workspace : left.operation.workspaceID = right.operation.workspaceID
  resource : left.operation.resourceID = right.operation.resourceID
  environment : left.operation.environmentID = right.operation.environmentID
  connection : left.operation.providerConnectionID = right.operation.providerConnectionID
  generation : left.operation.generation = right.operation.generation
  plannerVersion : left.plannerVersion = right.plannerVersion
  desiredIntent : left.desiredIntent = right.desiredIntent
  observedSnapshot : left.observedSnapshot = right.observedSnapshot
  actorKind : left.actor.kind = right.actor.kind
  actorFingerprint : left.actor.fingerprint = right.actor.fingerprint
  policyVersion : left.authorization.policyVersion = right.authorization.policyVersion
  authorizationInput : left.authorization.inputDigest = right.authorization.inputDigest
  providerBinding : left.providerBinding = right.providerBinding
  capability : left.capability = right.capability
  quota : left.quota = right.quota
  cost : left.cost = right.cost
  completedEffects : ∀ effect, effect ∈ left.completedEffects ↔ effect ∈ right.completedEffects
  compensates : ∀ effect, effect ∈ left.compensates ↔ effect ∈ right.compensates

theorem validPlanBinding_framable (h : validPlanBinding plan = true) :
    (∀ id ∈ plan.environmentID, Framable id) ∧ (∀ id ∈ plan.connectionID, Framable id) ∧
      ∀ binding ∈ plan.providerBinding, validateProviderBinding binding = true := by
  unfold validPlanBinding at h
  split at h
  next henvironment hconnection hbinding => simp [henvironment, hconnection, hbinding]
  next environment connection binding henvironment hconnection hbinding =>
    simp only [Bool.and_eq_true] at h
    simp only [henvironment, hconnection, hbinding, Option.mem_some_iff, forall_eq']
    exact ⟨validID_framable h.1.1.1, validID_framable h.1.1.2, h.1.2⟩
  next => cases h

/-- The printed form of a digest that is not initialized is no digest. -/
theorem parsesAs_initialized {start : String} (hstart : parsesAs start (start ++ "invalid") = false)
    (h : parsesAs start (formatDigest start value) = true) : value.initialized = true := by
  by_contra hvalue
  rw [formatDigest, if_neg hvalue, hstart] at h
  cases h

theorem identityKind_injective {left right : Identity.Kind} {kind : IdentityKind}
    (hl : identityKind left = some kind) (hr : identityKind right = some kind) : left = right := by
  cases left <;> cases right <;> first | rfl | (cases hl <;> cases hr)

theorem canonical_ext {left right : Plan} {l m : List EffectKey}
    (hl : validCanonicalEffects l left = true) (hm : validCanonicalEffects m right = true)
    (h : ∀ effect, effect ∈ l ↔ effect ∈ m) : l = m := by
  have hperm : l.Perm m :=
    (List.perm_ext_iff_of_nodup (validCanonicalEffects_nodup hl) (validCanonicalEffects_nodup hm)).mpr h
  refine List.Perm.eq_of_pairwise ?_ (validCanonicalEffects_sorted hl)
    (validCanonicalEffects_sorted hm) hperm
  intro a b _ _ hab hba
  exact absurd (hab.trans hba) (lt_irrefl _)

theorem validPlan_canonical [Sha256] (h : validatePlan plan = true) :
    validCanonicalEffects plan.completedEffects plan = true ∧
      validCanonicalEffects plan.compensates plan = true := by
  simp only [validatePlan, validPlanEffects, Bool.and_eq_true] at h
  exact ⟨h.1.2.1.1.2, h.1.2.1.2⟩

theorem validPlan_sealed [Sha256] (h : validatePlan plan = true) : plan.digest.initialized = true := by
  simp only [validatePlan, Bool.and_eq_true] at h
  exact (equalDigest_iff.mp h.2).1

/-- `SelectPlan` looks at nothing but the digests when it reuses a plan. -/
theorem selectPlan_reuse_iff [Sha256] {atomics : Atomics} {current candidate : Plan}
    {attempts : List Attempt} {effects : List EffectProjection} {fresh : Bool}
    {proofs : List CompensationProof} (hcurrent : validatePlan current = true)
    (hcandidate : validatePlan candidate = true)
    (hlineage : current.digest = candidate.digest →
      current.operationID = candidate.operationID ∧ current.workspaceID = candidate.workspaceID ∧
        current.resourceID = candidate.resourceID ∧ current.generation = candidate.generation) :
    (∃ answer, (selectPlan atomics current candidate attempts effects fresh proofs).2 =
      .ok answer ∧ answer.2.1 = .reuse) ↔ current.digest = candidate.digest := by
  constructor
  · rintro ⟨⟨plan, selection, authority⟩, hanswer, rfl⟩
    have hdraft : ∃ authority, selectPlanDraft current candidate attempts effects fresh proofs =
        .ok (plan, .reuse, authority) := by
      unfold selectPlan at hanswer
      split at hanswer
      · cases hanswer
      · next hdraft =>
        cases hanswer
        exact ⟨_, hdraft⟩
      · next hdraft =>
        cases hanswer
        exact ⟨_, hdraft⟩
    obtain ⟨authority, hdraft⟩ := hdraft
    revert hdraft
    fun_cases selectPlanDraft current candidate attempts effects fresh proofs
    case case2 hequal =>
      intro _
      exact (equalDigest_iff.mp hequal).2
    all_goals simp
  · intro hdigest
    obtain ⟨hoperation, hworkspace, hresource, hgeneration⟩ := hlineage hdigest
    have hequal : equalDigest current.digest candidate.digest = true :=
      equalDigest_iff.mpr ⟨validPlan_sealed hcurrent, hdigest⟩
    have hdraft : selectPlanDraft current candidate attempts effects fresh proofs =
        .ok (current, .reuse, none) := by
      unfold selectPlanDraft
      rw [if_neg (by simp [hcurrent, hcandidate, hoperation, hworkspace, hresource, hgeneration]),
        if_pos hequal]
    refine ⟨(current, .reuse, none), ?_, rfl⟩
    unfold selectPlan
    rw [hdraft]

section Accepted

variable [Sha256] [URLParser] {input : PlanInput} {plan : Plan} {actorKind : IdentityKind}
  {completed compensates : List EffectKey}

theorem Planned.readable (h : Planned input plan actorKind completed compensates)
    (hsized : input.Sized) : plan.Readable := by
  have hvalid := h.valid
  have hplan := h.same
  simp only [validatePlan, validPlanEffects, evidenceHasKind, Bool.and_eq_true] at hvalid
  obtain ⟨⟨⟨⟨⟨⟨⟨⟨⟨⟨⟨⟨⟨⟨⟨⟨⟨⟨⟨⟨⟨hinit, -⟩, -⟩, hoperation⟩, hworkspace⟩, hresource⟩, -⟩, hplanner⟩, -⟩, hpolicy⟩, -⟩,
    hinput⟩, -⟩, hdesired⟩, hobserved⟩, hcapability⟩, hquota⟩, hcost⟩, hbinding⟩, -⟩, heffects⟩, -⟩ :=
    hvalid
  obtain ⟨⟨⟨-, hcompleted⟩, hcompensates⟩, -⟩ := heffects
  obtain ⟨henvironment, hconnection, hbindings⟩ := validPlanBinding_framable hbinding
  obtain ⟨hcperm, hccount⟩ := canonicalEffectSet_ok h.completedSet
  obtain ⟨hiperm, hicount⟩ := canonicalEffectSet_ok h.compensatedSet
  have hdigest := hsized.digests
  simp only [PlanInput.digests, List.mem_append, List.mem_map, List.mem_flatMap,
    Option.mem_toList, or_imp, forall_and] at hdigest
  obtain ⟨⟨hfixed, hbound⟩, hkeys⟩ := hdigest
  simp only [List.forall_mem_cons] at hfixed
  obtain ⟨hsdesired, hsobserved, hscapability, hsquota, hscost, hsactor, hsinput, -⟩ := hfixed
  subst hplan
  exact
    { initialized := hinit
      operationID := validID_framable hoperation
      workspaceID := validID_framable hworkspace
      resourceID := validID_framable hresource
      environmentID := henvironment
      connectionID := hconnection
      generation := hsized.generation
      plannerVersion := validVersion_framable hplanner
      desired := ⟨hdesired.1, hsdesired⟩
      observed := ⟨hobserved.1, hsobserved⟩
      actorFingerprint := hsactor.framable (by decide)
      policyVersion := validVersion_framable hpolicy
      authorizationInput := hsinput.framable (by decide)
      providerBinding := fun binding hmem =>
        { valid := hbindings binding hmem
          connectionGeneration := (hsized.binding binding hmem).1
          connectionEvidence := hbound _ ⟨binding, hmem, by simp⟩
          credentialGeneration := (hsized.binding binding hmem).2
          credentialEvidence := hbound _ ⟨binding, hmem, by simp⟩ }
      capability := ⟨hcapability.1, hscapability⟩
      quota := ⟨hquota.1, hsquota⟩
      cost := ⟨hcost.1, hscost⟩
      completed := ⟨hcperm.length_eq.trans_le hccount, fun effect hmem =>
        hkeys _ ⟨effect, .inl (hcperm.mem_iff.mp hmem), rfl⟩⟩
      completedBelong := validCanonicalEffects_belongs hcompleted
      compensates := ⟨hiperm.length_eq.trans_le hicount, fun effect hmem =>
        hkeys _ ⟨effect, .inr (hiperm.mem_iff.mp hmem), rfl⟩⟩
      compensatesBelong := validCanonicalEffects_belongs hcompensates }

theorem Planned.initialized (h : Planned input plan actorKind completed compensates) :
    input.actor.fingerprint.initialized = true ∧
      input.authorization.policyVersion.initialized = true ∧
      input.authorization.inputDigest.initialized = true := by
  have hbasis := h.basis
  simp only [validPlanBasis, validateDecision, Authorization.validateDecisionFields,
    Bool.and_eq_true] at hbasis
  have hprincipal := hbasis.1.1.1.1.1.1.1.2
  have hdecision := hbasis.1.1.1.1.1.1.2
  refine ⟨?_, parsesAs_initialized (by decide +kernel) hdecision.1.1.1.2,
    parsesAs_initialized (by decide +kernel) hdecision.1.1.2⟩
  have hlogical := Identity.validatePrincipal_logical hprincipal
  have hprint := Identity.validateLogicalIdentity_fingerprint hlogical
  exact (congrArg DigestValue.initialized hprint).trans rfl

variable {other : PlanInput} {otherPlan : Plan} {otherKind : IdentityKind}
  {otherCompleted otherCompensates : List EffectKey}

theorem Planned.digest_iff (hsum : Function.Injective Sha256.sum)
    (hl : Planned input plan actorKind completed compensates)
    (hr : Planned other otherPlan otherKind otherCompleted otherCompensates)
    (hsl : input.Sized) (hsr : other.Sized) :
    plan.digest = otherPlan.digest ↔ SameSemantics input other := by
  have hlsets := validPlan_canonical hl.valid
  have hrsets := validPlan_canonical hr.valid
  have hlperm := (canonicalEffectSet_ok hl.completedSet).1
  have hrperm := (canonicalEffectSet_ok hr.completedSet).1
  have hliperm := (canonicalEffectSet_ok hl.compensatedSet).1
  have hriperm := (canonicalEffectSet_ok hr.compensatedSet).1
  have hlkind := hl.kind
  have hrkind := hr.kind
  obtain ⟨hlactor, hlpolicy, hlinput⟩ := hl.initialized
  obtain ⟨hractor, hrpolicy, hrinput⟩ := hr.initialized
  have hlread := hl.readable hsl
  have hrread := hr.readable hsr
  obtain rfl := hl.same
  obtain rfl := hr.same
  constructor
  · intro hdigest
    have hsame := hlread.semantics_eq hsum hrread hdigest
    simp only [Plan.semantics, Plan.sealed, planOf, Plan.mk.injEq, true_and, and_true] at hsame
    obtain ⟨hkind, hoperation, hworkspace, hresource, henvironment, hconnection, hgeneration,
      hplanner, hdesired, hobserved, hactor, hprint, hpolicy, hinput, hbinding, hcapability, hquota,
      hcost, rfl, rfl⟩ := hsame
    exact
      { kind := hkind
        operation := hoperation
        workspace := hworkspace
        resource := hresource
        environment := henvironment
        connection := hconnection
        generation := hgeneration
        plannerVersion := hplanner
        desiredIntent := hdesired
        observedSnapshot := hobserved
        actorKind := identityKind_injective hlkind (hactor ▸ hrkind)
        actorFingerprint := formatDigest_injective hlactor hractor hprint
        policyVersion := formatDigest_injective hlpolicy hrpolicy hpolicy
        authorizationInput := formatDigest_injective hlinput hrinput hinput
        providerBinding := hbinding
        capability := hcapability
        quota := hquota
        cost := hcost
        completedEffects := fun effect => hlperm.mem_iff.symm.trans hrperm.mem_iff
        compensates := fun effect => hliperm.mem_iff.symm.trans hriperm.mem_iff }
  · intro hsame
    have hcompleted : completed = otherCompleted := by
      apply canonical_ext hlsets.1 hrsets.1
      intro effect
      exact (hlperm.mem_iff.trans (hsame.completedEffects effect)).trans hrperm.mem_iff.symm
    have hcompensates : compensates = otherCompensates := by
      apply canonical_ext hlsets.2 hrsets.2
      intro effect
      exact (hliperm.mem_iff.trans (hsame.compensates effect)).trans hriperm.mem_iff.symm
    have hactor : actorKind = otherKind := by
      rw [hsame.actorKind, hrkind] at hlkind
      exact (Option.some.inj hlkind).symm
    apply derivePlanDigest_of_semantics
    simp only [Plan.semantics, planOf, hcompleted, hcompensates, hactor, hsame.kind,
      hsame.operation, hsame.workspace, hsame.resource, hsame.environment, hsame.connection,
      hsame.generation, hsame.plannerVersion, hsame.desiredIntent, hsame.observedSnapshot,
      hsame.actorFingerprint, hsame.policyVersion, hsame.authorizationInput, hsame.providerBinding,
      hsame.capability, hsame.quota, hsame.cost]

/-- Two accepted inputs get one digest exactly when they have the same semantics, and then, only
then, `SelectPlan` answers that the plan of the first is to be used again. -/
theorem newPlan_digest_identifies (hsum : Function.Injective Sha256.sum)
    (hl : newPlan input = .ok plan) (hr : newPlan other = .ok otherPlan) (hsl : input.Sized)
    (hsr : other.Sized) :
    (plan.digest = otherPlan.digest ↔ SameSemantics input other) ∧
      ∀ (atomics : Atomics) (attempts : List Attempt) (effects : List EffectProjection)
        (fresh : Bool) (proofs : List CompensationProof),
        (∃ answer, (selectPlan atomics plan otherPlan attempts effects fresh proofs).2 =
          .ok answer ∧ answer.2.1 = .reuse) ↔ SameSemantics input other := by
  obtain ⟨_, _, _, hl⟩ := newPlan_ok hl
  obtain ⟨_, _, _, hr⟩ := newPlan_ok hr
  have hdigest := hl.digest_iff hsum hr hsl hsr
  refine ⟨hdigest, ?_⟩
  intro atomics attempts effects fresh proofs
  rw [← hdigest]
  apply selectPlan_reuse_iff hl.valid hr.valid
  intro heq
  have hsame := hdigest.mp heq
  rw [hl.same, hr.same]
  exact ⟨hsame.operation, hsame.workspace, hsame.resource, hsame.generation⟩

end Accepted

/-- A second revision that lists the effects completed so far. -/
def samplePlanInput (effects : List EffectKey) : PlanInput where
  id := "plan-00000000001"
  revision := 2
  kind := .forward
  operation :=
    { id := "operation-000000"
      workspaceID := "workspace-000000"
      resourceID := "resource-0000000"
      environmentID := none
      providerConnectionID := none
      generation := 1
      resourceVersion := "v1"
      phase := .running
      reason := ""
      message := ""
      costEstimate := none
      createdAt := "2026-01-01T00:00:00.000Z"
      updatedAt := "2026-01-01T00:00:00.000Z" }
  plannerVersion := "v1"
  desiredIntent := sampleEvidence .desiredIntent "v1"
  observedSnapshot := sampleEvidence .observedSnapshot "v1"
  actor :=
    ⟨.human, ⟨Identity.sampleIssuer, "subject",
      @Identity.deriveFingerprint plainSha256 Identity.sampleIssuer "subject"⟩, ["audience"], [], none⟩
  authorization := ⟨true, ⟨true, List.replicate 32 0⟩, ⟨true, List.replicate 32 0⟩, .allow,
    .roleGranted⟩
  providerBinding := none
  capability := sampleEvidence .capability "v1"
  quota := sampleEvidence .quota "v1"
  cost := sampleEvidence .cost "v1"
  supersedes := some ⟨true, []⟩
  completedEffects := effects
  compensates := []

def otherEffect : EffectKey := { sampleEffect with digest := ⟨true, [2]⟩ }

theorem samplePlanInput_sized {effects : List EffectKey}
    (h : effects ⊆ [sampleEffect, otherEffect]) : (samplePlanInput effects).Sized where
  generation := by
    change -2 ^ 63 ≤ (1 : Int) ∧ (1 : Int) < 2 ^ 63
    omega
  binding := by simp [samplePlanInput]
  digests := by
    have hall : ∀ digest ∈ (samplePlanInput [sampleEffect, otherEffect]).digests, digest.Sized := by
      unfold DigestValue.Sized
      decide +kernel
    intro digest hmem
    apply hall
    simp only [PlanInput.digests, List.mem_append, List.mem_map] at hmem ⊢
    rcases hmem with hmem | ⟨effect, hmem, rfl⟩
    · exact .inl hmem
    · exact .inr ⟨effect, hmem.imp (fun hmem => h hmem) id, rfl⟩

attribute [local instance] plainSha256 Identity.plainURLParser

/-- Every list of the two effects is accepted that sorts to the same one. -/
theorem samplePlanInput_accepted (effects : List EffectKey)
    (h : (canonicalEffectSet effects (samplePlanInput []).operation).toOption =
      some [sampleEffect, otherEffect]) :
    ∃ plan, newPlan (samplePlanInput effects) = .ok plan := by
  have hbasis : validPlanBasis (samplePlanInput []) = true := by decide +kernel
  have hvalid : validatePlan (Plan.sealed (planOf (samplePlanInput []) .human
      [sampleEffect, otherEffect] [])) = true := by
    decide +kernel
  have hcompleted : canonicalEffectSet effects (samplePlanInput []).operation =
      .ok [sampleEffect, otherEffect] := by
    revert h
    cases canonicalEffectSet effects (samplePlanInput []).operation with
    | error => exact nofun
    | ok => exact fun h => congrArg Except.ok (Option.some.inj h)
  have hplan : planOf (samplePlanInput effects) .human [sampleEffect, otherEffect] [] =
      planOf (samplePlanInput []) .human [sampleEffect, otherEffect] [] := rfl
  exact ⟨_, @newPlan_accepts _ _ (samplePlanInput effects) .human _ [] hbasis rfl hcompleted rfl rfl
    rfl rfl (by rw [hplan, hvalid])⟩

/-- The order in which the effects are listed leaves the digest as it is. -/
theorem newPlan_digest_identifies_reordered :
    ∃ first second,
      newPlan (samplePlanInput [sampleEffect, otherEffect]) = .ok first ∧
      newPlan (samplePlanInput [otherEffect, sampleEffect]) = .ok second ∧
        first.digest = second.digest := by
  obtain ⟨first, hfirst⟩ :=
    samplePlanInput_accepted [sampleEffect, otherEffect] (by decide +kernel)
  obtain ⟨second, hsecond⟩ :=
    samplePlanInput_accepted [otherEffect, sampleEffect] (by decide +kernel)
  refine ⟨first, second, hfirst, hsecond, ?_⟩
  have hiff := (newPlan_digest_identifies (fun _ _ h => h) hfirst hsecond
    (samplePlanInput_sized (by simp)) (samplePlanInput_sized (by simp))).1
  apply hiff.mpr
  constructor <;> first | rfl | (intro effect; simp [samplePlanInput, or_comm])

end Veer.Reconcile
