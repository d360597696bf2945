import Veer.HashFrames
import Veer.PolicyAcceptance

/-!
# What a policy version identifies

The version of a policy set is the digest of its members and bindings in frames. The order in which
members and policies are given does not matter to it, and the frames can be read back: two sets
with one version have the same members and bindings, and so decide every input alike.
-/
namespace Veer.Identity

theorem Kind.string_injective : Function.Injective Kind.string := by
  intro left right h
  cases left <;> cases right <;> first | rfl | (revert h; decide)

theorem Kind.string_framable (kind : Kind) : Reconcile.Framable kind.string := by
  cases kind <;> (unfold Reconcile.Framable Reconcile.FitsUint64; decide)

end Veer.Identity

namespace Veer.Authorization
open Reconcile (ID validID validID_framable Sha256 FitsUint64 Framable utf8 uint64Bytes uint64Bytes_reads
  writeHashFrame writeHashFrame_reads)
open Hierarchy (Record Snapshot)
open Identity (URLParser)
open PrefixCode (Reads)

/-! ## Reading the frames of a version back -/

theorem Role.string_injective : Function.Injective Role.string := by
  intro left right h
  cases left <;> cases right <;> first | rfl | (revert h; decide)

theorem ScopeKind.string_injective : Function.Injective ScopeKind.string := by
  intro left right h
  cases left <;> cases right <;> first | rfl | (revert h; decide)

theorem Role.string_framable (role : Role) : Framable role.string := by
  cases role <;> (unfold Framable FitsUint64; decide)

theorem ScopeKind.string_framable (kind : ScopeKind) : Framable kind.string := by
  cases kind <;> (unfold Framable FitsUint64; decide)

section
variable [Sha256] [URLParser] {member : MemberRecord}

theorem validateLogicalIdentity_framable {logical : Identity.LogicalIdentity}
    (h : (Identity.validateLogicalIdentity logical).isOk = true) :
    Framable logical.issuer ∧ Framable logical.subject := by
  unfold Identity.validateLogicalIdentity at h
  split_ifs at h with hissuer hsubject hprint
  · cases h
  · cases h
  · cases h
  simp only [Identity.validateIssuer, Identity.validateClaim, Identity.validateSubject,
    Bool.not_eq_true', Bool.not_eq_false, Bool.and_eq_true] at hissuer hsubject
  obtain ⟨⟨⟨⟨⟨-, hissuer⟩, -⟩, -⟩, -⟩, -⟩ := hissuer
  obtain ⟨⟨⟨-, hsubject⟩, -⟩, -⟩ := hsubject
  have hissuer := of_decide_eq_true hissuer
  have hsubject := of_decide_eq_true hsubject
  unfold Identity.maxIssuerBytes at hissuer
  unfold Identity.maxSubjectBytes at hsubject
  unfold Framable FitsUint64
  omega

/-- A member whose frames determine it among the members of its Workspace. -/
structure MemberRecord.Readable (workspaceID : ID) (member : MemberRecord) : Prop where
  initialized : member.initialized = true
  owned : member.workspaceID = workspaceID
  id : validID member.id = true
  logical : (Identity.validateLogicalIdentity member.logicalIdentity).isOk = true

theorem MemberDirectory.Indexed.readable {directory : MemberDirectory} (h : directory.Indexed) :
    ∀ member ∈ directory.ordered, member.Readable directory.workspaceID := by
  intro member hmember
  have hvalid := h.valid member hmember
  simp only [validateMemberRecord, Bool.and_eq_true] at hvalid
  obtain ⟨⟨⟨⟨hinit, hid⟩, -⟩, -⟩, hlogical⟩ := hvalid
  exact ⟨hinit, h.owned member hmember, hid, hlogical⟩

theorem writeMember_reads (workspaceID : ID) :
    Reads (MemberRecord.Readable workspaceID) writeMember id := by
  intro left right x y hl hr heq
  have hframes := validateLogicalIdentity_framable hl.logical
  have hframes' := validateLogicalIdentity_framable hr.logical
  simp only [writeMember, List.append_assoc] at heq
  obtain ⟨hid, heq⟩ := writeHashFrame_reads (validID_framable hl.id) (validID_framable hr.id) heq
  obtain ⟨hkind, heq⟩ := writeHashFrame_reads (Identity.Kind.string_framable _)
    (Identity.Kind.string_framable _) heq
  obtain ⟨hissuer, heq⟩ := writeHashFrame_reads hframes.1 hframes'.1 heq
  obtain ⟨hsubject, heq⟩ := writeHashFrame_reads hframes.2 hframes'.2 heq
  refine ⟨equalMemberRecord_eq ?_, heq⟩
  simp only [id_eq] at hid hkind hissuer hsubject
  simp [equalMemberRecord, Identity.equalLogicalIdentity, hl.initialized, hr.initialized,
    hl.owned, hr.owned, hl.logical, hr.logical, hid,
    Identity.Kind.string_injective hkind, hissuer, hsubject]

end

/-! ### Bindings and policies -/

variable {binding : RoleBinding}

theorem validateRoleBinding_memberID (h : validateRoleBinding binding = .ok ()) :
    validID binding.memberID = true := by
  unfold validateRoleBinding at h
  split at h
  · cases h
  · rename_i hid
    simpa using hid

theorem validateRoleBinding_scope (h : validateRoleBinding binding = .ok ()) :
    (binding.scope.kind = .workspace ∧ binding.scope.environmentID = none) ∨
      binding.scope.kind = .environment ∧
        ∃ id, binding.scope.environmentID = some id ∧ validID id = true := by
  unfold validateRoleBinding at h
  split at h
  · cases h
  split at h
  · cases h
  · exact Or.inl ⟨by assumption, by assumption⟩
  · cases h
  rename_i id hkind hid
  refine Or.inr ⟨hkind, id, hid, ?_⟩
  split at h
  · cases h
  · rename_i hvalid
    simpa using hvalid

theorem scopeEnvironment_framable (h : validateRoleBinding binding = .ok ()) :
    Framable (scopeEnvironment binding.scope) := by
  rcases validateRoleBinding_scope h with ⟨-, hid⟩ | ⟨-, id, hid, hvalid⟩
  · rw [scopeEnvironment, hid]
    unfold Framable FitsUint64
    decide
  · rw [scopeEnvironment, hid]
    exact validID_framable hvalid

/-- The kind of a scope tells an absent Environment from a named one. -/
theorem scope_eq_of_frames {left right : RoleBinding} (hl : validateRoleBinding left = .ok ())
    (hr : validateRoleBinding right = .ok ()) (hkind : left.scope.kind = right.scope.kind)
    (henvironment : scopeEnvironment left.scope = scopeEnvironment right.scope) :
    left.scope = right.scope := by
  have hsame : left.scope.environmentID = right.scope.environmentID := by
    rcases validateRoleBinding_scope hl with ⟨hk, hid⟩ | ⟨hk, id, hid, -⟩ <;>
      rcases validateRoleBinding_scope hr with ⟨hk', hid'⟩ | ⟨hk', id', hid', -⟩
    · rw [hid, hid']
    · rw [hkind, hk'] at hk
      cases hk
    · rw [hkind, hk'] at hk
      cases hk
    · rw [scopeEnvironment, scopeEnvironment, hid, hid'] at henvironment
      rw [hid, hid']
      exact congrArg some henvironment
  exact (Scope.mk.injEq ..).mpr ⟨hkind, hsame⟩

theorem writeBinding_reads :
    Reads (fun binding => validateRoleBinding binding = .ok ()) writeBinding id := by
  intro left right x y hl hr heq
  simp only [writeBinding, List.append_assoc] at heq
  obtain ⟨hmember, heq⟩ := writeHashFrame_reads (validID_framable (validateRoleBinding_memberID hl))
    (validID_framable (validateRoleBinding_memberID hr)) heq
  obtain ⟨hrole, heq⟩ := writeHashFrame_reads (Role.string_framable _) (Role.string_framable _) heq
  obtain ⟨hkind, heq⟩ := writeHashFrame_reads (ScopeKind.string_framable _)
    (ScopeKind.string_framable _) heq
  obtain ⟨henvironment, heq⟩ := writeHashFrame_reads (scopeEnvironment_framable hl)
    (scopeEnvironment_framable hr) heq
  have hscope := scope_eq_of_frames hl hr (ScopeKind.string_injective hkind) henvironment
  exact ⟨(RoleBinding.mk.injEq ..).mpr ⟨hmember, Role.string_injective hrole, hscope⟩, heq⟩

structure PolicyRevision.Readable (policy : PolicyRevision) : Prop where
  id : validID policy.record.id = true
  spec : validatePolicySpec policy.spec = .ok ()

theorem bindings_fit {n : Nat} (h : n ≤ maxBindingsPerPolicy) : FitsUint64 n := by
  unfold maxBindingsPerPolicy at h
  unfold FitsUint64
  omega

theorem writePolicy_reads :
    Reads PolicyRevision.Readable writePolicy (fun policy => policy.spec.list) := by
  intro left right x y hl hr heq
  obtain ⟨hcount, hbindings⟩ := validatePolicySpec_bindings hl.spec
  obtain ⟨hcount', hbindings'⟩ := validatePolicySpec_bindings hr.spec
  simp only [writePolicy, List.append_assoc] at heq
  obtain ⟨-, heq⟩ := writeHashFrame_reads (validID_framable hl.id) (validID_framable hr.id) heq
  obtain ⟨-, heq⟩ := List.append_inj heq (by rw [Reconcile.uint64Bytes_length,
    Reconcile.uint64Bytes_length])
  obtain ⟨hlength, heq⟩ := uint64Bytes_reads (bindings_fit hcount)
    (bindings_fit hcount') heq
  obtain ⟨hlist, heq⟩ := writeBinding_reads.flatMap hlength hbindings hbindings' heq
  rw [List.map_id, List.map_id] at hlist
  exact ⟨hlist, heq⟩

/-! ## Sets with one version -/

theorem lookup_validID {snapshot : Snapshot} {id : ID} {record : Record}
    (h : snapshot.lookup id = .ok record) : validID id = true := by
  unfold Snapshot.lookup at h
  split_ifs at h with hinit hid
  simpa using hid

theorem sortPolicies_fit {policies : List PolicyRevision} (h : policies.length ≤ maxPolicies) :
    FitsUint64 (sortPolicies policies).length := by
  rw [sortPolicies, (List.perm_insertionSort _ policies).length_eq]
  unfold maxPolicies at h
  unfold FitsUint64
  omega

theorem compilePolicyBindings_congr {policies policies' : List PolicyRevision}
    (h : policies'.map (fun policy => policy.spec.list) =
      policies.map fun policy => policy.spec.list) :
    compilePolicyBindings policies' = compilePolicyBindings policies := by
  have hfold : ∀ policies : List PolicyRevision, compilePolicyBindings policies =
      (policies.map fun policy => policy.spec.list).foldl (List.foldl compileBinding) ∅ := by
    intro policies
    rw [List.foldl_map]
    rfl
  rw [hfold, hfold, h]

section
variable [Sha256] [URLParser] {snapshot snapshot' : Snapshot}
  {directory directory' : MemberDirectory} {policies policies' : List PolicyRevision}
  {set set' : PolicySet} {input : Input}

theorem validatePolicyRevision_readable {policy : PolicyRevision}
    (h : validatePolicyRevision policy snapshot directory = .ok ()) : policy.Readable := by
  have hspec := validatePolicyReferences_spec (validatePolicyRevision_references h)
  refine ⟨?_, hspec⟩
  revert h
  fun_cases validatePolicyRevision policy snapshot directory
  all_goals first | (intro h; cases h; done) | (intro; exact lookup_validID (by assumption))

theorem sortPolicies_readable (h : Acceptable snapshot directory policies) :
    ∀ policy ∈ sortPolicies policies, policy.Readable := by
  intro policy hpolicy
  have hmem := (List.perm_insertionSort _ policies).mem_iff.mp hpolicy
  exact validatePolicyRevision_readable (h.valid policy hmem)

theorem rows_fit (h : validateMemberDirectory directory = true) :
    validID directory.workspaceID = true ∧ FitsUint64 directory.ordered.length := by
  simp only [validateMemberDirectory, Bool.and_eq_true, decide_eq_true_eq] at h
  obtain ⟨⟨⟨⟨⟨⟨-, hid⟩, -⟩, -⟩, hcount⟩, -⟩, -⟩ := h
  refine ⟨hid, ?_⟩
  unfold maxMembers at hcount
  unfold FitsUint64
  omega

/-- The version of accepted policies determines the Workspace, the members and the bindings. -/
theorem derivePolicyVersion_reads (hsum : Function.Injective Sha256.sum)
    (h : Acceptable snapshot directory policies) (h' : Acceptable snapshot' directory' policies')
    (hversion : derivePolicyVersion directory (sortPolicies policies) =
      derivePolicyVersion directory' (sortPolicies policies')) :
    directory'.workspaceID = directory.workspaceID ∧ directory'.ordered = directory.ordered ∧
      (sortPolicies policies').map (fun policy => policy.spec.list) =
        (sortPolicies policies).map fun policy => policy.spec.list := by
  have heq := hsum (congrArg Reconcile.DigestValue.digest hversion)
  simp only [List.append_assoc] at heq
  have heq := List.append_cancel_left (List.append_cancel_left heq)
  obtain ⟨hid, hrows⟩ := rows_fit h.members
  obtain ⟨hid', hrows'⟩ := rows_fit h'.members
  have hmembers := (validateMemberDirectory_indexed h.members).readable
  have hmembers' := (validateMemberDirectory_indexed h'.members).readable
  obtain ⟨hworkspace, heq⟩ := writeHashFrame_reads (validID_framable hid) (validID_framable hid') heq
  rw [← show directory.workspaceID = directory'.workspaceID from hworkspace] at hmembers'
  obtain ⟨hlength, heq⟩ := uint64Bytes_reads hrows hrows' heq
  obtain ⟨hordered, heq⟩ := (writeMember_reads _).flatMap hlength hmembers hmembers' heq
  obtain ⟨hcount, heq⟩ := uint64Bytes_reads (sortPolicies_fit h.count) (sortPolicies_fit h'.count) heq
  obtain ⟨hpolicies, -⟩ := writePolicy_reads.flatMap (x := []) (y := []) hcount
    (sortPolicies_readable h) (sortPolicies_readable h') (by simpa using heq)
  rw [List.map_id, List.map_id] at hordered
  exact ⟨hworkspace.symm, hordered.symm, hpolicies.symm⟩

theorem find_congr (h : validateMemberDirectory directory = true)
    (h' : validateMemberDirectory directory' = true)
    (hordered : directory'.ordered = directory.ordered) (hinput : validateInput input = .ok ()) :
    directory'.find input.principal = directory.find input.principal := by
  have hlogical := validateInput_principal hinput
  apply Option.ext
  intro member
  rw [MemberDirectory.find_eq_some_iff (validateMemberDirectory_indexed h) hlogical,
    MemberDirectory.find_eq_some_iff (validateMemberDirectory_indexed h') hlogical,
    MemberDirectory.Has, MemberDirectory.Has, hordered]

theorem outcome_of_version (hsum : Function.Injective Sha256.sum)
    (h : newPolicySet snapshot directory policies = .ok set)
    (h' : newPolicySet snapshot' directory' policies' = .ok set') (hversion : set.version = set'.version)
    (hinput : validateInput input = .ok ()) : set'.outcome input = set.outcome input := by
  obtain ⟨hset, rfl⟩ := newPolicySet_acceptable h
  obtain ⟨hset', rfl⟩ := newPolicySet_acceptable h'
  obtain ⟨hworkspace, hordered, hpolicies⟩ := derivePolicyVersion_reads hsum hset hset' hversion
  have hfind := find_congr hset.members hset'.members hordered hinput
  have hbindings := compilePolicyBindings_congr hpolicies
  rw [hset.workspace, hset'.workspace] at hworkspace
  unfold PolicySet.outcome compilePolicySet
  simp only [hworkspace, hfind, hbindings]

theorem version_of_order {workspaceID : ID} {members members' : List MemberRecord}
    (hdirectory : newMemberDirectory workspaceID members = .ok directory)
    (h : newPolicySet snapshot directory policies = .ok set) (hmembers : members.Perm members')
    (hpolicies : policies.Perm policies') :
    ∃ directory' set', newMemberDirectory workspaceID members' = .ok directory' ∧
      newPolicySet snapshot directory' policies' = .ok set' ∧ set'.version = set.version := by
  obtain ⟨hadmissible, hvalid, hworkspace, hordered⟩ := newMemberDirectory_ok hdirectory
  obtain ⟨directory', hdirectory'⟩ := (hadmissible.perm hmembers).newMemberDirectory_ok
  obtain ⟨-, hvalid', hworkspace', hordered'⟩ := newMemberDirectory_ok hdirectory'
  have hsame : directory'.workspaceID = directory.workspaceID := by rw [hworkspace, hworkspace']
  have hrows : directory'.ordered = directory.ordered := by
    rw [hordered, hordered']
    exact (insertionSort_eq_of_perm hmembers hadmissible.ids).symm
  obtain ⟨hset, rfl⟩ := newPolicySet_acceptable h
  have hset' := hset.perm hvalid' hsame hrows hpolicies
  have hsorted : sortPolicies policies' = sortPolicies policies :=
    (insertionSort_eq_of_perm hpolicies hset.distinct).symm
  refine ⟨directory', _, hdirectory', hset'.newPolicySet_eq, ?_⟩
  simp only [compilePolicySet, derivePolicyVersion, hsorted, hrows, hsame]

/-- The version of a set does not depend on the order of members and policies, and sets with one
version give one effect and one reason to every valid input. -/
theorem policyVersion_identifies_decisions (hsum : Function.Injective Sha256.sum) :
    (∀ snapshot workspaceID members members' policies policies' directory set,
      newMemberDirectory workspaceID members = .ok directory →
      newPolicySet snapshot directory policies = .ok set →
      members.Perm members' → policies.Perm policies' →
      ∃ directory' set', newMemberDirectory workspaceID members' = .ok directory' ∧
        newPolicySet snapshot directory' policies' = .ok set' ∧ set'.version = set.version) ∧
    ∀ snapshot snapshot' directory directory' policies policies' set set' input,
      newPolicySet snapshot directory policies = .ok set →
      newPolicySet snapshot' directory' policies' = .ok set' → set.version = set'.version →
      validateInput input = .ok () →
      ∃ decision decision', set.evaluate input = .ok decision ∧
        set'.evaluate input = .ok decision' ∧ decision.effect = decision'.effect ∧
        decision.reason = decision'.reason := by
  constructor
  · intro snapshot workspaceID members members' policies policies' directory set hdirectory h
    exact version_of_order hdirectory h
  · intro snapshot snapshot' directory directory' policies policies' set set' input h h' hversion
      hinput
    have hout := outcome_of_version hsum h h' hversion hinput
    exact ⟨_, _, evaluate_ok h hinput, evaluate_ok h' hinput, by rw [hout], by rw [hout]⟩

end

/-! ## One version under two snapshots -/

/-- The sample Workspace with one more Environment. -/
def widerSnapshot : Snapshot :=
  match Hierarchy.newSnapshot "wsp_0000000000000001"
      (⟨"v1alpha1", "env_0000000000000005", .environment, "wsp_0000000000000001",
        some "wsp_0000000000000001"⟩ :: sampleRecords) with
  | .ok snapshot => snapshot
  | .error _ => ⟨false, "", ∅, []⟩

attribute [local instance] Reconcile.plainSha256 Identity.plainURLParser

theorem policyVersion_identifies_decisions_viewer :
    ∃ set set', newPolicySet sampleSnapshot sampleDirectory samplePolicies = .ok set ∧
      newPolicySet widerSnapshot sampleDirectory samplePolicies = .ok set' ∧
      ∃ decision decision', set.evaluate sampleInput = .ok decision ∧
        set'.evaluate sampleInput = .ok decision' ∧ decision.effect = decision'.effect ∧
        decision.reason = decision'.reason := by
  have hok : (newPolicySet sampleSnapshot sampleDirectory samplePolicies).isOk = true := by
    decide +kernel
  have hok' : (newPolicySet widerSnapshot sampleDirectory samplePolicies).isOk = true := by
    decide +kernel
  cases hset : newPolicySet sampleSnapshot sampleDirectory samplePolicies with
  | error =>
    rw [hset] at hok
    cases hok
  | ok set =>
    cases hset' : newPolicySet widerSnapshot sampleDirectory samplePolicies with
    | error =>
      rw [hset'] at hok'
      cases hok'
    | ok set' =>
      have hversion : set.version = set'.version := by
        rw [(newPolicySet_acceptable hset).2, (newPolicySet_acceptable hset').2]
        rfl
      refine ⟨set, set', rfl, rfl, ?_⟩
      exact (policyVersion_identifies_decisions fun _ _ h => h).2 _ _ _ _ _ _ set set' sampleInput
        hset hset' hversion (by decide +kernel)

end Veer.Authorization
