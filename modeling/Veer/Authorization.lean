import Veer.Hierarchy
import Veer.Identity

/-!
# Roles, members, policies and targets

The vocabulary of the authorization contract, the role matrix, the member directory of a
Workspace and the checks of a Policy. `ParseAction`, `ParseRole`, `ParseScopeKind` and
`ParseObjectKind` hold by typing.
-/
namespace Veer.Authorization
open Reconcile (ID validID Sha256)
open Hierarchy (Record Snapshot)
open Identity (LogicalIdentity Principal URLParser validateLogicalIdentity equalLogicalIdentity)

/-- The sentinel errors of `errors.go`. -/
inductive Sentinel
  | invalidAction | invalidRole | invalidScope | invalidObjectKind | invalidMember
  | invalidMemberDirectory | tooManyMembers | duplicateMemberID | duplicateLogicalIdentity
  | memberNotFound | invalidPolicySpec | bindingsRequired | tooManyBindings | invalidBinding
  | invalidBindingOrder | duplicateBinding | environmentNotFound | referenceKindMismatch
  | workspaceMismatch | principalKindNotAllowed | invalidPolicyRevision | invalidPolicySet
  | tooManyPolicies | duplicatePolicyID | invalidPolicyVersion | invalidInputDigest
  | invalidTarget | invalidInput
  deriving DecidableEq, Repr

inductive BindingField
  | memberID | role | scopeKind | environmentID
  deriving DecidableEq, Repr

/-- One link of an error chain: a sentinel, or a `BindingError` with its own cause. -/
inductive Cause
  | sentinel (value : Sentinel)
  | binding (index : Nat) (field : BindingField) (cause : Sentinel)
  deriving DecidableEq, Repr

abbrev Failure := List Cause

def contractVersion : String := "veer.authorization.v1alpha1"
def maxMembers : Nat := 500
def maxPolicies : Nat := 2500
def maxBindingsPerPolicy : Nat := 128

inductive Action
  | resourceList | resourceGet | resourceCreate | resourceReplace | resourceDelete
  | resourceStatusReplace
  | planList | planGet | planPreview
  | operationList | operationGet | operationCancel | operationRetry | operationQuarantine
  | membershipList | membershipGet | membershipCreate | membershipReplace | membershipDelete
  | auditList | auditExport
  | approvalApprove | approvalReject | approvalOverride
  | workPublish | workConsume | workRedrive | reconcilePlan | reconcileExecute
  | operationTransition | credentialResolve | providerDiscover | providerApply
  | providerObserve | providerDelete | auditAppend
  deriving DecidableEq, Repr

def Action.string : Action → String
  | resourceList => "resource.list"
  | resourceGet => "resource.get"
  | resourceCreate => "resource.create"
  | resourceReplace => "resource.replace"
  | resourceDelete => "resource.delete"
  | resourceStatusReplace => "resource.status.replace"
  | planList => "plan.list"
  | planGet => "plan.get"
  | planPreview => "plan.preview"
  | operationList => "operation.list"
  | operationGet => "operation.get"
  | operationCancel => "operation.cancel"
  | operationRetry => "operation.retry"
  | operationQuarantine => "operation.quarantine"
  | membershipList => "membership.list"
  | membershipGet => "membership.get"
  | membershipCreate => "membership.create"
  | membershipReplace => "membership.replace"
  | membershipDelete => "membership.delete"
  | auditList => "audit.list"
  | auditExport => "audit.export"
  | approvalApprove => "approval.approve"
  | approvalReject => "approval.reject"
  | approvalOverride => "approval.override"
  | workPublish => "work.publish"
  | workConsume => "work.consume"
  | workRedrive => "work.redrive"
  | reconcilePlan => "reconcile.plan"
  | reconcileExecute => "reconcile.execute"
  | operationTransition => "operation.transition"
  | credentialResolve => "credential.resolve"
  | providerDiscover => "provider.discover"
  | providerApply => "provider.apply"
  | providerObserve => "provider.observe"
  | providerDelete => "provider.delete"
  | auditAppend => "audit.append"

def Action.all : List Action :=
  [.resourceList, .resourceGet, .resourceCreate, .resourceReplace, .resourceDelete,
    .resourceStatusReplace, .planList, .planGet, .planPreview, .operationList, .operationGet,
    .operationCancel, .operationRetry, .operationQuarantine, .membershipList, .membershipGet,
    .membershipCreate, .membershipReplace, .membershipDelete, .auditList, .auditExport,
    .approvalApprove, .approvalReject, .approvalOverride, .workPublish, .workConsume, .workRedrive,
    .reconcilePlan, .reconcileExecute, .operationTransition, .credentialResolve, .providerDiscover,
    .providerApply, .providerObserve, .providerDelete, .auditAppend]

theorem Action.mem_all (action : Action) : action ∈ Action.all := by
  cases action <;> decide

theorem Action.string_injective : Function.Injective Action.string := by
  have hnodup : (Action.all.map Action.string).Nodup := by decide +kernel
  intro left right h
  exact List.inj_on_of_nodup_map hnodup left.mem_all right.mem_all h

inductive Role
  | viewer | developer | operator | workspaceAdministrator
  deriving DecidableEq, Repr

def Role.string : Role → String
  | viewer => "Viewer"
  | developer => "Developer"
  | operator => "Operator"
  | workspaceAdministrator => "WorkspaceAdministrator"

def allRoles : List Role := [.viewer, .developer, .operator, .workspaceAdministrator]

def inheritedRoles : Role → List Role
  | .viewer => [.viewer]
  | .developer => [.viewer, .developer]
  | .operator => [.viewer, .operator]
  | .workspaceAdministrator => [.viewer, .workspaceAdministrator]

inductive ScopeKind
  | workspace | environment
  deriving DecidableEq, Repr

def ScopeKind.string : ScopeKind → String
  | workspace => "Workspace"
  | environment => "Environment"

inductive ObjectKind
  | resource | operation | plan | membership | audit
  deriving DecidableEq, Repr

def ObjectKind.string : ObjectKind → String
  | resource => "Resource"
  | operation => "Operation"
  | plan => "Plan"
  | membership => "Membership"
  | audit => "Audit"

theorem ObjectKind.string_injective : Function.Injective ObjectKind.string := by
  intro left right h
  cases left <;> cases right <;> first | rfl | (revert h; decide)

inductive Effect
  | allow | deny
  deriving DecidableEq, Repr

inductive Reason
  | crossWorkspace | reservedAction | noMembership | noRoleBinding | scopeNotGranted
  | actionNotGranted | roleGranted
  deriving DecidableEq, Repr

/-! ## Targets -/

structure Target where
  initialized : Bool
  objectKind : ObjectKind
  objectID : ID
  resourceKind : Hierarchy.Kind
  resourceID : ID
  workspaceID : ID
  environmentID : Option ID
  providerConnectionID : Option ID
  deriving DecidableEq, Repr

def wantsEnvironment : Hierarchy.Kind → Bool
  | .environment | .application | .component | .providerConnection => true
  | .workspace | .policy => false

def objectFits (target : Target) : Bool :=
  match target.objectKind with
  | .resource => target.objectID == target.resourceID && target.providerConnectionID.isNone
  | .membership => target.resourceKind == .workspace && target.resourceID == target.workspaceID &&
      target.providerConnectionID.isNone
  | .audit => target.providerConnectionID.isNone
  | .operation | .plan => true

def validateTarget (target : Target) : Bool :=
  target.initialized && validID target.objectID && validID target.resourceID &&
    validID target.workspaceID &&
    !(target.resourceKind == .workspace && target.resourceID != target.workspaceID) &&
    wantsEnvironment target.resourceKind == target.environmentID.isSome &&
    target.environmentID.all validID &&
    target.providerConnectionID.all (fun id => target.environmentID.isSome && validID id) &&
    objectFits target

/-! ## The role matrix -/

structure Grant where
  action : Action
  objectKind : ObjectKind
  resourceKinds : List Hierarchy.Kind
  deriving DecidableEq, Repr

def globallyReservedActions : List Action :=
  [.resourceStatusReplace, .operationQuarantine, .auditExport, .approvalApprove, .approvalReject,
    .approvalOverride, .workPublish, .workConsume, .workRedrive, .reconcilePlan, .reconcileExecute,
    .operationTransition, .credentialResolve, .providerDiscover, .providerApply, .providerObserve,
    .providerDelete, .auditAppend]

def targetReservedActions : List (Action × Hierarchy.Kind) := [(.resourceCreate, .workspace)]

def viewerResourceKinds : List Hierarchy.Kind :=
  [.application, .component, .environment, .providerConnection, .workspace]

def directRoleGrants : Role → List Grant
  | .viewer =>
    [⟨.resourceList, .resource, viewerResourceKinds⟩,
      ⟨.resourceGet, .resource, viewerResourceKinds⟩,
      ⟨.planList, .plan, viewerResourceKinds⟩,
      ⟨.planGet, .plan, viewerResourceKinds⟩,
      ⟨.operationList, .operation, viewerResourceKinds⟩,
      ⟨.operationGet, .operation, viewerResourceKinds⟩,
      ⟨.auditList, .audit, viewerResourceKinds⟩]
  | .developer =>
    [⟨.resourceCreate, .resource, [.application, .component]⟩,
      ⟨.resourceReplace, .resource, [.application, .component]⟩,
      ⟨.resourceDelete, .resource, [.application, .component]⟩,
      ⟨.planPreview, .plan, [.application, .component]⟩,
      ⟨.operationCancel, .operation, [.application, .component]⟩]
  | .operator =>
    [⟨.resourceCreate, .resource, [.environment, .providerConnection]⟩,
      ⟨.resourceReplace, .resource, [.environment, .providerConnection]⟩,
      ⟨.resourceDelete, .resource, [.environment, .providerConnection]⟩,
      ⟨.planPreview, .plan, [.environment, .providerConnection]⟩,
      ⟨.operationCancel, .operation, [.application, .component, .environment, .providerConnection]⟩,
      ⟨.operationRetry, .operation, [.application, .component, .environment, .providerConnection]⟩]
  | .workspaceAdministrator =>
    [⟨.resourceList, .resource, [.policy]⟩,
      ⟨.resourceGet, .resource, [.policy]⟩,
      ⟨.resourceCreate, .resource, [.policy]⟩,
      ⟨.resourceReplace, .resource, [.policy, .workspace]⟩,
      ⟨.resourceDelete, .resource, [.policy, .workspace]⟩,
      ⟨.planList, .plan, [.policy, .workspace]⟩,
      ⟨.planGet, .plan, [.policy, .workspace]⟩,
      ⟨.planPreview, .plan, [.policy, .workspace]⟩,
      ⟨.operationList, .operation, [.policy, .workspace]⟩,
      ⟨.operationGet, .operation, [.policy, .workspace]⟩,
      ⟨.operationCancel, .operation, [.policy, .workspace]⟩,
      ⟨.membershipList, .membership, []⟩,
      ⟨.membershipGet, .membership, []⟩,
      ⟨.membershipCreate, .membership, []⟩,
      ⟨.membershipReplace, .membership, []⟩,
      ⟨.membershipDelete, .membership, []⟩]

def Grant.covers (item : Grant) (action : Action) (target : Target) : Bool :=
  item.action == action && item.objectKind == target.objectKind &&
    (item.resourceKinds.isEmpty || item.resourceKinds.contains target.resourceKind)

def roleAllows (role : Role) (action : Action) (target : Target) : Bool :=
  (inheritedRoles role).any fun inherited =>
    (directRoleGrants inherited).any fun item => item.covers action target

def actionReserved (action : Action) (target : Target) : Bool :=
  globallyReservedActions.contains action ||
    targetReservedActions.any fun item =>
      item.1 == action && item.2 == target.resourceKind && target.objectKind == .resource

/-! ## The member directory -/

structure MemberRecord where
  initialized : Bool
  id : ID
  workspaceID : ID
  kind : Identity.Kind
  logicalIdentity : LogicalIdentity
  deriving DecidableEq, Repr

structure MemberIdentityKey where
  kind : Identity.Kind
  issuer : String
  subject : String
  deriving DecidableEq, Repr

def memberKey (kind : Identity.Kind) (logical : LogicalIdentity) : MemberIdentityKey :=
  ⟨kind, logical.issuer, logical.subject⟩

structure MemberDirectory where
  initialized : Bool
  workspaceID : ID
  byID : AList (fun _ : ID => MemberRecord)
  byIdentity : AList (fun _ : MemberIdentityKey => ID)
  ordered : List MemberRecord

section
variable [Sha256] [URLParser]

def validateMemberRecord (member : MemberRecord) : Bool :=
  member.initialized && validID member.id && validID member.workspaceID &&
    (member.kind == .human || member.kind == .workload) &&
    (validateLogicalIdentity member.logicalIdentity).isOk

def equalMemberRecord (left right : MemberRecord) : Bool :=
  left.initialized && right.initialized && left.id == right.id &&
    left.workspaceID == right.workspaceID && left.kind == right.kind &&
    equalLogicalIdentity left.logicalIdentity right.logicalIdentity

/-- The turn of `NewMemberDirectory`'s loop for one member. -/
def indexMember (workspaceID : ID)
    (maps : AList (fun _ : ID => MemberRecord) × AList (fun _ : MemberIdentityKey => ID))
    (member : MemberRecord) :
    Except Failure
      (AList (fun _ : ID => MemberRecord) × AList (fun _ : MemberIdentityKey => ID)) :=
  if !validateMemberRecord member then
    .error [.sentinel .invalidMemberDirectory, .sentinel .invalidMember]
  else if member.workspaceID ≠ workspaceID then
    .error [.sentinel .invalidMemberDirectory, .sentinel .workspaceMismatch]
  else if member.id ∈ maps.1 then
    .error [.sentinel .invalidMemberDirectory, .sentinel .duplicateMemberID]
  else if memberKey member.kind member.logicalIdentity ∈ maps.2 then
    .error [.sentinel .invalidMemberDirectory, .sentinel .duplicateLogicalIdentity]
  else .ok (maps.1.insert member.id member,
    maps.2.insert (memberKey member.kind member.logicalIdentity) member.id)

def newMemberDirectory (workspaceID : ID) (members : List MemberRecord) :
    Except Failure MemberDirectory :=
  if !validID workspaceID then .error [.sentinel .invalidMemberDirectory]
  else if maxMembers < members.length then
    .error [.sentinel .invalidMemberDirectory, .sentinel .tooManyMembers]
  else
    match members.foldlM (indexMember workspaceID) (∅, ∅) with
    | .error failure => .error failure
    | .ok (byID, byIdentity) =>
      .ok ⟨true, workspaceID, byID, byIdentity,
        members.insertionSort fun left right => left.id ≤ right.id⟩

/-- The checks of one row against the two maps. -/
def MemberDirectory.indexes (directory : MemberDirectory) (member : MemberRecord) : Bool :=
  validateMemberRecord member && member.workspaceID == directory.workspaceID &&
    (directory.byID.lookup member.id).any (equalMemberRecord · member) &&
    directory.byIdentity.lookup (memberKey member.kind member.logicalIdentity) == some member.id

def validateMemberDirectory (directory : MemberDirectory) : Bool :=
  directory.initialized && validID directory.workspaceID &&
    directory.byID.keys.length == directory.byIdentity.keys.length &&
    directory.byID.keys.length == directory.ordered.length &&
    decide (directory.ordered.length ≤ maxMembers) &&
    directory.ordered.all directory.indexes &&
    Identity.strictlySorted (directory.ordered.map MemberRecord.id)

end

/-! ## Policies -/

structure Scope where
  kind : ScopeKind
  environmentID : Option ID
  deriving DecidableEq, Repr

structure RoleBinding where
  memberID : ID
  role : Role
  scope : Scope
  deriving DecidableEq, Repr

/-- Absent bindings are `none`. -/
structure PolicySpec where
  bindings : Option (List RoleBinding)
  deriving DecidableEq, Repr

/-- A loop over the bindings reads an absent list as empty. -/
def PolicySpec.list (spec : PolicySpec) : List RoleBinding := spec.bindings.getD []

def scopeEnvironment (scope : Scope) : String := scope.environmentID.getD ""

def compareRoleBindings (left right : RoleBinding) : Ordering :=
  (compare left.memberID right.memberID).then <|
    (compare left.scope.kind.string right.scope.kind.string).then <|
      (compare (scopeEnvironment left.scope) (scopeEnvironment right.scope)).then <|
        compare left.role.string right.role.string

def validateRoleBinding (binding : RoleBinding) : Except (BindingField × Sentinel) Unit :=
  if !validID binding.memberID then .error (.memberID, .invalidBinding)
  else
    match binding.scope.kind, binding.scope.environmentID with
    | .workspace, some _ => .error (.environmentID, .invalidScope)
    | .workspace, none => .ok ()
    | .environment, none => .error (.environmentID, .invalidScope)
    | .environment, some environmentID =>
      if !validID environmentID then .error (.environmentID, .invalidScope)
      else if binding.role = .workspaceAdministrator then .error (.scopeKind, .invalidScope)
      else .ok ()

/-- The loop of `ValidatePolicySpec` from binding `index` on. -/
def validateBindings : Nat → Option RoleBinding → List RoleBinding → Except Failure Unit
  | _, _, [] => .ok ()
  | index, previous, binding :: rest =>
    match validateRoleBinding binding with
    | .error (field, cause) => .error [.sentinel .invalidPolicySpec, .binding index field cause]
    | .ok () =>
      match previous.map (compareRoleBindings · binding) with
      | some .eq => .error [.sentinel .invalidPolicySpec, .binding index .memberID .duplicateBinding]
      | some .gt =>
        .error [.sentinel .invalidPolicySpec, .binding index .memberID .invalidBindingOrder]
      | some .lt | none => validateBindings (index + 1) (some binding) rest

def validatePolicySpec (spec : PolicySpec) : Except Failure Unit :=
  match spec.bindings with
  | none => .error [.sentinel .invalidPolicySpec, .sentinel .bindingsRequired]
  | some bindings =>
    if maxBindingsPerPolicy < bindings.length then
      .error [.sentinel .invalidPolicySpec, .sentinel .tooManyBindings]
    else validateBindings 0 none bindings

/-- The references of one binding, resolved in one snapshot and one directory. -/
def resolveBinding (snapshot : Snapshot) (directory : MemberDirectory) (binding : RoleBinding) :
    Except (BindingField × Sentinel) Unit :=
  match directory.byID.lookup binding.memberID with
  | none => .error (.memberID, .memberNotFound)
  | some member =>
    if member.workspaceID ≠ directory.workspaceID then .error (.memberID, .workspaceMismatch)
    else if binding.role = .workspaceAdministrator ∧ member.kind ≠ .human then
      .error (.role, .principalKindNotAllowed)
    else if binding.scope.kind ≠ .environment then .ok ()
    else
      match snapshot.lookup (scopeEnvironment binding.scope) with
      | .error _ => .error (.environmentID, .environmentNotFound)
      | .ok environment =>
        if environment.kind ≠ .environment then .error (.environmentID, .referenceKindMismatch)
        else if environment.workspaceID ≠ directory.workspaceID then
          .error (.environmentID, .workspaceMismatch)
        else .ok ()

/-- The loop of `ValidatePolicyReferences` from binding `index` on. -/
def resolveBindings (snapshot : Snapshot) (directory : MemberDirectory) :
    Nat → List RoleBinding → Except Failure Unit
  | _, [] => .ok ()
  | index, binding :: rest =>
    match resolveBinding snapshot directory binding with
    | .error (field, cause) => .error [.sentinel .invalidPolicySpec, .binding index field cause]
    | .ok () => resolveBindings snapshot directory (index + 1) rest

def validatePolicyReferences [Sha256] [URLParser] (spec : PolicySpec) (snapshot : Snapshot)
    (directory : MemberDirectory) : Except Failure Unit :=
  match validatePolicySpec spec with
  | .error failure => .error failure
  | .ok () =>
    match snapshot.lookup snapshot.workspaceID with
    | .error _ => .error [.sentinel .invalidPolicySpec]
    | .ok root =>
      if root.kind ≠ .workspace then
        .error [.sentinel .invalidPolicySpec, .sentinel .referenceKindMismatch]
      else if !validateMemberDirectory directory then
        .error [.sentinel .invalidPolicySpec, .sentinel .invalidMemberDirectory]
      else if directory.workspaceID ≠ snapshot.workspaceID ∨
          root.workspaceID ≠ directory.workspaceID then
        .error [.sentinel .invalidPolicySpec, .sentinel .workspaceMismatch]
      else resolveBindings snapshot directory 0 spec.list

/-! ## What a valid directory holds -/

theorem strictlySorted_pairwise {values : List String}
    (h : Identity.strictlySorted values = true) : values.Pairwise (· < ·) := by
  induction values with
  | nil => exact List.Pairwise.nil
  | cons a rest ih =>
    cases rest with
    | nil => exact List.pairwise_singleton _ _
    | cons =>
      simp only [Identity.strictlySorted, Bool.and_eq_true, decide_eq_true_eq] at h
      obtain ⟨hab, hrest⟩ := h
      have htail := ih hrest
      refine List.pairwise_cons.mpr ⟨?_, htail⟩
      intro c hc
      rcases List.mem_cons.mp hc with rfl | hc
      · exact hab
      · exact lt_trans hab ((List.pairwise_cons.mp htail).1 c hc)

theorem exists_row_of_mem_keys {α ρ : Type*} [DecidableEq α] {β : α → Type*} {index : AList β}
    {rows : List ρ} {key : ρ → α} (hlen : index.keys.length = rows.length)
    (hnodup : (rows.map key).Nodup) (hrows : ∀ row ∈ rows, key row ∈ index.keys) {k : α}
    (hk : k ∈ index.keys) : ∃ row ∈ rows, key row = k := by
  have hsub : rows.map key ⊆ index.keys := by
    intro a ha
    obtain ⟨row, hrow, rfl⟩ := List.mem_map.mp ha
    exact hrows row hrow
  have hperm : (rows.map key).Perm index.keys :=
    (List.subperm_of_subset hnodup hsub).perm_of_length_le (by rw [List.length_map, hlen])
  exact List.mem_map.mp (hperm.mem_iff.mpr hk)

section
variable [Sha256] [URLParser] {directory : MemberDirectory}

theorem equalMemberRecord_eq {left right : MemberRecord}
    (h : equalMemberRecord left right = true) : left = right := by
  simp only [equalMemberRecord, Bool.and_eq_true, beq_iff_eq] at h
  obtain ⟨⟨⟨⟨⟨hl, hr⟩, hid⟩, hworkspace⟩, hkind⟩, hequal⟩ := h
  have hlogical := (Identity.equalLogicalIdentity_iff.mp hequal).2
  rcases left with ⟨li, lid, lw, lk, ll⟩
  rcases right with ⟨ri, rid, rw, rk, rl⟩
  simp only at hl hr hid hworkspace hkind hlogical
  subst hl hr hid hworkspace hkind hlogical
  rfl

/-- What validation says of a directory: the two maps index exactly the ordered rows. -/
structure MemberDirectory.Indexed (directory : MemberDirectory) : Prop where
  initialized : directory.initialized = true
  valid : ∀ member ∈ directory.ordered, validateMemberRecord member = true
  owned : ∀ member ∈ directory.ordered, member.workspaceID = directory.workspaceID
  byID : ∀ id member, directory.byID.lookup id = some member ↔
    member ∈ directory.ordered ∧ member.id = id
  byIdentity : ∀ key id, directory.byIdentity.lookup key = some id ↔
    ∃ member ∈ directory.ordered, memberKey member.kind member.logicalIdentity = key ∧
      member.id = id

theorem MemberDirectory.indexes_iff {member : MemberRecord} :
    directory.indexes member = true ↔ validateMemberRecord member = true ∧
      member.workspaceID = directory.workspaceID ∧
      directory.byID.lookup member.id = some member ∧
      directory.byIdentity.lookup (memberKey member.kind member.logicalIdentity) =
        some member.id := by
  simp only [MemberDirectory.indexes, Bool.and_eq_true, beq_iff_eq, Option.any_eq_true, and_assoc]
  constructor
  · rintro ⟨hvalid, howned, ⟨found, hfound, heq⟩, hkey⟩
    exact ⟨hvalid, howned, equalMemberRecord_eq heq ▸ hfound, hkey⟩
  · rintro ⟨hvalid, howned, hfound, hkey⟩
    refine ⟨hvalid, howned, ⟨member, hfound, ?_⟩, hkey⟩
    simp only [validateMemberRecord, Bool.and_eq_true] at hvalid
    obtain ⟨⟨⟨⟨hinit, -⟩, -⟩, -⟩, hlogical⟩ := hvalid
    have hsame := Identity.equalLogicalIdentity_iff.mpr ⟨hlogical, rfl⟩
    simp [equalMemberRecord, hinit, hsame]

theorem validateMemberDirectory_indexed (h : validateMemberDirectory directory = true) :
    directory.Indexed := by
  simp only [validateMemberDirectory, Bool.and_eq_true, beq_iff_eq, decide_eq_true_eq,
    List.all_eq_true, MemberDirectory.indexes_iff] at h
  obtain ⟨⟨⟨⟨⟨⟨hinit, -⟩, hlenIdentity⟩, hlenID⟩, -⟩, hrows⟩, hsorted⟩ := h
  have hids : (directory.ordered.map MemberRecord.id).Nodup :=
    (strictlySorted_pairwise hsorted).imp fun h => h.ne
  have hkeys : (directory.ordered.map
      fun member => memberKey member.kind member.logicalIdentity).Nodup := by
    -- the identity map sends distinct rows to distinct identifiers
    apply List.Nodup.of_map directory.byIdentity.lookup
    have hlookup : (directory.ordered.map
        fun member => memberKey member.kind member.logicalIdentity).map
          directory.byIdentity.lookup = (directory.ordered.map MemberRecord.id).map some := by
      simp only [List.map_map]
      apply List.map_congr_left
      intro member hmember
      exact (hrows member hmember).2.2.2
    rw [hlookup]
    exact hids.map (Option.some_injective _)
  refine ⟨hinit, fun member hm => (hrows member hm).1, fun member hm => (hrows member hm).2.1,
    ?_, ?_⟩
  · intro id member
    constructor
    · intro hlookup
      obtain ⟨row, hrow, rfl⟩ := exists_row_of_mem_keys hlenID hids
        (fun row hrow => AList.lookup_isSome.mp (by rw [(hrows row hrow).2.2.1]; rfl))
        (AList.lookup_isSome.mp (by rw [hlookup]; rfl))
      have hsame := (hrows row hrow).2.2.1
      rw [hlookup, Option.some_inj] at hsame
      exact ⟨hsame ▸ hrow, congrArg MemberRecord.id hsame⟩
    · rintro ⟨hm, rfl⟩
      exact (hrows member hm).2.2.1
  · intro key id
    constructor
    · intro hlookup
      obtain ⟨row, hrow, rfl⟩ := exists_row_of_mem_keys (hlenIdentity.symm.trans hlenID) hkeys
        (fun row hrow => AList.lookup_isSome.mp (by rw [(hrows row hrow).2.2.2]; rfl))
        (AList.lookup_isSome.mp (by rw [hlookup]; rfl))
      have hsame := (hrows row hrow).2.2.2
      rw [hlookup, Option.some_inj] at hsame
      exact ⟨row, hrow, rfl, hsame.symm⟩
    · rintro ⟨member, hm, rfl, rfl⟩
      exact (hrows member hm).2.2.2

end

end Veer.Authorization
