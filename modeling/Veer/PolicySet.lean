import Veer.Authorization

/-!
# Compiled policy sets and their evaluation

`NewPolicySet` compiles the bindings of all policies of a Workspace into one role mask per member
and scope; `Evaluate` decides one input against the masks.
-/
namespace Veer.Authorization
open Reconcile (ID validID Sha256 DigestValue digestFromHasher uint64Bytes writeHashFrame
  writeOptionalID)
open Hierarchy (Record Snapshot checkTransition)
open Identity (Principal URLParser equalLogicalIdentity validatePrincipal)

def policyVersionDomain : String := "veer.authorization.policy-set.v1"
def inputDigestDomain : String := "veer.authorization.input.v1"

structure PolicyRevision where
  record : Record
  generation : Int
  spec : PolicySpec
  deriving DecidableEq, Repr

abbrev PolicyVersion := DigestValue
abbrev InputDigest := DigestValue

/-- A `uint8` of four role bits. -/
abbrev RoleMask := Nat

/-- Position of a role's bit. -/
def Role.bit : Role → Nat
  | viewer => 0
  | developer => 1
  | operator => 2
  | workspaceAdministrator => 3

def maskForRole (role : Role) : RoleMask := 2 ^ role.bit

def RoleMask.roles (mask : RoleMask) : List Role :=
  allRoles.filter fun role => mask &&& maskForRole role != 0

structure CompiledMemberBindings where
  all : RoleMask
  workspace : RoleMask
  environments : AList (fun _ : ID => RoleMask)

/-- The zero value of the map. -/
def CompiledMemberBindings.zero : CompiledMemberBindings := ⟨0, 0, ∅⟩

abbrev CompiledBindings := AList (fun _ : ID => CompiledMemberBindings)

structure PolicySet where
  initialized : Bool
  workspaceID : ID
  directory : MemberDirectory
  policies : List PolicyRevision
  bindings : CompiledBindings
  version : PolicyVersion

/-! ## Compilation -/

def CompiledMemberBindings.environment (compiled : CompiledMemberBindings) (id : ID) : RoleMask :=
  (compiled.environments.lookup id).getD 0

def CompiledMemberBindings.add (compiled : CompiledMemberBindings) (binding : RoleBinding) :
    CompiledMemberBindings :=
  let bit := maskForRole binding.role
  match binding.scope.kind with
  | .workspace =>
    { compiled with all := compiled.all ||| bit, workspace := compiled.workspace ||| bit }
  | .environment =>
    let id := scopeEnvironment binding.scope
    { compiled with
      all := compiled.all ||| bit
      environments := compiled.environments.insert id (compiled.environment id ||| bit) }

def CompiledBindings.member (bindings : CompiledBindings) (id : ID) : CompiledMemberBindings :=
  (bindings.lookup id).getD .zero

def compileBinding (bindings : CompiledBindings) (binding : RoleBinding) : CompiledBindings :=
  bindings.insert binding.memberID ((bindings.member binding.memberID).add binding)

def compilePolicyBindings (policies : List PolicyRevision) : CompiledBindings :=
  policies.foldl (fun bindings policy => policy.spec.list.foldl compileBinding bindings) ∅

def writeMember (member : MemberRecord) : List UInt8 :=
  writeHashFrame member.id ++ writeHashFrame member.kind.string ++
    writeHashFrame member.logicalIdentity.issuer ++ writeHashFrame member.logicalIdentity.subject

def writeBinding (binding : RoleBinding) : List UInt8 :=
  writeHashFrame binding.memberID ++ writeHashFrame binding.role.string ++
    writeHashFrame binding.scope.kind.string ++ writeHashFrame (scopeEnvironment binding.scope)

def writePolicy (policy : PolicyRevision) : List UInt8 :=
  writeHashFrame policy.record.id ++ uint64Bytes (policy.generation % 2 ^ 64).toNat ++
    uint64Bytes policy.spec.list.length ++ policy.spec.list.flatMap writeBinding

def derivePolicyVersion [Sha256] (directory : MemberDirectory) (policies : List PolicyRevision) :
    PolicyVersion :=
  digestFromHasher (writeHashFrame policyVersionDomain ++ writeHashFrame contractVersion ++
    writeHashFrame directory.workspaceID ++ uint64Bytes directory.ordered.length ++
    directory.ordered.flatMap writeMember ++ uint64Bytes policies.length ++
    policies.flatMap writePolicy)

section
variable [Sha256] [URLParser]

def validatePolicyRevision (policy : PolicyRevision) (snapshot : Snapshot)
    (directory : MemberDirectory) : Except Failure Unit :=
  if policy.record.kind ≠ .policy then
    .error [.sentinel .invalidPolicyRevision, .sentinel .referenceKindMismatch]
  else if policy.record.workspaceID ≠ snapshot.workspaceID then
    .error [.sentinel .invalidPolicyRevision, .sentinel .workspaceMismatch]
  else
    match snapshot.lookup policy.record.id with
    | .error _ => .error [.sentinel .invalidPolicyRevision]
    | .ok retained =>
      match checkTransition retained policy.record with
      | .error _ => .error [.sentinel .invalidPolicyRevision]
      | .ok () =>
        if policy.generation < 1 then .error [.sentinel .invalidPolicyRevision]
        else
          match validatePolicyReferences policy.spec snapshot directory with
          | .error failure => .error (.sentinel .invalidPolicyRevision :: failure)
          | .ok () => .ok ()

/-- The turn of `NewPolicySet`'s loop for one policy; `seen` are the earlier identifiers. -/
def admitPolicy (snapshot : Snapshot) (directory : MemberDirectory) (seen : List ID)
    (policy : PolicyRevision) : Except Failure (List ID) :=
  match validatePolicyRevision policy snapshot directory with
  | .error failure => .error (.sentinel .invalidPolicySet :: failure)
  | .ok () =>
    if policy.record.id ∈ seen then
      .error [.sentinel .invalidPolicySet, .sentinel .duplicatePolicyID]
    else .ok (seen ++ [policy.record.id])

def newPolicySet (snapshot : Snapshot) (directory : MemberDirectory)
    (policies : List PolicyRevision) : Except Failure PolicySet :=
  match snapshot.lookup snapshot.workspaceID with
  | .error _ => .error [.sentinel .invalidPolicySet]
  | .ok workspace =>
    if workspace.kind ≠ .workspace then .error [.sentinel .invalidPolicySet]
    else if !validateMemberDirectory directory then
      .error [.sentinel .invalidPolicySet, .sentinel .invalidMemberDirectory]
    else if directory.workspaceID ≠ snapshot.workspaceID ∨
        workspace.workspaceID ≠ directory.workspaceID then
      .error [.sentinel .invalidPolicySet, .sentinel .workspaceMismatch]
    else if maxPolicies < policies.length then
      .error [.sentinel .invalidPolicySet, .sentinel .tooManyPolicies]
    else
      match policies.foldlM (admitPolicy snapshot directory) [] with
      | .error failure => .error failure
      | .ok _ =>
        let owned := policies.insertionSort fun left right => left.record.id ≤ right.record.id
        .ok
          { initialized := true
            workspaceID := snapshot.workspaceID
            directory := directory
            policies := owned
            bindings := compilePolicyBindings owned
            version := derivePolicyVersion directory owned }

end

/-! ## Evaluation -/

structure Input where
  principal : Principal
  action : Action
  target : Target
  deriving DecidableEq, Repr

structure Decision where
  initialized : Bool
  policyVersion : PolicyVersion
  inputDigest : InputDigest
  effect : Effect
  reason : Reason
  deriving DecidableEq, Repr

def deriveInputDigest [Sha256] (input : Input) : InputDigest :=
  digestFromHasher (writeHashFrame inputDigestDomain ++ writeHashFrame contractVersion ++
    writeHashFrame input.principal.kind.string ++
    writeHashFrame input.principal.logicalIdentity.issuer ++
    writeHashFrame input.principal.logicalIdentity.subject ++
    uint64Bytes input.principal.audiences.length ++
    input.principal.audiences.flatMap writeHashFrame ++
    uint64Bytes input.principal.groups.length ++ input.principal.groups.flatMap writeHashFrame ++
    writeOptionalID input.principal.workloadIdentity ++ writeHashFrame input.action.string ++
    writeHashFrame input.target.objectKind.string ++ writeHashFrame input.target.objectID ++
    writeHashFrame input.target.resourceKind.string ++ writeHashFrame input.target.resourceID ++
    writeHashFrame input.target.workspaceID ++ writeOptionalID input.target.environmentID ++
    writeOptionalID input.target.providerConnectionID)

/-- The input is a member reading its own membership. -/
def readsOwnMembership (input : Input) (member : MemberRecord) : Bool :=
  input.action == .membershipGet && input.target.objectKind == .membership &&
    input.target.objectID == member.id

section
variable [Sha256] [URLParser]

def validateInput (input : Input) : Except Failure Unit :=
  if !(validatePrincipal input.principal).isOk then .error [.sentinel .invalidInput]
  else if !validateTarget input.target then
    .error [.sentinel .invalidInput, .sentinel .invalidTarget]
  else .ok ()

/-- The member that the two indexes of the directory give for a principal. -/
def MemberDirectory.find (directory : MemberDirectory) (principal : Principal) :
    Option MemberRecord :=
  match directory.byIdentity.lookup (memberKey principal.kind principal.logicalIdentity) with
  | none => none
  | some memberID =>
    match directory.byID.lookup memberID with
    | none => none
    | some member =>
      if member.kind = principal.kind ∧
          equalLogicalIdentity member.logicalIdentity principal.logicalIdentity then
        some member
      else none

/-- The roles a member holds at the target: Workspace grants descend to every Environment. -/
def CompiledMemberBindings.rolesAt (compiled : CompiledMemberBindings) (target : Target) :
    RoleMask :=
  match target.environmentID with
  | none => compiled.workspace
  | some id => compiled.workspace ||| compiled.environment id

def PolicySet.outcome (set : PolicySet) (input : Input) : Effect × Reason :=
  if input.target.workspaceID ≠ set.workspaceID then (.deny, .crossWorkspace)
  else if actionReserved input.action input.target then (.deny, .reservedAction)
  else
    match set.directory.find input.principal with
    | none => (.deny, .noMembership)
    | some member =>
      if readsOwnMembership input member then (.allow, .roleGranted)
      else
        let compiled := set.bindings.member member.id
        if compiled.all = 0 then (.deny, .noRoleBinding)
        else if compiled.rolesAt input.target = 0 then (.deny, .scopeNotGranted)
        else if (RoleMask.roles (compiled.rolesAt input.target)).any
            (roleAllows · input.action input.target) then
          (.allow, .roleGranted)
        else (.deny, .actionNotGranted)

def PolicySet.evaluate (set : PolicySet) (input : Input) : Except Failure Decision :=
  if !set.initialized || !set.version.initialized || !set.directory.initialized ||
      set.directory.workspaceID != set.workspaceID then
    .error [.sentinel .invalidPolicySet]
  else
    match validateInput input with
    | .error failure => .error failure
    | .ok () =>
      .ok ⟨true, set.version, deriveInputDigest input, (set.outcome input).1,
        (set.outcome input).2⟩

end

end Veer.Authorization
