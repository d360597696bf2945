import Veer.BitMask
import Veer.PolicySet
import Veer.StepMachine

/-!
# The meaning of a policy set

The declarative reading of a Workspace's policies, over its members and the bindings as they were
written, and the proof that the compiled set decides it, with the reason of the first condition
that fails.
-/
namespace Veer.Authorization
open Reconcile (ID validID Sha256)
open Hierarchy (Record Snapshot)
open Identity (Principal URLParser equalLogicalIdentity validatePrincipal)

/-! ## What an accepted set was built from -/

/-- An Environment scope names its Environment. -/
def Scope.Complete (scope : Scope) : Prop :=
  scope.kind = .environment → ∃ id, scope.environmentID = some id

theorem validateRoleBinding_complete {binding : RoleBinding}
    (h : validateRoleBinding binding = .ok ()) : binding.scope.Complete := by
  intro hkind
  cases hid : binding.scope.environmentID with
  | some id => exact ⟨id, rfl⟩
  | none =>
    unfold validateRoleBinding at h
    rw [hkind, hid] at h
    split_ifs at h

theorem validateBindings_valid {index : Nat} {previous : Option RoleBinding}
    {bindings : List RoleBinding} (h : validateBindings index previous bindings = .ok ()) :
    ∀ binding ∈ bindings, validateRoleBinding binding = .ok () := by
  induction bindings generalizing index previous with
  | nil => simp
  | cons binding rest ih =>
    unfold validateBindings at h
    split at h
    · cases h
    rename_i hvalid
    have hrest : ∀ binding ∈ rest, validateRoleBinding binding = .ok () := by
      split at h
      · cases h
      · cases h
      · exact ih h
      · exact ih h
    intro b hb
    rcases List.mem_cons.mp hb with rfl | hb
    · exact hvalid
    · exact hrest b hb

theorem validatePolicySpec_bindings {spec : PolicySpec} (h : validatePolicySpec spec = .ok ()) :
    spec.list.length ≤ maxBindingsPerPolicy ∧
      ∀ binding ∈ spec.list, validateRoleBinding binding = .ok () := by
  unfold validatePolicySpec at h
  split at h
  · cases h
  rename_i bindings hbindings
  split_ifs at h with hmany
  have hlist : spec.list = bindings := by simp [PolicySpec.list, hbindings]
  rw [hlist]
  exact ⟨not_lt.mp hmany, validateBindings_valid h⟩

/-! ## What the masks stand for -/

theorem Role.bit_injective : Function.Injective Role.bit := by
  intro left right h
  cases left <;> cases right <;> first | rfl | cases h

/-- The masks of one member hold the roles of the bindings in `S`. -/
structure CompiledMemberBindings.Encodes (compiled : CompiledMemberBindings)
    (S : RoleBinding → Prop) : Prop where
  all : BitMask.Encodes Role.bit compiled.all fun role => ∃ b, S b ∧ b.role = role
  workspace : BitMask.Encodes Role.bit compiled.workspace fun role =>
    ∃ b, S b ∧ b.scope.kind = .workspace ∧ b.role = role
  environment : ∀ id, BitMask.Encodes Role.bit (compiled.environment id) fun role =>
    ∃ b, S b ∧ (b.scope.kind = .environment ∧ scopeEnvironment b.scope = id) ∧ b.role = role

variable {compiled : CompiledMemberBindings}

theorem CompiledMemberBindings.Encodes.congr {S T : RoleBinding → Prop} (h : compiled.Encodes S)
    (hST : ∀ b, S b ↔ T b) : compiled.Encodes T := by
  have hset : S = T := funext fun b => propext (hST b)
  exact hset ▸ h

theorem CompiledMemberBindings.zero_encodes :
    CompiledMemberBindings.zero.Encodes fun _ => False := by
  refine ⟨?_, ?_, fun id => ?_⟩
  all_goals
    refine BitMask.Encodes.zero.congr ?_
    simp

/-- One more binding sets the bit of its role in the masks of its scope. -/
theorem CompiledMemberBindings.Encodes.add {S : RoleBinding → Prop} (h : compiled.Encodes S)
    (binding : RoleBinding) : (compiled.add binding).Encodes fun b => S b ∨ b = binding := by
  have hbit : BitMask.Encodes Role.bit (2 ^ binding.role.bit) (fun role => role = binding.role) :=
    BitMask.Encodes.single binding.role
  have hall : BitMask.Encodes Role.bit (compiled.all ||| maskForRole binding.role) fun role =>
      ∃ b, (S b ∨ b = binding) ∧ b.role = role := by
    refine (h.all.union hbit).congr fun role => ?_
    simp only [or_and_right, exists_or, exists_eq_left, eq_comm (a := role)]
  cases hkind : binding.scope.kind with
  | workspace =>
    simp only [CompiledMemberBindings.add, hkind]
    refine ⟨hall, ?_, fun id => ?_⟩
    · refine (h.workspace.union hbit).congr fun role => ?_
      simp only [or_and_right, exists_or, exists_eq_left, hkind, true_and, eq_comm (a := role)]
    · refine (h.environment id).congr fun role => ?_
      simp only [or_and_right, exists_or, exists_eq_left, hkind, reduceCtorEq, false_and, or_false]
  | environment =>
    simp only [CompiledMemberBindings.add, hkind]
    refine ⟨hall, ?_, fun id => ?_⟩
    · refine h.workspace.congr fun role => ?_
      simp only [or_and_right, exists_or, exists_eq_left, hkind, reduceCtorEq, false_and, or_false]
    · by_cases hid : id = scopeEnvironment binding.scope
      · subst hid
        simp only [CompiledMemberBindings.environment, AList.lookup_insert, Option.getD_some]
        refine ((h.environment _).union hbit).congr fun role => ?_
        simp only [or_and_right, exists_or, exists_eq_left, hkind, true_and, eq_comm (a := role)]
      · simp only [CompiledMemberBindings.environment, AList.lookup_insert_ne hid]
        refine (h.environment id).congr fun role => ?_
        simp only [or_and_right, exists_or, exists_eq_left, Ne.symm hid, and_false, false_and,
          or_false]

/-- The compiled map holds, per member, the roles of that member's bindings in `seen`. -/
def CompiledBindings.Encodes (bindings : CompiledBindings) (seen : List RoleBinding) : Prop :=
  ∀ id, (bindings.member id).Encodes fun b => b ∈ seen ∧ b.memberID = id

theorem compileBinding_encodes {bindings : CompiledBindings} {seen : List RoleBinding}
    (h : bindings.Encodes seen) (binding : RoleBinding) :
    (compileBinding bindings binding).Encodes (seen ++ [binding]) := by
  intro id
  by_cases hid : id = binding.memberID
  · subst hid
    have hmember : (compileBinding bindings binding).member binding.memberID =
        (bindings.member binding.memberID).add binding := by
      simp only [compileBinding, CompiledBindings.member, AList.lookup_insert, Option.getD_some]
    rw [hmember]
    refine ((h binding.memberID).add binding).congr fun b => ?_
    simp only [List.mem_append, List.mem_singleton]
    constructor
    · rintro (⟨hb, hm⟩ | rfl)
      · exact ⟨Or.inl hb, hm⟩
      · exact ⟨Or.inr rfl, rfl⟩
    · rintro ⟨hb | rfl, hm⟩
      · exact Or.inl ⟨hb, hm⟩
      · exact Or.inr rfl
  · have hmember : (compileBinding bindings binding).member id = bindings.member id := by
      simp only [compileBinding, CompiledBindings.member, AList.lookup_insert_ne hid]
    rw [hmember]
    refine (h id).congr fun b => ?_
    simp only [List.mem_append, List.mem_singleton]
    constructor
    · rintro ⟨hb, hm⟩
      exact ⟨Or.inl hb, hm⟩
    · rintro ⟨hb | rfl, hm⟩
      · exact ⟨hb, hm⟩
      · exact absurd hm.symm hid

theorem compileBindings_encodes {bindings : CompiledBindings} {seen : List RoleBinding}
    (h : bindings.Encodes seen) (more : List RoleBinding) :
    (more.foldl compileBinding bindings).Encodes (seen ++ more) := by
  induction more generalizing bindings seen with
  | nil => simpa using h
  | cons binding rest ih =>
    have hrest := ih (compileBinding_encodes h binding)
    simpa using hrest

theorem compilePolicyBindings_encodes (policies : List PolicyRevision) :
    (compilePolicyBindings policies).Encodes
      (policies.flatMap fun policy => policy.spec.list) := by
  have hrun : ∀ (rest : List PolicyRevision) (bindings : CompiledBindings)
      (seen : List RoleBinding), bindings.Encodes seen →
      (rest.foldl (fun bindings policy => policy.spec.list.foldl compileBinding bindings)
        bindings).Encodes (seen ++ rest.flatMap fun policy => policy.spec.list) := by
    intro rest
    induction rest with
    | nil =>
      intro bindings seen h
      simpa using h
    | cons policy rest ih =>
      intro bindings seen h
      have hrest := ih _ _ (compileBindings_encodes h policy.spec.list)
      simpa using hrest
  have hzero : CompiledBindings.Encodes ∅ [] := by
    intro id
    refine CompiledMemberBindings.zero_encodes.congr fun b => ?_
    simp
  exact hrun policies ∅ [] hzero

/-! ## The declarative reading -/

/-- A directory member with exactly the principal's kind and logical identity. -/
def MemberDirectory.Has (directory : MemberDirectory) (principal : Principal)
    (member : MemberRecord) : Prop :=
  member ∈ directory.ordered ∧ member.kind = principal.kind ∧
    member.logicalIdentity = principal.logicalIdentity

/-- Some policy has the binding, and the binding names the member. -/
def Binds (policies : List PolicyRevision) (member : MemberRecord) (binding : RoleBinding) : Prop :=
  (∃ policy ∈ policies, binding ∈ policy.spec.list) ∧ binding.memberID = member.id

/-- The scope is the Workspace or exactly the target's Environment. -/
def Scope.Reaches (scope : Scope) (target : Target) : Prop :=
  scope.kind = .workspace ∨
    scope.kind = .environment ∧ ∃ id, scope.environmentID = some id ∧ target.environmentID = some id

/-- The member reads its own membership or has a binding with the property. -/
def Entitled (policies : List PolicyRevision) (input : Input) (member : MemberRecord)
    (P : RoleBinding → Prop) : Prop :=
  readsOwnMembership input member = true ∨ ∃ binding, Binds policies member binding ∧ P binding

def Permitted (workspaceID : ID) (directory : MemberDirectory) (policies : List PolicyRevision)
    (input : Input) : Prop :=
  input.target.workspaceID = workspaceID ∧ actionReserved input.action input.target = false ∧
    ∃ member, directory.Has input.principal member ∧
      Entitled policies input member fun binding =>
        binding.scope.Reaches input.target ∧
          roleAllows binding.role input.action input.target = true

/-- The conditions of a permission in their order, each with the reason its failure gives. -/
def conditions (workspaceID : ID) (directory : MemberDirectory) (policies : List PolicyRevision)
    (input : Input) : List (Reason × Prop) :=
  let someone (P : MemberRecord → Prop) := ∃ member, directory.Has input.principal member ∧ P member
  [(.crossWorkspace, input.target.workspaceID = workspaceID),
    (.reservedAction, actionReserved input.action input.target = false),
    (.noMembership, someone fun _ => True),
    (.noRoleBinding, someone fun member => Entitled policies input member fun _ => True),
    (.scopeNotGranted, someone fun member =>
      Entitled policies input member fun binding => binding.scope.Reaches input.target),
    (.actionNotGranted, someone fun member =>
      Entitled policies input member fun binding =>
        binding.scope.Reaches input.target ∧
          roleAllows binding.role input.action input.target = true)]

/-- The reason belongs to the first condition of the list that does not hold. -/
def FirstFailing (conditions : List (Reason × Prop)) (reason : Reason) : Prop :=
  ∃ before condition after, conditions = before ++ (reason, condition) :: after ∧
    ¬ condition ∧ ∀ earlier ∈ before, earlier.2

theorem RoleMask.roles_any {mask : RoleMask} {S : Role → Prop} {f : Role → Bool}
    (h : BitMask.Encodes Role.bit mask S) :
    (RoleMask.roles mask).any f = true ↔ ∃ role, S role ∧ f role = true := by
  have hall : ∀ role : Role, role ∈ allRoles := by
    intro role
    cases role <;> decide
  simp only [List.any_eq_true, RoleMask.roles, List.mem_filter, bne_iff_ne, maskForRole,
    h.test_iff Role.bit_injective, hall, true_and]

theorem CompiledMemberBindings.Encodes.rolesAt {S : RoleBinding → Prop} (h : compiled.Encodes S)
    (hS : ∀ b, S b → b.scope.Complete) (target : Target) :
    BitMask.Encodes Role.bit (compiled.rolesAt target) fun role =>
      ∃ b, S b ∧ b.scope.Reaches target ∧ b.role = role := by
  unfold CompiledMemberBindings.rolesAt
  cases htarget : target.environmentID with
  | none =>
    refine h.workspace.congr fun role => ?_
    simp only [Scope.Reaches, htarget, reduceCtorEq, and_false, exists_false, or_false]
  | some id =>
    refine (h.workspace.union (h.environment id)).congr fun role => ?_
    rw [← exists_or]
    refine exists_congr fun b => ?_
    constructor
    · rintro (⟨hb, hkind, hrole⟩ | ⟨hb, ⟨hkind, hid⟩, hrole⟩)
      · exact ⟨hb, Or.inl hkind, hrole⟩
      · obtain ⟨environmentID, henv⟩ := hS b hb hkind
        rw [scopeEnvironment, henv, Option.getD_some] at hid
        exact ⟨hb, Or.inr ⟨hkind, environmentID, henv, by rw [htarget, hid]⟩, hrole⟩
    · rintro ⟨hb, hkind | ⟨hkind, environmentID, henv, hid⟩, hrole⟩
      · exact Or.inl ⟨hb, hkind, hrole⟩
      · rw [htarget, Option.some_inj] at hid
        exact Or.inr ⟨hb, ⟨hkind, by rw [scopeEnvironment, henv, Option.getD_some, hid]⟩, hrole⟩

section
variable [Sha256] [URLParser] {snapshot : Snapshot} {directory : MemberDirectory}
  {policies : List PolicyRevision} {set : PolicySet} {input : Input}

theorem validatePolicyReferences_spec {spec : PolicySpec}
    (h : validatePolicyReferences spec snapshot directory = .ok ()) :
    validatePolicySpec spec = .ok () := by
  unfold validatePolicyReferences at h
  split at h
  · cases h
  · assumption

theorem validatePolicyRevision_references {policy : PolicyRevision}
    (h : validatePolicyRevision policy snapshot directory = .ok ()) :
    validatePolicyReferences policy.spec snapshot directory = .ok () := by
  revert h
  fun_cases validatePolicyRevision policy snapshot directory
  all_goals first | (intro h; cases h; done) | (intro; assumption)

theorem admitPolicies_valid {seen : List ID}
    (h : policies.foldlM (admitPolicy snapshot directory) [] = .ok seen) :
    ∀ policy ∈ policies, validatePolicyRevision policy snapshot directory = .ok () := by
  refine StepMachine.foldlM_ok_rule
    (P := fun done _ => ∀ policy ∈ done, validatePolicyRevision policy snapshot directory = .ok ())
    ?_ (by simp) h
  intro done seen policy seen' hdone hstep other hother
  rcases List.mem_append.mp hother with hmem | hmem
  · exact hdone other hmem
  rw [List.mem_singleton.mp hmem]
  unfold admitPolicy at hstep
  split at hstep
  · cases hstep
  · assumption

theorem newPolicySet_ok (h : newPolicySet snapshot directory policies = .ok set) :
    validateMemberDirectory directory = true ∧ directory.workspaceID = snapshot.workspaceID ∧
      (∀ policy ∈ policies, validatePolicyRevision policy snapshot directory = .ok ()) ∧
      set.initialized = true ∧ set.workspaceID = snapshot.workspaceID ∧
      set.directory = directory ∧ set.version.initialized = true ∧
      ∃ owned : List PolicyRevision, owned.Perm policies ∧
        set.bindings = compilePolicyBindings owned := by
  revert h
  fun_cases newPolicySet snapshot directory policies
  case case7 hdirectory hworkspace hcount seen hseen owned =>
    intro h
    cases h
    have howner := (not_or.mp hworkspace).1
    exact ⟨by simpa using hdirectory, not_not.mp howner, admitPolicies_valid hseen, rfl, rfl, rfl,
      rfl, owned, List.perm_insertionSort _ _, rfl⟩
  all_goals
    intro h
    cases h

/-! ## The compiled set decides it -/

theorem validateInput_principal (h : validateInput input = .ok ()) :
    (Identity.validateLogicalIdentity input.principal.logicalIdentity).isOk = true := by
  unfold validateInput at h
  split_ifs at h with hprincipal htarget
  rw [Bool.not_eq_true, Bool.not_eq_false'] at hprincipal
  exact Identity.validatePrincipal_logical hprincipal

theorem MemberDirectory.find_eq_some_iff {principal : Principal} {member : MemberRecord}
    (hdirectory : directory.Indexed)
    (hvalid : (Identity.validateLogicalIdentity principal.logicalIdentity).isOk = true) :
    directory.find principal = some member ↔ directory.Has principal member := by
  unfold MemberDirectory.find
  constructor
  · intro h
    split at h
    · cases h
    rename_i memberID hkey
    split at h
    · cases h
    rename_i found hfound
    split_ifs at h with hsame
    cases h
    have hlogical := (Identity.equalLogicalIdentity_iff.mp hsame.2).2
    exact ⟨((hdirectory.byID _ _).mp hfound).1, hsame.1, hlogical⟩
  · rintro ⟨hmem, hkind, hlogical⟩
    have hkey : directory.byIdentity.lookup (memberKey principal.kind principal.logicalIdentity) =
        some member.id :=
      (hdirectory.byIdentity _ _).mpr ⟨member, hmem, by rw [hkind, hlogical], rfl⟩
    have hfound : directory.byID.lookup member.id = some member :=
      (hdirectory.byID _ _).mpr ⟨hmem, rfl⟩
    have hequal : equalLogicalIdentity member.logicalIdentity principal.logicalIdentity = true :=
      Identity.equalLogicalIdentity_iff.mpr ⟨hlogical ▸ hvalid, hlogical⟩
    simp only [hkey, hfound]
    rw [if_pos ⟨hkind, hequal⟩]

section
variable (h : newPolicySet snapshot directory policies = .ok set)
include h

theorem newPolicySet_encodes (member : MemberRecord) :
    (set.bindings.member member.id).Encodes (Binds policies member) := by
  obtain ⟨-, -, -, -, -, -, -, owned, hperm, hbindings⟩ := newPolicySet_ok h
  rw [hbindings]
  refine (compilePolicyBindings_encodes owned member.id).congr fun b => ?_
  simp only [Binds, List.mem_flatMap, hperm.mem_iff]

theorem newPolicySet_complete {member : MemberRecord} {binding : RoleBinding}
    (hbinds : Binds policies member binding) : binding.scope.Complete := by
  obtain ⟨-, -, hvalid, -⟩ := newPolicySet_ok h
  obtain ⟨⟨policy, hpolicy, hbinding⟩, -⟩ := hbinds
  have hreferences := validatePolicyRevision_references (hvalid policy hpolicy)
  have hbindings := (validatePolicySpec_bindings (validatePolicyReferences_spec hreferences)).2
  exact validateRoleBinding_complete (hbindings binding hbinding)

theorem outcome_of_member {member : MemberRecord} (hown : readsOwnMembership input member = false)
    (hworkspace : input.target.workspaceID = set.workspaceID)
    (hreserved : actionReserved input.action input.target = false)
    (hfind : set.directory.find input.principal = some member) :
    (set.outcome input = (.deny, .noRoleBinding) ∧ ∀ b, ¬ Binds policies member b) ∨
      (set.outcome input = (.deny, .scopeNotGranted) ∧ (∃ b, Binds policies member b) ∧
        ∀ b, Binds policies member b → ¬ b.scope.Reaches input.target) ∨
      (set.outcome input = (.deny, .actionNotGranted) ∧
        (∃ b, Binds policies member b ∧ b.scope.Reaches input.target) ∧
        ∀ b, Binds policies member b → b.scope.Reaches input.target →
          roleAllows b.role input.action input.target = false) ∨
      (set.outcome input = (.allow, .roleGranted) ∧
        ∃ b, Binds policies member b ∧ b.scope.Reaches input.target ∧
          roleAllows b.role input.action input.target = true) := by
  have hmasks := newPolicySet_encodes h member
  have hroles := hmasks.rolesAt (fun b hb => newPolicySet_complete h hb) input.target
  have hall := hmasks.all.eq_zero_iff
  have hzero := hroles.eq_zero_iff
  have hany := RoleMask.roles_any (f := (roleAllows · input.action input.target)) hroles
  unfold PolicySet.outcome
  rw [if_neg (not_not.mpr hworkspace), hreserved, hfind]
  simp only [hown, Bool.false_eq_true, if_false]
  split_ifs with hunbound hscope hallows
  · refine Or.inl ⟨rfl, fun b hb => ?_⟩
    exact hall.mp hunbound b.role ⟨b, hb, rfl⟩
  · obtain ⟨role, b, hb, -⟩ := not_forall_not.mp (mt hall.mpr hunbound)
    refine Or.inr (Or.inl ⟨rfl, ⟨b, hb⟩, fun b hb hreach => ?_⟩)
    exact hzero.mp hscope b.role ⟨b, hb, hreach, rfl⟩
  · obtain ⟨role, ⟨b, hb, hreach, rfl⟩, hallowed⟩ := hany.mp hallows
    exact Or.inr (Or.inr (Or.inr ⟨rfl, b, hb, hreach, hallowed⟩))
  · obtain ⟨role, b, hb, hreach, -⟩ := not_forall_not.mp (mt hzero.mpr hscope)
    refine Or.inr (Or.inr (Or.inl ⟨rfl, ⟨b, hb, hreach⟩, fun b hb hreach => ?_⟩))
    rw [← Bool.not_eq_true]
    intro hallowed
    exact hallows (hany.mpr ⟨b.role, ⟨b, hb, hreach, rfl⟩, hallowed⟩)

theorem outcome_declarative (hinput : validateInput input = .ok ()) :
    (set.outcome input = (.allow, .roleGranted) ∧
        Permitted set.workspaceID directory policies input) ∨
      ∃ reason, set.outcome input = (.deny, reason) ∧
        ¬ Permitted set.workspaceID directory policies input ∧
        FirstFailing (conditions set.workspaceID directory policies input) reason := by
  obtain ⟨hdirectory, -, -, -, -, hsame, -, -⟩ := newPolicySet_ok h
  have hfind : ∀ member, set.directory.find input.principal = some member ↔
      directory.Has input.principal member := by
    intro member
    rw [hsame]
    exact MemberDirectory.find_eq_some_iff (validateMemberDirectory_indexed hdirectory)
      (validateInput_principal hinput)
  by_cases hworkspace : input.target.workspaceID = set.workspaceID
  swap
  · refine Or.inr ⟨.crossWorkspace, ?_, fun hp => hworkspace hp.1, [], _, _, rfl, hworkspace, by simp⟩
    simp [PolicySet.outcome, hworkspace]
  by_cases hreserved : actionReserved input.action input.target = false
  swap
  · refine Or.inr ⟨.reservedAction, ?_, fun hp => hreserved hp.2.1, [_], _, _, rfl, hreserved, ?_⟩
    · rw [Bool.not_eq_false] at hreserved
      simp [PolicySet.outcome, hworkspace, hreserved]
    · simpa using hworkspace
  cases hmember : set.directory.find input.principal with
  | none =>
    have hnobody : ∀ member, ¬ directory.Has input.principal member := by
      intro member hhas
      rw [← hfind, hmember] at hhas
      cases hhas
    refine Or.inr ⟨.noMembership, ?_, fun ⟨_, _, member, hhas, _⟩ => hnobody member hhas,
      [_, _], _, _, rfl, fun ⟨member, hhas, _⟩ => hnobody member hhas, ?_⟩
    · simp [PolicySet.outcome, hworkspace, hreserved, hmember]
    · simpa using ⟨hworkspace, hreserved⟩
  | some member =>
    have hhas := (hfind member).mp hmember
    -- the directory has one such member only
    have honly : ∀ other, directory.Has input.principal other → other = member := by
      intro other hother
      rw [← hfind, hmember] at hother
      exact (Option.some.inj hother).symm
    by_cases hown : readsOwnMembership input member = true
    · refine Or.inl ⟨?_, hworkspace, hreserved, member, hhas, Or.inl hown⟩
      simp [PolicySet.outcome, hworkspace, hreserved, hmember, hown]
    rw [Bool.not_eq_true] at hown
    -- so being entitled is having a binding
    have hentitled : ∀ P, (∃ other, directory.Has input.principal other ∧
        Entitled policies input other P) ↔ ∃ b, Binds policies member b ∧ P b := by
      intro P
      constructor
      · rintro ⟨other, hother, hself | hbound⟩
        · rw [honly other hother, hown] at hself
          cases hself
        · rwa [honly other hother] at hbound
      · intro hbound
        exact ⟨member, hhas, Or.inr hbound⟩
    rcases outcome_of_member h hown hworkspace hreserved hmember with
      ⟨hout, hnone⟩ | ⟨hout, hbound, hnone⟩ | ⟨hout, hbound, hnone⟩ | ⟨hout, hbound⟩
    · refine Or.inr ⟨.noRoleBinding, hout, ?_, [_, _, _], _, _, rfl, ?_, ?_⟩
      · rintro ⟨-, -, hp⟩
        obtain ⟨b, hb, -⟩ := (hentitled _).mp hp
        exact hnone b hb
      · intro hp
        obtain ⟨b, hb, -⟩ := (hentitled _).mp hp
        exact hnone b hb
      · simpa using ⟨hworkspace, hreserved, member, hhas⟩
    · refine Or.inr ⟨.scopeNotGranted, hout, ?_, [_, _, _, _], _, _, rfl, ?_, ?_⟩
      · rintro ⟨-, -, hp⟩
        obtain ⟨b, hb, hreach, -⟩ := (hentitled _).mp hp
        exact hnone b hb hreach
      · intro hp
        obtain ⟨b, hb, hreach⟩ := (hentitled _).mp hp
        exact hnone b hb hreach
      · simpa [hentitled] using ⟨hworkspace, hreserved, ⟨member, hhas⟩, hbound⟩
    · refine Or.inr ⟨.actionNotGranted, hout, ?_, [_, _, _, _, _], _, _, rfl, ?_, ?_⟩
      · rintro ⟨-, -, hp⟩
        obtain ⟨b, hb, hreach, hallowed⟩ := (hentitled _).mp hp
        rw [hnone b hb hreach] at hallowed
        cases hallowed
      · intro hp
        obtain ⟨b, hb, hreach, hallowed⟩ := (hentitled _).mp hp
        rw [hnone b hb hreach] at hallowed
        cases hallowed
      · obtain ⟨b, hb, hreach⟩ := hbound
        simpa [hentitled] using
          ⟨hworkspace, hreserved, ⟨member, hhas⟩, ⟨b, hb⟩, b, hb, hreach⟩
    · exact Or.inl ⟨hout, hworkspace, hreserved, (hentitled _).mpr hbound⟩

theorem evaluate_ok (hinput : validateInput input = .ok ()) :
    set.evaluate input = .ok ⟨true, set.version, deriveInputDigest input, (set.outcome input).1,
      (set.outcome input).2⟩ := by
  obtain ⟨hdirectory, hworkspace, -, hinit, hset, hsame, hversion, -⟩ := newPolicySet_ok h
  have hindexed := (validateMemberDirectory_indexed hdirectory).initialized
  unfold PolicySet.evaluate
  rw [hinput]
  simp [hinit, hversion, hsame, hindexed, hset, hworkspace]

end

/-- The compiled authorizer equals the declarative reading, reasons included. -/
theorem evaluate_declarative (h : newPolicySet snapshot directory policies = .ok set)
    (hinput : validateInput input = .ok ()) :
    ∃ decision, set.evaluate input = .ok decision ∧
      (decision.effect = .allow ↔ Permitted set.workspaceID directory policies input) ∧
      (decision.effect = .deny →
        FirstFailing (conditions set.workspaceID directory policies input) decision.reason) := by
  refine ⟨_, evaluate_ok h hinput, ?_⟩
  rcases outcome_declarative h hinput with ⟨hout, hp⟩ | ⟨reason, hout, hp, hfirst⟩
  · simp [hout, hp]
  · simp [hout, hp, hfirst]

end

/-! ## A viewer of one Environment -/

def sampleRecords : List Record :=
  [⟨"v1alpha1", "wsp_0000000000000001", .workspace, "wsp_0000000000000001", none⟩,
    ⟨"v1alpha1", "env_0000000000000002", .environment, "wsp_0000000000000001",
      some "wsp_0000000000000001"⟩,
    ⟨"v1alpha1", "pol_0000000000000003", .policy, "wsp_0000000000000001",
      some "wsp_0000000000000001"⟩]

def sampleSnapshot : Snapshot :=
  match Hierarchy.newSnapshot "wsp_0000000000000001" sampleRecords with
  | .ok snapshot => snapshot
  | .error _ => ⟨false, "", ∅, []⟩

attribute [local instance] Reconcile.plainSha256 Identity.plainURLParser

def sampleIdentity : Identity.LogicalIdentity :=
  ⟨Identity.sampleIssuer, "viewer", Identity.deriveFingerprint Identity.sampleIssuer "viewer"⟩

def sampleMember : MemberRecord :=
  ⟨true, "mem_0000000000000004", "wsp_0000000000000001", .human, sampleIdentity⟩

def sampleDirectory : MemberDirectory :=
  ⟨true, "wsp_0000000000000001", (∅ : AList _).insert sampleMember.id sampleMember,
    (∅ : AList _).insert (memberKey .human sampleIdentity) sampleMember.id, [sampleMember]⟩

def samplePolicies : List PolicyRevision :=
  [⟨⟨"v1alpha1", "pol_0000000000000003", .policy, "wsp_0000000000000001",
      some "wsp_0000000000000001"⟩, 1,
    ⟨some [⟨"mem_0000000000000004", .viewer, ⟨.environment, some "env_0000000000000002"⟩⟩]⟩⟩]

def sampleInput : Input :=
  ⟨⟨.human, sampleIdentity, ["veer"], [], none⟩, .resourceGet,
    ⟨true, .resource, "env_0000000000000002", .environment, "env_0000000000000002",
      "wsp_0000000000000001", some "env_0000000000000002", none⟩⟩

theorem evaluate_declarative_viewer :
    ∃ set, newPolicySet sampleSnapshot sampleDirectory samplePolicies = .ok set ∧
      ∃ decision, set.evaluate sampleInput = .ok decision ∧
        (decision.effect = .allow ↔
          Permitted set.workspaceID sampleDirectory samplePolicies sampleInput) ∧
        (decision.effect = .deny →
          FirstFailing (conditions set.workspaceID sampleDirectory samplePolicies sampleInput)
            decision.reason) := by
  have hok : (newPolicySet sampleSnapshot sampleDirectory samplePolicies).isOk = true := by
    decide +kernel
  cases hset : newPolicySet sampleSnapshot sampleDirectory samplePolicies with
  | error =>
    rw [hset] at hok
    cases hok
  | ok set =>
    exact ⟨set, rfl, evaluate_declarative hset (by decide +kernel)⟩

end Veer.Authorization
