import Veer.PolicySemantics

/-!
# What directories and policy sets are accepted

The constructors read members and policies in the order in which they are given and refuse the first
that fails a check. Acceptance does not depend on that order, and the accepted value holds its rows
sorted by identifier.
-/
namespace Veer.Authorization
open Reconcile (ID validID Sha256)
open Hierarchy (Record Snapshot)
open Identity (URLParser)

/-! ## Rows sorted by identifier -/

/-- The order of the members in a directory. -/
def sortMembers (members : List MemberRecord) : List MemberRecord :=
  members.insertionSort fun left right => left.id ≤ right.id

/-- The order of the policies in a set. -/
def sortPolicies (policies : List PolicyRevision) : List PolicyRevision :=
  policies.insertionSort fun left right => left.record.id ≤ right.record.id

theorem insertionSort_eq_of_perm {α : Type*} {key : α → String} {l m : List α} (hperm : l.Perm m)
    (hdistinct : (l.map key).Nodup) :
    (l.insertionSort fun a b => key a ≤ key b) = m.insertionSort fun a b => key a ≤ key b := by
  have hleft := List.perm_insertionSort (fun a b => key a ≤ key b) l
  have hright := List.perm_insertionSort (fun a b => key a ≤ key b) m
  have hsorted : ∀ l : List α, List.Pairwise (fun a b => key a ≤ key b)
      (l.insertionSort fun a b => key a ≤ key b) := fun l => List.pairwise_insertionSort _ l
  refine List.Perm.eq_of_pairwise ?_ (hsorted l) (hsorted m) ?_
  · intro a b ha hb hab hba
    have hb' := hperm.mem_iff.mpr (hright.mem_iff.mp hb)
    exact List.inj_on_of_nodup_map hdistinct (hleft.mem_iff.mp ha) hb' (le_antisymm hab hba)
  · exact hleft.trans (hperm.trans hright.symm)

theorem strictlySorted_of_pairwise {values : List String} (h : values.Pairwise (· < ·)) :
    Identity.strictlySorted values = true := by
  induction values with
  | nil => rfl
  | cons a rest ih =>
    cases rest with
    | nil => rfl
    | cons b =>
      obtain ⟨hhead, htail⟩ := List.pairwise_cons.mp h
      simp [Identity.strictlySorted, hhead b List.mem_cons_self, ih htail]

theorem sortMembers_strict {members : List MemberRecord}
    (h : (members.map MemberRecord.id).Nodup) :
    ((sortMembers members).map MemberRecord.id).Pairwise (· < ·) := by
  have hperm := List.perm_insertionSort (fun left right => left.id ≤ right.id) members
  have hnodup : ((sortMembers members).map MemberRecord.id).Nodup :=
    (hperm.map MemberRecord.id).nodup_iff.mpr h
  have hsorted : ((sortMembers members).map MemberRecord.id).Pairwise (· ≤ ·) :=
    List.pairwise_map.mpr (List.pairwise_insertionSort _ members)
  exact (hsorted.and hnodup).imp fun ⟨hle, hne⟩ => lt_of_le_of_ne hle hne

/-! ## Directories -/

section
variable [Sha256] [URLParser] {directory : MemberDirectory} {workspaceID : ID}
  {members members' : List MemberRecord}

variable {maps : AList (fun _ : ID => MemberRecord) × AList (fun _ : MemberIdentityKey => ID)}
variable {maps' : AList (fun _ : ID => MemberRecord) × AList (fun _ : MemberIdentityKey => ID)}

theorem indexMember_ok_iff {member : MemberRecord} :
    indexMember workspaceID maps member = .ok maps' ↔
      (validateMemberRecord member = true ∧ member.workspaceID = workspaceID ∧
        member.id ∉ maps.1 ∧ memberKey member.kind member.logicalIdentity ∉ maps.2) ∧
        maps' = (maps.1.insert member.id member,
          maps.2.insert (memberKey member.kind member.logicalIdentity) member.id) := by
  unfold indexMember
  split_ifs with hvalid howned hid hkey
  · simp only [Bool.not_eq_true'] at hvalid
    simp [hvalid]
  · simp [howned]
  · simp [hid]
  · simp [hkey]
  · simp only [Bool.not_eq_true', Bool.not_eq_false] at hvalid
    simp only [not_not] at howned
    simp [hvalid, howned, hid, hkey, eq_comm]

/-- The checks of `NewMemberDirectory`. -/
structure Admissible (workspaceID : ID) (members : List MemberRecord) : Prop where
  workspace : validID workspaceID = true
  count : members.length ≤ maxMembers
  valid : ∀ member ∈ members, validateMemberRecord member = true
  owned : ∀ member ∈ members, member.workspaceID = workspaceID
  ids : (members.map MemberRecord.id).Nodup
  keys : (members.map fun member => memberKey member.kind member.logicalIdentity).Nodup

theorem Admissible.perm (h : Admissible workspaceID members) (hperm : members.Perm members') :
    Admissible workspaceID members' :=
  ⟨h.workspace, hperm.length_eq ▸ h.count, fun member hm => h.valid member (hperm.mem_iff.mpr hm),
    fun member hm => h.owned member (hperm.mem_iff.mpr hm), (hperm.map _).nodup_iff.mp h.ids,
    (hperm.map _).nodup_iff.mp h.keys⟩

/-- The two maps after the members of a list, indexed in turn. -/
structure Indexes (workspaceID : ID) (members : List MemberRecord)
    (maps : AList (fun _ : ID => MemberRecord) × AList (fun _ : MemberIdentityKey => ID)) :
    Prop where
  ids : maps.1.keys = (members.map MemberRecord.id).reverse
  keys : maps.2.keys =
    (members.map fun member => memberKey member.kind member.logicalIdentity).reverse
  valid : ∀ member ∈ members, validateMemberRecord member = true
  owned : ∀ member ∈ members, member.workspaceID = workspaceID
  byID : ∀ member ∈ members, maps.1.lookup member.id = some member
  byIdentity : ∀ member ∈ members,
    maps.2.lookup (memberKey member.kind member.logicalIdentity) = some member.id

theorem Indexes.nil : Indexes workspaceID [] (∅, ∅) :=
  ⟨rfl, rfl, by simp, by simp, by simp, by simp⟩

theorem Indexes.step {member : MemberRecord} (h : Indexes workspaceID members maps)
    (hstep : indexMember workspaceID maps member = .ok maps') :
    Indexes workspaceID (members ++ [member]) maps' := by
  obtain ⟨⟨hvalid, howned, hid, hkey⟩, rfl⟩ := indexMember_ok_iff.mp hstep
  refine ⟨?_, ?_, ?_, ?_, ?_, ?_⟩
  · rw [AList.keys_insert, List.erase_of_not_mem (mt AList.mem_keys.mpr hid), h.ids]
    simp
  · rw [AList.keys_insert, List.erase_of_not_mem (mt AList.mem_keys.mpr hkey), h.keys]
    simp
  · exact List.forall_mem_append.mpr ⟨h.valid, by simpa using hvalid⟩
  · exact List.forall_mem_append.mpr ⟨h.owned, by simpa using howned⟩
  · intro other hother
    rcases List.mem_append.mp hother with hmem | hmem
    · have hne : other.id ≠ member.id := by
        intro heq
        apply hid
        rw [← heq, ← AList.lookup_isSome, h.byID other hmem]
        rfl
      rw [AList.lookup_insert_ne hne]
      exact h.byID other hmem
    · rw [List.mem_singleton.mp hmem, AList.lookup_insert]
  · intro other hother
    rcases List.mem_append.mp hother with hmem | hmem
    · have hne : memberKey other.kind other.logicalIdentity ≠
          memberKey member.kind member.logicalIdentity := by
        intro heq
        apply hkey
        rw [← heq, ← AList.lookup_isSome, h.byIdentity other hmem]
        rfl
      rw [AList.lookup_insert_ne hne]
      exact h.byIdentity other hmem
    · rw [List.mem_singleton.mp hmem, AList.lookup_insert]

theorem Indexes.continues {rest : List MemberRecord} (h : Indexes workspaceID members maps)
    (hadmissible : Admissible workspaceID (members ++ rest)) :
    ∃ maps', rest.foldlM (indexMember workspaceID) maps = .ok maps' := by
  induction rest generalizing members maps with
  | nil => exact ⟨maps, rfl⟩
  | cons member rest ih =>
    have hmem : member ∈ members ++ member :: rest := by simp
    have hids := hadmissible.ids
    have hkeys := hadmissible.keys
    rw [List.map_append, List.map_cons, List.nodup_append] at hids hkeys
    have hid : member.id ∉ maps.1 := by
      rw [AList.mem_keys, h.ids, List.mem_reverse]
      exact fun hold => hids.2.2 _ hold _ List.mem_cons_self rfl
    have hkey : memberKey member.kind member.logicalIdentity ∉ maps.2 := by
      rw [AList.mem_keys, h.keys, List.mem_reverse]
      exact fun hold => hkeys.2.2 _ hold _ List.mem_cons_self rfl
    have hstep := indexMember_ok_iff.mpr
      ⟨⟨hadmissible.valid member hmem, hadmissible.owned member hmem, hid, hkey⟩, rfl⟩
    have hnext : Admissible workspaceID ((members ++ [member]) ++ rest) := by
      simpa using hadmissible
    obtain ⟨maps', hrest⟩ := ih (h.step hstep) hnext
    exact ⟨maps', by simp [List.foldlM_cons, hstep, bind, Except.bind, hrest]⟩

theorem Indexes.validate (h : Indexes workspaceID members maps)
    (hworkspace : validID workspaceID = true) (hcount : members.length ≤ maxMembers) :
    validateMemberDirectory ⟨true, workspaceID, maps.1, maps.2, sortMembers members⟩ = true := by
  have hperm := List.perm_insertionSort (fun left right => left.id ≤ right.id) members
  have hlength : (sortMembers members).length = members.length := hperm.length_eq
  have hids : (members.map MemberRecord.id).Nodup := by
    have hnodup := maps.1.keys_nodup
    rwa [h.ids, List.nodup_reverse] at hnodup
  have hsorted := strictlySorted_of_pairwise (sortMembers_strict hids)
  simp only [validateMemberDirectory, hworkspace, hsorted, Bool.true_and, Bool.and_true,
    Bool.and_eq_true, beq_iff_eq, decide_eq_true_eq, List.all_eq_true, MemberDirectory.indexes_iff]
  refine ⟨⟨⟨?_, ?_⟩, ?_⟩, ?_⟩
  · rw [h.ids, h.keys]
    simp
  · rw [h.ids, hlength]
    simp
  · rw [hlength]
    exact hcount
  · intro member hmember
    have hmem := hperm.mem_iff.mp hmember
    exact ⟨h.valid member hmem, h.owned member hmem, h.byID member hmem, h.byIdentity member hmem⟩

theorem newMemberDirectory_ok (h : newMemberDirectory workspaceID members = .ok directory) :
    Admissible workspaceID members ∧ validateMemberDirectory directory = true ∧
      directory.workspaceID = workspaceID ∧ directory.ordered = sortMembers members := by
  unfold newMemberDirectory at h
  split_ifs at h with hworkspace hcount
  split at h
  · cases h
  rename_i byID byIdentity hfold
  cases h
  have hindexes : Indexes workspaceID members (byID, byIdentity) :=
    StepMachine.foldlM_ok_rule (P := Indexes workspaceID)
      (fun done maps member maps' hdone hstep => hdone.step hstep) Indexes.nil hfold
  have hvalid : validID workspaceID = true := by simpa using hworkspace
  have hids := byID.keys_nodup
  have hkeys := byIdentity.keys_nodup
  rw [hindexes.ids, List.nodup_reverse] at hids
  rw [hindexes.keys, List.nodup_reverse] at hkeys
  exact ⟨⟨hvalid, not_lt.mp hcount, hindexes.valid, hindexes.owned, hids, hkeys⟩,
    hindexes.validate hvalid (not_lt.mp hcount), rfl, rfl⟩

theorem Admissible.newMemberDirectory_ok (h : Admissible workspaceID members) :
    ∃ directory, newMemberDirectory workspaceID members = .ok directory := by
  have hmembers : Admissible workspaceID ([] ++ members) := h
  obtain ⟨⟨byID, byIdentity⟩, hfold⟩ := Indexes.nil.continues hmembers
  refine ⟨⟨true, workspaceID, byID, byIdentity, sortMembers members⟩, ?_⟩
  unfold newMemberDirectory
  simp only [h.workspace, Bool.not_true, Bool.false_eq_true, if_false, hfold]
  rw [if_neg (not_lt.mpr h.count)]
  rfl

end

/-! ## Policy sets -/

theorem resolveBindings_congr {snapshot : Snapshot} {directory directory' : MemberDirectory}
    (hworkspace : directory'.workspaceID = directory.workspaceID)
    (hlookup : ∀ id, directory'.byID.lookup id = directory.byID.lookup id) (index : Nat)
    (bindings : List RoleBinding) :
    resolveBindings snapshot directory' index bindings =
      resolveBindings snapshot directory index bindings := by
  induction bindings generalizing index with
  | nil => rfl
  | cons binding rest ih =>
    have hresolve : resolveBinding snapshot directory' binding =
        resolveBinding snapshot directory binding := by
      unfold resolveBinding
      rw [hlookup, hworkspace]
    unfold resolveBindings
    rw [hresolve, ih]

section
variable [Sha256] [URLParser] {snapshot : Snapshot} {directory directory' : MemberDirectory}
  {policies policies' : List PolicyRevision} {set : PolicySet}

theorem admitPolicy_ok_iff {seen seen' : List ID} {policy : PolicyRevision} :
    admitPolicy snapshot directory seen policy = .ok seen' ↔
      validatePolicyRevision policy snapshot directory = .ok () ∧ policy.record.id ∉ seen ∧
        seen' = seen ++ [policy.record.id] := by
  unfold admitPolicy
  split
  · rename_i failure hinvalid
    simp [hinvalid]
  rename_i hvalid
  split_ifs with hseen
  · simp [hseen]
  · simp [hvalid, hseen, eq_comm]

theorem admitPolicies_iff {seen : List ID} :
    (∃ seen', policies.foldlM (admitPolicy snapshot directory) seen = .ok seen') ↔
      (∀ policy ∈ policies, validatePolicyRevision policy snapshot directory = .ok () ∧
        policy.record.id ∉ seen) ∧ (policies.map fun policy => policy.record.id).Nodup := by
  induction policies generalizing seen with
  | nil => simp [pure, Except.pure]
  | cons policy rest ih =>
    simp only [List.foldlM_cons, bind, Except.bind, List.map_cons, List.nodup_cons,
      List.forall_mem_cons]
    cases hstep : admitPolicy snapshot directory seen policy with
    | error =>
      have hrefused : ¬ (validatePolicyRevision policy snapshot directory = .ok () ∧
          policy.record.id ∉ seen) := by
        rintro ⟨hvalid, hseen⟩
        have hok := admitPolicy_ok_iff.mpr ⟨hvalid, hseen, rfl⟩
        rw [hstep] at hok
        cases hok
      simp [hrefused]
    | ok =>
      obtain ⟨hvalid, hseen, rfl⟩ := admitPolicy_ok_iff.mp hstep
      have htail : (∀ other ∈ rest, validatePolicyRevision other snapshot directory = .ok () ∧
          other.record.id ∉ seen ++ [policy.record.id]) ↔
          (∀ other ∈ rest, validatePolicyRevision other snapshot directory = .ok () ∧
            other.record.id ∉ seen) ∧
            policy.record.id ∉ rest.map fun other => other.record.id := by
        simp only [List.mem_append, List.mem_singleton, not_or, List.mem_map, not_exists, not_and]
        exact ⟨fun h => ⟨fun o ho => ⟨(h o ho).1, (h o ho).2.1⟩, fun o ho => (h o ho).2.2⟩,
          fun h o ho => ⟨(h.1 o ho).1, (h.1 o ho).2, h.2 o ho⟩⟩
      rw [ih, htail]
      simp [hvalid, hseen, and_assoc]

/-- The checks of `NewPolicySet`. -/
structure Acceptable (snapshot : Snapshot) (directory : MemberDirectory)
    (policies : List PolicyRevision) : Prop where
  root : ∃ workspace, snapshot.lookup snapshot.workspaceID = .ok workspace ∧
    workspace.kind = .workspace ∧ workspace.workspaceID = directory.workspaceID
  members : validateMemberDirectory directory = true
  workspace : directory.workspaceID = snapshot.workspaceID
  count : policies.length ≤ maxPolicies
  valid : ∀ policy ∈ policies, validatePolicyRevision policy snapshot directory = .ok ()
  distinct : (policies.map fun policy => policy.record.id).Nodup

/-- The set that accepted policies compile to. -/
def compilePolicySet (snapshot : Snapshot) (directory : MemberDirectory)
    (policies : List PolicyRevision) : PolicySet :=
  ⟨true, snapshot.workspaceID, directory, sortPolicies policies,
    compilePolicyBindings (sortPolicies policies),
    derivePolicyVersion directory (sortPolicies policies)⟩

theorem newPolicySet_acceptable (h : newPolicySet snapshot directory policies = .ok set) :
    Acceptable snapshot directory policies ∧ set = compilePolicySet snapshot directory policies := by
  revert h
  fun_cases newPolicySet snapshot directory policies
  case case7 workspace hlookup hkind hdirectory hworkspace hcount seen hseen owned =>
    intro h
    cases h
    obtain ⟨howner, hroot⟩ := not_or.mp hworkspace
    obtain ⟨hvalid, hdistinct⟩ := admitPolicies_iff.mp ⟨seen, hseen⟩
    refine ⟨?_, rfl⟩
    exact ⟨⟨workspace, hlookup, not_not.mp hkind, not_not.mp hroot⟩, by simpa using hdirectory,
      not_not.mp howner, not_lt.mp hcount, fun policy hpolicy => (hvalid policy hpolicy).1,
      hdistinct⟩
  all_goals
    intro h
    cases h

theorem Acceptable.newPolicySet_eq (h : Acceptable snapshot directory policies) :
    newPolicySet snapshot directory policies =
      .ok (compilePolicySet snapshot directory policies) := by
  obtain ⟨workspace, hlookup, hkind, hroot⟩ := h.root
  obtain ⟨seen, hseen⟩ := admitPolicies_iff.mpr
    ⟨fun policy hpolicy => ⟨h.valid policy hpolicy, List.not_mem_nil⟩, h.distinct⟩
  have hmismatch : ¬ (directory.workspaceID ≠ snapshot.workspaceID ∨
      workspace.workspaceID ≠ directory.workspaceID) :=
    not_or.mpr ⟨not_not.mpr h.workspace, not_not.mpr hroot⟩
  unfold newPolicySet
  simp only [hlookup, h.members, Bool.not_true, Bool.false_eq_true, if_false, hseen]
  rw [if_neg (not_not.mpr hkind), if_neg hmismatch, if_neg (not_lt.mpr h.count)]
  rfl

theorem validateMemberDirectory_lookup (h : validateMemberDirectory directory = true)
    (h' : validateMemberDirectory directory' = true)
    (hordered : directory'.ordered = directory.ordered) (id : ID) :
    directory'.byID.lookup id = directory.byID.lookup id := by
  have hindexed := validateMemberDirectory_indexed h
  have hindexed' := validateMemberDirectory_indexed h'
  apply Option.ext
  intro member
  rw [hindexed.byID, hindexed'.byID, hordered]

theorem validatePolicyRevision_congr (h : validateMemberDirectory directory = true)
    (h' : validateMemberDirectory directory' = true)
    (hworkspace : directory'.workspaceID = directory.workspaceID)
    (hordered : directory'.ordered = directory.ordered) (policy : PolicyRevision) :
    validatePolicyRevision policy snapshot directory' =
      validatePolicyRevision policy snapshot directory := by
  have hlookup := validateMemberDirectory_lookup h h' hordered
  have hreferences : validatePolicyReferences policy.spec snapshot directory' =
      validatePolicyReferences policy.spec snapshot directory := by
    unfold validatePolicyReferences
    rw [h, h', hworkspace, resolveBindings_congr hworkspace hlookup]
  unfold validatePolicyRevision
  rw [hreferences]

theorem Acceptable.perm (h : Acceptable snapshot directory policies)
    (hdirectory : validateMemberDirectory directory' = true)
    (hworkspace : directory'.workspaceID = directory.workspaceID)
    (hordered : directory'.ordered = directory.ordered) (hperm : policies.Perm policies') :
    Acceptable snapshot directory' policies' := by
  refine ⟨?_, hdirectory, hworkspace ▸ h.workspace, hperm.length_eq ▸ h.count, ?_,
    (hperm.map _).nodup_iff.mp h.distinct⟩
  · rw [hworkspace]
    exact h.root
  · intro policy hpolicy
    rw [validatePolicyRevision_congr h.members hdirectory hworkspace hordered]
    exact h.valid policy (hperm.mem_iff.mpr hpolicy)

end

end Veer.Authorization
