import Veer.Authorization
import Veer.Administration
import Veer.HierarchyClosure
import Veer.Operation

/-!
# Targets derived from the product tree

Authorization seals a resource or an Operation with the Environment that the ancestry of the resource
gives. Administration seals an Operation with the Environment and ProviderConnection that the
Operation itself names, after checking them against the same ancestry.
-/
namespace Veer.Authorization
open Reconcile (ID validID)
open Hierarchy (Record Snapshot Kind newSnapshot)

/-- `ErrInvalidTarget`, with the text after it. -/
inductive TargetError
  | invalidTarget (detail : String)
  deriving DecidableEq, Repr

abbrev TargetFailure {α : Type} (detail : String) : Except TargetError α :=
  .error (.invalidTarget detail)

/-- The parent of a record, if it is of the given kind and in the same Workspace. -/
def parentOfKind (snapshot : Snapshot) (record : Record) (kind : Kind) (workspaceID : ID) :
    Except TargetError Record :=
  match record.parent with
  | none => TargetFailure ""
  | some parentID =>
    match snapshot.lookup parentID with
    | .error _ => TargetFailure ""
    | .ok parent =>
      if parent.kind ≠ kind ∨ parent.workspaceID ≠ workspaceID then TargetFailure "" else .ok parent

def resolveRecordEnvironment (snapshot : Snapshot) (record : Record) :
    Except TargetError (Option ID) :=
  match record.kind with
  | .workspace | .policy => .ok none
  | .environment => .ok (some record.id)
  | .application | .providerConnection =>
    match parentOfKind snapshot record .environment record.workspaceID with
    | .error failure => .error failure
    | .ok parent => .ok (some parent.id)
  | .component =>
    match parentOfKind snapshot record .application record.workspaceID with
    | .error failure => .error failure
    | .ok application =>
      match parentOfKind snapshot application .environment record.workspaceID with
      | .error failure => .error failure
      | .ok environment => .ok (some environment.id)

def newTarget (target : Target) : Except TargetError Target :=
  if validateTarget target then .ok target else TargetFailure ""

def targetFromRecord (snapshot : Snapshot) (objectKind : ObjectKind) (objectID : ID)
    (record : Record) (providerID : Option ID) : Except TargetError Target :=
  match resolveRecordEnvironment snapshot record with
  | .error failure => .error failure
  | .ok environmentID =>
    newTarget ⟨true, objectKind, objectID, record.kind, record.id, record.workspaceID, environmentID,
      providerID⟩

def resolveResourceTarget (snapshot : Snapshot) (id : ID) : Except TargetError Target :=
  match snapshot.lookup id with
  | .error _ => TargetFailure "resource lookup"
  | .ok record => targetFromRecord snapshot .resource id record none

/-- The ProviderConnection that an Operation names, under the Environment it names. -/
def checkProvider (snapshot : Snapshot) (workspaceID providerID : ID) (environmentID : Option ID) :
    Except TargetError Unit :=
  match snapshot.lookup providerID with
  | .error _ => TargetFailure "provider connection lookup"
  | .ok provider =>
    if provider.kind ≠ .providerConnection ∨ provider.workspaceID ≠ workspaceID then
      TargetFailure "provider connection lookup"
    else
      match resolveRecordEnvironment snapshot provider with
      | .error _ => TargetFailure "provider connection environment mismatch"
      | .ok providerEnvironment =>
        if providerEnvironment = none ∨ environmentID = none ∨ providerEnvironment ≠ environmentID then
          TargetFailure "provider connection environment mismatch"
        else .ok ()

def resolveOperationTarget (snapshot : Snapshot) (operationID resourceID workspaceID : ID)
    (environmentID providerConnectionID : Option ID) : Except TargetError Target :=
  if !(validID operationID && validID resourceID && validID workspaceID) then TargetFailure ""
  else
    match snapshot.lookup resourceID with
    | .error _ => TargetFailure "operation resource lookup"
    | .ok record =>
      if record.workspaceID ≠ workspaceID ∨ snapshot.workspaceID ≠ workspaceID then
        TargetFailure "operation resource lookup"
      else
        match targetFromRecord snapshot .operation operationID record providerConnectionID with
        | .error failure => .error failure
        | .ok target =>
          if environmentID.isNone ≠ providerConnectionID.isNone then
            TargetFailure "incomplete operation provider binding"
          else
            match providerConnectionID with
            | none => .ok target
            | some providerID =>
              if target.environmentID ≠ environmentID then
                TargetFailure "operation environment mismatch"
              else
                match checkProvider snapshot workspaceID providerID environmentID with
                | .error failure => .error failure
                | .ok () => .ok target

theorem newTarget_ok {target result : Target} (h : newTarget target = .ok result) :
    validateTarget result = true := by
  unfold newTarget at h
  split_ifs at h with hvalid
  exact Except.ok.inj h ▸ hvalid

theorem resolveOperationTarget_valid {snapshot : Snapshot} {operationID resourceID workspaceID : ID}
    {environmentID providerConnectionID : Option ID} {target : Target}
    (h : resolveOperationTarget snapshot operationID resourceID workspaceID environmentID
      providerConnectionID = .ok target) : validateTarget target = true := by
  have hrecord : ∀ record result, targetFromRecord snapshot .operation operationID record
      providerConnectionID = .ok result → validateTarget result = true := by
    intro record result hresult
    unfold targetFromRecord at hresult
    split at hresult
    · cases hresult
    · exact newTarget_ok hresult
  revert h
  fun_cases resolveOperationTarget snapshot operationID resourceID workspaceID environmentID
    providerConnectionID
  case case6 hresult _ | case9 hresult _ =>
    intro h
    exact Except.ok.inj h ▸ hrecord _ _ hresult
  all_goals exact nofun

/-! ## In an accepted snapshot -/

section
variable {workspaceID : ID} {records : List Record} {snapshot : Snapshot}
  (hsnapshot : newSnapshot workspaceID records = .ok snapshot)
include hsnapshot

variable {record : Record}

theorem lookup_ok_iff {id : ID} :
    snapshot.lookup id = .ok record ↔ record ∈ records ∧ record.id = id := by
  obtain ⟨haccepted, hlists, hinit, -, -⟩ := Hierarchy.newSnapshot_ok hsnapshot
  rw [← hlists.lookup_iff]
  unfold Snapshot.lookup
  rw [hinit, Bool.not_true, if_neg (by decide)]
  cases hfound : snapshot.records.lookup id with
  | none =>
    split_ifs
    · simp
    · simp
  | some found =>
    obtain ⟨hmem, rfl⟩ := hlists.lookup_iff.mp hfound
    have hvalid := (haccepted.valid found hmem).2
    simp only [Record.validIDs, Bool.and_eq_true] at hvalid
    rw [hvalid.1.1, Bool.not_true, if_neg (by decide)]
    simp

theorem parentOfKind_ok (hrecord : record ∈ records) (kind : Kind)
    (hkind : Hierarchy.expectedParentKind record.kind = some kind) :
    ∃ parent ∈ records, parentOfKind snapshot record kind record.workspaceID = .ok parent ∧
      record.parent = some parent.id ∧ parent.kind = kind ∧
      parent.workspaceID = record.workspaceID := by
  obtain ⟨haccepted, -, -, -, -⟩ := Hierarchy.newSnapshot_ok hsnapshot
  have hchild : record.kind ≠ .workspace := by
    intro hroot
    rw [hroot] at hkind
    cases hkind
  obtain ⟨parent, hparent, hid, hexpected⟩ := haccepted.parent record hrecord hchild
  have hsame : parent.workspaceID = record.workspaceID :=
    (haccepted.owned parent hparent).1.trans (haccepted.owned record hrecord).1.symm
  have hparentKind : parent.kind = kind := Option.some.inj (hexpected.symm.trans hkind)
  refine ⟨parent, hparent, ?_, hid, hparentKind, hsame⟩
  unfold parentOfKind
  rw [hid]
  dsimp only
  rw [(lookup_ok_iff hsnapshot).mpr ⟨hparent, rfl⟩]
  dsimp only
  rw [if_neg (by simp [hparentKind, hsame])]

theorem resolveRecordEnvironment_ok (hrecord : record ∈ records) :
    ∃ environmentID, resolveRecordEnvironment snapshot record = .ok environmentID ∧
      environmentID.isSome = wantsEnvironment record.kind ∧
      ∀ id, environmentID = some id →
        ∃ environment ∈ records, environment.id = id ∧ environment.kind = .environment := by
  unfold resolveRecordEnvironment
  cases hkind : record.kind with
  | workspace | policy => exact ⟨none, rfl, rfl, fun id h => nomatch h⟩
  | environment =>
    exact ⟨some record.id, rfl, rfl, fun id h => ⟨record, hrecord, Option.some.inj h, hkind⟩⟩
  | application | providerConnection =>
    obtain ⟨parent, hparent, hfound, -, hparentKind, -⟩ :=
      parentOfKind_ok hsnapshot hrecord .environment (by rw [hkind]; rfl)
    rw [hfound]
    exact ⟨some parent.id, rfl, rfl, fun id h => ⟨parent, hparent, Option.some.inj h, hparentKind⟩⟩
  | component =>
    obtain ⟨application, happlication, hfound, -, happlicationKind, hworkspace⟩ :=
      parentOfKind_ok hsnapshot hrecord .application (by rw [hkind]; rfl)
    obtain ⟨parent, hparent, hfound', -, hparentKind, -⟩ :=
      parentOfKind_ok hsnapshot happlication .environment (by rw [happlicationKind]; rfl)
    rw [hworkspace] at hfound'
    rw [hfound]
    dsimp only
    rw [hfound']
    exact ⟨some parent.id, rfl, rfl, fun id h => ⟨parent, hparent, Option.some.inj h, hparentKind⟩⟩

end

end Veer.Authorization

namespace Veer.Administration
open Reconcile (ID validID)
open Hierarchy (Snapshot)
open Operations (Operation)
open Authorization (TargetError TargetFailure)

def newTarget (target : Target) : Except TargetError Target :=
  if validateTarget target then .ok target else TargetFailure ""

/-- The ProviderConnection that an Operation names is a child of the Environment it names. -/
def checkProvider (snapshot : Snapshot) (value : Operation) : Except TargetError Unit :=
  match value.providerConnectionID with
  | none => .ok ()
  | some providerID =>
    match snapshot.lookup providerID with
    | .error _ => TargetFailure "provider connection binding"
    | .ok provider =>
      if provider.kind ≠ .providerConnection ∨ provider.workspaceID ≠ value.workspaceID ∨
          value.environmentID = none then
        TargetFailure "provider connection binding"
      else if provider.parent = none ∨ provider.parent ≠ value.environmentID then
        TargetFailure "provider connection environment"
      else .ok ()

def resolveOperationTarget (snapshot : Snapshot) (value : Operation) : Except TargetError Target :=
  match Operations.validate value with
  | .error _ => TargetFailure "operation"
  | .ok () =>
    if snapshot.workspaceID ≠ value.workspaceID then TargetFailure "workspace"
    else
      match snapshot.lookup value.resourceID with
      | .error _ => TargetFailure "retained resource"
      | .ok retained =>
        if retained.workspaceID ≠ value.workspaceID then TargetFailure "retained resource"
        else
          match Authorization.resolveResourceTarget snapshot value.resourceID with
          | .error _ => TargetFailure "retained resource scope"
          | .ok resolved =>
            if resolved.workspaceID ≠ value.workspaceID then TargetFailure "retained resource scope"
            else if value.environmentID ≠ none ∧ resolved.environmentID ≠ value.environmentID then
              TargetFailure "environment binding"
            else
              match checkProvider snapshot value with
              | .error failure => .error failure
              | .ok () =>
                newTarget ⟨true, .operation, some value.id, some value.workspaceID,
                  some value.resourceID, value.environmentID, value.providerConnectionID⟩

/-- What administration has checked when it seals an Operation. -/
structure Sealed (snapshot : Snapshot) (value : Operation) (target : Target) : Prop where
  valid : Operations.validate value = .ok ()
  workspace : snapshot.workspaceID = value.workspaceID
  retained : ∃ retained resolved, snapshot.lookup value.resourceID = .ok retained ∧
    retained.workspaceID = value.workspaceID ∧
    Authorization.resolveResourceTarget snapshot value.resourceID = .ok resolved ∧
    (value.environmentID ≠ none → resolved.environmentID = value.environmentID)
  provider : checkProvider snapshot value = .ok ()
  target : target = ⟨true, .operation, some value.id, some value.workspaceID,
    some value.resourceID, value.environmentID, value.providerConnectionID⟩

theorem resolveOperationTarget_sealed {snapshot : Snapshot} {value : Operation} {target : Target}
    (h : resolveOperationTarget snapshot value = .ok target) : Sealed snapshot value target := by
  revert h
  fun_cases resolveOperationTarget snapshot value
  case case9 hvalid hworkspace retained hretained howned resolved hresolved hscope henvironment hprovider =>
    intro h
    unfold newTarget at h
    split_ifs at h
    exact ⟨hvalid, not_not.mp hworkspace, ⟨retained, resolved, hretained, not_not.mp howned, hresolved,
      fun hbound => by_contra fun hne => henvironment ⟨hbound, hne⟩⟩, hprovider, (Except.ok.inj h).symm⟩
  all_goals exact nofun

section
variable {workspaceID : ID} {records : List Hierarchy.Record} {snapshot : Snapshot}
  {value : Operation} {target : Target}

/-- A ProviderConnection that administration accepts is one that authorization accepts: its parent is
an Environment, and the one that the Operation names. -/
theorem checkProvider_authorized (hsnapshot : Hierarchy.newSnapshot workspaceID records = .ok snapshot)
    (h : checkProvider snapshot value = .ok ()) {providerID : ID}
    (hprovider : value.providerConnectionID = some providerID) :
    Authorization.checkProvider snapshot value.workspaceID providerID value.environmentID = .ok () := by
  unfold checkProvider at h
  rw [hprovider] at h
  dsimp only at h
  cases hlookup : snapshot.lookup providerID with
  | error =>
    rw [hlookup] at h
    cases h
  | ok provider =>
    rw [hlookup] at h
    dsimp only at h
    split_ifs at h with hbinding hparent
    obtain ⟨hkind, howned, hbound⟩ : provider.kind = .providerConnection ∧
        provider.workspaceID = value.workspaceID ∧ value.environmentID ≠ none := by
      simpa only [not_or, not_not, ne_eq] using hbinding
    obtain ⟨hmem, -⟩ := (Authorization.lookup_ok_iff hsnapshot).mp hlookup
    obtain ⟨parent, hparentMem, hfound, hparentID, hparentKind, -⟩ :=
      Authorization.parentOfKind_ok hsnapshot hmem .environment (by rw [hkind]; rfl)
    have henvironment : value.environmentID = some parent.id := by
      rw [← hparentID]
      exact (not_not.mp fun hne => hparent (.inr hne)).symm
    have hresolve : Authorization.resolveRecordEnvironment snapshot provider = .ok (some parent.id) := by
      unfold Authorization.resolveRecordEnvironment
      rw [hkind]
      rw [hfound]
    unfold Authorization.checkProvider
    rw [hlookup]
    dsimp only
    rw [if_neg (by simp [hkind, howned]), hresolve]
    dsimp only
    rw [if_neg (by simp [henvironment])]

/-- Authorization resolves every Operation that administration seals. Its target has the Environment
of the ancestry, which a bound Operation names itself. -/
theorem Sealed.authorized (hsnapshot : Hierarchy.newSnapshot workspaceID records = .ok snapshot)
    (h : Sealed snapshot value target) :
    ∃ record environmentID, snapshot.lookup value.resourceID = .ok record ∧
      environmentID.isSome = Authorization.wantsEnvironment record.kind ∧
      (value.environmentID ≠ none → environmentID = value.environmentID) ∧
      Authorization.resolveOperationTarget snapshot value.id value.resourceID value.workspaceID
          value.environmentID value.providerConnectionID =
        .ok ⟨true, .operation, value.id, record.kind, value.resourceID, value.workspaceID,
          environmentID, value.providerConnectionID⟩ := by
  have hvalid := Operations.validate_ok h.valid
  obtain ⟨haccepted, -, -, hworkspace, -⟩ := Hierarchy.newSnapshot_ok hsnapshot
  obtain ⟨record, resolved, hlookup, howned, hresolved, hbound⟩ := h.retained
  obtain ⟨hmem, hid⟩ := (Authorization.lookup_ok_iff hsnapshot).mp hlookup
  obtain ⟨environmentID, henvironment, hwants, hretained⟩ :=
    Authorization.resolveRecordEnvironment_ok hsnapshot hmem
  -- the target of the resource has the same Environment
  have hscope : resolved.environmentID = environmentID := by
    unfold Authorization.resolveResourceTarget at hresolved
    rw [hlookup] at hresolved
    dsimp only [Authorization.targetFromRecord] at hresolved
    rw [henvironment] at hresolved
    dsimp only [Authorization.newTarget] at hresolved
    split_ifs at hresolved
    rw [← Except.ok.inj hresolved]
  have hagree : value.environmentID ≠ none → environmentID = value.environmentID :=
    fun hne => hscope.symm.trans (hbound hne)
  have hvalidEnvironment : environmentID.all validID = true := by
    cases hid : environmentID with
    | none => rfl
    | some id =>
      obtain ⟨environment, henvironmentMem, rfl, -⟩ := hretained id hid
      have hids := (haccepted.valid environment henvironmentMem).2
      simp only [Hierarchy.Record.validIDs, Bool.and_eq_true] at hids
      exact hids.1.1
  have htarget : Authorization.validateTarget ⟨true, .operation, value.id, record.kind,
      value.resourceID, value.workspaceID, environmentID, value.providerConnectionID⟩ = true := by
    have hroot : (record.kind == .workspace && value.resourceID != value.workspaceID) = false := by
      rw [Bool.and_eq_false_iff]
      by_cases hkind : record.kind = .workspace
      · have hself := (haccepted.owned record hmem).2 hkind
        rw [hid, ← (haccepted.owned record hmem).1, howned] at hself
        exact .inr (bne_eq_false_iff_eq.mpr hself)
      · exact .inl (beq_eq_false_iff_ne.mpr hkind)
    have hproviders : value.providerConnectionID.all
        (fun id => environmentID.isSome && validID id) = true := by
      cases hprovider : value.providerConnectionID with
      | none => rfl
      | some =>
        have hids := hvalid.providerConnectionID
        have hpresent := hvalid.environmentID_ne_none hprovider
        rw [hprovider] at hids
        rw [hagree hpresent, Option.all_some, Option.isSome_iff_ne_none.mpr hpresent]
        exact hids
    simp only [Authorization.validateTarget, Authorization.objectFits, hvalid.id, hvalid.resourceID,
      hvalid.workspaceID, hroot, ← hwants, hvalidEnvironment, hproviders, Bool.not_false,
      beq_self_eq_true, Bool.and_self]
  refine ⟨record, environmentID, hlookup, hwants, hagree, ?_⟩
  unfold Authorization.resolveOperationTarget
  rw [hvalid.id, hvalid.resourceID, hvalid.workspaceID, if_neg (by decide), hlookup]
  dsimp only [Authorization.targetFromRecord]
  rw [if_neg (by simp [howned, h.workspace]), henvironment]
  dsimp only [Authorization.newTarget]
  rw [hid, howned, if_pos htarget]
  dsimp only
  rw [if_neg (by simp [hvalid.binding])]
  cases hprovider : value.providerConnectionID with
  | none => rfl
  | some =>
    have hpresent := hvalid.environmentID_ne_none hprovider
    dsimp only
    rw [if_neg (by simp [hagree hpresent]),
      checkProvider_authorized hsnapshot h.provider hprovider]

end

end Veer.Administration
