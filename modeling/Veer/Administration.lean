import Veer.Authorization

/-!
# Privileged elevation

Platform administrators, sealed targets, elevation requests and the grants issued for them. Times
are canonical milliseconds in UTC, so the location of an instant is not part of the model.
-/
namespace Veer.Administration
open Reconcile (ID validID Sha256 millisecond endOfYear9999 utf8)
open Identity (LogicalIdentity Principal URLParser validatePrincipal validateLogicalIdentity
  equalLogicalIdentity isControl trimmed)
open Authorization (Action)

/-- The sentinel errors of `errors.go`, those of strong authentication and the two of a context. -/
inductive Sentinel
  | invalidAdministrator | administratorNotHuman | administratorNotRegistered
  | duplicateAdministratorID | duplicateAdministrator | tooManyAdministrators
  | invalidAction | invalidTarget | actionTargetMismatch
  | invalidElevationRequest | invalidGrantID | invalidReason | invalidCaseReference
  | invalidElevationDuration | identityMismatch
  | strongAuthProofReplayed
  | invalidLedger | elevationLedgerFull | duplicateGrantID | grantNotFound | grantMismatch
  | grantConsumed | grantRevoked | grantExpired | grantScopeMismatch
  | invalidClock | clockRegressed
  | strongAuthenticationInvalid | strongAuthenticationUnavailable
  | contextCanceled | contextDeadlineExceeded
  deriving DecidableEq, Repr

abbrev Failure := List Sentinel

def maxAdministrators : Nat := 64
def maxTrackedElevations : Nat := 1000
def maxReasonRunes : Nat := 256
def maxCaseReferenceRunes : Nat := 128
def maxStrongAuthProofAge : Int := 5 * 60 * 1000 * millisecond
def maxElevationDuration : Int := 15 * 60 * 1000 * millisecond
def timestampResolution : Int := millisecond

def eligibleActions : List Action := [.auditExport, .operationQuarantine, .workRedrive]

def validAction (action : Action) : Bool := eligibleActions.contains action

inductive TargetKind
  | platformAudit | workspaceAudit | operation
  deriving DecidableEq, Repr

def TargetKind.string : TargetKind → String
  | platformAudit => "PlatformAudit"
  | workspaceAudit => "WorkspaceAudit"
  | operation => "Operation"

inductive GrantState
  | active | consumed | revoked | expired
  deriving DecidableEq, Repr

/-! ## Times and texts -/

def normalizeContractTime (value : Int) : Except Failure Int :=
  if value = 0 then .error [.invalidClock]
  else
    let normalized := value - value % timestampResolution
    if normalized < 0 ∨ endOfYear9999 ≤ normalized then .error [.invalidClock] else .ok normalized

def canonicalContractTime (value : Int) : Bool :=
  match normalizeContractTime value with
  | .error _ => false
  | .ok normalized => value % timestampResolution == 0 && value == normalized

/-- A text of the model is valid UTF-8, which the source checks. -/
def validBoundedText (value : String) (minimum maximum : Nat) : Bool :=
  decide ((utf8 value).length ≤ maximum * 4) && trimmed value &&
    decide (minimum ≤ value.toList.length) && decide (value.toList.length ≤ maximum) &&
    !value.toList.any isControl

theorem normalizeContractTime_ok {value now : Int} (h : normalizeContractTime value = .ok now) :
    now ≤ value ∧ 0 ≤ now ∧ now < endOfYear9999 ∧ now % timestampResolution = 0 := by
  simp only [normalizeContractTime] at h
  split_ifs at h with hzero hrange
  simp only [Except.ok.injEq] at h
  simp only [not_or, not_lt, not_le] at hrange
  unfold timestampResolution millisecond at *
  omega

theorem canonicalContractTime_iff {value : Int} :
    canonicalContractTime value = true ↔
      0 < value ∧ value < endOfYear9999 ∧ value % timestampResolution = 0 := by
  unfold canonicalContractTime
  constructor
  · intro h
    split at h
    · cases h
    rename_i normalized hnormalized
    simp only [Bool.and_eq_true, beq_iff_eq] at h
    obtain ⟨hcanonical, rfl⟩ := h
    obtain ⟨-, hnonneg, hend, -⟩ := normalizeContractTime_ok hnormalized
    have hzero : value ≠ 0 := by
      rintro rfl
      cases hnormalized
    exact ⟨lt_of_le_of_ne hnonneg hzero.symm, hend, hcanonical⟩
  · rintro ⟨hpos, hend, hcanonical⟩
    unfold normalizeContractTime
    rw [if_neg (by omega)]
    simp only [hcanonical, sub_zero]
    rw [if_neg (by omega)]
    simp

theorem normalizeContractTime_canonical {value now : Int}
    (h : normalizeContractTime value = .ok now) (hpos : 0 < now) :
    canonicalContractTime now = true := by
  obtain ⟨-, -, hend, hcanonical⟩ := normalizeContractTime_ok h
  exact canonicalContractTime_iff.mpr ⟨hpos, hend, hcanonical⟩

/-! ## Targets -/

structure Target where
  initialized : Bool
  kind : TargetKind
  objectID : Option ID
  workspaceID : Option ID
  resourceID : Option ID
  environmentID : Option ID
  providerConnectionID : Option ID
  deriving DecidableEq, Repr

def resolvePlatformAuditExportTarget : Target :=
  ⟨true, .platformAudit, none, none, none, none, none⟩

def targetShape (target : Target) : Bool :=
  match target.kind with
  | .platformAudit =>
    target.objectID.isNone && target.workspaceID.isNone && target.resourceID.isNone &&
      target.environmentID.isNone && target.providerConnectionID.isNone
  | .workspaceAudit =>
    target.objectID.isSome && target.workspaceID.isSome && target.resourceID.isSome &&
      target.environmentID.isNone && target.providerConnectionID.isNone &&
      target.objectID == target.workspaceID && target.resourceID == target.workspaceID
  | .operation =>
    target.objectID.isSome && target.workspaceID.isSome && target.resourceID.isSome &&
      target.environmentID.isNone == target.providerConnectionID.isNone

def validateTarget (target : Target) : Bool :=
  target.initialized &&
    [target.objectID, target.workspaceID, target.resourceID, target.environmentID,
      target.providerConnectionID].all (fun id => id.all validID) &&
    targetShape target

def validActionTarget (action : Action) (target : Target) : Bool :=
  validAction action && validateTarget target &&
    match action with
    | .auditExport => target.kind == .platformAudit || target.kind == .workspaceAudit
    | .operationQuarantine | .workRedrive => target.kind == .operation
    | _ => false

def equalTarget (left right : Target) : Bool :=
  validateTarget left && validateTarget right && left.kind == right.kind &&
    left.objectID == right.objectID && left.workspaceID == right.workspaceID &&
    left.resourceID == right.resourceID && left.environmentID == right.environmentID &&
    left.providerConnectionID == right.providerConnectionID

theorem equalTarget_eq {left right : Target} (h : equalTarget left right = true) : left = right := by
  simp only [equalTarget, validateTarget, Bool.and_eq_true, beq_iff_eq] at h
  obtain ⟨⟨⟨⟨⟨⟨⟨hl, hr⟩, hkind⟩, hobject⟩, hworkspace⟩, hresource⟩, henvironment⟩, hprovider⟩ := h
  exact (Target.mk.injEq ..).mpr
    ⟨hl.1.1.trans hr.1.1.symm, hkind, hobject, hworkspace, hresource, henvironment, hprovider⟩

/-! ## Administrators and requests -/

structure Administrator where
  initialized : Bool
  id : ID
  kind : Identity.Kind
  logicalIdentity : LogicalIdentity
  deriving DecidableEq, Repr

structure AdministratorIdentityKey where
  kind : Identity.Kind
  issuer : String
  subject : String
  deriving DecidableEq, Repr

def administratorKey (value : Administrator) : AdministratorIdentityKey :=
  ⟨value.kind, value.logicalIdentity.issuer, value.logicalIdentity.subject⟩

structure ElevationRequest where
  initialized : Bool
  grantID : ID
  administrator : Administrator
  principal : Principal
  action : Action
  target : Target
  reason : String
  caseReference : String
  requestedAt : Int
  duration : Int
  deriving DecidableEq, Repr

section
variable [Sha256] [URLParser]

def validateAdministrator (administrator : Administrator) : Except Failure Unit :=
  if !administrator.initialized then .error [.invalidAdministrator]
  else if !validID administrator.id then .error [.invalidAdministrator]
  else if administrator.kind ≠ .human then .error [.invalidAdministrator, .administratorNotHuman]
  else if !(validateLogicalIdentity administrator.logicalIdentity).isOk then
    .error [.invalidAdministrator]
  else .ok ()

def Administrator.matchesPrincipal (administrator : Administrator) (principal : Principal) : Bool :=
  (validateAdministrator administrator).isOk && (validatePrincipal principal).isOk &&
    principal.kind == administrator.kind &&
    equalLogicalIdentity administrator.logicalIdentity principal.logicalIdentity

def equalAdministrator (left right : Administrator) : Bool :=
  (validateAdministrator left).isOk && (validateAdministrator right).isOk &&
    left.id == right.id && left.kind == right.kind &&
    equalLogicalIdentity left.logicalIdentity right.logicalIdentity

def validateElevationRequest (request : ElevationRequest) : Except Failure Unit :=
  if !request.initialized then .error [.invalidElevationRequest]
  else if !validID request.grantID then .error [.invalidElevationRequest, .invalidGrantID]
  else if !(validateAdministrator request.administrator).isOk then
    .error [.invalidElevationRequest, .invalidAdministrator]
  else if !(validatePrincipal request.principal).isOk ||
      !request.administrator.matchesPrincipal request.principal then
    .error [.invalidElevationRequest, .identityMismatch]
  else if !validAction request.action then .error [.invalidElevationRequest, .invalidAction]
  else if !validateTarget request.target then .error [.invalidElevationRequest, .invalidTarget]
  else if !validActionTarget request.action request.target then
    .error [.invalidElevationRequest, .actionTargetMismatch]
  else if !validBoundedText request.reason 1 maxReasonRunes then
    .error [.invalidElevationRequest, .invalidReason]
  else if request.caseReference ≠ "" ∧
      !validBoundedText request.caseReference 1 maxCaseReferenceRunes then
    .error [.invalidElevationRequest, .invalidCaseReference]
  else if !canonicalContractTime request.requestedAt then
    .error [.invalidElevationRequest, .invalidClock]
  else if request.duration ≤ 0 ∨ maxElevationDuration < request.duration ∨
      request.duration % timestampResolution ≠ 0 then
    .error [.invalidElevationRequest, .invalidElevationDuration]
  else .ok ()

end

/-! ## Grants and receipts -/

structure Grant where
  initialized : Bool
  id : ID
  administratorID : ID
  proofID : ID
  action : Action
  target : Target
  reason : String
  caseReference : String
  issuedAt : Int
  expiresAt : Int
  deriving DecidableEq, Repr

def validGrant (grant : Grant) : Bool :=
  grant.initialized && validID grant.id && validID grant.administratorID &&
    validID grant.proofID && validActionTarget grant.action grant.target &&
    validBoundedText grant.reason 1 maxReasonRunes &&
    (grant.caseReference == "" || validBoundedText grant.caseReference 1 maxCaseReferenceRunes) &&
    canonicalContractTime grant.issuedAt && canonicalContractTime grant.expiresAt &&
    decide (grant.issuedAt < grant.expiresAt) &&
    decide (grant.expiresAt - grant.issuedAt ≤ maxElevationDuration) &&
    (grant.expiresAt - grant.issuedAt) % timestampResolution == 0

def equalGrant (left right : Grant) : Bool :=
  validGrant left && validGrant right && left.id == right.id &&
    left.administratorID == right.administratorID && left.proofID == right.proofID &&
    left.action == right.action && equalTarget left.target right.target &&
    left.reason == right.reason && left.caseReference == right.caseReference &&
    left.issuedAt == right.issuedAt && left.expiresAt == right.expiresAt

theorem equalGrant_iff {left right : Grant} :
    equalGrant left right = true ↔ validGrant left = true ∧ left = right := by
  constructor
  · intro h
    simp only [equalGrant, Bool.and_eq_true, beq_iff_eq] at h
    obtain ⟨⟨⟨⟨⟨⟨⟨⟨⟨⟨hl, hr⟩, hid⟩, hadministrator⟩, hproof⟩, haction⟩, htarget⟩, hreason⟩, hcase⟩,
      hissued⟩, hexpires⟩ := h
    have hinit : left.initialized = right.initialized := by
      simp only [validGrant, Bool.and_eq_true] at hl hr
      rw [hl.1.1.1.1.1.1.1.1.1.1.1, hr.1.1.1.1.1.1.1.1.1.1.1]
    exact ⟨hl, (Grant.mk.injEq ..).mpr ⟨hinit, hid, hadministrator, hproof, haction,
      equalTarget_eq htarget, hreason, hcase, hissued, hexpires⟩⟩
  · rintro ⟨hl, rfl⟩
    have htarget : equalTarget left.target left.target = true := by
      simp only [validGrant, validActionTarget, Bool.and_eq_true] at hl
      simp [equalTarget, hl.1.1.1.1.1.1.1.2.1.2]
    simp [equalGrant, hl, htarget]

structure ConsumptionReceipt where
  initialized : Bool
  grant : Grant
  consumedAt : Int
  deriving DecidableEq, Repr

structure RevocationReceipt where
  initialized : Bool
  grant : Grant
  revokedAt : Int
  deriving DecidableEq, Repr

/-- Both receipts check their time against the grant in the same way. -/
def validReceipt (initialized : Bool) (grant : Grant) (at_ : Int) : Bool :=
  initialized && validGrant grant && canonicalContractTime at_ && decide (grant.issuedAt ≤ at_) &&
    decide (at_ < grant.expiresAt)

def validConsumptionReceipt (receipt : ConsumptionReceipt) : Bool :=
  validReceipt receipt.initialized receipt.grant receipt.consumedAt

def validRevocationReceipt (receipt : RevocationReceipt) : Bool :=
  validReceipt receipt.initialized receipt.grant receipt.revokedAt

end Veer.Administration
