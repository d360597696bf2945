import Veer.AuditEvent
import Veer.ElevationSpent
import Veer.ResourceEnvelope
import Veer.TargetResolution

/-!
# What an audit event says about an elevation

Grants and receipts of the elevation ledger, operations and authorization targets are projected to
references. Their instants become texts, which the checks of a reference read back.
-/
namespace Veer.Audit
open Reconcile (ID Sha256 validID millisecond second hour endOfYear9999)
open Envelope (startOfYear0)
open Administration (Ledger Ticket System TargetKind Grant ConsumptionReceipt RevocationReceipt
  validGrant validReceipt validBoundedText maxReasonRunes maxCaseReferenceRunes canonicalContractTime
  canonicalContractTime_iff)
open Authorization (Action)
open Identity (URLParser)
open Operations (Operation)

theorem parseTimestamp_eq {value : String} {count : Nat}
    (h : Calendar.parseTimestamp value.toList = some count) :
    parseTimestamp value =
      if firstYear ≤ count then some (count * millisecond + startOfYear0) else none := by
  have hzero : (count - firstYear : Int) * millisecond = count * millisecond + startOfYear0 := by
    unfold firstYear startOfYear0 hour second millisecond Calendar.dayMilliseconds
    omega
  unfold parseTimestamp
  rw [h, ← hzero]

/-! ## Projections -/

def normalizeTimestamp (value : Int) : Option String :=
  if value = 0 then none
  else
    let truncated := value - value % millisecond
    if truncated < 0 ∨ endOfYear9999 ≤ truncated then none
    else some (Envelope.formatTimestamp truncated)

/-- `validElevationAction`. -/
def validElevationAction (action : Action) (kind : TargetKind) : Bool :=
  Administration.eligibleActions.contains action &&
    match action with
    | .auditExport => kind == .platformAudit || kind == .workspaceAudit
    | .operationQuarantine | .workRedrive => kind == .operation
    | _ => false

/-- Every failure of a projection is `ErrInvalidReference`, with a text after it. -/
def invalidReference {α : Type} (text : String) : Except Failure α :=
  .error [.sentinel .invalidReference, .detail text]

/-- The reference to a grant, with the texts of its three times. -/
def elevationRef (grant : Grant) (state : ElevationState) (issued expires recorded : String) :
    ElevationRef :=
  { initialized := true
    grantID := grant.id
    administratorID := grant.administratorID
    action := grant.action
    targetKind := grant.target.kind
    workspaceID := grant.target.workspaceID
    objectID := grant.target.objectID
    resourceID := grant.target.resourceID
    environmentID := grant.target.environmentID
    providerConnectionID := grant.target.providerConnectionID
    reason := grant.reason
    caseReference := grant.caseReference
    issuedAt := issued
    expiresAt := expires
    state := state
    recordedAt := recorded }

def newElevationRef (grant : Grant) (state : ElevationState) (recordedAt : Int) :
    Except Failure ElevationRef :=
  if !Administration.validateTarget grant.target ||
      !validElevationAction grant.action grant.target.kind ||
      !validBoundedText grant.reason 1 maxReasonRunes ||
      (grant.caseReference != "" &&
        !validBoundedText grant.caseReference 1 maxCaseReferenceRunes) then
    invalidReference ""
  else
    match normalizeTimestamp grant.issuedAt, normalizeTimestamp grant.expiresAt,
      normalizeTimestamp recordedAt with
    | some issued, some expires, some recorded =>
      let reference := elevationRef grant state issued expires recorded
      if validateElevationRef reference then .ok reference else invalidReference ""
    | _, _, _ => invalidReference ""

def elevationRefFromGrant (grant : Grant) (state : ElevationState) : Except Failure ElevationRef :=
  match state with
  | .issued => newElevationRef grant .issued grant.issuedAt
  | .expired => newElevationRef grant .expired grant.expiresAt
  | .consumed | .revoked => invalidReference "grant state requires receipt"

def elevationRefFromConsumption (receipt : ConsumptionReceipt) : Except Failure ElevationRef :=
  newElevationRef receipt.grant .consumed receipt.consumedAt

def elevationRefFromRevocation (receipt : RevocationReceipt) : Except Failure ElevationRef :=
  newElevationRef receipt.grant .revoked receipt.revokedAt

def targetRefFromAuthorization (target : Authorization.Target) : Except Failure TargetRef :=
  if !Authorization.validateTarget target then invalidReference "authorization target"
  else
    let reference : TargetRef := ⟨true, target.objectKind, target.objectID, target.resourceKind,
      target.resourceID, target.workspaceID, target.environmentID, target.providerConnectionID⟩
    if validateTargetRef reference then .ok reference else invalidReference ""

def operationRefFromOperation (value : Operation) : Except Failure OperationRef :=
  match Operations.validate value with
  | .error _ => invalidReference "operation"
  | .ok () =>
    let reference : OperationRef := ⟨true, value.id, value.workspaceID, value.resourceID,
      value.environmentID, value.providerConnectionID, value.generation, value.resourceVersion,
      value.phase, value.reason, value.updatedAt⟩
    if validateOperationRef reference then .ok reference else invalidReference ""

/-! ## The projections of valid values are valid -/

theorem normalizeTimestamp_canonical {value : Int} (h : canonicalContractTime value = true) :
    normalizeTimestamp value = some (Envelope.formatTimestamp value) ∧
      parseTimestamp (Envelope.formatTimestamp value) = some value := by
  obtain ⟨hpos, hend, hwhole⟩ := canonicalContractTime_iff.mp h
  have hwhole : value % millisecond = 0 := hwhole
  constructor
  · unfold normalizeTimestamp
    rw [if_neg (by omega)]
    rw [hwhole, sub_zero, if_neg (by omega)]
  · have hcanonical : Envelope.CanonicalTime value := by
      unfold Envelope.CanonicalTime startOfYear0 hour second millisecond at *
      omega
    have hread := Envelope.parseTimestamp_formatTimestamp hcanonical ""
    unfold Envelope.parseTimestamp at hread
    cases hcount : Calendar.parseTimestamp (Envelope.formatTimestamp value).toList with
    | none =>
      rw [hcount] at hread
      cases hread
    | some =>
      rw [hcount] at hread
      have hvalue := Except.ok.inj hread
      rw [parseTimestamp_eq hcount, hvalue, if_pos]
      unfold firstYear Calendar.dayMilliseconds startOfYear0 hour second millisecond at *
      omega

/-- A valid grant, and a time at which it has the given state. -/
structure Elevates (grant : Grant) (state : ElevationState) (recordedAt : Int) : Prop where
  valid : validGrant grant = true
  canonical : canonicalContractTime recordedAt = true
  fits : elevationStateAt state grant.issuedAt grant.expiresAt recordedAt = true

/-- Every check of an elevation reference repeats one that the grant has passed. -/
theorem newElevationRef_ok {grant : Grant} {state : ElevationState} {recordedAt : Int}
    (h : Elevates grant state recordedAt) :
    ∃ issued expires recorded,
      newElevationRef grant state recordedAt = .ok (elevationRef grant state issued expires recorded) ∧
      validateElevationRef (elevationRef grant state issued expires recorded) = true ∧
      parseTimestamp recorded = some recordedAt := by
  have hgrant := h.valid
  simp only [validGrant, Administration.validActionTarget, Bool.and_eq_true, decide_eq_true_eq] at hgrant
  obtain ⟨⟨⟨⟨⟨⟨⟨⟨⟨⟨⟨-, hid⟩, hadministrator⟩, -⟩, ⟨haction, htarget⟩, hkind⟩, hreason⟩, hcase⟩, hissued⟩,
    hexpires⟩, horder⟩, hduration⟩, hwhole⟩ := hgrant
  obtain ⟨hissuedText, hissuedRead⟩ := normalizeTimestamp_canonical hissued
  obtain ⟨hexpiresText, hexpiresRead⟩ := normalizeTimestamp_canonical hexpires
  obtain ⟨hrecordedText, hrecordedRead⟩ := normalizeTimestamp_canonical h.canonical
  have helevation : validElevationAction grant.action grant.target.kind = true := by
    unfold validElevationAction
    rw [Bool.and_eq_true]
    exact ⟨haction, hkind⟩
  have hvalid : validateElevationRef (elevationRef grant state (Envelope.formatTimestamp grant.issuedAt)
      (Envelope.formatTimestamp grant.expiresAt) (Envelope.formatTimestamp recordedAt)) = true := by
    have hshape : validElevationTargetShape (elevationRef grant state
        (Envelope.formatTimestamp grant.issuedAt) (Envelope.formatTimestamp grant.expiresAt)
        (Envelope.formatTimestamp recordedAt)) = true := by
      simp only [Administration.validateTarget, Bool.and_eq_true] at htarget
      exact htarget.2
    have hscope : validElevationActionReference (elevationRef grant state
        (Envelope.formatTimestamp grant.issuedAt) (Envelope.formatTimestamp grant.expiresAt)
        (Envelope.formatTimestamp recordedAt)) = true := hkind
    have hperiod : validElevationPeriod grant.issuedAt grant.expiresAt = true := by
      simp only [validElevationPeriod, Bool.and_eq_true, decide_eq_true_eq]
      exact ⟨⟨horder, hduration⟩, hwhole⟩
    simp only [Administration.validateTarget, Bool.and_eq_true, List.all_cons, List.all_nil] at htarget
    obtain ⟨⟨-, hobject, hworkspace, hresource, henvironment, hprovider, -⟩, -⟩ := htarget
    unfold validateElevationRef
    rw [hshape, hscope]
    simp only [elevationRef, hissuedRead, hexpiresRead, hrecordedRead, List.all_cons, List.all_nil,
      hid, hadministrator, hworkspace, hobject, hresource, henvironment, hprovider, hperiod, hreason,
      hcase, h.fits, Bool.and_self]
  refine ⟨_, _, _, ?_, hvalid, hrecordedRead⟩
  have hcheck : (!Administration.validateTarget grant.target ||
      !validElevationAction grant.action grant.target.kind ||
      !validBoundedText grant.reason 1 maxReasonRunes ||
      (grant.caseReference != "" &&
        !validBoundedText grant.caseReference 1 maxCaseReferenceRunes)) = false := by
    rw [htarget, helevation, hreason]
    simpa [or_iff_not_imp_left] using hcase
  unfold newElevationRef
  rw [hcheck, if_neg (by decide), hissuedText, hexpiresText, hrecordedText]
  dsimp only
  rw [if_pos hvalid]

theorem Elevates.issued {grant : Grant} (h : validGrant grant = true) :
    Elevates grant .issued grant.issuedAt := by
  have hgrant := h
  simp only [validGrant, Bool.and_eq_true] at hgrant
  exact ⟨h, hgrant.1.1.1.1.2, beq_self_eq_true _⟩

theorem Elevates.expired {grant : Grant} (h : validGrant grant = true) :
    Elevates grant .expired grant.expiresAt := by
  have hgrant := h
  simp only [validGrant, Bool.and_eq_true] at hgrant
  exact ⟨h, hgrant.1.1.1.2, beq_self_eq_true _⟩

theorem Elevates.spent {initialized : Bool} {grant : Grant} {time : Int}
    (h : validReceipt initialized grant time = true) :
    Elevates grant .consumed time ∧ Elevates grant .revoked time := by
  simp only [validReceipt, Bool.and_eq_true] at h
  obtain ⟨⟨⟨⟨-, hgrant⟩, hcanonical⟩, hissued⟩, hexpires⟩ := h
  have hinside : (decide (grant.issuedAt ≤ time) && decide (time < grant.expiresAt)) = true := by
    rw [hissued, hexpires]
    rfl
  exact ⟨⟨hgrant, hcanonical, hinside⟩, ⟨hgrant, hcanonical, hinside⟩⟩

/-! ## What the ledger hands out -/

/-- A grant when it is issued and when it has expired, and the two receipts. -/
inductive Elevated
  | issued (grant : Grant)
  | expired (grant : Grant)
  | consumed (receipt : ConsumptionReceipt)
  | revoked (receipt : RevocationReceipt)
  deriving DecidableEq, Repr

def Elevated.grant : Elevated → Grant
  | issued grant => grant
  | expired grant => grant
  | consumed receipt => receipt.grant
  | revoked receipt => receipt.grant

def Elevated.state : Elevated → ElevationState
  | issued _ => .issued
  | expired _ => .expired
  | consumed _ => .consumed
  | revoked _ => .revoked

def Elevated.recordedAt : Elevated → Int
  | issued grant => grant.issuedAt
  | expired grant => grant.expiresAt
  | consumed receipt => receipt.consumedAt
  | revoked receipt => receipt.revokedAt

/-- The projection of each. -/
def Elevated.reference : Elevated → Except Failure ElevationRef
  | issued grant => elevationRefFromGrant grant .issued
  | expired grant => elevationRefFromGrant grant .expired
  | consumed receipt => elevationRefFromConsumption receipt
  | revoked receipt => elevationRefFromRevocation receipt

theorem Elevated.reference_eq (elevated : Elevated) :
    elevated.reference = newElevationRef elevated.grant elevated.state elevated.recordedAt := by
  cases elevated with
  | issued | expired | consumed | revoked => rfl

/-- What an answer of the ledger lets an event report. -/
def elevations : Administration.Output → List Elevated
  | .issued (.ok grant) => [.issued grant, .expired grant]
  | .consumed (.ok receipt) => [.consumed receipt]
  | .revoked (.ok receipt) => [.revoked receipt]
  | _ => []

theorem consume_valid {ledger : Ledger} {now : Int} {grant : Grant} {action : Action}
    {target : Administration.Target} {receipt : ConsumptionReceipt}
    (h : (ledger.consume now grant action target).2 = .ok receipt) :
    validReceipt receipt.initialized receipt.grant receipt.consumedAt = true := by
  revert h
  fun_cases Ledger.consume ledger now grant action target
  case case5 hvalid =>
    intro h
    rw [← Except.ok.inj h]
    simpa [Administration.validConsumptionReceipt] using hvalid
  all_goals rintro ⟨⟩

theorem revoke_valid {ledger : Ledger} {now : Int} {grant : Grant} {receipt : RevocationReceipt}
    (h : (ledger.revoke now grant).2 = .ok receipt) :
    validReceipt receipt.initialized receipt.grant receipt.revokedAt = true := by
  revert h
  fun_cases Ledger.revoke ledger now grant
  case case4 hvalid =>
    intro h
    rw [← Except.ok.inj h]
    simpa [Administration.validRevocationReceipt] using hvalid
  all_goals rintro ⟨⟩

section
variable [Sha256] [URLParser]

theorem admit_valid {ledger : Ledger} {ticket : Ticket} {now : Int} {grant : Grant}
    (h : ledger.admitTicket ticket now = .ok grant) : validGrant grant = true := by
  revert h
  fun_cases Ledger.admitTicket ledger ticket now
  case case9 hvalid =>
    intro h
    rw [← Except.ok.inj h]
    simpa using hvalid
  all_goals rintro ⟨⟩

theorem issueLocked_valid {ledger : Ledger} {ticket : Ticket} {observed : Int}
    {contextLocked contextCommit : Option Administration.Sentinel} {grant : Grant}
    (h : (ledger.issueLocked ticket observed contextLocked contextCommit).2 = .ok grant) :
    validGrant grant = true := by
  revert h
  fun_cases Ledger.issueLocked ledger ticket observed contextLocked contextCommit
  case case5 hadm _ =>
    intro h
    exact Except.ok.inj h ▸ admit_valid hadm
  all_goals exact nofun

/-- Every elevation that a call of the ledger answers with is one that an event may report. -/
theorem step_elevates (system : System) (input : Administration.Input) {elevated : Elevated}
    (h : elevated ∈ elevations (system.step input).2) :
    Elevates elevated.grant elevated.state elevated.recordedAt := by
  have hgrant : ∀ result : Except Administration.Failure Grant,
      (∀ grant, result = .ok grant → validGrant grant = true) →
      elevated ∈ elevations (.issued result) →
      Elevates elevated.grant elevated.state elevated.recordedAt := by
    intro result hvalid hmem
    cases result with
    | error => cases hmem
    | ok grant =>
      simp only [elevations, List.mem_cons, List.not_mem_nil, or_false] at hmem
      rcases hmem with rfl | rfl
      · exact Elevates.issued (hvalid grant rfl)
      · exact Elevates.expired (hvalid grant rfl)
  cases input with
  | start call =>
    simp only [System.step] at h
    revert h
    fun_cases System.start system call
    case case1 => exact hgrant _ (by rintro grant ⟨⟩)
    case case2 => rintro ⟨⟩
  | finish index observed contextLocked contextCommit =>
    simp only [System.step] at h
    revert h
    fun_cases System.finish system index observed contextLocked contextCommit
    case case1 ticket _ ledger result hresult =>
      refine hgrant result fun grant hok => ?_
      have hissue : (system.ledger.issueLocked ticket observed contextLocked contextCommit).2 =
          .ok grant := by rw [hresult, hok]
      exact issueLocked_valid hissue
    case case2 => rintro ⟨⟩
  | stateAt => cases h
  | consume now grant action target =>
    simp only [System.step] at h
    cases hresult : (system.ledger.consume now grant action target).2 with
    | error =>
      rw [hresult] at h
      cases h
    | ok =>
      rw [hresult] at h
      obtain rfl := List.mem_singleton.mp h
      exact (Elevates.spent (consume_valid hresult)).1
  | revoke now grant =>
    simp only [System.step] at h
    cases hresult : (system.ledger.revoke now grant).2 with
    | error =>
      rw [hresult] at h
      cases h
    | ok =>
      rw [hresult] at h
      obtain rfl := List.mem_singleton.mp h
      exact (Elevates.spent (revoke_valid hresult)).2

end

end Veer.Audit
