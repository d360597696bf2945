import Veer.AuditProjection
import Veer.JsonWidth
import Veer.HashFrames

/-!
# Elevations with what they touched

An Elevation event carries the reference to a grant or receipt, the reference to the Operation it was
issued for, and the target that authorization resolves for that Operation. Every such event is small
enough; what decides whether it is accepted is how the two scopes compare.
-/
namespace Veer.Audit
open Reconcile (ID Sha256 validID utf8 parsesAs parsesAs_length idRune)
open JsonText (Scalar object width quote membersWidth memberWidth width_quote_le width_quote_plain
  width_object plain number)
open Administration (TargetKind Ledger System validBoundedText)
open Authorization (Action ObjectKind Effect Reason)
open Operations (Operation)
open Identity (URLParser)
open Hierarchy (sampleSnapshot newSnapshot_sample)

/-! ## Sizes of texts -/

variable {value : String}

theorem parseTimestamp_length (h : (parseTimestamp value).isSome = true) : value.toList.length = 24 := by
  unfold parseTimestamp at h
  split at h
  · cases h
  next hcount => exact Calendar.parseTimestamp_length hcount

theorem validID_width {id : ID} (h : validID id = true) : width (quote id) ≤ 130 := by
  have hplain : ∀ c, idRune c = true → plain c = true := by
    intro c hc
    simp only [idRune, Bool.or_eq_true] at hc
    simp only [plain, Bool.or_eq_true]
    tauto
  unfold validID at h
  split at h
  · cases h
  next c cs htext =>
    simp only [Bool.and_eq_true, decide_eq_true_eq, List.all_eq_true] at h
    obtain ⟨⟨⟨hc, hcs⟩, -⟩, hlength⟩ := h
    have hall : id.toList.all plain = true := by
      rw [htext, List.all_cons, Bool.and_eq_true, List.all_eq_true]
      exact ⟨hplain c (by simp [idRune, hc]), fun d hd => hplain d (hcs d hd)⟩
    rw [width_quote_plain hall, htext, List.length_cons]
    omega

theorem idText_width {id : Option ID} (h : id.all validID = true) :
    width (quote (idText id)) ≤ 130 := by
  cases id with
  | none => decide
  | some => exact validID_width h

theorem length_width {n : Nat} (h : value.toList.length ≤ n) : width (quote value) ≤ 6 * n + 2 := by
  have hquote := width_quote_le value
  omega

theorem name_width : ∀ name ∈ ["contractVersion", "id", "stream", "sequence", "recordedAt",
    "clockState", "kind", "source", "actor", "authenticationMethod", "action", "request", "target",
    "decision", "operation", "elevation", "outcome", "workspaceId", "pseudonym", "objectKind",
    "objectId", "resourceKind", "resourceId", "environmentId", "providerConnectionId",
    "policyVersion", "inputDigest", "effect", "reason", "generation", "resourceVersion", "phase",
    "updatedAt", "grantId", "administratorId", "targetKind", "caseReference", "issuedAt",
    "expiresAt", "state"], width (quote name) ≤ 22 := by
  decide +kernel

theorem action_width (action : Action) : width (quote action.string) ≤ 25 := by
  have hall : ∀ action ∈ Action.all, width (quote action.string) ≤ 25 := by decide +kernel
  exact hall action (by cases action <;> decide)

theorem omitEmpty_width (name value : String) :
    membersWidth Scalar.render (omitEmpty name value) ≤
      width (quote name) + width (quote value) + 2 := by
  unfold omitEmpty
  split_ifs with hempty
  · exact Nat.zero_le _
  · rw [JsonText.membersWidth_cons, JsonText.membersWidth_nil]
    exact Nat.le_refl _

theorem omittedID_width {name : String} {id : Option ID} (hname : width (quote name) ≤ 22)
    (h : id.all validID = true) :
    membersWidth Scalar.render (omitEmpty name (idText id)) ≤ 154 := by
  have hmember := omitEmpty_width name (idText id)
  have hid := idText_width h
  omega

theorem omittedText_width {name : String} {n : Nat} (hname : width (quote name) ≤ 22)
    (h : value.toList.length ≤ n) : membersWidth Scalar.render (omitEmpty name value) ≤ 6 * n + 26 := by
  have hmember := omitEmpty_width name value
  have htext := length_width h
  omega

theorem width_string (value : String) : width (Scalar.render (.string value)) = width (quote value) :=
  rfl

theorem validBoundedText_length {minimum maximum : Nat}
    (h : validBoundedText value minimum maximum = true) : value.toList.length ≤ maximum := by
  simp only [validBoundedText, Bool.and_eq_true, decide_eq_true_eq] at h
  exact h.1.2

theorem timestamp_width (h : (parseTimestamp value).isSome = true) : width (quote value) ≤ 146 :=
  length_width (parseTimestamp_length h).le

/-! ## Sizes of references -/

theorem elevation_width {reference : ElevationRef} (h : validateElevationRef reference = true) :
    width (object Scalar.render (elevationToWire reference)) ≤ 4300 := by
  simp only [validateElevationRef, Bool.and_eq_true, List.all_cons, List.all_nil] at h
  obtain ⟨⟨⟨⟨⟨-, hgrant, hadministrator, -⟩, -⟩, -⟩, hworkspace, hobject, hresource, henvironment,
    hprovider, -⟩, htimes⟩ := h
  split at htimes
  next issued expires recorded hissued hexpires hrecorded =>
    simp only [Bool.and_eq_true] at htimes
    obtain ⟨⟨⟨-, hreason⟩, hcase⟩, -⟩ := htimes
    have hcase : reference.caseReference.toList.length ≤ 128 := by
      simp only [Bool.or_eq_true, beq_iff_eq] at hcase
      rcases hcase with hempty | hbounded
      · rw [hempty]
        decide
      · exact validBoundedText_length hbounded
    have hcase := omittedText_width (name_width "caseReference" (by simp)) hcase
    have hgrant := validID_width hgrant
    have hadministrator := validID_width hadministrator
    have hworkspace := omittedID_width (name_width "workspaceId" (by simp)) hworkspace
    have hobject := omittedID_width (name_width "objectId" (by simp)) hobject
    have hresource := omittedID_width (name_width "resourceId" (by simp)) hresource
    have henvironment := omittedID_width (name_width "environmentId" (by simp)) henvironment
    have hprovider := omittedID_width (name_width "providerConnectionId" (by simp)) hprovider
    have hreason : width (quote reference.reason) ≤ 1538 :=
      length_width (validBoundedText_length hreason)
    have hissued := timestamp_width (Option.isSome_of_eq_some hissued)
    have hexpires := timestamp_width (Option.isSome_of_eq_some hexpires)
    have hrecorded := timestamp_width (Option.isSome_of_eq_some hrecorded)
    have haction := action_width reference.action
    have hkind : width (quote reference.targetKind.string) ≤ 16 := by
      cases reference.targetKind <;> decide +kernel
    have hstate : width (quote reference.state.string) ≤ 10 := by
      cases reference.state <;> decide +kernel
    have hnames := name_width
    simp only [List.forall_mem_cons] at hnames
    rw [width_object _ (by simp [elevationToWire])]
    simp only [elevationToWire, JsonText.membersWidth_cons, JsonText.membersWidth_append,
      JsonText.membersWidth_nil, width_string]
    omega
  next => cases htimes

/-- The number in an operation reference is bounded by the canonical size of its operation. -/
theorem operation_width {reference : OperationRef} (h : validateOperationRef reference = true) :
    width (object Scalar.render (operationToWire reference)) ≤
      2300 + width (number reference.generation) := by
  simp only [validateOperationRef, Bool.and_eq_true, List.all_cons, List.all_nil] at h
  obtain ⟨⟨⟨⟨⟨⟨⟨-, hid, hworkspace, hresource, -⟩, -⟩, henvironment, hprovider, -⟩, -⟩, hversion⟩,
    hreason⟩, hupdated⟩ := h
  have hreason : reference.reason.toList.length ≤ 64 := by
    simp only [Bool.or_eq_true, beq_iff_eq] at hreason
    rcases hreason with hempty | hpattern
    · rw [hempty]
      decide
    unfold operationReasonPattern at hpattern
    split at hpattern
    · cases hpattern
    next c cs htext =>
      simp only [Bool.and_eq_true, decide_eq_true_eq] at hpattern
      rw [htext, List.length_cons]
      omega
  have hversion : reference.resourceVersion.toList.length ≤ 128 := by
    simp only [opaqueVersionPattern, Bool.and_eq_true, decide_eq_true_eq] at hversion
    exact hversion.1.2
  have hreason := omittedText_width (name_width "reason" (by simp)) hreason
  have hversion := length_width hversion
  have hid := validID_width hid
  have hworkspace := validID_width hworkspace
  have hresource := validID_width hresource
  have henvironment := omittedID_width (name_width "environmentId" (by simp)) henvironment
  have hprovider := omittedID_width (name_width "providerConnectionId" (by simp)) hprovider
  have hupdated := timestamp_width hupdated
  have hphase : width (quote reference.phase.string) ≤ 11 := by
    cases reference.phase <;> decide +kernel
  have hgeneration : width (Scalar.render (.number reference.generation)) =
    width (number reference.generation) := rfl
  have hnames := name_width
  simp only [List.forall_mem_cons] at hnames
  rw [width_object _ (by simp [operationToWire])]
  simp only [operationToWire, JsonText.membersWidth_cons, JsonText.membersWidth_append,
    JsonText.membersWidth_nil, width_string, hgeneration]
  omega

theorem target_width {reference : TargetRef} (h : validateTargetRef reference = true) :
    width (object Scalar.render (targetToWire reference)) ≤ 900 := by
  simp only [validateTargetRef, Bool.and_eq_true, List.all_cons, List.all_nil] at h
  obtain ⟨⟨⟨⟨⟨⟨-, hobject, hresource, hworkspace, -⟩, henvironment, hprovider, -⟩, -⟩, -⟩, -⟩, -⟩ := h
  have hobject := validID_width hobject
  have hresource := validID_width hresource
  have hworkspace := validID_width hworkspace
  have henvironment := omittedID_width (name_width "environmentId" (by simp)) henvironment
  have hprovider := omittedID_width (name_width "providerConnectionId" (by simp)) hprovider
  have hobjectKind : width (quote reference.objectKind.string) ≤ 12 := by
    cases reference.objectKind <;> decide +kernel
  have hresourceKind : width (quote reference.resourceKind.string) ≤ 20 := by
    cases reference.resourceKind <;> decide +kernel
  have hnames := name_width
  simp only [List.forall_mem_cons] at hnames
  rw [width_object _ (by simp [targetToWire])]
  simp only [targetToWire, JsonText.membersWidth_cons, JsonText.membersWidth_append, width_string]
  omega

theorem decision_width {reference : DecisionRef} (h : validateDecisionRef reference = true) :
    width (object Scalar.render (decisionToWire reference)) ≤ 1000 := by
  simp only [validateDecisionRef, Bool.and_eq_true] at h
  obtain ⟨⟨⟨-, hversion⟩, hinput⟩, -⟩ := h
  have hversion : width (quote reference.policyVersion) ≤ 416 := length_width (parsesAs_length hversion)
  have hinput : width (quote reference.inputDigest) ≤ 416 := length_width (parsesAs_length hinput)
  have heffect : width (quote (effectString reference.effect)) ≤ 7 := by
    cases reference.effect <;> decide +kernel
  have hreason : width (quote (reasonString reference.reason)) ≤ 18 := by
    cases reference.reason <;> decide +kernel
  have hnames := name_width
  simp only [List.forall_mem_cons] at hnames
  rw [width_object _ (by simp [decisionToWire])]
  simp only [decisionToWire, JsonText.membersWidth_cons, JsonText.membersWidth_nil, width_string]
  omega

theorem request_width {reference : RequestRef} (h : validateRequestRef reference = true) :
    width (object Scalar.render (requestToWire reference)) ≤ 155 := by
  simp only [validateRequestRef, Bool.and_eq_true] at h
  have hid := validID_width h.2
  have hname := name_width "id" (by simp)
  rw [width_object _ (by simp [requestToWire])]
  simp only [requestToWire, JsonText.membersWidth_cons, JsonText.membersWidth_nil, width_string]
  omega

theorem omitAbsent_width {α : Type} {name : String} {toWire : α → List (String × Scalar)}
    {reference : Option α} {n : Nat} (hname : width (quote name) ≤ 22)
    (h : ∀ present, reference = some present → width (object Scalar.render (toWire present)) ≤ n) :
    membersWidth Field.render (omitAbsent name toWire reference) ≤ n + 24 := by
  cases reference with
  | none => exact Nat.zero_le _
  | some present =>
    have hpresent : width (Field.render (.record (toWire present))) ≤ n := h present rfl
    simp only [omitAbsent, Option.toList_some, List.map_cons, List.map_nil,
      JsonText.membersWidth_cons, JsonText.membersWidth_nil]
    omega

theorem generation_width {value : Operation}
    (h : (Operations.encodeCanonical value).length ≤ Operations.maxCanonicalBytes) :
    width (number value.generation) ≤ 4096 := by
  have hmember : ("generation", Field.scalar (.number value.generation)) ∈
      Operations.operationToWire value := by
    simp [Operations.operationToWire, Operations.scalarFields]
  have hwidth := JsonText.memberWidth_le Field.render hmember
  have hobject := width_object Field.render (List.ne_nil_of_mem hmember)
  have hbytes := Operations.encodeCanonical_length value
  have hnumber : width (number value.generation) ≤
      memberWidth Field.render ("generation", Field.scalar (.number value.generation)) := by
    change _ ≤ _ + width (number value.generation) + 2
    omega
  unfold Operations.maxCanonicalBytes at h
  omega

/-! ## The event -/

/-- An Elevation event with the three references. Its own identifier, its position, the state of its
clock, its outcome and the references to a request and a decision are free. -/
structure Carries (event : Event) (elevation : ElevationRef) (operation : OperationRef)
    (target : TargetRef) : Prop where
  initialized : event.initialized = true
  id : validID event.id = true
  stream : event.stream = ⟨true, .workspace, operation.workspaceID⟩
  sequence : 0 < event.sequence ∧ event.sequence < 2 ^ 64
  recordedAt : event.recordedAt = elevation.recordedAt
  kind : event.kind = .elevation
  source : event.source = .administration
  actor : event.actor = ⟨true, .administrator, elevation.administratorID⟩
  authenticationMethod : event.authenticationMethod = .strongOIDC
  action : event.action = elevation.action
  request : event.request.all validateRequestRef = true
  target : event.target = some target
  decision : event.decision.all validateDecisionRef = true
  operation : event.operation = some operation
  attempt : event.attempt = none
  elevation : event.elevation = some elevation

theorem validateElevationRef_admin {reference : ElevationRef} (h : validateElevationRef reference = true) :
    validID reference.administratorID = true ∧ (parseTimestamp reference.recordedAt).isSome = true := by
  simp only [validateElevationRef, Bool.and_eq_true, List.all_cons, List.all_nil] at h
  obtain ⟨⟨⟨⟨⟨-, -, hadministrator, -⟩, -⟩, -⟩, -⟩, htimes⟩ := h
  refine ⟨hadministrator, ?_⟩
  split at htimes
  next hrecorded => exact Option.isSome_of_eq_some hrecorded
  next => cases htimes

theorem validateOperationRef_ids {reference : OperationRef}
    (h : validateOperationRef reference = true) : validID reference.workspaceID = true := by
  simp only [validateOperationRef, Bool.and_eq_true, List.all_cons, List.all_nil] at h
  exact h.1.1.1.1.1.1.2.2.1

variable {event : Event} {elevation : ElevationRef} {operation : OperationRef} {target : TargetRef}

theorem Carries.width_le (h : Carries event elevation operation target)
    (helevation : validateElevationRef elevation = true)
    (hoperation : validateOperationRef operation = true) (htarget : validateTargetRef target = true)
    (hgeneration : width (number operation.generation) ≤ 4096) :
    (encodeEvent event).length ≤ maxCanonicalEventBytes := by
  have hbytes : (encodeEvent event).length = width (object Field.render (eventToWire event)) := by
    unfold encodeEvent utf8
    rw [String.toList_ofList, JsonText.width_flatMap_encode]
  obtain ⟨hadministrator, hrecorded⟩ := validateElevationRef_admin helevation
  have hadministrator : membersWidth Scalar.render
      (omitEmpty "pseudonym" (idText (some elevation.administratorID))) ≤ 154 :=
    omittedID_width (name_width "pseudonym" (by simp)) hadministrator
  have hworkspace : membersWidth Scalar.render
      (omitEmpty "workspaceId" (idText (some operation.workspaceID))) ≤ 154 :=
    omittedID_width (name_width "workspaceId" (by simp)) (validateOperationRef_ids hoperation)
  have hnames := name_width
  simp only [List.forall_mem_cons] at hnames
  have hid := validID_width h.id
  have hrecorded := timestamp_width hrecorded
  have hsequence : width (number event.sequence) ≤ 20 :=
    JsonText.width_number_le (by decide) (h.sequence.2.trans (by decide))
  have haction := action_width elevation.action
  have hclock : width (quote event.clockState.string) ≤ 14 := by
    cases event.clockState <;> decide +kernel
  have houtcome : width (quote event.outcome.string) ≤ 15 := by
    cases event.outcome <;> decide +kernel
  have hfixed : width (quote contractVersion) = 21 ∧ width (quote EventKind.elevation.string) = 11 ∧
      width (quote Source.administration.string) = 16 ∧
      width (quote AuthenticationMethod.strongOIDC.string) = 12 ∧
      width (quote ActorKind.administrator.string) = 15 ∧
      width (quote StreamKind.workspace.string) = 11 := by decide +kernel
  have hstream : width (object Scalar.render
      (streamToWire ⟨true, .workspace, operation.workspaceID⟩)) ≤ 200 := by
    rw [width_object _ (by simp [streamToWire])]
    simp only [streamToWire, JsonText.membersWidth_cons, width_string, if_true]
    change _ + _ + 2 + membersWidth Scalar.render
      (omitEmpty "workspaceId" (idText (some operation.workspaceID))) + 1 ≤ 200
    omega
  have hactor : width (object Scalar.render
      (actorToWire ⟨true, .administrator, elevation.administratorID⟩)) ≤ 200 := by
    rw [width_object _ (by simp [actorToWire])]
    simp only [actorToWire, JsonText.membersWidth_cons, width_string]
    change _ + _ + 2 + membersWidth Scalar.render
      (omitEmpty "pseudonym" (idText (some elevation.administratorID))) + 1 ≤ 200
    omega
  have hrequest : membersWidth Field.render (omitAbsent "request" requestToWire event.request) ≤
      155 + 24 := by
    refine omitAbsent_width (name_width "request" (by simp)) fun present hpresent => ?_
    exact request_width (by simpa [hpresent] using h.request)
  have hdecision : membersWidth Field.render (omitAbsent "decision" decisionToWire event.decision) ≤
      1000 + 24 := by
    refine omitAbsent_width (name_width "decision" (by simp)) fun present hpresent => ?_
    exact decision_width (by simpa [hpresent] using h.decision)
  have htarget := target_width htarget
  have hoperation := operation_width hoperation
  have helevation := elevation_width helevation
  rw [hbytes, width_object _ (by simp [eventToWire])]
  unfold maxCanonicalEventBytes
  simp only [eventToWire, h.stream, h.recordedAt, h.kind, h.source, h.actor, h.authenticationMethod,
    h.action, h.target, h.operation, h.attempt, h.elevation, textField, Field.render, width_string,
    JsonText.membersWidth_cons, JsonText.membersWidth_append, JsonText.membersWidth_nil]
  have hnumber : width (Scalar.render (.number event.sequence)) = width (number event.sequence) := rfl
  simp only [omitAbsent, Option.toList_some, Option.toList_none, List.map_cons, List.map_nil,
    JsonText.membersWidth_cons, JsonText.membersWidth_nil, Field.render, hnumber] at hrequest hdecision ⊢
  omega

/-- With valid references only the relationships between them are left to check. -/
theorem Carries.fields (h : Carries event elevation operation target)
    (helevation : validateElevationRef elevation = true)
    (hoperation : validateOperationRef operation = true)
    (htarget : validateTargetRef target = true) :
    validateEventFields event = validateEventRelationships event := by
  obtain ⟨hadministrator, hrecorded⟩ := validateElevationRef_admin helevation
  have hworkspace := validateOperationRef_ids hoperation
  have hsequence : (event.sequence == 0) = false := beq_eq_false_iff_ne.mpr (by have := h.sequence; omega)
  have hstream : validateStream event.stream = true := by
    rw [h.stream]
    exact hworkspace
  have hactor : validateActorRef event.actor = true := by
    rw [h.actor]
    exact hadministrator
  have hmethod : validateActorAuthentication event.actor event.authenticationMethod = true := by
    rw [h.actor, h.authenticationMethod]
    rfl
  have htime : (parseTimestamp event.recordedAt).isNone = false := by
    rw [h.recordedAt, Option.isNone_eq_false_iff]
    exact hrecorded
  unfold validateEventFields
  simp only [h.initialized, h.id, hsequence, hstream, htime, hactor, hmethod, h.request, h.decision,
    h.target, h.operation, h.attempt, h.elevation, Option.all_some, Option.all_none, helevation,
    hoperation, htarget, Bool.not_true, Bool.or_self, Bool.false_eq_true, if_false]

/-- The three references are about the same Operation, and a bound one agrees with its ancestry. -/
structure SameOperation (elevation : ElevationRef) (operation : OperationRef) (target : TargetRef) :
    Prop where
  targetKind : elevation.targetKind = .operation
  objectID : elevation.objectID = some operation.id
  workspaceID : elevation.workspaceID = some operation.workspaceID
  resourceID : elevation.resourceID = some operation.resourceID
  environmentID : elevation.environmentID = operation.environmentID
  providerConnectionID : elevation.providerConnectionID = operation.providerConnectionID
  targetObject : target.objectKind = .operation ∧ target.objectID = operation.id
  targetScope : target.resourceID = operation.resourceID ∧ target.workspaceID = operation.workspaceID ∧
    target.providerConnectionID = operation.providerConnectionID
  bound : operation.environmentID.isSome = true → target.environmentID = operation.environmentID

theorem Carries.relationships (h : Carries event elevation operation target)
    (hworkspace : validID operation.workspaceID = true)
    (hsame : SameOperation elevation operation target) :
    validateEventRelationships event = .ok () ↔ target.environmentID = operation.environmentID := by
  have hstream : event.stream.workspace = some operation.workspaceID := by
    have hvalid : validateStream ⟨true, .workspace, operation.workspaceID⟩ = true := hworkspace
    rw [h.stream]
    unfold Stream.workspace
    rw [if_pos ⟨hvalid, rfl⟩]
  have hrequired : requiredReference event = .ok () := by
    unfold requiredReference
    simp [h.kind, h.elevation, h.source, h.actor, h.authenticationMethod]
  have hmatches : elevationMatchesOperation elevation operation = true := by
    simp [elevationMatchesOperation, hsame.targetKind, hsame.objectID, hsame.workspaceID,
      hsame.resourceID, hsame.environmentID, hsame.providerConnectionID]
  have hscope : elevationMatchesTarget elevation target =
      decide (target.environmentID = operation.environmentID) := by
    simp only [elevationMatchesTarget, elevationObjectKind, hsame.targetKind, hsame.targetObject,
      hsame.objectID, hsame.workspaceID, hsame.resourceID, hsame.targetScope, hsame.environmentID,
      hsame.providerConnectionID, beq_self_eq_true, Bool.and_true, Bool.true_and]
    rw [Bool.eq_iff_iff, beq_iff_eq, decide_eq_true_eq]
    exact eq_comm
  have helevation : elevationRelationships event elevation =
      if target.environmentID = operation.environmentID then .ok ()
      else invalidEventBecause "elevation and target scope mismatch" := by
    unfold elevationRelationships
    simp [h.kind, h.action, h.actor, h.recordedAt, h.operation, h.target, hmatches, hscope]
  have hoperation : operationRelationships operation target = .ok () := by
    unfold operationRelationships
    rw [if_neg, if_neg]
    · simp [hsame.targetObject]
    · rintro (hne | hne | ⟨hbound, hne | hne⟩)
      · exact hne hsame.targetScope.2.1.symm
      · exact hne hsame.targetScope.1.symm
      · exact hne (hsame.bound hbound).symm
      · exact hne hsame.targetScope.2.2.symm
  unfold validateEventRelationships
  rw [hrequired, h.attempt, h.elevation, h.operation, h.target]
  simp only [whenPresent, helevation, hoperation, hstream, hsame.workspaceID, hsame.targetScope,
    Option.isSome_none, Bool.false_eq_true, false_and, if_false, Option.any_some, bne_self_eq_false,
    or_self]
  split_ifs with henvironment
  · exact ⟨fun _ => henvironment, fun _ => rfl⟩
  · exact ⟨fun haccepted => (nomatch haccepted), fun heq => absurd heq henvironment⟩

/-! ## Every elevation for an Operation -/

/-- The reference to a valid operation, if its update lies in year 1 or later. -/
theorem operationRef_iff {value : Operation} (h : Operations.validate value = .ok ()) {count : Nat}
    (hcount : Operations.parseTimestamp value.updatedAt = some count) :
    (∃ operation, operationRefFromOperation value = .ok operation) ↔ firstYear ≤ count := by
  have hvalid := Operations.validate_ok h
  have hread : (parseTimestamp value.updatedAt).isSome = decide (firstYear ≤ count) := by
    rw [parseTimestamp_eq hcount]
    split_ifs with hfirst
    · simp [hfirst]
    · simp [hfirst]
  have hcheck : validateOperationRef ⟨true, value.id, value.workspaceID, value.resourceID,
      value.environmentID, value.providerConnectionID, value.generation, value.resourceVersion,
      value.phase, value.reason, value.updatedAt⟩ = decide (firstYear ≤ count) := by
    simp only [validateOperationRef, List.all_cons, List.all_nil, hvalid.id, hvalid.workspaceID,
      hvalid.resourceID, hvalid.binding, hvalid.environmentID, hvalid.providerConnectionID,
      hvalid.generation, hvalid.resourceVersion, hvalid.reason, hread, beq_self_eq_true,
      decide_true, Bool.and_self, Bool.true_and]
  unfold operationRefFromOperation
  rw [h]
  dsimp only
  rw [hcheck]
  split_ifs with hfirst
  · exact ⟨fun _ => of_decide_eq_true hfirst, fun _ => ⟨_, rfl⟩⟩
  · refine ⟨fun hexists => ?_, fun hyear => absurd (decide_eq_true hyear) hfirst⟩
    obtain ⟨operation, hoperation⟩ := hexists
    cases hoperation

theorem operationRef_ok {value : Operation} {operation : OperationRef}
    (h : operationRefFromOperation value = .ok operation) :
    operation = ⟨true, value.id, value.workspaceID, value.resourceID, value.environmentID,
        value.providerConnectionID, value.generation, value.resourceVersion, value.phase,
        value.reason, value.updatedAt⟩ ∧
      validateOperationRef operation = true := by
  revert h
  fun_cases operationRefFromOperation value
  case case2 hvalid =>
    intro h
    obtain rfl := Except.ok.inj h
    exact ⟨rfl, hvalid⟩
  all_goals exact nofun

theorem targetRef_ok {target : Authorization.Target} (h : Authorization.validateTarget target = true)
    (hkind : target.objectKind = .operation) :
    validateTargetRef ⟨true, target.objectKind, target.objectID, target.resourceKind,
        target.resourceID, target.workspaceID, target.environmentID,
        target.providerConnectionID⟩ = true ∧
      targetRefFromAuthorization target = .ok ⟨true, target.objectKind, target.objectID,
        target.resourceKind, target.resourceID, target.workspaceID, target.environmentID,
        target.providerConnectionID⟩ := by
  have hchecks := h
  simp only [Authorization.validateTarget, Bool.and_eq_true] at hchecks
  obtain ⟨⟨⟨⟨⟨⟨⟨⟨-, hobject⟩, hresource⟩, hworkspace⟩, hroot⟩, hwants⟩, henvironment⟩, hprovider⟩, -⟩ :=
    hchecks
  have hproviderID : target.providerConnectionID.all validID = true ∧
      (target.providerConnectionID.isSome && target.environmentID.isNone) = false := by
    cases hconnection : target.providerConnectionID with
    | none => exact ⟨rfl, rfl⟩
    | some =>
      rw [hconnection, Option.all_some, Bool.and_eq_true] at hprovider
      rw [Option.isSome_some, Bool.true_and, Option.isNone_eq_false_iff]
      exact ⟨hprovider.2, hprovider.1⟩
  have hvalid : validateTargetRef ⟨true, target.objectKind, target.objectID, target.resourceKind,
      target.resourceID, target.workspaceID, target.environmentID,
      target.providerConnectionID⟩ = true := by
    simp only [validateTargetRef, List.all_cons, List.all_nil, hobject, hresource, hworkspace,
      henvironment, hproviderID, hroot, hwants, hkind, objectShape, Bool.not_false, Bool.and_self]
  refine ⟨hvalid, ?_⟩
  unfold targetRefFromAuthorization
  rw [h, Bool.not_true, if_neg (by decide)]
  rw [if_pos hvalid]

section
variable [Sha256] [URLParser]

/-- For every grant and receipt of a ledger that was issued for an Operation: its projection is a valid
reference, authorization resolves a target for the Operation, the Operation has a reference unless it
was updated in year 0, and every event with the three references is accepted exactly if the Operation
is bound or its resource lies under no Environment. -/
theorem elevation_auditable_iff {system : System} {inputs : List Administration.Input}
    {entry : StepMachine.Entry System Administration.Input Administration.Output}
    (hentry : entry ∈ Administration.machine.trace system inputs) {elevated : Elevated}
    (helevated : elevated ∈ elevations entry.output) {workspaceID : ID}
    {records : List Hierarchy.Record} {snapshot : Hierarchy.Snapshot}
    (hsnapshot : Hierarchy.newSnapshot workspaceID records = .ok snapshot) {value : Operation}
    (hsealed : Administration.resolveOperationTarget snapshot value = .ok elevated.grant.target) :
    ∃ elevation target reference,
      elevated.reference = .ok elevation ∧ validateElevationRef elevation = true ∧
      Authorization.resolveOperationTarget snapshot value.id value.resourceID value.workspaceID
        value.environmentID value.providerConnectionID = .ok target ∧
      targetRefFromAuthorization target = .ok reference ∧
      ((∃ operation, operationRefFromOperation value = .ok operation) ↔
        ∃ count, Operations.parseTimestamp value.updatedAt = some count ∧ firstYear ≤ count) ∧
      ∀ operation event, operationRefFromOperation value = .ok operation →
        Carries event elevation operation reference →
        (validateEvent event = .ok () ↔ value.environmentID.isSome = true ∨
          ∀ record, snapshot.lookup value.resourceID = .ok record →
            Authorization.wantsEnvironment record.kind = false) := by
  have hsealed := Administration.resolveOperationTarget_sealed hsealed
  have hvalid := Operations.validate_ok hsealed.valid
  obtain ⟨pre, post, -, hstep⟩ := StepMachine.mem_trace Administration.machine hentry
  rw [hstep] at helevated
  have helevates := step_elevates _ _ helevated
  obtain ⟨issued, expires, recorded, hreference, hvalidElevation, -⟩ := newElevationRef_ok helevates
  obtain ⟨record, environmentID, hlookup, hwants, hagree, hresolved⟩ := hsealed.authorized hsnapshot
  obtain ⟨hvalidTarget, htargetRef⟩ :=
    targetRef_ok (Authorization.resolveOperationTarget_valid hresolved) rfl
  refine ⟨_, _, _, elevated.reference_eq.trans hreference, hvalidElevation, hresolved, htargetRef,
    ?_, ?_⟩
  · obtain ⟨count, hcount⟩ := Option.isSome_iff_exists.mp hvalid.updatedAt
    rw [operationRef_iff hsealed.valid hcount]
    constructor
    · exact fun hfirst => ⟨count, hcount, hfirst⟩
    · rintro ⟨other, hother, hfirst⟩
      rw [hcount, Option.some.injEq] at hother
      exact hother ▸ hfirst
  · intro operation event hoperation hcarries
    obtain ⟨rfl, hvalidOperation⟩ := operationRef_ok hoperation
    have hsame : SameOperation (elevationRef elevated.grant elevated.state issued expires recorded)
        ⟨true, value.id, value.workspaceID, value.resourceID, value.environmentID,
          value.providerConnectionID, value.generation, value.resourceVersion, value.phase,
          value.reason, value.updatedAt⟩
        ⟨true, .operation, value.id, record.kind, value.resourceID, value.workspaceID,
          environmentID, value.providerConnectionID⟩ := by
      have htarget := hsealed.target
      constructor
      all_goals first
        | exact ⟨rfl, rfl⟩
        | exact ⟨rfl, rfl, rfl⟩
        | exact fun hbound => hagree (Option.isSome_iff_ne_none.mp hbound)
        | (dsimp only [elevationRef]; rw [htarget])
    have hfits := hcarries.width_le hvalidElevation hvalidOperation hvalidTarget
      (generation_width hvalid.size)
    have hscope : environmentID = value.environmentID ↔ value.environmentID.isSome = true ∨
        ∀ other, snapshot.lookup value.resourceID = .ok other →
          Authorization.wantsEnvironment other.kind = false := by
      constructor
      · intro heq
        cases hbound : value.environmentID with
        | some => exact .inl rfl
        | none =>
          refine .inr fun other hother => ?_
          rw [hlookup] at hother
          rw [← Except.ok.inj hother, ← hwants, heq, hbound]
          rfl
      · rintro (hbound | hfree)
        · exact hagree (Option.isSome_iff_ne_none.mp hbound)
        · have hnone : environmentID = none := by
            rw [hfree record hlookup] at hwants
            exact Option.isSome_eq_false_iff.mp hwants |> Option.isNone_iff_eq_none.mp
          by_contra hne
          exact hne (hagree fun hunbound => hne (hnone.trans hunbound.symm))
    rw [← hscope, ← hcarries.relationships hvalid.workspaceID hsame, validateEvent,
      hcarries.fields hvalidElevation hvalidOperation hvalidTarget]
    cases hrelationships : validateEventRelationships event with
    | error => simp
    | ok => simp [Nat.not_lt.mpr hfits]

end

/-! An administrator redrives the work of an unbound Operation, on the Workspace of a small tree or on
the Environment in it. -/

def unboundOperation (resourceID : ID) : Operation :=
  { id := "opr_0000000000000001"
    workspaceID := "wsp_0000000000000001"
    resourceID := resourceID
    environmentID := none
    providerConnectionID := none
    generation := 1
    resourceVersion := "v1"
    phase := .running
    reason := ""
    message := ""
    costEstimate := none
    createdAt := "2026-01-01T00:00:00.000Z"
    updatedAt := "2026-01-01T00:00:00.000Z" }

def unboundTarget (resourceID : ID) : Administration.Target :=
  ⟨true, .operation, some "opr_0000000000000001", some "wsp_0000000000000001", some resourceID, none,
    none⟩

def redriveGrant (resourceID : ID) : Administration.Grant :=
  { Administration.sampleGrant with action := .workRedrive, target := unboundTarget resourceID }

def redriveCalls (resourceID : ID) : List Administration.Input :=
  [.start ⟨true,
      { Administration.sampleElevation with
        action := .workRedrive, target := unboundTarget resourceID },
      .proof "prf_0000000000000001" Administration.timestampResolution, none, none⟩,
    .finish 0 (2 * Administration.timestampResolution) none none]

def redriveEvent (elevation : ElevationRef) (operation : OperationRef) (target : TargetRef) : Event :=
  { initialized := true
    id := "evt_0000000000000001"
    stream := ⟨true, .workspace, operation.workspaceID⟩
    sequence := 1
    recordedAt := elevation.recordedAt
    clockState := .synchronized
    kind := .elevation
    source := .administration
    actor := ⟨true, .administrator, elevation.administratorID⟩
    authenticationMethod := .strongOIDC
    action := elevation.action
    request := none
    target := some target
    decision := none
    operation := some operation
    attempt := none
    elevation := some elevation
    outcome := .succeeded }

/-- The two resources that the Operation may be about. -/
def sampleResource (resourceID : ID) : Prop :=
  resourceID = "wsp_0000000000000001" ∨ resourceID = "env_0000000000000001"

theorem unboundOperation_valid {resourceID : ID} (h : sampleResource resourceID) :
    Operations.validate (unboundOperation resourceID) = .ok () := by
  unfold Operations.validate
  simp only [StepMachine.bind_ok, StepMachine.ensure_ok, Operations.under_ok, decide_eq_true_eq,
    Operations.encodeCanonical_length, exists_const]
  rcases h with rfl | rfl
  · decide +kernel
  · decide +kernel

attribute [local instance] Reconcile.plainSha256 Identity.plainURLParser

theorem redriveCalls_issued {resourceID : ID} (h : sampleResource resourceID) :
    (Administration.machine.trace ⟨Administration.sampleLedger, []⟩ (redriveCalls resourceID)).map
        (fun entry => elevations entry.output) =
      [[], [.issued (redriveGrant resourceID), .expired (redriveGrant resourceID)]] := by
  rcases h with rfl | rfl
  · decide +kernel
  · decide +kernel

def redriveElevation (resourceID : ID) : ElevationRef :=
  elevationRef (redriveGrant resourceID) .issued "0001-01-01T00:00:00.002Z"
    "0001-01-01T00:00:00.007Z" "0001-01-01T00:00:00.002Z"

def unboundRef (resourceID : ID) : OperationRef :=
  ⟨true, "opr_0000000000000001", "wsp_0000000000000001", resourceID, none, none, 1, "v1", .running,
    "", "2026-01-01T00:00:00.000Z"⟩

def unboundTargetRef (kind : Hierarchy.Kind) (resourceID : ID) (environmentID : Option ID) :
    TargetRef :=
  ⟨true, .operation, "opr_0000000000000001", kind, resourceID, "wsp_0000000000000001", environmentID,
    none⟩

theorem redriveEvent_carries {elevation : ElevationRef} {operation : OperationRef}
    {target : TargetRef} : Carries (redriveEvent elevation operation target) elevation operation
      target := by
  have hid : validID "evt_0000000000000001" = true := by decide
  have hsequence : 0 < 1 ∧ 1 < 2 ^ 64 := by decide
  exact ⟨rfl, hid, rfl, hsequence, rfl, rfl, rfl, rfl, rfl, rfl, rfl, rfl, rfl, rfl, rfl, rfl⟩

/-- The event about an unbound Operation on an Environment is refused. -/
theorem unbound_operation_on_environment_refused :
    Hierarchy.newSnapshot "wsp_0000000000000001" Hierarchy.sampleTree = .ok sampleSnapshot ∧
    Administration.resolveOperationTarget sampleSnapshot (unboundOperation "env_0000000000000001") =
      .ok (redriveGrant "env_0000000000000001").target ∧
    Administration.newLedger [Administration.sampleAdministrator] =
      .ok Administration.sampleLedger ∧
    (Administration.machine.trace ⟨Administration.sampleLedger, []⟩
        (redriveCalls "env_0000000000000001")).map (fun entry => elevations entry.output) =
      [[], [.issued (redriveGrant "env_0000000000000001"),
        .expired (redriveGrant "env_0000000000000001")]] ∧
    elevationRefFromGrant (redriveGrant "env_0000000000000001") .issued =
      .ok (redriveElevation "env_0000000000000001") ∧
    operationRefFromOperation (unboundOperation "env_0000000000000001") =
      .ok (unboundRef "env_0000000000000001") ∧
    Authorization.resolveOperationTarget sampleSnapshot "opr_0000000000000001"
        "env_0000000000000001" "wsp_0000000000000001" none none =
      .ok ⟨true, .operation, "opr_0000000000000001", .environment, "env_0000000000000001",
        "wsp_0000000000000001", some "env_0000000000000001", none⟩ ∧
    targetRefFromAuthorization ⟨true, .operation, "opr_0000000000000001", .environment,
        "env_0000000000000001", "wsp_0000000000000001", some "env_0000000000000001", none⟩ =
      .ok (unboundTargetRef .environment "env_0000000000000001" (some "env_0000000000000001")) ∧
    validateEvent (redriveEvent (redriveElevation "env_0000000000000001")
        (unboundRef "env_0000000000000001")
        (unboundTargetRef .environment "env_0000000000000001" (some "env_0000000000000001"))) =
      .error [.sentinel .invalidEvent, .detail "elevation and target scope mismatch"] := by
  have hvalid := unboundOperation_valid (.inr rfl)
  refine ⟨newSnapshot_sample, ?_, Administration.newLedger_sample, redriveCalls_issued (.inr rfl), ?_,
    ?_, ?_, ?_, ?_⟩
  · rw [Administration.resolveOperationTarget, hvalid]
    decide +kernel
  · decide +kernel
  · rw [operationRefFromOperation, hvalid]
    decide +kernel
  · decide +kernel
  · decide +kernel
  · decide +kernel

/-- The same elevation on the Workspace itself can be reported. -/
theorem elevation_auditable_iff_workspace :
    Administration.resolveOperationTarget sampleSnapshot (unboundOperation "wsp_0000000000000001") =
      .ok (redriveGrant "wsp_0000000000000001").target ∧
    validateEvent (redriveEvent (redriveElevation "wsp_0000000000000001")
        (unboundRef "wsp_0000000000000001")
        (unboundTargetRef .workspace "wsp_0000000000000001" none)) = .ok () := by
  have hvalid := unboundOperation_valid (.inl rfl)
  have htarget : Administration.resolveOperationTarget sampleSnapshot
      (unboundOperation "wsp_0000000000000001") = .ok (redriveGrant "wsp_0000000000000001").target := by
    rw [Administration.resolveOperationTarget, hvalid]
    decide +kernel
  refine ⟨htarget, ?_⟩
  have hissued := redriveCalls_issued (.inl rfl)
  have hmem : [Elevated.issued (redriveGrant "wsp_0000000000000001"),
      .expired (redriveGrant "wsp_0000000000000001")] ∈
      (Administration.machine.trace ⟨Administration.sampleLedger, []⟩
        (redriveCalls "wsp_0000000000000001")).map (fun entry => elevations entry.output) := by
    rw [hissued]
    exact List.mem_cons_of_mem _ List.mem_cons_self
  obtain ⟨entry, hentry, houtput⟩ := List.mem_map.mp hmem
  have helevated : Elevated.issued (redriveGrant "wsp_0000000000000001") ∈ elevations entry.output := by
    rw [houtput]
    exact List.mem_cons_self
  have helevation : elevationRefFromGrant (redriveGrant "wsp_0000000000000001") .issued =
      .ok (redriveElevation "wsp_0000000000000001") := by decide +kernel
  have hoperation : operationRefFromOperation (unboundOperation "wsp_0000000000000001") =
      .ok (unboundRef "wsp_0000000000000001") := by
    rw [operationRefFromOperation, hvalid]
    decide +kernel
  have hresolved : Authorization.resolveOperationTarget sampleSnapshot "opr_0000000000000001"
      "wsp_0000000000000001" "wsp_0000000000000001" none none = .ok ⟨true, .operation,
        "opr_0000000000000001", .workspace, "wsp_0000000000000001", "wsp_0000000000000001", none,
        none⟩ := by decide +kernel
  have hreference : targetRefFromAuthorization ⟨true, .operation, "opr_0000000000000001", .workspace,
      "wsp_0000000000000001", "wsp_0000000000000001", none, none⟩ =
        .ok (unboundTargetRef .workspace "wsp_0000000000000001" none) := by decide +kernel
  have hlookup : sampleSnapshot.lookup "wsp_0000000000000001" = .ok ⟨Hierarchy.apiVersion,
      "wsp_0000000000000001", .workspace, "wsp_0000000000000001", none⟩ := by decide +kernel
  obtain ⟨elevation, target, reference, helevation', -, hresolved', hreference', -, hevents⟩ :=
    @elevation_auditable_iff _ _ _ _ entry hentry _ helevated _ _ _ newSnapshot_sample _ htarget
  cases helevation.symm.trans helevation'
  cases hresolved.symm.trans hresolved'
  cases hreference.symm.trans hreference'
  refine (hevents _ _ hoperation redriveEvent_carries).mpr (.inr fun record hrecord => ?_)
  rw [← Except.ok.inj (hlookup.symm.trans hrecord)]
  rfl

end Veer.Audit
