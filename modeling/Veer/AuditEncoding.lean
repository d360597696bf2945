import Veer.AuditEvent
import Veer.HashFrames

/-!
# Reading a canonical event back

A decoder leaves the text of an absent member empty, so that every text of an event, left out or
not, is read from its canonical form by the name of its member. Events that pass their checks are
therefore equal when their canonical bytes are.
-/
namespace Veer.Audit
open Reconcile (ID validID utf8)
open Administration (TargetKind)
open Authorization (Action ObjectKind Effect Reason)
open PrefixCode (Reads ReadsBefore)
open JsonText (Scalar Stops object object_reads)

/-! ## The text determines the members -/

theorem Field.render_readsBefore : ReadsBefore Stops (fun _ => True) Field.render id := by
  have hobject := object_reads Scalar.render_readsBefore
  have hbrace : ∀ (members : List (String × Scalar)) (x : List Char),
      ∃ y, object Scalar.render members ++ x = '{' :: y := by
    intro members x
    cases members with
    | nil | cons => exact ⟨_, rfl⟩
  have hscalar : ∀ (value : Scalar) (x y : List Char), value.render ++ x ≠ '{' :: y := by
    intro value x y
    cases value with
    | string => exact fun h => absurd (List.cons.inj h).1 (by decide)
    | number value => exact JsonText.number_ne_cons value x y (by decide) (by decide)
  intro a b x y hx hy _ _ heq
  cases a with
  | scalar s =>
    cases b with
    | scalar =>
      obtain ⟨hsame, hrest⟩ := Scalar.render_readsBefore hx hy trivial trivial heq
      exact ⟨congrArg Field.scalar hsame, hrest⟩
    | record members =>
      obtain ⟨z, hz⟩ := hbrace members y
      exact absurd (heq.trans hz) (hscalar s x z)
  | record members =>
    cases b with
    | scalar t =>
      obtain ⟨z, hz⟩ := hbrace members x
      exact absurd (heq.symm.trans hz) (hscalar t y z)
    | record =>
      obtain ⟨hsame, hrest⟩ := hobject trivial trivial heq
      exact ⟨congrArg Field.record hsame, hrest⟩

theorem encodeEvent_wire {left right : Event} (h : encodeEvent left = encodeEvent right) :
    eventToWire left = eventToWire right := by
  have htext := String.ofList_injective (Reconcile.utf8_injective h)
  exact (object_reads Field.render_readsBefore).view_eq trivial trivial htext

/-! ## Members by name -/

def Scalar.text : Scalar → String
  | .string value => value
  | .number _ => ""

/-- The text of a member, empty when the member is absent. -/
def textAt (name : String) : List (String × Scalar) → String
  | [] => ""
  | (key, value) :: rest => if name = key then Scalar.text value else textAt name rest

def numberAt (name : String) : List (String × Scalar) → Int
  | [] => 0
  | (key, .number value) :: rest => if name = key then value else numberAt name rest
  | (_, .string _) :: rest => numberAt name rest

@[simp] theorem textAt_nil (name : String) : textAt name [] = "" := rfl

@[simp] theorem textAt_cons (name key value : String) (rest : List (String × Scalar)) :
    textAt name ((key, .string value) :: rest) = if name = key then value else textAt name rest := rfl

@[simp] theorem textAt_cons_number (name key : String) (value : Int) (rest : List (String × Scalar)) :
    textAt name ((key, .number value) :: rest) = if name = key then "" else textAt name rest := rfl

@[simp] theorem textAt_omitEmpty_append (name key value : String) (rest : List (String × Scalar)) :
    textAt name (omitEmpty key value ++ rest) =
      if name = key ∧ value ≠ "" then value else textAt name rest := by
  unfold omitEmpty
  split_ifs with hempty hboth hname
  all_goals simp_all

@[simp] theorem textAt_omitEmpty (name key value : String) :
    textAt name (omitEmpty key value) = if name = key then value else "" := by
  unfold omitEmpty
  split_ifs with hempty hname
  all_goals simp_all

@[simp] theorem numberAt_cons (name key : String) (value : Int) (rest : List (String × Scalar)) :
    numberAt name ((key, .number value) :: rest) =
      if name = key then value else numberAt name rest := rfl

@[simp] theorem numberAt_cons_text (name key value : String) (rest : List (String × Scalar)) :
    numberAt name ((key, .string value) :: rest) = numberAt name rest := rfl

@[simp] theorem numberAt_omitEmpty_append (name key value : String)
    (rest : List (String × Scalar)) :
    numberAt name (omitEmpty key value ++ rest) = numberAt name rest := by
  unfold omitEmpty
  split_ifs
  · rfl
  · rfl

/-- The texts of several members. -/
def texts (names : List String) (members : List (String × Scalar)) : List String :=
  names.map fun name => textAt name members

theorem idText_eq {left right : Option ID} (hl : left.all validID = true)
    (hr : right.all validID = true) (h : idText left = idText right) : left = right := by
  have hempty : ∀ id : ID, validID id = true → id ≠ "" := by
    rintro id hid rfl
    cases hid
  cases left with
  | none =>
    cases right with
    | none => rfl
    | some id => exact absurd h.symm (hempty id hr)
  | some id =>
    cases right with
    | none => exact absurd h (hempty id hl)
    | some => exact congrArg some h

/-! ## Vocabularies -/

theorem StreamKind.string_injective : Function.Injective StreamKind.string := by
  intro left right h
  cases left <;> cases right <;> first | rfl | (revert h; decide)

theorem ActorKind.string_injective : Function.Injective ActorKind.string := by
  intro left right h
  cases left <;> cases right <;> first | rfl | (revert h; decide)

theorem AuthenticationMethod.string_injective :
    Function.Injective AuthenticationMethod.string := by
  intro left right h
  cases left <;> cases right <;> first | rfl | (revert h; decide)

theorem EventKind.string_injective : Function.Injective EventKind.string := by
  intro left right h
  cases left <;> cases right <;> first | rfl | (revert h; decide)

theorem Source.string_injective : Function.Injective Source.string := by
  intro left right h
  cases left <;> cases right <;> first | rfl | (revert h; decide)

theorem Outcome.string_injective : Function.Injective Outcome.string := by
  intro left right h
  cases left <;> cases right <;> first | rfl | (revert h; decide)

theorem ClockState.string_injective : Function.Injective ClockState.string := by
  intro left right h
  cases left <;> cases right <;> first | rfl | (revert h; decide)

theorem ElevationState.string_injective : Function.Injective ElevationState.string := by
  intro left right h
  cases left <;> cases right <;> first | rfl | (revert h; decide)

theorem Phase.string_injective : Function.Injective Phase.string := by
  intro left right h
  cases left <;> cases right <;> first | rfl | (revert h; decide)

theorem effectString_injective : Function.Injective effectString := by
  intro left right h
  cases left <;> cases right <;> first | rfl | (revert h; decide)

theorem reasonString_injective : Function.Injective reasonString := by
  intro left right h
  cases left <;> cases right <;> first | rfl | (revert h; decide)

theorem targetKind_string_injective : Function.Injective TargetKind.string := by
  intro left right h
  cases left <;> cases right <;> first | rfl | (revert h; decide)

/-! ## References -/

theorem streamToWire_texts (stream : Stream) :
    texts ["kind", "workspaceId"] (streamToWire stream) =
      [stream.kind.string, if stream.kind = .workspace then stream.workspaceID else ""] := by
  simp [texts, streamToWire]

theorem streamToWire_injective {left right : Stream} (hl : validateStream left = true)
    (hr : validateStream right = true) (h : streamToWire left = streamToWire right) :
    left = right := by
  have hread := streamToWire_texts left
  rw [h, streamToWire_texts] at hread
  simp only [List.cons.injEq, and_true] at hread
  obtain ⟨hkind, htext⟩ := hread
  have hkind := StreamKind.string_injective hkind
  rcases left with ⟨li, lk, lw⟩
  rcases right with ⟨ri, rk, rw⟩
  simp only at hkind htext
  subst hkind
  cases rk with
  | workspace | platform => simp_all [validateStream]

theorem actorToWire_injective {left right : ActorRef} (hl : validateActorRef left = true)
    (hr : validateActorRef right = true) (h : actorToWire left = actorToWire right) :
    left = right := by
  have htexts : ∀ actor : ActorRef, texts ["kind", "pseudonym"] (actorToWire actor) =
      [actor.kind.string, actor.pseudonym] := by
    intro actor
    simp [texts, actorToWire]
  have hread := htexts left
  rw [h, htexts] at hread
  simp only [List.cons.injEq, and_true] at hread
  obtain ⟨hkind, hpseudonym⟩ := hread
  simp only [validateActorRef, Bool.and_eq_true] at hl hr
  exact (ActorRef.mk.injEq ..).mpr
    ⟨hl.1.trans hr.1.symm, (ActorKind.string_injective hkind).symm, hpseudonym.symm⟩

theorem requestToWire_injective {left right : RequestRef} (hl : validateRequestRef left = true)
    (hr : validateRequestRef right = true) (h : requestToWire left = requestToWire right) :
    left = right := by
  simp only [validateRequestRef, Bool.and_eq_true] at hl hr
  have hid : left.id = right.id := by simpa [requestToWire] using h
  exact (RequestRef.mk.injEq ..).mpr ⟨hl.1.trans hr.1.symm, hid⟩

theorem targetToWire_texts (reference : TargetRef) :
    texts ["objectKind", "objectId", "resourceKind", "resourceId", "workspaceId", "environmentId",
      "providerConnectionId"] (targetToWire reference) =
      [reference.objectKind.string, reference.objectID, reference.resourceKind.string,
        reference.resourceID, reference.workspaceID, idText reference.environmentID,
        idText reference.providerConnectionID] := by
  simp [texts, targetToWire]

theorem targetToWire_injective {left right : TargetRef} (hl : validateTargetRef left = true)
    (hr : validateTargetRef right = true) (h : targetToWire left = targetToWire right) :
    left = right := by
  have hread := targetToWire_texts right
  rw [← h, targetToWire_texts] at hread
  simp only [List.cons.injEq, and_true] at hread
  obtain ⟨hobjectKind, hobject, hkind, hresource, hworkspace, henvironment, hprovider⟩ := hread
  simp only [validateTargetRef, Bool.and_eq_true, List.all_cons, List.all_nil, Bool.and_true] at hl hr
  obtain ⟨⟨⟨⟨⟨⟨hinit, -⟩, hids⟩, -⟩, -⟩, -⟩, -⟩ := hl
  obtain ⟨⟨⟨⟨⟨⟨hinit', -⟩, hids'⟩, -⟩, -⟩, -⟩, -⟩ := hr
  exact (TargetRef.mk.injEq ..).mpr ⟨hinit.trans hinit'.symm,
    ObjectKind.string_injective hobjectKind, hobject, Hierarchy.Kind.string_injective hkind,
    hresource, hworkspace, idText_eq hids.1 hids'.1 henvironment,
    idText_eq hids.2 hids'.2 hprovider⟩

theorem decisionToWire_injective {left right : DecisionRef} (hl : validateDecisionRef left = true)
    (hr : validateDecisionRef right = true) (h : decisionToWire left = decisionToWire right) :
    left = right := by
  simp only [decisionToWire, List.cons.injEq, Prod.mk.injEq, Scalar.string.injEq, true_and,
    and_true] at h
  obtain ⟨hversion, hdigest, heffect, hreason⟩ := h
  simp only [validateDecisionRef, Bool.and_eq_true] at hl hr
  exact (DecisionRef.mk.injEq ..).mpr ⟨hl.1.1.1.trans hr.1.1.1.symm, hversion, hdigest,
    effectString_injective heffect, reasonString_injective hreason⟩

theorem operationToWire_texts (reference : OperationRef) :
    texts ["id", "workspaceId", "resourceId", "environmentId", "providerConnectionId",
      "resourceVersion", "phase", "reason", "updatedAt"] (operationToWire reference) =
      [reference.id, reference.workspaceID, reference.resourceID, idText reference.environmentID,
        idText reference.providerConnectionID, reference.resourceVersion, reference.phase.string,
        reference.reason, reference.updatedAt] := by
  simp [texts, operationToWire]

theorem operationToWire_injective {left right : OperationRef} (hl : validateOperationRef left = true)
    (hr : validateOperationRef right = true) (h : operationToWire left = operationToWire right) :
    left = right := by
  have hread := operationToWire_texts right
  rw [← h, operationToWire_texts] at hread
  simp only [List.cons.injEq, and_true] at hread
  obtain ⟨hid, hworkspace, hresource, henvironment, hprovider, hversion, hphase, hreason, hupdated⟩ :=
    hread
  have hgeneration : left.generation = right.generation := by
    have hnumber := congrArg (numberAt "generation") h
    simpa [operationToWire] using hnumber
  simp only [validateOperationRef, Bool.and_eq_true, List.all_cons, List.all_nil, Bool.and_true]
    at hl hr
  obtain ⟨⟨⟨⟨⟨⟨⟨hinit, -⟩, -⟩, hids⟩, -⟩, -⟩, -⟩, -⟩ := hl
  obtain ⟨⟨⟨⟨⟨⟨⟨hinit', -⟩, -⟩, hids'⟩, -⟩, -⟩, -⟩, -⟩ := hr
  exact (OperationRef.mk.injEq ..).mpr ⟨hinit.trans hinit'.symm, hid, hworkspace, hresource,
    idText_eq hids.1 hids'.1 henvironment, idText_eq hids.2 hids'.2 hprovider, hgeneration, hversion,
    Phase.string_injective hphase, hreason, hupdated⟩

theorem attemptToWire_injective {left right : AttemptRef} (hl : validateAttemptRef left = true)
    (hr : validateAttemptRef right = true) (h : attemptToWire left = attemptToWire right) :
    left = right := by
  simp only [attemptToWire, List.cons.injEq, Prod.mk.injEq, Scalar.string.injEq,
    Scalar.number.injEq, true_and, and_true, Nat.cast_inj] at h
  simp only [validateAttemptRef, Bool.and_eq_true] at hl hr
  exact (AttemptRef.mk.injEq ..).mpr ⟨hl.1.1.trans hr.1.1.symm, h.1, h.2⟩

theorem elevationToWire_texts (reference : ElevationRef) :
    texts ["grantId", "administratorId", "action", "targetKind", "workspaceId", "objectId",
      "resourceId", "environmentId", "providerConnectionId", "reason", "caseReference", "issuedAt",
      "expiresAt", "state", "recordedAt"] (elevationToWire reference) =
      [reference.grantID, reference.administratorID, reference.action.string,
        reference.targetKind.string, idText reference.workspaceID, idText reference.objectID,
        idText reference.resourceID, idText reference.environmentID,
        idText reference.providerConnectionID, reference.reason, reference.caseReference,
        reference.issuedAt, reference.expiresAt, reference.state.string, reference.recordedAt] := by
  simp [texts, elevationToWire]

theorem elevationToWire_injective {left right : ElevationRef} (hl : validateElevationRef left = true)
    (hr : validateElevationRef right = true) (h : elevationToWire left = elevationToWire right) :
    left = right := by
  have hread := elevationToWire_texts right
  rw [← h, elevationToWire_texts] at hread
  simp only [List.cons.injEq, and_true] at hread
  obtain ⟨hgrant, hadministrator, haction, htarget, hworkspace, hobject, hresource, henvironment,
    hprovider, hreason, hcase, hissued, hexpires, hstate, hrecorded⟩ := hread
  simp only [validateElevationRef, Bool.and_eq_true, List.all_cons, List.all_nil, Bool.and_true]
    at hl hr
  obtain ⟨⟨⟨⟨⟨hinit, -⟩, -⟩, -⟩, hw, ho, hs, he, hp⟩, -⟩ := hl
  obtain ⟨⟨⟨⟨⟨hinit', -⟩, -⟩, -⟩, hw', ho', hs', he', hp'⟩, -⟩ := hr
  exact (ElevationRef.mk.injEq ..).mpr ⟨hinit.trans hinit'.symm, hgrant, hadministrator,
    Authorization.Action.string_injective haction, targetKind_string_injective htarget,
    idText_eq hw hw' hworkspace, idText_eq ho ho' hobject, idText_eq hs hs' hresource,
    idText_eq he he' henvironment, idText_eq hp hp' hprovider, hreason, hcase, hissued, hexpires,
    ElevationState.string_injective hstate, hrecorded⟩

/-! ## Events -/

/-- The text of a member of an event. -/
def fieldText (name : String) : List (String × Field) → String
  | [] => ""
  | (key, .scalar value) :: rest => if name = key then Scalar.text value else fieldText name rest
  | (_, .record _) :: rest => fieldText name rest

/-- The object that a member of an event holds. -/
def recordAt (name : String) : List (String × Field) → Option (List (String × Scalar))
  | [] => none
  | (key, .record members) :: rest => if name = key then some members else recordAt name rest
  | (_, .scalar _) :: rest => recordAt name rest

section
variable {α : Type} (name key value : String) (toWire : α → List (String × Scalar))
  (reference : Option α) (rest : List (String × Field))

@[simp] theorem fieldText_text :
    fieldText name ((key, .scalar (.string value)) :: rest) =
      if name = key then value else fieldText name rest := rfl

@[simp] theorem fieldText_omitAbsent :
    fieldText name (omitAbsent key toWire reference ++ rest) = fieldText name rest := by
  cases reference with
  | none | some => rfl

@[simp] theorem recordAt_nil : recordAt name [] = none := rfl

@[simp] theorem recordAt_text :
    recordAt name ((key, .scalar (.string value)) :: rest) = recordAt name rest := rfl

@[simp] theorem recordAt_omitAbsent :
    recordAt name (omitAbsent key toWire reference ++ rest) =
      if name = key then (reference.map toWire).or (recordAt name rest) else recordAt name rest := by
  cases reference with
  | none => simp [omitAbsent]
  | some reference =>
    change (if name = key then some (toWire reference) else recordAt name rest) = _
    simp

end

/-- What the checks of an event say of its parts. -/
structure Event.Sound (event : Event) : Prop where
  initialized : event.initialized = true
  stream : validateStream event.stream = true
  actor : validateActorRef event.actor = true
  request : event.request.all validateRequestRef = true
  target : event.target.all validateTargetRef = true
  decision : event.decision.all validateDecisionRef = true
  operation : event.operation.all validateOperationRef = true
  attempt : event.attempt.all validateAttemptRef = true
  elevation : event.elevation.all validateElevationRef = true

theorem validateEventFields_sound {event : Event} (h : validateEventFields event = .ok ()) :
    event.Sound := by
  unfold validateEventFields invalidEvent at h
  split_ifs at h with hinit hid hstream hrecorded hactor hmethod hreferences
  simp only [Bool.or_eq_true, not_or, Bool.not_eq_true, Bool.not_eq_false'] at hreferences
  obtain ⟨⟨⟨⟨⟨hrequest, htarget⟩, hdecision⟩, hoperation⟩, hattempt⟩, helevation⟩ := hreferences
  exact ⟨by simpa using hinit, by simpa using hstream, by simpa using hactor, hrequest, htarget,
    hdecision, hoperation, hattempt, helevation⟩

theorem optional_eq {α : Type} {valid : α → Bool} {toWire : α → List (String × Scalar)}
    (hinjective : ∀ {left right : α}, valid left = true → valid right = true →
      toWire left = toWire right → left = right)
    {left right : Option α} (hl : left.all valid = true) (hr : right.all valid = true)
    (h : left.map toWire = right.map toWire) : left = right := by
  cases left with
  | none =>
    cases right with
    | none => rfl
    | some => cases h
  | some =>
    cases right with
    | none => cases h
    | some => exact congrArg some (hinjective hl hr (Option.some.inj h))

theorem eventToWire_injective {left right : Event} (hl : left.Sound) (hr : right.Sound)
    (h : eventToWire left = eventToWire right) : left = right := by
  unfold eventToWire at h
  simp only [textField, List.cons.injEq, Prod.mk.injEq, Field.scalar.injEq, Field.record.injEq,
    Scalar.string.injEq, Scalar.number.injEq, true_and, Nat.cast_inj] at h
  obtain ⟨hid, hstream, hsequence, hrecorded, hclock, hkind, hsource, hactor, hmethod, haction,
    hrest⟩ := h
  -- the rest of the members are read by name, since each of them may be absent
  have hrequest := congrArg (recordAt "request") hrest
  have htarget := congrArg (recordAt "target") hrest
  have hdecision := congrArg (recordAt "decision") hrest
  have hoperation := congrArg (recordAt "operation") hrest
  have hattempt := congrArg (recordAt "attempt") hrest
  have helevation := congrArg (recordAt "elevation") hrest
  have houtcome := congrArg (fieldText "outcome") hrest
  simp only [recordAt_omitAbsent, recordAt_text, recordAt_nil, fieldText_omitAbsent, fieldText_text,
    String.reduceEq, if_true, if_false, Option.or_none]
    at hrequest htarget hdecision hoperation hattempt helevation houtcome
  exact (Event.mk.injEq ..).mpr ⟨hl.initialized.trans hr.initialized.symm, hid,
    streamToWire_injective hl.stream hr.stream hstream, hsequence, hrecorded,
    ClockState.string_injective hclock, EventKind.string_injective hkind,
    Source.string_injective hsource, actorToWire_injective hl.actor hr.actor hactor,
    AuthenticationMethod.string_injective hmethod, Authorization.Action.string_injective haction,
    optional_eq requestToWire_injective hl.request hr.request hrequest,
    optional_eq targetToWire_injective hl.target hr.target htarget,
    optional_eq decisionToWire_injective hl.decision hr.decision hdecision,
    optional_eq operationToWire_injective hl.operation hr.operation hoperation,
    optional_eq attemptToWire_injective hl.attempt hr.attempt hattempt,
    optional_eq elevationToWire_injective hl.elevation hr.elevation helevation,
    Outcome.string_injective houtcome⟩

theorem encodeEvent_injective {left right : Event} (hl : validateEventFields left = .ok ())
    (hr : validateEventFields right = .ok ()) (h : encodeEvent left = encodeEvent right) :
    left = right :=
  eventToWire_injective (validateEventFields_sound hl) (validateEventFields_sound hr)
    (encodeEvent_wire h)

end Veer.Audit
