import Veer.Administration
import Veer.Calendar
import Veer.JsonText

/-!
# Audit events

The references an audit event may carry, the checks of a complete event, and its canonical JSON
text. Closed vocabularies are inductive types, so `ParseClockState` and its siblings hold by typing.
-/
namespace Veer.Audit
open Reconcile (ID validID parsesAs utf8 millisecond second hour)
open Administration (TargetKind maxReasonRunes maxCaseReferenceRunes maxElevationDuration
  validBoundedText)
open Authorization (Action ObjectKind Effect Reason)
open JsonText (Scalar object)

/-- The sentinel errors of `errors.go` that events and chains return. -/
inductive Sentinel
  | invalidEvent | invalidStream | invalidActor | invalidReference | invalidClockState
  | invalidAuthentication | workspaceMismatch | canonicalTooLarge
  | invalidCheckpoint | invalidRecord | invalidSegment | invalidSequence | integrity
  | expectedHead | segmentTooLarge
  deriving DecidableEq, Repr

/-- One part of an error chain: a sentinel or the text after it. -/
inductive Cause
  | sentinel (value : Sentinel)
  | detail (text : String)
  deriving DecidableEq, Repr

abbrev Failure := List Cause

def contractVersion : String := "veer.audit.v1alpha1"
def maxCanonicalEventBytes : Nat := 16384
def maxSegmentEvents : Nat := 1000
def maxCanonicalSegmentBytes : Nat := 16640512

inductive StreamKind
  | workspace | platform
  deriving DecidableEq, Repr

def StreamKind.string : StreamKind → String
  | workspace => "Workspace"
  | platform => "Platform"

inductive ActorKind
  | anonymous | human | workload | administrator
  deriving DecidableEq, Repr

def ActorKind.string : ActorKind → String
  | anonymous => "Anonymous"
  | human => "Human"
  | workload => "Workload"
  | administrator => "Administrator"

inductive AuthenticationMethod
  | none | oidc | workloadOIDC | strongOIDC | internal
  deriving DecidableEq, Repr

def AuthenticationMethod.string : AuthenticationMethod → String
  | none => "None"
  | oidc => "OIDC"
  | workloadOIDC => "WorkloadOIDC"
  | strongOIDC => "StrongOIDC"
  | internal => "Internal"

inductive EventKind
  | request | authorization | operation | providerAttempt | elevation | exportEvent | retention
  | integrity
  deriving DecidableEq, Repr

def EventKind.string : EventKind → String
  | request => "Request"
  | authorization => "Authorization"
  | operation => "Operation"
  | providerAttempt => "ProviderAttempt"
  | elevation => "Elevation"
  | exportEvent => "Export"
  | retention => "Retention"
  | integrity => "Integrity"

inductive Source
  | api | worker | controller | providerAdapter | administration | system
  deriving DecidableEq, Repr

def Source.string : Source → String
  | api => "API"
  | worker => "Worker"
  | controller => "Controller"
  | providerAdapter => "ProviderAdapter"
  | administration => "Administration"
  | system => "System"

inductive Outcome
  | accepted | succeeded | denied | failed | canceled | indeterminate
  deriving DecidableEq, Repr

def Outcome.string : Outcome → String
  | accepted => "Accepted"
  | succeeded => "Succeeded"
  | denied => "Denied"
  | failed => "Failed"
  | canceled => "Canceled"
  | indeterminate => "Indeterminate"

inductive ClockState
  | synchronized | uncertain | regressed
  deriving DecidableEq, Repr

def ClockState.string : ClockState → String
  | synchronized => "Synchronized"
  | uncertain => "Uncertain"
  | regressed => "Regressed"

inductive ElevationState
  | issued | consumed | revoked | expired
  deriving DecidableEq, Repr

def ElevationState.string : ElevationState → String
  | issued => "Issued"
  | consumed => "Consumed"
  | revoked => "Revoked"
  | expired => "Expired"

/-- `operation.Phase`. -/
inductive Phase
  | pending | waiting | running | succeeded | failed | canceled
  deriving DecidableEq, Repr

def Phase.string : Phase → String
  | pending => "Pending"
  | waiting => "Waiting"
  | running => "Running"
  | succeeded => "Succeeded"
  | failed => "Failed"
  | canceled => "Canceled"

def effectString : Effect → String
  | .allow => "Allow"
  | .deny => "Deny"

def reasonString : Reason → String
  | .crossWorkspace => "CrossWorkspace"
  | .reservedAction => "ReservedAction"
  | .noMembership => "NoMembership"
  | .noRoleBinding => "NoRoleBinding"
  | .scopeNotGranted => "ScopeNotGranted"
  | .actionNotGranted => "ActionNotGranted"
  | .roleGranted => "RoleGranted"

/-! ## Timestamps -/

/-- The first instant of year 1 in the count of the calendar, which is Go's zero time. -/
def firstYear : Nat := 366 * Calendar.dayMilliseconds

/-- Exactly the texts that `Format` gives with layout `2006-01-02T15:04:05.000Z` from year 1 on:
`time.Parse` accepts more, and the comparison with the formatted value refuses the rest. -/
def parseTimestamp (value : String) : Option Int :=
  match Calendar.parseTimestamp value.toList with
  | none => none
  | some count => if firstYear ≤ count then some ((count - firstYear : Int) * millisecond) else none

/-! ## References -/

structure Stream where
  initialized : Bool
  kind : StreamKind
  workspaceID : ID
  deriving DecidableEq, Repr

def validateStream (stream : Stream) : Bool :=
  stream.initialized &&
    match stream.kind with
    | .workspace => validID stream.workspaceID
    | .platform => stream.workspaceID == ""

def Stream.workspace (stream : Stream) : Option ID :=
  if validateStream stream ∧ stream.kind = .workspace then some stream.workspaceID else none

def Stream.equal (stream other : Stream) : Bool :=
  validateStream stream && validateStream other && stream.kind == other.kind &&
    stream.workspaceID == other.workspaceID

structure ActorRef where
  initialized : Bool
  kind : ActorKind
  pseudonym : String
  deriving DecidableEq, Repr

def validateActorRef (actor : ActorRef) : Bool :=
  actor.initialized &&
    match actor.kind with
    | .anonymous => actor.pseudonym == ""
    | .human | .workload => parsesAs "prn1_" actor.pseudonym
    | .administrator => validID actor.pseudonym

structure RequestRef where
  initialized : Bool
  id : ID
  deriving DecidableEq, Repr

structure TargetRef where
  initialized : Bool
  objectKind : ObjectKind
  objectID : ID
  resourceKind : Hierarchy.Kind
  resourceID : ID
  workspaceID : ID
  environmentID : Option ID
  providerConnectionID : Option ID
  deriving DecidableEq, Repr

structure DecisionRef where
  initialized : Bool
  policyVersion : String
  inputDigest : String
  effect : Effect
  reason : Reason
  deriving DecidableEq, Repr

structure OperationRef where
  initialized : Bool
  id : ID
  workspaceID : ID
  resourceID : ID
  environmentID : Option ID
  providerConnectionID : Option ID
  generation : Int
  resourceVersion : String
  phase : Phase
  reason : String
  updatedAt : String
  deriving DecidableEq, Repr

structure AttemptRef where
  initialized : Bool
  id : ID
  ordinal : Nat
  deriving DecidableEq, Repr

structure ElevationRef where
  initialized : Bool
  grantID : ID
  administratorID : ID
  action : Action
  targetKind : TargetKind
  workspaceID : Option ID
  objectID : Option ID
  resourceID : Option ID
  environmentID : Option ID
  providerConnectionID : Option ID
  reason : String
  caseReference : String
  issuedAt : String
  expiresAt : String
  state : ElevationState
  recordedAt : String
  deriving DecidableEq, Repr

def validateRequestRef (reference : RequestRef) : Bool :=
  reference.initialized && validID reference.id

/-- The shape that each kind of object gives its reference. -/
def objectShape (reference : TargetRef) : Bool :=
  match reference.objectKind with
  | .resource =>
    reference.objectID == reference.resourceID && reference.providerConnectionID.isNone
  | .membership =>
    reference.resourceKind == .workspace && reference.resourceID == reference.workspaceID &&
      reference.providerConnectionID.isNone
  | .audit =>
    reference.resourceKind == .workspace && reference.resourceID == reference.workspaceID &&
      reference.environmentID.isNone && reference.providerConnectionID.isNone
  | .operation | .plan => true

def validateTargetRef (reference : TargetRef) : Bool :=
  reference.initialized &&
    [reference.objectID, reference.resourceID, reference.workspaceID].all validID &&
    [reference.environmentID, reference.providerConnectionID].all (fun id => id.all validID) &&
    !(reference.providerConnectionID.isSome && reference.environmentID.isNone) &&
    !(reference.resourceKind == .workspace && reference.resourceID != reference.workspaceID) &&
    Authorization.wantsEnvironment reference.resourceKind == reference.environmentID.isSome &&
    objectShape reference

def validateDecisionRef (reference : DecisionRef) : Bool :=
  reference.initialized && parsesAs "azv1_" reference.policyVersion &&
    parsesAs "azi1_" reference.inputDigest &&
    (reference.effect == .allow) == (reference.reason == .roleGranted)

/-- `^[A-Za-z0-9_-]{1,128}$`. -/
def opaqueVersionPattern (value : String) : Bool :=
  decide (1 ≤ value.toList.length) && decide (value.toList.length ≤ 128) &&
    value.toList.all Reconcile.idRune

/-- `^[A-Z][A-Za-z0-9]{0,63}$`. -/
def operationReasonPattern (value : String) : Bool :=
  match value.toList with
  | [] => false
  | c :: cs => c.isUpper && decide (cs.length ≤ 63) && cs.all Char.isAlphanum

def validateOperationRef (reference : OperationRef) : Bool :=
  reference.initialized &&
    [reference.id, reference.workspaceID, reference.resourceID].all validID &&
    reference.environmentID.isNone == reference.providerConnectionID.isNone &&
    [reference.environmentID, reference.providerConnectionID].all (fun id => id.all validID) &&
    decide (1 ≤ reference.generation) && opaqueVersionPattern reference.resourceVersion &&
    (reference.reason == "" || operationReasonPattern reference.reason) &&
    (parseTimestamp reference.updatedAt).isSome

def validateAttemptRef (reference : AttemptRef) : Bool :=
  reference.initialized && reference.ordinal != 0 && validID reference.id

def validElevationTargetShape (reference : ElevationRef) : Bool :=
  match reference.targetKind with
  | .platformAudit =>
    reference.objectID.isNone && reference.workspaceID.isNone && reference.resourceID.isNone &&
      reference.environmentID.isNone && reference.providerConnectionID.isNone
  | .workspaceAudit =>
    reference.objectID.isSome && reference.workspaceID.isSome && reference.resourceID.isSome &&
      reference.environmentID.isNone && reference.providerConnectionID.isNone &&
      reference.objectID == reference.workspaceID && reference.resourceID == reference.workspaceID
  | .operation =>
    reference.objectID.isSome && reference.workspaceID.isSome && reference.resourceID.isSome &&
      reference.environmentID.isNone == reference.providerConnectionID.isNone

def validElevationActionReference (reference : ElevationRef) : Bool :=
  match reference.action with
  | .auditExport =>
    reference.targetKind == .platformAudit || reference.targetKind == .workspaceAudit
  | .operationQuarantine | .workRedrive => reference.targetKind == .operation
  | _ => false

def validElevationPeriod (issuedAt expiresAt : Int) : Bool :=
  decide (issuedAt < expiresAt) && decide (expiresAt - issuedAt ≤ maxElevationDuration) &&
    (expiresAt - issuedAt) % millisecond == 0

def elevationStateAt (state : ElevationState) (issuedAt expiresAt recordedAt : Int) : Bool :=
  match state with
  | .issued => recordedAt == issuedAt
  | .consumed | .revoked => decide (issuedAt ≤ recordedAt) && decide (recordedAt < expiresAt)
  | .expired => recordedAt == expiresAt

def validateElevationRef (reference : ElevationRef) : Bool :=
  reference.initialized && [reference.grantID, reference.administratorID].all validID &&
    validElevationTargetShape reference && validElevationActionReference reference &&
    [reference.workspaceID, reference.objectID, reference.resourceID, reference.environmentID,
      reference.providerConnectionID].all (fun id => id.all validID) &&
    match parseTimestamp reference.issuedAt, parseTimestamp reference.expiresAt,
      parseTimestamp reference.recordedAt with
    | some issuedAt, some expiresAt, some recordedAt =>
      validElevationPeriod issuedAt expiresAt && validBoundedText reference.reason 1 maxReasonRunes &&
        (reference.caseReference == "" ||
          validBoundedText reference.caseReference 1 maxCaseReferenceRunes) &&
        elevationStateAt reference.state issuedAt expiresAt recordedAt
    | _, _, _ => false

/-! ## Events -/

structure Event where
  initialized : Bool
  id : ID
  stream : Stream
  sequence : Nat
  recordedAt : String
  clockState : ClockState
  kind : EventKind
  source : Source
  actor : ActorRef
  authenticationMethod : AuthenticationMethod
  action : Action
  request : Option RequestRef
  target : Option TargetRef
  decision : Option DecisionRef
  operation : Option OperationRef
  attempt : Option AttemptRef
  elevation : Option ElevationRef
  outcome : Outcome
  deriving DecidableEq, Repr

def validateActorAuthentication (actor : ActorRef) (method : AuthenticationMethod) : Bool :=
  match actor.kind with
  | .anonymous => method == .none
  | .human => method == .oidc || method == .strongOIDC
  | .workload => method == .workloadOIDC || method == .internal
  | .administrator => method == .strongOIDC

def elevationMatchesOperation (elevation : ElevationRef) (operation : OperationRef) : Bool :=
  elevation.targetKind == .operation && elevation.objectID == some operation.id &&
    elevation.workspaceID == some operation.workspaceID &&
    elevation.resourceID == some operation.resourceID &&
    elevation.environmentID == operation.environmentID &&
    elevation.providerConnectionID == operation.providerConnectionID

/-- The object kind that an elevation of each kind may be about. -/
def elevationObjectKind : TargetKind → Option ObjectKind
  | .workspaceAudit => some .audit
  | .operation => some .operation
  | .platformAudit => none

def elevationMatchesTarget (elevation : ElevationRef) (target : TargetRef) : Bool :=
  elevationObjectKind elevation.targetKind == some target.objectKind &&
    elevation.objectID == some target.objectID &&
    elevation.workspaceID == some target.workspaceID &&
    elevation.resourceID == some target.resourceID &&
    elevation.environmentID == target.environmentID &&
    elevation.providerConnectionID == target.providerConnectionID

def invalidEventBecause (text : String) : Except Failure Unit :=
  .error [.sentinel .invalidEvent, .detail text]

def invalidEvent (cause : Sentinel) : Except Failure Unit :=
  .error [.sentinel .invalidEvent, .sentinel cause]

/-- The reference that each kind of event requires. -/
def requiredReference (event : Event) : Except Failure Unit :=
  match event.kind with
  | .request => if event.request.isNone then invalidEventBecause "request reference required" else .ok ()
  | .authorization =>
    if event.decision.isNone then invalidEventBecause "decision reference required" else .ok ()
  | .operation =>
    if event.operation.isNone then invalidEventBecause "operation reference required" else .ok ()
  | .providerAttempt =>
    if event.operation.isNone ∨ event.attempt.isNone ∨ event.source ≠ .providerAdapter then
      invalidEventBecause "operation and attempt references required"
    else .ok ()
  | .elevation =>
    if event.elevation.isNone ∨ event.source ≠ .administration ∨
        event.actor.kind ≠ .administrator ∨ event.authenticationMethod ≠ .strongOIDC then
      invalidEventBecause "elevation attribution"
    else .ok ()
  | .exportEvent | .retention | .integrity => .ok ()

def elevationRelationships (event : Event) (elevation : ElevationRef) : Except Failure Unit :=
  if event.kind ≠ .elevation ∨ elevation.action ≠ event.action ∨
      elevation.administratorID ≠ event.actor.pseudonym ∨
      elevation.recordedAt ≠ event.recordedAt then
    invalidEventBecause "elevation reference mismatch"
  else if !event.operation.all (elevationMatchesOperation elevation) then
    invalidEventBecause "elevation and operation scope mismatch"
  else if !event.target.all (elevationMatchesTarget elevation) then
    invalidEventBecause "elevation and target scope mismatch"
  else .ok ()

/-- An unbound Operation asserts no Environment or ProviderConnection, a bound one both. -/
def operationRelationships (operation : OperationRef) (target : TargetRef) : Except Failure Unit :=
  if operation.workspaceID ≠ target.workspaceID ∨ operation.resourceID ≠ target.resourceID ∨
      (operation.environmentID.isSome ∧ (operation.environmentID ≠ target.environmentID ∨
        operation.providerConnectionID ≠ target.providerConnectionID)) then
    invalidEvent .workspaceMismatch
  else if target.objectKind = .operation ∧ target.objectID ≠ operation.id then
    invalidEventBecause "operation target mismatch"
  else .ok ()

/-- A check of an optional part, passed when the part is absent. -/
def whenPresent {α : Type} (value : Option α) (check : α → Except Failure Unit) :
    Except Failure Unit :=
  match value with
  | none => .ok ()
  | some value => check value

def validateEventRelationships (event : Event) : Except Failure Unit := do
  requiredReference event
  if event.attempt.isSome ∧ event.kind ≠ .providerAttempt then
    invalidEventBecause "attempt reference on non-attempt event"
  else .ok ()
  whenPresent event.elevation (elevationRelationships event)
  whenPresent event.operation fun operation =>
    whenPresent event.target (operationRelationships operation)
  if event.target.any (fun target => event.stream.workspace != some target.workspaceID) ∨
      event.operation.any (fun operation => event.stream.workspace != some operation.workspaceID) ∨
      event.elevation.any (fun elevation => elevation.workspaceID != event.stream.workspace) then
    invalidEvent .workspaceMismatch
  else .ok ()

def validateEventFields (event : Event) : Except Failure Unit :=
  if !event.initialized then .error [.sentinel .invalidEvent]
  else if !validID event.id || event.sequence == 0 then invalidEvent .invalidReference
  else if !validateStream event.stream then invalidEvent .invalidStream
  else if (parseTimestamp event.recordedAt).isNone then invalidEvent .invalidClockState
  else if !validateActorRef event.actor then invalidEvent .invalidActor
  else if !validateActorAuthentication event.actor event.authenticationMethod then
    invalidEvent .invalidAuthentication
  else if !event.request.all validateRequestRef || !event.target.all validateTargetRef ||
      !event.decision.all validateDecisionRef || !event.operation.all validateOperationRef ||
      !event.attempt.all validateAttemptRef || !event.elevation.all validateElevationRef then
    invalidEvent .invalidReference
  else validateEventRelationships event

/-! ## The canonical text -/

/-- A member that is left out when its text is empty. -/
def omitEmpty (name value : String) : List (String × Scalar) :=
  if value = "" then [] else [(name, .string value)]

/-- The text of an optional identifier. -/
def idText (id : Option ID) : String := id.getD ""

def streamToWire (stream : Stream) : List (String × Scalar) :=
  ("kind", .string stream.kind.string) ::
    omitEmpty "workspaceId" (if stream.kind = .workspace then stream.workspaceID else "")

def actorToWire (actor : ActorRef) : List (String × Scalar) :=
  ("kind", .string actor.kind.string) :: omitEmpty "pseudonym" actor.pseudonym

def requestToWire (reference : RequestRef) : List (String × Scalar) :=
  [("id", .string reference.id)]

def targetToWire (reference : TargetRef) : List (String × Scalar) :=
  ("objectKind", .string reference.objectKind.string) ::
    ("objectId", .string reference.objectID) ::
    ("resourceKind", .string reference.resourceKind.string) ::
    ("resourceId", .string reference.resourceID) ::
    ("workspaceId", .string reference.workspaceID) ::
    (omitEmpty "environmentId" (idText reference.environmentID) ++
      omitEmpty "providerConnectionId" (idText reference.providerConnectionID))

def decisionToWire (reference : DecisionRef) : List (String × Scalar) :=
  [("policyVersion", .string reference.policyVersion),
    ("inputDigest", .string reference.inputDigest),
    ("effect", .string (effectString reference.effect)),
    ("reason", .string (reasonString reference.reason))]

def operationToWire (reference : OperationRef) : List (String × Scalar) :=
  ("id", .string reference.id) :: ("workspaceId", .string reference.workspaceID) ::
    ("resourceId", .string reference.resourceID) ::
    (omitEmpty "environmentId" (idText reference.environmentID) ++
      (omitEmpty "providerConnectionId" (idText reference.providerConnectionID) ++
        ("generation", .number reference.generation) ::
        ("resourceVersion", .string reference.resourceVersion) ::
        ("phase", .string reference.phase.string) ::
        (omitEmpty "reason" reference.reason ++ [("updatedAt", .string reference.updatedAt)])))

def attemptToWire (reference : AttemptRef) : List (String × Scalar) :=
  [("id", .string reference.id), ("ordinal", .number reference.ordinal)]

def elevationToWire (reference : ElevationRef) : List (String × Scalar) :=
  ("grantId", .string reference.grantID) ::
    ("administratorId", .string reference.administratorID) ::
    ("action", .string reference.action.string) ::
    ("targetKind", .string reference.targetKind.string) ::
    (omitEmpty "workspaceId" (idText reference.workspaceID) ++
      (omitEmpty "objectId" (idText reference.objectID) ++
        (omitEmpty "resourceId" (idText reference.resourceID) ++
          (omitEmpty "environmentId" (idText reference.environmentID) ++
            (omitEmpty "providerConnectionId" (idText reference.providerConnectionID) ++
              ("reason", .string reference.reason) ::
              (omitEmpty "caseReference" reference.caseReference ++
                [("issuedAt", .string reference.issuedAt),
                  ("expiresAt", .string reference.expiresAt),
                  ("state", .string reference.state.string),
                  ("recordedAt", .string reference.recordedAt)]))))))

/-- A member of an event: a scalar, or an object of scalars. -/
inductive Field
  | scalar (value : Scalar)
  | record (members : List (String × Scalar))
  deriving DecidableEq, Repr

def Field.render : Field → List Char
  | scalar value => value.render
  | record members => object Scalar.render members

def textField (name value : String) : String × Field := (name, .scalar (.string value))

/-- A member that is left out when the reference is absent. -/
def omitAbsent {α : Type} (name : String) (toWire : α → List (String × Scalar))
    (reference : Option α) : List (String × Field) :=
  reference.toList.map fun reference => (name, .record (toWire reference))

def eventToWire (event : Event) : List (String × Field) :=
  textField "contractVersion" contractVersion :: textField "id" event.id ::
    ("stream", .record (streamToWire event.stream)) ::
    ("sequence", .scalar (.number event.sequence)) ::
    textField "recordedAt" event.recordedAt ::
    textField "clockState" event.clockState.string ::
    textField "kind" event.kind.string ::
    textField "source" event.source.string ::
    ("actor", .record (actorToWire event.actor)) ::
    textField "authenticationMethod" event.authenticationMethod.string ::
    textField "action" event.action.string ::
    (omitAbsent "request" requestToWire event.request ++
      (omitAbsent "target" targetToWire event.target ++
        (omitAbsent "decision" decisionToWire event.decision ++
          (omitAbsent "operation" operationToWire event.operation ++
            (omitAbsent "attempt" attemptToWire event.attempt ++
              (omitAbsent "elevation" elevationToWire event.elevation ++
                [textField "outcome" event.outcome.string]))))))

def encodeEvent (event : Event) : List UInt8 :=
  utf8 (String.ofList (object Field.render (eventToWire event)))

def validateEvent (event : Event) : Except Failure Unit :=
  match validateEventFields event with
  | .error failure => .error failure
  | .ok () =>
    if maxCanonicalEventBytes < (encodeEvent event).length then invalidEvent .canonicalTooLarge
    else .ok ()

def marshalCanonicalEvent (event : Event) : Except Failure (List UInt8) :=
  match validateEventFields event with
  | .error failure => .error failure
  | .ok () =>
    if maxCanonicalEventBytes < (encodeEvent event).length then
      .error [.sentinel .canonicalTooLarge]
    else .ok (encodeEvent event)

end Veer.Audit
