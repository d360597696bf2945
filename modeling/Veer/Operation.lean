import Veer.AuditEvent
import Veer.Calendar
import Veer.JsonWidth
import Veer.StepMachine

/-!
# Operations

The standalone representation of an accepted asynchronous operation, its checks and its canonical
text. Phases, cost states and confidences are inductive types, so `validPhase` and `validConfidence`
hold by typing, and a text of the model is valid UTF-8.
-/
namespace Veer.Operations
open Reconcile (ID validID utf8)
open JsonText (Scalar object)
open StepMachine (ensure ensure_ok bind_ok)
open Audit (Phase Field textField omitEmpty opaqueVersionPattern operationReasonPattern)

/-- The sentinel errors of an operation and of the cost estimate in it. -/
inductive Sentinel
  | invalidOperation | invalidOperationID | invalidWorkspaceID | invalidResourceID
  | invalidProviderBinding | invalidGeneration | invalidResourceVersion | invalidReason
  | invalidMessage | invalidTimestamp | canonicalTooLarge
  | invalidCostEstimate | invalidCostState | invalidDecimal | invalidObservationName
  | invalidObservationSource | invalidObservationTimestamp | invalidObservationReason
  deriving DecidableEq, Repr

abbrev Failure := List Sentinel

def maxCanonicalBytes : Nat := 4096
def maxMessageRunes : Nat := 512
def maxDecimalLength : Nat := 64

/-! ## Cost estimates -/

inductive CostState
  | known | unknown
  deriving DecidableEq, Repr

def CostState.string : CostState → String
  | known => "Known"
  | unknown => "Unknown"

inductive Confidence
  | low | medium | high | unknown
  deriving DecidableEq, Repr

def Confidence.string : Confidence → String
  | low => "Low"
  | medium => "Medium"
  | high => "High"
  | unknown => "Unknown"

structure CostEstimate where
  state : CostState
  amount : Option String
  currency : String
  region : String
  source : String
  observedAt : String
  confidence : Confidence
  reason : String
  deriving DecidableEq, Repr

/-- One character of the first class and at most `maximum` of the second. -/
def startsThen (first rest : Char → Bool) (maximum : Nat) (value : String) : Bool :=
  match value.toList with
  | [] => false
  | c :: cs => first c && decide (cs.length ≤ maximum) && cs.all rest

def lowerDigit (c : Char) : Bool := c.isLower || c.isDigit

def nameRune (c : Char) : Bool := lowerDigit c || c == '.' || c == '-'

/-- `^[a-z][a-z0-9.-]{0,127}$`. -/
def observationPattern : String → Bool := startsThen Char.isLower nameRune 127

/-- `^[a-z][a-z0-9.-]{0,63}$`. -/
def sourcePattern : String → Bool := startsThen Char.isLower nameRune 63

/-- `^[a-z0-9][a-z0-9-]{0,62}$`. -/
def regionPattern : String → Bool := startsThen lowerDigit (fun c => lowerDigit c || c == '-') 62

/-- `^[A-Z]{3}$`. -/
def currencyPattern (value : String) : Bool :=
  value.toList.length == 3 && value.toList.all Char.isUpper

/-- `^(0|[1-9][0-9]*)(\.[0-9]*[1-9])?$`. -/
def canonicalDecimalPattern (value : String) : Bool :=
  let whole := value.toList.takeWhile Char.isDigit
  (whole == ['0'] || (whole != [] && whole.head? != some '0')) &&
    match value.toList.dropWhile Char.isDigit with
    | [] => true
    | c :: fraction =>
      c == '.' && fraction != [] && fraction.all Char.isDigit && fraction.getLast? != some '0'

def validateCanonicalDecimal (value : String) : Except Failure Unit :=
  if (utf8 value).length = 0 ∨ maxDecimalLength < (utf8 value).length ∨
      !canonicalDecimalPattern value then
    .error [.invalidDecimal]
  else .ok ()

/-- `parseTimestamp`, as milliseconds since the start of year 0. -/
def parseTimestamp (value : String) : Option Nat := Calendar.parseTimestamp value.toList

def validateObservationMetadata (name source observedAt reason : String) : Except Failure Unit :=
  if !observationPattern name then .error [.invalidObservationName]
  else if !sourcePattern source then .error [.invalidObservationSource]
  else if (parseTimestamp observedAt).isNone then .error [.invalidObservationTimestamp]
  else if !operationReasonPattern reason then .error [.invalidObservationReason]
  else .ok ()

/-- A failure under another one, which comes first in the chain. -/
def under (outer : Sentinel) : Except Failure Unit → Except Failure Unit
  | .error failure => .error (outer :: failure)
  | .ok () => .ok ()

def validateCostEstimate (estimate : CostEstimate) : Except Failure Unit := do
  if !currencyPattern estimate.currency || !regionPattern estimate.region then
    .error [.invalidCostEstimate]
  under .invalidCostEstimate
    (validateObservationMetadata "cost" estimate.source estimate.observedAt estimate.reason)
  match estimate.state, estimate.amount with
  | .known, some amount =>
    if estimate.confidence = .unknown then .error [.invalidCostEstimate, .invalidCostState]
    else under .invalidCostEstimate (validateCanonicalDecimal amount)
  | .unknown, none =>
    if estimate.confidence ≠ .unknown then .error [.invalidCostEstimate, .invalidCostState]
    else .ok ()
  | _, _ => .error [.invalidCostEstimate, .invalidCostState]

/-! ## Operations -/

structure Operation where
  id : ID
  workspaceID : ID
  resourceID : ID
  environmentID : Option ID
  providerConnectionID : Option ID
  generation : Int
  resourceVersion : String
  phase : Phase
  reason : String
  message : String
  costEstimate : Option CostEstimate
  createdAt : String
  updatedAt : String
  deriving DecidableEq, Repr

/-- A member that is left out when its pointer is nil. -/
def optionalText (name : String) (value : Option String) : List (String × Scalar) :=
  value.toList.map fun value => (name, .string value)

def costToWire (estimate : CostEstimate) : List (String × Scalar) :=
  ("state", .string estimate.state.string) :: (optionalText "amount" estimate.amount ++
    [("currency", .string estimate.currency), ("region", .string estimate.region),
      ("source", .string estimate.source), ("observedAt", .string estimate.observedAt),
      ("confidence", .string estimate.confidence.string), ("reason", .string estimate.reason)])

def scalarFields (members : List (String × Scalar)) : List (String × Field) :=
  members.map fun member => (member.1, .scalar member.2)

def operationToWire (value : Operation) : List (String × Field) :=
  scalarFields (("id", .string value.id) :: ("workspaceId", .string value.workspaceID) ::
    ("resourceId", .string value.resourceID) ::
    (optionalText "environmentId" value.environmentID ++
      (optionalText "providerConnectionId" value.providerConnectionID ++
        ("generation", .number value.generation) ::
        ("resourceVersion", .string value.resourceVersion) ::
        ("phase", .string value.phase.string) ::
        (omitEmpty "reason" value.reason ++ omitEmpty "message" value.message)))) ++
    (value.costEstimate.toList.map (fun estimate => ("costEstimate", .record (costToWire estimate))) ++
      [textField "createdAt" value.createdAt, textField "updatedAt" value.updatedAt])

def encodeCanonical (value : Operation) : List UInt8 :=
  utf8 (String.ofList (object Field.render (operationToWire value)))

/-- Both identifiers of a binding are present and valid, or both are absent. -/
def validateBinding (environmentID connectionID : Option ID) : Except Failure Unit :=
  match environmentID, connectionID with
  | none, none => .ok ()
  | some environment, some connection =>
    if !validID environment || !validID connection then .error [.invalidProviderBinding] else .ok ()
  | _, _ => .error [.invalidProviderBinding]

def validateCost : Option CostEstimate → Except Failure Unit
  | none => .ok ()
  | some estimate => under .invalidOperation (validateCostEstimate estimate)

/-- An operation is not updated before it is created. -/
def validateTimes (createdAt updatedAt : String) : Except Failure Unit :=
  match parseTimestamp createdAt, parseTimestamp updatedAt with
  | some created, some updated =>
    ensure (decide (created ≤ updated)) [.invalidOperation, .invalidTimestamp]
  | _, _ => .error [.invalidOperation, .invalidTimestamp]

def validate (value : Operation) : Except Failure Unit := do
  ensure (validID value.id) [.invalidOperation, .invalidOperationID]
  ensure (validID value.workspaceID) [.invalidOperation, .invalidWorkspaceID]
  ensure (validID value.resourceID) [.invalidOperation, .invalidResourceID]
  under .invalidOperation (validateBinding value.environmentID value.providerConnectionID)
  ensure (decide (1 ≤ value.generation)) [.invalidOperation, .invalidGeneration]
  ensure (opaqueVersionPattern value.resourceVersion) [.invalidOperation, .invalidResourceVersion]
  ensure (value.reason == "" || operationReasonPattern value.reason)
    [.invalidOperation, .invalidReason]
  ensure (decide ((utf8 value.message).length ≤ maxMessageRunes * 4) &&
    decide (value.message.toList.length ≤ maxMessageRunes)) [.invalidOperation, .invalidMessage]
  validateCost value.costEstimate
  validateTimes value.createdAt value.updatedAt
  ensure (decide ((encodeCanonical value).length ≤ maxCanonicalBytes))
    [.invalidOperation, .canonicalTooLarge]

/-! ## What the checks give -/

theorem under_ok {outer : Sentinel} {result : Except Failure Unit} {value : Unit} :
    under outer result = .ok value ↔ result = .ok value := by
  cases result with
  | error | ok => simp [under]

theorem validateBinding_ok {environmentID connectionID : Option ID} :
    validateBinding environmentID connectionID = .ok () ↔
      environmentID.isNone = connectionID.isNone ∧ environmentID.all validID = true ∧
        connectionID.all validID = true := by
  cases environmentID with
  | none =>
    cases connectionID with
    | none | some => simp [validateBinding]
  | some environment =>
    cases connectionID with
    | none => simp [validateBinding]
    | some connection =>
      cases henvironment : validID environment <;> cases hconnection : validID connection <;>
        simp [validateBinding, henvironment, hconnection]

theorem encodeCanonical_length (value : Operation) : (encodeCanonical value).length =
    JsonText.width (object Field.render (operationToWire value)) := by
  unfold encodeCanonical utf8
  rw [String.toList_ofList, JsonText.width_flatMap_encode]

/-- What an audit reference to a valid operation relies on. -/
structure Valid (value : Operation) : Prop where
  id : validID value.id = true
  workspaceID : validID value.workspaceID = true
  resourceID : validID value.resourceID = true
  binding : value.environmentID.isNone = value.providerConnectionID.isNone
  environmentID : value.environmentID.all validID = true
  providerConnectionID : value.providerConnectionID.all validID = true
  generation : 1 ≤ value.generation
  resourceVersion : opaqueVersionPattern value.resourceVersion = true
  reason : (value.reason == "" || operationReasonPattern value.reason) = true
  updatedAt : (parseTimestamp value.updatedAt).isSome = true
  size : (encodeCanonical value).length ≤ maxCanonicalBytes

theorem validate_ok {value : Operation} (h : validate value = .ok ()) : Valid value := by
  unfold validate at h
  simp only [bind_ok, Unique.exists_iff, PUnit.default_eq_unit, ensure_ok, under_ok,
    validateBinding_ok, decide_eq_true_eq] at h
  obtain ⟨hid, hworkspace, hresource, ⟨hbinding, henvironment, hconnection⟩, hgeneration, hversion,
    hreason, -, -, htimes, hsize⟩ := h
  have hupdated : (parseTimestamp value.updatedAt).isSome = true := by
    unfold validateTimes at htimes
    split at htimes
    next updated _ hparse => rw [hparse]; rfl
    next => cases htimes
  exact ⟨hid, hworkspace, hresource, hbinding, henvironment, hconnection, hgeneration, hversion,
    hreason, hupdated, hsize⟩

theorem Valid.environmentID_ne_none {value : Operation} (h : Valid value) {connection : ID}
    (hconnection : value.providerConnectionID = some connection) : value.environmentID ≠ none := by
  intro hnone
  have hbinding := h.binding
  rw [hnone, hconnection] at hbinding
  cases hbinding

end Veer.Operations
