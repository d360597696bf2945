import Veer.ResourceEnvelope

/-!
# The canonical text of a resource

Spec and status are kept as canonical texts. Their types are known by a typed codec only, which need
not be exact: decoding a canonical text and encoding the value again may give another text, and two
rounds decide whether that settles. A raw member is the tree that its text reads as; it is part of a
text within the ceiling, so its own size needs no check.
-/
namespace Veer.Envelope

open JsonTree
open StepMachine (ensure ensure_ok bind_ok)
open Reconcile (ID validID)

/-- What `encoding/json` and the type of a value make of it. -/
class TypedJson (Text : outParam Type) (Value : Type) where
  /-- why the type has no place at a typed boundary -/
  contract : Option String
  encode : Value → Except String Text
  decode : Text → Except String Value

class GenerationObservations (Status : Type) where
  observedGenerations : Status → List Int

structure Metadata where
  id : ID
  workspaceID : ID
  displayName : String
  parent : Option ID
  labels : Labels
  generation : Int
  resourceVersion : String
  createdAt : Int
  updatedAt : Int
  deriving DecidableEq

structure Resource (Text : Type) where
  apiVersion : String
  kind : String
  metadata : Metadata
  spec : Text
  status : Text

def validateTypedJSONContractFor {Text : Type} (Value : Type) [TypedJson Text Value]
    (field : String) : Except Failure Unit :=
  match TypedJson.contract Value with
  | some text => .error (.within field (.codec text))
  | none => .ok ()

theorem validateTypedJSONContractFor_ok {Text Value : Type} [TypedJson Text Value] {field : String}
    {result : Unit} :
    validateTypedJSONContractFor Value field = .ok result ↔ TypedJson.contract Value = none := by
  unfold validateTypedJSONContractFor
  cases TypedJson.contract Value <;> simp

variable {Text : Type} [JsonLibrary Text]

/-! ## Canonical texts -/

/-- The tree of a text that passes the scan. -/
def validateJSON (text : Text) : Except Failure Json :=
  match JsonLibrary.parse text with
  | none => .error (.json none)
  | some tree =>
    match tree.scan limits 0 0 with
    | .error cause => .error (.json (some cause))
    | .ok _ => .ok tree

/-- `canonicalizeRawObject` from the scan on. -/
def canonicalizeTree (tree : Json) (field : String) : Except Failure Text :=
  match tree.scan limits 0 0 with
  | .error cause => .error (.within field (.json (some cause)))
  | .ok _ =>
    match tree with
    | .object _ =>
      match tree.normalize with
      | none =>
        .error (.within field (.message "numbers must be canonical signed 64-bit integers"))
      | some normal => .ok (JsonLibrary.marshal normal)
    | _ => .error (.message (field ++ " must be a JSON object"))

def canonicalizeRawObject (text : Text) (field : String) : Except Failure Text :=
  if maxCanonicalBytes < JsonLibrary.size text then .error (.within field (.tooLarge none))
  else
    match JsonLibrary.parse text with
    | none => .error (.within field (.json none))
    | some tree => canonicalizeTree tree field

section Typed

variable (Value : Type) [TypedJson Text Value] [DecidableEq Text]

/-- The rounds of `decodeObject`. -/
def converge (field : String) : Nat → Text → Except Failure (Text × Value)
  | 0, _ => .error (.message (field ++ " typed JSON normalization did not converge"))
  | rounds + 1, canonical =>
    match (TypedJson.decode canonical : Except String Value) with
    | .error text => .error (.within field (.codec text))
    | .ok value =>
      match TypedJson.encode value with
      | .error text => .error (.within field (.codec text))
      | .ok encoded =>
        match canonicalizeRawObject encoded field with
        | .error failure => .error failure
        | .ok normalized =>
          if canonical = normalized then .ok (canonical, value)
          else converge field rounds normalized

/-- `decodeObject` of a text that reads as this tree. -/
def decodeTree (tree : Json) (field : String) : Except Failure (Text × Value) := do
  validateTypedJSONContractFor Value field
  let canonical ← canonicalizeTree tree field
  converge Value field 2 canonical

def decodeObject (text : Text) (field : String) : Except Failure (Text × Value) := do
  validateTypedJSONContractFor Value field
  let canonical ← canonicalizeRawObject text field
  converge Value field 2 canonical

def canonicalizeObject (value : Value) (field : String) : Except Failure (Text × Value) := do
  validateTypedJSONContractFor Value field
  match TypedJson.encode value with
  | .error text => .error (.within field (.codec text))
  | .ok encoded => decodeObject Value encoded field

end Typed

/-! ## The envelope on the wire -/

structure WireMetadata where
  id : String
  workspaceID : String
  displayName : String
  parent : Option String
  labels : List (String × String)
  generation : Int
  resourceVersion : String
  createdAt : String
  updatedAt : String

/-- `none` is a raw message of length zero. -/
structure WireResource where
  apiVersion : String
  kind : String
  metadata : WireMetadata
  spec : Option Json
  status : Option Json

/-- An absent parent and an empty map of labels are left out. -/
def WireMetadata.tree (wire : WireMetadata) : Json :=
  .object (
    [("id", .string wire.id), ("workspaceId", .string wire.workspaceID),
      ("displayName", .string wire.displayName)] ++
    (match wire.parent with
      | some parent => [("parent", .string parent)]
      | none => []) ++
    (if wire.labels.isEmpty then []
      else [("labels", .object (wire.labels.map fun (key, value) => (key, .string value)))]) ++
    [("generation", .number (Numeral.ofInt wire.generation)),
      ("resourceVersion", .string wire.resourceVersion), ("createdAt", .string wire.createdAt),
      ("updatedAt", .string wire.updatedAt)])

/-- The members of a structure; spec and status are there when the encoder is called. -/
def WireResource.tree (wire : WireResource) : Json :=
  .object [("apiVersion", .string wire.apiVersion), ("kind", .string wire.kind),
    ("metadata", wire.metadata.tree), ("spec", wire.spec.getD .null),
    ("status", wire.status.getD .null)]

/-- A missing member and `null` leave the zero value. -/
def decodeString : Option Json → Option String
  | none | some .null => some ""
  | some (.string value) => some value
  | _ => none

def decodeInt64 : Option Json → Option Int
  | none | some .null => some 0
  | some (.number literal) => literal.int64?
  | _ => none

/-- `nonNullOptional`: a member that is there must not be `null`. -/
def decodeParent : Option Json → Option (Option String)
  | none => some none
  | some (.string value) => some (some value)
  | _ => none

def decodeEntries : List (String × Json) → Option (List (String × String))
  | [] => some []
  | (key, value) :: members =>
    match decodeString (some value), decodeEntries members with
    | some text, some entries => some ((key, text) :: entries)
    | _, _ => none

def decodeLabels : Option Json → Option (List (String × String))
  | none => some []
  | some (.object members) => decodeEntries members
  | _ => none

def metadataNames : List String :=
  ["id", "workspaceId", "displayName", "parent", "labels", "generation", "resourceVersion",
    "createdAt", "updatedAt"]

def resourceNames : List String := ["apiVersion", "kind", "metadata", "spec", "status"]

def decodeMetadata : Option Json → Option WireMetadata
  | none | some .null => some ⟨"", "", "", none, [], 0, "", "", ""⟩
  | some (.object members) =>
    if !members.all fun member => metadataNames.contains member.1 then none
    else do
      let id ← decodeString (members.lookup "id")
      let workspaceID ← decodeString (members.lookup "workspaceId")
      let displayName ← decodeString (members.lookup "displayName")
      let parent ← decodeParent (members.lookup "parent")
      let labels ← decodeLabels (members.lookup "labels")
      let generation ← decodeInt64 (members.lookup "generation")
      let resourceVersion ← decodeString (members.lookup "resourceVersion")
      let createdAt ← decodeString (members.lookup "createdAt")
      let updatedAt ← decodeString (members.lookup "updatedAt")
      some ⟨id, workspaceID, displayName, parent, labels, generation, resourceVersion, createdAt,
        updatedAt⟩
  | _ => none

def decodeMembers (members : List (String × Json)) : Option WireResource := do
  let apiVersion ← decodeString (members.lookup "apiVersion")
  let kind ← decodeString (members.lookup "kind")
  let metadata ← decodeMetadata (members.lookup "metadata")
  some ⟨apiVersion, kind, metadata, members.lookup "spec", members.lookup "status"⟩

def decodeWireResource (tree : Json) : Except Failure WireResource :=
  let failure : Failure :=
    .codec "decode resource envelope with exact JSON names or unknown fields"
  match tree with
  | .null => .ok ⟨"", "", ⟨"", "", "", none, [], 0, "", "", ""⟩, none, none⟩
  | .object members =>
    if !members.all fun member => resourceNames.contains member.1 then .error failure
    else
      match decodeMembers members with
      | none => .error failure
      | some wire => .ok wire
  | _ => .error failure

theorem decodeEntries_strings (entries : List (String × String)) :
    decodeEntries (entries.map fun (key, value) => (key, .string value)) = some entries := by
  induction entries with
  | nil => rfl
  | cons entry entries ih => simp [decodeEntries, decodeString, ih]

theorem decodeMetadata_tree (wire : WireMetadata) (hgeneration : 1 ≤ wire.generation)
    (hmax : wire.generation ≤ maxInt64) : decodeMetadata (some wire.tree) = some wire := by
  have hnumber : (Numeral.ofInt wire.generation).int64? = some wire.generation := by
    unfold maxInt64 at hmax
    dsimp only [Numeral.ofInt, Numeral.int64?]
    rw [Numeral.value_ofInt, if_pos (by omega)]
  obtain ⟨id, workspaceID, displayName, parent, labels, generation, version, created, updated⟩ :=
    wire
  have hentries := decodeEntries_strings labels
  cases parent <;> cases labels <;>
    simp_all [WireMetadata.tree, decodeMetadata, metadataNames, List.lookup, decodeString,
      decodeParent, decodeLabels, decodeInt64]

theorem decodeWireResource_tree (wire : WireResource) {spec status : Json}
    (hspec : wire.spec = some spec) (hstatus : wire.status = some status)
    (hgeneration : 1 ≤ wire.metadata.generation) (hmax : wire.metadata.generation ≤ maxInt64) :
    decodeWireResource wire.tree = .ok wire := by
  have hmetadata := decodeMetadata_tree wire.metadata hgeneration hmax
  obtain ⟨apiVersion, kind, metadata, _, _⟩ := wire
  subst hspec hstatus
  simp [WireResource.tree, decodeWireResource, resourceNames, decodeMembers, List.lookup,
    decodeString, hmetadata]

/-! ## Marshalling -/

def wireOf (resource : Resource Text) (spec status : Json) : WireResource where
  apiVersion := resource.apiVersion
  kind := resource.kind
  metadata :=
    { id := resource.metadata.id
      workspaceID := resource.metadata.workspaceID
      displayName := resource.metadata.displayName
      parent := resource.metadata.parent
      labels := resource.metadata.labels.entries
      generation := resource.metadata.generation
      resourceVersion := resource.metadata.resourceVersion
      createdAt := formatTimestamp resource.metadata.createdAt
      updatedAt := formatTimestamp resource.metadata.updatedAt }
  spec := some spec
  status := some status

/-- The encoder reads a raw message before it copies it. -/
def rawTree (text : Text) : Except Failure Json :=
  match JsonLibrary.parse text with
  | none => .error (.within "marshal canonical resource" (.json none))
  | some tree => .ok tree

/-- The checks of `marshalCanonical`, in its order. -/
def validateEnvelope (resource : Resource Text) : Except Failure Unit := do
  let _ ← validateAPIVersion (some resource.apiVersion)
  let _ ← validateKind (some resource.kind)
  let _ ← validateID (some resource.metadata.id) "metadata.id"
  let _ ← validateID (some resource.metadata.workspaceID) "metadata.workspaceId"
  let _ ← validateDisplayName (some resource.metadata.displayName)
  let _ ← validateParent (resource.metadata.parent.map some)
  let _ ← validateLabels resource.metadata.labels.toMap
  ensure (decide (1 ≤ resource.metadata.generation))
    (.message "metadata.generation must be at least one")
  let _ ← validateResourceVersion (some resource.metadata.resourceVersion)
  ensure (decide (resource.metadata.createdAt ≤ resource.metadata.updatedAt))
    (.message "resource timestamps are invalid")
  ensure (JsonLibrary.size resource.spec != 0 && JsonLibrary.size resource.status != 0)
    (.message "resource spec and status are required")

def marshalEnvelope (resource : Resource Text) : Except Failure Text := do
  validateEnvelope resource
  let spec ← rawTree resource.spec
  let status ← rawTree resource.status
  let encoded : Text := JsonLibrary.marshal (wireOf resource spec status).tree
  let _ ← wrap "canonical resource" (validateJSON encoded)
  .ok encoded

def marshalCanonical (resource : Resource Text) : Except Failure Text := do
  let encoded ← marshalEnvelope resource
  ensure (decide (JsonLibrary.size encoded ≤ maxCanonicalBytes))
    (.tooLarge (some (JsonLibrary.size encoded)))
  .ok encoded

def validateSize (resource : Resource Text) : Except Failure Unit := do
  let encoded ← marshalEnvelope resource
  ensure (decide (JsonLibrary.size encoded ≤ maxCanonicalBytes))
    (.tooLarge (some (JsonLibrary.size encoded)))

/-- The first observation that is negative or ahead of the generation. -/
def validateObservations {Status : Type} [GenerationObservations Status] (status : Status)
    (generation : Int) : Except Failure Unit :=
  let observations := GenerationObservations.observedGenerations status
  match observations.find? fun observed =>
    decide (observed < 0) || decide (generation < observed) with
  | none => .ok ()
  | some observed =>
    .error (.within
      ("status observed generation at index " ++ toString (observations.idxOf observed))
      (.message (if observed < 0 then "cannot be negative" else "exceeds resource generation")))

/-! ## Unmarshalling -/

section Unmarshal

variable (Spec Status : Type) [TypedJson Text Spec] [TypedJson Text Status]
  [GenerationObservations Status] [DecidableEq Text]

def unmarshalWire (wire : WireResource) (rawSpec rawStatus : Json) :
    Except Failure (Resource Text) := do
  let id ← validateID (some wire.metadata.id) "metadata.id"
  let workspaceID ← validateID (some wire.metadata.workspaceID) "metadata.workspaceId"
  let apiVersion ← validateAPIVersion (some wire.apiVersion)
  let kind ← validateKind (some wire.kind)
  let displayName ← validateDisplayName (some wire.metadata.displayName)
  let parent ← validateParent (wire.metadata.parent.map some)
  let labels ← validateLabels (wire.metadata.labels.map fun (key, value) => (some key, some value))
  ensure (decide (1 ≤ wire.metadata.generation))
    (.message "metadata.generation must be at least one")
  let version ← validateResourceVersion (some wire.metadata.resourceVersion)
  let createdAt ← parseTimestamp wire.metadata.createdAt "metadata.createdAt"
  let updatedAt ← parseTimestamp wire.metadata.updatedAt "metadata.updatedAt"
  ensure (decide (createdAt ≤ updatedAt))
    (.message "metadata.updatedAt cannot precede metadata.createdAt")
  let (spec, _) ← decodeTree Spec rawSpec "spec"
  let (status, statusValue) ← decodeTree Status rawStatus "status"
  validateObservations statusValue wire.metadata.generation
  let resource : Resource Text :=
    { apiVersion := apiVersion
      kind := kind
      metadata :=
        { id := id
          workspaceID := workspaceID
          displayName := displayName
          parent := parent
          labels := labels
          generation := wire.metadata.generation
          resourceVersion := version
          createdAt := createdAt
          updatedAt := updatedAt }
      spec := spec
      status := status }
  let _ ← marshalCanonical resource
  .ok resource

def unmarshalCanonical (data : Text) : Except Failure (Resource Text) := do
  ensure (JsonLibrary.size data != 0) (.message "canonical resource is empty")
  ensure (decide (JsonLibrary.size data ≤ maxCanonicalBytes))
    (.tooLarge (some (JsonLibrary.size data)))
  let tree ← validateJSON data
  let wire ← decodeWireResource tree
  match wire.spec, wire.status with
  | some spec, some status => unmarshalWire Spec Status wire spec status
  | _, _ => .error (.message "resource spec and status are required")

end Unmarshal

/-! ## What is marshalled is accepted again -/

/-- A text that the typed codec of its value leaves as it is. -/
structure Settled (Value : Type) [TypedJson Text Value] (field : String) (text : Text)
    (value : Value) : Prop where
  contract : TypedJson.contract Value = none
  tree : ∃ members, (Json.object members).Normal ∧ text = JsonLibrary.marshal (Json.object members)
  decode : TypedJson.decode text = .ok value
  encode : ∃ encoded : Text, TypedJson.encode value = .ok encoded ∧
    canonicalizeRawObject encoded field = .ok text

theorem canonicalizeTree_ok {tree : Json} {field : String} {text : Text}
    (h : canonicalizeTree tree field = .ok text) :
    ∃ members, (Json.object members).Normal ∧
      text = JsonLibrary.marshal (Json.object members) := by
  unfold canonicalizeTree at h
  split at h
  · cases h
  split at h
  · rename_i given
    split at h
    · cases h
    rename_i normal hnormal
    have hnormalized := Json.normal_normalize _ hnormal
    rw [Json.normalize, Option.map_eq_some_iff] at hnormal
    obtain ⟨members, -, rfl⟩ := hnormal
    exact ⟨_, hnormalized, (Except.ok.inj h).symm⟩
  · cases h

theorem canonicalizeRawObject_ok {given text : Text} {field : String}
    (h : canonicalizeRawObject given field = .ok text) :
    ∃ members, (Json.object members).Normal ∧
      text = JsonLibrary.marshal (Json.object members) := by
  unfold canonicalizeRawObject at h
  split_ifs at h
  split at h
  · cases h
  · exact canonicalizeTree_ok h

theorem canonicalizeTree_normal {members : List (String × Json)} {count : Nat}
    (hscan : (Json.object members).scan limits 0 0 = .ok count)
    (hnormal : (Json.object members).Normal) (field : String) :
    canonicalizeTree (Json.object members) field =
      .ok (JsonLibrary.marshal (Json.object members) : Text) := by
  unfold canonicalizeTree
  rw [hscan]
  rw [show (Json.object members).normalize = _ from hnormal]

section Settled

variable {Value : Type} [TypedJson Text Value] {field : String} [DecidableEq Text]
variable {value : Value}

theorem converge_settled {rounds : Nat} {start canonical : Text}
    (hcontract : TypedJson.contract Value = none)
    (hstart : ∃ members, (Json.object members).Normal ∧
      start = JsonLibrary.marshal (Json.object members))
    (h : converge Value field rounds start = .ok (canonical, value)) :
    Settled Value field canonical value := by
  induction rounds generalizing start with
  | zero => cases h
  | succ rounds ih =>
    unfold converge at h
    split at h
    · cases h
    rename_i decoded hdecode
    split at h
    · cases h
    rename_i encoded hencode
    split at h
    · cases h
    rename_i normalized hnormalized
    split_ifs at h with hsame
    · cases h
      exact ⟨hcontract, hstart, hdecode, encoded, hencode, hsame ▸ hnormalized⟩
    · exact ih (canonicalizeRawObject_ok hnormalized) h

theorem decodeObject_settled {text canonical : Text}
    (h : decodeObject Value text field = .ok (canonical, value)) :
    Settled Value field canonical value := by
  obtain ⟨_, hcontract, h⟩ := bind_ok.mp h
  obtain ⟨start, hstart, h⟩ := bind_ok.mp h
  exact converge_settled (validateTypedJSONContractFor_ok.mp hcontract)
    (canonicalizeRawObject_ok hstart) h

theorem canonicalizeObject_settled {given : Value} {canonical : Text}
    (h : canonicalizeObject Value given field = .ok (canonical, value)) :
    Settled Value field canonical value := by
  obtain ⟨_, -, h⟩ := bind_ok.mp h
  split at h
  · cases h
  · exact decodeObject_settled h

theorem Settled.converge {text : Text} (h : Settled Value field text value) (rounds : Nat) :
    converge Value field (rounds + 1) text = .ok (text, value) := by
  obtain ⟨encoded, hencode, hcanonical⟩ := h.encode
  unfold Envelope.converge
  rw [h.decode]
  dsimp only
  rw [hencode]
  dsimp only
  rw [hcanonical]
  exact if_pos rfl

/-- A settled text is accepted wherever its tree passes the scan. -/
theorem Settled.decodeTree {text : Text} (h : Settled Value field text value) {tree : Json}
    (hparse : JsonLibrary.parse text = some tree) {count : Nat}
    (hscan : tree.scan limits 0 0 = .ok count) : decodeTree Value tree field = .ok (text, value) := by
  obtain ⟨members, hnormal, rfl⟩ := h.tree
  rw [JsonLibrary.parse_marshal, Option.some.injEq] at hparse
  subst hparse
  refine bind_ok.mpr ⟨(), validateTypedJSONContractFor_ok.mpr h.contract, ?_⟩
  exact bind_ok.mpr ⟨_, canonicalizeTree_normal hscan hnormal field, h.converge 1⟩

end Settled

theorem rawTree_ok {text : Text} {tree : Json} :
    rawTree text = .ok tree ↔ JsonLibrary.parse text = some tree := by
  unfold rawTree
  cases JsonLibrary.parse text <;> simp

theorem validateJSON_ok {text : Text} {tree : Json} :
    validateJSON text = .ok tree ↔
      JsonLibrary.parse text = some tree ∧ ∃ count, tree.scan limits 0 0 = .ok count := by
  unfold validateJSON
  cases hparse : JsonLibrary.parse text with
  | none => simp
  | some given =>
    dsimp only
    cases hscan : given.scan limits 0 0 with
    | error =>
      simp only [reduceCtorEq, Option.some.injEq, false_iff, not_and]
      rintro rfl ⟨count, hcount⟩
      rw [hscan] at hcount
      cases hcount
    | ok count =>
      simp only [Except.ok.injEq, Option.some.injEq]
      constructor
      · rintro rfl
        exact ⟨rfl, count, hscan⟩
      · exact And.left

theorem WireResource.scan_raw {wire : WireResource} {count : Nat}
    (h : wire.tree.scan limits 0 0 = .ok count) :
    (∃ alone, (wire.spec.getD .null).scan limits 0 0 = .ok alone) ∧
      ∃ alone, (wire.status.getD .null).scan limits 0 0 = .ok alone := by
  have hmember : ∀ name value, (name, value) ∈ [("apiVersion", Json.string wire.apiVersion),
      ("kind", .string wire.kind), ("metadata", wire.metadata.tree),
      ("spec", wire.spec.getD .null), ("status", wire.status.getD .null)] →
      ∃ alone, value.scan limits 0 0 = .ok alone :=
    fun name value hmem => Json.scan_member limits h hmem
  exact ⟨hmember "spec" _ (by simp), hmember "status" _ (by simp)⟩

variable {resource : Resource Text}

theorem marshalCanonical_ok {encoded : Text} :
    marshalCanonical resource = .ok encoded ↔
      validateEnvelope resource = .ok () ∧
        ∃ spec status, JsonLibrary.parse resource.spec = some spec ∧
          JsonLibrary.parse resource.status = some status ∧
          encoded = JsonLibrary.marshal (wireOf resource spec status).tree ∧
          (∃ count, (wireOf resource spec status).tree.scan limits 0 0 = .ok count) ∧
          JsonLibrary.size encoded ≤ maxCanonicalBytes := by
  unfold marshalCanonical marshalEnvelope
  simp only [bind_ok, rawTree_ok, wrap_ok, validateJSON_ok, JsonLibrary.parse_marshal, ensure_ok,
    Except.ok.injEq, Option.some.injEq, decide_eq_true_eq]
  constructor
  · rintro ⟨_, ⟨_, hvalid, spec, hspec, status, hstatus, _, ⟨rfl, hscan⟩, rfl⟩, _, hsize, rfl⟩
    exact ⟨hvalid, spec, status, hspec, hstatus, rfl, hscan, hsize⟩
  · rintro ⟨hvalid, spec, status, hspec, hstatus, rfl, hscan, hsize⟩
    exact ⟨_, ⟨(), hvalid, spec, hspec, status, hstatus, _, ⟨rfl, hscan⟩, rfl⟩, (), hsize, rfl⟩

theorem validateSize_ok {result : Unit} :
    validateSize resource = .ok result ↔ ∃ encoded, marshalCanonical resource = .ok encoded := by
  unfold validateSize marshalCanonical
  simp only [bind_ok, ensure_ok, Except.ok.injEq]
  constructor
  · rintro ⟨encoded, hencoded, hsize⟩
    exact ⟨encoded, encoded, hencoded, (), hsize, rfl⟩
  · rintro ⟨_, encoded, hencoded, -, hsize, -⟩
    exact ⟨encoded, hencoded, hsize⟩

/-- A resource whose texts are settled and whose times have a text. -/
structure Sound (Spec Status : Type) [TypedJson Text Spec] [TypedJson Text Status]
    [GenerationObservations Status] (resource : Resource Text) : Prop where
  marshals : ∃ encoded, marshalCanonical resource = .ok encoded
  spec : ∃ value : Spec, Settled Spec "spec" resource.spec value
  status : ∃ value : Status, Settled Status "status" resource.status value ∧
    validateObservations value resource.metadata.generation = .ok ()
  created : CanonicalTime resource.metadata.createdAt
  updated : CanonicalTime resource.metadata.updatedAt
  generation : resource.metadata.generation ≤ maxInt64

/-- The labels of the wire are checked as the labels of the resource. -/
theorem validateEnvelope_ok (h : validateEnvelope resource = .ok ()) :
    validAPIVersion resource.apiVersion = true ∧ validKind resource.kind = true ∧
      validID resource.metadata.id = true ∧ validID resource.metadata.workspaceID = true ∧
      validDisplayName resource.metadata.displayName = true ∧
      validateParent (resource.metadata.parent.map some) = .ok resource.metadata.parent ∧
      validateLabels resource.metadata.labels.toMap = .ok resource.metadata.labels ∧
      1 ≤ resource.metadata.generation ∧
      validResourceVersion resource.metadata.resourceVersion = true ∧
      resource.metadata.createdAt ≤ resource.metadata.updatedAt := by
  obtain ⟨_, hversion, h⟩ := bind_ok.mp h
  obtain ⟨_, hkind, h⟩ := bind_ok.mp h
  obtain ⟨_, hid, h⟩ := bind_ok.mp h
  obtain ⟨_, hworkspace, h⟩ := bind_ok.mp h
  obtain ⟨_, hname, h⟩ := bind_ok.mp h
  obtain ⟨parent, hparent, h⟩ := bind_ok.mp h
  obtain ⟨labels, hlabels, h⟩ := bind_ok.mp h
  obtain ⟨_, hgeneration, h⟩ := bind_ok.mp h
  obtain ⟨_, hresourceVersion, h⟩ := bind_ok.mp h
  obtain ⟨_, htimes, -⟩ := bind_ok.mp h
  have hadmitted : ∀ {valid : String → Bool} {failure : Failure} {given text : String},
      acceptText valid failure (some given) = .ok text → valid given = true := by
    intro valid failure given text hadm
    obtain ⟨hsame, hvalid⟩ := acceptText_ok.mp hadm
    rwa [Option.some.inj hsame]
  obtain ⟨hsame, hdisplay⟩ := validateDisplayName_ok.mp hname
  rw [Option.some.inj hsame]
  rw [validateParent_some _ hparent] at hparent
  rw [validateLabels_toMap hlabels] at hlabels
  exact ⟨hadmitted hversion, hadmitted hkind, hadmitted hid, hadmitted hworkspace, hdisplay,
    hparent, hlabels, of_decide_eq_true (ensure_ok.mp hgeneration), hadmitted hresourceVersion,
    of_decide_eq_true (ensure_ok.mp htimes)⟩

theorem Sound.unmarshal {Spec Status : Type} [TypedJson Text Spec] [TypedJson Text Status]
    [GenerationObservations Status] [DecidableEq Text] (h : Sound Spec Status resource)
    {encoded : Text} (hmarshal : marshalCanonical resource = .ok encoded) :
    unmarshalCanonical Spec Status encoded = .ok resource := by
  obtain ⟨hvalid, spec, status, hspec, hstatus, hencoded, ⟨count, hscan⟩, hsize⟩ :=
    marshalCanonical_ok.mp hmarshal
  obtain ⟨specValue, hspecSettled⟩ := h.spec
  obtain ⟨statusValue, hstatusSettled, hobservations⟩ := h.status
  obtain ⟨hversion, hkind, hid, hworkspace, hname, hparent, hlabels, hgeneration, hresourceVersion,
    htimes⟩ := validateEnvelope_ok hvalid
  obtain ⟨⟨_, hspecScan⟩, ⟨_, hstatusScan⟩⟩ := WireResource.scan_raw hscan
  have hwire :=
    decodeWireResource_tree (wireOf resource spec status) rfl rfl hgeneration h.generation
  have hpositive : JsonLibrary.size encoded ≠ 0 := by
    rw [hencoded]
    exact (JsonLibrary.size_pos _).ne'
  have hparse : JsonLibrary.parse encoded = some (wireOf resource spec status).tree := by
    rw [hencoded, JsonLibrary.parse_marshal]
  refine bind_ok.mpr ⟨(), ensure_ok.mpr (by simpa using hpositive), ?_⟩
  refine bind_ok.mpr ⟨(), ensure_ok.mpr (decide_eq_true hsize), ?_⟩
  refine bind_ok.mpr ⟨_, validateJSON_ok.mpr ⟨hparse, count, hscan⟩, ?_⟩
  refine bind_ok.mpr ⟨_, hwire, ?_⟩
  refine bind_ok.mpr ⟨_, acceptText_ok.mpr ⟨rfl, hid⟩, ?_⟩
  refine bind_ok.mpr ⟨_, acceptText_ok.mpr ⟨rfl, hworkspace⟩, ?_⟩
  refine bind_ok.mpr ⟨_, acceptText_ok.mpr ⟨rfl, hversion⟩, ?_⟩
  refine bind_ok.mpr ⟨_, acceptText_ok.mpr ⟨rfl, hkind⟩, ?_⟩
  refine bind_ok.mpr ⟨_, validateDisplayName_ok.mpr ⟨rfl, hname⟩, ?_⟩
  refine bind_ok.mpr ⟨_, hparent, ?_⟩
  refine bind_ok.mpr ⟨_, hlabels, ?_⟩
  refine bind_ok.mpr ⟨(), ensure_ok.mpr (decide_eq_true hgeneration), ?_⟩
  refine bind_ok.mpr ⟨_, acceptText_ok.mpr ⟨rfl, hresourceVersion⟩, ?_⟩
  refine bind_ok.mpr ⟨_, parseTimestamp_formatTimestamp h.created _, ?_⟩
  refine bind_ok.mpr ⟨_, parseTimestamp_formatTimestamp h.updated _, ?_⟩
  refine bind_ok.mpr ⟨(), ensure_ok.mpr (decide_eq_true htimes), ?_⟩
  refine bind_ok.mpr ⟨_, hspecSettled.decodeTree hspec hspecScan, ?_⟩
  refine bind_ok.mpr ⟨_, hstatusSettled.decodeTree hstatus hstatusScan, ?_⟩
  refine bind_ok.mpr ⟨(), hobservations, ?_⟩
  exact bind_ok.mpr ⟨encoded, hmarshal, rfl⟩

end Veer.Envelope
