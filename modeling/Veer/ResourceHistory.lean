import Veer.ResourceCanonical
import Veer.StepMachine

/-!
# Histories of a resource

`New` and the five transitions of a resource. A transition answers with a resource and an error, and
what it writes goes through `advance` and the size check. A history is any sequence of calls on the
resource that the call before it has returned.
-/
namespace Veer.Envelope

open JsonTree StepMachine

variable {Text : Type}

/-! ## The next version -/

/-- What a transition returns: a resource and an error. -/
abbrev Outcome (Text : Type) := Resource Text × Option Failure

def advance (resource : Resource Text) (nextResourceVersion : GoString) (updatedAt : Int) :
    Outcome Text :=
  match validateResourceVersion nextResourceVersion with
  | .error failure => (resource, some failure)
  | .ok version =>
    if version = resource.metadata.resourceVersion then
      (resource, some (.message "next resource version must differ from the current version"))
    else
      match normalizeTimestamp updatedAt "metadata.updatedAt" with
      | .error failure => (resource, some failure)
      | .ok normalized =>
        if normalized < resource.metadata.updatedAt then
          (resource, some (.message "metadata.updatedAt cannot move backwards"))
        else
          ({ resource with
              metadata :=
                { resource.metadata with
                  resourceVersion := version
                  updatedAt := normalized } }, none)

variable {resource : Resource Text}

theorem advance_spec {result : Resource Text} {version : GoString} {updatedAt : Int}
    (h : advance resource version updatedAt = (result, none)) :
    ∃ next normalized, next ≠ resource.metadata.resourceVersion ∧
      resource.metadata.updatedAt ≤ normalized ∧ CanonicalTime normalized ∧
      result =
        { resource with
          metadata :=
            { resource.metadata with
              resourceVersion := next
              updatedAt := normalized } } := by
  unfold advance at h
  split at h
  · cases h
  rename_i next hnext
  split_ifs at h with hsame
  · cases h
  split at h
  · cases h
  rename_i normalized hnormalized
  split_ifs at h with hback
  · cases h
  · refine ⟨next, normalized, hsame, not_lt.mp hback, ?_, (Prod.mk.inj h).1.symm⟩
    exact normalizeTimestamp_canonical hnormalized

theorem advance_kept {result : Resource Text} {version : GoString} {updatedAt : Int}
    (h : advance resource version updatedAt = (result, none)) :
    result.metadata.displayName = resource.metadata.displayName ∧
      result.metadata.labels = resource.metadata.labels ∧
      result.metadata.generation = resource.metadata.generation ∧ result.spec = resource.spec ∧
      result.status = resource.status := by
  obtain ⟨next, normalized, -, -, -, rfl⟩ := advance_spec h
  exact ⟨rfl, rfl, rfl, rfl, rfl⟩

/-- What no transition touches. -/
structure SameIdentity (before after : Resource Text) : Prop where
  apiVersion : after.apiVersion = before.apiVersion
  kind : after.kind = before.kind
  id : after.metadata.id = before.metadata.id
  workspaceID : after.metadata.workspaceID = before.metadata.workspaceID
  parent : after.metadata.parent = before.metadata.parent
  createdAt : after.metadata.createdAt = before.metadata.createdAt

theorem SameIdentity.trans {first second third : Resource Text} (h : SameIdentity first second)
    (h' : SameIdentity second third) : SameIdentity first third where
  apiVersion := h'.apiVersion.trans h.apiVersion
  kind := h'.kind.trans h.kind
  id := h'.id.trans h.id
  workspaceID := h'.workspaceID.trans h.workspaceID
  parent := h'.parent.trans h.parent
  createdAt := h'.createdAt.trans h.createdAt

variable [JsonLibrary Text] [DecidableEq Text]

/-! ## Creation -/

structure CreateInput (Spec Status : Type) where
  apiVersion : GoString
  kind : GoString
  id : GoString
  workspaceID : GoString
  displayName : GoString
  parent : Option GoString
  labels : LabelMap
  resourceVersion : GoString
  createdAt : Int
  spec : Spec
  status : Status

section Transitions

variable {Spec Status : Type} [TypedJson Text Spec] [TypedJson Text Status]
  [GenerationObservations Status]

def new (input : CreateInput Spec Status) : Except Failure (Resource Text) := do
  let apiVersion ← validateAPIVersion input.apiVersion
  let kind ← validateKind input.kind
  let id ← validateID input.id "metadata.id"
  let workspaceID ← validateID input.workspaceID "metadata.workspaceId"
  let displayName ← validateDisplayName input.displayName
  let parent ← validateParent input.parent
  let labels ← validateLabels input.labels
  let version ← validateResourceVersion input.resourceVersion
  let createdAt ← normalizeTimestamp input.createdAt "metadata.createdAt"
  let (spec, _) ← canonicalizeObject Spec input.spec "spec"
  let (status, canonicalStatus) ← canonicalizeObject Status input.status "status"
  validateObservations canonicalStatus 1
  let result : Resource Text :=
    { apiVersion := apiVersion
      kind := kind
      metadata :=
        { id := id
          workspaceID := workspaceID
          displayName := displayName
          parent := parent
          labels := labels
          generation := 1
          resourceVersion := version
          createdAt := createdAt
          updatedAt := createdAt }
      spec := spec
      status := status }
  validateSize result
  .ok result

/-! ## Transitions -/

/-- The last check of every transition. -/
def sized (resource result : Resource Text) : Outcome Text :=
  match validateSize result with
  | .error failure => (resource, some failure)
  | .ok () => (result, none)

def replaceIntent (resource : Resource Text) (displayName : GoString) (labels : LabelMap)
    (spec : Spec) (nextResourceVersion : GoString) (updatedAt : Int) : Outcome Text :=
  match validateDisplayName displayName with
  | .error failure => (resource, some failure)
  | .ok displayName =>
    match validateLabels labels with
    | .error failure => (resource, some failure)
    | .ok labels =>
      match canonicalizeObject Spec spec "spec" with
      | .error failure => (resource, some failure)
      | .ok (canonical, _) =>
        let specChanged := !decide (canonical = resource.spec)
        if displayName = resource.metadata.displayName ∧
            labelsEqual labels resource.metadata.labels ∧ !specChanged then
          (resource, none)
        else if specChanged ∧ resource.metadata.generation = maxInt64 then
          (resource, some .generationOverflow)
        else
          match advance resource nextResourceVersion updatedAt with
          | (_, some failure) => (resource, some failure)
          | (result, none) =>
            sized resource
              { result with
                metadata :=
                  { result.metadata with
                    displayName := displayName
                    labels := labels
                    generation := result.metadata.generation + if specChanged then 1 else 0 }
                spec := canonical }

def rename (resource : Resource Text) (displayName nextResourceVersion : GoString)
    (updatedAt : Int) : Outcome Text :=
  match validateDisplayName displayName with
  | .error failure => (resource, some failure)
  | .ok displayName =>
    if displayName = resource.metadata.displayName then (resource, none)
    else
      match advance resource nextResourceVersion updatedAt with
      | (_, some failure) => (resource, some failure)
      | (result, none) =>
        sized resource
          { result with metadata := { result.metadata with displayName := displayName } }

def replaceLabels (resource : Resource Text) (labels : LabelMap) (nextResourceVersion : GoString)
    (updatedAt : Int) : Outcome Text :=
  match validateLabels labels with
  | .error failure => (resource, some failure)
  | .ok labels =>
    if labelsEqual labels resource.metadata.labels then (resource, none)
    else
      match advance resource nextResourceVersion updatedAt with
      | (_, some failure) => (resource, some failure)
      | (result, none) =>
        sized resource { result with metadata := { result.metadata with labels := labels } }

def replaceSpec (resource : Resource Text) (spec : Spec) (nextResourceVersion : GoString)
    (updatedAt : Int) : Outcome Text :=
  match canonicalizeObject Spec spec "spec" with
  | .error failure => (resource, some failure)
  | .ok (canonical, _) =>
    if canonical = resource.spec then (resource, none)
    else if resource.metadata.generation = maxInt64 then (resource, some .generationOverflow)
    else
      match advance resource nextResourceVersion updatedAt with
      | (_, some failure) => (resource, some failure)
      | (result, none) =>
        sized resource
          { result with
            metadata := { result.metadata with generation := result.metadata.generation + 1 }
            spec := canonical }

def replaceStatus (resource : Resource Text) (status : Status) (nextResourceVersion : GoString)
    (updatedAt : Int) : Outcome Text :=
  match canonicalizeObject Status status "status" with
  | .error failure => (resource, some failure)
  | .ok (canonical, canonicalStatus) =>
    match validateObservations canonicalStatus resource.metadata.generation with
    | .error failure => (resource, some failure)
    | .ok () =>
      if canonical = resource.status then (resource, none)
      else
        match advance resource nextResourceVersion updatedAt with
        | (_, some failure) => (resource, some failure)
        | (result, none) => sized resource { result with status := canonical }

/-! ## What a transition may do -/

/-- Some of what a caller or an observer writes is different. -/
def Changed (before after : Resource Text) : Prop :=
  after.metadata.displayName ≠ before.metadata.displayName ∨
    after.metadata.labels ≠ before.metadata.labels ∨ after.spec ≠ before.spec ∨
    after.status ≠ before.status

/-- A write: one more version, and a spec or status only as its codec has settled it. -/
structure Written (Spec Status : Type) [TypedJson Text Spec] [TypedJson Text Status]
    [GenerationObservations Status] (before after : Resource Text) : Prop where
  identity : SameIdentity before after
  version : after.metadata.resourceVersion ≠ before.metadata.resourceVersion
  ordered : before.metadata.updatedAt ≤ after.metadata.updatedAt
  updated : CanonicalTime after.metadata.updatedAt
  changed : Changed before after
  generation : after.metadata.generation =
    before.metadata.generation + if after.spec = before.spec then 0 else 1
  bounded : before.metadata.generation ≤ maxInt64 → after.metadata.generation ≤ maxInt64
  spec : after.spec = before.spec ∨ ∃ value : Spec, Settled Spec "spec" after.spec value
  status : after.status = before.status ∨
    ∃ value : Status, Settled Status "status" after.status value ∧
      validateObservations value before.metadata.generation = .ok ()
  marshals : ∃ encoded, marshalCanonical after = .ok encoded

/-- A transition returns what it was given, or a write and no error. -/
def Steps (Spec Status : Type) [TypedJson Text Spec] [TypedJson Text Status]
    [GenerationObservations Status] (before : Resource Text) (outcome : Outcome Text) : Prop :=
  outcome.1 = before ∨ outcome.2 = none ∧ Written Spec Status before outcome.1

/-- Whatever is written on top of `advance` is a write once it passes the size check. -/
theorem steps_sized {result : Resource Text} {version : GoString} {updatedAt : Int}
    (hadvance : advance resource version updatedAt = (result, none)) {displayName : String}
    {labels : Labels} {generation : Int} {spec status : Text}
    (hchanged : displayName ≠ resource.metadata.displayName ∨ labels ≠ resource.metadata.labels ∨
      spec ≠ resource.spec ∨ status ≠ resource.status)
    (hgeneration : generation =
      resource.metadata.generation + if spec = resource.spec then 0 else 1)
    (hbounded : resource.metadata.generation ≤ maxInt64 → generation ≤ maxInt64)
    (hspec : spec = resource.spec ∨ ∃ value : Spec, Settled Spec "spec" spec value)
    (hstatus : status = resource.status ∨ ∃ value : Status, Settled Status "status" status value ∧
      validateObservations value resource.metadata.generation = .ok ()) :
    Steps Spec Status resource
      (sized resource
        { result with
          metadata :=
            { result.metadata with
              displayName := displayName
              labels := labels
              generation := generation }
          spec := spec
          status := status }) := by
  obtain ⟨next, normalized, hnext, hordered, hcanonical, rfl⟩ := advance_spec hadvance
  unfold sized
  split
  · exact .inl rfl
  rename_i hsize
  refine .inr ⟨rfl, ?_⟩
  exact
    { identity := ⟨rfl, rfl, rfl, rfl, rfl, rfl⟩
      version := hnext
      ordered := hordered
      updated := hcanonical
      changed := hchanged
      generation := hgeneration
      bounded := hbounded
      spec := hspec
      status := hstatus
      marshals := validateSize_ok.mp hsize }

theorem replaceIntent_steps (resource : Resource Text) (displayName : GoString) (labels : LabelMap)
    (spec : Spec) (version : GoString) (updatedAt : Int) :
    Steps Spec Status resource
      (replaceIntent resource displayName labels spec version updatedAt) := by
  fun_cases replaceIntent resource displayName labels spec version updatedAt
  case case7 canonical value hspec changed hsame hoverflow result hadvance =>
    obtain ⟨-, -, hgeneration, -, hstatus⟩ := advance_kept hadvance
    have hchanged : changed = !decide (canonical = resource.spec) := rfl
    rw [labelsEqual_iff] at hsame
    refine steps_sized hadvance ?_ ?_ ?_ (.inr ⟨value, canonicalizeObject_settled hspec⟩)
      (.inl hstatus)
    · by_contra hkept
      simp only [not_or, not_not] at hkept
      exact hsame ⟨hkept.1, hkept.2.1, by simp [hchanged, hkept.2.2.1]⟩
    · rw [hgeneration, hchanged]
      by_cases hspec : canonical = resource.spec <;> simp [hspec]
    · intro hmax
      rw [hgeneration]
      by_cases hraised : changed = true
      · have hlimit : resource.metadata.generation ≠ maxInt64 := fun h => hoverflow ⟨hraised, h⟩
        rw [if_pos hraised]
        omega
      · rwa [if_neg hraised, add_zero]
  all_goals exact .inl rfl

theorem rename_steps (resource : Resource Text) (displayName version : GoString)
    (updatedAt : Int) :
    Steps Spec Status resource (rename resource displayName version updatedAt) := by
  fun_cases rename resource displayName version updatedAt
  case case4 hsame result hadvance =>
    obtain ⟨-, hlabels, hgeneration, hspec, hstatus⟩ := advance_kept hadvance
    refine steps_sized hadvance (.inl hsame) ?_ ?_ (.inl hspec) (.inl hstatus)
    · rw [hspec, if_pos rfl, hgeneration, add_zero]
    · exact fun h => hgeneration ▸ h
  all_goals exact .inl rfl

theorem replaceLabels_steps (resource : Resource Text) (labels : LabelMap) (version : GoString)
    (updatedAt : Int) :
    Steps Spec Status resource (replaceLabels resource labels version updatedAt) := by
  fun_cases replaceLabels resource labels version updatedAt
  case case4 hsame result hadvance =>
    obtain ⟨-, -, hgeneration, hspec, hstatus⟩ := advance_kept hadvance
    rw [labelsEqual_iff] at hsame
    refine steps_sized hadvance (.inr (.inl hsame)) ?_ ?_ (.inl hspec) (.inl hstatus)
    · rw [hspec, if_pos rfl, hgeneration, add_zero]
    · exact fun h => hgeneration ▸ h
  all_goals exact .inl rfl

theorem replaceSpec_steps (resource : Resource Text) (spec : Spec) (version : GoString)
    (updatedAt : Int) :
    Steps Spec Status resource (replaceSpec resource spec version updatedAt) := by
  fun_cases replaceSpec resource spec version updatedAt
  case case5 value hspec hsame hoverflow result hadvance =>
    obtain ⟨-, -, hgeneration, -, hstatus⟩ := advance_kept hadvance
    refine steps_sized hadvance (.inr (.inr (.inl hsame))) ?_ ?_
      (.inr ⟨value, canonicalizeObject_settled hspec⟩) (.inl hstatus)
    · rw [if_neg hsame, hgeneration]
    · intro hmax
      rw [hgeneration]
      omega
  all_goals exact .inl rfl

theorem replaceStatus_steps (resource : Resource Text) (status : Status) (version : GoString)
    (updatedAt : Int) :
    Steps Spec Status resource (replaceStatus resource status version updatedAt) := by
  fun_cases replaceStatus resource status version updatedAt
  case case5 value hstatus hobservations hsame result hadvance =>
    obtain ⟨-, -, hgeneration, hspec, -⟩ := advance_kept hadvance
    refine steps_sized hadvance (.inr (.inr (.inr hsame))) ?_ ?_ (.inl hspec)
      (.inr ⟨value, canonicalizeObject_settled hstatus, hobservations⟩)
    · rw [hspec, if_pos rfl, hgeneration, add_zero]
    · exact fun h => hgeneration ▸ h
  all_goals exact .inl rfl

end Transitions

/-! ## Histories -/

inductive Call (Spec Status : Type)
  | replaceIntent (displayName : GoString) (labels : LabelMap) (spec : Spec) (version : GoString)
      (updatedAt : Int)
  | rename (displayName version : GoString) (updatedAt : Int)
  | replaceLabels (labels : LabelMap) (version : GoString) (updatedAt : Int)
  | replaceSpec (spec : Spec) (version : GoString) (updatedAt : Int)
  | replaceStatus (status : Status) (version : GoString) (updatedAt : Int)

section History

variable (Spec Status : Type) [TypedJson Text Spec] [TypedJson Text Status]
  [GenerationObservations Status]

/-- Every call is made on the resource that the call before it has returned. -/
def resourceMachine : Machine (Resource Text) (Call Spec Status) (Option Failure) where
  step resource
    | .replaceIntent displayName labels spec version updatedAt =>
      replaceIntent resource displayName labels spec version updatedAt
    | .rename displayName version updatedAt => rename resource displayName version updatedAt
    | .replaceLabels labels version updatedAt => replaceLabels resource labels version updatedAt
    | .replaceSpec spec version updatedAt => replaceSpec resource spec version updatedAt
    | .replaceStatus status version updatedAt => replaceStatus resource status version updatedAt

theorem resourceMachine_steps (resource : Resource Text) (call : Call Spec Status) :
    Steps Spec Status resource ((resourceMachine Spec Status).step resource call) := by
  cases call with
  | replaceIntent => exact replaceIntent_steps ..
  | rename => exact rename_steps ..
  | replaceLabels => exact replaceLabels_steps ..
  | replaceSpec => exact replaceSpec_steps ..
  | replaceStatus => exact replaceStatus_steps ..

variable {Spec Status}

theorem validateObservations_ok {status : Status} {generation : Int} {result : Unit} :
    validateObservations status generation = .ok result ↔
      ∀ observed ∈ GenerationObservations.observedGenerations status,
        0 ≤ observed ∧ observed ≤ generation := by
  unfold validateObservations
  dsimp only
  split
  · rename_i hnone
    rw [List.find?_eq_none] at hnone
    simpa using hnone
  · rename_i observed hsome
    have hmem := List.mem_of_find?_eq_some hsome
    have hbad := List.find?_some hsome
    simp only [reduceCtorEq, false_iff, not_forall]
    refine ⟨observed, hmem, fun hgood => ?_⟩
    simp only [Bool.or_eq_true, decide_eq_true_eq] at hbad
    omega

theorem Written.sound {before after : Resource Text} (h : Written Spec Status before after)
    (hbefore : Sound Spec Status before) : Sound Spec Status after := by
  have hgrows : before.metadata.generation ≤ after.metadata.generation := by
    rw [h.generation]
    split_ifs <;> omega
  refine ⟨h.marshals, ?_, ?_, ?_, h.updated, h.bounded hbefore.generation⟩
  · rcases h.spec with hsame | hsettled
    · exact hsame ▸ hbefore.spec
    · exact hsettled
  · obtain ⟨value, hsettled, hobservations⟩ : ∃ value : Status,
        Settled Status "status" after.status value ∧
          validateObservations value before.metadata.generation = .ok () := by
      rcases h.status with hsame | hsettled
      · exact hsame ▸ hbefore.status
      · exact hsettled
    refine ⟨value, hsettled, validateObservations_ok.mpr fun observed hobserved => ?_⟩
    have hold := validateObservations_ok.mp hobservations observed hobserved
    omega
  · exact h.identity.createdAt ▸ hbefore.created

theorem sound_next (h : Sound Spec Status resource) (call : Call Spec Status) :
    Sound Spec Status ((resourceMachine Spec Status).next resource call) := by
  rcases resourceMachine_steps Spec Status resource call with hkept | ⟨-, hwritten⟩
  · exact (congrArg (Sound Spec Status) hkept).mpr h
  · exact hwritten.sound h

theorem new_sound {input : CreateInput Spec Status} (h : new input = .ok resource) :
    Sound Spec Status resource := by
  obtain ⟨apiVersion, -, h⟩ := bind_ok.mp h
  obtain ⟨kind, -, h⟩ := bind_ok.mp h
  obtain ⟨id, -, h⟩ := bind_ok.mp h
  obtain ⟨workspaceID, -, h⟩ := bind_ok.mp h
  obtain ⟨displayName, -, h⟩ := bind_ok.mp h
  obtain ⟨parent, -, h⟩ := bind_ok.mp h
  obtain ⟨labels, -, h⟩ := bind_ok.mp h
  obtain ⟨version, -, h⟩ := bind_ok.mp h
  obtain ⟨createdAt, hcreated, h⟩ := bind_ok.mp h
  obtain ⟨⟨spec, specValue⟩, hspec, h⟩ := bind_ok.mp h
  obtain ⟨⟨status, statusValue⟩, hstatus, h⟩ := bind_ok.mp h
  obtain ⟨_, hobservations, h⟩ := bind_ok.mp h
  obtain ⟨_, hsize, h⟩ := bind_ok.mp h
  cases h
  have hcanonical := normalizeTimestamp_canonical hcreated
  exact
    { marshals := validateSize_ok.mp hsize
      spec := ⟨specValue, canonicalizeObject_settled hspec⟩
      status := ⟨statusValue, canonicalizeObject_settled hstatus, hobservations⟩
      created := hcanonical
      updated := hcanonical
      generation := show (1 : Int) ≤ maxInt64 by decide }

/-- One call tells the truth about what it has changed. -/
structure Truthful (before after : Resource Text) (err : Option Failure) : Prop where
  failed : err ≠ none → after = before
  generation : after.metadata.generation =
    before.metadata.generation + if after.spec = before.spec then 0 else 1
  stamped : after.metadata.resourceVersion ≠ before.metadata.resourceVersion ∨
    after.metadata.updatedAt ≠ before.metadata.updatedAt → Changed before after
  revised : Changed before after →
    after.metadata.resourceVersion ≠ before.metadata.resourceVersion
  identity : SameIdentity before after
  ordered : before.metadata.updatedAt ≤ after.metadata.updatedAt

theorem Steps.truthful {before : Resource Text} {outcome : Outcome Text}
    (h : Steps Spec Status before outcome) : Truthful before outcome.1 outcome.2 := by
  rcases h with hkept | ⟨hnone, hwritten⟩
  · rw [hkept]
    refine ⟨fun _ => rfl, by simp, fun h => ?_, fun h => ?_, ⟨rfl, rfl, rfl, rfl, rfl, rfl⟩, le_rfl⟩
    · simp at h
    · simp [Changed] at h
  · exact
      { failed := fun h => absurd hnone h
        generation := hwritten.generation
        stamped := fun _ => hwritten.changed
        revised := fun _ => hwritten.version
        identity := hwritten.identity
        ordered := hwritten.ordered }

/-- A resource that a reader of its text gets back. -/
structure Coherent (Spec Status : Type) [TypedJson Text Spec] [TypedJson Text Status]
    [GenerationObservations Status] (resource : Resource Text) : Prop where
  times : resource.metadata.createdAt ≤ resource.metadata.updatedAt
  observed : ∃ value : Status, TypedJson.decode resource.status = .ok value ∧
    ∀ observed ∈ GenerationObservations.observedGenerations value,
      0 ≤ observed ∧ observed ≤ resource.metadata.generation
  accepted : ∃ encoded, marshalCanonical resource = .ok encoded ∧
    unmarshalCanonical Spec Status encoded = .ok resource

theorem Sound.coherent (h : Sound Spec Status resource) : Coherent Spec Status resource := by
  obtain ⟨encoded, hmarshal⟩ := h.marshals
  obtain ⟨hvalid, -⟩ := marshalCanonical_ok.mp hmarshal
  obtain ⟨-, -, -, -, -, -, -, -, -, htimes⟩ := validateEnvelope_ok hvalid
  obtain ⟨value, hsettled, hobservations⟩ := h.status
  exact ⟨htimes, ⟨value, hsettled.decode, validateObservations_ok.mp hobservations⟩, encoded,
    hmarshal, h.unmarshal hmarshal⟩

/-- Over every history of a created resource, versions, generations and times tell the truth, and
every resource it goes through is accepted again from its text. -/
theorem resource_history {input : CreateInput Spec Status} {resource : Resource Text}
    (hnew : new input = .ok resource) (calls : List (Call Spec Status)) :
    Coherent Spec Status resource ∧
      ∀ entry ∈ (resourceMachine Spec Status).trace resource calls,
        Truthful entry.before entry.after entry.output ∧ SameIdentity resource entry.after ∧
          Coherent Spec Status entry.after := by
  have hstep : ∀ s call, Sound Spec Status s ∧ SameIdentity resource s →
      Sound Spec Status ((resourceMachine Spec Status).next s call) ∧
        SameIdentity resource ((resourceMachine Spec Status).next s call) := by
    rintro s call ⟨hsound, hidentity⟩
    have htruthful := (resourceMachine_steps Spec Status s call).truthful
    exact ⟨sound_next hsound call, hidentity.trans htruthful.identity⟩
  have hstart : Sound Spec Status resource ∧ SameIdentity resource resource :=
    ⟨new_sound hnew, ⟨rfl, rfl, rfl, rfl, rfl, rfl⟩⟩
  refine ⟨hstart.1.coherent, fun entry hentry => ?_⟩
  obtain ⟨hbefore, hentry⟩ := trace_invariant _ hstep hstart hentry
  have hafter := hstep entry.before entry.input hbefore
  have htruthful := (resourceMachine_steps Spec Status entry.before entry.input).truthful
  rw [hentry]
  exact ⟨htruthful, hafter.2, hafter.1.coherent⟩

end History

/-! ## A history -/

structure SampleSpec where
  replicas : Int

structure SampleStatus where
  observedGeneration : Int

/-- One number under a name. -/
def numberObject (name : String) (value : Int) : Json :=
  .object [(name, .number (Numeral.ofInt value))]

def readNumberObject (name : String) : Json → Except String Int
  | .object [(other, .number literal)] =>
    match literal.int64? with
    | some value => if other = name then .ok value else .error "unknown name"
    | none => .error "not an integer"
  | _ => .error "not an object"

instance : TypedJson Json SampleSpec where
  contract := none
  encode spec := .ok (numberObject "replicas" spec.replicas)
  decode text := (readNumberObject "replicas" text).map SampleSpec.mk

instance : TypedJson Json SampleStatus where
  contract := none
  encode status := .ok (numberObject "observedGeneration" status.observedGeneration)
  decode text := (readNumberObject "observedGeneration" text).map SampleStatus.mk

instance : GenerationObservations SampleStatus := ⟨fun status => [status.observedGeneration]⟩

def sampleInput : CreateInput SampleSpec SampleStatus where
  apiVersion := some "v1alpha1"
  kind := some "Project"
  id := some "project-0000000000000001"
  workspaceID := some "workspace-00000000000001"
  displayName := some "Sample"
  parent := none
  labels := [(some "team", some "core")]
  resourceVersion := some "v1"
  createdAt := Reconcile.hour
  spec := ⟨1⟩
  status := ⟨0⟩

/-- A new spec, a status that has seen it, a replay, and a call with a used version. -/
def sampleCalls : List (Call SampleSpec SampleStatus) :=
  [.replaceSpec ⟨2⟩ (some "v2") (2 * Reconcile.hour),
    .replaceStatus ⟨2⟩ (some "v3") (3 * Reconcile.hour),
    .replaceLabels [(some "team", some "core")] none 0,
    .rename (some "Other") (some "v3") (4 * Reconcile.hour)]

theorem resource_history_sample :
    ∃ resource : Resource Json, new sampleInput = .ok resource ∧
      (((resourceMachine SampleSpec SampleStatus).trace resource sampleCalls).map fun entry =>
        (entry.after.metadata.generation, entry.after.metadata.resourceVersion,
          entry.output.isSome)) =
        [(2, "v2", false), (2, "v3", false), (2, "v3", false), (2, "v3", true)] ∧
      ∀ entry ∈ (resourceMachine SampleSpec SampleStatus).trace resource sampleCalls,
        Truthful entry.before entry.after entry.output ∧ SameIdentity resource entry.after ∧
          Coherent SampleSpec SampleStatus entry.after := by
  have hrun : ((new sampleInput : Except Failure (Resource Json)).toOption.map fun resource =>
      ((resourceMachine SampleSpec SampleStatus).trace resource sampleCalls).map fun entry =>
        (entry.after.metadata.generation, entry.after.metadata.resourceVersion,
          entry.output.isSome)) =
      some [(2, "v2", false), (2, "v3", false), (2, "v3", false), (2, "v3", true)] := by
    decide +kernel
  cases hnew : (new sampleInput : Except Failure (Resource Json)) with
  | error =>
    rw [hnew] at hrun
    cases hrun
  | ok resource =>
    rw [hnew] at hrun
    exact ⟨resource, rfl, Option.some.inj hrun, (resource_history hnew sampleCalls).2⟩

end Veer.Envelope
