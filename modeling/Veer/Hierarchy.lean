import Veer.ReconcileSafety

/-!
# The product tree

`ParseKind` holds by typing. A Go map is an `AList`; the loops over a map in `NewSnapshot` each
return one error, whatever the order of iteration.
-/
namespace Veer.Hierarchy
open Reconcile (ID validID)

/-- The sentinel errors of the package. -/
inductive Sentinel
  | unsupportedAPIVersion | unsupportedKind | invalidSnapshot | snapshotTooLarge
  | invalidPlacement | duplicateID | workspaceRootMissing | workspaceMismatch | rootHasParent
  | parentRequired | parentNotFound | parentKindMismatch | cycle | resourceNotFound
  | immutableID | immutableKind | immutableParent | immutableWorkspaceID | deleteRestricted
  deriving DecidableEq, Repr

abbrev Failure := List Sentinel

def apiVersion : String := "v1alpha1"

/-- One Workspace and the target-scale maxima of its five descendant kinds. -/
def maxSnapshotRecords : Nat := 1 + 1000 + 10000 + 50000 + 2500 + 500

inductive Kind
  | workspace | environment | application | component | policy | providerConnection
  deriving DecidableEq, Repr

def Kind.string : Kind → String
  | workspace => "Workspace"
  | environment => "Environment"
  | application => "Application"
  | component => "Component"
  | policy => "Policy"
  | providerConnection => "ProviderConnection"

theorem Kind.string_injective : Function.Injective Kind.string := by
  intro left right h
  cases left <;> cases right <;> first | rfl | (revert h; decide)

def expectedParentKind : Kind → Option Kind
  | .workspace => none
  | .environment => some .workspace
  | .application => some .environment
  | .component => some .application
  | .policy => some .workspace
  | .providerConnection => some .environment

structure Record where
  apiVersion : String
  id : ID
  kind : Kind
  workspaceID : ID
  parent : Option ID
  deriving DecidableEq, Repr

/-- Server-derived identity and ownership of a new resource. -/
structure Placement where
  id : ID
  kind : Kind
  workspaceID : ID
  parent : Option ID
  deriving DecidableEq, Repr

abbrev RecordIndex := AList (fun _ : ID => Record)

structure Snapshot where
  initialized : Bool
  workspaceID : ID
  records : RecordIndex
  hasChild : List ID

/-- The identifiers of a record are well formed. -/
def Record.validIDs (record : Record) : Bool :=
  validID record.id && validID record.workspaceID && record.parent.all validID

def validateRecord (record : Record) : Except Failure Unit :=
  if record.apiVersion ≠ apiVersion then .error [.unsupportedAPIVersion]
  else if record.validIDs then .ok ()
  else .error [.invalidSnapshot]

def validateRecords (records : List Record) : Except Failure Unit :=
  if records.any fun record => record.apiVersion != apiVersion then
    .error [.unsupportedAPIVersion]
  else if records.all Record.validIDs then .ok ()
  else .error [.invalidSnapshot]

/-! ## Snapshots -/

def indexRecords (records : List Record) : Except Failure RecordIndex :=
  records.foldlM (fun index record =>
    if record.id ∈ index then .error [.duplicateID] else .ok (index.insert record.id record)) ∅

inductive WalkState
  | current | processed
  deriving DecidableEq, Repr

/-- An absent entry is an unseen resource. -/
abbrev WalkStates := AList (fun _ : ID => WalkState)

def closeWalk (state : WalkStates) (path : List ID) : WalkStates :=
  path.foldl (fun state id => state.insert id .processed) state

/-- One walk towards the root. Every turn marks a resource that was unseen, so `fuel` turns
suffice once `fuel` exceeds the number of records. -/
def walk (index : RecordIndex) : Nat → WalkStates → List ID → ID → Except Failure WalkStates
  | 0, _, _, _ => .error [.cycle]
  | fuel + 1, state, path, current =>
    match state.lookup current with
    | some .current => .error [.cycle]
    | some .processed => .ok (closeWalk state path)
    | none =>
      match (index.lookup current).bind Record.parent with
      | none => .ok (closeWalk (state.insert current .current) (path ++ [current]))
      | some parent =>
        walk index fuel (state.insert current .current) (path ++ [current]) parent

def checkCycles (index : RecordIndex) : Except Failure WalkStates :=
  index.keys.foldlM (fun state start =>
    if start ∈ state then .ok state else walk index (index.keys.length + 1) state [] start) ∅

/-- The records of an index, as a loop over the map visits them. -/
def RecordIndex.values (index : RecordIndex) : List Record := index.entries.map Sigma.snd

def parentFound (index : RecordIndex) (record : Record) : Bool :=
  record.parent.all fun parent => decide (parent ∈ index)

def parentKindFits (index : RecordIndex) (record : Record) : Bool :=
  record.parent.all fun parent =>
    (index.lookup parent).map Record.kind == expectedParentKind record.kind

/-- Ownership is decided before the graph, so a foreign record is never taken for an orphan. -/
def newSnapshot (workspaceID : ID) (records : List Record) : Except Failure Snapshot :=
  if !validID workspaceID then .error [.invalidSnapshot]
  else if maxSnapshotRecords < records.length then .error [.invalidSnapshot, .snapshotTooLarge]
  else
    match validateRecords records with
    | .error failure => .error failure
    | .ok () =>
      match indexRecords records with
      | .error failure => .error failure
      | .ok index =>
        if index.values.any fun record => record.workspaceID != workspaceID ||
            (record.kind == .workspace && record.id != workspaceID) then
          .error [.workspaceMismatch]
        else if (index.lookup workspaceID).map Record.kind ≠ some .workspace then
          .error [.workspaceRootMissing]
        else if index.values.any fun record => record.kind == .workspace && record.parent.isSome then
          .error [.rootHasParent]
        else if index.values.any fun record => record.kind != .workspace && record.parent.isNone then
          .error [.parentRequired]
        else if !index.values.all (parentFound index) then .error [.parentNotFound]
        else
          match checkCycles index with
          | .error failure => .error failure
          | .ok _ =>
            if !index.values.all (parentKindFits index) then .error [.parentKindMismatch]
            else .ok ⟨true, workspaceID, index, index.values.filterMap Record.parent⟩

def Snapshot.lookup (snapshot : Snapshot) (id : ID) : Except Failure Record :=
  if !snapshot.initialized then .error [.invalidSnapshot]
  else if !validID id then .error [.invalidSnapshot]
  else
    match snapshot.records.lookup id with
    | none => .error [.resourceNotFound]
    | some record => .ok record

def Snapshot.deriveChild (snapshot : Snapshot) (kind : Kind) (id parentID : ID) :
    Except Failure Placement :=
  if !snapshot.initialized then .error [.invalidSnapshot]
  else if kind = .workspace then .error [.invalidPlacement]
  else if !validID id then .error [.invalidPlacement]
  else if !validID parentID then .error [.invalidPlacement]
  else if id ∈ snapshot.records then .error [.duplicateID]
  else
    match snapshot.records.lookup parentID with
    | none => .error [.parentNotFound]
    | some parent =>
      if expectedParentKind kind ≠ some parent.kind then .error [.parentKindMismatch]
      else if parent.workspaceID ≠ snapshot.workspaceID then .error [.workspaceMismatch]
      else .ok ⟨id, kind, snapshot.workspaceID, some parentID⟩

def checkTransition (before after : Record) : Except Failure Unit :=
  match validateRecord before with
  | .error failure => .error failure
  | .ok () =>
    match validateRecord after with
    | .error failure => .error failure
    | .ok () =>
      if before.id ≠ after.id then .error [.immutableID]
      else if before.kind ≠ after.kind then .error [.immutableKind]
      else if before.parent ≠ after.parent then .error [.immutableParent]
      else if before.workspaceID ≠ after.workspaceID then .error [.immutableWorkspaceID]
      else .ok ()

/-- RESTRICT: a resource with a retained child stays. -/
def Snapshot.checkDelete (snapshot : Snapshot) (id : ID) : Except Failure Unit :=
  if !snapshot.initialized then .error [.invalidSnapshot]
  else if id ∉ snapshot.records then .error [.resourceNotFound]
  else if id ∈ snapshot.hasChild then .error [.deleteRestricted]
  else .ok ()

end Veer.Hierarchy
