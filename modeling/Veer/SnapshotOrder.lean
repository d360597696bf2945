import Veer.HierarchyClosure
import Veer.MapVisits

/-!
# What a snapshot accepts, in any order

`NewSnapshot` takes its records in some order and walks its map seven times, each time in an order
of the map's own. Neither shows in its result: whether a record set is accepted, and with which
error it is rejected, depends on the set alone.
-/
namespace Veer.Hierarchy
open Reconcile (ID validID)
open MapVisits (Order)

/-! ## The constructor with its orders -/

/-- A record as it is supplied: its kind may be any text. -/
structure SuppliedRecord where
  apiVersion : String
  id : ID
  kind : String
  workspaceID : ID
  parent : Option ID
  deriving DecidableEq, Repr

def parseKind (value : String) : Option Kind :=
  [.workspace, .environment, .application, .component, .policy, .providerConnection].find?
    fun kind => kind.string == value

def SuppliedRecord.parse (supplied : SuppliedRecord) : Option Record :=
  (parseKind supplied.kind).map fun kind =>
    ⟨supplied.apiVersion, supplied.id, kind, supplied.workspaceID, supplied.parent⟩

def checkCyclesIn (starts : List ID) (index : RecordIndex) : Except Failure WalkStates :=
  starts.foldlM (fun state start =>
    if start ∈ state then .ok state else walk index (index.keys.length + 1) state [] start) ∅

/-- The part of `NewSnapshot` after the checks of single records, with the order in which each loop
visits the map. -/
def assemble (orders : Nat → Order fun _ : ID => Record) (workspaceID : ID)
    (records : List Record) : Except Failure Snapshot :=
  match indexRecords records with
  | .error failure => .error failure
  | .ok index =>
    let visited := fun loop => ((orders loop).visit index).map Sigma.snd
    if (visited 0).any fun record => record.workspaceID != workspaceID ||
        (record.kind == .workspace && record.id != workspaceID) then
      .error [.workspaceMismatch]
    else if (index.lookup workspaceID).map Record.kind ≠ some .workspace then
      .error [.workspaceRootMissing]
    else if (visited 1).any fun record => record.kind == .workspace && record.parent.isSome then
      .error [.rootHasParent]
    else if (visited 2).any fun record => record.kind != .workspace && record.parent.isNone then
      .error [.parentRequired]
    else if !(visited 3).all (parentFound index) then .error [.parentNotFound]
    else
      match checkCyclesIn (((orders 4).visit index).map Sigma.fst) index with
      | .error failure => .error failure
      | .ok _ =>
        if !(visited 5).all (parentKindFits index) then .error [.parentKindMismatch]
        else .ok ⟨true, workspaceID, index, (visited 6).filterMap Record.parent⟩

def newSnapshotIn (orders : Nat → Order fun _ : ID => Record) (workspaceID : ID)
    (supplied : List SuppliedRecord) : Except Failure Snapshot :=
  if !validID workspaceID then .error [.invalidSnapshot]
  else if maxSnapshotRecords < supplied.length then .error [.invalidSnapshot, .snapshotTooLarge]
  else if supplied.any fun record => record.apiVersion != apiVersion then
    .error [.unsupportedAPIVersion]
  else if supplied.any fun record => (parseKind record.kind).isNone then .error [.unsupportedKind]
  else if !(supplied.filterMap SuppliedRecord.parse).all Record.validIDs then
    .error [.invalidSnapshot]
  else assemble orders workspaceID (supplied.filterMap SuppliedRecord.parse)

/-- The same error, or snapshots that answer every question alike. -/
def SameResult : Except Failure Snapshot → Except Failure Snapshot → Prop
  | .ok left, .ok right => left.initialized = right.initialized ∧
      left.workspaceID = right.workspaceID ∧
      (∀ id, left.records.lookup id = right.records.lookup id) ∧
      ∀ id, id ∈ left.hasChild ↔ id ∈ right.hasChild
  | .error failure, .error failure' => failure = failure'
  | _, _ => False

/-! ## The order of the map -/

variable {index index' : RecordIndex} {records records' : List Record}
  {orders orders' : Nat → Order fun _ : ID => Record} {workspaceID : ID}

theorem indexRecords_error {failure : Failure} (h : indexRecords records = .error failure) :
    failure = [.duplicateID] := by
  have hloop : ∀ (rest : List Record) (index : RecordIndex), rest.foldlM (fun index record =>
      if record.id ∈ index then .error [Sentinel.duplicateID]
      else .ok (index.insert record.id record)) index =
        (.error failure : Except Failure RecordIndex) → failure = [.duplicateID] := by
    intro rest
    induction rest with
    | nil => exact fun index h => nomatch h
    | cons record rest ih =>
      intro index h
      rw [List.foldlM_cons] at h
      split_ifs at h with hseen
      · exact (Except.error.inj h).symm
      · exact ih _ h
  exact hloop records ∅ h

theorem Lists.lookup_eq (h : Lists records index) (h' : Lists records' index')
    (hperm : records'.Perm records) (id : ID) : index'.lookup id = index.lookup id := by
  apply Option.ext
  intro record
  rw [h.lookup_iff, h'.lookup_iff, hperm.mem_iff]

theorem Rooted.congr (hlookup : ∀ id, index'.lookup id = index.lookup id) {id : ID}
    (h : Rooted index id) : Rooted index' id := by
  induction h with
  | root => exact .root (by rwa [parentIn, hlookup])
  | step up _ ih => exact .step (by rwa [parentIn, hlookup]) ih

theorem mem_visited {order : Order fun _ : ID => Record} (record : Record) :
    record ∈ (order.visit index).map Sigma.snd ↔ ∃ id, index.lookup id = some record := by
  rw [List.mem_map]
  constructor
  · rintro ⟨⟨id, found⟩, hentry, rfl⟩
    exact ⟨id, order.mem_visit.mp hentry⟩
  · rintro ⟨id, hid⟩
    exact ⟨⟨id, record⟩, order.mem_visit.mpr hid, rfl⟩

section
variable (hlookup : ∀ id, index'.lookup id = index.lookup id)
include hlookup

theorem mem_index_iff (id : ID) : id ∈ index' ↔ id ∈ index := by
  rw [← AList.lookup_isSome, ← AList.lookup_isSome, hlookup]

theorem parentFound_congr (record : Record) :
    parentFound index' record = parentFound index record := by
  simp only [parentFound, mem_index_iff hlookup]

theorem parentKindFits_congr (record : Record) :
    parentKindFits index' record = parentKindFits index record := by
  simp only [parentKindFits, hlookup]

end

theorem any_congr {α : Type} {l l' : List α} {p p' : α → Bool} (hmem : ∀ a, a ∈ l' ↔ a ∈ l)
    (hp : ∀ a, p' a = p a) : l'.any p' = l.any p := by
  rw [Bool.eq_iff_iff, List.any_eq_true, List.any_eq_true]
  simp only [hmem, hp]

theorem all_congr {α : Type} {l l' : List α} {p p' : α → Bool} (hmem : ∀ a, a ∈ l' ↔ a ∈ l)
    (hp : ∀ a, p' a = p a) : l'.all p' = l.all p := by
  rw [Bool.eq_iff_iff, List.all_eq_true, List.all_eq_true]
  simp only [hmem, hp]

/-- The cycle check asks whether all resources are rooted, wherever it starts. -/
theorem checkCyclesIn_spec (hclosed : Closed index) (order : Order fun _ : ID => Record) :
    ((∀ id ∈ index, Rooted index id) →
      ∃ states, checkCyclesIn ((order.visit index).map Sigma.fst) index = .ok states) ∧
    (¬ (∀ id ∈ index, Rooted index id) →
      checkCyclesIn ((order.visit index).map Sigma.fst) index = .error [.cycle]) := by
  have hkeys : ∀ id, id ∈ (order.visit index).map Sigma.fst ↔ id ∈ index := fun id =>
    ((order.perm index).map Sigma.fst).mem_iff
  have hspec := walks_spec hclosed ((order.visit index).map Sigma.fst)
    (fun id hid => (hkeys id).mp hid) (settled_empty index) (fun id hid => by simp at hid)
  simp only [hkeys] at hspec
  exact hspec

theorem closed_of_found {visited : List Record} (hvisited : ∀ record,
      record ∈ visited ↔ ∃ id, index.lookup id = some record)
    (hfound : visited.all (parentFound index) = true) : Closed index := by
  intro id parent hparent
  obtain ⟨record, hrecord, hparent⟩ := Option.bind_eq_some_iff.mp hparent
  have hrecord := List.all_eq_true.mp hfound record ((hvisited record).mpr ⟨id, hrecord⟩)
  simpa [parentFound, hparent] using hrecord

theorem checkCyclesIn_congr (hlookup : ∀ id, index'.lookup id = index.lookup id)
    (hclosed : Closed index) (hclosed' : Closed index') (order order' : Order fun _ : ID => Record) :
    (∃ states states', checkCyclesIn ((order.visit index).map Sigma.fst) index = .ok states ∧
      checkCyclesIn ((order'.visit index').map Sigma.fst) index' = .ok states') ∨
    (checkCyclesIn ((order.visit index).map Sigma.fst) index = .error [.cycle] ∧
      checkCyclesIn ((order'.visit index').map Sigma.fst) index' = .error [.cycle]) := by
  obtain ⟨hok, hcycle⟩ := checkCyclesIn_spec hclosed order
  obtain ⟨hok', hcycle'⟩ := checkCyclesIn_spec hclosed' order'
  by_cases hrooted : ∀ id ∈ index, Rooted index id
  · have hrooted' : ∀ id ∈ index', Rooted index' id := fun id hid =>
      (hrooted id ((mem_index_iff hlookup id).mp hid)).congr hlookup
    obtain ⟨states, hstates⟩ := hok hrooted
    obtain ⟨states', hstates'⟩ := hok' hrooted'
    exact .inl ⟨states, states', hstates, hstates'⟩
  · refine .inr ⟨hcycle hrooted, hcycle' fun h => hrooted fun id hid => ?_⟩
    exact (h id ((mem_index_iff hlookup id).mpr hid)).congr fun id => (hlookup id).symm

/-! ## The order of the records -/

theorem newSnapshot_eq : newSnapshot workspaceID records =
    if !validID workspaceID then .error [.invalidSnapshot]
    else if maxSnapshotRecords < records.length then .error [.invalidSnapshot, .snapshotTooLarge]
    else if records.any fun record => record.apiVersion != apiVersion then
      .error [.unsupportedAPIVersion]
    else if !records.all Record.validIDs then .error [.invalidSnapshot]
    else assemble (fun _ => Order.listed _) workspaceID records := by
  unfold newSnapshot validateRecords
  cases records.any fun record => record.apiVersion != apiVersion with
  | true => rfl
  | false =>
    cases records.all Record.validIDs with
    | false | true => rfl

theorem assemble_same (hperm : records'.Perm records) : SameResult
    (assemble orders' workspaceID records') (assemble orders workspaceID records) := by
  unfold assemble
  cases hindex : indexRecords records with
  | error =>
    cases hindex' : indexRecords records' with
    | error => exact (indexRecords_error hindex').trans (indexRecords_error hindex).symm
    | ok =>
      obtain ⟨index, hok⟩ := indexRecords_ok
        ((hperm.map Record.id).nodup_iff.mp (indexRecords_lists hindex').nodup)
      rw [hindex] at hok
      cases hok
  | ok index =>
    have hlists := indexRecords_lists hindex
    obtain ⟨index', hindex'⟩ := indexRecords_ok
      ((hperm.map Record.id).nodup_iff.mpr hlists.nodup)
    have hlookup := hlists.lookup_eq (indexRecords_lists hindex') hperm
    have hvisited : ∀ loop record, record ∈ ((orders' loop).visit index').map Sigma.snd ↔
        record ∈ ((orders loop).visit index).map Sigma.snd := by
      intro loop record
      rw [mem_visited, mem_visited]
      simp only [hlookup]
    have hfound := all_congr (hvisited 3) (parentFound_congr hlookup)
    rw [hindex']
    dsimp only
    rw [any_congr (hvisited 0) fun _ => rfl, hlookup, any_congr (hvisited 1) fun _ => rfl,
      any_congr (hvisited 2) fun _ => rfl, hfound,
      all_congr (hvisited 5) (parentKindFits_congr hlookup)]
    by_cases hall : (((orders 3).visit index).map Sigma.snd).all (parentFound index) = true
    · rcases checkCyclesIn_congr hlookup (closed_of_found mem_visited hall)
          (closed_of_found mem_visited (hfound.trans hall)) (orders 4) (orders' 4) with
        ⟨states, states', hstates, hstates'⟩ | ⟨hcycle, hcycle'⟩
      · rw [hstates, hstates']
        split_ifs
        -- the six checks around the walk, in their order, and then the snapshot
        · exact rfl
        · exact rfl
        · exact rfl
        · exact rfl
        · exact rfl
        · exact rfl
        · refine ⟨rfl, rfl, hlookup, fun id => ?_⟩
          simp only [List.mem_filterMap, hvisited]
      · rw [hcycle, hcycle']
        split_ifs <;> exact rfl
    · simp only [hall, Bool.not_false, if_true]
      split_ifs <;> exact rfl

variable {supplied : List SuppliedRecord}

theorem parse_versions (hkinds : ∀ record ∈ supplied, (parseKind record.kind).isSome = true) :
    (supplied.filterMap SuppliedRecord.parse).map Record.apiVersion =
      supplied.map SuppliedRecord.apiVersion := by
  induction supplied with
  | nil => rfl
  | cons record rest ih =>
    obtain ⟨kind, hkind⟩ := Option.isSome_iff_exists.mp (hkinds record List.mem_cons_self)
    have hparse : record.parse = some ⟨record.apiVersion, record.id, kind, record.workspaceID,
        record.parent⟩ := by rw [SuppliedRecord.parse, hkind, Option.map_some]
    rw [List.filterMap_cons_some hparse, List.map_cons, List.map_cons,
      ih fun other hother => hkinds other (List.mem_cons_of_mem _ hother)]

/-- With known kinds the result is that of `newSnapshot`, in any order. -/
theorem newSnapshotIn_same (hkinds : ∀ record ∈ supplied, (parseKind record.kind).isSome = true)
    (hperm : records.Perm (supplied.filterMap SuppliedRecord.parse)) :
    SameResult (newSnapshotIn orders workspaceID supplied) (newSnapshot workspaceID records) := by
  have hmem : ∀ record, record ∈ supplied.filterMap SuppliedRecord.parse ↔ record ∈ records :=
    fun record => hperm.mem_iff.symm
  have hversions := parse_versions hkinds
  have hlength : supplied.length = records.length := by
    rw [hperm.length_eq, ← List.length_map Record.apiVersion, hversions, List.length_map]
  have hversion : (supplied.any fun record => record.apiVersion != apiVersion) =
      records.any fun record => record.apiVersion != apiVersion := by
    rw [← any_congr hmem fun _ => rfl]
    change supplied.any ((· != apiVersion) ∘ SuppliedRecord.apiVersion) =
      (supplied.filterMap SuppliedRecord.parse).any ((· != apiVersion) ∘ Record.apiVersion)
    rw [← List.any_map, ← List.any_map, hversions]
  have hknown : ¬ (supplied.any fun record => (parseKind record.kind).isNone) = true := by
    simpa [List.any_eq_true, Option.isSome_iff_ne_none] using hkinds
  rw [newSnapshot_eq]
  unfold newSnapshotIn
  rw [hversion, hlength, all_congr hmem fun _ => rfl, if_neg hknown]
  split_ifs
  · rfl
  · rfl
  · rfl
  · rfl
  · exact assemble_same hperm.symm

theorem SameResult.symm {left right : Except Failure Snapshot} (h : SameResult left right) :
    SameResult right left := by
  cases left <;> cases right
  · exact Eq.symm h
  · exact h
  · exact h
  · exact ⟨h.1.symm, h.2.1.symm, fun id => (h.2.2.1 id).symm, fun id => (h.2.2.2 id).symm⟩

theorem SameResult.trans {left middle right : Except Failure Snapshot}
    (h : SameResult left middle) (h' : SameResult middle right) : SameResult left right := by
  cases left <;> cases middle <;> cases right <;> first | exact h.elim | exact h'.elim | skip
  · exact Eq.trans h h'
  · exact ⟨h.1.trans h'.1, h.2.1.trans h'.2.1, fun id => (h.2.2.1 id).trans (h'.2.2.1 id),
      fun id => (h.2.2.2 id).trans (h'.2.2.2 id)⟩

theorem newSnapshotIn_perm {supplied' : List SuppliedRecord} (hperm : supplied'.Perm supplied) :
    SameResult (newSnapshotIn orders' workspaceID supplied')
      (newSnapshotIn orders workspaceID supplied) := by
  by_cases hkinds : ∀ record ∈ supplied, (parseKind record.kind).isSome = true
  · have hkinds' : ∀ record ∈ supplied', (parseKind record.kind).isSome = true :=
      fun record hrecord => hkinds record (hperm.mem_iff.mp hrecord)
    exact (newSnapshotIn_same hkinds' (hperm.symm.filterMap _)).trans
      (newSnapshotIn_same hkinds (.refl _)).symm
  · have hmem : ∀ record, record ∈ supplied' ↔ record ∈ supplied := fun record => hperm.mem_iff
    have hunknown : (supplied.any fun record => (parseKind record.kind).isNone) = true := by
      simpa [List.any_eq_true, Option.isSome_iff_ne_none] using hkinds
    unfold newSnapshotIn
    rw [hperm.length_eq, any_congr hmem fun _ => rfl, any_congr hmem fun _ => rfl, hunknown,
      if_pos rfl, if_pos rfl]
    split_ifs <;> exact rfl

/-! ## Acceptance -/

/-- The resource some steps above another one. -/
def ancestor (index : RecordIndex) : Nat → ID → Option ID
  | 0, id => some id
  | steps + 1, id => (parentIn index id).bind (ancestor index steps)

theorem ancestor_congr (hlookup : ∀ id, index'.lookup id = index.lookup id) (steps : Nat) (id : ID) :
    ancestor index' steps id = ancestor index steps id := by
  induction steps generalizing id with
  | zero => rfl
  | succ steps ih => simp only [ancestor, parentIn, hlookup, ih]

theorem expectedParentKind_succ {kind parent : Kind} (h : expectedParentKind kind = some parent) :
    kind.depth = parent.depth + 1 := by
  cases kind <;> cases parent <;> first | rfl | cases h

theorem Acceptable.ancestor_root (h : Acceptable workspaceID records) (hlists : Lists records index)
    {record : Record} (hrecord : record ∈ records) :
    ancestor index record.kind.depth record.id = some workspaceID := by
  induction hdepth : record.kind.depth generalizing record with
  | zero =>
    have hkind : record.kind = .workspace := by
      revert hdepth
      cases record.kind <;> decide
    rw [ancestor, (h.owned record hrecord).2 hkind]
  | succ depth ih =>
    have hkind : record.kind ≠ .workspace := by
      intro hkind
      rw [hkind] at hdepth
      cases hdepth
    obtain ⟨above, habove, hparent, hexpected⟩ := h.parent record hrecord hkind
    rw [ancestor, parentIn, hlists.lookup_iff.mpr ⟨hrecord, rfl⟩, Option.bind_some, hparent,
      Option.bind_some]
    apply ih habove
    have hsucc := expectedParentKind_succ hexpected
    omega

/-- A snapshot accepts exactly the record sets that form a product tree. Every resource in it is at
most three steps below the root, and no order shows in the result. -/
theorem snapshot_exact (orders : Nat → Order fun _ : ID => Record) (workspaceID : ID)
    (supplied : List SuppliedRecord) :
    ((∃ snapshot, newSnapshotIn orders workspaceID supplied = .ok snapshot) ↔
      (∀ record ∈ supplied, (parseKind record.kind).isSome = true) ∧
        Acceptable workspaceID (supplied.filterMap SuppliedRecord.parse)) ∧
    (∀ snapshot, newSnapshotIn orders workspaceID supplied = .ok snapshot →
      ∀ id ∈ snapshot.records, ∃ steps ≤ 3,
        ancestor snapshot.records steps id = some workspaceID) ∧
    ∀ (orders' : Nat → Order fun _ : ID => Record) (supplied' : List SuppliedRecord),
      supplied'.Perm supplied → SameResult (newSnapshotIn orders' workspaceID supplied')
        (newSnapshotIn orders workspaceID supplied) := by
  have haccept : ∀ snapshot, newSnapshotIn orders workspaceID supplied = .ok snapshot →
      (∀ record ∈ supplied, (parseKind record.kind).isSome = true) ∧
        ∃ plain, newSnapshot workspaceID (supplied.filterMap SuppliedRecord.parse) = .ok plain ∧
          ∀ id, snapshot.records.lookup id = plain.records.lookup id := by
    intro snapshot hsnapshot
    have hkinds : ∀ record ∈ supplied, (parseKind record.kind).isSome = true := by
      by_contra hunknown
      have hany : (supplied.any fun record => (parseKind record.kind).isNone) = true := by
        simpa [List.any_eq_true, Option.isSome_iff_ne_none] using hunknown
      unfold newSnapshotIn at hsnapshot
      rw [hany, if_pos rfl] at hsnapshot
      split_ifs at hsnapshot
    have hsame : SameResult (newSnapshotIn orders workspaceID supplied) _ :=
      newSnapshotIn_same hkinds (.refl _)
    rw [hsnapshot] at hsame
    cases hplain : newSnapshot workspaceID (supplied.filterMap SuppliedRecord.parse) with
    | error =>
      rw [hplain] at hsame
      exact hsame.elim
    | ok plain =>
      rw [hplain] at hsame
      exact ⟨hkinds, plain, rfl, hsame.2.2.1⟩
  refine ⟨⟨?_, ?_⟩, ?_, fun orders' supplied' hperm => newSnapshotIn_perm hperm⟩
  · rintro ⟨snapshot, hsnapshot⟩
    obtain ⟨hkinds, plain, hplain, -⟩ := haccept snapshot hsnapshot
    exact ⟨hkinds, (newSnapshot_ok hplain).1⟩
  · rintro ⟨hkinds, haccepted⟩
    obtain ⟨plain, hplain⟩ := haccepted.newSnapshot_ok
    have hsame : SameResult (newSnapshotIn orders workspaceID supplied) _ :=
      newSnapshotIn_same hkinds (.refl _)
    rw [hplain] at hsame
    cases hsnapshot : newSnapshotIn orders workspaceID supplied with
    | error =>
      rw [hsnapshot] at hsame
      exact hsame.elim
    | ok snapshot => exact ⟨snapshot, rfl⟩
  · intro snapshot hsnapshot id hid
    obtain ⟨-, plain, hplain, hlookup⟩ := haccept snapshot hsnapshot
    obtain ⟨haccepted, hlists, -⟩ := newSnapshot_ok hplain
    obtain ⟨record, hrecord, rfl⟩ := hlists.mem_iff.mp ((mem_index_iff hlookup id).mp hid)
    refine ⟨record.kind.depth, by cases record.kind <;> decide, ?_⟩
    rw [ancestor_congr hlookup]
    exact haccepted.ancestor_root hlists hrecord

end Veer.Hierarchy
