import Veer.Hierarchy
import Veer.StepMachine

/-!
# Valid hierarchies are closed under the mutations they admit

`NewSnapshot` checks a whole record set in stages; `DeriveChild` and `CheckDelete` look at one
record. Acceptance is first put as one condition on the set of records, in which the cycle walk no
longer occurs: a parent always has a kind nearer to the root.
-/
namespace Veer.Hierarchy
open Reconcile (ID validID)

/-! ## The cycle walk -/

/-- The distance of a kind from the root. -/
def Kind.depth : Kind → Nat
  | .workspace => 0
  | .environment => 1
  | .application => 2
  | .component => 3
  | .policy => 1
  | .providerConnection => 2

theorem expectedParentKind_depth {kind parent : Kind} (h : expectedParentKind kind = some parent) :
    parent.depth < kind.depth := by
  cases kind <;> simp only [expectedParentKind, Option.some.injEq, reduceCtorEq] at h <;>
    subst h <;> decide

/-- Every parent is indexed and nearer to the root. -/
def Ranked (index : RecordIndex) : Prop :=
  ∀ id record parent, index.lookup id = some record → record.parent = some parent →
    ∃ above, index.lookup parent = some above ∧ above.kind.depth < record.kind.depth

variable {index : RecordIndex}

/-- Between two walks every marked resource is indexed and processed. -/
structure Settled (index : RecordIndex) (state : WalkStates) : Prop where
  indexed : ∀ id ∈ state, id ∈ index
  processed : ∀ id, state.lookup id ≠ some .current

theorem lookup_closeWalk (state : WalkStates) (path : List ID) (id : ID) :
    (closeWalk state path).lookup id = if id ∈ path then some .processed else state.lookup id := by
  unfold closeWalk
  induction path generalizing state with
  | nil => simp
  | cons first rest ih =>
    rw [List.foldl_cons, ih]
    by_cases hrest : id ∈ rest
    · simp [hrest]
    by_cases hfirst : id = first
    · subst hfirst
      simp [hrest, AList.lookup_insert]
    · simp [hrest, hfirst, AList.lookup_insert_ne hfirst]

/-- The marks while a walk is under way: what it met itself lies on its path. -/
structure Marking (index : RecordIndex) (state : WalkStates) (path : List ID) : Prop where
  indexed : ∀ id ∈ state, id ∈ index
  onPath : ∀ id ∈ path, id ∈ index
  current : ∀ id, state.lookup id = some .current → id ∈ path

variable {path : List ID}
variable {state : WalkStates}

theorem Marking.settled (h : Marking index state path) : Settled index (closeWalk state path) := by
  refine ⟨fun id hid => ?_, fun id hid => ?_⟩
  · rw [← AList.lookup_isSome, lookup_closeWalk] at hid
    split_ifs at hid with hmem
    · exact h.onPath id hmem
    · exact h.indexed id (AList.lookup_isSome.mp hid)
  · rw [lookup_closeWalk] at hid
    split_ifs at hid with hmem
    · cases hid
    · exact hmem (h.current id hid)

theorem Marking.mark {current : ID} (h : Marking index state path) (hcurrent : current ∈ index) :
    Marking index (state.insert current .current) (path ++ [current]) := by
  refine ⟨fun id hid => ?_, fun id hid => ?_, fun id hid => ?_⟩
  · rcases (AList.mem_insert _).mp hid with rfl | hid
    · exact hcurrent
    · exact h.indexed id hid
  · rcases List.mem_append.mp hid with hid | hid
    · exact h.onPath id hid
    · rw [List.mem_singleton.mp hid]
      exact hcurrent
  · by_cases hid' : id = current
    · rw [hid']
      exact List.mem_append_right _ (List.mem_singleton_self _)
    · rw [AList.lookup_insert_ne hid'] at hid
      exact List.mem_append_left _ (h.current id hid)

theorem keys_length_le (h : ∀ id ∈ state, id ∈ index) : state.keys.length ≤ index.keys.length :=
  (List.subperm_of_subset state.keys_nodup fun id hid => h id hid).length_le

/-- The resource that the walk goes on to. -/
def parentIn (index : RecordIndex) (id : ID) : Option ID := (index.lookup id).bind Record.parent

def Closed (index : RecordIndex) : Prop :=
  ∀ id parent, parentIn index id = some parent → parent ∈ index

/-- Going up from a resource ends at one without a parent. -/
inductive Rooted (index : RecordIndex) : ID → Prop
  | root {id : ID} (top : parentIn index id = none) : Rooted index id
  | step {id parent : ID} (up : parentIn index id = some parent) (rooted : Rooted index parent) :
    Rooted index id

/-- At least one step up leads from the first resource to the second. -/
def Below (index : RecordIndex) : ID → ID → Prop :=
  Relation.TransGen fun id parent => parentIn index id = some parent

variable {id : ID}

theorem Rooted.parent {parent : ID} (h : Rooted index id)
    (hparent : parentIn index id = some parent) : Rooted index parent := by
  cases h with
  | root top =>
    rw [top] at hparent
    cases hparent
  | step up =>
    rw [up] at hparent
    rwa [← Option.some.inj hparent]

theorem Rooted.of_below {above : ID} (h : Rooted index above) (hbelow : Below index id above) :
    Rooted index id := by
  induction hbelow using Relation.TransGen.head_induction_on with
  | single up => exact .step up h
  | head up _ ih => exact .step up ih

theorem Rooted.not_below (h : Rooted index id) : ¬ Below index id id := by
  induction h with
  | root top =>
    intro hbelow
    obtain ⟨parent, hparent, -⟩ := Relation.TransGen.head'_iff.mp hbelow
    rw [top] at hparent
    cases hparent
  | step up _ ih =>
    intro hbelow
    obtain ⟨parent, hparent, hrest⟩ := Relation.TransGen.head'_iff.mp hbelow
    rw [up] at hparent
    cases hparent
    exact ih (Relation.TransGen.tail' hrest up)

theorem Marking.rooted (h : Marking index state path)
    (hprocessed : ∀ id, state.lookup id = some .processed → Rooted index id)
    (hpath : ∀ id ∈ path, Rooted index id) : ∀ id ∈ closeWalk state path, Rooted index id := by
  intro id hid
  rw [← AList.lookup_isSome, lookup_closeWalk] at hid
  split_ifs at hid with hmem
  · exact hpath id hmem
  obtain ⟨mark, hmark⟩ := Option.isSome_iff_exists.mp hid
  cases mark with
  | current => exact absurd (h.current id hmark) hmem
  | processed => exact hprocessed id hmark

/-- A walk ends, and it reports a cycle exactly when its resource is not rooted. -/
theorem walk_spec (hclosed : Closed index) (fuel : Nat) {current : ID} (hcurrent : current ∈ index)
    (hmarking : Marking index state path)
    (hprocessed : ∀ id, state.lookup id = some .processed → Rooted index id)
    (hpath : ∀ id ∈ path, Below index id current)
    (hfuel : index.keys.length < fuel + state.keys.length) :
    (Rooted index current → ∃ settled, walk index fuel state path current = .ok settled ∧
      Settled index settled ∧ ∀ id ∈ settled, Rooted index id) ∧
    (¬ Rooted index current → walk index fuel state path current = .error [.cycle]) := by
  induction fuel generalizing state path current with
  | zero =>
    have hle := keys_length_le hmarking.indexed
    omega
  | succ fuel ih =>
    unfold walk
    cases hstate : state.lookup current with
    | some mark =>
      cases mark with
      | current =>
        -- the walk stands on its own path, so going up never ends
        have hcycle := hpath current (hmarking.current current hstate)
        exact ⟨fun hrooted => absurd hcycle hrooted.not_below, fun _ => rfl⟩
      | processed =>
        have hrooted := hprocessed current hstate
        exact ⟨fun _ => ⟨_, rfl, hmarking.settled, hmarking.rooted hprocessed fun id hid =>
          hrooted.of_below (hpath id hid)⟩, fun h => absurd hrooted h⟩
    | none =>
      have hnew : current ∉ state := AList.lookup_eq_none.mp hstate
      have hlength : (state.insert current WalkState.current).keys.length =
          state.keys.length + 1 := by
        rw [AList.keys_insert, List.length_cons, List.erase_of_not_mem hnew]
      have hmark := hmarking.mark hcurrent
      have hprocessed' : ∀ id, (state.insert current WalkState.current).lookup id =
          some .processed → Rooted index id := by
        intro id hid
        by_cases hsame : id = current
        · rw [hsame, AList.lookup_insert] at hid
          cases hid
        · rw [AList.lookup_insert_ne hsame] at hid
          exact hprocessed id hid
      cases hparent : parentIn index current with
      | none =>
        have hrooted : Rooted index current := .root hparent
        have hall : ∀ id ∈ path ++ [current], Rooted index id := by
          intro id hid
          rcases List.mem_append.mp hid with hid | hid
          · exact hrooted.of_below (hpath id hid)
          · rwa [List.mem_singleton.mp hid]
        unfold parentIn at hparent
        rw [hparent]
        exact ⟨fun _ => ⟨_, rfl, hmark.settled, hmark.rooted hprocessed' hall⟩,
          fun h => absurd hrooted h⟩
      | some parent =>
        have hbelow : ∀ id ∈ path ++ [current], Below index id parent := by
          intro id hid
          rcases List.mem_append.mp hid with hid | hid
          · exact (hpath id hid).tail hparent
          · rw [List.mem_singleton.mp hid]
            exact .single hparent
        have hrest := ih (hclosed current parent hparent) hmark hprocessed' hbelow (by omega)
        refine ⟨fun hrooted => ?_, fun hrooted => ?_⟩
        · obtain ⟨settled, hwalk, hsettled⟩ := hrest.1 (hrooted.parent hparent)
          unfold parentIn at hparent
          exact ⟨settled, by simpa only [hparent] using hwalk, hsettled⟩
        · have hwalk := hrest.2 fun h => hrooted (.step hparent h)
          unfold parentIn at hparent
          simpa only [hparent] using hwalk

/-- The walks from all the starts report a cycle exactly when one of them is not rooted. -/
theorem walks_spec (hclosed : Closed index) (starts : List ID) (hstarts : ∀ id ∈ starts, id ∈ index)
    (hsettled : Settled index state) (hrooted : ∀ id ∈ state, Rooted index id) :
    ((∀ id ∈ starts, Rooted index id) → ∃ states, starts.foldlM (fun state start =>
        if start ∈ state then .ok state
        else walk index (index.keys.length + 1) state [] start) state = .ok states) ∧
      (¬ (∀ id ∈ starts, Rooted index id) → starts.foldlM (fun state start =>
        if start ∈ state then .ok state
        else walk index (index.keys.length + 1) state [] start) state = .error [.cycle]) := by
  induction starts generalizing state with
  | nil => exact ⟨fun _ => ⟨state, rfl⟩, fun h => absurd (fun id hid => by cases hid) h⟩
  | cons start rest ih =>
    have hrest : ∀ id ∈ rest, id ∈ index := fun id hid => hstarts id (List.mem_cons_of_mem _ hid)
    rw [List.foldlM_cons, List.forall_mem_cons]
    split_ifs with hseen
    · obtain ⟨hok, hcycle⟩ := ih hrest hsettled hrooted
      exact ⟨fun h => hok h.2, fun h => hcycle fun hall => h ⟨hrooted start hseen, hall⟩⟩
    have hmarking : Marking index state [] :=
      ⟨hsettled.indexed, fun id hid => (List.not_mem_nil hid).elim,
        fun id hid => (hsettled.processed id hid).elim⟩
    obtain ⟨hok, hcycle⟩ := walk_spec hclosed (index.keys.length + 1)
      (hstarts start List.mem_cons_self) hmarking
      (fun id hid => hrooted id (AList.lookup_isSome.mp (by rw [hid]; rfl)))
      (fun id hid => (List.not_mem_nil hid).elim) (by omega)
    by_cases hstart : Rooted index start
    · obtain ⟨next, hnext, hsettled', hrooted'⟩ := hok hstart
      rw [hnext]
      obtain ⟨hok', hcycle'⟩ := ih hrest hsettled' hrooted'
      exact ⟨fun h => hok' h.2, fun h => hcycle' fun hall => h ⟨hstart, hall⟩⟩
    · rw [hcycle hstart]
      exact ⟨fun h => absurd h.1 hstart, fun _ => rfl⟩

theorem settled_empty (index : RecordIndex) : Settled index ∅ :=
  ⟨fun id hid => by simp at hid, fun id hid => by simp at hid⟩

theorem Ranked.rooted (hranked : Ranked index) (hid : id ∈ index) : Rooted index id := by
  obtain ⟨record, hrecord⟩ := Option.isSome_iff_exists.mp (AList.lookup_isSome.mpr hid)
  induction hdepth : record.kind.depth using Nat.strong_induction_on generalizing id record with
  | _ depth ih =>
    cases hparent : record.parent with
    | none => exact .root (by rw [parentIn, hrecord, Option.bind_some, hparent])
    | some parent =>
      obtain ⟨above, habove, hlt⟩ := hranked id record parent hrecord hparent
      exact .step (by rw [parentIn, hrecord, Option.bind_some, hparent])
        (ih above.kind.depth (hdepth ▸ hlt) (AList.lookup_isSome.mp (by rw [habove]; rfl)) above
          habove rfl)

theorem checkCycles_ok (hranked : Ranked index) : ∃ states, checkCycles index = .ok states := by
  have hclosed : Closed index := by
    intro id parent hparent
    obtain ⟨record, hrecord, hparent⟩ := Option.bind_eq_some_iff.mp hparent
    obtain ⟨above, habove, -⟩ := hranked id record parent hrecord hparent
    exact AList.lookup_isSome.mp (by rw [habove]; rfl)
  exact (walks_spec hclosed index.keys (fun id hid => hid) (settled_empty index)
    fun id hid => by simp at hid).1 fun id hid => hranked.rooted hid

/-! ## The index -/

/-- The index lists the records in the opposite order. -/
def Lists (records : List Record) (index : RecordIndex) : Prop :=
  index.entries = (records.map fun record => (⟨record.id, record⟩ : Sigma fun _ : ID => Record)).reverse

variable {records : List Record}

section
variable (h : Lists records index)
include h

theorem Lists.lookup_iff {record : Record} :
    index.lookup id = some record ↔ record ∈ records ∧ record.id = id := by
  rw [← Option.mem_def, AList.mem_lookup_iff, h, List.mem_reverse, List.mem_map]
  constructor
  · rintro ⟨found, hfound, heq⟩
    cases heq
    exact ⟨hfound, rfl⟩
  · rintro ⟨hrecord, rfl⟩
    exact ⟨record, hrecord, rfl⟩

theorem Lists.mem_iff :
    id ∈ index ↔ ∃ record ∈ records, record.id = id := by
  rw [← AList.lookup_isSome, Option.isSome_iff_exists]
  simp only [h.lookup_iff]

theorem Lists.values :
    index.values = records.reverse := by
  unfold RecordIndex.values
  rw [h, List.map_reverse, List.map_map]
  congr 1
  exact List.map_id _

theorem Lists.keys :
    index.keys = (records.map Record.id).reverse := by
  unfold AList.keys List.keys
  rw [h, List.map_reverse, List.map_map]
  rfl

theorem Lists.nodup :
    (records.map Record.id).Nodup := by
  have hkeys := index.keys_nodup
  rwa [h.keys, List.nodup_reverse] at hkeys

theorem Lists.insert {record : Record}
    (hnew : record.id ∉ index) : Lists (records ++ [record]) (index.insert record.id record) := by
  unfold Lists
  rw [AList.entries_insert_of_notMem hnew, h]
  simp

end

theorem indexRecords_lists (h : indexRecords records = .ok index) :
    Lists records index := by
  have hempty : Lists [] ∅ := rfl
  refine StepMachine.foldlM_ok_rule (P := Lists) (fun done b record b' hdone hstep => ?_) hempty h
  split_ifs at hstep with hseen
  cases hstep
  exact hdone.insert hseen

theorem indexRecords_ok (h : (records.map Record.id).Nodup) :
    ∃ index, indexRecords records = .ok index := by
  have hloop : ∀ (rest done : List Record) (index : RecordIndex), Lists done index →
      ((done ++ rest).map Record.id).Nodup → ∃ index', rest.foldlM (fun index record =>
        if record.id ∈ index then .error [Sentinel.duplicateID]
        else .ok (index.insert record.id record)) index = (.ok index' : Except Failure RecordIndex) := by
    intro rest
    induction rest with
    | nil => exact fun done index _ _ => ⟨index, rfl⟩
    | cons record rest ih =>
      intro done index hlists hnodup
      have hnew : record.id ∉ index := by
        intro hmem
        obtain ⟨other, hother, hid⟩ := hlists.mem_iff.mp hmem
        rw [List.map_append, List.map_cons] at hnodup
        exact (List.nodup_append.mp hnodup).2.2 other.id (List.mem_map_of_mem hother) record.id
          List.mem_cons_self hid
      rw [List.foldlM_cons, if_neg hnew]
      refine ih (done ++ [record]) _ (hlists.insert hnew) ?_
      rwa [List.append_assoc]
  exact hloop records [] ∅ rfl h

/-! ## Acceptance as a condition on a set of records -/

structure Acceptable (workspaceID : ID) (records : List Record) : Prop where
  workspace : validID workspaceID = true
  count : records.length ≤ maxSnapshotRecords
  valid : ∀ record ∈ records, record.apiVersion = apiVersion ∧ record.validIDs = true
  distinct : (records.map Record.id).Nodup
  owned : ∀ record ∈ records, record.workspaceID = workspaceID ∧
    (record.kind = .workspace → record.id = workspaceID)
  root : ∃ record ∈ records, record.id = workspaceID ∧ record.kind = .workspace
  parentless : ∀ record ∈ records, record.kind = .workspace → record.parent = none
  parent : ∀ record ∈ records, record.kind ≠ .workspace → ∃ above ∈ records,
    record.parent = some above.id ∧ expectedParentKind record.kind = some above.kind

variable {workspaceID : ID} {rest : List Record} {snapshot : Snapshot}

theorem Acceptable.perm (h : Acceptable workspaceID records) (hperm : rest.Perm records) :
    Acceptable workspaceID rest where
  workspace := h.workspace
  count := hperm.length_eq ▸ h.count
  valid := fun record hrecord => h.valid record (hperm.mem_iff.mp hrecord)
  distinct := (hperm.map Record.id).nodup_iff.mpr h.distinct
  owned := fun record hrecord => h.owned record (hperm.mem_iff.mp hrecord)
  root := by
    obtain ⟨record, hrecord, hroot⟩ := h.root
    exact ⟨record, hperm.mem_iff.mpr hrecord, hroot⟩
  parentless := fun record hrecord => h.parentless record (hperm.mem_iff.mp hrecord)
  parent := fun record hrecord hkind => by
    obtain ⟨above, habove, hparent⟩ := h.parent record (hperm.mem_iff.mp hrecord) hkind
    exact ⟨above, hperm.mem_iff.mpr habove, hparent⟩

theorem Acceptable.above (h : Acceptable workspaceID records) {record : Record}
    (hrecord : record ∈ records) {parent : ID} (hparent : record.parent = some parent) :
    ∃ above ∈ records, above.id = parent ∧ expectedParentKind record.kind = some above.kind := by
  have hkind : record.kind ≠ .workspace := by
    intro hkind
    rw [h.parentless record hrecord hkind] at hparent
    cases hparent
  obtain ⟨above, habove, hid, hexpected⟩ := h.parent record hrecord hkind
  rw [hparent, Option.some.injEq] at hid
  exact ⟨above, habove, hid.symm, hexpected⟩

theorem Acceptable.ranked (h : Acceptable workspaceID records) (hlists : Lists records index) :
    Ranked index := by
  intro id record parent hrecord hparent
  obtain ⟨above, habove, hid, hexpected⟩ := h.above (hlists.lookup_iff.mp hrecord).1 hparent
  exact ⟨above, hlists.lookup_iff.mpr ⟨habove, hid⟩, expectedParentKind_depth hexpected⟩

theorem validateRecords_ok_iff :
    validateRecords records = .ok () ↔
      ∀ record ∈ records, record.apiVersion = apiVersion ∧ record.validIDs = true := by
  unfold validateRecords
  split_ifs with hversion hids
  · simp only [false_iff]
    intro h
    obtain ⟨record, hrecord, hne⟩ := List.any_eq_true.mp hversion
    exact (bne_iff_ne.mp hne) (h record hrecord).1
  · simp only [true_iff]
    intro record hrecord
    refine ⟨?_, List.all_eq_true.mp hids record hrecord⟩
    by_contra hne
    exact hversion (List.any_eq_true.mpr ⟨record, hrecord, bne_iff_ne.mpr hne⟩)
  · simp only [false_iff]
    intro h
    exact hids (List.all_eq_true.mpr fun record hrecord => (h record hrecord).2)

/-! ### The tests over the index -/

variable {values : List Record}

theorem owned_iff :
    (¬ (values.any fun record => record.workspaceID != workspaceID ||
        (record.kind == .workspace && record.id != workspaceID)) = true) ↔
      ∀ record ∈ values, record.workspaceID = workspaceID ∧
        (record.kind = .workspace → record.id = workspaceID) := by
  simp only [List.any_eq_true, Bool.or_eq_true, Bool.and_eq_true, bne_iff_ne, beq_iff_eq, not_exists,
    not_and, not_or, ne_eq, not_not]

theorem parentless_iff :
    (¬ (values.any fun record => record.kind == .workspace && record.parent.isSome) = true) ↔
      ∀ record ∈ values, record.kind = .workspace → record.parent = none := by
  simp only [List.any_eq_true, Bool.and_eq_true, beq_iff_eq, not_exists, not_and,
    Bool.not_eq_true, Option.isSome_eq_false_iff, Option.isNone_iff_eq_none]

theorem parented_iff :
    (¬ (values.any fun record => record.kind != .workspace && record.parent.isNone) = true) ↔
      ∀ record ∈ values, record.kind ≠ .workspace → record.parent ≠ none := by
  simp only [List.any_eq_true, Bool.and_eq_true, bne_iff_ne, not_exists, not_and,
    Option.isNone_iff_eq_none, ne_eq]

theorem Lists.root_iff (hlists : Lists records index) :
    (index.lookup workspaceID).map Record.kind = some .workspace ↔
      ∃ record ∈ records, record.id = workspaceID ∧ record.kind = .workspace := by
  simp only [Option.map_eq_some_iff, hlists.lookup_iff, and_assoc]

theorem Lists.parentFound_iff (hlists : Lists records index) {record : Record} :
    parentFound index record = true ↔
      ∀ parent, record.parent = some parent → ∃ above ∈ records, above.id = parent := by
  unfold parentFound
  cases record.parent with
  | none => simp
  | some => simp [hlists.mem_iff]

theorem Lists.parentKindFits_iff (hlists : Lists records index) {record : Record}
    (hfound : parentFound index record = true) :
    parentKindFits index record = true ↔ ∀ parent, record.parent = some parent →
      ∃ above ∈ records, above.id = parent ∧ expectedParentKind record.kind = some above.kind := by
  unfold parentKindFits
  cases hparent : record.parent with
  | none => simp
  | some parent =>
    obtain ⟨above, habove, hid⟩ := hlists.parentFound_iff.mp hfound parent hparent
    have hlookup : index.lookup parent = some above := hlists.lookup_iff.mpr ⟨habove, hid⟩
    simp only [Option.all_some, hlookup, Option.map_some, beq_iff_eq, Option.some.injEq,
      forall_eq']
    constructor
    · intro hkind
      exact ⟨above, habove, hid, hkind.symm⟩
    · rintro ⟨other, hother, hother', hkind⟩
      have hsame := hlists.lookup_iff.mpr ⟨hother, hother'⟩
      rw [hlookup, Option.some.injEq] at hsame
      rw [hkind, hsame]

theorem newSnapshot_ok (h : newSnapshot workspaceID records = .ok snapshot) :
    Acceptable workspaceID records ∧ Lists records snapshot.records ∧
      snapshot.initialized = true ∧ snapshot.workspaceID = workspaceID ∧
      snapshot.hasChild = snapshot.records.values.filterMap Record.parent := by
  revert h
  fun_cases newSnapshot workspaceID records
  case case12 hworkspace hcount hvalid index hindex howned hroot hparentless hparented hfound
      states hcycles hfits =>
    intro h
    cases h
    have hlists := indexRecords_lists hindex
    have hvalues : ∀ record ∈ records, record ∈ index.values := fun record hrecord => by
      rwa [hlists.values, List.mem_reverse]
    have hallFound : index.values.all (parentFound index) = true := by simpa using hfound
    have hallFits : index.values.all (parentKindFits index) = true := by simpa using hfits
    refine ⟨⟨?_, not_lt.mp hcount, validateRecords_ok_iff.mp hvalid, hlists.nodup, ?_, ?_, ?_, ?_⟩,
      hlists, rfl, rfl, rfl⟩
    · simpa using hworkspace
    · exact fun record hrecord => owned_iff.mp howned record (hvalues record hrecord)
    · exact hlists.root_iff.mp (not_not.mp hroot)
    · exact fun record hrecord => parentless_iff.mp hparentless record (hvalues record hrecord)
    · intro record hrecord hkind
      have hmem := hvalues record hrecord
      obtain ⟨parent, hparent⟩ := Option.ne_none_iff_exists'.mp
        (parented_iff.mp hparented record hmem hkind)
      obtain ⟨above, habove, hid, hexpected⟩ := (hlists.parentKindFits_iff
        (List.all_eq_true.mp hallFound record hmem)).mp (List.all_eq_true.mp hallFits record hmem)
          parent hparent
      exact ⟨above, habove, hid ▸ hparent, hexpected⟩
  all_goals exact nofun

theorem Acceptable.newSnapshot_ok (h : Acceptable workspaceID records) :
    ∃ snapshot, newSnapshot workspaceID records = .ok snapshot := by
  obtain ⟨index, hindex⟩ := indexRecords_ok h.distinct
  have hlists := indexRecords_lists hindex
  have hvalues : ∀ record ∈ index.values, record ∈ records := fun record hrecord => by
    rwa [hlists.values, List.mem_reverse] at hrecord
  obtain ⟨states, hcycles⟩ := checkCycles_ok (h.ranked hlists)
  have hfound : ∀ record ∈ index.values, parentFound index record = true := by
    intro record hrecord
    refine hlists.parentFound_iff.mpr fun parent hparent => ?_
    obtain ⟨above, habove, hid, -⟩ := h.above (hvalues record hrecord) hparent
    exact ⟨above, habove, hid⟩
  have hfits : ∀ record ∈ index.values, parentKindFits index record = true := fun record hrecord =>
    (hlists.parentKindFits_iff (hfound record hrecord)).mpr fun _ hparent =>
      h.above (hvalues record hrecord) hparent
  have hparented : ∀ record ∈ index.values, record.kind ≠ .workspace → record.parent ≠ none := by
    intro record hrecord hkind
    obtain ⟨above, -, hparent, -⟩ := h.parent record (hvalues record hrecord) hkind
    rw [hparent]
    exact Option.some_ne_none _
  refine ⟨⟨true, workspaceID, index, index.values.filterMap Record.parent⟩, ?_⟩
  unfold newSnapshot
  rw [if_neg (by simp [h.workspace]), if_neg (not_lt.mpr h.count),
    validateRecords_ok_iff.mpr h.valid]
  simp only [hindex]
  rw [if_neg (owned_iff.mpr fun record hrecord => h.owned record (hvalues record hrecord)),
    if_neg (not_not.mpr (hlists.root_iff.mpr h.root)),
    if_neg (parentless_iff.mpr fun record hrecord => h.parentless record (hvalues record hrecord)),
    if_neg (parented_iff.mpr hparented), if_neg (by simpa using hfound), hcycles]
  rw [if_neg (by simpa using hfits)]

/-! ## One record more, one record less -/

/-- The record of a resource that was created from a placement. -/
def Placement.record (placement : Placement) : Record :=
  ⟨apiVersion, placement.id, placement.kind, placement.workspaceID, placement.parent⟩

/-- The records of a snapshot without one of them. -/
def Snapshot.without (snapshot : Snapshot) (id : ID) : List Record :=
  snapshot.records.values.filter fun record => record.id ≠ id

theorem deriveChild_ok {kind : Kind} {parentID : ID} {placement : Placement}
    (h : snapshot.deriveChild kind id parentID = .ok placement) :
    placement = ⟨id, kind, snapshot.workspaceID, some parentID⟩ ∧ kind ≠ .workspace ∧
      validID id = true ∧ validID parentID = true ∧ id ∉ snapshot.records ∧
      ∃ parent, snapshot.records.lookup parentID = some parent ∧
        expectedParentKind kind = some parent.kind := by
  revert h
  fun_cases Snapshot.deriveChild snapshot kind id parentID
  case case9 hkind hid hparentID hnew parent hparent hexpected _ =>
    intro h
    refine ⟨(Except.ok.inj h).symm, hkind, by simpa using hid, by simpa using hparentID, hnew,
      parent, hparent, not_not.mp hexpected⟩
  all_goals exact nofun

theorem Acceptable.add (h : Acceptable workspaceID records) (hcount : records.length < maxSnapshotRecords)
    {record parent : Record} (hversion : record.apiVersion = apiVersion)
    (hids : record.validIDs = true) (hnew : record.id ∉ records.map Record.id)
    (howned : record.workspaceID = workspaceID) (hparent : parent ∈ records)
    (hrecord : record.parent = some parent.id)
    (hexpected : expectedParentKind record.kind = some parent.kind) :
    Acceptable workspaceID (record :: records) := by
  have hkind : record.kind ≠ .workspace := by
    intro hkind
    rw [hkind] at hexpected
    cases hexpected
  have hall : ∀ {P : Record → Prop}, P record → (∀ other ∈ records, P other) →
      ∀ other ∈ record :: records, P other := fun hfirst hrest other hother => by
    rcases List.mem_cons.mp hother with rfl | hother
    · exact hfirst
    · exact hrest other hother
  refine ⟨h.workspace, hcount, hall ⟨hversion, hids⟩ h.valid, ?_,
    hall ⟨howned, fun hk => absurd hk hkind⟩ h.owned, ?_,
    hall (fun hk => absurd hk hkind) h.parentless, hall (fun _ => ?_) fun other hother hk => ?_⟩
  · rw [List.map_cons]
    exact List.nodup_cons.mpr ⟨hnew, h.distinct⟩
  · obtain ⟨root, hroot, hid⟩ := h.root
    exact ⟨root, List.mem_cons_of_mem _ hroot, hid⟩
  · exact ⟨parent, List.mem_cons_of_mem _ hparent, hrecord, hexpected⟩
  · obtain ⟨above, habove, hlink⟩ := h.parent other hother hk
    exact ⟨above, List.mem_cons_of_mem _ habove, hlink⟩

theorem Acceptable.remove (h : Acceptable workspaceID records) (hroot : id ≠ workspaceID)
    (hleaf : ∀ record ∈ records, record.parent ≠ some id) :
    Acceptable workspaceID (records.filter fun record => record.id ≠ id) := by
  have hmem : ∀ record ∈ records.filter fun record => record.id ≠ id, record ∈ records :=
    fun record hrecord => List.mem_of_mem_filter hrecord
  have hkeep : ∀ record ∈ records, record.id ≠ id →
      record ∈ records.filter fun record => record.id ≠ id := fun record hrecord hne =>
    List.mem_filter.mpr ⟨hrecord, decide_eq_true hne⟩
  refine ⟨h.workspace, (List.length_filter_le _ _).trans h.count,
    fun record hrecord => h.valid record (hmem record hrecord), ?_,
    fun record hrecord => h.owned record (hmem record hrecord), ?_,
    fun record hrecord => h.parentless record (hmem record hrecord), fun record hrecord hkind => ?_⟩
  · exact h.distinct.sublist (List.filter_sublist.map _)
  · obtain ⟨root, hmemRoot, hid, hkind⟩ := h.root
    exact ⟨root, hkeep root hmemRoot (hid.trans_ne hroot.symm), hid, hkind⟩
  · obtain ⟨above, habove, hparent, hexpected⟩ := h.parent record (hmem record hrecord) hkind
    have hne : above.id ≠ id := by
      intro hid
      rw [hid] at hparent
      exact hleaf record (hmem record hrecord) hparent
    exact ⟨above, hkeep above habove hne, hparent, hexpected⟩

theorem checkDelete_ok_iff (hinit : snapshot.initialized = true)
    (hchild : snapshot.hasChild = snapshot.records.values.filterMap Record.parent) :
    snapshot.checkDelete id = .ok () ↔
      id ∈ snapshot.records ∧ ∀ record ∈ snapshot.records.values, record.parent ≠ some id := by
  unfold Snapshot.checkDelete
  simp only [hinit, hchild, Bool.not_true, Bool.false_eq_true, if_false, List.mem_filterMap]
  split_ifs with hmem hretained
  · obtain ⟨record, hrecord, hparent⟩ := hretained
    simp only [false_iff, not_and, not_forall]
    exact fun _ => ⟨record, hrecord, not_not.mpr hparent⟩
  · simp only [true_iff]
    exact ⟨hmem, fun record hrecord hparent => hretained ⟨record, hrecord, hparent⟩⟩
  · simp [hmem]

/-- A derived placement and a checked deletion lead to a valid hierarchy again, and a deletion that
would do so is never refused. -/
theorem hierarchy_closed (h : newSnapshot workspaceID records = .ok snapshot) :
    (snapshot.records.values.length < maxSnapshotRecords → ∀ kind id parentID placement,
      snapshot.deriveChild kind id parentID = .ok placement →
      ∀ next : List Record, next.Perm (placement.record :: snapshot.records.values) →
        ∃ grown, newSnapshot snapshot.workspaceID next = .ok grown) ∧
    (∀ id, id ≠ snapshot.workspaceID → snapshot.checkDelete id = .ok () →
      ∀ next : List Record, next.Perm (snapshot.without id) →
        ∃ smaller, newSnapshot snapshot.workspaceID next = .ok smaller) ∧
    ∀ id ∈ snapshot.records, ∀ next : List Record, next.Perm (snapshot.without id) →
      ∀ smaller, newSnapshot snapshot.workspaceID next = .ok smaller →
        snapshot.checkDelete id = .ok () := by
  obtain ⟨haccept, hlists, hinit, hworkspace, hchild⟩ := newSnapshot_ok h
  have hvalues : snapshot.records.values.Perm records := by
    rw [hlists.values]
    exact List.reverse_perm records
  have hall : Acceptable snapshot.workspaceID snapshot.records.values := by
    rw [hworkspace]
    exact haccept.perm hvalues
  refine ⟨fun hcount kind id parentID placement hderive next hnext => ?_,
    fun id hroot hdelete next hnext => ?_, fun id hid next hnext smaller hsmaller => ?_⟩
  · obtain ⟨rfl, hkind, hid, hparentID, hnew, parent, hparent, hexpected⟩ := deriveChild_ok hderive
    obtain ⟨hmem, rfl⟩ := hlists.lookup_iff.mp hparent
    have hfresh : id ∉ snapshot.records.values.map Record.id := by
      intro hmem
      obtain ⟨record, hrecord, rfl⟩ := List.mem_map.mp hmem
      exact hnew (hlists.mem_iff.mpr ⟨record, hvalues.mem_iff.mp hrecord, rfl⟩)
    have hids : (Placement.record ⟨id, kind, snapshot.workspaceID, some parent.id⟩).validIDs =
        true := by
      simp only [Placement.record, Record.validIDs, hid, hall.workspace, Option.all_some, hparentID,
        Bool.and_self]
    exact ((hall.add hcount rfl hids hfresh rfl (hvalues.mem_iff.mpr hmem) rfl hexpected).perm
      hnext).newSnapshot_ok
  · obtain ⟨-, hleaf⟩ := (checkDelete_ok_iff hinit hchild).mp hdelete
    exact ((hall.remove hroot hleaf).perm hnext).newSnapshot_ok
  · obtain ⟨hsmall, -⟩ := newSnapshot_ok hsmaller
    have hrest : Acceptable snapshot.workspaceID (snapshot.without id) := hsmall.perm hnext.symm
    refine (checkDelete_ok_iff hinit hchild).mpr ⟨hid, fun record hrecord hparent => ?_⟩
    -- a child of the deleted resource would have lost its parent
    obtain ⟨above, habove, habove', hexpected⟩ := hall.above hrecord hparent
    have hne : record.id ≠ id := by
      intro heq
      have hsame : above = record := by
        have hboth := hlists.lookup_iff.mpr ⟨hvalues.mem_iff.mp habove, habove'⟩
        rw [hlists.lookup_iff.mpr ⟨hvalues.mem_iff.mp hrecord, heq⟩] at hboth
        exact (Option.some.inj hboth).symm
      rw [hsame] at hexpected
      exact absurd (expectedParentKind_depth hexpected) (lt_irrefl _)
    have hkept : record ∈ snapshot.without id :=
      List.mem_filter.mpr ⟨hrecord, decide_eq_true hne⟩
    obtain ⟨left, hleft, hleft', -⟩ := hrest.above hkept hparent
    exact (of_decide_eq_true (List.mem_filter.mp hleft).2) hleft'

def sampleTree : List Record :=
  [⟨apiVersion, "wsp_0000000000000001", .workspace, "wsp_0000000000000001", none⟩,
    ⟨apiVersion, "env_0000000000000001", .environment, "wsp_0000000000000001",
      some "wsp_0000000000000001"⟩]

def sampleSnapshot : Snapshot :=
  match newSnapshot "wsp_0000000000000001" sampleTree with
  | .ok snapshot => snapshot
  | .error _ => ⟨false, "", ∅, []⟩

theorem newSnapshot_sample : newSnapshot "wsp_0000000000000001" sampleTree = .ok sampleSnapshot := by
  have haccepted : (newSnapshot "wsp_0000000000000001" sampleTree).isOk = true := by decide +kernel
  unfold sampleSnapshot
  cases hsnapshot : newSnapshot "wsp_0000000000000001" sampleTree with
  | error =>
    rw [hsnapshot] at haccepted
    cases haccepted
  | ok => rfl

/-- An application may be placed in the environment. The environment may be deleted as long as it
has no children, and the root alone is a valid hierarchy. -/
theorem hierarchy_closed_sample :
    newSnapshot "wsp_0000000000000001" sampleTree = .ok sampleSnapshot ∧
    (∃ placement grown, sampleSnapshot.deriveChild .application "app_0000000000000001"
        "env_0000000000000001" = .ok placement ∧
      newSnapshot sampleSnapshot.workspaceID (placement.record :: sampleSnapshot.records.values) =
        .ok grown) ∧
    sampleSnapshot.checkDelete "env_0000000000000001" = .ok () ∧
    ∃ smaller, newSnapshot sampleSnapshot.workspaceID
      (sampleSnapshot.without "env_0000000000000001") = .ok smaller := by
  have hderive : sampleSnapshot.deriveChild .application "app_0000000000000001"
      "env_0000000000000001" = .ok ⟨"app_0000000000000001", .application, "wsp_0000000000000001",
        some "env_0000000000000001"⟩ := by decide +kernel
  have hdelete : sampleSnapshot.checkDelete "env_0000000000000001" = .ok () := by decide +kernel
  have hclosed := hierarchy_closed newSnapshot_sample
  obtain ⟨grown, hgrown⟩ := hclosed.1 (by decide +kernel) _ _ _ _ hderive _ (.refl _)
  exact ⟨newSnapshot_sample, ⟨_, grown, hderive, hgrown⟩, hdelete,
    hclosed.2.1 _ (by decide +kernel) hdelete _ (.refl _)⟩

end Veer.Hierarchy
