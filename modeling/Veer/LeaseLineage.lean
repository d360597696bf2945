import Veer.LeaseWindow

/-!
# Binding lineage

A row's binding changes only when a replacement authority is spent on it, and then forward.
The flag behind an authority is shared by all its copies and goes from false to true once.
-/
namespace Veer.Reconcile

open FencedLease StepMachine AtomicCells

/-! ## Flags only rise -/

theorem spendFlag_rises (use : Option Nat) (atomics : Atomics) :
    Rises atomics.flags (spendFlag use atomics).1.flags := by
  cases use with
  | none => exact Rises.refl _
  | some => exact rises_compareAndSwap _ _

theorem consumeReplacement_rises (authority : LeaseReplacementAuthority) (atomics : Atomics) :
    Rises atomics.flags (consumeReplacement authority atomics).1.flags := by
  unfold consumeReplacement
  cases authority.use with
  | none => exact Rises.refl _
  | some => cases authority.transition <;> exact rises_compareAndSwap _ _

variable {authority : LeaseReplacementAuthority}

theorem consumeReplacement_spent {atomics spent : Atomics}
    (h : consumeReplacement authority atomics = (spent, true)) :
    ∃ use, authority.use = some use ∧ atomics.flags.load use = false ∧
      spent.flags.load use = true := by
  revert h
  fun_cases consumeReplacement authority atomics
  case case1 => simp
  case case2 use huse flags swapped hswap _ _ =>
    simp only [Prod.mk.injEq]
    rintro ⟨rfl, rfl⟩
    obtain ⟨hload, rfl⟩ := compareAndSwap_success hswap
    exact ⟨use, huse, hload, load_store_self _ _ _⟩
  case case3 use huse flags swapped hswap _ transition _ =>
    simp only [Prod.mk.injEq, Bool.and_eq_true]
    rintro ⟨rfl, rfl, -⟩
    obtain ⟨hload, rfl⟩ := compareAndSwap_success hswap
    exact ⟨use, huse, hload, load_store_self _ _ _⟩

@[simp] theorem publishReplacement_flags (authority : LeaseReplacementAuthority)
    (atomics : Atomics) : (publishReplacement authority atomics).flags = atomics.flags := by
  unfold publishReplacement
  cases authority.transition <;> rfl

theorem acquireReplacement_rises (table : LeaseTable) (atomics : Atomics) (databaseTime : Int)
    (authority : LeaseReplacementAuthority) (ownerID : ID) :
    Rises atomics.flags
      (table.acquireReplacement atomics databaseTime authority ownerID).2.1.flags := by
  have hspend := consumeReplacement_rises authority atomics
  fun_cases LeaseTable.acquireReplacement table atomics databaseTime authority ownerID
  case case7 hspent | case8 hspent _ => simpa [hspent] using hspend
  all_goals exact Rises.refl _

theorem authorizeDispatch_rises (table : LeaseTable) (atomics : Atomics) (databaseTime : Int)
    (token : LeaseToken) (rpcTimeout : Int) (authority : DispatchAuthority) :
    Rises atomics.flags
      (table.authorizeDispatch atomics databaseTime token rpcTimeout authority).2.1.flags := by
  have hspend := spendFlag_rises authority.use atomics
  fun_cases LeaseTable.authorizeDispatch table atomics databaseTime token rpcTimeout authority
  case case9 spent flags use halloc hspent =>
    rw [hspent] at hspend
    have := rises_alloc spent.flags
    rw [halloc] at this
    exact hspend.trans this
  case case10 hspent _ => simpa [hspent] using hspend
  all_goals exact Rises.refl _

theorem markAttemptDispatched_rises [Sha256] (table : LeaseTable) (atomics : Atomics)
    (before : Attempt) (permit : DispatchPermit) (dispatchedAt : Int) :
    Rises atomics.flags
      (table.markAttemptDispatched atomics before permit dispatchedAt).2.1.flags := by
  have hspend := spendFlag_rises permit.use atomics
  unfold LeaseTable.markAttemptDispatched
  fun_cases LeaseTable.markAttemptDispatchedReturned table atomics before permit dispatchedAt
  case case7 hspent | case8 hspent _ => simpa [hspent] using hspend
  all_goals exact Rises.refl _

/-! ## Minting -/

/-- The authority's flag is a cell that has been handed out. -/
def LeaseReplacementAuthority.Allocated (authority : LeaseReplacementAuthority)
    (flags : Cells Bool) : Prop :=
  ∃ use, authority.use = some use ∧ use < flags.allocated

theorem LeaseReplacementAuthority.Allocated.mono {before after : Cells Bool}
    (h : authority.Allocated before) (hr : Rises before after) : authority.Allocated after := by
  obtain ⟨use, huse, hlt⟩ := h
  exact ⟨use, huse, hlt.trans_le hr.allocated⟩

theorem LeaseReplacementAuthority.seal_allocated (draft : LeaseReplacementAuthority)
    (atomics : Atomics) :
    Rises atomics.flags (draft.seal atomics).1.flags ∧
      (draft.seal atomics).2.Allocated (draft.seal atomics).1.flags :=
  ⟨rises_alloc _, atomics.flags.allocated, rfl, Nat.lt_succ_self _⟩

/-- A minting step raises flags only, and the authority it mints holds an allocated one. -/
structure Mints (before after : Atomics) (authority : Option LeaseReplacementAuthority) : Prop where
  rises : Rises before.flags after.flags
  allocated : ∀ a ∈ authority, a.Allocated after.flags

theorem admitObservation_flags (draft : AttemptAdmission) (atomics : Atomics) :
    (admitObservation draft atomics).1.flags = atomics.flags := by
  unfold admitObservation
  cases draft.observationTransition <;> rfl

section Minting

variable [Sha256]

theorem selectPlan_mints (atomics : Atomics) (current candidate : Plan)
    (priorAttempts : List Attempt) (currentEffects : List EffectProjection)
    (freshObservation : Bool) (proofs : List CompensationProof) :
    Mints atomics
      (selectPlan atomics current candidate priorAttempts currentEffects freshObservation proofs).1
      (selectedAuthority (selectPlan atomics current candidate priorAttempts currentEffects
        freshObservation proofs).2) := by
  unfold selectPlan
  split
  · exact ⟨Rises.refl _, by simp [selectedAuthority]⟩
  · exact ⟨Rises.refl _, by simp [selectedAuthority]⟩
  · rename_i draft _
    obtain ⟨hrises, halloc⟩ := draft.seal_allocated atomics
    exact ⟨hrises, by simpa [selectedAuthority] using halloc⟩

theorem newAttemptAdmission_rises (atomics : Atomics) (input : AttemptAdmissionInput) :
    Rises atomics.flags (newAttemptAdmission atomics input).1.flags := by
  fun_cases newAttemptAdmission atomics input
  case case1 => exact Rises.refl _
  case case2 draft _ admitted sealed admission hsealed hadmitted =>
    have hflags := admitObservation_flags draft atomics
    rw [hadmitted] at hflags
    have hrises := rises_alloc admitted.flags
    rw [hflags] at hrises
    obtain ⟨rfl, -⟩ := Prod.mk.injEq .. ▸ hsealed
    exact hflags ▸ hrises
  case case3 draft _ admitted swapped hadmitted _ =>
    have hflags := admitObservation_flags draft atomics
    rw [hadmitted] at hflags
    exact hflags ▸ Rises.refl _

theorem authorizeGenerationReplacement_mints (atomics : Atomics) (current candidate : Plan)
    (input : AttemptAdmissionInput) :
    Mints atomics (authorizeGenerationReplacement atomics current candidate input).1
      (generationAuthority (authorizeGenerationReplacement atomics current candidate input).2) := by
  have hopened := newAttemptAdmission_rises atomics input
  fun_cases authorizeGenerationReplacement atomics current candidate input
  case case1 => exact ⟨Rises.refl _, by simp [generationAuthority]⟩
  case case2 hnew | case3 hnew _ _ _ _ _ _ =>
      exact ⟨by rwa [hnew] at hopened, by simp [generationAuthority]⟩
  case case4 hnew words _ _ published draft _ sealed authority hseal =>
    rw [hnew] at hopened
    obtain ⟨hrises, halloc⟩ := draft.seal_allocated published
    rw [hseal] at hrises halloc
    exact ⟨hopened.trans hrises, by simpa [generationAuthority] using halloc⟩

theorem fleet_rises (fleet : Fleet) (call : FleetCall) :
    Rises fleet.atomics.flags (fleetStep fleet call).1.atomics.flags := by
  cases call with
  | acquire | renew | surrender | authorizeCommit => exact Rises.refl _
  | acquireReplacement =>
    simp only [fleetStep]
    split
    · exact Rises.refl _
    · exact acquireReplacement_rises _ _ _ _ _
  | authorizeDispatch => exact authorizeDispatch_rises _ _ _ _ _ _
  | markAttemptDispatched => exact markAttemptDispatched_rises _ _ _ _ _
  | selectPlan => exact (selectPlan_mints _ _ _ _ _ _ _).rises
  | authorizeGenerationReplacement => exact (authorizeGenerationReplacement_mints _ _ _ _).rises

theorem fleet_authorities (fleet : Fleet) (call : FleetCall) :
    ∃ minted : Option LeaseReplacementAuthority,
      (fleetStep fleet call).1.authorities = fleet.authorities ++ minted.toList ∧
      ∀ a ∈ minted, a.Allocated (fleetStep fleet call).1.atomics.flags := by
  cases call with
  | acquire | renew | surrender | authorizeCommit | authorizeDispatch | markAttemptDispatched =>
    exact ⟨none, (List.append_nil _).symm, by simp⟩
  | acquireReplacement =>
    refine ⟨none, ?_, by simp⟩
    simp only [fleetStep]
    split <;> exact (List.append_nil _).symm
  | selectPlan => exact ⟨_, rfl, (selectPlan_mints _ _ _ _ _ _ _).allocated⟩
  | authorizeGenerationReplacement =>
    exact ⟨_, rfl, (authorizeGenerationReplacement_mints _ _ _ _).allocated⟩

def Fleet.Minted (fleet : Fleet) : Prop :=
  ∀ a ∈ fleet.authorities, a.Allocated fleet.atomics.flags

theorem fleet_minted (fleet : Fleet) (call : FleetCall) (h : fleet.Minted) :
    (fleetStep fleet call).1.Minted := by
  obtain ⟨minted, hpool, hnew⟩ := fleet_authorities fleet call
  intro a ha
  rw [hpool, List.mem_append, Option.mem_toList] at ha
  rcases ha with ha | ha
  · exact (h a ha).mono (fleet_rises fleet call)
  · exact hnew a ha

/-- A spent authority of the pool stays in place, with its flag up. -/
def Fleet.Spent (n : Nat) (fleet : Fleet) : Prop :=
  ∃ authority use, fleet.authorities[n]? = some authority ∧ authority.use = some use ∧
    use < fleet.atomics.flags.allocated ∧ fleet.atomics.flags.load use = true

theorem fleet_spent (fleet : Fleet) (call : FleetCall) {n : Nat} (h : fleet.Spent n) :
    (fleetStep fleet call).1.Spent n := by
  obtain ⟨authority, use, hn, huse, hlt, hload⟩ := h
  obtain ⟨minted, hpool, -⟩ := fleet_authorities fleet call
  have hrises := fleet_rises fleet call
  refine ⟨authority, use, ?_, huse, hlt.trans_le hrises.allocated, hrises.raised use hlt hload⟩
  rw [hpool, List.getElem?_append_left (List.getElem?_eq_some_iff.mp hn).1]
  exact hn

/-- The call is an `AcquireReplacement` with the `n`-th authority. -/
def FleetCall.Replaces (n : Nat) (call : FleetCall) : Prop :=
  ∃ table databaseTime ownerID, call = .acquireReplacement table databaseTime n ownerID

theorem replace_spends {fleet : Fleet} {call : FleetCall} {n : Nat} (hcall : call.Replaces n)
    (hs : (fleetStep fleet call).2.succeeded = true) (hminted : fleet.Minted) :
    ¬ fleet.Spent n ∧ (fleetStep fleet call).1.Spent n := by
  have hrises := fleet_rises fleet call
  obtain ⟨j, databaseTime, ownerID, rfl⟩ := hcall
  simp only [fleetStep] at hs hrises ⊢
  cases hn : fleet.authorities[n]? with
  | none => simp [hn, FleetReply.succeeded, succeeds] at hs
  | some authority =>
    simp only [hn, FleetReply.succeeded] at hs hrises ⊢
    cases hr : ((fleet.tables j).acquireReplacement fleet.atomics databaseTime authority ownerID).2.2 with
    | error => simp [hr, succeeds] at hs
    | ok =>
      obtain ⟨-, -, ⟨spent, hspent, hafter⟩, -⟩ := acquireReplacement_ok hr
      obtain ⟨use, huse, hdown, hup⟩ := consumeReplacement_spent hspent
      constructor
      · rintro ⟨other, use', hn', huse', -, hload⟩
        rw [hn, Option.some.injEq] at hn'
        subst hn'
        rw [huse, Option.some.injEq] at huse'
        subst huse'
        simp [hdown] at hload
      · obtain ⟨use', huse', hlt⟩ := hminted authority (List.mem_of_getElem? hn)
        rw [huse, Option.some.injEq] at huse'
        subst huse'
        refine ⟨authority, use, hn, huse, hlt.trans_le hrises.allocated, ?_⟩
        simp only [Fleet.setTable, hafter, publishReplacement_flags]
        exact hup

end Minting

/-! ## Changes of binding -/

theorem leaseBindingMovesForward_iff {current candidate : LeaseBinding}
    (h : leaseBindingMovesForward current candidate = true) :
    candidate.generation = current.generation ∧ candidate.operationID = current.operationID ∧
        candidate.planRevision = current.planRevision + 1 ∨
      current.generation < candidate.generation ∧ candidate.operationID ≠ current.operationID ∧
        candidate.planRevision = 1 := by
  unfold leaseBindingMovesForward at h
  split_ifs at h with hlt heq
  · simp only [Bool.and_eq_true, beq_iff_eq] at h
    exact .inl ⟨heq, h.1.1, h.2⟩
  · simp only [Bool.and_eq_true, bne_iff_ne, beq_iff_eq] at h
    exact .inr ⟨by omega, h.1, h.2⟩

theorem replaces_of_label [Sha256] {fleet : Fleet} {call : FleetCall} {i : Nat}
    {workspaceID resourceID : ID} {f now : Int}
    (h : fleetLabel i workspaceID resourceID call (fleetStep fleet call).2 = .replace f now) :
    ∃ databaseTime n ownerID authority token,
      call = .acquireReplacement i databaseTime n ownerID ∧
      fleet.authorities[n]? = some authority ∧
      ((fleet.tables i).acquireReplacement fleet.atomics databaseTime authority ownerID).2.2 =
        .ok token ∧ onRow workspaceID resourceID token.binding = true := by
  cases call with
  | acquireReplacement j databaseTime n ownerID =>
    simp only [fleetLabel] at h
    obtain ⟨token, hreply, hj, hl⟩ := FleetReply.tokenLabel_eq h (by simp)
    split_ifs at hl with hrow
    rw [beq_iff_eq] at hj
    subst hj
    simp only [fleetStep] at hreply
    cases hn : fleet.authorities[n]? with
    | none => simp [hn] at hreply
    | some authority =>
      simp only [hn, FleetReply.token.injEq] at hreply
      exact ⟨databaseTime, n, ownerID, authority, token, rfl, hn, hreply, hrow⟩
  | acquire =>
    simp only [fleetLabel] at h
    obtain ⟨token, -, -, hl⟩ := FleetReply.tokenLabel_eq h (by simp)
    cases hl
  | renew | surrender | authorizeDispatch | markAttemptDispatched | authorizeCommit =>
    simp only [fleetLabel] at h
    obtain ⟨-, -, hl⟩ := FleetReply.heldLabel_eq h (by simp)
    cases hl
  | selectPlan | authorizeGenerationReplacement => cases h

theorem replaced_row {table : LeaseTable} {atomics : Atomics} {databaseTime : Int}
    {ownerID workspaceID resourceID : ID} {token : LeaseToken}
    (hok : (table.acquireReplacement atomics databaseTime authority ownerID).2.2 = .ok token)
    (honrow : onRow workspaceID resourceID token.binding = true) :
    (∀ row, table.rows.lookup (rowKey workspaceID resourceID) = some row →
        authority.expected = row.binding) ∧
      ∀ row, (table.acquireReplacement atomics databaseTime authority ownerID).1.rows.lookup
        (rowKey workspaceID resourceID) = some row → authority.replacement = row.binding := by
  obtain ⟨hvalid, hbinding, -, prior, row, hprior, hexpected, hrow, hreplacement⟩ :=
    acquireReplacement_ok hok
  simp only [validateLeaseReplacementAuthority, Bool.and_eq_true, beq_iff_eq] at hvalid
  have hkey : rowKey workspaceID resourceID = leaseRowKey authority.expected := by
    rw [hbinding, ← rowKey_eq_leaseRowKey hvalid.1.1.1.1.1.1.2] at honrow
    rw [hvalid.1.1.1.2]
    simpa using honrow
  rw [hkey]
  constructor
  · intro found hfound
    rw [hprior, Option.some.injEq] at hfound
    rw [← hfound, hexpected]
  · intro found hfound
    rw [hrow, Option.some.injEq] at hfound
    rw [← hfound, hreplacement]

theorem replacement_of_label [Sha256] {fleet : Fleet} {call : FleetCall} {i : Nat}
    {workspaceID resourceID : ID} {f now : Int} {row row' : LeaseRow}
    (hlabel : fleetLabel i workspaceID resourceID call (fleetStep fleet call).2 = .replace f now)
    (hrow : fleet.row i workspaceID resourceID = some row)
    (hrow' : (fleetStep fleet call).1.row i workspaceID resourceID = some row') :
    ∃ databaseTime n ownerID authority token,
      call = .acquireReplacement i databaseTime n ownerID ∧
      fleet.authorities[n]? = some authority ∧ (fleetStep fleet call).2 = .token (.ok token) ∧
      authority.expected = row.binding ∧ authority.replacement = row'.binding := by
  obtain ⟨databaseTime, n, ownerID, authority, token, rfl, hn, hok, honrow⟩ :=
    replaces_of_label hlabel
  obtain ⟨hexpected, hreplacement⟩ := replaced_row hok honrow
  refine ⟨databaseTime, n, ownerID, authority, token, rfl, hn, ?_, hexpected row hrow, ?_⟩
  · simp only [fleetStep, hn, hok]
  · refine hreplacement row' ?_
    simpa [fleetStep, hn, Fleet.row, Fleet.setTable] using hrow'

/-- How the bindings of all rows change over the record of a run. -/
structure LineageForward (run : List FleetEntry) : Prop where
  /-- A stored binding changes only through a successful replacement that expected it, by one
  revision of the same operation or to revision one of a later generation's operation. -/
  changes : ∀ e ∈ run, ∀ (i : Nat) (workspaceID resourceID : ID) (row : LeaseRow),
    e.before.row i workspaceID resourceID = some row →
    ∃ row', e.after.row i workspaceID resourceID = some row' ∧
      (row'.binding ≠ row.binding →
        (∃ databaseTime n ownerID authority token,
          e.input = .acquireReplacement i databaseTime n ownerID ∧
          e.before.authorities[n]? = some authority ∧ e.output = .token (.ok token) ∧
          authority.expected = row.binding ∧ authority.replacement = row'.binding) ∧
        Prod.Lex (· < ·) (· < ·) (row.binding.generation, row.binding.planRevision)
          (row'.binding.generation, row'.binding.planRevision) ∧
        (row'.binding.generation = row.binding.generation ∧
            row'.binding.operationID = row.binding.operationID ∧
            row'.binding.planRevision = row.binding.planRevision + 1 ∨
          row.binding.generation < row'.binding.generation ∧
            row'.binding.operationID ≠ row.binding.operationID ∧ row'.binding.planRevision = 1))
  /-- One authority is spent at most once, whichever tables its copies are presented to. -/
  once : ∀ (a b : Nat) (e e' : FleetEntry) (n : Nat), run[a]? = some e → run[b]? = some e' →
    e.input.Replaces n → e'.input.Replaces n → e.output.succeeded = true →
    e'.output.succeeded = true → a = b

section Runs

variable [Sha256] {fleet : Fleet} {calls : List FleetCall}

theorem minted_of_initial (hinit : fleet.Initial) {e : FleetEntry}
    (he : e ∈ fleetMachine.trace fleet calls) : e.before.Minted := by
  refine (trace_invariant fleetMachine (P := Fleet.Minted) fleet_minted ?_ he).1
  simp [Fleet.Minted, hinit.unminted]

theorem not_replaced_twice (hinit : fleet.Initial) {a b n : Nat} {e e' : FleetEntry} (hab : a < b)
    (ha : (fleetMachine.trace fleet calls)[a]? = some e)
    (hb : (fleetMachine.trace fleet calls)[b]? = some e') (hn : e.input.Replaces n)
    (hn' : e'.input.Replaces n) (hs : e.output.succeeded = true) :
    e'.output.succeeded = false := by
  have hminted := minted_of_initial hinit (List.mem_of_getElem? ha)
  have hminted' := minted_of_initial hinit (List.mem_of_getElem? hb)
  obtain ⟨post, hentry, hrest⟩ := trace_after fleetMachine ha
  have hspent : e.after.Spent n := by
    rw [hentry] at hs ⊢
    exact (replace_spends hn hs hminted).2
  have hmem : e' ∈ fleetMachine.trace e.after post := by
    refine List.mem_of_getElem? (i := b - (a + 1)) ?_
    rw [← hrest, show a + 1 + (b - (a + 1)) = b by omega]
    exact hb
  obtain ⟨hbefore, hentry'⟩ :=
    trace_invariant fleetMachine (P := Fleet.Spent n) (fun s c => fleet_spent s c) hspent hmem
  by_contra hs'
  rw [hentry'] at hs'
  exact (replace_spends hn' (Bool.eq_true_of_not_eq_false hs') hminted').1 hbefore

/-- Bindings move forward, and only by spending minted authorities: in every run of a fresh
fleet. -/
theorem lineage_forward {fleet : Fleet} (hinit : fleet.Initial) (calls : List FleetCall) :
    LineageForward (fleetMachine.trace fleet calls) where
  changes := by
    intro e he i workspaceID resourceID row hrow
    have hmove := entry_move he i workspaceID resourceID
    have hview : e.before.view i workspaceID resourceID = some row.view := by
      rw [Fleet.view_eq, hrow]
      rfl
    obtain ⟨after, hafter⟩ := hmove.some_of_some hview
    have hstored := hafter
    rw [Fleet.view_eq, Option.map_eq_some_iff] at hstored
    obtain ⟨row', hrow', rfl⟩ := hstored
    refine ⟨row', hrow', fun hne => ?_⟩
    obtain ⟨⟨f, now, hlabel⟩, hforward⟩ := hmove.binding_changed hview hafter hne
    have hmoves := leaseBindingMovesForward_iff hforward
    refine ⟨?_, ?_, hmoves⟩
    · obtain ⟨pre, post, -, hentry⟩ := mem_trace fleetMachine he
      rw [hentry] at hlabel hrow hrow' ⊢
      exact replacement_of_label hlabel hrow hrow'
    · simp only [Prod.lex_def, LeaseRow.view] at hmoves ⊢
      omega
  once := by
    intro a b e e' n ha hb hn hn' hs hs'
    rcases Nat.lt_trichotomy a b with hab | hab | hab
    · simp [not_replaced_twice hinit hab ha hb hn hn' hs] at hs'
    · exact hab
    · simp [not_replaced_twice hinit hab hb ha hn' hn hs'] at hs

end Runs

section Sample

variable [Sha256]

/-- The second revision of the sample plan, over a newer observation. -/
def sampleReplan : Plan :=
  Plan.sealed
    { (samplePlan : Plan) with
      id := "plan-00000000002"
      revision := 2
      observed := sampleEvidence .observedSnapshot "v2"
      supersedes := some samplePlan.digest }

def samplePlanBinding : LeaseBinding :=
  ⟨true, "workspace-000000", "resource-0000000", 1, "operation-000000", 1, samplePlan.digest⟩

/-- The row moves to the second revision; a copy of the spent authority is refused. -/
def replanCalls : List FleetCall :=
  [.acquire 0 (1 * second) samplePlanBinding "owner-0000000001",
    .selectPlan samplePlan sampleReplan [] [] true [],
    .acquireReplacement 0 (61 * second) 0 "owner-0000000002",
    .acquireReplacement 0 (200 * second) 0 "owner-0000000002"]

end Sample

attribute [local instance] plainSha256

theorem lineage_forward_replan :
    (fleetMachine.trace sampleFleet replanCalls).map (fun e => e.output.succeeded) =
        [true, true, true, false] ∧
      LineageForward (fleetMachine.trace sampleFleet replanCalls) :=
  ⟨by decide +kernel, lineage_forward sampleFleet_initial replanCalls⟩

end Veer.Reconcile
