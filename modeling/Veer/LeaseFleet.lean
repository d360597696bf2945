import Veer.LeaseSteps

/-!
# Lease tables sharing one process

A fleet is any number of lease tables with the atomics and the replacement authorities that
the process has minted. Calls interleave in any order. Tokens, permits and dispatch
authorities are arbitrary values, so a run also covers stale and foreign copies of them.
-/
namespace Veer.Reconcile

open FencedLease StepMachine AtomicCells

structure Fleet where
  tables : Nat → LeaseTable
  atomics : Atomics
  authorities : List LeaseReplacementAuthority

/-- A call; `table` says on which table, and a replacement names a minted authority. -/
inductive FleetCall
  | acquire (table : Nat) (databaseTime : Int) (binding : LeaseBinding) (ownerID : ID)
  | acquireReplacement (table : Nat) (databaseTime : Int) (authority : Nat) (ownerID : ID)
  | renew (table : Nat) (databaseTime : Int) (token : LeaseToken)
  | surrender (table : Nat) (databaseTime : Int) (token : LeaseToken)
  | authorizeDispatch (table : Nat) (databaseTime : Int) (token : LeaseToken) (rpcTimeout : Int)
      (authority : DispatchAuthority)
  | markAttemptDispatched (table : Nat) (before : Attempt) (permit : DispatchPermit)
      (dispatchedAt : Int)
  | authorizeCommit (table : Nat) (databaseTime : Int) (token : LeaseToken)
      (bundle : TransitionBundle)
  | selectPlan (current candidate : Plan) (priorAttempts : List Attempt)
      (currentEffects : List EffectProjection) (freshObservation : Bool)
      (compensationProofs : List CompensationProof)
  | authorizeGenerationReplacement (current candidate : Plan) (input : AttemptAdmissionInput)

inductive FleetReply
  | token (result : Except Failure LeaseToken)
  | permit (result : Except Failure DispatchPermit)
  | attempt (result : Except Failure Attempt)
  | done (result : Except Failure Unit)
  | minted (authority : Option LeaseReplacementAuthority)

def succeeds {α : Type*} : Except Failure α → Bool
  | .ok _ => true
  | .error _ => false

def FleetReply.succeeded : FleetReply → Bool
  | token result => succeeds result
  | permit result => succeeds result
  | attempt result => succeeds result
  | done result => succeeds result
  | minted authority => authority.isSome

def Fleet.setTable (fleet : Fleet) (i : Nat) (table : LeaseTable) (atomics : Atomics) : Fleet :=
  { fleet with tables := Function.update fleet.tables i table, atomics := atomics }

def Fleet.mint (fleet : Fleet) (atomics : Atomics) (authority : Option LeaseReplacementAuthority) :
    Fleet :=
  { fleet with atomics := atomics, authorities := fleet.authorities ++ authority.toList }

def selectedAuthority :
    Except Failure (Plan × PlanSelection × Option LeaseReplacementAuthority) →
      Option LeaseReplacementAuthority
  | .ok (_, _, authority) => authority
  | .error _ => none

def generationAuthority :
    Except Failure (LeaseReplacementAuthority × AttemptAdmission) →
      Option LeaseReplacementAuthority
  | .ok (authority, _) => some authority
  | .error _ => none

section Machine

variable [Sha256]

def fleetStep (fleet : Fleet) : FleetCall → Fleet × FleetReply
  | .acquire i databaseTime binding ownerID =>
    let call := (fleet.tables i).acquire databaseTime binding ownerID
    (fleet.setTable i call.1 fleet.atomics, .token call.2)
  | .acquireReplacement i databaseTime n ownerID =>
    match fleet.authorities[n]? with
    | none => (fleet, .token (.error [.invalidLease]))
    | some authority =>
      let call :=
        (fleet.tables i).acquireReplacement fleet.atomics databaseTime authority ownerID
      (fleet.setTable i call.1 call.2.1, .token call.2.2)
  | .renew i databaseTime token =>
    let call := (fleet.tables i).renew databaseTime token
    (fleet.setTable i call.1 fleet.atomics, .token call.2)
  | .surrender i databaseTime token =>
    let call := (fleet.tables i).surrender databaseTime token
    (fleet.setTable i call.1 fleet.atomics, .done call.2)
  | .authorizeDispatch i databaseTime token rpcTimeout authority =>
    let call :=
      (fleet.tables i).authorizeDispatch fleet.atomics databaseTime token rpcTimeout authority
    (fleet.setTable i call.1 call.2.1, .permit call.2.2)
  | .markAttemptDispatched i before permit dispatchedAt =>
    let call :=
      (fleet.tables i).markAttemptDispatched fleet.atomics before permit dispatchedAt
    (fleet.setTable i call.1 call.2.1, .attempt call.2.2)
  | .authorizeCommit i databaseTime token bundle =>
    let call := (fleet.tables i).authorizeCommit databaseTime token bundle
    (fleet.setTable i call.1 fleet.atomics, .done call.2)
  | .selectPlan current candidate priorAttempts currentEffects freshObservation proofs =>
    let call := Reconcile.selectPlan fleet.atomics current candidate priorAttempts currentEffects
      freshObservation proofs
    (fleet.mint call.1 (selectedAuthority call.2), .minted (selectedAuthority call.2))
  | .authorizeGenerationReplacement current candidate input =>
    let call := Reconcile.authorizeGenerationReplacement fleet.atomics current candidate input
    (fleet.mint call.1 (generationAuthority call.2), .minted (generationAuthority call.2))

def fleetMachine : Machine Fleet FleetCall FleetReply := ⟨fleetStep⟩

end Machine

abbrev FleetEntry := Entry Fleet FleetCall FleetReply

/-- Every table is as `newLeaseTable` returns it and no authority exists yet. -/
structure Fleet.Initial (fleet : Fleet) : Prop where
  built : ∀ i, ∃ maximum, newLeaseTable i maximum = .ok (fleet.tables i)
  unminted : fleet.authorities = []

/-! ## The row of a workspace and resource -/

def onRow (workspaceID resourceID : ID) (binding : LeaseBinding) : Bool :=
  binding.workspaceID == workspaceID && binding.resourceID == resourceID

def rowKey (workspaceID resourceID : ID) : String := workspaceID ++ ":" ++ resourceID

def Fleet.row (fleet : Fleet) (i : Nat) (workspaceID resourceID : ID) : Option LeaseRow :=
  (fleet.tables i).rows.lookup (rowKey workspaceID resourceID)

def Fleet.view (fleet : Fleet) (i : Nat) (workspaceID resourceID : ID) :
    Option (Row LeaseBinding ID) :=
  (fleet.tables i).view (rowKey workspaceID resourceID)

theorem append_separator_inj {w r w' r' : List Char} {c : Char} (hw : c ∉ w) (hr : c ∉ r)
    (h : w ++ c :: r = w' ++ c :: r') : w = w' ∧ r = r' := by
  rcases List.append_eq_append_iff.mp h with ⟨s, hs, ht⟩ | ⟨s, hs, ht⟩
  · cases s with
    | nil => simp_all
    | cons =>
      simp only [List.cons_append, List.cons.injEq] at ht
      exact absurd (ht.2 ▸ by simp) hr
  · cases s with
    | nil => simp_all
    | cons =>
      simp only [List.cons_append, List.cons.injEq] at ht
      exact absurd (hs ▸ by simp [ht.1]) hw

theorem rowKey_eq_leaseRowKey {binding : LeaseBinding} {workspaceID resourceID : ID}
    (hv : validateLeaseBinding binding = true) :
    (rowKey workspaceID resourceID == leaseRowKey binding) =
      onRow workspaceID resourceID binding := by
  simp only [validateLeaseBinding, Bool.and_eq_true] at hv
  have hw := validID_no_colon hv.1.1.1.1.1.2
  have hr := validID_no_colon hv.1.1.1.1.2
  rw [Bool.eq_iff_iff, beq_iff_eq]
  simp only [onRow, Bool.and_eq_true, beq_iff_eq, rowKey, leaseRowKey]
  constructor
  · intro h
    rw [String.ext_iff] at h
    simp only [String.toList_append, String.reduceToList, List.append_assoc, List.cons_append,
      List.nil_append] at h
    obtain ⟨h1, h2⟩ := append_separator_inj hw hr h.symm
    exact ⟨String.toList_inj.mp h1, String.toList_inj.mp h2⟩
  · rintro ⟨rfl, rfl⟩
    rfl

/-! ## What a successful call says about its token -/

section Results

variable {table : LeaseTable} {atomics : Atomics} {databaseTime : Int}

variable {token : LeaseToken}

theorem grant_ok {key : String} {row : Except Failure LeaseRow}
    (h : (table.grant key row).2 = .ok token) :
    ∃ granted, row = .ok granted ∧ token = tokenFromRow granted table.identity := by
  cases row with
  | error => simp [LeaseTable.grant] at h
  | ok granted => exact ⟨granted, rfl, (Except.ok.inj h).symm⟩

theorem acquire_ok {binding : LeaseBinding} {ownerID : ID}
    (h : (table.acquire databaseTime binding ownerID).2 = .ok token) :
    validateLeaseBinding binding = true ∧ token.binding = binding := by
  revert h
  fun_cases LeaseTable.acquire table databaseTime binding ownerID
  case case4 hguard _ hn _ _ | case8 hguard _ hn _ _ _ _ _ _ _ =>
    intro h
    simp only [Bool.not_eq_true, Bool.or_eq_false_iff, Bool.not_eq_false'] at hguard
    obtain ⟨granted, hgranted, rfl⟩ := grant_ok h
    rw [grantedRow_ok (normalizeTime_ok hn).2.2.2.2 hgranted]
    exact ⟨hguard.1.2, rfl⟩
  all_goals simp

theorem acquireReplacement_ok {authority : LeaseReplacementAuthority} {ownerID : ID}
    (h : (table.acquireReplacement atomics databaseTime authority ownerID).2.2 = .ok token) :
    validateLeaseReplacementAuthority authority = true ∧ token.binding = authority.replacement ∧
      (∃ spent, consumeReplacement authority atomics = (spent, true) ∧
        (table.acquireReplacement atomics databaseTime authority ownerID).2.1 =
          publishReplacement authority spent) ∧
      ∃ prior row, table.rows.lookup (leaseRowKey authority.expected) = some prior ∧
        prior.binding = authority.expected ∧
        (table.acquireReplacement atomics databaseTime authority ownerID).1.rows.lookup
          (leaseRowKey authority.expected) = some row ∧ row.binding = authority.replacement := by
  revert h
  fun_cases LeaseTable.acquireReplacement table atomics databaseTime authority ownerID
  case case7 hguard now hn observed row hobs hbinding _ replaced hgranted spent hspent =>
    intro h
    simp only [Except.ok.injEq] at h
    simp only [Bool.not_eq_true, Bool.or_eq_false_iff, Bool.not_eq_false'] at hguard hbinding
    obtain ⟨prior, hprior, -, rfl, -⟩ := observeNowLocked_ok (normalizeTime_ok hn).2.2.1 hobs
    obtain rfl := grantedRow_ok (normalizeTime_ok hn).2.2.2.2 hgranted
    refine ⟨hguard.1.2, by rw [← h]; rfl, ⟨spent, hspent, rfl⟩, prior, _, hprior,
      (LeaseBinding.equal_iff.mp hbinding).2,
      (LeaseTable.lookup_write observed _ _ _).trans (if_pos rfl), rfl⟩
  all_goals simp

theorem renew_ok {renewed : LeaseToken} (h : (table.renew databaseTime token).2 = .ok renewed) :
    validateLeaseBinding token.binding = true ∧ renewed.fence = token.fence ∧
      renewed.binding = token.binding := by
  revert h
  fun_cases LeaseTable.renew table databaseTime token
  case case7 hcur _ _ _ =>
    intro h
    obtain ⟨-, -, -, hfence, hbinding, hvalid⟩ := currentRowLocked_some hcur
    rw [← Except.ok.inj h]
    exact ⟨hvalid, hfence, hbinding⟩
  all_goals simp

theorem surrender_ok (h : (table.surrender databaseTime token).2 = .ok ()) :
    validateLeaseBinding token.binding = true := by
  revert h
  fun_cases LeaseTable.surrender table databaseTime token
  case case6 hcur => exact fun _ => (currentRowLocked_some hcur).2.2.2.2.2
  all_goals simp

theorem authorizeDispatch_ok {rpcTimeout : Int} {authority : DispatchAuthority}
    {permit : DispatchPermit}
    (h : (table.authorizeDispatch atomics databaseTime token rpcTimeout authority).2.2 =
      .ok permit) :
    ∃ row, Holds table token permit.authorizedAt row ∧
      permit.authorizedAt = truncateTime databaseTime ∧
      permit.deadline + dispatchSafetyMargin < row.expiresAt ∧
      permit.token.fence = token.fence ∧ permit.token.binding = token.binding := by
  revert h
  fun_cases LeaseTable.authorizeDispatch table atomics databaseTime token rpcTimeout authority
  case case9 hn observed _ hobs _ row hcur deadline _ hwindow _ _ _ _ _ =>
    intro h
    obtain ⟨prior, hholds, rfl, -⟩ := holds_of_current (normalizeTime_ok hn).2.2.1 hobs hcur
    rw [← Except.ok.inj h]
    refine ⟨prior, hholds, normalizeTime_eq_truncate hn, ?_, hholds.fence, hholds.binding⟩
    simp only [not_or, not_le] at hwindow
    simp only
    omega
  all_goals simp

theorem markAttemptDispatched_ok [Sha256] {before attempt : Attempt} {permit : DispatchPermit}
    {dispatchedAt : Int}
    (h : (table.markAttemptDispatched atomics before permit dispatchedAt).2.2 = .ok attempt) :
    (∃ row, Holds table permit.token (truncateTime dispatchedAt) row) ∧
      permit.authorizedAt ≤ truncateTime dispatchedAt ∧
      truncateTime dispatchedAt < permit.deadline ∧
      attempt = { before with state := .dispatched, dispatchedAt := truncateTime dispatchedAt } := by
  revert h
  unfold LeaseTable.markAttemptDispatched
  fun_cases LeaseTable.markAttemptDispatchedReturned table atomics before permit dispatchedAt
  case case7 hn hinstant observed _ hobs _ hcur _ _ =>
    intro h
    obtain ⟨prior, hholds, -, -⟩ := holds_of_current (normalizeTime_ok hn).2.2.1 hobs hcur
    simp only [dispatchInstant, Bool.not_eq_true, Bool.not_eq_false', Bool.and_eq_true,
      decide_eq_true_eq] at hinstant
    rw [← normalizeTime_eq_truncate hn]
    exact ⟨⟨prior, hholds⟩, hinstant.1.1.1.2, hinstant.1.1.2, (Except.ok.inj h).symm⟩
  all_goals simp

theorem authorizeCommit_ok {bundle : TransitionBundle}
    (h : (table.authorizeCommit databaseTime token bundle).2 = .ok ()) :
    validateLeaseBinding token.binding = true := by
  revert h
  fun_cases LeaseTable.authorizeCommit table databaseTime token bundle
  case case6 hcur => exact fun _ => (currentRowLocked_some hcur).2.2.2.2.2
  all_goals simp

end Results

/-! ## Every step is a register move -/

def FleetReply.tokenLabel (here : Bool) (label : LeaseToken → Label) : FleetReply → Label
  | token result => resultLabel here label result
  | _ => .quiet

/-- The label of a call made with a token: `label` when it succeeded. -/
def FleetReply.heldLabel (here : Bool) (label : Label) : FleetReply → Label
  | token result => resultLabel here (fun _ => label) result
  | permit result => resultLabel here (fun _ => label) result
  | attempt result => resultLabel here (fun _ => label) result
  | done result => resultLabel here (fun _ => label) result
  | minted _ => .quiet

theorem FleetReply.tokenLabel_eq {here : Bool} {label : LeaseToken → Label} {reply : FleetReply}
    {seen : Label} (h : reply.tokenLabel here label = seen) (hseen : seen ≠ .quiet) :
    ∃ token, reply = .token (.ok token) ∧ here = true ∧ label token = seen := by
  cases reply with
  | token result =>
    cases result with
    | error => exact (hseen h.symm).elim
    | ok value =>
      cases here with
      | false => exact (hseen h.symm).elim
      | true => exact ⟨value, rfl, rfl, h⟩
  | permit | attempt | done | minted => exact (hseen h.symm).elim

theorem FleetReply.heldLabel_eq {here : Bool} {label : Label} {reply : FleetReply} {seen : Label}
    (h : reply.heldLabel here label = seen) (hseen : seen ≠ .quiet) :
    here = true ∧ reply.succeeded = true ∧ label = seen := by
  cases reply with
  | token result | permit result | attempt result | done result =>
    cases result with
    | error => exact (hseen h.symm).elim
    | ok =>
      cases here with
      | false => exact (hseen h.symm).elim
      | true => exact ⟨rfl, rfl, h⟩
  | minted => exact (hseen h.symm).elim

/-- What a call and its reply show on the row of a workspace and resource in table `i`. -/
def fleetLabel (i : Nat) (workspaceID resourceID : ID) (call : FleetCall) (reply : FleetReply) :
    Label :=
  match call with
  | .acquire j databaseTime binding _ =>
    reply.tokenLabel (j == i && onRow workspaceID resourceID binding)
      fun token => .issue token.fence (truncateTime databaseTime)
  | .acquireReplacement j databaseTime _ _ =>
    reply.tokenLabel (j == i)
      fun token => if onRow workspaceID resourceID token.binding then
        .replace token.fence (truncateTime databaseTime) else .quiet
  | .renew j databaseTime token =>
    reply.heldLabel (j == i && onRow workspaceID resourceID token.binding)
      (.renew token.fence (truncateTime databaseTime))
  | .surrender j databaseTime token =>
    reply.heldLabel (j == i && onRow workspaceID resourceID token.binding)
      (.release token.fence (truncateTime databaseTime))
  | .authorizeDispatch j databaseTime token _ _ =>
    reply.heldLabel (j == i && onRow workspaceID resourceID token.binding)
      (.use token.fence (truncateTime databaseTime))
  | .markAttemptDispatched j _ permit dispatchedAt =>
    reply.heldLabel (j == i && onRow workspaceID resourceID permit.token.binding)
      (.use permit.token.fence (truncateTime dispatchedAt))
  | .authorizeCommit j databaseTime token _ =>
    reply.heldLabel (j == i && onRow workspaceID resourceID token.binding)
      (.use token.fence (truncateTime databaseTime))
  | .selectPlan .. => .quiet
  | .authorizeGenerationReplacement .. => .quiet

variable {α : Type*} {result : Except Failure α} {mark : α → Label}

theorem resultLabel_congr {here here' : Bool} {mark' : α → Label} (h : ∀ value,
      result = .ok value → (if here then mark value else .quiet) = if here' then mark' value else
      .quiet) : resultLabel here mark result = resultLabel here' mark' result := by
  cases result with
  | error => rfl
  | ok value => exact h value rfl

variable {fleet : Fleet} {i j : Nat} {workspaceID resourceID : ID}

theorem resultLabel_onRow {binding : LeaseBinding}
    (h : ∀ value, result = .ok value → validateLeaseBinding binding = true) :
    resultLabel (onRow workspaceID resourceID binding) mark result =
      resultLabel (rowKey workspaceID resourceID == leaseRowKey binding) mark result := by
  refine resultLabel_congr fun value hok => ?_
  rw [rowKey_eq_leaseRowKey (h value hok)]

theorem setTable_move {table : LeaseTable} {atomics : Atomics} {here : Bool}
    (h : LeaseMove ((fleet.tables j).view (rowKey workspaceID resourceID))
      (resultLabel here mark result) (table.view (rowKey workspaceID resourceID))) :
    LeaseMove (fleet.view i workspaceID resourceID) (resultLabel (j == i && here) mark result)
      ((fleet.setTable j table atomics).view i workspaceID resourceID) := by
  unfold Fleet.view Fleet.setTable
  by_cases hij : i = j
  · subst hij
    simpa using h
  have hlabel : resultLabel (j == i && here) mark result = .quiet := by
    rw [show (j == i) = false by simpa using fun h => hij h.symm, Bool.false_and]
    cases result <;> rfl
  rw [hlabel]
  simpa [hij] using Move.quiet _

theorem fleet_move [Sha256] (fleet : Fleet) (call : FleetCall) (i : Nat)
    (workspaceID resourceID : ID) :
    LeaseMove (fleet.view i workspaceID resourceID)
      (fleetLabel i workspaceID resourceID call (fleetStep fleet call).2)
      ((fleetStep fleet call).1.view i workspaceID resourceID) := by
  cases call with
  | acquire =>
    simp only [fleetStep, fleetLabel, FleetReply.tokenLabel]
    refine setTable_move ?_
    rw [resultLabel_onRow fun _ hok => (acquire_ok hok).1]
    exact acquire_move _ _ _ _ _
  | acquireReplacement j databaseTime n ownerID =>
    cases hn : fleet.authorities[n]? with
    | none =>
      simp only [fleetStep, hn, fleetLabel, FleetReply.tokenLabel, resultLabel_error]
      exact .quiet _
    | some authority =>
      simp only [fleetStep, hn, fleetLabel, FleetReply.tokenLabel]
      rw [← Bool.and_true (j == i)]
      refine setTable_move ?_
      have hmove := acquireReplacement_move (fleet.tables j) fleet.atomics databaseTime authority
        ownerID (rowKey workspaceID resourceID)
      rwa [resultLabel_congr fun token hok => ?_]
      · obtain ⟨hvalid, hbinding, -⟩ := acquireReplacement_ok hok
        simp only [validateLeaseReplacementAuthority, Bool.and_eq_true, beq_iff_eq] at hvalid
        rw [hvalid.1.1.1.2, rowKey_eq_leaseRowKey hvalid.1.1.1.1.1.1.2, hbinding]
        rfl
  | renew =>
    simp only [fleetStep, fleetLabel, FleetReply.heldLabel]
    refine setTable_move ?_
    rw [resultLabel_onRow fun _ hok => (renew_ok hok).1]
    exact renew_move _ _ _ _
  | surrender =>
    simp only [fleetStep, fleetLabel, FleetReply.heldLabel]
    refine setTable_move ?_
    rw [resultLabel_onRow fun _ hok => surrender_ok hok]
    exact surrender_move _ _ _ _
  | authorizeDispatch =>
    simp only [fleetStep, fleetLabel, FleetReply.heldLabel]
    refine setTable_move ?_
    rw [resultLabel_onRow fun _ hok => (authorizeDispatch_ok hok).choose_spec.1.valid]
    exact authorizeDispatch_move _ _ _ _ _ _ _
  | markAttemptDispatched =>
    simp only [fleetStep, fleetLabel, FleetReply.heldLabel]
    refine setTable_move ?_
    rw [resultLabel_onRow fun _ hok => (markAttemptDispatched_ok hok).1.choose_spec.valid]
    exact markAttemptDispatched_move _ _ _ _ _ _
  | authorizeCommit =>
    simp only [fleetStep, fleetLabel, FleetReply.heldLabel]
    refine setTable_move ?_
    rw [resultLabel_onRow fun _ hok => authorizeCommit_ok hok]
    exact authorizeCommit_move _ _ _ _ _
  | selectPlan | authorizeGenerationReplacement =>
    exact .quiet _

def FleetEntry.label (i : Nat) (workspaceID resourceID : ID) (e : FleetEntry) : Label :=
  fleetLabel i workspaceID resourceID e.input e.output

/-- A run of the fleet is, on every row of every table, a path of the abstract register. -/
theorem fleet_path [Sha256] (fleet : Fleet) (calls : List FleetCall) (i : Nat)
    (workspaceID resourceID : ID) :
    Path LeaseMove (fleet.view i workspaceID resourceID)
      ((fleetMachine.trace fleet calls).map (FleetEntry.label i workspaceID resourceID))
      ((fleetMachine.exec fleet calls).view i workspaceID resourceID) :=
  trace_path fleetMachine (P := fun _ => True) (fun s => s.view i workspaceID resourceID)
    (FleetEntry.label i workspaceID resourceID) (fun _ _ _ => trivial)
    (fun s c _ => fleet_move s c i workspaceID resourceID) trivial calls

end Veer.Reconcile
