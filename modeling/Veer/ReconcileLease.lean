import Veer.ReconcilePrepare

/-!
# Lease rows and fencing

A call on a `LeaseTable` runs under the table's lock. It returns the table it leaves behind
together with its result, since a failing call may still move a row's clock.
-/
namespace Veer.Reconcile

open AtomicCells

structure LeaseBinding where
  initialized : Bool
  workspaceID : ID
  resourceID : ID
  generation : Int
  operationID : ID
  planRevision : Nat
  planDigest : PlanDigest
  deriving DecidableEq, Repr

def validateLeaseBinding (value : LeaseBinding) : Bool :=
  value.initialized && validID value.workspaceID && validID value.resourceID &&
    validID value.operationID && decide (1 ≤ value.generation) && value.planRevision != 0 &&
    value.planDigest.initialized

def leaseBindingFromPlan [Sha256] (plan : Plan) : Except Failure LeaseBinding :=
  if !validatePlan plan then .error [.invalidLease]
  else .ok
    { initialized := true
      workspaceID := plan.workspaceID
      resourceID := plan.resourceID
      generation := plan.generation
      operationID := plan.operationID
      planRevision := plan.revision
      planDigest := plan.digest }

def LeaseBinding.equal (value other : LeaseBinding) : Bool :=
  validateLeaseBinding value && validateLeaseBinding other &&
    value.workspaceID == other.workspaceID && value.resourceID == other.resourceID &&
    value.generation == other.generation && value.operationID == other.operationID &&
    value.planRevision == other.planRevision && equalDigest value.planDigest other.planDigest

theorem LeaseBinding.equal_iff {value other : LeaseBinding} :
    value.equal other = true ↔ validateLeaseBinding value = true ∧ value = other := by
  rcases value with ⟨vi, vw, vr, vg, vo, vp, vd⟩
  rcases other with ⟨oi, ow, or_, og, oo, op, od⟩
  simp only [LeaseBinding.equal, validateLeaseBinding, Bool.and_eq_true, beq_iff_eq,
    equalDigest_iff, decide_eq_true_eq, LeaseBinding.mk.injEq]
  aesop

/-- Same generation and operation at the next revision, or a later generation of another
operation at revision one. -/
def leaseBindingMovesForward (current candidate : LeaseBinding) : Bool :=
  if candidate.generation < current.generation then false
  else if candidate.generation = current.generation then
    candidate.operationID == current.operationID && decide (current.planRevision < maxUint32) &&
      candidate.planRevision == current.planRevision + 1
  else candidate.operationID != current.operationID && candidate.planRevision == 1

def leaseRowKey (value : LeaseBinding) : String := value.workspaceID ++ ":" ++ value.resourceID

/-- One stable row: `ownerID` is empty while nobody holds it. -/
structure LeaseRow where
  binding : LeaseBinding
  ownerID : ID
  fence : Int
  acquiredAt : Int
  expiresAt : Int
  observedAt : Int
  deriving DecidableEq, Repr

structure LeaseToken where
  initialized : Bool
  table : Option Nat
  binding : LeaseBinding
  ownerID : ID
  fence : Int
  acquiredAt : Int
  expiresAt : Int
  deriving DecidableEq, Repr

def validateLeaseToken (value : LeaseToken) : Bool :=
  value.initialized && value.table.isSome && validateLeaseBinding value.binding &&
    validID value.ownerID && decide (1 ≤ value.fence) && value.acquiredAt != 0 &&
    value.expiresAt != 0 && decide (storeLeaseDuration ≤ timeSub value.expiresAt value.acquiredAt)

/-- `identity` is the address that tells tables apart. -/
structure LeaseTable where
  initialized : Bool
  identity : Nat
  maximum : Nat
  rows : AList (fun _ : String => LeaseRow)

def newLeaseTable (identity : Nat) (maximum : Int) : Except Failure LeaseTable :=
  if maximum < 1 then .error [.invalidLease] else .ok ⟨true, identity, maximum.toNat, ∅⟩

def tokenFromRow (row : LeaseRow) (table : Nat) : LeaseToken :=
  { initialized := true
    table := some table
    binding := row.binding
    ownerID := row.ownerID
    fence := row.fence
    acquiredAt := row.acquiredAt
    expiresAt := row.expiresAt }

def nextFence (previous : Int) : Except Failure Int :=
  if previous < 0 ∨ previous = maxFence then .error [.fenceExhausted] else .ok (previous + 1)

def LeaseTable.write (table : LeaseTable) (key : String) (row : LeaseRow) : LeaseTable :=
  { table with rows := table.rows.insert key row }

/-- Move the row's clock to `now`, and give back the table with the row as it now stands. -/
def LeaseTable.observeNowLocked (table : LeaseTable) (key : String) (now : Int) :
    Except Failure (LeaseTable × LeaseRow) :=
  match table.rows.lookup key with
  | none => .error [.leaseLost]
  | some row =>
    if row.observedAt ≠ 0 ∧ now < row.observedAt then .error [.clockRegressed]
    else if row.observedAt < now then
      .ok (table.write key { row with observedAt := now }, { row with observedAt := now })
    else .ok (table, row)

def LeaseTable.currentRowLocked (table : LeaseTable) (now : Int) (token : LeaseToken) :
    Option LeaseRow :=
  if token.table ≠ some table.identity then none
  else
    match table.rows.lookup (leaseRowKey token.binding) with
    | none => none
    | some row =>
      if row.ownerID = "" ∨ row.expiresAt ≤ now ∨ row.ownerID ≠ token.ownerID ∨
          row.fence ≠ token.fence ∨ !row.binding.equal token.binding then none
      else some row

/-- The fence and expiry that `Acquire` and `AcquireReplacement` give a new owner. -/
def grantedRow (binding : LeaseBinding) (ownerID : ID) (previousFence now : Int) :
    Except Failure LeaseRow :=
  match nextFence previousFence with
  | .error failure => .error failure
  | .ok fence =>
    match addNormalizedDuration now storeLeaseDuration with
    | .error failure => .error (.invalidLease :: failure)
    | .ok expiresAt => .ok ⟨binding, ownerID, fence, now, expiresAt, now⟩

def LeaseTable.grant (table : LeaseTable) (key : String) (row : Except Failure LeaseRow) :
    LeaseTable × Except Failure LeaseToken :=
  match row with
  | .error failure => (table, .error failure)
  | .ok row => (table.write key row, .ok (tokenFromRow row table.identity))

def LeaseTable.acquire (table : LeaseTable) (databaseTime : Int) (binding : LeaseBinding)
    (ownerID : ID) : LeaseTable × Except Failure LeaseToken :=
  if !table.initialized || !validateLeaseBinding binding || !validID ownerID then
    (table, .error [.invalidLease])
  else
    match normalizeTime databaseTime with
    | .error failure => (table, .error (.invalidLease :: failure))
    | .ok now =>
      match table.rows.lookup (leaseRowKey binding) with
      | none =>
        if table.maximum ≤ table.rows.keys.length then (table, .error [.capacity])
        else table.grant (leaseRowKey binding) (grantedRow binding ownerID 0 now)
      | some _ =>
        match table.observeNowLocked (leaseRowKey binding) now with
        | .error failure => (table, .error failure)
        | .ok (observed, row) =>
          if !row.binding.equal binding then (observed, .error [.leaseLost])
          else if row.ownerID ≠ "" ∧ now < row.expiresAt then (observed, .error [.leaseHeld])
          else observed.grant (leaseRowKey binding) (grantedRow binding ownerID row.fence now)

/-! ## Replacement -/

structure LeaseReplacementAuthority where
  initialized : Bool
  expected : LeaseBinding
  replacement : LeaseBinding
  replacementKind : PlanKind
  compensationSchedule : DigestValue
  admissionBinding : DigestValue
  transition : Option Nat
  use : Option Nat
  deriving DecidableEq, Repr

def validateLeaseReplacementAuthority (value : LeaseReplacementAuthority) : Bool :=
  value.initialized && validateLeaseBinding value.expected &&
    validateLeaseBinding value.replacement && value.use.isSome &&
    ((value.replacementKind == .compensation) == value.compensationSchedule.initialized) &&
    leaseRowKey value.expected == leaseRowKey value.replacement &&
    leaseBindingMovesForward value.expected value.replacement &&
    (decide (value.expected.generation < value.replacement.generation) ==
      value.admissionBinding.initialized) &&
    (decide (value.expected.generation < value.replacement.generation) == value.transition.isSome)

/-- Spend the authority's flag, then look at its transition word. -/
def consumeReplacement (authority : LeaseReplacementAuthority) (atomics : Atomics) :
    Atomics × Bool :=
  match authority.use with
  | none => (atomics, false)
  | some use =>
    let (flags, swapped) := atomics.flags.compareAndSwap use false true
    let spent : Atomics := { atomics with flags := flags }
    match authority.transition with
    | none => (spent, swapped)
    | some transition => (spent, swapped && spent.words.load transition == 0)

/-- Publish the paired admission once the replacement row is written. -/
def publishReplacement (authority : LeaseReplacementAuthority) (atomics : Atomics) : Atomics :=
  match authority.transition with
  | none => atomics
  | some transition => { atomics with words := atomics.words.store transition 1 }

def LeaseTable.acquireReplacement (table : LeaseTable) (atomics : Atomics) (databaseTime : Int)
    (authority : LeaseReplacementAuthority) (ownerID : ID) :
    LeaseTable × Atomics × Except Failure LeaseToken :=
  if !table.initialized || !validateLeaseReplacementAuthority authority || !validID ownerID then
    (table, atomics, .error [.invalidLease])
  else
    match normalizeTime databaseTime with
    | .error failure => (table, atomics, .error (.invalidLease :: failure))
    | .ok now =>
      match table.observeNowLocked (leaseRowKey authority.expected) now with
      | .error failure => (table, atomics, .error failure)
      | .ok (observed, row) =>
        if !row.binding.equal authority.expected then (observed, atomics, .error [.leaseLost])
        else if row.ownerID ≠ "" ∧ now < row.expiresAt then
          (observed, atomics, .error [.leaseHeld])
        else
          match grantedRow authority.replacement ownerID row.fence now with
          | .error failure => (observed, atomics, .error failure)
          | .ok replaced =>
            let (spent, consumed) := consumeReplacement authority atomics
            if consumed then
              (observed.write (leaseRowKey authority.expected) replaced,
                publishReplacement authority spent, .ok (tokenFromRow replaced table.identity))
            else (observed, spent, .error [.invalidLease])

/-! ## Renewal and surrender -/

def LeaseTable.renew (table : LeaseTable) (databaseTime : Int) (token : LeaseToken) :
    LeaseTable × Except Failure LeaseToken :=
  if !table.initialized || !validateLeaseToken token then (table, .error [.invalidLease])
  else if token.table ≠ some table.identity then (table, .error [.leaseLost])
  else
    match normalizeTime databaseTime with
    | .error failure => (table, .error (.invalidLease :: failure))
    | .ok now =>
      match table.observeNowLocked (leaseRowKey token.binding) now with
      | .error failure => (table, .error failure)
      | .ok (observed, _) =>
        match observed.currentRowLocked now token with
        | none => (observed, .error [.leaseLost])
        | some row =>
          match addNormalizedDuration now storeLeaseDuration with
          | .error failure => (observed, .error (.invalidLease :: failure))
          | .ok expiresAt =>
            let renewed : LeaseRow := { row with expiresAt := expiresAt, observedAt := now }
            (observed.write (leaseRowKey token.binding) renewed,
              .ok (tokenFromRow renewed table.identity))

def LeaseTable.surrender (table : LeaseTable) (databaseTime : Int) (token : LeaseToken) :
    LeaseTable × Except Failure Unit :=
  if !table.initialized || !validateLeaseToken token then (table, .error [.invalidLease])
  else if token.table ≠ some table.identity then (table, .error [.leaseLost])
  else
    match normalizeTime databaseTime with
    | .error failure => (table, .error (.invalidLease :: failure))
    | .ok now =>
      match table.observeNowLocked (leaseRowKey token.binding) now with
      | .error failure => (table, .error failure)
      | .ok (observed, _) =>
        match observed.currentRowLocked now token with
        | none => (observed, .error [.leaseLost])
        | some row =>
          (observed.write (leaseRowKey token.binding)
            { row with ownerID := "", expiresAt := now, observedAt := now }, .ok ())

/-! ## Dispatch and commit -/

structure DispatchAuthority where
  initialized : Bool
  planDigest : PlanDigest
  attemptBinding : DigestValue
  authorizationInput : String
  policyVersion : String
  observedAt : Int
  use : Option Nat
  deriving DecidableEq, Repr

structure DispatchPermit where
  initialized : Bool
  token : LeaseToken
  attemptBinding : DigestValue
  authorizedAt : Int
  deadline : Int
  use : Option Nat
  deriving DecidableEq, Repr

def validateDispatchAuthority (value : DispatchAuthority) : Bool :=
  value.initialized && value.planDigest.initialized && value.authorizationInput != "" &&
    value.attemptBinding.initialized && value.policyVersion != "" && value.use.isSome &&
    isNormalized value.observedAt

def validateDispatchPermit (value : DispatchPermit) : Bool :=
  value.initialized && validateLeaseToken value.token && value.authorizedAt != 0 &&
    value.attemptBinding.initialized && value.use.isSome && value.deadline != 0 &&
    decide (value.authorizedAt < value.deadline) &&
    decide (value.deadline < value.token.expiresAt - dispatchSafetyMargin)

/-- One swap of a capability's shared flag; a nil flag never passes validation. -/
def spendFlag (use : Option Nat) (atomics : Atomics) : Atomics × Bool :=
  match use with
  | none => (atomics, false)
  | some use =>
    let (flags, swapped) := atomics.flags.compareAndSwap use false true
    ({ atomics with flags := flags }, swapped)

theorem spendFlag_true {use : Option Nat} {atomics spent : Atomics}
    (h : spendFlag use atomics = (spent, true)) :
    ∃ p, use = some p ∧ atomics.flags.load p = false ∧
      spent = { atomics with flags := atomics.flags.store p true } := by
  cases use with
  | none => simp [spendFlag] at h
  | some p =>
    rcases hswap : atomics.flags.compareAndSwap p false true with ⟨flags, swapped⟩
    simp only [spendFlag, hswap, Prod.mk.injEq] at h
    obtain ⟨rfl, rfl⟩ := h
    obtain ⟨hload, rfl⟩ := compareAndSwap_success hswap
    exact ⟨p, rfl, hload, rfl⟩

theorem spendFlag_false {use : Option Nat} {atomics spent : Atomics}
    (h : spendFlag use atomics = (spent, false)) : spent = atomics := by
  cases use with
  | none => exact (Prod.mk.inj h).1.symm
  | some p =>
    rcases hswap : atomics.flags.compareAndSwap p false true with ⟨flags, swapped⟩
    simp only [spendFlag, hswap, Prod.mk.injEq] at h
    obtain ⟨rfl, rfl⟩ := h
    obtain ⟨-, rfl⟩ := compareAndSwap_failure hswap
    rfl

def LeaseTable.authorizeDispatch (table : LeaseTable) (atomics : Atomics) (databaseTime : Int)
    (token : LeaseToken) (rpcTimeout : Int) (authority : DispatchAuthority) :
    LeaseTable × Atomics × Except Failure DispatchPermit :=
  if !table.initialized || !validateLeaseToken token || !validateDispatchAuthority authority ||
      !equalDigest authority.planDigest token.binding.planDigest || decide (rpcTimeout ≤ 0) then
    (table, atomics, .error [.dispatchAuthority])
  else if token.table ≠ some table.identity then (table, atomics, .error [.leaseLost])
  else
    match normalizeTime databaseTime with
    | .error failure => (table, atomics, .error (.dispatchAuthority :: failure))
    | .ok now =>
      match table.observeNowLocked (leaseRowKey token.binding) now with
      | .error failure => (table, atomics, .error failure)
      | .ok (observed, _) =>
        if authority.observedAt ≠ now then (observed, atomics, .error [.dispatchAuthority])
        else
          match observed.currentRowLocked now token with
          | none => (observed, atomics, .error [.leaseLost])
          | some row =>
            match addNormalizedDuration now rpcTimeout with
            | .error _ => (observed, atomics, .error [.dispatchWindow])
            | .ok deadline =>
              if deadline ≤ now ∨ row.expiresAt - dispatchSafetyMargin ≤ deadline then
                (observed, atomics, .error [.dispatchWindow])
              else
                let (spent, swapped) := spendFlag authority.use atomics
                if swapped then
                  let (flags, use) := spent.flags.alloc
                  (observed, { spent with flags := flags }, .ok
                    { initialized := true
                      token := tokenFromRow row table.identity
                      attemptBinding := authority.attemptBinding
                      authorizedAt := now
                      deadline := deadline
                      use := some use })
                else (observed, spent, .error [.dispatchAuthority])

/-- The instants at which a prepared attempt may still be dispatched under a permit. -/
def dispatchInstant (before : Attempt) (permit : DispatchPermit) (now : Int) : Bool :=
  decide (before.preparedAt ≤ now) && decide (permit.authorizedAt ≤ now) &&
    decide (now < permit.deadline) &&
    (before.retryValidUntil == 0 || decide (now < before.retryValidUntil)) &&
    (before.observationDeadline == 0 || decide (now < before.observationDeadline))

def LeaseTable.markAttemptDispatchedReturned [Sha256] (table : LeaseTable) (atomics : Atomics)
    (before : Attempt) (permit : DispatchPermit) (dispatchedAt : Int) :
    LeaseTable × Atomics × Attempt × Option Failure :=
  if !table.initialized || !validateAttempt before || before.state != .prepared ||
      !validateDispatchPermit permit ||
      !equalDigest permit.attemptBinding (deriveAttemptDispatchBinding before) ||
      !equalDigest permit.token.binding.planDigest before.planDigest ||
      permit.token.ownerID != before.ownerID || permit.token.fence != before.fence then
    (table, atomics, before, some [.invalidTransition])
  else if permit.token.table ≠ some table.identity then
    (table, atomics, before, some [.leaseLost])
  else
    match normalizeTime dispatchedAt with
    | .error _ => (table, atomics, before, some [.invalidTransition])
    | .ok now =>
      if !dispatchInstant before permit now then
        (table, atomics, before, some [.invalidTransition])
      else
        match table.observeNowLocked (leaseRowKey permit.token.binding) now with
        | .error failure => (table, atomics, before, some failure)
        | .ok (observed, _) =>
          match observed.currentRowLocked now permit.token with
          | none => (observed, atomics, before, some [.leaseLost])
          | some _ =>
            let (spent, swapped) := spendFlag permit.use atomics
            if swapped then
              (observed, spent, { before with state := .dispatched, dispatchedAt := now }, none)
            else (observed, spent, before, some [.invalidTransition])

def LeaseTable.markAttemptDispatched [Sha256] (table : LeaseTable) (atomics : Atomics)
    (before : Attempt) (permit : DispatchPermit) (dispatchedAt : Int) :
    LeaseTable × Atomics × Except Failure Attempt :=
  let (table, atomics, returned) :=
    table.markAttemptDispatchedReturned atomics before permit dispatchedAt
  (table, atomics, exceptOf returned)

/-- The cardinality facts of one atomic worker commit. -/
structure TransitionBundle where
  initialized : Bool
  operationWrite : Bool
  attemptWrite : Bool
  observationWrite : Bool
  providerPossiblyDispatched : Bool
  providerAttemptAuditEvents : Nat
  successorOutboxRecords : Nat
  deriving DecidableEq, Repr

def LeaseTable.authorizeCommit (table : LeaseTable) (databaseTime : Int) (token : LeaseToken)
    (bundle : TransitionBundle) : LeaseTable × Except Failure Unit :=
  if !table.initialized || !validateLeaseToken token || !bundle.initialized then
    (table, .error [.invalidTransition])
  else if token.table ≠ some table.identity then (table, .error [.leaseLost])
  else
    match normalizeTime databaseTime with
    | .error failure => (table, .error failure)
    | .ok now =>
      match table.observeNowLocked (leaseRowKey token.binding) now with
      | .error failure => (table, .error failure)
      | .ok (observed, _) =>
        match observed.currentRowLocked now token with
        | none => (observed, .error [.leaseLost])
        | some _ => (observed, .ok ())

end Veer.Reconcile
