import Veer.StepMachine
import Veer.ReconcileObservation

/-!
# Attempt capabilities, one atomic step at a time

Pools keep the permits, admissions and replacement authorities minted so far; calls are made
on copies of them. A call with one access to shared memory is one step of the machine.
`AcquireReplacement` and `ReleaseObservation` have several, so each of them is a thread that
stops before every access.
-/
namespace Veer.Reconcile

open StepMachine AtomicCells

/-! ## The accesses of a replacement -/

/-- `AcquireReplacement` up to its first atomic access, under the table's lock. -/
def LeaseTable.replacementRow (table : LeaseTable) (databaseTime : Int)
    (authority : LeaseReplacementAuthority) (ownerID : ID) :
    LeaseTable × Except Failure LeaseRow :=
  if !table.initialized || !validateLeaseReplacementAuthority authority || !validID ownerID then
    (table, .error [.invalidLease])
  else
    match normalizeTime databaseTime with
    | .error failure => (table, .error (.invalidLease :: failure))
    | .ok now =>
      match table.observeNowLocked (leaseRowKey authority.expected) now with
      | .error failure => (table, .error failure)
      | .ok (observed, row) =>
        if !row.binding.equal authority.expected then (observed, .error [.leaseLost])
        else if row.ownerID ≠ "" ∧ now < row.expiresAt then (observed, .error [.leaseHeld])
        else (observed, grantedRow authority.replacement ownerID row.fence now)

/-- The transition word, if there is one, has not been published. -/
def LeaseReplacementAuthority.unpublished (authority : LeaseReplacementAuthority)
    (words : Cells Nat) : Bool :=
  authority.transition.all fun p => words.load p == 0

theorem consumeReplacement_eq (authority : LeaseReplacementAuthority) (atomics : Atomics) :
    consumeReplacement authority atomics = ((spendFlag authority.use atomics).1,
      (spendFlag authority.use atomics).2 &&
        authority.unpublished (spendFlag authority.use atomics).1.words) := by
  unfold consumeReplacement spendFlag LeaseReplacementAuthority.unpublished
  cases authority.use with
  | none => rfl
  | some => cases authority.transition <;> simp

theorem acquireReplacement_eq (table : LeaseTable) (atomics : Atomics) (databaseTime : Int)
    (authority : LeaseReplacementAuthority) (ownerID : ID) :
    table.acquireReplacement atomics databaseTime authority ownerID =
      match table.replacementRow databaseTime authority ownerID with
      | (observed, .error failure) => (observed, atomics, .error failure)
      | (observed, .ok replaced) =>
        match consumeReplacement authority atomics with
        | (spent, true) =>
          (observed.write (leaseRowKey authority.expected) replaced,
            publishReplacement authority spent, .ok (tokenFromRow replaced table.identity))
        | (spent, false) => (observed, spent, .error [.invalidLease]) := by
  unfold LeaseTable.acquireReplacement LeaseTable.replacementRow
  rcases consumeReplacement authority atomics with ⟨spent, consumed⟩
  split_ifs with hvalid
  · rfl
  cases normalizeTime databaseTime with
  | error => rfl
  | ok now =>
    dsimp only
    rcases table.observeNowLocked (leaseRowKey authority.expected) now with _ | ⟨observed, row⟩
    · rfl
    dsimp only
    rcases grantedRow authority.replacement ownerID row.fence now with failure | replaced
    · split_ifs <;> rfl
    · cases consumed <;> split_ifs <;> first | rfl | simp_all

/-- A replacement past its checks: the row it is going to write into its table. -/
structure Replacing where
  table : Nat
  k : Nat
  authority : LeaseReplacementAuthority
  replaced : LeaseRow

/-- A release past its checks. -/
structure Releasing where
  m : Nat
  permit : ObservationPermit
  budget : ObservationBudget
  now : Int

/-- A call in flight, by the access it makes next. -/
inductive Pending
  | lock (table k : Nat) (authority : LeaseReplacementAuthority) (databaseTime : Int) (ownerID : ID)
  | spend (call : Replacing)
  | inspect (call : Replacing)
  | write (call : Replacing)
  | publish (call : Replacing)
  | load (call : Releasing)
  | swap (call : Releasing) (state : Nat)
  | close (call : Releasing)
  | returned

structure Workshop where
  tables : Nat → LeaseTable
  locked : Nat → Bool
  atomics : Atomics
  permits : List ObservationPermit
  admissions : List AttemptAdmission
  authorities : List LeaseReplacementAuthority
  threads : List Pending

/-- Inputs name minted values by their place in the pools. Budgets, plans, projections and
proofs are arbitrary; `elsewhere` is any other call on a table that nobody has locked. -/
inductive WorkCall
  | reserveObservation (budget : ObservationBudget) (reservedAt : Int)
  | newAttemptAdmission (input : AttemptAdmissionInput) (permit : Option Nat)
  | selectPlan (current candidate : Plan) (priorAttempts : List Attempt)
      (currentEffects : List EffectProjection) (freshObservation : Bool)
      (compensationProofs : List CompensationProof)
  | authorizeGenerationReplacement (current candidate : Plan) (input : AttemptAdmissionInput)
      (permit : Option Nat)
  | newPreparedAttempt (n : Nat) (id : ID) (ordinal : Nat) (ownerID : ID) (fence : Int)
  | acquireReplacement (table k : Nat) (databaseTime : Int) (ownerID : ID)
  | releaseObservation (m : Nat) (budget : ObservationBudget) (releasedAt : Int)
  | resume (t : Nat)
  | elsewhere (table : Nat) (after : LeaseTable)

/-- What a step made of the pools: the place of what it minted, and of what it was made with. -/
inductive WorkEvent
  | reserved (m : Nat)
  | admitted (permit : Option Nat) (n : Nat)
  | selected (k : Nat)
  | paired (k n : Nat)
  | prepared (n : Nat) (attempt : Attempt)
  | replaced (k : Nat) (token : LeaseToken)
  | released (m : Nat) (budget : ObservationBudget)
  | silent
  deriving DecidableEq

namespace Workshop

def setTable (shop : Workshop) (i : Nat) (table : LeaseTable) : Workshop :=
  { shop with tables := Function.update shop.tables i table }

def setLock (shop : Workshop) (i : Nat) (held : Bool) : Workshop :=
  { shop with locked := Function.update shop.locked i held }

def become (shop : Workshop) (t : Nat) (pending : Pending) : Workshop :=
  { shop with threads := shop.threads.set t pending }

def withAtomics (shop : Workshop) (atomics : Atomics) : Workshop := { shop with atomics := atomics }

/-- The input with a copy of the permit at the given place, if there is one. -/
def withPermit (shop : Workshop) (input : AttemptAdmissionInput) :
    Option Nat → Option AttemptAdmissionInput
  | none => some { input with observation := none }
  | some m => shop.permits[m]?.map fun permit => { input with observation := some permit }

/-- The next access of thread `t`. -/
def resume (shop : Workshop) (t : Nat) : Pending → Workshop × WorkEvent
  | .lock i k authority databaseTime ownerID =>
    -- a locked table keeps the caller waiting
    if shop.locked i then (shop, .silent)
    else
      match (shop.tables i).replacementRow databaseTime authority ownerID with
      | (observed, .error _) => ((shop.setTable i observed).become t .returned, .silent)
      | (observed, .ok replaced) =>
        (((shop.setTable i observed).setLock i true).become t
          (.spend ⟨i, k, authority, replaced⟩), .silent)
  | .spend call =>
    match spendFlag call.authority.use shop.atomics with
    | (spent, true) => ((shop.withAtomics spent).become t (.inspect call), .silent)
    | (spent, false) =>
      (((shop.withAtomics spent).setLock call.table false).become t .returned, .silent)
  | .inspect call =>
    if call.authority.unpublished shop.atomics.words then (shop.become t (.write call), .silent)
    else ((shop.setLock call.table false).become t .returned, .silent)
  | .write call =>
    ((shop.setTable call.table ((shop.tables call.table).write
      (leaseRowKey call.authority.expected) call.replaced)).become t (.publish call), .silent)
  | .publish call =>
    ((((shop.withAtomics (publishReplacement call.authority shop.atomics)).setLock call.table
      false).become t .returned),
      .replaced call.k (tokenFromRow call.replaced (shop.tables call.table).identity))
  | .load call =>
    match call.permit.transition with
    | none => (shop.become t .returned, .silent)
    | some p =>
      let state := shop.atomics.words.load p
      if state ≠ observationReserved ∧ state ≠ observationAdmitted then
        (shop.become t .returned, .silent)
      else (shop.become t (.swap call state), .silent)
  | .swap call state =>
    match call.permit.transition with
    | none => (shop.become t .returned, .silent)
    | some p =>
      match shop.atomics.words.compareAndSwap p state observationReleased with
      | (words, true) =>
        ((shop.withAtomics { shop.atomics with words := words }).become t (.close call), .silent)
      | (_, false) => (shop.become t (.load call), .silent)
  | .close call =>
    match call.budget.advance { call.budget with
        version := call.budget.version + 1, inFlight := false, binding := .zero,
        lastAt := call.now } shop.atomics with
    | (spent, none) => ((shop.withAtomics spent).become t .returned, .silent)
    | (spent, some after) =>
      ((shop.withAtomics spent).become t .returned, .released call.m after)
  | .returned => (shop, .silent)

end Workshop

section Machine

variable [Sha256]

def workStep (shop : Workshop) : WorkCall → Workshop × WorkEvent
  | .reserveObservation budget reservedAt =>
    match reserveObservation shop.atomics budget reservedAt with
    | (after, .error _) => (shop.withAtomics after, .silent)
    | (after, .ok (_, permit)) =>
      ({ shop with atomics := after, permits := shop.permits ++ [permit] },
        .reserved shop.permits.length)
  | .newAttemptAdmission input permit =>
    match shop.withPermit input permit with
    | none => (shop, .silent)
    | some input =>
      match newAttemptAdmission shop.atomics input with
      | (after, .error _) => (shop.withAtomics after, .silent)
      | (after, .ok admission) =>
        ({ shop with atomics := after, admissions := shop.admissions ++ [admission] },
          .admitted permit shop.admissions.length)
  | .selectPlan current candidate priorAttempts currentEffects freshObservation proofs =>
    match selectPlan shop.atomics current candidate priorAttempts currentEffects freshObservation
        proofs with
    | (after, .ok (_, _, some authority)) =>
      ({ shop with atomics := after, authorities := shop.authorities ++ [authority] },
        .selected shop.authorities.length)
    | (after, _) => (shop.withAtomics after, .silent)
  | .authorizeGenerationReplacement current candidate input permit =>
    match shop.withPermit input permit with
    | none => (shop, .silent)
    | some input =>
      match authorizeGenerationReplacement shop.atomics current candidate input with
      | (after, .error _) => (shop.withAtomics after, .silent)
      | (after, .ok (authority, admission)) =>
        ({ shop with
            atomics := after, authorities := shop.authorities ++ [authority],
            admissions := shop.admissions ++ [admission] },
          .paired shop.authorities.length shop.admissions.length)
  | .newPreparedAttempt n id ordinal ownerID fence =>
    match shop.admissions[n]? with
    | none => (shop, .silent)
    | some admission =>
      match newPreparedAttempt shop.atomics ⟨id, ordinal, admission, ownerID, fence⟩ with
      | (after, .error _) => (shop.withAtomics after, .silent)
      | (after, .ok attempt) => (shop.withAtomics after, .prepared n attempt)
  | .acquireReplacement i k databaseTime ownerID =>
    match shop.authorities[k]? with
    | none => (shop, .silent)
    | some authority =>
      ({ shop with threads := shop.threads ++ [.lock i k authority databaseTime ownerID] }, .silent)
  | .releaseObservation m budget releasedAt =>
    match shop.permits[m]?, normalizeTime releasedAt with
    | some permit, .ok now =>
      if releaseMatches budget permit && decide (budget.lastAt ≤ now) then
        ({ shop with threads := shop.threads ++ [.load ⟨m, permit, budget, now⟩] }, .silent)
      else (shop, .silent)
    | _, _ => (shop, .silent)
  | .resume t =>
    match shop.threads[t]? with
    | none => (shop, .silent)
    | some pending => shop.resume t pending
  | .elsewhere i after => (if shop.locked i then shop else shop.setTable i after, .silent)

def workMachine : Machine Workshop WorkCall WorkEvent := ⟨workStep⟩

/-! ## A call that nobody interrupts

The accesses of one thread, taken in a row, are the call as one function. -/

section Alone

variable {shop : Workshop} {t : Nat} {pending : Pending}

theorem next_resume (ht : shop.threads[t]? = some pending) :
    workMachine.next shop (.resume t) = (shop.resume t pending).1 := by
  change (match shop.threads[t]? with
    | none => (shop, WorkEvent.silent)
    | some pending => shop.resume t pending).1 = _
  rw [ht]

theorem exec_resume (ht : shop.threads[t]? = some pending) (n : Nat) :
    workMachine.exec shop (List.replicate (n + 1) (.resume t)) =
      workMachine.exec (shop.resume t pending).1 (List.replicate n (.resume t)) := by
  rw [List.replicate_succ, exec_cons, next_resume ht]

theorem exec_become (ht : t < shop.threads.length) (n : Nat) :
    workMachine.exec (shop.become t pending) (List.replicate (n + 1) (.resume t)) =
      workMachine.exec ((shop.become t pending).resume t pending).1
        (List.replicate n (.resume t)) :=
  exec_resume (List.getElem?_set_self ht) n

theorem exec_returned (ht : t < shop.threads.length) (n : Nat) :
    workMachine.exec (shop.become t .returned) (List.replicate n (.resume t)) =
      shop.become t .returned := by
  induction n with
  | zero => rfl
  | succ n ih =>
    rw [exec_become ht]
    exact ih

omit [Sha256] in
theorem length_become (ht : t < shop.threads.length) :
    t < (shop.become t pending).threads.length := by
  simpa [Workshop.become] using ht

/-- Past its checks a replacement spends the flag, and writes and publishes if the word is
unpublished. -/
theorem spend_alone (call : Replacing) (ht : t < shop.threads.length) {spent : Atomics}
    {consumed : Bool} (h : consumeReplacement call.authority shop.atomics = (spent, consumed)) :
    (workMachine.exec (shop.become t (.spend call)) (List.replicate 4 (.resume t))).tables
        call.table = (if consumed then
          (shop.tables call.table).write (leaseRowKey call.authority.expected) call.replaced
        else shop.tables call.table) ∧
      (workMachine.exec (shop.become t (.spend call)) (List.replicate 4 (.resume t))).atomics =
        if consumed then publishReplacement call.authority spent else spent := by
  have hspending : t < (shop.become t (.spend call)).threads.length := length_become ht
  rw [consumeReplacement_eq] at h
  rw [exec_become ht]
  generalize hbefore : shop.become t (.spend call) = before at hspending ⊢
  have hatomics : before.atomics = shop.atomics := hbefore ▸ rfl
  have htables : before.tables = shop.tables := hbefore ▸ rfl
  rw [← hatomics] at h
  rw [← htables]
  simp only [Workshop.resume]
  rcases hspend : spendFlag call.authority.use before.atomics with ⟨after, swapped⟩
  rw [hspend] at h
  cases h
  cases swapped with
  | false =>
    rw [exec_returned]
    · exact ⟨rfl, rfl⟩
    · exact hspending
  | true =>
    have hspent : t < (before.withAtomics after).threads.length := hspending
    have hinspecting : t < ((before.withAtomics after).become t (.inspect call)).threads.length :=
      length_become hspent
    rw [exec_become hspent]
    have hafter : ((before.withAtomics after).become t (.inspect call)).atomics = after := rfl
    simp only [Workshop.resume, hafter, Bool.true_and]
    split_ifs
    · rw [exec_become hinspecting, Workshop.resume, exec_become]
      · exact ⟨Function.update_self .., rfl⟩
      · exact length_become hinspecting
    · rw [exec_returned]
      · exact ⟨rfl, rfl⟩
      · exact hinspecting

theorem acquireReplacement_alone {i k : Nat} {authority : LeaseReplacementAuthority}
    {databaseTime : Int} {ownerID : ID}
    (ht : shop.threads[t]? = some (.lock i k authority databaseTime ownerID))
    (hfree : shop.locked i = false) {table : LeaseTable} {atomics : Atomics}
    {result : Except Failure LeaseToken}
    (h : (shop.tables i).acquireReplacement shop.atomics databaseTime authority ownerID =
      (table, atomics, result)) :
    (workMachine.exec shop (List.replicate 5 (.resume t))).tables i = table ∧
      (workMachine.exec shop (List.replicate 5 (.resume t))).atomics = atomics := by
  have hthread : t < shop.threads.length := (List.getElem?_eq_some_iff.mp ht).1
  rw [acquireReplacement_eq] at h
  rw [exec_resume ht]
  simp only [Workshop.resume, hfree, Bool.false_eq_true, if_false]
  rcases hrow : (shop.tables i).replacementRow databaseTime authority ownerID with
    ⟨observed, failure | replaced⟩
  · rw [hrow] at h
    obtain ⟨rfl, rfl, -⟩ := h
    rw [exec_returned]
    · exact ⟨Function.update_self .., rfl⟩
    · exact hthread
  · rw [hrow] at h
    rcases hconsume : consumeReplacement authority shop.atomics with ⟨spent, consumed⟩
    have hlocked : t < ((shop.setTable i observed).setLock i true).threads.length := hthread
    obtain ⟨htables, hatomics⟩ := spend_alone ⟨i, k, authority, replaced⟩ hlocked hconsume
    have hobserved : ((shop.setTable i observed).setLock i true).tables i = observed :=
      Function.update_self ..
    rw [htables, hatomics, hobserved]
    rw [hconsume] at h
    cases consumed <;> obtain ⟨rfl, rfl, -⟩ := h <;> exact ⟨rfl, rfl⟩

theorem releaseObservation_alone {call : Releasing} {releasedAt : Int}
    (ht : shop.threads[t]? = some (.load call))
    (hmatch : releaseMatches call.budget call.permit = true)
    (hnow : normalizeTime releasedAt = .ok call.now) (hlast : call.budget.lastAt ≤ call.now) :
    (workMachine.exec shop (List.replicate 3 (.resume t))).atomics =
      (releaseObservation shop.atomics call.budget call.permit releasedAt).1 := by
  have hthread : t < shop.threads.length := (List.getElem?_eq_some_iff.mp ht).1
  rw [exec_resume ht]
  simp only [Workshop.resume, releaseObservation, retirePermit, hmatch, hnow, not_lt.mpr hlast,
    Bool.not_true, Bool.false_eq_true, if_false]
  cases hp : call.permit.transition with
  | none =>
    rw [exec_returned hthread]
    rfl
  | some p =>
    by_cases hstate : shop.atomics.words.load p ≠ observationReserved ∧
        shop.atomics.words.load p ≠ observationAdmitted
    · simp only [if_pos hstate]
      rw [exec_returned hthread]
      rfl
    · have hload : (shop.become t (.swap call (shop.atomics.words.load p))).atomics.words.load p =
          shop.atomics.words.load p := rfl
      simp only [if_neg hstate]
      rw [exec_become hthread]
      simp only [Workshop.resume, hp, compareAndSwap_of_eq observationReleased hload,
        compareAndSwap_of_eq observationReleased rfl]
      rw [exec_become]
      · simp only [Workshop.resume, Workshop.withAtomics, Workshop.become]
        rcases ObservationBudget.advance _ _ _ with ⟨spent, _ | after⟩ <;> rfl
      · exact length_become hthread

end Alone

end Machine

abbrev WorkEntry := Entry Workshop WorkCall WorkEvent

end Veer.Reconcile
