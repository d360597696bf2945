import Veer.SingleFlight
import Veer.ReconcileObservation

/-!
# Runs over retained copies of one observation budget

A pool keeps every budget value produced so far from one `NewObservationBudget`. Calls may be
made on any of them, in any order. Only the newest value can move: each older one has spent
its flag, so the accepted calls form one line.
-/
namespace Veer.Reconcile

open SingleFlight StepMachine AtomicCells

structure BudgetPool where
  atomics : Atomics
  budgets : List ObservationBudget

inductive BudgetRequest
  | reserve (reservedAt : Int)
  | release (permit : ObservationPermit) (releasedAt : Int)
  | complete (current : EffectProjection) (attempt : Attempt)
  | expire (observedAt : Int)

/-- A call on the `n`-th retained budget, with arbitrary permits, projections and attempts, or
a step of the rest of the process, which may move every cell but the budgets' own flags. -/
inductive BudgetCall
  | on (n : Nat) (request : BudgetRequest)
  | elsewhere (atomics : Atomics)

inductive BudgetReply
  | reserved (permit : ObservationPermit)
  | released
  | completed (decision : ObservationDecision)
  | expired (decision : ObservationDecision)
  | refused
  deriving DecidableEq

namespace BudgetReply

def mints : BudgetReply → Bool
  | reserved _ => true
  | _ => false

def closes : BudgetReply → Bool
  | released => true
  | completed _ => true
  | _ => false

def quarantines : BudgetReply → Bool
  | completed decision => decision == .quarantine
  | expired decision => decision == .quarantine
  | _ => false

/-- The reply to a call that moved the budget. -/
def accepted (reply : BudgetReply) : Bool := reply.mints || reply.closes || reply.quarantines

def label : BudgetReply → Label
  | reserved _ => .reserve
  | released => .close false
  | completed decision => .close (decision == .quarantine)
  | expired .quarantine => .expire
  | _ => .idle

theorem label_isReserve (reply : BudgetReply) : reply.label.isReserve = reply.mints := by
  cases reply with
  | expired decision => cases decision <;> rfl
  | _ => rfl

theorem label_isClose (reply : BudgetReply) : reply.label.isClose = reply.closes := by
  cases reply with
  | expired decision => cases decision <;> rfl
  | _ => rfl

theorem label_isQuarantine (reply : BudgetReply) :
    reply.label.isQuarantine = reply.quarantines := by
  cases reply with
  | expired decision => cases decision <;> rfl
  | _ => rfl

end BudgetReply

section Machine

variable [Sha256]

/-- The call on one budget value: the atomics it leaves, the budget it produced, and the
reply. -/
def callBudget (atomics : Atomics) (before : ObservationBudget) :
    BudgetRequest → Atomics × Option ObservationBudget × BudgetReply
  | .reserve reservedAt =>
    match reserveObservation atomics before reservedAt with
    | (after, .ok (budget, permit)) => (after, some budget, .reserved permit)
    | (after, .error _) => (after, none, .refused)
  | .release permit releasedAt =>
    match releaseObservation atomics before permit releasedAt with
    | (after, .ok budget) => (after, some budget, .released)
    | (after, .error _) => (after, none, .refused)
  | .complete current attempt =>
    match completeObservation atomics before current attempt with
    | (after, .ok (budget, _, decision)) => (after, some budget, .completed decision)
    | (after, .error _) => (after, none, .refused)
  | .expire observedAt =>
    match expireObservationBudget atomics before observedAt with
    -- a finished budget is handed back as it is
    | (after, .ok (budget, decision)) =>
      (after, if decision = .alreadyDone then none else some budget, .expired decision)
    | (after, .error _) => (after, none, .refused)

/-- The other part of the process left the retained budgets' flags alone. -/
def BudgetPool.untouched (pool : BudgetPool) (after : Atomics) : Bool :=
  decide (pool.atomics.flags.allocated ≤ after.flags.allocated) &&
    pool.budgets.all fun budget => budget.transition.all fun p =>
      after.flags.load p == pool.atomics.flags.load p

def budgetStep (pool : BudgetPool) : BudgetCall → BudgetPool × BudgetReply
  | .on n request =>
    match pool.budgets[n]? with
    | none => (pool, .refused)
    | some before =>
      let result := callBudget pool.atomics before request
      (⟨result.1, pool.budgets ++ result.2.1.toList⟩, result.2.2)
  | .elsewhere atomics =>
    (if pool.untouched atomics then { pool with atomics := atomics } else pool, .refused)

def budgetMachine : Machine BudgetPool BudgetCall BudgetReply := ⟨budgetStep⟩

end Machine

abbrev BudgetEntry := Entry BudgetPool BudgetCall BudgetReply

def ObservationBudget.line (budget : ObservationBudget) : Line :=
  ⟨budget.maximum, budget.used, budget.inFlight, budget.done⟩

/-! ## What one call does -/

/-- One accepted call: the successor spends its predecessor's flag and owns a new one, and the
budget makes the labelled move. -/
structure Accepted (flags after : Cells Bool) (before next : ObservationBudget) (label : Label) :
    Prop where
  unfinished : before.done = false
  spent : ∃ p, before.transition = some p ∧ flags.load p = false ∧
    after = (flags.store p true).alloc.1
  fresh : next.transition = some flags.allocated
  version : next.version = before.version + 1
  move : Move before.line label next.line

theorem advance_some {before draft next : ObservationBudget} {atomics after : Atomics}
    (label : Label) (h : before.advance draft atomics = (after, some next))
    (hversion : draft.version = before.version + 1) (hdone : before.done = false)
    (hmove : Move before.line label draft.line) :
    Accepted atomics.flags after.flags before next label := by
  revert h
  fun_cases ObservationBudget.advance before draft atomics
  case case1 halloc hspend =>
    rintro ⟨⟩
    obtain ⟨p, hp, hload, rfl⟩ := spendFlag_true hspend
    cases halloc
    exact ⟨hdone, ⟨p, hp, hload, rfl⟩, rfl, hversion, hmove⟩
  case case2 => simp

theorem advance_none {before draft : ObservationBudget} {atomics after : Atomics}
    (h : before.advance draft atomics = (after, none)) : after = atomics := by
  revert h
  fun_cases ObservationBudget.advance before draft atomics
  case case1 => simp
  case case2 hspend hswapped =>
    simp only [Prod.mk.injEq, and_true]
    rintro rfl
    rw [Bool.not_eq_true] at hswapped
    rw [hswapped] at hspend
    exact spendFlag_false hspend

section Calls

variable {atomics after : Atomics} {before next : ObservationBudget} {failure : Failure}
variable {permit : ObservationPermit}

theorem reserveObservation_ok [Sha256] {reservedAt : Int}
    (h : reserveObservation atomics before reservedAt = (after, .ok (next, permit))) :
    Accepted atomics.flags after.flags before next .reserve := by
  revert h
  fun_cases reserveObservation atomics before reservedAt
  case case6 hfree _ _ _ spent budget hadvance words transition _ =>
    rintro ⟨⟩
    simp only [Bool.or_eq_true, not_or, Bool.not_eq_true, decide_eq_true_eq, not_le] at hfree
    obtain ⟨⟨⟨⟨hdone, hflight⟩, hused⟩, -⟩, -⟩ := hfree
    have haccept := advance_some .reserve hadvance rfl hdone
    exact haccept (.reserve (l := before.line) hdone hflight hused)
  all_goals simp

theorem reserveObservation_error [Sha256] {reservedAt : Int}
    (h : reserveObservation atomics before reservedAt = (after, .error failure)) :
    after.flags = atomics.flags := by
  revert h
  fun_cases reserveObservation atomics before reservedAt
  case case5 hadvance =>
    rintro ⟨rfl, -⟩
    rw [advance_none hadvance]
  case case6 => simp
  all_goals
    rintro ⟨rfl, -⟩
    rfl

theorem retirePermit_flags (permit : ObservationPermit) (atomics : Atomics) :
    (retirePermit permit atomics).1.flags = atomics.flags := by
  fun_cases retirePermit permit atomics <;> rfl

theorem not_done_of_inFlight (hv : validateObservationBudget before = true)
    (hf : before.inFlight = true) : before.done = false := by
  simp only [validateObservationBudget, Bool.and_eq_true, Bool.not_eq_true', Bool.and_eq_false_iff,
    hf] at hv
  simpa using hv.1.2

theorem releaseObservation_ok {releasedAt : Int}
    (h : releaseObservation atomics before permit releasedAt = (after, .ok next)) :
    Accepted atomics.flags after.flags before next (.close false) := by
  revert h
  fun_cases releaseObservation atomics before permit releasedAt
  case case6 hmatch _ _ _ retired _ hretire _ spent budget hadvance =>
    rintro ⟨⟩
    simp only [releaseMatches, Bool.not_eq_true, Bool.not_eq_false', Bool.and_eq_true] at hmatch
    obtain ⟨⟨⟨⟨⟨⟨⟨⟨hvalid, hflight⟩, -⟩, -⟩, -⟩, -⟩, -⟩, -⟩, -⟩ := hmatch
    have hflags := retirePermit_flags permit atomics
    rw [hretire] at hflags
    have hdone := not_done_of_inFlight hvalid hflight
    rw [← hflags]
    refine advance_some _ hadvance rfl hdone ?_
    have hmove : Move before.line (.close false) ⟨before.maximum, before.used, false, before.done⟩ :=
      .close hdone hflight (by simp)
    exact hmove
  all_goals simp

theorem releaseObservation_error {releasedAt : Int}
    (h : releaseObservation atomics before permit releasedAt = (after, .error failure)) :
    after.flags = atomics.flags := by
  have hflags := retirePermit_flags permit atomics
  revert h
  fun_cases releaseObservation atomics before permit releasedAt
  case case4 hretire _ =>
    rintro ⟨rfl, -⟩
    rwa [hretire] at hflags
  case case5 hretire _ _ hadvance =>
    rintro ⟨rfl, -⟩
    rw [hretire] at hflags
    rw [advance_none hadvance]
    exact hflags
  case case6 => simp
  all_goals
    rintro ⟨rfl, -⟩
    rfl

theorem completeObservation_ok {current projection : EffectProjection} {attempt : Attempt}
    {decision : ObservationDecision}
    (h : completeObservation atomics before current attempt =
      (after, .ok (next, projection, decision))) :
    Accepted atomics.flags after.flags before next (.close (decision == .quarantine)) := by
  revert h
  unfold completeObservation
  fun_cases completeObservationReturned atomics before current attempt
  case case3 hmatch projection' decision' houtcome spent budget hadvance =>
    rintro ⟨⟩
    simp only [completionMatches, Bool.not_eq_true, Bool.not_eq_false', Bool.and_eq_true] at hmatch
    have hvalid := hmatch.1.1.1.1.1.1.1.1.1.1.1.1
    have hflight := hmatch.1.1.1.1.1.1.1.1.1.1.1.2
    have hdone := not_done_of_inFlight hvalid hflight
    refine advance_some _ hadvance rfl hdone ?_
    refine Move.close (l := before.line) hdone hflight ?_
    intro hq
    rw [beq_iff_eq] at hq
    rw [hq]
    rfl
  all_goals simp [Except.map]

theorem completeObservation_error {current : EffectProjection} {attempt : Attempt}
    (h : completeObservation atomics before current attempt = (after, .error failure)) :
    after.flags = atomics.flags := by
  revert h
  unfold completeObservation
  fun_cases completeObservationReturned atomics before current attempt
  case case1 =>
    rintro ⟨rfl, -⟩
    rfl
  case case2 hadvance =>
    rintro ⟨rfl, -⟩
    rw [advance_none hadvance]
  case case3 => simp [Except.map]

theorem expireObservationBudget_ok {observedAt : Int} {decision : ObservationDecision}
    (h : expireObservationBudget atomics before observedAt = (after, .ok (next, decision))) :
    decision = .alreadyDone ∧ after = atomics ∨
      decision = .quarantine ∧ Accepted atomics.flags after.flags before next .expire := by
  revert h
  fun_cases expireObservationBudget atomics before observedAt
  case case2 =>
    rintro ⟨⟩
    exact .inl ⟨rfl, rfl⟩
  case case6 hdone _ _ hfree spent budget hadvance =>
    rintro ⟨⟩
    simp only [Bool.or_eq_true, not_or, Bool.not_eq_true] at hfree hdone
    exact .inr ⟨rfl, advance_some _ hadvance rfl hdone (.expire hdone hfree.1.1.1)⟩
  all_goals simp

theorem expireObservationBudget_error {observedAt : Int}
    (h : expireObservationBudget atomics before observedAt = (after, .error failure)) :
    after.flags = atomics.flags := by
  revert h
  fun_cases expireObservationBudget atomics before observedAt
  case case5 hadvance =>
    rintro ⟨rfl, -⟩
    rw [advance_none hadvance]
  case case2 | case6 => simp
  all_goals
    rintro ⟨rfl, -⟩
    rfl

/-- A call on one budget either leaves all flags and produces no budget, or is accepted. -/
theorem callBudget_cases [Sha256] (atomics : Atomics) (before : ObservationBudget)
    (request : BudgetRequest) :
    let result := callBudget atomics before request
    (result.1.flags = atomics.flags ∧ result.2.1 = none ∧ result.2.2.label = .idle ∧
        result.2.2.accepted = false) ∨
      ∃ next, result.2.1 = some next ∧ result.2.2.accepted = true ∧
        Accepted atomics.flags result.1.flags before next result.2.2.label := by
  fun_cases callBudget atomics before request
  case case1 h => exact .inr ⟨_, rfl, rfl, reserveObservation_ok h⟩
  case case2 h => exact .inl ⟨reserveObservation_error h, rfl, rfl, rfl⟩
  case case3 h => exact .inr ⟨_, rfl, rfl, releaseObservation_ok h⟩
  case case4 h => exact .inl ⟨releaseObservation_error h, rfl, rfl, rfl⟩
  case case5 h => exact .inr ⟨_, rfl, rfl, completeObservation_ok h⟩
  case case6 h => exact .inl ⟨completeObservation_error h, rfl, rfl, rfl⟩
  case case7 h =>
    rcases expireObservationBudget_ok h with ⟨rfl, rfl⟩ | ⟨rfl, haccepted⟩
    · exact .inl ⟨rfl, rfl, rfl, rfl⟩
    · exact .inr ⟨_, rfl, rfl, haccepted⟩
  case case8 h => exact .inl ⟨expireObservationBudget_error h, rfl, rfl, rfl⟩

end Calls

end Veer.Reconcile
