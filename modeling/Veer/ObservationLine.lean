import Veer.ObservationRun

/-!
# One line of budget versions
-/
namespace Veer.Reconcile

open SingleFlight StepMachine AtomicCells

/-- The retained budgets form one line: the `n`-th has version `n + 1`, and its flag is spent
exactly when it has a successor. -/
structure BudgetPool.Linear (maximum : Nat) (pool : BudgetPool) : Prop where
  nonempty : pool.budgets ≠ []
  version : ∀ n budget, pool.budgets[n]? = some budget → budget.version = n + 1
  owns : ∀ n budget, pool.budgets[n]? = some budget → ∃ p, budget.transition = some p ∧
    p < pool.atomics.flags.allocated ∧
    pool.atomics.flags.load p = decide (n + 1 < pool.budgets.length)
  unfinished : pool.budgets.Pairwise fun budget _ => budget.done = false
  rises : pool.budgets.Pairwise fun budget later => budget.used ≤ later.used
  bounded : ∀ budget ∈ pool.budgets, budget.used ≤ budget.maximum ∧ budget.maximum = maximum

theorem eq_concat_of_getElem? {α : Type*} {as : List α} {n : Nat} {a : α}
    (h : as[n]? = some a) (hn : n + 1 = as.length) : as = as.take n ++ [a] := by
  have htake := List.take_add_one (l := as) (i := n)
  rwa [h, hn, List.take_length, Option.toList_some] at htake

namespace BudgetPool.Linear

variable {maximum n : Nat} {pool : BudgetPool} {before next : ObservationBudget}
  {after : Atomics} {label : Label} (h : pool.Linear maximum)
include h

theorem newest (hn : pool.budgets[n]? = some before)
    (haccepted : Accepted pool.atomics.flags after.flags before next label) :
    n + 1 = pool.budgets.length := by
  obtain ⟨p, hp, -, hload⟩ := h.owns n before hn
  obtain ⟨q, hq, hunspent, -⟩ := haccepted.spent
  obtain rfl : p = q := Option.some.inj (hp.symm.trans hq)
  have hlt := (List.getElem?_eq_some_iff.mp hn).1
  have hlast : ¬ n + 1 < pool.budgets.length := by simpa using hload.symm.trans hunspent
  omega

theorem used_le_newest (hn : pool.budgets[n]? = some before)
    (hlast : n + 1 = pool.budgets.length) : ∀ budget ∈ pool.budgets, budget.used ≤ before.used := by
  have hconcat := eq_concat_of_getElem? hn hlast
  have hrises := h.rises
  rw [hconcat, List.pairwise_append] at hrises
  intro budget hbudget
  rw [hconcat, List.mem_append, List.mem_singleton] at hbudget
  rcases hbudget with hbudget | rfl
  · exact hrises.2.2 budget hbudget before (List.mem_singleton_self _)
  · exact le_rfl

/-- Finishing a version ends the line, so before an accepted call none is finished. -/
theorem all_unfinished (hn : pool.budgets[n]? = some before)
    (hlast : n + 1 = pool.budgets.length) (hdone : before.done = false) :
    ∀ budget ∈ pool.budgets, budget.done = false := by
  have hconcat := eq_concat_of_getElem? hn hlast
  have hunfinished := h.unfinished
  rw [hconcat, List.pairwise_append] at hunfinished
  intro budget hbudget
  rw [hconcat, List.mem_append, List.mem_singleton] at hbudget
  rcases hbudget with hbudget | rfl
  · exact hunfinished.2.2 budget hbudget before (List.mem_singleton_self _)
  · exact hdone

theorem owns_extend (hn : pool.budgets[n]? = some before)
    (haccepted : Accepted pool.atomics.flags after.flags before next label) :
    ∀ m budget, (pool.budgets ++ [next])[m]? = some budget → ∃ p, budget.transition = some p ∧
      p < after.flags.allocated ∧
      after.flags.load p = decide (m + 1 < (pool.budgets ++ [next]).length) := by
  have hlast := h.newest hn haccepted
  obtain ⟨q, hq, hunspent, hflags⟩ := haccepted.spent
  intro m budget hm
  rw [hflags, List.length_append, List.length_singleton]
  rcases lt_or_ge m pool.budgets.length with hlt | hge
  · rw [List.getElem?_append_left hlt] at hm
    obtain ⟨p, hp, hallocated, hload⟩ := h.owns m budget hm
    refine ⟨p, hp, Nat.lt_succ_of_lt hallocated, ?_⟩
    rw [load_alloc_of_lt (pool.atomics.flags.store q true) hallocated, decide_eq_true (by omega)]
    by_cases hpq : p = q
    · rw [hpq, load_store_self]
    -- an older version's flag is another cell, and it is already spent
    have hmn : m ≠ n := by
      rintro rfl
      rw [hn, Option.some.injEq] at hm
      subst hm
      exact hpq (Option.some.inj (hp.symm.trans hq))
    rw [load_store_ne _ _ hpq, hload, decide_eq_true (by omega)]
  · rw [List.getElem?_append_right hge, List.getElem?_singleton] at hm
    split_ifs at hm with hzero
    cases hm
    refine ⟨_, haccepted.fresh, Nat.lt_succ_self _, ?_⟩
    rw [decide_eq_false (by omega)]
    exact load_alloc_self (pool.atomics.flags.store q true)

theorem extend (hn : pool.budgets[n]? = some before)
    (haccepted : Accepted pool.atomics.flags after.flags before next label) :
    (⟨after, pool.budgets ++ [next]⟩ : BudgetPool).Linear maximum := by
  have hlast := h.newest hn haccepted
  have hmem : before ∈ pool.budgets := List.mem_of_getElem? hn
  obtain ⟨hmax, hused, -, -⟩ := haccepted.move.counts
  refine ⟨by simp, ?_, h.owns_extend hn haccepted, ?_, ?_, ?_⟩
  · intro m budget hm
    rcases lt_or_ge m pool.budgets.length with hlt | hge
    · exact h.version m budget (by rwa [List.getElem?_append_left hlt] at hm)
    rw [List.getElem?_append_right hge, List.getElem?_singleton] at hm
    split_ifs at hm with hzero
    cases hm
    rw [haccepted.version, h.version n before hn]
    omega
  · refine List.pairwise_append.mpr ⟨h.unfinished, List.pairwise_singleton _ _, ?_⟩
    exact fun budget hb _ _ => h.all_unfinished hn hlast haccepted.unfinished budget hb
  · refine List.pairwise_append.mpr ⟨h.rises, List.pairwise_singleton _ _, ?_⟩
    intro budget hb later hlater
    rw [List.mem_singleton.mp hlater]
    have hle : before.line.used ≤ next.line.used := by omega
    exact (h.used_le_newest hn hlast budget hb).trans hle
  · intro budget hb
    rcases List.mem_append.mp hb with hb | hb
    · exact h.bounded budget hb
    · rw [List.mem_singleton.mp hb]
      exact ⟨haccepted.move.used_le (h.bounded before hmem).1, hmax.trans (h.bounded before hmem).2⟩

theorem frame
    (hallocated : pool.atomics.flags.allocated ≤ after.flags.allocated)
    (hload : ∀ budget ∈ pool.budgets, ∀ p, budget.transition = some p →
      after.flags.load p = pool.atomics.flags.load p) :
    ({ pool with atomics := after } : BudgetPool).Linear maximum := by
  refine { h with owns := fun n budget hn => ?_ }
  obtain ⟨p, hp, hlt, hspent⟩ := h.owns n budget hn
  have hsame := hload budget (List.mem_of_getElem? hn) p hp
  exact ⟨p, hp, hlt.trans_le hallocated, hsame.trans hspent⟩

end BudgetPool.Linear

/-! ## What one step does -/

/-- A step that leaves the line as it is. -/
structure LineKept (pool : BudgetPool) (result : BudgetPool × BudgetReply) : Prop where
  budgets : result.1.budgets = pool.budgets
  label : result.2.label = .idle
  refused : result.2.accepted = false

/-- A step that appends `next` after the newest version `before`. -/
structure LineExtended (pool : BudgetPool) (n : Nat) (before next : ObservationBudget)
    (result : BudgetPool × BudgetReply) : Prop where
  called : pool.budgets[n]? = some before
  newest : n + 1 = pool.budgets.length
  budgets : result.1.budgets = pool.budgets ++ [next]
  accepted : result.2.accepted = true
  step : Accepted pool.atomics.flags result.1.atomics.flags before next result.2.label

/-- The newest version, as a single-flight line. -/
def BudgetPool.line (pool : BudgetPool) : Line :=
  (pool.budgets.getLast?.map ObservationBudget.line).getD ⟨0, 0, false, false⟩

theorem line_of_newest {pool : BudgetPool} {n : Nat} {before : ObservationBudget}
    (hn : pool.budgets[n]? = some before) (hlast : n + 1 = pool.budgets.length) :
    pool.line = before.line := by
  rw [BudgetPool.line, eq_concat_of_getElem? hn hlast, List.getLast?_concat]
  rfl

section Steps

variable [Sha256] {maximum : Nat} {pool : BudgetPool} (h : pool.Linear maximum)
include h

theorem budgetStep_cases (call : BudgetCall) :
    (budgetStep pool call).1.Linear maximum ∧
      (LineKept pool (budgetStep pool call) ∨
        ∃ n request before next, call = .on n request ∧
          LineExtended pool n before next (budgetStep pool call)) := by
  fun_cases budgetStep pool call
  case case1 => exact ⟨h, .inl ⟨rfl, rfl, rfl⟩⟩
  case case2 n request before hn result =>
    rcases callBudget_cases pool.atomics before request with
      ⟨hflags, hnone, hlabel, hrefused⟩ | ⟨next, hsome, haccept, haccepted⟩
    · simp only [result, hnone, Option.toList_none, List.append_nil]
      refine ⟨h.frame ?_ ?_, .inl ⟨rfl, hlabel, hrefused⟩⟩
      · rw [hflags]
      · exact fun _ _ _ _ => by rw [hflags]
    · simp only [result, hsome, Option.toList_some]
      exact ⟨h.extend hn haccepted, .inr ⟨n, request, before, next, rfl,
        hn, h.newest hn haccepted, rfl, haccept, haccepted⟩⟩
  case case3 =>
    split_ifs with huntouched
    · simp only [BudgetPool.untouched, Bool.and_eq_true, decide_eq_true_eq, List.all_eq_true,
        Option.all_eq_true, beq_iff_eq] at huntouched
      exact ⟨h.frame huntouched.1 huntouched.2, .inl ⟨rfl, rfl, rfl⟩⟩
    · exact ⟨h, .inl ⟨rfl, rfl, rfl⟩⟩

theorem budget_move (call : BudgetCall) :
    Move pool.line (budgetStep pool call).2.label (budgetStep pool call).1.line := by
  rcases (budgetStep_cases h call).2 with hkept | ⟨n, request, before, next, -, hextended⟩
  · have hline : (budgetStep pool call).1.line = pool.line := by
      rw [BudgetPool.line, hkept.budgets, BudgetPool.line]
    rw [hkept.label, hline]
    exact .idle _
  · have hline : (budgetStep pool call).1.line = next.line := by
      rw [BudgetPool.line, hextended.budgets, List.getLast?_concat]
      rfl
    rw [hline, line_of_newest hextended.called hextended.newest]
    exact hextended.step.move

theorem budget_path (calls : List BudgetCall) :
    Path Move pool.line ((budgetMachine.trace pool calls).map fun e => e.output.label)
      (budgetMachine.exec pool calls).line :=
  trace_path budgetMachine (P := fun pool => pool.Linear maximum) BudgetPool.line
    (fun e => e.output.label) (fun _ call h => (budgetStep_cases h call).1) (fun _ call h => budget_move h call) h calls

theorem budgets_length_le (calls : List BudgetCall) :
    pool.budgets.length ≤ (budgetMachine.exec pool calls).budgets.length := by
  refine exec_relation budgetMachine (P := fun pool => pool.Linear maximum)
    (R := fun a b => a.budgets.length ≤ b.budgets.length) (fun _ => le_rfl)
    (fun _ _ _ => le_trans) (fun _ call h => (budgetStep_cases h call).1) ?_ h calls
  intro pool call h
  rcases (budgetStep_cases h call).2 with hkept | ⟨n, request, before, next, -, hextended⟩
  · exact hkept.budgets.symm ▸ le_rfl
  · rw [Machine.next, budgetMachine, hextended.budgets, List.length_append]
    exact Nat.le_add_right _ _

variable {calls : List BudgetCall}

theorem budget_entry {e : BudgetEntry} (he : e ∈ budgetMachine.trace pool calls) :
    e.before.Linear maximum ∧ budgetStep e.before e.input = (e.after, e.output) := by
  obtain ⟨hbefore, hentry⟩ := trace_invariant budgetMachine (P := fun pool => pool.Linear maximum)
    (fun _ call h => (budgetStep_cases h call).1) h he
  refine ⟨hbefore, ?_⟩
  rw [hentry]
  rfl

theorem accepted_entry {e : BudgetEntry} (he : e ∈ budgetMachine.trace pool calls)
    (haccepted : e.output.accepted = true) :
    ∃ n request before next, e.input = .on n request ∧
      LineExtended e.before n before next (e.after, e.output) := by
  obtain ⟨hbefore, hstep⟩ := budget_entry h he
  rcases hstep ▸ (budgetStep_cases hbefore e.input).2 with hkept | hextended
  · exact absurd haccepted (by simp [hkept.refused])
  · exact hextended

theorem later_budgets_length {a b : Nat} {e e' : BudgetEntry} (hab : a < b)
    (ha : (budgetMachine.trace pool calls)[a]? = some e)
    (hb : (budgetMachine.trace pool calls)[b]? = some e') :
    e.after.budgets.length ≤ e'.before.budgets.length := by
  obtain ⟨hbefore, hstep⟩ := budget_entry h (List.mem_of_getElem? ha)
  have hafter : e.after.Linear maximum := by
    have := (budgetStep_cases hbefore e.input).1
    rwa [hstep] at this
  obtain ⟨mid, hmid, -⟩ := trace_between budgetMachine hab ha hb
  rw [hmid]
  exact budgets_length_le hafter mid

end Steps

/-! ## Whole runs -/

/-- What a budget with `maximum` slots promises over the record of a run that ends in `last`. -/
structure SingleLine (maximum : Nat) (run : List BudgetEntry) (last : BudgetPool) : Prop where
  /-- An accepted call is made on the newest version and appends the next one. -/
  line : ∀ e ∈ run, e.output.accepted = true → ∃ n request before next,
    e.input = .on n request ∧ e.before.budgets[n]? = some before ∧
      n + 1 = e.before.budgets.length ∧ e.after.budgets = e.before.budgets ++ [next] ∧
      next.version = before.version + 1
  refused : ∀ e ∈ run, e.output.accepted = false → e.after.budgets = e.before.budgets
  /-- No two accepted calls are made on copies of one version. -/
  oneSuccessor : ∀ (a b n : Nat) (e e' : BudgetEntry) (request request' : BudgetRequest), a < b →
    run[a]? = some e → run[b]? = some e' → e.input = .on n request → e'.input = .on n request' →
    e.output.accepted = true → e'.output.accepted = false
  usedRises : last.budgets.Pairwise fun budget later => budget.used ≤ later.used
  usedBounded : ∀ budget ∈ last.budgets, budget.used ≤ budget.maximum ∧ budget.maximum = maximum
  permits : run.countP (fun e => e.output.mints) ≤ maximum
  singleFlight : ∀ k, (run.take k).countP (fun e => e.output.mints) ≤
    (run.take k).countP (fun e => e.output.closes) + 1
  quarantineOnce : run.countP (fun e => e.output.quarantines) ≤ 1
  /-- Once some version is done, no call mints a permit. -/
  doneMintsNothing : ∀ e ∈ run, ∀ budget ∈ e.before.budgets, budget.done = true →
    e.output.mints = false

theorem newObservationBudget_linear {atomics after : Atomics} {effect : EffectKey}
    {maximum : Nat} {deadline : Int} {budget : ObservationBudget}
    (h : newObservationBudget atomics effect maximum deadline = (after, .ok budget)) :
    (⟨after, [budget]⟩ : BudgetPool).Linear maximum ∧
      budget.line = ⟨maximum, 0, false, false⟩ := by
  revert h
  fun_cases newObservationBudget atomics effect maximum deadline
  case case3 halloc =>
    rintro ⟨⟩
    cases halloc
    refine ⟨⟨by simp, ?_, ?_, List.pairwise_singleton _ _, List.pairwise_singleton _ _, ?_⟩, rfl⟩
    · intro n budget hn
      obtain ⟨rfl, rfl⟩ : n = 0 ∧ _ = budget := by simpa [List.getElem?_singleton] using hn
      rfl
    · intro n budget hn
      obtain ⟨rfl, rfl⟩ : n = 0 ∧ _ = budget := by simpa [List.getElem?_singleton] using hn
      exact ⟨_, rfl, Nat.lt_succ_self _, load_alloc_self _⟩
    · intro budget hb
      rw [List.mem_singleton.mp hb]
      exact ⟨Nat.zero_le _, rfl⟩
  all_goals simp

section Runs

variable [Sha256] {maximum : Nat} {pool : BudgetPool}

/-- The counters of a run, read off its labels. -/
theorem budget_counts (h : pool.Linear maximum) (hline : pool.line = ⟨maximum, 0, false, false⟩)
    (calls : List BudgetCall) :
    (budgetMachine.trace pool calls).countP (fun e => e.output.mints) ≤ maximum ∧
      (budgetMachine.trace pool calls).countP (fun e => e.output.mints) ≤
        (budgetMachine.trace pool calls).countP (fun e => e.output.closes) + 1 ∧
      (budgetMachine.trace pool calls).countP (fun e => e.output.quarantines) ≤ 1 := by
  have hpath := budget_path h calls
  rw [hline] at hpath
  obtain ⟨hmax, hused, hflight, hdone⟩ := Path.counts hpath
  have hle := Path.used_le hpath (Nat.zero_le _)
  have hflightLe := Bool.toNat_le (budgetMachine.exec pool calls).line.inFlight
  have hdoneLe := Bool.toNat_le (budgetMachine.exec pool calls).line.done
  simp only [List.countP_map, Function.comp_def, BudgetReply.label_isReserve,
    BudgetReply.label_isClose, BudgetReply.label_isQuarantine, Bool.toNat_false] at hmax hused hflight hdone
  exact ⟨by omega, by omega, by omega⟩

/-- Copies of one budget, called in any order, move along one finite single-flight line. -/
theorem observation_single_line {atomics after : Atomics} {effect : EffectKey} {maximum : Nat}
    {deadline : Int} {budget : ObservationBudget}
    (h : newObservationBudget atomics effect maximum deadline = (after, .ok budget))
    (calls : List BudgetCall) :
    SingleLine maximum (budgetMachine.trace ⟨after, [budget]⟩ calls)
      (budgetMachine.exec ⟨after, [budget]⟩ calls) := by
  obtain ⟨hlinear, hbudget⟩ := newObservationBudget_linear h
  have hline : (⟨after, [budget]⟩ : BudgetPool).line = ⟨maximum, 0, false, false⟩ := hbudget
  have hlast := exec_invariant budgetMachine (P := fun pool => pool.Linear maximum)
    (fun _ call h => (budgetStep_cases h call).1) hlinear calls
  obtain ⟨hpermits, -, honce⟩ := budget_counts hlinear hline calls
  refine ⟨?_, ?_, ?_, hlast.rises, hlast.bounded, hpermits, ?_, honce, ?_⟩
  · intro e he haccepted
    obtain ⟨n, request, before, next, hin, hextended⟩ := accepted_entry hlinear he haccepted
    exact ⟨n, request, before, next, hin, hextended.called, hextended.newest, hextended.budgets,
      hextended.step.version⟩
  · intro e he hrefused
    obtain ⟨hbefore, hstep⟩ := budget_entry hlinear he
    rcases hstep ▸ (budgetStep_cases hbefore e.input).2 with hkept | ⟨_, _, _, _, -, hextended⟩
    · exact hkept.budgets
    · exact absurd hextended.accepted (by simp [hrefused])
  · intro a b n e e' request request' hab ha hb hin hin' haccepted
    by_contra haccepted'
    rw [Bool.not_eq_false] at haccepted'
    obtain ⟨m, _, _, _, hm, hfirst⟩ := accepted_entry hlinear (List.mem_of_getElem? ha) haccepted
    obtain ⟨m', _, _, _, hm', hsecond⟩ := accepted_entry hlinear (List.mem_of_getElem? hb) haccepted'
    obtain ⟨rfl, -⟩ := BudgetCall.on.inj (hin.symm.trans hm)
    obtain ⟨rfl, -⟩ := BudgetCall.on.inj (hin'.symm.trans hm')
    have hgrown := later_budgets_length hlinear hab ha hb
    rw [hfirst.budgets, List.length_append, List.length_singleton, ← hfirst.newest,
      ← hsecond.newest] at hgrown
    omega
  · intro k
    rw [trace_take]
    exact (budget_counts hlinear hline (calls.take k)).2.1
  · intro e he finished hfinished hdone
    by_contra hmints
    rw [Bool.not_eq_false] at hmints
    obtain ⟨n, _, before, next, -, hextended⟩ := accepted_entry hlinear he
      (by simp [BudgetReply.accepted, hmints])
    have hopen := (budget_entry hlinear he).1.all_unfinished hextended.called hextended.newest
      hextended.step.unfinished finished hfinished
    simp [hdone] at hopen

end Runs

/-- The budget that `NewObservationBudget` makes of two slots until second 100. -/
def sampleBudget : ObservationBudget :=
  ⟨true, sampleEffect, 2, 0, 100 * second, 0, 1, false, .zero, some 0, false, false⟩

def samplePool : BudgetPool := ⟨⟨noAtomics.flags.alloc.1, noAtomics.words⟩, [sampleBudget]⟩

def samplePermit [Sha256] : ObservationPermit :=
  ⟨true, sampleEffect, 2, 1 * second, 100 * second,
    deriveObservationBinding sampleEffect 2 1 (1 * second) (100 * second), some 0⟩

/-- A reservation, a second one on the stale copy, a release, and the expiry, made twice on the
version that it finishes. -/
def quarantineCalls [Sha256] : List BudgetCall :=
  [.on 0 (.reserve (1 * second)), .on 0 (.reserve (2 * second)),
    .on 1 (.release samplePermit (3 * second)), .on 2 (.expire (100 * second)),
    .on 2 (.expire (100 * second)), .on 3 (.expire (101 * second))]

attribute [local instance] plainSha256

theorem observation_single_line_quarantine :
    newObservationBudget noAtomics sampleEffect 2 (100 * second) =
        (samplePool.atomics, .ok sampleBudget) ∧
      (budgetMachine.trace samplePool quarantineCalls).map (fun e => e.output) =
        [.reserved samplePermit, .refused, .released, .expired .quarantine, .refused,
          .expired .alreadyDone] ∧
      SingleLine 2 (budgetMachine.trace samplePool quarantineCalls)
        (budgetMachine.exec samplePool quarantineCalls) :=
  ⟨rfl, by decide +kernel,
    @observation_single_line _ noAtomics samplePool.atomics sampleEffect 2 (100 * second)
      sampleBudget rfl quarantineCalls⟩

end Veer.Reconcile
