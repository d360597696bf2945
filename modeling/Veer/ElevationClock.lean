import Veer.ElevationSpent

/-!
# The clock of overlapping issuances

`Issue` takes a sequence number, reads the clock and enters the lock in three separate steps, so that
overlapping issuances may do the three in different orders. The clock never goes back: its time is
part of the state and only `tick` moves it. A rollback is reported exactly when the highest number so
far enters the lock with an older reading than a call before it.
-/
namespace Veer.Administration
open Reconcile (ID Sha256 maxUint64)
open Identity (URLParser)
open StepMachine

/-! ## The ledger with its clock -/

/-- How a context can be done. -/
inductive ContextError
  | canceled | deadlineExceeded
  deriving DecidableEq, Repr

def ContextError.sentinel : ContextError → Sentinel
  | canceled => .contextCanceled
  | deadlineExceeded => .contextDeadlineExceeded

/-- The ledger, the time of its clock, and what the waiting issuances have read. -/
structure Timed where
  system : System
  clock : Int
  readings : AList (fun _ : Nat => Int)

inductive Timing
  | tick (elapsed : Nat)
  | start (call : IssueCall) (before after : Option ContextError)
  | read (index : Nat)
  | finish (index : Nat) (locked commit : Option ContextError)
  deriving DecidableEq, Repr

def IssueCall.under (call : IssueCall) (before after : Option ContextError) : IssueCall :=
  { call with
    contextBefore := before.map ContextError.sentinel
    contextAfter := after.map ContextError.sentinel }

section
variable [Sha256] [URLParser]

def Timed.step (state : Timed) : Timing → Timed × Output
  | .tick elapsed => ({ state with clock := state.clock + elapsed }, .idle)
  | .start call before after =>
    let (system, output) := state.system.start (call.under before after)
    ({ state with system := system }, output)
  | .read index =>
    match state.readings.lookup index, state.system.tickets[index]? with
    | none, some (some _) =>
      ({ state with readings := state.readings.insert index state.clock }, .idle)
    | _, _ => (state, .idle)
  | .finish index locked commit =>
    match state.readings.lookup index with
    | none => (state, .idle)
    | some observed =>
      let (system, output) := state.system.finish index observed
        (locked.map ContextError.sentinel) (commit.map ContextError.sentinel)
      ({ state with system := system }, output)

def timed : Machine Timed Timing Output := ⟨Timed.step⟩

/-- Every step is one of the ledger's own machine, or leaves the ledger alone. -/
theorem timed_step_system (state : Timed) (input : Timing) :
    (∃ call, (timed.step state input).1.system = (machine.step state.system call).1 ∧
      (timed.step state input).2 = (machine.step state.system call).2) ∨
    (timed.step state input).1.system = state.system ∧ (timed.step state input).2 = .idle := by
  cases input with
  | tick => exact .inr ⟨rfl, rfl⟩
  | start call before after => exact .inl ⟨.start (call.under before after), rfl, rfl⟩
  | read =>
    right
    simp only [timed, Timed.step]
    split
    · exact ⟨rfl, rfl⟩
    · exact ⟨rfl, rfl⟩
  | finish index =>
    simp only [timed, Timed.step]
    split
    · exact .inr ⟨rfl, rfl⟩
    · rename_i observed _
      exact .inl ⟨.finish index observed _ _, rfl, rfl⟩

end

/-! ## What the lock does to the marks -/

/-- The latest time, where an unusable sample counts for nothing. -/
def latest (mark : Int) (sequence : Nat) (observed : Int) : Int :=
  match normalizeContractTime observed with
  | .error _ => mark
  | .ok now => if sequence = 0 then mark else max mark now

theorem latest_le_iff {mark : Int} {sequence : Nat} {observed m : Int} :
    latest mark sequence observed ≤ m ↔ mark ≤ m ∧
      (sequence ≠ 0 → ∀ now, normalizeContractTime observed = .ok now → now ≤ m) := by
  unfold latest
  cases normalizeContractTime observed with
  | error => simp
  | ok =>
    by_cases hzero : sequence = 0
    · simp [hzero]
    · simp [hzero]

variable (ledger : Ledger)

theorem raise_marks {value : Int} (hvalue : 0 ≤ value) :
    (ledger.raise value).highWater = max ledger.highWater value ∧
      (ledger.raise value).lastClockSample = ledger.lastClockSample ∧
      (ledger.raise value).clockSamples = ledger.clockSamples := by
  unfold Ledger.raise
  split_ifs with hraise
  · refine ⟨(max_eq_right ?_).symm, rfl, rfl⟩
    rcases hraise with hzero | hlater
    · rw [hzero]
      exact hvalue
    · exact hlater.le
  · push Not at hraise
    exact ⟨(max_eq_left hraise.2).symm, rfl, rfl⟩

theorem fence_marks (sequence : Nat) :
    (ledger.fence sequence).lastClockSample = max ledger.lastClockSample sequence ∧
      (ledger.fence sequence).highWater = ledger.highWater ∧
      (ledger.fence sequence).clockSamples = ledger.clockSamples := by
  unfold Ledger.fence
  split_ifs with hlater
  · exact ⟨(Nat.max_eq_right hlater.le).symm, rfl, rfl⟩
  · exact ⟨(Nat.max_eq_left (by omega)).symm, rfl, rfl⟩

/-- What a sample does to the marks. A rollback is seen by a fresh number that carries a time before
the mark. -/
structure Ledger.Clocked (ledger fenced : Ledger) (sequence : Nat) (observed : Int)
    (regressed : Prop) : Prop where
  last : fenced.lastClockSample = max ledger.lastClockSample sequence
  mark : fenced.highWater = latest ledger.highWater sequence observed
  samples : fenced.clockSamples = ledger.clockSamples
  regressed : regressed ↔ ledger.lastClockSample < sequence ∧
    ∃ now, normalizeContractTime observed = .ok now ∧ now < ledger.highWater

theorem observeIssuanceClockLocked_clocked (sequence : Nat) (observed : Int) :
    ledger.Clocked
      (ledger.observeIssuanceClockLocked ⟨sequence, observed, sequence == 0⟩).1 sequence observed
      ((ledger.observeIssuanceClockLocked ⟨sequence, observed, sequence == 0⟩).2 =
        .error [.clockRegressed]) := by
  fun_cases Ledger.observeIssuanceClockLocked ledger ⟨sequence, observed, sequence == 0⟩
  case case1 hzero =>
    obtain rfl : sequence = 0 := hzero
    refine ⟨(Nat.max_zero _).symm, ?_, rfl, by simp⟩
    unfold latest
    split
    · rfl
    · rw [if_pos rfl]
  case case2 hzero hfailed => exact absurd (by simpa using hfailed) hzero
  case case3 failure hnormalized =>
    have hnormalized : normalizeContractTime observed = .error failure := hnormalized
    obtain ⟨hlast, hmark, hsamples⟩ := fence_marks ledger sequence
    exact ⟨hlast, by simp [latest, hnormalized, hmark], hsamples, by simp [hnormalized]⟩
  case case4 hzero _ now hnormalized hstale =>
    have hzero : sequence ≠ 0 := hzero
    have hstale : sequence ≤ ledger.lastClockSample := hstale
    have hnormalized : normalizeContractTime observed = .ok now := hnormalized
    obtain ⟨hmark, hlast, hsamples⟩ := raise_marks ledger (normalizeContractTime_ok hnormalized).2.1
    exact ⟨hlast.trans (Nat.max_eq_left hstale).symm, by simpa [latest, hnormalized, hzero] using hmark,
      hsamples, by simp [hstale]⟩
  case case5 hzero _ now hnormalized hfresh fenced hback =>
    have hzero : sequence ≠ 0 := hzero
    have hfresh : ¬ sequence ≤ ledger.lastClockSample := hfresh
    have hnormalized : normalizeContractTime observed = .ok now := hnormalized
    have hmark : fenced.highWater = max ledger.highWater now := (max_eq_left hback.2.le).symm
    have hlast : max ledger.lastClockSample sequence = sequence := Nat.max_eq_right (by omega)
    exact ⟨hlast.symm, by simpa [latest, hnormalized, hzero] using hmark, rfl,
      iff_of_true rfl ⟨by omega, now, hnormalized, hback.2⟩⟩
  case case6 hzero _ now hnormalized hfresh fenced hforward =>
    have hzero : sequence ≠ 0 := hzero
    have hfresh : ¬ sequence ≤ ledger.lastClockSample := hfresh
    have hnormalized : normalizeContractTime observed = .ok now := hnormalized
    have hnow := (normalizeContractTime_ok hnormalized).2.1
    obtain ⟨hmark, hlast, hsamples⟩ := raise_marks fenced hnow
    have hmark : (fenced.raise now).highWater = max ledger.highWater now := hmark
    have hmax : max ledger.lastClockSample sequence = sequence := Nat.max_eq_right (by omega)
    refine ⟨hlast.trans hmax.symm, by simpa [latest, hnormalized, hzero] using hmark, hsamples,
      iff_of_false nofun ?_⟩
    rintro ⟨-, other, hother, hback⟩
    obtain rfl : now = other := Except.ok.inj (hnormalized.symm.trans hother)
    have hpositive : ledger.highWater ≠ 0 := by omega
    exact hforward ⟨hpositive, hback⟩

/-! ## Runs -/

/-- The call with this number enters the lock with this reading. -/
def Enters (e : Entry Timed Timing Output) (sequence : Nat) (observed : Int) : Prop :=
  ∃ index locked commit ticket, e.input = .finish index locked commit ∧
    e.before.readings.lookup index = some observed ∧
    e.before.system.tickets[index]? = some (some ticket) ∧ ticket.sequence = sequence

def Entered (past : List (Entry Timed Timing Output)) (sequence : Nat) (observed : Int) : Prop :=
  ∃ e ∈ past, Enters e sequence observed

/-- A call that is not canceled enters the lock with the highest number so far, and a call that has
entered before it has read a later time. -/
def Overtaken (past : List (Entry Timed Timing Output)) (e : Entry Timed Timing Output) : Prop :=
  ∃ index commit ticket observed now, e.input = .finish index none commit ∧
    e.before.readings.lookup index = some observed ∧
    e.before.system.tickets[index]? = some (some ticket) ∧
    normalizeContractTime observed = .ok now ∧
    (∀ sequence earlier, Entered past sequence earlier → sequence < ticket.sequence) ∧
    ∃ sequence earlier later, Entered past sequence earlier ∧ sequence ≠ 0 ∧
      normalizeContractTime earlier = .ok later ∧ now < later

/-- Nothing waits, and the marks of the ledger do not lie ahead of its clock. -/
structure Timed.Calm (state : Timed) : Prop where
  tickets : state.system.tickets = []
  readings : state.readings = ∅
  samples : state.system.ledger.lastClockSample ≤ state.system.ledger.clockSamples
  mark : state.system.ledger.highWater ≤ max 0 state.clock
  canonical : state.system.ledger.highWater % timestampResolution = 0

/-- Both marks are the least that lie above what has entered. -/
structure Timed.Follows (init : Timed) (past : List (Entry Timed Timing Output))
    (state : Timed) : Prop where
  clock : init.system.ledger.highWater ≤ max 0 state.clock
  readings : ∀ index observed, state.readings.lookup index = some observed →
    init.system.ledger.highWater ≤ max 0 observed
  samples : init.system.ledger.lastClockSample ≤ state.system.ledger.clockSamples
  tickets : ∀ ticket, some ticket ∈ state.system.tickets → ticket.sequence ≠ 0 →
    init.system.ledger.lastClockSample < ticket.sequence
  last : ∀ k, state.system.ledger.lastClockSample ≤ k ↔
    init.system.ledger.lastClockSample ≤ k ∧
      ∀ sequence observed, Entered past sequence observed → sequence ≤ k
  mark : ∀ m, state.system.ledger.highWater ≤ m ↔ init.system.ledger.highWater ≤ m ∧
    ∀ sequence observed now, Entered past sequence observed → sequence ≠ 0 →
      normalizeContractTime observed = .ok now → now ≤ m

variable {past : List (Entry Timed Timing Output)} {e : Entry Timed Timing Output}

theorem entered_append {sequence : Nat} {observed : Int} :
    Entered (past ++ [e]) sequence observed ↔
      Entered past sequence observed ∨ Enters e sequence observed := by
  constructor
  · rintro ⟨e', hmem, henters⟩
    rcases List.mem_append.mp hmem with hmem | hmem
    · exact .inl ⟨e', hmem, henters⟩
    · obtain rfl := List.mem_singleton.mp hmem
      exact .inr henters
  · rintro (⟨e', hmem, henters⟩ | henters)
    · exact ⟨e', List.mem_append_left _ hmem, henters⟩
    · exact ⟨e, List.mem_append_right _ List.mem_cons_self, henters⟩

theorem forall_entered_append {P : Nat → Int → Prop} :
    (∀ sequence observed, Entered (past ++ [e]) sequence observed → P sequence observed) ↔
      (∀ sequence observed, Entered past sequence observed → P sequence observed) ∧
        ∀ sequence observed, Enters e sequence observed → P sequence observed := by
  simp only [entered_append, or_imp, forall_and]

theorem Timed.Calm.follows {init : Timed} (h : init.Calm) : init.Follows [] init where
  clock := h.mark
  readings := fun index observed hread => by
    rw [h.readings] at hread
    cases hread
  samples := h.samples
  tickets := fun ticket hmem => by
    rw [h.tickets] at hmem
    cases hmem
  last := fun k => by simp [Entered]
  mark := fun m => by simp [Entered]

theorem Timed.Follows.quiet {init state : Timed} (h : init.Follows past state) {next : Timed}
    (hquiet : ∀ sequence observed, ¬ Enters e sequence observed)
    (hclock : init.system.ledger.highWater ≤ max 0 next.clock)
    (hreadings : ∀ index observed, next.readings.lookup index = some observed →
      init.system.ledger.highWater ≤ max 0 observed)
    (hsamples : init.system.ledger.lastClockSample ≤ next.system.ledger.clockSamples)
    (htickets : ∀ ticket, some ticket ∈ next.system.tickets → ticket.sequence ≠ 0 →
      init.system.ledger.lastClockSample < ticket.sequence)
    (hlast : next.system.ledger.lastClockSample = state.system.ledger.lastClockSample)
    (hmark : next.system.ledger.highWater = state.system.ledger.highWater) :
    init.Follows (past ++ [e]) next := by
  have hentered : ∀ sequence observed,
      Entered (past ++ [e]) sequence observed ↔ Entered past sequence observed := by
    intro sequence observed
    rw [entered_append]
    exact or_iff_left (hquiet sequence observed)
  refine ⟨hclock, hreadings, hsamples, htickets, fun k => ?_, fun m => ?_⟩
  · rw [hlast, h.last k]
    simp only [hentered]
  · rw [hmark, h.mark m]
    simp only [hentered]

/-- The fence and the mark say who has entered before: a number is fresh when it is the highest, and a
reading lies before the mark when somebody has read later. -/
theorem Timed.Follows.overtaken {init state : Timed} (h : init.Follows past state)
    (hcanonical : init.system.ledger.highWater % timestampResolution = 0) {index : Nat}
    {ticket : Ticket} {observed now : Int}
    (hticket : state.system.tickets[index]? = some (some ticket))
    (hread : state.readings.lookup index = some observed)
    (hnow : normalizeContractTime observed = .ok now) :
    (state.system.ledger.lastClockSample < ticket.sequence ∧
        now < state.system.ledger.highWater) ↔
      (∀ sequence earlier, Entered past sequence earlier → sequence < ticket.sequence) ∧
        ∃ sequence earlier later, Entered past sequence earlier ∧ sequence ≠ 0 ∧
          normalizeContractTime earlier = .ok later ∧ now < later := by
  have hmark : init.system.ledger.highWater ≤ now := by
    have hinit := h.readings index observed hread
    obtain ⟨hle, hpositive, -, hmultiple⟩ := normalizeContractTime_ok hnow
    simp only [normalizeContractTime] at hnow
    split_ifs at hnow
    have hnow := Except.ok.inj hnow
    unfold timestampResolution Reconcile.millisecond at *
    omega
  have hlater : now < state.system.ledger.highWater ↔
      ∃ sequence earlier later, Entered past sequence earlier ∧ sequence ≠ 0 ∧
        normalizeContractTime earlier = .ok later ∧ now < later := by
    rw [← not_le, h.mark now]
    push Not
    exact ⟨fun hnot => hnot hmark, fun hexists _ => hexists⟩
  rw [hlater]
  refine and_congr_left fun hexists => ?_
  obtain ⟨first, earlier, later, hentered, hfirst, -⟩ := hexists
  constructor
  · intro hfresh sequence other hother
    have hle := ((h.last _).mp le_rfl).2 sequence other hother
    omega
  · intro hall
    have hzero : ticket.sequence ≠ 0 := by
      have hlt := hall first earlier hentered
      omega
    have hinit := h.tickets ticket (List.mem_of_getElem? hticket) hzero
    have hle : state.system.ledger.lastClockSample ≤ ticket.sequence - 1 := by
      refine (h.last _).mpr ⟨by omega, fun sequence other hother => ?_⟩
      have hlt := hall sequence other hother
      omega
    omega

section
variable [Sha256] [URLParser]

theorem admit_not_regressed (ticket : Ticket) (now : Int) :
    ledger.admitTicket ticket now ≠ .error [.clockRegressed] := by
  fun_cases Ledger.admitTicket ledger ticket now
  all_goals rintro ⟨⟩

/-- The lock keeps what the sample has done to the marks and reports a rollback it has seen, unless
the context is done. -/
theorem issueLocked_clocked (ticket : Ticket) (observed : Int) (locked commit : Option ContextError) :
    ∃ regressed, ledger.Clocked
        (ledger.issueLocked ticket observed (locked.map ContextError.sentinel)
          (commit.map ContextError.sentinel)).1 ticket.sequence observed regressed ∧
      ((ledger.issueLocked ticket observed (locked.map ContextError.sentinel)
        (commit.map ContextError.sentinel)).2 = .error [.clockRegressed] ↔
          locked = none ∧ regressed) := by
  have hclocked := observeIssuanceClockLocked_clocked ledger ticket.sequence observed
  unfold Ledger.issueLocked
  generalize ledger.observeIssuanceClockLocked _ = clocked at hclocked ⊢
  obtain ⟨fenced, clock⟩ := clocked
  cases locked with
  | some failure => exact ⟨_, hclocked, by cases failure <;> simp [ContextError.sentinel]⟩
  | none =>
    cases clock with
    | error => exact ⟨_, hclocked, by simp⟩
    | ok now =>
      have hadm := admit_not_regressed fenced ticket now
      dsimp only [Option.map_none]
      cases hresult : fenced.admitTicket ticket now with
      | error => exact ⟨_, hclocked, by simpa [hresult] using hadm⟩
      | ok =>
        cases commit with
        | none =>
          obtain ⟨hlast, hmark, hsamples, hregressed⟩ := hclocked
          exact ⟨_, ⟨hlast, hmark, hsamples, hregressed⟩, by simp⟩
        | some failure => exact ⟨_, hclocked, by cases failure <;> simp [ContextError.sentinel]⟩

variable {init state : Timed} {past : List (Entry Timed Timing Output)}

theorem Timed.Follows.start (h : init.Follows past state) (call : IssueCall)
    (before after : Option ContextError) :
    init.Follows (past ++ [timed.entry state (.start call before after)])
      (timed.next state (.start call before after)) := by
  have hquiet : ∀ sequence observed,
      ¬ Enters (timed.entry state (.start call before after)) sequence observed := by
    rintro sequence observed ⟨index, locked, commit, ticket, hinput, -⟩
    cases hinput
  have hnext : timed.next state (.start call before after) =
      { state with system := (state.system.start (call.under before after)).1 } := rfl
  rw [hnext]
  fun_cases System.start state.system (call.under before after)
  case case1 => exact h.quiet hquiet h.clock h.readings h.samples h.tickets rfl rfl
  case case2 sampled sequence hsample =>
    have hsampled : sampled.lastClockSample = state.system.ledger.lastClockSample ∧
        sampled.highWater = state.system.ledger.highWater ∧
        state.system.ledger.clockSamples ≤ sampled.clockSamples ∧
        (sequence ≠ 0 → state.system.ledger.clockSamples < sequence) := by
      unfold Ledger.sampleIssuanceClock at hsample
      split_ifs at hsample
      · cases hsample
        exact ⟨rfl, rfl, le_rfl, fun hzero => absurd rfl hzero⟩
      · cases hsample
        exact ⟨rfl, rfl, Nat.le_succ _, fun _ => Nat.lt_succ_self _⟩
    obtain ⟨hlast, hmark, hsamples, hsequence⟩ := hsampled
    refine h.quiet hquiet h.clock h.readings (h.samples.trans hsamples) ?_ hlast hmark
    intro ticket hmem hzero
    rcases List.mem_append.mp hmem with hmem | hmem
    · exact h.tickets ticket hmem hzero
    · cases List.mem_singleton.mp hmem
      exact h.samples.trans_lt (hsequence hzero)

theorem Timed.Follows.read (h : init.Follows past state) (index : Nat) :
    init.Follows (past ++ [timed.entry state (.read index)]) (timed.next state (.read index)) := by
  have hquiet : ∀ sequence observed,
      ¬ Enters (timed.entry state (.read index)) sequence observed := by
    rintro sequence observed ⟨other, locked, commit, ticket, hinput, -⟩
    cases hinput
  have hnext : timed.next state (.read index) = (state.step (.read index)).1 := rfl
  rw [hnext]
  unfold Timed.step
  dsimp only
  split
  · refine h.quiet hquiet h.clock ?_ h.samples h.tickets rfl rfl
    intro other observed hread
    by_cases hother : other = index
    · subst hother
      rw [AList.lookup_insert, Option.some.injEq] at hread
      exact hread ▸ h.clock
    · rw [AList.lookup_insert_ne hother] at hread
      exact h.readings other observed hread
  · exact h.quiet hquiet h.clock h.readings h.samples h.tickets rfl rfl

theorem Timed.Follows.finish (h : init.Follows past state) (index : Nat)
    (locked commit : Option ContextError) :
    init.Follows (past ++ [timed.entry state (.finish index locked commit)])
      (timed.next state (.finish index locked commit)) := by
  have hnext : timed.next state (.finish index locked commit) =
      (state.step (.finish index locked commit)).1 := rfl
  rw [hnext]
  unfold Timed.step
  dsimp only
  split
  case h_1 hread =>
    refine h.quiet ?_ h.clock h.readings h.samples h.tickets rfl rfl
    rintro sequence observed ⟨other, locked', commit', ticket, hinput, hother, -⟩
    cases hinput
    cases hread.symm.trans hother
  case h_2 observed hread =>
    fun_cases System.finish state.system index observed (locked.map ContextError.sentinel)
      (commit.map ContextError.sentinel)
    case case2 hnone =>
      refine h.quiet ?_ h.clock h.readings h.samples h.tickets rfl rfl
      rintro sequence other ⟨index', locked', commit', ticket, hinput, -, hticket, -⟩
      cases hinput
      exact hnone ticket hticket
    case case1 ticket hticket ledger result hissue =>
      obtain ⟨_, hclocked, _⟩ := issueLocked_clocked state.system.ledger ticket observed locked commit
      rw [hissue] at hclocked
      have henters : ∀ sequence other,
          Enters (timed.entry state (.finish index locked commit)) sequence other ↔
            sequence = ticket.sequence ∧ other = observed := by
        intro sequence other
        constructor
        · rintro ⟨index', locked', commit', ticket', hinput, hother, hticket', rfl⟩
          cases hinput
          have hsame : ticket' = ticket :=
            Option.some.inj (Option.some.inj (hticket'.symm.trans hticket))
          exact ⟨hsame ▸ rfl, Option.some.inj (hother.symm.trans hread)⟩
        · rintro ⟨rfl, rfl⟩
          exact ⟨index, locked, commit, ticket, rfl, hread, hticket, rfl⟩
      refine ⟨h.clock, h.readings, h.samples.trans_eq hclocked.samples.symm, ?_, fun k => ?_, fun m => ?_⟩
      · intro other hmem hzero
        rcases List.mem_or_eq_of_mem_set hmem with hmem | hmem
        · exact h.tickets other hmem hzero
        · cases hmem
      · rw [hclocked.last, max_le_iff, h.last k, and_assoc, forall_entered_append]
        simp [henters]
      · rw [hclocked.mark, latest_le_iff, h.mark m, and_assoc]
        simp only [entered_append, henters]
        constructor
        · rintro ⟨hinit, hpast, hlast⟩
          refine ⟨hinit, fun sequence other now hentered hzero hnow => ?_⟩
          rcases hentered with hentered | ⟨rfl, rfl⟩
          · exact hpast sequence other now hentered hzero hnow
          · exact hlast hzero now hnow
        · rintro ⟨hinit, hall⟩
          exact ⟨hinit, fun sequence other now hentered => hall sequence other now (.inl hentered),
            fun hzero now => hall _ _ now (.inr ⟨rfl, rfl⟩) hzero⟩

theorem Timed.Follows.next (h : init.Follows past state) (input : Timing) :
    init.Follows (past ++ [timed.entry state input]) (timed.next state input) := by
  cases input with
  | tick elapsed =>
    have hclock : init.system.ledger.highWater ≤ max 0 (state.clock + elapsed) := by
      have hbefore := h.clock
      omega
    refine h.quiet ?_ hclock h.readings h.samples h.tickets rfl rfl
    rintro sequence observed ⟨index, locked, commit, ticket, hinput, -⟩
    cases hinput
  | start call before after => exact h.start call before after
  | read index => exact h.read index
  | finish index locked commit => exact h.finish index locked commit

theorem verified_not_regressed (call : IssueCall) (before after : Option ContextError) :
    (call.under before after).verified ≠ .error [.clockRegressed] := by
  have hsentinel : ∀ failure : ContextError, failure.sentinel ≠ .clockRegressed := by
    intro failure
    cases failure <;> simp [ContextError.sentinel]
  fun_cases IssueCall.verified (call.under before after)
  case case1 hbefore =>
    obtain ⟨cause, -, rfl⟩ := Option.map_eq_some_iff.mp hbefore
    simpa using hsentinel cause
  case case3 hafter =>
    obtain ⟨cause, -, rfl⟩ := Option.map_eq_some_iff.mp hafter
    simpa using hsentinel cause
  all_goals simp

theorem start_not_regressed (system : System) (call : IssueCall)
    (before after : Option ContextError) :
    (system.start (call.under before after)).2 ≠ .issued (.error [.clockRegressed]) := by
  have hverified := verified_not_regressed call before after
  fun_cases System.start system (call.under before after)
  case case1 hfailure =>
    rw [hfailure] at hverified
    simpa using hverified
  case case2 => rintro ⟨⟩

/-- A step reports a rollback exactly when it is the step of an overtaken call. -/
theorem Timed.Follows.regressed_iff (h : init.Follows past state)
    (hcanonical : init.system.ledger.highWater % timestampResolution = 0) (input : Timing) :
    (timed.entry state input).output = .issued (.error [.clockRegressed]) ↔
      Overtaken past (timed.entry state input) := by
  cases input with
  | tick =>
    refine iff_of_false (by rintro ⟨⟩) ?_
    rintro ⟨index, commit, ticket, observed, now, hinput, -⟩
    cases hinput
  | start call before after =>
    refine iff_of_false (start_not_regressed state.system call before after) ?_
    rintro ⟨index, commit, ticket, observed, now, hinput, -⟩
    cases hinput
  | read index =>
    refine iff_of_false ?_ ?_
    · show (state.step (.read index)).2 ≠ _
      unfold Timed.step
      dsimp only
      split
      · rintro ⟨⟩
      · rintro ⟨⟩
    · rintro ⟨other, commit, ticket, observed, now, hinput, -⟩
      cases hinput
  | finish index locked commit =>
    show (state.step (.finish index locked commit)).2 = _ ↔ _
    unfold Timed.step
    dsimp only
    split
    case h_1 hread =>
      refine iff_of_false (by rintro ⟨⟩) ?_
      rintro ⟨other, commit', ticket, observed, now, hinput, hother, -⟩
      cases hinput
      cases hread.symm.trans hother
    case h_2 observed hread =>
      fun_cases System.finish state.system index observed (locked.map ContextError.sentinel)
        (commit.map ContextError.sentinel)
      case case2 hnone =>
        refine iff_of_false (by rintro ⟨⟩) ?_
        rintro ⟨other, commit', ticket, observed', now, hinput, -, hticket, -⟩
        cases hinput
        exact hnone ticket hticket
      case case1 ticket hticket ledger result hissue =>
        obtain ⟨regressed, hclocked, hregressed⟩ :=
          issueLocked_clocked state.system.ledger ticket observed locked commit
        rw [hissue] at hregressed
        rw [Output.issued.injEq, hregressed, hclocked.regressed]
        constructor
        · rintro ⟨rfl, hfresh, now, hnow, hback⟩
          obtain ⟨hall, hexists⟩ := (h.overtaken hcanonical hticket hread hnow).mp ⟨hfresh, hback⟩
          exact ⟨index, commit, ticket, observed, now, rfl, hread, hticket, hnow, hall, hexists⟩
        · rintro ⟨other, commit', ticket', observed', now, hinput, hread', hticket', hnow, hall,
            hexists⟩
          cases hinput
          obtain rfl : ticket' = ticket :=
            Option.some.inj (Option.some.inj (hticket'.symm.trans hticket))
          obtain rfl : observed' = observed := Option.some.inj (hread'.symm.trans hread)
          obtain ⟨hfresh, hback⟩ :=
            (h.overtaken hcanonical hticket hread hnow).mpr ⟨hall, hexists⟩
          exact ⟨rfl, hfresh, now, hnow, hback⟩

/-- With a clock that never goes back, issuances report no rollback exactly when none of them is
overtaken. -/
theorem issuance_rollback_iff {init : Timed} (hcalm : init.Calm) (inputs : List Timing) :
    (∀ e ∈ timed.trace init inputs, e.output ≠ .issued (.error [.clockRegressed])) ↔
      ∀ (n : Nat) (e : Entry Timed Timing Output), (timed.trace init inputs)[n]? = some e →
        ¬ Overtaken ((timed.trace init inputs).take n) e := by
  have hstep : ∀ (n : Nat) (e : Entry Timed Timing Output),
      (timed.trace init inputs)[n]? = some e →
        (e.output = .issued (.error [.clockRegressed]) ↔
          Overtaken ((timed.trace init inputs).take n) e) := by
    intro n e he
    have hfollows := record_before timed (P := fun past state => init.Follows past state)
      hcalm.follows (fun past state input hpast => hpast.next input) he
    obtain ⟨-, hentry, -⟩ := trace_next timed he
    rw [hentry]
    exact hfollows.regressed_iff hcalm.canonical e.input
  constructor
  · intro hnone n e he hovertaken
    exact hnone e (List.mem_of_getElem? he) ((hstep n e he).mpr hovertaken)
  · intro hnone e hmem hregressed
    obtain ⟨n, he⟩ := List.getElem?_of_mem hmem
    exact hnone n e he ((hstep n e he).mp hregressed)

end

theorem newLedger_calm [Sha256] [URLParser] {administrators : List Administrator} {ledger : Ledger}
    (h : newLedger administrators = .ok ledger) (clock : Int) :
    (⟨⟨ledger, []⟩, clock, ∅⟩ : Timed).Calm := by
  unfold newLedger at h
  split_ifs at h
  split at h
  · cases h
  · cases h
    exact ⟨rfl, rfl, le_rfl, le_max_left 0 clock, rfl⟩

/-! Two issuances that read the clock in the order of their numbers, and in the other order. -/

def sampleIssue : IssueCall :=
  ⟨true, sampleElevation, .proof "prf_0000000000000001" timestampResolution, none, none⟩

def emptyLedger : Ledger := ⟨0, 0, ∅, ∅, ∅, 0⟩

def emptyStart : Timed := ⟨⟨emptyLedger, []⟩, 2 * timestampResolution, ∅⟩

def readsInOrder : List Timing :=
  [.start sampleIssue none none, .start sampleIssue none none, .read 0, .tick 1000000, .read 1,
    .finish 0 none none, .finish 1 none none]

def readsSwapped : List Timing :=
  [.start sampleIssue none none, .start sampleIssue none none, .read 1, .tick 1000000, .read 0,
    .finish 0 none none, .finish 1 none none]

deriving instance DecidableEq for Output

attribute [local instance] Reconcile.plainSha256 Identity.plainURLParser

theorem issuance_rollback_iff_in_order :
    (∀ e ∈ timed.trace emptyStart readsInOrder, e.output ≠ .issued (.error [.clockRegressed])) ∧
      ∀ (n : Nat) (e : Entry Timed Timing Output),
        (timed.trace emptyStart readsInOrder)[n]? = some e →
        ¬ Overtaken ((timed.trace emptyStart readsInOrder).take n) e := by
  have hnew : newLedger [] = .ok emptyLedger := rfl
  have hcalm : emptyStart.Calm := newLedger_calm hnew (2 * timestampResolution)
  have hquiet : ∀ e ∈ timed.trace emptyStart readsInOrder,
      e.output ≠ .issued (.error [.clockRegressed]) := by decide +kernel
  exact ⟨hquiet, (issuance_rollback_iff hcalm readsInOrder).mp hquiet⟩

/-- The second number is read first and enters last: it carries the older of two readings of a clock
that went forward. -/
theorem readsSwapped_rollback :
    newLedger [] = .ok emptyLedger ∧ ∃ e ∈ timed.trace emptyStart readsSwapped,
      e.output = .issued (.error [.clockRegressed]) :=
  ⟨rfl, by decide +kernel⟩

end Veer.Administration
