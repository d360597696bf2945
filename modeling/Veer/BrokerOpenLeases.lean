import Veer.BrokerClock
import Veer.BrokerLeases

/-!
# No session is destroyed under an open lease

The invariant of the session store holds along a run as long as no flight publishes over the cell
of an earlier flight while a goroutine that waited for that earlier flight has not taken its
lease yet. A handle counts as closed once its `Close` has taken the reference back.
-/
namespace Veer.CredentialBroker
open Reconcile (ID DigestValue equalDigest)
open ListHeap StepMachine

/-! ## The resources of all goroutines -/

def Broker.queuedSessions (b : Broker) : List Nat := b.tasks.flatMap fun task => task.stage.queue

def Broker.heldSessions (b : Broker) : List Nat :=
  b.tasks.flatMap fun task => task.stage.held.toList

def Broker.awaited (b : Broker) : List Nat := b.tasks.flatMap fun task => task.stage.waits

/-- The closed handles whose reference is still to be given back. -/
def Broker.pendingReleases (b : Broker) : List Nat :=
  b.tasks.flatMap fun task => task.stage.releases

def Broker.frame (b : Broker) : Frame :=
  ⟨b.queuedSessions, b.heldSessions, b.awaited, b.pendingReleases⟩

/-- The same store, with the resources dealt out anew between the running goroutine and the
others. -/
structure View.Reframes (v : View) (R : Frame) (v' : View) (R' : Frame) : Prop where
  store : ∃ q h u p, v' = { v with queue := q, held := h, waits := u, releases := p }
  queue : ∀ id ∈ v'.queue ++ R'.queue, id ∈ v.queue ++ R.queue
  held : (v'.held.toList ++ R'.held).Perm (v.held.toList ++ R.held)
  waits : ∀ j ∈ v'.waits ++ R'.waits, j ∈ v.waits ++ R.waits
  releases : (v'.releases ++ R'.releases).Perm (v.releases ++ R.releases)

variable {v v' : View} {R R' : Frame} {F F' : Nat → Prop} {b : Broker}

theorem View.Accounted.reframe (h : v.Accounted R) (hframe : v.Reframes R v' R') :
    v'.Accounted R' := by
  obtain ⟨⟨q, g, u, p, rfl⟩, hqueue, hheld, -, hreleases⟩ := hframe
  obtain ⟨hlinked, hreleasing, hcounted⟩ := h
  refine ⟨{ hlinked with owned := { hlinked.owned with
      queued := fun id hid => hlinked.owned.queued id (hqueue id hid)
      held := fun id hid => hlinked.owned.held id (hheld.subset hid)
      sole := hheld.nodup_iff.mpr hlinked.owned.sole } }, ?_, { hcounted with }⟩
  exact { hreleasing with
    known := fun l hl => hreleasing.known l (hreleases.subset hl)
    once := fun l lease hlease => (hreleases.count_eq l).trans (hreleasing.once l lease hlease) }

theorem View.Safe.reframe (h : v.Safe R F) (hframe : v.Reframes R v' R')
    (hfree : ∀ j ∈ v'.waits ++ R'.waits, ∀ (flight : FlightView) (c : Nat),
      v.flights[j]? = some flight → flight.cell = some c → ¬ F' c) : v'.Safe R' F' := by
  have haccounted := h.accounted.reframe hframe
  obtain ⟨⟨q, g, u, p, rfl⟩, -, -, hwaits, -⟩ := hframe
  refine ⟨{ h.ordered with }, haccounted, ⟨h.reachable.pending, ?_⟩, { h.tracked with }⟩
  intro j hj flight c hflight hc
  obtain ⟨hsound, -⟩ := h.reachable.waited j (hwaits j hj) flight c hflight hc
  exact ⟨hsound.congr rfl rfl rfl rfl rfl rfl, hfree j hj flight c hflight hc⟩

/-- The running task's share comes out of the whole, when its stage is left. -/
theorem flatMap_tasks {f : Stage → List Nat} (hf : f .returned = []) {tasks : List Task} {t : Nat}
    {task : Task} (htask : tasks[t]? = some task) :
    (tasks.flatMap fun task => f task.stage).Perm
      (f task.stage ++ (tasks.set t ⟨.returned, none⟩).flatMap fun task => f task.stage) := by
  obtain ⟨hlt, rfl⟩ := List.getElem?_eq_some_iff.mp htask
  have hout := (List.getElem_cons_eraseIdx_perm hlt).symm.flatMap_right fun task => f task.stage
  have hset := (List.set_perm_cons_eraseIdx hlt ⟨.returned, none⟩).flatMap_right
    fun task => f task.stage
  simp only [List.flatMap_cons, hf, List.nil_append] at hout hset
  exact hout.trans (hset.symm.append_left _)

theorem flatMap_resample {f : Stage → List Nat} {tasks : List Task} {t : Nat} {task : Task}
    (htask : tasks[t]? = some task) (sample : Option Nat) :
    ((tasks.set t ⟨task.stage, sample⟩).flatMap fun task => f task.stage) =
      tasks.flatMap fun task => f task.stage := by
  rw [← List.flatMap_map Task.stage f, ← List.flatMap_map Task.stage f, List.map_set]
  congr 1
  obtain ⟨hlt, rfl⟩ := List.getElem?_eq_some_iff.mp htask
  apply List.ext_getElem
  · simp
  · intro n h1 h2
    by_cases hn : t = n
    · subst hn
      simp
    · simp [hn]

theorem takeSample_flatMap (f : Stage → List Nat) (b : Broker) (t : Nat) :
    ((b.takeSample t).tasks.flatMap fun task => f task.stage) =
      b.tasks.flatMap fun task => f task.stage := by
  unfold Broker.takeSample Broker.nextSample
  split
  · rfl
  case h_2 htask =>
    split_ifs
    · exact flatMap_resample htask _
    · exact flatMap_resample htask _
    · rfl

theorem takeSample_frame (b : Broker) (t : Nat) : (b.takeSample t).frame = b.frame := by
  unfold Broker.frame Broker.queuedSessions Broker.heldSessions Broker.awaited
    Broker.pendingReleases
  rw [takeSample_flatMap Stage.queue, takeSample_flatMap Stage.waits,
    takeSample_flatMap Stage.releases, takeSample_flatMap fun stage => stage.held.toList]

/-- A new call owns nothing. -/
theorem call_frame (b : Broker) (call : Call) :
    (machine.next b (.call call)).frame = b.frame := by
  have hidle : call.stage.queue = [] ∧ call.stage.held = none ∧ call.stage.waits = [] ∧
      call.stage.releases = [] := by
    cases call <;> exact ⟨rfl, rfl, rfl, rfl⟩
  obtain ⟨hqueue, hheld, hwaits, hreleases⟩ := hidle
  simp [machine, Machine.next, Broker.step, Broker.frame, Broker.queuedSessions,
    Broker.heldSessions, Broker.awaited, Broker.pendingReleases, hqueue, hheld, hwaits, hreleases]

theorem sole_held {stages : List Stage}
    (hsole : stages.length ≤ 1 ∨ ∀ stage ∈ stages, stage.held = none) :
    (stages.flatMap fun stage => stage.held.toList) = (stages.findSome? Stage.held).toList := by
  rcases hsole with hlength | hnone
  · rcases stages with _ | ⟨stage, _ | ⟨next, rest⟩⟩
    · rfl
    · cases hheld : stage.held <;> simp [hheld]
    · simp at hlength
  · have hfind : stages.findSome? Stage.held = none := List.findSome?_eq_none_iff.mpr hnone
    rw [hfind, Option.toList_none, List.flatMap_eq_nil_iff]
    intro stage hstage
    rw [hnone stage hstage, Option.toList_none]

theorem schedule_flatMap (f : Stage → List Nat) (o : Outcome) (tasks : List Task) (t : Nat) :
    ((o.schedule tasks t).tasks.flatMap fun task => f task.stage).Perm (o.stages.flatMap f ++
      (tasks.set t ⟨.returned, none⟩).flatMap fun task => f task.stage) := by
  have hsame : ((o.schedule tasks t).tasks.flatMap fun task => f task.stage) =
      ((tasks.set t ⟨.returned, none⟩).flatMap fun task => f task.stage) ++
        o.stages.flatMap f := by
    simp [Outcome.schedule, List.flatMap_append, List.flatMap_map]
  rw [hsame]
  exact List.perm_append_comm

/-- A section starts from its task's share of the resources and returns what the next tasks
own. -/
theorem schedule_reframes {t : Nat} {task : Task} {o : Outcome} (htask : b.tasks[t]? = some task)
    (hsole : o.stages.length ≤ 1 ∨ ∀ stage ∈ o.stages, stage.held = none) :
    ∃ R : Frame, (b.view [] none []).Reframes b.frame (b.viewAt task.stage) R ∧
      o.view.Reframes R ((o.schedule b.tasks t).view [] none []) (o.schedule b.tasks t).frame := by
  let share (f : Stage → List Nat) : List Nat :=
    (b.tasks.set t ⟨.returned, none⟩).flatMap fun task => f task.stage
  have hheld := schedule_flatMap (fun stage => stage.held.toList) o b.tasks t
  rw [sole_held hsole] at hheld
  refine ⟨⟨share Stage.queue, share fun stage => stage.held.toList, share Stage.waits,
    share Stage.releases⟩, ⟨⟨_, _, _, _, rfl⟩, ?_, ?_, ?_, ?_⟩, ⟨⟨_, _, _, _, rfl⟩, ?_, hheld, ?_, ?_⟩⟩
  · exact fun id hid => (flatMap_tasks (f := Stage.queue) rfl htask).mem_iff.mpr hid
  · exact (flatMap_tasks (f := fun stage => stage.held.toList) rfl htask).symm
  · exact fun j hj => (flatMap_tasks (f := Stage.waits) rfl htask).mem_iff.mpr hj
  · exact (flatMap_tasks (f := Stage.releases) rfl htask).symm
  · exact fun id hid => (schedule_flatMap Stage.queue o b.tasks t).mem_iff.mp hid
  · exact fun j hj => (schedule_flatMap Stage.waits o b.tasks t).mem_iff.mp hj
  · exact schedule_flatMap Stage.releases o b.tasks t

theorem ready_task {t : Nat} {env : Env} {stage : Stage} {sequence : Nat}
    (hready : b.ready (.run t env) = some (stage, sequence)) :
    ∃ task, b.tasks[t]? = some task ∧ task.stage = stage := by
  simp only [Broker.ready] at hready
  split at hready
  · cases hready
  case h_2 task htask =>
    split_ifs at hready
    cases hready
    exact ⟨task, htask, rfl⟩

theorem View.Reframes.refl (v : View) (R : Frame) : v.Reframes R v R :=
  ⟨⟨_, _, _, _, rfl⟩, fun _ hid => hid, .refl _, fun _ hj => hj, .refl _⟩

/-- A step of the machine is idle, or deals out the resources, makes moves and collects the
resources again. -/
theorem next_moves (b : Broker) (input : Input) :
    (b.view [] none []).Reframes b.frame ((machine.next b input).view [] none [])
        (machine.next b input).frame ∨
      ∃ stage sequence, b.ready input = some (stage, sequence) ∧ ∃ (R : Frame) (v : View),
        (b.view [] none []).Reframes b.frame (b.viewAt stage) R ∧
        Moves (b.replaceable stage) (b.viewAt stage) v ∧
        v.Reframes R ((machine.next b input).view [] none []) (machine.next b input).frame := by
  cases input with
  | call call =>
    rw [call_frame]
    exact .inl (.refl _ _)
  | sample t =>
    refine .inl ?_
    change View.Reframes _ _ ((b.takeSample t).view [] none []) (b.takeSample t).frame
    rw [takeSample_view, takeSample_frame]
    exact .refl _ _
  | run t env =>
    cases hready : b.ready (.run t env) with
    | none =>
      refine .inl ?_
      simp only [machine, Machine.next, Broker.step, hready]
      exact .refl _ _
    | some ready =>
      obtain ⟨task, htask, hstage⟩ := ready_task hready
      obtain ⟨hmoves, hsole, -⟩ := perform_moves b ready.1 ready.2 env
      obtain ⟨R, hstart, hend⟩ := schedule_reframes htask hsole
      rw [hstage] at hstart
      refine .inr ⟨ready.1, ready.2, rfl, R, _, hstart, hmoves, ?_⟩
      simp only [machine, Machine.next, Broker.step, hready]
      exact hend

/-! ## Runs -/

theorem newBroker_accounted (issuers : List IssuerKey) (now : Int) :
    ((newBroker issuers now).view [] none []).Accounted (newBroker issuers now).frame := by
  refine ⟨⟨?_, ?_, ⟨?_, ?_, ?_, ?_, ?_, ?_⟩, ?_⟩, ⟨?_, ?_, ?_⟩, ⟨?_, ?_, rfl⟩⟩ <;>
    simp [Broker.view, newBroker, Broker.frame, Broker.queuedSessions, Broker.heldSessions,
      Broker.pendingReleases]

/-- In every run the index, the pending releases and the references are in order. -/
theorem exec_accounted (issuers : List IssuerKey) (now : Int) (inputs : List Input) :
    let b := machine.exec (newBroker issuers now) inputs
    (b.view [] none []).Accounted b.frame := by
  refine exec_invariant machine (P := fun b => (b.view [] none []).Accounted b.frame) ?_
    (newBroker_accounted issuers now) inputs
  intro b input h
  rcases next_moves b input with hidle | ⟨stage, sequence, -, R, v, hstart, hmoves, hend⟩
  · exact h.reframe hidle
  · have hsection : v.Accounted R :=
      hmoves.keep (fun _ _ hmove => hmove.accounted) (h.reframe hstart)
    exact hsection.reframe hend

/-- The store is safe, with the resources of all goroutines as the frame. -/
def Broker.Safe (b : Broker) : Prop := (b.view [] none []).Safe b.frame fun _ => False

/-- The step publishes no session over the cell of a flight that a goroutine still waits for. -/
def Broker.Unawaited (b : Broker) (input : Input) : Prop :=
  ∀ ready ∈ b.ready input, ∀ c < b.cellHeap.length, b.replaceable ready.1 c →
    ∀ j ∈ b.awaited, ∀ flight ∈ b.sessionFlightHeap[j]?, flight.cell ≠ some c

theorem newBroker_safe (issuers : List IssuerKey) (now : Int) : (newBroker issuers now).Safe := by
  refine ⟨newBroker_ordered issuers now, newBroker_accounted issuers now, ⟨?_, ?_⟩,
    ⟨?_, ?_, ?_⟩⟩ <;> simp [Broker.view, newBroker, Broker.frame, Broker.awaited]

theorem replaceable_lt {stage : Stage} {c : Nat} (h : b.replaceable stage c) :
    c < b.cellHeap.length := by
  cases stage with
  | flightFinish => exact h.1
  | _ => exact h.elim

theorem next_safe (h : b.Safe) {input : Input} (hunawaited : b.Unawaited input) :
    (machine.next b input).Safe := by
  rcases next_moves b input with hidle | ⟨stage, sequence, hready, R, v, hstart, hmoves, hend⟩
  · exact h.reframe hidle fun _ _ _ _ _ _ hfalse => hfalse
  · have hbefore : (b.viewAt stage).Safe R (b.replaceable stage) := by
      refine h.reframe hstart fun j hj flight c hflight hc hreplaced => ?_
      obtain ⟨found, hfound, rfl⟩ :=
        Option.map_eq_some_iff.mp (List.getElem?_map.symm.trans hflight)
      exact hunawaited (stage, sequence) hready c (replaceable_lt hreplaced) hreplaced j
        (hstart.waits j hj) found hfound hc
    have hafter : v.Safe R (b.replaceable stage) := hmoves.keep (fun _ _ hmove => hmove.safe) hbefore
    exact hafter.reframe hend fun _ _ _ _ _ _ hfalse => hfalse

/-! ## Open leases -/

/-- The handles that were given out and not taken back. -/
def Broker.openLeases (b : Broker) : Nat := b.leaseHeap.countP fun lease => !lease.released

def Broker.trackedRefs (b : Broker) : Nat :=
  (b.cells.map fun i => ((b.cellHeap[i]?).map SessionCell.refs).getD 0).sum

structure Broker.LeasesKept (b : Broker) : Prop where
  active : b.activeLeases = b.openLeases
  refs : b.openLeases = b.trackedRefs
  kept : ∀ lease ∈ b.leaseHeap, lease.released = false →
    ∃ cell, b.cellHeap[lease.cell]? = some cell ∧ (cell.invalid = false →
      lease.cell ∈ b.cells ∧ cell.session.id ∉ b.destroyedSessions ∧
        cell.session.id ∉ b.queuedSessions)

theorem Broker.Safe.cell_tracked (h : b.Safe) {lease : Lease} (hlease : lease ∈ b.leaseHeap)
    (hopen : lease.released = false) :
    (∃ cell, b.cellHeap[lease.cell]? = some cell) ∧ lease.cell ∈ b.cells := by
  have hlt : lease.cell < b.cellHeap.length := by
    have hlt := h.accounted.counted.handles lease hlease
    rwa [Broker.view, List.length_map] at hlt
  obtain ⟨cell, hcell⟩ : ∃ cell, b.cellHeap[lease.cell]? = some cell :=
    ⟨_, List.getElem?_eq_getElem hlt⟩
  refine ⟨⟨cell, hcell⟩, ?_⟩
  have hview := view_cellHeap (q := []) (h := none) (u := []) hcell
  refine h.tracked.referenced _ _ hview ?_
  rw [h.accounted.counted.refs _ _ hview]
  refine (List.countP_pos_iff.mpr ⟨lease, hlease, ?_⟩).ne'
  simp [Lease.unreleasedOn, hopen]

theorem Broker.Safe.leasesKept (h : b.Safe) : b.LeasesKept := by
  refine ⟨h.accounted.counted.active, ?_, fun lease hlease hopen => ?_⟩
  · have hsum := sum_countP_key (p := fun lease : Lease => !lease.released) (g := Lease.cell)
      h.tracked.nodup b.leaseHeap fun lease hlease hopen =>
        (h.cell_tracked hlease (by simpa using hopen)).2
    rw [Broker.openLeases, ← hsum, Broker.trackedRefs]
    congr 1
    apply List.map_congr_left
    intro i hi
    have hlt : i < b.cellHeap.length := by
      have hlt := h.tracked.bound i hi
      rwa [Broker.view, List.length_map] at hlt
    have hcell : b.cellHeap[i]? = some b.cellHeap[i] := List.getElem?_eq_getElem hlt
    have hview := view_cellHeap (q := []) (h := none) (u := []) hcell
    rw [hcell]
    exact (h.accounted.counted.refs i _ hview).symm
  · obtain ⟨⟨cell, hcell⟩, htracked⟩ := h.cell_tracked hlease hopen
    have hview := view_cellHeap (q := []) (h := none) (u := []) hcell
    refine ⟨cell, hcell, fun hvalid => ⟨htracked, ?_⟩⟩
    exact h.accounted.linked.owned.kept hview hvalid htracked

/-- In every run that never publishes over an awaited cell, the broker's count, the open handles
and the references of the tracked cells agree, and the session of an open lease that was not
invalidated is neither destroyed nor queued. -/
theorem leases_kept (issuers : List IssuerKey) (now : Int) (inputs : List Input)
    (hunawaited : ∀ e ∈ machine.trace (newBroker issuers now) inputs, e.before.Unawaited e.input) :
    (machine.exec (newBroker issuers now) inputs).LeasesKept := by
  suffices hsafe : ∀ (b : Broker), b.Safe → (∀ e ∈ machine.trace b inputs,
      e.before.Unawaited e.input) → (machine.exec b inputs).Safe from
    (hsafe _ (newBroker_safe issuers now) hunawaited).leasesKept
  clear hunawaited
  induction inputs with
  | nil => exact fun b h _ => h
  | cons input inputs ih =>
    intro b h hunawaited
    have hfirst : b.Unawaited input := hunawaited _ List.mem_cons_self
    exact ih _ (next_safe h hfirst) fun e he => hunawaited e (List.mem_cons_of_mem _ he)

instance (b : Broker) (stage : Stage) (c : Nat) : Decidable (b.replaceable stage c) := by
  unfold Broker.replaceable
  split <;> infer_instance

instance (b : Broker) (input : Input) : Decidable (b.Unawaited input) := by
  unfold Broker.Unawaited
  infer_instance

/-- A refresh that publishes after the first caller took its lease. -/
def lateRefresh : List Input :=
  firstLease ++ .call (.refresh demoRequest) ::
    runAt demoStart [20, 21, 22, 24, 25, 26, 27, 28, 29]

theorem leases_kept_refreshed :
    (machine.exec (newBroker [demoIssuer] demoStart) lateRefresh).LeasesKept :=
  leases_kept [demoIssuer] demoStart lateRefresh (by decide +kernel)

/-- The same refresh publishes before the first caller has woken up. -/
def earlyRefresh : List Input :=
  firstFlight ++ .call (.refresh demoRequest) ::
    runAt demoStart [18, 19, 20, 22, 23, 24, 25, 26, 27, 3, 29]

/-- The first caller gets an open, valid lease on a cell that is no longer tracked and whose session
is queued for destruction. -/
theorem earlyRefresh_leases_gone :
    let b := machine.exec (newBroker [demoIssuer] demoStart) earlyRefresh
    ¬ b.LeasesKept ∧ ∃ lease ∈ b.leaseHeap, lease.released = false ∧ lease.cell ∉ b.cells ∧
      ∃ cell ∈ b.cellHeap[lease.cell]?, cell.invalid = false ∧
        cell.session.id ∈ b.queuedSessions := by
  intro b
  have hcount : b.activeLeases ≠ b.trackedRefs := by decide +kernel
  refine ⟨fun hkept => hcount (hkept.active.trans hkept.refs), ?_⟩
  decide +kernel

end Veer.CredentialBroker
