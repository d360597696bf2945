import Veer.BrokerHelpers

/-!
# Every critical section is a sequence of moves

The local resources of a goroutine are read off its stage: what it must destroy, the session it
owns, the flights it waits for, the handle whose reference it gives back. A section starts with the resources of its stage and ends with
those of the stages that follow it.
-/
namespace Veer.CredentialBroker
open Reconcile (ID DigestValue equalDigest)
open ListHeap

def Stage.queue : Stage → List Nat
  | .dispose disposal next => disposal.queue ++ next.queue
  | .publish _ next => next.queue
  | .abandon _ next => next.queue
  | _ => []

def Stage.held : Stage → Option Nat
  | .flightRelease _ _ issued _ => issued.map IssuedSession.id
  | .flightFinish _ issued _ => issued.map IssuedSession.id
  | .flightCleanup _ issued => issued.map IssuedSession.id
  | .flightRevoke _ session => some session.id
  | .rotationCommit _ _ issued => issued.map IssuedSession.id
  | .rotationFail _ issued _ => issued.map IssuedSession.id
  | .rotationCleanup _ issued => issued.map IssuedSession.id
  | .rotationRevoke _ session => some session.id
  | .dispose _ next => next.held
  | .publish _ next => next.held
  | .abandon _ next => next.held
  | _ => none

def Stage.waits : Stage → List Nat
  | .launchFlight i => [i]
  | .awaitFlight i => [i]
  | .takeLease i => [i]
  | .dispose _ next => next.waits
  | .publish _ next => next.waits
  | .abandon _ next => next.waits
  | _ => []

def Stage.releases : Stage → List Nat
  | .releaseLease l => [l]
  | .dispose _ next => next.releases
  | .publish _ next => next.releases
  | .abandon _ next => next.releases
  | _ => []

def Broker.viewAt (b : Broker) (stage : Stage) : View :=
  b.view stage.queue stage.held stage.waits stage.releases

def Outcome.view (o : Outcome) : View :=
  o.broker.view (o.stages.flatMap Stage.queue) (o.stages.findSome? Stage.held)
    (o.stages.flatMap Stage.waits) (o.stages.flatMap Stage.releases)

/-- The outcome is reached by moves, at most one of its goroutines owns a session, and no use
starts. -/
structure Outcome.Follows (o : Outcome) (F : Nat → Prop) (v : View) : Prop where
  moves : Moves F v o.view
  sole : o.stages.length ≤ 1 ∨ ∀ stage ∈ o.stages, stage.held = none
  silent : ∀ lease cell observed admitted, o.output ≠ .started lease cell observed admitted

variable {F : Nat → Prop} {v : View} {b b' : Broker} {w w' : Work} {q : List Nat} {h : Option Nat}
  {u p : List Nat} {i : Nat} {now : Int} {request : Request} {env : Env} {sequence : Nat}

def Output.starts : Output → Bool
  | .started .. => true
  | _ => false

variable {output : Output} {next : Stage} {failure : Failure}

theorem Output.ne_started (h : output.starts = false) (lease cell : Nat) (observed admitted : Int) :
    output ≠ .started lease cell observed admitted := by
  rintro rfl
  cases h

theorem follows_end (hmoves : Moves F v (b.view q h u)) (houtput : output.starts = false) :
    (⟨b, [], output⟩ : Outcome).Follows F v :=
  ⟨hmoves.trans (Moves.shrink (List.nil_subset _) (.inl rfl) (List.nil_subset _)),
    .inl (Nat.zero_le 1), Output.ne_started houtput⟩

theorem follows_fail (hmoves : Moves F v (b.view q h u)) : (b.fail failure).Follows F v :=
  follows_end hmoves rfl

theorem follows_one (hmoves : Moves F v (b.viewAt next)) (houtput : output.starts = false) :
    (⟨b, [next], output⟩ : Outcome).Follows F v := by
  refine ⟨?_, .inl le_rfl, Output.ne_started houtput⟩
  have hheld : [next].findSome? Stage.held = next.held := by
    cases hnext : next.held <;> simp [hnext]
  simp only [Outcome.view, hheld, List.flatMap_singleton]
  exact hmoves

theorem follows_go (hmoves : Moves F v (b.viewAt next)) : (b.go next).Follows F v :=
  follows_one hmoves rfl

theorem follows_goSame (hview : b.viewAt next = v) : (b.go next).Follows F v := by
  subst hview
  exact follows_go .refl

theorem follows_endSame (hview : b.view [] none [] = v) (houtput : output.starts = false) :
    (⟨b, [], output⟩ : Outcome).Follows F v := by
  subst hview
  exact follows_end .refl houtput

theorem follows_work (hqueue : next.queue = [])
    (hmoves : Moves F v (w.view next.held next.waits next.releases))
    (houtput : output.starts = false) :
    (⟨w.broker, [.dispose w.disposal next], output⟩ : Outcome).Follows F v := by
  refine follows_one ?_ houtput
  simp only [Broker.viewAt, Stage.queue, hqueue, List.append_nil]
  exact hmoves

theorem follows_workGo (hqueue : next.queue = [])
    (hmoves : Moves F v (w.view next.held next.waits next.releases)) : (w.go next).Follows F v :=
  follows_work hqueue hmoves rfl

theorem follows_workFail (hmoves : Moves F v (w.view none [])) : (w.fail failure).Follows F v :=
  follows_work rfl hmoves rfl

theorem Outcome.Follows.after {o : Outcome} {v' : View} (ho : o.Follows F v')
    (hmoves : Moves F v v') : o.Follows F v :=
  { ho with moves := hmoves.trans ho.moves }

/-! ## Acquire and Refresh -/

theorem registerIssuer_follows (key : IssuerKey) :
    (b.registerIssuer key).Follows F (b.viewAt (.registerIssuer key)) := by
  unfold Broker.registerIssuer
  iterate 3
    split
    · exact follows_fail .refl
  exact follows_endSame rfl rfl

variable {flight : SessionFlight}

theorem addFlight_move (hcell : flight.cell = none)
    (hbound : (b.view q h u).Bound flight.request flight.connEpoch flight.opEpoch) :
    Move F (b.view q h u)
      ((b.addFlight flight).view q h (b.sessionFlightHeap.length :: u)) := by
  have hmove : Move F (b.view q h u) _ :=
    Move.addFlight (b.view q h u) flight.view hcell hbound
  simp only [Broker.view, Broker.addFlight, List.length_map, List.map_append,
    List.map_singleton] at hmove ⊢
  exact hmove

theorem view_pin (fallback : Option Nat) : (b.pin fallback).view q h u = b.view q h u := by
  cases fallback with
  | none => rfl
  | some => exact view_modifyCell _ fun _ => rfl

theorem startFlight_follows {lineage : Lineage} {operation : OperationState} (force : Bool)
    (fallback : Option Nat)
    (hlineage : w.broker.lineages.lookup (keyForConnection request) = some lineage)
    (hoperation : w.broker.operations.lookup (keyForOperation request) = some operation)
    (hgeneration : lineage.generation = request.connectionGeneration) :
    (w.startFlight request force fallback lineage operation).Follows F (w.view none []) := by
  unfold Work.startFlight
  have hpin : (w.broker.pin fallback).view w.disposal.queue none [] = w.view none [] :=
    view_pin fallback
  split
  · exact follows_workFail .refl
  case h_2 b evicted hroom =>
    have hmoves : Moves F (w.view none [])
        (({ w with broker := b }.evictSession evicted).view none []) := by
      rw [← hpin]
      exact makeSessionRoom_moves (w := { w with broker := w.broker.pin fallback }) hroom
    have hauthority := makeSessionRoom_authority hroom
    have hlineages : ({ w with broker := b }.evictSession evicted).broker.lineages =
        w.broker.lineages := by
      have hview := congrArg View.lineages hpin
      cases evicted <;> exact hauthority.1.trans hview
    have hoperations : ({ w with broker := b }.evictSession evicted).broker.operations =
        w.broker.operations := by
      have hview := congrArg View.operations hpin
      cases evicted <;> exact hauthority.2.trans hview
    refine follows_workGo rfl (hmoves.tail (addFlight_move rfl ⟨⟨lineage, ?_, rfl, hgeneration⟩,
      ⟨operation, ?_, rfl⟩⟩))
    · exact (congrArg _ hlineages).trans hlineage
    · exact (congrArg _ hoperations).trans hoperation

theorem joinFlight_follows (force : Bool) (fallback : Option Nat)
    (hgeneration : ∀ lineage, w.broker.lineages.lookup (keyForConnection request) = some lineage →
      lineage.generation = request.connectionGeneration) :
    (w.joinFlight request force fallback).Follows F (w.view none []) := by
  unfold Work.joinFlight
  split
  case h_1 lineage operation hlineage hoperation =>
    split
    · exact startFlight_follows force fallback hlineage hoperation (hgeneration lineage hlineage)
    case h_2 i hpending =>
      split
      · exact follows_workFail .refl
      split
      · exact follows_workFail .refl
      refine follows_workGo rfl (.single ?_)
      have hview := view_modifySessionFlight (b := w.broker) (i := i) (q := w.disposal.queue)
        (h := none) (u := [i]) (p := []) (fun flight => { flight with waiters := flight.waiters + 1 })
        fun _ => rfl
      refine (congrArg (Move F (w.view none [])) hview).mpr
        (Move.join (w.view none []) [i] fun j hj => .inr ⟨request.bindingDigest, ?_⟩)
      rw [List.mem_singleton.mp hj]
      exact hpending
  case h_2 => exact follows_workFail .refl

theorem grant_follows (hmoves : Moves F v (w.view none u)) : (w.grant env).Follows F v := by
  have hshrink : Moves F v (w.view none []) :=
    hmoves.trans (Moves.shrink (List.Subset.refl _) (.inl rfl) (List.nil_subset _))
  unfold Work.grant
  split
  · exact follows_work rfl hshrink rfl
  · exact follows_work rfl hshrink rfl

theorem acquireCell_follows (force : Bool) (hnow : w.broker.lastNow = now) (hzero : now ≠ 0)
    (hgeneration : ∀ lineage, w.broker.lineages.lookup (keyForConnection request) = some lineage →
      lineage.generation = request.connectionGeneration) :
    (w.acquireCell request force now env).Follows F (w.view none []) := by
  fun_cases Work.acquireCell w request force now env
  case case3 => exact follows_workFail .refl
  case case4 hsession _ _ _ _ leased hlease =>
    exact grant_follows (newLease_moves hnow hlease (.inl ⟨_, hsession⟩))
  case case6 i hsession cell hcell husable =>
    have hdead : ∀ cell, w.broker.cellHeap[i]? = some cell →
        (w.view none []).Dead cell.view ∨ F i := by
      intro cell' hcell'
      rw [hcell] at hcell'
      cases hcell'
      left
      by_cases hcurrent : w.broker.cellCurrent cell = true
      · refine (spent_of_not_startable hnow hzero ?_).dead
        simpa [hcurrent] using husable
      · exact dead_of_not_current (by simpa using hcurrent)
    refine (joinFlight_follows force none ?_).after (drainCell_moves hdead)
    rwa [drainCell_frame.1]
  all_goals exact joinFlight_follows force _ hgeneration

theorem acquire_follows (force : Bool) :
    (b.acquire request force sequence env).Follows F (b.viewAt (.acquire request force)) := by
  unfold Broker.acquire
  split
  · exact follows_fail .refl
  split
  case h_1 hobs => exact follows_fail (observeNow_moves hobs)
  case h_2 b' now hobs =>
    obtain ⟨hnow, hzero⟩ := observeNow_ok hobs
    obtain ⟨hlast, hsweep⟩ := sweep_moves (F := F) (h := none) (u := []) (w := b'.work) hnow hzero
    have hmoves : Moves F (b.view [] none []) ((b'.work.sweep now).view none []) :=
      (observeNow_moves hobs).trans hsweep
    dsimp only
    split
    · exact follows_workFail hmoves
    split
    · exact follows_workFail hmoves
    case h_2 prepared hprepare =>
      obtain ⟨hprepared, hlast', hgeneration⟩ := prepareRequest_moves (F := F)
        (q := (b'.work.sweep now).disposal.queue) (h := none) (u := []) hprepare
      exact (acquireCell_follows force (w := { b'.work.sweep now with broker := prepared })
        (hlast'.trans hlast) hzero hgeneration).after (hmoves.trans hprepared)

theorem launchFlight_follows : (b.launchFlight i).Follows F (b.viewAt (.launchFlight i)) := by
  refine ⟨?_, .inr (by simp [Broker.launchFlight, Stage.held]), fun _ _ _ _ => nofun⟩
  exact .refl

theorem awaitFlight_follows : (b.awaitFlight i env).Follows F (b.viewAt (.awaitFlight i)) := by
  have hleave : ∀ canceled, (b.leaveSessionFlight i canceled).view [] none [i] =
      b.view [] none [i] := fun canceled => view_modifySessionFlight _ fun _ => rfl
  unfold Broker.awaitFlight
  split
  · refine follows_fail (q := []) (h := none) (u := [i]) ?_
    rw [hleave]
    exact .refl
  · split
    · refine follows_go ?_
      change Moves F _ ((b.leaveSessionFlight i false).view [] none [i])
      rw [hleave]
      exact .refl
    · exact follows_go .refl

theorem leaseOn_moves {cell : Option Nat} (hnow : b.lastNow = now)
    (hlease : b.leaseOn cell now = .ok b') (hsource : ∀ c, cell = some c →
      (∃ binding, b.sessions.lookup binding = some c) ∨
        ∃ j ∈ u, ∃ flight, b.sessionFlightHeap[j]? = some flight ∧ flight.cell = some c) :
    Moves F (b.view q h u) (b'.view q h u) := by
  unfold Broker.leaseOn at hlease
  split at hlease
  · split at hlease <;> cases hlease
  case h_2 c => exact newLease_moves hnow hlease (hsource c rfl)

theorem fallbackCurrent_session {c : Nat} (hcurrent : b.fallbackCurrent flight now = true)
    (hfallback : flight.fallback = some c) :
    b.sessions.lookup flight.request.bindingDigest = some c := by
  unfold Broker.fallbackCurrent at hcurrent
  rw [hfallback] at hcurrent
  dsimp only at hcurrent
  split at hcurrent
  · cases hcurrent
  · simp only [Bool.and_eq_true, beq_iff_eq] at hcurrent
    exact hcurrent.1.1.1.1

theorem takeLease_follows :
    (b.takeLease i sequence env).Follows F (b.viewAt (.takeLease i)) := by
  have hmoves : ∀ {b' result}, b.observeNow sequence env.observed = (b', result) →
      Moves F (b.viewAt (.takeLease i)) (b'.view [] none [i]) := observeNow_moves
  fun_cases Broker.takeLease b i sequence env
  case case1 => exact follows_fail .refl
  case case4 flight hflight b' now hobs _ leased hlease =>
    refine grant_follows (w := leased.work)
      ((hmoves hobs).trans (leaseOn_moves (observeNow_ok hobs).1 hlease fun c hc => ?_))
    refine .inr ⟨i, List.mem_singleton.mpr rfl, flight, ?_, hc⟩
    rw [observeNow_frame hobs]
    exact hflight
  case case6 hobs _ _ hfallback leased hlease =>
    refine grant_follows (w := leased.work)
      ((hmoves hobs).trans (leaseOn_moves (observeNow_ok hobs).1 hlease fun c hc => ?_))
    exact .inl ⟨_, fallbackCurrent_session hfallback.2.2 hc⟩
  all_goals exact follows_fail (hmoves ‹_›)

/-! ## The session flight -/

theorem flightStart_follows : (b.flightStart i).Follows F (b.viewAt (.flightStart i)) := by
  unfold Broker.flightStart
  split <;> exact follows_go .refl

theorem joinSource_follows (flight : SessionFlight) :
    (w.joinSource i flight).Follows F (w.view none []) := by
  fun_cases Work.joinSource w i flight
  case case6 b evicted hroom _ =>
    refine follows_workGo rfl ?_
    change Moves F (w.view none []) (({ w with broker := b }.evictSource evicted).view none [])
    rw [view_evictSource]
    change Moves F (w.view none []) (b.view w.disposal.queue none [])
    rw [view_makeSourceRoom hroom]
    exact .refl
  all_goals exact follows_workGo rfl .refl

theorem flightSource_follows :
    (b.flightSourceSection i sequence env).Follows F (b.viewAt (.flightSource i)) := by
  unfold Broker.flightSourceSection
  split
  · exact follows_fail .refl
  case h_2 flight hflight =>
    split
    · exact follows_go .refl
    split
    case h_1 hobs => exact follows_go (observeNow_moves hobs)
    case h_2 b' now hobs =>
      have hmoves := swept_moves (F := F) hobs
      dsimp only
      generalize b'.work.sweep now = w at hmoves ⊢
      split
      · exact follows_workGo rfl hmoves
      split
      · exact (joinSource_follows flight).after hmoves
      · split
        · exact follows_workGo rfl hmoves
        · exact (joinSource_follows flight).after hmoves

theorem launchSource_follows {j : Nat} :
    (b.launchSource i j).Follows F (b.viewAt (.launchSource i j)) := by
  refine ⟨?_, .inr (by simp [Broker.launchSource, Stage.held]), fun _ _ _ _ => nofun⟩
  exact .refl

theorem flightAwaitSource_follows {j : Nat} :
    (b.flightAwaitSource i j).Follows F (b.viewAt (.flightAwaitSource i j)) := by
  unfold Broker.flightAwaitSource
  dsimp only
  split
  · split <;> exact follows_go .refl
  · split <;> exact follows_go .refl

theorem flightBorrow_follows {j : Nat} :
    (b.flightBorrow i j sequence env).Follows F (b.viewAt (.flightBorrow i j)) := by
  have hmoves : ∀ {b' result}, b.observeNow sequence env.observed = (b', result) →
      Moves F (b.viewAt (.flightBorrow i j)) (b'.view [] none []) := observeNow_moves
  fun_cases Broker.flightBorrow b i j sequence env
  case case1 => exact follows_go .refl
  case case6 hobs _ _ _ _ _ =>
    have hview := hmoves hobs
    exact follows_go hview
  all_goals exact follows_go (hmoves ‹_›)

theorem issue_moves : Moves F (b.view q none u)
    ((b.issue env).1.view q ((b.issue env).2.map IssuedSession.id) u) := by
  unfold Broker.issue
  split
  · exact .refl
  · exact .single (Move.issue (b.view q none u))

theorem flightIssue_follows {e : Nat} :
    (b.flightIssue i e env).Follows F (b.viewAt (.flightIssue i e)) :=
  follows_go issue_moves

theorem flightRelease_follows {e : Nat} (issued : Option IssuedSession) (err : Option Failure) :
    (b.flightRelease i e issued err).Follows F (b.viewAt (.flightRelease i e issued err)) := by
  unfold Broker.flightRelease
  split
  · exact follows_go .refl
  dsimp only
  split
  · exact follows_workGo rfl .refl
  · exact follows_go .refl

theorem rejectFlight_follows (issued : Option IssuedSession) (failure : Failure)
    (hmoves : Moves F v (b.view [] (issued.map IssuedSession.id) [])) :
    (b.rejectFlight i issued failure).Follows F v := by
  refine follows_go ?_
  change Moves F v (Broker.view _ [] (issued.map IssuedSession.id) [])
  rw [view_modifySessionFlight]
  · exact hmoves
  · exact fun _ => rfl

theorem view_unpin (pinned : Option Nat) : (b.unpin pinned).view q h u = b.view q h u := by
  cases pinned with
  | none => rfl
  | some => exact view_modifyCell _ fun _ => rfl

theorem view_forgetFlight (flight : SessionFlight) :
    (b.forgetFlight i flight).view q h u = { b.view q h u with
      pending := if b.sessionFlights.lookup flight.request.bindingDigest = some i then
        b.sessionFlights.erase flight.request.bindingDigest else b.sessionFlights } := by
  unfold Broker.forgetFlight
  rw [view_modifySessionFlight, view_unpin]
  · rfl
  · exact fun _ => rfl

/-- A flight that may publish its session replaces the cell that its binding leads to. -/
def Broker.replaceable (b : Broker) : Stage → Nat → Prop
  | .flightFinish i issued err, c => c < b.cellHeap.length ∧ issued.isSome = true ∧
      ∃ flight ∈ b.sessionFlightHeap[i]?, b.flightStopped flight err = none ∧
        b.sessions.lookup flight.request.bindingDigest = some c
  | _, _ => False

theorem drainOld_moves {binding : DigestValue}
    (hfree : ∀ c, c < w.broker.cellHeap.length → w.broker.sessions.lookup binding = some c → F c) :
    Moves F (w.view h u) ((w.drainOld binding).view h u) := by
  unfold Work.drainOld
  split
  · exact .refl
  case h_2 old hold =>
    refine drainCell_moves fun cell hcell => .inr (hfree old ?_ hold)
    exact (List.getElem?_eq_some_iff.mp hcell).1

theorem drainOld_frame {k : DigestValue} :
    (w.drainOld k).broker.destroyedSessions = w.broker.destroyedSessions ∧
      (w.drainOld k).broker.sessionFlightHeap = w.broker.sessionFlightHeap ∧
      (w.drainOld k).broker.cellHeap.length = w.broker.cellHeap.length := by
  unfold Work.drainOld
  split
  · exact ⟨rfl, rfl, rfl⟩
  · exact drainCell_frame.2

theorem addCell_move {cell : SessionCell} (hheld : h = some cell.session.id)
    (hkept : cell.session.id ∉ b.destroyedSessions) (hfresh : cell.view.Fresh)
    (hlicensed : (b.view q h u).Licensed cell.view) :
    Move F (b.view q h u) ((b.addCell cell).view q none u) := by
  have hmove : Move F (b.view q h u) _ :=
    Move.addCell (b.view q h u) cell.view hheld hkept hfresh hlicensed
  simp only [Broker.view, Broker.addCell, List.length_map, List.map_append,
    List.map_singleton] at hmove ⊢
  exact hmove

/-- The new cell, the flight's result and the end of the flight, all in one section. -/
theorem publish_move {cell : SessionCell} {c : Nat}
    (hflight : b.sessionFlightHeap[i]? = some flight) (hcell : b.cellHeap[c]? = some cell)
    (htracked : c ∈ b.cells) (hserving : cell.draining = false) (hbound : ¬ F c) :
    Move F (b.view q h u) ((((b.modifySessionFlight i fun flight =>
      { flight with cell := some c }).modifySessionFlight i fun flight =>
        { flight with err := none, canceled := true }).forgetFlight i flight).view q h u) := by
  have hmap : (b.sessionFlightHeap.modify i fun flight => { flight with cell := some c }).map
      SessionFlight.view = (b.sessionFlightHeap.map SessionFlight.view).modify i fun flight =>
        { flight with cell := some c } :=
    map_modify_of_comm (g := SessionFlight.view)
      (k := fun flight => { flight with cell := some c }) (fun _ => rfl) _ i
  have hmove : Move F (b.view q h u) _ := Move.publish (b.view q h u) i c flight.view cell.view
    (by simp [Broker.view, hflight]) (view_cellHeap hcell) htracked hserving hbound
  have hresult := view_modifySessionFlight (q := q) (h := h) (u := u) (p := []) (i := i)
    (b := b.modifySessionFlight i fun flight => { flight with cell := some c })
    (fun flight => { flight with err := none, canceled := true }) fun _ => rfl
  rw [view_forgetFlight, hresult]
  simp only [Broker.view, Broker.modifySessionFlight, hmap] at hmove ⊢
  exact hmove

variable {session : IssuedSession}

theorem validIssuedSession_valid (hvalid : b.validIssuedSession request session now = true) :
    session.WellFormed ∧ session.id ∉ b.destroyedSessions := by
  simp only [Broker.validIssuedSession, Bool.and_eq_true] at hvalid
  exact sessionValid_iff.mp hvalid.1.1.1.1

theorem publishCell_follows (hflight : w.broker.sessionFlightHeap[i]? = some flight)
    (hvalid : session.WellFormed ∧ session.id ∉ w.broker.destroyedSessions)
    (hfree : ∀ c, c < w.broker.cellHeap.length → w.broker.sessions.lookup flight.request.bindingDigest = some c → F c)
    (hbound : ∀ c, F c → c < w.broker.cellHeap.length) :
    (({ w.publishCell i flight session with
      broker := ((w.publishCell i flight session).broker.modifySessionFlight i fun flight =>
        { flight with err := none, canceled := true }).forgetFlight i flight }).go
          (.flightClose i)).Follows F (w.view (some session.id) []) := by
  have hdrain : Moves F (w.view (some session.id) [])
      ((Work.drainOld { w with broker := w.broker.touch } flight.request.bindingDigest).view
        (some session.id) []) :=
    drainOld_moves (w := { w with broker := w.broker.touch }) hfree
  obtain ⟨hdestroyed, hflights, hlength⟩ := drainOld_frame
    (w := { w with broker := w.broker.touch }) (k := flight.request.bindingDigest)
  refine follows_workGo rfl ?_
  unfold Work.publishCell
  dsimp only
  generalize Work.drainOld { w with broker := w.broker.touch } flight.request.bindingDigest = x
    at hdrain hdestroyed hflights hlength ⊢
  have hflight' : x.broker.sessionFlightHeap[i]? = some flight := by
    rw [hflights]
    exact hflight
  have hadd : Move F (x.view (some session.id) [])
      ((x.broker.addCell (flight.newCell session w.broker.touch.nextUse)).view
        x.disposal.queue none []) := by
    refine addCell_move rfl ?_ ⟨rfl, rfl, rfl, rfl, hvalid.1⟩ (.flight flight.view ?_ rfl rfl rfl)
    · rw [hdestroyed]
      exact hvalid.2
    · exact List.mem_map_of_mem (List.mem_of_getElem? hflight')
  have hcell : (x.broker.addCell (flight.newCell session w.broker.touch.nextUse)).cellHeap[
      x.broker.cellHeap.length]? = some (flight.newCell session w.broker.touch.nextUse) := by
    simp [Broker.addCell]
  refine (hdrain.tail hadd).tail (publish_move hflight' hcell ?_ rfl fun hF => ?_)
  · simp [Broker.addCell]
  · have hlt := hbound _ hF
    change x.broker.cellHeap.length = w.broker.cellHeap.length at hlength
    omega

theorem flightFinish_follows (issued : Option IssuedSession) (err : Option Failure)
    (hF : F = b.replaceable (.flightFinish i issued err)) :
    (b.flightFinish i issued err sequence env).Follows F
      (b.viewAt (.flightFinish i issued err)) := by
  fun_cases Broker.flightFinish b i issued err sequence env
  case case1 => exact follows_fail .refl
  case case2 => exact rejectFlight_follows issued _ .refl
  case case3 hobs => exact rejectFlight_follows issued _ (observeNow_moves hobs)
  case case4 hobs => exact rejectFlight_follows none _ (observeNow_moves hobs)
  case case5 => exact rejectFlight_follows _ _ (observeNow_moves ‹_›)
  case case6 flight hflight hrunning b' now hobs session hvalid _ _ =>
    have hframe := observeNow_frame hobs
    have hvalid := validIssuedSession_valid (by simpa using hvalid)
    have hcells : b'.cellHeap = b.cellHeap := by rw [hframe]
    have hsessions : b'.sessions = b.sessions := by rw [hframe]
    refine (publishCell_follows (w := b'.work) ?_ hvalid ?_ ?_).after (observeNow_moves hobs)
    · rw [hframe]
      exact hflight
    · intro c hc hlookup
      rw [hF]
      exact ⟨hcells ▸ hc, rfl, flight, hflight, hrunning, hsessions ▸ hlookup⟩
    · intro c hc
      rw [hF] at hc
      change c < b'.cellHeap.length
      rw [hcells]
      exact hc.1

theorem destroySession_move (hheld : h = some session.id ∨ session.id ∈ q) :
    Move F (b.view q h u p) ((b.destroySession session).view q h u p) :=
  Move.destroy (b.view q h u p) session.id (hheld.elim (fun hh => .inr (.inl hh)) .inl)

theorem destroySession_moves (session : IssuedSession) :
    Moves F (b.view [] (some session.id) []) ((b.destroySession session).view [] none []) :=
  (Relation.ReflTransGen.single (destroySession_move (.inl rfl))).trans
    (Moves.shrink (List.Subset.refl _) (.inl rfl) (List.Subset.refl _))

theorem flightCleanup_follows (issued : Option IssuedSession) :
    (b.flightCleanup i issued).Follows F (b.viewAt (.flightCleanup i issued)) := by
  unfold Broker.flightCleanup
  split
  · exact follows_go .refl
  split
  · exact follows_go .refl
  · exact follows_go (destroySession_moves _)

theorem flightRevoke_follows (session : IssuedSession) :
    (b.flightRevoke i session env).Follows F (b.viewAt (.flightRevoke i session)) :=
  follows_go (destroySession_moves session)

theorem flightRecord_follows (session : IssuedSession) (result : RevocationResult)
    (err : Option Failure) : (b.flightRecord i session result err).Follows F
      (b.viewAt (.flightRecord i session result err)) := by
  unfold Broker.flightRecord
  split
  · exact follows_go .refl
  · exact follows_goSame (view_recordRevocation _ _ _)

theorem forgetFlight_moves (flight : SessionFlight) :
    Moves F (b.view q h u) ((b.forgetFlight i flight).view q h u) := by
  rw [view_forgetFlight]
  split
  · exact .single (Move.forgetFlight (b.view q h u) _)
  · exact .refl

theorem flightForget_follows (result : RevocationResult) (err : Option Failure) :
    (b.flightForget i result err).Follows F (b.viewAt (.flightForget i result err)) := by
  unfold Broker.flightForget
  split
  · exact follows_go .refl
  refine follows_go ?_
  change Moves F _ (Broker.view _ [] none [])
  rw [view_modifySessionFlight]
  · exact forgetFlight_moves _
  · exact fun _ => rfl

theorem flightClose_follows : (b.flightClose i).Follows F (b.viewAt (.flightClose i)) := by
  exact follows_endSame (view_modifySessionFlight _ fun _ => rfl) rfl

/-! ## Source flights -/

theorem resolved_resources (owner : Owner) (material : Option Nat) :
    (owner.resolved material).queue = [] ∧ (owner.resolved material).held = none ∧
      (owner.resolved material).waits = [] ∧ (owner.resolved material).releases = [] := by
  cases owner <;> cases material <;> exact ⟨rfl, rfl, rfl, rfl⟩

theorem resolved_follows {owner : Owner} (material : Option Nat)
    (hmoves : Moves F v (b.view [] none [])) : (b.go (owner.resolved material)).Follows F v := by
  obtain ⟨hqueue, hheld, hwaits, hreleases⟩ := resolved_resources owner material
  refine follows_go ?_
  rw [Broker.viewAt, hqueue, hheld, hwaits, hreleases]
  exact hmoves

theorem invalidateSource_follows {owner : Owner} (hmoves : Moves F v (b.view [] none [])) :
    ((b.invalidateSource owner).go (owner.resolved none)).Follows F v := by
  refine resolved_follows none ?_
  rw [view_invalidateSource]
  exact hmoves

theorem sourceResolve_follows (owner : Owner) :
    (b.sourceResolve owner env).Follows F (b.viewAt (.sourceResolve owner)) := by
  unfold Broker.sourceResolve
  split
  · exact invalidateSource_follows .refl
  split
  · exact follows_go .refl
  dsimp only
  split
  · exact follows_go .refl
  split
  · exact follows_go .refl
  · exact follows_goSame (view_setFlightSource _ _)

theorem sourceResolved_follows (owner : Owner) (material : Option Nat) :
    (b.sourceResolved owner material sequence env).Follows F
      (b.viewAt (.sourceResolved owner material)) := by
  unfold Broker.sourceResolved
  split
  case h_1 hobs => exact invalidateSource_follows (observeNow_moves hobs)
  case h_2 b' now hobs =>
    have hmoves : Moves F (b.view [] none []) (b'.view [] none []) := observeNow_moves hobs
    split
    · exact invalidateSource_follows hmoves
    split
    · refine resolved_follows _ ?_
      cases owner <;> exact hmoves
    · exact invalidateSource_follows hmoves

theorem rejectSource_follows {failure : Failure} (hmoves : Moves F v (b.view [] none [])) :
    (b.rejectSource i failure).Follows F v :=
  follows_go hmoves

theorem view_forgetSource (flight : SourceFlight) :
    (b.forgetSource i flight).view q h u = b.view q h u := by
  unfold Broker.forgetSource
  dsimp only
  split <;> rfl

theorem sourceFinish_follows (material : Option Nat) :
    (b.sourceFinish i material sequence env).Follows F (b.viewAt (.sourceFinish i material)) := by
  unfold Broker.sourceFinish
  split
  · exact follows_fail .refl
  · exact rejectSource_follows .refl
  split
  case h_1 hobs => exact rejectSource_follows (observeNow_moves hobs)
  case h_2 b' now hobs =>
    have hmoves : Moves F (b.view [] none []) (b'.view [] none []) := observeNow_moves hobs
    dsimp only
    iterate 6
      split
      · exact rejectSource_follows hmoves
    refine follows_end (q := []) (h := none) (u := []) ?_ rfl
    rw [view_forgetSource]
    exact hmoves

theorem sourceReject_follows : (b.sourceReject i).Follows F (b.viewAt (.sourceReject i)) := by
  refine follows_goSame ?_
  rw [Broker.viewAt, view_cancel, view_invalidateSource]
  rfl

theorem sourceClose_follows : (b.sourceClose i).Follows F (b.viewAt (.sourceClose i)) := by
  unfold Broker.sourceClose
  split
  · exact follows_endSame rfl rfl
  case h_2 flight _ => exact follows_endSame (view_forgetSource flight) rfl

end Veer.CredentialBroker
