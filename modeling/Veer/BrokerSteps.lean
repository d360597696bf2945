import Veer.BrokerRefines

/-!
# Handles, rotation and the lifecycle calls as moves

The remaining critical sections, and the theorem over all of them: what any goroutine does in
one section is a sequence of moves, and only the admission of a use starts one.
-/
namespace Veer.CredentialBroker
open Reconcile (ID DigestValue equalDigest)
open ListHeap

variable {F : Nat → Prop} {v : View} {b b' : Broker} {w : Work} {q : List Nat} {h : Option Nat}
  {u : List Nat} {i l r : Nat} {t : Int} {request : Request} {env : Env} {sequence : Nat}

/-! ## Handles -/

theorem use_follows : (b.use l env).Follows F (b.viewAt (.use l)) := by
  unfold Broker.use
  iterate 3
    split
    · exact follows_fail .refl
  exact follows_go .refl

variable {cell : SessionCell}

theorem leaseCell_some {lease : Lease} (hlease : b.leaseCell l = some (lease, cell)) :
    b.leaseHeap[l]? = some lease ∧ b.cellHeap[lease.cell]? = some cell := by
  unfold Broker.leaseCell at hlease
  split at hlease
  · cases hlease
  case h_2 hfound =>
    obtain ⟨cell', hcell', heq⟩ := Option.map_eq_some_iff.mp hlease
    cases heq
    exact ⟨hfound, hcell'⟩

theorem drain_moves (hcell : b.cellHeap[i]? = some cell) (hnow : b.lastNow = t) (hzero : t ≠ 0)
    (hstart : b.canStartUse cell.session t = false) :
    Moves F (b.view q h u) ((b.drain i).view q h u) :=
  .single (drain_move (fun _ => rfl) hcell (.inl (spent_of_not_startable hnow hzero hstart)))

theorem usePrepare_follows :
    (b.usePrepare l sequence env).Follows F (b.viewAt (.usePrepare l)) := by
  have hmoves : ∀ {b' result}, b.observeNow sequence env.observed = (b', result) →
      Moves F (b.viewAt (.usePrepare l)) (b'.view [] none []) := observeNow_moves
  fun_cases Broker.usePrepare b l sequence env
  case case5 hobs lease cell hlease _ _ hstart =>
    obtain ⟨hnow, hzero⟩ := observeNow_ok hobs
    exact follows_fail ((hmoves hobs).trans (drain_moves (leaseCell_some hlease).2 hnow hzero
      (by simpa using hstart)))
  case case6 => exact follows_go (hmoves ‹_›)
  all_goals exact follows_fail (hmoves ‹_›)

/-- What holds when a use starts: an open handle on a current cell, and an accepted time that
leaves the session its lifetime. -/
structure Broker.Starts (b : Broker) (sequence : Nat) (env : Env) (lease c : Nat)
    (observed admitted : Int) : Prop where
  running : b.closed = false
  handle : ∃ handle, b.leaseHeap[lease]? = some handle ∧ handle.closed = false ∧ handle.cell = c
  cell : ∃ cell, b.cellHeap[c]? = some cell ∧ b.cellCurrent cell = true ∧
    admitted ≤ cell.session.useCutoff
  accepted : (b.observeNow sequence env.observed).2 = .ok admitted
  reading : observed = env.observed.getD 0

theorem cellCurrent_observed {result : Except Failure Int}
    (hobs : b.observeNow sequence env.observed = (b', result)) :
    b'.cellCurrent cell = b.cellCurrent cell := by
  rw [observeNow_frame hobs]
  rfl

/-- The admission of a use moves the store and either starts the use or stays silent. -/
theorem useAdmit_spec (F : Nat → Prop) (b : Broker) (l sequence : Nat) (env : Env) :
    Moves F (b.viewAt (.useAdmit l)) (b.useAdmit l sequence env).view ∧
      (b.useAdmit l sequence env).stages.length ≤ 1 ∧
      ∀ lease c observed admitted,
        (b.useAdmit l sequence env).output = .started lease c observed admitted →
          Stage.useAdmit l = .useAdmit lease ∧ b.Starts sequence env lease c observed admitted := by
  have hsilent : ∀ o : Outcome, o.Follows F (b.viewAt (.useAdmit l)) → o.stages.length ≤ 1 →
      Moves F (b.viewAt (.useAdmit l)) o.view ∧ o.stages.length ≤ 1 ∧
        ∀ lease c observed admitted, o.output = .started lease c observed admitted →
          Stage.useAdmit l = .useAdmit lease ∧ b.Starts sequence env lease c observed admitted :=
    fun o ho hlength => ⟨ho.moves, hlength, fun lease c observed admitted hout =>
      absurd hout (ho.silent lease c observed admitted)⟩
  have hmoves : ∀ {b' result}, b.observeNow sequence env.observed = (b', result) →
      Moves F (b.viewAt (.useAdmit l)) (b'.view [] none []) := observeNow_moves
  fun_cases Broker.useAdmit b l sequence env
  case case1 | case2 | case3 => exact hsilent _ (follows_fail .refl) (Nat.zero_le 1)
  case case7 lease cell hlease _ _ b' now hobs _ _ hstart =>
    obtain ⟨hnow, hzero⟩ := observeNow_ok hobs
    have hcell : b'.cellHeap[lease.cell]? = some cell := by
      rw [observeNow_frame hobs]
      exact (leaseCell_some hlease).2
    exact hsilent _ (follows_fail ((hmoves hobs).trans (drain_moves hcell hnow hzero
      (by simpa using hstart)))) (Nat.zero_le 1)
  case case9 => exact hsilent _ (follows_go (hmoves ‹_›)) le_rfl
  case case10 lease cell hlease _ hopen b' now hobs hrunning hcurrent hstart _ _ _ _ =>
    obtain ⟨hhandle, hcell⟩ := leaseCell_some hlease
    have hview : (b'.touch.modifyCell lease.cell fun cell =>
        { cell with lastUsed := b'.touch.nextUse }).view [] none [] = b'.view [] none [] :=
      view_modifyCell _ fun _ => rfl
    refine ⟨(congrArg (Moves F _) hview).mpr (hmoves hobs), le_rfl, ?_⟩
    intro lease' c observed admitted hout
    cases hout
    simp only [not_or, Bool.not_eq_true, Bool.not_eq_true', Bool.not_eq_false] at hcurrent hstart
    refine ⟨rfl, ?_, ⟨lease, hhandle, by simpa using hopen, rfl⟩,
      ⟨cell, hcell, ?_, (canStartUse_iff.mp hstart).2.2⟩, ?_, rfl⟩
    · rw [observeNow_frame hobs] at hrunning
      simpa using hrunning
    · rw [← cellCurrent_observed hobs]
      exact hcurrent.2
    · rw [hobs]
  all_goals exact hsilent _ (follows_fail (hmoves ‹_›)) (Nat.zero_le 1)

theorem useReturn_follows (copied : Bool) :
    (b.useReturn l copied env).Follows F (b.viewAt (.useReturn l copied)) := by
  unfold Broker.useReturn
  iterate 4
    split
    · exact follows_fail .refl
  exact follows_go .refl

theorem useFinish_follows (copied : Bool) :
    (b.useFinish l copied sequence env).Follows F (b.viewAt (.useFinish l copied)) := by
  have hmoves : ∀ {b' result}, b.observeNow sequence env.observed = (b', result) →
      Moves F (b.viewAt (.useFinish l copied)) (b'.view [] none []) := observeNow_moves
  fun_cases Broker.useFinish b l copied sequence env
  case case6 => exact follows_end (hmoves ‹_›) rfl
  all_goals exact follows_fail (hmoves ‹_›)

theorem closeLease_follows : (b.closeLease l).Follows F (b.viewAt (.closeLease l)) := by
  unfold Broker.closeLease
  split
  · exact follows_fail .refl
  case h_2 lease hlease =>
    split
    · exact follows_end .refl rfl
    case isFalse hopen =>
      exact follows_go (.single
        (Move.closeHandle (b.view [] none []) l lease hlease (by simpa using hopen)))

/-- The broker takes a reference back. -/
def Broker.dropLease (b : Broker) (l : Nat) (lease : Lease) : Broker :=
  { (b.modifyLease l fun lease => { lease with released := true }).modifyCell lease.cell
      fun cell => { cell with refs := cell.refs - 1 } with
    activeLeases := b.activeLeases - 1 }

theorem dropLease_move {lease : Lease} (hlease : b.leaseHeap[l]? = some lease) :
    Move F (b.view q h u [l]) ((b.dropLease l lease).view q h u) := by
  have hmap : (b.cellHeap.modify lease.cell fun cell => { cell with refs := cell.refs - 1 }).map
      SessionCell.view = (b.cellHeap.map SessionCell.view).modify lease.cell CellView.dropRef :=
    map_modify_of_comm (g := SessionCell.view) (k := CellView.dropRef) (fun _ => rfl) _ _
  have hmove : Move F (b.view q h u [l]) _ :=
    Move.release (b.view q h u [l]) l lease hlease (List.mem_singleton.mpr rfl)
  simp only [Broker.view, Broker.dropLease, Broker.modifyLease, Broker.modifyCell, hmap,
    List.erase_cons_head] at hmove ⊢
  exact hmove

theorem releaseLease_follows : (b.releaseLease l).Follows F (b.viewAt (.releaseLease l)) := by
  have hdrop : ∀ lease, b.leaseHeap[l]? = some lease →
      Moves F (b.view [] none [] [l]) ((b.dropLease l lease).view [] none []) :=
    fun lease hlease => .single (dropLease_move hlease)
  fun_cases Broker.releaseLease b l
  case case1 hlease =>
    have hlost : Move F (b.view [] none [] [l]) _ := Move.lost (b.view [] none [] [l]) l hlease
    simp only [Broker.view, List.erase_cons_head] at hlost
    exact follows_fail (q := []) (h := none) (u := []) (.single hlost)
  case case2 lease hlease _ _ _ _ => exact follows_end (hdrop lease hlease) rfl
  case case3 lease hlease _ _ _ cell hcell hlast _ =>
    refine follows_workGo rfl ?_
    change Moves F (b.view [] none [] [l]) (Work.view _ none [])
    rw [view_addSession]
    exact (hdrop lease hlease).trans (retireCell_moves cell _ hcell hlast.1
      (hlast.2.2.elim (fun h => .inr (.inl h)) .inl) (append_singleton_subset _ _))
  case case4 lease hlease _ _ _ _ _ _ => exact follows_end (hdrop lease hlease) rfl

/-! ## Work outside the lock -/

theorem dispose_follows (disposal : Disposal) (next : Stage) :
    (b.dispose disposal next).Follows F (b.viewAt (.dispose disposal next)) := by
  unfold Broker.dispose
  split
  · refine follows_go ?_
    change Moves F _ (Broker.view _ _ _ _ _)
    rw [view_invalidateSource]
    exact .refl
  · split
    · exact follows_go .refl
    · split
      case h_1 hsessions =>
        refine follows_go ((Relation.ReflTransGen.single (destroySession_move ?_)).trans
          (Moves.shrink ?_ (.inr rfl) (List.Subset.refl _)))
        · exact .inr (by simp [Stage.queue, Disposal.queue, hsessions])
        · simp [Stage.queue, Disposal.queue, hsessions]
      case h_2 hsessions =>
        refine follows_go ?_
        have hqueue : (Stage.dispose disposal next).queue = next.queue := by
          simp [Stage.queue, Disposal.queue, hsessions]
        rw [Broker.viewAt, hqueue]
        exact .refl

theorem publish_follows (cancels : List Cancel) (next : Stage) :
    (b.publish cancels next).Follows F (b.viewAt (.publish cancels next)) := by
  unfold Broker.publish
  split
  · exact follows_go .refl
  refine follows_go ?_
  change Moves F _ (Broker.view _ _ _ _ _)
  rw [view_cancel]
  exact .refl

theorem abandon_follows (owner : Owner) (next : Stage) :
    (b.abandon owner next).Follows F (b.viewAt (.abandon owner next)) := by
  refine follows_goSame ?_
  change Broker.view _ _ _ _ _ = _
  rw [view_cancel, view_invalidateSource]
  rfl

/-! ## Waiting for clean-up -/

theorem settle_follows (cleanup : Cleanup) (hmoves : Moves F v (w.view none [])) :
    (w.settle cleanup).Follows F v :=
  follows_work rfl hmoves rfl

theorem finishCleanup_follows (cleanup : Cleanup) (result : RevocationResult)
    (err : Option Failure) :
    (b.finishCleanup cleanup result err env).Follows F (b.view [] none []) := by
  unfold Broker.finishCleanup
  split
  · exact follows_go .refl
  · repeat' split
    all_goals exact follows_end .refl rfl

theorem startAttempts_frame (attempts : List Nat) (acc : Broker × List Stage) :
    (attempts.foldl Broker.startAttempt acc).1.view q h u = acc.1.view q h u ∧
      ∀ stage ∈ (attempts.foldl Broker.startAttempt acc).2,
        stage ∈ acc.2 ∨ ∃ i, stage = .revocation i := by
  induction attempts generalizing acc with
  | nil => exact ⟨rfl, fun stage hstage => .inl hstage⟩
  | cons i attempts ih =>
    obtain ⟨hview, hstages⟩ := ih (Broker.startAttempt acc i)
    have hstart : (Broker.startAttempt acc i).1.view q h u = acc.1.view q h u ∧
        ∀ stage ∈ (Broker.startAttempt acc i).2, stage ∈ acc.2 ∨ ∃ i, stage = .revocation i := by
      unfold Broker.startAttempt
      split
      · refine ⟨view_modifyCell _ fun cell => ?_, fun stage hstage => ?_⟩
        · cases hrevocation : cell.revocation <;> simp [SessionCell.view, hrevocation]
        · rcases List.mem_append.mp hstage with hstage | hstage
          · exact .inl hstage
          · exact .inr ⟨i, List.mem_singleton.mp hstage⟩
      · exact ⟨rfl, fun stage hstage => .inl hstage⟩
    refine ⟨hview.trans hstart.1, fun stage hstage => ?_⟩
    rcases hstages stage hstage with hstage | hstage
    · exact hstart.2 stage hstage
    · exact .inr hstage

theorem startCleanup_follows (cleanup : Cleanup) :
    (b.startCleanup cleanup env).Follows F (b.viewAt (.startCleanup cleanup)) := by
  unfold Broker.startCleanup
  split
  · exact finishCleanup_follows cleanup _ _
  obtain ⟨hview, hstages⟩ :=
    startAttempts_frame (q := []) (h := none) (u := []) cleanup.attempts (b, [])
  dsimp only
  generalize cleanup.attempts.foldl Broker.startAttempt (b, []) = acc at hview hstages ⊢
  have hidle : ∀ stage ∈ Stage.awaitCleanup cleanup :: acc.2,
      stage.queue = [] ∧ stage.held = none ∧ stage.waits = [] ∧ stage.releases = [] := by
    intro stage hstage
    rcases List.mem_cons.mp hstage with rfl | hstage
    · exact ⟨rfl, rfl, rfl, rfl⟩
    · rcases hstages stage hstage with hstage | ⟨i, rfl⟩
      · cases hstage
      · exact ⟨rfl, rfl, rfl, rfl⟩
  refine ⟨?_, .inr fun stage hstage => (hidle stage hstage).2.1, fun _ _ _ _ => nofun⟩
  have hqueue : (Stage.awaitCleanup cleanup :: acc.2).flatMap Stage.queue = [] :=
    List.flatMap_eq_nil_iff.mpr fun stage hstage => (hidle stage hstage).1
  have hwaits : (Stage.awaitCleanup cleanup :: acc.2).flatMap Stage.waits = [] :=
    List.flatMap_eq_nil_iff.mpr fun stage hstage => (hidle stage hstage).2.2.1
  have hreleases : (Stage.awaitCleanup cleanup :: acc.2).flatMap Stage.releases = [] :=
    List.flatMap_eq_nil_iff.mpr fun stage hstage => (hidle stage hstage).2.2.2
  have hheld : (Stage.awaitCleanup cleanup :: acc.2).findSome? Stage.held = none :=
    List.findSome?_eq_none_iff.mpr fun stage hstage => (hidle stage hstage).2.1
  rw [Outcome.view, hqueue, hwaits, hheld, hreleases, hview]
  exact .refl

theorem awaitCleanup_follows (cleanup : Cleanup) :
    (b.awaitCleanup cleanup env).Follows F (b.viewAt (.awaitCleanup cleanup)) := by
  unfold Broker.awaitCleanup
  dsimp only
  split
  case h_4 =>
    repeat' split
    all_goals exact finishCleanup_follows cleanup _ _
  all_goals
    repeat' split
    all_goals exact follows_go .refl

theorem filter_revocation
    (hcell : (b.cellHeap[i]?).filter (fun cell => cell.revocation.isSome) = some cell) :
    b.cellHeap[i]? = some cell ∧ cell.revocation.isSome = true := by
  simpa [Option.filter_eq_some_iff] using hcell

theorem revocation_follows : (b.revocation i env).Follows F (b.viewAt (.revocation i)) := by
  unfold Broker.revocation
  split
  · exact follows_end .refl rfl
  case h_2 cell hcell =>
    obtain ⟨hat, hrevoking⟩ := filter_revocation hcell
    refine follows_go (.single (Move.destroy (b.view [] none []) cell.session.id
      (.inr (.inr ⟨cell.view, ?_, rfl, hrevoking⟩))))
    exact List.mem_map_of_mem (List.mem_of_getElem? hat)

theorem revocationFinish_follows (result : RevocationResult) (err : Option Failure) :
    (b.revocationFinish i result err).Follows F (b.viewAt (.revocationFinish i result err)) := by
  unfold Broker.revocationFinish
  split
  · exact follows_end .refl rfl
  case h_2 cell hcell =>
    obtain ⟨hat, hrevoking⟩ := filter_revocation hcell
    have hview : ((b.recordRevocation cell.request cell.session result).modifyCell i fun cell =>
        { cell with revocation := cell.revocation.map fun attempt =>
          { attempt with finished := true, result := result, err := err } }).view [] none [] =
            b.view [] none [] := by
      rw [view_modifyCell, view_recordRevocation]
      intro cell
      cases hrevocation : cell.revocation <;> simp [SessionCell.view, hrevocation]
    refine follows_end (q := []) (h := none) (u := []) ?_ rfl
    split
    case isTrue hrefs =>
      have hcells : (b.recordRevocation cell.request cell.session result).cellHeap[i]? =
          some cell := by
        unfold Broker.recordRevocation
        split <;> exact hat
      have hremove : Moves F (Broker.view _ [] none []) (Broker.view _ [] none []) :=
        removeCell_moves (getElem?_modifyCell (fun cell =>
          { cell with revocation := cell.revocation.map fun attempt =>
            { attempt with finished := true, result := result, err := err } }) hcells) hrefs
          (.inr (.inr (by simpa using hrevoking))) (List.nil_subset _)
      rwa [hview] at hremove
    case isFalse =>
      rw [hview]
      exact .refl

/-! ## Rotation -/

theorem startRotation_follows (lineage : Lineage) :
    (w.startRotation request lineage).Follows F (w.view none []) := by
  unfold Work.startRotation
  dsimp only
  split
  · exact follows_workFail .refl
  split
  · exact follows_workFail .refl
  split
  · exact follows_workFail .refl
  case h_2 b evicted hsource =>
    have hview : ({ w with broker := b }.evictSource evicted).view none [] =
        w.view none [] := by
      rw [view_evictSource]
      exact view_makeSourceRoom hsource
    generalize { w with broker := b }.evictSource evicted = x at hview ⊢
    rw [← hview]
    split
    · exact follows_workFail .refl
    case h_2 hroom =>
      exact follows_workGo rfl (makeSessionRoom_moves hroom)

theorem joinRotation_follows (lineage : Lineage) :
    (w.joinRotation request lineage).Follows F (w.view none []) := by
  unfold Work.joinRotation
  split
  · exact startRotation_follows lineage
  iterate 2
    split
    · exact follows_workFail .refl
  exact follows_workGo rfl .refl

theorem rotate_follows :
    (b.rotate request sequence env).Follows F (b.viewAt (.rotate request)) := by
  fun_cases Broker.rotate b request sequence env
  case case1 => exact follows_fail .refl
  case case2 hobs => exact follows_fail (observeNow_moves hobs)
  case case7 hobs w _ _ _ _ _ => exact (joinRotation_follows _).after (swept_moves hobs)
  all_goals exact follows_workFail (swept_moves ‹_›)

theorem launchRotation_follows :
    (b.launchRotation r).Follows F (b.viewAt (.launchRotation r)) := by
  refine ⟨?_, .inr (by simp [Broker.launchRotation, Stage.held]), fun _ _ _ _ => nofun⟩
  exact .refl

theorem awaitRotation_follows :
    (b.awaitRotation r env).Follows F (b.viewAt (.awaitRotation r)) := by
  unfold Broker.awaitRotation
  split
  · exact follows_fail .refl
  split
  · dsimp only
    split
    · exact follows_one .refl rfl
    · exact follows_endSame rfl rfl
  · exact follows_go .refl

theorem takeRotation_follows :
    (b.takeRotation r env).Follows F (b.viewAt (.takeRotation r)) := by
  fun_cases Broker.takeRotation b r env
  case case1 => exact follows_fail .refl
  case case2 => split <;> exact follows_go .refl
  all_goals exact follows_endSame rfl rfl

variable {m : Nat}

theorem rotationObserve_follows :
    (b.rotationObserve r m sequence env).Follows F (b.viewAt (.rotationObserve r m)) := by
  unfold Broker.rotationObserve
  dsimp only
  split
  case h_1 hobs => exact follows_go (observeNow_moves hobs)
  case h_2 hobs => split <;> exact follows_go (observeNow_moves hobs)

theorem view_stopResolving : (b.stopResolving r).view q h u = b.view q h u := by
  unfold Broker.stopResolving
  split <;> rfl

theorem rotationResolved_follows (material : Option Nat) :
    (b.rotationResolved r material).Follows F (b.viewAt (.rotationResolved r material)) := by
  unfold Broker.rotationResolved
  split <;> exact follows_goSame view_stopResolving

theorem rotationIssue_follows : (b.rotationIssue r m env).Follows F (b.viewAt (.rotationIssue r m)) := by
  unfold Broker.rotationIssue
  dsimp only
  split <;> exact follows_go issue_moves

theorem rotationFail_follows (issued : Option IssuedSession) (failure : Failure) :
    (b.rotationFail r issued failure).Follows F (b.viewAt (.rotationFail r issued failure)) := by
  unfold Broker.rotationFail
  split
  · exact follows_fail .refl
  · exact follows_go .refl

theorem rotationCleanup_follows (issued : Option IssuedSession) :
    (b.rotationCleanup r issued).Follows F (b.viewAt (.rotationCleanup r issued)) := by
  unfold Broker.rotationCleanup
  split
  · exact follows_go .refl
  split
  · exact follows_go .refl
  · exact follows_go (destroySession_moves _)

theorem rotationRevoke_follows (session : IssuedSession) :
    (b.rotationRevoke r session env).Follows F (b.viewAt (.rotationRevoke r session)) :=
  follows_go (destroySession_moves session)

theorem rotationRecord_follows (session : IssuedSession) (result : RevocationResult) :
    (b.rotationRecord r session result).Follows F
      (b.viewAt (.rotationRecord r session result)) := by
  unfold Broker.rotationRecord
  split
  · exact follows_go .refl
  · exact follows_goSame (view_recordRevocation _ _ _)

theorem view_forgetRotation (flight : RotationFlight) :
    (b.forgetRotation r flight).view q h u = b.view q h u := by
  unfold Broker.forgetRotation
  dsimp only
  split <;> rfl

theorem rotationClose_follows (result : RevocationResult) :
    (b.rotationClose r result).Follows F (b.viewAt (.rotationClose r result)) := by
  unfold Broker.rotationClose
  split
  · exact follows_end .refl rfl
  case h_2 flight _ => exact follows_endSame (view_stopResolving.trans (view_forgetRotation flight)) rfl

theorem rotationDone_follows (result : RevocationResult) :
    (b.rotationDone r result).Follows F (b.viewAt (.rotationDone r result)) := by
  unfold Broker.rotationDone
  split
  · exact follows_end .refl rfl
  case h_2 flight _ => exact follows_endSame (view_forgetRotation flight) rfl

/-! ### The commit -/

variable {v' : View}

theorem Move.nextEpoch_le (hmove : Move F v v') : v.nextEpoch ≤ v'.nextEpoch := by
  cases hmove <;> first | exact le_rfl | exact Nat.le_add_right _ _

/-- Moves that use no epoch do not depend on how many are given out. -/
theorem Move.lift (hmove : Move F v v') (hepoch : v'.nextEpoch = v.nextEpoch) (n : Nat) :
    Move F { v with nextEpoch := n } { v' with nextEpoch := n } := by
  cases hmove with
  | observe now later => exact .observe _ now later
  | epochs => exact .epochs _ 0
  | lineage | operation => exact absurd hepoch (Nat.succ_ne_self _)
  | close => exact .close _
  | unlink binding => exact .unlink _ binding
  | invalidate i cell at_i unlinked => exact .invalidate _ i cell at_i unlinked
  | revoke i cell at_i invalid => exact .revoke _ i cell at_i invalid
  | drain i cell at_i useless =>
    exact .drain _ i cell at_i (useless.imp id
      (And.imp_right (Or.imp_left fun hdead => hdead.congr rfl rfl rfl rfl)))
  | drop i cell at_i unused ended =>
    exact .drop _ i cell at_i unused ended
  | queue ids owed => exact .queue _ ids owed
  | destroy id owned => exact .destroy _ id owned
  | forget => exact .forget _
  | issue => exact .issue _
  | addCell cell owned kept fresh licensed =>
    refine .addCell _ cell owned kept fresh ?_
    cases licensed with
    | flight flight mem request conn op => exact .flight flight mem request conn op
    | lineage bound => exact .lineage ⟨bound.1, bound.2⟩
  | addFlight flight unpublished bound =>
    exact .addFlight _ flight unpublished ⟨bound.1, bound.2⟩
  | join waits pending => exact .join _ waits pending
  | publish i c flight cell at_i at_c tracked serving bound =>
    exact .publish _ i c flight cell at_i at_c tracked serving bound
  | forgetFlight binding => exact .forgetFlight _ binding
  | grant i cell at_i current early source =>
    exact .grant _ i cell at_i (current.congr rfl rfl rfl) early source
  | closeHandle l lease at_l opened => exact .closeHandle _ l lease at_l opened
  | release l lease at_l owed => exact .release _ l lease at_l owed
  | lost l gone => exact .lost _ l gone

theorem Moves.nextEpoch_le (hmoves : Moves F v v') : v.nextEpoch ≤ v'.nextEpoch := by
  induction hmoves with
  | refl => exact le_rfl
  | tail _ hmove ih => exact ih.trans hmove.nextEpoch_le

theorem Moves.lift (hmoves : Moves F v v') (hepoch : v'.nextEpoch = v.nextEpoch) (n : Nat) :
    Moves F { v with nextEpoch := n } { v' with nextEpoch := n } := by
  induction hmoves with
  | refl => exact .refl
  | tail hmoves hmove ih =>
    have hfirst := Moves.nextEpoch_le hmoves
    have hlast := hmove.nextEpoch_le
    exact (ih (by omega)).tail (hmove.lift (by omega) n)

/-- What an invalidation leaves alone. -/
def Broker.authority (b : Broker) :
    AList (fun _ : ConnectionKey => Lineage) × AList (fun _ : OperationKey => OperationState) ×
      Nat × List Nat × Int :=
  (b.lineages, b.operations, b.nextEpoch, b.destroyedSessions, b.lastNow)

theorem unlinkSession_authority (binding : DigestValue) :
    (b.unlinkSession binding i).authority = b.authority := by
  unfold Broker.unlinkSession
  split <;> rfl

theorem markInvalid_authority (cell : SessionCell) :
    (w.markInvalid i cell).broker.authority = w.broker.authority := by
  unfold Work.markInvalid
  split <;> exact unlinkSession_authority _

theorem invalidateMatching_authority (keep : SessionCell → Bool) (acc : Work × List Nat) :
    (Work.invalidateMatching keep t acc i).1.broker.authority = acc.1.broker.authority := by
  unfold Work.invalidateMatching
  split
  · rfl
  case h_2 cell _ =>
    split
    · rfl
    split
    · split <;> rfl
    split
    · exact markInvalid_authority _
    refine Eq.trans ?_ (markInvalid_authority (i := i) cell)
    change (if cell.refs = 0 ∧ cell.revocation.all RevocationAttempt.finished then
      (acc.1.markInvalid i cell).broker.removeCell i
        else (acc.1.markInvalid i cell).broker).authority = _
    split <;> rfl

theorem invalidateMatchingCells_authority (keep : SessionCell → Bool) :
    (w.invalidateMatchingCells keep t).1.broker.authority = w.broker.authority := by
  have hfold : ∀ (cells : List Nat) (acc : Work × List Nat),
      (cells.foldl (Work.invalidateMatching keep t) acc).1.broker.authority =
        acc.1.broker.authority := by
    intro cells
    induction cells with
    | nil => exact fun acc => rfl
    | cons i cells ih => exact fun acc => (ih _).trans (invalidateMatching_authority keep acc)
  exact hfold _ (w, [])

theorem invalidateConnection_authority (key : ConnectionKey) (exclude : Option Nat) :
    (w.invalidateConnection key t exclude).1.broker.authority = w.broker.authority := by
  unfold Work.invalidateConnection
  extract_lets dropped sources flights rotations
  have hview : rotations.view none [] = w.view none [] := by
    rw [view_cancelRotations, view_cancelSessionFlights, view_cancelSourceFlights, view_dropSources]
  refine (invalidateMatchingCells_authority _).trans ?_
  clear_value rotations
  exact congrArg (fun v : View =>
    (v.lineages, v.operations, v.nextEpoch, v.destroyed, v.lastNow)) hview

theorem allocateLeases_moves {binding : DigestValue} (n : Nat) (hcell : b.cellHeap[i]? = some cell)
    (hcurrent : b.cellCurrent cell = true) (hearly : b.lastNow ≤ cell.session.useCutoff)
    (hsession : b.sessions.lookup binding = some i) :
    Moves F (b.view q h u) ((b.allocateLeases i n).view q h u) := by
  induction n generalizing b cell with
  | zero => exact .refl
  | succ n ih =>
    have hmove : Move F (b.view q h u) ((b.allocateLease i).view q h u) :=
      allocateLease_move hcell hcurrent hearly (.inl ⟨binding, hsession⟩)
    have hcell' : (b.allocateLease i).cellHeap[i]? =
        some { cell with refs := cell.refs + 1, lastUsed := b.touch.nextUse } :=
      getElem?_modifyCell (b := b.touch) _ hcell
    have hrest : Moves F ((b.allocateLease i).view q h u) _ :=
      ih (b := { b.allocateLease i with leaseReservations := b.leaseReservations - 1 })
        hcell' hcurrent hearly hsession
    exact (Relation.ReflTransGen.single hmove).trans hrest

variable {lineage : Lineage} {found : Option Lineage}

theorem validateRotationTarget_ok (hfound : found = some lineage)
    (hok : (validateRotationTarget found request).isOk = true) :
    lineage.revokedThrough < request.connectionGeneration ∧
      lineage.generation < request.connectionGeneration := by
  subst hfound
  unfold validateRotationTarget at hok
  dsimp only at hok
  split at hok
  · cases hok
  · split at hok
    · cases hok
    · omega

/-- The facts a rotation commits on. -/
structure Broker.Committable (b : Broker) (flight : RotationFlight) (lineage : Lineage)
    (session : IssuedSession) (now : Int) : Prop where
  current : b.lineages.lookup (keyForConnection flight.request) = some lineage
  target : lineage.revokedThrough < flight.request.connectionGeneration ∧
    lineage.generation < flight.request.connectionGeneration
  operation : ∀ operation, b.operations.lookup (keyForOperation flight.request) = some operation →
    operation.terminal = false
  issued : b.validIssuedSession flight.request session now = true

theorem not_of_ite_some {α : Type} {c : Prop} [Decidable c] {a : α} {rest : Option α}
    (h : (if c then some a else rest) = none) : ¬ c ∧ rest = none := by
  split at h
  · cases h
  case isFalse hc => exact ⟨hc, h⟩

variable {flight : RotationFlight} {session : IssuedSession}

theorem rotationStopped_none (hstopped : b.rotationStopped r flight m (some session) t = none)
    (hlineage : b.lineages.lookup (keyForConnection flight.request) = some lineage) :
    b.Committable flight lineage session t := by
  unfold Broker.rotationStopped at hstopped
  dsimp only at hstopped
  -- the reasons in the order of the source's switch; only three of them are needed
  obtain ⟨-, hstopped⟩ := not_of_ite_some hstopped
  obtain ⟨-, hstopped⟩ := not_of_ite_some hstopped
  obtain ⟨-, hstopped⟩ := not_of_ite_some hstopped
  obtain ⟨-, hstopped⟩ := not_of_ite_some hstopped
  obtain ⟨htarget, hstopped⟩ := not_of_ite_some hstopped
  obtain ⟨hterminal, hstopped⟩ := not_of_ite_some hstopped
  obtain ⟨-, hstopped⟩ := not_of_ite_some hstopped
  obtain ⟨-, hstopped⟩ := not_of_ite_some hstopped
  obtain ⟨-, hstopped⟩ := not_of_ite_some hstopped
  obtain ⟨hissued, -⟩ := not_of_ite_some hstopped
  refine ⟨hlineage, validateRotationTarget_ok hlineage (by simpa using htarget),
    fun operation hoperation => ?_, ?_⟩
  · rw [hoperation] at hterminal
    simpa using hterminal
  · simpa using (not_or.mp hissued).2

theorem rotateAuthority_moves (hcommit : b.Committable flight lineage session t)
    (hauthority : w.broker.authority = { b with nextEpoch := b.nextEpoch + 2 }.authority) :
    Moves F { w.view h u with nextEpoch := b.nextEpoch }
      ((w.broker.rotateAuthority flight.request lineage (b.nextEpoch + 1)).view
        w.disposal.queue h u) := by
  simp only [Broker.authority, Prod.mk.injEq] at hauthority
  obtain ⟨hlineages, hoperations, hnext, -, -⟩ := hauthority
  have hlineage : Move F { w.view h u with nextEpoch := b.nextEpoch } _ :=
    Move.lineage { w.view h u with nextEpoch := b.nextEpoch } (keyForConnection flight.request)
      (lineage.rotated flight.request (b.nextEpoch + 1)) rfl (by
        intro old hold
        change w.broker.lineages.lookup _ = some old at hold
        rw [hlineages, hcommit.current] at hold
        cases hold
        exact ⟨hcommit.target.2.le, le_rfl⟩)
  have hoperation := (Relation.ReflTransGen.single hlineage).tail
    (Move.operation _ (keyForOperation flight.request)
      ⟨flight.request.bindingDigest, b.nextEpoch + 1 + 1, false⟩ rfl (by
        intro old hold hterminal
        change w.broker.operations.lookup _ = some old at hold
        rw [hoperations] at hold
        rw [hcommit.operation old hold] at hterminal
        cases hterminal))
  have hview : (w.broker.rotateAuthority flight.request lineage (b.nextEpoch + 1)).view
      w.disposal.queue h u = { w.view h u with
      nextEpoch := b.nextEpoch + 1 + 1
      lineages := w.broker.lineages.insert (keyForConnection flight.request)
        (lineage.rotated flight.request (b.nextEpoch + 1))
      operations := w.broker.operations.insert (keyForOperation flight.request)
        ⟨flight.request.bindingDigest, b.nextEpoch + 1 + 1, false⟩ } := by
    simp only [Work.view, Broker.view, Broker.rotateAuthority, hnext]
  rw [hview]
  exact hoperation

theorem newCell_current {lastUsed : Nat} (hcommit : b.Committable flight lineage session t)
    (hdestroyed : b'.destroyedSessions = b.destroyedSessions)
    (hlineages : b'.lineages.lookup (keyForConnection flight.request) =
      some (lineage.rotated flight.request i))
    (hoperations : b'.operations.lookup (keyForOperation flight.request) =
      some ⟨flight.request.bindingDigest, i + 1, false⟩) :
    b'.cellCurrent (flight.newCell session i lastUsed) = true := by
  have hissued := hcommit.issued
  simp only [Broker.validIssuedSession, Bool.and_eq_true] at hissued
  obtain ⟨⟨⟨⟨hvalid, hbinding⟩, -⟩, -⟩, -⟩ := hissued
  have hvalid' : b'.sessionValid session = true := by
    rw [sessionValid_iff] at hvalid ⊢
    rwa [hdestroyed]
  have hdigest : equalDigest flight.request.bindingDigest flight.request.bindingDigest = true := by
    obtain ⟨hinit, heq⟩ := Reconcile.equalDigest_iff.mp hbinding
    exact Reconcile.equalDigest_iff.mpr ⟨heq ▸ hinit, rfl⟩
  unfold Broker.cellCurrent
  simp only [RotationFlight.newCell, hvalid', hlineages, hoperations, Lineage.rotated, hdigest,
    hcommit.target.1, Bool.not_false, Bool.and_self, beq_self_eq_true, decide_true]

theorem installRotation_moves (hcommit : b.Committable flight lineage session t)
    (hauthority : w.broker.authority = { b with nextEpoch := b.nextEpoch + 2 }.authority) :
    Moves F { w.view (some session.id) [] with nextEpoch := b.nextEpoch }
      ((w.broker.installRotation flight lineage m session (b.nextEpoch + 1)).view
        w.disposal.queue none []) := by
  have hdestroyed : w.broker.destroyedSessions = b.destroyedSessions := by
    simp only [Broker.authority, Prod.mk.injEq] at hauthority
    exact hauthority.2.2.2.1
  refine (rotateAuthority_moves hcommit hauthority).tail (addCell_move rfl ?_
    ⟨rfl, rfl, rfl, rfl, (validIssuedSession_valid hcommit.issued).1⟩ (.lineage ⟨⟨lineage.rotated flight.request (b.nextEpoch + 1), ?_, rfl, rfl⟩,
        ⟨⟨flight.request.bindingDigest, b.nextEpoch + 1 + 1, false⟩, ?_, rfl⟩⟩))
  · change session.id ∉ w.broker.destroyedSessions
    rw [hdestroyed]
    exact (validIssuedSession_valid hcommit.issued).2
  · exact AList.lookup_insert _
  · exact AList.lookup_insert _

theorem grantRotation_moves {binding : DigestValue} (hcell : b.cellHeap[i]? = some cell)
    (hcurrent : b.cellCurrent cell = true) (hearly : b.lastNow ≤ cell.session.useCutoff)
    (hsession : b.sessions.lookup binding = some i) :
    Moves F (b.view q h u) ((b.grantRotation r flight i).view q h u) :=
  allocateLeases_moves flight.leaseReserved hcell hcurrent hearly hsession

theorem installRotation_cell (b : Broker) (flight : RotationFlight) (lineage : Lineage)
    (session : IssuedSession) (m epoch : Nat) : ∃ lastUsed,
      (b.installRotation flight lineage m session epoch).cellHeap[b.cellHeap.length]? =
        some (flight.newCell session epoch lastUsed) :=
  ⟨_, List.getElem?_concat_length⟩

theorem commit_follows (hcommit : b.Committable flight lineage session t) (hnow : b.lastNow = t) :
    (Broker.commit { b with nextEpoch := b.nextEpoch + 2 } r flight lineage m session t
      (b.nextEpoch + 1)).Follows F (b.view [] (some session.id) []) := by
  unfold Broker.commit
  dsimp only
  have hmoves := invalidateConnection_moves (F := F) (h := some session.id) (u := []) (t := t)
    (w := Broker.work { b with nextEpoch := b.nextEpoch + 2 }) (keyForConnection flight.request)
    (some r)
  have hauthority := invalidateConnection_authority (t := t)
    (w := Broker.work { b with nextEpoch := b.nextEpoch + 2 }) (keyForConnection flight.request)
    (some r)
  generalize Work.invalidateConnection (Broker.work { b with nextEpoch := b.nextEpoch + 2 })
    (keyForConnection flight.request) t (some r) = result at hmoves hauthority ⊢
  obtain ⟨w, attempts⟩ := result
  have hauthority : w.broker.authority = { b with nextEpoch := b.nextEpoch + 2 }.authority :=
    hauthority
  have hfields := hauthority
  simp only [Broker.authority, Prod.mk.injEq] at hfields
  obtain ⟨-, -, hnext, hdestroyed, hlast⟩ := hfields
  have hlift := Moves.lift hmoves hnext b.nextEpoch
  have hinstall := hlift.trans (installRotation_moves (m := m) hcommit hauthority)
  obtain ⟨lastUsed, hcell⟩ :=
    installRotation_cell w.broker flight lineage session m (b.nextEpoch + 1)
  have hcurrent : (w.broker.installRotation flight lineage m session (b.nextEpoch + 1)).cellCurrent
      (flight.newCell session (b.nextEpoch + 1) lastUsed) = true :=
    newCell_current hcommit hdestroyed (AList.lookup_insert _) (AList.lookup_insert _)
  have hissued := hcommit.issued
  simp only [Broker.validIssuedSession, Bool.and_eq_true] at hissued
  have hearly : w.broker.lastNow ≤ session.useCutoff := by
    rw [hlast, hnow]
    exact (canStartUse_iff.mp hissued.2).2.2
  exact settle_follows _ (hinstall.trans
    (grantRotation_moves hcell hcurrent hearly (AList.lookup_insert _)))

theorem rotationCommit_follows (issued : Option IssuedSession) :
    (b.rotationCommit r m issued sequence env).Follows F
      (b.viewAt (.rotationCommit r m issued)) := by
  unfold Broker.rotationCommit
  split
  · exact follows_fail .refl
  case h_2 =>
    split
    case h_1 hobs => exact follows_go (observeNow_moves hobs)
    case h_2 b' now hobs =>
      have hmoves : Moves F (b.view [] (issued.map IssuedSession.id) [])
          (b'.view [] (issued.map IssuedSession.id) []) := observeNow_moves hobs
      split
      · exact follows_go hmoves
      case h_2 hstopped =>
        split
        · exact follows_go hmoves
        case h_2 session lineage hreserve hlineage =>
          obtain ⟨rfl, hepoch⟩ := reserveEpochs_ok hreserve
          obtain rfl := hepoch two_ne_zero
          split
          · exact follows_go (hmoves.tail (Move.epochs (b'.view [] (some session.id) []) 2))
          · exact (commit_follows (rotationStopped_none hstopped hlineage)
              (observeNow_ok hobs).1).after hmoves
        case h_3 hreserve _ =>
          obtain ⟨rfl, -⟩ := reserveEpochs_ok hreserve
          exact follows_go (hmoves.tail (Move.epochs (b'.view [] _ []) 2))

/-! ## Revocation, termination and shutdown -/

theorem revokedAlready_follows (key : ConnectionKey) (pending : Bool)
    (hmoves : Moves F v (w.view none [])) : (w.revokedAlready key pending t).Follows F v :=
  settle_follows _ hmoves

theorem revoke_follows {key : ConnectionKey} (pending : Bool)
    (hepoch : lineage.epoch = w.broker.nextEpoch + 1)
    (hgrows : ∀ old, w.broker.lineages.lookup key = some old →
      old.generation ≤ lineage.generation ∧ old.revokedThrough ≤ lineage.revokedThrough) :
    (Work.revoke { w with broker := { w.broker with nextEpoch := w.broker.nextEpoch + 1 } } key
      lineage pending t).Follows F (w.view none []) := by
  unfold Work.revoke
  dsimp only
  refine settle_follows _ ?_
  have hmove : Move F (w.view none []) (Work.view { w with broker := { w.broker with
      nextEpoch := w.broker.nextEpoch + 1
      lineages := w.broker.lineages.insert key lineage } } none []) :=
    Move.lineage (w.view none []) key lineage hepoch hgrows
  exact .head hmove (invalidateConnection_moves _ _)

theorem revokePending_follows (pending : RotationFlight) :
    (w.revokePending request pending t).Follows F (w.view none []) := by
  fun_cases Work.revokePending w request pending t
  case case2 => exact revokedAlready_follows _ _ .refl
  case case5 hlineage _ reserved epoch hreserve =>
    obtain ⟨rfl, hepoch⟩ := reserveEpochs_ok hreserve
    refine revoke_follows true (hepoch one_ne_zero) fun old hold => ?_
    rw [hlineage] at hold
    cases hold
    exact ⟨le_rfl, le_max_left _ _⟩
  all_goals exact follows_workFail .refl

theorem le_revokedTarget (pending : Option RotationFlight) (generation : Int) :
    generation ≤ revokedTarget pending generation := by
  unfold revokedTarget
  split
  · exact le_rfl
  · split
    · exact le_rfl
    · exact le_max_left _ _

theorem validateLifecycleLineage_ok (hvalidate : b.validateLifecycleLineage request = .ok found) :
    b.lineages.lookup (keyForConnection request) = found := by
  unfold Broker.validateLifecycleLineage at hvalidate
  split at hvalidate
  case h_1 hnone =>
    cases hvalidate
    exact hnone
  case h_2 hlineage =>
    iterate 3
      split at hvalidate
      · cases hvalidate
    cases hvalidate
    exact hlineage

theorem revokeLive_follows (hlive : ∀ lineage,
      w.broker.lineages.lookup (keyForConnection request) = some lineage →
        lineage.revokedThrough ≤ request.connectionGeneration) :
    (w.revokeLive request t).Follows F (w.view none []) := by
  fun_cases Work.revokeLive w request t
  case case4 hvalidate reserved epoch hreserve pending =>
    obtain ⟨rfl, hepoch⟩ := reserveEpochs_ok hreserve
    refine revoke_follows _ (hepoch one_ne_zero) fun old hold => ?_
    have hfound := validateLifecycleLineage_ok hvalidate
    rw [hold] at hfound
    subst hfound
    exact ⟨le_rfl, (hlive old hold).trans (le_revokedTarget _ _)⟩
  all_goals exact follows_workFail .refl

theorem revokeConnection_follows :
    (b.revokeConnection request sequence env).Follows F (b.viewAt (.revokeConnection request)) := by
  fun_cases Broker.revokeConnection b request sequence env
  case case1 => exact follows_fail .refl
  case case2 hobs => exact follows_fail (observeNow_moves hobs)
  case case3 => exact (revokePending_follows _).after (swept_moves ‹_›)
  case case4 hobs _ _ _ hnone =>
    refine (revokeLive_follows fun lineage hlineage => ?_).after (swept_moves hobs)
    rw [hnone] at hlineage
    cases hlineage
  case case7 => exact revokedAlready_follows _ _ (swept_moves ‹_›)
  case case8 hobs _ _ _ lineage hlineage _ _ hlive =>
    refine (revokeLive_follows fun found hfound => ?_).after (swept_moves hobs)
    rw [hlineage] at hfound
    cases hfound
    omega
  all_goals exact follows_workFail (swept_moves ‹_›)

theorem view_markTerminal (request : Request) (pending : Option (Nat × RotationFlight))
    (epoch : Nat) : ∃ binding, (b.markTerminal request pending epoch).view q h u = { b.view q h u with
      operations := b.operations.insert (keyForOperation request) ⟨binding, epoch, true⟩ } := by
  unfold Broker.markTerminal
  dsimp only
  split
  · exact ⟨_, rfl⟩
  · split
    · exact ⟨_, rfl⟩
    · exact ⟨_, rfl⟩

theorem terminationLineage_none {pending : Option (Nat × RotationFlight)}
    (hlineage : b.terminationLineage request pending = .ok none) :
    b.lineages.lookup (keyForConnection request) = none := by
  unfold Broker.terminationLineage at hlineage
  split at hlineage
  · split at hlineage
    · cases hlineage
    · exact validateLifecycleLineage_ok hlineage
  · split at hlineage
    · cases hlineage
    · split at hlineage <;> cases hlineage

/-- The terminal mark takes a fresh epoch, after the lineage if that one is new too. -/
theorem markTerminal_moves {pending : Option (Nat × RotationFlight)} {epoch : Nat}
    (hepoch : epoch = b.nextEpoch + 1) :
    Moves F (b.view q h u) ((Broker.markTerminal { b with nextEpoch := b.nextEpoch + 1 }
      request pending epoch).view q h u) := by
  obtain ⟨binding, hview⟩ := view_markTerminal (b := { b with nextEpoch := b.nextEpoch + 1 })
    (q := q) (h := h) (u := u) request pending epoch
  have hmove : Move F (b.view q h u) _ := Move.operation (b.view q h u) (keyForOperation request)
    ⟨binding, epoch, true⟩ hepoch fun _ _ _ => rfl
  rw [hview]
  exact .single hmove

theorem endOperation_follows (op : OperationKey) (pending : Bool)
    (hmoves : Moves F v (w.view none [])) : (w.endOperation op pending t).Follows F v := by
  unfold Work.endOperation
  extract_lets sessions rotations
  have hview : rotations.view none [] = w.view none [] := by
    rw [view_cancelRotations, view_cancelSessionFlights]
  rw [← hview] at hmoves
  clear_value rotations
  exact settle_follows _ (hmoves.trans (invalidateMatchingCells_moves _))

theorem terminate_follows (pending : Option (Nat × RotationFlight))
    (hfound : found = none → w.broker.lineages.lookup (keyForConnection request) = none) :
    (w.terminate request pending found t).Follows F (w.view none []) := by
  unfold Work.terminate
  dsimp only
  split
  · exact follows_workFail .refl
  case h_2 hreserve =>
    obtain ⟨rfl, hfirst⟩ := reserveEpochs_ok hreserve
    obtain rfl := hfirst (by omega)
    refine endOperation_follows _ _ ?_
    cases found with
    | some => exact markTerminal_moves rfl
    | none =>
      have hkey : keyForConnection request ∉ w.broker.lineages :=
        AList.lookup_eq_none.mp (hfound rfl)
      exact .head (addLineage_move hkey (newLineageState request (w.broker.nextEpoch + 1)) rfl)
        (markTerminal_moves rfl)

theorem terminateOperation_follows :
    (b.terminateOperation request sequence env).Follows F
      (b.viewAt (.terminateOperation request)) := by
  fun_cases Broker.terminateOperation b request sequence env
  case case1 => exact follows_fail .refl
  case case2 hobs => exact follows_fail (observeNow_moves hobs)
  case case5 hobs _ _ _ _ _ _ _ => exact settle_follows _ (swept_moves hobs)
  case case7 hobs _ _ _ _ _ _ _ found hfound =>
    refine (terminate_follows _ fun hnone => ?_).after (swept_moves hobs)
    exact terminationLineage_none (hnone ▸ hfound)
  all_goals exact follows_workFail (swept_moves ‹_›)

theorem shutdown_follows (err : Option Failure) (hmoves : Moves F v (b.view [] none [])) :
    (b.shutdown t err).Follows F v := by
  unfold Broker.shutdown
  extract_lets closed sessionFlights sourceFlights sources sessions rotations dropped
  have hclose : Move F (b.view [] none []) (closed.view none []) := Move.close (b.view [] none [])
  have hview : dropped.view none [] = closed.view none [] := by
    rw [view_dropSources, view_cancelRotations, view_cancelSessionFlights, view_cancelSourceFlights]
  have hinvalidate := hmoves.tail hclose
  rw [← hview] at hinvalidate
  clear_value dropped
  exact settle_follows _ (hinvalidate.trans (invalidateMatchingCells_moves _))

theorem close_follows : (b.close sequence env).Follows F (b.viewAt .close) := by
  unfold Broker.close
  split
  · unfold Broker.closedAlready
    dsimp only
    split
    case h_1 hobs => exact settle_follows _ (observeNow_moves hobs)
    case h_2 b' now hobs =>
      have hmoves : Moves F (b.view [] none []) (b'.view [] none []) := observeNow_moves hobs
      exact settle_follows _ hmoves
  · split
    case h_1 hobs | h_2 hobs => exact shutdown_follows _ (observeNow_moves hobs)

theorem sweepExpired_follows : (b.sweepExpired sequence env).Follows F (b.viewAt .sweepExpired) := by
  unfold Broker.sweepExpired
  split
  · exact follows_fail .refl
  split
  case h_1 hobs => exact follows_fail (observeNow_moves hobs)
  case h_2 b' now hobs =>
    obtain ⟨hnow, hzero⟩ := observeNow_ok hobs
    exact follows_workGo rfl
      ((observeNow_moves hobs).trans (sweep_moves (w := b'.work) hnow hzero).2)

/-! ## All sections -/

/-- One critical section of any goroutine is a sequence of moves from the resources of its stage
to those of what follows it. Only an admission starts a use. -/
theorem perform_moves (b : Broker) (stage : Stage) (sequence : Nat) (env : Env) :
    Moves (b.replaceable stage) (b.viewAt stage) (b.perform stage sequence env).view ∧
      ((b.perform stage sequence env).stages.length ≤ 1 ∨
        ∀ next ∈ (b.perform stage sequence env).stages, next.held = none) ∧
      ∀ lease c observed admitted,
        (b.perform stage sequence env).output = .started lease c observed admitted →
          stage = .useAdmit lease ∧ b.Starts sequence env lease c observed admitted := by
  have hsilent : (∀ l, stage ≠ .useAdmit l) →
      (b.perform stage sequence env).Follows (b.replaceable stage) (b.viewAt stage) := by
    intro hother
    cases stage with
    | useAdmit l => exact absurd rfl (hother l)
    | registerIssuer key => exact registerIssuer_follows key
    | acquire request force => exact acquire_follows force
    | launchFlight => exact launchFlight_follows
    | awaitFlight => exact awaitFlight_follows
    | takeLease => exact takeLease_follows
    | flightStart => exact flightStart_follows
    | flightSource => exact flightSource_follows
    | launchSource => exact launchSource_follows
    | flightAwaitSource => exact flightAwaitSource_follows
    | flightBorrow => exact flightBorrow_follows
    | flightIssue => exact flightIssue_follows
    | flightRelease i e issued err => exact flightRelease_follows issued err
    | flightFinish i issued err => exact flightFinish_follows issued err rfl
    | flightCleanup i issued => exact flightCleanup_follows issued
    | flightRevoke i session => exact flightRevoke_follows session
    | flightRecord i session result err => exact flightRecord_follows session result err
    | flightForget i result err => exact flightForget_follows result err
    | flightClose => exact flightClose_follows
    | sourceResolve owner => exact sourceResolve_follows owner
    | sourceResolved owner material => exact sourceResolved_follows owner material
    | sourceFinish i material => exact sourceFinish_follows material
    | sourceReject => exact sourceReject_follows
    | sourceClose => exact sourceClose_follows
    | rotate => exact rotate_follows
    | launchRotation => exact launchRotation_follows
    | awaitRotation => exact awaitRotation_follows
    | takeRotation => exact takeRotation_follows
    | rotationObserve => exact rotationObserve_follows
    | rotationResolved r material => exact rotationResolved_follows material
    | rotationIssue => exact rotationIssue_follows
    | rotationCommit r m issued => exact rotationCommit_follows issued
    | rotationFail r issued failure => exact rotationFail_follows issued failure
    | rotationCleanup r issued => exact rotationCleanup_follows issued
    | rotationRevoke r session => exact rotationRevoke_follows session
    | rotationRecord r session result => exact rotationRecord_follows session result
    | rotationClose r result => exact rotationClose_follows result
    | rotationDone r result => exact rotationDone_follows result
    | revokeConnection => exact revokeConnection_follows
    | terminateOperation => exact terminateOperation_follows
    | close => exact close_follows
    | sweepExpired => exact sweepExpired_follows
    | startCleanup cleanup => exact startCleanup_follows cleanup
    | awaitCleanup cleanup => exact awaitCleanup_follows cleanup
    | revocation => exact revocation_follows
    | revocationFinish i result err => exact revocationFinish_follows result err
    | use => exact use_follows
    | usePrepare => exact usePrepare_follows
    | useReturn l copied => exact useReturn_follows copied
    | useFinish l copied => exact useFinish_follows copied
    | closeLease => exact closeLease_follows
    | releaseLease => exact releaseLease_follows
    | dispose disposal next => exact dispose_follows disposal next
    | publish cancels next => exact publish_follows cancels next
    | abandon owner next => exact abandon_follows owner next
    | returned => exact follows_end .refl rfl
  by_cases hadmit : ∃ l, stage = .useAdmit l
  · obtain ⟨l, rfl⟩ := hadmit
    obtain ⟨hmoves, hlength, hstarted⟩ :=
      useAdmit_spec (b.replaceable (.useAdmit l)) b l sequence env
    exact ⟨hmoves, .inl hlength, hstarted⟩
  · have ho := hsilent fun l hl => hadmit ⟨l, hl⟩
    exact ⟨ho.moves, ho.sole, fun lease c observed admitted hout =>
      absurd hout (ho.silent lease c observed admitted)⟩

end Veer.CredentialBroker
