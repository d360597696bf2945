import Veer.BrokerMoves
import Veer.ListHeap

/-!
# The locked helpers as moves

Each helper that runs under `broker.mu` is a sequence of moves of the session store, and most
of them are none at all.
-/
namespace Veer.CredentialBroker
open Reconcile (ID DigestValue equalDigest)
open ListHeap

variable {F : Nat → Prop} {b b' : Broker} {w : Work} {q q' : List Nat} {h h' : Option Nat}
  {u u' p : List Nat} {i : Nat} {t : Int}

/-! ## Fields that the view forgets -/

theorem view_modifyCell (f : SessionCell → SessionCell) (hf : ∀ cell, (f cell).view = cell.view) :
    (b.modifyCell i f).view q h u p = b.view q h u p := by
  have hmap := map_modify_of_eq hf b.cellHeap i
  simp only [Broker.view, Broker.modifyCell, hmap]

theorem view_modifySessionFlight (f : SessionFlight → SessionFlight)
    (hf : ∀ flight, (f flight).view = flight.view) :
    (b.modifySessionFlight i f).view q h u p = b.view q h u p := by
  have hmap := map_modify_of_eq hf b.sessionFlightHeap i
  simp only [Broker.view, Broker.modifySessionFlight, hmap]

theorem view_recordExpiryEvidence (cell : SessionCell) :
    (b.recordExpiryEvidence cell t).view q h u p = b.view q h u p := by
  fun_cases Broker.recordExpiryEvidence b cell t <;> rfl

theorem view_recordRevocation (request : Request) (session : IssuedSession)
    (result : RevocationResult) :
    (b.recordRevocation request session result).view q h u p = b.view q h u p := by
  unfold Broker.recordRevocation
  split <;> rfl

theorem view_destroySource (material : Option Nat) :
    (b.destroySource material).view q h u p = b.view q h u p := by
  cases material <;> rfl

theorem view_invalidateSource (owner : Owner) :
    (b.invalidateSource owner).view q h u p = b.view q h u p := by
  unfold Broker.invalidateSource
  split
  · rfl
  · rw [view_destroySource]
    cases owner <;> rfl

theorem view_setFlightSource (owner : Owner) (source : FlightSource) :
    (b.setFlightSource owner source).view q h u p = b.view q h u p := by
  cases owner <;> rfl

theorem view_cancel (target : Cancel) : (b.cancel target).view q h u p = b.view q h u p := by
  cases target with
  | source | rotation => rfl
  | session => exact view_modifySessionFlight _ fun _ => rfl
  | cell => exact view_modifyCell _ fun _ => rfl

/-! ## Local resources -/

theorem Moves.shrink (hq : q' ⊆ q) (hh : h' = none ∨ h' = h) (hu : u' ⊆ u) :
    Moves F (b.view q h u p) (b.view q' h' u' p) := by
  have hqueue : Move F (b.view q h u p) (b.view q' h u p) :=
    Move.queue (b.view q h u p) q' fun id hid => .inl (hq hid)
  have hjoin : Move F (b.view q' h u p) (b.view q' h u' p) :=
    Move.join (b.view q' h u p) u' fun j hj => .inl (hu hj)
  have hmoves := (Relation.ReflTransGen.single hqueue).tail hjoin
  rcases hh with rfl | rfl
  · exact hmoves.tail (Move.forget (b.view q' h u' p))
  · exact hmoves

/-! ## Clock and epochs -/

variable {sequence : Nat} {observed : Option Int}

theorem observeNow_moves {result : Except Failure Int}
    (hobs : b.observeNow sequence observed = (b', result)) : Moves F (b.view q h u) (b'.view q h u) := by
  revert hobs
  fun_cases Broker.observeNow b sequence observed
  case case6 t _ _ hlater =>
    intro hobs
    cases hobs
    exact .single (Move.observe (b.view q h u) t (by
      change b.lastNow ≤ t
      omega))
  all_goals
    intro hobs
    cases hobs
    exact .refl

theorem observeNow_frame {result : Except Failure Int}
    (hobs : b.observeNow sequence observed = (b', result)) :
    b' = { b with lastClockSample := b'.lastClockSample, lastNow := b'.lastNow } := by
  revert hobs
  fun_cases Broker.observeNow b sequence observed
  all_goals
    intro hobs
    cases hobs
    rfl

theorem observeNow_ok (hobs : b.observeNow sequence observed = (b', .ok t)) : b'.lastNow = t ∧ t ≠ 0 := by
  revert hobs
  fun_cases Broker.observeNow b sequence observed
  all_goals
    intro hobs
    simp only [Prod.mk.injEq, reduceCtorEq, and_false] at hobs
  all_goals grind

/-! ## What a cell can still do -/

theorem sessionValid_iff {session : IssuedSession} :
    b.sessionValid session = true ↔ session.WellFormed ∧ session.id ∉ b.destroyedSessions := by
  simp only [Broker.sessionValid, IssuedSession.WellFormed, Bool.and_eq_true, decide_eq_true_eq]
  tauto

variable {cell : SessionCell}

theorem cellCurrent_iff : b.cellCurrent cell = true ↔ (b.view q h u).Current cell.view := by
  unfold Broker.cellCurrent
  constructor
  · intro hcurrent
    simp only [Bool.and_eq_true, Bool.not_eq_true'] at hcurrent
    obtain ⟨⟨hvalid, hsession⟩, hauthority⟩ := hcurrent
    have hsession := sessionValid_iff.mp hsession
    refine ⟨hvalid, hsession.1, hsession.2, ?_⟩
    split at hauthority
    case h_1 lineage operation hlineage hoperation =>
      simp only [Bool.and_eq_true, Bool.not_eq_true', beq_iff_eq, decide_eq_true_eq] at hauthority
      exact ⟨lineage, operation, hlineage, hoperation, by tauto⟩
    case h_2 => cases hauthority
  · intro hcurrent
    obtain ⟨lineage, operation, hlineage, hoperation, hrest⟩ := hcurrent.authority
    have hsession := sessionValid_iff.mpr ⟨hcurrent.wellFormed, hcurrent.kept⟩
    have hvalid : cell.invalid = false := hcurrent.valid
    change b.lineages.lookup (keyForConnection cell.request) = some lineage at hlineage
    change b.operations.lookup (keyForOperation cell.request) = some operation at hoperation
    simp only [hvalid, show b.sessionValid cell.session = true from hsession, hlineage, hoperation,
      Bool.not_false, Bool.true_and, Bool.and_eq_true, Bool.not_eq_true', beq_iff_eq,
      decide_eq_true_eq]
    exact ⟨⟨⟨⟨hrest.1, hrest.2.1⟩, hrest.2.2.1⟩, hrest.2.2.2.1⟩, hrest.2.2.2.2⟩

theorem canStartUse_iff {session : IssuedSession} :
    b.canStartUse session t = true ↔
      b.sessionValid session = true ∧ t ≠ 0 ∧ t ≤ session.useCutoff := by
  simp only [Broker.canStartUse, Bool.and_eq_true, bne_iff_ne, decide_eq_true_eq, and_assoc]

/-- A cell that fails at an accepted time fails for good. -/
theorem spent_of_not_startable (hnow : b.lastNow = t) (hzero : t ≠ 0)
    (hstart : b.canStartUse cell.session t = false) : (b.view q h u).Spent cell.view := by
  intro hformed hkept
  change cell.session.useCutoff < b.lastNow
  by_contra hcutoff
  have hvalid : b.sessionValid cell.session = true := sessionValid_iff.mpr ⟨hformed, hkept⟩
  have : b.canStartUse cell.session t = true := canStartUse_iff.mpr ⟨hvalid, hzero, by omega⟩
  simp [this] at hstart

theorem dead_of_not_current (hcurrent : b.cellCurrent cell = false) : (b.view q h u).Dead cell.view := by
  refine .inl fun hview => ?_
  rw [cellCurrent_iff.mpr hview] at hcurrent
  cases hcurrent

/-! ## Cells -/

theorem view_cellHeap (hcell : b.cellHeap[i]? = some cell) :
    (b.view q h u).cellHeap[i]? = some cell.view := by
  simp only [Broker.view, List.getElem?_map, hcell, Option.map_some]

variable (binding : DigestValue)

theorem unlinkSession_moves :
    Moves F (b.view q h u) ((b.unlinkSession binding i).view q h u) := by
  unfold Broker.unlinkSession
  split
  · exact .single (Move.unlink (b.view q h u) binding)
  · exact .refl

theorem unlinkSession_lookup :
    (b.unlinkSession binding i).sessions.lookup binding ≠ some i := by
  unfold Broker.unlinkSession
  split
  · simp
  · assumption

theorem unlinkSession_frame : b.unlinkSession binding i =
    { b with sessions := (b.unlinkSession binding i).sessions } := by
  unfold Broker.unlinkSession
  split <;> rfl

variable {f : SessionCell → SessionCell}

theorem drain_move (hf : ∀ cell, (f cell).view = cell.view.drain)
    (hcell : b.cellHeap[i]? = some cell) (huseless : (b.view q h u).Spent cell.view ∨
      b.sessions.lookup cell.request.bindingDigest ≠ some i ∧
        ((b.view q h u).Dead cell.view ∨ F i)) :
    Move F (b.view q h u) ((b.modifyCell i f).view q h u) := by
  have hmap := map_modify_of_comm hf b.cellHeap i
  have hmove := Move.drain (b.view q h u) i cell.view (view_cellHeap hcell) huseless
  simpa only [Broker.view, Broker.modifyCell, hmap] using hmove

theorem invalidate_move (hf : ∀ cell, (f cell).view = cell.view.invalidate)
    (hcell : b.cellHeap[i]? = some cell)
    (hunlinked : b.sessions.lookup cell.request.bindingDigest ≠ some i) :
    Move F (b.view q h u) ((b.modifyCell i f).view q h u) := by
  have hmap := map_modify_of_comm hf b.cellHeap i
  have hmove : Move F (b.view q h u) _ :=
    Move.invalidate (b.view q h u) i cell.view (view_cellHeap hcell) hunlinked
  simpa only [Broker.view, Broker.modifyCell, hmap] using hmove

theorem removeCell_moves (hcell : b.cellHeap[i]? = some cell) (hrefs : cell.refs = 0)
    (hended : cell.draining = true ∨ cell.invalid = true ∨ cell.revocation.isSome = true)
    {ids : List Nat} (hids : ids ⊆ cell.session.id :: q) :
    Moves F (b.view q h u) ((b.removeCell i).view ids h u) := by
  have hdrop : Move F (b.view q h u) ((b.removeCell i).view q h u) :=
    Move.drop (b.view q h u) i cell.view (view_cellHeap hcell) hrefs hended
  refine (Relation.ReflTransGen.single hdrop).tail
    (Move.queue ((b.removeCell i).view q h u) ids fun id hid => ?_)
  rcases List.mem_cons.mp (hids hid) with rfl | hid
  · exact .inr ⟨i, cell.view, view_cellHeap (b := b.removeCell i) hcell, rfl,
      .inr (by simp [Broker.view, Broker.removeCell])⟩
  · exact .inl hid

theorem getElem?_modifyCell (f : SessionCell → SessionCell) (hcell : b.cellHeap[i]? = some cell) :
    (b.modifyCell i f).cellHeap[i]? = some (f cell) := by
  simp [Broker.modifyCell, hcell]

theorem recordExpiryEvidence_frame (cell : SessionCell) : b.recordExpiryEvidence cell t =
    { b with
      connectionExpiry := (b.recordExpiryEvidence cell t).connectionExpiry
      operationExpiry := (b.recordExpiryEvidence cell t).operationExpiry } := by
  fun_cases Broker.recordExpiryEvidence b cell t <;> rfl

/-- The end of a cell without references: its expiry is recorded, then it goes. -/
theorem retireCell_moves (evidence : SessionCell) (time : Int) (hcell : b.cellHeap[i]? = some cell)
    (hrefs : cell.refs = 0)
    (hended : cell.draining = true ∨ cell.invalid = true ∨ cell.revocation.isSome = true)
    {ids : List Nat} (hids : ids ⊆ cell.session.id :: q) :
    Moves F (b.view q h u)
      (((b.recordExpiryEvidence evidence time).removeCell i).view ids h u) := by
  have hcell' : (b.recordExpiryEvidence evidence time).cellHeap[i]? = some cell := by
    rw [recordExpiryEvidence_frame]
    exact hcell
  have hmoves : Moves F ((b.recordExpiryEvidence evidence time).view q h u) _ :=
    removeCell_moves hcell' hrefs hended hids
  rwa [view_recordExpiryEvidence] at hmoves

theorem dead_unlinkSession {cell : CellView}
    (hdead : (b.view q h u).Dead cell) : ((b.unlinkSession binding i).view q h u).Dead cell := by
  unfold Broker.unlinkSession
  split <;> exact hdead.congr rfl rfl rfl rfl

theorem view_addSession (session : IssuedSession) :
    (w.addSession session).view h u =
      w.broker.view (w.disposal.queue ++ [session.id]) h u := by
  simp only [Work.view, Work.addSession, Disposal.queue, List.map_append]
  rfl

theorem append_singleton_subset {α : Type} (l : List α) (a : α) : l ++ [a] ⊆ a :: l := by
  intro x hx
  simpa [or_comm] using hx

/-- The entry of a cell goes before the cell is touched. -/
theorem unlinkCell_moves (hcell : w.broker.cellHeap[i]? = some cell) :
    Moves F (w.view h u)
        ((w.broker.unlinkSession cell.request.bindingDigest i).view w.disposal.queue h u) ∧
      (w.broker.unlinkSession cell.request.bindingDigest i).cellHeap[i]? = some cell := by
  refine ⟨unlinkSession_moves _, ?_⟩
  rw [unlinkSession_frame]
  exact hcell

theorem drainCell_moves (huseless : ∀ cell, w.broker.cellHeap[i]? = some cell →
      (w.view h u).Dead cell.view ∨ F i) :
    Moves F (w.view h u) ((w.drainCell i).view h u) := by
  unfold Work.drainCell
  split
  · exact .refl
  case h_2 cell hcell =>
    obtain ⟨hunlink, hcell'⟩ := unlinkCell_moves (F := F) (h := h) (u := u) hcell
    have hdrain := hunlink.tail (drain_move (f := fun cell => { cell with draining := true })
      (fun _ => rfl) hcell' (.inr ⟨unlinkSession_lookup _,
        (huseless cell hcell).imp_left (dead_unlinkSession _)⟩))
    split
    case isTrue hrefs =>
      rw [view_addSession]
      exact hdrain.trans (retireCell_moves cell _ (getElem?_modifyCell _ hcell') hrefs (.inl rfl)
        (append_singleton_subset _ _))
    case isFalse => exact hdrain

theorem drainCell_frame :
    (w.drainCell i).broker.lineages = w.broker.lineages ∧
      (w.drainCell i).broker.destroyedSessions = w.broker.destroyedSessions ∧
      (w.drainCell i).broker.sessionFlightHeap = w.broker.sessionFlightHeap ∧
      (w.drainCell i).broker.cellHeap.length = w.broker.cellHeap.length := by
  unfold Work.drainCell
  split
  · exact ⟨rfl, rfl, rfl, rfl⟩
  rw [unlinkSession_frame]
  dsimp only
  split
  · rw [recordExpiryEvidence_frame]
    exact ⟨rfl, rfl, rfl, List.length_modify ..⟩
  · exact ⟨rfl, rfl, rfl, List.length_modify ..⟩

/-! ## Sweeping -/

theorem sweepSource_view (digest : DigestValue) :
    (w.sweepSource t digest).view h u = w.view h u := by
  fun_cases Work.sweepSource t w digest <;> rfl

theorem sweepSession_lastNow :
    (w.sweepSession t binding).broker.lastNow = w.broker.lastNow := by
  fun_cases Work.sweepSession t w binding
  case case4 =>
    rw [recordExpiryEvidence_frame]
    rfl
  all_goals rfl

theorem sweepSession_moves (hnow : w.broker.lastNow = t)
    (hzero : t ≠ 0) : Moves F (w.view h u) ((w.sweepSession t binding).view h u) := by
  unfold Work.sweepSession
  split
  · exact .refl
  case h_2 =>
    split
    · exact .refl
    case h_2 cell hcell =>
      split
      · exact .refl
      case isFalse hstart =>
        have hspent : (w.view h u).Spent cell.view :=
          spent_of_not_startable hnow hzero (by simpa using hstart)
        have hunlink : Moves F (w.view h u) (({ w.broker with
            sessions := w.broker.sessions.erase binding } : Broker).view w.disposal.queue h u) :=
          .single (Move.unlink (w.view h u) binding)
        have hdrain := hunlink.tail (drain_move
          (f := fun cell => { cell with draining := true }) (fun _ => rfl) hcell
          (.inl hspent))
        split
        case isTrue hrefs =>
          rw [view_addSession]
          exact hdrain.trans (retireCell_moves cell _
            (getElem?_modifyCell (b := { w.broker with
              sessions := w.broker.sessions.erase binding }) _ hcell) hrefs (.inl rfl)
            (append_singleton_subset _ _))
        case isFalse => exact hdrain

theorem foldl_view {α : Type} {f : Work → α → Work}
    (hstep : ∀ w a, (f w a).view h u = w.view h u) (l : List α) :
    (l.foldl f w).view h u = w.view h u := by
  induction l generalizing w with
  | nil => rfl
  | cons a l ih => exact ih.trans (hstep w a)

theorem sweepSessions_moves (bindings : List DigestValue) (hnow : w.broker.lastNow = t)
    (hzero : t ≠ 0) :
    (bindings.foldl (Work.sweepSession t) w).broker.lastNow = t ∧
      Moves F (w.view h u) ((bindings.foldl (Work.sweepSession t) w).view h u) := by
  induction bindings generalizing w with
  | nil => exact ⟨hnow, .refl⟩
  | cons binding bindings ih =>
    obtain ⟨hlast, hmoves⟩ := ih ((sweepSession_lastNow binding).trans hnow)
    exact ⟨hlast, (sweepSession_moves binding hnow hzero).trans hmoves⟩

theorem sweep_moves (hnow : w.broker.lastNow = t) (hzero : t ≠ 0) :
    (w.sweep t).broker.lastNow = t ∧ Moves F (w.view h u) ((w.sweep t).view h u) := by
  unfold Work.sweep
  extract_lets start swept
  have hsources : swept.view h u = w.view h u := foldl_view (fun w digest => sweepSource_view digest) _
  rw [← hsources]
  exact sweepSessions_moves _ ((congrArg View.lastNow hsources).trans hnow) hzero

/-- What a critical section does before it looks at its own business. -/
theorem swept_moves (hobs : b.observeNow sequence observed = (b', .ok t)) :
    Moves F (b.view [] none []) ((b'.work.sweep t).view none []) := by
  obtain ⟨hnow, hzero⟩ := observeNow_ok hobs
  exact (observeNow_moves hobs).trans (sweep_moves (w := b'.work) hnow hzero).2

/-! ## Invalidation -/

theorem view_dropSource (keep : ConnectionKey → Bool) (digest : DigestValue) :
    (w.dropSource keep digest).view h u = w.view h u := by
  fun_cases Work.dropSource keep w digest <;> rfl

theorem view_dropRetired (keep : ConnectionKey → Bool) :
    (w.dropRetired keep i).view h u = w.view h u := by
  fun_cases Work.dropRetired keep w i <;> rfl

theorem view_dropSources (keep : ConnectionKey → Bool) :
    (w.dropSources keep).view h u = w.view h u := by
  unfold Work.dropSources
  rw [foldl_view fun w i => view_dropRetired keep, foldl_view fun w digest => view_dropSource keep _]

theorem view_cancelSourceFlights (keep : SourceFlight → Bool) :
    (w.cancelSourceFlights keep).view h u = w.view h u := by
  apply foldl_view
  intro w row
  rfl

theorem view_cancelSessionFlights (keep : SessionFlight → Bool) :
    (w.cancelSessionFlights keep).view h u = w.view h u := by
  apply foldl_view
  intro w row
  rfl

theorem view_cancelRotations (keep : Nat × RotationFlight → Bool) :
    (w.cancelRotations keep).view h u = w.view h u := by
  apply foldl_view
  intro w row
  rfl

theorem revoke_move (hf : ∀ cell, (f cell).view = cell.view.revoke)
    (hcell : b.cellHeap[i]? = some cell) (hinvalid : cell.invalid = true) :
    Move F (b.view q h u) ((b.modifyCell i f).view q h u) := by
  have hmap := map_modify_of_comm hf b.cellHeap i
  have hmove : Move F (b.view q h u) _ :=
    Move.revoke (b.view q h u) i cell.view (view_cellHeap hcell) hinvalid
  simpa only [Broker.view, Broker.modifyCell, hmap] using hmove

theorem markInvalid_moves (hcell : w.broker.cellHeap[i]? = some cell) :
    Moves F (w.view h u) ((w.markInvalid i cell).view h u) ∧
      ∃ marked, (w.markInvalid i cell).broker.cellHeap[i]? = some marked ∧
        marked.invalid = true ∧ marked.refs = cell.refs ∧ marked.session = cell.session := by
  obtain ⟨hunlink, hcell'⟩ := unlinkCell_moves (F := F) (h := h) (u := u) hcell
  unfold Work.markInvalid
  split
  case isTrue hinvalid => exact ⟨hunlink, cell, hcell', hinvalid, rfl, rfl⟩
  case isFalse =>
    exact ⟨hunlink.tail (invalidate_move (fun _ => rfl) hcell' (unlinkSession_lookup _)), _,
      getElem?_modifyCell _ hcell', rfl, rfl, rfl⟩

theorem holdCell_moves (hcell : w.broker.cellHeap[i]? = some cell) :
    Moves F (w.view h u) ((w.invalidateCell i cell true).1.view h u) := by
  obtain ⟨hmark, marked, hmarked, hinvalid, -, -⟩ :=
    markInvalid_moves (F := F) (h := h) (u := u) hcell
  exact hmark.tail (revoke_move (fun _ => rfl) hmarked hinvalid)

theorem disposeCell_moves (hcell : w.broker.cellHeap[i]? = some cell) :
    Moves F (w.view h u)
      (((w.invalidateCell i cell false).1.addSession cell.session).view h u) := by
  obtain ⟨hmark, marked, hmarked, hinvalid, hrefs, hsession⟩ :=
    markInvalid_moves (F := F) (h := h) (u := u) hcell
  rw [view_addSession, ← hsession]
  unfold Work.invalidateCell
  by_cases hgone : cell.refs = 0 ∧ cell.revocation.all RevocationAttempt.finished
  · simp only [Bool.false_eq_true, if_false, if_pos hgone]
    exact hmark.trans (removeCell_moves hmarked (hrefs.trans hgone.1) (.inr (.inl hinvalid))
      (append_singleton_subset _ _))
  · simp only [Bool.false_eq_true, if_false, if_neg hgone]
    refine hmark.tail (Move.queue ((w.markInvalid i cell).view h u) _ fun id hid => ?_)
    rcases List.mem_append.mp hid with hid | hid
    · exact .inl hid
    · exact .inr ⟨i, marked.view, view_cellHeap hmarked, (List.mem_singleton.mp hid).symm,
        .inl hinvalid⟩

theorem invalidateMatching_moves (keep : SessionCell → Bool) (acc : Work × List Nat) :
    Moves F (acc.1.view h u) ((Work.invalidateMatching keep t acc i).1.view h u) := by
  unfold Work.invalidateMatching
  split
  · exact .refl
  case h_2 hcell =>
    split
    · exact .refl
    split
    · split <;> exact .refl
    · split
      · exact holdCell_moves hcell
      · exact disposeCell_moves hcell

theorem invalidateMatchingCells_moves (keep : SessionCell → Bool) :
    Moves F (w.view h u) ((w.invalidateMatchingCells keep t).1.view h u) := by
  have hfold : ∀ (l : List Nat) (acc : Work × List Nat),
      Moves F (acc.1.view h u) ((l.foldl (Work.invalidateMatching keep t) acc).1.view h u) := by
    intro l
    induction l with
    | nil => exact fun acc => .refl
    | cons i l ih => exact fun acc => (invalidateMatching_moves keep acc).trans (ih _)
  exact hfold _ (w, [])

theorem invalidateConnection_moves (key : ConnectionKey) (exclude : Option Nat) :
    Moves F (w.view h u) ((w.invalidateConnection key t exclude).1.view h u) := by
  unfold Work.invalidateConnection
  extract_lets dropped sources flights rotations
  have hview : rotations.view h u = w.view h u := by
    rw [view_cancelRotations, view_cancelSessionFlights, view_cancelSourceFlights, view_dropSources]
  rw [← hview]
  exact invalidateMatchingCells_moves _

/-! ## Room -/

theorem oldest_mem {α : Type} {lastUsed : α → Nat} {rows : List (Nat × α)} {row : Nat × α}
    (hold : oldest lastUsed rows = some row) : row ∈ rows := by
  induction rows generalizing row with
  | nil => simp [oldest] at hold
  | cons first rest ih =>
    unfold oldest at hold
    split at hold
    · cases hold
      exact List.mem_cons_self
    case h_2 hbest =>
      split at hold <;> cases hold
      · exact List.mem_cons_of_mem _ (ih hbest)
      · exact List.mem_cons_self

variable {protect : Option ConnectionKey}

theorem evictable_cell {row : Nat × SessionCell} (hrow : row ∈ b.evictable protect) :
    b.cellHeap[row.1]? = some row.2 ∧ row.2.refs = 0 := by
  obtain ⟨hmem, hfree⟩ := List.mem_filter.mp hrow
  obtain ⟨i, -, hi⟩ := List.mem_filterMap.mp hmem
  obtain ⟨cell, hcell, rfl⟩ := Option.map_eq_some_iff.mp hi
  simp only [Bool.and_eq_true, beq_iff_eq] at hfree
  exact ⟨hcell, hfree.1.1.1⟩

theorem makeSessionRoom_moves {evicted : Option IssuedSession}
    (hroom : w.broker.makeSessionRoom protect = some (b', evicted)) :
    Moves F (w.view h u) (({ w with broker := b' }.evictSession evicted).view h u) := by
  unfold Broker.makeSessionRoom at hroom
  split at hroom
  · cases hroom
    exact .refl
  split at hroom
  · cases hroom
  case h_2 i cell hcell =>
    cases hroom
    obtain ⟨hat, hrefs⟩ := evictable_cell (oldest_mem hcell)
    obtain ⟨hunlink, hat'⟩ := unlinkCell_moves (F := F) (h := h) (u := u) hat
    have hmark := hunlink.tail (invalidate_move (i := i)
      (f := fun cell => { cell with invalid := true, draining := true, canceled := true })
      (fun _ => rfl) hat' (unlinkSession_lookup _))
    refine hmark.trans ?_
    change Moves F _ ((Work.addSession _ cell.session).view h u)
    rw [view_addSession]
    exact retireCell_moves _ _ (getElem?_modifyCell _ hat') hrefs (.inl rfl)
      (append_singleton_subset _ _)

theorem makeSessionRoom_authority {evicted : Option IssuedSession}
    (hroom : b.makeSessionRoom protect = some (b', evicted)) :
    b'.lineages = b.lineages ∧ b'.operations = b.operations := by
  unfold Broker.makeSessionRoom at hroom
  split at hroom
  · cases hroom
    exact ⟨rfl, rfl⟩
  split at hroom
  · cases hroom
  · cases hroom
    rw [recordExpiryEvidence_frame, unlinkSession_frame]
    exact ⟨rfl, rfl⟩

theorem view_makeSourceRoom {evicted : Option Nat}
    (hroom : b.makeSourceRoom protect = some (b', evicted)) : b'.view q h u = b.view q h u := by
  unfold Broker.makeSourceRoom at hroom
  split at hroom
  · cases hroom
    rfl
  · dsimp only at hroom
    split at hroom <;> cases hroom
    rfl

theorem view_evictSource (evicted : Option Nat) :
    (w.evictSource evicted).view h u = w.view h u := by
  cases evicted <;> rfl

/-! ## Handles and authority -/

theorem allocateLease_move (hcell : b.cellHeap[i]? = some cell)
    (hcurrent : b.cellCurrent cell = true) (hearly : b.lastNow ≤ cell.session.useCutoff)
    (hsource : (∃ binding, b.sessions.lookup binding = some i) ∨
      ∃ j ∈ u, ∃ flight, b.sessionFlightHeap[j]? = some flight ∧ flight.cell = some i) :
    Move F (b.view q h u) ((b.allocateLease i).view q h u) := by
  have hmap : (b.cellHeap.modify i fun cell =>
      { cell with refs := cell.refs + 1, lastUsed := b.touch.nextUse }).map SessionCell.view =
        (b.cellHeap.map SessionCell.view).modify i CellView.addRef :=
    map_modify_of_comm (g := SessionCell.view) (k := CellView.addRef) (fun _ => rfl) _ i
  have hsource' : (∃ binding, (b.view q h u).sessions.lookup binding = some i) ∨
      ∃ j ∈ (b.view q h u).waits, ∃ flight, (b.view q h u).flights[j]? = some flight ∧
        flight.cell = some i := by
    refine hsource.imp id fun hwait => ?_
    obtain ⟨j, hj, flight, hflight, hpublished⟩ := hwait
    exact ⟨j, hj, flight.view, by simp [Broker.view, hflight], hpublished⟩
  have hmove : Move F (b.view q h u) _ := Move.grant (b.view q h u) i cell.view
    (view_cellHeap hcell) (cellCurrent_iff.mp hcurrent) hearly hsource'
  have hview : (b.allocateLease i).view q h u = { b.view q h u with
      leases := b.leaseHeap ++ [⟨i, false, false⟩]
      cellHeap := (b.cellHeap.map SessionCell.view).modify i CellView.addRef
      activeLeases := b.activeLeases + 1 } := by
    rw [← hmap]
    rfl
  rwa [hview]

theorem newLease_moves (hnow : b.lastNow = t) (hlease : b.newLease i t = .ok b')
    (hsource : (∃ binding, b.sessions.lookup binding = some i) ∨
      ∃ j ∈ u, ∃ flight, b.sessionFlightHeap[j]? = some flight ∧ flight.cell = some i) :
    Moves F (b.view q h u) (b'.view q h u) := by
  revert hlease
  fun_cases Broker.newLease b i t
  case case5 cell hcell hcurrent hstart =>
    intro hlease
    cases hlease
    have hcurrent : b.cellCurrent cell = true := by simpa using hcurrent
    have hearly := (canStartUse_iff.mp (by simpa using hstart)).2.2
    exact .single (allocateLease_move hcell hcurrent (hnow ▸ hearly) hsource)
  all_goals exact nofun

theorem reserveEpochs_ok {count first : Nat} (hreserve : b.reserveEpochs count = .ok (b', first)) :
    b' = { b with nextEpoch := b.nextEpoch + count } ∧ (count ≠ 0 → first = b.nextEpoch + 1) := by
  unfold Broker.reserveEpochs at hreserve
  split at hreserve
  case isTrue hzero =>
    cases hreserve
    exact ⟨by rw [hzero]; rfl, fun hne => absurd hzero hne⟩
  · split at hreserve <;> cases hreserve
    exact ⟨rfl, fun _ => rfl⟩

theorem addLineage_move {key : ConnectionKey} (hkey : key ∉ b.lineages) (lineage : Lineage)
    (hepoch : lineage.epoch = b.nextEpoch + 1) :
    Move F (b.view q h u) (({ b with
      nextEpoch := b.nextEpoch + 1
      lineages := b.lineages.insert key lineage } : Broker).view q h u) := by
  refine Move.lineage (b.view q h u) key lineage hepoch fun old hold => ?_
  change b.lineages.lookup key = some old at hold
  rw [AList.lookup_eq_none.mpr hkey] at hold
  cases hold

theorem addOperation_move {key : OperationKey} (hkey : key ∉ b.operations)
    (operation : OperationState) (hepoch : operation.epoch = b.nextEpoch + 1) :
    Move F (b.view q h u) (({ b with
      nextEpoch := b.nextEpoch + 1
      operations := b.operations.insert key operation } : Broker).view q h u) := by
  refine Move.operation (b.view q h u) key operation hepoch fun old hold => ?_
  change b.operations.lookup key = some old at hold
  rw [AList.lookup_eq_none.mpr hkey] at hold
  cases hold

theorem checkLineage_generation {request : Request} {lineage : Lineage}
    (hcheck : b.checkLineage request = .ok ())
    (hlineage : b.lineages.lookup (keyForConnection request) = some lineage) :
    lineage.generation = request.connectionGeneration := by
  unfold Broker.checkLineage at hcheck
  rw [hlineage] at hcheck
  dsimp only at hcheck
  split_ifs at hcheck
  omega

theorem prepareRequest_moves {request : Request} (hprepare : b.prepareRequest request = .ok b') :
    Moves F (b.view q h u) (b'.view q h u) ∧ b'.lastNow = b.lastNow ∧
      ∀ lineage, b'.lineages.lookup (keyForConnection request) = some lineage →
        lineage.generation = request.connectionGeneration := by
  unfold Broker.prepareRequest at hprepare
  dsimp only at hprepare
  iterate 3
    split at hprepare
    · cases hprepare
  split at hprepare
  · cases hprepare
  case h_2 hcheck =>
    split at hprepare
    · cases hprepare
    split at hprepare
    · cases hprepare
    case h_2 hreserve =>
      cases hprepare
      obtain ⟨rfl, hfirst⟩ := reserveEpochs_ok hreserve
      refine ⟨?_, rfl, fun lineage hlineage => ?_⟩
      · by_cases hconn : keyForConnection request ∈ b.lineages <;>
          by_cases hop : keyForOperation request ∈ b.operations
        · simp only [if_pos hconn, if_pos hop]
          exact .refl
        · simp only [if_pos hconn, if_neg hop, Nat.zero_add, Nat.add_zero] at hfirst ⊢
          rw [hfirst one_ne_zero]
          exact .single (addOperation_move hop _ rfl)
        · simp only [if_neg hconn, if_pos hop, Nat.add_zero] at hfirst ⊢
          rw [hfirst one_ne_zero]
          exact .single (addLineage_move hconn _ rfl)
        · simp only [if_neg hconn, if_neg hop, Nat.reduceAdd] at hfirst ⊢
          rw [hfirst two_ne_zero]
          exact (Relation.ReflTransGen.single (addLineage_move hconn _ rfl)).tail
            (addOperation_move (b := { b with
              nextEpoch := b.nextEpoch + 1
              lineages := b.lineages.insert _ _ }) hop _ rfl)
      · by_cases hconn : keyForConnection request ∈ b.lineages
        · simp only [if_pos hconn] at hlineage
          exact checkLineage_generation hcheck hlineage
        · simp only [if_neg hconn, AList.lookup_insert, Option.some.injEq] at hlineage
          rw [← hlineage]
          rfl

end Veer.CredentialBroker
