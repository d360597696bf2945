import Veer.BrokerSound

/-!
# Sessions with an open lease

References count the handles that were not taken back, a closed handle is taken back once, a
referenced cell is tracked, and a session that is destroyed or queued belongs to a cell that is
invalid or no longer tracked. What the other goroutines own is the frame of a section.
-/
namespace Veer.CredentialBroker
open Reconcile (ID DigestValue equalDigest)
open ListHeap StepMachine

/-- What the goroutines other than the running one own. -/
structure Frame where
  queue : List Nat
  held : List Nat
  waits : List Nat
  releases : List Nat

variable {F : Nat → Prop} {v v' : View} {R R' : Frame}

def Lease.unreleasedOn (i : Nat) (lease : Lease) : Bool := !lease.released && lease.cell == i

/-! ## Closed handles -/

/-- A handle that was closed and not taken back is owed by one goroutine, any other by none. -/
structure View.Releasing (v : View) (R : Frame) : Prop where
  closed : ∀ (l : Nat) (lease : Lease), v.leases[l]? = some lease → lease.released = true →
    lease.closed = true
  known : ∀ l ∈ v.releases ++ R.releases, l < v.leases.length
  once : ∀ (l : Nat) (lease : Lease), v.leases[l]? = some lease →
    (v.releases ++ R.releases).count l = (lease.closed && !lease.released).toNat

variable {l : Nat} {lease : Lease}

theorem View.Releasing.owed (h : v.Releasing R) (hlease : v.leases[l]? = some lease)
    (howed : l ∈ v.releases) : lease.closed = true ∧ lease.released = false := by
  have hpos : 0 < (v.releases ++ R.releases).count l :=
    List.count_pos_iff.mpr (List.mem_append_left _ howed)
  rw [h.once l lease hlease] at hpos
  have hboth : (lease.closed && !lease.released) = true := by
    by_contra hnot
    rw [Bool.not_eq_true] at hnot
    rw [hnot] at hpos
    exact lt_irrefl 0 hpos
  simpa using hboth

theorem View.Releasing.count_le (h : v.Releasing R) (hlease : v.leases[l]? = some lease) :
    v.releases.count l + R.releases.count l ≤ 1 := by
  have honce := h.once l lease hlease
  rw [List.count_append] at honce
  rw [honce]
  exact Bool.toNat_le _

theorem View.Releasing.known_erase (h : v.Releasing R) (l : Nat) :
    ∀ j ∈ v.releases.erase l ++ R.releases, j < v.leases.length := by
  intro j hj
  refine h.known j (List.mem_append.mpr ?_)
  exact (List.mem_append.mp hj).imp_left List.mem_of_mem_erase

theorem Move.releasing (hmove : Move F v v') (h : v.Releasing R) : v'.Releasing R := by
  cases hmove with
  | grant i =>
    refine ⟨fun l lease hlease hreleased => ?_, fun l hl => ?_, fun l lease hlease => ?_⟩
    · rcases getElem?_concat_eq_some.mp hlease with hold | ⟨-, rfl⟩
      · exact h.closed l lease hold hreleased
      · cases hreleased
    · rw [List.length_append]
      exact Nat.lt_add_right _ (h.known l hl)
    · rcases getElem?_concat_eq_some.mp hlease with hold | ⟨rfl, rfl⟩
      · exact h.once l lease hold
      · exact List.count_eq_zero.mpr fun hmem => lt_irrefl _ (h.known _ hmem)
  | closeHandle l lease at_l opened =>
    refine ⟨fun j found hfound hreleased => ?_, fun j hj => ?_, fun j found hfound => ?_⟩
    · obtain ⟨old, hold, rfl⟩ := getElem?_modify_eq_some.mp hfound
      split_ifs at hreleased ⊢
      · rfl
      · exact h.closed j old hold hreleased
    · rw [List.length_modify]
      rcases List.mem_cons.mp hj with rfl | hj
      · exact (List.getElem?_eq_some_iff.mp at_l).1
      · exact h.known j hj
    · obtain ⟨old, hold, rfl⟩ := getElem?_modify_eq_some.mp hfound
      have honce := h.once j old hold
      by_cases hlj : l = j
      · subst hlj
        cases at_l.symm.trans hold
        have hunreleased : lease.released = false := by
          by_contra hreleased
          have hclosed := h.closed l lease at_l (by simpa using hreleased)
          exact Bool.false_ne_true (opened.symm.trans hclosed)
        rw [opened] at honce
        rw [if_pos rfl, List.cons_append, List.count_cons_self, honce, hunreleased]
        rfl
      · rw [if_neg hlj, List.cons_append, List.count_cons_of_ne hlj, honce]
  | release l lease at_l owed =>
    obtain ⟨hclosed, hunreleased⟩ := h.owed at_l owed
    refine ⟨fun j found hfound hreleased => ?_, fun j hj => ?_, fun j found hfound => ?_⟩
    · obtain ⟨old, hold, rfl⟩ := getElem?_modify_eq_some.mp hfound
      split_ifs at hreleased ⊢ with hlj
      · subst hlj
        cases at_l.symm.trans hold
        exact hclosed
      · exact h.closed j old hold hreleased
    · rw [List.length_modify]
      exact h.known_erase l j hj
    · obtain ⟨old, hold, rfl⟩ := getElem?_modify_eq_some.mp hfound
      rw [List.count_append]
      by_cases hlj : l = j
      · subst hlj
        have hle := h.count_le at_l
        have hpos : 0 < v.releases.count l := List.count_pos_iff.mpr owed
        rw [if_pos rfl, List.count_erase_self, Bool.not_true, Bool.and_false, Bool.toNat_false]
        omega
      · rw [if_neg hlj, List.count_erase_of_ne (Ne.symm hlj), ← List.count_append]
        exact h.once j old hold
  | lost l gone =>
    refine { h with known := h.known_erase l, once := fun j found hfound => ?_ }
    have hjl : j ≠ l := by
      rintro rfl
      cases gone.symm.trans hfound
    rw [List.count_append, List.count_erase_of_ne hjl, ← List.count_append]
    exact h.once j found hfound
  | _ => exact { h with }

/-! ## References -/

/-- The references of a cell are the handles on it that were not taken back. -/
structure View.Counted (v : View) : Prop where
  handles : ∀ lease ∈ v.leases, lease.cell < v.cellHeap.length
  refs : ∀ (i : Nat) (cell : CellView), v.cellHeap[i]? = some cell →
    cell.refs = v.leases.countP (Lease.unreleasedOn i)
  active : v.activeLeases = v.leases.countP fun lease => !lease.released

variable {f : CellView → CellView}

theorem View.Counted.modify (h : v.Counted) (i : Nat) (hf : ∀ cell, (f cell).refs = cell.refs) :
    View.Counted { v with cellHeap := v.cellHeap.modify i f } := by
  refine ⟨fun lease hlease => ?_, fun j cell' hcell' => ?_, h.active⟩
  · rw [List.length_modify]
    exact h.handles lease hlease
  · obtain ⟨cell, hcell, rfl⟩ := getElem?_modify_eq_some.mp hcell'
    have hrefs := h.refs j cell hcell
    split_ifs
    · rwa [hf]
    · exact hrefs

theorem Move.counted (hmove : Move F v v') (hreleasing : v.Releasing R) (h : v.Counted) :
    v'.Counted := by
  cases hmove with
  | invalidate i | revoke i | drain i => exact h.modify i fun _ => rfl
  | addCell cell owned kept fresh =>
    refine ⟨fun lease hlease => ?_, fun j found hfound => ?_, h.active⟩
    · rw [List.length_append]
      exact Nat.lt_add_right _ (h.handles lease hlease)
    · rcases getElem?_concat_eq_some.mp hfound with hold | ⟨rfl, rfl⟩
      · exact h.refs j found hold
      · -- no handle points to the place of the new cell
        rw [fresh.refs, eq_comm, List.countP_eq_zero]
        intro lease hlease hon
        have hlt := h.handles lease hlease
        have heq : lease.cell = v.cellHeap.length := by
          simpa [Lease.unreleasedOn] using (Bool.and_eq_true_iff.mp hon).2
        omega
  | grant i cell at_i =>
    refine ⟨?_, fun j found hfound => ?_, ?_⟩
    · rw [List.length_modify]
      have hi : i < v.cellHeap.length := (List.getElem?_eq_some_iff.mp at_i).1
      exact List.forall_mem_append.mpr ⟨h.handles, List.forall_mem_singleton.mpr hi⟩
    · obtain ⟨old, hold, rfl⟩ := getElem?_modify_eq_some.mp hfound
      have hrefs := h.refs j old hold
      rw [List.countP_append, ← hrefs]
      by_cases hij : i = j
      · simp [hij, Lease.unreleasedOn, CellView.addRef]
      · simp [hij, Lease.unreleasedOn]
    · rw [List.countP_append, ← h.active]
      rfl
  | closeHandle l =>
    have hsame : ∀ p : Lease → Bool, (∀ lease, p { lease with closed := true } = p lease) →
        (v.leases.modify l fun lease => { lease with closed := true }).countP p =
          v.leases.countP p := fun p hp => countP_modify_of_eq hp v.leases l
    exact ⟨forall_mem_modify h.handles fun lease hlease => hlease,
      fun j found hfound => (h.refs j found hfound).trans (hsame _ fun _ => rfl).symm,
      h.active.trans (hsame _ fun _ => rfl).symm⟩
  | release l lease at_l owed =>
    obtain ⟨-, hunreleased⟩ := hreleasing.owed at_l owed
    refine ⟨?_, fun j found hfound => ?_, ?_⟩
    · rw [List.length_modify]
      exact forall_mem_modify h.handles fun lease hlease => hlease
    · obtain ⟨old, hold, rfl⟩ := getElem?_modify_eq_some.mp hfound
      have hrefs := h.refs j old hold
      have hcount := countP_modify (p := Lease.unreleasedOn j)
        (f := fun lease => { lease with released := true }) at_l
      have hreleased : Lease.unreleasedOn j { lease with released := true } = false := rfl
      rw [hreleased] at hcount
      change _ = (v.leases.modify l fun lease => { lease with released := true }).countP _
      by_cases hij : lease.cell = j
      · have hon : Lease.unreleasedOn j lease = true := by simp [Lease.unreleasedOn, hunreleased, hij]
        rw [if_pos hij]
        simp only [hon, Bool.toNat_true, Bool.toNat_false] at hcount
        simp only [CellView.dropRef]
        omega
      · have hoff : Lease.unreleasedOn j lease = false := by simp [Lease.unreleasedOn, hij]
        rw [if_neg hij]
        simp only [hoff, Bool.toNat_false] at hcount
        omega
    · have hcount := countP_modify (p := fun lease : Lease => !lease.released)
        (f := fun lease => { lease with released := true }) at_l
      have hactive := h.active
      simp only [hunreleased, Bool.not_false, Bool.toNat_true, Bool.not_true,
        Bool.toNat_false, Nat.add_zero] at hcount
      change v.activeLeases - 1 =
        (v.leases.modify l fun lease => { lease with released := true }).countP _
      omega
  | _ => exact { h with }

variable {cell : CellView}

/-! ## Revoked cells -/

theorem revoking_modify (h : ∀ cell ∈ v.cellHeap, cell.revoking = true → cell.invalid = true)
    (i : Nat) (hf : ∀ cell, v.cellHeap[i]? = some cell →
      (cell.revoking = true → cell.invalid = true) → (f cell).revoking = true →
      (f cell).invalid = true) :
    ∀ cell ∈ v.cellHeap.modify i f, cell.revoking = true → cell.invalid = true := by
  intro cell' hcell'
  obtain ⟨j, hj⟩ := List.mem_iff_getElem?.mp hcell'
  obtain ⟨cell, hcell, rfl⟩ := getElem?_modify_eq_some.mp hj
  have hold := h cell (List.mem_of_getElem? hcell)
  split_ifs with hij
  · subst hij
    exact hf cell hcell hold
  · exact hold

theorem Move.revoking (hmove : Move F v v')
    (h : ∀ cell ∈ v.cellHeap, cell.revoking = true → cell.invalid = true) :
    ∀ cell ∈ v'.cellHeap, cell.revoking = true → cell.invalid = true := by
  cases hmove with
  | invalidate i => exact revoking_modify h i fun _ _ _ _ => rfl
  | revoke i cell at_i invalid =>
    refine revoking_modify h i fun found hfound _ _ => ?_
    cases at_i.symm.trans hfound
    exact invalid
  | drain i => exact revoking_modify h i fun _ _ hold => hold
  | addCell cell owned kept fresh =>
    refine List.forall_mem_append.mpr ⟨h, List.forall_mem_singleton.mpr fun hrevoking => ?_⟩
    exact (Bool.false_ne_true (fresh.unrevoked.symm.trans hrevoking)).elim
  | grant i => exact revoking_modify h i fun _ _ hold => hold
  | release l lease => exact revoking_modify h lease.cell fun _ _ hold => hold
  | _ => exact h

/-! ## Owned sessions -/

/-- The session belongs to a cell that serves nobody any more. -/
def View.Gone (v : View) (id : Nat) : Prop :=
  ∃ (i : Nat) (cell : CellView), v.cellHeap[i]? = some cell ∧ cell.session.id = id ∧
    (cell.invalid = true ∨ i ∉ v.cells)

/-- Every session has one owner: a cell, or the goroutine that holds it. -/
structure View.Owned (v : View) (R : Frame) : Prop where
  unique : ∀ (i j : Nat) (cell cell' : CellView), v.cellHeap[i]? = some cell →
    v.cellHeap[j]? = some cell' → cell.session.id = cell'.session.id → i = j
  issued : ∀ cell ∈ v.cellHeap, cell.session.id < v.issued
  queued : ∀ id ∈ v.queue ++ R.queue, v.Gone id
  destroyed : ∀ id ∈ v.destroyed, id < v.issued ∧ ∀ (i : Nat) (cell : CellView),
    v.cellHeap[i]? = some cell → cell.session.id = id → cell.invalid = true ∨ i ∉ v.cells
  held : ∀ id ∈ v.held.toList ++ R.held, id < v.issued ∧ ∀ cell ∈ v.cellHeap, cell.session.id ≠ id
  sole : (v.held.toList ++ R.held).Nodup

theorem View.Owned.ended (h : v.Owned R) {id : Nat} (hgone : v.Gone id) {i : Nat}
    (hcell : v.cellHeap[i]? = some cell) (hid : cell.session.id = id) :
    cell.invalid = true ∨ i ∉ v.cells := by
  obtain ⟨j, found, hfound, hfoundId, hended⟩ := hgone
  obtain rfl := h.unique i j cell found hcell hfound (hid.trans hfoundId.symm)
  cases hcell.symm.trans hfound
  exact hended

/-- The session of a valid, tracked cell is neither destroyed nor queued. -/
theorem View.Owned.kept (h : v.Owned R) {i : Nat} (hcell : v.cellHeap[i]? = some cell)
    (hvalid : cell.invalid = false) (htracked : i ∈ v.cells) :
    cell.session.id ∉ v.destroyed ∧ cell.session.id ∉ v.queue ++ R.queue := by
  have hserving : ¬ (cell.invalid = true ∨ i ∉ v.cells) := by
    rintro (hinvalid | hout)
    · exact Bool.false_ne_true (hvalid.symm.trans hinvalid)
    · exact hout htracked
  exact ⟨fun hdestroyed => hserving ((h.destroyed _ hdestroyed).2 i cell hcell rfl),
    fun hqueued => hserving (h.ended (h.queued _ hqueued) hcell rfl)⟩

theorem View.Owned.modify (h : v.Owned R) (i : Nat) (hf : ∀ cell : CellView, cell.Keeps (f cell)) :
    View.Owned { v with cellHeap := v.cellHeap.modify i f } R := by
  have hback : ∀ (j : Nat) (cell' : CellView), (v.cellHeap.modify i f)[j]? = some cell' →
      ∃ cell : CellView, v.cellHeap[j]? = some cell ∧ cell.Keeps cell' := by
    intro j cell' hcell'
    obtain ⟨cell, hcell, rfl⟩ := getElem?_modify_eq_some.mp hcell'
    refine ⟨cell, hcell, ?_⟩
    split_ifs
    · exact hf cell
    · exact .refl cell
  refine ⟨?_, ?_, ?_, ?_, ?_, h.sole⟩
  · intro j k cell cell' hcell hcell' hid
    obtain ⟨old, hold, hkeeps⟩ := hback j cell hcell
    obtain ⟨old', hold', hkeeps'⟩ := hback k cell' hcell'
    rw [hkeeps.session, hkeeps'.session] at hid
    exact h.unique j k old old' hold hold' hid
  · intro cell' hcell'
    obtain ⟨j, hj⟩ := List.mem_iff_getElem?.mp hcell'
    obtain ⟨cell, hcell, hkeeps⟩ := hback j cell' hj
    rw [hkeeps.session]
    exact h.issued cell (List.mem_of_getElem? hcell)
  · intro id hid
    obtain ⟨j, cell, hcell, hcellId, hended⟩ := h.queued id hid
    refine ⟨j, if i = j then f cell else cell, getElem?_modify_eq_some.mpr ⟨cell, hcell, rfl⟩, ?_⟩
    split_ifs
    · rw [(hf cell).session]
      exact ⟨hcellId, hended.imp_left (hf cell).invalid⟩
    · exact ⟨hcellId, hended⟩
  · intro id hid
    obtain ⟨hissued, hended⟩ := h.destroyed id hid
    refine ⟨hissued, fun j cell' hcell' hcellId => ?_⟩
    obtain ⟨cell, hcell, hkeeps⟩ := hback j cell' hcell'
    rw [hkeeps.session] at hcellId
    exact (hended j cell hcell hcellId).imp_left hkeeps.invalid
  · intro id hid
    obtain ⟨hissued, hforeign⟩ := h.held id hid
    refine ⟨hissued, fun cell' hcell' => ?_⟩
    obtain ⟨j, hj⟩ := List.mem_iff_getElem?.mp hcell'
    obtain ⟨cell, hcell, hkeeps⟩ := hback j cell' hj
    rw [hkeeps.session]
    exact hforeign cell (List.mem_of_getElem? hcell)

theorem View.Owned.addCell (h : v.Owned R) (owned : v.held = some cell.session.id)
    (kept : cell.session.id ∉ v.destroyed) (sessions : AList fun _ : DigestValue => Nat) :
    View.Owned { v with
      held := none
      cellHeap := v.cellHeap ++ [cell]
      sessions := sessions
      cells := v.cells ++ [v.cellHeap.length] } R := by
  have hmem : cell.session.id ∈ v.held.toList ++ R.held := by simp [owned]
  obtain ⟨hissued, hforeign⟩ := h.held _ hmem
  have hunused : ∀ (j : Nat) (found : CellView), v.cellHeap[j]? = some found →
      found.session.id ≠ cell.session.id := fun j found hfound =>
    hforeign found (List.mem_of_getElem? hfound)
  have hended : ∀ (j : Nat) (found : CellView), v.cellHeap[j]? = some found →
      (found.invalid = true ∨ j ∉ v.cells) →
      found.invalid = true ∨ j ∉ v.cells ++ [v.cellHeap.length] := by
    intro j found hfound hended
    have hlt := (List.getElem?_eq_some_iff.mp hfound).1
    refine hended.imp_right fun hout hin => ?_
    rcases List.mem_append.mp hin with hin | hin
    · exact hout hin
    · exact hlt.ne (List.mem_singleton.mp hin)
  have hnodup := h.sole
  rw [owned] at hnodup
  have hnodup : (cell.session.id :: R.held).Nodup := hnodup
  refine ⟨?_, List.forall_mem_append.mpr ⟨h.issued, List.forall_mem_singleton.mpr hissued⟩, ?_, ?_,
    ?_, hnodup.of_cons⟩
  · intro i j left right hleft hright hid
    rcases getElem?_concat_eq_some.mp hleft with holdLeft | ⟨rfl, rfl⟩
    · rcases getElem?_concat_eq_some.mp hright with holdRight | ⟨rfl, rfl⟩
      · exact h.unique i j left right holdLeft holdRight hid
      · exact (hunused i left holdLeft hid).elim
    · rcases getElem?_concat_eq_some.mp hright with holdRight | ⟨rfl, -⟩
      · exact (hunused j right holdRight hid.symm).elim
      · rfl
  · intro id hid
    obtain ⟨j, found, hfound, hfoundId, hgone⟩ := h.queued id hid
    exact ⟨j, found, getElem?_concat_eq_some.mpr (.inl hfound), hfoundId, hended j found hfound hgone⟩
  · intro id hid
    obtain ⟨hlt, hgone⟩ := h.destroyed id hid
    refine ⟨hlt, fun j found hfound hfoundId => ?_⟩
    rcases getElem?_concat_eq_some.mp hfound with hold | ⟨rfl, rfl⟩
    · exact hended j found hold (hgone j found hold hfoundId)
    · exact (kept (hfoundId ▸ hid)).elim
  · intro id hid
    obtain ⟨hlt, hother⟩ := h.held id (List.mem_append_right _ hid)
    refine ⟨hlt, List.forall_mem_append.mpr ⟨hother, List.forall_mem_singleton.mpr fun heq => ?_⟩⟩
    exact (List.nodup_cons.mp hnodup).1 (heq ▸ hid)

theorem Move.owned (hmove : Move F v v')
    (hrevoking : ∀ cell ∈ v.cellHeap, cell.revoking = true → cell.invalid = true) (h : v.Owned R) :
    v'.Owned R := by
  cases hmove with
  | invalidate i => exact h.modify i CellView.keeps_invalidate
  | revoke i => exact h.modify i CellView.keeps_revoke
  | drain i => exact h.modify i CellView.keeps_drain
  | drop i =>
    have hended : ∀ (j : Nat) (found : CellView), (found.invalid = true ∨ j ∉ v.cells) →
        found.invalid = true ∨ j ∉ v.cells.filter (· ≠ i) := fun j found hgone =>
      hgone.imp_right fun hout hin => hout (List.mem_of_mem_filter hin)
    refine { h with queued := fun id hid => ?_, destroyed := fun id hid => ?_ }
    · obtain ⟨j, found, hfound, hfoundId, hgone⟩ := h.queued id hid
      exact ⟨j, found, hfound, hfoundId, hended j found hgone⟩
    · obtain ⟨hlt, hgone⟩ := h.destroyed id hid
      exact ⟨hlt, fun j found hfound hfoundId => hended j found (hgone j found hfound hfoundId)⟩
  | queue ids owed =>
    refine { h with queued := fun id hid => ?_ }
    rcases List.mem_append.mp hid with hid | hid
    · rcases owed id hid with hold | hgone
      · exact h.queued id (List.mem_append_left _ hold)
      · exact hgone
    · exact h.queued id (List.mem_append_right _ hid)
  | destroy id owned =>
    refine { h with destroyed := fun id' hid' => ?_ }
    rcases List.mem_cons.mp hid' with rfl | hid'
    · rcases owned with hqueue | hheld | ⟨cell, hcell, rfl, hrevoked⟩
      · have hgone := h.queued id' (List.mem_append_left _ hqueue)
        obtain ⟨i, cell, hcell, rfl, -⟩ := hgone
        exact ⟨h.issued cell (List.mem_of_getElem? hcell), fun j found hfound hid =>
          h.ended (h.queued _ (List.mem_append_left _ hqueue)) hfound hid⟩
      · obtain ⟨hlt, hforeign⟩ := h.held id' (List.mem_append_left _ (by simp [hheld]))
        exact ⟨hlt, fun j found hfound hid =>
          (hforeign found (List.mem_of_getElem? hfound) hid).elim⟩
      · refine ⟨h.issued cell hcell, fun j found hfound hid => .inl ?_⟩
        obtain ⟨i, hi⟩ := List.mem_iff_getElem?.mp hcell
        obtain rfl := h.unique j i found cell hfound hi hid
        obtain rfl := Option.some.inj (hfound.symm.trans hi)
        exact hrevoking found hcell hrevoked
    · exact h.destroyed id' hid'
  | forget =>
    have hsub : R.held.Sublist (v.held.toList ++ R.held) := List.sublist_append_right _ _
    exact { h with
      held := fun id hid => h.held id (List.mem_append_right _ hid)
      sole := h.sole.sublist hsub }
  | issue =>
    refine { h with
      issued := fun cell hcell => (h.issued cell hcell).trans (Nat.lt_succ_self _)
      destroyed := fun id hid => ⟨(h.destroyed id hid).1.trans (Nat.lt_succ_self _),
        (h.destroyed id hid).2⟩
      held := fun id hid => ?_
      sole := ?_ }
    · rcases List.mem_cons.mp hid with rfl | hid
      · exact ⟨Nat.lt_succ_self _, fun cell hcell => (h.issued cell hcell).ne⟩
      · obtain ⟨hlt, hforeign⟩ := h.held id (List.mem_append_right _ hid)
        exact ⟨hlt.trans (Nat.lt_succ_self _), hforeign⟩
    · have hsub : R.held.Sublist (v.held.toList ++ R.held) := List.sublist_append_right _ _
      refine List.nodup_cons.mpr ⟨fun hmem => ?_, h.sole.sublist hsub⟩
      exact lt_irrefl _ (h.held v.issued (List.mem_append_right _ hmem)).1
  | addCell cell owned kept => exact h.addCell owned kept _
  | grant i =>
    exact { h.modify i CellView.keeps_addRef with }
  | release l lease =>
    exact { h.modify lease.cell CellView.keeps_dropRef with }
  | _ => exact { h with }

/-! ## The index -/

/-- The entry leads to a valid cell of its binding that is tracked and serving, unless the time of
its session is up. -/
def View.Leads (v : View) (binding : DigestValue) (i : Nat) : Prop :=
  ∃ cell : CellView, v.cellHeap[i]? = some cell ∧ cell.request.bindingDigest = binding ∧
    cell.invalid = false ∧
      (i ∈ v.cells ∧ cell.draining = false ∨ cell.session.useCutoff < v.lastNow)

structure View.Linked (v : View) (R : Frame) : Prop where
  revoking : ∀ cell ∈ v.cellHeap, cell.revoking = true → cell.invalid = true
  formed : ∀ cell ∈ v.cellHeap, cell.session.WellFormed
  owned : v.Owned R
  leads : ∀ binding i, v.sessions.lookup binding = some i → v.Leads binding i

variable {binding : DigestValue} {i : Nat}

theorem View.Leads.sound (h : v.Leads binding i) : v.Sound i := by
  obtain ⟨cell, hcell, -, -, hserves⟩ := h
  intro found hfound
  cases hcell.symm.trans hfound
  exact hserves.imp_right .inr

theorem View.Leads.modify (h : v.Leads binding i) (j : Nat)
    (hf : ∀ cell : CellView, (f cell).request = cell.request ∧ (f cell).session = cell.session ∧
      (f cell).invalid = cell.invalid ∧ (f cell).draining = cell.draining) :
    View.Leads { v with cellHeap := v.cellHeap.modify j f } binding i := by
  obtain ⟨cell, hcell, hrest⟩ := h
  obtain ⟨hrequest, hsession, hinvalid, hdraining⟩ := hf cell
  refine ⟨if j = i then f cell else cell, getElem?_modify_eq_some.mpr ⟨cell, hcell, rfl⟩, ?_⟩
  split_ifs
  · rwa [hrequest, hsession, hinvalid, hdraining]
  · exact hrest

/-- A linked cell is drained only when its time is up: its session is well formed and, as long as
the cell is tracked, not destroyed. -/
theorem View.Linked.late (h : v.Linked R) (hlookup : v.sessions.lookup binding = some i)
    (hcell : v.cellHeap[i]? = some cell) (huseless : v.Spent cell ∨
      v.sessions.lookup cell.request.bindingDigest ≠ some i ∧ (v.Dead cell ∨ F i)) :
    cell.session.useCutoff < v.lastNow := by
  obtain ⟨found, hfound, hbinding, hvalid, hserves⟩ := h.leads binding i hlookup
  cases hcell.symm.trans hfound
  rcases hserves with ⟨htracked, -⟩ | hlate
  · rcases huseless with hspent | ⟨hunlinked, -⟩
    · have hformed := h.formed cell (List.mem_of_getElem? hcell)
      exact hspent hformed (h.owned.kept hcell hvalid htracked).1
    · rw [hbinding] at hunlinked
      exact absurd hlookup hunlinked
  · exact hlate

theorem Move.leads (hmove : Move F v v') (h : v.Linked R)
    (hlookup : v.sessions.lookup binding = some i) : v'.Leads binding i := by
  have hleads := h.leads binding i hlookup
  cases hmove with
  | observe now later =>
    obtain ⟨cell, hcell, hbinding, hvalid, hserves⟩ := hleads
    exact ⟨cell, hcell, hbinding, hvalid, hserves.imp_right fun hlate => hlate.trans_le later⟩
  | invalidate j cell at_j unlinked =>
    obtain ⟨found, hfound, hbinding, hrest⟩ := hleads
    have hij : j ≠ i := by
      rintro rfl
      cases at_j.symm.trans hfound
      exact unlinked (hbinding ▸ hlookup)
    exact ⟨found, getElem?_modify_eq_some.mpr ⟨found, hfound, if_neg hij⟩, hbinding, hrest⟩
  | revoke j => exact hleads.modify j fun _ => ⟨rfl, rfl, rfl, rfl⟩
  | drain j cell at_j useless =>
    obtain ⟨found, hfound, hbinding, hvalid, hserves⟩ := hleads
    by_cases hij : j = i
    · subst hij
      cases at_j.symm.trans hfound
      have hlate := h.late hlookup at_j useless
      exact ⟨cell.drain, getElem?_modify_eq_some.mpr ⟨cell, at_j, if_pos rfl⟩, hbinding, hvalid,
        .inr hlate⟩
    · exact ⟨found, getElem?_modify_eq_some.mpr ⟨found, hfound, if_neg hij⟩, hbinding, hvalid,
        hserves⟩
  | drop j cell at_j unused ended =>
    obtain ⟨found, hfound, hbinding, hvalid, hserves⟩ := hleads
    refine ⟨found, hfound, hbinding, hvalid, hserves.imp_left fun hserving => ?_⟩
    have hij : i ≠ j := by
      rintro rfl
      cases at_j.symm.trans hfound
      -- a serving, valid cell has not ended
      rcases ended with hdraining | hinvalid | hrevoked
      · exact Bool.false_ne_true (hserving.2.symm.trans hdraining)
      · exact Bool.false_ne_true (hvalid.symm.trans hinvalid)
      · have hinvalid := h.revoking cell (List.mem_of_getElem? at_j) hrevoked
        exact Bool.false_ne_true (hvalid.symm.trans hinvalid)
    exact ⟨List.mem_filter.mpr ⟨hserving.1, by simpa using hij⟩, hserving.2⟩
  | addCell cell =>
    obtain ⟨found, hfound, hbinding, hvalid, hserves⟩ := hleads
    exact ⟨found, getElem?_concat_eq_some.mpr (.inl hfound), hbinding, hvalid,
      hserves.imp_left fun hserving => ⟨List.mem_append_left _ hserving.1, hserving.2⟩⟩
  | grant j => exact hleads.modify j (f := CellView.addRef) fun _ => ⟨rfl, rfl, rfl, rfl⟩
  | release l lease =>
    exact hleads.modify lease.cell (f := CellView.dropRef) fun _ => ⟨rfl, rfl, rfl, rfl⟩
  | _ => exact hleads

theorem Move.formed (hmove : Move F v v') (h : ∀ cell ∈ v.cellHeap, cell.session.WellFormed) :
    ∀ cell ∈ v'.cellHeap, cell.session.WellFormed := by
  cases hmove with
  | invalidate | revoke | drain | grant | release =>
    exact forall_mem_modify h fun cell hcell => hcell
  | addCell cell owned kept fresh =>
    exact List.forall_mem_append.mpr ⟨h, List.forall_mem_singleton.mpr fresh.formed⟩
  | _ => exact h

theorem Move.linked (hmove : Move F v v') (h : v.Linked R) : v'.Linked R := by
  refine ⟨hmove.revoking h.revoking, hmove.formed h.formed, hmove.owned h.revoking h.owned, ?_⟩
  have hleads : ∀ binding i, v.sessions.lookup binding = some i → v'.Leads binding i :=
    fun binding i hlookup => hmove.leads h hlookup
  cases hmove with
  | unlink =>
    exact fun binding i hlookup => hleads binding i (lookup_erase_eq_some.mp hlookup).2
  | addCell cell owned kept fresh =>
    intro binding i hlookup
    rcases lookup_insert_eq_some.mp hlookup with ⟨rfl, rfl⟩ | ⟨-, hlookup⟩
    · exact ⟨cell, getElem?_concat_eq_some.mpr (.inr ⟨rfl, rfl⟩), rfl, fresh.valid,
        .inl ⟨List.mem_append_right _ (List.mem_singleton_self _), fresh.serving⟩⟩
    · exact hleads binding i hlookup
  | _ => exact hleads

/-! ## Awaited cells -/

/-- The cells that a handle can be given out on through a flight that some goroutine waits for. -/
structure View.Reachable (v : View) (R : Frame) (F : Nat → Prop) : Prop where
  pending : ∀ binding i, v.pending.lookup binding = some i → ∃ flight : FlightView,
    v.flights[i]? = some flight ∧ flight.cell = none ∧ flight.request.bindingDigest = binding
  waited : ∀ j ∈ v.waits ++ R.waits, ∀ (flight : FlightView) (c : Nat),
    v.flights[j]? = some flight → flight.cell = some c → v.Sound c ∧ ¬ F c

theorem View.Sound.tracked {i : Nat} (hsound : v.Sound i) (hcell : v.cellHeap[i]? = some cell)
    (hcurrent : v.Current cell) (hearly : v.lastNow ≤ cell.session.useCutoff) : i ∈ v.cells := by
  rcases hsound cell hcell with hserving | hdead | hlate
  · exact hserving.1
  · exact (hdead hcurrent).elim
  · omega

theorem Move.reachable (hmove : Move F v v') (hordered : v.Ordered) (hlinked : v.Linked R)
    (h : v.Reachable R F) : v'.Reachable R F := by
  have hwaited : ∀ j ∈ v.waits ++ R.waits, ∀ (flight : FlightView) (c : Nat),
      v.flights[j]? = some flight → flight.cell = some c → v'.Sound c ∧ ¬ F c := by
    intro j hj flight c hflight hc
    obtain ⟨hsound, hbound⟩ := h.waited j hj flight c hflight hc
    exact ⟨hmove.sound hordered hlinked.revoking hbound hsound, hbound⟩
  cases hmove with
  | addFlight flight unpublished =>
    refine ⟨fun binding i hlookup => ?_, fun j hj found c hfound hc => ?_⟩
    · rcases lookup_insert_eq_some.mp hlookup with ⟨rfl, rfl⟩ | ⟨-, hlookup⟩
      · exact ⟨flight, getElem?_concat_eq_some.mpr (.inr ⟨rfl, rfl⟩), unpublished, rfl⟩
      · obtain ⟨found, hfound, hrest⟩ := h.pending binding i hlookup
        exact ⟨found, getElem?_concat_eq_some.mpr (.inl hfound), hrest⟩
    · rcases getElem?_concat_eq_some.mp hfound with hold | ⟨rfl, rfl⟩
      · refine hwaited j ?_ found c hold hc
        have hlt := (List.getElem?_eq_some_iff.mp hold).1
        rcases List.mem_cons.mp hj with rfl | hj
        · exact (lt_irrefl _ hlt).elim
        · exact hj
      · rw [unpublished] at hc
        cases hc
  | join waits pending =>
    refine ⟨h.pending, fun j hj flight c hflight hc => ?_⟩
    rcases List.mem_append.mp hj with hj | hj
    · rcases pending j hj with hwait | ⟨binding, hlookup⟩
      · exact hwaited j (List.mem_append_left _ hwait) flight c hflight hc
      · obtain ⟨found, hfound, hnone, -⟩ := h.pending binding j hlookup
        cases hfound.symm.trans hflight
        rw [hnone] at hc
        cases hc
    · exact hwaited j (List.mem_append_right _ hj) flight c hflight hc
  | publish i c flight cell at_i at_c tracked serving bound =>
    refine ⟨fun binding j hlookup => ?_, fun j hj found c' hfound hc => ?_⟩
    · -- the published flight was pending under its own binding only
      have hown : ∀ binding, v.pending.lookup binding = some i →
          binding = flight.request.bindingDigest := by
        intro binding hlookup
        obtain ⟨found, hfound, -, hbinding⟩ := h.pending binding i hlookup
        cases at_i.symm.trans hfound
        exact hbinding.symm
      have hold : v.pending.lookup binding = some j ∧ j ≠ i := by
        split_ifs at hlookup with hpending
        · obtain ⟨hne, hlookup⟩ := lookup_erase_eq_some.mp hlookup
          exact ⟨hlookup, fun hij => hne (hown binding (hij ▸ hlookup))⟩
        · refine ⟨hlookup, fun hij => hpending ?_⟩
          rw [← hown binding (hij ▸ hlookup), hlookup, hij]
      obtain ⟨found, hfound, hrest⟩ := h.pending binding j hold.1
      exact ⟨found, getElem?_modify_eq_some.mpr ⟨found, hfound, if_neg hold.2.symm⟩, hrest⟩
    · obtain ⟨old, hold, rfl⟩ := getElem?_modify_eq_some.mp hfound
      by_cases hij : i = j
      · rw [if_pos hij] at hc
        cases hc
        refine ⟨View.sound_of_tracked tracked fun found hfound => ?_, bound⟩
        cases at_c.symm.trans hfound
        exact serving
      · rw [if_neg hij] at hc
        exact hwaited j hj old c' hold hc
  | forgetFlight =>
    exact ⟨fun binding' i hlookup => h.pending binding' i (lookup_erase_eq_some.mp hlookup).2,
      hwaited⟩
  | _ => exact ⟨h.pending, hwaited⟩

/-! ## Tracked cells -/

structure View.Tracked (v : View) : Prop where
  bound : ∀ i ∈ v.cells, i < v.cellHeap.length
  nodup : v.cells.Nodup
  referenced : ∀ (i : Nat) (cell : CellView), v.cellHeap[i]? = some cell → cell.refs ≠ 0 →
    i ∈ v.cells

theorem View.Tracked.modify (h : v.Tracked) (i : Nat)
    (hf : ∀ cell, v.cellHeap[i]? = some cell → (f cell).refs ≠ 0 → cell.refs ≠ 0 ∨ i ∈ v.cells) :
    View.Tracked { v with cellHeap := v.cellHeap.modify i f } := by
  refine ⟨fun j hj => ?_, h.nodup, fun j cell' hcell' hrefs => ?_⟩
  · rw [List.length_modify]
    exact h.bound j hj
  · obtain ⟨cell, hcell, rfl⟩ := getElem?_modify_eq_some.mp hcell'
    split_ifs at hrefs with hij
    · subst hij
      exact (hf cell hcell hrefs).elim (h.referenced i cell hcell) id
    · exact h.referenced j cell hcell hrefs

theorem Move.tracked (hmove : Move F v v') (hlinked : v.Linked R) (hreach : v.Reachable R F)
    (h : v.Tracked) : v'.Tracked := by
  cases hmove with
  | invalidate i | revoke i | drain i => exact h.modify i fun _ _ hrefs => .inl hrefs
  | drop i cell at_i unused =>
    refine ⟨fun j hj => h.bound j (List.mem_of_mem_filter hj), h.nodup.filter _,
      fun j found hfound hrefs => ?_⟩
    refine List.mem_filter.mpr ⟨h.referenced j found hfound hrefs, ?_⟩
    have hij : j ≠ i := by
      rintro rfl
      cases at_i.symm.trans hfound
      exact hrefs unused
    simpa using hij
  | addCell cell owned kept fresh =>
    refine ⟨?_, ?_, fun j found hfound hrefs => ?_⟩
    · rw [List.length_append]
      exact List.forall_mem_append.mpr ⟨fun j hj => Nat.lt_add_right _ (h.bound j hj),
        List.forall_mem_singleton.mpr (Nat.lt_add_of_pos_right Nat.one_pos)⟩
    · refine List.nodup_append.mpr ⟨h.nodup, List.nodup_singleton _, fun j hj k hk => ?_⟩
      obtain rfl := List.mem_singleton.mp hk
      exact (h.bound j hj).ne
    · rcases getElem?_concat_eq_some.mp hfound with hold | ⟨rfl, rfl⟩
      · exact List.mem_append_left _ (h.referenced j found hold hrefs)
      · exact (hrefs fresh.refs).elim
  | grant i cell at_i current early source =>
    have hsound : v.Sound i := by
      rcases source with ⟨binding, hlookup⟩ | ⟨j, hj, flight, hflight, hc⟩
      · exact (hlinked.leads binding i hlookup).sound
      · exact (hreach.waited j (List.mem_append_left _ hj) flight i hflight hc).1
    have htracked : i ∈ v.cells := hsound.tracked at_i current early
    exact { h.modify i (f := CellView.addRef) fun _ _ _ => .inr htracked with }
  | release l lease =>
    refine { h.modify lease.cell (f := CellView.dropRef) fun cell _ hrefs => .inl ?_ with }
    intro hzero
    exact hrefs (by simp [CellView.dropRef, hzero])
  | _ => exact { h with }

/-! ## The invariant of the session store -/

/-- What holds in every run: the index, the pending releases and the references. -/
structure View.Accounted (v : View) (R : Frame) : Prop where
  linked : v.Linked R
  releasing : v.Releasing R
  counted : v.Counted

theorem Move.accounted (hmove : Move F v v') (h : v.Accounted R) : v'.Accounted R :=
  ⟨hmove.linked h.linked, hmove.releasing h.releasing, hmove.counted h.releasing h.counted⟩

structure View.Safe (v : View) (R : Frame) (F : Nat → Prop) : Prop where
  ordered : v.Ordered
  accounted : v.Accounted R
  reachable : v.Reachable R F
  tracked : v.Tracked

/-- The step lemma of the store. -/
theorem Move.safe (hmove : Move F v v') (h : v.Safe R F) : v'.Safe R F :=
  ⟨hmove.ordered h.ordered, hmove.accounted h.accounted,
    hmove.reachable h.ordered h.accounted.linked h.reachable,
    hmove.tracked h.accounted.linked h.reachable h.tracked⟩

/-- What every move keeps is kept by a sequence of them. -/
theorem Moves.keep {P : View → Prop} (hmove : ∀ v v', Move F v v' → P v → P v')
    (hmoves : Moves F v v') (h : P v) : P v' := by
  induction hmoves with
  | refl => exact h
  | tail _ hstep ih => exact hmove _ _ hstep ih

end Veer.CredentialBroker
