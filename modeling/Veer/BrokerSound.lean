import Veer.BrokerAuthority

/-!
# Cells that may still serve

A cell is dead when no handle can be given out on it any more: it is invalid, its epochs are not
those of its connection and operation, or its time is up. A dead cell stays dead, because epochs
are never given out twice and the accepted time never goes back. A cell that is not dead stays
tracked and serving under every move, unless the move is allowed to replace it.
-/
namespace Veer.CredentialBroker
open Reconcile (ID DigestValue equalDigest)
open ListHeap

variable {F : Nat → Prop} {v v' : View} {cell cell' : CellView} {i j : Nat}

/-! ## Dead cells -/

/-- What every modification of a cell keeps. -/
structure CellView.Keeps (cell cell' : CellView) : Prop where
  request : cell'.request = cell.request
  session : cell'.session = cell.session
  conn : cell'.connEpoch = cell.connEpoch
  op : cell'.opEpoch = cell.opEpoch
  invalid : cell.invalid = true → cell'.invalid = true

theorem CellView.Keeps.refl (cell : CellView) : cell.Keeps cell := ⟨rfl, rfl, rfl, rfl, id⟩

theorem CellView.keeps_drain (cell : CellView) : cell.Keeps cell.drain := ⟨rfl, rfl, rfl, rfl, id⟩

theorem CellView.keeps_invalidate (cell : CellView) : cell.Keeps cell.invalidate :=
  ⟨rfl, rfl, rfl, rfl, fun _ => rfl⟩

theorem CellView.keeps_revoke (cell : CellView) : cell.Keeps cell.revoke := ⟨rfl, rfl, rfl, rfl, id⟩

theorem CellView.keeps_addRef (cell : CellView) : cell.Keeps cell.addRef := ⟨rfl, rfl, rfl, rfl, id⟩

theorem CellView.keeps_dropRef (cell : CellView) : cell.Keeps cell.dropRef :=
  ⟨rfl, rfl, rfl, rfl, id⟩

theorem View.Dead.of_keeps (hdead : v.Dead cell) (hkeeps : cell.Keeps cell') : v.Dead cell' := by
  rcases hdead with hcurrent | hlate
  · refine .inl fun hcurrent' => hcurrent ?_
    refine ⟨?_, hkeeps.session ▸ hcurrent'.wellFormed, hkeeps.session ▸ hcurrent'.kept, ?_⟩
    · by_contra hinvalid
      have hinvalid' := hkeeps.invalid (by simpa using hinvalid)
      exact Bool.false_ne_true (hcurrent'.valid.symm.trans hinvalid')
    · have hauthority := hcurrent'.authority
      rwa [hkeeps.request, hkeeps.conn, hkeeps.op] at hauthority
  · refine .inr ?_
    rwa [hkeeps.session]

theorem View.dead_of_invalid (hinvalid : cell.invalid = true) : v.Dead cell :=
  .inl fun hcurrent => Bool.false_ne_true (hcurrent.valid.symm.trans hinvalid)

theorem Move.lastNow_le (hmove : Move F v v') : v.lastNow ≤ v'.lastNow := by
  cases hmove with
  | observe now later => exact later
  | _ => exact le_rfl

theorem Move.current (hmove : Move F v v')
    (hstamped : v.Stamped cell.request cell.connEpoch cell.opEpoch)
    (hcurrent : v'.Current cell) : v.Current cell := by
  cases hmove with
  | lineage =>
    refine ⟨hcurrent.valid, hcurrent.wellFormed, hcurrent.kept, ?_⟩
    obtain ⟨found, operation, hfound, hoperation, hterminal, hepoch, hrest⟩ := hcurrent.authority
    rcases lookup_insert_eq_some.mp hfound with ⟨rfl, rfl⟩ | ⟨-, hfound⟩
    · have hle := hstamped.1
      omega
    · exact ⟨found, operation, hfound, hoperation, hterminal, hepoch, hrest⟩
  | operation =>
    refine ⟨hcurrent.valid, hcurrent.wellFormed, hcurrent.kept, ?_⟩
    obtain ⟨lineage, found, hlineage, hfound, hterminal, hepoch, hop, hrest⟩ := hcurrent.authority
    rcases lookup_insert_eq_some.mp hfound with ⟨rfl, rfl⟩ | ⟨-, hfound⟩
    · have hle := hstamped.2.1
      omega
    · exact ⟨lineage, found, hlineage, hfound, hterminal, hepoch, hop, hrest⟩
  | destroy =>
    exact ⟨hcurrent.valid, hcurrent.wellFormed, fun hmem => hcurrent.kept (List.mem_cons_of_mem _ hmem),
      hcurrent.authority⟩
  | _ => exact hcurrent.congr rfl rfl rfl

theorem Move.dead (hmove : Move F v v')
    (hstamped : v.Stamped cell.request cell.connEpoch cell.opEpoch) (hdead : v.Dead cell) :
    v'.Dead cell := by
  rcases hdead with hcurrent | hlate
  · exact .inl fun hcurrent' => hcurrent (hmove.current hstamped hcurrent')
  · exact .inr (hlate.trans_le hmove.lastNow_le)

/-! ## Sound cells -/

theorem View.sound_of_tracked (htracked : i ∈ v.cells)
    (hserving : ∀ cell, v.cellHeap[i]? = some cell → cell.draining = false) : v.Sound i :=
  fun cell hcell => .inl ⟨htracked, hserving cell hcell⟩

theorem View.Sound.modify (hsound : v.Sound i) (j : Nat) {f : CellView → CellView}
    (hf : ∀ cell : CellView, cell.Keeps (f cell)) (hdraining : ∀ cell, (f cell).draining = cell.draining) :
    View.Sound { v with cellHeap := v.cellHeap.modify j f } i := by
  intro cell' hcell'
  obtain ⟨cell, hcell, rfl⟩ := getElem?_modify_eq_some.mp hcell'
  by_cases hij : j = i
  · rw [if_pos hij, hdraining]
    rcases hsound cell hcell with hserving | hdead
    · exact .inl hserving
    · exact .inr ((hdead.of_keeps (hf cell)).congr rfl rfl rfl rfl)
  · rw [if_neg hij]
    rcases hsound cell hcell with hserving | hdead
    · exact .inl hserving
    · exact .inr (hdead.congr rfl rfl rfl rfl)

theorem View.Sound.modify_dead (hsound : v.Sound i) (j : Nat) {f : CellView → CellView}
    (hdead : ∀ cell, j = i → v.cellHeap[i]? = some cell → v.Dead (f cell)) :
    View.Sound { v with cellHeap := v.cellHeap.modify j f } i := by
  intro cell' hcell'
  obtain ⟨cell, hcell, rfl⟩ := getElem?_modify_eq_some.mp hcell'
  by_cases hij : j = i
  · rw [if_pos hij]
    exact .inr ((hdead cell hij hcell).congr rfl rfl rfl rfl)
  rw [if_neg hij]
  rcases hsound cell hcell with hserving | hdead
  · exact .inl hserving
  · exact .inr (hdead.congr rfl rfl rfl rfl)

theorem View.Sound.congr (hsound : v.Sound i) (hcells : v'.cells = v.cells)
    (hheap : v'.cellHeap = v.cellHeap) (hl : v'.lineages = v.lineages)
    (ho : v'.operations = v.operations) (hd : v'.destroyed = v.destroyed)
    (hn : v'.lastNow = v.lastNow) : v'.Sound i := by
  intro cell hcell
  rw [hheap] at hcell
  rw [hcells]
  exact (hsound cell hcell).imp_right fun hdead => hdead.congr hl ho hd hn

/-- A cell that the move may not replace stays sound. -/
theorem Move.sound (hmove : Move F v v') (hordered : v.Ordered)
    (hrevoking : ∀ cell ∈ v.cellHeap, cell.revoking = true → cell.invalid = true)
    (hbound : ¬ F i) (hsound : v.Sound i) : v'.Sound i := by
  have hstays : ∀ cell, v.cellHeap[i]? = some cell → v.Dead cell → v'.Dead cell := by
    intro cell hcell hdead
    exact hmove.dead (hordered.cells cell (List.mem_of_getElem? hcell)) hdead
  cases hmove with
  | invalidate j =>
    exact hsound.modify_dead j fun _ _ _ => View.dead_of_invalid rfl
  | revoke j => exact hsound.modify j CellView.keeps_revoke fun _ => rfl
  | drain j cell at_j useless =>
    refine hsound.modify_dead j fun found hij hfound => ?_
    subst hij
    cases at_j.symm.trans hfound
    rcases useless with hspent | ⟨-, hdead | hfree⟩
    · exact hspent.dead.of_keeps (CellView.keeps_drain _)
    · exact hdead.of_keeps (CellView.keeps_drain _)
    · exact absurd hfree hbound
  | drop j cell at_j unused ended =>
    intro found hfound
    rcases hsound found hfound with ⟨htracked, hserving⟩ | hdead
    · by_cases hij : i = j
      · subst hij
        cases at_j.symm.trans hfound
        have hinvalid : cell.invalid = true := by
          rcases ended with hdraining | hinvalid | hrevoked
          · exact (Bool.false_ne_true (hserving.symm.trans hdraining)).elim
          · exact hinvalid
          · exact hrevoking cell (List.mem_of_getElem? at_j) hrevoked
        exact .inr (View.dead_of_invalid hinvalid)
      · exact .inl ⟨List.mem_filter.mpr ⟨htracked, by simpa using hij⟩, hserving⟩
    · exact .inr (hstays found hfound hdead)
  | addCell cell owned kept fresh =>
    intro found hfound
    rcases getElem?_concat_eq_some.mp hfound with hold | ⟨rfl, rfl⟩
    · rcases hsound found hold with ⟨htracked, hserving⟩ | hdead
      · exact .inl ⟨List.mem_append_left _ htracked, hserving⟩
      · exact .inr (hstays found hold hdead)
    · exact .inl ⟨List.mem_append_right _ (List.mem_singleton_self _), fresh.serving⟩
  | grant j =>
    exact (hsound.modify j CellView.keeps_addRef fun _ => rfl).congr rfl rfl rfl rfl rfl rfl
  | release l lease =>
    exact (hsound.modify lease.cell CellView.keeps_dropRef fun _ => rfl).congr
      rfl rfl rfl rfl rfl rfl
  | _ =>
    intro found hfound
    rcases hsound found hfound with hserving | hdead
    · exact .inl hserving
    · exact .inr (hstays found hfound hdead)

end Veer.CredentialBroker
