import Veer.BrokerSteps

/-!
# Revocation takes effect at once

Epochs are never given out twice, so a cell or flight that carries the epoch of its connection
also carries its generation. Lineages, terminal marks and the closed broker only move forward.
Together they decide on which sessions a use may still start.
-/
namespace Veer.CredentialBroker
open Reconcile (ID DigestValue equalDigest)
open ListHeap StepMachine

/-- At its epoch, the lineage has the generation of the request. -/
def View.Stamped (v : View) (request : Request) (connEpoch opEpoch : Nat) : Prop :=
  connEpoch ≤ v.nextEpoch ∧ opEpoch ≤ v.nextEpoch ∧
    ∀ lineage, v.lineages.lookup (keyForConnection request) = some lineage →
      lineage.epoch = connEpoch → lineage.generation = request.connectionGeneration

/-- No epoch is used that was not given out, and every stamp is truthful. -/
structure View.Ordered (v : View) : Prop where
  lineages : ∀ key lineage, v.lineages.lookup key = some lineage → lineage.epoch ≤ v.nextEpoch
  operations : ∀ key operation, v.operations.lookup key = some operation →
    operation.epoch ≤ v.nextEpoch
  cells : ∀ cell ∈ v.cellHeap, v.Stamped cell.request cell.connEpoch cell.opEpoch
  flights : ∀ flight ∈ v.flights, v.Stamped flight.request flight.connEpoch flight.opEpoch

/-- What never goes back. -/
structure View.Evolves (v v' : View) : Prop where
  closed : v.closed = true → v'.closed = true
  lineages : ∀ key old, v.lineages.lookup key = some old → ∃ new,
    v'.lineages.lookup key = some new ∧ old.generation ≤ new.generation ∧
      old.revokedThrough ≤ new.revokedThrough
  operations : ∀ key old, v.operations.lookup key = some old → old.terminal = true → ∃ new,
    v'.operations.lookup key = some new ∧ new.terminal = true
  cells : ∀ (i : Nat) (cell : CellView), v.cellHeap[i]? = some cell → ∃ cell' : CellView,
    v'.cellHeap[i]? = some cell' ∧ cell'.request = cell.request

variable {F : Nat → Prop} {v v' v'' : View}

theorem View.Evolves.refl (v : View) : v.Evolves v :=
  ⟨id, fun _ old hold => ⟨old, hold, le_rfl, le_rfl⟩, fun _ old hold hterminal => ⟨old, hold, hterminal⟩,
    fun _ cell hcell => ⟨cell, hcell, rfl⟩⟩

theorem View.Evolves.trans (h : v.Evolves v') (h' : v'.Evolves v'') : v.Evolves v'' := by
  refine ⟨fun hclosed => h'.closed (h.closed hclosed), ?_, ?_, ?_⟩
  · intro key old hold
    obtain ⟨mid, hmid, hgeneration, hrevoked⟩ := h.lineages key old hold
    obtain ⟨new, hnew, hgeneration', hrevoked'⟩ := h'.lineages key mid hmid
    exact ⟨new, hnew, hgeneration.trans hgeneration', hrevoked.trans hrevoked'⟩
  · intro key old hold hterminal
    obtain ⟨mid, hmid, hterminal⟩ := h.operations key old hold hterminal
    exact h'.operations key mid hmid hterminal
  · intro i cell hcell
    obtain ⟨mid, hmid, hrequest⟩ := h.cells i cell hcell
    obtain ⟨cell', hcell', hrequest'⟩ := h'.cells i mid hmid
    exact ⟨cell', hcell', hrequest'.trans hrequest⟩

theorem evolves_modify (i : Nat) {f : CellView → CellView}
    (hf : ∀ cell, (f cell).request = cell.request) (v : View) :
    v.Evolves { v with cellHeap := v.cellHeap.modify i f } := by
  refine { View.Evolves.refl v with cells := fun j cell hcell => ?_ }
  refine ⟨if i = j then f cell else cell, getElem?_modify_eq_some.mpr ⟨cell, hcell, rfl⟩, ?_⟩
  by_cases hij : i = j
  · simp [hij, hf]
  · simp [hij]

theorem Move.evolves (hmove : Move F v v') : v.Evolves v' := by
  cases hmove with
  | lineage key lineage fresh grows =>
    refine { View.Evolves.refl v with lineages := fun key' old hold => ?_ }
    by_cases hkey : key' = key
    · subst hkey
      exact ⟨lineage, AList.lookup_insert _, grows old hold⟩
    · exact ⟨old, (AList.lookup_insert_ne hkey).trans hold, le_rfl, le_rfl⟩
  | operation key operation fresh grows =>
    refine { View.Evolves.refl v with operations := fun key' old hold hterminal => ?_ }
    by_cases hkey : key' = key
    · subst hkey
      exact ⟨operation, AList.lookup_insert _, grows old hold hterminal⟩
    · exact ⟨old, (AList.lookup_insert_ne hkey).trans hold, hterminal⟩
  | close => exact { View.Evolves.refl v with closed := fun _ => rfl }
  | invalidate i =>
    exact evolves_modify i (f := CellView.invalidate) (fun _ => rfl) v
  | revoke i =>
    exact evolves_modify i (f := CellView.revoke) (fun _ => rfl) v
  | drain i =>
    exact evolves_modify i (f := CellView.drain) (fun _ => rfl) v
  | addCell =>
    refine { View.Evolves.refl v with cells := fun i old hold => ⟨old, ?_, rfl⟩ }
    exact List.getElem?_append_left (List.getElem?_eq_some_iff.mp hold).1 ▸ hold
  | grant i =>
    exact { evolves_modify i (f := CellView.addRef) (fun _ => rfl) v with }
  | release l lease =>
    exact { evolves_modify lease.cell (f := CellView.dropRef) (fun _ => rfl) v with }
  | _ => exact { View.Evolves.refl v with }

variable {request : Request}

theorem View.Bound.stamped {connEpoch opEpoch : Nat} (h : v.Ordered)
    (hbound : v.Bound request connEpoch opEpoch) : v.Stamped request connEpoch opEpoch := by
  obtain ⟨⟨lineage, hlineage, rfl, hgeneration⟩, ⟨operation, hoperation, rfl⟩⟩ := hbound
  refine ⟨h.lineages _ _ hlineage, h.operations _ _ hoperation, fun found hfound _ => ?_⟩
  rw [hlineage] at hfound
  cases hfound
  exact hgeneration

/-- An epoch that was never given out belongs to no stamp. -/
theorem View.Stamped.lineage {connEpoch opEpoch : Nat} {key : ConnectionKey} {lineage : Lineage}
    (h : v.Stamped request connEpoch opEpoch) (hfresh : lineage.epoch = v.nextEpoch + 1) :
    View.Stamped { v with
      nextEpoch := v.nextEpoch + 1
      lineages := v.lineages.insert key lineage } request connEpoch opEpoch := by
  refine ⟨h.1.trans (Nat.le_succ _), h.2.1.trans (Nat.le_succ _), fun found hfound hepoch => ?_⟩
  rcases lookup_insert_eq_some.mp hfound with ⟨rfl, rfl⟩ | ⟨-, hfound⟩
  · have hle := h.1
    omega
  · exact h.2.2 found hfound hepoch

theorem View.Stamped.mono {connEpoch opEpoch n : Nat} (h : v.Stamped request connEpoch opEpoch)
    (hn : v.nextEpoch ≤ n) : View.Stamped { v with nextEpoch := n } request connEpoch opEpoch :=
  ⟨h.1.trans hn, h.2.1.trans hn, h.2.2⟩

theorem View.Ordered.modify (h : v.Ordered) (i : Nat) {f : CellView → CellView}
    (hf : ∀ cell, (f cell).request = cell.request ∧ (f cell).connEpoch = cell.connEpoch ∧
      (f cell).opEpoch = cell.opEpoch) :
    View.Ordered { v with cellHeap := v.cellHeap.modify i f } := by
  refine { h with cells := forall_mem_modify h.cells fun cell hcell => ?_ }
  obtain ⟨hrequest, hconn, hop⟩ := hf cell
  rw [hrequest, hconn, hop]
  exact hcell

theorem Move.ordered (hmove : Move F v v') (h : v.Ordered) : v'.Ordered := by
  cases hmove with
  | epochs n =>
    have hle : v.nextEpoch ≤ v.nextEpoch + n := Nat.le_add_right _ _
    exact ⟨fun key lineage hlineage => (h.lineages key lineage hlineage).trans hle,
      fun key operation hoperation => (h.operations key operation hoperation).trans hle,
      fun cell hcell => (h.cells cell hcell).mono hle,
      fun flight hflight => (h.flights flight hflight).mono hle⟩
  | lineage key lineage fresh =>
    have hle : v.nextEpoch ≤ v.nextEpoch + 1 := Nat.le_succ _
    refine ⟨fun key' found hfound => ?_,
      fun key operation hoperation => (h.operations key operation hoperation).trans hle,
      fun cell hcell => (h.cells cell hcell).lineage fresh,
      fun flight hflight => (h.flights flight hflight).lineage fresh⟩
    rcases lookup_insert_eq_some.mp hfound with ⟨-, rfl⟩ | ⟨-, hfound⟩
    · exact fresh.le
    · exact (h.lineages key' found hfound).trans hle
  | operation key operation fresh =>
    have hle : v.nextEpoch ≤ v.nextEpoch + 1 := Nat.le_succ _
    refine ⟨fun key lineage hlineage => (h.lineages key lineage hlineage).trans hle,
      fun key' found hfound => ?_, fun cell hcell => (h.cells cell hcell).mono hle,
      fun flight hflight => (h.flights flight hflight).mono hle⟩
    rcases lookup_insert_eq_some.mp hfound with ⟨-, rfl⟩ | ⟨-, hfound⟩
    · exact fresh.le
    · exact (h.operations key' found hfound).trans hle
  | invalidate i | revoke i | drain i => exact h.modify i fun _ => ⟨rfl, rfl, rfl⟩
  | addCell cell owned kept fresh licensed =>
    refine { h with cells := fun cell' hcell' => ?_ }
    rcases List.mem_append.mp hcell' with hcell' | hcell'
    · exact h.cells cell' hcell'
    obtain rfl := List.mem_singleton.mp hcell'
    cases licensed with
    | flight flight mem request conn op =>
      rw [request, conn, op]
      exact h.flights flight mem
    | lineage bound =>
      have hstamped : v.Stamped cell'.request cell'.connEpoch cell'.opEpoch := bound.stamped h
      exact hstamped
  | addFlight flight unpublished bound =>
    refine { h with flights := fun flight' hflight' => ?_ }
    rcases List.mem_append.mp hflight' with hflight' | hflight'
    · exact h.flights flight' hflight'
    obtain rfl := List.mem_singleton.mp hflight'
    have hstamped : v.Stamped flight'.request flight'.connEpoch flight'.opEpoch :=
      bound.stamped h
    exact hstamped
  | publish i c flight =>
    exact { h with flights := forall_mem_modify h.flights fun flight hflight => hflight }
  | grant i =>
    exact { h.modify i (f := CellView.addRef) fun _ => ⟨rfl, rfl, rfl⟩ with }
  | release l lease =>
    exact { h.modify lease.cell (f := CellView.dropRef) fun _ => ⟨rfl, rfl, rfl⟩ with }
  | _ => exact { h with }

theorem Moves.evolves (hmoves : Moves F v v') : v.Evolves v' := by
  induction hmoves with
  | refl => exact .refl v
  | tail _ hmove ih => exact ih.trans hmove.evolves

theorem Moves.ordered (hmoves : Moves F v v') (h : v.Ordered) : v'.Ordered := by
  induction hmoves with
  | refl => exact h
  | tail _ hmove ih => exact hmove.ordered ih

/-! ## Runs -/

def Broker.Ordered (b : Broker) : Prop := (b.view [] none []).Ordered

def Broker.Evolves (b b' : Broker) : Prop := (b.view [] none []).Evolves (b'.view [] none [])

theorem newBroker_ordered (issuers : List IssuerKey) (now : Int) :
    (newBroker issuers now).Ordered := by
  refine ⟨fun key lineage hlineage => ?_, fun key operation hoperation => ?_,
    fun cell hcell => ?_, fun flight hflight => ?_⟩
  · simp [Broker.view, newBroker] at hlineage
  · simp [Broker.view, newBroker] at hoperation
  · simp [Broker.view, newBroker] at hcell
  · simp [Broker.view, newBroker] at hflight

theorem takeSample_view {q u : List Nat} {h : Option Nat} (b : Broker) (t : Nat) :
    (b.takeSample t).view q h u = b.view q h u := by
  unfold Broker.takeSample Broker.nextSample
  split
  · rfl
  · split_ifs <;> rfl

/-- The step lemma of authority: it never goes back, and every stamp stays truthful. -/
theorem next_authority (b : Broker) (input : Input) :
    b.Evolves (machine.next b input) ∧ (b.Ordered → (machine.next b input).Ordered) := by
  cases input with
  | call => exact ⟨.refl _, id⟩
  | sample t =>
    have hview := takeSample_view (q := []) (h := none) (u := []) b t
    simp only [Broker.Evolves, Broker.Ordered, machine, Machine.next, Broker.step, hview]
    exact ⟨.refl _, id⟩
  | run t env =>
    simp only [machine, Machine.next, Broker.step]
    split
    · exact ⟨.refl _, id⟩
    rename_i stage sequence hready
    obtain ⟨hmoves, -, -⟩ := perform_moves b stage sequence env
    generalize b.perform stage sequence env = o at hmoves ⊢
    have hevolves := hmoves.evolves
    refine ⟨⟨hevolves.1, hevolves.2, hevolves.3, hevolves.4⟩, fun hordered => ?_⟩
    have hordered := hmoves.ordered ⟨hordered.1, hordered.2, hordered.3, hordered.4⟩
    exact ⟨hordered.1, hordered.2, hordered.3, hordered.4⟩

variable {b : Broker}

theorem exec_ordered (hordered : b.Ordered) (inputs : List Input) : (machine.exec b inputs).Ordered :=
  exec_invariant machine (fun b input => (next_authority b input).2) hordered inputs

theorem exec_evolves (b : Broker) (inputs : List Input) :
    b.Evolves (machine.exec b inputs) :=
  exec_relation machine (P := fun _ => True) (R := Broker.Evolves) (fun _ => .refl _)
    (fun _ _ _ => View.Evolves.trans) (fun _ _ _ => trivial)
    (fun b input _ => (next_authority b input).1) trivial inputs

/-- In this step a use callback starts, on a lease whose session was issued for the request. -/
def UseStarts (e : Entry Broker Input Output) (request : Request) : Prop :=
  ∃ lease handle cell, e.before.leaseHeap[lease]? = some handle ∧
    e.before.cellHeap[handle.cell]? = some cell ∧ cell.request = request ∧
    ∃ observed admitted, e.output = .started lease handle.cell observed admitted

theorem started_performs {input : Input} {lease c : Nat} {observed admitted : Int}
    (hout : (machine.entry b input).output = .started lease c observed admitted) :
    ∃ t env stage sequence, input = .run t env ∧ b.ready input = some (stage, sequence) ∧
      (b.perform stage sequence env).output = .started lease c observed admitted := by
  cases input with
  | call | sample => cases hout
  | run t env =>
    simp only [machine, Machine.entry, Broker.step] at hout
    split at hout
    · cases hout
    · rename_i stage sequence hready
      exact ⟨t, env, stage, sequence, rfl, hready, hout⟩

theorem UseStarts.authority {e : Entry Broker Input Output} (hstarts : UseStarts e request)
    (he : e = machine.entry e.before e.input) (hordered : e.before.Ordered) :
    e.before.closed = false ∧
    (∃ lineage, e.before.lineages.lookup (keyForConnection request) = some lineage ∧
      lineage.generation = request.connectionGeneration ∧
      lineage.revokedThrough < request.connectionGeneration) ∧
    ∃ operation, e.before.operations.lookup (keyForOperation request) = some operation ∧
      operation.terminal = false := by
  obtain ⟨lease, handle, cell, -, hcell, rfl, observed, admitted, hout⟩ := hstarts
  generalize e.before = b, e.input = input at *
  rw [he] at hout
  obtain ⟨t, env, stage, sequence, -, -, hperform⟩ := started_performs hout
  obtain ⟨-, -, hstarted⟩ := perform_moves b stage sequence env
  obtain ⟨-, hstart⟩ := hstarted _ _ _ _ hperform
  obtain ⟨found, hfound, hcurrent, -⟩ := hstart.cell
  rw [hcell] at hfound
  cases hfound
  have hcurrent := (cellCurrent_iff (q := []) (h := none) (u := [])).mp hcurrent
  obtain ⟨lineage, operation, hlineage, hoperation, hterminal, hepoch, -, hrevoked, -⟩ :=
    hcurrent.authority
  have hmem := List.mem_of_getElem? (view_cellHeap (q := []) (h := none) (u := []) hcell)
  have hgeneration := (hordered.cells _ hmem).2.2 lineage hlineage hepoch
  exact ⟨hstart.running, ⟨lineage, hlineage, hgeneration, hrevoked.trans_eq hgeneration⟩,
    operation, hoperation, hterminal⟩

/-- Whatever a state has revoked, terminated or closed stays so for every later start. -/
theorem starts_authorized (hordered : b.Ordered) {inputs : List Input}
    {e : Entry Broker Input Output} (he : e ∈ machine.trace b inputs)
    (hstarts : UseStarts e request) :
    (∀ lineage, b.lineages.lookup (keyForConnection request) = some lineage →
      lineage.revokedThrough < request.connectionGeneration ∧
        lineage.generation ≤ request.connectionGeneration) ∧
    (∀ operation, b.operations.lookup (keyForOperation request) = some operation →
      operation.terminal = false) ∧
    b.closed = false := by
  obtain ⟨before, post, -, hentry⟩ := mem_trace machine he
  have hbefore : e.before = machine.exec b before := by rw [hentry]; rfl
  have hevolves := exec_evolves b before
  have hlater := exec_ordered hordered before
  rw [← hbefore] at hevolves hlater
  obtain ⟨hopen, ⟨new, hnew, hgeneration, hrevoked⟩, ⟨state, hstate, hrunning⟩⟩ :=
    hstarts.authority (hbefore ▸ hentry) hlater
  refine ⟨fun lineage hlineage => ?_, fun operation hoperation => ?_, ?_⟩
  · obtain ⟨found, hfound, hgeneration', hrevoked'⟩ := hevolves.lineages _ lineage hlineage
    cases hnew.symm.trans hfound
    exact ⟨hrevoked'.trans_lt hrevoked, hgeneration'.trans_eq hgeneration⟩
  · by_contra hterminal
    have hterminal : operation.terminal = true := by simpa using hterminal
    obtain ⟨found, hfound, hfound'⟩ := hevolves.operations _ operation hoperation hterminal
    cases hstate.symm.trans hfound
    rw [hrunning] at hfound'
    cases hfound'
  · by_contra hclosed
    have hclosed := hevolves.closed (by simpa [Broker.view] using hclosed)
    exact Bool.false_ne_true (hopen.symm.trans hclosed)

/-- The generations of the starts on one connection never decrease. -/
theorem starts_pairwise (hordered : b.Ordered) (inputs : List Input) :
    (machine.trace b inputs).Pairwise fun e f => ∀ request request',
      UseStarts e request → UseStarts f request' →
      keyForConnection request = keyForConnection request' →
      request.connectionGeneration ≤ request'.connectionGeneration := by
  induction inputs generalizing b with
  | nil => exact .nil
  | cons input inputs ih =>
    refine .cons (fun f hf request request' hstarts hstarts' hkey => ?_)
      (ih ((next_authority b input).2 hordered))
    obtain ⟨-, ⟨lineage, hlineage, hgeneration, -⟩, -⟩ := hstarts.authority rfl hordered
    have hmem : f ∈ machine.trace b (input :: inputs) := List.mem_cons_of_mem _ hf
    have hlater := starts_authorized hordered hmem hstarts'
    have hle := (hlater.1 lineage (hkey ▸ hlineage)).2
    exact hgeneration.symm.trans_le hle

/-- Revocation is immediate. From the end of any section on, however the run goes on, no use
starts on a session of a revoked or replaced generation, of a terminal operation or of a closed
broker; none of the three is ever taken back; and the generations in use never decrease. -/
theorem revocation_immediate (issuers : List IssuerKey) (now : Int) (inputs later : List Input) :
    let b := machine.exec (newBroker issuers now) inputs
    let b' := machine.exec b later
    (∀ e ∈ machine.trace b later, ∀ request, UseStarts e request →
      (∀ lineage, b.lineages.lookup (keyForConnection request) = some lineage →
        lineage.revokedThrough < request.connectionGeneration ∧
          lineage.generation ≤ request.connectionGeneration) ∧
      (∀ operation, b.operations.lookup (keyForOperation request) = some operation →
        operation.terminal = false) ∧
      b.closed = false) ∧
    (∀ key old, b.lineages.lookup key = some old → ∃ new, b'.lineages.lookup key = some new ∧
      old.generation ≤ new.generation ∧ old.revokedThrough ≤ new.revokedThrough) ∧
    (∀ key old, b.operations.lookup key = some old → old.terminal = true →
      ∃ new, b'.operations.lookup key = some new ∧ new.terminal = true) ∧
    (b.closed = true → b'.closed = true) ∧
    (machine.trace b later).Pairwise fun e f => ∀ request request',
      UseStarts e request → UseStarts f request' →
      keyForConnection request = keyForConnection request' →
      request.connectionGeneration ≤ request'.connectionGeneration := by
  intro b b'
  have hordered : b.Ordered := exec_ordered (newBroker_ordered issuers now) inputs
  have hevolves : b.Evolves b' := exec_evolves b later
  exact ⟨fun e he request hstarts => starts_authorized hordered he hstarts, hevolves.lineages,
    hevolves.operations, hevolves.closed, starts_pairwise hordered later⟩

end Veer.CredentialBroker
