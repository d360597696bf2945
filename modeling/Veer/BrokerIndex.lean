import Veer.BrokerOpenLeases

/-!
# The session index

At the end of every section of every run the index leads a binding to a valid cell of that binding
that serves or whose time is up, and references count the handles.
-/
namespace Veer.CredentialBroker
open Reconcile (DigestValue)
open ListHeap StepMachine

/-- Every entry of the index leads to a cell of its binding that is not invalid, so that no two
entries share a cell. The cell is tracked and not draining, unless the last use start of its session
lies before the broker's last accepted time. -/
theorem index_serves_or_ended (issuers : List IssuerKey) (now : Int) (inputs : List Input) :
    let b := machine.exec (newBroker issuers now) inputs
    (∀ binding i, b.sessions.lookup binding = some i → ∃ cell, b.cellHeap[i]? = some cell ∧
      cell.request.bindingDigest = binding ∧ cell.invalid = false ∧
      (i ∈ b.cells ∧ cell.draining = false ∨ cell.session.useCutoff < b.lastNow)) ∧
    ∀ binding binding' i, b.sessions.lookup binding = some i →
      b.sessions.lookup binding' = some i → binding = binding' := by
  intro b
  have hlinked := (exec_accounted issuers now inputs).linked
  constructor
  · intro binding i hlookup
    obtain ⟨_, hview, hrest⟩ := hlinked.leads binding i hlookup
    obtain ⟨cell, hcell, rfl⟩ := Option.map_eq_some_iff.mp (List.getElem?_map.symm.trans hview)
    exact ⟨cell, hcell, hrest⟩
  · intro binding binding' i hlookup hlookup'
    obtain ⟨cell, hcell, rfl, -⟩ := hlinked.leads binding i hlookup
    obtain ⟨cell', hcell', rfl, -⟩ := hlinked.leads binding' i hlookup'
    cases hcell.symm.trans hcell'
    rfl

/-- A use finds the only lease of a session too close to its end, and the lease is closed. -/
def expiredUse : List Input :=
  firstLease ++ .call (.use 0) :: runAt (demoStart + 9 * minute) [20, 21] ++
    .call (.closeLease 0) :: runAt (demoStart + 9 * minute) [22, 23]

/-- `Use` and `Lease.Close` leave the entry of a draining cell that is no longer tracked. -/
theorem expiredUse_entry_kept :
    let b := machine.exec (newBroker [demoIssuer] demoStart) expiredUse
    b.sessions.lookup demoRequest.bindingDigest = some 0 ∧ 0 ∉ b.cells ∧
      ∃ cell ∈ b.cellHeap[0]?, cell.draining = true := by
  decide +kernel

/-! ## Handles -/

/-- In every run the broker's count and the references are the handles not taken back, and a handle
that was closed and not taken back is pending once, any other never. -/
theorem leases_counted (issuers : List IssuerKey) (now : Int) (inputs : List Input) :
    let b := machine.exec (newBroker issuers now) inputs
    b.activeLeases = b.openLeases ∧
      (∀ i cell, b.cellHeap[i]? = some cell →
        cell.refs = b.leaseHeap.countP (Lease.unreleasedOn i)) ∧
      ∀ l lease, b.leaseHeap[l]? = some lease →
        b.pendingReleases.count l = (lease.closed && !lease.released).toNat := by
  intro b
  obtain ⟨-, hreleasing, hcounted⟩ := exec_accounted issuers now inputs
  refine ⟨hcounted.active, fun i cell hcell => ?_, fun l lease hlease => ?_⟩
  · exact hcounted.refs i _ (view_cellHeap (q := []) (h := none) (u := []) hcell)
  · exact hreleasing.once l lease hlease

end Veer.CredentialBroker
