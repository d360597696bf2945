import Veer.BrokerMachine

/-!
# The moves of the session store

What the safety of sessions depends on, with every other field forgotten, and the elementary
moves on it. `queue`, `held`, `waits` and `releases` are the local resources of the running
goroutine: the sessions it must destroy, the issued session it owns, the flights it waits for and
the handles it closed whose reference it still has to give back. Every critical section is a
sequence of these moves.
-/
namespace Veer.CredentialBroker
open Reconcile (ID DigestValue equalDigest)

structure CellView where
  request : Request
  session : IssuedSession
  connEpoch : Nat
  opEpoch : Nat
  refs : Nat
  invalid : Bool
  draining : Bool
  revoking : Bool

structure FlightView where
  request : Request
  connEpoch : Nat
  opEpoch : Nat
  cell : Option Nat

structure View where
  closed : Bool
  lineages : AList (fun _ : ConnectionKey => Lineage)
  operations : AList (fun _ : OperationKey => OperationState)
  nextEpoch : Nat
  lastNow : Int
  sessions : AList (fun _ : DigestValue => Nat)
  cells : List Nat
  cellHeap : List CellView
  pending : AList (fun _ : DigestValue => Nat)
  flights : List FlightView
  leases : List Lease
  activeLeases : Nat
  issued : Nat
  destroyed : List Nat
  queue : List Nat
  held : Option Nat
  waits : List Nat
  releases : List Nat

def SessionCell.view (cell : SessionCell) : CellView :=
  ⟨cell.request, cell.session, cell.connEpoch, cell.opEpoch, cell.refs, cell.invalid,
    cell.draining, cell.revocation.isSome⟩

def SessionFlight.view (flight : SessionFlight) : FlightView :=
  ⟨flight.request, flight.connEpoch, flight.opEpoch, flight.cell⟩

def Broker.view (b : Broker) (queue : List Nat) (held : Option Nat) (waits : List Nat)
    (releases : List Nat := []) : View where
  closed := b.closed
  lineages := b.lineages
  operations := b.operations
  nextEpoch := b.nextEpoch
  lastNow := b.lastNow
  sessions := b.sessions
  cells := b.cells
  cellHeap := b.cellHeap.map SessionCell.view
  pending := b.sessionFlights
  flights := b.sessionFlightHeap.map SessionFlight.view
  leases := b.leaseHeap
  activeLeases := b.activeLeases
  issued := b.issued
  destroyed := b.destroyedSessions
  queue := queue
  held := held
  waits := waits
  releases := releases

def Disposal.queue (disposal : Disposal) : List Nat := disposal.sessions.map IssuedSession.id

def Work.view (w : Work) (held : Option Nat) (waits : List Nat) (releases : List Nat := []) : View :=
  w.broker.view w.disposal.queue held waits releases

/-! ## What a cell can still do -/

/-- What `IssuedSession.Valid` asks besides a session that is not destroyed. -/
def IssuedSession.WellFormed (session : IssuedSession) : Prop :=
  session.binding.initialized = true ∧ canonicalSessionTime session.issuedAt = true ∧
    canonicalSessionTime session.expiresAt = true ∧
    validSessionDuration session.issuedAt session.expiresAt = true

/-- The lineage and the operation of a request carry these epochs, at the request's generation. -/
structure View.Bound (v : View) (request : Request) (connEpoch opEpoch : Nat) : Prop where
  lineage : ∃ lineage, v.lineages.lookup (keyForConnection request) = some lineage ∧
    lineage.epoch = connEpoch ∧ lineage.generation = request.connectionGeneration
  operation : ∃ operation, v.operations.lookup (keyForOperation request) = some operation ∧
    operation.epoch = opEpoch

/-- `cellCurrentLocked`: the session lives, its epochs are live and its operation runs. -/
structure View.Current (v : View) (cell : CellView) : Prop where
  valid : cell.invalid = false
  wellFormed : cell.session.WellFormed
  kept : cell.session.id ∉ v.destroyed
  authority : ∃ lineage operation,
    v.lineages.lookup (keyForConnection cell.request) = some lineage ∧
    v.operations.lookup (keyForOperation cell.request) = some operation ∧
    operation.terminal = false ∧ lineage.epoch = cell.connEpoch ∧
    operation.epoch = cell.opEpoch ∧ lineage.revokedThrough < lineage.generation ∧
    equalDigest operation.binding cell.request.bindingDigest = true

/-- No handle can be given out on the cell any more. -/
def View.Dead (v : View) (cell : CellView) : Prop :=
  ¬ v.Current cell ∨ cell.session.useCutoff < v.lastNow

/-- No use can start on the session any more, unless it never was one. -/
def View.Spent (v : View) (cell : CellView) : Prop :=
  cell.session.WellFormed → cell.session.id ∉ v.destroyed → cell.session.useCutoff < v.lastNow

theorem View.Spent.dead {v : View} {cell : CellView} (hspent : v.Spent cell) : v.Dead cell := by
  by_cases hcurrent : v.Current cell
  · exact .inr (hspent hcurrent.wellFormed hcurrent.kept)
  · exact .inl hcurrent

theorem View.Current.congr {v v' : View} {cell : CellView} (hcurrent : v.Current cell)
    (hl : v'.lineages = v.lineages) (ho : v'.operations = v.operations)
    (hd : v'.destroyed = v.destroyed) : v'.Current cell := by
  obtain ⟨hvalid, hformed, hkept, hauthority⟩ := hcurrent
  refine ⟨hvalid, hformed, ?_, ?_⟩
  · rwa [hd]
  · rwa [hl, ho]

theorem View.Dead.congr {v v' : View} {cell : CellView} (hdead : v.Dead cell)
    (hl : v'.lineages = v.lineages) (ho : v'.operations = v.operations)
    (hd : v'.destroyed = v.destroyed) (hn : v'.lastNow = v.lastNow) : v'.Dead cell := by
  rcases hdead with hcurrent | hlate
  · exact .inl fun hcurrent' => hcurrent (hcurrent'.congr hl.symm ho.symm hd.symm)
  · exact .inr (hn ▸ hlate)

/-- A cell that a handle may be given out on is still tracked and not draining. -/
def View.Sound (v : View) (i : Nat) : Prop :=
  ∀ cell, v.cellHeap[i]? = some cell → (i ∈ v.cells ∧ cell.draining = false) ∨ v.Dead cell

def CellView.drain (cell : CellView) : CellView := { cell with draining := true }

def CellView.invalidate (cell : CellView) : CellView :=
  { cell with invalid := true, draining := true }

def CellView.revoke (cell : CellView) : CellView := { cell with revoking := true }

def CellView.addRef (cell : CellView) : CellView := { cell with refs := cell.refs + 1 }

def CellView.dropRef (cell : CellView) : CellView := { cell with refs := cell.refs - 1 }

/-- A cell as it is published. -/
structure CellView.Fresh (cell : CellView) : Prop where
  refs : cell.refs = 0
  valid : cell.invalid = false
  serving : cell.draining = false
  unrevoked : cell.revoking = false
  formed : cell.session.WellFormed

/-- Where a new cell takes its stamps from: a flight, or the lineage itself. -/
inductive View.Licensed (v : View) (cell : CellView) : Prop
  | flight (flight : FlightView) (mem : flight ∈ v.flights)
      (request : cell.request = flight.request) (conn : cell.connEpoch = flight.connEpoch) (op : cell.opEpoch = flight.opEpoch)
  | lineage (bound : v.Bound cell.request cell.connEpoch cell.opEpoch)

/-- The elementary moves. A cell in `free` may be replaced while it still could serve. -/
inductive Move (free : Nat → Prop) : View → View → Prop
  | observe (v : View) (now : Int) (later : v.lastNow ≤ now) : Move free v { v with lastNow := now }
  | epochs (v : View) (n : Nat) : Move free v { v with nextEpoch := v.nextEpoch + n }
  | lineage (v : View) (key : ConnectionKey) (lineage : Lineage)
      (fresh : lineage.epoch = v.nextEpoch + 1)
      (grows : ∀ old, v.lineages.lookup key = some old →
        old.generation ≤ lineage.generation ∧ old.revokedThrough ≤ lineage.revokedThrough) :
      Move free v { v with
        nextEpoch := v.nextEpoch + 1
        lineages := v.lineages.insert key lineage }
  | operation (v : View) (key : OperationKey) (operation : OperationState)
      (fresh : operation.epoch = v.nextEpoch + 1)
      (grows : ∀ old, v.operations.lookup key = some old → old.terminal = true →
        operation.terminal = true) :
      Move free v { v with
        nextEpoch := v.nextEpoch + 1
        operations := v.operations.insert key operation }
  | close (v : View) : Move free v { v with closed := true }
  | unlink (v : View) (binding : DigestValue) :
      Move free v { v with sessions := v.sessions.erase binding }
  | invalidate (v : View) (i : Nat) (cell : CellView) (at_i : v.cellHeap[i]? = some cell)
      (unlinked : v.sessions.lookup cell.request.bindingDigest ≠ some i) :
      Move free v { v with cellHeap := v.cellHeap.modify i CellView.invalidate }
  | revoke (v : View) (i : Nat) (cell : CellView) (at_i : v.cellHeap[i]? = some cell)
      (invalid : cell.invalid = true) :
      Move free v { v with cellHeap := v.cellHeap.modify i CellView.revoke }
  | drain (v : View) (i : Nat) (cell : CellView) (at_i : v.cellHeap[i]? = some cell)
      (useless : v.Spent cell ∨
        v.sessions.lookup cell.request.bindingDigest ≠ some i ∧ (v.Dead cell ∨ free i)) :
      Move free v { v with cellHeap := v.cellHeap.modify i CellView.drain }
  | drop (v : View) (i : Nat) (cell : CellView) (at_i : v.cellHeap[i]? = some cell)
      (unused : cell.refs = 0)
      (ended : cell.draining = true ∨ cell.invalid = true ∨ cell.revoking = true) :
      Move free v { v with cells := v.cells.filter (· ≠ i) }
  | queue (v : View) (ids : List Nat) (owed : ∀ id ∈ ids, id ∈ v.queue ∨
      ∃ (i : Nat) (cell : CellView), v.cellHeap[i]? = some cell ∧ cell.session.id = id ∧
        (cell.invalid = true ∨ i ∉ v.cells)) :
      Move free v { v with queue := ids }
  | destroy (v : View) (id : Nat) (owned : id ∈ v.queue ∨ v.held = some id ∨
      ∃ cell ∈ v.cellHeap, cell.session.id = id ∧ cell.revoking = true) :
      Move free v { v with destroyed := id :: v.destroyed }
  | forget (v : View) : Move free v { v with held := none }
  | issue (v : View) : Move free v { v with issued := v.issued + 1, held := some v.issued }
  | addCell (v : View) (cell : CellView) (owned : v.held = some cell.session.id)
      (kept : cell.session.id ∉ v.destroyed) (fresh : cell.Fresh) (licensed : v.Licensed cell) :
      Move free v { v with
        held := none
        cellHeap := v.cellHeap ++ [cell]
        sessions := v.sessions.insert cell.request.bindingDigest v.cellHeap.length
        cells := v.cells ++ [v.cellHeap.length] }
  | addFlight (v : View) (flight : FlightView) (unpublished : flight.cell = none)
      (bound : v.Bound flight.request flight.connEpoch flight.opEpoch) :
      Move free v { v with
        flights := v.flights ++ [flight]
        pending := v.pending.insert flight.request.bindingDigest v.flights.length
        waits := v.flights.length :: v.waits }
  | join (v : View) (waits : List Nat)
      (pending : ∀ i ∈ waits, i ∈ v.waits ∨ ∃ binding, v.pending.lookup binding = some i) :
      Move free v { v with waits := waits }
  | publish (v : View) (i c : Nat) (flight : FlightView) (cell : CellView)
      (at_i : v.flights[i]? = some flight) (at_c : v.cellHeap[c]? = some cell)
      (tracked : c ∈ v.cells) (serving : cell.draining = false) (bound : ¬ free c) :
      Move free v { v with
        flights := v.flights.modify i fun flight => { flight with cell := some c }
        pending := if v.pending.lookup flight.request.bindingDigest = some i then
          v.pending.erase flight.request.bindingDigest else v.pending }
  | forgetFlight (v : View) (binding : DigestValue) :
      Move free v { v with pending := v.pending.erase binding }
  | grant (v : View) (i : Nat) (cell : CellView) (at_i : v.cellHeap[i]? = some cell)
      (current : v.Current cell) (early : v.lastNow ≤ cell.session.useCutoff)
      (source : (∃ binding, v.sessions.lookup binding = some i) ∨
        ∃ j ∈ v.waits, ∃ flight, v.flights[j]? = some flight ∧ flight.cell = some i) :
      Move free v { v with
        leases := v.leases ++ [⟨i, false, false⟩]
        cellHeap := v.cellHeap.modify i CellView.addRef
        activeLeases := v.activeLeases + 1 }
  | closeHandle (v : View) (l : Nat) (lease : Lease) (at_l : v.leases[l]? = some lease)
      (opened : lease.closed = false) :
      Move free v { v with
        leases := v.leases.modify l fun lease => { lease with closed := true }
        releases := l :: v.releases }
  | release (v : View) (l : Nat) (lease : Lease) (at_l : v.leases[l]? = some lease)
      (owed : l ∈ v.releases) :
      Move free v { v with
        leases := v.leases.modify l fun lease => { lease with released := true }
        cellHeap := v.cellHeap.modify lease.cell CellView.dropRef
        activeLeases := v.activeLeases - 1
        releases := v.releases.erase l }
  | lost (v : View) (l : Nat) (gone : v.leases[l]? = none) :
      Move free v { v with releases := v.releases.erase l }

/-- A sequence of moves. -/
abbrev Moves (free : Nat → Prop) : View → View → Prop := Relation.ReflTransGen (Move free)

end Veer.CredentialBroker
