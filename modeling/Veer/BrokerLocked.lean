import Veer.Broker

/-!
# What a critical section of the broker does

The helpers that run under `broker.mu`, in the order of the source: clock and epochs, validity,
expiry evidence, disposal, sweeping, invalidation, room, leases and lineages. `Work` is the state
with the disposal and cancellation batches of the running section.
-/
namespace Veer.CredentialBroker
open Reconcile (ID DigestValue equalDigest second maxUint64 endOfYear9999)

structure Work where
  broker : Broker
  disposal : Disposal
  cancels : List Cancel

def Broker.work (b : Broker) : Work := ⟨b, .zero, []⟩

/-! ## Heaps -/

def Broker.modifyCell (b : Broker) (i : Nat) (f : SessionCell → SessionCell) : Broker :=
  { b with cellHeap := b.cellHeap.modify i f }

def Broker.modifyEntry (b : Broker) (i : Nat) (f : SourceEntry → SourceEntry) : Broker :=
  { b with entryHeap := b.entryHeap.modify i f }

def Broker.modifySourceFlight (b : Broker) (i : Nat) (f : SourceFlight → SourceFlight) : Broker :=
  { b with sourceFlightHeap := b.sourceFlightHeap.modify i f }

def Broker.modifySessionFlight (b : Broker) (i : Nat) (f : SessionFlight → SessionFlight) :
    Broker :=
  { b with sessionFlightHeap := b.sessionFlightHeap.modify i f }

def Broker.modifyRotation (b : Broker) (i : Nat) (f : RotationFlight → RotationFlight) : Broker :=
  { b with rotationHeap := b.rotationHeap.modify i f }

def Broker.modifyLease (b : Broker) (i : Nat) (f : Lease → Lease) : Broker :=
  { b with leaseHeap := b.leaseHeap.modify i f }

/-! ## Clock and counters -/

/-- `sampleNow` takes its sequence number before it reads the clock; 0 is a saturated counter. -/
def Broker.nextSample (b : Broker) : Broker × Nat :=
  if b.clockSamples = maxUint64 then (b, 0)
  else ({ b with clockSamples := b.clockSamples + 1 }, b.clockSamples + 1)

/-- An absent reading is a failed clock. A reading overtaken by a later sample is replaced by the
accepted time. -/
def Broker.observeNow (b : Broker) (sequence : Nat) (observed : Option Int) :
    Broker × Except Failure Int :=
  if sequence = 0 then (b, .error .unavailable)
  else
    match observed with
    | none => ({ b with lastClockSample := max b.lastClockSample sequence }, .error .unavailable)
    | some now =>
      if now = 0 then
        ({ b with lastClockSample := max b.lastClockSample sequence }, .error .unavailable)
      else if sequence ≤ b.lastClockSample then
        (b, if b.lastNow = 0 then .error .unavailable else .ok b.lastNow)
      else if now < b.lastNow then ({ b with lastClockSample := sequence }, .error .unavailable)
      else ({ b with lastClockSample := sequence, lastNow := now }, .ok now)

def Broker.reserveEpochs (b : Broker) (count : Nat) : Except Failure (Broker × Nat) :=
  if count = 0 then .ok (b, 0)
  else if maxUint64 - b.nextEpoch < count then .error .unavailable
  else .ok ({ b with nextEpoch := b.nextEpoch + count }, b.nextEpoch + 1)

/-- The saturating use counter; its new value is the `lastUsed` of what was touched. -/
def Broker.touch (b : Broker) : Broker :=
  { b with nextUse := if b.nextUse = maxUint64 then b.nextUse else b.nextUse + 1 }

/-! ## Sessions and lineages -/

/-- A session time is a whole second of the years 1 to 9999. -/
def canonicalSessionTime (value : Int) : Bool :=
  decide (0 < value ∧ value < endOfYear9999 ∧ value % second = 0)

def validSessionDuration (issuedAt expiresAt : Int) : Bool :=
  decide (minIssuedSessionTTL ≤ expiresAt - issuedAt ∧ expiresAt - issuedAt ≤ maxIssuedSessionTTL)

def Broker.sessionValid (b : Broker) (session : IssuedSession) : Bool :=
  session.binding.initialized && canonicalSessionTime session.issuedAt &&
    canonicalSessionTime session.expiresAt &&
    validSessionDuration session.issuedAt session.expiresAt &&
    decide (session.id ∉ b.destroyedSessions)

/-- The last instant at which a use may start. -/
def IssuedSession.useCutoff (session : IssuedSession) : Int :=
  session.expiresAt - sessionExpirySkew - minNewUseLifetime

def Broker.canStartUse (b : Broker) (session : IssuedSession) (now : Int) : Bool :=
  b.sessionValid session && now != 0 && decide (now ≤ session.useCutoff)

def Broker.refreshDue (b : Broker) (session : IssuedSession) (now : Int) : Bool :=
  b.sessionValid session && now != 0 && decide (session.expiresAt - sessionRefreshAhead ≤ now)

def Broker.validIssuedSession (b : Broker) (request : Request) (issued : IssuedSession)
    (now : Int) : Bool :=
  b.sessionValid issued && equalDigest issued.binding request.bindingDigest &&
    decide (issued.issuedAt ≤ now) && decide (minIssuedSessionTTL ≤ issued.expiresAt - now) &&
    b.canStartUse issued now

def newLineageState (request : Request) (epoch : Nat) : Lineage :=
  ⟨request.connectionGeneration, request.provider, request.referenceID, request.version,
    request.sourceDigest, epoch, 0⟩

def sameLineageRequest (lineage : Lineage) (request : Request) : Bool :=
  lineage.generation == request.connectionGeneration && lineage.provider == request.provider &&
    lineage.referenceID == request.referenceID && lineage.version == request.version &&
    equalDigest lineage.sourceDigest request.sourceDigest

/-- `cellCurrentLocked`: the cell carries the live epochs of its connection and operation. -/
def Broker.cellCurrent (b : Broker) (cell : SessionCell) : Bool :=
  !cell.invalid && b.sessionValid cell.session &&
    match b.lineages.lookup (keyForConnection cell.request),
        b.operations.lookup (keyForOperation cell.request) with
    | some lineage, some operation =>
      !operation.terminal && lineage.epoch == cell.connEpoch && operation.epoch == cell.opEpoch &&
        decide (lineage.revokedThrough < lineage.generation) &&
        equalDigest operation.binding cell.request.bindingDigest
    | _, _ => false

/-! ## Expiry evidence -/

/-- The time until which unrevoked provider authority may live; 0 when none is known. -/
def Broker.connectionExpiryBound (b : Broker) (key : ConnectionKey) : Int :=
  (b.connectionExpiry.lookup key).getD 0

def Broker.operationExpiryBound (b : Broker) (key : OperationKey) : Int :=
  (b.operationExpiry.lookup key).getD 0

def Broker.recordExpiryUntil (b : Broker) (request : Request) (expiresAt : Int) : Broker :=
  let conn := keyForConnection request
  let op := keyForOperation request
  { b with
    connectionExpiry :=
      if (b.lineages.lookup conn).isSome ∧ b.connectionExpiryBound conn < expiresAt then
        b.connectionExpiry.insert conn expiresAt
      else b.connectionExpiry
    operationExpiry :=
      if (b.operations.lookup op).isSome ∧ b.operationExpiryBound op < expiresAt then
        b.operationExpiry.insert op expiresAt
      else b.operationExpiry }

def Broker.recordExpiryEvidence (b : Broker) (cell : SessionCell) (now : Int) : Broker :=
  if !b.sessionValid cell.session || cell.revocation.isSome then b
  else if now < cell.session.expiresAt then b.recordExpiryUntil cell.request cell.session.expiresAt
  else b

def Broker.sweepExpiryEvidence (b : Broker) (now : Int) : Broker :=
  { b with
    connectionExpiry := (b.connectionExpiry.keys.filter
      fun key => decide (b.connectionExpiryBound key ≤ now)).foldl
        (fun bounds key => bounds.erase key) b.connectionExpiry
    operationExpiry := (b.operationExpiry.keys.filter
      fun key => decide (b.operationExpiryBound key ≤ now)).foldl
        (fun bounds key => bounds.erase key) b.operationExpiry }

def Broker.connectionExpiryEvidence (b : Broker) (key : ConnectionKey) (now : Int) :
    RevocationResult :=
  if now < b.connectionExpiryBound key then .expiryBound else .notRequired

def Broker.operationExpiryEvidence (b : Broker) (key : OperationKey) (now : Int) :
    RevocationResult :=
  if now < b.operationExpiryBound key then .expiryBound else .notRequired

def Broker.allExpiryEvidence (b : Broker) (now : Int) : RevocationResult :=
  if b.connectionExpiry.keys.any fun key => decide (now < b.connectionExpiryBound key) then
    .expiryBound
  else .notRequired

/-! ## Disposal, sweeping and invalidation -/

def Work.addSource (w : Work) (material : Nat) : Work :=
  { w with
    broker := { w.broker with sourceReservations := w.broker.sourceReservations + 1 }
    disposal := { w.disposal with
      sources := w.disposal.sources ++ [material]
      sourceSlots := w.disposal.sourceSlots + 1 } }

def Work.addSession (w : Work) (session : IssuedSession) : Work :=
  { w with
    broker := { w.broker with sessionReservations := w.broker.sessionReservations + 1 }
    disposal := { w.disposal with
      sessions := w.disposal.sessions ++ [session]
      sessionSlots := w.disposal.sessionSlots + 1 } }

def Work.addFlightSource (w : Work) (owner : Owner) : Work :=
  { w with disposal := { w.disposal with flightSources := w.disposal.flightSources ++ [owner] } }

def Work.cancel (w : Work) (target : Cancel) : Work := { w with cancels := w.cancels ++ [target] }

def Broker.removeCell (b : Broker) (i : Nat) : Broker :=
  { b with cells := b.cells.filter (· ≠ i) }

/-- The binding no longer leads to the cell. -/
def Broker.unlinkSession (b : Broker) (binding : DigestValue) (i : Nat) : Broker :=
  if b.sessions.lookup binding = some i then { b with sessions := b.sessions.erase binding } else b

def Work.sweepSource (now : Int) (w : Work) (digest : DigestValue) : Work :=
  match w.broker.sources.lookup digest with
  | none => w
  | some i =>
    match w.broker.entryHeap[i]? with
    | none => w
    | some entry =>
      if now < entry.expiresAt ∧ entry.material ∉ w.broker.destroyedSources then w
      else
        let retire := entry.borrows ≠ 0
        let b := { w.broker with
          sources := w.broker.sources.erase digest
          retiredSources := if retire then w.broker.retiredSources ++ [i]
            else w.broker.retiredSources }
        let b := b.modifyEntry i fun entry =>
          { entry with invalid := true, retired := entry.retired || decide retire }
        if retire then { w with broker := b } else { w with broker := b }.addSource entry.material

def Work.sweepSession (now : Int) (w : Work) (binding : DigestValue) : Work :=
  match w.broker.sessions.lookup binding with
  | none => w
  | some i =>
    match w.broker.cellHeap[i]? with
    | none => w
    | some cell =>
      if w.broker.canStartUse cell.session now then w
      else
        let b := { w.broker with sessions := w.broker.sessions.erase binding }
        let b := b.modifyCell i fun cell => { cell with draining := true }
        if cell.refs = 0 then
          { w with broker := (b.recordExpiryEvidence cell now).removeCell i }.addSession cell.session
        else { w with broker := b }

def Work.sweep (w : Work) (now : Int) : Work :=
  let w := { w with broker := w.broker.sweepExpiryEvidence now }
  let w := w.broker.sources.keys.foldl (Work.sweepSource now) w
  w.broker.sessions.keys.foldl (Work.sweepSession now) w

def newAttempt : RevocationAttempt := ⟨false, false, .notRequired, none⟩

/-- The part of `invalidateCellLocked` that no later section can undo. -/
def Work.markInvalid (w : Work) (i : Nat) (cell : SessionCell) : Work :=
  let w := { w with broker := w.broker.unlinkSession cell.request.bindingDigest i }
  if cell.invalid then w
  else { w with broker := w.broker.modifyCell i fun cell =>
    { cell with invalid := true, draining := true } }.cancel (.cell i)

/-- `invalidateCellLocked` with a cancellation batch. The session is returned for disposal unless
it is held for an upstream revocation. -/
def Work.invalidateCell (w : Work) (i : Nat) (cell : SessionCell) (hold : Bool) :
    Work × Option IssuedSession :=
  let w := w.markInvalid i cell
  if hold then
    ({ w with broker := w.broker.modifyCell i fun cell =>
      { cell with revocation := some (cell.revocation.getD newAttempt) } }, none)
  else
    let gone := cell.refs = 0 ∧ cell.revocation.all RevocationAttempt.finished
    ({ w with broker := if gone then w.broker.removeCell i else w.broker }, some cell.session)

/-- One turn of `invalidateMatchingCellsLocked`; the list collects the pending attempts. -/
def Work.invalidateMatching (keep : SessionCell → Bool) (now : Int) (acc : Work × List Nat)
    (i : Nat) : Work × List Nat :=
  match acc.1.broker.cellHeap[i]? with
  | none => acc
  | some cell =>
    if !keep cell then acc
    else
      match cell.revocation with
      | some attempt => if attempt.finished then acc else (acc.1, acc.2 ++ [i])
      | none =>
        if now < cell.session.expiresAt then
          ((acc.1.invalidateCell i cell true).1, acc.2 ++ [i])
        else
          match acc.1.invalidateCell i cell false with
          | (w, some session) => (w.addSession session, acc.2)
          | (w, none) => (w, acc.2)

def Work.invalidateMatchingCells (w : Work) (keep : SessionCell → Bool) (now : Int) :
    Work × List Nat :=
  w.broker.cells.foldl (Work.invalidateMatching keep now) (w, [])

/-- A cell that no flight may serve any more; with no reference left it goes at once. -/
def Work.drainCell (w : Work) (i : Nat) : Work :=
  match w.broker.cellHeap[i]? with
  | none => w
  | some cell =>
    let b := w.broker.unlinkSession cell.request.bindingDigest i
    let b := b.modifyCell i fun cell => { cell with draining := true }
    if cell.refs = 0 then
      { w with broker := (b.recordExpiryEvidence cell b.lastNow).removeCell i }.addSession
        cell.session
    else { w with broker := b }

def Work.dropSource (keep : ConnectionKey → Bool) (w : Work) (digest : DigestValue) : Work :=
  match w.broker.sources.lookup digest with
  | none => w
  | some i =>
    match w.broker.entryHeap[i]? with
    | none => w
    | some entry =>
      if !keep entry.key then w
      else
        let b := { w.broker with sources := w.broker.sources.erase digest }
        { w with broker := b.modifyEntry i fun entry => { entry with invalid := true } }.addSource
          entry.material

def Work.dropRetired (keep : ConnectionKey → Bool) (w : Work) (i : Nat) : Work :=
  match w.broker.entryHeap[i]? with
  | none => w
  | some entry =>
    if !keep entry.key then w
    else
      let b := { w.broker with retiredSources := w.broker.retiredSources.filter (· ≠ i) }
      { w with broker := b.modifyEntry i fun entry => { entry with retired := false } }.addSource
        entry.material

def Work.dropSources (w : Work) (keep : ConnectionKey → Bool) : Work :=
  let w := w.broker.sources.keys.foldl (Work.dropSource keep) w
  w.broker.retiredSources.foldl (Work.dropRetired keep) w

/-- The flights of a map, with their indexes. -/
def Broker.liveSourceFlights (b : Broker) : List (Nat × SourceFlight) :=
  b.sourceFlights.entries.filterMap fun row =>
    (b.sourceFlightHeap[row.2]?).map fun flight => (row.2, flight)

def Broker.liveSessionFlights (b : Broker) : List (Nat × SessionFlight) :=
  b.sessionFlights.entries.filterMap fun row =>
    (b.sessionFlightHeap[row.2]?).map fun flight => (row.2, flight)

def Broker.liveRotations (b : Broker) : List (Nat × RotationFlight) :=
  b.rotations.entries.filterMap fun row =>
    (b.rotationHeap[row.2]?).map fun flight => (row.2, flight)

def Work.cancelSourceFlights (w : Work) (keep : SourceFlight → Bool) : Work :=
  (w.broker.liveSourceFlights.filter fun row => keep row.2).foldl
    (fun w row => (w.addFlightSource (.source row.1)).cancel (.source row.1)) w

def Work.cancelSessionFlights (w : Work) (keep : SessionFlight → Bool) : Work :=
  (w.broker.liveSessionFlights.filter fun row => keep row.2).foldl
    (fun w row => w.cancel (.session row.1)) w

def Work.cancelRotations (w : Work) (keep : Nat × RotationFlight → Bool) : Work :=
  (w.broker.liveRotations.filter keep).foldl
    (fun w row => (w.addFlightSource (.rotation row.1)).cancel (.rotation row.1)) w

def Work.invalidateConnection (w : Work) (key : ConnectionKey) (now : Int)
    (exclude : Option Nat) : Work × List Nat :=
  let w := w.dropSources fun owner => owner == key
  let w := w.cancelSourceFlights fun flight => keyForConnection flight.request == key
  let w := w.cancelSessionFlights fun flight => keyForConnection flight.request == key
  let w := w.cancelRotations fun row =>
    keyForConnection row.2.request == key && some row.1 != exclude
  w.invalidateMatchingCells (fun cell => keyForConnection cell.request == key) now

def Broker.unfinishedRevocations (b : Broker) (keep : SessionCell → Bool) : List Nat :=
  b.cells.filter fun i =>
    (b.cellHeap[i]?).any fun cell =>
      keep cell && cell.revocation.any fun attempt => !attempt.finished

def Broker.unfinishedSessionFlights (b : Broker) (keep : SessionFlight → Bool) : List Nat :=
  (b.liveSessionFlights.filter fun row => keep row.2 && !row.2.finished).map Prod.fst

def Broker.unfinishedSourceFlights (b : Broker) (keep : SourceFlight → Bool) : List Nat :=
  (b.liveSourceFlights.filter fun row => keep row.2 && !row.2.finished).map Prod.fst

/-! ## Room and leases -/

/-- The least recently used of the candidates. -/
def oldest {α : Type} (lastUsed : α → Nat) : List (Nat × α) → Option (Nat × α)
  | [] => none
  | row :: rest =>
    match oldest lastUsed rest with
    | none => some row
    | some best => if lastUsed best.2 < lastUsed row.2 then some best else some row

/-- `none` when there is no room; otherwise the evicted material, if one had to go. -/
def Broker.makeSourceRoom (b : Broker) (protect : Option ConnectionKey) :
    Option (Broker × Option Nat) :=
  if b.sources.keys.length + b.retiredSources.length + b.sourceFlights.keys.length +
      b.sourceReservations < maxSourceEntries then
    some (b, none)
  else
    let rows := b.sources.entries.filterMap fun row =>
      (b.entryHeap[row.2]?).map fun entry => (row.2, entry)
    match oldest SourceEntry.lastUsed (rows.filter fun row =>
        row.2.borrows == 0 && !row.2.invalid && some row.2.key != protect) with
    | none => none
    | some (i, entry) =>
      let b := { b with sources := b.sources.erase entry.digest }
      some (b.modifyEntry i fun entry => { entry with invalid := true }, some entry.material)

def Broker.evictable (b : Broker) (protect : Option ConnectionKey) : List (Nat × SessionCell) :=
  (b.cells.filterMap fun i => (b.cellHeap[i]?).map fun cell => (i, cell)).filter fun row =>
    row.2.refs == 0 && row.2.flightPins == 0 &&
      row.2.revocation.all RevocationAttempt.finished &&
      some (keyForConnection row.2.request) != protect

def Broker.makeSessionRoom (b : Broker) (protect : Option ConnectionKey) :
    Option (Broker × Option IssuedSession) :=
  if b.cells.length + b.sessionReservations < maxSessionEntries then some (b, none)
  else
    match oldest SessionCell.lastUsed (b.evictable protect) with
    | none => none
    | some (i, cell) =>
      let b := b.unlinkSession cell.request.bindingDigest i
      let b := b.modifyCell i fun cell =>
        { cell with invalid := true, draining := true, canceled := true }
      let b := b.recordExpiryEvidence { cell with invalid := true, draining := true } b.lastNow
      some (b.removeCell i, some cell.session)

/-- What had to go for the room is queued for disposal. -/
def Work.evictSource (w : Work) : Option Nat → Work
  | none => w
  | some material => w.addSource material

def Work.evictSession (w : Work) : Option IssuedSession → Work
  | none => w
  | some session => w.addSession session

def Broker.allocateLease (b : Broker) (i : Nat) : Broker :=
  let b := b.touch
  let b := b.modifyCell i fun cell => { cell with refs := cell.refs + 1, lastUsed := b.nextUse }
  { b with leaseHeap := b.leaseHeap ++ [⟨i, false, false⟩], activeLeases := b.activeLeases + 1 }

def Broker.newLease (b : Broker) (i : Nat) (now : Int) : Except Failure Broker :=
  if maxActiveLeases ≤ b.activeLeases + b.leaseReservations then .error .capacity
  else
    match b.cellHeap[i]? with
    | none => .error .revoked
    | some cell =>
      if !b.cellCurrent cell then .error .revoked
      else if !b.canStartUse cell.session now then .error .expired
      else .ok (b.allocateLease i)

/-! ## Lineages and operations of a request -/

def Broker.checkLineage (b : Broker) (request : Request) : Except Failure Unit :=
  match b.lineages.lookup (keyForConnection request) with
  | none => .ok ()
  | some lineage =>
    if request.connectionGeneration < lineage.generation then .error .stale
    else if request.connectionGeneration = lineage.generation ∧
        !sameLineageRequest lineage request then
      .error .conflict
    else if request.connectionGeneration ≤ lineage.revokedThrough then .error .revoked
    else if lineage.generation < request.connectionGeneration then
      .error .credentialRotationRequired
    else .ok ()

def Broker.checkOperation (b : Broker) (request : Request) : Except Failure Unit :=
  match b.operations.lookup (keyForOperation request) with
  | none => .ok ()
  | some operation =>
    if operation.terminal then .error .operationTerminated
    else if !equalDigest operation.binding request.bindingDigest then .error .conflict
    else .ok ()

def Broker.prepareRequest (b : Broker) (request : Request) : Except Failure Broker :=
  let conn := keyForConnection request
  let op := keyForOperation request
  if keyForIssuer request ∉ b.issuers then .error .unavailable
  else if conn ∉ b.lineages ∧ maxTrackedConnections ≤ b.lineages.keys.length then .error .capacity
  else if op ∉ b.operations ∧
      maxTrackedOperations ≤ b.operations.keys.length + b.operationReservations then
    .error .capacity
  else
    match b.checkLineage request with
    | .error failure => .error failure
    | .ok () =>
      match b.checkOperation request with
      | .error failure => .error failure
      | .ok () =>
        let newConn := if conn ∈ b.lineages then 0 else 1
        let newOp := if op ∈ b.operations then 0 else 1
        match b.reserveEpochs (newConn + newOp) with
        | .error failure => .error failure
        | .ok (b, first) =>
          .ok { b with
            lineages := if conn ∈ b.lineages then b.lineages
              else b.lineages.insert conn (newLineageState request first)
            operations := if op ∈ b.operations then b.operations
              else b.operations.insert op ⟨request.bindingDigest, first + newConn, false⟩ }

def validateRotationTarget (lineage : Option Lineage) (next : Request) : Except Failure Lineage :=
  match lineage with
  | none => .error .conflict
  | some lineage =>
    if next.connectionGeneration ≤ lineage.revokedThrough then .error .revoked
    else if next.connectionGeneration ≤ lineage.generation then .error .stale
    else if next.provider ≠ lineage.provider then .error .conflict
    else if next.referenceID ≠ lineage.referenceID then .error .conflict
    else if next.version = lineage.version then .error .conflict
    else .ok lineage

/-- An absent lineage passes. -/
def Broker.validateLifecycleLineage (b : Broker) (request : Request) :
    Except Failure (Option Lineage) :=
  match b.lineages.lookup (keyForConnection request) with
  | none => .ok none
  | some lineage =>
    if request.connectionGeneration < lineage.generation then .error .stale
    else if lineage.generation < request.connectionGeneration then
      .error .credentialRotationRequired
    else if !sameLineageRequest lineage request then .error .conflict
    else .ok (some lineage)

end Veer.CredentialBroker
