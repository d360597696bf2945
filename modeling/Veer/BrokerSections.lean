import Veer.BrokerLocked

/-!
# The critical sections of the broker

One function per stage: what a goroutine does from one release of a lock to the next. The
environment of a step supplies what the broker does not decide: the reading of the clock, the
answers of resolver, issuer and revoker, and whether a context is done. The gate that lets one
invalidation run at a time is left out; the machine has the runs without it as well.
-/
namespace Veer.CredentialBroker
open Reconcile (ID DigestValue equalDigest maxUint64)

structure Env where
  observed : Option Int
  /-- The caller's context is done. -/
  canceled : Bool
  /-- A derived context or a timeout ended the wait or the use. -/
  interrupted : Bool
  /-- The backend answered without an error. -/
  ok : Bool
  /-- Binding, issue and expiry time of the session that `Issue` returned. -/
  session : Option (DigestValue × Int × Int)
  result : RevocationResult
  deriving DecidableEq, Repr

inductive Output
  | quiet
  | failed (failure : Failure)
  | leased (lease : Nat)
  | rotated (lease : Nat) (prior : RevocationResult)
  | started (lease cell : Nat) (observed admittedAt : Int)
  | used
  | revocation (result : RevocationResult) (err : Option Failure)
  deriving DecidableEq, Repr

/-- The state after a section, the stages that follow and what a caller is told. -/
structure Outcome where
  broker : Broker
  stages : List Stage
  output : Output

def Broker.fail (b : Broker) (failure : Failure) : Outcome := ⟨b, [], .failed failure⟩

def Broker.go (b : Broker) (next : Stage) : Outcome := ⟨b, [next], .quiet⟩

def Work.fail (w : Work) (failure : Failure) : Outcome :=
  ⟨w.broker, [.dispose w.disposal .returned], .failed failure⟩

def Work.go (w : Work) (next : Stage) : Outcome := ⟨w.broker, [.dispose w.disposal next], .quiet⟩

def normalizeFlightError : Option Failure → Option Failure
  | none => none
  | some .context => some .unavailable
  | some failure => some failure

/-! ## Source material -/

def Broker.destroySource (b : Broker) (material : Option Nat) : Broker :=
  match material with
  | none => b
  | some m => { b with destroyedSources := m :: b.destroyedSources }

def Broker.destroySession (b : Broker) (session : IssuedSession) : Broker :=
  { b with destroyedSessions := session.id :: b.destroyedSessions }

def Broker.flightSource (b : Broker) : Owner → Option FlightSource
  | .source i => (b.sourceFlightHeap[i]?).map SourceFlight.source
  | .rotation i => (b.rotationHeap[i]?).map RotationFlight.source

def Broker.setFlightSource (b : Broker) (owner : Owner) (source : FlightSource) : Broker :=
  match owner with
  | .source i => b.modifySourceFlight i fun flight => { flight with source := source }
  | .rotation i => b.modifyRotation i fun flight => { flight with source := source }

/-- `flightSource.invalidate`: the material is destroyed and none can be published later. -/
def Broker.invalidateSource (b : Broker) (owner : Owner) : Broker :=
  match b.flightSource owner with
  | none => b
  | some source => (b.setFlightSource owner ⟨none, true⟩).destroySource source.material

def Broker.cancel (b : Broker) : Cancel → Broker
  | .source i => b.modifySourceFlight i fun flight => { flight with canceled := true }
  | .session i => b.modifySessionFlight i fun flight => { flight with canceled := true }
  | .rotation i => b.modifyRotation i fun flight => { flight with canceled := true }
  | .cell i => b.modifyCell i fun cell => { cell with canceled := true }

def Owner.cancel : Owner → Cancel
  | .source i => .source i
  | .rotation i => .rotation i

/-! ## Acquire and Refresh -/

def Broker.registerIssuer (b : Broker) (key : IssuerKey) : Outcome :=
  if b.closed then b.fail .closed
  else if key ∈ b.issuers then b.fail .conflict
  else if maxIssuerRegistrations ≤ b.issuers.length then b.fail .capacity
  else ⟨{ b with issuers := b.issuers ++ [key] }, [], .quiet⟩

def Broker.leaveSessionFlight (b : Broker) (i : Nat) (canceled : Bool) : Broker :=
  b.modifySessionFlight i fun flight =>
    let waiters := flight.waiters - 1
    let last := canceled && !flight.finished && waiters == 0
    { flight with
      waiters := waiters
      abandoned := flight.abandoned || last
      canceled := flight.canceled || last }

def newFlight (request : Request) (force : Bool) (fallback : Option Nat) (lineage : Lineage)
    (operation : OperationState) : SessionFlight where
  request := request
  connEpoch := lineage.epoch
  opEpoch := operation.epoch
  refresh := force || fallback.isSome
  fallback := fallback
  reserved := true
  pinned := fallback
  canceled := false
  waiters := 1
  finished := false
  abandoned := false
  cell := none
  revocation := .notRequired
  revocationErr := none
  err := none

def Broker.addFlight (b : Broker) (flight : SessionFlight) : Broker :=
  { b with
    sessionReservations := b.sessionReservations + 1
    sessionFlightHeap := b.sessionFlightHeap ++ [flight]
    sessionFlights := b.sessionFlights.insert flight.request.bindingDigest
      b.sessionFlightHeap.length }

def Broker.pin (b : Broker) : Option Nat → Broker
  | none => b
  | some i => b.modifyCell i fun cell => { cell with flightPins := cell.flightPins + 1 }

/-- The part of `acquire` that starts a flight for the prepared request. -/
def Work.startFlight (w : Work) (request : Request) (force : Bool) (fallback : Option Nat)
    (lineage : Lineage) (operation : OperationState) : Outcome :=
  match (w.broker.pin fallback).makeSessionRoom none with
  | none => w.fail .capacity
  | some (b, evicted) =>
    let w := { w with broker := b }.evictSession evicted
    { w with
      broker := w.broker.addFlight (newFlight request force fallback lineage operation) }.go
        (.launchFlight w.broker.sessionFlightHeap.length)

/-- The part of `acquire` after the cached cell was looked at: join the flight or start one. -/
def Work.joinFlight (w : Work) (request : Request) (force : Bool) (fallback : Option Nat) :
    Outcome :=
  match w.broker.lineages.lookup (keyForConnection request),
      w.broker.operations.lookup (keyForOperation request) with
  | some lineage, some operation =>
    match w.broker.sessionFlights.lookup request.bindingDigest with
    | none => w.startFlight request force fallback lineage operation
    | some i =>
      match w.broker.sessionFlightHeap[i]? with
      | none => w.fail .unavailable
      | some flight =>
        if flight.abandoned ∨ flight.connEpoch ≠ lineage.epoch ∨
            flight.opEpoch ≠ operation.epoch then
          w.fail .unavailable
        else
          { w with broker := w.broker.modifySessionFlight i fun flight =>
            { flight with waiters := flight.waiters + 1 } }.go (.awaitFlight i)
  | _, _ => w.fail .unavailable

/-- The handle is closed again when the caller has gone. -/
def Work.grant (w : Work) (env : Env) : Outcome :=
  let lease := w.broker.leaseHeap.length - 1
  if env.canceled then
    ⟨w.broker, [.dispose w.disposal (.closeLease lease)], .failed .context⟩
  else ⟨w.broker, [.dispose w.disposal .returned], .leased lease⟩

/-- The part of `acquire` that looks at the cached cell. -/
def Work.acquireCell (w : Work) (request : Request) (force : Bool) (now : Int) (env : Env) :
    Outcome :=
  match w.broker.sessions.lookup request.bindingDigest with
  | none => w.joinFlight request force none
  | some i =>
    match w.broker.cellHeap[i]? with
    | none => w.joinFlight request force none
    | some cell =>
      if w.broker.cellCurrent cell && w.broker.canStartUse cell.session now then
        if !force && !w.broker.refreshDue cell.session now then
          match w.broker.newLease i now with
          | .error failure => w.fail failure
          | .ok b => { w with broker := b }.grant env
        else w.joinFlight request force (some i)
      else (w.drainCell i).joinFlight request force none

def Broker.acquire (b : Broker) (request : Request) (force : Bool) (sequence : Nat) (env : Env) :
    Outcome :=
  if b.closed then b.fail .closed
  else
    match b.observeNow sequence env.observed with
    | (b, .error failure) => b.fail failure
    | (b, .ok now) =>
      let w := b.work.sweep now
      if maxActiveLeases ≤ w.broker.activeLeases + w.broker.leaseReservations then
        w.fail .capacity
      else
        match w.broker.prepareRequest request with
        | .error failure => w.fail failure
        | .ok b => { w with broker := b }.acquireCell request force now env

/-- The flight's own goroutine starts; the caller waits for it. -/
def Broker.launchFlight (b : Broker) (i : Nat) : Outcome :=
  ⟨b, [.awaitFlight i, .flightStart i], .quiet⟩

def Broker.awaitFlight (b : Broker) (i : Nat) (env : Env) : Outcome :=
  if env.canceled then (b.leaveSessionFlight i true).fail .context
  else if (b.sessionFlightHeap[i]?).any SessionFlight.finished then
    (b.leaveSessionFlight i false).go (.takeLease i)
  else b.go (.awaitFlight i)

def Broker.fallbackCurrent (b : Broker) (flight : SessionFlight) (now : Int) : Bool :=
  match flight.fallback with
  | none => false
  | some i =>
    match b.cellHeap[i]? with
    | none => false
    | some cell =>
      b.sessions.lookup flight.request.bindingDigest == some i && b.cellCurrent cell &&
        cell.connEpoch == flight.connEpoch && cell.opEpoch == flight.opEpoch &&
        b.canStartUse cell.session now

/-- `newLeaseLocked` on a cell that may be absent. -/
def Broker.leaseOn (b : Broker) (cell : Option Nat) (now : Int) : Except Failure Broker :=
  match cell with
  | none =>
    if maxActiveLeases ≤ b.activeLeases + b.leaseReservations then .error .capacity
    else .error .revoked
  | some i => b.newLease i now

def Broker.takeLease (b : Broker) (i : Nat) (sequence : Nat) (env : Env) : Outcome :=
  match b.sessionFlightHeap[i]? with
  | none => b.fail .unavailable
  | some flight =>
    match b.observeNow sequence env.observed with
    | (b, .error failure) => b.fail failure
    | (b, .ok now) =>
      match flight.err with
      | none =>
        match b.leaseOn flight.cell now with
        | .error failure => b.fail failure
        | .ok b => b.work.grant env
      | some failure =>
        if failure = .unavailable ∧ flight.refresh ∧ b.fallbackCurrent flight now then
          match b.leaseOn flight.fallback now with
          | .error failure => b.fail failure
          | .ok b => b.work.grant env
        else b.fail failure

/-! ## The session flight -/

def Broker.leaveSourceFlight (b : Broker) (i : Nat) (canceled : Bool) : Broker × Bool :=
  let last := (b.sourceFlightHeap[i]?).any fun flight =>
    canceled && !flight.finished && flight.waiters - 1 == 0
  (b.modifySourceFlight i fun flight =>
    { flight with waiters := flight.waiters - 1, abandoned := flight.abandoned || last }, last)

def Broker.flightStart (b : Broker) (i : Nat) : Outcome :=
  if (b.sessionFlightHeap[i]?).any SessionFlight.canceled then
    b.go (.flightFinish i none (some .context))
  else b.go (.flightSource i)

/-- The reading of a cached source. -/
def Broker.sourceUsable (b : Broker) (entry : SourceEntry) (now : Int) : Bool :=
  !entry.invalid && decide (now < entry.expiresAt) && decide (entry.material ∉ b.destroyedSources)

def Broker.borrow (b : Broker) (i : Nat) : Broker :=
  let b := b.touch
  b.modifyEntry i fun entry => { entry with borrows := entry.borrows + 1, lastUsed := b.nextUse }

def newSourceFlight (flight : SessionFlight) : SourceFlight where
  request := flight.request
  connEpoch := flight.connEpoch
  sourceExpiresAt := 0
  canceled := false
  waiters := 1
  finished := false
  abandoned := false
  source := ⟨none, false⟩
  entry := none
  err := none

def Broker.addSourceFlight (b : Broker) (flight : SourceFlight) : Broker :=
  { b with
    sourceFlightHeap := b.sourceFlightHeap ++ [flight]
    sourceFlights := b.sourceFlights.insert flight.request.sourceDigest b.sourceFlightHeap.length
    activeResolves := b.activeResolves + 1 }

/-- The part of `acquireSource` that joins a source flight or starts one. -/
def Work.joinSource (w : Work) (i : Nat) (flight : SessionFlight) : Outcome :=
  let stop (w : Work) (failure : Failure) : Outcome :=
    w.go (.flightFinish i none (some failure))
  match w.broker.sourceFlights.lookup flight.request.sourceDigest with
  | some j =>
    match w.broker.sourceFlightHeap[j]? with
    | none => stop w .unavailable
    | some source =>
      if source.abandoned ∨ source.connEpoch ≠ flight.connEpoch then stop w .unavailable
      else
        { w with broker := w.broker.modifySourceFlight j fun source =>
          { source with waiters := source.waiters + 1 } }.go (.flightAwaitSource i j)
  | none =>
    if maxConcurrentResolves ≤ w.broker.activeResolves then stop w .capacity
    else
      match w.broker.makeSourceRoom none with
      | none => stop w .capacity
      | some (b, evicted) =>
        let w := { w with broker := b }.evictSource evicted
        { w with broker := w.broker.addSourceFlight (newSourceFlight flight) }.go
          (.launchSource i w.broker.sourceFlightHeap.length)

def Broker.flightSourceSection (b : Broker) (i : Nat) (sequence : Nat) (env : Env) : Outcome :=
  match b.sessionFlightHeap[i]? with
  | none => b.fail .unavailable
  | some flight =>
    if b.closed then b.go (.flightFinish i none (some .closed))
    else
      match b.observeNow sequence env.observed with
      | (b, .error failure) => b.go (.flightFinish i none (some failure))
      | (b, .ok now) =>
        let w := b.work.sweep now
        let live := (w.broker.lineages.lookup (keyForConnection flight.request)).any fun lineage =>
          lineage.epoch == flight.connEpoch &&
            decide (lineage.revokedThrough < lineage.generation) &&
            sameLineageRequest lineage flight.request
        if !live then w.go (.flightFinish i none (some .revoked))
        else
          match w.broker.sources.lookup flight.request.sourceDigest with
          | none => w.joinSource i flight
          | some e =>
            if (w.broker.entryHeap[e]?).any fun entry =>
                entry.epoch == flight.connEpoch && w.broker.sourceUsable entry now then
              { w with broker := w.broker.borrow e }.go (.flightIssue i e)
            else w.joinSource i flight

def Broker.launchSource (b : Broker) (i j : Nat) : Outcome :=
  ⟨b, [.flightAwaitSource i j, .sourceResolve (.source j)], .quiet⟩

def Broker.flightAwaitSource (b : Broker) (i j : Nat) : Outcome :=
  let canceled := (b.sessionFlightHeap[i]?).any SessionFlight.canceled
  let finished := (b.sourceFlightHeap[j]?).any SourceFlight.finished
  if canceled then
    let (b, last) := b.leaveSourceFlight j true
    if last then b.go (.abandon (.source j) (.flightFinish i none (some .context)))
    else b.go (.flightFinish i none (some .context))
  else if finished then (b.leaveSourceFlight j false).1.go (.flightBorrow i j)
  else b.go (.flightAwaitSource i j)

def Broker.flightBorrow (b : Broker) (i j : Nat) (sequence : Nat) (env : Env) : Outcome :=
  match b.sourceFlightHeap[j]? with
  | none => b.go (.flightFinish i none (some .unavailable))
  | some source =>
    match b.observeNow sequence env.observed with
    | (b, .error failure) => b.go (.flightFinish i none (some failure))
    | (b, .ok now) =>
      match source.err, source.entry with
      | some failure, _ => b.go (.flightFinish i none (some failure))
      | none, none => b.go (.flightFinish i none (some .revoked))
      | none, some e =>
        let live := (b.lineages.lookup (keyForConnection source.request)).any fun lineage =>
          lineage.epoch == source.connEpoch
        if b.closed || !live || !((b.entryHeap[e]?).any fun entry => b.sourceUsable entry now) then
          b.go (.flightFinish i none (some .revoked))
        else (b.borrow e).go (.flightIssue i e)

/-- The session that the issuer's answer brings. -/
def Broker.issue (b : Broker) (env : Env) : Broker × Option IssuedSession :=
  match env.session with
  | none => (b, none)
  | some (binding, issuedAt, expiresAt) =>
    ({ b with issued := b.issued + 1 }, some ⟨b.issued, binding, issuedAt, expiresAt⟩)

def Broker.flightIssue (b : Broker) (i e : Nat) (env : Env) : Outcome :=
  let (b, issued) := b.issue env
  b.go (.flightRelease i e issued (if env.ok then none else some .unavailable))

def Broker.flightRelease (b : Broker) (i e : Nat) (issued : Option IssuedSession)
    (err : Option Failure) : Outcome :=
  match b.entryHeap[e]? with
  | none => b.go (.flightFinish i issued err)
  | some entry =>
    let borrows := entry.borrows - 1
    let b := b.modifyEntry e fun entry => { entry with borrows := borrows }
    if entry.invalid && borrows == 0 && entry.retired then
      let b := { b with retiredSources := b.retiredSources.filter (· ≠ e) }
      let b := b.modifyEntry e fun entry => { entry with retired := false }
      (b.work.addSource entry.material).go (.flightFinish i issued err)
    else b.go (.flightFinish i issued err)

/-- Why a finished flight may not publish; the first reason of the source's switch. -/
def Broker.flightStopped (b : Broker) (flight : SessionFlight) (err : Option Failure) :
    Option Failure :=
  let lineage := b.lineages.lookup (keyForConnection flight.request)
  let operation := b.operations.lookup (keyForOperation flight.request)
  if b.closed then some .closed
  else if !lineage.any fun lineage => lineage.epoch == flight.connEpoch &&
      decide (lineage.revokedThrough < lineage.generation) then
    some .revoked
  else if !operation.any fun operation => !operation.terminal &&
      operation.epoch == flight.opEpoch &&
      equalDigest operation.binding flight.request.bindingDigest then
    some .operationTerminated
  else if flight.abandoned ∨ flight.waiters = 0 ∨ flight.canceled then some .unavailable
  else err

def Broker.unpin (b : Broker) : Option Nat → Broker
  | none => b
  | some i => b.modifyCell i fun cell => { cell with flightPins := cell.flightPins - 1 }

/-- `releaseSessionFlightLocked`. -/
def Broker.forgetFlight (b : Broker) (i : Nat) (flight : SessionFlight) : Broker :=
  let binding := flight.request.bindingDigest
  let b := { b with
    sessionFlights := if b.sessionFlights.lookup binding = some i then
      b.sessionFlights.erase binding else b.sessionFlights
    sessionReservations := b.sessionReservations - flight.reserved.toNat }
  (b.unpin flight.pinned).modifySessionFlight i fun flight =>
    { flight with reserved := false, pinned := none }

def Work.drainOld (w : Work) (binding : DigestValue) : Work :=
  match w.broker.sessions.lookup binding with
  | none => w
  | some old => w.drainCell old

def SessionFlight.newCell (flight : SessionFlight) (issued : IssuedSession) (lastUsed : Nat) :
    SessionCell where
  request := flight.request
  session := issued
  connEpoch := flight.connEpoch
  opEpoch := flight.opEpoch
  lastUsed := lastUsed
  refs := 0
  flightPins := 0
  invalid := false
  draining := false
  revocation := none
  canceled := false

def Broker.addCell (b : Broker) (cell : SessionCell) : Broker :=
  { b with
    cellHeap := b.cellHeap ++ [cell]
    sessions := b.sessions.insert cell.request.bindingDigest b.cellHeap.length
    cells := b.cells ++ [b.cellHeap.length] }

/-- The new cell of a flight replaces the cell its binding had. -/
def Work.publishCell (w : Work) (i : Nat) (flight : SessionFlight) (issued : IssuedSession) :
    Work :=
  let b := w.broker.touch
  let cell := flight.newCell issued b.nextUse
  let w := { w with broker := b }.drainOld flight.request.bindingDigest
  let c := w.broker.cellHeap.length
  { w with broker := (w.broker.addCell cell).modifySessionFlight i fun flight =>
    { flight with cell := some c } }

def Broker.rejectFlight (b : Broker) (i : Nat) (issued : Option IssuedSession)
    (failure : Failure) : Outcome :=
  (b.modifySessionFlight i fun flight =>
    { flight with err := normalizeFlightError (some failure), canceled := true }).go
      (.flightCleanup i issued)

/-- A flight keeps its reserved entry until it is released, which only happens after this section;
the source's search for room is never entered. -/
def Broker.flightFinish (b : Broker) (i : Nat) (issued : Option IssuedSession)
    (err : Option Failure) (sequence : Nat) (env : Env) : Outcome :=
  match b.sessionFlightHeap[i]? with
  | none => b.fail .unavailable
  | some flight =>
    match b.flightStopped flight err with
    | some failure => b.rejectFlight i issued failure
    | none =>
      match b.observeNow sequence env.observed with
      | (b, .error failure) => b.rejectFlight i issued failure
      | (b, .ok now) =>
        match issued with
        | none => b.rejectFlight i issued .unavailable
        | some session =>
          if !b.validIssuedSession flight.request session now then
            b.rejectFlight i issued .unavailable
          else
            let w := b.work.publishCell i flight session
            let b := w.broker.modifySessionFlight i fun flight =>
              { flight with err := none, canceled := true }
            { w with broker := b.forgetFlight i flight }.go (.flightClose i)

def Broker.flightCleanup (b : Broker) (i : Nat) (issued : Option IssuedSession) : Outcome :=
  match issued with
  | none => b.go (.flightForget i .notRequired none)
  | some session =>
    if b.sessionValid session then b.go (.flightRevoke i session)
    else (b.destroySession session).go (.flightForget i .notRequired none)

/-- What the provider's answer counts as. -/
def revocationAnswer (env : Env) : RevocationResult × Option Failure :=
  if !env.ok ∨ env.result = .notRequired ∨ env.result = .pending then (.pending, some .unavailable)
  else (env.result, none)

def Broker.recordRevocation (b : Broker) (request : Request) (session : IssuedSession)
    (result : RevocationResult) : Broker :=
  if (result = .expiryBound ∨ result = .pending) ∧ b.lastNow < session.expiresAt then
    b.recordExpiryUntil request session.expiresAt
  else b

/-- The provider has answered and the session is destroyed. -/
def Broker.flightRevoke (b : Broker) (i : Nat) (session : IssuedSession) (env : Env) : Outcome :=
  (b.destroySession session).go
    (.flightRecord i session (revocationAnswer env).1 (revocationAnswer env).2)

def Broker.flightRecord (b : Broker) (i : Nat) (session : IssuedSession)
    (result : RevocationResult) (err : Option Failure) : Outcome :=
  match b.sessionFlightHeap[i]? with
  | none => b.go (.flightForget i result err)
  | some flight => (b.recordRevocation flight.request session result).go (.flightForget i result err)

def Broker.flightForget (b : Broker) (i : Nat) (result : RevocationResult)
    (err : Option Failure) : Outcome :=
  match b.sessionFlightHeap[i]? with
  | none => b.go (.flightClose i)
  | some flight =>
    ((b.forgetFlight i flight).modifySessionFlight i fun flight =>
      { flight with revocation := result, revocationErr := err }).go (.flightClose i)

def Broker.flightClose (b : Broker) (i : Nat) : Outcome :=
  ⟨b.modifySessionFlight i fun flight => { flight with finished := true }, [], .quiet⟩

/-! ## Source flights -/

def Owner.resolved (owner : Owner) (material : Option Nat) : Stage :=
  match owner, material with
  | .source i, m => .sourceFinish i m
  | .rotation i, none => .rotationResolved i none
  | .rotation i, some m => .rotationObserve i m

/-- The resolver's answer, published into the flight. A refused claim ends here. -/
def Broker.sourceResolve (b : Broker) (owner : Owner) (env : Env) : Outcome :=
  if env.interrupted then (b.invalidateSource owner).go (owner.resolved none)
  else if !env.ok then b.go (.sourceResolved owner none)
  else
    let m := b.resolved
    let b := { b with resolved := b.resolved + 1 }
    match b.flightSource owner with
    | none => b.go (.sourceResolved owner none)
    | some source =>
      if source.invalid ∨ source.material.isSome then
        (b.destroySource (some m)).go (.sourceResolved owner none)
      else (b.setFlightSource owner ⟨some m, false⟩).go (.sourceResolved owner (some m))

/-- The time limit is anchored to the reading itself, whatever time was accepted for it. -/
def Broker.setSourceExpiry (b : Broker) (owner : Owner) (expiresAt : Int) : Broker :=
  match owner with
  | .source i => b.modifySourceFlight i fun flight => { flight with sourceExpiresAt := expiresAt }
  | .rotation i => b.modifyRotation i fun flight => { flight with sourceExpiresAt := expiresAt }

def Broker.sourceResolved (b : Broker) (owner : Owner) (material : Option Nat) (sequence : Nat)
    (env : Env) : Outcome :=
  match b.observeNow sequence env.observed with
  | (b, .error _) => (b.invalidateSource owner).go (owner.resolved none)
  | (b, .ok _) =>
    match material with
    | none => (b.invalidateSource owner).go (owner.resolved none)
    | some m =>
      if env.ok ∧ b.flightSource owner = some ⟨some m, false⟩ ∧ m ∉ b.destroyedSources then
        (b.setSourceExpiry owner (env.observed.getD 0 + maxSourceCacheTTL)).go
          (owner.resolved (some m))
      else (b.invalidateSource owner).go (owner.resolved none)

def Broker.rejectSource (b : Broker) (i : Nat) (failure : Failure) : Outcome :=
  (b.modifySourceFlight i fun flight =>
    { flight with err := normalizeFlightError (some failure) }).go (.sourceReject i)

def Broker.forgetSource (b : Broker) (i : Nat) (flight : SourceFlight) : Broker :=
  let digest := flight.request.sourceDigest
  let b := if b.sourceFlights.lookup digest = some i then
    { b with sourceFlights := b.sourceFlights.erase digest } else b
  let b := { b with activeResolves := b.activeResolves - 1 }
  b.modifySourceFlight i fun flight => { flight with finished := true }

def SourceFlight.newEntry (flight : SourceFlight) (m lastUsed : Nat) : SourceEntry where
  key := keyForConnection flight.request
  digest := flight.request.sourceDigest
  generation := flight.request.connectionGeneration
  epoch := flight.connEpoch
  material := m
  expiresAt := flight.sourceExpiresAt
  lastUsed := lastUsed
  borrows := 0
  invalid := false
  retired := false

def Broker.addEntry (b : Broker) (entry : SourceEntry) : Broker :=
  { b with
    entryHeap := b.entryHeap ++ [entry]
    sources := b.sources.insert entry.digest b.entryHeap.length }

def Broker.sourceFinish (b : Broker) (i : Nat) (material : Option Nat) (sequence : Nat)
    (env : Env) : Outcome :=
  match b.sourceFlightHeap[i]?, material with
  | none, _ => b.fail .unavailable
  | some _, none => b.rejectSource i .unavailable
  | some flight, some m =>
    match b.observeNow sequence env.observed with
    | (b, .error failure) => b.rejectSource i failure
    | (b, .ok now) =>
      let live := (b.lineages.lookup (keyForConnection flight.request)).any fun lineage =>
        lineage.epoch == flight.connEpoch &&
          decide (lineage.revokedThrough < lineage.generation) &&
          sameLineageRequest lineage flight.request
      if b.closed then b.rejectSource i .closed
      else if flight.abandoned ∨ flight.waiters = 0 ∨ flight.canceled then
        b.rejectSource i .unavailable
      else if !live then b.rejectSource i .revoked
      else if flight.sourceExpiresAt = 0 ∨ flight.sourceExpiresAt ≤ now then
        b.rejectSource i .unavailable
      else if m ∈ b.destroyedSources then b.rejectSource i .unavailable
      else if flight.source ≠ ⟨some m, false⟩ then b.rejectSource i .unavailable
      else
        let b := b.touch
        let e := b.entryHeap.length
        let b := b.addEntry (flight.newEntry m b.nextUse)
        let b := b.modifySourceFlight i fun flight =>
          { flight with source := ⟨none, false⟩, entry := some e, err := none, canceled := true }
        ⟨b.forgetSource i flight, [], .quiet⟩

def Broker.sourceReject (b : Broker) (i : Nat) : Outcome :=
  ((b.invalidateSource (.source i)).cancel (.source i)).go (.sourceClose i)

def Broker.sourceClose (b : Broker) (i : Nat) : Outcome :=
  match b.sourceFlightHeap[i]? with
  | none => ⟨b, [], .quiet⟩
  | some flight => ⟨b.forgetSource i flight, [], .quiet⟩

/-! ## Leases -/

def Broker.use (b : Broker) (l : Nat) (env : Env) : Outcome :=
  match b.leaseHeap[l]? with
  | none => b.fail .unavailable
  | some lease =>
    if env.canceled then b.fail .context
    else if lease.closed then b.fail .revoked
    else b.go (.usePrepare l)

/-- The cell of a handle. -/
def Broker.leaseCell (b : Broker) (l : Nat) : Option (Lease × SessionCell) :=
  match b.leaseHeap[l]? with
  | none => none
  | some lease => (b.cellHeap[lease.cell]?).map fun cell => (lease, cell)

def Broker.drain (b : Broker) (i : Nat) : Broker :=
  b.modifyCell i fun cell => { cell with draining := true }

def Broker.usePrepare (b : Broker) (l : Nat) (sequence : Nat) (env : Env) : Outcome :=
  match b.observeNow sequence env.observed with
  | (b, .error failure) => b.fail failure
  | (b, .ok now) =>
    match b.leaseCell l with
    | none => b.fail .unavailable
    | some (lease, cell) =>
      if b.closed then b.fail .closed
      else if cell.invalid then b.fail .revoked
      else if !b.canStartUse cell.session now then (b.drain lease.cell).fail .expired
      else b.go (.useAdmit l)

/-- Both locks are held from the first check to the completed copy, which starts the use. -/
def Broker.useAdmit (b : Broker) (l : Nat) (sequence : Nat) (env : Env) : Outcome :=
  match b.leaseCell l with
  | none => b.fail .unavailable
  | some (lease, cell) =>
    if env.canceled then b.fail .context
    else if lease.closed then b.fail .revoked
    else
      match b.observeNow sequence env.observed with
      | (b, .error failure) => b.fail failure
      | (b, .ok now) =>
        if b.closed then b.fail .closed
        else if cell.invalid ∨ !b.cellCurrent cell then b.fail .revoked
        else if !b.canStartUse cell.session now then (b.drain lease.cell).fail .expired
        else if env.interrupted then b.fail .unavailable
        else if !env.ok then b.go (.useReturn l false)
        else
          let b := b.touch
          let b := b.modifyCell lease.cell fun cell => { cell with lastUsed := b.nextUse }
          ⟨b, [.useReturn l true], .started l lease.cell (env.observed.getD 0) now⟩

/-- The callback has returned, or the copy was never made. -/
def Broker.useReturn (b : Broker) (l : Nat) (copied : Bool) (env : Env) : Outcome :=
  match b.leaseCell l with
  | none => b.fail .unavailable
  | some (lease, cell) =>
    if env.canceled then b.fail .context
    else if lease.closed ∨ cell.canceled then b.fail .revoked
    else if env.interrupted then b.fail (if env.ok then .expired else .unavailable)
    else b.go (.useFinish l copied)

def Broker.useFinish (b : Broker) (l : Nat) (copied : Bool) (sequence : Nat) (env : Env) :
    Outcome :=
  match b.observeNow sequence env.observed with
  | (b, .error failure) => b.fail failure
  | (b, .ok now) =>
    match b.leaseCell l with
    | none => b.fail .unavailable
    | some (_, cell) =>
      if b.closed then b.fail .closed
      else if !b.cellCurrent cell then b.fail .revoked
      else if cell.session.expiresAt - sessionExpirySkew ≤ now then b.fail .expired
      else if copied ∧ env.ok then ⟨b, [], .used⟩
      else b.fail .unavailable

def Broker.closeLease (b : Broker) (l : Nat) : Outcome :=
  match b.leaseHeap[l]? with
  | none => b.fail .unavailable
  | some lease =>
    if lease.closed then ⟨b, [], .quiet⟩
    else (b.modifyLease l fun lease => { lease with closed := true }).go (.releaseLease l)

def Broker.releaseLease (b : Broker) (l : Nat) : Outcome :=
  match b.leaseHeap[l]? with
  | none => b.fail .unavailable
  | some lease =>
    let b := b.modifyLease l fun lease => { lease with released := true }
    let b := b.modifyCell lease.cell fun cell => { cell with refs := cell.refs - 1 }
    let b := { b with activeLeases := b.activeLeases - 1 }
    match b.cellHeap[lease.cell]? with
    | none => ⟨b, [], .quiet⟩
    | some cell =>
      if cell.refs = 0 ∧ cell.revocation.all RevocationAttempt.finished ∧
          (cell.invalid ∨ cell.draining) then
        let b := (b.recordExpiryEvidence cell b.lastNow).removeCell lease.cell
        (b.work.addSession cell.session).go .returned
      else ⟨b, [], .quiet⟩

/-! ## Work outside the lock -/

/-- One destruction, or the release of the slots once all is destroyed. -/
def Broker.dispose (b : Broker) (disposal : Disposal) (next : Stage) : Outcome :=
  match disposal.flightSources with
  | owner :: rest =>
    (b.invalidateSource owner).go (.dispose { disposal with flightSources := rest } next)
  | [] =>
    match disposal.sources with
    | m :: rest => (b.destroySource (some m)).go (.dispose { disposal with sources := rest } next)
    | [] =>
      match disposal.sessions with
      | session :: rest =>
        (b.destroySession session).go (.dispose { disposal with sessions := rest } next)
      | [] =>
        { b with
          sourceReservations := b.sourceReservations - disposal.sourceSlots
          sessionReservations := b.sessionReservations - disposal.sessionSlots }.go next

def Broker.publish (b : Broker) (cancels : List Cancel) (next : Stage) : Outcome :=
  match cancels with
  | [] => b.go next
  | target :: rest => (b.cancel target).go (.publish rest next)

def Broker.abandon (b : Broker) (owner : Owner) (next : Stage) : Outcome :=
  ((b.invalidateSource owner).cancel owner.cancel).go next

end Veer.CredentialBroker
