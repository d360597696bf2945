import Veer.BrokerSections

/-!
# Rotation, revocation and shutdown

The critical sections that change the lineage of a connection, end an operation or close the
broker, and the clean-up they wait for.
-/
namespace Veer.CredentialBroker
open Reconcile (ID DigestValue equalDigest)

/-! ## Waiting for clean-up -/

/-- Destroy outside the lock, cancel what was collected, then wait for the clean-up. -/
def Work.settle (w : Work) (cleanup : Cleanup) : Outcome :=
  ⟨w.broker, [.dispose w.disposal (.publish w.cancels (.startCleanup cleanup))], .quiet⟩

def callerCleanup (attempts sessionFlights sourceFlights : List Nat) (rest : RevocationResult) :
    Cleanup :=
  { rotation := none
    attempts := attempts
    sessionFlights := sessionFlights
    sourceFlights := sourceFlights
    aggregate := .notRequired
    failed := false
    rest := rest
    clockErr := none
    recheck := false }

/-- The result of `waitLifecycleCleanup`, and what its caller makes of it. -/
def Broker.finishCleanup (b : Broker) (cleanup : Cleanup) (result : RevocationResult)
    (err : Option Failure) (env : Env) : Outcome :=
  match cleanup.rotation with
  | some r =>
    let prior := if err.isSome then .pending else result
    b.go (.rotationDone r (mergeRevocation prior cleanup.rest))
  | none =>
    if cleanup.recheck ∧ env.canceled then ⟨b, [], .revocation .pending (some .context)⟩
    else
      match err, cleanup.clockErr with
      | some failure, _ => ⟨b, [], .revocation result (some failure)⟩
      | none, some failure => ⟨b, [], .revocation .pending (some failure)⟩
      | none, none => ⟨b, [], .revocation (mergeRevocation result cleanup.rest) none⟩

/-- Starts the attempt of a cell that nobody has started yet. -/
def Broker.startAttempt (acc : Broker × List Stage) (i : Nat) : Broker × List Stage :=
  if (acc.1.cellHeap[i]?).any fun cell => cell.revocation.any fun attempt => !attempt.started then
    (acc.1.modifyCell i fun cell =>
      { cell with revocation := cell.revocation.map fun attempt =>
        { attempt with started := true } },
      acc.2 ++ [.revocation i])
  else acc

def Broker.startCleanup (b : Broker) (cleanup : Cleanup) (env : Env) : Outcome :=
  if cleanup.attempts = [] ∧ cleanup.sessionFlights = [] ∧ cleanup.sourceFlights = [] then
    b.finishCleanup cleanup .notRequired none env
  else
    let (b, stages) := cleanup.attempts.foldl Broker.startAttempt (b, [])
    ⟨b, .awaitCleanup cleanup :: stages, .quiet⟩

/-- One wait of `waitLifecycleCleanup`, or its end. -/
def Broker.awaitCleanup (b : Broker) (cleanup : Cleanup) (env : Env) : Outcome :=
  let merge (next : Cleanup) (result : RevocationResult) (err : Option Failure) : Outcome :=
    b.go (.awaitCleanup { next with
      aggregate := mergeRevocation cleanup.aggregate result
      failed := cleanup.failed || err.isSome })
  let expire (next : Cleanup) : Outcome :=
    b.go (.awaitCleanup { next with aggregate := .pending, failed := true })
  match cleanup.attempts, cleanup.sessionFlights, cleanup.sourceFlights with
  | i :: rest, _, _ =>
    let next := { cleanup with attempts := rest }
    match (b.cellHeap[i]?).bind SessionCell.revocation with
    | none => b.go (.awaitCleanup next)
    | some attempt =>
      if attempt.finished then merge next attempt.result attempt.err
      else if env.interrupted then expire next
      else b.go (.awaitCleanup cleanup)
  | [], i :: rest, _ =>
    let next := { cleanup with sessionFlights := rest }
    match b.sessionFlightHeap[i]? with
    | none => b.go (.awaitCleanup next)
    | some flight =>
      if flight.finished then merge next flight.revocation flight.revocationErr
      else if env.interrupted then expire next
      else b.go (.awaitCleanup cleanup)
  | [], [], i :: rest =>
    let next := { cleanup with sourceFlights := rest }
    if (b.sourceFlightHeap[i]?).all SourceFlight.finished then b.go (.awaitCleanup next)
    else if env.interrupted then expire next
    else b.go (.awaitCleanup cleanup)
  | [], [], [] =>
    let canceled := match cleanup.rotation with
      | some r => (b.rotationHeap[r]?).any RotationFlight.canceled
      | none => env.canceled
    if canceled then b.finishCleanup cleanup .pending (some .context) env
    else if cleanup.failed then b.finishCleanup cleanup .pending (some .unavailable) env
    else b.finishCleanup cleanup cleanup.aggregate none env

/-- `runRevocation` up to the destroyed session. -/
def Broker.revocation (b : Broker) (i : Nat) (env : Env) : Outcome :=
  match (b.cellHeap[i]?).filter fun cell => cell.revocation.isSome with
  | none => ⟨b, [], .quiet⟩
  | some cell =>
    (b.destroySession cell.session).go
      (.revocationFinish i (revocationAnswer env).1 (revocationAnswer env).2)

def Broker.revocationFinish (b : Broker) (i : Nat) (result : RevocationResult)
    (err : Option Failure) : Outcome :=
  match (b.cellHeap[i]?).filter fun cell => cell.revocation.isSome with
  | none => ⟨b, [], .quiet⟩
  | some cell =>
    let b := b.recordRevocation cell.request cell.session result
    let b := b.modifyCell i fun cell =>
      { cell with revocation := cell.revocation.map fun attempt =>
        { attempt with finished := true, result := result, err := err } }
    ⟨if cell.refs = 0 then b.removeCell i else b, [], .quiet⟩

/-! ## Rotation -/

def newRotation (request : Request) (lineage : Lineage) (missing : Bool) : RotationFlight where
  request := request
  fromEpoch := lineage.epoch
  fromGen := lineage.generation
  canceled := false
  waiters := 1
  finished := false
  abandoned := false
  cell := none
  source := ⟨none, false⟩
  reserved := true
  sourceExpiresAt := 0
  sourceReserved := true
  resolveActive := true
  operationReserved := missing
  leaseReserved := 1
  committed := false
  leases := []
  revocation := .notRequired
  err := none

def Broker.addRotation (b : Broker) (flight : RotationFlight) : Broker :=
  { b with
    sourceReservations := b.sourceReservations + 1
    sessionReservations := b.sessionReservations + 1
    operationReservations := b.operationReservations + flight.operationReserved.toNat
    activeResolves := b.activeResolves + 1
    leaseReservations := b.leaseReservations + 1
    rotationHeap := b.rotationHeap ++ [flight]
    rotations := b.rotations.insert (keyForConnection flight.request) b.rotationHeap.length }

/-- A new rotation flight for the validated target. -/
def Work.startRotation (w : Work) (request : Request) (lineage : Lineage) : Outcome :=
  let key := keyForConnection request
  let missing := decide (keyForOperation request ∉ w.broker.operations)
  if missing ∧
      maxTrackedOperations ≤ w.broker.operations.keys.length + w.broker.operationReservations then
    w.fail .capacity
  else if maxConcurrentResolves ≤ w.broker.activeResolves then w.fail .capacity
  else
    match w.broker.makeSourceRoom (some key) with
    | none => w.fail .capacity
    | some (b, evicted) =>
      let w := { w with broker := b }.evictSource evicted
      match w.broker.makeSessionRoom (some key) with
      | none => w.fail .capacity
      | some (b, evicted) =>
        let w := { w with broker := b }.evictSession evicted
        { w with broker := w.broker.addRotation (newRotation request lineage missing) }.go
          (.launchRotation w.broker.rotationHeap.length)

/-- The part of `Rotate` for a validated target: join the flight or start one. -/
def Work.joinRotation (w : Work) (request : Request) (lineage : Lineage) : Outcome :=
  match w.broker.rotations.lookup (keyForConnection request) with
  | none => w.startRotation request lineage
  | some r =>
    match w.broker.rotationHeap[r]? with
    | none => w.fail .conflict
    | some flight =>
      if flight.abandoned ∨ !equalDigest flight.request.bindingDigest request.bindingDigest ∨
          flight.fromEpoch ≠ lineage.epoch ∨ flight.committed then
        w.fail .conflict
      else
        let b := { w.broker with leaseReservations := w.broker.leaseReservations + 1 }
        let b := b.modifyRotation r fun flight =>
          { flight with leaseReserved := flight.leaseReserved + 1, waiters := flight.waiters + 1 }
        { w with broker := b }.go (.awaitRotation r)

def Broker.rotate (b : Broker) (request : Request) (sequence : Nat) (env : Env) : Outcome :=
  if b.closed then b.fail .closed
  else
    match b.observeNow sequence env.observed with
    | (b, .error failure) => b.fail failure
    | (b, .ok now) =>
      let w := b.work.sweep now
      if maxActiveLeases ≤ w.broker.activeLeases + w.broker.leaseReservations then
        w.fail .capacity
      else
        match validateRotationTarget (w.broker.lineages.lookup (keyForConnection request))
            request with
        | .error failure => w.fail failure
        | .ok lineage =>
          if keyForIssuer request ∉ w.broker.issuers then w.fail .unavailable
          else
            match w.broker.checkOperation request with
            | .error failure => w.fail failure
            | .ok () => w.joinRotation request lineage

def Broker.launchRotation (b : Broker) (r : Nat) : Outcome :=
  ⟨b, [.awaitRotation r, .sourceResolve (.rotation r)], .quiet⟩

/-- A waiter that goes before the commit gives its reserved handle back. -/
def Broker.awaitRotation (b : Broker) (r : Nat) (env : Env) : Outcome :=
  match b.rotationHeap[r]? with
  | none => b.fail .unavailable
  | some flight =>
    if env.canceled ∧ !flight.committed then
      let last := !flight.finished && flight.waiters - 1 == 0
      let b := { b with leaseReservations := b.leaseReservations - min 1 flight.leaseReserved }
      let b := b.modifyRotation r fun flight =>
        { flight with
          waiters := flight.waiters - 1
          leaseReserved := flight.leaseReserved - 1
          abandoned := flight.abandoned || last }
      ⟨b, if last then [.abandon (.rotation r) .returned] else [], .failed .context⟩
    else b.go (.takeRotation r)

def Broker.takeRotation (b : Broker) (r : Nat) (env : Env) : Outcome :=
  match b.rotationHeap[r]? with
  | none => b.fail .unavailable
  | some flight =>
    if !flight.finished then
      b.go (if flight.committed then .takeRotation r else .awaitRotation r)
    else
      let b := b.modifyRotation r fun flight =>
        { flight with
          waiters := flight.waiters - 1
          leases := if flight.committed then flight.leases.dropLast else flight.leases }
      if flight.committed then
        match flight.leases.getLast? with
        | none => b.fail .unavailable
        | some lease => ⟨b, [], .rotated lease flight.revocation⟩
      else if env.canceled then b.fail .context
      else b.fail (flight.err.getD .unavailable)

/-- Whether the resolved source may still be used is decided at this sample. -/
def Broker.rotationObserve (b : Broker) (r : Nat) (material : Nat) (sequence : Nat) (env : Env) :
    Outcome :=
  let expiresAt := ((b.rotationHeap[r]?).map RotationFlight.sourceExpiresAt).getD 0
  match b.observeNow sequence env.observed with
  | (b, .error _) => b.go (.rotationResolved r none)
  | (b, .ok now) =>
    if expiresAt = 0 ∨ expiresAt ≤ now then b.go (.rotationResolved r none)
    else b.go (.rotationResolved r (some material))

def Broker.stopResolving (b : Broker) (r : Nat) : Broker :=
  if (b.rotationHeap[r]?).any RotationFlight.resolveActive then
    { b with activeResolves := b.activeResolves - 1 }.modifyRotation r fun flight =>
      { flight with resolveActive := false }
  else b

def Broker.rotationResolved (b : Broker) (r : Nat) (material : Option Nat) : Outcome :=
  match material with
  | none => (b.stopResolving r).go (.rotationFail r none .unavailable)
  | some m => (b.stopResolving r).go (.rotationIssue r m)

def Broker.rotationIssue (b : Broker) (r m : Nat) (env : Env) : Outcome :=
  let (b, issued) := b.issue env
  if env.ok then b.go (.rotationCommit r m issued) else b.go (.rotationFail r issued .unavailable)

/-- Why a rotation may not commit; the first reason of the source's switch. -/
def Broker.rotationStopped (b : Broker) (r : Nat) (flight : RotationFlight) (m : Nat)
    (issued : Option IssuedSession) (now : Int) : Option Failure :=
  let lineage := b.lineages.lookup (keyForConnection flight.request)
  let operation := b.operations.lookup (keyForOperation flight.request)
  if b.closed then some .closed
  else if b.rotations.lookup (keyForConnection flight.request) ≠ some r then some .conflict
  else if flight.abandoned ∨ flight.waiters = 0 ∨ flight.canceled then some .unavailable
  else if !lineage.any fun lineage => lineage.epoch == flight.fromEpoch &&
      lineage.generation == flight.fromGen then
    some .revoked
  else if !(validateRotationTarget lineage flight.request).isOk then some .conflict
  else if operation.any OperationState.terminal then some .operationTerminated
  else if operation.any fun operation =>
      !equalDigest operation.binding flight.request.bindingDigest then
    some .conflict
  else if flight.leaseReserved = 0 ∨ flight.leaseReserved ≠ flight.waiters ∨
      b.leaseReservations < flight.leaseReserved then
    some .unavailable
  else if flight.sourceExpiresAt = 0 ∨ flight.sourceExpiresAt ≤ now then some .unavailable
  else if m ∈ b.destroyedSources ∨
      !issued.any fun session => b.validIssuedSession flight.request session now then
    some .unavailable
  else if flight.source ≠ ⟨some m, false⟩ then some .unavailable
  else none

def Broker.allocateLeases (b : Broker) (c : Nat) : Nat → Broker
  | 0 => b
  | n + 1 => ({ b.allocateLease c with
      leaseReservations := b.leaseReservations - 1 } : Broker).allocateLeases c n

/-- The reservations that a committed or failed rotation no longer needs. -/
def Broker.consumeRotation (b : Broker) (r : Nat) (flight : RotationFlight) : Broker :=
  { b with
    sessionReservations := b.sessionReservations - flight.reserved.toNat
    sourceReservations := b.sourceReservations - flight.sourceReserved.toNat
    operationReservations := b.operationReservations - flight.operationReserved.toNat }.modifyRotation
      r fun flight =>
        { flight with reserved := false, sourceReserved := false, operationReserved := false }

def Lineage.rotated (lineage : Lineage) (request : Request) (epoch : Nat) : Lineage :=
  { lineage with
    generation := request.connectionGeneration
    provider := request.provider
    referenceID := request.referenceID
    version := request.version
    sourceDigest := request.sourceDigest
    epoch := epoch }

/-- The lineage and the operation of a committed rotation. -/
def Broker.rotateAuthority (b : Broker) (request : Request) (lineage : Lineage) (epoch : Nat) :
    Broker :=
  { b with
    lineages := b.lineages.insert (keyForConnection request) (lineage.rotated request epoch)
    operations := b.operations.insert (keyForOperation request)
      ⟨request.bindingDigest, epoch + 1, false⟩ }

def RotationFlight.newEntry (flight : RotationFlight) (m epoch lastUsed : Nat) : SourceEntry where
  key := keyForConnection flight.request
  digest := flight.request.sourceDigest
  generation := flight.request.connectionGeneration
  epoch := epoch
  material := m
  expiresAt := flight.sourceExpiresAt
  lastUsed := lastUsed
  borrows := 0
  invalid := false
  retired := false

def RotationFlight.newCell (flight : RotationFlight) (issued : IssuedSession)
    (epoch lastUsed : Nat) : SessionCell where
  request := flight.request
  session := issued
  connEpoch := epoch
  opEpoch := epoch + 1
  lastUsed := lastUsed
  refs := 0
  flightPins := 0
  invalid := false
  draining := false
  revocation := none
  canceled := false

/-- The new lineage, operation, source and cell of a committed rotation. -/
def Broker.installRotation (b : Broker) (flight : RotationFlight) (lineage : Lineage) (m : Nat)
    (issued : IssuedSession) (epoch : Nat) : Broker :=
  let b := (b.rotateAuthority flight.request lineage epoch).touch
  let b := (b.addEntry (flight.newEntry m epoch b.nextUse)).touch
  b.addCell (flight.newCell issued epoch b.nextUse)

/-- The handles of all waiters of a committed rotation. -/
def Broker.grantRotation (b : Broker) (r : Nat) (flight : RotationFlight) (c : Nat) : Broker :=
  let first := b.leaseHeap.length
  let b := b.allocateLeases c flight.leaseReserved
  let b := b.modifyRotation r fun flight =>
    { flight with
      source := ⟨none, false⟩
      cell := some c
      leases := flight.leases ++ (List.range flight.leaseReserved).map (first + ·)
      leaseReserved := 0
      committed := true }
  b.consumeRotation r flight

def Broker.commit (b : Broker) (r : Nat) (flight : RotationFlight) (lineage : Lineage) (m : Nat)
    (issued : IssuedSession) (now : Int) (epoch : Nat) : Outcome :=
  let key := keyForConnection flight.request
  let evidence := b.connectionExpiryEvidence key now
  let (w, attempts) := b.work.invalidateConnection key now (some r)
  let sessionFlights := w.broker.unfinishedSessionFlights fun flight =>
    keyForConnection flight.request == key
  let sourceFlights := w.broker.unfinishedSourceFlights fun flight =>
    keyForConnection flight.request == key
  let c := w.broker.cellHeap.length
  let b := w.broker.installRotation flight lineage m issued epoch
  { w with broker := b.grantRotation r flight c }.settle
    { callerCleanup attempts sessionFlights sourceFlights evidence with rotation := some r }

/-- A source that was invalidated between the check and the take keeps its reserved epochs. -/
def Broker.rotationCommit (b : Broker) (r m : Nat) (issued : Option IssuedSession)
    (sequence : Nat) (env : Env) : Outcome :=
  match b.rotationHeap[r]? with
  | none => b.fail .unavailable
  | some flight =>
    match b.observeNow sequence env.observed with
    | (b, .error failure) => b.go (.rotationFail r issued failure)
    | (b, .ok now) =>
      match b.rotationStopped r flight m issued now with
      | some failure => b.go (.rotationFail r issued failure)
      | none =>
        match b.reserveEpochs 2, issued, b.lineages.lookup (keyForConnection flight.request) with
        | .error failure, _, _ => b.go (.rotationFail r issued failure)
        | .ok (b, epoch), some session, some lineage =>
          if env.interrupted then b.go (.rotationFail r issued .unavailable)
          else b.commit r flight lineage m session now epoch
        | .ok (b, _), _, _ => b.go (.rotationFail r issued .unavailable)

def Broker.rotationFail (b : Broker) (r : Nat) (issued : Option IssuedSession)
    (failure : Failure) : Outcome :=
  match b.rotationHeap[r]? with
  | none => b.fail .unavailable
  | some flight =>
    let lineage := b.lineages.lookup (keyForConnection flight.request)
    let operation := b.operations.lookup (keyForOperation flight.request)
    let failure := if b.closed then .closed
      else if !lineage.any fun lineage => lineage.epoch == flight.fromEpoch then .revoked
      else if operation.any OperationState.terminal then .operationTerminated
      else failure
    (b.modifyRotation r fun flight =>
      { flight with err := normalizeFlightError (some failure) }).go
        (.abandon (.rotation r) (.rotationCleanup r issued))

def Broker.rotationCleanup (b : Broker) (r : Nat) (issued : Option IssuedSession) : Outcome :=
  match issued with
  | none => b.go (.rotationClose r .notRequired)
  | some session =>
    if b.sessionValid session then b.go (.rotationRevoke r session)
    else (b.destroySession session).go (.rotationClose r .notRequired)

def Broker.rotationRevoke (b : Broker) (r : Nat) (session : IssuedSession) (env : Env) : Outcome :=
  (b.destroySession session).go (.rotationRecord r session (revocationAnswer env).1)

def Broker.rotationRecord (b : Broker) (r : Nat) (session : IssuedSession)
    (result : RevocationResult) : Outcome :=
  match b.rotationHeap[r]? with
  | none => b.go (.rotationClose r result)
  | some flight =>
    (b.recordRevocation flight.request session result).go (.rotationClose r result)

def Broker.forgetRotation (b : Broker) (r : Nat) (flight : RotationFlight) : Broker :=
  let key := keyForConnection flight.request
  if b.rotations.lookup key = some r then { b with rotations := b.rotations.erase key } else b

def Broker.rotationClose (b : Broker) (r : Nat) (result : RevocationResult) : Outcome :=
  match b.rotationHeap[r]? with
  | none => ⟨b, [], .quiet⟩
  | some flight =>
    let b := (b.forgetRotation r flight).consumeRotation r flight
    let b := { b with leaseReservations := b.leaseReservations - flight.leaseReserved }
    let b := b.stopResolving r
    ⟨b.modifyRotation r fun flight =>
      { flight with leaseReserved := 0, revocation := result, finished := true }, [], .quiet⟩

def Broker.rotationDone (b : Broker) (r : Nat) (result : RevocationResult) : Outcome :=
  match b.rotationHeap[r]? with
  | none => ⟨b, [], .quiet⟩
  | some flight =>
    ⟨(b.forgetRotation r flight).modifyRotation r fun flight =>
      { flight with revocation := result, err := none, finished := true, canceled := true },
      [], .quiet⟩

/-! ## Revocation, termination and shutdown -/

/-- The pending rotation of a connection that has exactly the lineage of the request. -/
def Broker.pendingForConnection (b : Broker) (request : Request) : Option RotationFlight :=
  match (b.rotations.lookup (keyForConnection request)).bind fun r => b.rotationHeap[r]? with
  | none => none
  | some flight =>
    let target := flight.request
    if flight.committed ∨ flight.finished ∨
        target.connectionGeneration ≠ request.connectionGeneration ∨
        target.provider ≠ request.provider ∨ target.referenceID ≠ request.referenceID ∨
        target.version ≠ request.version ∨
        !equalDigest target.sourceDigest request.sourceDigest then
      none
    else some flight

/-- The pending rotation that the lifecycle call is about, with its index. -/
def Broker.pendingForLifecycle (b : Broker) (request : Request) :
    Except Failure (Option (Nat × RotationFlight)) :=
  match (b.rotations.lookup (keyForConnection request)).bind fun r =>
      (b.rotationHeap[r]?).map fun flight => (r, flight) with
  | none => .ok none
  | some (r, flight) =>
    let same := decide (keyForOperation flight.request = keyForOperation request)
    let bound := equalDigest flight.request.bindingDigest request.bindingDigest
    if flight.committed ∨ flight.finished then .ok none
    else if same ∧ !bound then .error .conflict
    else if !same ∨ !bound ∨
        flight.request.connectionGeneration ≠ request.connectionGeneration then
      .ok none
    else .ok (some (r, flight))

def Broker.rotationPending (b : Broker) (key : ConnectionKey) : Option RotationFlight :=
  match (b.rotations.lookup key).bind fun r => b.rotationHeap[r]? with
  | none => none
  | some flight => if flight.finished then none else some flight

def Broker.anyRotationPending (b : Broker) : Bool :=
  b.liveRotations.any fun row => !row.2.finished

def pendingWhen (pending : Bool) (evidence : RevocationResult) : RevocationResult :=
  mergeRevocation (if pending then .pending else .notRequired) evidence

/-- A connection already revoked: only the unfinished clean-up is waited for. -/
def Work.revokedAlready (w : Work) (key : ConnectionKey) (pending : Bool) (now : Int) : Outcome :=
  let b := w.broker
  w.settle (callerCleanup
    (b.unfinishedRevocations fun cell => keyForConnection cell.request == key)
    (b.unfinishedSessionFlights fun flight => keyForConnection flight.request == key)
    (b.unfinishedSourceFlights fun flight => keyForConnection flight.request == key)
    (pendingWhen pending (b.connectionExpiryEvidence key now)))

/-- Everything of the connection is invalidated after its lineage was set. -/
def Work.revoke (w : Work) (key : ConnectionKey) (lineage : Lineage) (pending : Bool)
    (now : Int) : Outcome :=
  let w := { w with broker := { w.broker with
    lineages := w.broker.lineages.insert key lineage } }
  let (w, attempts) := w.invalidateConnection key now none
  let b := w.broker
  w.settle (callerCleanup attempts
    (b.unfinishedSessionFlights fun flight => keyForConnection flight.request == key)
    (b.unfinishedSourceFlights fun flight => keyForConnection flight.request == key)
    (pendingWhen pending (b.connectionExpiryEvidence key now)))

/-- `RevokeConnection` while exactly this lineage is being rotated in. -/
def Work.revokePending (w : Work) (request : Request) (pending : RotationFlight) (now : Int) :
    Outcome :=
  let key := keyForConnection request
  match w.broker.lineages.lookup key with
  | none => w.fail .revoked
  | some lineage =>
    if lineage.epoch ≠ pending.fromEpoch then
      if request.connectionGeneration ≤ lineage.revokedThrough then w.revokedAlready key true now
      else w.fail .revoked
    else
      match w.broker.reserveEpochs 1 with
      | .error failure => w.fail failure
      | .ok (b, epoch) =>
        { w with broker := b }.revoke key
          { lineage with
            epoch := epoch
            revokedThrough := max lineage.revokedThrough request.connectionGeneration } true now

/-- The target of a pending rotation is revoked with the connection. -/
def revokedTarget (pending : Option RotationFlight) (generation : Int) : Int :=
  match pending with
  | none => generation
  | some flight =>
    if flight.committed then generation else max generation flight.request.connectionGeneration

/-- `RevokeConnection` of the live lineage, or of one never seen. -/
def Work.revokeLive (w : Work) (request : Request) (now : Int) : Outcome :=
  let key := keyForConnection request
  if key ∉ w.broker.lineages ∧ maxTrackedConnections ≤ w.broker.lineages.keys.length then
    w.fail .capacity
  else
    match w.broker.validateLifecycleLineage request with
    | .error failure => w.fail failure
    | .ok lineage =>
      match w.broker.reserveEpochs 1 with
      | .error failure => w.fail failure
      | .ok (b, epoch) =>
        let pending := b.rotationPending key
        { w with broker := b }.revoke key
          { lineage.getD (newLineageState request epoch) with
            epoch := epoch
            revokedThrough := revokedTarget pending request.connectionGeneration }
          pending.isSome now

def Broker.revokeConnection (b : Broker) (request : Request) (sequence : Nat) (env : Env) :
    Outcome :=
  if b.closed then b.fail .closed
  else
    match b.observeNow sequence env.observed with
    | (b, .error failure) => b.fail failure
    | (b, .ok now) =>
      let w := b.work.sweep now
      let key := keyForConnection request
      match w.broker.pendingForConnection request with
      | some pending => w.revokePending request pending now
      | none =>
        match w.broker.lineages.lookup key with
        | none => w.revokeLive request now
        | some lineage =>
          if request.connectionGeneration < lineage.generation then w.fail .stale
          else if request.connectionGeneration = lineage.generation ∧
              !sameLineageRequest lineage request then
            w.fail .conflict
          else if request.connectionGeneration ≤ lineage.revokedThrough then
            w.revokedAlready key (w.broker.rotationPending key).isSome now
          else w.revokeLive request now

/-- A terminal operation: only the unfinished clean-up is waited for. -/
def Work.terminatedAlready (w : Work) (op : OperationKey) (pending : Bool) (now : Int) : Outcome :=
  let b := w.broker
  w.settle (callerCleanup
    (b.unfinishedRevocations fun cell => keyForOperation cell.request == op)
    (b.unfinishedSessionFlights fun flight => keyForOperation flight.request == op)
    [] (pendingWhen pending (b.operationExpiryEvidence op now)))

/-- The lineage that a termination needs; `none` when the connection was never seen. -/
def Broker.terminationLineage (b : Broker) (request : Request)
    (pending : Option (Nat × RotationFlight)) : Except Failure (Option Lineage) :=
  match pending with
  | none =>
    if (keyForConnection request ∉ b.lineages ∧ maxTrackedConnections ≤ b.lineages.keys.length) ∨
        (keyForOperation request ∉ b.operations ∧
          maxTrackedOperations ≤ b.operations.keys.length + b.operationReservations) then
      .error .capacity
    else b.validateLifecycleLineage request
  | some (_, flight) =>
    match b.lineages.lookup (keyForConnection request) with
    | none => .error .revoked
    | some lineage =>
      if lineage.epoch ≠ flight.fromEpoch then .error .revoked else .ok (some lineage)

/-- The terminal mark; a pending rotation gives its reserved operation slot to it. -/
def Broker.markTerminal (b : Broker) (request : Request)
    (pending : Option (Nat × RotationFlight)) (epoch : Nat) : Broker :=
  let op := keyForOperation request
  let mark (b : Broker) (binding : DigestValue) : Broker :=
    { b with operations := b.operations.insert op ⟨binding, epoch, true⟩ }
  match b.operations.lookup op with
  | some operation => mark b operation.binding
  | none =>
    match pending with
    | none => mark b request.bindingDigest
    | some (r, flight) =>
      let b := { b with
        operationReservations := b.operationReservations - flight.operationReserved.toNat }
      mark (b.modifyRotation r fun flight => { flight with operationReserved := false })
        request.bindingDigest

/-- A termination tracks the connection of its request. -/
def Broker.trackLineage (b : Broker) (request : Request) (epoch : Nat) : Option Lineage → Broker
  | some _ => b
  | none => { b with
      lineages := b.lineages.insert (keyForConnection request) (newLineageState request epoch) }

/-- Everything of the marked operation is canceled and invalidated. -/
def Work.endOperation (w : Work) (op : OperationKey) (pending : Bool) (now : Int) : Outcome :=
  let w := w.cancelSessionFlights fun flight => keyForOperation flight.request == op
  let w := w.cancelRotations fun row => keyForOperation row.2.request == op
  let (w, attempts) := w.invalidateMatchingCells
    (fun cell => keyForOperation cell.request == op) now
  let b := w.broker
  w.settle (callerCleanup attempts
    (b.unfinishedSessionFlights fun flight => keyForOperation flight.request == op)
    [] (pendingWhen pending (b.operationExpiryEvidence op now)))

def Work.terminate (w : Work) (request : Request) (pending : Option (Nat × RotationFlight))
    (lineage : Option Lineage) (now : Int) : Outcome :=
  let missing := if lineage.isSome then 0 else 1
  match w.broker.reserveEpochs (1 + missing) with
  | .error failure => w.fail failure
  | .ok (b, first) =>
    let b := (b.trackLineage request first lineage).markTerminal request pending (first + missing)
    { w with broker := b }.endOperation (keyForOperation request) pending.isSome now

def Broker.terminateOperation (b : Broker) (request : Request) (sequence : Nat) (env : Env) :
    Outcome :=
  if b.closed then b.fail .closed
  else
    match b.observeNow sequence env.observed with
    | (b, .error failure) => b.fail failure
    | (b, .ok now) =>
      let w := b.work.sweep now
      let op := keyForOperation request
      match w.broker.pendingForLifecycle request with
      | .error failure => w.fail failure
      | .ok pending =>
        let operation := w.broker.operations.lookup op
        if operation.any fun operation =>
            !equalDigest operation.binding request.bindingDigest then
          w.fail .conflict
        else if operation.any OperationState.terminal then
          w.terminatedAlready op pending.isSome now
        else
          match w.broker.terminationLineage request pending with
          | .error failure => w.fail failure
          | .ok lineage => w.terminate request pending lineage now

/-- `Close` of a closed broker. -/
def Broker.closedAlready (b : Broker) (sequence : Nat) (env : Env) : Outcome :=
  let wait (b : Broker) (clockErr : Option Failure) : Outcome :=
    b.work.settle { callerCleanup
      (b.unfinishedRevocations fun _ => true)
      (b.unfinishedSessionFlights fun _ => true)
      (b.unfinishedSourceFlights fun _ => true)
      (pendingWhen b.anyRotationPending (b.allExpiryEvidence b.lastNow)) with
        clockErr := clockErr }
  match b.observeNow sequence env.observed with
  | (b, .error failure) => wait b (some failure)
  | (b, .ok now) => wait (b.sweepExpiryEvidence now) none

/-- The first `Close`; a failed clock does not stop it. -/
def Broker.shutdown (b : Broker) (now : Int) (clockErr : Option Failure) : Outcome :=
  let w := { b with closed := true }.work
  let sessionFlights := b.unfinishedSessionFlights fun _ => true
  let sourceFlights := b.unfinishedSourceFlights fun _ => true
  let w := w.cancelSourceFlights fun _ => true
  let w := w.cancelSessionFlights fun _ => true
  let w := w.cancelRotations fun _ => true
  let w := w.dropSources fun _ => true
  let (w, attempts) := w.invalidateMatchingCells (fun _ => true) now
  w.settle { callerCleanup attempts sessionFlights sourceFlights
    (pendingWhen b.anyRotationPending (w.broker.allExpiryEvidence now)) with
      clockErr := clockErr
      recheck := true }

def Broker.close (b : Broker) (sequence : Nat) (env : Env) : Outcome :=
  if b.closed then b.closedAlready sequence env
  else
    match b.observeNow sequence env.observed with
    | (b, .error failure) => b.shutdown b.lastNow (some failure)
    | (b, .ok now) => b.shutdown now none

def Broker.sweepExpired (b : Broker) (sequence : Nat) (env : Env) : Outcome :=
  if b.closed then b.fail .closed
  else
    match b.observeNow sequence env.observed with
    | (b, .error failure) => b.fail failure
    | (b, .ok now) => (b.work.sweep now).go .returned

end Veer.CredentialBroker
