import Veer.ReconcileDigest

/-!
# The bounded idempotency ledger

`Reserve` registers under the activity lock, decides under the ledger lock and, on return, leaves
the registry. A registered call is a pointer in the source; its sequence number is never given out
twice, so here pointers are compared as values.
-/
namespace Veer.Reconcile

structure IdempotencyScope where
  initialized : Bool
  digest : DigestValue
  deriving DecidableEq, Repr

def IdempotencyScope.equal (value other : IdempotencyScope) : Bool :=
  value.initialized && other.initialized && equalDigest value.digest other.digest

/-- One fixed-window key epoch. -/
structure Reservation where
  initialized : Bool
  scope : IdempotencyScope
  keyDigest : DigestValue
  fingerprint : RequestFingerprint
  epoch : Nat
  committedAt : Int
  expiresAt : Int
  completed : Bool
  result : ResultDigest
  deriving DecidableEq, Repr

structure IdempotencyCall where
  sequence : Nat
  observedAt : Int
  deriving DecidableEq, Repr

/-- `keyState` holds the epoch of each key; the zero instant is an unset `highWater`. -/
structure IdempotencyLedger where
  initialized : Bool
  maximum : Nat
  activeLimit : Nat
  nextCall : Nat
  lastCall : Nat
  highWater : Int
  keyState : AList (fun _ : String => Nat)
  records : AList (fun _ : String => Reservation)
  active : AList (fun _ : String => List IdempotencyCall)
  activeCount : Nat

def newIdempotencyLedger (maximum : Int) : Except Failure IdempotencyLedger :=
  if maximum < 1 then .error [.invalidIdempotency]
  else .ok
    { initialized := true
      maximum := maximum.toNat
      activeLimit := if maximum < maxInt64 then maximum.toNat + 1 else maximum.toNat
      nextCall := 0
      lastCall := 0
      highWater := 0
      keyState := ∅
      records := ∅
      active := ∅
      activeCount := 0 }

def keyRune (c : Char) : Bool :=
  c.isAlphanum || c == '.' || c == '_' || c == '~' || c == ':' || c == '+' || c == '/' || c == '-'

/-- `idempotencyKeyPattern`, which already implies the length bounds. -/
def validIdempotencyKey (value : String) : Bool :=
  match value.toList with
  | [] => false
  | c :: cs => c.isAlphanum && cs.all keyRune && decide (15 ≤ cs.length) && decide (cs.length ≤ 127)

/-- The key of the ledger's maps. -/
def scopedKey (scope keyDigest : DigestValue) : String :=
  formatDigest "" scope ++ ":" ++ formatDigest "" keyDigest

def Reservation.scopedKey (value : Reservation) : String :=
  Reconcile.scopedKey value.scope.digest value.keyDigest

def newReservation (scope : IdempotencyScope) (keyDigest : DigestValue)
    (fingerprint : RequestFingerprint) (epoch : Nat) (now : Int) : Except Failure Reservation :=
  match addNormalizedDuration now httpIdempotencyWindow with
  | .error failure => .error failure
  | .ok expiresAt => .ok
    { initialized := true
      scope := scope
      keyDigest := keyDigest
      fingerprint := fingerprint
      epoch := epoch
      committedAt := now
      expiresAt := expiresAt
      completed := false
      result := .zero }

def validateReservation (value : Reservation) : Bool :=
  value.initialized && value.scope.initialized && value.keyDigest.initialized &&
    value.fingerprint.initialized && value.epoch != 0 && value.committedAt != 0 &&
    value.expiresAt != 0 &&
    timeSub value.expiresAt value.committedAt == httpIdempotencyWindow &&
    value.completed == value.result.initialized

/-! ## The registry of live calls -/

def IdempotencyLedger.live (ledger : IdempotencyLedger) (mapKey : String) : List IdempotencyCall :=
  (ledger.active.lookup mapKey).getD []

def IdempotencyLedger.nextIdempotencyCall (ledger : IdempotencyLedger) :
    Except Failure (IdempotencyLedger × Nat) :=
  if ledger.nextCall = maxUint64 then .error [.capacity]
  else .ok ({ ledger with nextCall := ledger.nextCall + 1 }, ledger.nextCall + 1)

def IdempotencyLedger.beginIdempotencyCall (ledger : IdempotencyLedger) (mapKey : String)
    (now : Int) : Except Failure (IdempotencyLedger × IdempotencyCall) :=
  if ledger.activeLimit ≤ ledger.activeCount then .error [.capacity]
  else
    match ledger.nextIdempotencyCall with
    | .error failure => .error failure
    | .ok (numbered, sequence) =>
      let call : IdempotencyCall := ⟨sequence, now⟩
      .ok ({ numbered with
          active := numbered.active.insert mapKey (call :: numbered.live mapKey),
          activeCount := numbered.activeCount + 1 }, call)

def IdempotencyLedger.finishIdempotencyCall (ledger : IdempotencyLedger) (mapKey : String)
    (call : IdempotencyCall) : IdempotencyLedger :=
  let live := (ledger.live mapKey).erase call
  { ledger with
    active := if live.isEmpty then ledger.active.erase mapKey else ledger.active.insert mapKey live
    activeCount :=
      if (ledger.live mapKey).contains call then ledger.activeCount - 1 else ledger.activeCount }

def IdempotencyLedger.hasEarlierLiveCall (ledger : IdempotencyLedger) (mapKey : String)
    (current : IdempotencyCall) (expiresAt : Int) : Bool :=
  (ledger.live mapKey).any fun call => call != current && decide (call.observedAt < expiresAt)

/-! ## The decision -/

def IdempotencyLedger.raiseHighWater (ledger : IdempotencyLedger) (now : Int) : IdempotencyLedger :=
  if ledger.highWater < now then { ledger with highWater := now } else ledger

/-- A call that decides after a later-numbered one keeps its own sample unchecked. -/
def IdempotencyLedger.observeIdempotencyTimeLocked (ledger : IdempotencyLedger)
    (call : IdempotencyCall) : IdempotencyLedger × Except Failure Unit :=
  if call.sequence ≤ ledger.lastCall then (ledger.raiseHighWater call.observedAt, .ok ())
  else
    let numbered := { ledger with lastCall := call.sequence }
    if numbered.highWater ≠ 0 ∧ call.observedAt < numbered.highWater then
      (numbered, .error [.invalidIdempotency, .clockRegressed])
    else (numbered.raiseHighWater call.observedAt, .ok ())

/-- The rows go together with their epochs; no deletion affects whether another row goes.
`earlier` has the answers of `hasEarlierLiveCall`, which is asked once for every row that may go. -/
def IdempotencyLedger.reclaimExpiredCompletedLocked (ledger : IdempotencyLedger) (now : Int)
    (earlier : String → Bool) : IdempotencyLedger :=
  let dropped := (ledger.records.entries.filter fun entry =>
    entry.2.completed && decide (entry.2.expiresAt ≤ now) && !earlier entry.1).map Sigma.fst
  { ledger with
    records := dropped.foldl (fun records key => records.erase key) ledger.records
    keyState := dropped.foldl (fun keyState key => keyState.erase key) ledger.keyState }

/-- A failed `Reserve`; `ErrReservationOutstanding` may come with the current reservation. -/
structure ReserveFailure where
  failure : Failure
  current : Option Reservation
  deriving DecidableEq, Repr

abbrev ReserveAnswer := Except ReserveFailure (Reservation × IdempotencyDisposition)

/-- The epoch after an optional one; `none` when the counter is exhausted. -/
def nextEpoch : Option Nat → Option Nat
  | none => some 1
  | some epoch => if epoch = maxUint64 then none else some (epoch + 1)

/-- A scoped request as `Reserve` prepares it, with its registered call. -/
structure RegisteredCall where
  call : IdempotencyCall
  scope : IdempotencyScope
  keyDigest : DigestValue
  fingerprint : RequestFingerprint
  deriving DecidableEq, Repr

def RegisteredCall.mapKey (value : RegisteredCall) : String :=
  scopedKey value.scope.digest value.keyDigest

/-- The end of both reserving branches: make the reservation and write it. -/
def IdempotencyLedger.createReservation (ledger : IdempotencyLedger) (request : RegisteredCall) :
    Option Nat → IdempotencyLedger × ReserveAnswer
  | none => (ledger, .error ⟨[.capacity], none⟩)
  | some epoch =>
    match newReservation request.scope request.keyDigest request.fingerprint epoch
        request.call.observedAt with
    | .error failure => (ledger, .error ⟨.invalidIdempotency :: failure, none⟩)
    | .ok created =>
      ({ ledger with
          keyState := ledger.keyState.insert request.mapKey created.epoch,
          records := ledger.records.insert request.mapKey created }, .ok (created, .reserved))

/-- `reserveRegistered` with the answers of `hasEarlierLiveCall`: the registry has a lock of its own,
and calls may join and leave it while a decision holds the ledger lock. -/
def IdempotencyLedger.reserveWith (ledger : IdempotencyLedger) (request : RegisteredCall)
    (earlier : String → Bool) : IdempotencyLedger × ReserveAnswer :=
  match ledger.observeIdempotencyTimeLocked request.call with
  | (observed, .error failure) => (observed, .error ⟨failure, none⟩)
  | (observed, .ok ()) =>
    let now := request.call.observedAt
    let state := observed.keyState.lookup request.mapKey
    match observed.records.lookup request.mapKey with
    | some current =>
      if !current.completed then
        if !equalDigest current.fingerprint request.fingerprint then
          (observed, .error ⟨[.idempotencyConflict], none⟩)
        else (observed, .error ⟨[.reservationOutstanding], some current⟩)
      else if now < current.expiresAt then
        if !equalDigest current.fingerprint request.fingerprint then
          (observed, .error ⟨[.idempotencyConflict], none⟩)
        else (observed, .ok (current, .replay))
      else if earlier request.mapKey then (observed, .error ⟨[.reservationOutstanding], none⟩)
      else observed.createReservation request (nextEpoch (some (state.getD 0)))
    | none =>
      let reclaimed :=
        if observed.maximum ≤ observed.records.keys.length then
          observed.reclaimExpiredCompletedLocked now earlier
        else observed
      if reclaimed.maximum ≤ reclaimed.records.keys.length then
        (reclaimed, .error ⟨[.capacity], none⟩)
      else reclaimed.createReservation request (nextEpoch state)

/-- The registry's answers when nothing comes in between. -/
def IdempotencyLedger.earlierCalls (ledger : IdempotencyLedger) (call : IdempotencyCall)
    (key : String) : Bool :=
  (ledger.records.lookup key).any fun row => ledger.hasEarlierLiveCall key call row.expiresAt

/-- A decision during which nobody joins or leaves the registry. -/
def IdempotencyLedger.reserveRegistered (ledger : IdempotencyLedger) (request : RegisteredCall) :
    IdempotencyLedger × ReserveAnswer :=
  ledger.reserveWith request (ledger.earlierCalls request.call)

/-! ## The exported calls -/

/-- `Reserve` up to and including its registration. -/
def IdempotencyLedger.register [Sha256] (ledger : IdempotencyLedger) (databaseTime : Int)
    (scope : IdempotencyScope) (key : String) (fingerprint : RequestFingerprint) :
    Except Failure (IdempotencyLedger × RegisteredCall) :=
  if !ledger.initialized || !scope.initialized || !scope.digest.initialized ||
      !validIdempotencyKey key || !fingerprint.initialized then .error [.invalidIdempotency]
  else
    match normalizeTime databaseTime with
    | .error failure => .error (.invalidIdempotency :: failure)
    | .ok now =>
      let keyDigest := deriveDigest "veer.reconciliation.idempotency-key.v1" [utf8 key]
      match ledger.beginIdempotencyCall (scopedKey scope.digest keyDigest) now with
      | .error _ => .error [.capacity]
      | .ok (begun, call) => .ok (begun, ⟨call, scope, keyDigest, fingerprint⟩)

def IdempotencyLedger.reserve [Sha256] (ledger : IdempotencyLedger) (databaseTime : Int)
    (scope : IdempotencyScope) (key : String) (fingerprint : RequestFingerprint) :
    IdempotencyLedger × ReserveAnswer :=
  match ledger.register databaseTime scope key fingerprint with
  | .error failure => (ledger, .error ⟨failure, none⟩)
  | .ok (begun, request) =>
    let (decided, answer) := begun.reserveRegistered request
    (decided.finishIdempotencyCall request.mapKey request.call, answer)

/-- Bind a result exactly once without moving expiry. -/
def IdempotencyLedger.complete (ledger : IdempotencyLedger) (reservation : Reservation)
    (result : ResultDigest) : IdempotencyLedger × Except Failure Reservation :=
  if !ledger.initialized || !validateReservation reservation || !result.initialized then
    (ledger, .error [.invalidIdempotency])
  else
    match ledger.records.lookup reservation.scopedKey with
    | none => (ledger, .error [.reservationLost])
    | some current =>
      if current.epoch ≠ reservation.epoch ∨
          !equalDigest current.fingerprint reservation.fingerprint ∨
          !current.scope.equal reservation.scope ∨
          current.committedAt ≠ reservation.committedAt ∨
          current.expiresAt ≠ reservation.expiresAt then (ledger, .error [.reservationLost])
      else if current.completed then
        if equalDigest current.result result then (ledger, .ok current)
        else (ledger, .error [.reservationLost])
      else
        let completed := { current with completed := true, result := result }
        ({ ledger with records := ledger.records.insert reservation.scopedKey completed },
          .ok completed)

end Veer.Reconcile
