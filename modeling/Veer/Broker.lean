import Veer.Authorization
import Veer.ReconcileDigest

/-!
# State of the credential broker

The process-local state behind `broker.mu`, the objects it points to and the goroutines that work
on them. A pointer is an index into the heap list of its type; nothing leaves a heap. A goroutine
is a task: the stage it has reached, with its local values. Statistics and the read budget are
left out. Times are nanoseconds since the zero time, which is 0.
-/
namespace Veer.CredentialBroker
open Reconcile (ID DigestValue equalDigest millisecond second maxUint64 endOfYear9999)

inductive Failure
  | conflict | stale | revoked | operationTerminated | expired | closed | unavailable
  | capacity | credentialRotationRequired | context
  deriving DecidableEq, Repr

inductive RevocationResult
  | notRequired | providerConfirmed | expiryBound | pending
  deriving DecidableEq, Repr

def mergeRevocation (left right : RevocationResult) : RevocationResult :=
  if left = .pending ∨ right = .pending then .pending
  else if left = .expiryBound ∨ right = .expiryBound then .expiryBound
  else if left = .providerConfirmed ∨ right = .providerConfirmed then .providerConfirmed
  else .notRequired

def minute : Int := 60 * second
def maxSourceEntries : Nat := 500
def maxSessionEntries : Nat := 1000
def maxActiveLeases : Nat := 1000
def maxTrackedConnections : Nat := 500
def maxTrackedOperations : Nat := 10000
def maxConcurrentResolves : Nat := 32
def maxIssuerRegistrations : Nat := 16
def maxSourceCacheTTL : Int := 60 * minute
def minIssuedSessionTTL : Int := 5 * minute
def maxIssuedSessionTTL : Int := 15 * minute
def sessionRefreshAhead : Int := 3 * minute
def minNewUseLifetime : Int := 2 * minute
def sessionExpirySkew : Int := 30 * second

structure ConnectionKey where
  workspaceID : ID
  environmentID : ID
  connectionID : ID
  deriving DecidableEq, Repr

structure OperationKey where
  workspaceID : ID
  environmentID : ID
  operationID : ID
  deriving DecidableEq, Repr

structure IssuerKey where
  provider : String
  name : String
  deriving DecidableEq, Repr

/-- A valid sealed request; an invalid one is refused before any shared state is touched. What a
valid request repeats, in its source lookup or as the provider of its recipient, is here once. -/
structure Request where
  workspaceID : ID
  environmentID : ID
  providerConnectionID : ID
  connectionGeneration : Int
  operationID : ID
  targetResourceID : ID
  targetKind : Hierarchy.Kind
  targetGeneration : Int
  provider : String
  action : Authorization.Action
  recipient : String
  referenceID : ID
  version : String
  sourceDigest : DigestValue
  bindingDigest : DigestValue
  deriving DecidableEq, Repr

def keyForConnection (request : Request) : ConnectionKey :=
  ⟨request.workspaceID, request.environmentID, request.providerConnectionID⟩

def keyForOperation (request : Request) : OperationKey :=
  ⟨request.workspaceID, request.environmentID, request.operationID⟩

def keyForIssuer (request : Request) : IssuerKey := ⟨request.provider, request.recipient⟩

/-- A provider session. Every issue returns a new one, whose ownership passes to the broker. -/
structure IssuedSession where
  id : Nat
  binding : DigestValue
  issuedAt : Int
  expiresAt : Int
  deriving DecidableEq, Repr

structure Lineage where
  generation : Int
  provider : String
  referenceID : ID
  version : String
  sourceDigest : DigestValue
  epoch : Nat
  revokedThrough : Int
  deriving DecidableEq, Repr

structure OperationState where
  binding : DigestValue
  epoch : Nat
  terminal : Bool
  deriving DecidableEq, Repr

structure SourceEntry where
  key : ConnectionKey
  digest : DigestValue
  generation : Int
  epoch : Nat
  material : Nat
  expiresAt : Int
  lastUsed : Nat
  borrows : Nat
  invalid : Bool
  retired : Bool
  deriving DecidableEq, Repr

/-- Material owned by a flight until it is published. -/
structure FlightSource where
  material : Option Nat
  invalid : Bool
  deriving DecidableEq, Repr

structure SourceFlight where
  request : Request
  connEpoch : Nat
  sourceExpiresAt : Int
  canceled : Bool
  waiters : Nat
  finished : Bool
  abandoned : Bool
  source : FlightSource
  entry : Option Nat
  err : Option Failure
  deriving DecidableEq, Repr

structure RevocationAttempt where
  started : Bool
  finished : Bool
  result : RevocationResult
  err : Option Failure
  deriving DecidableEq, Repr

/-- One issued session and its references. Its keys and binding are those of its request. -/
structure SessionCell where
  request : Request
  session : IssuedSession
  connEpoch : Nat
  opEpoch : Nat
  lastUsed : Nat
  refs : Nat
  flightPins : Nat
  invalid : Bool
  draining : Bool
  revocation : Option RevocationAttempt
  canceled : Bool
  deriving DecidableEq, Repr

structure SessionFlight where
  request : Request
  connEpoch : Nat
  opEpoch : Nat
  refresh : Bool
  fallback : Option Nat
  reserved : Bool
  pinned : Option Nat
  canceled : Bool
  waiters : Nat
  finished : Bool
  abandoned : Bool
  cell : Option Nat
  revocation : RevocationResult
  revocationErr : Option Failure
  err : Option Failure
  deriving DecidableEq, Repr

structure RotationFlight where
  request : Request
  fromEpoch : Nat
  fromGen : Int
  canceled : Bool
  waiters : Nat
  finished : Bool
  abandoned : Bool
  cell : Option Nat
  source : FlightSource
  reserved : Bool
  sourceExpiresAt : Int
  sourceReserved : Bool
  resolveActive : Bool
  operationReserved : Bool
  leaseReserved : Nat
  committed : Bool
  leases : List Nat
  revocation : RevocationResult
  err : Option Failure
  deriving DecidableEq, Repr

/-- A handle. `closed` is set under the handle's own lock, `released` when the broker took the
reference back. -/
structure Lease where
  cell : Nat
  closed : Bool
  released : Bool
  deriving DecidableEq, Repr

/-- A flight that resolves source material. -/
inductive Owner
  | source (flight : Nat)
  | rotation (flight : Nat)
  deriving DecidableEq, Repr

/-- A context to cancel. -/
inductive Cancel
  | source (flight : Nat)
  | session (flight : Nat)
  | rotation (flight : Nat)
  | cell (cell : Nat)
  deriving DecidableEq, Repr

/-- Material to destroy outside the lock; the slots stay charged until it is. -/
structure Disposal where
  flightSources : List Owner
  sources : List Nat
  sessions : List IssuedSession
  sourceSlots : Nat
  sessionSlots : Nat
  deriving DecidableEq, Repr

def Disposal.zero : Disposal := ⟨[], [], [], 0, 0⟩

/-- What `waitLifecycleCleanup` waits for. `rest` is merged into the result of the call, and a
committed rotation waits for its own flight. -/
structure Cleanup where
  rotation : Option Nat
  attempts : List Nat
  sessionFlights : List Nat
  sourceFlights : List Nat
  aggregate : RevocationResult
  failed : Bool
  rest : RevocationResult
  clockErr : Option Failure
  recheck : Bool
  deriving DecidableEq, Repr

/-- Where a goroutine stands. A stage that starts with `sampleNow` also has a clock sample. -/
inductive Stage
  | registerIssuer (key : IssuerKey)
  | acquire (request : Request) (force : Bool)
  | launchFlight (flight : Nat)
  | awaitFlight (flight : Nat)
  | takeLease (flight : Nat)
  | flightStart (flight : Nat)
  | flightSource (flight : Nat)
  | launchSource (flight source : Nat)
  | flightAwaitSource (flight source : Nat)
  | flightBorrow (flight source : Nat)
  | flightIssue (flight entry : Nat)
  | flightRelease (flight entry : Nat) (issued : Option IssuedSession) (err : Option Failure)
  | flightFinish (flight : Nat) (issued : Option IssuedSession) (err : Option Failure)
  | flightCleanup (flight : Nat) (issued : Option IssuedSession)
  | flightRevoke (flight : Nat) (session : IssuedSession)
  | flightRecord (flight : Nat) (session : IssuedSession) (result : RevocationResult)
      (err : Option Failure)
  | flightForget (flight : Nat) (result : RevocationResult) (err : Option Failure)
  | flightClose (flight : Nat)
  | sourceResolve (owner : Owner)
  | sourceResolved (owner : Owner) (material : Option Nat)
  | sourceFinish (flight : Nat) (material : Option Nat)
  | sourceReject (flight : Nat)
  | sourceClose (flight : Nat)
  | rotate (request : Request)
  | launchRotation (flight : Nat)
  | awaitRotation (flight : Nat)
  | takeRotation (flight : Nat)
  | rotationObserve (flight : Nat) (material : Nat)
  | rotationResolved (flight : Nat) (material : Option Nat)
  | rotationIssue (flight : Nat) (material : Nat)
  | rotationCommit (flight : Nat) (material : Nat) (issued : Option IssuedSession)
  | rotationFail (flight : Nat) (issued : Option IssuedSession) (err : Failure)
  | rotationCleanup (flight : Nat) (issued : Option IssuedSession)
  | rotationRevoke (flight : Nat) (session : IssuedSession)
  | rotationRecord (flight : Nat) (session : IssuedSession) (result : RevocationResult)
  | rotationClose (flight : Nat) (result : RevocationResult)
  | rotationDone (flight : Nat) (result : RevocationResult)
  | revokeConnection (request : Request)
  | terminateOperation (request : Request)
  | close
  | sweepExpired
  | startCleanup (cleanup : Cleanup)
  | awaitCleanup (cleanup : Cleanup)
  | revocation (cell : Nat)
  | revocationFinish (cell : Nat) (result : RevocationResult) (err : Option Failure)
  | use (lease : Nat)
  | usePrepare (lease : Nat)
  | useAdmit (lease : Nat)
  | useReturn (lease : Nat) (copied : Bool)
  | useFinish (lease : Nat) (copied : Bool)
  | closeLease (lease : Nat)
  | releaseLease (lease : Nat)
  | dispose (disposal : Disposal) (next : Stage)
  | publish (cancels : List Cancel) (next : Stage)
  | abandon (owner : Owner) (next : Stage)
  | returned
  deriving DecidableEq, Repr

structure Task where
  stage : Stage
  sample : Option Nat
  deriving DecidableEq, Repr

structure Broker where
  issuers : List IssuerKey
  lineages : AList (fun _ : ConnectionKey => Lineage)
  operations : AList (fun _ : OperationKey => OperationState)
  connectionExpiry : AList (fun _ : ConnectionKey => Int)
  operationExpiry : AList (fun _ : OperationKey => Int)
  sources : AList (fun _ : DigestValue => Nat)
  retiredSources : List Nat
  sourceFlights : AList (fun _ : DigestValue => Nat)
  sessions : AList (fun _ : DigestValue => Nat)
  cells : List Nat
  sessionFlights : AList (fun _ : DigestValue => Nat)
  rotations : AList (fun _ : ConnectionKey => Nat)
  activeLeases : Nat
  activeResolves : Nat
  sourceReservations : Nat
  sessionReservations : Nat
  operationReservations : Nat
  leaseReservations : Nat
  nextEpoch : Nat
  nextUse : Nat
  clockSamples : Nat
  lastClockSample : Nat
  lastNow : Int
  closed : Bool
  entryHeap : List SourceEntry
  sourceFlightHeap : List SourceFlight
  cellHeap : List SessionCell
  sessionFlightHeap : List SessionFlight
  rotationHeap : List RotationFlight
  leaseHeap : List Lease
  resolved : Nat
  issued : Nat
  destroyedSources : List Nat
  destroyedSessions : List Nat
  tasks : List Task

/-- The broker right after `New`, which accepted one clock sample. -/
def newBroker (issuers : List IssuerKey) (now : Int) : Broker where
  issuers := issuers
  lineages := ∅
  operations := ∅
  connectionExpiry := ∅
  operationExpiry := ∅
  sources := ∅
  retiredSources := []
  sourceFlights := ∅
  sessions := ∅
  cells := []
  sessionFlights := ∅
  rotations := ∅
  activeLeases := 0
  activeResolves := 0
  sourceReservations := 0
  sessionReservations := 0
  operationReservations := 0
  leaseReservations := 0
  nextEpoch := 0
  nextUse := 0
  clockSamples := 1
  lastClockSample := 1
  lastNow := now
  closed := false
  entryHeap := []
  sourceFlightHeap := []
  cellHeap := []
  sessionFlightHeap := []
  rotationHeap := []
  leaseHeap := []
  resolved := 0
  issued := 0
  destroyedSources := []
  destroyedSessions := []
  tasks := []

end Veer.CredentialBroker
