import Veer.Administration
import Veer.ReconcileSafety
import Veer.StepMachine

/-!
# The elevation ledger

One process-local ledger, shared by all its copies. `Issue` verifies and takes the number of its
clock sample before it locks the ledger, so that its two halves are separate steps here and any
number of issuances may lie between them; the other calls hold the lock throughout. Answers of the
verifier, readings of the clock and cancellations are inputs.
-/
namespace Veer.Administration
open Reconcile (ID validID Sha256 maxUint64)
open Identity (URLParser)
open Authorization (Action)
open StepMachine (Machine)

structure GrantRecord where
  grant : Grant
  state : GrantState
  terminalAt : Int
  deriving DecidableEq, Repr

structure Ledger where
  clockSamples : Nat
  lastClockSample : Nat
  administrators : AList (fun _ : ID => Administrator)
  proofs : AList (fun _ : ID => Unit)
  grants : AList (fun _ : ID => GrantRecord)
  highWater : Int

/-! ## Construction -/

section
variable [Sha256] [URLParser]

/-- The turn of `NewLedger`'s loop for one administrator. -/
def indexAdministrator
    (maps : AList (fun _ : ID => Administrator) × AList (fun _ : AdministratorIdentityKey => ID))
    (administrator : Administrator) :
    Except Failure
      (AList (fun _ : ID => Administrator) × AList (fun _ : AdministratorIdentityKey => ID)) :=
  if !(validateAdministrator administrator).isOk then
    .error [.invalidLedger, .invalidAdministrator]
  else if administrator.id ∈ maps.1 then .error [.invalidLedger, .duplicateAdministratorID]
  else if administratorKey administrator ∈ maps.2 then
    .error [.invalidLedger, .duplicateAdministrator]
  else .ok (maps.1.insert administrator.id administrator,
    maps.2.insert (administratorKey administrator) administrator.id)

/-- Verifier and clock are given: the model has no nil interfaces. -/
def newLedger (administrators : List Administrator) : Except Failure Ledger :=
  if maxAdministrators < administrators.length then
    .error [.invalidLedger, .tooManyAdministrators]
  else
    match administrators.foldlM indexAdministrator (∅, ∅) with
    | .error failure => .error failure
    | .ok (byID, _) => .ok ⟨0, 0, byID, ∅, ∅, 0⟩

end

/-! ## The clock -/

structure IssuanceClockSample where
  sequence : Nat
  observed : Int
  failed : Bool
  deriving DecidableEq, Repr

/-- The sequence number of a sample, 0 when the numbers have run out. -/
def Ledger.sampleIssuanceClock (ledger : Ledger) : Ledger × Nat :=
  if ledger.clockSamples = maxUint64 then (ledger, 0)
  else ({ ledger with clockSamples := ledger.clockSamples + 1 }, ledger.clockSamples + 1)

def Ledger.observeClock (ledger : Ledger) (value : Int) : Except Failure Ledger :=
  if ledger.highWater ≠ 0 ∧ value < ledger.highWater then .error [.clockRegressed]
  else if ledger.highWater = 0 ∨ ledger.highWater < value then
    .ok { ledger with highWater := value }
  else .ok ledger

/-- The sequence fence moves forward only. -/
def Ledger.fence (ledger : Ledger) (sequence : Nat) : Ledger :=
  if ledger.lastClockSample < sequence then { ledger with lastClockSample := sequence } else ledger

/-- The high-water mark after an observation that cannot lower it. -/
def Ledger.raise (ledger : Ledger) (value : Int) : Ledger :=
  if ledger.highWater = 0 ∨ ledger.highWater < value then { ledger with highWater := value }
  else ledger

def Ledger.observeIssuanceClockLocked (ledger : Ledger) (sample : IssuanceClockSample) :
    Ledger × Except Failure Int :=
  if sample.sequence = 0 then (ledger, .error [.strongAuthenticationUnavailable])
  else if sample.failed then
    (ledger.fence sample.sequence, .error [.strongAuthenticationUnavailable])
  else
    match normalizeContractTime sample.observed with
    | .error _ => (ledger.fence sample.sequence, .error [.strongAuthenticationUnavailable])
    | .ok normalized =>
      if sample.sequence ≤ ledger.lastClockSample then
        -- a stale sequence number still carries a valid observation
        (ledger.raise normalized, .ok (ledger.raise normalized).highWater)
      else
        let fenced := { ledger with lastClockSample := sample.sequence }
        if fenced.highWater ≠ 0 ∧ normalized < fenced.highWater then
          (fenced, .error [.clockRegressed])
        else (fenced.raise normalized, .ok normalized)

/-! ## Issue -/

/-- What the configured verifier answers. -/
inductive VerifierAnswer
  | proof (proofID : ID) (authenticatedAt : Int)
  | invalid
  | unavailable
  | unclassified
  deriving DecidableEq, Repr

/-- One call of `Issue`: its arguments, the verifier's answer, and the state of the context when it is
asked before and after the verification. -/
structure IssueCall where
  credentialValid : Bool
  request : ElevationRequest
  answer : VerifierAnswer
  contextBefore : Option Sentinel
  contextAfter : Option Sentinel
  deriving DecidableEq, Repr

/-- An issuance that waits for the lock. -/
structure Ticket where
  request : ElevationRequest
  proofID : ID
  authenticatedAt : Int
  sequence : Nat
  deriving DecidableEq, Repr

/-- The proof tombstone and the grant become visible together. -/
def Ledger.commit (ledger : Ledger) (grant : Grant) : Ledger :=
  { ledger with
    proofs := ledger.proofs.insert grant.proofID ()
    grants := ledger.grants.insert grant.id ⟨grant, .active, 0⟩ }

section
variable [Sha256] [URLParser]

/-- `Issue` up to its clock sample: the proof and the normalized time of authentication. -/
def IssueCall.verified (call : IssueCall) : Except Failure (ID × Int) :=
  match call.contextBefore with
  | some failure => .error [failure]
  | none =>
    if !call.credentialValid || !(validateElevationRequest call.request).isOk then
      .error [.strongAuthenticationInvalid]
    else
      match call.contextAfter with
      | some failure => .error [failure]
      | none =>
        match call.answer with
        | .invalid => .error [.strongAuthenticationInvalid]
        | .unavailable | .unclassified => .error [.strongAuthenticationUnavailable]
        | .proof proofID authenticatedAt =>
          if !validID proofID then .error [.strongAuthenticationUnavailable]
          else
            match normalizeContractTime authenticatedAt with
            | .error _ => .error [.strongAuthenticationUnavailable]
            | .ok normalized => .ok (proofID, normalized)

/-- The checks of a ticket against the ledger, and the grant that passes them. -/
def Ledger.admitTicket (ledger : Ledger) (ticket : Ticket) (now : Int) : Except Failure Grant :=
  if now < ticket.request.requestedAt ∨ now < ticket.authenticatedAt ∨
      maxStrongAuthProofAge < now - ticket.authenticatedAt then
    .error [.strongAuthenticationInvalid]
  else
    match ledger.administrators.lookup ticket.request.administrator.id with
    | none => .error [.administratorNotRegistered]
    | some configured =>
      if !equalAdministrator configured ticket.request.administrator ||
          !configured.matchesPrincipal ticket.request.principal then
        .error [.identityMismatch]
      else if ticket.proofID ∈ ledger.proofs then .error [.strongAuthProofReplayed]
      else if ticket.request.grantID ∈ ledger.grants then .error [.duplicateGrantID]
      else if maxTrackedElevations ≤ ledger.grants.keys.length then .error [.elevationLedgerFull]
      else
        match normalizeContractTime (now + ticket.request.duration) with
        | .error _ => .error [.invalidElevationDuration]
        | .ok expiresAt =>
          let grant : Grant :=
            { initialized := true
              id := ticket.request.grantID
              administratorID := configured.id
              proofID := ticket.proofID
              action := ticket.request.action
              target := ticket.request.target
              reason := ticket.request.reason
              caseReference := ticket.request.caseReference
              issuedAt := now
              expiresAt := expiresAt }
          if !validGrant grant then .error [.invalidElevationRequest] else .ok grant

/-- The part of `Issue` under the lock, with the context asked after the clock and before the
commit. -/
def Ledger.issueLocked (ledger : Ledger) (ticket : Ticket) (observed : Int)
    (contextLocked contextCommit : Option Sentinel) : Ledger × Except Failure Grant :=
  let (fenced, clock) :=
    ledger.observeIssuanceClockLocked ⟨ticket.sequence, observed, ticket.sequence == 0⟩
  match contextLocked with
  | some failure => (fenced, .error [failure])
  | none =>
    match clock with
    | .error failure => (fenced, .error failure)
    | .ok now =>
      match fenced.admitTicket ticket now with
      | .error failure => (fenced, .error failure)
      | .ok grant =>
        match contextCommit with
        | some failure => (fenced, .error [failure])
        | none => (fenced.commit grant, .ok grant)

end

/-! ## StateAt, Consume and Revoke -/

def GrantRecord.expireAt (record : GrantRecord) (now : Int) : GrantRecord :=
  if record.state = .active ∧ record.grant.expiresAt ≤ now then
    { record with state := .expired, terminalAt := record.grant.expiresAt }
  else record

def terminalGrantError : GrantState → Except Failure Unit
  | .active => .ok ()
  | .consumed => .error [.grantConsumed]
  | .revoked => .error [.grantRevoked]
  | .expired => .error [.grantExpired]

def Ledger.lookupGrant (ledger : Ledger) (grant : Grant) : Except Failure GrantRecord :=
  match ledger.grants.lookup grant.id with
  | none => .error [.grantNotFound]
  | some record => if !equalGrant record.grant grant then .error [.grantMismatch] else .ok record

/-- A record is shared by pointer: writing its fields writes the map entry. -/
def Ledger.write (ledger : Ledger) (id : ID) (record : GrantRecord) : Ledger :=
  { ledger with grants := ledger.grants.insert id record }

/-- The common beginning of the three calls: the clock is observed, the record is found and, if its
time has come, expires. -/
def Ledger.settle (ledger : Ledger) (now : Int) (grant : Grant) :
    Ledger × Except Failure (GrantRecord × Int) :=
  if !validGrant grant then (ledger, .error [.grantMismatch])
  else
    match normalizeContractTime now with
    | .error failure => (ledger, .error failure)
    | .ok normalized =>
      match ledger.observeClock normalized with
      | .error failure => (ledger, .error failure)
      | .ok observed =>
        match observed.lookupGrant grant with
        | .error failure => (observed, .error failure)
        | .ok record =>
          (observed.write grant.id (record.expireAt normalized),
            .ok (record.expireAt normalized, normalized))

def Ledger.stateAt (ledger : Ledger) (now : Int) (grant : Grant) :
    Ledger × Except Failure GrantState :=
  match ledger.settle now grant with
  | (settled, .error failure) => (settled, .error failure)
  | (settled, .ok (record, _)) => (settled, .ok record.state)

def Ledger.consume (ledger : Ledger) (now : Int) (grant : Grant) (expectedAction : Action)
    (expectedTarget : Target) : Ledger × Except Failure ConsumptionReceipt :=
  match ledger.settle now grant with
  | (settled, .error failure) => (settled, .error failure)
  | (settled, .ok (record, normalized)) =>
    match terminalGrantError record.state with
    | .error failure => (settled, .error failure)
    | .ok () =>
      if record.grant.action ≠ expectedAction ∨ !equalTarget record.grant.target expectedTarget then
        (settled, .error [.grantScopeMismatch])
      else
        let receipt : ConsumptionReceipt := ⟨true, record.grant, normalized⟩
        if !validConsumptionReceipt receipt then (settled, .error [.grantMismatch])
        else
          (settled.write grant.id { record with state := .consumed, terminalAt := normalized },
            .ok receipt)

def Ledger.revoke (ledger : Ledger) (now : Int) (grant : Grant) :
    Ledger × Except Failure RevocationReceipt :=
  match ledger.settle now grant with
  | (settled, .error failure) => (settled, .error failure)
  | (settled, .ok (record, normalized)) =>
    match terminalGrantError record.state with
    | .error failure => (settled, .error failure)
    | .ok () =>
      let receipt : RevocationReceipt := ⟨true, record.grant, normalized⟩
      if !validRevocationReceipt receipt then (settled, .error [.grantMismatch])
      else
        (settled.write grant.id { record with state := .revoked, terminalAt := normalized },
          .ok receipt)

/-! ## Any interleaving of calls -/

/-- The ledger and the issuances between their two halves. -/
structure System where
  ledger : Ledger
  tickets : List (Option Ticket)

inductive Input
  | start (call : IssueCall)
  | finish (ticket : Nat) (observed : Int) (contextLocked contextCommit : Option Sentinel)
  | stateAt (now : Int) (grant : Grant)
  | consume (now : Int) (grant : Grant) (action : Action) (target : Target)
  | revoke (now : Int) (grant : Grant)
  deriving DecidableEq, Repr

inductive Output
  | idle
  | sampled (ticket : Nat)
  | issued (result : Except Failure Grant)
  | state (result : Except Failure GrantState)
  | consumed (result : Except Failure ConsumptionReceipt)
  | revoked (result : Except Failure RevocationReceipt)

section
variable [Sha256] [URLParser]

def System.start (system : System) (call : IssueCall) : System × Output :=
  match call.verified with
  | .error failure => (system, .issued (.error failure))
  | .ok (proofID, authenticatedAt) =>
    let (sampled, sequence) := system.ledger.sampleIssuanceClock
    (⟨sampled, system.tickets ++ [some ⟨call.request, proofID, authenticatedAt, sequence⟩]⟩,
      .sampled system.tickets.length)

def System.finish (system : System) (index : Nat) (observed : Int)
    (contextLocked contextCommit : Option Sentinel) : System × Output :=
  match system.tickets[index]? with
  | some (some ticket) =>
    let (ledger, result) := system.ledger.issueLocked ticket observed contextLocked contextCommit
    (⟨ledger, system.tickets.set index none⟩, .issued result)
  | _ => (system, .idle)

def System.step (system : System) : Input → System × Output
  | .start call => system.start call
  | .finish index observed contextLocked contextCommit =>
    system.finish index observed contextLocked contextCommit
  | .stateAt now grant =>
    let (ledger, result) := system.ledger.stateAt now grant
    ({ system with ledger := ledger }, .state result)
  | .consume now grant action target =>
    let (ledger, result) := system.ledger.consume now grant action target
    ({ system with ledger := ledger }, .consumed result)
  | .revoke now grant =>
    let (ledger, result) := system.ledger.revoke now grant
    ({ system with ledger := ledger }, .revoked result)

def machine : Machine System Input Output := ⟨System.step⟩

end

end Veer.Administration
