import Veer.AuditEncoding

/-!
# The audit chain

Each record of a stream binds its event to the digest of the record before it. A segment is verified
against the checkpoint before its first record and, if one is given, against the head it must reach.
-/
namespace Veer.Audit
open Reconcile (ID validID Sha256 DigestValue equalDigest digestFromHasher uint64Bytes writeHashBytes
  writeHashFrame maxUint64 FitsUint64)

def chainGenesisDomain : String := "veer.audit.chain.genesis.v1"
def chainRecordDomain : String := "veer.audit.chain.record.v1"
def recordFramingBytes : Nat := 256

abbrev ChainDigest := DigestValue

structure Checkpoint where
  initialized : Bool
  stream : Stream
  sequence : Nat
  digest : ChainDigest
  deriving DecidableEq, Repr

structure Record where
  event : Event
  previousDigest : ChainDigest
  digest : ChainDigest
  deriving DecidableEq, Repr

structure Segment where
  records : List Record
  deriving DecidableEq, Repr

def writeStreamFrames (stream : Stream) : List UInt8 :=
  writeHashFrame stream.kind.string ++ writeHashFrame stream.workspaceID

section
variable [Sha256]

def deriveGenesisDigest (stream : Stream) : ChainDigest :=
  digestFromHasher (writeHashFrame chainGenesisDomain ++ writeHashFrame contractVersion ++
    writeStreamFrames stream)

def deriveRecordDigest (previous : ChainDigest) (event : Event) (canonical : List UInt8) :
    ChainDigest :=
  digestFromHasher (writeHashFrame chainRecordDomain ++ writeHashFrame contractVersion ++
    writeStreamFrames event.stream ++ writeHashBytes (uint64Bytes event.sequence) ++
    writeHashBytes previous.digest ++ writeHashBytes canonical)

def validateCheckpoint (checkpoint : Checkpoint) : Bool :=
  checkpoint.initialized && validateStream checkpoint.stream && checkpoint.digest.initialized &&
    (checkpoint.sequence == 0) == equalDigest checkpoint.digest (deriveGenesisDigest checkpoint.stream)

def newCheckpoint (stream : Stream) (sequence : Nat) (digest : ChainDigest) :
    Except Failure Checkpoint :=
  let checkpoint : Checkpoint := ⟨true, stream, sequence, digest⟩
  if !validateCheckpoint checkpoint then .error [.sentinel .invalidCheckpoint] else .ok checkpoint

def Checkpoint.equal (checkpoint other : Checkpoint) : Bool :=
  validateCheckpoint checkpoint && validateCheckpoint other &&
    checkpoint.stream.equal other.stream && checkpoint.sequence == other.sequence &&
    equalDigest checkpoint.digest other.digest

/-! ## Building a segment -/

/-- `Append`. -/
def append (previous : Checkpoint) (event : Event) : Except Failure (Record × Checkpoint) :=
  if !validateCheckpoint previous then .error [.sentinel .invalidCheckpoint]
  else
    match validateEvent event with
    | .error failure => .error failure
    | .ok () =>
      if previous.sequence = maxUint64 ∨ event.sequence ≠ previous.sequence + 1 then
        .error [.sentinel .invalidSequence]
      else if !event.stream.equal previous.stream then
        .error [.sentinel .invalidRecord, .sentinel .invalidStream]
      else
        match marshalCanonicalEvent event with
        | .error failure => .error failure
        | .ok canonical =>
          let digest := deriveRecordDigest previous.digest event canonical
          .ok (⟨event, previous.digest, digest⟩, ⟨true, previous.stream, event.sequence, digest⟩)

/-- The loop of `preflightEvents` from one event on. -/
def preflightEvents (stream : Stream) : Nat → Nat → List Event → Except Failure Unit
  | _, _, [] => .ok ()
  | estimated, sequence, event :: rest =>
    match validateEvent event with
    | .error failure => .error failure
    | .ok () =>
      if sequence = maxUint64 ∨ event.sequence ≠ sequence + 1 ∨ !event.stream.equal stream then
        .error [.sentinel .invalidSequence]
      else
        match marshalCanonicalEvent event with
        | .error failure => .error failure
        | .ok canonical =>
          let estimated := estimated + canonical.length + recordFramingBytes
          if maxCanonicalSegmentBytes < estimated then .error [.sentinel .segmentTooLarge]
          else preflightEvents stream estimated event.sequence rest

/-- The records of the events and the head after them. -/
def appendAll (previous : Checkpoint) : List Event → Except Failure (List Record × Checkpoint)
  | [] => .ok ([], previous)
  | event :: rest =>
    match append previous event with
    | .error failure => .error failure
    | .ok (record, next) =>
      match appendAll next rest with
      | .error failure => .error failure
      | .ok (records, head) => .ok (record :: records, head)

/-- The bytes around the records of a segment body. -/
def segmentPrefixBytes : Nat :=
  (Reconcile.utf8 ("\x7b\"contractVersion\":\"" ++ contractVersion ++ "\",\"records\":[")).length

def newSegment (previous : Checkpoint) (events : List Event) :
    Except Failure (Segment × Checkpoint) :=
  if !validateCheckpoint previous then .error [.sentinel .invalidCheckpoint]
  else if maxSegmentEvents < events.length then .error [.sentinel .segmentTooLarge]
  else
    match preflightEvents previous.stream (segmentPrefixBytes + 2) previous.sequence events with
    | .error failure => .error failure
    | .ok () =>
      match appendAll previous events with
      | .error failure => .error failure
      | .ok (records, head) => .ok (⟨records⟩, head)

/-! ## Verifying a segment -/

def validateRecord (record : Record) : Except Failure Unit :=
  if !(validateEvent record.event).isOk || !record.previousDigest.initialized ||
      !record.digest.initialized then
    .error [.sentinel .invalidRecord]
  else
    match marshalCanonicalEvent record.event with
    | .error _ => .error [.sentinel .invalidRecord]
    | .ok canonical =>
      if !equalDigest record.digest
          (deriveRecordDigest record.previousDigest record.event canonical) then
        .error [.sentinel .invalidRecord, .sentinel .integrity]
      else .ok ()

/-- The record follows the one before it, or a checkpoint that its own fields give. -/
def validateNeighbour (previous : Option Record) (record : Record) : Except Failure Unit :=
  match previous with
  | none =>
    match newCheckpoint record.event.stream (record.event.sequence - 1) record.previousDigest with
    | .error _ => .error [.sentinel .invalidSegment, .detail "invalid first-record predecessor"]
    | .ok _ => .ok ()
  | some previous =>
    if previous.event.sequence = maxUint64 ∨ record.event.sequence ≠ previous.event.sequence + 1 ∨
        !record.event.stream.equal previous.event.stream ∨
        !equalDigest record.previousDigest previous.digest then
      .error [.sentinel .invalidSegment, .detail "non-contiguous records"]
    else .ok ()

/-- The loop of `validateSegmentStructure` from one record on. -/
def validateRecords : Option Record → List Record → Except Failure Unit
  | _, [] => .ok ()
  | previous, record :: rest =>
    match validateRecord record with
    | .error failure => .error failure
    | .ok () =>
      match validateNeighbour previous record with
      | .error failure => .error failure
      | .ok () => validateRecords (some record) rest

def validateSegmentStructure (segment : Segment) : Except Failure Unit :=
  if maxSegmentEvents < segment.records.length then .error [.sentinel .segmentTooLarge]
  else validateRecords none segment.records

/-- One turn of the loop of `VerifySegment`. -/
def verifyRecord (head : Checkpoint) (record : Record) : Except Failure Checkpoint :=
  if head.sequence = maxUint64 ∨ record.event.sequence ≠ head.sequence + 1 then
    .error [.sentinel .integrity, .sentinel .invalidSequence]
  else if !record.event.stream.equal head.stream ∨
      !equalDigest record.previousDigest head.digest then
    .error [.sentinel .integrity, .detail "predecessor mismatch"]
  else
    match marshalCanonicalEvent record.event with
    | .error _ => .error [.sentinel .integrity, .detail "invalid event"]
    | .ok canonical =>
      if !equalDigest record.digest (deriveRecordDigest head.digest record.event canonical) then
        .error [.sentinel .integrity, .detail "record digest mismatch"]
      else .ok ⟨true, head.stream, record.event.sequence, record.digest⟩

def verifySegment (previous : Checkpoint) (segment : Segment) (expected : Option Checkpoint) :
    Except Failure Checkpoint :=
  if !validateCheckpoint previous then .error [.sentinel .invalidCheckpoint]
  else if maxSegmentEvents < segment.records.length then .error [.sentinel .segmentTooLarge]
  else
    match validateSegmentStructure segment with
    | .error failure => .error failure
    | .ok () =>
      match segment.records.foldlM verifyRecord previous with
      | .error failure => .error failure
      | .ok head =>
        if !expected.all (fun expected => validateCheckpoint expected && head.equal expected) then
          .error [.sentinel .expectedHead]
        else .ok head

end

end Veer.Audit
