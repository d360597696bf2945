import Veer.AuditChain
import Veer.StepMachine

/-!
# Tamper evidence of the audit chain

The digest of a record determines its event and the digest before it. From a fixed checkpoint to a
fixed head there is therefore only one segment that verifies, whatever is inserted, deleted,
reordered, replaced or cut off.
-/
namespace Veer.Audit
open Reconcile (Sha256 DigestValue equalDigest_iff writeHashBytes writeHashBytes_pair uint64Bytes
  FitsUint64 maxUint64)

theorem Stream.equal_eq {left right : Stream} (h : left.equal right = true) : left = right := by
  simp only [Stream.equal, validateStream, Bool.and_eq_true, beq_iff_eq] at h
  obtain ⟨⟨⟨hl, hr⟩, hkind⟩, hworkspace⟩ := h
  exact (Stream.mk.injEq ..).mpr ⟨hl.1.trans hr.1.symm, hkind, hworkspace⟩

theorem Stream.equal_self {stream : Stream} (h : validateStream stream = true) :
    stream.equal stream = true := by
  simp [Stream.equal, h]

theorem equalDigest_self {p : DigestValue} (h : p.initialized = true) :
    Reconcile.equalDigest p p = true :=
  equalDigest_iff.mpr ⟨h, rfl⟩

variable {event : Event}

theorem validateEvent_marshal (h : validateEvent event = .ok ()) :
    marshalCanonicalEvent event = .ok (encodeEvent event) := by
  unfold validateEvent at h
  unfold marshalCanonicalEvent
  split at h
  · cases h
  rename_i hfields
  split_ifs at h with hlarge
  · cases h
  · simp [hlarge]

theorem marshalCanonicalEvent_ok {canonical : List UInt8}
    (h : marshalCanonicalEvent event = .ok canonical) :
    validateEventFields event = .ok () ∧ canonical = encodeEvent event ∧
      FitsUint64 canonical.length := by
  unfold marshalCanonicalEvent at h
  split at h
  · cases h
  rename_i hfields
  split_ifs at h with hlarge
  have hcanonical := (Except.ok.inj h).symm
  refine ⟨hfields, hcanonical, ?_⟩
  unfold maxCanonicalEventBytes at hlarge
  rw [hcanonical]
  unfold FitsUint64
  omega

section
variable [Sha256] {previous head head' next next' expected : Checkpoint} {record record' : Record}
  {records records' : List Record} {segment segment' : Segment}

/-- What a record that verifies after a head is. -/
structure Follows (head : Checkpoint) (record : Record) (next : Checkpoint) : Prop where
  sequence : record.event.sequence = head.sequence + 1
  stream : record.event.stream = head.stream
  initialized : head.digest.initialized = true
  previous : record.previousDigest = head.digest
  fields : validateEventFields record.event = .ok ()
  bounded : FitsUint64 (encodeEvent record.event).length
  digest : record.digest = deriveRecordDigest head.digest record.event (encodeEvent record.event)
  next_eq : next = ⟨true, head.stream, record.event.sequence, record.digest⟩

theorem verifyRecord_follows (h : verifyRecord head record = .ok next) : Follows head record next := by
  unfold verifyRecord at h
  split at h
  · cases h
  rename_i hsequence
  split at h
  · cases h
  rename_i hlink
  split at h
  · cases h
  rename_i canonical hcanonical
  split at h
  · cases h
  rename_i hdigest
  have hnext := Except.ok.inj h
  simp only [not_or, Bool.not_eq_true', Bool.not_eq_false, Decidable.not_not]
    at hsequence hlink hdigest
  obtain ⟨hfields, hencoded, hbounded⟩ := marshalCanonicalEvent_ok hcanonical
  rw [hencoded] at hbounded hdigest
  obtain ⟨hinit, hprevious⟩ := equalDigest_iff.mp hlink.2
  exact ⟨hsequence.2, Stream.equal_eq hlink.1, hprevious ▸ hinit, hprevious, hfields,
    hbounded, (equalDigest_iff.mp hdigest).2, hnext.symm⟩

/-- A digest determines the digest before it and the event, within one stream and position. -/
theorem Follows.unique (hsum : Function.Injective Sha256.sum) (h : Follows head record next)
    (h' : Follows head' record' next') (hstream : head.stream = head'.stream)
    (hdigest : record.digest = record'.digest) : head.digest = head'.digest ∧ record = record' := by
  have heq := hsum (congrArg DigestValue.digest (h.digest.symm.trans (hdigest.trans h'.digest)))
  rw [h.stream, h'.stream, hstream] at heq
  simp only [List.append_assoc] at heq
  have heq := List.append_cancel_left (List.append_cancel_left (List.append_cancel_left heq))
  have hsequences : (writeHashBytes (uint64Bytes record.event.sequence)).length =
      (writeHashBytes (uint64Bytes record'.event.sequence)).length := by
    simp only [writeHashBytes, List.length_append, Reconcile.uint64Bytes_length]
  obtain ⟨-, heq⟩ := List.append_inj heq hsequences
  obtain ⟨hprevious, hcanonical⟩ := writeHashBytes_pair h.bounded h'.bounded heq
  have hhead : head.digest = head'.digest :=
    (DigestValue.mk.injEq ..).mpr ⟨h.initialized.trans h'.initialized.symm, hprevious⟩
  have hevent := encodeEvent_injective h.fields h'.fields hcanonical
  refine ⟨hhead, (Record.mk.injEq ..).mpr ⟨hevent, ?_, hdigest⟩⟩
  rw [h.previous, h'.previous, hhead]

theorem verifyRecords_reach (h : records.foldlM verifyRecord previous = .ok head) :
    head.stream = previous.stream ∧ head.sequence = previous.sequence + records.length := by
  refine StepMachine.foldlM_ok_rule
    (P := fun done head => head.stream = previous.stream ∧
      head.sequence = previous.sequence + done.length) ?_ ⟨rfl, rfl⟩ h
  intro done head record next hdone hstep
  have hfollows := verifyRecord_follows hstep
  rw [hfollows.next_eq, List.length_append, List.length_singleton]
  exact ⟨hdone.1, by rw [hfollows.sequence, hdone.2, Nat.add_assoc]⟩

theorem verifyRecords_concat (h : (records ++ [record]).foldlM verifyRecord previous = .ok next) :
    ∃ head, records.foldlM verifyRecord previous = .ok head ∧ Follows head record next := by
  rw [List.foldlM_append] at h
  cases hrecords : records.foldlM verifyRecord previous with
  | error => simp [hrecords, bind, Except.bind] at h
  | ok head =>
    refine ⟨head, rfl, verifyRecord_follows ?_⟩
    cases hrecord : verifyRecord head record with
    | error => simp [hrecords, hrecord, bind, Except.bind] at h
    | ok => simpa [hrecords, hrecord, bind, Except.bind, pure, Except.pure] using h

/-- From the last record back: equal digests at the end make the records equal one by one. -/
theorem verifyRecords_unique (hsum : Function.Injective Sha256.sum)
    (hlength : records.length = records'.length)
    (h : records.foldlM verifyRecord previous = .ok head)
    (h' : records'.foldlM verifyRecord previous = .ok head') (hdigest : head.digest = head'.digest) :
    records = records' := by
  induction records using List.reverseRecOn generalizing records' head head' with
  | nil => exact (List.length_eq_zero_iff.mp hlength.symm).symm
  | append_singleton records record ih =>
    rcases List.eq_nil_or_concat records' with rfl | ⟨records', record', rfl⟩
    · simp at hlength
    rw [List.concat_eq_append] at h' hlength ⊢
    obtain ⟨before, hbefore, hfollows⟩ := verifyRecords_concat h
    obtain ⟨before', hbefore', hfollows'⟩ := verifyRecords_concat h'
    have hstream : before.stream = before'.stream := by
      rw [(verifyRecords_reach hbefore).1, (verifyRecords_reach hbefore').1]
    rw [hfollows.next_eq, hfollows'.next_eq] at hdigest
    obtain ⟨hlink, rfl⟩ := hfollows.unique hsum hfollows' hstream hdigest
    have hrest := ih (by simpa using hlength) hbefore hbefore' hlink
    rw [hrest]

theorem verifySegment_ok (h : verifySegment previous segment (some expected) = .ok head) :
    segment.records.foldlM verifyRecord previous = .ok head ∧ head.sequence = expected.sequence ∧
      head.digest = expected.digest := by
  unfold verifySegment at h
  split_ifs at h
  split at h
  · cases h
  split at h
  · cases h
  rename_i reached hreached
  split_ifs at h with hexpected
  cases h
  simp only [Option.all_some, Bool.and_eq_true, Checkpoint.equal, Bool.not_eq_true',
    Bool.not_eq_false, beq_iff_eq] at hexpected
  exact ⟨hreached, hexpected.2.1.2, (equalDigest_iff.mp hexpected.2.2).2⟩

/-- Against one predecessor and one head exactly one segment verifies. -/
theorem verifySegment_tamper_evident (hsum : Function.Injective Sha256.sum)
    (h : verifySegment previous segment (some expected) = .ok head) (other : Segment) :
    (∃ head', verifySegment previous other (some expected) = .ok head') ↔ other = segment := by
  constructor
  · rintro ⟨head', h'⟩
    obtain ⟨hrecords, hsequence, hdigest⟩ := verifySegment_ok h
    obtain ⟨hrecords', hsequence', hdigest'⟩ := verifySegment_ok h'
    have hlength : other.records.length = segment.records.length := by
      have hreach := (verifyRecords_reach hrecords).2
      have hreach' := (verifyRecords_reach hrecords').2
      omega
    have hsame := verifyRecords_unique hsum hlength hrecords' hrecords (hdigest'.trans hdigest.symm)
    exact (Segment.mk.injEq ..).mpr hsame
  · rintro rfl
    exact ⟨head, h⟩

/-! ## Segments that are built verify -/

/-- What `Append` returns, from a checkpoint and an event that pass their checks. -/
structure Appends (previous : Checkpoint) (event : Event) (record : Record) (next : Checkpoint) :
    Prop where
  checkpoint : validateCheckpoint previous = true
  valid : validateEvent event = .ok ()
  room : previous.sequence ≠ maxUint64
  sequence : event.sequence = previous.sequence + 1
  stream : event.stream = previous.stream
  record_eq : record = ⟨event, previous.digest,
    deriveRecordDigest previous.digest event (encodeEvent event)⟩
  next_eq : next = ⟨true, previous.stream, event.sequence, record.digest⟩

theorem append_appends (h : append previous event = .ok (record, next)) :
    Appends previous event record next := by
  unfold append at h
  split at h
  · cases h
  rename_i hcheckpoint
  split at h
  · cases h
  rename_i hevent
  split at h
  · cases h
  rename_i hsequence
  split at h
  · cases h
  rename_i hstream
  rw [validateEvent_marshal hevent] at h
  obtain ⟨hrecord, hnext⟩ := Prod.mk.inj (Except.ok.inj h)
  simp only [not_or, Bool.not_eq_true', Bool.not_eq_false, Decidable.not_not]
    at hcheckpoint hsequence hstream
  refine ⟨hcheckpoint, hevent, hsequence.1, hsequence.2, Stream.equal_eq hstream,
    hrecord.symm, ?_⟩
  rw [← hnext, ← hrecord]

theorem Checkpoint.parts (h : validateCheckpoint previous = true) :
    previous.initialized = true ∧ validateStream previous.stream = true ∧
      previous.digest.initialized = true := by
  simp only [validateCheckpoint, Bool.and_eq_true] at h
  exact ⟨h.1.1.1, h.1.1.2, h.1.2⟩

/-- A record digest is no genesis digest: the domains of the two hashes differ. -/
theorem deriveRecordDigest_ne_genesis (hsum : Function.Injective Sha256.sum) (digest : ChainDigest)
    (event : Event) (canonical : List UInt8) (stream : Stream) :
    deriveRecordDigest digest event canonical ≠ deriveGenesisDigest stream := by
  intro h
  have heq := hsum (congrArg DigestValue.digest h)
  simp only [List.append_assoc] at heq
  have hdomain := Reconcile.writeHashFrame_reads
    (by unfold Reconcile.Framable FitsUint64; decide)
    (by unfold Reconcile.Framable FitsUint64; decide) heq
  exact absurd hdomain.1 (by decide)

theorem Appends.next_valid (hsum : Function.Injective Sha256.sum)
    (h : Appends previous event record next) : validateCheckpoint next = true := by
  obtain ⟨-, hstream, -⟩ := Checkpoint.parts h.checkpoint
  have hgenesis : Reconcile.equalDigest record.digest (deriveGenesisDigest previous.stream) =
      false := by
    rw [Bool.eq_false_iff]
    intro hequal
    have hsame := (equalDigest_iff.mp hequal).2
    rw [h.record_eq] at hsame
    exact deriveRecordDigest_ne_genesis hsum _ _ _ _ hsame
  have hdigest : record.digest.initialized = true := by
    rw [h.record_eq]
    rfl
  rw [h.next_eq]
  simp [validateCheckpoint, hstream, hdigest, hgenesis, h.sequence]

theorem Appends.verifyRecord_eq (h : Appends previous event record next) :
    verifyRecord previous record = .ok next := by
  obtain ⟨-, hstream, hdigest⟩ := Checkpoint.parts h.checkpoint
  have hrecord := equalDigest_self (p := record.digest) (by rw [h.record_eq]; rfl)
  rw [h.record_eq] at hrecord
  rw [h.next_eq, h.record_eq]
  unfold verifyRecord
  simp only [h.stream, Stream.equal_self hstream, equalDigest_self hdigest, Bool.not_true,
    Bool.false_eq_true, or_self, if_false, validateEvent_marshal h.valid]
  rw [if_neg (not_or.mpr ⟨h.room, not_not.mpr h.sequence⟩), hrecord]
  rfl

theorem Appends.validateRecord_eq (h : Appends previous event record next) :
    validateRecord record = .ok () := by
  obtain ⟨-, -, hdigest⟩ := Checkpoint.parts h.checkpoint
  have hrecord := equalDigest_self (p := record.digest) (by rw [h.record_eq]; rfl)
  rw [h.record_eq] at hrecord ⊢
  unfold validateRecord
  simp only [h.valid, hdigest, validateEvent_marshal h.valid, hrecord]
  rfl

/-- The record before a checkpoint, if the checkpoint is not the predecessor of a segment. -/
def Precedes (prior : Option Record) (checkpoint : Checkpoint) : Prop :=
  ∀ record ∈ prior, record.event.sequence = checkpoint.sequence ∧
    record.event.stream = checkpoint.stream ∧ record.digest = checkpoint.digest

theorem Appends.validateNeighbour_eq {prior : Option Record}
    (h : Appends previous event record next) (hprior : Precedes prior previous) :
    validateNeighbour prior record = .ok () := by
  obtain ⟨hinit, hstream, hdigest⟩ := Checkpoint.parts h.checkpoint
  rw [h.record_eq]
  cases prior with
  | none =>
    have hsame : (⟨true, event.stream, event.sequence - 1, previous.digest⟩ : Checkpoint) =
        previous := by
      rw [h.stream, h.sequence]
      exact (Checkpoint.mk.injEq ..).mpr ⟨hinit.symm, rfl, rfl, rfl⟩
    simp [validateNeighbour, newCheckpoint, hsame, h.checkpoint]
  | some before =>
    obtain ⟨hsequence, hstreams, hdigests⟩ := hprior before rfl
    simp [validateNeighbour, hsequence, hstreams, hdigests, h.room, h.sequence, h.stream,
      Stream.equal_self hstream, equalDigest_self hdigest]

theorem appendAll_verifies (hsum : Function.Injective Sha256.sum) {events : List Event}
    {prior : Option Record} (hprevious : validateCheckpoint previous = true)
    (hprior : Precedes prior previous) (h : appendAll previous events = .ok (records, head)) :
    validateRecords prior records = .ok () ∧ records.foldlM verifyRecord previous = .ok head ∧
      validateCheckpoint head = true ∧ records.length = events.length := by
  induction events generalizing previous prior records with
  | nil =>
    cases h
    exact ⟨rfl, rfl, hprevious, rfl⟩
  | cons event rest ih =>
    unfold appendAll at h
    split at h
    · cases h
    rename_i record next hstep
    split at h
    · cases h
    rename_i tail reached hrest
    cases h
    have hrecord := append_appends hstep
    have hnext : Precedes (some record) next := by
      intro other hother
      cases hother
      rw [hrecord.next_eq, hrecord.record_eq]
      exact ⟨rfl, hrecord.stream, rfl⟩
    obtain ⟨hvalid, hfold, hhead, hlength⟩ := ih (hrecord.next_valid hsum) hnext hrest
    refine ⟨?_, ?_, hhead, by simp [hlength]⟩
    · unfold validateRecords
      simp only [hrecord.validateRecord_eq, hrecord.validateNeighbour_eq hprior, hvalid]
    · simp [List.foldlM_cons, hrecord.verifyRecord_eq, bind, Except.bind, hfold]

theorem appendAll_segment (hsum : Function.Injective Sha256.sum) {events : List Event}
    (hprevious : validateCheckpoint previous = true) (hcount : events.length ≤ maxSegmentEvents)
    (h : appendAll previous events = .ok (records, head)) :
    verifySegment previous ⟨records⟩ (some head) = .ok head := by
  have hnone : Precedes none previous := by simp [Precedes]
  obtain ⟨hvalid, hfold, hhead, hlength⟩ := appendAll_verifies hsum hprevious hnone h
  obtain ⟨-, hstream, hdigest⟩ := Checkpoint.parts hhead
  unfold verifySegment validateSegmentStructure
  simp [hprevious, hlength, not_lt.mpr hcount, hvalid, hfold, hhead, Checkpoint.equal,
    Stream.equal_self hstream, equalDigest_self hdigest]

theorem newSegment_verifies (hsum : Function.Injective Sha256.sum) {events : List Event}
    (h : newSegment previous events = .ok (segment, head)) :
    verifySegment previous segment (some head) = .ok head := by
  unfold newSegment at h
  split_ifs at h with hcheckpoint hcount
  split at h
  · cases h
  split at h
  · cases h
  · rename_i records reached happend
    cases h
    exact appendAll_segment hsum (by simpa using hcheckpoint) (not_lt.mp hcount) happend

theorem append_ok {event : Event} (hcheckpoint : validateCheckpoint previous = true)
    (hevent : validateEvent event = .ok ()) (hroom : previous.sequence ≠ maxUint64)
    (hsequence : event.sequence = previous.sequence + 1) (hstream : event.stream = previous.stream) :
    ∃ record next, append previous event = .ok (record, next) := by
  have hsame := Stream.equal_self (Checkpoint.parts hcheckpoint).2.1
  unfold append
  simp only [hcheckpoint, hevent, hstream, hsame, Bool.not_true, Bool.false_eq_true, if_false,
    validateEvent_marshal hevent]
  rw [if_neg (not_or.mpr ⟨hroom, not_not.mpr hsequence⟩)]
  exact ⟨_, _, rfl⟩

/-- Valid events of the stream that are numbered on from the checkpoint can be appended. -/
theorem appendAll_ok (hsum : Function.Injective Sha256.sum) {events : List Event}
    (hcheckpoint : validateCheckpoint previous = true)
    (hevents : ∀ event ∈ events, validateEvent event = .ok () ∧ event.stream = previous.stream)
    (hsequence : events.map Event.sequence = List.range' (previous.sequence + 1) events.length)
    (hroom : previous.sequence + events.length ≤ maxUint64) :
    ∃ records head, appendAll previous events = .ok (records, head) := by
  induction events generalizing previous with
  | nil => exact ⟨[], previous, rfl⟩
  | cons event rest ih =>
    obtain ⟨⟨hvalid, hstream⟩, hrest⟩ := List.forall_mem_cons.mp hevents
    rw [List.map_cons, List.length_cons, List.range'_succ, List.cons.injEq] at hsequence
    rw [List.length_cons] at hroom
    obtain ⟨record, next, hstep⟩ := append_ok hcheckpoint hvalid (by omega) hsequence.1 hstream
    have hrecord := append_appends hstep
    have hnext : next.sequence = previous.sequence + 1 ∧ next.stream = previous.stream := by
      rw [hrecord.next_eq]
      exact ⟨hsequence.1, rfl⟩
    rw [← hnext.1] at hsequence
    rw [← hnext.2] at hrest
    obtain ⟨records, head, htail⟩ := ih (hrecord.next_valid hsum) hrest hsequence.2 (by omega)
    exact ⟨record :: records, head, by simp [appendAll, hstep, htail]⟩

end

/-! ## A platform segment of two requests -/

theorem validateEvent_of_text (hfields : validateEventFields event = .ok ())
    (htext : (JsonText.object Field.render (eventToWire event)).length ≤ 1024) :
    validateEvent event = .ok () := by
  have hbytes := Reconcile.utf8_length_le
    (String.ofList (JsonText.object Field.render (eventToWire event)))
  rw [String.toList_ofList] at hbytes
  unfold validateEvent maxCanonicalEventBytes encodeEvent
  rw [hfields]
  simp only
  rw [if_neg (by omega)]

def sampleRequest : Event :=
  { initialized := true, id := "evt_0000000000000001", stream := ⟨true, .platform, ""⟩,
    sequence := 1, recordedAt := "2026-02-28T23:59:59.999Z", clockState := .synchronized,
    kind := .request, source := .api, actor := ⟨true, .anonymous, ""⟩,
    authenticationMethod := .none, action := .resourceList,
    request := some ⟨true, "req_0000000000000001"⟩, target := none, decision := none,
    operation := none, attempt := none, elevation := none, outcome := .denied }

def laterRequest : Event :=
  { sampleRequest with
    id := "evt_0000000000000002", sequence := 2, request := some ⟨true, "req_0000000000000002"⟩ }

theorem sampleRequests_valid : ∀ event ∈ [sampleRequest, laterRequest],
    validateEvent event = .ok () ∧ event.stream = ⟨true, .platform, ""⟩ := by
  intro event hevent
  rcases List.mem_pair.mp hevent with rfl | rfl
  · exact ⟨validateEvent_of_text (by decide +kernel) (by decide +kernel), rfl⟩
  · exact ⟨validateEvent_of_text (by decide +kernel) (by decide +kernel), rfl⟩

attribute [local instance] Reconcile.plainSha256

def sampleGenesis : Checkpoint :=
  ⟨true, ⟨true, .platform, ""⟩, 0, deriveGenesisDigest ⟨true, .platform, ""⟩⟩

theorem verifySegment_tamper_evident_request :
    ∃ segment expected, segment.records.length = 2 ∧ ∀ other : Segment,
      (∃ head, verifySegment sampleGenesis other (some expected) = .ok head) ↔ other = segment := by
  have hgenesis : validateCheckpoint sampleGenesis = true := by decide +kernel
  obtain ⟨records, head, happend⟩ := appendAll_ok (fun _ _ h => h) hgenesis sampleRequests_valid rfl
    (by decide)
  have hverified := appendAll_segment (fun _ _ h => h) hgenesis (by decide) happend
  have hnone : Precedes none sampleGenesis := by simp [Precedes]
  have hlength := (appendAll_verifies (fun _ _ h => h) hgenesis hnone happend).2.2.2
  exact ⟨⟨records⟩, head, hlength, fun other =>
    verifySegment_tamper_evident (fun _ _ h => h) hverified other⟩

end Veer.Audit
