import Veer.ElevationLedger

/-!
# Grants are spent once

What a call can do to the ledger is said once: it moves the clock forward, it closes an active record,
or it commits a fresh grant. The invariant of the ledger and the life of a record are derived from
these moves, and from them what holds over whole runs.
-/
namespace Veer.Administration
open Reconcile (ID Sha256)
open Identity (URLParser)
open Authorization (Action)
open Relation (ReflTransGen)
open StepMachine

/-! ## Moves -/

/-- What a call other than a successful `Issue` does to the ledger. -/
inductive Move : Ledger → Ledger → Prop
  | clock {before after : Ledger} (hgrants : after.grants = before.grants)
      (hproofs : after.proofs = before.proofs) (htime : before.highWater ≤ after.highWater) :
      Move before after
  | touch {ledger : Ledger} {id : ID} {old new : GrantRecord}
      (hold : ledger.grants.lookup id = some old) (hgrant : new.grant = old.grant)
      (hstate : old.state ≠ .active → new = old) : Move ledger (ledger.write id new)

/-- What is known of a grant when `Issue` commits it. -/
structure Fresh (ledger : Ledger) (grant : Grant) : Prop where
  proof : grant.proofID ∉ ledger.proofs
  id : grant.id ∉ ledger.grants
  room : ledger.grants.keys.length < maxTrackedElevations
  valid : validGrant grant = true
  time : grant.issuedAt ≤ ledger.highWater

/-- The invariant of the ledger. -/
structure Ledger.Sound (ledger : Ledger) : Prop where
  records : ∀ id record, ledger.grants.lookup id = some record →
    record.grant.id = id ∧ validGrant record.grant = true ∧
      record.grant.issuedAt ≤ ledger.highWater ∧ record.grant.proofID ∈ ledger.proofs
  distinct : ∀ id id' record record', ledger.grants.lookup id = some record →
    ledger.grants.lookup id' = some record' → record.grant.proofID = record'.grant.proofID → id = id'
  count : ledger.proofs.keys.length = ledger.grants.keys.length
  bound : ledger.grants.keys.length ≤ maxTrackedElevations

/-- Records stay, keep their grant, and do not change once they have left the active state. -/
def Evolves (before after : Ledger) : Prop :=
  ∀ id record, before.grants.lookup id = some record →
    ∃ later, after.grants.lookup id = some later ∧ later.grant = record.grant ∧
      (record.state ≠ .active → later = record)

def Records (ledger : Ledger) (grant : Grant) : Prop :=
  ∃ record, ledger.grants.lookup grant.id = some record ∧ record.grant = grant

theorem Evolves.refl (ledger : Ledger) : Evolves ledger ledger :=
  fun _ record h => ⟨record, h, rfl, fun _ => rfl⟩

theorem Evolves.trans {a b c : Ledger} (hab : Evolves a b) (hbc : Evolves b c) : Evolves a c := by
  intro id record h
  obtain ⟨middle, hmiddle, hgrant, hstate⟩ := hab id record h
  obtain ⟨later, hlater, hgrant', hstate'⟩ := hbc id middle hmiddle
  refine ⟨later, hlater, hgrant'.trans hgrant, fun hterminal => ?_⟩
  obtain rfl := hstate hterminal
  exact hstate' hterminal

theorem keys_insert_length {β : Type*} {entries : AList (fun _ : ID => β)} {id : ID} (value : β)
    (h : id ∈ entries) : (entries.insert id value).keys.length = entries.keys.length := by
  rw [AList.keys_insert, List.length_cons, List.length_erase_of_mem (AList.mem_keys.mp h)]
  have hpos := List.length_pos_of_mem (AList.mem_keys.mp h)
  omega

theorem keys_insert_length_fresh {β : Type*} {entries : AList (fun _ : ID => β)} {id : ID} (value : β)
    (h : id ∉ entries) : (entries.insert id value).keys.length = entries.keys.length + 1 := by
  rw [AList.keys_insert, List.length_cons,
    List.erase_of_not_mem fun hmem => h (AList.mem_keys.mpr hmem)]

theorem Ledger.write_lookup (ledger : Ledger) (id : ID) (new : GrantRecord) (key : ID) :
    (ledger.write id new).grants.lookup key =
      if key = id then some new else ledger.grants.lookup key := by
  split_ifs with h
  · rw [h]
    exact AList.lookup_insert _
  · exact AList.lookup_insert_ne h

theorem Ledger.commit_lookup (ledger : Ledger) (grant : Grant) (key : ID) :
    (ledger.commit grant).grants.lookup key =
      if key = grant.id then some ⟨grant, .active, 0⟩ else ledger.grants.lookup key :=
  ledger.write_lookup grant.id _ key

theorem Move.evolves {before after : Ledger} (h : Move before after) : Evolves before after := by
  intro key record hkey
  cases h with
  | clock hgrants => exact ⟨record, by rw [hgrants, hkey], rfl, fun _ => rfl⟩
  | @touch id old new hold hgrant hstate =>
    rw [Ledger.write_lookup]
    split_ifs with h
    · subst h
      obtain rfl : old = record := Option.some.inj (hold.symm.trans hkey)
      exact ⟨new, rfl, hgrant, hstate⟩
    · exact ⟨record, hkey, rfl, fun _ => rfl⟩

variable {record : GrantRecord}

theorem Move.origin {before after : Ledger} (h : Move before after) {key : ID}
    (hkey : after.grants.lookup key = some record) :
    ∃ old, before.grants.lookup key = some old ∧ record.grant = old.grant := by
  cases h with
  | clock hgrants => exact ⟨record, by rw [← hgrants, hkey], rfl⟩
  | @touch id old new hold hgrant =>
    rw [Ledger.write_lookup] at hkey
    split_ifs at hkey with h
    · subst h
      obtain rfl : new = record := Option.some.inj hkey
      exact ⟨old, hold, hgrant⟩
    · exact ⟨record, hkey, rfl⟩

theorem Move.frame {before after : Ledger} (h : Move before after) :
    after.proofs = before.proofs ∧ before.highWater ≤ after.highWater ∧
      after.grants.keys.length = before.grants.keys.length := by
  cases h with
  | clock hgrants hproofs htime => exact ⟨hproofs, htime, by rw [hgrants]⟩
  | @touch id old new hold =>
    have hmem : id ∈ before.grants := AList.lookup_isSome.mp (by rw [hold]; rfl)
    exact ⟨rfl, le_rfl, keys_insert_length new hmem⟩

theorem Move.sound {before after : Ledger} (h : Move before after) (hsound : before.Sound) :
    after.Sound := by
  obtain ⟨hproofs, htime, hlength⟩ := h.frame
  refine ⟨?_, ?_, by rw [hproofs, hlength, hsound.count], by rw [hlength]; exact hsound.bound⟩
  · intro id record hrecord
    obtain ⟨old, hold, hgrant⟩ := h.origin hrecord
    obtain ⟨hid, hvalid, hissued, hproof⟩ := hsound.records id old hold
    rw [hgrant, hproofs]
    exact ⟨hid, hvalid, hissued.trans htime, hproof⟩
  · intro id id' record record' hrecord hrecord' hsame
    obtain ⟨old, hold, hgrant⟩ := h.origin hrecord
    obtain ⟨old', hold', hgrant'⟩ := h.origin hrecord'
    rw [hgrant, hgrant'] at hsame
    exact hsound.distinct id id' old old' hold hold' hsame

variable {ledger : Ledger}
variable {grant : Grant}

theorem Fresh.evolves (h : Fresh ledger grant) : Evolves ledger (ledger.commit grant) := by
  intro key record hkey
  have hne : key ≠ grant.id := by
    rintro rfl
    exact h.id (AList.lookup_isSome.mp (by rw [hkey]; rfl))
  exact ⟨record, by rw [Ledger.commit_lookup, if_neg hne, hkey], rfl, fun _ => rfl⟩

theorem Fresh.sound (h : Fresh ledger grant) (hsound : ledger.Sound) : (ledger.commit grant).Sound := by
  have hproof : ∀ proofID, proofID ∈ (ledger.commit grant).proofs ↔
      proofID = grant.proofID ∨ proofID ∈ ledger.proofs := fun proofID => AList.mem_insert _
  -- a committed proof is new, so no older record carries it
  have hother : ∀ id record, ledger.grants.lookup id = some record →
      record.grant.proofID ≠ grant.proofID := by
    intro id record hrecord hsame
    exact h.proof (hsame ▸ (hsound.records id record hrecord).2.2.2)
  refine ⟨?_, ?_, ?_, ?_⟩
  · intro id record hrecord
    rw [Ledger.commit_lookup] at hrecord
    split_ifs at hrecord with hid
    · obtain rfl : _ = record := Option.some.inj hrecord
      exact ⟨hid.symm, h.valid, h.time, (hproof _).mpr (.inl rfl)⟩
    · obtain ⟨hkey, hvalid, hissued, hmem⟩ := hsound.records id record hrecord
      exact ⟨hkey, hvalid, hissued, (hproof _).mpr (.inr hmem)⟩
  · intro id id' record record' hrecord hrecord' hsame
    rw [Ledger.commit_lookup] at hrecord hrecord'
    split_ifs at hrecord hrecord' with hid hid' hid'
    · rw [hid, hid']
    · obtain rfl : _ = record := Option.some.inj hrecord
      exact absurd hsame.symm (hother id' record' hrecord')
    · obtain rfl : _ = record' := Option.some.inj hrecord'
      exact absurd hsame (hother id record hrecord)
    · exact hsound.distinct id id' record record' hrecord hrecord' hsame
  · have hproofs := keys_insert_length_fresh () h.proof
    have hgrants := keys_insert_length_fresh (⟨grant, .active, 0⟩ : GrantRecord) h.id
    exact hproofs.trans (hsound.count ▸ hgrants.symm)
  · have hgrants := keys_insert_length_fresh (⟨grant, .active, 0⟩ : GrantRecord) h.id
    exact hgrants.trans_le h.room

section Moves
variable {before after : Ledger} (h : ReflTransGen Move before after)
include h

theorem moves_sound (hsound : before.Sound) : after.Sound := by
  induction h with
  | refl => exact hsound
  | tail _ hmove ih => exact hmove.sound ih

theorem moves_evolves : Evolves before after := by
  induction h with
  | refl => exact Evolves.refl before
  | tail _ hmove ih => exact ih.trans hmove.evolves

theorem moves_records {grant : Grant} (hrecords : Records after grant) : Records before grant := by
  induction h with
  | refl => exact hrecords
  | tail _ hmove ih =>
    obtain ⟨record, hrecord, hgrant⟩ := hrecords
    obtain ⟨old, hold, hsame⟩ := hmove.origin hrecord
    exact ih ⟨old, hold, hsame.symm.trans hgrant⟩

end Moves

/-! ## The calls -/

theorem raise_frame (ledger : Ledger) {value : Int} (h : 0 ≤ value) :
    Move ledger (ledger.raise value) ∧ value ≤ (ledger.raise value).highWater := by
  unfold Ledger.raise
  split_ifs with hraise
  · refine ⟨.clock rfl rfl ?_, le_rfl⟩
    show ledger.highWater ≤ value
    omega
  · push Not at hraise
    exact ⟨.clock rfl rfl le_rfl, hraise.2⟩

theorem fence_frame (ledger : Ledger) (sequence : Nat) : Move ledger (ledger.fence sequence) := by
  unfold Ledger.fence
  split_ifs
  · exact .clock rfl rfl le_rfl
  · exact .clock rfl rfl le_rfl

theorem observeClock_ok {observed : Ledger} {value : Int} (hvalue : 0 ≤ value)
    (h : ledger.observeClock value = .ok observed) :
    Move ledger observed ∧ observed.grants = ledger.grants ∧
      (ledger.highWater ≠ 0 → ledger.highWater ≤ value) := by
  unfold Ledger.observeClock at h
  split_ifs at h with hback hraise
  · cases h
    refine ⟨.clock rfl rfl ?_, rfl, fun hne => by omega⟩
    show ledger.highWater ≤ value
    omega
  · cases h
    exact ⟨.clock rfl rfl le_rfl, rfl, fun hne => by omega⟩

/-- Whatever the sample says, the clock of the ledger moves forward only, and an accepted time is at
most its mark. -/
theorem observeIssuanceClockLocked_move (ledger : Ledger) (sample : IssuanceClockSample) :
    ReflTransGen Move ledger (ledger.observeIssuanceClockLocked sample).1 ∧
      ∀ now, (ledger.observeIssuanceClockLocked sample).2 = .ok now →
        now ≤ (ledger.observeIssuanceClockLocked sample).1.highWater := by
  fun_cases Ledger.observeIssuanceClockLocked ledger sample
  case case1 => exact ⟨.refl, fun now h => by cases h⟩
  case case2 | case3 => exact ⟨.single (fence_frame ledger _), fun now h => by cases h⟩
  case case4 hnormalized _ =>
    have hraise := raise_frame ledger (normalizeContractTime_ok hnormalized).2.1
    refine ⟨.single hraise.1, fun now h => ?_⟩
    rw [← Except.ok.inj h]
  case case5 => exact ⟨.single (.clock rfl rfl le_rfl), fun now h => by cases h⟩
  case case6 hnormalized _ fenced _ =>
    have hraise := raise_frame fenced (normalizeContractTime_ok hnormalized).2.1
    have hfenced : Move ledger fenced := .clock rfl rfl le_rfl
    refine ⟨.tail (.single hfenced) hraise.1, fun now h => ?_⟩
    rw [← Except.ok.inj h]
    exact hraise.2

variable {now : Int}

section
variable [Sha256] [URLParser]

theorem admit_fresh {ticket : Ticket} {grant : Grant} (hnow : now ≤ ledger.highWater)
    (h : ledger.admitTicket ticket now = .ok grant) : Fresh ledger grant := by
  revert h
  fun_cases Ledger.admitTicket ledger ticket now
  case case9 hproof hid hroom expiresAt hexpires issued hvalid =>
    intro h
    obtain rfl := Except.ok.inj h
    exact ⟨hproof, hid, by omega, by simpa using hvalid, hnow⟩
  all_goals
    intro h
    cases h

theorem issueLocked_cases (ledger : Ledger) (ticket : Ticket) (observed : Int)
    (contextLocked contextCommit : Option Sentinel) :
    ∃ clocked, ReflTransGen Move ledger clocked ∧
      ((ledger.issueLocked ticket observed contextLocked contextCommit).1 = clocked ∨
        ∃ grant, Fresh clocked grant ∧
          ledger.issueLocked ticket observed contextLocked contextCommit =
            (clocked.commit grant, .ok grant)) := by
  obtain ⟨hmoves, htime⟩ := observeIssuanceClockLocked_move ledger
    ⟨ticket.sequence, observed, ticket.sequence == 0⟩
  refine ⟨_, hmoves, ?_⟩
  unfold Ledger.issueLocked
  generalize ledger.observeIssuanceClockLocked _ = clocked at htime
  obtain ⟨fenced, clock⟩ := clocked
  cases contextLocked with
  | some => exact .inl rfl
  | none =>
    cases clock with
    | error => exact .inl rfl
    | ok now =>
      have hnow : now ≤ fenced.highWater := htime now rfl
      simp only
      cases hadm : fenced.admitTicket ticket now with
      | error => exact .inl rfl
      | ok grant =>
        cases contextCommit with
        | some => exact .inl rfl
        | none => exact .inr ⟨grant, admit_fresh hnow hadm, rfl⟩

end

theorem expireAt_grant (record : GrantRecord) (now : Int) :
    (record.expireAt now).grant = record.grant := by
  unfold GrantRecord.expireAt
  split_ifs <;> rfl

theorem expireAt_terminal (record : GrantRecord) (now : Int) (h : record.state ≠ .active) :
    record.expireAt now = record :=
  if_neg fun hactive => h hactive.1

theorem expireAt_active (h : (record.expireAt now).state = .active) :
    record.expireAt now = record ∧ record.state = .active ∧ now < record.grant.expiresAt := by
  unfold GrantRecord.expireAt at h ⊢
  split_ifs at h ⊢ with hexpire
  exact ⟨rfl, h, by_contra fun hlate => hexpire ⟨h, by omega⟩⟩

theorem lookupGrant_ok (h : ledger.lookupGrant grant = .ok record) :
    ledger.grants.lookup grant.id = some record ∧ record.grant = grant := by
  unfold Ledger.lookupGrant at h
  split at h
  · cases h
  rename_i found hfound
  split_ifs at h with hequal
  cases h
  simp only [Bool.not_eq_true', Bool.not_eq_false] at hequal
  exact ⟨hfound, (equalGrant_iff.mp hequal).2⟩

theorem settle_moves (ledger : Ledger) (now : Int) (grant : Grant) :
    ReflTransGen Move ledger (ledger.settle now grant).1 := by
  fun_cases Ledger.settle ledger now grant
  case case4 hnormalized observed hobserved failure hlookup =>
    exact .single (observeClock_ok (normalizeContractTime_ok hnormalized).2.1 hobserved).1
  case case5 normalized hnormalized observed hobserved record hlookup =>
    have hclock := (observeClock_ok (normalizeContractTime_ok hnormalized).2.1 hobserved).1
    have htouch : Move observed (observed.write grant.id (record.expireAt normalized)) :=
      .touch (lookupGrant_ok hlookup).1 (expireAt_grant record normalized)
        (expireAt_terminal record normalized)
    exact .tail (.single hclock) htouch
  all_goals exact .refl

/-- What a call has found when it goes on with a record. -/
structure Settled (ledger settled : Ledger) (now : Int) (grant : Grant) (record : GrantRecord)
    (time : Int) : Prop where
  normalized : normalizeContractTime now = .ok time
  valid : validGrant grant = true
  clock : ledger.highWater ≠ 0 → ledger.highWater ≤ time
  found : ∃ old, ledger.grants.lookup grant.id = some old ∧ old.grant = grant ∧
    record = old.expireAt time
  stored : settled.grants.lookup grant.id = some record

variable {time : Int}
variable {settled : Ledger}

theorem settle_ok (h : ledger.settle now grant = (settled, .ok (record, time))) :
    Settled ledger settled now grant record time := by
  revert h
  fun_cases Ledger.settle ledger now grant
  case case5 hvalid normalized hnormalized observed hobserved found hlookup =>
    intro h
    obtain ⟨rfl, hok⟩ := Prod.mk.inj h
    cases hok
    obtain ⟨-, hgrants, hclock⟩ :=
      observeClock_ok (normalizeContractTime_ok hnormalized).2.1 hobserved
    obtain ⟨hfound, hgrant⟩ := lookupGrant_ok hlookup
    refine ⟨hnormalized, by simpa using hvalid, hclock, ⟨found, hgrants ▸ hfound, hgrant, rfl⟩, ?_⟩
    rw [Ledger.write_lookup, if_pos rfl]
  all_goals
    intro h
    cases h

theorem terminalGrantError_ok {state : GrantState} (h : terminalGrantError state = .ok ()) :
    state = .active := by
  cases state with
  | active => rfl
  | consumed | revoked | expired => cases h

theorem Settled.active (h : Settled ledger settled now grant record time) (hsound : ledger.Sound)
    (hactive : record.state = .active) :
    ledger.grants.lookup grant.id = some record ∧ record.grant = grant ∧ 0 < grant.issuedAt ∧
      grant.issuedAt ≤ time ∧ time < grant.expiresAt := by
  obtain ⟨old, hold, hgrant, rfl⟩ := h.found
  obtain ⟨hsame, -, hexpires⟩ := expireAt_active hactive
  obtain ⟨-, -, hissued, -⟩ := hsound.records _ old hold
  have hvalid := h.valid
  simp only [validGrant, Bool.and_eq_true] at hvalid
  have hpositive : 0 < grant.issuedAt := (canonicalContractTime_iff.mp hvalid.1.1.1.1.2).1
  rw [hgrant] at hissued hexpires
  have hclock := h.clock (by omega)
  rw [hsame]
  exact ⟨hold, hgrant, hpositive, by omega, hexpires⟩

theorem Settled.receipt (h : Settled ledger settled now grant record time) (hsound : ledger.Sound)
    (hactive : record.state = .active) : validReceipt true record.grant time = true := by
  obtain ⟨-, hgrant, hpositive, hissued, hexpires⟩ := h.active hsound hactive
  have hcanonical := normalizeContractTime_canonical h.normalized (by omega)
  rw [hgrant]
  simp [validReceipt, h.valid, hcanonical, hissued, hexpires]

theorem stateAt_moves (ledger : Ledger) (now : Int) (grant : Grant) :
    ReflTransGen Move ledger (ledger.stateAt now grant).1 := by
  have hmoves := settle_moves ledger now grant
  unfold Ledger.stateAt
  split
  all_goals
    rename_i hsettle
    rw [hsettle] at hmoves
    exact hmoves

theorem settle_grant (h : ledger.settle now grant = (settled, .ok (record, time))) :
    record.grant = grant := by
  obtain ⟨old, -, hgrant, rfl⟩ := (settle_ok h).found
  rw [expireAt_grant, hgrant]

/-- What `Consume` and `Revoke` have done when they answer with a receipt for a grant at a time. -/
structure Spends (ledger after : Ledger) (now : Int) (grant : Grant) (time : Int) : Prop where
  settled : ∃ settled record, Settled ledger settled now grant record time ∧ record.state = .active
  closed : ∃ record, after.grants.lookup grant.id = some record ∧ record.state ≠ .active

theorem settle_close (new : GrantRecord)
    (h : ledger.settle now grant = (settled, .ok (record, time))) (hactive : record.state = .active)
    (hnew : new.grant = record.grant) (hclosed : new.state ≠ .active) :
    ReflTransGen Move ledger (settled.write grant.id new) ∧
      Spends ledger (settled.write grant.id new) now grant time := by
  have hsettled := settle_ok h
  have hmoves := settle_moves ledger now grant
  rw [h] at hmoves
  have htouch : Move settled (settled.write grant.id new) :=
    .touch hsettled.stored hnew fun hne => absurd hactive hne
  refine ⟨.tail hmoves htouch, ⟨settled, record, hsettled, hactive⟩, new, ?_, hclosed⟩
  rw [Ledger.write_lookup, if_pos rfl]

theorem consume_cases (ledger : Ledger) (now : Int) (grant : Grant) (action : Action)
    (target : Target) :
    ReflTransGen Move ledger (ledger.consume now grant action target).1 ∧
      ∀ receipt, (ledger.consume now grant action target).2 = .ok receipt →
        ∃ time, receipt = ⟨true, grant, time⟩ ∧ grant.action = action ∧ grant.target = target ∧
          Spends ledger (ledger.consume now grant action target).1 now grant time := by
  have hmoves := settle_moves ledger now grant
  fun_cases Ledger.consume ledger now grant action target
  case case1 hsettle | case2 hsettle _ _ | case3 hsettle _ _ | case4 hsettle _ _ _ _ =>
      exact ⟨by simpa [hsettle] using hmoves, fun _ h => by cases h⟩
  case case5 record time hsettle hterminal hscope receipt hvalid =>
    have hgrant := settle_grant hsettle
    have hclose := settle_close ⟨record.grant, .consumed, time⟩ hsettle
      (terminalGrantError_ok hterminal) rfl (by simp)
    refine ⟨hclose.1, fun answered hanswered => ⟨time, ?_⟩⟩
    simp only [not_or, not_not, Bool.not_eq_true', Bool.not_eq_false] at hscope
    obtain ⟨haction, htarget⟩ := hscope
    rw [hgrant] at haction htarget
    refine ⟨?_, haction, equalTarget_eq htarget, hclose.2⟩
    rw [← Except.ok.inj hanswered, ← hgrant]

theorem revoke_cases (ledger : Ledger) (now : Int) (grant : Grant) :
    ReflTransGen Move ledger (ledger.revoke now grant).1 ∧
      ∀ receipt, (ledger.revoke now grant).2 = .ok receipt →
        ∃ time, receipt = ⟨true, grant, time⟩ ∧
          Spends ledger (ledger.revoke now grant).1 now grant time := by
  have hmoves := settle_moves ledger now grant
  fun_cases Ledger.revoke ledger now grant
  case case1 hsettle | case2 hsettle _ _ | case3 hsettle _ _ _ =>
      exact ⟨by simpa [hsettle] using hmoves, fun _ h => by cases h⟩
  case case4 record time hsettle hterminal receipt hvalid =>
    have hclose := settle_close ⟨record.grant, .revoked, time⟩ hsettle
      (terminalGrantError_ok hterminal) rfl (by simp)
    refine ⟨hclose.1, fun answered hanswered => ⟨time, ?_, hclose.2⟩⟩
    rw [← Except.ok.inj hanswered, ← settle_grant hsettle]

/-! ## Runs -/

/-- The grant a successful `Consume` or `Revoke` spends. -/
def Output.spent : Output → Option Grant
  | .consumed (.ok receipt) => some receipt.grant
  | .revoked (.ok receipt) => some receipt.grant
  | _ => none

section
variable [Sha256] [URLParser]

/-- Every step is a sequence of moves, and a step that issues a grant commits it after them. -/
theorem step_cases (system : System) (input : Input) :
    ∃ moved, ReflTransGen Move system.ledger moved ∧
      ((system.step input).1.ledger = moved ∨
        ∃ grant, Fresh moved grant ∧ (system.step input).1.ledger = moved.commit grant ∧
          (system.step input).2 = .issued (.ok grant)) := by
  cases input with
  | start call =>
    refine ⟨_, ?_, .inl rfl⟩
    simp only [System.step]
    fun_cases System.start system call
    case case1 => exact .refl
    case case2 hsample =>
      unfold Ledger.sampleIssuanceClock at hsample
      split_ifs at hsample
      all_goals
        obtain ⟨rfl, -⟩ := Prod.mk.inj hsample
        exact .single (.clock rfl rfl le_rfl)
  | finish index observed contextLocked contextCommit =>
    simp only [System.step]
    fun_cases System.finish system index observed contextLocked contextCommit
    case case1 ticket _ ledger result hresult =>
      obtain ⟨clocked, hmoves, hcases⟩ :=
        issueLocked_cases system.ledger ticket observed contextLocked contextCommit
      rw [hresult] at hcases
      refine ⟨clocked, hmoves, ?_⟩
      rcases hcases with hsame | ⟨grant, hfresh, hcommit⟩
      · exact .inl hsame
      · cases hcommit
        exact .inr ⟨grant, hfresh, rfl, rfl⟩
    case case2 => exact ⟨_, .refl, .inl rfl⟩
  | stateAt now grant => exact ⟨_, stateAt_moves system.ledger now grant, .inl rfl⟩
  | consume now grant action target =>
    exact ⟨_, (consume_cases system.ledger now grant action target).1, .inl rfl⟩
  | revoke now grant => exact ⟨_, (revoke_cases system.ledger now grant).1, .inl rfl⟩

theorem step_sound (system : System) (input : Input) (h : system.ledger.Sound) :
    (machine.next system input).ledger.Sound := by
  obtain ⟨moved, hmoves, hsame | ⟨grant, hfresh, hcommit, -⟩⟩ := step_cases system input
  · exact hsame ▸ moves_sound hmoves h
  · exact hcommit ▸ hfresh.sound (moves_sound hmoves h)

theorem step_evolves (system : System) (input : Input) :
    Evolves system.ledger (machine.next system input).ledger := by
  obtain ⟨moved, hmoves, hsame | ⟨grant, hfresh, hcommit, -⟩⟩ := step_cases system input
  · exact hsame ▸ moves_evolves hmoves
  · exact hcommit ▸ (moves_evolves hmoves).trans hfresh.evolves

variable {system : System}

theorem step_records {input : Input} {grant : Grant} (hbefore : ¬ Records system.ledger grant)
    (hafter : Records (machine.next system input).ledger grant) :
    (machine.entry system input).output = .issued (.ok grant) := by
  obtain ⟨moved, hmoves, hsame | ⟨issued, hfresh, hcommit, houtput⟩⟩ := step_cases system input
  · exact absurd (moves_records hmoves (hsame ▸ hafter)) hbefore
  obtain ⟨record, hrecord, hgrant⟩ := hafter
  have hcommit : (machine.next system input).ledger = moved.commit issued := hcommit
  rw [hcommit, Ledger.commit_lookup] at hrecord
  split_ifs at hrecord with hid
  · cases hrecord
    exact hgrant ▸ houtput
  · exact absurd (moves_records hmoves ⟨record, hrecord, hgrant⟩) hbefore

theorem step_spent {input : Input} {grant : Grant}
    (h : (machine.entry system input).output.spent = some grant) :
    ∃ now time, Spends system.ledger (machine.next system input).ledger now grant time := by
  cases input with
  | start call =>
    simp only [Machine.entry, machine, System.step] at h
    revert h
    fun_cases System.start system call
    all_goals
      intro h
      cases h
  | finish index observed contextLocked contextCommit =>
    simp only [Machine.entry, machine, System.step] at h
    revert h
    fun_cases System.finish system index observed contextLocked contextCommit
    all_goals
      intro h
      cases h
  | stateAt => cases h
  | consume now asked action target =>
    have hcases := (consume_cases system.ledger now asked action target).2
    simp only [Machine.entry, machine, System.step] at h
    cases hresult : (system.ledger.consume now asked action target).2 with
    | error => simp [hresult, Output.spent] at h
    | ok receipt =>
      obtain ⟨time, rfl, -, -, hspends⟩ := hcases receipt hresult
      simp only [hresult, Output.spent, Option.some.injEq] at h
      exact h ▸ ⟨now, time, hspends⟩
  | revoke now asked =>
    have hcases := (revoke_cases system.ledger now asked).2
    simp only [Machine.entry, machine, System.step] at h
    cases hresult : (system.ledger.revoke now asked).2 with
    | error => simp [hresult, Output.spent] at h
    | ok receipt =>
      obtain ⟨time, rfl, hspends⟩ := hcases receipt hresult
      simp only [hresult, Output.spent, Option.some.injEq] at h
      exact h ▸ ⟨now, time, hspends⟩

theorem run_sound (h : system.ledger.Sound) (inputs : List Input) :
    (machine.exec system inputs).ledger.Sound :=
  exec_invariant machine (P := fun s => s.ledger.Sound) step_sound h inputs

theorem run_evolves (system : System) (inputs : List Input) :
    Evolves system.ledger (machine.exec system inputs).ledger :=
  exec_relation machine (P := fun _ => True) (R := fun a b => Evolves a.ledger b.ledger)
    (fun s => Evolves.refl s.ledger) (fun _ _ _ => Evolves.trans) (fun _ _ _ => trivial)
    (fun s i _ => step_evolves s i) trivial inputs

theorem newLedger_empty {administrators : List Administrator}
    (h : newLedger administrators = .ok ledger) : ledger.grants = ∅ ∧ ledger.proofs = ∅ := by
  unfold newLedger at h
  split_ifs at h
  split at h
  · cases h
  · cases h
    exact ⟨rfl, rfl⟩

theorem newLedger_sound {administrators : List Administrator}
    (h : newLedger administrators = .ok ledger) : ledger.Sound := by
  obtain ⟨hgrants, hproofs⟩ := newLedger_empty h
  have hnone : ∀ id, ledger.grants.lookup id = none := fun id => by rw [hgrants]; rfl
  refine ⟨fun id record hrecord => ?_, fun id _ record _ hrecord => ?_, ?_, ?_⟩
  · rw [hnone] at hrecord
    cases hrecord
  · rw [hnone] at hrecord
    cases hrecord
  · rw [hgrants, hproofs]
    rfl
  · rw [hgrants]
    exact Nat.zero_le _

/-- No two steps of a run spend a grant of one name. -/
theorem run_spent_once {inputs : List Input} {m n : Nat} {first second : Entry System Input Output}
    {grant other : Grant} (hmn : m < n) (hsound : system.ledger.Sound)
    (hfirst : (machine.trace system inputs)[m]? = some first)
    (hsecond : (machine.trace system inputs)[n]? = some second)
    (hspent : first.output.spent = some grant) (hother : second.output.spent = some other)
    (hid : grant.id = other.id) : False := by
  obtain ⟨-, hentry, -⟩ := trace_next machine hfirst
  obtain ⟨-, hentry', -⟩ := trace_next machine hsecond
  obtain ⟨middle, hmiddle, -⟩ := trace_between machine hmn hfirst hsecond
  rw [hentry] at hspent
  rw [hentry'] at hother
  obtain ⟨now, time, hspends⟩ := step_spent hspent
  obtain ⟨now', time', hspends'⟩ := step_spent hother
  obtain ⟨record, hrecord, hclosed⟩ := hspends.closed
  obtain ⟨settled, found, hsettled, hactive⟩ := hspends'.settled
  have hsound' : second.before.ledger.Sound := by
    rw [trace_before machine hsecond]
    exact run_sound hsound _
  obtain ⟨hfound, -⟩ := hsettled.active hsound' hactive
  have hafter : first.after = machine.next first.before first.input := congrArg Entry.after hentry
  rw [← hafter] at hrecord
  obtain ⟨later, hlater, -, hstay⟩ := run_evolves first.after middle _ record hrecord
  obtain rfl := hstay hclosed
  rw [← hmiddle, hid, hfound] at hlater
  exact hclosed (Option.some.inj hlater ▸ hactive)

/-- What holds of the ledger along a run. -/
structure SpentOnce (ledger : Ledger) (inputs : List Input) : Prop where
  /-- A record keeps its grant and, once it has left the active state, its state and terminal time. -/
  terminal : ∀ (m n : Nat) (id : ID) (record : GrantRecord), m ≤ n →
    (machine.exec ⟨ledger, []⟩ (inputs.take m)).ledger.grants.lookup id = some record →
      ∃ later, (machine.exec ⟨ledger, []⟩ (inputs.take n)).ledger.grants.lookup id = some later ∧
        later.grant = record.grant ∧ (record.state ≠ .active → later = record)
  /-- At most one `Consume` or `Revoke` of a grant succeeds. -/
  once : ∀ (m n : Nat) (first second : Entry System Input Output) (grant other : Grant),
    (machine.trace ⟨ledger, []⟩ inputs)[m]? = some first →
    (machine.trace ⟨ledger, []⟩ inputs)[n]? = some second →
    first.output.spent = some grant → second.output.spent = some other →
      grant.id = other.id → m = n
  /-- A grant is consumed as it was issued, for its own action and target and inside its time. -/
  consumed : ∀ (n : Nat) (entry : Entry System Input Output) (now : Int) (grant : Grant)
    (action : Action) (target : Target) (receipt : ConsumptionReceipt),
    (machine.trace ⟨ledger, []⟩ inputs)[n]? = some entry →
    entry.input = .consume now grant action target → entry.output = .consumed (.ok receipt) →
      ∃ time, normalizeContractTime now = .ok time ∧ receipt = ⟨true, grant, time⟩ ∧
        grant.action = action ∧ grant.target = target ∧
        grant.issuedAt ≤ time ∧ time < grant.expiresAt ∧
        ∃ (k : Nat) (issue : Entry System Input Output), k < n ∧
          (machine.trace ⟨ledger, []⟩ inputs)[k]? = some issue ∧ issue.output = .issued (.ok grant)
  /-- One proof tombstone for each grant, in bounded number. -/
  proofs : ∀ n : Nat, let reached := (machine.exec ⟨ledger, []⟩ (inputs.take n)).ledger
    reached.proofs.keys.length = reached.grants.keys.length ∧
      reached.grants.keys.length ≤ maxTrackedElevations ∧
      ∀ id id' record record', reached.grants.lookup id = some record →
        reached.grants.lookup id' = some record' →
        record.grant.proofID = record'.grant.proofID → id = id'
  /-- A call that comes as far as its receipt finds it valid. -/
  receipts : ∀ (n : Nat) (now : Int) (grant : Grant) (settled : Ledger) (record : GrantRecord)
    (time : Int),
    (machine.exec ⟨ledger, []⟩ (inputs.take n)).ledger.settle now grant =
        (settled, .ok (record, time)) →
      terminalGrantError record.state = .ok () →
      validConsumptionReceipt ⟨true, record.grant, time⟩ = true ∧
        validRevocationReceipt ⟨true, record.grant, time⟩ = true

theorem run_issued (hempty : ledger.grants = ∅) {inputs : List Input} {n : Nat} {grant : Grant}
    (h : Records (machine.exec ⟨ledger, []⟩ (inputs.take n)).ledger grant) :
    ∃ (k : Nat) (issue : Entry System Input Output), k < n ∧
      (machine.trace ⟨ledger, []⟩ inputs)[k]? = some issue ∧ issue.output = .issued (.ok grant) := by
  have hstart : ¬ Records (machine.exec ⟨ledger, []⟩ (inputs.take 0)).ledger grant := by
    rintro ⟨record, hrecord, -⟩
    have hnone : ledger.grants.lookup grant.id = none := by
      rw [hempty]
      rfl
    cases hnone.symm.trans hrecord
  obtain ⟨k, issue, -, hk, hissue, hbefore, hafter⟩ :=
    stretch_change machine (P := fun s => Records s.ledger grant) (Nat.zero_le n) hstart h
  have hentry := (trace_next machine hissue).2.1
  rw [hentry] at hafter
  refine ⟨k, issue, hk, hissue, ?_⟩
  rw [hentry]
  exact step_records hbefore hafter

/-- In every interleaving of calls on a ledger every grant is spent at most once. -/
theorem elevation_spent_once {administrators : List Administrator} {ledger : Ledger}
    (hnew : newLedger administrators = .ok ledger) (inputs : List Input) :
    SpentOnce ledger inputs := by
  have hsound : ∀ n, (machine.exec ⟨ledger, []⟩ (inputs.take n)).ledger.Sound := fun n =>
    run_sound (newLedger_sound hnew) _
  constructor
  case terminal =>
    intro m n id record hmn hrecord
    have hsplit : inputs.take n = inputs.take m ++ (inputs.take n).drop m := by
      have h := List.take_append_drop m (inputs.take n)
      rw [List.take_take, Nat.min_eq_left hmn] at h
      exact h.symm
    rw [hsplit, exec_append]
    exact run_evolves _ _ id record hrecord
  case once =>
    intro m n first second grant other hfirst hsecond hspent hother hid
    rcases Nat.lt_trichotomy m n with hlt | heq | hgt
    · exact (run_spent_once hlt (newLedger_sound hnew) hfirst hsecond hspent hother hid).elim
    · exact heq
    · exact (run_spent_once hgt (newLedger_sound hnew) hsecond hfirst hother hspent hid.symm).elim
  case consumed =>
    intro n entry now grant action target receipt hentry hinput houtput
    obtain ⟨-, hstep, -⟩ := trace_next machine hentry
    have hbefore := trace_before machine hentry
    rw [hstep, hinput] at houtput
    have hresult : (entry.before.ledger.consume now grant action target).2 = .ok receipt :=
      Output.consumed.inj houtput
    obtain ⟨time, hreceipt, haction, htarget, hspends⟩ :=
      (consume_cases entry.before.ledger now grant action target).2 receipt hresult
    obtain ⟨settled, record, hsettled, hactive⟩ := hspends.settled
    rw [hbefore] at hsettled
    obtain ⟨hfound, hgrant, -, hissued, hexpires⟩ := hsettled.active (hsound n) hactive
    exact ⟨time, hsettled.normalized, hreceipt, haction, htarget, hissued, hexpires,
      run_issued (newLedger_empty hnew).1 ⟨record, hfound, hgrant⟩⟩
  case proofs => exact fun n => ⟨(hsound n).count, (hsound n).bound, (hsound n).distinct⟩
  case receipts =>
    intro n now grant settled record time hsettle hterminal
    have hreceipt := (settle_ok hsettle).receipt (hsound n) (terminalGrantError_ok hterminal)
    exact ⟨hreceipt, hreceipt⟩

end

/-! A ledger with one administrator, who issues a grant and consumes it. -/

attribute [local instance] Reconcile.plainSha256 Identity.plainURLParser

def sampleAdministrator : Administrator :=
  ⟨true, "adm_0000000000000001", .human, Identity.sampleIssuer, "owner",
    Identity.deriveFingerprint Identity.sampleIssuer "owner"⟩

def sampleElevation : ElevationRequest :=
  { initialized := true
    grantID := "elv_0000000000000001"
    administrator := sampleAdministrator
    principal := ⟨.human, sampleAdministrator.logicalIdentity, ["veer"], [], none⟩
    action := .auditExport
    target := resolvePlatformAuditExportTarget
    reason := "audit"
    caseReference := ""
    requestedAt := timestampResolution
    duration := 5 * timestampResolution }

def sampleGrant : Grant :=
  { initialized := true
    id := sampleElevation.grantID
    administratorID := sampleAdministrator.id
    proofID := "prf_0000000000000001"
    action := .auditExport
    target := resolvePlatformAuditExportTarget
    reason := "audit"
    caseReference := ""
    issuedAt := 2 * timestampResolution
    expiresAt := 7 * timestampResolution }

def sampleCalls : List Input :=
  [.start ⟨true, sampleElevation, .proof "prf_0000000000000001" timestampResolution, none, none⟩,
    .finish 0 (2 * timestampResolution) none none,
    .consume (3 * timestampResolution) sampleGrant .auditExport resolvePlatformAuditExportTarget,
    .revoke (4 * timestampResolution) sampleGrant]

def sampleLedger : Ledger :=
  ⟨0, 0, (∅ : AList _).insert sampleAdministrator.id sampleAdministrator, ∅, ∅, 0⟩

theorem newLedger_sample : newLedger [sampleAdministrator] = .ok sampleLedger := by
  have hindex : indexAdministrator (∅, ∅) sampleAdministrator = .ok (sampleLedger.administrators,
      (∅ : AList _).insert (administratorKey sampleAdministrator) sampleAdministrator.id) := by
    have hvalid : (validateAdministrator sampleAdministrator).isOk = true := by decide +kernel
    simp [indexAdministrator, hvalid, sampleLedger]
  simp only [newLedger, List.foldlM_cons, List.foldlM_nil, hindex]
  rfl

theorem elevation_spent_once_consumed :
    ∃ ledger, newLedger [sampleAdministrator] = .ok ledger ∧
      (machine.trace ⟨ledger, []⟩ sampleCalls).map (fun entry => entry.output.spent) =
        [none, none, some sampleGrant, none] ∧
      SpentOnce ledger sampleCalls := by
  refine ⟨sampleLedger, newLedger_sample, ?_, ?_⟩
  · decide +kernel
  · exact elevation_spent_once newLedger_sample sampleCalls

end Veer.Administration
