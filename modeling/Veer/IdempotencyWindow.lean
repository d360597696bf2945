import Veer.StepMachine
import Veer.ListHeap
import Veer.ReconcileIdempotency

/-!
# Idempotency windows of one key

A decision takes the ledger lock, asks the registry about one row after the other, and writes;
calls join and leave the registry in between. A row leaves the ledger only when its window has
passed the deciding call's sample and the registry knew of no other call inside it. The high-water
then closes the window for every call whose clock is checked, and a call whose clock is not checked
has registered after the registry was asked.
-/
namespace Veer.Reconcile

open StepMachine ListHeap

/-! ## What one decision does to the ledger -/

theorem lookup_reclaim (ledger : IdempotencyLedger) (now : Int) (earlier : String → Bool)
    (key : String) :
    (ledger.reclaimExpiredCompletedLocked now earlier).records.lookup key =
      (ledger.records.lookup key).filter fun row =>
        !(row.completed && decide (row.expiresAt ≤ now) && !earlier key) :=
  lookup_drop_filter ledger.records (fun entry =>
    entry.2.completed && decide (entry.2.expiresAt ≤ now) && !earlier entry.1) key

variable {ledger : IdempotencyLedger} {call : IdempotencyCall} {earlier : String → Bool}

/-- What a decision of `call` may change. A row may go when its window has passed and the registry
has answered that no other call is inside it. -/
structure Decides (before after : IdempotencyLedger) (call : IdempotencyCall)
    (earlier : String → Bool) : Prop where
  active : after.active = before.active
  nextCall : after.nextCall = before.nextCall
  highWater : before.highWater ≤ after.highWater
  rows : ∀ key row, before.records.lookup key = some row →
    after.records.lookup key = some row ∨ row.completed = true ∧
      row.expiresAt ≤ call.observedAt ∧ earlier key = false ∧ call.observedAt ≤ after.highWater
  keyed : (∀ key row, before.records.lookup key = some row → row.scopedKey = key) →
    ∀ key row, after.records.lookup key = some row → row.scopedKey = key

theorem raiseHighWater_spec (ledger : IdempotencyLedger) (now : Int) :
    (ledger.raiseHighWater now).records = ledger.records ∧
      (ledger.raiseHighWater now).active = ledger.active ∧
      ((ledger.raiseHighWater now).nextCall = ledger.nextCall ∧
        (ledger.raiseHighWater now).lastCall = ledger.lastCall) ∧
      ledger.highWater ≤ (ledger.raiseHighWater now).highWater ∧
      now ≤ (ledger.raiseHighWater now).highWater := by
  unfold IdempotencyLedger.raiseHighWater
  split_ifs with hlt
  · exact ⟨rfl, rfl, ⟨rfl, rfl⟩, hlt.le, le_refl now⟩
  · exact ⟨rfl, rfl, ⟨rfl, rfl⟩, le_refl _, not_lt.mp hlt⟩

/-- Observing the clock changes no row; when it accepts, the high-water covers the sample. -/
theorem observe_spec {observed : IdempotencyLedger} {result : Except Failure Unit}
    (h : ledger.observeIdempotencyTimeLocked call = (observed, result)) :
    observed.records = ledger.records ∧ observed.active = ledger.active ∧
      (observed.nextCall = ledger.nextCall ∧
        observed.lastCall = max ledger.lastCall call.sequence) ∧
      ledger.highWater ≤ observed.highWater ∧
      (result = .ok () → call.observedAt ≤ observed.highWater) := by
  revert h
  fun_cases IdempotencyLedger.observeIdempotencyTimeLocked ledger call
  case case1 hold =>
    rintro ⟨⟩
    obtain ⟨hr, ha, ⟨hn, hl⟩, hle, hnow⟩ := raiseHighWater_spec ledger call.observedAt
    exact ⟨hr, ha, ⟨hn, hl.trans (max_eq_left hold).symm⟩, hle, fun _ => hnow⟩
  case case2 hnew numbered _ =>
    rw [Prod.mk.injEq]
    rintro ⟨rfl, rfl⟩
    exact ⟨rfl, rfl, ⟨rfl, (max_eq_right (not_le.mp hnew).le).symm⟩, le_refl _, by simp⟩
  case case3 hnew numbered _ =>
    rintro ⟨⟩
    obtain ⟨hr, ha, ⟨hn, hl⟩, hle, hnow⟩ := raiseHighWater_spec numbered call.observedAt
    exact ⟨hr, ha, ⟨hn, hl.trans (max_eq_right (not_le.mp hnew).le).symm⟩, hle, fun _ => hnow⟩

variable {fingerprint : RequestFingerprint} {scope : IdempotencyScope}

theorem newReservation_ok {keyDigest : DigestValue} {epoch : Nat} {now : Int} {created : Reservation}
    (h : newReservation scope keyDigest fingerprint epoch now = .ok created) :
    created.scope = scope ∧ created.keyDigest = keyDigest ∧ created.completed = false := by
  unfold newReservation at h
  split at h
  · simp at h
  · rw [← Except.ok.inj h]
    exact ⟨rfl, rfl, rfl⟩

variable {request : RegisteredCall}

theorem Decides.create {before reclaimed : IdempotencyLedger}
    (h : Decides before reclaimed request.call earlier) (epoch : Option Nat)
    (hrow : ∀ row, before.records.lookup request.mapKey = some row → row.completed = true ∧
      row.expiresAt ≤ request.call.observedAt ∧ earlier request.mapKey = false)
    (hnow : request.call.observedAt ≤ reclaimed.highWater) :
    Decides before (reclaimed.createReservation request epoch).1 request.call earlier := by
  fun_cases IdempotencyLedger.createReservation reclaimed request epoch
  case case1 | case2 => exact h
  case case3 hcreated =>
    obtain ⟨hscope, hkeyDigest, -⟩ := newReservation_ok hcreated
    refine ⟨h.active, h.nextCall, h.highWater, ?_, ?_⟩
    · intro key row hlookup
      by_cases hkey : key = request.mapKey
      · subst hkey
        obtain ⟨hdone, hexpired, hclear⟩ := hrow row hlookup
        exact .inr ⟨hdone, hexpired, hclear, hnow⟩
      · simp only [AList.lookup_insert_ne hkey]
        exact h.rows key row hlookup
    · intro hkeyed key row hlookup
      rcases lookup_insert_eq_some.mp hlookup with ⟨rfl, rfl⟩ | ⟨-, hlookup⟩
      · rw [Reservation.scopedKey, hscope, hkeyDigest]
        rfl
      · exact h.keyed hkeyed key row hlookup

theorem Decides.reclaim {before observed : IdempotencyLedger}
    (h : Decides before observed call earlier) (hrecords : observed.records = before.records)
    (hnow : call.observedAt ≤ observed.highWater) :
    Decides before (observed.reclaimExpiredCompletedLocked call.observedAt earlier) call earlier := by
  refine ⟨h.active, h.nextCall, h.highWater, ?_, ?_⟩
  · intro key row hlookup
    rw [lookup_reclaim, hrecords, hlookup, Option.filter_some]
    by_cases hdrop : (row.completed && decide (row.expiresAt ≤ call.observedAt) &&
        !earlier key) = true
    · simp only [Bool.and_eq_true, decide_eq_true_eq, Bool.not_eq_true'] at hdrop
      exact .inr ⟨hdrop.1.1, hdrop.1.2, hdrop.2, hnow⟩
    · exact .inl (by simp [hdrop])
  · intro hkeyed key row hlookup
    rw [lookup_reclaim, hrecords] at hlookup
    exact hkeyed key row (Option.eq_some_of_filter_eq_some hlookup)

theorem reserveWith_decides (ledger : IdempotencyLedger) (request : RegisteredCall)
    (earlier : String → Bool) :
    Decides ledger (ledger.reserveWith request earlier).1 request.call earlier := by
  have hobserve : ∀ observed result,
      ledger.observeIdempotencyTimeLocked request.call = (observed, result) →
      Decides ledger observed request.call earlier := by
    intro observed result h
    obtain ⟨hrecords, hactive, ⟨hnext, -⟩, hle, -⟩ := observe_spec h
    exact ⟨hactive, hnext, hle, fun _ _ hrow => .inl (hrecords ▸ hrow),
      fun hkeyed key row hrow => hkeyed key row (hrecords ▸ hrow)⟩
  have hreclaim : ∀ observed,
      ledger.observeIdempotencyTimeLocked request.call = (observed, .ok ()) →
      ∀ reclaimed, reclaimed = (if observed.maximum ≤ observed.records.keys.length then
        observed.reclaimExpiredCompletedLocked request.call.observedAt earlier else observed) →
      Decides ledger reclaimed request.call earlier ∧
        request.call.observedAt ≤ reclaimed.highWater := by
    rintro observed h _ rfl
    obtain ⟨hrecords, -, -, -, hnow⟩ := observe_spec h
    split_ifs
    · exact ⟨(hobserve _ _ h).reclaim hrecords (hnow rfl), hnow rfl⟩
    · exact ⟨hobserve _ _ h, hnow rfl⟩
  fun_cases IdempotencyLedger.reserveWith ledger request earlier
  case case7 observed hobserved now state current hcurrent hcompleted hexpired hlive =>
    obtain ⟨hrecords, -, -, -, hnow⟩ := observe_spec hobserved
    refine (hobserve _ _ hobserved).create _ ?_ (hnow rfl)
    intro row hrow
    rw [hrecords, hrow, Option.some.injEq] at hcurrent
    subst hcurrent
    exact ⟨by simpa using hcompleted, not_lt.mp hexpired, by simpa using hlive⟩
  case case8 observed hobserved now hnone reclaimed hfull =>
    exact (hreclaim observed hobserved reclaimed rfl).1
  case case9 observed hobserved now state hnone reclaimed hroom =>
    obtain ⟨hdecides, hnow⟩ := hreclaim observed hobserved reclaimed rfl
    refine hdecides.create _ ?_ hnow
    intro row hrow
    rw [(observe_spec hobserved).1, hrow] at hnone
    cases hnone
  all_goals exact hobserve _ _ ‹_›

/-! ## What one decision answers -/

variable {row : Reservation}

theorem reserveWith_held (hrow : ledger.records.lookup request.mapKey = some row)
    (hopen : request.call.observedAt < row.expiresAt) :
    (ledger.reserveWith request earlier).2 = .ok (row, .replay) ∨
      ∃ failure, (ledger.reserveWith request earlier).2 = .error failure := by
  fun_cases IdempotencyLedger.reserveWith ledger request earlier
  case case5 hobserved now current hcurrent _ _ _ =>
    rw [(observe_spec hobserved).1, hrow, Option.some.injEq] at hcurrent
    exact .inl (by rw [hcurrent])
  case case7 hobserved now state current hcurrent _ hexpired _ =>
    rw [(observe_spec hobserved).1, hrow, Option.some.injEq] at hcurrent
    subst hcurrent
    exact absurd hopen hexpired
  case case9 hobserved now state hnone reclaimed hroom =>
    rw [(observe_spec hobserved).1, hrow] at hnone
    cases hnone
  all_goals exact .inr ⟨_, rfl⟩

theorem reserveWith_regressed (hnumbered : ledger.lastCall < request.call.sequence)
    (hpositive : 0 ≤ request.call.observedAt)
    (hbelow : request.call.observedAt < ledger.highWater) :
    ∃ failure, (ledger.reserveWith request earlier).2 = .error failure := by
  have hobserved : ledger.observeIdempotencyTimeLocked request.call =
      ({ ledger with lastCall := request.call.sequence },
        .error [.invalidIdempotency, .clockRegressed]) := by
    unfold IdempotencyLedger.observeIdempotencyTimeLocked
    rw [if_neg (by omega)]
    simp only
    rw [if_pos ⟨by omega, hbelow⟩]
  refine ⟨⟨[.invalidIdempotency, .clockRegressed], none⟩, ?_⟩
  unfold IdempotencyLedger.reserveWith
  rw [hobserved]

/-! ## Interleaved calls -/

/-- A registered `Reserve` call. `late` is history that no step reads: the completed reservations of
its key that had left the ledger when it registered, or about which the registry had been asked. -/
structure PendingCall where
  request : RegisteredCall
  decided : Bool
  finished : Bool
  late : List Reservation

/-- The ledger and every call registered so far. `deciding` is the call that holds the ledger lock
and `cleared` has the keys on which the registry has told it of no earlier call; `completed`, every
completed reservation, is history. -/
structure LedgerRun where
  ledger : IdempotencyLedger
  calls : List PendingCall
  deciding : Option Nat
  cleared : List String
  completed : List Reservation

/-- Everything between two accesses to a lock. A decision is `lock`, any number of `ask` and
`decide`; what it writes is seen by nobody before it gives the ledger lock back. -/
inductive LedgerCall
  | register (databaseTime : Int) (scope : IdempotencyScope) (key : String)
      (fingerprint : RequestFingerprint)
  | lock (position : Nat)
  | ask (key : String)
  | decide
  | finish (position : Nat)
  | complete (reservation : Reservation) (result : ResultDigest)

inductive LedgerReply
  | refused
  | registered
  | locked
  | asked
  | answered (answer : ReserveAnswer)
  | finished
  | completed (reservation : Reservation)
  deriving DecidableEq

def LedgerRun.lateFor (run : LedgerRun) (mapKey : String) : List Reservation :=
  (run.completed.filter fun row =>
    row.scopedKey == mapKey && run.ledger.records.lookup mapKey != some row) ++
  if run.cleared.contains mapKey then (run.ledger.records.lookup mapKey).toList else []

def LedgerRun.holder (run : LedgerRun) : Option PendingCall := run.deciding.bind (run.calls[·]?)

def ledgerStep [Sha256] (run : LedgerRun) : LedgerCall → LedgerRun × LedgerReply
  | .register databaseTime scope key fingerprint =>
    match run.ledger.register databaseTime scope key fingerprint with
    | .error _ => (run, .refused)
    | .ok (ledger, request) =>
      ({ run with
          ledger := ledger,
          calls := run.calls ++ [⟨request, false, false, run.lateFor request.mapKey⟩] },
        .registered)
  | .lock position =>
    match run.calls[position]? with
    | none => (run, .refused)
    | some pending =>
      if run.deciding.isSome || pending.decided then (run, .refused)
      else ({ run with deciding := some position, cleared := [] }, .locked)
  | .ask key =>
    match run.holder, run.ledger.records.lookup key with
    | some pending, some row =>
      if run.ledger.hasEarlierLiveCall key pending.request.call row.expiresAt then (run, .asked)
      else ({ run with cleared := key :: run.cleared }, .asked)
    | _, _ => (run, .refused)
  | .decide =>
    match run.deciding with
    | none => (run, .refused)
    | some position =>
      match run.calls[position]? with
      | none => (run, .refused)
      | some pending =>
        let (ledger, answer) :=
          run.ledger.reserveWith pending.request fun key => !run.cleared.contains key
        ({ run with
            ledger := ledger
            calls := run.calls.set position { pending with decided := true }
            deciding := none
            cleared := [] }, .answered answer)
  | .finish position =>
    match run.calls[position]? with
    | none => (run, .refused)
    | some pending =>
      if !pending.decided || pending.finished then (run, .refused)
      else
        ({ run with
            ledger := run.ledger.finishIdempotencyCall pending.request.mapKey pending.request.call,
            calls := run.calls.set position { pending with finished := true } }, .finished)
  | .complete reservation result =>
    if run.deciding.isSome then (run, .refused)
    else
      match run.ledger.complete reservation result with
      | (ledger, .error _) => ({ run with ledger := ledger }, .refused)
      | (ledger, .ok row) =>
        ({ run with ledger := ledger, completed := run.completed ++ [row] }, .completed row)

def ledgerMachine [Sha256] : Machine LedgerRun LedgerCall LedgerReply := ⟨ledgerStep⟩

def LedgerRun.requests (run : LedgerRun) : List RegisteredCall := run.calls.map PendingCall.request

/-- The call has yet to decide on the key of the row, at a sample inside the window of the row. -/
structure PendingCall.Inside (pending : PendingCall) (row : Reservation) : Prop where
  undecided : pending.decided = false
  mapKey : pending.request.mapKey = row.scopedKey
  sample : pending.request.call.observedAt < row.expiresAt

/-- What holds in every interleaving. A completed reservation is recorded, or its window lies below
the high-water; whoever is still inside a window that is over, or that the running decision may
drop, has registered too late to be seen. -/
structure LedgerRun.Sound (run : LedgerRun) : Prop where
  keyed : ∀ key row, run.ledger.records.lookup key = some row → row.scopedKey = key
  live : ∀ pending ∈ run.calls, pending.decided = false →
    pending.request.call ∈ run.ledger.live pending.request.mapKey
  numbered : ∀ request ∈ run.requests, request.call.sequence ≤ run.ledger.nextCall
  distinct : run.requests.Pairwise fun a b => a.call.sequence < b.call.sequence
  sampled : ∀ request ∈ run.requests, 0 ≤ request.call.observedAt
  final : ∀ row ∈ run.completed, row.completed = true
  holder : ∀ position, run.deciding = some position →
    ∃ pending, run.calls[position]? = some pending ∧ pending.decided = false
  cleared : ∀ holder, run.holder = some holder → ∀ key ∈ run.cleared, ∀ row,
    run.ledger.records.lookup key = some row → ∀ pending ∈ run.calls, pending.Inside row →
      pending.request.call ≠ holder.request.call → row ∈ pending.late
  windows : ∀ row ∈ run.completed, run.ledger.records.lookup row.scopedKey = some row ∨
    row.expiresAt ≤ run.ledger.highWater ∧ ∀ pending ∈ run.calls, pending.Inside row →
      row ∈ pending.late

/-! ### Registration -/

section Registration

variable [Sha256] {databaseTime : Int} {key : String} {begun : IdempotencyLedger}

theorem register_eq (h : ledger.register databaseTime scope key fingerprint = .ok (begun, request)) :
    (ledger.activeCount < ledger.activeLimit ∧ 0 ≤ request.call.observedAt) ∧
      request.call.sequence = ledger.nextCall + 1 ∧ begun = { ledger with
        nextCall := ledger.nextCall + 1
        active := ledger.active.insert request.mapKey (request.call :: ledger.live request.mapKey)
        activeCount := ledger.activeCount + 1 } := by
  revert h
  fun_cases IdempotencyLedger.register ledger databaseTime scope key fingerprint
  case case4 now hnow _ _ _ hbegin =>
    rintro ⟨⟩
    unfold IdempotencyLedger.beginIdempotencyCall IdempotencyLedger.nextIdempotencyCall at hbegin
    split_ifs at hbegin with hlimit hlast
    obtain ⟨hbegun, hcall⟩ := Prod.mk.inj (Except.ok.inj hbegin)
    subst hcall
    exact ⟨⟨not_le.mp hlimit, (normalizeTime_ok hnow).2.2.1⟩, rfl, hbegun.symm⟩
  all_goals simp

theorem register_live
    (h : ledger.register databaseTime scope key fingerprint = .ok (begun, request)) (other : String) :
    begun.live other =
      if other = request.mapKey then request.call :: ledger.live other else ledger.live other := by
  unfold IdempotencyLedger.live
  rw [(register_eq h).2.2]
  split_ifs with hother
  · subst hother
    rw [AList.lookup_insert]
    rfl
  · rw [AList.lookup_insert_ne hother]

end Registration

variable {run : LedgerRun}

/-- While a call registers, the holder of the ledger lock stays the same. -/
theorem LedgerRun.Sound.holder_append (hs : run.Sound) (ledger : IdempotencyLedger)
    (pending : PendingCall) :
    LedgerRun.holder { run with ledger := ledger, calls := run.calls ++ [pending] } =
      run.holder := by
  unfold LedgerRun.holder
  cases hdeciding : run.deciding with
  | none => rfl
  | some position =>
    obtain ⟨holder, hholder, -⟩ := hs.holder position hdeciding
    have hlt := (List.getElem?_eq_some_iff.mp hholder).1
    exact List.getElem?_append_left hlt

theorem register_sound [Sha256] (hs : run.Sound) {databaseTime : Int} {key : String}
    {begun : IdempotencyLedger}
    (h : run.ledger.register databaseTime scope key fingerprint = .ok (begun, request)) :
    LedgerRun.Sound { run with
      ledger := begun
      calls := run.calls ++ [⟨request, false, false, run.lateFor request.mapKey⟩] } := by
  obtain ⟨-, hsequence, hbegun⟩ := register_eq h
  have hrecords : begun.records = run.ledger.records := by rw [hbegun]
  have hrequests : ∀ other ∈ LedgerRun.requests { run with
      ledger := begun
      calls := run.calls ++ [⟨request, false, false, run.lateFor request.mapKey⟩] },
      other ∈ run.requests ∨ other = request := by
    intro other hmem
    simpa [LedgerRun.requests] using hmem
  refine ⟨?_, ?_, ?_, ?_, ?_, hs.final, ?_, ?_, ?_⟩
  · rw [hrecords]
    exact hs.keyed
  · intro pending hmem hundecided
    rw [register_live h]
    rcases List.mem_append.mp hmem with hmem | hmem
    · have hin := hs.live pending hmem hundecided
      split_ifs
      · exact List.mem_cons_of_mem _ hin
      · exact hin
    · rw [List.mem_singleton] at hmem
      rw [hmem, if_pos rfl]
      exact List.mem_cons_self
  · intro other hmem
    rw [hbegun]
    rcases hrequests other hmem with hold | rfl
    · exact (hs.numbered other hold).trans (Nat.le_succ _)
    · exact hsequence.le
  · simp only [LedgerRun.requests, List.map_append, List.map_cons, List.map_nil]
    refine List.pairwise_append.mpr ⟨hs.distinct, List.pairwise_singleton _ _, ?_⟩
    intro old hold new hnew
    rw [List.mem_singleton] at hnew
    have hle := hs.numbered old hold
    rw [hnew]
    omega
  · intro other hmem
    rcases hrequests other hmem with hold | rfl
    · exact hs.sampled other hold
    · exact (register_eq h).1.2
  · intro position hdeciding
    obtain ⟨pending, hpending, hundecided⟩ := hs.holder position hdeciding
    have hlt := (List.getElem?_eq_some_iff.mp hpending).1
    exact ⟨pending, by rw [List.getElem?_append_left hlt, hpending], hundecided⟩
  · intro holder hholder key hkey row hrow pending hmem hinside hne
    rw [hs.holder_append] at hholder
    rw [hrecords] at hrow
    rcases List.mem_append.mp hmem with hmem | hmem
    · exact hs.cleared holder hholder key hkey row hrow pending hmem hinside hne
    -- the new call registers after the registry was asked about its key
    rw [List.mem_singleton] at hmem
    subst hmem
    have hmapKey : request.mapKey = key := hinside.mapKey.trans (hs.keyed key row hrow)
    refine List.mem_append_right _ ?_
    rw [hmapKey, if_pos (List.contains_iff_mem.mpr hkey), hrow]
    exact List.mem_singleton_self row
  · intro row hrow
    rw [hrecords]
    by_cases hheld : run.ledger.records.lookup row.scopedKey = some row
    · exact .inl hheld
    obtain ⟨hhigh, hcalls⟩ := (hs.windows row hrow).resolve_left hheld
    refine .inr ⟨by rw [hbegun]; exact hhigh, ?_⟩
    intro pending hmem hinside
    rcases List.mem_append.mp hmem with hmem | hmem
    · exact hcalls pending hmem hinside
    -- the new call registers while the row is gone
    rw [List.mem_singleton] at hmem
    subst hmem
    refine List.mem_append_left _ (List.mem_filter.mpr ⟨hrow, ?_⟩)
    rw [show request.mapKey = row.scopedKey from hinside.mapKey]
    simp [hheld]

/-! ### Decision, finish and completion -/

variable {position : Nat} {pending : PendingCall}

theorem requests_set {calls : List PendingCall} (hposition : calls[position]? = some pending)
    (marked : PendingCall) (hmarked : marked.request = pending.request) :
    (calls.set position marked).map PendingCall.request = calls.map PendingCall.request := by
  refine List.ext_getElem? fun i => ?_
  rw [List.getElem?_map, List.getElem?_map, List.getElem?_set]
  split_ifs with hi hlt
  · rw [← hi, hposition, Option.map_some, Option.map_some, hmarked]
  · rw [List.getElem?_eq_none (by omega)] at hposition
    cases hposition
  · rfl

theorem LedgerRun.Sound.other (hs : run.Sound) {other : PendingCall}
    (hposition : run.calls[position]? = some pending) (marked : PendingCall)
    (hmarked : marked.decided = true) (hmem : other ∈ run.calls.set position marked)
    (hundecided : other.decided = false) :
    other ∈ run.calls ∧ other.request.call ≠ pending.request.call := by
  obtain ⟨i, hi⟩ := List.mem_iff_getElem?.mp hmem
  rw [List.getElem?_set] at hi
  split_ifs at hi with hsame hlt
  · rw [Option.some.injEq] at hi
    rw [← hi, hmarked] at hundecided
    cases hundecided
  · refine ⟨List.mem_of_getElem? hi, ?_⟩
    intro hcall
    have hother : run.requests[i]? = some other.request := by
      rw [LedgerRun.requests, List.getElem?_map, hi]
      rfl
    have hpending : run.requests[position]? = some pending.request := by
      rw [LedgerRun.requests, List.getElem?_map, hposition]
      rfl
    -- two positions with one sequence number
    obtain ⟨hilt, higet⟩ := List.getElem?_eq_some_iff.mp hother
    obtain ⟨hplt, hpget⟩ := List.getElem?_eq_some_iff.mp hpending
    have hpairwise := List.pairwise_iff_getElem.mp hs.distinct
    rcases Nat.lt_or_gt_of_ne hsame with hlt | hlt
    · have h := hpairwise position i hplt hilt hlt
      rw [higet, hpget, hcall] at h
      exact lt_irrefl _ h
    · have h := hpairwise i position hilt hplt hlt
      rw [higet, hpget, hcall] at h
      exact lt_irrefl _ h

theorem lock_sound (hs : run.Sound) (hposition : run.calls[position]? = some pending)
    (hundecided : pending.decided = false) :
    LedgerRun.Sound { run with deciding := some position, cleared := [] } := by
  refine ⟨hs.keyed, hs.live, hs.numbered, hs.distinct, hs.sampled, hs.final, ?_, ?_, hs.windows⟩
  · intro other hother
    rw [Option.some.injEq] at hother
    exact ⟨pending, hother ▸ hposition, hundecided⟩
  · intro holder _ key hkey
    cases hkey

theorem ask_sound (hs : run.Sound) {holder : PendingCall} {key : String}
    (hholder : run.holder = some holder) (hrow : run.ledger.records.lookup key = some row)
    (hclear : run.ledger.hasEarlierLiveCall key holder.request.call row.expiresAt = false) :
    LedgerRun.Sound { run with cleared := key :: run.cleared } := by
  refine ⟨hs.keyed, hs.live, hs.numbered, hs.distinct, hs.sampled, hs.final, hs.holder, ?_,
    hs.windows⟩
  intro holder' hholder' other hother row' hrow' pending hmem hinside hne
  rcases List.mem_cons.mp hother with rfl | hother
  · -- whoever is inside the window and undecided was live when the registry was asked
    obtain rfl : holder = holder' := Option.some.inj (hholder.symm.trans hholder')
    obtain rfl : row = row' := Option.some.inj (hrow.symm.trans hrow')
    have hlive := hs.live pending hmem hinside.undecided
    rw [hinside.mapKey, hs.keyed _ _ hrow] at hlive
    simp only [IdempotencyLedger.hasEarlierLiveCall, List.any_eq_false, Bool.and_eq_true,
      bne_iff_ne, decide_eq_true_eq, not_and, not_lt] at hclear
    exact absurd hinside.sample (not_lt.mpr (hclear _ hlive hne))
  · exact hs.cleared holder' hholder' other hother row' hrow' pending hmem hinside hne

theorem decide_sound (hs : run.Sound) (hdeciding : run.deciding = some position)
    (hposition : run.calls[position]? = some pending) :
    LedgerRun.Sound { run with
      ledger := (run.ledger.reserveWith pending.request fun key => !run.cleared.contains key).1
      calls := run.calls.set position { pending with decided := true }
      deciding := none
      cleared := [] } := by
  have hd := reserveWith_decides run.ledger pending.request fun key => !run.cleared.contains key
  have hrequests := requests_set hposition { pending with decided := true } rfl
  have hholder : run.holder = some pending := by
    rw [LedgerRun.holder, hdeciding]
    exact hposition
  refine ⟨hd.keyed hs.keyed, ?_, ?_, ?_, ?_, hs.final, by simp, by simp [LedgerRun.holder], ?_⟩
  · intro other hmem hother
    have hin := hs.live other (hs.other hposition _ rfl hmem hother).1 hother
    unfold IdempotencyLedger.live at hin ⊢
    rw [hd.active]
    exact hin
  · rw [hd.nextCall, LedgerRun.requests, hrequests]
    exact hs.numbered
  · rw [LedgerRun.requests, hrequests]
    exact hs.distinct
  · rw [LedgerRun.requests, hrequests]
    exact hs.sampled
  · intro row hrow
    rcases hs.windows row hrow with hheld | ⟨hhigh, hcalls⟩
    · rcases hd.rows _ row hheld with hkept | ⟨-, hexpired, hclear, hnow⟩
      · exact .inl hkept
      · -- the row goes: the registry was asked about its key
        refine .inr ⟨hexpired.trans hnow, ?_⟩
        intro other hmem hinside
        obtain ⟨hold, hne⟩ := hs.other hposition _ rfl hmem hinside.undecided
        exact hs.cleared pending hholder row.scopedKey (by simpa using hclear) row hheld other hold
          hinside hne
    · refine .inr ⟨hhigh.trans hd.highWater, ?_⟩
      intro other hmem hinside
      exact hcalls other (hs.other hposition _ rfl hmem hinside.undecided).1 hinside

theorem live_finish (ledger : IdempotencyLedger) (mapKey : String) (call : IdempotencyCall)
    (key : String) :
    (ledger.finishIdempotencyCall mapKey call).live key =
      if key = mapKey then (ledger.live mapKey).erase call else ledger.live key := by
  change ((if ((ledger.live mapKey).erase call).isEmpty then ledger.active.erase mapKey
    else ledger.active.insert mapKey ((ledger.live mapKey).erase call)).lookup key).getD [] = _
  by_cases hkey : key = mapKey
  · subst hkey
    rw [if_pos rfl]
    split_ifs with hempty
    · rw [AList.lookup_erase]
      exact (List.isEmpty_iff.mp hempty).symm
    · rw [AList.lookup_insert]
      rfl
  · rw [if_neg hkey]
    split_ifs
    · rw [AList.lookup_erase_ne hkey]
      rfl
    · rw [AList.lookup_insert_ne hkey]
      rfl

theorem finish_sound (hs : run.Sound) (hposition : run.calls[position]? = some pending)
    (hdecided : pending.decided = true) :
    LedgerRun.Sound { run with
      ledger := run.ledger.finishIdempotencyCall pending.request.mapKey pending.request.call
      calls := run.calls.set position { pending with finished := true } } := by
  have hrequests := requests_set hposition { pending with finished := true } rfl
  have hother := fun (other : PendingCall) =>
    @LedgerRun.Sound.other _ _ _ hs other hposition { pending with finished := true } hdecided
  -- the call that returns is not the one that holds the ledger lock
  have hset : ∀ i, run.deciding = some i →
      (run.calls.set position { pending with finished := true })[i]? = run.calls[i]? := by
    intro i hi
    refine List.getElem?_set_ne ?_
    rintro rfl
    obtain ⟨holder, hholder, hundecided⟩ := hs.holder position hi
    rw [hposition, Option.some.injEq] at hholder
    rw [← hholder, hdecided] at hundecided
    cases hundecided
  refine ⟨hs.keyed, ?_, ?_, ?_, ?_, hs.final, ?_, ?_, ?_⟩
  · intro other hmem hundecided
    obtain ⟨hold, hne⟩ := hother other hmem hundecided
    have hin := hs.live other hold hundecided
    rw [live_finish]
    split_ifs with hkey
    · rw [hkey] at hin
      exact (List.mem_erase_of_ne hne).mpr hin
    · exact hin
  · rw [LedgerRun.requests, hrequests]
    exact hs.numbered
  · rw [LedgerRun.requests, hrequests]
    exact hs.distinct
  · rw [LedgerRun.requests, hrequests]
    exact hs.sampled
  · intro i hi
    rw [hset i hi]
    exact hs.holder i hi
  · intro holder hholder key hkey row hrow other hmem hinside hne
    obtain ⟨i, hi, hget⟩ := Option.bind_eq_some_iff.mp hholder
    have hholder' : run.holder = some holder :=
      Option.bind_eq_some_iff.mpr ⟨i, hi, (hset i hi).symm.trans hget⟩
    exact hs.cleared holder hholder' key hkey row hrow other
      (hother other hmem hinside.undecided).1 hinside hne
  · intro row hrow
    rcases hs.windows row hrow with hheld | ⟨hhigh, hcalls⟩
    · exact .inl hheld
    refine .inr ⟨hhigh, ?_⟩
    intro other hmem hinside
    exact hcalls other (hother other hmem hinside.undecided).1 hinside

/-- What a completion leaves: only an incomplete row of its key may change, and the answered
reservation is recorded as completed. -/
structure Completes (before after : IdempotencyLedger) (row : Reservation) : Prop where
  active : after.active = before.active
  nextCall : after.nextCall = before.nextCall
  highWater : after.highWater = before.highWater
  rows : ∀ key other, before.records.lookup key = some other → other.completed = true →
    after.records.lookup key = some other
  keyed : ∀ key other, after.records.lookup key = some other → other.scopedKey = key
  held : after.records.lookup row.scopedKey = some row
  completed : row.completed = true

variable {reservation : Reservation}
variable {after : IdempotencyLedger} {result : ResultDigest}

theorem complete_ok (hkeyed : ∀ key row, ledger.records.lookup key = some row → row.scopedKey = key)
    (h : ledger.complete reservation result = (after, .ok row)) : Completes ledger after row := by
  revert h
  fun_cases IdempotencyLedger.complete ledger reservation result
  case case4 hcurrent _ hcompleted _ =>
    rintro ⟨⟩
    have hkey := hkeyed _ _ hcurrent
    exact ⟨rfl, rfl, rfl, fun _ _ hother _ => hother, hkeyed, hkey ▸ hcurrent, hcompleted⟩
  case case6 hcurrent _ hincomplete done =>
    simp only [Prod.mk.injEq, Except.ok.injEq]
    rintro ⟨rfl, rfl⟩
    have hcurrentKey := hkeyed _ _ hcurrent
    have hkey : done.scopedKey = reservation.scopedKey := hcurrentKey
    refine ⟨rfl, rfl, rfl, ?_, ?_, ?_, rfl⟩
    · intro key other hother hcompleted
      by_cases hsame : key = reservation.scopedKey
      · subst hsame
        rw [hcurrent, Option.some.injEq] at hother
        exact absurd (hother ▸ hcompleted) hincomplete
      · simp only [AList.lookup_insert_ne hsame]
        exact hother
    · intro key other hother
      rcases lookup_insert_eq_some.mp hother with ⟨rfl, rfl⟩ | ⟨-, hother⟩
      · exact hkey
      · exact hkeyed key other hother
    · rw [hkey, AList.lookup_insert]
  all_goals simp

theorem complete_error {failure : Failure}
    (h : ledger.complete reservation result = (after, .error failure)) : after = ledger := by
  revert h
  fun_cases IdempotencyLedger.complete ledger reservation result
  case case4 | case6 => simp
  all_goals
    rintro ⟨⟩
    rfl

theorem complete_sound (hs : run.Sound) (hfree : run.deciding = none)
    (h : run.ledger.complete reservation result = (after, .ok row)) :
    LedgerRun.Sound { run with ledger := after, completed := run.completed ++ [row] } := by
  have hc := complete_ok hs.keyed h
  refine ⟨hc.keyed, ?_, ?_, hs.distinct, hs.sampled, ?_, hs.holder, ?_, ?_⟩
  · intro pending hmem hundecided
    have hin := hs.live pending hmem hundecided
    unfold IdempotencyLedger.live at hin ⊢
    rw [hc.active]
    exact hin
  · rw [hc.nextCall]
    exact hs.numbered
  · exact List.forall_mem_append.mpr ⟨hs.final, List.forall_mem_singleton.mpr hc.completed⟩
  · -- nobody decides while a result is bound
    simp [LedgerRun.holder, hfree]
  · refine List.forall_mem_append.mpr ⟨fun other hmem => ?_,
      List.forall_mem_singleton.mpr (.inl hc.held)⟩
    rcases hs.windows other hmem with hheld | hgone
    · exact .inl (hc.rows _ other hheld (hs.final other hmem))
    · rw [← hc.highWater] at hgone
      exact .inr hgone

/-! ## Every interleaving is sound -/

theorem ledger_sound [Sha256] (run : LedgerRun) (call : LedgerCall) (hs : run.Sound) :
    (ledgerMachine.next run call).Sound := by
  change (ledgerStep run call).1.Sound
  fun_cases ledgerStep run call
  case case2 hregister => exact register_sound hs hregister
  case case5 hposition hfree =>
    simp only [Bool.not_eq_true, Bool.or_eq_false_iff] at hfree
    exact lock_sound hs hposition hfree.2
  case case7 hrow hholder hclear => exact ask_sound hs hholder hrow (by simpa using hclear)
  case case11 hdeciding _ hposition ledger answer hdecided =>
    have h := decide_sound hs hdeciding hposition
    rw [hdecided] at h
    exact h
  case case14 hposition hphase =>
    simp only [Bool.not_eq_true, Bool.or_eq_false_iff, Bool.not_eq_false'] at hphase
    exact finish_sound hs hposition hphase.1
  case case16 hfailed =>
    rw [complete_error hfailed]
    exact hs
  case case17 hfree _ _ hcompleted =>
    exact complete_sound hs (by simpa using hfree) hcompleted
  all_goals exact hs

/-- A fresh ledger before any call. -/
def LedgerRun.Initial (run : LedgerRun) : Prop :=
  (∃ maximum, newIdempotencyLedger maximum = .ok run.ledger) ∧ run.calls = [] ∧
    run.deciding = none ∧ run.completed = []

theorem initial_sound (h : run.Initial) : run.Sound := by
  obtain ⟨⟨maximum, hledger⟩, hcalls, hdeciding, hcompleted⟩ := h
  have hrecords : run.ledger.records = ∅ := by
    unfold newIdempotencyLedger at hledger
    split at hledger
    · simp at hledger
    · rw [← Except.ok.inj hledger]
  refine ⟨?_, ?_, ?_, ?_, ?_, ?_, ?_, ?_, ?_⟩
  · simp [hrecords]
  all_goals simp [LedgerRun.requests, LedgerRun.holder, hcalls, hdeciding, hcompleted]

/-- Once a reservation has been completed, a call on its key whose sample is inside its window
replays that reservation or fails. -/
def WindowsHeld (entries : List (Entry LedgerRun LedgerCall LedgerReply)) : Prop :=
  ∀ (i j : Nat) done e row pending answer, i < j → entries[i]? = some done →
    entries[j]? = some e → done.output = .completed row → e.input = .decide →
    e.before.holder = some pending → e.output = .answered answer →
    pending.request.mapKey = row.scopedKey → pending.request.call.observedAt < row.expiresAt →
    answer = .ok (row, .replay) ∨ ∃ failure, answer = .error failure

/-- A decision whose clock check is skipped, because a later-numbered call has decided before it,
is not one of a call that registered too late to keep a row of its key in the ledger which is now
gone although its window is open at the sample of the call. -/
def LedgerRun.skipsSafely (run : LedgerRun) : LedgerCall → Bool
  | .decide =>
    match run.holder with
    | none => true
    | some pending =>
      decide (run.ledger.lastCall < pending.request.call.sequence) ||
        pending.late.all fun row => decide (row.expiresAt ≤ pending.request.call.observedAt) ||
          run.ledger.records.lookup row.scopedKey == some row
  | _ => true

section Runs

variable [Sha256]

theorem completed_mono (run : LedgerRun) (call : LedgerCall) :
    run.completed ⊆ (ledgerMachine.next run call).completed := by
  change _ ⊆ (ledgerStep run call).1.completed
  fun_cases ledgerStep run call
  case case17 => exact List.subset_append_left _ _
  all_goals exact List.Subset.refl _

variable {e : Entry LedgerRun LedgerCall LedgerReply}

theorem completed_entry {row : Reservation} (he : e = ledgerMachine.entry e.before e.input)
    (hrow : e.output = .completed row) : row ∈ e.after.completed := by
  rw [he] at hrow ⊢
  revert hrow
  change (ledgerStep e.before e.input).2 = _ → row ∈ (ledgerStep e.before e.input).1.completed
  fun_cases ledgerStep e.before e.input
  case case17 =>
    rintro ⟨⟩
    exact List.mem_append_right _ (List.mem_singleton_self _)
  all_goals simp

theorem completed_before {run : LedgerRun} {calls : List LedgerCall} {i j : Nat}
    {done : Entry LedgerRun LedgerCall LedgerReply} {row : Reservation} (hij : i < j)
    (hi : (ledgerMachine.trace run calls)[i]? = some done)
    (hj : (ledgerMachine.trace run calls)[j]? = some e) (hrow : done.output = .completed row) :
    row ∈ e.before.completed := by
  obtain ⟨-, hdone, -⟩ := trace_after ledgerMachine hi
  obtain ⟨mid, hmid, -⟩ := trace_between ledgerMachine hij hi hj
  rw [hmid]
  exact exec_relation ledgerMachine (P := fun _ => True)
    (R := fun a b => a.completed ⊆ b.completed) (fun _ => List.Subset.refl _)
    (fun _ _ _ hab hbc => List.Subset.trans hab hbc) (fun _ _ _ => trivial)
    (fun run call _ => completed_mono run call) trivial mid (completed_entry hdone hrow)

theorem decided_entry {answer : ReserveAnswer} (hs : e.before.Sound)
    (he : e = ledgerMachine.entry e.before e.input) (hinput : e.input = .decide)
    (hholder : e.before.holder = some pending) (houtput : e.output = .answered answer) :
    pending ∈ e.before.calls ∧ pending.decided = false ∧
      ∃ earlier, (e.before.ledger.reserveWith pending.request earlier).2 = answer := by
  obtain ⟨position, hdeciding, hposition⟩ := Option.bind_eq_some_iff.mp hholder
  obtain ⟨other, hother, hundecided⟩ := hs.holder position hdeciding
  obtain rfl : pending = other := Option.some.inj (hposition.symm.trans hother)
  refine ⟨List.mem_of_getElem? hposition, hundecided, fun key => !e.before.cleared.contains key, ?_⟩
  rw [he, hinput] at houtput
  change (ledgerStep e.before .decide).2 = _ at houtput
  simp only [ledgerStep, hdeciding, hposition] at houtput
  exact LedgerReply.answered.inj houtput

/-- In every interleaving in which the skipped clock checks are safe, the windows of a key are
respected by every later decision. -/
theorem idempotency_windows_held {run : LedgerRun} (hinitial : run.Initial)
    (calls : List LedgerCall)
    (hsafe : ∀ e ∈ ledgerMachine.trace run calls, e.before.skipsSafely e.input = true) :
    WindowsHeld (ledgerMachine.trace run calls) := by
  intro i j done e row pending answer hij hi hj hdone hinput hholder houtput hkey hinside
  have hmem := List.mem_of_getElem? hj
  obtain ⟨hs, he⟩ := trace_invariant ledgerMachine ledger_sound (initial_sound hinitial) hmem
  obtain ⟨hin, hundecided, earlier, rfl⟩ := decided_entry hs he hinput hholder houtput
  have hrow := completed_before hij hi hj hdone
  by_cases hheld : e.before.ledger.records.lookup row.scopedKey = some row
  · rw [← hkey] at hheld
    exact reserveWith_held hheld hinside
  -- the row is gone: the call came too late to keep it, so its clock is checked and has regressed
  obtain ⟨hhigh, hlate⟩ := (hs.windows row hrow).resolve_left hheld
  have hrowLate := hlate pending hin ⟨hundecided, hkey, hinside⟩
  have hchecked : e.before.ledger.lastCall < pending.request.call.sequence := by
    have h := hsafe e hmem
    simp only [LedgerRun.skipsSafely, hinput, hholder, Bool.or_eq_true, decide_eq_true_eq,
      List.all_eq_true, beq_iff_eq] at h
    rcases h with hlt | hrows
    · exact hlt
    · rcases hrows row hrowLate with hexpired | hthere
      · exact absurd hinside (not_lt.mpr hexpired)
      · exact absurd hthere hheld
  have hpositive := hs.sampled pending.request (List.mem_map_of_mem hin)
  exact .inr (reserveWith_regressed hchecked hpositive (hinside.trans_le hhigh))

/-! ## A stale sample behind a later call -/

def sampleScope (n : UInt8) : IdempotencyScope := ⟨true, ⟨true, [n]⟩⟩

def sampleKey : String := "idempotency-key-1"

def sampleRequest : RequestFingerprint := ⟨true, [9]⟩

def sampleResult : ResultDigest := ⟨true, [5]⟩

/-- The first reservation of the sample key in a scope. -/
def reservationAt (scope : IdempotencyScope) (now : Int) : Reservation :=
  { initialized := true
    scope := scope
    keyDigest := deriveDigest "veer.reconciliation.idempotency-key.v1" [utf8 sampleKey]
    fingerprint := sampleRequest
    epoch := 1
    committedAt := now
    expiresAt := now + httpIdempotencyWindow
    completed := false
    result := .zero }

def Reservation.done (value : Reservation) : Reservation :=
  { value with completed := true, result := sampleResult }

def emptyRun : LedgerRun := ⟨⟨true, 2, 3, 0, 0, 0, ∅, ∅, ∅, 0⟩, [], none, [], []⟩

/-- Two completed reservations expire and are reclaimed for a third key. A call on the first key
then registers with a sample inside the old window, and a later-numbered call decides first. -/
def staleSampleCalls : List LedgerCall :=
  let start := 1 * second
  let expired := start + httpIdempotencyWindow
  [.register start (sampleScope 1) sampleKey sampleRequest, .lock 0, .decide, .finish 0,
    .complete (reservationAt (sampleScope 1) start) sampleResult,
    .register start (sampleScope 2) sampleKey sampleRequest, .lock 1, .decide, .finish 1,
    .complete (reservationAt (sampleScope 2) start) sampleResult,
    .register expired (sampleScope 3) sampleKey sampleRequest, .lock 2,
    .ask (reservationAt (sampleScope 1) start).scopedKey,
    .ask (reservationAt (sampleScope 2) start).scopedKey, .decide, .finish 2,
    .register (2 * second) (sampleScope 1) sampleKey sampleRequest,
    .register expired (sampleScope 3) sampleKey sampleRequest,
    .lock 4, .decide, .lock 3, .decide]

end Runs

attribute [local instance] plainSha256

/-- The stale call reserves the key a second time inside its completed window. -/
theorem idempotency_window_reopened :
    (ledgerMachine.trace emptyRun staleSampleCalls).map (fun e => e.output) =
      [.registered, .locked,
        .answered (.ok (reservationAt (sampleScope 1) (1 * second), .reserved)),
        .finished, .completed (reservationAt (sampleScope 1) (1 * second)).done,
        .registered, .locked,
        .answered (.ok (reservationAt (sampleScope 2) (1 * second), .reserved)),
        .finished, .completed (reservationAt (sampleScope 2) (1 * second)).done,
        .registered, .locked, .asked, .asked,
        .answered (.ok (reservationAt (sampleScope 3) (1 * second + httpIdempotencyWindow),
          .reserved)),
        .finished, .registered, .registered, .locked,
        .answered (.error ⟨[.reservationOutstanding], some (reservationAt (sampleScope 3)
          (1 * second + httpIdempotencyWindow))⟩),
        .locked,
        .answered (.ok (reservationAt (sampleScope 1) (2 * second), .reserved))] ∧
      ¬ WindowsHeld (ledgerMachine.trace emptyRun staleSampleCalls) := by
  refine (and_iff_left_of_imp ?_).mpr (by decide +kernel)
  intro hrun hheld
  have hcall :
      (ledgerMachine.exec emptyRun (staleSampleCalls.take 21)).holder.map PendingCall.request =
      some ⟨⟨4, 2 * second⟩, sampleScope 1,
        (reservationAt (sampleScope 1) (2 * second)).keyDigest, sampleRequest⟩ := by
    decide +kernel
  have hfourth := congrArg (fun replies => replies[4]?) hrun
  have hlast := congrArg (fun replies => replies[21]?) hrun
  simp only [List.getElem?_map] at hfourth hlast
  obtain ⟨done, hdone, hcompleted⟩ := Option.map_eq_some_iff.mp (hfourth.trans rfl)
  obtain ⟨e, he, hanswered⟩ := Option.map_eq_some_iff.mp (hlast.trans rfl)
  rw [← trace_before _ he] at hcall
  obtain ⟨pending, hpending, hrequest⟩ := Option.map_eq_some_iff.mp hcall
  have hinput : LedgerCall.decide = e.input := Option.some.inj (trace_input _ he)
  have hkey : pending.request.mapKey =
      (reservationAt (sampleScope 1) (1 * second)).done.scopedKey := by
    rw [hrequest]
    rfl
  have hinside : pending.request.call.observedAt <
      (reservationAt (sampleScope 1) (1 * second)).done.expiresAt := by
    rw [hrequest]
    decide
  rcases hheld 4 21 done e _ pending _ (by decide) hdone he hcompleted hinput.symm hpending
    hanswered hkey hinside with hreplay | ⟨failure, hfailed⟩
  · simp at hreplay
  · cases hfailed

/-- Inside the window an older overlapping call still replays after a later one has moved the
clock past the expiry, because the registry knew of it; a fresh call with a stale sample is turned
away. -/
def overlappingCalls [Sha256] : List LedgerCall :=
  let start := 1 * second
  let expired := start + httpIdempotencyWindow
  let key := (reservationAt (sampleScope 1) start).scopedKey
  [.register start (sampleScope 1) sampleKey sampleRequest, .lock 0, .decide, .finish 0,
    .complete (reservationAt (sampleScope 1) start) sampleResult,
    .register (2 * second) (sampleScope 1) sampleKey sampleRequest,
    .register expired (sampleScope 1) sampleKey sampleRequest,
    .lock 2, .ask key, .decide, .lock 1, .decide, .finish 1, .finish 2,
    .register expired (sampleScope 1) sampleKey sampleRequest, .lock 3, .ask key,
    .register (2 * second) (sampleScope 1) sampleKey sampleRequest, .decide, .lock 4, .decide]

theorem idempotency_windows_held_overlap :
    emptyRun.Initial ∧
      (∀ e ∈ ledgerMachine.trace emptyRun overlappingCalls, e.before.skipsSafely e.input = true) ∧
      WindowsHeld (ledgerMachine.trace emptyRun overlappingCalls) := by
  have hinitial : emptyRun.Initial := ⟨⟨2, rfl⟩, rfl, rfl, rfl⟩
  have hsafe : (ledgerMachine.trace emptyRun overlappingCalls).all
      (fun e => e.before.skipsSafely e.input) = true := by decide +kernel
  rw [List.all_eq_true] at hsafe
  exact ⟨hinitial, hsafe, idempotency_windows_held hinitial _ hsafe⟩

end Veer.Reconcile
