import Veer.IdempotencyBounds

/-!
# The sequential idempotency ledger is a window register

Calls that do not overlap find the registry empty, so every clock sample is checked against the
high-water. Reclamation forgets the epoch of a key; what tells two lifetimes apart is time: a
reservation that has left the ledger ended at or below the high-water, and a new one starts at or
above it.
-/
namespace Veer.Reconcile

open StepMachine ListHeap

/-! ## Whole calls -/

inductive WindowCall
  | reserve (databaseTime : Int) (scope : IdempotencyScope) (key : String)
      (fingerprint : RequestFingerprint)
  | complete (reservation : Reservation) (result : ResultDigest)

inductive WindowReply
  | reserve (answer : ReserveAnswer)
  | complete (answer : Except Failure Reservation)
  deriving DecidableEq

/-- The reservation that a reply hands out; an outstanding one comes with an error. -/
def WindowReply.value : WindowReply → Option Reservation
  | .reserve (.ok (row, _)) => some row
  | .reserve (.error failure) => failure.current
  | .complete (.ok row) => some row
  | .complete (.error _) => none

/-- The reservation that a reply creates. -/
def WindowReply.created : WindowReply → Option Reservation
  | .reserve (.ok (row, .reserved)) => some row
  | _ => none

def windowStep [Sha256] (ledger : IdempotencyLedger) : WindowCall → IdempotencyLedger × WindowReply
  | .reserve databaseTime scope key fingerprint =>
    let (after, answer) := ledger.reserve databaseTime scope key fingerprint
    (after, .reserve answer)
  | .complete reservation result =>
    let (after, answer) := ledger.complete reservation result
    (after, .complete answer)

def windowMachine [Sha256] : Machine IdempotencyLedger WindowCall WindowReply := ⟨windowStep⟩

/-! ## What one decision answers -/

theorem newReservation_times {scope : IdempotencyScope} {keyDigest : DigestValue}
    {fingerprint : RequestFingerprint} {epoch : Nat} {now : Int} {created : Reservation}
    (h : newReservation scope keyDigest fingerprint epoch now = .ok created) :
    created.committedAt = now ∧ created.committedAt < created.expiresAt := by
  unfold newReservation at h
  split at h
  · cases h
  next expiresAt hexpires =>
  obtain ⟨-, hnormal⟩ := addNormalizedDuration_ok hexpires
  obtain ⟨-, hlt, -⟩ := normalizeTime_ok hnormal
  rw [← Except.ok.inj h]
  unfold httpIdempotencyWindow hour second millisecond at hlt
  refine ⟨rfl, ?_⟩
  change now < expiresAt
  omega

/-- What a decision answers: what it hands out is the row of the key, a replayed row is completed,
and a created one starts at the sample. -/
structure Answers (before after : IdempotencyLedger) (request : RegisteredCall)
    (answer : ReserveAnswer) : Prop where
  origin : ∀ key row, after.records.lookup key = some row → before.records.lookup key = some row ∨
    key = request.mapKey ∧ answer = .ok (row, .reserved)
  value : ∀ row, (WindowReply.reserve answer).value = some row →
    after.records.lookup request.mapKey = some row
  replay : ∀ row, answer = .ok (row, .replay) → row.completed = true
  created : ∀ row, answer = .ok (row, .reserved) → row.committedAt = request.call.observedAt ∧
    row.committedAt < row.expiresAt

variable (ledger : IdempotencyLedger)

theorem createReservation_answers (request : RegisteredCall)
    (epoch : Option Nat) :
    Answers ledger (ledger.createReservation request epoch).1 request
      (ledger.createReservation request epoch).2 := by
  fun_cases IdempotencyLedger.createReservation ledger request epoch
  case case3 hcreated =>
    refine ⟨?_, ?_, by simp, ?_⟩
    · intro key row hrow
      rcases lookup_insert_eq_some.mp hrow with ⟨rfl, rfl⟩ | ⟨-, hrow⟩
      · exact .inr ⟨rfl, rfl⟩
      · exact .inl hrow
    · rintro row ⟨⟩
      exact AList.lookup_insert _
    · rintro row ⟨⟩
      exact newReservation_times hcreated
  all_goals exact ⟨fun _ _ hrow => .inl hrow, by simp [WindowReply.value], by simp, by simp⟩

theorem reserveWith_answers (request : RegisteredCall) (earlier : String → Bool) :
    Answers ledger (ledger.reserveWith request earlier).1 request
      (ledger.reserveWith request earlier).2 := by
  have hrecords : ∀ {observed result},
      ledger.observeIdempotencyTimeLocked request.call = (observed, result) →
      observed.records = ledger.records := fun h => (observe_spec h).1
  have hreclaimed : ∀ (observed : IdempotencyLedger) (full : Prop) [Decidable full] key row,
      (if full then observed.reclaimExpiredCompletedLocked request.call.observedAt earlier
        else observed).records.lookup key = some row →
      observed.records.lookup key = some row := by
    intro observed full _ key row
    split_ifs
    · rw [lookup_reclaim]
      exact Option.eq_some_of_filter_eq_some
    · exact id
  fun_cases IdempotencyLedger.reserveWith ledger request earlier
  case case5 hobserved now current hcurrent hcompleted _ _ =>
    refine ⟨?_, ?_, ?_, by simp⟩
    · intro key row hrow
      exact .inl (hrecords hobserved ▸ hrow)
    · rintro row ⟨⟩
      exact hcurrent
    · rintro row ⟨⟩
      simpa using hcompleted
  case case3 hobserved current hcurrent _ _ =>
    refine ⟨?_, ?_, by simp, by simp⟩
    · intro key row hrow
      exact .inl (hrecords hobserved ▸ hrow)
    · rintro row ⟨⟩
      exact hcurrent
  case case7 observed hobserved now state current hcurrent _ _ _ =>
    have h := createReservation_answers observed request (nextEpoch (some (state.getD 0)))
    exact ⟨hrecords hobserved ▸ h.origin, h.value, h.replay, h.created⟩
  case case8 observed hobserved now hnone reclaimed hfull =>
    refine ⟨?_, by simp [WindowReply.value], by simp, by simp⟩
    intro key row hrow
    have hold := hreclaimed observed _ key row hrow
    exact .inl (hrecords hobserved ▸ hold)
  case case9 observed hobserved now state hnone reclaimed hroom =>
    have h := createReservation_answers reclaimed request (nextEpoch state)
    refine ⟨?_, h.value, h.replay, h.created⟩
    intro key row hrow
    rcases h.origin key row hrow with hkept | hnew
    · have hold := hreclaimed observed _ key row hkept
      exact .inl (hrecords hobserved ▸ hold)
    · exact .inr hnew
  all_goals
    exact ⟨fun key row hrow => .inl (hrecords ‹_› ▸ hrow), by simp [WindowReply.value], by simp,
      by simp⟩

theorem createReservation_lastCall (request : RegisteredCall)
    (epoch : Option Nat) :
    (ledger.createReservation request epoch).1.lastCall = ledger.lastCall := by
  fun_cases IdempotencyLedger.createReservation ledger request epoch <;> rfl

theorem reserveWith_lastCall (request : RegisteredCall) (earlier : String → Bool) :
    (ledger.reserveWith request earlier).1.lastCall =
      max ledger.lastCall request.call.sequence := by
  have hreclaimed : ∀ (observed : IdempotencyLedger) (full : Prop) [Decidable full],
      (if full then observed.reclaimExpiredCompletedLocked request.call.observedAt earlier
        else observed).lastCall = observed.lastCall := by
    intro observed full _
    split_ifs <;> rfl
  fun_cases IdempotencyLedger.reserveWith ledger request earlier
  case case7 hobserved _ _ _ _ _ _ _ =>
    rw [createReservation_lastCall]
    exact (observe_spec hobserved).2.2.1.2
  case case8 observed hobserved _ _ _ _ =>
    exact (hreclaimed observed _).trans (observe_spec hobserved).2.2.1.2
  case case9 observed hobserved _ _ _ _ _ =>
    rw [createReservation_lastCall]
    exact (hreclaimed observed _).trans (observe_spec hobserved).2.2.1.2
  all_goals exact (observe_spec ‹_›).2.2.1.2

/-! ## What one call does -/

/-- Between calls nobody is registered. -/
structure Quiet (ledger : IdempotencyLedger) : Prop where
  idle : ∀ key, ledger.live key = []
  numbered : ledger.lastCall ≤ ledger.nextCall
  keyed : ∀ key row, ledger.records.lookup key = some row → row.scopedKey = key

/-- Everything a call may do to the rows, and what its reply says about them. -/
structure Shifts (before after : IdempotencyLedger) (call : WindowCall) (reply : WindowReply) :
    Prop where
  highWater : before.highWater ≤ after.highWater
  rows : ∀ key row, before.records.lookup key = some row →
    after.records.lookup key = some row ∨
    (row.completed = true ∧ row.expiresAt ≤ after.highWater ∧
      ∀ new, after.records.lookup key = some new →
        reply.created = some new ∧ row.expiresAt ≤ new.committedAt) ∨
    (row.completed = false ∧ ∃ reservation result, call = .complete reservation result ∧
      reply = .complete (.ok (row.bindResult result)) ∧
      after.records.lookup key = some (row.bindResult result))
  fresh : ∀ key row, before.records.lookup key = none → after.records.lookup key = some row →
    reply.created = some row
  created : ∀ row, reply.created = some row → row.completed = false ∧
    before.highWater ≤ row.committedAt ∧ row.committedAt < row.expiresAt ∧
    ∀ old, before.records.lookup row.scopedKey = some old →
      old.completed = true ∧ old.expiresAt ≤ row.committedAt
  value : ∀ row, reply.value = some row → after.records.lookup row.scopedKey = some row
  replay : ∀ row, reply = .reserve (.ok (row, .replay)) →
    row.completed = true ∧ before.records.lookup row.scopedKey = some row
  completed : ∀ row, reply = .complete (.ok row) → row.completed = true

variable {reply : WindowReply}

theorem Shifts.refused (call : WindowCall)
    (hvalue : reply.value = none) : Shifts ledger ledger call reply where
  highWater := le_refl _
  rows _ _ hrow := .inl hrow
  fresh _ _ hnone hrow := by
    rw [hnone] at hrow
    cases hrow
  created row hrow := by
    cases reply with
    | complete => cases hrow
    | reserve answer =>
      rcases answer with failure | ⟨other, disposition⟩
      · cases hrow
      · cases hvalue
  value row hrow := by
    rw [hvalue] at hrow
    cases hrow
  replay row hreply := by
    rw [hreply] at hvalue
    cases hvalue
  completed row hreply := by
    rw [hreply] at hvalue
    cases hvalue

variable {row : Reservation}

theorem created_reserve {answer : ReserveAnswer} :
    (WindowReply.reserve answer).created = some row ↔ answer = .ok (row, .reserved) := by
  rcases answer with failure | ⟨other, _ | _⟩ <;> simp [WindowReply.created]

/-! ### A reservation that nothing overlaps -/

section Sequential

variable [Sha256] {ledger begun decided : IdempotencyLedger} {databaseTime : Int}
variable {scope : IdempotencyScope} {key : String} {fingerprint : RequestFingerprint}
variable {request : RegisteredCall} {answer : ReserveAnswer} {earlier : String → Bool}

/-- After it has left the registry, the registry is empty again. -/
theorem sequential_quiet (hq : Quiet ledger)
    (hregister : ledger.register databaseTime scope key fingerprint = .ok (begun, request))
    (hdecide : begun.reserveWith request earlier = (decided, answer)) :
    Quiet (decided.finishIdempotencyCall request.mapKey request.call) := by
  obtain ⟨-, hsequence, hbegun⟩ := register_eq hregister
  have hd := reserveWith_decides begun request earlier
  have hlast := reserveWith_lastCall begun request earlier
  rw [hdecide] at hd hlast
  have hlive : ∀ k, decided.live k = if k = request.mapKey then [request.call] else [] := by
    intro k
    have hactive : decided.live k = begun.live k := by
      unfold IdempotencyLedger.live
      rw [hd.active]
    rw [hactive, register_live hregister, hq.idle]
  refine ⟨?_, ?_, ?_⟩
  · intro other
    rw [live_finish, hlive, hlive]
    by_cases hother : other = request.mapKey <;> simp [hother]
  · change decided.lastCall ≤ decided.nextCall
    rw [hlast, hd.nextCall, hsequence, hbegun]
    have hnumbered := hq.numbered
    dsimp only
    omega
  · apply hd.keyed
    rw [hbegun]
    exact hq.keyed

theorem sequential_rows
    (hregister : ledger.register databaseTime scope key fingerprint = .ok (begun, request))
    (hdecide : begun.reserveWith request earlier = (decided, answer)) {other : String}
    {row : Reservation} (hrow : ledger.records.lookup other = some row) :
    decided.records.lookup other = some row ∨ row.completed = true ∧
      row.expiresAt ≤ request.call.observedAt ∧ request.call.observedAt ≤ decided.highWater := by
  have hd := reserveWith_decides begun request earlier
  rw [hdecide] at hd
  have hbefore : begun.records.lookup other = some row := by
    rw [(register_eq hregister).2.2]
    exact hrow
  rcases hd.rows other row hbefore with hkept | ⟨hdone, hexpired, -, hnow⟩
  · exact .inl hkept
  · exact .inr ⟨hdone, hexpired, hnow⟩

/-- The clock of a call that nothing overlaps is always checked. -/
theorem sequential_created (hq : Quiet ledger)
    (hregister : ledger.register databaseTime scope key fingerprint = .ok (begun, request))
    {row : Reservation}
    (hdecide : begun.reserveWith request earlier = (decided, .ok (row, .reserved))) :
    row.completed = false ∧ ledger.highWater ≤ row.committedAt ∧ row.committedAt < row.expiresAt ∧
      ∀ old, ledger.records.lookup row.scopedKey = some old →
        old.completed = true ∧ old.expiresAt ≤ row.committedAt := by
  obtain ⟨-, hsequence, hbegun⟩ := register_eq hregister
  have ha := reserveWith_answers begun request earlier
  have hreserves := (reserveWith_spec begun request earlier).2 row
  rw [hdecide] at ha hreserves
  obtain ⟨hmade, hkey, hopen, hfree⟩ := hreserves rfl
  obtain ⟨hcommitted, hspan⟩ := ha.created row rfl
  have hchecked : begun.highWater ≤ request.call.observedAt := by
    by_contra hbelow
    have hfresh : begun.lastCall < request.call.sequence := by
      rw [hbegun, hsequence]
      exact Nat.lt_succ_of_le hq.numbered
    obtain ⟨failure, hfailed⟩ := reserveWith_regressed hfresh
      (register_eq hregister).1.2 (not_le.mp hbelow)
    rw [hdecide] at hfailed
    cases hfailed
  refine ⟨hopen, ?_, hspan, ?_⟩
  · rw [hbegun] at hchecked
    rw [hcommitted]
    exact hchecked
  · intro old hold
    rw [hkey] at hold
    have hdone := hfree old (by rw [hbegun]; exact hold)
    rcases sequential_rows hregister hdecide hold with hkept | ⟨-, hexpired, -⟩
    · rw [hmade, Option.some.injEq] at hkept
      rw [← hkept, hopen] at hdone
      cases hdone
    · rw [hcommitted]
      exact ⟨hdone, hexpired⟩

theorem sequential_shifts (hq : Quiet ledger)
    (hregister : ledger.register databaseTime scope key fingerprint = .ok (begun, request))
    (hdecide : begun.reserveWith request earlier = (decided, answer)) (call : WindowCall) :
    Shifts ledger (decided.finishIdempotencyCall request.mapKey request.call) call
      (.reserve answer) := by
  obtain ⟨-, -, hbegun⟩ := register_eq hregister
  have ha := reserveWith_answers begun request earlier
  have hd := reserveWith_decides begun request earlier
  rw [hdecide] at ha hd
  have hkeyed := (sequential_quiet hq hregister hdecide).keyed
  refine ⟨?_, ?_, ?_, ?_, ?_, ?_, by simp⟩
  · have hhigh := hd.highWater
    rw [hbegun] at hhigh
    exact hhigh
  · intro k row hrow
    by_cases hkept : decided.records.lookup k = some row
    · exact .inl hkept
    obtain ⟨hdone, hexpired, hnow⟩ :=
      (sequential_rows hregister hdecide hrow).resolve_left hkept
    refine .inr (.inl ⟨hdone, hexpired.trans hnow, fun new hnew => ?_⟩)
    rcases ha.origin k new hnew with hold | ⟨-, hmade⟩
    · rw [hbegun] at hold
      have hsame := hrow.symm.trans hold
      rw [Option.some.injEq] at hsame
      exact absurd (hsame ▸ hnew) hkept
    · refine ⟨created_reserve.mpr hmade, ?_⟩
      rw [(ha.created new hmade).1]
      exact hexpired
  · intro k row hnone hrow
    rcases ha.origin k row hrow with hold | ⟨-, hmade⟩
    · rw [hbegun] at hold
      cases hnone.symm.trans hold
    · exact created_reserve.mpr hmade
  · intro row hrow
    rw [created_reserve.mp hrow] at hdecide
    exact sequential_created hq hregister hdecide
  · intro row hrow
    have hheld := ha.value row hrow
    rw [← hkeyed _ _ hheld] at hheld
    exact hheld
  · intro row hreply
    obtain rfl := WindowReply.reserve.inj hreply
    have hheld := ha.value row rfl
    rw [← hkeyed _ _ hheld] at hheld
    refine ⟨ha.replay row rfl, ?_⟩
    rcases ha.origin _ row hheld with hold | ⟨-, hmade⟩
    · rw [hbegun] at hold
      exact hold
    · cases hmade

end Sequential

theorem reserve_shifts [Sha256] {ledger : IdempotencyLedger} (hq : Quiet ledger)
    (databaseTime : Int) (scope : IdempotencyScope) (key : String)
    (fingerprint : RequestFingerprint) :
    Quiet (ledger.reserve databaseTime scope key fingerprint).1 ∧
      Shifts ledger (ledger.reserve databaseTime scope key fingerprint).1
        (.reserve databaseTime scope key fingerprint)
        (.reserve (ledger.reserve databaseTime scope key fingerprint).2) := by
  unfold IdempotencyLedger.reserve
  cases hregister : ledger.register databaseTime scope key fingerprint with
  | error => exact ⟨hq, .refused ledger _ rfl⟩
  | ok registered =>
    obtain ⟨begun, request⟩ := registered
    rcases hdecide : begun.reserveRegistered request with ⟨decided, answer⟩
    dsimp only
    rw [hdecide]
    exact ⟨sequential_quiet hq hregister hdecide, sequential_shifts hq hregister hdecide _⟩

theorem complete_shifts {ledger : IdempotencyLedger} (hq : Quiet ledger)
    (reservation : Reservation) (result : ResultDigest) :
    Quiet (ledger.complete reservation result).1 ∧
      Shifts ledger (ledger.complete reservation result).1 (.complete reservation result)
        (.complete (ledger.complete reservation result).2) := by
  have hcompletes : ∀ row, (ledger.complete reservation result).2 = .ok row →
      Completes ledger (ledger.complete reservation result).1 row := by
    intro row hrow
    exact complete_ok hq.keyed (Prod.ext rfl hrow)
  have hgiven : ∀ row, (WindowReply.complete (ledger.complete reservation result).2).value =
      some row → (ledger.complete reservation result).1.records.lookup row.scopedKey =
        some row := by
    intro row hrow
    cases hanswer : (ledger.complete reservation result).2 with
    | error =>
      rw [hanswer] at hrow
      cases hrow
    | ok =>
      rw [hanswer] at hrow
      cases hrow
      exact (hcompletes row hanswer).held
  have hdone : ∀ row, WindowReply.complete (ledger.complete reservation result).2 =
      .complete (.ok row) → row.completed = true := by
    intro row hreply
    exact (hcompletes row (WindowReply.complete.inj hreply)).completed
  rcases complete_cases ledger reservation result with hsame | ⟨row, hrow, hopen, hwrite⟩
  · rw [hsame] at hgiven ⊢
    refine ⟨hq, le_refl _, fun _ _ hrow => .inl hrow, ?_, ?_, hgiven, ?_, hdone⟩
    · intro key row hnone hrow
      rw [hnone] at hrow
      cases hrow
    · rintro row ⟨⟩
    · rintro row ⟨⟩
  · rw [hwrite] at hgiven hdone ⊢
    have hkey : row.scopedKey = reservation.scopedKey := hq.keyed _ row hrow
    refine ⟨⟨hq.idle, hq.numbered, ?_⟩, le_refl _, ?_, ?_, ?_, hgiven, ?_, hdone⟩
    · intro key other hother
      rcases lookup_insert_eq_some.mp hother with ⟨rfl, rfl⟩ | ⟨-, hother⟩
      · exact hkey
      · exact hq.keyed key other hother
    · intro key other hother
      by_cases hsame : key = reservation.scopedKey
      · subst hsame
        rw [hrow, Option.some.injEq] at hother
        subst hother
        exact .inr (.inr ⟨hopen, reservation, result, rfl, rfl, AList.lookup_insert _⟩)
      · left
        rw [AList.lookup_insert_ne hsame]
        exact hother
    · intro key other hnone hother
      have hsame : key ≠ reservation.scopedKey := by
        rintro rfl
        rw [hrow] at hnone
        cases hnone
      rw [AList.lookup_insert_ne hsame, hnone] at hother
      cases hother
    · rintro other ⟨⟩
    · rintro other ⟨⟩

theorem window_shifts [Sha256] {ledger : IdempotencyLedger} (hq : Quiet ledger)
    (call : WindowCall) :
    Quiet (windowMachine.next ledger call) ∧
      Shifts ledger (windowMachine.next ledger call) call (windowMachine.step ledger call).2 := by
  cases call with
  | reserve databaseTime scope key fingerprint =>
    exact reserve_shifts hq databaseTime scope key fingerprint
  | complete reservation result => exact complete_shifts hq reservation result

/-! ## Lifetimes -/

variable {before : IdempotencyLedger} {call : WindowCall}
variable {after : IdempotencyLedger}

theorem Shifts.origin (h : Shifts before after call reply) {key : String}
    (hrow : after.records.lookup key = some row) :
    before.records.lookup key = some row ∨ reply.created = some row ∨
      ∃ old reservation result, before.records.lookup key = some old ∧ old.completed = false ∧
        call = .complete reservation result ∧ reply = .complete (.ok row) ∧
        row = old.bindResult result := by
  cases hold : before.records.lookup key with
  | none => exact .inr (.inl (h.fresh key row hold hrow))
  | some old =>
    rcases h.rows key old hold with hkept | ⟨-, -, hnew⟩ | ⟨hopen, reservation, result, hcall,
      hreply, hbound⟩
    · rw [hrow] at hkept
      exact .inl hkept.symm
    · exact .inr (.inl (hnew row hrow).1)
    · rw [hrow, Option.some.injEq] at hbound
      exact .inr (.inr ⟨old, reservation, result, rfl, hopen, hcall, hbound ▸ hreply, hbound⟩)

/-- The row of the value's key has the value's window. -/
def Current (ledger : IdempotencyLedger) (value : Reservation) : Prop :=
  ∃ row, ledger.records.lookup value.scopedKey = some row ∧
    row.committedAt = value.committedAt ∧ row.expiresAt = value.expiresAt

/-- The value's window is over, and whatever holds its key now began after it. -/
def Superseded (ledger : IdempotencyLedger) (value : Reservation) : Prop :=
  value.expiresAt ≤ ledger.highWater ∧
    ∀ row, ledger.records.lookup value.scopedKey = some row → value.expiresAt ≤ row.committedAt

variable {value : Reservation}

theorem Shifts.superseded (h : Shifts before after call reply) (hs : Superseded before value) :
    Superseded after value := by
  refine ⟨hs.1.trans h.highWater, fun row hrow => ?_⟩
  rcases h.origin hrow with hkept | hmade | ⟨old, -, result, hold, -, -, -, hbound⟩
  · exact hs.2 row hkept
  · exact hs.1.trans (h.created row hmade).2.1
  · rw [hbound]
    exact hs.2 old hold

theorem Shifts.current (h : Shifts before after call reply) (hc : Current before value) :
    Current after value ∨ Superseded after value := by
  obtain ⟨row, hrow, hcommitted, hexpires⟩ := hc
  rcases h.rows _ row hrow with hkept | ⟨-, hended, hnew⟩ | ⟨-, -, result, -, -, hbound⟩
  · exact .inl ⟨row, hkept, hcommitted, hexpires⟩
  · refine .inr ⟨hexpires ▸ hended, fun new hthere => ?_⟩
    rw [← hexpires]
    exact (hnew new hthere).2
  · exact .inl ⟨_, hbound, hcommitted, hexpires⟩

theorem value_of_created (h : reply.created = some row) : reply.value = some row := by
  cases reply with
  | complete => cases h
  | reserve =>
    rw [created_reserve] at h
    rw [h]
    rfl

/-- A new reservation of the key starts after the value's window, whether or not it is recorded. -/
theorem Shifts.replaces (h : Shifts before after call reply)
    (hv : Current before value ∨ Superseded before value) (hmade : reply.created = some row)
    (hkey : row.scopedKey = value.scopedKey) :
    value.expiresAt ≤ row.committedAt ∧ Superseded after value := by
  obtain ⟨hopen, hhigh, -, hfree⟩ := h.created row hmade
  have hheld := h.value row (value_of_created hmade)
  obtain ⟨hstart, hended⟩ : value.expiresAt ≤ row.committedAt ∧
      value.expiresAt ≤ after.highWater := by
    rcases hv with ⟨old, hold, -, hexpires⟩ | hs
    · rw [← hkey] at hold
      obtain ⟨hdone, hover⟩ := hfree old hold
      rw [← hexpires]
      refine ⟨hover, ?_⟩
      rcases h.rows _ old hold with hkept | ⟨-, hend, -⟩ | ⟨hopenOld, -⟩
      · rw [hheld, Option.some.injEq] at hkept
        rw [← hkept, hopen] at hdone
        cases hdone
      · exact hend
      · rw [hdone] at hopenOld
        cases hopenOld
    · exact ⟨hs.1.trans hhigh, hs.1.trans h.highWater⟩
  refine ⟨hstart, hended, fun other hother => ?_⟩
  rw [← hkey, hheld, Option.some.injEq] at hother
  rw [← hother]
  exact hstart

theorem complete_superseded {ledger : IdempotencyLedger} (hs : Superseded ledger value)
    (hspan : value.committedAt < value.expiresAt) (result : ResultDigest) :
    ∃ failure, ledger.complete value result = (ledger, .error failure) := by
  fun_cases IdempotencyLedger.complete ledger value result
  case case4 current hcurrent hsame _ _ | case6 current hcurrent hsame _ _ =>
    have hlater := hs.2 current hcurrent
    simp only [not_or, not_not] at hsame
    omega
  all_goals exact ⟨_, rfl⟩

theorem complete_missing {ledger : IdempotencyLedger}
    (hnone : ledger.records.lookup value.scopedKey = none) (result : ResultDigest) :
    ∃ failure, ledger.complete value result = (ledger, .error failure) := by
  unfold IdempotencyLedger.complete
  rw [hnone]
  split_ifs
  · exact ⟨_, rfl⟩
  · exact ⟨_, rfl⟩

/-! ## The register -/

abbrev WindowEntry := Entry IdempotencyLedger WindowCall WindowReply

def CreatesFor (key : String) (e : WindowEntry) : Prop :=
  ∃ row, e.output.created = some row ∧ row.scopedKey = key

def CompletesFor (key : String) (e : WindowEntry) : Prop :=
  ∃ row, e.output = .complete (.ok row) ∧ row.scopedKey = key

/-- No entry strictly between the two positions satisfies `P`. -/
def NoneBetween (entries : List WindowEntry) (i j : Nat) (P : WindowEntry → Prop) : Prop :=
  ∀ (n : Nat) e, i < n → n < j → entries[n]? = some e → ¬ P e

/-- The row was created at `i`, the last creation of its key before `k`, and either is still open
or carries the result of the first completion after `i`. -/
def Recorded (entries : List WindowEntry) (i k : Nat) (row : Reservation) : Prop :=
  ∃ creation created, i < k ∧ entries[i]? = some creation ∧ creation.output.created = some created ∧
    created.scopedKey = row.scopedKey ∧ NoneBetween entries i k (CreatesFor row.scopedKey) ∧
    (row = created ∧ row.completed = false ∧
        NoneBetween entries i k (CompletesFor row.scopedKey) ∨
      ∃ j completion reservation result, i < j ∧ j < k ∧ entries[j]? = some completion ∧
        completion.input = .complete reservation result ∧
        completion.output = .complete (.ok row) ∧ row = created.bindResult result ∧
        NoneBetween entries i j (CompletesFor row.scopedKey))

variable {e : WindowEntry}
variable {past : List WindowEntry}

theorem NoneBetween.concat {i : Nat} {P : WindowEntry → Prop} (h : NoneBetween past i past.length P)
    (he : ¬ P e) : NoneBetween (past ++ [e]) i (past ++ [e]).length P := by
  intro n x hin _ hx
  rcases getElem?_concat_eq_some.mp hx with hold | ⟨-, rfl⟩
  · exact h n x hin (List.getElem?_eq_some_iff.mp hold).1 hold
  · exact he

theorem NoneBetween.append {i j : Nat} {P : WindowEntry → Prop} (h : NoneBetween past i j P)
    (hj : j ≤ past.length) : NoneBetween (past ++ [e]) i j P := by
  intro n x hin hnj hx
  rw [List.getElem?_append_left (by omega)] at hx
  exact h n x hin hnj hx

theorem NoneBetween.last (past : List WindowEntry) (e : WindowEntry) (P : WindowEntry → Prop) :
    NoneBetween (past ++ [e]) past.length (past ++ [e]).length P := by
  intro n x hin hn _
  rw [List.length_append, List.length_singleton] at hn
  omega

theorem recorded_step [Sha256] {ledger : IdempotencyLedger} (call : WindowCall) (hq : Quiet ledger)
    (hrecord : ∀ key row, ledger.records.lookup key = some row → ∃ i, Recorded past i past.length
      row) {key : String} (hrow : (windowMachine.next ledger call).records.lookup key = some row) :
    ∃ i, Recorded (past ++ [windowMachine.entry ledger call]) i
      (past ++ [windowMachine.entry ledger call]).length row := by
  obtain ⟨hquiet, h⟩ := window_shifts hq call
  have hkey : row.scopedKey = key := hquiet.keyed key row hrow
  have hlast : (past ++ [windowMachine.entry ledger call])[past.length]? =
      some (windowMachine.entry ledger call) := by simp
  have hgrow : (past ++ [windowMachine.entry ledger call]).length = past.length + 1 := by simp
  have hkeep : ∀ {n : Nat} {x : WindowEntry}, past[n]? = some x →
      (past ++ [windowMachine.entry ledger call])[n]? = some x :=
    fun hx => getElem?_concat_eq_some.mpr (.inl hx)
  rcases h.origin hrow with hkept | hmade | ⟨old, reservation, result, hold, hopen, hcall, hreply,
    hbound⟩
  · -- the row stays, so this call neither creates nor completes one for its key
    obtain ⟨i, creation, created, hi, hat, hcreated, hsame, hnone, hstate⟩ := hrecord key row hkept
    have hnoCreate : ¬ CreatesFor row.scopedKey (windowMachine.entry ledger call) := by
      rintro ⟨new, hnew, hnewKey⟩
      obtain ⟨hnewOpen, -, -, hfree⟩ := h.created new hnew
      have hheld := h.value new (value_of_created hnew)
      rw [hnewKey, hkey, hrow, Option.some.injEq] at hheld
      rw [hnewKey, hkey] at hfree
      have hdone := (hfree row hkept).1
      rw [hheld, hnewOpen] at hdone
      cases hdone
    refine ⟨i, creation, created, by omega, hkeep hat, hcreated, hsame, hnone.concat hnoCreate, ?_⟩
    rcases hstate with ⟨heq, hopen, hfirst⟩ | ⟨j, completion, reservation, result, hij, hj, hatj,
      hinput, houtput, hbound, hfirst⟩
    · have hnoComplete : ¬ CompletesFor row.scopedKey (windowMachine.entry ledger call) := by
        rintro ⟨new, hnew, hnewKey⟩
        have hreply : (windowMachine.step ledger call).2 = .complete (.ok new) := hnew
        have hheld := h.value new (by rw [hreply]; rfl)
        rw [hnewKey, hkey, hrow, Option.some.injEq] at hheld
        have hdone := h.completed new hnew
        rw [← hheld, hopen] at hdone
        cases hdone
      exact .inl ⟨heq, hopen, hfirst.concat hnoComplete⟩
    · exact .inr ⟨j, completion, reservation, result, hij, by omega, hkeep hatj, hinput, houtput,
        hbound, hfirst.append hj.le⟩
  · exact ⟨past.length, _, row, by omega, hlast, hmade, rfl, .last past _ _,
      .inl ⟨rfl, (h.created row hmade).1, .last past _ _⟩⟩
  · -- this call is the first completion of an open row
    obtain ⟨i, creation, created, hi, hat, hcreated, hsame, hnone, hstate⟩ := hrecord key old hold
    have hkeys : old.scopedKey = row.scopedKey := by
      rw [hbound]
      rfl
    have hnoCreate : ¬ CreatesFor row.scopedKey (windowMachine.entry ledger call) := by
      rintro ⟨new, hnew, -⟩
      rw [show (windowMachine.entry ledger call).output = _ from hreply] at hnew
      cases hnew
    rw [hkeys] at hsame hnone hstate
    refine ⟨i, creation, created, by omega, hkeep hat, hcreated, hsame, hnone.concat hnoCreate, ?_⟩
    rcases hstate with ⟨heq, -, hfirst⟩ | ⟨j, completion, reservation, earlier, hij, hj, hatj,
      hinput, houtput, hdone, hfirst⟩
    · exact .inr ⟨past.length, _, reservation, result, by omega, by omega, hlast, hcall, hreply,
        heq ▸ hbound, hfirst.append (le_refl _)⟩
    · rw [hdone] at hopen
      cases hopen

/-! ## Every sequence of calls -/

/-- What a record of calls shows of a window register. -/
structure WindowRegister (entries : List WindowEntry) : Prop where
  spans : ∀ e ∈ entries, ∀ row, e.output.created = some row → row.committedAt < row.expiresAt
  ordered : ∀ (i j : Nat) first second row later, i < j → entries[i]? = some first →
    entries[j]? = some second → first.output.created = some row →
    second.output.created = some later → later.scopedKey = row.scopedKey →
    row.expiresAt ≤ later.committedAt
  /-- A replay returns the key's last reservation with the result of its first completion. -/
  replayed : ∀ (k : Nat) e row, entries[k]? = some e → e.output = .reserve (.ok (row, .replay)) →
    ∃ (i j : Nat) (creation completion : WindowEntry) (created reservation : Reservation)
      (result : ResultDigest), i < j ∧ j < k ∧
      entries[i]? = some creation ∧ creation.output.created = some created ∧
      entries[j]? = some completion ∧ completion.input = .complete reservation result ∧
      completion.output = .complete (.ok row) ∧ row = created.bindResult result ∧
      NoneBetween entries i k (CreatesFor row.scopedKey) ∧
      NoneBetween entries i j (CompletesFor row.scopedKey)
  /-- A completed row stays as it is until it is reclaimed or its key is reserved anew. -/
  settled : ∀ e ∈ entries, ∀ key row, e.before.records.lookup key = some row →
    row.completed = true → e.after.records.lookup key = some row ∨
      e.after.records.lookup key = none ∨
      ∃ later, e.output.created = some later ∧ e.after.records.lookup key = some later ∧
        row.expiresAt ≤ later.committedAt
  /-- A value handed out for an earlier lifetime of its key completes nothing. -/
  stale : ∀ (i k : Nat) giving late reservation result, i < k → entries[i]? = some giving →
    giving.output.value = some reservation → entries[k]? = some late →
    late.input = .complete reservation result →
    ((∃ (j : Nat) (e : WindowEntry), i < j ∧ j < k ∧ entries[j]? = some e ∧
        CreatesFor reservation.scopedKey e) ∨
      late.before.records.lookup reservation.scopedKey = none) →
    (∃ failure, late.output = .complete (.error failure)) ∧ late.after = late.before

/-- Between calls every row has its window. -/
structure Standing (ledger : IdempotencyLedger) : Prop where
  quiet : Quiet ledger
  spans : ∀ key row, ledger.records.lookup key = some row → row.committedAt < row.expiresAt

theorem standing_step [Sha256] (ledger : IdempotencyLedger) (call : WindowCall)
    (hs : Standing ledger) : Standing (windowMachine.next ledger call) := by
  obtain ⟨hquiet, h⟩ := window_shifts hs.quiet call
  refine ⟨hquiet, fun key row hrow => ?_⟩
  rcases h.origin hrow with hkept | hmade | ⟨old, -, result, hold, -, -, -, hbound⟩
  · exact hs.spans key row hkept
  · exact (h.created row hmade).2.2.1
  · rw [hbound]
    exact hs.spans key old hold

theorem newIdempotencyLedger_standing {maximum : Int} {ledger : IdempotencyLedger}
    (h : newIdempotencyLedger maximum = .ok ledger) : Standing ledger := by
  unfold newIdempotencyLedger at h
  split_ifs at h
  all_goals
    rw [← Except.ok.inj h]
    refine ⟨⟨fun _ => rfl, le_refl _, ?_⟩, ?_⟩
    · rintro key row ⟨⟩
    · rintro key row ⟨⟩

section Runs

variable [Sha256] {ledger : IdempotencyLedger} (hs : Standing ledger) (calls : List WindowCall)
include hs

theorem window_entry (he : e ∈ windowMachine.trace ledger calls) :
    Standing e.before ∧ Standing e.after ∧ Shifts e.before e.after e.input e.output ∧
      e = windowMachine.entry e.before e.input := by
  obtain ⟨hbefore, hentry⟩ := trace_invariant windowMachine standing_step hs he
  have hafter := standing_step e.before e.input hbefore
  have hshifts := (window_shifts hbefore.quiet e.input).2
  have h : Standing (windowMachine.entry e.before e.input).after ∧
      Shifts (windowMachine.entry e.before e.input).before
        (windowMachine.entry e.before e.input).after
        (windowMachine.entry e.before e.input).input
        (windowMachine.entry e.before e.input).output := ⟨hafter, hshifts⟩
  rw [← hentry] at h
  exact ⟨hbefore, h.1, h.2, hentry⟩

theorem given_kept {i k : Nat} {giving late : WindowEntry} {value : Reservation} (hik : i < k)
    (hi : (windowMachine.trace ledger calls)[i]? = some giving)
    (hk : (windowMachine.trace ledger calls)[k]? = some late)
    (hvalue : Current giving.after value ∨ Superseded giving.after value) :
    Current late.before value ∨ Superseded late.before value := by
  obtain ⟨-, hgiving, -, -⟩ := window_entry hs calls (List.mem_of_getElem? hi)
  obtain ⟨mid, hbefore, -⟩ := trace_between _ hik hi hk
  rw [hbefore]
  have hkept := exec_invariant windowMachine (P := fun ledger => Standing ledger ∧
    (Current ledger value ∨ Superseded ledger value)) (fun state call hstate => ?_)
    ⟨hgiving, hvalue⟩ mid
  · exact hkept.2
  · have h := (window_shifts hstate.1.quiet call).2
    refine ⟨standing_step state call hstate.1, ?_⟩
    rcases hstate.2 with hcurrent | hsuperseded
    · exact h.current hcurrent
    · exact .inr (h.superseded hsuperseded)

theorem superseded_kept {j k : Nat} {late : WindowEntry} {value : Reservation} (hjk : j < k)
    (hj : (windowMachine.trace ledger calls)[j]? = some e)
    (hk : (windowMachine.trace ledger calls)[k]? = some late) (hvalue : Superseded e.after value) :
    Superseded late.before value := by
  obtain ⟨-, hafter, -, -⟩ := window_entry hs calls (List.mem_of_getElem? hj)
  obtain ⟨mid, hbefore, -⟩ := trace_between _ hjk hj hk
  rw [hbefore]
  have hkept := exec_invariant windowMachine (P := fun ledger => Standing ledger ∧
    Superseded ledger value) (fun state call hstate => ?_) ⟨hafter, hvalue⟩ mid
  · exact hkept.2
  · have h := (window_shifts hstate.1.quiet call).2
    exact ⟨standing_step state call hstate.1, h.superseded hstate.2⟩

theorem given_current {giving : WindowEntry} (hi : giving ∈ windowMachine.trace ledger calls)
    {value : Reservation} (hvalue : giving.output.value = some value) :
    Current giving.after value :=
  ⟨value, (window_entry hs calls hi).2.2.1.value value hvalue, rfl, rfl⟩

theorem given_replaced {i j : Nat} {giving creation : WindowEntry} {value row : Reservation}
    (hij : i < j) (hi : (windowMachine.trace ledger calls)[i]? = some giving)
    (hvalue : giving.output.value = some value)
    (hj : (windowMachine.trace ledger calls)[j]? = some creation)
    (hmade : creation.output.created = some row) (hkey : row.scopedKey = value.scopedKey) :
    value.expiresAt ≤ row.committedAt ∧ Superseded creation.after value := by
  have hcurrent := given_current hs calls (List.mem_of_getElem? hi) hvalue
  have hbefore := given_kept hs calls hij hi hj (.inl hcurrent)
  obtain ⟨-, -, h, -⟩ := window_entry hs calls (List.mem_of_getElem? hj)
  exact h.replaces hbefore hmade hkey

end Runs

theorem recorded_at [Sha256] {ledger : IdempotencyLedger} (hs : Standing ledger)
    (hempty : ledger.records = ∅) {calls : List WindowCall} {k : Nat}
    (hk : (windowMachine.trace ledger calls)[k]? = some e) {key : String}
    (hrow : e.before.records.lookup key = some row) :
    ∃ i, Recorded (windowMachine.trace ledger calls) i k row := by
  have hrecord := record_before windowMachine
    (P := fun past ledger => Standing ledger ∧ ∀ key row, ledger.records.lookup key = some row →
      ∃ i, Recorded past i past.length row) (s := ledger)
    ⟨hs, by intro key row hrow; rw [hempty] at hrow; cases hrow⟩
    (fun past state call hstate => ⟨standing_step state call hstate.1, fun key row hrow =>
      recorded_step call hstate.1.quiet hstate.2 hrow⟩) hk
  have hlt : k < (windowMachine.trace ledger calls).length := (List.getElem?_eq_some_iff.mp hk).1
  obtain ⟨i, creation, created, hi, hat, hcreated, hsame, hnone, hstate⟩ :=
    hrecord.2 key row hrow
  rw [List.length_take, Nat.min_eq_left hlt.le] at hi hnone hstate
  -- below position `k` the record of the first `k` calls is the whole record
  have hlift : ∀ {i j : Nat} {P : WindowEntry → Prop}, j ≤ k →
      NoneBetween ((windowMachine.trace ledger calls).take k) i j P →
      NoneBetween (windowMachine.trace ledger calls) i j P := by
    intro i j P hjk hbetween n x hin hnj hx
    exact hbetween n x hin hnj (getElem?_take_eq_some.mpr ⟨by omega, hx⟩)
  refine ⟨i, creation, created, hi, (getElem?_take_eq_some.mp hat).2, hcreated, hsame,
    hlift (le_refl k) hnone, ?_⟩
  rcases hstate with ⟨heq, hopen, hfirst⟩ | ⟨j, completion, reservation, result, hij, hj, hatj,
    hinput, houtput, hbound, hfirst⟩
  · exact .inl ⟨heq, hopen, hlift (le_refl k) hfirst⟩
  · exact .inr ⟨j, completion, reservation, result, hij, hj, (getElem?_take_eq_some.mp hatj).2,
      hinput, houtput, hbound, hlift hj.le hfirst⟩

/-- Calls on a new ledger that do not overlap see a window register. -/
theorem idempotency_window_register [Sha256] {maximum : Int} {ledger : IdempotencyLedger}
    (hnew : newIdempotencyLedger maximum = .ok ledger) (calls : List WindowCall) :
    WindowRegister (windowMachine.trace ledger calls) := by
  have hs := newIdempotencyLedger_standing hnew
  have hempty : ledger.records = ∅ := by
    unfold newIdempotencyLedger at hnew
    split_ifs at hnew
    all_goals rw [← Except.ok.inj hnew]
  refine ⟨?_, ?_, ?_, ?_, ?_⟩
  · intro e he row hmade
    exact ((window_entry hs calls he).2.2.1.created row hmade).2.2.1
  · intro i j first second row later hij hi hj hrow hlater hkey
    exact (given_replaced hs calls hij hi (value_of_created hrow) hj hlater hkey).1
  · intro k e row hk hreplay
    obtain ⟨-, -, h, -⟩ := window_entry hs calls (List.mem_of_getElem? hk)
    obtain ⟨hdone, hheld⟩ := h.replay row hreplay
    obtain ⟨i, creation, created, -, hat, hcreated, -, hnone, hstate⟩ :=
      recorded_at hs hempty hk hheld
    rcases hstate with ⟨-, hopen, -⟩ | ⟨j, completion, reservation, result, hij, hjk, hatj,
      hinput, houtput, hbound, hfirst⟩
    · rw [hdone] at hopen
      cases hopen
    · exact ⟨i, j, creation, completion, created, reservation, result, hij, hjk, hat, hcreated,
        hatj, hinput, houtput, hbound, hnone, hfirst⟩
  · intro e he key row hrow hdone
    obtain ⟨-, -, h, -⟩ := window_entry hs calls he
    rcases h.rows key row hrow with hkept | ⟨-, -, hnext⟩ | ⟨hopen, -⟩
    · exact .inl hkept
    · cases hafter : e.after.records.lookup key with
      | none => exact .inr (.inl rfl)
      | some later => exact .inr (.inr ⟨later, (hnext later hafter).1, rfl, (hnext later hafter).2⟩)
    · rw [hdone] at hopen
      cases hopen
  · intro i k giving late reservation result hik hi hvalue hk hinput hgone
    obtain ⟨-, -, -, hentry⟩ := window_entry hs calls (List.mem_of_getElem? hk)
    have hfails : ∃ failure, late.before.complete reservation result =
        (late.before, .error failure) := by
      rcases hgone with ⟨j, e, hij, hjk, hj, row, hmade, hkey⟩ | hmissing
      · obtain ⟨-, hsuperseded⟩ := given_replaced hs calls hij hi hvalue hj hmade hkey
        have hlate := superseded_kept hs calls hjk hj hk hsuperseded
        obtain ⟨-, hstanding, h, -⟩ := window_entry hs calls (List.mem_of_getElem? hi)
        exact complete_superseded hlate (hstanding.spans _ _ (h.value reservation hvalue)) result
      · exact complete_missing hmissing result
    obtain ⟨failure, hfailed⟩ := hfails
    have hstep : windowMachine.step late.before late.input =
        (late.before, .complete (.error failure)) := by
      rw [hinput]
      change (let (after, answer) := late.before.complete reservation result
        (after, WindowReply.complete answer)) = _
      rw [hfailed]
    refine ⟨⟨failure, ?_⟩, ?_⟩
    · rw [hentry]
      exact congrArg Prod.snd hstep
    · rw [hentry]
      exact congrArg Prod.fst hstep

/-- A key is reserved, completed, reclaimed for another key and reserved again under the same
epoch number; then the first reservation comes back to complete. -/
def reclaimedKeyCalls [Sha256] : List WindowCall :=
  let start := 1 * second
  let next := start + httpIdempotencyWindow
  [.reserve start (sampleScope 1) sampleKey sampleRequest,
    .complete (reservationAt (sampleScope 1) start) sampleResult,
    .reserve next (sampleScope 2) sampleKey sampleRequest,
    .complete (reservationAt (sampleScope 2) next) sampleResult,
    .reserve (next + httpIdempotencyWindow) (sampleScope 1) sampleKey sampleRequest,
    .complete (reservationAt (sampleScope 1) start) sampleResult]

attribute [local instance] plainSha256

theorem idempotency_window_register_reclaimed :
    ∃ ledger, newIdempotencyLedger 1 = .ok ledger ∧
      (windowMachine.trace ledger reclaimedKeyCalls).map (fun e => e.output) =
        [.reserve (.ok (reservationAt (sampleScope 1) (1 * second), .reserved)),
          .complete (.ok (reservationAt (sampleScope 1) (1 * second)).done),
          .reserve (.ok (reservationAt (sampleScope 2) (1 * second + httpIdempotencyWindow),
            .reserved)),
          .complete (.ok (reservationAt (sampleScope 2) (1 * second + httpIdempotencyWindow)).done),
          .reserve (.ok (reservationAt (sampleScope 1)
            (1 * second + httpIdempotencyWindow + httpIdempotencyWindow), .reserved)),
          .complete (.error [.reservationLost])] ∧
      WindowRegister (windowMachine.trace ledger reclaimedKeyCalls) := by
  have hnew : newIdempotencyLedger 1 = .ok ⟨true, 1, 2, 0, 0, 0, ∅, ∅, ∅, 0⟩ := rfl
  exact ⟨_, hnew, by decide +kernel, idempotency_window_register hnew reclaimedKeyCalls⟩

end Veer.Reconcile
