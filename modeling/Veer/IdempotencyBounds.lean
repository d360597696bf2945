import Veer.IdempotencyWindow

/-!
# The idempotency ledger is bounded and keeps open work

The ledger lock guards records and epochs, the activity lock the registry of live calls. A decision
holds the first and takes the second once for every row it asks about, so calls may join and leave
the registry while it runs. Here the answers of the registry are an input of the decision; every
interleaving gives some answers, and what is shown holds for all of them.
-/
namespace Veer.Reconcile

open StepMachine ListHeap

/-! ## What a decision keeps -/

variable (ledger : IdempotencyLedger)

/-- The epochs of the keys are the epochs of their rows. -/
def IdempotencyLedger.EpochsMatch (ledger : IdempotencyLedger) : Prop :=
  ∀ key, ledger.keyState.lookup key = (ledger.records.lookup key).map Reservation.epoch

/-- A part of a decision: the registry stays, bounds and epochs are kept, and so is open work. -/
structure Retains (before after : IdempotencyLedger) : Prop where
  maximum : after.maximum = before.maximum
  activeLimit : after.activeLimit = before.activeLimit
  nextCall : after.nextCall = before.nextCall
  active : after.active = before.active
  activeCount : after.activeCount = before.activeCount
  size : before.records.keys.length ≤ before.maximum → after.records.keys.length ≤ before.maximum
  epochs : before.EpochsMatch → after.EpochsMatch
  uncompleted : ∀ key row, before.records.lookup key = some row → row.completed = false →
    after.records.lookup key = some row

theorem Retains.refl : Retains ledger ledger :=
  ⟨rfl, rfl, rfl, rfl, rfl, id, id, fun _ _ hrow _ => hrow⟩

theorem Retains.trans {a b c : IdempotencyLedger} (h : Retains a b) (h' : Retains b c) :
    Retains a c where
  maximum := h'.maximum.trans h.maximum
  activeLimit := h'.activeLimit.trans h.activeLimit
  nextCall := h'.nextCall.trans h.nextCall
  active := h'.active.trans h.active
  activeCount := h'.activeCount.trans h.activeCount
  size hsize := by
    have hb := h'.size (by rw [h.maximum]; exact h.size hsize)
    rwa [h.maximum] at hb
  epochs := h'.epochs ∘ h.epochs
  uncompleted key row hrow hopen := h'.uncompleted key row (h.uncompleted key row hrow hopen) hopen

theorem Retains.live {before after : IdempotencyLedger} (h : Retains before after) (key : String) :
    after.live key = before.live key := by
  unfold IdempotencyLedger.live
  rw [h.active]

theorem raiseHighWater_retains (now : Int) :
    Retains ledger (ledger.raiseHighWater now) := by
  unfold IdempotencyLedger.raiseHighWater
  split_ifs
  · exact ⟨rfl, rfl, rfl, rfl, rfl, id, id, fun _ _ hrow _ => hrow⟩
  · exact .refl ledger

theorem observe_retains (call : IdempotencyCall) :
    Retains ledger (ledger.observeIdempotencyTimeLocked call).1 := by
  have hnumbered : Retains ledger { ledger with lastCall := call.sequence } :=
    ⟨rfl, rfl, rfl, rfl, rfl, id, id, fun _ _ hrow _ => hrow⟩
  fun_cases IdempotencyLedger.observeIdempotencyTimeLocked ledger call
  case case1 => exact raiseHighWater_retains ledger call.observedAt
  case case2 => exact hnumbered
  case case3 => exact hnumbered.trans (raiseHighWater_retains _ _)

theorem reclaim_retains (now : Int) (earlier : String → Bool) :
    Retains ledger (ledger.reclaimExpiredCompletedLocked now earlier) := by
  refine ⟨rfl, rfl, rfl, rfl, rfl, ?_, ?_, ?_⟩
  · intro hsize
    exact (length_foldl_erase_le _ ledger.records).trans hsize
  · intro hmatch key
    rw [lookup_reclaim]
    change (List.foldl _ ledger.keyState _).lookup key = _
    rw [lookup_foldl_erase, hmatch key]
    cases hrow : ledger.records.lookup key with
    | none => split_ifs <;> rfl
    | some row =>
      rw [Option.filter_some]
      by_cases hdrop : (row.completed && decide (row.expiresAt ≤ now) && !earlier key) = true
      · rw [if_pos (mem_keys_filter.mpr ⟨row, hrow, hdrop⟩), if_neg (by simp [hdrop])]
        rfl
      rw [if_neg, if_pos (by rw [Bool.eq_false_of_not_eq_true hdrop]; rfl)]
      intro hmem
      obtain ⟨other, hother, hgone⟩ := mem_keys_filter.mp hmem
      rw [hrow, Option.some.injEq] at hother
      exact hdrop (hother ▸ hgone)
  · intro key row hrow hopen
    rw [lookup_reclaim, hrow, Option.filter_some, if_pos]
    simp [hopen]

theorem reclaimed_retains (now : Int) (earlier : String → Bool)
    (full : Prop) [Decidable full] :
    Retains ledger (if full then ledger.reclaimExpiredCompletedLocked now earlier else ledger) ∧
      ∀ key, ledger.records.lookup key = none →
        (if full then ledger.reclaimExpiredCompletedLocked now earlier else ledger).records.lookup key = none := by
  split_ifs
  · refine ⟨reclaim_retains ledger now earlier, fun key hnone => ?_⟩
    rw [lookup_reclaim, hnone]
    rfl
  · exact ⟨.refl ledger, fun _ hnone => hnone⟩

/-- A Reserved answer: the new row is there, and no open row stood in its place. -/
structure Reserves (before after : IdempotencyLedger) (request : RegisteredCall)
    (row : Reservation) : Prop where
  created : after.records.lookup request.mapKey = some row
  scopedKey : row.scopedKey = request.mapKey
  uncompleted : row.completed = false
  free : ∀ old, before.records.lookup request.mapKey = some old → old.completed = true

theorem createReservation_retains (request : RegisteredCall)
    (epoch : Option Nat)
    (hfree : ∀ old, ledger.records.lookup request.mapKey = some old → old.completed = true)
    (hroom : ledger.records.lookup request.mapKey = none →
      ledger.records.keys.length < ledger.maximum) :
    Retains ledger (ledger.createReservation request epoch).1 ∧
      ∀ row, (ledger.createReservation request epoch).2 = .ok (row, .reserved) →
        Reserves ledger (ledger.createReservation request epoch).1 request row := by
  fun_cases IdempotencyLedger.createReservation ledger request epoch
  case case1 | case2 => exact ⟨.refl ledger, by simp⟩
  case case3 epoch created hcreated =>
    obtain ⟨hscope, hkeyDigest, hopen⟩ := newReservation_ok hcreated
    refine ⟨⟨rfl, rfl, rfl, rfl, rfl, ?_, ?_, ?_⟩, ?_⟩
    · intro hsize
      rw [length_keys_insert]
      split_ifs with hsome
      · exact hsize
      · exact hroom (Option.not_isSome_iff_eq_none.mp hsome)
    · intro hmatch key
      by_cases hkey : key = request.mapKey
      · subst hkey
        rw [AList.lookup_insert, AList.lookup_insert]
        rfl
      · rw [AList.lookup_insert_ne hkey, AList.lookup_insert_ne hkey]
        exact hmatch key
    · intro key row hrow hrowOpen
      have hkey : key ≠ request.mapKey := by
        rintro rfl
        have hdone := hfree row hrow
        rw [hrowOpen] at hdone
        cases hdone
      simp only [AList.lookup_insert_ne hkey]
      exact hrow
    · intro row hrow
      simp only [Except.ok.injEq, Prod.mk.injEq, and_true] at hrow
      subst hrow
      refine ⟨AList.lookup_insert _, ?_, hopen, hfree⟩
      rw [Reservation.scopedKey, hscope, hkeyDigest]
      rfl

theorem reserveWith_spec (request : RegisteredCall)
    (earlier : String → Bool) :
    Retains ledger (ledger.reserveWith request earlier).1 ∧
      ∀ row, (ledger.reserveWith request earlier).2 = .ok (row, .reserved) →
        Reserves ledger (ledger.reserveWith request earlier).1 request row := by
  have hobserve : ∀ {observed result},
      ledger.observeIdempotencyTimeLocked request.call = (observed, result) →
      Retains ledger observed ∧ observed.records = ledger.records := by
    intro observed result h
    have hretains := observe_retains ledger request.call
    rw [h] at hretains
    exact ⟨hretains, (observe_spec h).1⟩
  fun_cases IdempotencyLedger.reserveWith ledger request earlier
  case case7 observed hobserved now state current hcurrent hcompleted hexpired hearlier =>
    obtain ⟨hretains, hrecords⟩ := hobserve hobserved
    have hdone : ∀ old, observed.records.lookup request.mapKey = some old →
        old.completed = true := by
      intro old hold
      rw [hcurrent, Option.some.injEq] at hold
      rw [← hold]
      simpa using hcompleted
    have hcreate := createReservation_retains observed request (nextEpoch (some (state.getD 0)))
      hdone (by simp [hcurrent])
    refine ⟨hretains.trans hcreate.1, fun row hrow => ?_⟩
    obtain ⟨hmade, hkey, hopen, hfree⟩ := hcreate.2 row hrow
    exact ⟨hmade, hkey, hopen, hrecords ▸ hfree⟩
  case case8 observed hobserved now hnone reclaimed hfull =>
    have hswept := reclaimed_retains observed now earlier
      (observed.maximum ≤ observed.records.keys.length)
    exact ⟨(hobserve hobserved).1.trans hswept.1, by simp⟩
  case case9 observed hobserved now state hnone reclaimed hroom =>
    obtain ⟨hretains, hrecords⟩ := hobserve hobserved
    obtain ⟨hswept, habsent⟩ := reclaimed_retains observed now earlier
      (observed.maximum ≤ observed.records.keys.length)
    have hmissing : reclaimed.records.lookup request.mapKey = none := habsent _ hnone
    have hcreate := createReservation_retains reclaimed request (nextEpoch state)
      (by simp [hmissing]) (fun _ => not_le.mp hroom)
    refine ⟨(hretains.trans hswept).trans hcreate.1, fun row hrow => ?_⟩
    obtain ⟨hmade, hkey, hopen, -⟩ := hcreate.2 row hrow
    refine ⟨hmade, hkey, hopen, fun old hold => ?_⟩
    rw [hrecords, hold] at hnone
    cases hnone
  all_goals exact ⟨(hobserve ‹_›).1, by simp⟩

/-! ## Interleaved calls and the registry -/

/-- A call of `Reserve`, from its registration on. -/
structure LiveCall where
  request : RegisteredCall
  decided : Bool
  finished : Bool

structure RegistryRun where
  ledger : IdempotencyLedger
  calls : List LiveCall

/-- The atomic steps of `Reserve` and `Complete`; a decision comes with the registry's answers. -/
inductive RegistryCall
  | register (databaseTime : Int) (scope : IdempotencyScope) (key : String)
      (fingerprint : RequestFingerprint)
  | decide (position : Nat) (earlier : String → Bool)
  | finish (position : Nat)
  | complete (reservation : Reservation) (result : ResultDigest)

def registryStep [Sha256] (run : RegistryRun) : RegistryCall → RegistryRun × LedgerReply
  | .register databaseTime scope key fingerprint =>
    match run.ledger.register databaseTime scope key fingerprint with
    | .error _ => (run, .refused)
    | .ok (ledger, request) =>
      ({ ledger := ledger, calls := run.calls ++ [⟨request, false, false⟩] }, .registered)
  | .decide position earlier =>
    match run.calls[position]? with
    | none => (run, .refused)
    | some call =>
      if call.decided then (run, .refused)
      else
        let (ledger, answer) := run.ledger.reserveWith call.request earlier
        ({ ledger := ledger
           calls := run.calls.modify position fun call => { call with decided := true } },
          .answered answer)
  | .finish position =>
    match run.calls[position]? with
    | none => (run, .refused)
    | some call =>
      if !call.decided || call.finished then (run, .refused)
      else
        ({ ledger := run.ledger.finishIdempotencyCall call.request.mapKey call.request.call
           calls := run.calls.modify position fun call => { call with finished := true } },
          .finished)
  | .complete reservation result =>
    match run.ledger.complete reservation result with
    | (ledger, .error _) => ({ run with ledger := ledger }, .refused)
    | (ledger, .ok row) => ({ run with ledger := ledger }, .completed row)

def registryMachine [Sha256] : Machine RegistryRun RegistryCall LedgerReply := ⟨registryStep⟩

/-- The number of calls in the registry. -/
def IdempotencyLedger.registered (ledger : IdempotencyLedger) : Nat :=
  (ledger.active.entries.map fun entry => entry.2.length).sum

/-- The registered requests, each with whether its call has returned. -/
def RegistryRun.phases (run : RegistryRun) : List (RegisteredCall × Bool) :=
  run.calls.map fun call => (call.request, call.finished)

/-- The calls in progress are exactly the registered ones, and the bounds hold. -/
structure RegistryRun.Bounded (run : RegistryRun) : Prop where
  size : run.ledger.records.keys.length ≤ run.ledger.maximum
  epochs : run.ledger.EpochsMatch
  counted : run.ledger.activeCount = run.ledger.registered
  limited : run.ledger.activeCount ≤ run.ledger.activeLimit
  inProgress : run.ledger.activeCount = run.phases.countP fun phase => !phase.2
  live : ∀ request, (request, false) ∈ run.phases → request.call ∈ run.ledger.live request.mapKey
  numbered : ∀ phase ∈ run.phases, phase.1.call.sequence ≤ run.ledger.nextCall
  distinct : (run.phases.map fun phase => phase.1.call.sequence).Nodup

variable {run : RegistryRun}

theorem RegistryRun.Bounded.retain {after : RegistryRun} (hb : run.Bounded)
    (h : Retains run.ledger after.ledger) (hphases : after.phases = run.phases) : after.Bounded where
  size := by
    rw [h.maximum]
    exact h.size hb.size
  epochs := h.epochs hb.epochs
  counted := by
    rw [h.activeCount, hb.counted, IdempotencyLedger.registered, IdempotencyLedger.registered,
      h.active]
  limited := by
    rw [h.activeCount, h.activeLimit]
    exact hb.limited
  inProgress := by
    rw [h.activeCount, hphases]
    exact hb.inProgress
  live request hmem := by
    rw [hphases] at hmem
    rw [h.live]
    exact hb.live request hmem
  numbered := by
    rw [hphases, h.nextCall]
    exact hb.numbered
  distinct := by
    rw [hphases]
    exact hb.distinct

/-! ### Registration and return -/

variable {key : String}

theorem sum_length_insert (active : AList fun _ : String => List IdempotencyCall) (key : String)
    (calls : List IdempotencyCall) :
    ((active.insert key calls).entries.map fun entry => entry.2.length).sum +
        ((active.lookup key).getD []).length =
      (active.entries.map fun entry => entry.2.length).sum + calls.length := by
  cases hold : active.lookup key with
  | none =>
    rw [sum_entries_insert_of_none hold]
    simp only [Option.getD_none, List.length_nil]
    omega
  | some => exact sum_entries_insert_of_some hold calls _

theorem sum_length_erase {active : AList fun _ : String => List IdempotencyCall}
    {calls : List IdempotencyCall} (h : active.lookup key = some calls) :
    ((active.erase key).entries.map fun entry => entry.2.length).sum + calls.length =
      (active.entries.map fun entry => entry.2.length).sum :=
  sum_entries_erase h _

theorem registered_finish {ledger : IdempotencyLedger} {mapKey : String} {call : IdempotencyCall}
    (hlive : call ∈ ledger.live mapKey) :
    (ledger.finishIdempotencyCall mapKey call).registered + 1 = ledger.registered := by
  have hlength : ((ledger.live mapKey).erase call).length + 1 = (ledger.live mapKey).length := by
    rw [List.length_erase_of_mem hlive]
    have hpos := List.length_pos_of_mem hlive
    omega
  cases hlookup : ledger.active.lookup mapKey with
  | none => simp [IdempotencyLedger.live, hlookup] at hlive
  | some calls =>
    have hcalls : ledger.live mapKey = calls := by simp [IdempotencyLedger.live, hlookup]
    have hinsert := sum_length_insert ledger.active mapKey ((ledger.live mapKey).erase call)
    have herase := sum_length_erase hlookup
    rw [hlookup, Option.getD_some] at hinsert
    rw [hcalls] at hlength hinsert
    unfold IdempotencyLedger.registered IdempotencyLedger.finishIdempotencyCall
    rw [hcalls]
    dsimp only
    split_ifs with hempty
    · rw [List.isEmpty_iff.mp hempty] at hlength
      simp only [List.length_nil] at hlength
      omega
    · omega

theorem register_bounded [Sha256] (hb : run.Bounded) {databaseTime : Int} {scope : IdempotencyScope}
    {fingerprint : RequestFingerprint} {begun : IdempotencyLedger} {request : RegisteredCall}
    (h : run.ledger.register databaseTime scope key fingerprint = .ok (begun, request)) :
    RegistryRun.Bounded ⟨begun, run.calls ++ [⟨request, false, false⟩]⟩ := by
  obtain ⟨⟨hroom, -⟩, hsequence, hbegun⟩ := register_eq h
  have hphases : RegistryRun.phases ⟨begun, run.calls ++ [⟨request, false, false⟩]⟩ =
      run.phases ++ [(request, false)] := by
    simp [RegistryRun.phases]
  refine ⟨?_, ?_, ?_, ?_, ?_, ?_, ?_, ?_⟩
  · rw [hbegun]
    exact hb.size
  · rw [hbegun]
    exact hb.epochs
  · have hsum := sum_length_insert run.ledger.active request.mapKey
      (request.call :: run.ledger.live request.mapKey)
    have hcounted := hb.counted
    rw [IdempotencyLedger.registered] at hcounted
    rw [List.length_cons] at hsum
    rw [hbegun]
    unfold IdempotencyLedger.registered
    dsimp only
    change _ + (run.ledger.live request.mapKey).length = _ at hsum
    omega
  · rw [hbegun]
    exact hroom
  · rw [hphases, List.countP_append, hbegun]
    rw [hb.inProgress]
    rfl
  · intro other hmem
    rw [hphases] at hmem
    rw [register_live h]
    rcases List.mem_append.mp hmem with hold | hnew
    · have hin := hb.live other hold
      split_ifs
      · exact List.mem_cons_of_mem _ hin
      · exact hin
    · rw [List.mem_singleton, Prod.mk.injEq] at hnew
      rw [hnew.1, if_pos rfl]
      exact List.mem_cons_self
  · rw [hphases, hbegun]
    intro phase hmem
    rcases List.mem_append.mp hmem with hold | hnew
    · exact (hb.numbered phase hold).trans (Nat.le_succ _)
    · rw [List.mem_singleton] at hnew
      rw [hnew]
      exact hsequence.le
  · rw [hphases, List.map_append]
    refine List.nodup_append.mpr ⟨hb.distinct, List.nodup_singleton _, ?_⟩
    intro a ha b hb' hab
    obtain ⟨phase, hphase, rfl⟩ := List.mem_map.mp ha
    simp only [List.map_cons, List.map_nil, List.mem_singleton] at hb'
    have hle := hb.numbered phase hphase
    omega

theorem finish_bounded (hb : run.Bounded) {position : Nat} {call : LiveCall}
    (hposition : run.calls[position]? = some call) (hpending : call.finished = false) :
    RegistryRun.Bounded
      ⟨run.ledger.finishIdempotencyCall call.request.mapKey call.request.call,
        run.calls.modify position fun call => { call with finished := true }⟩ := by
  have hphases : RegistryRun.phases
      ⟨run.ledger.finishIdempotencyCall call.request.mapKey call.request.call,
        run.calls.modify position fun call => { call with finished := true }⟩ =
      run.phases.modify position fun phase => (phase.1, true) := by
    apply map_modify_of_comm
    intro other
    rfl
  have hphase : run.phases[position]? = some (call.request, false) := by
    rw [RegistryRun.phases, List.getElem?_map, hposition, ← hpending]
    rfl
  have hcall := hb.live _ (List.mem_of_getElem? hphase)
  have hregistered := registered_finish hcall
  have hcount : (run.ledger.finishIdempotencyCall call.request.mapKey
      call.request.call).activeCount + 1 = run.ledger.activeCount := by
    have hpositive : 0 < run.ledger.activeCount := by
      rw [hb.counted]
      omega
    have hcontains : (run.ledger.live call.request.mapKey).contains call.request.call = true :=
      List.contains_iff_mem.mpr hcall
    change (if _ then run.ledger.activeCount - 1 else _) + 1 = _
    rw [if_pos hcontains]
    omega
  have hsequences : (run.phases.modify position fun phase => (phase.1, true)).map
      (fun phase => phase.1.call.sequence) =
      run.phases.map fun phase => phase.1.call.sequence := by
    apply map_modify_of_eq
    intro other
    rfl
  refine ⟨hb.size, hb.epochs, ?_, ?_, ?_, ?_, ?_, ?_⟩
  · have hcounted := hb.counted
    dsimp only
    omega
  · have hlimited := hb.limited
    change (run.ledger.finishIdempotencyCall call.request.mapKey
      call.request.call).activeCount ≤ run.ledger.activeLimit
    omega
  · have hmodified := countP_modify (p := fun phase : RegisteredCall × Bool => !phase.2)
      (f := fun phase => (phase.1, true)) hphase
    have hprogress := hb.inProgress
    simp only [Bool.not_false, Bool.not_true, Bool.toNat_true, Bool.toNat_false] at hmodified
    rw [hphases]
    dsimp only
    omega
  · intro other hmem
    rw [hphases] at hmem
    obtain ⟨i, hi⟩ := List.mem_iff_getElem?.mp hmem
    obtain ⟨phase, hold, hmarked⟩ := getElem?_modify_eq_some.mp hi
    by_cases hsame : position = i
    · rw [if_pos hsame] at hmarked
      cases (Prod.mk.inj hmarked).2
    rw [if_neg hsame] at hmarked
    subst hmarked
    have hin := hb.live other (List.mem_of_getElem? hold)
    -- another position holds another sequence number
    have hne : other.call ≠ call.request.call := by
      intro hcalls
      have hlt : position < (run.phases.map fun phase => phase.1.call.sequence).length := by
        rw [List.length_map]
        exact (List.getElem?_eq_some_iff.mp hphase).1
      refine hsame ((List.getElem?_inj hlt hb.distinct).mp ?_)
      rw [List.getElem?_map, List.getElem?_map, hphase, hold, Option.map_some,
        Option.map_some, hcalls]
    rw [live_finish]
    split_ifs with hkey
    · rw [hkey] at hin
      exact (List.mem_erase_of_ne hne).mpr hin
    · exact hin
  · rw [hphases]
    intro phase hmem
    have hkept : phase.1.call.sequence ∈ run.phases.map fun phase => phase.1.call.sequence := by
      rw [← hsequences]
      exact List.mem_map_of_mem hmem
    obtain ⟨old, hold, hsame⟩ := List.mem_map.mp hkept
    rw [← hsame]
    exact hb.numbered old hold
  · rw [hphases, hsequences]
    exact hb.distinct

/-! ### Completion -/

def Reservation.bindResult (value : Reservation) (result : ResultDigest) : Reservation :=
  { value with completed := true, result := result }

theorem complete_cases (reservation : Reservation)
    (result : ResultDigest) :
    (ledger.complete reservation result).1 = ledger ∨
      ∃ row, ledger.records.lookup reservation.scopedKey = some row ∧ row.completed = false ∧
        ledger.complete reservation result =
          ({ ledger with
              records := ledger.records.insert reservation.scopedKey (row.bindResult result) },
            .ok (row.bindResult result)) := by
  fun_cases IdempotencyLedger.complete ledger reservation result
  case case6 current hcurrent _ hincomplete done =>
    exact .inr ⟨current, hcurrent, by simpa using hincomplete, rfl⟩
  all_goals exact .inl rfl

theorem complete_bounded (hb : run.Bounded) (reservation : Reservation) (result : ResultDigest) :
    RegistryRun.Bounded ⟨(run.ledger.complete reservation result).1, run.calls⟩ ∧
      (run.ledger.complete reservation result).1.maximum = run.ledger.maximum ∧
      (run.ledger.complete reservation result).1.activeLimit = run.ledger.activeLimit := by
  rcases complete_cases run.ledger reservation result with hsame | ⟨row, hrow, -, hwrite⟩
  · rw [hsame]
    exact ⟨hb, rfl, rfl⟩
  rw [hwrite]
  refine ⟨⟨?_, ?_, hb.counted, hb.limited, hb.inProgress, hb.live, hb.numbered, hb.distinct⟩,
    rfl, rfl⟩
  · rw [length_keys_insert, hrow, Option.isSome_some, if_pos rfl]
    exact hb.size
  · intro key
    rw [hb.epochs key]
    by_cases hkey : key = reservation.scopedKey
    · subst hkey
      rw [AList.lookup_insert, hrow]
      rfl
    · rw [AList.lookup_insert_ne hkey]

/-! ## Every interleaving is bounded -/

theorem registry_bounded [Sha256] (run : RegistryRun) (call : RegistryCall) (hb : run.Bounded) :
    (registryMachine.next run call).Bounded ∧
      (registryMachine.next run call).ledger.maximum = run.ledger.maximum ∧
      (registryMachine.next run call).ledger.activeLimit = run.ledger.activeLimit := by
  change (registryStep run call).1.Bounded ∧ (registryStep run call).1.ledger.maximum = _ ∧
    (registryStep run call).1.ledger.activeLimit = _
  fun_cases registryStep run call
  case case2 hregister =>
    refine ⟨register_bounded hb hregister, ?_⟩
    rw [(register_eq hregister).2.2]
    exact ⟨rfl, rfl⟩
  case case5 earlier call hposition _ ledger answer hdecided =>
    have hspec := (reserveWith_spec run.ledger call.request earlier).1
    rw [hdecided] at hspec
    refine ⟨hb.retain hspec ?_, hspec.maximum, hspec.activeLimit⟩
    apply map_modify_of_eq
    intro other
    rfl
  case case8 hposition hphase =>
    simp only [Bool.not_eq_true, Bool.or_eq_false_iff] at hphase
    exact ⟨finish_bounded hb hposition hphase.2, rfl, rfl⟩
  case case9 reservation result ledger failure hfailed =>
    have h := complete_bounded hb reservation result
    rw [hfailed] at h
    exact h
  case case10 reservation result ledger row hcompleted =>
    have h := complete_bounded hb reservation result
    rw [hcompleted] at h
    exact h
  all_goals exact ⟨hb, rfl, rfl⟩

/-! ## Open work is kept -/

theorem open_kept [Sha256] (run : RegistryRun) (call : RegistryCall) {row : Reservation}
    (hrow : run.ledger.records.lookup key = some row) (hopen : row.completed = false) :
    (registryMachine.next run call).ledger.records.lookup key = some row ∨
      ∃ reservation result, call = .complete reservation result ∧
        (registryMachine.step run call).2 = .completed (row.bindResult result) ∧
        (registryMachine.next run call).ledger.records.lookup key =
          some (row.bindResult result) := by
  change (registryStep run call).1.ledger.records.lookup key = _ ∨ ∃ reservation result, _ ∧
    (registryStep run call).2 = _ ∧ (registryStep run call).1.ledger.records.lookup key = _
  fun_cases registryStep run call
  case case2 hregister =>
    rw [(register_eq hregister).2.2]
    exact .inl hrow
  case case5 earlier call hposition _ ledger answer hdecided =>
    have hspec := (reserveWith_spec run.ledger call.request earlier).1
    rw [hdecided] at hspec
    exact .inl (hspec.uncompleted key row hrow hopen)
  case case9 hfailed =>
    rw [complete_error hfailed]
    exact .inl hrow
  case case10 reservation result ledger done hcompleted =>
    rcases complete_cases run.ledger reservation result with hsame | ⟨old, hold, -, hwrite⟩
    · rw [hcompleted] at hsame
      obtain rfl : ledger = run.ledger := hsame
      exact .inl hrow
    · rw [hcompleted, Prod.mk.injEq, Except.ok.injEq] at hwrite
      rw [hwrite.1, hwrite.2]
      by_cases hkey : key = reservation.scopedKey
      · subst hkey
        rw [hrow, Option.some.injEq] at hold
        subst hold
        exact .inr ⟨reservation, result, rfl, rfl, AList.lookup_insert _⟩
      · left
        simp only [AList.lookup_insert_ne hkey]
        exact hrow
  all_goals exact .inl hrow

/-- A Reserved answer goes to a key without an open row, and its own row is open. -/
theorem reserved_step [Sha256] {call : RegistryCall} {row : Reservation}
    (h : (registryMachine.step run call).2 = .answered (.ok (row, .reserved))) :
    (registryMachine.next run call).ledger.records.lookup row.scopedKey = some row ∧
      row.completed = false ∧
      ∀ old, run.ledger.records.lookup row.scopedKey = some old → old.completed = true := by
  change (registryStep run call).2 = _ at h
  change (registryStep run call).1.ledger.records.lookup _ = _ ∧ _
  revert h
  fun_cases registryStep run call
  case case5 earlier call hposition _ ledger answer hdecided =>
    intro h
    have hspec := (reserveWith_spec run.ledger call.request earlier).2 row
    rw [hdecided] at hspec
    obtain ⟨hcreated, hkey, hopen, hfree⟩ := hspec (LedgerReply.answered.inj h)
    rw [hkey]
    exact ⟨hcreated, hopen, hfree⟩
  all_goals simp

/-- An open reservation stays until it is completed, and its key gets no second Reserved answer
before that. -/
structure OpenWorkKept (entries : List (Entry RegistryRun RegistryCall LedgerReply)) : Prop where
  kept : ∀ e ∈ entries, ∀ key row, e.before.ledger.records.lookup key = some row →
    row.completed = false →
    e.after.ledger.records.lookup key = some row ∨
      ∃ reservation result, e.input = .complete reservation result ∧
        e.output = .completed (row.bindResult result) ∧
        e.after.ledger.records.lookup key = some (row.bindResult result)
  free : ∀ e ∈ entries, ∀ row, e.output = .answered (.ok (row, .reserved)) →
    ∀ old, e.before.ledger.records.lookup row.scopedKey = some old → old.completed = true
  once : ∀ (i j : Nat) first second row other, i < j → entries[i]? = some first →
    entries[j]? = some second → first.output = .answered (.ok (row, .reserved)) →
    second.output = .answered (.ok (other, .reserved)) → other.scopedKey = row.scopedKey →
    ∃ (k : Nat) (e : Entry RegistryRun RegistryCall LedgerReply) (result : ResultDigest),
      i < k ∧ k < j ∧ entries[k]? = some e ∧ e.output = .completed (row.bindResult result)

theorem open_work_kept [Sha256] (run : RegistryRun) (calls : List RegistryCall) :
    OpenWorkKept (registryMachine.trace run calls) := by
  have hentry : ∀ e ∈ registryMachine.trace run calls,
      e = registryMachine.entry e.before e.input := by
    intro e he
    obtain ⟨pre, post, -, heq⟩ := mem_trace _ he
    rw [heq]
    rfl
  have hreserved : ∀ e ∈ registryMachine.trace run calls, ∀ row,
      e.output = .answered (.ok (row, .reserved)) →
      e.after.ledger.records.lookup row.scopedKey = some row ∧ row.completed = false ∧
        ∀ old, e.before.ledger.records.lookup row.scopedKey = some old → old.completed = true := by
    intro e he row hout
    rw [hentry e he] at hout ⊢
    exact reserved_step hout
  refine ⟨?_, fun e he row hout => (hreserved e he row hout).2.2, ?_⟩
  · intro e he key row hrow hopen
    rw [hentry e he] at hrow ⊢
    exact open_kept _ _ hrow hopen
  · intro i j first second row other hij hi hj hfirst hsecond hkey
    obtain ⟨hcreated, hopen, -⟩ := hreserved first (List.mem_of_getElem? hi) row hfirst
    obtain ⟨-, -, hfree⟩ := hreserved second (List.mem_of_getElem? hj) other hsecond
    rw [hkey] at hfree
    obtain ⟨mid, hbefore, hbetween⟩ := trace_between _ hij hi hj
    -- the open row is there after the first answer and gone before the second
    have hgone : ¬ second.before.ledger.records.lookup row.scopedKey = some row := by
      intro hthere
      have hdone := hfree row hthere
      rw [hopen] at hdone
      cases hdone
    rw [hbefore] at hgone
    obtain ⟨k, e, hk, hstill, hleft⟩ := trace_change registryMachine
      (P := fun run => ¬ run.ledger.records.lookup row.scopedKey = some row)
      (not_not.mpr hcreated) hgone
    obtain ⟨hik, hkj, hat⟩ := hbetween k e hk
    have he := hentry e (List.mem_of_getElem? hat)
    rw [he] at hstill hleft
    rcases open_kept e.before e.input (not_not.mp hstill) hopen with hkept |
      ⟨reservation, result, -, hout, -⟩
    · exact absurd hkept hleft
    · exact ⟨i + 1 + k, e, result, hik, hkj, hat, by rw [he]; exact hout⟩

/-! ## The ledger is bounded -/

theorem newIdempotencyLedger_bounded {maximum : Int} {ledger : IdempotencyLedger}
    (h : newIdempotencyLedger maximum = .ok ledger) :
    RegistryRun.Bounded ⟨ledger, []⟩ ∧ (ledger.maximum : Int) = maximum := by
  unfold newIdempotencyLedger at h
  split_ifs at h with hsmall hlarge
  all_goals
    rw [← Except.ok.inj h]
    refine ⟨⟨Nat.zero_le _, fun _ => rfl, rfl, Nat.zero_le _, rfl, ?_, ?_, ?_⟩, ?_⟩
    · simp [RegistryRun.phases]
    · simp [RegistryRun.phases]
    · simp [RegistryRun.phases]
    · exact Int.toNat_of_nonneg (by omega)

/-- In every interleaving of reservations and completions on a new ledger the records, their
epochs and the registry stay within their bounds and agree, and open work is kept. -/
theorem idempotency_ledger_bounded [Sha256] {maximum : Int} {ledger : IdempotencyLedger}
    (hnew : newIdempotencyLedger maximum = .ok ledger) (calls : List RegistryCall) :
    let run := registryMachine.exec ⟨ledger, []⟩ calls
    (run.ledger.records.keys.length : Int) ≤ maximum ∧
      (∀ key, run.ledger.keyState.lookup key =
        (run.ledger.records.lookup key).map Reservation.epoch) ∧
      (∀ key, run.ledger.records.lookup key = none → run.ledger.keyState.lookup key = none) ∧
      run.ledger.activeCount = run.ledger.registered ∧
      run.ledger.activeCount = (run.calls.countP fun call => !call.finished) ∧
      run.ledger.activeCount ≤ ledger.activeLimit ∧
      ((∀ call ∈ run.calls, call.finished = true) → run.ledger.activeCount = 0) ∧
      OpenWorkKept (registryMachine.trace ⟨ledger, []⟩ calls) := by
  intro run
  obtain ⟨hinitial, hmaximum⟩ := newIdempotencyLedger_bounded hnew
  obtain ⟨hb, hlimits⟩ : run.Bounded ∧ run.ledger.maximum = ledger.maximum ∧
      run.ledger.activeLimit = ledger.activeLimit := by
    refine exec_invariant registryMachine (P := fun run => run.Bounded ∧
      run.ledger.maximum = ledger.maximum ∧ run.ledger.activeLimit = ledger.activeLimit) ?_
      ⟨hinitial, rfl, rfl⟩ calls
    rintro state call ⟨hstate, hmax, hlimit⟩
    obtain ⟨hnext, hmax', hlimit'⟩ := registry_bounded state call hstate
    exact ⟨hnext, hmax'.trans hmax, hlimit'.trans hlimit⟩
  have hprogress : run.ledger.activeCount = run.calls.countP fun call => !call.finished := by
    rw [hb.inProgress, RegistryRun.phases, List.countP_map]
    rfl
  refine ⟨?_, hb.epochs, ?_, hb.counted, hprogress, ?_, ?_, open_work_kept _ calls⟩
  · have hsize := hb.size
    rw [hlimits.1] at hsize
    omega
  · intro key hnone
    rw [hb.epochs key, hnone]
    rfl
  · rw [← hlimits.2]
    exact hb.limited
  · intro hfinished
    rw [hprogress, List.countP_eq_zero]
    intro call hcall
    simp [hfinished call hcall]

/-- Two keys fill the ledger; a third call finds no room and leaves the registry again. -/
def fullLedgerCalls : List RegistryCall :=
  [.register (1 * second) (sampleScope 1) sampleKey sampleRequest,
    .register (1 * second) (sampleScope 2) sampleKey sampleRequest,
    .decide 0 fun _ => false, .decide 1 fun _ => true,
    .register (2 * second) (sampleScope 3) sampleKey sampleRequest,
    .finish 0, .finish 1, .decide 2 fun _ => false, .finish 2]

attribute [local instance] plainSha256

theorem idempotency_ledger_bounded_full :
    newIdempotencyLedger 2 = .ok emptyRun.ledger ∧
      ((registryMachine.exec ⟨emptyRun.ledger, []⟩
        fullLedgerCalls).ledger.records.keys.length : Int) = 2 ∧
      ((registryMachine.exec ⟨emptyRun.ledger, []⟩
        fullLedgerCalls).ledger.records.keys.length : Int) ≤ 2 ∧
      OpenWorkKept (registryMachine.trace ⟨emptyRun.ledger, []⟩ fullLedgerCalls) := by
  have hnew : newIdempotencyLedger 2 = .ok emptyRun.ledger := rfl
  have hbounded := idempotency_ledger_bounded hnew fullLedgerCalls
  refine ⟨hnew, by decide +kernel, hbounded.1, ?_⟩
  exact hbounded.2.2.2.2.2.2.2

end Veer.Reconcile
