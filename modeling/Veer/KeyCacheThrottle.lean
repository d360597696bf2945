import Veer.KeyCache
import Veer.ListHeap

/-!
# Throttling of key set refreshes

Every fetch has one leader, and the flight it leads is the only one. A finished fetch closes the
gates of its reasons for the cooldown, and a caller reads the gate of its own reason when it takes
its snapshot. The attempt number tells a leader that no fetch has started since its snapshot; it
does not tell it that none has ended.
-/
namespace Veer.OIDC
open StepMachine ListHeap

variable {K : Type} {cache cache' : KeyCache K} {reason other : RefreshReason}

/-! ## Gates -/

variable (cache : KeyCache K)

theorem recordCooldown_eq (reason : RefreshReason) (attemptedAt : Int) :
    cache.recordCooldown reason attemptedAt = { cache with
      nextRequiredRefreshAllowed :=
        (cache.recordCooldown reason attemptedAt).nextRequiredRefreshAllowed
      nextProactiveRefreshAllowed :=
        (cache.recordCooldown reason attemptedAt).nextProactiveRefreshAllowed
      nextReactiveRefreshAllowed :=
        (cache.recordCooldown reason attemptedAt).nextReactiveRefreshAllowed } := by
  unfold KeyCache.recordCooldown
  cases reason <;> simp only <;> split_ifs <;> rfl

theorem recordCooldown_nextAllowed (reason other : RefreshReason)
    (attemptedAt : Int) : (cache.recordCooldown reason attemptedAt).nextAllowed other =
      if attemptedAt ≠ 0 ∧ other = reason then
        max (cache.nextAllowed other) (attemptedAt + cache.policy.refreshCooldown)
      else cache.nextAllowed other := by
  cases reason <;> cases other <;> grind [KeyCache.recordCooldown, KeyCache.nextAllowed]

/-- A section that starts and ends no fetch. -/
structure Quiet (cache cache' : KeyCache K) : Prop where
  policy : cache'.policy = cache.policy
  flight : cache'.flight = cache.flight
  flights : cache'.flights.length = cache.flights.length
  attempt : cache'.attempt = cache.attempt
  gate : ∀ reason, cache.nextAllowed reason ≤ cache'.nextAllowed reason

theorem Quiet.refl : Quiet cache cache := ⟨rfl, rfl, rfl, rfl, fun _ => le_rfl⟩

theorem Quiet.trans {a b c : KeyCache K} (h : Quiet a b) (h' : Quiet b c) : Quiet a c :=
  ⟨h'.policy.trans h.policy, h'.flight.trans h.flight, h'.flights.trans h.flights,
    h'.attempt.trans h.attempt, fun reason => (h.gate reason).trans (h'.gate reason)⟩

theorem recordCooldown_quiet (reason : RefreshReason) (attemptedAt : Int) :
    Quiet cache (cache.recordCooldown reason attemptedAt) := by
  have heq := recordCooldown_eq cache reason attemptedAt
  refine ⟨by rw [heq], by rw [heq], by rw [heq], by rw [heq], fun other => ?_⟩
  rw [recordCooldown_nextAllowed]
  split_ifs
  · exact le_max_left _ _
  · exact le_rfl

theorem recordCooldown_closes (reason : RefreshReason) {attemptedAt : Int}
    (hset : attemptedAt ≠ 0) : attemptedAt + cache.policy.refreshCooldown ≤
      (cache.recordCooldown reason attemptedAt).nextAllowed reason := by
  rw [recordCooldown_nextAllowed, if_pos ⟨hset, rfl⟩]
  exact le_max_right _ _

theorem recordMismatch_quiet (reason : RefreshReason) :
    Quiet cache (cache.recordMismatch reason) := by
  unfold KeyCache.recordMismatch
  simp only
  split_ifs
  · exact (recordCooldown_quiet _ _ _).trans (recordCooldown_quiet _ _ _)
  · exact recordCooldown_quiet _ _ _
  · exact recordCooldown_quiet _ _ _
  · exact .refl _

theorem recordFailure_quiet (flight : RefreshFlight) (now : Int) :
    Quiet cache (cache.recordFailure flight now) := by
  unfold KeyCache.recordFailure
  simp only
  split_ifs
  · exact (recordCooldown_quiet _ _ _).trans (recordCooldown_quiet _ _ _)
  · exact recordCooldown_quiet _ _ _
  · exact recordCooldown_quiet _ _ _
  · exact .refl _

theorem recordReactive_quiet (flight : RefreshFlight) (now : Int) :
    Quiet cache (cache.recordReactive flight now) := by
  unfold KeyCache.recordReactive
  split_ifs
  · exact recordCooldown_quiet _ _ _
  · exact .refl _

theorem closeFlight_gate (i : Nat) (now : Int) (err : Option Failure)
    (reason : RefreshReason) :
    (cache.closeFlight i now err).nextAllowed reason = cache.nextAllowed reason := by
  cases reason <;> rfl

/-- What the end of a fetch leaves behind. -/
structure Ended (cache cache' : KeyCache K) (flight : RefreshFlight) (now : Int) (ok : Bool) :
    Prop where
  policy : cache'.policy = cache.policy
  idle : cache'.flight = none
  flights : cache'.flights.length = cache.flights.length
  attempt : cache'.attempt = cache.attempt
  gate : ∀ reason, reason = .reactive ∨ ok = false →
    cache.nextAllowed reason ≤ cache'.nextAllowed reason
  closes : ∀ reason, reason = .reactive ∨ ok = false → flight.carries reason = true → now ≠ 0 →
    now + cache.policy.refreshCooldown ≤ cache'.nextAllowed reason

variable {flight : RefreshFlight}
variable {now : Int}

theorem recordReactive_closes (hreactive : flight.reactive = true) (hnow : now ≠ 0) :
    now + cache.policy.refreshCooldown ≤
      (cache.recordReactive flight now).nextAllowed .reactive := by
  unfold KeyCache.recordReactive
  rw [if_pos hreactive]
  exact recordCooldown_closes cache .reactive hnow

theorem recordFailure_closes (hreason : reason ≠ .reactive)
    (hcarries : flight.carries reason = true) (hnow : now ≠ 0) :
    now + cache.policy.refreshCooldown ≤ (cache.recordFailure flight now).nextAllowed reason := by
  unfold KeyCache.recordFailure
  simp only
  cases reason with
  | reactive => exact absurd rfl hreason
  | required =>
    have hrequired : flight.required = true := hcarries
    have hclosed := recordCooldown_closes cache .required hnow
    rw [hrequired, Bool.true_or, if_pos rfl]
    split_ifs
    · exact hclosed.trans ((recordCooldown_quiet _ .proactive now).gate .required)
    · exact hclosed
  | proactive =>
    have hproactive : flight.proactive = true := hcarries
    rw [hproactive, Bool.or_true, if_pos rfl, if_pos rfl]
    have hclosed := recordCooldown_closes (cache.recordCooldown .required now) .proactive hnow
    rwa [(recordCooldown_quiet cache .required now).policy] at hclosed

theorem installSection_ended (i : Nat) (flight : RefreshFlight) (now : Int)
    (fetched : Except Failure (KeySet K)) :
    Ended cache (cache.installSection i flight now fetched) flight now
      (fetchError fetched).isNone := by
  unfold KeyCache.installSection
  cases fetched with
  | ok keys =>
    have hquiet := recordReactive_quiet (cache.installKeys keys now) flight now
    refine ⟨hquiet.policy, rfl, ?_, hquiet.attempt, fun reason hreason => ?_,
      fun reason hreason hcarries hnow => ?_⟩
    · exact (List.length_modify _ _ _).trans hquiet.flights
    · obtain rfl : reason = .reactive := hreason.resolve_right (by simp [fetchError])
      rw [closeFlight_gate]
      exact hquiet.gate .reactive
    · obtain rfl : reason = .reactive := hreason.resolve_right (by simp [fetchError])
      rw [closeFlight_gate]
      exact recordReactive_closes (cache.installKeys keys now) hcarries hnow
  | error =>
    have hfailure := recordFailure_quiet cache flight now
    have hreactive := recordReactive_quiet (cache.recordFailure flight now) flight now
    have hquiet := hfailure.trans hreactive
    refine ⟨hquiet.policy, rfl, ?_, hquiet.attempt, fun reason hreason => ?_,
      fun reason hreason hcarries hnow => ?_⟩
    · exact (List.length_modify _ _ _).trans hquiet.flights
    · rw [closeFlight_gate]
      exact hquiet.gate reason
    · rw [closeFlight_gate]
      by_cases hkind : reason = .reactive
      · subst hkind
        have hclosed := recordReactive_closes (cache.recordFailure flight now) hcarries hnow
        rwa [hfailure.policy] at hclosed
      · exact (recordFailure_closes cache hkind hcarries hnow).trans (hreactive.gate reason)

/-! ## Sections -/

/-- The flight that a call at this stage leads. -/
def Stage.leads : Stage K → Option Nat
  | .fetch _ i => some i
  | .install _ i _ _ => some i
  | _ => none

/-- A call that goes on to refresh has read an open gate, or no attempt was made yet. -/
structure Admits (cache : KeyCache K) (now : Int) (ticket : Ticket K) : Prop where
  observed : ticket.observedAttempt = cache.attempt
  open_ : cache.nextAllowed ticket.reason ≤ now ∨ cache.attempt = 0

theorem resolveSnapshot_spec (reference : KeyReference) (now : Int) :
    (∃ answer, cache.resolveSnapshot reference now = .returned answer) ∨
      ∃ ticket, cache.resolveSnapshot reference now = .refresh ticket ∧
        Admits cache now ticket := by
  unfold KeyCache.resolveSnapshot
  cases cache.keys.lookup reference with
  | none =>
    simp only
    generalize (if cache.fresh now = true then RefreshReason.reactive else .required) = reason
    split_ifs with hclosed hstale
    · exact .inl ⟨_, rfl⟩
    · exact .inl ⟨_, rfl⟩
    · refine .inr ⟨_, rfl, rfl, ?_⟩
      simp only
      cases hfresh : cache.fresh now <;> simp [hfresh] at hclosed hstale <;> omega
  | some =>
    simp only
    generalize (if cache.fresh now = true then RefreshReason.proactive else .required) = reason
    split_ifs with hcached hstale
    · exact .inl ⟨_, rfl⟩
    · exact .inl ⟨_, rfl⟩
    · refine .inr ⟨_, rfl, rfl, ?_⟩
      simp only
      cases hfresh : cache.fresh now <;> simp [hfresh] at hcached hstale <;> omega

theorem signatureSnapshot_spec (reference : KeyReference)
    (previous : CachedVerificationKey K) (now : Int) :
    Quiet cache (cache.signatureSnapshot reference previous now).1 ∧
      ((∃ answer, (cache.signatureSnapshot reference previous now).2 = .returned answer) ∨
        ∃ ticket, (cache.signatureSnapshot reference previous now).2 = .refresh ticket ∧
          Admits cache now ticket) := by
  unfold KeyCache.signatureSnapshot
  split_ifs with hchanged hproactive hattempted hreactive
  · cases cache.lookupFresh reference now with
    | ok | error => exact ⟨.refl _, .inl ⟨_, rfl⟩⟩
  · exact ⟨recordCooldown_quiet cache .reactive _, .inl ⟨_, rfl⟩⟩
  · exact ⟨recordCooldown_quiet cache .reactive _, .inl ⟨_, rfl⟩⟩
  · exact ⟨.refl _, .inl ⟨_, rfl⟩⟩
  · exact ⟨.refl _, .inr ⟨_, rfl, rfl, .inl (not_lt.mp hreactive)⟩⟩

theorem answerSection_spec (ticket : Ticket K) (err : Option Failure)
    (now : Int) : (∃ answer, cache.answerSection ticket err now = .returned answer) ∨
      cache.answerSection ticket err now = .missed := by
  fun_cases KeyCache.answerSection cache ticket err now
  case case3 => exact .inr rfl
  all_goals exact .inl ⟨_, rfl⟩

/-- What a step of a call can do to the cache. -/
inductive Effect (cache : KeyCache K) (time : Int) :
    Stage K → KeyCache K → Stage K → Output → Prop
  | read (call : Call K) : Effect cache time (.start call) cache (.snapshot call time) .quiet
  | admitted (call : Call K) (now : Int) (cache' : KeyCache K) (ticket : Ticket K)
      (quiet : Quiet cache cache') (admits : Admits cache now ticket) :
      Effect cache time (.snapshot call now) cache' (.refresh ticket) .quiet
  | lead (ticket : Ticket K) (idle : cache.flight = none)
      (current : cache.attempt = ticket.observedAttempt) :
      Effect cache time (.refresh ticket) (cache.lead ticket.reason)
        (.fetch ticket cache.flights.length) (.started ticket.reason time)
  | fetched (ticket : Ticket K) (i : Nat) (fetched : Except Failure (KeySet K)) :
      Effect cache time (.fetch ticket i) cache (.install ticket i time fetched) .quiet
  | install (ticket : Ticket K) (i : Nat) (now : Int) (fetched : Except Failure (KeySet K))
      (flight : RefreshFlight) (cache' : KeyCache K) (err : Option Failure) (ok : Bool)
      (ended : Ended cache cache' flight now ok) :
      Effect cache time (.install ticket i now fetched) cache' (.refreshed ticket err)
        (.ended flight now ok)
  | other (stage stage' : Stage K) (cache' : KeyCache K) (quiet : Quiet cache cache')
      (before : stage.leads = none) (after : stage'.leads = none)
      (fresh : (∀ call now, stage' ≠ .snapshot call now) ∧ ∀ ticket, stage' ≠ .refresh ticket) :
      Effect cache time stage cache' stage' .quiet

theorem perform_effect (time : Int) (stage : Stage K) (env : Env K)
    (hflight : ∀ i, stage.leads = some i → i < cache.flights.length) :
    Effect cache time stage (cache.perform time stage env).1 (cache.perform time stage env).2.1
      (cache.perform time stage env).2.2 := by
  have hother : ∀ {stage stage' : Stage K} {cache' : KeyCache K}, Quiet cache cache' →
      stage.leads = none → stage'.leads = none → (∀ call now, stage' ≠ .snapshot call now) →
      (∀ ticket, stage' ≠ .refresh ticket) → Effect cache time stage cache' stage' .quiet :=
    fun hquiet hbefore hafter hread hticket => .other _ _ _ hquiet hbefore hafter ⟨hread, hticket⟩
  fun_cases KeyCache.perform cache time stage env
  case case2 call _ => exact .read call
  case case3 reference now =>
    rcases resolveSnapshot_spec cache reference now with ⟨answer, hnext⟩ | ⟨ticket, hnext, hadmits⟩
    · rw [hnext]
      exact hother (.refl _) rfl rfl nofun nofun
    · rw [hnext]
      exact .admitted _ now _ ticket (.refl _) hadmits
  case case4 reference previous now cache' stage' hsection =>
    have hspec := signatureSnapshot_spec cache reference previous now
    rw [hsection] at hspec
    obtain ⟨hquiet, ⟨answer, rfl⟩ | ⟨ticket, rfl, hadmits⟩⟩ := hspec
    · exact hother hquiet rfl rfl nofun nofun
    · exact .admitted _ now _ ticket hquiet hadmits
  case case5 ticket =>
    unfold KeyCache.refreshSection
    cases hidle : cache.flight with
    | some =>
      refine hother ⟨rfl, hidle.symm, ?_, rfl, fun reason => ?_⟩ rfl rfl nofun nofun
      · exact List.length_modify _ _ _
      · cases reason <;> exact le_rfl
    | none =>
      simp only
      split_ifs with hstale
      · exact hother (recordMismatch_quiet _ _) rfl rfl nofun nofun
      · exact .lead ticket hidle (not_not.mp hstale)
  case case10 ticket i => exact .fetched ticket i env.fetched
  case case11 i _ _ hnone =>
    have hlt : i < cache.flights.length := hflight i rfl
    simp [hlt] at hnone
  case case12 ticket i now fetched flight _ =>
    exact .install ticket i now fetched _ _ _ _ (installSection_ended cache i _ now fetched)
  case case15 ticket err now =>
    rcases answerSection_spec cache ticket err now with ⟨answer, hnext⟩ | hnext
    · rw [hnext]
      exact hother (.refl _) rfl rfl nofun nofun
    · rw [hnext]
      exact hother (.refl _) rfl rfl nofun nofun
  case case16 =>
    have hquiet := recordCooldown_quiet cache .reactive cache.lastAttemptAt
    exact hother hquiet rfl rfl nofun nofun
  all_goals exact hother (.refl _) rfl rfl nofun nofun

/-! ## Steps of the system -/

def Stage.isLeading (stage : Stage K) : Bool := stage.leads.isSome

/-- The calls between the start and the end of a fetch. -/
def System.fetching (s : System K) : Nat := s.calls.countP Stage.isLeading

/-- The one flight of the cache is led by one call, and readings of the clock are past. -/
structure System.Valid (s : System K) : Prop where
  sole : s.fetching = s.cache.flight.isSome.toNat
  leads : ∀ stage ∈ s.calls, ∀ i, stage.leads = some i →
    s.cache.flight = some i ∧ i < s.cache.flights.length
  attempted : s.cache.flight.isSome = true → 0 < s.cache.attempt
  past : ∀ call now, .snapshot call now ∈ s.calls → now ≤ s.time

/-- What holds between the two ends of a run. -/
structure Later (s s' : System K) : Prop where
  policy : s'.cache.policy = s.cache.policy
  time : s.time ≤ s'.time
  attempt : s.cache.attempt ≤ s'.cache.attempt
  idle : s.cache.flight = none → s'.cache.attempt = s.cache.attempt → s'.cache.flight = none

theorem Later.refl (s : System K) : Later s s := ⟨rfl, le_rfl, le_rfl, fun h _ => h⟩

theorem Later.trans {a b c : System K} (h : Later a b) (h' : Later b c) : Later a c := by
  refine ⟨h'.policy.trans h.policy, h.time.trans h'.time, h.attempt.trans h'.attempt, ?_⟩
  intro hidle hsame
  have hle := h.attempt
  have hle' := h'.attempt
  have hmid : b.cache.attempt = a.cache.attempt := by omega
  exact h'.idle (h.idle hidle hmid) (by omega)

variable {s : System K}

variable {i : Nat}

theorem next_run {stage : Stage K} (env : Env K) (hstage : s.calls[i]? = some stage) (h : s.Valid) :
    ∃ cache' stage' output, Effect s.cache s.time stage cache' stage' output ∧
      machine.entry s (.run i env) = ⟨s, .run i env, output,
        { s with cache := cache', calls := s.calls.set i stage' }⟩ := by
  refine ⟨_, _, _, perform_effect s.cache s.time stage env ?_, ?_⟩
  · exact fun j hj => (h.leads stage (List.mem_of_getElem? hstage) j hj).2
  · simp only [machine, Machine.entry, System.step, hstage]

theorem countP_set {p : Stage K → Bool} {stage : Stage K} (hstage : s.calls[i]? = some stage)
    (stage' : Stage K) :
    (s.calls.set i stage').countP p + (p stage).toNat =
      s.calls.countP p + (p stage').toNat := by
  rw [List.set_eq_modify]
  exact countP_modify (f := fun _ => stage') hstage

theorem System.Valid.quiet {stage stage' : Stage K} {cache' : KeyCache K} (h : s.Valid)
    (hstage : s.calls[i]? = some stage) (hquiet : Quiet s.cache cache')
    (hleads : stage'.leads = stage.leads)
    (hpast : ∀ call now, stage' = .snapshot call now → now ≤ s.time) :
    System.Valid { s with cache := cache', calls := s.calls.set i stage' } := by
  refine ⟨?_, fun found hfound j hj => ?_, ?_, fun call now hmem => ?_⟩
  · have hcount := countP_set (p := Stage.isLeading) hstage stage'
    have hsame : stage'.isLeading = stage.isLeading := by simp only [Stage.isLeading, hleads]
    have hsole := h.sole
    rw [hsame] at hcount
    simp only [System.fetching, hquiet.flight] at hsole ⊢
    omega
  · rw [hquiet.flight, hquiet.flights]
    rcases List.mem_or_eq_of_mem_set hfound with hold | rfl
    · exact h.leads found hold j hj
    · exact h.leads stage (List.mem_of_getElem? hstage) j (hleads ▸ hj)
  · rw [hquiet.flight, hquiet.attempt]
    exact h.attempted
  · rcases List.mem_or_eq_of_mem_set hmem with hold | hnew
    · exact h.past call now hold
    · exact hpast call now hnew.symm

variable {ticket : Ticket K}

theorem System.Valid.lead (h : s.Valid) (hstage : s.calls[i]? = some (.refresh ticket))
    (hidle : s.cache.flight = none) :
    System.Valid { s with
      cache := s.cache.lead ticket.reason
      calls := s.calls.set i (.fetch ticket s.cache.flights.length) } := by
  refine ⟨?_, fun found hfound j hj => ?_, fun _ => Nat.succ_pos _, fun call now hmem => ?_⟩
  · have hcount := countP_set (p := Stage.isLeading) hstage
      (.fetch ticket s.cache.flights.length)
    have hsole := h.sole
    rw [hidle] at hsole
    simp only [System.fetching, Stage.isLeading, Stage.leads, Option.isSome_none, Option.isSome_some,
      Bool.toNat_false, Bool.toNat_true, Nat.add_zero, KeyCache.lead] at hsole hcount ⊢
    exact hcount.trans (congrArg (· + 1) hsole)
  · rcases List.mem_or_eq_of_mem_set hfound with hold | rfl
    · have hflight := (h.leads found hold j hj).1
      rw [hidle] at hflight
      cases hflight
    · cases hj
      exact ⟨rfl, by simp [KeyCache.lead]⟩
  · rcases List.mem_or_eq_of_mem_set hmem with hold | hnew
    · exact h.past call now hold
    · cases hnew

theorem System.Valid.install {j : Nat} {fetched : Except Failure (KeySet K)} {cache' : KeyCache K}
    {ok : Bool} {err : Option Failure} (h : s.Valid)
    (hstage : s.calls[i]? = some (.install ticket j now fetched))
    (hended : Ended s.cache cache' flight now ok) :
    System.Valid { s with cache := cache', calls := s.calls.set i (.refreshed ticket err) } := by
  have hflight := (h.leads _ (List.mem_of_getElem? hstage) j rfl).1
  have hnone : (s.calls.set i (.refreshed ticket err)).countP Stage.isLeading = 0 := by
    have hcount := countP_set (p := Stage.isLeading) hstage (.refreshed ticket err)
    have hsole := h.sole
    rw [hflight] at hsole
    simp only [System.fetching, Stage.isLeading, Stage.leads, Option.isSome_none, Option.isSome_some,
      Bool.toNat_false, Bool.toNat_true, Nat.add_zero] at hsole hcount ⊢
    omega
  refine ⟨?_, fun found hfound k hk => ?_, ?_, fun call now hmem => ?_⟩
  · simp only [System.fetching, hended.idle]
    exact hnone
  · have hleading := List.countP_eq_zero.mp hnone found hfound
    simp [Stage.isLeading, hk] at hleading
  · simp [hended.idle]
  · rcases List.mem_or_eq_of_mem_set hmem with hold | hnew
    · exact h.past call now hold
    · cases hnew

/-- The step lemma: the invariant is kept, and what it says of time and attempts goes forward. -/
theorem next_valid (h : s.Valid) (input : Input K) :
    (machine.next s input).Valid ∧ Later s (machine.next s input) := by
  cases input with
  | call =>
    refine ⟨⟨?_, fun found hfound j hj => ?_, h.attempted, fun call' now hmem => ?_⟩,
      rfl, le_rfl, le_rfl, fun hidle _ => hidle⟩
    · have hsole := h.sole
      simpa [System.fetching, machine, Machine.next, System.step, Stage.isLeading, Stage.leads]
        using hsole
    · rcases List.mem_append.mp hfound with hold | hnew
      · exact h.leads found hold j hj
      · obtain rfl := List.mem_singleton.mp hnew
        cases hj
    · rcases List.mem_append.mp hmem with hold | hnew
      · exact h.past call' now hold
      · cases List.mem_singleton.mp hnew
  | wait duration =>
    have htime : s.time ≤ s.time + duration := by omega
    exact ⟨⟨h.sole, h.leads, h.attempted, fun call now hmem => (h.past call now hmem).trans htime⟩,
      rfl, htime, le_rfl, fun hidle _ => hidle⟩
  | run i env =>
    cases hstage : s.calls[i]? with
    | none =>
      have hnext : machine.next s (.run i env) = s := by
        simp only [machine, Machine.next, System.step, hstage]
      rw [hnext]
      exact ⟨h, .refl s⟩
    | some =>
      obtain ⟨cache', stage', output, heffect, hentry⟩ := next_run env hstage h
      have hnext : machine.next s (.run i env) =
          { s with cache := cache', calls := s.calls.set i stage' } := congrArg Entry.after hentry
      rw [hnext]
      have hlater : ∀ {c : KeyCache K} {stages : List (Stage K)}, Quiet s.cache c →
          Later s { s with cache := c, calls := stages } := fun hquiet =>
        ⟨hquiet.policy, le_rfl, hquiet.attempt.ge, fun hidle _ => hquiet.flight.trans hidle⟩
      cases heffect with
      | read call =>
        refine ⟨h.quiet hstage (.refl _) rfl fun call now heq => ?_, hlater (.refl _)⟩
        cases heq
        exact le_rfl
      | admitted call now _ ticket quiet =>
        exact ⟨h.quiet hstage quiet rfl (fun _ _ heq => by cases heq), hlater quiet⟩
      | lead ticket idle =>
        refine ⟨h.lead hstage idle, rfl, le_rfl, Nat.le_succ _, fun _ hsame => ?_⟩
        exact absurd hsame (Nat.succ_ne_self _)
      | fetched =>
        exact ⟨h.quiet hstage (.refl _) rfl (fun _ _ heq => by cases heq), hlater (.refl _)⟩
      | install ticket j now fetched flight _ err ok ended =>
        exact ⟨h.install hstage ended, ended.policy, le_rfl, ended.attempt.ge, fun _ _ => ended.idle⟩
      | other _ _ _ quiet before after fresh =>
        exact ⟨h.quiet hstage quiet (after.trans before.symm) fun call now heq =>
          absurd heq (fresh.1 call now), hlater quiet⟩

/-- A step that is not quiet is a step of a call, and its effect is that of the stage. -/
theorem loud_effect (input : Input K) (h : s.Valid)
    (hloud : (machine.entry s input).output ≠ .quiet) :
    ∃ i env stage cache' stage', input = .run i env ∧ s.calls[i]? = some stage ∧
      Effect s.cache s.time stage cache' stage' (machine.entry s input).output ∧
      (machine.entry s input).after.cache = cache' := by
  cases input with
  | call | wait => exact absurd rfl hloud
  | run i env =>
    cases hstage : s.calls[i]? with
    | none =>
      refine absurd ?_ hloud
      simp only [machine, Machine.entry, System.step, hstage]
    | some stage =>
      obtain ⟨cache', stage', output, heffect, hentry⟩ := next_run env hstage h
      rw [hentry]
      exact ⟨i, env, stage, cache', stage', rfl, hstage, heffect, rfl⟩

variable {input : Input K}

theorem ended_spec {ok : Bool} (h : s.Valid)
    (hout : (machine.entry s input).output = .ended flight now ok) :
    s.cache.flight.isSome = true ∧
      Ended s.cache (machine.entry s input).after.cache flight now ok := by
  obtain ⟨i, env, stage, cache', stage', -, hstage, heffect, hafter⟩ :=
    loud_effect input h (by simp [hout])
  rw [hout] at heffect
  rw [hafter]
  cases heffect with
  | install ticket j _ fetched _ _ err _ ended =>
    have hflight := (h.leads _ (List.mem_of_getElem? hstage) j rfl).1
    exact ⟨by simp [hflight], ended⟩

theorem started_spec {reason : RefreshReason} {time : Int} (h : s.Valid)
    (hout : (machine.entry s input).output = .started reason time) :
    ∃ i env ticket, input = .run i env ∧ s.calls[i]? = some (.refresh ticket) ∧
      ticket.reason = reason ∧ s.cache.attempt = ticket.observedAttempt ∧ time = s.time := by
  obtain ⟨i, env, stage, cache', stage', rfl, hstage, heffect, -⟩ :=
    loud_effect input h (by simp [hout])
  rw [hout] at heffect
  cases heffect with
  | lead ticket idle current => exact ⟨i, env, ticket, rfl, hstage, rfl, current, rfl⟩

/-- A gate only opens early when a fetch succeeds, and the reactive gate never does. -/
theorem next_gate (input : Input K) (h : s.Valid) (reason : RefreshReason)
    (hfailed : reason = .reactive ∨
      ∀ flight now, (machine.entry s input).output ≠ .ended flight now true) :
    s.cache.nextAllowed reason ≤ (machine.next s input).cache.nextAllowed reason := by
  cases input with
  | call | wait => exact le_rfl
  | run i env =>
    cases hstage : s.calls[i]? with
    | none =>
      have hnext : machine.next s (.run i env) = s := by
        simp only [machine, Machine.next, System.step, hstage]
      rw [hnext]
    | some =>
      obtain ⟨cache', stage', output, heffect, hentry⟩ := next_run env hstage h
      have hnext : machine.next s (.run i env) =
          { s with cache := cache', calls := s.calls.set i stage' } := congrArg Entry.after hentry
      rw [hentry] at hfailed
      rw [hnext]
      cases heffect with
      | read => exact le_rfl
      | admitted call now _ ticket quiet => exact quiet.gate reason
      | lead => cases reason <;> exact le_rfl
      | fetched => exact le_rfl
      | install ticket j now fetched flight _ err ok ended =>
        refine ended.gate reason (hfailed.imp_right fun hnever => ?_)
        cases ok with
        | false => rfl
        | true => exact absurd rfl (hnever flight now)
      | other _ _ _ quiet => exact quiet.gate reason

/-- In this step the call takes its snapshot of the cache. -/
def TakesSnapshot (e : Entry (System K) (Input K) Output) (i : Nat) : Prop :=
  ∃ env call now, e.input = .run i env ∧ e.before.calls[i]? = some (.snapshot call now)

theorem refresh_admitted (h : s.Valid) (hbefore : s.calls[i]? ≠ some (.refresh ticket))
    (hafter : (machine.next s input).calls[i]? = some (.refresh ticket)) :
    ∃ now, TakesSnapshot (machine.entry s input) i ∧ (machine.entry s input).output = .quiet ∧
      Admits s.cache now ticket ∧ now ≤ s.time := by
  cases input with
  | call =>
    rcases getElem?_concat_eq_some.mp hafter with hold | ⟨-, hnew⟩
    · exact absurd hold hbefore
    · cases hnew
  | wait => exact absurd hafter hbefore
  | run j env =>
    cases hstage : s.calls[j]? with
    | none =>
      have hnext : machine.next s (.run j env) = s := by
        simp only [machine, Machine.next, System.step, hstage]
      rw [hnext] at hafter
      exact absurd hafter hbefore
    | some =>
      obtain ⟨cache', stage', output, heffect, hentry⟩ := next_run env hstage h
      have hnext : machine.next s (.run j env) =
          { s with cache := cache', calls := s.calls.set j stage' } := congrArg Entry.after hentry
      rw [hnext] at hafter
      by_cases hij : j = i
      · subst hij
        have hlt := (List.getElem?_eq_some_iff.mp hstage).1
        have hafter : some stage' = some (.refresh ticket) :=
          (List.getElem?_set_self hlt).symm.trans hafter
        cases hafter
        cases heffect with
        | admitted call now _ _ quiet admits =>
          refine ⟨now, ⟨env, call, now, rfl, hstage⟩, congrArg Entry.output hentry, admits, ?_⟩
          exact h.past call now (List.mem_of_getElem? hstage)
        | other _ _ _ quiet before after fresh => exact absurd rfl (fresh.2 ticket)
      · exact absurd ((List.getElem?_set_ne hij).symm.trans hafter) hbefore

/-! ## Runs -/

theorem new_valid (policy : CachePolicy) (time : Int) : (System.new policy time : System K).Valid := by
  refine ⟨rfl, ?_, ?_, ?_⟩ <;> simp [System.new, newKeyCache]

theorem exec_valid (h : s.Valid) (inputs : List (Input K)) : (machine.exec s inputs).Valid :=
  exec_invariant machine (P := System.Valid) (fun _ input hvalid => (next_valid hvalid input).1) h inputs

theorem exec_later (h : s.Valid) (inputs : List (Input K)) : Later s (machine.exec s inputs) :=
  exec_relation machine Later.refl (fun _ _ _ => Later.trans)
    (fun _ input hvalid => (next_valid hvalid input).1)
    (fun _ input hvalid => (next_valid hvalid input).2) h inputs

theorem exec_gate (h : s.Valid) (inputs : List (Input K)) (reason : RefreshReason)
    (hfailed : reason = .reactive ∨ ∀ e ∈ machine.trace s inputs,
      ∀ flight now, e.output ≠ .ended flight now true) :
    s.cache.nextAllowed reason ≤ (machine.exec s inputs).cache.nextAllowed reason := by
  induction inputs generalizing s with
  | nil => exact le_rfl
  | cons input inputs ih =>
    have hfirst := next_gate input h reason
      (hfailed.imp_right fun hnever => hnever _ List.mem_cons_self)
    have hrest := ih (next_valid h input).1
      (hfailed.imp_right fun hnever e he => hnever e (List.mem_cons_of_mem _ he))
    exact hfirst.trans hrest

variable {inputs : List (Input K)} {e : Entry (System K) (Input K) Output}

theorem trace_valid {n : Nat} (h : s.Valid) (he : (machine.trace s inputs)[n]? = some e) :
    e.before.Valid ∧ e = machine.entry e.before e.input :=
  trace_invariant machine (P := System.Valid) (fun _ input hvalid => (next_valid hvalid input).1) h
    (List.mem_of_getElem? he)

theorem trace_later {a b : Nat} {x y : Entry (System K) (Input K) Output} (h : s.Valid)
    (hab : a < b) (hx : (machine.trace s inputs)[a]? = some x)
    (hy : (machine.trace s inputs)[b]? = some y) : Later x.before y.before := by
  obtain ⟨mid, hmid, -⟩ := trace_between machine hab hx hy
  obtain ⟨hvalid, hentry⟩ := trace_valid h hx
  have hafter : x.after = machine.next x.before x.input := congrArg Entry.after hentry
  have hstep := next_valid hvalid x.input
  rw [hmid, hafter]
  exact hstep.2.trans (exec_later hstep.1 mid)

/-- A fetch that ended before the snapshot of a leader has its gate read by the leader. -/
theorem gate_read {m k : Nat} {g : Entry (System K) (Input K) Output} (h : s.Valid) (hmk : m < k)
    (he : (machine.trace s inputs)[m]? = some e) (hg : (machine.trace s inputs)[k]? = some g)
    {t : Int} {ok : Bool} (hended : e.output = .ended flight t ok) {reason : RefreshReason}
    (hcarries : flight.carries reason = true) (hset : t ≠ 0)
    (hfailed : reason = .reactive ∨ ok = false ∧ ∀ j x, m < j → j < k →
      (machine.trace s inputs)[j]? = some x → ∀ flight now, x.output ≠ .ended flight now true) :
    t + s.cache.policy.refreshCooldown ≤ g.before.cache.nextAllowed reason ∧
      0 < g.before.cache.attempt := by
  obtain ⟨hvalid, hentry⟩ := trace_valid h he
  have hpolicy : e.before.cache.policy = s.cache.policy := by
    rw [trace_before machine he]
    exact (exec_later h _).policy
  obtain ⟨mid, hmid, hinside⟩ := trace_between machine hmk he hg
  rw [hentry] at hended
  obtain ⟨hflight, hclosed⟩ := ended_spec hvalid hended
  have hafter : e.after.Valid := by
    rw [hentry]
    exact (next_valid hvalid e.input).1
  have hcache : e.after.cache = (machine.entry e.before e.input).after.cache :=
    congrArg (fun e => e.after.cache) hentry
  rw [← hcache] at hclosed
  have hkind : reason = .reactive ∨ ok = false := hfailed.imp_right And.left
  have hgate := hclosed.closes reason hkind hcarries hset
  rw [hpolicy] at hgate
  have hkept := exec_gate hafter mid reason (hfailed.imp_right fun hrest x hx => ?_)
  · rw [hmid]
    refine ⟨hgate.trans hkept, ?_⟩
    have hattempt := (exec_later hafter mid).attempt
    have hpos := hvalid.attempted hflight
    have hsame := hclosed.attempt
    omega
  · obtain ⟨j, hj⟩ := List.mem_iff_getElem?.mp hx
    obtain ⟨hlow, hhigh, htrace⟩ := hinside j x hj
    exact hrest.2 _ x hlow hhigh htrace

/-- When a fetch starts, its leader had taken its snapshot at the same attempt, with an open gate. -/
theorem leader_snapshot {n : Nat} {f : Entry (System K) (Input K) Output} (h : s.Valid)
    (hs : s.calls = []) (hf : (machine.trace s inputs)[n]? = some f)
    (hstage : f.before.calls[i]? = some (.refresh ticket)) :
    ∃ k g now, k < n ∧ (machine.trace s inputs)[k]? = some g ∧ TakesSnapshot g i ∧
      g.output = .quiet ∧ Admits g.before.cache now ticket ∧ now ≤ g.before.time := by
  rw [trace_before machine hf] at hstage
  have hstart : ¬ (machine.exec s (inputs.take 0)).calls[i]? = some (.refresh ticket) := by
    simp [hs]
  obtain ⟨k, g, -, hkn, hg, hbefore, hafter⟩ :=
    stretch_change machine (P := fun s => s.calls[i]? = some (.refresh ticket)) (Nat.zero_le n)
      hstart hstage
  obtain ⟨hvalid, hentry⟩ := trace_valid h hg
  have hafter : (machine.next g.before g.input).calls[i]? = some (.refresh ticket) := by
    rw [hentry] at hafter
    exact hafter
  obtain ⟨now, hsnapshot, hquiet, hadmits, hpast⟩ := refresh_admitted hvalid hbefore hafter
  rw [← hentry] at hsnapshot hquiet
  exact ⟨k, g, now, hkn, hg, hsnapshot, hquiet, hadmits, hpast⟩

/-- From a snapshot taken with no fetch in flight to a lead at the same attempt, no fetch ends. -/
theorem no_end_between {k m n : Nat} {g f : Entry (System K) (Input K) Output} (h : s.Valid)
    (hkm : k < m) (hmn : m < n) (hg : (machine.trace s inputs)[k]? = some g)
    (he : (machine.trace s inputs)[m]? = some e) (hf : (machine.trace s inputs)[n]? = some f)
    (hidle : g.before.cache.flight = none)
    (hattempt : f.before.cache.attempt = g.before.cache.attempt) : e.before.cache.flight = none := by
  have hfirst := trace_later h hkm hg he
  have hsecond := trace_later h hmn he hf
  have hle := hfirst.attempt
  have hle' := hsecond.attempt
  exact hfirst.idle hidle (by omega)

/-- Refreshes are throttled. At most one fetch is in flight; and after a fetch that carried the
reactive reason, or that carried the reason and failed with no success since, the next fetch led
for that reason starts after the cooldown, provided its leader took its snapshot while no fetch was
in flight. -/
theorem refresh_throttled (policy : CachePolicy) (time : Int) (inputs : List (Input K)) :
    (machine.exec (System.new policy time) inputs).fetching ≤ 1 ∧
    ∀ (m n : Nat) (e f : Entry (System K) (Input K) Output), m < n →
      (machine.trace (System.new policy time) inputs)[m]? = some e →
      (machine.trace (System.new policy time) inputs)[n]? = some f →
      ∀ flight t ok reason start, e.output = .ended flight t ok → f.output = .started reason start →
      flight.carries reason = true → t ≠ 0 →
      (reason = .reactive ∨ ok = false ∧ ∀ j x, m < j → j < n →
        (machine.trace (System.new policy time) inputs)[j]? = some x →
        ∀ flight now, x.output ≠ .ended flight now true) →
      (∀ i env, f.input = .run i env → ∀ k g, k < n →
        (machine.trace (System.new policy time) inputs)[k]? = some g → TakesSnapshot g i →
        g.before.cache.flight = none) →
      t + policy.refreshCooldown ≤ start := by
  have hnew : (System.new policy time : System K).Valid := new_valid policy time
  constructor
  · rw [(exec_valid hnew inputs).sole]
    exact Bool.toNat_le _
  · intro m n e f hmn he hf flight t ok reason start hended hstarted hcarries hset hfailed hsnapshot
    obtain ⟨hvalid, hentry⟩ := trace_valid hnew hf
    rw [hentry] at hstarted
    obtain ⟨i, env, ticket, hinput, hstage, rfl, hcurrent, rfl⟩ := started_spec hvalid hstarted
    obtain ⟨k, g, now, hkn, hg, htakes, hquiet, hadmits, hpast⟩ :=
      leader_snapshot hnew rfl hf hstage
    have hidle := hsnapshot i env hinput k g hkn hg htakes
    have hattempt : f.before.cache.attempt = g.before.cache.attempt :=
      hcurrent.trans hadmits.observed
    have hmk : m < k := by
      by_contra hle
      rcases Nat.lt_or_eq_of_le (not_lt.mp hle) with hkm | rfl
      · have hnone := no_end_between hnew hkm hmn hg he hf hidle hattempt
        obtain ⟨hvalid', hentry'⟩ := trace_valid hnew he
        rw [hentry'] at hended
        have hflight := (ended_spec hvalid' hended).1
        rw [hnone] at hflight
        cases hflight
      · cases he.symm.trans hg
        rw [hquiet] at hended
        cases hended
    obtain ⟨hgate, hpos⟩ := gate_read hnew hmk he hg hended hcarries hset
      (hfailed.imp_right fun hrest => ⟨hrest.1, fun j x hmj hjk hx =>
        hrest.2 j x hmj (hjk.trans hkn) hx⟩)
    have hopen : g.before.cache.nextAllowed ticket.reason ≤ now :=
      hadmits.open_.resolve_right hpos.ne'
    have htime : g.before.time ≤ f.before.time := (trace_later hnew hkn hg hf).time
    have hpolicy : (System.new policy time : System K).cache.policy = policy := rfl
    rw [hpolicy] at hgate
    omega

/-- The reactive cooldown never moves back, and any other one not before a fetch succeeds. -/
theorem cooldowns_move_forward (policy : CachePolicy) (time : Int) (inputs later : List (Input K)) :
    let s := machine.exec (System.new policy time) inputs
    let s' := machine.exec s later
    s.cache.nextAllowed .reactive ≤ s'.cache.nextAllowed .reactive ∧
    ∀ reason, (∀ e ∈ machine.trace s later, ∀ flight now, e.output ≠ .ended flight now true) →
      s.cache.nextAllowed reason ≤ s'.cache.nextAllowed reason := by
  intro s s'
  have h : s.Valid := exec_valid (new_valid policy time) inputs
  exact ⟨exec_gate h later .reactive (.inl rfl),
    fun reason hfailed => exec_gate h later reason (.inr hfailed)⟩

/-! ## A snapshot taken during a fetch -/

def demoPolicy : CachePolicy := ⟨3600, 300, 60⟩

def demoKeys : KeySet Unit := (∅ : KeySet Unit).insert ⟨"known", "ES256"⟩ ()

/-- Steps of one call while its context lives; a fetch returns the same set. -/
def runCall (i steps : Nat) : List (Input Unit) :=
  List.replicate steps (.run i ⟨none, .ok demoKeys⟩)

/-- The first set is fetched, an unknown key leads a fetch that ends, and after the cooldown a second
unknown key leads one. -/
def spacedUnknownKeys : List (Input Unit) :=
  .call (.resolve ⟨"known", "ES256"⟩) :: runCall 0 7 ++
    .call (.resolve ⟨"first", "ES256"⟩) :: runCall 1 7 ++
    .wait 60 :: .call (.resolve ⟨"second", "ES256"⟩) :: runCall 2 3

theorem refresh_throttled_spaced :
    let outputs := (machine.trace (System.new demoPolicy 1000) spacedUnknownKeys).map Entry.output
    outputs[13]? = some (.ended ⟨false, none, 0, false, false, true⟩ 1000 true) ∧
      outputs[20]? = some (.started .reactive 1060) ∧
      (1000 : Int) + demoPolicy.refreshCooldown ≤ 1060 := by
  intro outputs
  have hended : outputs[13]? = some (.ended ⟨false, none, 0, false, false, true⟩ 1000 true) := by
    decide +kernel
  have hstarted : outputs[20]? = some (.started .reactive 1060) := by decide +kernel
  have hidle : ∀ g ∈ (machine.trace (System.new demoPolicy 1000) spacedUnknownKeys).take 20,
      2 < g.before.calls.length → g.before.cache.flight = none := by decide +kernel
  refine ⟨hended, hstarted, ?_⟩
  rw [List.getElem?_map] at hended hstarted
  obtain ⟨e, he, hend⟩ := Option.map_eq_some_iff.mp hended
  obtain ⟨f, hf, hstart⟩ := Option.map_eq_some_iff.mp hstarted
  refine (refresh_throttled demoPolicy 1000 spacedUnknownKeys).2 13 20 e f (by decide) he hf _ _ _ _ _
    hend hstart rfl (by decide) (.inl rfl) ?_
  -- the second call takes its snapshot after the first fetch has ended
  rintro i env hinput k g hk hg ⟨-, call, now, -, hsnapshot⟩
  have hrun := Option.some.inj (trace_input machine hf)
  rw [hinput] at hrun
  obtain ⟨rfl, -⟩ := Input.run.inj hrun
  exact hidle g (List.mem_of_getElem? (getElem?_take_eq_some.mpr ⟨hk, hg⟩))
    (List.getElem?_eq_some_iff.mp hsnapshot).1

/-- The first set is fetched. Then one unknown key leads a fetch, a second unknown key takes its
snapshot, the fetch ends, and the second call goes on. -/
def twoUnknownKeys : List (Input Unit) :=
  .call (.resolve ⟨"known", "ES256"⟩) :: runCall 0 7 ++
    .call (.resolve ⟨"first", "ES256"⟩) :: runCall 1 3 ++
    .call (.resolve ⟨"second", "ES256"⟩) :: runCall 2 2 ++ runCall 1 2 ++ runCall 2 1

/-- The second call starts a reactive fetch at the very instant the first reactive fetch ended. -/
theorem cooldown_bypassed :
    let outputs := (machine.trace (System.new demoPolicy 1000) twoUnknownKeys).map Entry.output
    (outputs[16]? = some (.ended ⟨false, none, 0, false, false, true⟩ 1000 true) ∧
      outputs[17]? = some (.started .reactive 1000)) ∧
      (1000 : Int) < 1000 + demoPolicy.refreshCooldown := by
  decide +kernel

end Veer.OIDC
