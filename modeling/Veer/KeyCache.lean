import Veer.StepMachine

/-!
# The verification key cache

One `keyCache` and the calls that run on it. A step of a call is one section under `cache.mu` or
what lies between two of them: a check of the context, a reading of the clock, the fetch itself.
What a fetch returns and when a context ends is decided by the environment; how a response becomes
a key set is left out. Times are nanoseconds since the zero time, which is 0, and the counters do
not wrap.
-/
namespace Veer.OIDC
open StepMachine

inductive ContextError
  | canceled | deadlineExceeded
  deriving DecidableEq, Repr

inductive Failure
  | context (err : ContextError)
  | noMatchingKey
  | keySourceUnavailable
  deriving DecidableEq, Repr

structure KeyReference where
  keyID : String
  algorithm : String
  deriving DecidableEq, Repr

structure CachedVerificationKey (K : Type) where
  key : K
  generation : Nat
  refreshAttempted : Bool
  refreshAttemptedAt : Int

abbrev KeySet (K : Type) := AList fun _ : KeyReference => K

inductive RefreshReason
  | required | proactive | reactive
  deriving DecidableEq, Repr

structure RefreshFlight where
  /-- The channel `done` is closed. -/
  finished : Bool
  err : Option Failure
  followers : Nat
  required : Bool
  proactive : Bool
  reactive : Bool
  deriving DecidableEq, Repr

def RefreshFlight.zero : RefreshFlight := ⟨false, none, 0, false, false, false⟩

def RefreshFlight.addReason (flight : RefreshFlight) : RefreshReason → RefreshFlight
  | .required => { flight with required := true }
  | .proactive => { flight with proactive := true }
  | .reactive => { flight with reactive := true }

def RefreshFlight.carries (flight : RefreshFlight) : RefreshReason → Bool
  | .required => flight.required
  | .proactive => flight.proactive
  | .reactive => flight.reactive

structure CachePolicy where
  freshness : Int
  refreshAhead : Int
  refreshCooldown : Int
  deriving DecidableEq, Repr

structure KeyCache (K : Type) where
  policy : CachePolicy
  keys : KeySet K
  generation : Nat
  freshUntil : Int
  refreshAt : Int
  nextRequiredRefreshAllowed : Int
  nextProactiveRefreshAllowed : Int
  nextReactiveRefreshAllowed : Int
  attempt : Nat
  lastAttemptAt : Int
  lastAttemptError : Option Failure
  /-- The flight in progress, an index into `flights`. -/
  flight : Option Nat
  /-- Every flight; a follower keeps its own after the cache has let go of it. -/
  flights : List RefreshFlight

variable {K : Type}

def newKeyCache (policy : CachePolicy) : KeyCache K :=
  ⟨policy, ∅, 0, 0, 0, 0, 0, 0, 0, 0, none, none, []⟩

def KeyCache.fresh (cache : KeyCache K) (now : Int) : Bool :=
  decide (0 < cache.keys.keys.length) && decide (now < cache.freshUntil)

def KeyCache.nextAllowed (cache : KeyCache K) : RefreshReason → Int
  | .required => cache.nextRequiredRefreshAllowed
  | .proactive => cache.nextProactiveRefreshAllowed
  | .reactive => cache.nextReactiveRefreshAllowed

def KeyCache.recordCooldown (cache : KeyCache K) (reason : RefreshReason) (attemptedAt : Int) :
    KeyCache K :=
  if attemptedAt = 0 then cache
  else
    let next := attemptedAt + cache.policy.refreshCooldown
    match reason with
    | .required =>
      if cache.nextRequiredRefreshAllowed < next then
        { cache with nextRequiredRefreshAllowed := next }
      else cache
    | .proactive =>
      if cache.nextProactiveRefreshAllowed < next then
        { cache with nextProactiveRefreshAllowed := next }
      else cache
    | .reactive =>
      if cache.nextReactiveRefreshAllowed < next then
        { cache with nextReactiveRefreshAllowed := next }
      else cache

/-! ## Calls -/

inductive Call (K : Type)
  | resolve (reference : KeyReference)
  | resolveAfterSignatureFailure (reference : KeyReference) (previous : CachedVerificationKey K)

/-- What `resolve` returns, and what `resolveAfterSignatureFailure` returns: a key after a refresh,
a failure with its flag, or neither. -/
inductive Answer (K : Type)
  | resolved (key : CachedVerificationKey K)
  | refused (failure : Failure)
  | refreshed (key : CachedVerificationKey K)
  | refreshRefused (refreshed : Bool) (failure : Failure)
  | unchanged

def Call.refuse (call : Call K) (refreshed : Bool) (failure : Failure) : Answer K :=
  match call with
  | .resolve _ => .refused failure
  | .resolveAfterSignatureFailure .. => .refreshRefused refreshed failure

/-- The arguments of `refresh` and the local value its caller still needs. -/
structure Ticket (K : Type) where
  call : Call K
  observedAttempt : Nat
  reason : RefreshReason
  freshBefore : Bool

inductive Stage (K : Type)
  | start (call : Call K)
  | snapshot (call : Call K) (now : Int)
  | refresh (ticket : Ticket K)
  | follow (ticket : Ticket K) (flight : Nat)
  | followed (ticket : Ticket K) (flight : Nat)
  | fetch (ticket : Ticket K) (flight : Nat)
  | install (ticket : Ticket K) (flight : Nat) (now : Int) (fetched : Except Failure (KeySet K))
  | refreshed (ticket : Ticket K) (err : Option Failure)
  | answer (ticket : Ticket K) (err : Option Failure) (now : Int)
  | missed
  | returned (answer : Answer K)

/-- What the environment decides in a step. -/
structure Env (K : Type) where
  /-- What `ctx.Err()` returns, or that `ctx.Done()` was taken. -/
  context : Option ContextError
  fetched : Except Failure (KeySet K)

inductive Output
  | quiet
  | started (reason : RefreshReason) (time : Int)
  | ended (flight : RefreshFlight) (time : Int) (ok : Bool)
  deriving DecidableEq, Repr

/-! ## Sections -/

/-- The first section of `resolve`. -/
def KeyCache.resolveSnapshot (cache : KeyCache K) (reference : KeyReference) (now : Int) :
    Stage K :=
  let fresh := cache.fresh now
  let due := fresh && decide (cache.refreshAt ≤ now)
  match cache.keys.lookup reference with
  | some key =>
    let reason := if fresh then RefreshReason.proactive else .required
    let refreshAllowed := decide (cache.nextAllowed reason ≤ now)
    if fresh && (!due || !refreshAllowed) then
      .returned (.resolved ⟨key, cache.generation, false, 0⟩)
    else if !fresh && !refreshAllowed && decide (0 < cache.attempt) then
      .returned (.refused .keySourceUnavailable)
    else .refresh ⟨.resolve reference, cache.attempt, reason, fresh⟩
  | none =>
    let reason := if fresh then RefreshReason.reactive else .required
    let refreshAllowed := decide (cache.nextAllowed reason ≤ now)
    if fresh && !refreshAllowed then .returned (.refused .noMatchingKey)
    else if !fresh && !refreshAllowed && decide (0 < cache.attempt) then
      .returned (.refused .keySourceUnavailable)
    else .refresh ⟨.resolve reference, cache.attempt, reason, fresh⟩

/-- The key of a reference as the last section of a call sees it. -/
def KeyCache.lookupFresh (cache : KeyCache K) (reference : KeyReference) (now : Int) :
    Except Failure K :=
  match cache.keys.lookup reference, cache.fresh now with
  | some key, true => .ok key
  | none, true => .error .noMatchingKey
  | _, false => .error .keySourceUnavailable

/-- The first section of `resolveAfterSignatureFailure`. -/
def KeyCache.signatureSnapshot (cache : KeyCache K) (reference : KeyReference)
    (previous : CachedVerificationKey K) (now : Int) : KeyCache K × Stage K :=
  if cache.generation ≠ previous.generation then
    match cache.lookupFresh reference now with
    | .ok key => (cache, .returned (.refreshed ⟨key, cache.generation, false, 0⟩))
    | .error failure => (cache, .returned (.refreshRefused true failure))
  else if now < cache.nextProactiveRefreshAllowed then
    (cache.recordCooldown .reactive
      (cache.nextProactiveRefreshAllowed - cache.policy.refreshCooldown), .returned .unchanged)
  else if previous.refreshAttempted then
    (cache.recordCooldown .reactive previous.refreshAttemptedAt, .returned .unchanged)
  else if now < cache.nextReactiveRefreshAllowed then (cache, .returned .unchanged)
  else
    (cache, .refresh ⟨.resolveAfterSignatureFailure reference previous, cache.attempt, .reactive,
      cache.fresh now⟩)

/-- A context error of another caller is not this caller's. -/
def foreignError (context : Option ContextError) : Option Failure → Option Failure
  | some (.context _) =>
    match context with
    | some err => some (.context err)
    | none => some .keySourceUnavailable
  | err => err

/-- The part of `refresh` for a caller whose snapshot an attempt has overtaken. -/
def KeyCache.recordMismatch (cache : KeyCache K) (reason : RefreshReason) : KeyCache K :=
  let failed := cache.lastAttemptError.isSome
  let cache := if failed || decide (reason = .reactive) then
    cache.recordCooldown reason cache.lastAttemptAt else cache
  if failed && decide (reason = .proactive) then
    cache.recordCooldown .required cache.lastAttemptAt
  else cache

def KeyCache.lead (cache : KeyCache K) (reason : RefreshReason) : KeyCache K :=
  { cache with
    flights := cache.flights ++ [RefreshFlight.zero.addReason reason]
    flight := some cache.flights.length
    attempt := cache.attempt + 1 }

def KeyCache.refreshSection (cache : KeyCache K) (ticket : Ticket K) (time : Int)
    (env : Env K) : KeyCache K × Stage K × Output :=
  match cache.flight with
  | some i =>
    ({ cache with flights := cache.flights.modify i fun flight =>
        { flight.addReason ticket.reason with followers := flight.followers + 1 } },
      .follow ticket i, .quiet)
  | none =>
    if cache.attempt ≠ ticket.observedAttempt then
      (cache.recordMismatch ticket.reason,
        .refreshed ticket (foreignError env.context cache.lastAttemptError), .quiet)
    else
      (cache.lead ticket.reason, .fetch ticket cache.flights.length, .started ticket.reason time)

/-- A usable set replaces the old one and lifts the gates of failed attempts. -/
def KeyCache.installKeys (cache : KeyCache K) (keys : KeySet K) (now : Int) : KeyCache K :=
  let freshUntil := now + cache.policy.freshness
  { cache with
    keys := keys
    generation := cache.generation + 1
    freshUntil := freshUntil
    refreshAt := freshUntil - cache.policy.refreshAhead
    nextRequiredRefreshAllowed := 0
    nextProactiveRefreshAllowed := 0 }

def KeyCache.recordFailure (cache : KeyCache K) (flight : RefreshFlight) (now : Int) :
    KeyCache K :=
  let cache := if flight.required || flight.proactive then
    cache.recordCooldown .required now else cache
  if flight.proactive then cache.recordCooldown .proactive now else cache

def KeyCache.recordReactive (cache : KeyCache K) (flight : RefreshFlight) (now : Int) :
    KeyCache K :=
  if flight.reactive then cache.recordCooldown .reactive now else cache

/-- The flight is done and the cache lets go of it. -/
def KeyCache.closeFlight (cache : KeyCache K) (i : Nat) (now : Int) (err : Option Failure) :
    KeyCache K :=
  { cache with
    lastAttemptAt := now
    lastAttemptError := err
    flights := cache.flights.modify i fun flight => { flight with err := err, finished := true }
    flight := none }

/-- The last section of the leader in `refresh`. -/
def KeyCache.installSection (cache : KeyCache K) (i : Nat) (flight : RefreshFlight) (now : Int)
    (fetched : Except Failure (KeySet K)) : KeyCache K :=
  match fetched with
  | .ok keys => ((cache.installKeys keys now).recordReactive flight now).closeFlight i now none
  | .error failure =>
    ((cache.recordFailure flight now).recordReactive flight now).closeFlight i now (some failure)

def fetchError {α : Type} : Except Failure α → Option Failure
  | .ok _ => none
  | .error failure => some failure

/-- The last section of a call. -/
def KeyCache.answerSection (cache : KeyCache K) (ticket : Ticket K) (err : Option Failure)
    (now : Int) : Stage K :=
  match ticket.call with
  | .resolve reference =>
    match cache.lookupFresh reference now with
    | .ok key => .returned (.resolved ⟨key, cache.generation, true, cache.lastAttemptAt⟩)
    | .error .noMatchingKey =>
      if err.isSome then .returned (.refused .noMatchingKey) else .missed
    | .error failure => .returned (.refused failure)
  | .resolveAfterSignatureFailure reference _ =>
    if err.isSome then
      .returned (.refreshRefused true
        (if ticket.freshBefore && cache.fresh now then .noMatchingKey else .keySourceUnavailable))
    else
      match cache.lookupFresh reference now with
      | .ok key => .returned (.refreshed ⟨key, cache.generation, false, 0⟩)
      | .error failure => .returned (.refreshRefused true failure)

/-- One step of a call at the time of the clock. -/
def KeyCache.perform (cache : KeyCache K) (time : Int) (stage : Stage K) (env : Env K) :
    KeyCache K × Stage K × Output :=
  match stage with
  | .start call =>
    match env.context with
    | some err => (cache, .returned (call.refuse false (.context err)), .quiet)
    | none => (cache, .snapshot call time, .quiet)
  | .snapshot (.resolve reference) now => (cache, cache.resolveSnapshot reference now, .quiet)
  | .snapshot (.resolveAfterSignatureFailure reference previous) now =>
    let (cache, stage) := cache.signatureSnapshot reference previous now
    (cache, stage, .quiet)
  | .refresh ticket => cache.refreshSection ticket time env
  | .follow ticket i =>
    match env.context with
    | some err => (cache, .refreshed ticket (some (.context err)), .quiet)
    | none =>
      if (cache.flights[i]?).any RefreshFlight.finished then (cache, .followed ticket i, .quiet)
      else (cache, stage, .quiet)
  | .followed ticket i =>
    let err := (cache.flights[i]?).bind RefreshFlight.err
    (cache, .refreshed ticket (foreignError env.context err), .quiet)
  | .fetch ticket i => (cache, .install ticket i time env.fetched, .quiet)
  | .install ticket i now fetched =>
    match cache.flights[i]? with
    | none => (cache, .refreshed ticket (fetchError fetched), .quiet)
    | some flight =>
      (cache.installSection i flight now fetched, .refreshed ticket (fetchError fetched),
        .ended flight now (fetchError fetched).isNone)
  | .refreshed ticket err =>
    match err, env.context with
    | some _, some cause => (cache, .returned (ticket.call.refuse true (.context cause)), .quiet)
    | _, _ => (cache, .answer ticket err time, .quiet)
  | .answer ticket err now => (cache, cache.answerSection ticket err now, .quiet)
  | .missed =>
    (cache.recordCooldown .reactive cache.lastAttemptAt, .returned (.refused .noMatchingKey),
      .quiet)
  | .returned answer => (cache, .returned answer, .quiet)

/-! ## The machine -/

/-- The cache, the clock and the calls made so far. -/
structure System (K : Type) where
  cache : KeyCache K
  time : Int
  calls : List (Stage K)

/-- A call, the passing of time, or a step of a call. The clock never goes back. -/
inductive Input (K : Type)
  | call (call : Call K)
  | wait (duration : Nat)
  | run (index : Nat) (env : Env K)

def System.step (s : System K) : Input K → System K × Output
  | .call call => ({ s with calls := s.calls ++ [.start call] }, .quiet)
  | .wait duration => ({ s with time := s.time + duration }, .quiet)
  | .run i env =>
    match s.calls[i]? with
    | none => (s, .quiet)
    | some stage =>
      let (cache, stage, output) := s.cache.perform s.time stage env
      ({ s with cache := cache, calls := s.calls.set i stage }, output)

def machine : Machine (System K) (Input K) Output := ⟨System.step⟩

def System.new (policy : CachePolicy) (time : Int) : System K := ⟨newKeyCache policy, time, []⟩

end Veer.OIDC
