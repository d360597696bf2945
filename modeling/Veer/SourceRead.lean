import Veer.Broker
import Veer.StepMachine

/-!
# One read of source material

`resolveOwned` claims read budget, calls the resolver, publishes what it returned into the holder of
the flight and settles the claim. The read is a machine that stops wherever the holder or a backend
is used, so that others may invalidate the holder in between; the answers of the budget, the
resolver, the clock and the contexts are inputs. A context and a holder are given: the model has no
nil pointers.
-/
namespace Veer.CredentialBroker.SourceRead
open StepMachine (Machine Entry)

/-- `SecretReadOutcome`, with the values outside the settlement contract. -/
inductive ReadOutcome
  | consumed | released | retained
  | other (code : Nat)
  deriving DecidableEq, Repr

def ReadOutcome.valid : ReadOutcome → Bool
  | consumed | released | retained => true
  | other _ => false

/-- What the resolver returned. -/
structure Answer where
  material : Option Nat
  outcome : ReadOutcome
  failed : Bool
  deriving DecidableEq, Repr

/-- The local values of `resolveOwned` when it settles the claim. -/
structure Read where
  material : Option Nat
  outcome : ReadOutcome
  /-- `resolveErr` is set, by the resolver, its context or the clock. -/
  failed : Bool
  expiresAt : Int
  published : Bool
  providerReturnedWithoutError : Bool
  providerTupleValid : Bool
  deriving DecidableEq, Repr

/-- A read whose context ended before the resolver was called. -/
def Read.skipped : Read := ⟨none, .released, true, 0, false, false, false⟩

def Read.settlement (read : Read) : ReadOutcome :=
  if !read.outcome.valid || (read.material.isSome && read.outcome == .released) ||
      (read.providerReturnedWithoutError && !read.providerTupleValid) then
    .retained
  else read.outcome

def Read.publishable (read : Read) : Bool :=
  read.providerTupleValid && !read.failed && read.published

/-- Where `resolveOwned` stands. -/
inductive Point
  | entry
  | claim
  /-- A claim came together with an error. -/
  | refuse
  | resolve
  | resolving
  | observe (read : Read)
  | settle (read : Read)
  | current (expiresAt : Int)
  | confirm (material : Nat) (expiresAt : Int)
  | fail
  | failing
  | returned (result : Except Failure (Nat × Int))
  deriving DecidableEq

/-- The holder of the flight, what has been destroyed, and the read. `destroying` is what an
invalidation has taken out of the holder, until its destruction is done. -/
structure System where
  source : FlightSource
  destroying : Option (Option Nat)
  destroyed : List Nat
  point : Point

@[simp] def System.go (s : System) (point : Point) : System := { s with point := point }

def System.destroySource (s : System) (material : Option Nat) : System :=
  { s with destroyed := material.toList ++ s.destroyed }

/-- `flightSource.publish`: material that the holder does not take is destroyed. -/
def System.publish (s : System) (material : Option Nat) : System × Bool :=
  match material with
  | none => (s, false)
  | some m =>
    if s.source.invalid ∨ s.source.material.isSome then (s.destroySource (some m), false)
    else ({ s with source := ⟨some m, false⟩ }, true)

def System.current (s : System) : Option Nat := if s.source.invalid then none else s.source.material

/-- `flightSource.invalidate` up to the end of its lock. -/
def System.invalidate (s : System) : System :=
  if s.source.invalid then s
  else { s with source := ⟨none, true⟩, destroying := some s.source.material }

/-- The rest of `flightSource.invalidate`: those who wait for it go on. -/
def System.finish (s : System) : System :=
  match s.destroying with
  | none => s
  | some material => { s.destroySource material with destroying := none }

/-- What the backends answer when the read makes a turn. -/
structure Turn where
  contextErr : Option Failure
  claimPresent : Bool
  claimFailed : Bool
  claimContextFailed : Bool
  answer : Answer
  resolveContextFailed : Bool
  /-- The sample of the clock, if its time was accepted. -/
  observed : Except Failure Int
  settleFailed : Bool
  settleContextFailed : Bool

/-- What a turn does with the budget, the resolver and the holder. -/
inductive Event
  | quiet
  | claimed (present : Bool)
  | called
  | answered (answer : Answer) (valid : Bool)
  | settled (outcome : ReadOutcome) (ok : Bool)
  | owned (material : Nat)
  | returned (result : Except Failure (Nat × Int))
  deriving DecidableEq

def contextFailure (env : Turn) : Failure := env.contextErr.getD .unavailable

def System.answered (s : System) (env : Turn) : System × Event :=
  let valid := env.answer.material.any fun m => decide (m ∉ s.destroyed)
  let (published, taken) := s.publish env.answer.material
  (published.go (.observe
    { material := env.answer.material
      outcome := env.answer.outcome
      failed := env.answer.failed || env.resolveContextFailed
      expiresAt := 0
      published := taken
      providerReturnedWithoutError := !env.answer.failed
      providerTupleValid := !env.answer.failed && valid && env.answer.outcome == .consumed }),
    .answered env.answer valid)

def System.settled (s : System) (read : Read) (env : Turn) : System × Event :=
  let ok := !env.settleFailed && !env.settleContextFailed
  (s.go (if ok && read.publishable then .current read.expiresAt else .fail),
    .settled read.settlement ok)

/-- The next turn of the read. -/
def System.turn (s : System) (env : Turn) : System × Event :=
  match s.point with
  | .entry =>
    match env.contextErr with
    | some failure => (s.go (.returned (.error failure)), .returned (.error failure))
    | none => (s.go .claim, .quiet)
  | .claim =>
    if env.claimFailed || env.claimContextFailed || !env.claimPresent then
      (s.go (if env.claimPresent then .refuse else .fail), .claimed env.claimPresent)
    else (s.go .resolve, .claimed true)
  | .refuse =>
    (s.go .fail, .settled .retained (!env.settleFailed && !env.settleContextFailed))
  | .resolve =>
    if env.contextErr.isSome then (s.go (.settle .skipped), .quiet) else (s.go .resolving, .called)
  | .resolving => s.answered env
  | .observe read =>
    match env.observed with
    | .error _ => (s.go (.settle { read with failed := true }), .quiet)
    | .ok sample =>
      (s.go (.settle { read with expiresAt := sample + maxSourceCacheTTL }), .quiet)
  | .settle read => s.settled read env
  | .current expiresAt =>
    match s.current with
    | none => (s.go .fail, .quiet)
    | some m => (s.go (.confirm m expiresAt), .owned m)
  | .confirm m expiresAt =>
    if m ∈ s.destroyed then (s.go .fail, .quiet)
    else (s.go (.returned (.ok (m, expiresAt))), .returned (.ok (m, expiresAt)))
  | .fail =>
    -- a holder that is invalid already: wait for its destruction
    if s.source.invalid then
      if s.destroying.isSome then (s, .quiet)
      else (s.go (.returned (.error (contextFailure env))), .returned (.error (contextFailure env)))
    else (s.invalidate.go .failing, .quiet)
  | .failing =>
    (s.finish.go (.returned (.error (contextFailure env))), .returned (.error (contextFailure env)))
  | .returned _ => (s, .quiet)

/-- A turn of the read, or one half of an invalidation by somebody else. -/
inductive Input
  | turn (env : Turn)
  | invalidate
  | finish

def System.step (s : System) : Input → System × Event
  | .turn env => s.turn env
  | .invalidate => (s.invalidate, .quiet)
  | .finish => (s.finish, .quiet)

def machine : Machine System Input Event := ⟨System.step⟩

/-- A read that starts with an empty holder, which may have been invalidated before. -/
def start (invalid : Bool) (destroyed : List Nat) : System :=
  ⟨⟨none, invalid⟩, none, destroyed, .entry⟩

/-! ## What the record of a read says -/

@[simp] def Event.isSettlement : Event → Bool
  | settled _ _ => true
  | _ => false

/-- Claims that the budget has returned. -/
def claims (record : List Event) : Nat := record.count (.claimed true)

def settlements (record : List Event) : Nat := record.countP Event.isSettlement

@[simp] theorem claims_append (record : List Event) (event : Event) :
    claims (record ++ [event]) = claims record + if event = .claimed true then 1 else 0 := by
  simp [claims, List.count_append, List.count_singleton]

@[simp] theorem settlements_append (record : List Event) (event : Event) :
    settlements (record ++ [event]) =
      settlements record + if event.isSettlement then 1 else 0 := by
  simp [settlements, List.countP_append, List.countP_singleton]

theorem not_settled_of_zero {record : List Event} (h : settlements record = 0)
    (outcome : ReadOutcome) (ok : Bool) : .settled outcome ok ∉ record := by
  intro hmem
  have hnone := List.countP_eq_zero.mp h _ hmem
  exact hnone rfl

/-- The resolver returned material `m` as its contract has it. -/
def Delivered (record : List Event) (m : Nat) : Prop :=
  .answered ⟨some m, .consumed, false⟩ true ∈ record

/-- The local values agree with what the resolver answered. -/
def Heard (record : List Event) (s : System) (read : Read) : Prop :=
  ∃ answer valid, .answered answer valid ∈ record ∧ read.material = answer.material ∧
    read.outcome = answer.outcome ∧ read.providerReturnedWithoutError = !answer.failed ∧
    read.providerTupleValid = (!answer.failed && valid && answer.outcome == .consumed) ∧
    (read.published = true → s.source.invalid = false → s.source.material = answer.material) ∧
    (valid = true → answer.material.isSome = true)

/-- The same, or the resolver was not called. -/
def Describes (record : List Event) (s : System) (read : Read) : Prop :=
  (read = .skipped ∧ .called ∉ record) ∨ Heard record s read

/-- What has happened when the read stands at a point. -/
def Fits (record : List Event) (s : System) : Point → Prop
  | .entry | .claim => claims record = 0 ∧ settlements record = 0 ∧ .called ∉ record
  | .refuse | .resolve => claims record = 1 ∧ settlements record = 0 ∧ .called ∉ record
  | .resolving => claims record = 1 ∧ settlements record = 0 ∧ .called ∈ record
  | .observe read => claims record = 1 ∧ settlements record = 0 ∧ Heard record s read
  | .settle read => claims record = 1 ∧ settlements record = 0 ∧ Describes record s read
  | .current _ =>
    claims record = 1 ∧ settlements record = 1 ∧ .settled .consumed true ∈ record ∧
      ∃ m, Delivered record m ∧ (s.source.invalid = false → s.source.material = some m)
  | .confirm m _ =>
    claims record = 1 ∧ settlements record = 1 ∧ .settled .consumed true ∈ record ∧
      Delivered record m ∧ .owned m ∈ record
  | .fail => settlements record = claims record ∧ claims record ≤ 1
  | .failing => settlements record = claims record ∧ claims record ≤ 1 ∧ s.source.invalid = true
  | .returned (.ok (m, _)) =>
    claims record = 1 ∧ settlements record = 1 ∧ .settled .consumed true ∈ record ∧
      Delivered record m ∧ .owned m ∈ record
  | .returned (.error _) => settlements record = claims record ∧ claims record ≤ 1 ∧
    ((s.source.material = none ∧ ∀ m, s.destroying ≠ some (some m)) ∨ .called ∉ record)

/-- The holder is empty once it is invalid, and holds, hands over or has lost to destruction whatever
the resolver returned. -/
structure Holds (record : List Event) (s : System) : Prop where
  empty : s.source.invalid = true → s.source.material = none
  destroying : s.destroying ≠ none → s.source.invalid = true
  called : ∀ answer valid, .answered answer valid ∈ record → .called ∈ record
  materials : ∀ answer valid m, .answered answer valid ∈ record → answer.material = some m →
    m ∈ s.destroyed ∨ s.source.material = some m ∨ s.destroying = some (some m)

/-- A claim is released only if nothing was read. -/
def Honest (record : List Event) : Prop :=
  ∀ ok, .settled .released ok ∈ record →
    .called ∉ record ∨ ∃ valid, .answered ⟨none, .released, true⟩ valid ∈ record

variable {record : List Event} {s : System}

/-! ## Others invalidate the holder -/

/-- What a point says of the holder survives its invalidation. -/
structure Weakens (s s' : System) : Prop where
  invalid : s.source.invalid = true → s'.source.invalid = true
  source : s'.source.invalid = false → s'.source = s.source ∧ s.source.invalid = false
  empty : s.source.material = none → s'.source.material = none
  gone : s.source.material = none → (∀ m, s.destroying ≠ some (some m)) →
    ∀ m, s'.destroying ≠ some (some m)

variable {read : Read}

theorem Heard.weaken {s' : System} (hweak : Weakens s s') (h : Heard record s read) :
    Heard (record ++ [.quiet]) s' read := by
  obtain ⟨answer, valid, hanswer, hmaterial, houtcome, hreturned, htuple, hpublished, hvalid⟩ := h
  refine ⟨answer, valid, List.mem_append_left _ hanswer, hmaterial, houtcome, hreturned, htuple,
    fun htaken hlive => ?_, hvalid⟩
  obtain ⟨hsource, hbefore⟩ := hweak.source hlive
  rw [hsource]
  exact hpublished htaken hbefore

theorem Describes.weaken {s' : System} (hweak : Weakens s s') (h : Describes record s read) :
    Describes (record ++ [.quiet]) s' read := by
  rcases h with ⟨hskipped, hcalled⟩ | hheard
  · exact .inl ⟨hskipped, by simpa using hcalled⟩
  · exact .inr (hheard.weaken hweak)

theorem Fits.weaken {s' : System} {point : Point} (hweak : Weakens s s') (h : Fits record s point) :
    Fits (record ++ [.quiet]) s' point := by
  have hclaims : claims (record ++ [.quiet]) = claims record := by simp
  have hsettlements : settlements (record ++ [.quiet]) = settlements record := by
    simp [Event.isSettlement]
  have hcalled : .called ∈ record ++ [.quiet] ↔ .called ∈ record := by simp
  have hkeep : ∀ {event : Event}, event ∈ record → event ∈ record ++ [.quiet] :=
    List.mem_append_left _
  cases point with
  | entry | claim | refuse | resolve | resolving =>
    simpa only [Fits, hclaims, hsettlements, hcalled] using h
  | observe read | settle read =>
    exact ⟨hclaims.trans h.1, hsettlements.trans h.2.1, h.2.2.weaken hweak⟩
  | current =>
    obtain ⟨hone, hsettled, hconsumed, m, hdelivered, howned⟩ := h
    refine ⟨hclaims.trans hone, hsettlements.trans hsettled, hkeep hconsumed, m, hkeep hdelivered,
      fun hlive => ?_⟩
    obtain ⟨hsource, hbefore⟩ := hweak.source hlive
    rw [hsource]
    exact howned hbefore
  | confirm =>
    obtain ⟨hone, hsettled, hconsumed, hdelivered, howned⟩ := h
    exact ⟨hclaims.trans hone, hsettlements.trans hsettled, hkeep hconsumed, hkeep hdelivered,
      hkeep howned⟩
  | fail => simpa only [Fits, hclaims, hsettlements] using h
  | failing =>
    obtain ⟨hequal, hone, hinvalid⟩ := h
    refine ⟨?_, ?_, hweak.invalid hinvalid⟩
    · rw [hclaims, hsettlements, hequal]
    · rw [hclaims]
      exact hone
  | returned result =>
    cases result with
    | error =>
      obtain ⟨hequal, hone, hgone⟩ := h
      refine ⟨?_, ?_, ?_⟩
      · rw [hclaims, hsettlements, hequal]
      · rw [hclaims]
        exact hone
      · rw [hcalled]
        exact hgone.imp_left fun hempty => ⟨hweak.empty hempty.1, hweak.gone hempty.1 hempty.2⟩
    | ok =>
      obtain ⟨hone, hsettled, hconsumed, hdelivered, howned⟩ := h
      exact ⟨hclaims.trans hone, hsettlements.trans hsettled, hkeep hconsumed, hkeep hdelivered,
        hkeep howned⟩

theorem weakens_invalidate (s : System) : Weakens s s.invalidate := by
  unfold System.invalidate
  split_ifs with hinvalid
  · exact ⟨id, fun h => ⟨rfl, h⟩, id, fun _ h => h⟩
  refine ⟨fun _ => rfl, fun h => (nomatch h), fun _ => rfl, fun hempty _ m => ?_⟩
  rw [hempty]
  simp

theorem weakens_finish (s : System) : Weakens s s.finish := by
  unfold System.finish System.destroySource
  split
  · exact ⟨id, fun h => ⟨rfl, h⟩, id, fun _ h => h⟩
  · exact ⟨id, fun h => ⟨rfl, h⟩, id, fun _ _ m => by simp⟩

theorem finish_destroying (s : System) : s.finish.destroying = none := by
  unfold System.finish
  split
  next hnone => exact hnone
  next => rfl

theorem Holds.invalidate (h : Holds record s) : Holds record s.invalidate := by
  unfold System.invalidate
  split_ifs with hinvalid
  · exact h
  refine ⟨fun _ => rfl, fun _ => rfl, h.called, fun answer valid m hanswer hm => ?_⟩
  rcases h.materials answer valid m hanswer hm with hdead | hheld | hleaving
  · exact .inl hdead
  · exact .inr (.inr (congrArg some hheld))
  · exact absurd (h.destroying (by rw [hleaving]; simp)) hinvalid

theorem Holds.finish (h : Holds record s) : Holds record s.finish := by
  unfold System.finish
  cases hdestroying : s.destroying with
  | none => exact h
  | some =>
    refine ⟨h.empty, fun hne => absurd rfl hne, h.called, fun answer valid m hanswer hm => ?_⟩
    rcases h.materials answer valid m hanswer hm with hdead | hheld | hleaving
    · exact .inl (List.mem_append_right _ hdead)
    · exact .inr (.inl hheld)
    · rw [hdestroying, Option.some.injEq] at hleaving
      exact .inl (List.mem_append_left _ (by simp [hleaving]))

theorem Holds.quiet (h : Holds record s) (event : Event)
    (hevent : ∀ answer valid, event ≠ .answered answer valid) : Holds (record ++ [event]) s := by
  have hold : ∀ answer valid, .answered answer valid ∈ record ++ [event] →
      .answered answer valid ∈ record := by
    intro answer valid hanswer
    rcases List.mem_append.mp hanswer with hanswer | hanswer
    · exact hanswer
    · exact absurd (List.mem_singleton.mp hanswer).symm (hevent answer valid)
  exact ⟨h.empty, h.destroying,
    fun answer valid hanswer => List.mem_append_left _ (h.called answer valid (hold answer valid hanswer)),
    fun answer valid m hanswer => h.materials answer valid m (hold answer valid hanswer)⟩

/-! ## Turns of the read -/

theorem Honest.append (h : Honest record) {event : Event} (hcalled : event ≠ .called)
    (hreleased : ∀ ok, event = .settled .released ok →
      .called ∉ record ∨ ∃ valid, .answered ⟨none, .released, true⟩ valid ∈ record) :
    Honest (record ++ [event]) := by
  intro ok hsettled
  have hbefore : .called ∉ record ∨
      ∃ valid, .answered ⟨none, .released, true⟩ valid ∈ record := by
    rcases List.mem_append.mp hsettled with hsettled | hsettled
    · exact h ok hsettled
    · exact hreleased ok (List.mem_singleton.mp hsettled).symm
  rcases hbefore with hnot | ⟨valid, hanswer⟩
  · refine .inl fun hmem => ?_
    rcases List.mem_append.mp hmem with hmem | hmem
    · exact hnot hmem
    · exact hcalled (List.mem_singleton.mp hmem).symm
  · exact .inr ⟨valid, List.mem_append_left _ hanswer⟩

theorem Honest.fresh (h : settlements record = 0) (event : Event)
    (hevent : event.isSettlement = false) : Honest (record ++ [event]) := by
  intro ok hsettled
  refine absurd hsettled (not_settled_of_zero ?_ _ _)
  rw [settlements_append, h, hevent]
  rfl

theorem Describes.honest (h : Describes record s read) (hreleased : read.settlement = .released) :
    .called ∉ record ∨ ∃ valid, .answered ⟨none, .released, true⟩ valid ∈ record := by
  rcases h with ⟨-, hcalled⟩ | ⟨answer, valid, hanswer, hmaterial, houtcome, hreturned, htuple, -, -⟩
  · exact .inl hcalled
  right
  unfold Read.settlement at hreleased
  split_ifs at hreleased with hretained
  have houtcome' : answer.outcome = .released := houtcome.symm.trans hreleased
  have htupleFalse : read.providerTupleValid = false := by
    rw [htuple, houtcome']
    simp
  simp only [hmaterial, hreleased, hreturned, htupleFalse, ReadOutcome.valid, Bool.not_true,
    Bool.false_or, beq_self_eq_true, Bool.and_true, Bool.not_false, Bool.or_eq_true,
    Bool.not_eq_true', not_or, Bool.not_eq_true, Bool.not_eq_false, Option.isSome_eq_false_iff,
    Option.isNone_iff_eq_none] at hretained
  obtain ⟨material, outcome, failed⟩ := answer
  obtain ⟨rfl, rfl⟩ := hretained
  obtain rfl : outcome = .released := houtcome'
  exact ⟨valid, hanswer⟩

theorem Describes.consumed (h : Describes record s read) (hpublishable : read.publishable = true) :
    read.settlement = .consumed ∧ ∃ m, Delivered record m ∧
      (s.source.invalid = false → s.source.material = some m) := by
  simp only [Read.publishable, Bool.and_eq_true] at hpublishable
  obtain ⟨⟨htupleTrue, -⟩, htaken⟩ := hpublishable
  rcases h with ⟨rfl, -⟩ | ⟨answer, valid, hanswer, hmaterial, houtcome, hreturned, htuple, hpublished,
    hvalid⟩
  · cases htaken
  · have hcontract := htuple.symm.trans htupleTrue
    simp only [Bool.and_eq_true, Bool.not_eq_true', beq_iff_eq] at hcontract
    obtain ⟨⟨hok, hvalidTrue⟩, hconsumed⟩ := hcontract
    obtain ⟨m, hm⟩ := Option.isSome_iff_exists.mp (hvalid hvalidTrue)
    constructor
    · unfold Read.settlement
      rw [houtcome, hconsumed, htupleTrue]
      simp [ReadOutcome.valid]
    · refine ⟨m, ?_, fun hlive => (hpublished htaken hlive).trans hm⟩
      obtain ⟨material, outcome, failed⟩ := answer
      obtain rfl : material = some m := hm
      obtain rfl : outcome = .consumed := hconsumed
      obtain rfl : failed = false := hok
      rw [hvalidTrue] at hanswer
      exact hanswer

structure Kept (record : List Event) (s : System) : Prop where
  holds : Holds record s
  honest : Honest record
  fits : Fits record s s.point

/-- Published or destroyed, the material that the resolver returned is accounted for. -/
theorem Holds.publish (h : Holds record s) (answer : Answer) (valid : Bool)
    (hcalled : .called ∈ record) :
    Holds (record ++ [.answered answer valid]) (s.publish answer.material).1 ∧
      ((s.publish answer.material).2 = true →
        (s.publish answer.material).1.source.material = answer.material) := by
  have hanswers : ∀ other v, .answered other v ∈ record ++ [.answered answer valid] →
      .answered other v ∈ record ∨ other = answer := by
    intro other v hother
    rcases List.mem_append.mp hother with hother | hother
    · exact .inl hother
    · exact .inr (Event.answered.inj (List.mem_singleton.mp hother)).1
  have hcalled' : ∀ other v, .answered other v ∈ record ++ [.answered answer valid] →
      .called ∈ record ++ [.answered answer valid] := fun _ _ _ => List.mem_append_left _ hcalled
  unfold System.publish
  cases hmaterial : answer.material with
  | none =>
    refine ⟨⟨h.empty, h.destroying, hcalled', fun other v m hother hm => ?_⟩, fun htaken => nomatch htaken⟩
    rcases hanswers other v hother with hold | rfl
    · exact h.materials other v m hold hm
    · cases hmaterial.symm.trans hm
  | some =>
    split_ifs with hrefused
    · refine ⟨⟨h.empty, h.destroying, hcalled', fun other v m hother hm => ?_⟩,
        fun htaken => nomatch htaken⟩
      rcases hanswers other v hother with hold | rfl
      · exact (h.materials other v m hold hm).imp_left (List.mem_cons_of_mem _)
      · cases hmaterial.symm.trans hm
        exact .inl List.mem_cons_self
    · simp only [not_or, Bool.not_eq_true, Option.isSome_eq_false_iff, Option.isNone_iff_eq_none]
        at hrefused
      refine ⟨⟨fun hinvalid => (nomatch hinvalid), fun hne => ?_, hcalled', fun other v m hother hm => ?_⟩,
        fun _ => rfl⟩
      · have hinvalid := h.destroying hne
        rw [hrefused.1] at hinvalid
        cases hinvalid
      · rcases hanswers other v hother with hold | rfl
        · rcases h.materials other v m hold hm with hdead | hheld | hleaving
          · exact .inl hdead
          · cases hrefused.2.symm.trans hheld
          · exact .inr (.inr hleaving)
        · exact .inr (.inl (hmaterial.symm.trans hm))

theorem answered_kept (h : Kept record s) (hpoint : s.point = .resolving) (env : Turn) :
    Kept (record ++ [(s.answered env).2]) (s.answered env).1 := by
  have hfits := h.fits
  rw [hpoint] at hfits
  obtain ⟨hclaims, hsettlements, hcalled⟩ := hfits
  obtain ⟨hholds, htaken⟩ := h.holds.publish env.answer
    (env.answer.material.any fun m => decide (m ∉ s.destroyed)) hcalled
  refine ⟨⟨hholds.empty, hholds.destroying, hholds.called, hholds.materials⟩,
    Honest.fresh hsettlements _ rfl, ?_, ?_, env.answer, _,
      List.mem_append_right _ (List.mem_singleton_self _), rfl, rfl, rfl, rfl,
      fun hpublished _ => htaken hpublished, ?_⟩
  · simp [System.answered, hclaims]
  · simp [System.answered, hsettlements, Event.isSettlement]
  · intro hvalid
    cases hmaterial : env.answer.material with
    | none =>
      rw [hmaterial] at hvalid
      cases hvalid
    | some => rfl

theorem settled_kept (h : Kept record s) (hpoint : s.point = .settle read) (env : Turn) :
    Kept (record ++ [(s.settled read env).2]) (s.settled read env).1 := by
  have hfits := h.fits
  rw [hpoint] at hfits
  obtain ⟨hclaims, hsettlements, hdescribes⟩ := hfits
  have hclaims' : claims (record ++ [(s.settled read env).2]) = 1 := by
    simp [System.settled, hclaims]
  have hsettlements' : settlements (record ++ [(s.settled read env).2]) = 1 := by
    simp [System.settled, hsettlements, Event.isSettlement]
  refine ⟨?_, ?_, ?_⟩
  · have hholds : Holds (record ++ [(s.settled read env).2]) s :=
      h.holds.quiet _ fun answer valid => by simp [System.settled]
    exact ⟨hholds.empty, hholds.destroying, hholds.called, hholds.materials⟩
  · refine h.honest.append (by simp [System.settled]) fun ok hevent => hdescribes.honest ?_
    exact (Event.settled.inj hevent).1
  · by_cases hok : (!env.settleFailed && !env.settleContextFailed && read.publishable) = true
    · have hnext : (s.settled read env).1.point = .current read.expiresAt := by
        simp only [System.settled, System.go]
        rw [if_pos hok]
      simp only [Bool.and_eq_true] at hok
      obtain ⟨hconsumed, m, hdelivered, howned⟩ := hdescribes.consumed hok.2
      rw [hnext]
      refine ⟨hclaims', hsettlements', List.mem_append_right _ ?_, m,
        List.mem_append_left _ hdelivered, howned⟩
      simp only [System.settled, hconsumed, hok.1.1, hok.1.2, Bool.and_self, List.mem_singleton]
    · have hnext : (s.settled read env).1.point = .fail := by
        simp only [System.settled, System.go]
        rw [if_neg hok]
      rw [hnext]
      exact ⟨hsettlements'.trans hclaims'.symm, hclaims'.le⟩

theorem Kept.go (h : Kept record s) {event : Event} {point : Point}
    (hanswer : ∀ answer valid, event ≠ .answered answer valid) (hhonest : Honest (record ++ [event]))
    (hfits : Fits (record ++ [event]) s point) : Kept (record ++ [event]) (s.go point) := by
  have hholds := h.holds.quiet event hanswer
  refine ⟨⟨hholds.empty, hholds.destroying, hholds.called, hholds.materials⟩, hhonest, ?_⟩
  cases point with
  | returned result => cases result <;> exact hfits
  | _ => exact hfits

theorem Honest.other (h : Honest record) (event : Event) (hcalled : event ≠ .called)
    (hevent : event.isSettlement = false) : Honest (record ++ [event]) :=
  h.append hcalled fun ok hsettled => by
    rw [hsettled] at hevent
    cases hevent

theorem Holds.gone (h : Holds record s) (hinvalid : s.source.invalid = true)
    (hdone : s.destroying = none) :
    s.source.material = none ∧ ∀ m, s.destroying ≠ some (some m) :=
  ⟨h.empty hinvalid, fun m => by rw [hdone]; simp⟩

theorem turn_kept (h : Kept record s) (env : Turn) :
    Kept (record ++ [(s.turn env).2]) (s.turn env).1 := by
  have hfits := h.fits
  have hsame : Weakens s s := ⟨id, fun hlive => ⟨rfl, hlive⟩, id, fun _ hgone => hgone⟩
  fun_cases System.turn s env
  all_goals rename s.point = _ => hpoint; rw [hpoint] at hfits
  case case1 =>
    obtain ⟨hclaims, hsettlements, hcalled⟩ := hfits
    refine h.go (fun _ _ => by simp) (Honest.fresh hsettlements _ rfl) ⟨?_, ?_, .inr ?_⟩
    · simp [hclaims, hsettlements]
    · simp [hclaims]
    · simpa using hcalled
  case case2 | case4 =>
    obtain ⟨hclaims, hsettlements, hcalled⟩ := hfits
    refine h.go (fun _ _ => by simp) (Honest.fresh hsettlements _ rfl) ⟨?_, ?_, ?_⟩
    · simp [hclaims]
    · simp [hsettlements]
    · simpa using hcalled
  case case3 =>
    obtain ⟨hclaims, hsettlements, hcalled⟩ := hfits
    refine h.go (fun _ _ => by simp) (Honest.fresh hsettlements _ rfl) ?_
    split_ifs with hpresent
    · exact ⟨by simp [hclaims, hpresent], by simp [hsettlements], by simpa using hcalled⟩
    · exact ⟨by simp [hclaims, hsettlements, hpresent], by simp [hclaims, hpresent]⟩
  case case5 =>
    obtain ⟨hclaims, hsettlements, hcalled⟩ := hfits
    refine h.go (fun _ _ => by simp) (h.honest.append (by simp) fun ok hevent => .inl hcalled) ⟨?_, ?_⟩
    · simp [hclaims, hsettlements]
    · simp [hclaims]
  case case6 =>
    obtain ⟨hclaims, hsettlements, hcalled⟩ := hfits
    refine h.go (fun _ _ => by simp) (Honest.fresh hsettlements _ rfl) ⟨?_, ?_, .inl ⟨rfl, ?_⟩⟩
    · simp [hclaims]
    · simp [hsettlements]
    · simpa using hcalled
  case case7 =>
    obtain ⟨hclaims, hsettlements, -⟩ := hfits
    refine h.go (fun _ _ => by simp) (Honest.fresh hsettlements _ rfl) ⟨?_, ?_, ?_⟩
    · simp [hclaims]
    · simp [hsettlements]
    · simp
  case case8 => exact answered_kept h hpoint env
  case case9 | case10 =>
    obtain ⟨hclaims, hsettlements, hheard⟩ := hfits
    refine h.go (fun _ _ => by simp) (Honest.fresh hsettlements _ rfl) ⟨?_, ?_, ?_⟩
    · simp [hclaims]
    · simp [hsettlements]
    · exact .inr (hheard.weaken hsame)
  case case11 => exact settled_kept h hpoint env
  case case12 | case14 =>
    obtain ⟨hclaims, hsettlements, -⟩ := hfits
    refine h.go (fun _ _ => by simp) (h.honest.other _ (by simp) rfl) ⟨?_, ?_⟩
    · simp [hclaims, hsettlements]
    · simp [hclaims]
  case case13 found hcurrent =>
    obtain ⟨hclaims, hsettlements, hconsumed, m, hdelivered, howned⟩ := hfits
    have hfound : found = m := by
      unfold System.current at hcurrent
      split_ifs at hcurrent with hinvalid
      exact Option.some.inj (hcurrent.symm.trans (howned (by simpa using hinvalid)))
    subst hfound
    refine h.go (fun _ _ => by simp) (h.honest.other _ (by simp) rfl) ⟨?_, ?_,
      List.mem_append_left _ hconsumed, List.mem_append_left _ hdelivered, by simp⟩
    · simp [hclaims]
    · simp [hsettlements]
  case case15 =>
    obtain ⟨hclaims, hsettlements, hconsumed, hdelivered, howned⟩ := hfits
    refine h.go (fun _ _ => by simp) (h.honest.other _ (by simp) rfl) ⟨?_, ?_,
      List.mem_append_left _ hconsumed, List.mem_append_left _ hdelivered,
      List.mem_append_left _ howned⟩
    · simp [hclaims]
    · simp [hsettlements]
  case case17 hinvalid hwaiting =>
    refine h.go (fun _ _ => by simp) (h.honest.other _ (by simp) rfl) ⟨?_, ?_, .inl ?_⟩
    · simpa using hfits.1
    · simpa using hfits.2
    · exact h.holds.gone hinvalid (by simpa using hwaiting)
  case case18 hinvalid =>
    have hholds := h.holds.invalidate.quiet .quiet fun _ _ => by simp
    have hmark : s.invalidate.source.invalid = true := by
      unfold System.invalidate
      rw [if_neg hinvalid]
    refine ⟨⟨hholds.empty, hholds.destroying, hholds.called, hholds.materials⟩,
      h.honest.other _ (by simp) rfl, ?_, ?_, hmark⟩
    · simpa using hfits.1
    · simpa using hfits.2
  case case19 =>
    obtain ⟨hequal, hone, hinvalid⟩ := hfits
    have hholds := h.holds.finish.quiet (.returned (.error (contextFailure env)))
      fun _ _ => by simp
    refine ⟨⟨hholds.empty, hholds.destroying, hholds.called, hholds.materials⟩,
      h.honest.other _ (by simp) rfl, ?_, ?_, .inl ?_⟩
    · simpa using hequal
    · simpa using hone
    · exact hholds.gone ((weakens_finish s).invalid hinvalid) (finish_destroying s)
  case case16 | case20 =>
    exact ⟨h.holds.quiet _ fun _ _ => by simp, h.honest.other _ (by simp) rfl, h.fits.weaken hsame⟩

/-! ## Whole reads -/

/-- What the read has done with its backends. -/
def events (record : List (Entry System Input Event)) : List Event := record.map Entry.output

theorem step_kept (h : Kept record s) (input : Input) :
    Kept (record ++ [(s.step input).2]) (s.step input).1 := by
  cases input with
  | turn env => exact turn_kept h env
  | invalidate =>
    have hpoint : s.invalidate.point = s.point := by
      unfold System.invalidate
      split_ifs <;> rfl
    refine ⟨h.holds.invalidate.quiet .quiet fun _ _ => by simp,
      h.honest.other .quiet (by simp) rfl, ?_⟩
    have hfits := h.fits.weaken (weakens_invalidate s)
    rw [← hpoint] at hfits
    exact hfits
  | finish =>
    have hpoint : s.finish.point = s.point := by
      unfold System.finish
      split <;> rfl
    refine ⟨h.holds.finish.quiet .quiet fun _ _ => by simp,
      h.honest.other .quiet (by simp) rfl, ?_⟩
    have hfits := h.fits.weaken (weakens_finish s)
    rw [← hpoint] at hfits
    exact hfits

theorem run_kept (invalid : Bool) (destroyed : List Nat) (inputs : List Input) :
    Kept (events (machine.trace (start invalid destroyed) inputs))
      (machine.exec (start invalid destroyed) inputs) := by
  have hstart : Kept (events []) (start invalid destroyed) := by
    refine ⟨⟨fun _ => rfl, fun h => absurd rfl h, ?_, ?_⟩, ?_, rfl, rfl, ?_⟩
    · exact fun _ _ h => absurd h List.not_mem_nil
    · exact fun _ _ _ h => absurd h List.not_mem_nil
    · exact fun _ h => absurd h List.not_mem_nil
    · exact List.not_mem_nil
  refine StepMachine.record_invariant machine (P := fun past s => Kept (events past) s)
    (Q := fun _ => True) hstart (fun past s input _ hkept => ?_) fun _ _ => trivial
  rw [events, List.map_append]
  exact step_kept hkept input

theorem Fits.once {point : Point} (h : Fits record s point) :
    settlements record ≤ claims record ∧ claims record ≤ 1 := by
  cases point with
  | returned result =>
    cases result with
    | error => exact ⟨h.1.le, h.2.1⟩
    | ok => exact ⟨(h.2.1.trans h.1.symm).le, h.1.le⟩
  | fail => exact ⟨h.1.le, h.2⟩
  | failing => exact ⟨h.1.le, h.2.1⟩
  | _ =>
    obtain ⟨hclaims, hsettlements, _⟩ := h
    omega

/-- The turns that are left at a point, if nobody else is destroying what the holder held. -/
@[simp] def Point.turns : Point → Nat
  | .entry => 10
  | .claim => 9
  | .resolve => 8
  | .resolving => 7
  | .observe _ => 6
  | .settle _ => 5
  | .current _ => 4
  | .confirm _ _ => 3
  | .refuse => 3
  | .fail => 2
  | .failing => 1
  | .returned _ => 0

theorem Point.turns_le (point : Point) : point.turns ≤ 10 := by
  cases point <;> simp [Point.turns]

/-- The read need not wait for an invalidation by somebody else. -/
def System.Ready (s : System) : Prop := s.destroying = none ∨ s.point.turns ≤ 1

theorem publish_destroying (s : System) (material : Option Nat) :
    (s.publish material).1.destroying = s.destroying := by
  unfold System.publish
  split
  · rfl
  · split_ifs <;> rfl

theorem turn_ready (h : s.Ready) (env : Turn) :
    (s.turn env).1.Ready ∧ (s.turn env).1.point.turns ≤ s.point.turns - 1 := by
  -- before its last turn the read has nobody to wait for
  have hfree : 2 ≤ s.point.turns → s.destroying = none := fun hearly => h.resolve_right (by omega)
  fun_cases System.turn s env
  case case3 hpoint _ =>
    refine ⟨.inl (hfree (by simp [hpoint])), ?_⟩
    split_ifs <;> simp [hpoint]
  case case8 hpoint =>
    refine ⟨.inl ((publish_destroying s _).trans (hfree (by simp [hpoint]))), ?_⟩
    simp [System.answered, hpoint]
  case case11 hpoint =>
    refine ⟨.inl (hfree (by simp [hpoint])), ?_⟩
    dsimp only [System.settled, System.go]
    split_ifs <;> simp [hpoint]
  case case16 hpoint _ hwaiting =>
    rw [hfree (by simp [hpoint])] at hwaiting
    cases hwaiting
  case case18 hpoint _ | case19 hpoint => exact ⟨.inr (by simp), by simp [hpoint]⟩
  case case20 hpoint => exact ⟨h, by simp [hpoint]⟩
  all_goals exact ⟨.inl (hfree (by simp [*])), by simp [*]⟩

/-- Left to itself the read returns. -/
theorem turns_return {envs : List Turn} (h : s.Ready) (hturns : s.point.turns ≤ envs.length) :
    ∃ result, (machine.exec s (envs.map .turn)).point = .returned result := by
  induction envs generalizing s with
  | nil =>
    cases hpoint : s.point with
    | returned result => exact ⟨result, hpoint⟩
    | _ => rw [hpoint] at hturns; simp [Point.turns] at hturns
  | cons env envs ih =>
    obtain ⟨hready, hless⟩ := turn_ready h env
    rw [List.length_cons] at hturns
    have hrest : (machine.next s (.turn env)).point.turns ≤ envs.length := hless.trans (by omega)
    exact ih hready hrest

/-- How a read treats its claim and the material it was given. -/
structure Settled (record : List (Entry System Input Event)) (final : System) : Prop where
  /-- There is at most one claim, and at most one settlement of it. -/
  once : settlements (events record) ≤ claims (events record) ∧ claims (events record) ≤ 1
  /-- A read that has returned has settled its claim. -/
  settled : ∀ result, final.point = .returned result →
    settlements (events record) = claims (events record)
  /-- A claim is released only if the resolver was not called, or said so with an error and without
  material. -/
  released : ∀ ok, .settled .released ok ∈ events record →
    .called ∉ events record ∨ ∃ valid, .answered ⟨none, .released, true⟩ valid ∈ events record
  /-- Usable material was delivered as consumed, valid and without error, its consumption was settled,
  and the flight still owned it afterwards. -/
  usable : ∀ m expiresAt, final.point = .returned (.ok (m, expiresAt)) →
    .answered ⟨some m, .consumed, false⟩ true ∈ events record ∧
    .settled .consumed true ∈ events record ∧
    ∃ entry ∈ record, entry.output = .owned m ∧ entry.before.source = ⟨some m, false⟩
  /-- It is valid when the read returns it. -/
  valid : ∀ entry ∈ record, ∀ m expiresAt, entry.output = .returned (.ok (m, expiresAt)) →
    m ∉ entry.before.destroyed
  /-- In every other case what the resolver returned has been destroyed. -/
  destroyed : ∀ failure, final.point = .returned (.error failure) → ∀ answer valid m,
    .answered answer valid ∈ events record → answer.material = some m → m ∈ final.destroyed
  /-- From wherever it stands, the read returns once an invalidation that is under way is done. -/
  returns : ∀ envs : List Turn, 10 ≤ envs.length →
    ∃ result, (machine.exec final (.finish :: envs.map .turn)).point = .returned result

theorem turn_owned {env : Turn} {m : Nat} (h : (s.turn env).2 = .owned m) :
    s.source = ⟨some m, false⟩ := by
  revert h
  fun_cases System.turn s env
  case case13 hcurrent =>
    intro h
    obtain rfl := Event.owned.inj h
    unfold System.current at hcurrent
    split_ifs at hcurrent with hinvalid
    exact (FlightSource.mk.injEq ..).mpr ⟨hcurrent, by simpa using hinvalid⟩
  all_goals exact nofun

theorem turn_valid {env : Turn} {m : Nat} {expiresAt : Int}
    (h : (s.turn env).2 = .returned (.ok (m, expiresAt))) : m ∉ s.destroyed := by
  revert h
  fun_cases System.turn s env
  case case15 hvalid =>
    intro h
    have hsame := (Prod.mk.inj (Except.ok.inj (Event.returned.inj h))).1
    exact hsame ▸ hvalid
  all_goals exact nofun

/-- Whatever the backends answer and whenever others invalidate the holder, every read settles its
claim once and honestly, and returns usable material or none. -/
theorem read_settled (invalid : Bool) (destroyed : List Nat) (inputs : List Input) :
    Settled (machine.trace (start invalid destroyed) inputs)
      (machine.exec (start invalid destroyed) inputs) := by
  have hkept := run_kept invalid destroyed inputs
  have hfits := hkept.fits
  -- only a turn of the read says more than `quiet`
  have hentry : ∀ entry ∈ machine.trace (start invalid destroyed) inputs, entry.output ≠ .quiet →
      ∃ env, (entry.before.turn env).2 = entry.output := by
    intro entry hmem hloud
    obtain ⟨pre, post, -, hstep⟩ := StepMachine.mem_trace machine hmem
    generalize entry.input = input at hstep
    subst hstep
    obtain env | - | - := input
    · exact ⟨env, rfl⟩
    · exact absurd rfl hloud
    · exact absurd rfl hloud
  refine ⟨hfits.once, fun result hreturned => ?_, hkept.honest, fun m expiresAt hreturned => ?_,
    fun entry hmem m expiresAt houtput => ?_, fun failure hreturned answer valid m hanswer hm => ?_,
    fun envs henvs => ?_⟩
  · rw [hreturned] at hfits
    cases result with
    | error => exact hfits.1
    | ok => exact hfits.2.1.trans hfits.1.symm
  · rw [hreturned] at hfits
    obtain ⟨-, -, hconsumed, hdelivered, howned⟩ := hfits
    refine ⟨hdelivered, hconsumed, ?_⟩
    obtain ⟨entry, hmem, houtput⟩ := List.mem_map.mp howned
    refine ⟨entry, hmem, houtput, ?_⟩
    obtain ⟨env, hturn⟩ := hentry entry hmem (by simp [houtput])
    exact turn_owned (hturn.trans houtput)
  · obtain ⟨env, hturn⟩ := hentry entry hmem (by simp [houtput])
    exact turn_valid (hturn.trans houtput)
  · rw [hreturned] at hfits
    rcases hfits.2.2 with ⟨hempty, hgone⟩ | hnot
    · rcases hkept.holds.materials answer valid m hanswer hm with hdead | hheld | hleaving
      · exact hdead
      · cases hempty.symm.trans hheld
      · exact absurd hleaving (hgone m)
    · exact absurd (hkept.holds.called answer valid hanswer) hnot
  · rw [StepMachine.exec_cons]
    exact turns_return (.inl (finish_destroying _)) ((Point.turns_le _).trans henvs)

end Veer.CredentialBroker.SourceRead
