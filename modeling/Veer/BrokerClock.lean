import Veer.BrokerAuthority

/-!
# The time at which a use is admitted

A section takes the number of its clock sample before it reads the clock. A sample overtaken by
a later one is admitted at the time the later one brought, whatever it has read itself.
-/
namespace Veer.CredentialBroker
open Reconcile (ID DigestValue second)
open StepMachine

/-- The section that runs took its sample in order, or it read no later time than the accepted
one. -/
def Broker.SampleOrdered (b : Broker) (input : Input) : Prop :=
  match input with
  | .run t env => ∀ ready ∈ b.ready (.run t env),
    b.lastClockSample < ready.2 ∨ env.observed.getD 0 ≤ b.lastNow
  | _ => True

/-- A use that starts in this step has read a time that leaves the session its lifetime. -/
def ReadsInTime (e : Entry Broker Input Output) : Prop :=
  match e.output with
  | .started _ c observed _ => ∀ cell ∈ e.before.cellHeap[c]?, observed ≤ cell.session.useCutoff
  | _ => True

instance : DecidablePred ReadsInTime := fun e => by
  unfold ReadsInTime
  split <;> infer_instance

/-- The accepted time is no earlier than the reading exactly when the sample was not overtaken by
an earlier time. -/
theorem observeNow_reading {b : Broker} {sequence : Nat} {observed : Option Int} {admitted : Int}
    (hobs : (b.observeNow sequence observed).2 = .ok admitted) :
    observed.getD 0 ≤ admitted ↔
      b.lastClockSample < sequence ∨ observed.getD 0 ≤ b.lastNow := by
  revert hobs
  fun_cases Broker.observeNow b sequence observed with
  | case1 | case2 | case3 => simp
  | case4 =>
    intro hobs
    by_cases hzero : b.lastNow = 0
    · simp [hzero] at hobs
    · simp only [hzero, if_false, Except.ok.injEq] at hobs
      simp only [Option.getD_some]
      omega
  | case5 => simp
  | case6 =>
    intro hobs
    cases hobs
    simp only [Option.getD_some]
    omega

/-- A use is admitted at a time before its own reading exactly when its sample was overtaken by
an earlier time. In every other case it starts with the lifetime that it read. -/
theorem use_reads_in_time (issuers : List IssuerKey) (now : Int) (inputs : List Input)
    {e : Entry Broker Input Output} (he : e ∈ machine.trace (newBroker issuers now) inputs)
    {lease c : Nat} {observed admitted : Int}
    (hout : e.output = .started lease c observed admitted) :
    (observed ≤ admitted ↔ e.before.SampleOrdered e.input) ∧
      (e.before.SampleOrdered e.input → ReadsInTime e) := by
  obtain ⟨before, -, -, hentry⟩ := mem_trace machine he
  have hentry : e = machine.entry e.before e.input := by rw [hentry]; rfl
  have hout' := hout
  rw [hentry] at hout'
  obtain ⟨t, env, stage, sequence, hinput, hready, hperform⟩ := started_performs hout'
  obtain ⟨-, -, hstarted⟩ := perform_moves e.before stage sequence env
  obtain ⟨-, hstart⟩ := hstarted _ _ _ _ hperform
  obtain ⟨cell, hcell, -, hcutoff⟩ := hstart.cell
  have hordered : e.before.SampleOrdered e.input ↔ observed ≤ admitted := by
    rw [hstart.reading, observeNow_reading hstart.accepted, hinput]
    rw [hinput] at hready
    simp only [Broker.SampleOrdered, hready, Option.mem_def, Option.some.injEq, forall_eq']
  refine ⟨hordered.symm, fun hsample => ?_⟩
  have hle : observed ≤ admitted := hordered.mp hsample
  simp only [ReadsInTime, hout, hcell, Option.mem_def, Option.some.injEq, forall_eq']
  exact hle.trans hcutoff

/-! ## An overtaken sample -/

def demoIssuer : IssuerKey := ⟨"demo", "worker"⟩

def demoRequest : Request where
  workspaceID := "ws"
  environmentID := "env"
  providerConnectionID := "conn"
  connectionGeneration := 1
  operationID := "op"
  targetResourceID := "res"
  targetKind := .application
  targetGeneration := 1
  provider := "demo"
  action := .providerApply
  recipient := "worker"
  referenceID := "ref"
  version := "v1"
  sourceDigest := ⟨true, [1]⟩
  bindingDigest := ⟨true, [2]⟩

def demoStart : Int := 1000 * second

/-- The clock reads `now`; the backends answer, with a session of ten minutes. -/
def demoEnv (now : Int) : Env where
  observed := some now
  canceled := false
  interrupted := false
  ok := true
  session := some (demoRequest.bindingDigest, demoStart, demoStart + 10 * minute)
  result := .providerConfirmed

/-- One section of each goroutine in turn, each with a sample in order. -/
def runAt (now : Int) (tasks : List Nat) : List Input :=
  tasks.flatMap fun t => [.sample t, .run t (demoEnv now)]

/-- The first `Acquire`, with its flight and its source flight, until the flight is finished. -/
def firstFlight : List Input :=
  .call (.acquire demoRequest) ::
    runAt demoStart [0, 1, 2, 4, 5, 6, 7, 9, 10, 11, 8, 12, 13, 14, 15, 16, 17]

/-- The caller takes its lease. -/
def firstLease : List Input := firstFlight ++ runAt demoStart [3, 18]

/-- Two uses of the lease. The first takes the number of its admission sample, the second is
admitted, and only then the first reads its clock, nine minutes into the session. -/
def overtakenUse : List Input :=
  firstLease ++ [.call (.use 0), .call (.use 0)] ++ runAt demoStart [20, 21, 22, 23] ++
    [.sample 24] ++ runAt (demoStart + second) [25] ++
    [.run 24 (demoEnv (demoStart + 9 * minute))]

/-- The first use starts ninety seconds after the last instant its session allows. -/
theorem overtakenUse_starts_late :
    ∃ e ∈ machine.trace (newBroker [demoIssuer] demoStart) overtakenUse, ¬ ReadsInTime e := by
  decide +kernel

/-- The second use of the same run was sampled in order. -/
theorem use_reads_in_time_in_order : ∃ e ∈ machine.trace (newBroker [demoIssuer] demoStart)
    overtakenUse, ∃ lease c observed admitted, e.output = .started lease c observed admitted ∧
      ReadsInTime e := by
  have hstart : ∃ e ∈ machine.trace (newBroker [demoIssuer] demoStart) overtakenUse,
      e.output = .started 0 0 (demoStart + second) (demoStart + second) := by decide +kernel
  obtain ⟨e, he, hout⟩ := hstart
  obtain ⟨hordered, hreads⟩ := use_reads_in_time [demoIssuer] demoStart overtakenUse he hout
  exact ⟨e, he, 0, 0, _, _, hout, hreads (hordered.mp le_rfl)⟩

end Veer.CredentialBroker
