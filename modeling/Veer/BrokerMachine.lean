import Veer.BrokerLifecycle
import Veer.StepMachine

/-!
# The broker as a step machine

A step is a call, the sequence number of a clock sample, or one critical section of one
goroutine. Any interleaving of calls, samples and sections is a run.
-/
namespace Veer.CredentialBroker
open StepMachine

inductive Call
  | registerIssuer (key : IssuerKey)
  | acquire (request : Request)
  | refresh (request : Request)
  | rotate (request : Request)
  | use (lease : Nat)
  | closeLease (lease : Nat)
  | revokeConnection (request : Request)
  | terminateOperation (request : Request)
  | close
  | sweepExpired
  deriving DecidableEq, Repr

def Call.stage : Call → Stage
  | .registerIssuer key => .registerIssuer key
  | .acquire request => .acquire request false
  | .refresh request => .acquire request true
  | .rotate request => .rotate request
  | .use lease => .use lease
  | .closeLease lease => .closeLease lease
  | .revokeConnection request => .revokeConnection request
  | .terminateOperation request => .terminateOperation request
  | .close => .close
  | .sweepExpired => .sweepExpired

/-- The stages that read the clock before they take the lock. -/
def Stage.sampled : Stage → Bool
  | .acquire .. | .takeLease _ | .flightSource _ | .flightBorrow .. | .flightFinish .. => true
  | .sourceResolved .. | .sourceFinish .. => true
  | .rotate _ | .rotationObserve .. | .rotationCommit .. => true
  | .revokeConnection _ | .terminateOperation _ | .close | .sweepExpired => true
  | .usePrepare _ | .useAdmit _ | .useFinish .. => true
  | _ => false

def Broker.perform (b : Broker) (stage : Stage) (sequence : Nat) (env : Env) : Outcome :=
  match stage with
  | .registerIssuer key => b.registerIssuer key
  | .acquire request force => b.acquire request force sequence env
  | .launchFlight i => b.launchFlight i
  | .awaitFlight i => b.awaitFlight i env
  | .takeLease i => b.takeLease i sequence env
  | .flightStart i => b.flightStart i
  | .flightSource i => b.flightSourceSection i sequence env
  | .launchSource i j => b.launchSource i j
  | .flightAwaitSource i j => b.flightAwaitSource i j
  | .flightBorrow i j => b.flightBorrow i j sequence env
  | .flightIssue i e => b.flightIssue i e env
  | .flightRelease i e issued err => b.flightRelease i e issued err
  | .flightFinish i issued err => b.flightFinish i issued err sequence env
  | .flightCleanup i issued => b.flightCleanup i issued
  | .flightRevoke i session => b.flightRevoke i session env
  | .flightRecord i session result err => b.flightRecord i session result err
  | .flightForget i result err => b.flightForget i result err
  | .flightClose i => b.flightClose i
  | .sourceResolve owner => b.sourceResolve owner env
  | .sourceResolved owner material => b.sourceResolved owner material sequence env
  | .sourceFinish i material => b.sourceFinish i material sequence env
  | .sourceReject i => b.sourceReject i
  | .sourceClose i => b.sourceClose i
  | .rotate request => b.rotate request sequence env
  | .launchRotation r => b.launchRotation r
  | .awaitRotation r => b.awaitRotation r env
  | .takeRotation r => b.takeRotation r env
  | .rotationObserve r m => b.rotationObserve r m sequence env
  | .rotationResolved r material => b.rotationResolved r material
  | .rotationIssue r m => b.rotationIssue r m env
  | .rotationCommit r m issued => b.rotationCommit r m issued sequence env
  | .rotationFail r issued failure => b.rotationFail r issued failure
  | .rotationCleanup r issued => b.rotationCleanup r issued
  | .rotationRevoke r session => b.rotationRevoke r session env
  | .rotationRecord r session result => b.rotationRecord r session result
  | .rotationClose r result => b.rotationClose r result
  | .rotationDone r result => b.rotationDone r result
  | .revokeConnection request => b.revokeConnection request sequence env
  | .terminateOperation request => b.terminateOperation request sequence env
  | .close => b.close sequence env
  | .sweepExpired => b.sweepExpired sequence env
  | .startCleanup cleanup => b.startCleanup cleanup env
  | .awaitCleanup cleanup => b.awaitCleanup cleanup env
  | .revocation i => b.revocation i env
  | .revocationFinish i result err => b.revocationFinish i result err
  | .use l => b.use l env
  | .usePrepare l => b.usePrepare l sequence env
  | .useAdmit l => b.useAdmit l sequence env
  | .useReturn l copied => b.useReturn l copied env
  | .useFinish l copied => b.useFinish l copied sequence env
  | .closeLease l => b.closeLease l
  | .releaseLease l => b.releaseLease l
  | .dispose disposal next => b.dispose disposal next
  | .publish cancels next => b.publish cancels next
  | .abandon owner next => b.abandon owner next
  | .returned => ⟨b, [], .quiet⟩

inductive Input
  | call (call : Call)
  | sample (task : Nat)
  | run (task : Nat) (env : Env)
  deriving DecidableEq, Repr

/-- The section that an input runs: its stage and the sequence number of its sample. -/
def Broker.ready (b : Broker) : Input → Option (Stage × Nat)
  | .run t _ =>
    match b.tasks[t]? with
    | none => none
    | some task =>
      if task.stage.sampled ∧ task.sample = none then none
      else some (task.stage, task.sample.getD 0)
  | _ => none

def Broker.takeSample (b : Broker) (t : Nat) : Broker :=
  match b.tasks[t]? with
  | none => b
  | some task =>
    if task.stage.sampled ∧ task.sample = none then
      let (b, sequence) := b.nextSample
      { b with tasks := b.tasks.set t { task with sample := some sequence } }
    else b

/-- The goroutine's section is done; what follows it are goroutines of their own. -/
def Outcome.schedule (o : Outcome) (tasks : List Task) (t : Nat) : Broker :=
  { o.broker with
    tasks := tasks.set t ⟨.returned, none⟩ ++ o.stages.map fun stage => ⟨stage, none⟩ }

def Broker.step (b : Broker) (input : Input) : Broker × Output :=
  match input with
  | .call call => ({ b with tasks := b.tasks ++ [⟨call.stage, none⟩] }, .quiet)
  | .sample t => (b.takeSample t, .quiet)
  | .run t env =>
    match b.ready (.run t env) with
    | none => (b, .quiet)
    | some (stage, sequence) =>
      let o := b.perform stage sequence env
      (o.schedule b.tasks t, o.output)

def machine : Machine Broker Input Output := ⟨Broker.step⟩

end Veer.CredentialBroker
