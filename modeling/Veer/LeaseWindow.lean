import Veer.LeaseFencing

/-!
# Dispatch windows

A permit's deadline lies inside its row's lease by more than the safety margin. Renewals only
move the expiry later, so the row is not granted again before the window has closed, unless
the holder lets go of it.
-/
namespace Veer.Reconcile

open FencedLease StepMachine

/-- The normalized instant at which a successful `Acquire` or `AcquireReplacement` granted the
row. -/
def FleetEntry.grantedAt (i : Nat) (workspaceID resourceID : ID) (e : FleetEntry) : Option Int :=
  match e.input with
  | .acquire _ databaseTime _ _ | .acquireReplacement _ databaseTime _ _ =>
    (e.granted i workspaceID resourceID).map fun _ => truncateTime databaseTime
  | _ => none

/-- The entry is a successful `Surrender` of fence `f` on the row. -/
def FleetEntry.Surrenders (i : Nat) (workspaceID resourceID : ID) (f : Int) (e : FleetEntry) :
    Prop :=
  ∃ databaseTime token, e.input = .surrender i databaseTime token ∧ e.output = .done (.ok ()) ∧
    onRow workspaceID resourceID token.binding = true ∧ token.fence = f

variable {i : Nat} {workspaceID resourceID : ID}

theorem grantedAt_issuedAt {e : FleetEntry} {now : Int}
    (h : e.grantedAt i workspaceID resourceID = some now) :
    (e.label i workspaceID resourceID).issuedAt = some now := by
  rcases e with ⟨before, call, reply, after⟩
  cases call with
  | acquire j databaseTime binding ownerID | acquireReplacement j databaseTime n ownerID =>
    cases reply with
    | token result =>
      cases result with
      | error => simp [FleetEntry.grantedAt, FleetEntry.granted] at h
      | ok =>
        simp only [FleetEntry.grantedAt, FleetEntry.granted, Option.map_eq_some_iff,
          Option.ite_none_right_eq_some] at h
        obtain ⟨fence, ⟨⟨rfl, hrow⟩, -⟩, rfl⟩ := h
        simp [FleetEntry.label, fleetLabel, FleetReply.tokenLabel, hrow, Label.issuedAt]
    | _ => simp [FleetEntry.grantedAt, FleetEntry.granted] at h
  | _ => simp [FleetEntry.grantedAt] at h

theorem surrenders_of_release [Sha256] {fleet : Fleet} {call : FleetCall} {f now : Int}
    (h : fleetLabel i workspaceID resourceID call (fleetStep fleet call).2 = .release f now) :
    FleetEntry.Surrenders i workspaceID resourceID f (fleetMachine.entry fleet call) := by
  cases call with
  | surrender j databaseTime token =>
    simp only [fleetLabel] at h
    obtain ⟨hhere, hs, hl⟩ := FleetReply.heldLabel_eq h (by simp)
    rw [Bool.and_eq_true, beq_iff_eq] at hhere
    obtain ⟨rfl, hrow⟩ := hhere
    refine ⟨databaseTime, token, rfl, ?_, hrow, (Label.release.inj hl).1⟩
    simp only [Machine.entry, fleetMachine, fleetStep, FleetReply.succeeded] at hs ⊢
    cases hr : ((fleet.tables j).surrender databaseTime token).2 with
    | error => simp [hr, succeeds] at hs
    | ok => rfl
  | acquire =>
    simp only [fleetLabel] at h
    obtain ⟨token, -, -, hl⟩ := FleetReply.tokenLabel_eq h (by simp)
    cases hl
  | acquireReplacement =>
    simp only [fleetLabel] at h
    obtain ⟨token, -, -, hl⟩ := FleetReply.tokenLabel_eq h (by simp)
    -- the token may be for another row
    split_ifs at hl
  | renew | authorizeDispatch | markAttemptDispatched | authorizeCommit =>
    simp only [fleetLabel] at h
    obtain ⟨-, -, hl⟩ := FleetReply.heldLabel_eq h (by simp)
    cases hl
  | selectPlan | authorizeGenerationReplacement => cases h

/-- What a dispatch permit promises on its row, over the record of a run. -/
structure WindowCovered (run : List FleetEntry) (i : Nat) (workspaceID resourceID : ID) : Prop where
  /-- Unless its fence is surrendered, the row is not granted again up to ten seconds past the
  permit's deadline. -/
  regrant : ∀ (a b : Nat) (e e' : FleetEntry) (databaseTime : Int) (token : LeaseToken)
    (rpcTimeout : Int) (authority : DispatchAuthority) (permit : DispatchPermit) (now : Int),
    a < b → run[a]? = some e → run[b]? = some e' →
    e.input = .authorizeDispatch i databaseTime token rpcTimeout authority →
    e.output = .permit (.ok permit) →
    onRow workspaceID resourceID permit.token.binding = true →
    (∀ (c : Nat) (x : FleetEntry), a < c → c < b → run[c]? = some x →
      ¬ x.Surrenders i workspaceID resourceID permit.token.fence) →
    e'.grantedAt i workspaceID resourceID = some now → permit.deadline + 10 * second < now
  /-- A dispatch under a permit happens inside its window. -/
  dispatched : ∀ e ∈ run, ∀ (j : Nat) (before attempt : Attempt) (permit : DispatchPermit)
    (dispatchedAt : Int), e.input = .markAttemptDispatched j before permit dispatchedAt →
    e.output = .attempt (.ok attempt) →
    permit.authorizedAt ≤ truncateTime dispatchedAt ∧ truncateTime dispatchedAt < permit.deadline

section Runs

variable [Sha256] {fleet : Fleet} {calls : List FleetCall}

theorem bounded_of_mem (hinit : fleet.Initial) {e : FleetEntry}
    (he : e ∈ fleetMachine.trace fleet calls) (i : Nat) (workspaceID resourceID : ID) :
    Bounded storeLeaseDuration (e.before.view i workspaceID resourceID) := by
  obtain ⟨pre, post, -, hentry⟩ := mem_trace fleetMachine he
  rw [hentry]
  refine (fleet_path fleet pre i workspaceID resourceID).invariant (P := Bounded storeLeaseDuration)
    (Q := fun _ => True) (fun _ _ _ hm _ => hm.bounded (by decide)) (fun _ _ => trivial) ?_
  rw [hinit.view_none]
  simp [Bounded]

theorem covered_of_permit (hinit : fleet.Initial) {e : FleetEntry}
    (he : e ∈ fleetMachine.trace fleet calls) {databaseTime rpcTimeout : Int} {token : LeaseToken}
    {authority : DispatchAuthority} {permit : DispatchPermit}
    (hin : e.input = .authorizeDispatch i databaseTime token rpcTimeout authority)
    (hout : e.output = .permit (.ok permit))
    (hrow : onRow workspaceID resourceID permit.token.binding = true) :
    ∃ bound, permit.deadline + dispatchSafetyMargin < bound ∧
      Covered storeLeaseDuration permit.token.fence bound
        (e.after.view i workspaceID resourceID) := by
  have hbounded := bounded_of_mem hinit he i workspaceID resourceID
  have hmove := entry_move he i workspaceID resourceID
  obtain ⟨pre, post, -, hentry⟩ := mem_trace fleetMachine he
  have hreply : (fleetStep (fleetMachine.exec fleet pre) e.input).2 = .permit (.ok permit) := by
    rw [← hout, hentry]
    rfl
  rw [hin] at hreply
  obtain ⟨row, hholds, hnow, hdeadline, hfence, hbinding⟩ :=
    authorizeDispatch_ok (FleetReply.permit.inj hreply)
  have hbefore : e.before.view i workspaceID resourceID = some row.view := by
    have hkey : rowKey workspaceID resourceID = leaseRowKey token.binding := by
      rw [hbinding, ← rowKey_eq_leaseRowKey hholds.valid] at hrow
      simpa using hrow
    rw [hentry, Fleet.view, LeaseTable.view, hkey]
    exact congrArg _ hholds.found
  have hlabel : e.label i workspaceID resourceID =
      .use permit.token.fence (truncateTime databaseTime) := by
    rw [hbinding] at hrow
    simp [FleetEntry.label, hin, hout, fleetLabel, FleetReply.heldLabel, hrow, hfence]
  exact ⟨row.expiresAt, hdeadline, hmove.covered_of_use hlabel hbefore hbounded⟩

/-- A permit's window is covered by its fence: on every row of every run of a fresh fleet. -/
theorem dispatch_window_covered {fleet : Fleet} (hinit : fleet.Initial) (calls : List FleetCall)
    (i : Nat) (workspaceID resourceID : ID) :
    WindowCovered (fleetMachine.trace fleet calls) i workspaceID resourceID where
  regrant := by
    intro a b e e' databaseTime token rpcTimeout authority permit now hab ha hb hin hout hrow hkeep
      hgrant
    obtain ⟨bound, hbound, hcovered⟩ :=
      covered_of_permit hinit (List.mem_of_getElem? ha) hin hout hrow
    obtain ⟨post, -, hrest⟩ := trace_after fleetMachine ha
    have hpath := fleet_path e.after post i workspaceID resourceID
    have hle : bound ≤ now := by
      refine Path.issuedAt_of_covered hpath hcovered (n := b - (a + 1))
        (k := e'.label i workspaceID resourceID) ?_ (grantedAt_issuedAt hgrant) ?_
      · rw [List.getElem?_map, ← hrest, show a + 1 + (b - (a + 1)) = b by omega, hb]
        rfl
      · intro c hc l hl t hrelease
        rw [List.getElem?_map, Option.map_eq_some_iff] at hl
        obtain ⟨x, hx, rfl⟩ := hl
        rw [← hrest] at hx
        refine hkeep (a + 1 + c) x (by omega) (by omega) hx ?_
        obtain ⟨-, hentry, -⟩ := trace_after fleetMachine hx
        rw [hentry] at hrelease ⊢
        exact surrenders_of_release hrelease
    have : dispatchSafetyMargin = 10 * second := rfl
    omega
  dispatched := by
    intro e he j before attempt permit dispatchedAt hin hout
    obtain ⟨pre, post, -, hentry⟩ := mem_trace fleetMachine he
    rw [hentry, hin] at hout
    obtain ⟨-, hfrom, hto, -⟩ := markAttemptDispatched_ok (FleetReply.attempt.inj hout)
    exact ⟨hfrom, hto⟩

end Runs

def sampleToken : LeaseToken :=
  ⟨true, some 0, sampleBinding, "owner-0000000001", 1, 1 * second, 61 * second⟩

def sampleDispatchAuthority : DispatchAuthority :=
  ⟨true, ⟨true, []⟩, ⟨true, []⟩, "azi1_", "azv1_", 2 * second, some 0⟩

/-- A renewal inside the window, a refused takeover, then a takeover after the renewed lease. -/
def windowCalls : List FleetCall :=
  [.acquire 0 (1 * second) sampleBinding "owner-0000000001",
    .authorizeDispatch 0 (2 * second) sampleToken (20 * second) sampleDispatchAuthority,
    .renew 0 (30 * second) sampleToken,
    .acquire 0 (61 * second) sampleBinding "owner-0000000002",
    .acquire 0 (90 * second) sampleBinding "owner-0000000002"]

attribute [local instance] plainSha256

theorem dispatch_window_covered_renewed :
    (fleetMachine.trace sampleFleet windowCalls).map (fun e => (e.output.succeeded,
        FleetEntry.grantedAt 0 "workspace-000000" "resource-0000000" e)) =
      [(true, some (1 * second)), (true, none), (true, none), (false, none),
        (true, some (90 * second))] ∧
      WindowCovered (fleetMachine.trace sampleFleet windowCalls) 0 "workspace-000000"
        "resource-0000000" :=
  ⟨by decide +kernel,
    dispatch_window_covered sampleFleet_initial windowCalls 0 "workspace-000000" "resource-0000000"⟩

end Veer.Reconcile
