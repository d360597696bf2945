import Veer.LeaseFleet

/-!
# Fencing over whole runs
-/
namespace Veer.Reconcile

open FencedLease StepMachine

/-- The fence that a successful `Acquire` or `AcquireReplacement` gave out on a row. -/
def FleetEntry.granted (i : Nat) (workspaceID resourceID : ID) (e : FleetEntry) : Option Int :=
  match e.input, e.output with
  | .acquire j _ binding _, .token (.ok token) =>
    if j = i ∧ onRow workspaceID resourceID binding then some token.fence else none
  | .acquireReplacement j _ _ _, .token (.ok token) =>
    if j = i ∧ onRow workspaceID resourceID token.binding then some token.fence else none
  | _, _ => none

/-- The table, token and instant of a call that is made with a token. -/
def FleetCall.presents : FleetCall → Option (Nat × LeaseToken × Int)
  | .renew table databaseTime token => some (table, token, databaseTime)
  | .surrender table databaseTime token => some (table, token, databaseTime)
  | .authorizeDispatch table databaseTime token _ _ => some (table, token, databaseTime)
  | .markAttemptDispatched table _ permit dispatchedAt => some (table, permit.token, dispatchedAt)
  | .authorizeCommit table databaseTime token _ => some (table, token, databaseTime)
  | _ => none

/-- The call presents a token of the row in table `i` with fence `f`. -/
def FleetCall.PresentsFence (i : Nat) (workspaceID resourceID : ID) (f : Int) (call : FleetCall) :
    Prop :=
  ∃ token databaseTime, call.presents = some (i, token, databaseTime) ∧
    onRow workspaceID resourceID token.binding = true ∧ token.fence = f

def Fleet.fence (fleet : Fleet) (i : Nat) (workspaceID resourceID : ID) : Option Int :=
  (fleet.row i workspaceID resourceID).map LeaseRow.fence

/-- What fencing promises on one row of one table, over the record of a run. -/
structure Fenced (run : List FleetEntry) (i : Nat) (workspaceID resourceID : ID) : Prop where
  /-- The granted fences are `1, 2, 3, …`, in this order. -/
  counts : run.filterMap (FleetEntry.granted i workspaceID resourceID) =
    (List.range (run.filterMap (FleetEntry.granted i workspaceID resourceID)).length).map
      fun n : Nat => (n : Int) + 1
  /-- A renewal returns the fence it was made with and leaves it in the row. -/
  renewKeeps : ∀ e ∈ run, ∀ databaseTime token renewed,
    e.input = .renew i databaseTime token → e.output = .token (.ok renewed) →
    onRow workspaceID resourceID token.binding = true →
    renewed.fence = token.fence ∧ e.before.fence i workspaceID resourceID = some token.fence ∧
      e.after.fence i workspaceID resourceID = some token.fence
  surrenderKeeps : ∀ e ∈ run, ∀ databaseTime token,
    e.input = .surrender i databaseTime token → e.output = .done (.ok ()) →
    onRow workspaceID resourceID token.binding = true →
    e.before.fence i workspaceID resourceID = some token.fence ∧
      e.after.fence i workspaceID resourceID = some token.fence
  /-- Once a higher fence is out, every call made with a lower one fails. -/
  overtaken : ∀ (a b : Nat) (e e' : FleetEntry) (f f' : Int), a < b → run[a]? = some e →
    run[b]? = some e' → e.granted i workspaceID resourceID = some f' → f < f' →
    e'.input.PresentsFence i workspaceID resourceID f → e'.output.succeeded = false
  /-- Once a fence is surrendered, every call made with it fails. -/
  surrendered : ∀ (a b : Nat) (e e' : FleetEntry) (databaseTime : Int) (token : LeaseToken), a < b →
    run[a]? = some e → run[b]? = some e' → e.input = .surrender i databaseTime token →
    e.output = .done (.ok ()) → onRow workspaceID resourceID token.binding = true →
    e'.input.PresentsFence i workspaceID resourceID token.fence → e'.output.succeeded = false
  /-- At or past the row's expiry every call made with a token fails. -/
  expired : ∀ e ∈ run, ∀ token databaseTime row,
    e.input.presents = some (i, token, databaseTime) →
    onRow workspaceID resourceID token.binding = true →
    e.before.row i workspaceID resourceID = some row → row.expiresAt ≤ truncateTime databaseTime →
    e.output.succeeded = false

variable {i : Nat} {workspaceID resourceID : ID}

theorem granted_eq_issued (e : FleetEntry) :
    e.granted i workspaceID resourceID = (e.label i workspaceID resourceID).issued := by
  rcases e with ⟨before, call, reply, after⟩
  simp only [FleetEntry.label, fleetLabel]
  cases call with
  | acquire =>
    cases reply with
    | token result =>
      cases result with
      | error => rfl
      | ok =>
        simp only [FleetEntry.granted, FleetReply.tokenLabel, resultLabel_ok, Bool.and_eq_true,
          beq_iff_eq]
        split_ifs <;> rfl
    | _ => rfl
  | acquireReplacement j =>
    cases reply with
    | token result =>
      cases result with
      | error => rfl
      | ok =>
        simp only [FleetEntry.granted, FleetReply.tokenLabel, resultLabel_ok, beq_iff_eq]
        by_cases hj : j = i
        · simp only [hj, true_and, if_true]
          split_ifs <;> rfl
        · simp [hj, Label.issued]
    | _ => rfl
  | selectPlan | authorizeGenerationReplacement => rfl
  | renew | surrender | authorizeDispatch | markAttemptDispatched | authorizeCommit =>
    cases reply with
    | minted => rfl
    | token result | permit result | attempt result | done result =>
      cases result with
      | error => rfl
      | ok =>
        simp only [FleetEntry.granted, FleetReply.heldLabel, resultLabel_ok]
        split_ifs <;> rfl

theorem heldLabel_of_succeeds {α : Type*} {result : Except Failure α} {label : Label}
    (hs : succeeds result = true) : resultLabel true (fun _ => label) result = label := by
  cases result with
  | error => simp [succeeds] at hs
  | ok => rfl

theorem held_of_succeeded [Sha256] {fleet : Fleet} {call : FleetCall} {token : LeaseToken}
    {databaseTime : Int} (hp : call.presents = some (i, token, databaseTime))
    (hrow : onRow workspaceID resourceID token.binding = true)
    (hs : (fleetStep fleet call).2.succeeded = true) :
    (fleetLabel i workspaceID resourceID call (fleetStep fleet call).2).held = some token.fence ∧
      (fleetLabel i workspaceID resourceID call (fleetStep fleet call).2).heldAt =
        some (truncateTime databaseTime) := by
  cases call with
  | acquire | acquireReplacement | selectPlan | authorizeGenerationReplacement =>
    simp [FleetCall.presents] at hp
  | renew | surrender | authorizeDispatch | markAttemptDispatched | authorizeCommit =>
    simp only [FleetCall.presents, Option.some.injEq, Prod.mk.injEq] at hp
    obtain ⟨rfl, rfl, rfl⟩ := hp
    simp only [fleetStep, FleetReply.succeeded] at hs
    simp only [fleetStep, fleetLabel, FleetReply.heldLabel, beq_self_eq_true, hrow, Bool.and_self,
      heldLabel_of_succeeds hs, Label.held, Label.heldAt, and_self]

theorem Fleet.view_eq (fleet : Fleet) :
    fleet.view i workspaceID resourceID =
      (fleet.row i workspaceID resourceID).map LeaseRow.view := rfl

theorem Fleet.Initial.view_none {fleet : Fleet} (h : fleet.Initial) :
    fleet.view i workspaceID resourceID = none := by
  obtain ⟨maximum, hm⟩ := h.built i
  unfold newLeaseTable at hm
  split_ifs at hm
  rw [Fleet.view, ← Except.ok.inj hm]
  rfl

theorem Fleet.fence_of_view {fleet : Fleet} {row : Row LeaseBinding ID}
    (h : fleet.view i workspaceID resourceID = some row) :
    fleet.fence i workspaceID resourceID = some row.fence := by
  rw [Fleet.view_eq, Option.map_eq_some_iff] at h
  obtain ⟨stored, hstored, rfl⟩ := h
  rw [Fleet.fence, hstored]
  rfl

section Runs

variable [Sha256] {fleet : Fleet} {calls : List FleetCall}

theorem entry_move {e : FleetEntry} (he : e ∈ fleetMachine.trace fleet calls) (i : Nat)
    (workspaceID resourceID : ID) :
    LeaseMove (e.before.view i workspaceID resourceID) (e.label i workspaceID resourceID)
      (e.after.view i workspaceID resourceID) := by
  obtain ⟨pre, post, -, hentry⟩ := mem_trace fleetMachine he
  rw [hentry]
  exact fleet_move _ _ i workspaceID resourceID

theorem entry_held {e : FleetEntry} (he : e ∈ fleetMachine.trace fleet calls)
    {token : LeaseToken} {databaseTime : Int}
    (hp : e.input.presents = some (i, token, databaseTime))
    (hrow : onRow workspaceID resourceID token.binding = true) (hs : e.output.succeeded = true) :
    (e.label i workspaceID resourceID).held = some token.fence ∧
      ∃ row row', e.before.view i workspaceID resourceID = some row ∧
        e.after.view i workspaceID resourceID = some row' ∧ row.fence = token.fence ∧
        row'.fence = token.fence ∧ Live row (truncateTime databaseTime) := by
  have hmove := entry_move he i workspaceID resourceID
  have hlabel : (e.label i workspaceID resourceID).held = some token.fence ∧
      (e.label i workspaceID resourceID).heldAt = some (truncateTime databaseTime) := by
    obtain ⟨pre, post, -, hentry⟩ := mem_trace fleetMachine he
    rw [hentry] at hs ⊢
    exact held_of_succeeded hp hrow hs
  exact ⟨hlabel.1, hmove.held_row hlabel.1 hlabel.2⟩

/-- Once a move made a fence stale, calls that present it fail. -/
theorem presents_fails {a b : Nat} (hab : a < b) {e e' : FleetEntry} {f : Int}
    (ha : (fleetMachine.trace fleet calls)[a]? = some e)
    (hb : (fleetMachine.trace fleet calls)[b]? = some e')
    (hstale : ∀ u w, LeaseMove u (e.label i workspaceID resourceID) w → Stale f w)
    (hp : e'.input.PresentsFence i workspaceID resourceID f) : e'.output.succeeded = false := by
  obtain ⟨token, databaseTime, hpresents, hrow, rfl⟩ := hp
  have hpath := fleet_path fleet calls i workspaceID resourceID
  by_contra hs
  have hheld := (entry_held (List.mem_of_getElem? hb) hpresents hrow (by simpa using hs)).1
  exact Path.held_ne_after hpath hab (k := e.label i workspaceID resourceID)
    (m := e'.label i workspaceID resourceID) (by simp [ha]) (by simp [hb]) hstale hheld

/-- Fencing is exclusive: on every row of every table of every run of a fresh fleet. -/
theorem fencing_exclusive {fleet : Fleet} (hinit : fleet.Initial) (calls : List FleetCall)
    (i : Nat) (workspaceID resourceID : ID) :
    Fenced (fleetMachine.trace fleet calls) i workspaceID resourceID where
  counts := by
    have hpath := fleet_path fleet calls i workspaceID resourceID
    have hissued := Path.issued_eq hpath
    rw [hinit.view_none, List.filterMap_map] at hissued
    have hfun : FleetEntry.granted i workspaceID resourceID =
        Label.issued ∘ FleetEntry.label i workspaceID resourceID :=
      funext granted_eq_issued
    rw [hfun, hissued]
    simp [lastFence, add_comm]
  renewKeeps := by
    intro e he databaseTime token renewed hin hout hrow
    have hp : e.input.presents = some (i, token, databaseTime) := by rw [hin]; rfl
    obtain ⟨-, row, row', hbefore, hafter, hfence, hfence', -⟩ :=
      entry_held he hp hrow (by rw [hout]; rfl)
    rw [Fleet.fence_of_view hbefore, Fleet.fence_of_view hafter, hfence, hfence']
    refine ⟨?_, rfl, rfl⟩
    obtain ⟨pre, post, -, hentry⟩ := mem_trace fleetMachine he
    rw [hentry, hin] at hout
    exact (renew_ok (FleetReply.token.inj hout)).2.1
  surrenderKeeps := by
    intro e he databaseTime token hin hout hrow
    have hp : e.input.presents = some (i, token, databaseTime) := by rw [hin]; rfl
    obtain ⟨-, row, row', hbefore, hafter, hfence, hfence', -⟩ :=
      entry_held he hp hrow (by rw [hout]; rfl)
    rw [Fleet.fence_of_view hbefore, Fleet.fence_of_view hafter, hfence, hfence']
    exact ⟨rfl, rfl⟩
  overtaken := by
    intro a b e e' f f' hab ha hb hgranted hlt hp
    refine presents_fails hab ha hb (fun u w hmove => ?_) hp
    rw [granted_eq_issued] at hgranted
    exact hmove.stale_of_issued hgranted hlt
  surrendered := by
    intro a b e e' databaseTime token hab ha hb hin hout hrow hp
    refine presents_fails hab ha hb (fun u w hmove => ?_) hp
    have hlabel : e.label i workspaceID resourceID =
        .release token.fence (truncateTime databaseTime) := by
      simp [FleetEntry.label, fleetLabel, hin, hout, FleetReply.heldLabel, hrow]
    rw [hlabel] at hmove
    exact hmove.stale_of_release
  expired := by
    intro e he token databaseTime row hp hrow hbefore hexpired
    by_contra hs
    obtain ⟨-, seen, -, hseen, -, -, -, hlive⟩ := entry_held he hp hrow (by simpa using hs)
    rw [Fleet.view_eq, hbefore, Option.map_some, Option.some.injEq] at hseen
    have := hlive.unexpired
    rw [← hseen] at this
    exact absurd hexpired (not_le.mpr this)

end Runs

def sampleBinding : LeaseBinding :=
  ⟨true, "workspace-000000", "resource-0000000", 1, "operation-000000", 1, ⟨true, []⟩⟩

def sampleFleet : Fleet :=
  ⟨fun i => ⟨true, i, 4, ∅⟩, ⟨⟨fun _ => false, 0⟩, ⟨fun _ => 0, 0⟩⟩, []⟩

theorem sampleFleet_initial : sampleFleet.Initial := ⟨fun _ => ⟨4, rfl⟩, rfl⟩

/-- A second owner takes an expired row over with the next fence. -/
def takeoverCalls : List FleetCall :=
  [.acquire 0 (1 * second) sampleBinding "owner-0000000001",
    .acquire 0 (61 * second) sampleBinding "owner-0000000002"]

attribute [local instance] plainSha256

theorem fencing_exclusive_takeover :
    (fleetMachine.trace sampleFleet takeoverCalls).filterMap
        (FleetEntry.granted 0 "workspace-000000" "resource-0000000") = [1, 2] ∧
      Fenced (fleetMachine.trace sampleFleet takeoverCalls) 0 "workspace-000000"
        "resource-0000000" :=
  ⟨by decide +kernel,
    fencing_exclusive sampleFleet_initial takeoverCalls 0 "workspace-000000" "resource-0000000"⟩

end Veer.Reconcile
