import Veer.LeaseFencing
import Veer.ReconcileQueue

/-!
# Deliveries and the lease table that fences them

A `DeliveryLedger` sees tokens only and never asks the table. A token's fence is at most the fence
of its row, so the fence that accepts a redelivery has already overtaken those accepted before it.
-/
namespace Veer.Reconcile

open FencedLease StepMachine RawURLEncoding ListHeap

inductive DeliveryDisposition
  | accepted | duplicateActive | duplicateCompleted
  deriving DecidableEq, Repr

structure DeliveryRecord where
  binding : LeaseBinding
  ownerID : ID
  fence : Int
  completed : Bool
  deriving DecidableEq, Repr

structure DeliveryLedger where
  initialized : Bool
  maximum : Nat
  records : AList (fun _ : String => DeliveryRecord)

def newDeliveryLedger (maximum : Int) : Except Failure DeliveryLedger :=
  if maximum < 1 then .error [.invalidDelivery] else .ok ⟨true, maximum.toNat, ∅⟩

/-- Classify the first and subsequent deliveries of the same durable work. -/
def DeliveryLedger.begin (ledger : DeliveryLedger) (work : WorkKey) (deliveryID : ID)
    (token : LeaseToken) : DeliveryLedger × Except Failure DeliveryDisposition :=
  if !ledger.initialized || !validWorkKey work || !validID deliveryID ||
      !validateLeaseToken token || !equalDigest work.planDigest token.binding.planDigest then
    (ledger, .error [.invalidDelivery])
  else
    match ledger.records.lookup work.string with
    | some current =>
      if current.completed then (ledger, .ok .duplicateCompleted)
      else if !current.binding.equal token.binding then (ledger, .error [.invalidDelivery])
      else if current.fence < token.fence then
        let taken := { current with ownerID := token.ownerID, fence := token.fence }
        ({ ledger with records := ledger.records.insert work.string taken }, .ok .accepted)
      else (ledger, .ok .duplicateActive)
    | none =>
      if ledger.maximum ≤ ledger.records.keys.length then (ledger, .error [.capacity])
      else
        let first := ⟨token.binding, token.ownerID, token.fence, false⟩
        ({ ledger with records := ledger.records.insert work.string first }, .ok .accepted)

/-- Mark one exactly-owned work identity terminal. -/
def DeliveryLedger.complete (ledger : DeliveryLedger) (work : WorkKey) (token : LeaseToken) :
    DeliveryLedger × Except Failure Unit :=
  if !ledger.initialized || !validWorkKey work || !validateLeaseToken token ||
      !equalDigest work.planDigest token.binding.planDigest then
    (ledger, .error [.invalidDelivery])
  else
    match ledger.records.lookup work.string with
    | none => (ledger, .error [.invalidDelivery])
    | some current =>
      if !current.binding.equal token.binding ∨ current.ownerID ≠ token.ownerID ∨
          current.fence ≠ token.fence then (ledger, .error [.reservationLost])
      else
        let terminal := { current with completed := true }
        ({ ledger with records := ledger.records.insert work.string terminal }, .ok ())

/-! ## Work keys have distinct texts -/

theorem WorkKey.string_inj {a b : WorkKey} (ha : validWorkKey a = true) (hb : validWorkKey b = true)
    (h : a.string = b.string) : a = b := by
  have hdot : ∀ bytes, '.' ∉ encode bytes := by
    intro bytes hmem
    have hsymbol := mem_encode hmem
    revert hsymbol
    decide
  rcases a with ⟨⟨ai, av⟩, pi, pv⟩
  rcases b with ⟨⟨bi, bv⟩, qi, qv⟩
  simp only [validWorkKey, Bool.and_eq_true] at ha hb
  obtain ⟨rfl, rfl⟩ := ha
  obtain ⟨rfl, rfl⟩ := hb
  have htext := congrArg String.toList h
  simp only [WorkKey.string, validWorkKey, Bool.and_self, Bool.not_true, Bool.false_eq_true,
    if_false, encodeToString, String.toList_append, String.toList_ofList, List.append_assoc,
    List.append_cancel_left_eq] at htext
  obtain ⟨hplan, hvalue⟩ := append_separator_inj (hdot pv) (hdot av) htext
  rw [encode_injective hplan, encode_injective hvalue]

/-! ## Deliveries over the tokens of one table -/

/-- A fleet of lease tables, the tokens that table `i` has returned, and a delivery ledger. -/
structure DeliveryRun where
  fleet : Fleet
  issued : List LeaseToken
  ledger : DeliveryLedger

/-- A delivery or a completion presents one of the returned tokens, by its position. -/
inductive DeliveryCall
  | lease (call : FleetCall)
  | begin (work : WorkKey) (deliveryID : ID) (position : Nat)
  | complete (work : WorkKey) (position : Nat)

inductive DeliveryReply
  | lease (reply : FleetReply)
  | begun (result : Except Failure DeliveryDisposition)
  | completed (result : Except Failure Unit)
  | refused

/-- The token that a call on table `i` returned. -/
def returnedToken (i : Nat) : FleetCall → FleetReply → Option LeaseToken
  | .acquire j _ _ _, .token (.ok token) => if j = i then some token else none
  | .acquireReplacement j _ _ _, .token (.ok token) => if j = i then some token else none
  | .renew j _ _, .token (.ok token) => if j = i then some token else none
  | _, _ => none

section Machine

variable [Sha256]

def deliveryStep (i : Nat) (run : DeliveryRun) : DeliveryCall → DeliveryRun × DeliveryReply
  | .lease call =>
    let (fleet, reply) := fleetStep run.fleet call
    ({ run with fleet := fleet, issued := run.issued ++ (returnedToken i call reply).toList },
      .lease reply)
  | .begin work deliveryID position =>
    match run.issued[position]? with
    | none => (run, .refused)
    | some token =>
      let (ledger, result) := run.ledger.begin work deliveryID token
      ({ run with ledger := ledger }, .begun result)
  | .complete work position =>
    match run.issued[position]? with
    | none => (run, .refused)
    | some token =>
      let (ledger, result) := run.ledger.complete work token
      ({ run with ledger := ledger }, .completed result)

def deliveryMachine (i : Nat) : Machine DeliveryRun DeliveryCall DeliveryReply :=
  ⟨deliveryStep i⟩

end Machine

abbrev DeliveryEntry := Entry DeliveryRun DeliveryCall DeliveryReply

/-- The work and the token of an accepted delivery. -/
def DeliveryEntry.accepted (e : DeliveryEntry) : Option (WorkKey × LeaseToken) :=
  match e.input, e.output with
  | .begin work _ position, .begun (.ok .accepted) =>
    e.before.issued[position]?.map fun token => (work, token)
  | _, _ => none

def DeliveryEntry.completed (e : DeliveryEntry) : Option (WorkKey × LeaseToken) :=
  match e.input, e.output with
  | .complete work position, .completed (.ok ()) =>
    e.before.issued[position]?.map fun token => (work, token)
  | _, _ => none

/-! ### Returned tokens -/

/-- The fence of a token's row in table `i`. -/
def DeliveryRun.rowFence (run : DeliveryRun) (i : Nat) (token : LeaseToken) : Int :=
  lastFence (run.fleet.view i token.binding.workspaceID token.binding.resourceID)

theorem onRow_self (binding : LeaseBinding) :
    onRow binding.workspaceID binding.resourceID binding = true := by
  simp [onRow]

theorem returnedToken_some {i : Nat} {call : FleetCall} {reply : FleetReply} {token : LeaseToken}
    (h : returnedToken i call reply = some token) :
    reply = .token (.ok token) ∧
      ((∃ databaseTime binding ownerID, call = .acquire i databaseTime binding ownerID) ∨
        (∃ databaseTime n ownerID, call = .acquireReplacement i databaseTime n ownerID) ∨
        ∃ databaseTime old, call = .renew i databaseTime old) := by
  unfold returnedToken at h
  split at h
  · next j databaseTime binding ownerID other =>
    split_ifs at h with hj
    rw [Option.some.injEq] at h
    exact ⟨by rw [h], .inl ⟨databaseTime, binding, ownerID, by rw [hj]⟩⟩
  · next j databaseTime n ownerID other =>
    split_ifs at h with hj
    rw [Option.some.injEq] at h
    exact ⟨by rw [h], .inr (.inl ⟨databaseTime, n, ownerID, by rw [hj]⟩)⟩
  · next j databaseTime old other =>
    split_ifs at h with hj
    rw [Option.some.injEq] at h
    exact ⟨by rw [h], .inr (.inr ⟨databaseTime, old, by rw [hj]⟩)⟩
  · cases h

theorem returnedToken_fence [Sha256] {i : Nat} {fleet : Fleet} {call : FleetCall}
    {token : LeaseToken} (h : returnedToken i call (fleetStep fleet call).2 = some token) :
    lastFence ((fleetStep fleet call).1.view i token.binding.workspaceID
      token.binding.resourceID) = token.fence := by
  have hmove := fleet_move fleet call i token.binding.workspaceID token.binding.resourceID
  have hrow := onRow_self token.binding
  obtain ⟨hreply, ⟨databaseTime, binding, ownerID, rfl⟩ | ⟨databaseTime, n, ownerID, rfl⟩ |
    ⟨databaseTime, old, rfl⟩⟩ := returnedToken_some h
  · have hbinding := (acquire_ok (FleetReply.token.inj hreply)).2
    rw [hreply] at hmove
    refine (hmove.lastFence_of_issued ?_).2
    rw [fleetLabel, ← hbinding]
    simp [FleetReply.tokenLabel, hrow, Label.issued]
  · rw [hreply] at hmove
    refine (hmove.lastFence_of_issued ?_).2
    simp [fleetLabel, FleetReply.tokenLabel, hrow, Label.issued]
  · obtain ⟨-, hfence, hbinding⟩ := renew_ok (FleetReply.token.inj hreply)
    rw [hreply, fleetLabel, ← hbinding] at hmove
    have hlabel : FleetReply.heldLabel (i == i && onRow token.binding.workspaceID
        token.binding.resourceID token.binding) (.renew old.fence (truncateTime databaseTime))
        (.token (.ok token)) = .renew old.fence (truncateTime databaseTime) := by
      simp [FleetReply.heldLabel, hrow]
    rw [hlabel] at hmove
    obtain ⟨row, row', -, hafter, -, hkept, -⟩ := hmove.held_row rfl rfl
    rw [hafter, hfence]
    exact hkept

/-- Every token that was returned has a fence that its row has reached. -/
def DeliveryRun.Reached (i : Nat) (run : DeliveryRun) : Prop :=
  ∀ token ∈ run.issued, token.fence ≤ run.rowFence i token

theorem delivery_rowFence [Sha256] (i : Nat) (run : DeliveryRun) (call : DeliveryCall)
    (token : LeaseToken) :
    run.rowFence i token ≤ ((deliveryMachine i).next run call).rowFence i token := by
  change _ ≤ (deliveryStep i run call).1.rowFence i token
  fun_cases deliveryStep i run call
  case case1 call fleet reply hstep =>
    have hmove := fleet_move run.fleet call i token.binding.workspaceID token.binding.resourceID
    rw [hstep] at hmove
    exact hmove.lastFence_mono
  all_goals exact le_refl _

theorem delivery_reached [Sha256] (i : Nat) (run : DeliveryRun) (call : DeliveryCall)
    (h : run.Reached i) : ((deliveryMachine i).next run call).Reached i := by
  intro token htoken
  have hkept : token ∈ run.issued → _ :=
    fun hold => (h token hold).trans (delivery_rowFence i run call token)
  change token ∈ (deliveryStep i run call).1.issued at htoken
  revert htoken
  cases call with
  | lease =>
    intro htoken
    rcases List.mem_append.mp htoken with hold | hnew
    · exact hkept hold
    · exact (returnedToken_fence (Option.mem_toList.mp hnew)).ge
  | begin work deliveryID position | complete work position =>
    unfold deliveryStep
    dsimp only
    split <;> exact hkept

/-! ### What a delivery does to the ledger -/

/-- An accepted delivery is recorded, and overtakes what stood there. -/
structure Accepts (before after : DeliveryLedger) (work : WorkKey) (token : LeaseToken) : Prop where
  valid : validWorkKey work = true
  written : ∃ record, after = { before with records := before.records.insert work.string record } ∧
    record.binding = token.binding ∧ record.ownerID = token.ownerID ∧ record.fence = token.fence
  overtakes : ∀ old, before.records.lookup work.string = some old →
    old.completed = false ∧ old.binding = token.binding ∧ old.fence < token.fence

/-- A completion is made with the recorded owner, fence and binding. -/
structure Finishes (before after : DeliveryLedger) (work : WorkKey) (token : LeaseToken) :
    Prop where
  valid : validWorkKey work = true
  owned : ∃ old, before.records.lookup work.string = some old ∧ old.binding = token.binding ∧
    old.ownerID = token.ownerID ∧ old.fence = token.fence ∧
    after = { before with
      records := before.records.insert work.string ⟨old.binding, old.ownerID, old.fence, true⟩ }

theorem begin_cases (ledger : DeliveryLedger) (work : WorkKey) (deliveryID : ID)
    (token : LeaseToken) :
    (ledger.begin work deliveryID token).2 = .ok .accepted ∧
        Accepts ledger (ledger.begin work deliveryID token).1 work token ∨
      (ledger.begin work deliveryID token).2 ≠ .ok .accepted ∧
        (ledger.begin work deliveryID token).1 = ledger := by
  fun_cases DeliveryLedger.begin ledger work deliveryID token
  case case4 hguard current hcurrent hopen hbinding hfence taken =>
    simp only [Bool.not_eq_true, Bool.or_eq_false_iff, Bool.not_eq_false'] at hguard hbinding hopen
    have hsame := (LeaseBinding.equal_iff.mp hbinding).2
    refine .inl ⟨rfl, hguard.1.1.1.2, ⟨taken, rfl, hsame, rfl, rfl⟩, ?_⟩
    intro old hold
    rw [hcurrent, Option.some.injEq] at hold
    subst hold
    exact ⟨hopen, hsame, hfence⟩
  case case7 hguard hnone hroom first =>
    simp only [Bool.not_eq_true, Bool.or_eq_false_iff, Bool.not_eq_false'] at hguard
    refine .inl ⟨rfl, hguard.1.1.1.2, ⟨first, rfl, rfl, rfl, rfl⟩, ?_⟩
    intro old hold
    rw [hnone] at hold
    cases hold
  all_goals exact .inr ⟨by simp, rfl⟩

theorem complete_finishes (ledger : DeliveryLedger) (work : WorkKey) (token : LeaseToken) :
    (ledger.complete work token).2 = .ok () ∧
        Finishes ledger (ledger.complete work token).1 work token ∨
      (ledger.complete work token).2 ≠ .ok () ∧ (ledger.complete work token).1 = ledger := by
  fun_cases DeliveryLedger.complete ledger work token
  case case4 hguard current hcurrent howned terminal =>
    simp only [Bool.not_eq_true, Bool.or_eq_false_iff, Bool.not_eq_false'] at hguard
    simp only [not_or, not_not, Bool.not_eq_true, Bool.not_eq_false'] at howned
    obtain ⟨hbinding, howner, hfence⟩ := howned
    exact .inl ⟨rfl, hguard.1.1.2, current, hcurrent, (LeaseBinding.equal_iff.mp hbinding).2,
      howner, hfence, rfl⟩
  all_goals exact .inr ⟨by simp, rfl⟩

/-- Everything a step may do to the ledger. -/
inductive DeliveryMove (e : DeliveryEntry) : Prop
  | quiet (accepted : e.accepted = none) (completed : e.completed = none)
      (ledger : e.after.ledger = e.before.ledger)
  | accept (work : WorkKey) (token : LeaseToken) (accepted : e.accepted = some (work, token))
      (completed : e.completed = none) (issued : token ∈ e.before.issued)
      (fleet : e.after.fleet = e.before.fleet)
      (accepts : Accepts e.before.ledger e.after.ledger work token)
  | finish (work : WorkKey) (token : LeaseToken) (accepted : e.accepted = none)
      (completed : e.completed = some (work, token))
      (finishes : Finishes e.before.ledger e.after.ledger work token)

theorem delivery_move [Sha256] (i : Nat) (run : DeliveryRun) (call : DeliveryCall) :
    DeliveryMove ((deliveryMachine i).entry run call) := by
  change DeliveryMove ⟨run, call, (deliveryStep i run call).2, (deliveryStep i run call).1⟩
  fun_cases deliveryStep i run call
  case case3 work deliveryID position token htoken ledger result hbegin =>
    have hcases := begin_cases run.ledger work deliveryID token
    rw [hbegin] at hcases
    rcases hcases with ⟨rfl, haccepts⟩ | ⟨hresult, rfl⟩
    · refine .accept work token ?_ rfl (List.mem_of_getElem? htoken) rfl haccepts
      simp [DeliveryEntry.accepted, htoken]
    · refine .quiet ?_ rfl rfl
      unfold DeliveryEntry.accepted
      split
      · next hbegun => exact absurd (DeliveryReply.begun.inj hbegun) hresult
      · rfl
  case case5 work position token htoken ledger result hcomplete =>
    have hcases := complete_finishes run.ledger work token
    rw [hcomplete] at hcases
    rcases hcases with ⟨rfl, hfinishes⟩ | ⟨hresult, rfl⟩
    · refine .finish work token rfl ?_ hfinishes
      simp [DeliveryEntry.completed, htoken]
    · refine .quiet rfl ?_ rfl
      unfold DeliveryEntry.completed
      split
      · next hdone => exact absurd (DeliveryReply.completed.inj hdone) hresult
      · rfl
  all_goals exact .quiet rfl rfl rfl

/-! ## One owner at a time, and one completion -/

/-- The record of the work has the token's binding and has reached its fence. -/
def DeliveryLedger.Tracks (ledger : DeliveryLedger) (work : WorkKey) (token : LeaseToken) : Prop :=
  ∃ record, ledger.records.lookup work.string = some record ∧ record.binding = token.binding ∧
    token.fence ≤ record.fence

def DeliveryLedger.Finished (ledger : DeliveryLedger) (work : WorkKey) : Prop :=
  ∃ record, ledger.records.lookup work.string = some record ∧ record.completed = true

section Entries

variable {e : DeliveryEntry} (h : DeliveryMove e) {work : WorkKey} {token : LeaseToken}
include h

theorem DeliveryMove.kept {key : String} {record : DeliveryRecord}
    (hrecord : e.before.ledger.records.lookup key = some record) :
    ∃ new, e.after.ledger.records.lookup key = some new ∧ new.binding = record.binding ∧
      record.fence ≤ new.fence ∧ (record.completed = true → new.completed = true) := by
  cases h with
  | quiet _ _ hledger => exact ⟨record, hledger ▸ hrecord, rfl, le_rfl, id⟩
  | accept other later _ _ _ _ haccepts =>
    obtain ⟨new, hnew, hbinding, -, hfence⟩ := haccepts.written
    rw [hnew]
    by_cases hkey : key = other.string
    · subst hkey
      obtain ⟨hopen, hold, hlt⟩ := haccepts.overtakes record hrecord
      exact ⟨new, AList.lookup_insert _, hbinding.trans hold.symm, by omega, by simp [hopen]⟩
    · exact ⟨record, (AList.lookup_insert_ne hkey).trans hrecord, rfl, le_rfl, id⟩
  | finish other _ _ _ hfinishes =>
    obtain ⟨old, hold, -, -, -, hafter⟩ := hfinishes.owned
    rw [hafter]
    by_cases hkey : key = other.string
    · subst hkey
      cases hold.symm.trans hrecord
      exact ⟨_, AList.lookup_insert _, rfl, le_rfl, fun _ => rfl⟩
    · exact ⟨record, (AList.lookup_insert_ne hkey).trans hrecord, rfl, le_rfl, id⟩

theorem DeliveryMove.tracks (ht : e.before.ledger.Tracks work token) :
    e.after.ledger.Tracks work token := by
  obtain ⟨record, hrecord, hbinding, hfence⟩ := ht
  obtain ⟨new, hnew, hsame, hrise, -⟩ := h.kept hrecord
  exact ⟨new, hnew, hsame.trans hbinding, hfence.trans hrise⟩

theorem DeliveryMove.finished (hf : e.before.ledger.Finished work) :
    e.after.ledger.Finished work := by
  obtain ⟨record, hrecord, hdone⟩ := hf
  obtain ⟨new, hnew, -, -, hkept⟩ := h.kept hrecord
  exact ⟨new, hnew, hkept hdone⟩

theorem DeliveryMove.accepts (ha : e.accepted = some (work, token)) :
    Accepts e.before.ledger e.after.ledger work token ∧ token ∈ e.before.issued ∧
      e.after.fleet = e.before.fleet := by
  cases h with
  | quiet haccepted | finish _ _ haccepted =>
    rw [haccepted] at ha
    cases ha
  | accept other later haccepted _ hissued hfleet haccepts =>
    rw [haccepted, Option.some.injEq, Prod.mk.injEq] at ha
    obtain ⟨rfl, rfl⟩ := ha
    exact ⟨haccepts, hissued, hfleet⟩

theorem DeliveryMove.finishes (hc : e.completed = some (work, token)) :
    Finishes e.before.ledger e.after.ledger work token := by
  cases h with
  | quiet _ hcompleted | accept _ _ _ hcompleted =>
    rw [hcompleted] at hc
    cases hc
  | finish other later _ hcompleted hfinishes =>
    rw [hcompleted, Option.some.injEq, Prod.mk.injEq] at hc
    obtain ⟨rfl, rfl⟩ := hc
    exact hfinishes

end Entries

/-- Every record stands as the latest accepted delivery of its key left it. -/
def LatestDelivery (past : List DeliveryEntry) (ledger : DeliveryLedger) : Prop :=
  ∀ key record, ledger.records.lookup key = some record →
    ∃ (n : Nat) (last : DeliveryEntry) (work : WorkKey) (latest : LeaseToken),
      past[n]? = some last ∧ last.accepted = some (work, latest) ∧ validWorkKey work = true ∧
      work.string = key ∧ record.binding = latest.binding ∧ record.ownerID = latest.ownerID ∧
      record.fence = latest.fence ∧
      ∀ (j : Nat) (between : DeliveryEntry) other later, n < j → past[j]? = some between →
        between.accepted = some (other, later) → other.string ≠ key

theorem LatestDelivery.move {past : List DeliveryEntry} {e : DeliveryEntry} (h : DeliveryMove e)
    (hl : LatestDelivery past e.before.ledger) :
    LatestDelivery (past ++ [e]) e.after.ledger := by
  -- an old record that this entry does not touch
  have hold : ∀ {key record}, e.before.ledger.records.lookup key = some record →
      (∀ other later, e.accepted = some (other, later) → other.string ≠ key) →
      ∃ (n : Nat) (last : DeliveryEntry) (work : WorkKey) (latest : LeaseToken),
        (past ++ [e])[n]? = some last ∧ last.accepted = some (work, latest) ∧
        validWorkKey work = true ∧ work.string = key ∧ record.binding = latest.binding ∧
        record.ownerID = latest.ownerID ∧ record.fence = latest.fence ∧
        ∀ (j : Nat) (between : DeliveryEntry) other later, n < j →
          (past ++ [e])[j]? = some between → between.accepted = some (other, later) →
          other.string ≠ key := by
    intro key record hrecord hother
    obtain ⟨n, last, work, latest, hn, hlast, hvalid, hkey, hbinding, howner, hfence, hnone⟩ :=
      hl key record hrecord
    refine ⟨n, last, work, latest, getElem?_concat_eq_some.mpr (.inl hn), hlast, hvalid, hkey,
      hbinding, howner, hfence, ?_⟩
    intro j between other later hj hat haccepted
    rcases getElem?_concat_eq_some.mp hat with hin | ⟨-, rfl⟩
    · exact hnone j between other later hj hin haccepted
    · exact hother other later haccepted
  intro key record hrecord
  cases h with
  | quiet haccepted _ hledger =>
    rw [hledger] at hrecord
    exact hold hrecord (by simp [haccepted])
  | accept work token haccepted _ _ _ haccepts =>
    obtain ⟨new, hafter, hbinding, howner, hfence⟩ := haccepts.written
    rw [hafter] at hrecord
    by_cases hkey : key = work.string
    · subst hkey
      rw [AList.lookup_insert, Option.some.injEq] at hrecord
      subst hrecord
      refine ⟨past.length, e, work, token, by simp, haccepted, haccepts.valid, rfl, hbinding,
        howner, hfence, ?_⟩
      intro j between other later hj hat
      have hlt := (List.getElem?_eq_some_iff.mp hat).1
      rw [List.length_append, List.length_singleton] at hlt
      omega
    · rw [AList.lookup_insert_ne hkey] at hrecord
      refine hold hrecord ?_
      intro other later hother
      rw [haccepted, Option.some.injEq, Prod.mk.injEq] at hother
      rw [← hother.1]
      exact fun h => hkey h.symm
  | finish work token haccepted _ hfinishes =>
    obtain ⟨old, hthere, -, -, -, hafter⟩ := hfinishes.owned
    rw [hafter] at hrecord
    by_cases hkey : key = work.string
    · subst hkey
      rw [AList.lookup_insert, Option.some.injEq] at hrecord
      subst hrecord
      have hkept := hold hthere (by simp [haccepted])
      exact hkept
    · rw [AList.lookup_insert_ne hkey] at hrecord
      exact hold hrecord (by simp [haccepted])

/-- What a record of deliveries over the tokens of table `i` shows. -/
structure DeliveredOnce (i : Nat) (entries : List DeliveryEntry) : Prop where
  /-- The fences accepted for a work key rise, under the binding of the first. -/
  ordered : ∀ (m n : Nat) first second work token later, m < n → entries[m]? = some first →
    entries[n]? = some second → first.accepted = some (work, token) →
    second.accepted = some (work, later) →
    token.fence < later.fence ∧ later.binding = token.binding
  /-- Once a second delivery is accepted, calls with the first one's fence fail in the table. -/
  fenced : ∀ (m n k : Nat) first second late work token later call, m < n → n < k →
    entries[m]? = some first → entries[n]? = some second → entries[k]? = some late →
    first.accepted = some (work, token) → second.accepted = some (work, later) →
    late.input = .lease call →
    call.PresentsFence i token.binding.workspaceID token.binding.resourceID token.fence →
    ∃ reply, late.output = .lease reply ∧ reply.succeeded = false
  /-- A completion comes from the owner of the latest accepted delivery. -/
  owned : ∀ (k : Nat) e work token, entries[k]? = some e → e.completed = some (work, token) →
    ∃ (n : Nat) (last : DeliveryEntry) (latest : LeaseToken), n < k ∧ entries[n]? = some last ∧
      last.accepted = some (work, latest) ∧
      (∀ (j : Nat) between other, n < j → j < k → entries[j]? = some between →
        between.accepted ≠ some (work, other)) ∧
      token.ownerID = latest.ownerID ∧ token.fence = latest.fence ∧
      token.binding = latest.binding
  final : ∀ (m n : Nat) done e work token other, m < n → entries[m]? = some done →
    entries[n]? = some e → done.completed = some (work, token) → e.accepted ≠ some (work, other)

section Runs

variable [Sha256] {i : Nat} {run : DeliveryRun} {calls : List DeliveryCall}

theorem delivery_entry {e : DeliveryEntry} (he : e ∈ (deliveryMachine i).trace run calls) :
    DeliveryMove e ∧ e = (deliveryMachine i).entry e.before e.input := by
  obtain ⟨pre, post, -, hentry⟩ := mem_trace _ he
  rw [hentry]
  exact ⟨delivery_move i _ _, rfl⟩

theorem ledger_kept {P : DeliveryLedger → Prop}
    (hmove : ∀ e : DeliveryEntry, DeliveryMove e → P e.before.ledger → P e.after.ledger)
    {m n : Nat} {first second : DeliveryEntry} (hmn : m < n)
    (hm : ((deliveryMachine i).trace run calls)[m]? = some first)
    (hn : ((deliveryMachine i).trace run calls)[n]? = some second) (h : P first.after.ledger) :
    P second.before.ledger := by
  obtain ⟨mid, hbefore, -⟩ := trace_between _ hmn hm hn
  rw [hbefore]
  exact exec_invariant (deliveryMachine i) (P := fun run => P run.ledger)
    (fun state call hstate => hmove _ (delivery_move i state call) hstate) h mid

theorem accepted_tracks {m : Nat} {first : DeliveryEntry} {work : WorkKey} {token : LeaseToken}
    (hm : ((deliveryMachine i).trace run calls)[m]? = some first)
    (ha : first.accepted = some (work, token)) : first.after.ledger.Tracks work token := by
  obtain ⟨haccepts, -⟩ := (delivery_entry (List.mem_of_getElem? hm)).1.accepts ha
  obtain ⟨record, hafter, hbinding, -, hfence⟩ := haccepts.written
  rw [hafter]
  exact ⟨record, AList.lookup_insert _, hbinding, hfence.ge⟩

theorem accepted_ordered {m n : Nat} {first second : DeliveryEntry} {work : WorkKey}
    {token later : LeaseToken} (hmn : m < n)
    (hm : ((deliveryMachine i).trace run calls)[m]? = some first)
    (hn : ((deliveryMachine i).trace run calls)[n]? = some second)
    (hfirst : first.accepted = some (work, token))
    (hsecond : second.accepted = some (work, later)) :
    token.fence < later.fence ∧ later.binding = token.binding := by
  obtain ⟨record, hrecord, hbinding, hfence⟩ :=
    ledger_kept (P := fun ledger => ledger.Tracks work token) (fun _ hmove => hmove.tracks) hmn hm
      hn (accepted_tracks hm hfirst)
  obtain ⟨haccepts, -⟩ := (delivery_entry (List.mem_of_getElem? hn)).1.accepts hsecond
  obtain ⟨-, hsame, hlt⟩ := haccepts.overtakes record hrecord
  exact ⟨by omega, by rw [← hsame, hbinding]⟩

/-- A fence below that of a returned token of the same row is stale from then on. -/
theorem stale_fails {n k : Nat} {second late : DeliveryEntry} {token : LeaseToken}
    {call : FleetCall} {f : Int} (hnk : n < k)
    (hn : ((deliveryMachine i).trace run calls)[n]? = some second)
    (hk : ((deliveryMachine i).trace run calls)[k]? = some late)
    (hlt : f < second.after.rowFence i token) (hinput : late.input = .lease call)
    (hp : call.PresentsFence i token.binding.workspaceID token.binding.resourceID f) :
    ∃ reply, late.output = .lease reply ∧ reply.succeeded = false := by
  obtain ⟨mid, hbefore, -⟩ := trace_between _ hnk hn hk
  have hstale : f < late.before.rowFence i token := by
    rw [hbefore]
    exact exec_invariant (deliveryMachine i) (P := fun run => f < run.rowFence i token)
      (fun state call hstate => hstate.trans_le (delivery_rowFence i state call token)) hlt mid
  obtain ⟨-, hentry⟩ := delivery_entry (List.mem_of_getElem? hk)
  refine ⟨(fleetStep late.before.fleet call).2, ?_, ?_⟩
  · rw [hentry, hinput]
    rfl
  · by_contra hs
    obtain ⟨presented, databaseTime, hpresents, hrow, rfl⟩ := hp
    have hheld := (held_of_succeeded hpresents hrow (by simpa using hs)).1
    have hmove := fleet_move late.before.fleet call i token.binding.workspaceID
      token.binding.resourceID
    exact hmove.held_not_stale hheld (.inl hstale)

/-- Deliveries over the tokens of one table have one owner at a time and complete once, however
they interleave with calls on the lease tables. -/
theorem delivered_once {maximum : Int} {ledger : DeliveryLedger}
    (hnew : newDeliveryLedger maximum = .ok ledger) (i : Nat) (fleet : Fleet)
    (calls : List DeliveryCall) :
    DeliveredOnce i ((deliveryMachine i).trace ⟨fleet, [], ledger⟩ calls) := by
  have hempty : ledger.records = ∅ := by
    unfold newDeliveryLedger at hnew
    split_ifs at hnew
    rw [← Except.ok.inj hnew]
  refine ⟨?_, ?_, ?_, ?_⟩
  · intro m n first second work token later hmn hm hn hfirst hsecond
    exact accepted_ordered hmn hm hn hfirst hsecond
  · intro m n k first second late work token later call hmn hnk hm hn hk hfirst hsecond hinput hp
    obtain ⟨hlt, hbinding⟩ := accepted_ordered hmn hm hn hfirst hsecond
    obtain ⟨-, hissued, hfleet⟩ :=
      (delivery_entry (List.mem_of_getElem? hn)).1.accepts hsecond
    have hreached := (trace_invariant (deliveryMachine i) (delivery_reached i)
      (s := ⟨fleet, [], ledger⟩) (by simp [DeliveryRun.Reached]) (List.mem_of_getElem? hn)).1
    have hrow : second.after.rowFence i token = second.before.rowFence i later := by
      unfold DeliveryRun.rowFence
      rw [hfleet, hbinding]
    refine stale_fails hnk hn hk ?_ hinput hp
    rw [hrow]
    exact hlt.trans_le (hreached later hissued)
  · intro k e work token hk hcompleted
    have hlatest := record_before (deliveryMachine i)
      (P := fun past run => LatestDelivery past run.ledger) (s := ⟨fleet, [], ledger⟩)
      (by intro key record hrecord; rw [hempty] at hrecord; cases hrecord)
      (fun past state call h => LatestDelivery.move (delivery_move i state call) h) hk
    have hfinishes := (delivery_entry (List.mem_of_getElem? hk)).1.finishes hcompleted
    obtain ⟨old, hold, hbinding, howner, hfence, -⟩ := hfinishes.owned
    obtain ⟨n, last, other, latest, hn, hlast, hvalid, hkey, hb, ho, hf, hnone⟩ :=
      hlatest _ old hold
    obtain ⟨hnk, hat⟩ := getElem?_take_eq_some.mp hn
    obtain rfl := WorkKey.string_inj hvalid hfinishes.valid hkey
    refine ⟨n, last, latest, hnk, hat, hlast, ?_, by rw [← howner, ho], by rw [← hfence, hf],
      by rw [← hbinding, hb]⟩
    intro j between later hj hjk hbetween haccepted
    exact hnone j between other later hj (getElem?_take_eq_some.mpr ⟨hjk, hbetween⟩) haccepted rfl
  · intro m n done e work token other hmn hm hn hdone haccepted
    have hfinishes := (delivery_entry (List.mem_of_getElem? hm)).1.finishes hdone
    have hafter : done.after.ledger.Finished work := by
      obtain ⟨old, -, -, -, -, hafter⟩ := hfinishes.owned
      rw [hafter]
      exact ⟨⟨old.binding, old.ownerID, old.fence, true⟩, AList.lookup_insert _, rfl⟩
    obtain ⟨record, hrecord, hcompleted⟩ :=
      ledger_kept (P := fun ledger => ledger.Finished work) (fun _ hmove => hmove.finished) hmn hm
        hn hafter
    obtain ⟨haccepts, -⟩ := (delivery_entry (List.mem_of_getElem? hn)).1.accepts haccepted
    have hopen := (haccepts.overtakes record hrecord).1
    rw [hcompleted] at hopen
    cases hopen

end Runs

def sampleWork : WorkKey := ⟨⟨true, [1]⟩, ⟨true, []⟩⟩

/-- A redelivery to the owner that took the expired row over; the first owner's token comes again
and is a duplicate, and the second owner completes. -/
def redeliveryCalls : List DeliveryCall :=
  [.lease (.acquire 0 (1 * second) sampleBinding "owner-0000000001"),
    .begin sampleWork "delivery-0000001" 0,
    .lease (.acquire 0 (61 * second) sampleBinding "owner-0000000002"),
    .begin sampleWork "delivery-0000002" 1,
    .begin sampleWork "delivery-0000003" 0,
    .complete sampleWork 1]

attribute [local instance] plainSha256

theorem delivered_once_redelivered :
    ∃ ledger, newDeliveryLedger 1 = .ok ledger ∧
      (((deliveryMachine 0).trace ⟨sampleFleet, [], ledger⟩ redeliveryCalls).map
          fun e => (DeliveryEntry.accepted e).map fun pair => pair.2.fence) =
        [none, some 1, none, some 2, none, none] ∧
      (((deliveryMachine 0).trace ⟨sampleFleet, [], ledger⟩ redeliveryCalls).map
          fun e => (DeliveryEntry.completed e).map fun pair => pair.2.fence) =
        [none, none, none, none, none, some 2] ∧
      DeliveredOnce 0 ((deliveryMachine 0).trace ⟨sampleFleet, [], ledger⟩ redeliveryCalls) := by
  have hnew : newDeliveryLedger 1 = .ok ⟨true, 1, ∅⟩ := rfl
  exact ⟨_, hnew, by decide +kernel, by decide +kernel,
    delivered_once hnew 0 sampleFleet redeliveryCalls⟩

end Veer.Reconcile
