import Veer.FencedLease
import Veer.ReconcilePlanning

/-!
# What one call does to a lease row

Every call on a table is, on every row, one move of the abstract fenced register. A failing
call is a quiet move; a successful one shows the fence it granted or was made with.
-/
namespace Veer.Reconcile

open FencedLease AtomicCells

/-- The row as an abstract register; an empty owner is no owner. -/
def LeaseRow.view (row : LeaseRow) : Row LeaseBinding ID :=
  ⟨row.binding, if row.ownerID = "" then none else some row.ownerID, row.fence, row.expiresAt,
    row.observedAt⟩

def LeaseTable.view (table : LeaseTable) (key : String) : Option (Row LeaseBinding ID) :=
  (table.rows.lookup key).map LeaseRow.view

abbrev LeaseMove : Option (Row LeaseBinding ID) → Label → Option (Row LeaseBinding ID) → Prop :=
  Move storeLeaseDuration fun a b => leaseBindingMovesForward a b = true

theorem LeaseTable.lookup_write (table : LeaseTable) (key k : String) (row : LeaseRow) :
    (table.write key row).rows.lookup k = if k = key then some row else table.rows.lookup k := by
  unfold LeaseTable.write
  by_cases h : k = key
  · subst h
    simp
  · simp [h]

theorem LeaseTable.view_write (table : LeaseTable) (key k : String) (row : LeaseRow) :
    (table.write key row).view k = if k = key then some row.view else table.view k := by
  unfold LeaseTable.view
  rw [LeaseTable.lookup_write]
  split_ifs <;> rfl

variable {table observed : LeaseTable} {now : Int}
variable {row : LeaseRow}

theorem observeNowLocked_ok {key : String} (hnow : 0 ≤ now)
    (h : table.observeNowLocked key now = .ok (observed, row)) :
    ∃ prior, table.rows.lookup key = some prior ∧ prior.observedAt ≤ now ∧
      row = { prior with observedAt := now } ∧
      ∀ k, observed.rows.lookup k = if k = key then some row else table.rows.lookup k := by
  unfold LeaseTable.observeNowLocked at h
  cases hl : table.rows.lookup key with
  | none => simp [hl] at h
  | some prior =>
    simp only [hl] at h
    split_ifs at h with hback hforth
    · cases h
      exact ⟨prior, rfl, hforth.le, rfl, fun k => LeaseTable.lookup_write table key k _⟩
    · simp only [Except.ok.injEq, Prod.mk.injEq] at h
      obtain ⟨rfl, rfl⟩ := h
      have hclock : prior.observedAt = now := by omega
      refine ⟨prior, rfl, hclock.le, by rw [← hclock], fun k => ?_⟩
      split_ifs with hk
      · rw [hk, hl]
      · rfl

theorem observeNowLocked_quiet {key : String} (hnow : 0 ≤ now)
    (h : table.observeNowLocked key now = .ok (observed, row)) (k : String) :
    LeaseMove (table.view k) .quiet (observed.view k) := by
  obtain ⟨prior, hprior, hclock, rfl, hrows⟩ := observeNowLocked_ok hnow h
  unfold LeaseTable.view
  rw [hrows k]
  by_cases hk : k = key
  · subst hk
    rw [if_pos rfl, hprior]
    exact Move.observe hclock
  · rw [if_neg hk]
    exact .quiet _

variable {token : LeaseToken}

theorem currentRowLocked_some (h : table.currentRowLocked now token = some row) :
    table.rows.lookup (leaseRowKey token.binding) = some row ∧ row.ownerID ≠ "" ∧
      now < row.expiresAt ∧ row.fence = token.fence ∧ row.binding = token.binding ∧
      validateLeaseBinding token.binding = true := by
  unfold LeaseTable.currentRowLocked at h
  split_ifs at h with ht
  cases hl : table.rows.lookup (leaseRowKey token.binding) with
  | none => simp [hl] at h
  | some =>
    simp only [hl] at h
    split_ifs at h with hc
    cases h
    simp only [not_or, not_le, not_not, Bool.not_eq_true, Bool.not_eq_false'] at hc
    obtain ⟨ho, hx, -, hf, hb⟩ := hc
    obtain ⟨hv, hb⟩ := LeaseBinding.equal_iff.mp hb
    exact ⟨rfl, ho, hx, hf, hb, hb ▸ hv⟩

/-- The row a live token finds in the table it is presented to. -/
structure Holds (table : LeaseTable) (token : LeaseToken) (now : Int) (row : LeaseRow) : Prop where
  found : table.rows.lookup (leaseRowKey token.binding) = some row
  live : Live row.view now
  fence : row.fence = token.fence
  binding : row.binding = token.binding
  valid : validateLeaseBinding token.binding = true

variable {seen : LeaseRow}

/-- The check that all calls made with a token share: observe the row, then find it current. -/
theorem holds_of_current (hnow : 0 ≤ now)
    (hobs : table.observeNowLocked (leaseRowKey token.binding) now = .ok (observed, seen))
    (hcur : observed.currentRowLocked now token = some row) :
    ∃ prior, Holds table token now prior ∧ row = { prior with observedAt := now } ∧
      ∀ k, observed.rows.lookup k =
        if k = leaseRowKey token.binding then some row else table.rows.lookup k := by
  obtain ⟨prior, hprior, hclock, rfl, hrows⟩ := observeNowLocked_ok hnow hobs
  obtain ⟨hrow, howner, hexpiry, hfence, hbinding, hvalid⟩ := currentRowLocked_some hcur
  rw [hrows, if_pos rfl, Option.some.injEq] at hrow
  subst hrow
  refine ⟨prior, ⟨hprior, ⟨?_, hclock, hexpiry⟩, hfence, hbinding, hvalid⟩, rfl, hrows⟩
  simpa [LeaseRow.view] using howner

theorem grantedRow_ok {binding : LeaseBinding} {ownerID : ID} {previous : Int}
    (hnow : now % millisecond = 0) (h : grantedRow binding ownerID previous now = .ok row) :
    row = ⟨binding, ownerID, previous + 1, now, now + storeLeaseDuration, now⟩ := by
  unfold grantedRow nextFence at h
  split_ifs at h with hp
  cases he : addNormalizedDuration now storeLeaseDuration with
  | error => simp [he] at h
  | ok =>
    simp only [he, Except.ok.injEq] at h
    rw [← h, addNormalizedDuration_exact he hnow (by decide)]

/-! ## Calls -/

/-- The canonical form of an instant: `normalizeTime` returns no other one. -/
def truncateTime (value : Int) : Int := value - value % millisecond

theorem normalizeTime_eq_truncate {value : Int} (h : normalizeTime value = .ok now) :
    now = truncateTime value := by
  simp only [normalizeTime] at h
  split_ifs at h
  exact (Except.ok.inj h).symm

/-- The label a result leaves on a row: nothing on failure or on another row. -/
def resultLabel {α : Type*} (here : Bool) (label : α → Label) : Except Failure α → Label
  | .ok value => if here then label value else .quiet
  | .error _ => .quiet

@[simp] theorem resultLabel_error {α : Type*} (here : Bool) (label : α → Label)
    (failure : Failure) : resultLabel here label (.error failure) = .quiet := rfl

@[simp] theorem resultLabel_ok {α : Type*} (here : Bool) (label : α → Label) (value : α) :
    resultLabel here label (.ok value) = if here then label value else .quiet := rfl

theorem observed_quiet {key : String} {databaseTime : Int}
    (hn : normalizeTime databaseTime = .ok now)
    (hobs : table.observeNowLocked key now = .ok (observed, seen)) (k : String) :
    LeaseMove (table.view k) .quiet (observed.view k) :=
  observeNowLocked_quiet (normalizeTime_ok hn).2.2.1 hobs k

theorem grant_move {key k : String} {row : Except Failure LeaseRow} {label : LeaseToken → Label}
    (hquiet : LeaseMove (table.view k) .quiet (observed.view k))
    (hgrant : ∀ granted, row = .ok granted → LeaseMove (table.view key)
      (label (tokenFromRow granted observed.identity)) (some granted.view)) :
    LeaseMove (table.view k) (resultLabel (k == key) label (observed.grant key row).2)
      ((observed.grant key row).1.view k) := by
  cases row with
  | error => exact hquiet
  | ok granted =>
    simp only [LeaseTable.grant, resultLabel_ok, LeaseTable.view_write, beq_iff_eq]
    by_cases hk : k = key
    · rw [if_pos hk, if_pos hk, hk]
      exact hgrant granted rfl
    · rwa [if_neg hk, if_neg hk]

theorem free_of_not_held (hclock : row.observedAt ≤ now)
    (h : ¬ (row.ownerID ≠ "" ∧ now < row.expiresAt)) : Free row.view now := by
  refine ⟨hclock, ?_⟩
  simp only [LeaseRow.view]
  by_cases ho : row.ownerID = ""
  · exact .inl (if_pos ho)
  · exact .inr (not_lt.mp fun hx => h ⟨ho, hx⟩)

theorem acquire_move (table : LeaseTable) (databaseTime : Int) (binding : LeaseBinding)
    (ownerID : ID) (k : String) :
    LeaseMove (table.view k)
      (resultLabel (k == leaseRowKey binding)
        (fun token => .issue token.fence (truncateTime databaseTime))
        (table.acquire databaseTime binding ownerID).2)
      ((table.acquire databaseTime binding ownerID).1.view k) := by
  fun_cases LeaseTable.acquire table databaseTime binding ownerID
  case case4 hguard now hn hnone _ =>
    refine grant_move (.quiet _) fun granted hgranted => ?_
    obtain rfl := grantedRow_ok (normalizeTime_ok hn).2.2.2.2 hgranted
    rw [LeaseTable.view, hnone, ← normalizeTime_eq_truncate hn]
    simp only [Bool.not_eq_true, Bool.or_eq_false_iff, Bool.not_eq_false'] at hguard
    have howner := validID_ne_empty hguard.2
    simpa [LeaseRow.view, howner, tokenFromRow] using Move.create binding ownerID now
  case case8 hguard now hn _ _ observed row hobs hbinding hheld =>
    have hnow := (normalizeTime_ok hn).2.2.1
    refine grant_move (observeNowLocked_quiet hnow hobs k) fun granted hgranted => ?_
    obtain rfl := grantedRow_ok (normalizeTime_ok hn).2.2.2.2 hgranted
    obtain ⟨prior, hprior, hclock, rfl, -⟩ := observeNowLocked_ok hnow hobs
    rw [LeaseTable.view, hprior, ← normalizeTime_eq_truncate hn]
    simp only [Bool.not_eq_true, Bool.or_eq_false_iff, Bool.not_eq_false'] at hguard hbinding
    have howner := validID_ne_empty hguard.2
    have hsame := (LeaseBinding.equal_iff.mp hbinding).2
    subst hsame
    simpa [LeaseRow.view, howner, tokenFromRow] using
      Move.take ownerID (free_of_not_held hclock hheld)
  -- Every other way out is an error, before or after the row was observed.
  all_goals
    first
    | exact .quiet _
    | exact observed_quiet ‹_› ‹_› k

theorem acquireReplacement_move (table : LeaseTable) (atomics : Atomics) (databaseTime : Int)
    (authority : LeaseReplacementAuthority) (ownerID : ID) (k : String) :
    LeaseMove (table.view k)
      (resultLabel (k == leaseRowKey authority.expected)
        (fun token => .replace token.fence (truncateTime databaseTime))
        (table.acquireReplacement atomics databaseTime authority ownerID).2.2)
      ((table.acquireReplacement atomics databaseTime authority ownerID).1.view k) := by
  fun_cases LeaseTable.acquireReplacement table atomics databaseTime authority ownerID
  case case7 hguard now hn observed row hobs hbinding hheld replaced hgranted _ _ =>
    have hnow := (normalizeTime_ok hn).2.2.1
    obtain rfl := grantedRow_ok (normalizeTime_ok hn).2.2.2.2 hgranted
    obtain ⟨prior, hprior, hclock, rfl, -⟩ := observeNowLocked_ok hnow hobs
    simp only [Bool.not_eq_true, Bool.or_eq_false_iff, Bool.not_eq_false'] at hguard hbinding
    obtain ⟨⟨-, hauthority⟩, howner⟩ := hguard
    have howner := validID_ne_empty howner
    have hsame := (LeaseBinding.equal_iff.mp hbinding).2
    have hforward : leaseBindingMovesForward prior.binding authority.replacement = true := by
      simp only [validateLeaseReplacementAuthority, Bool.and_eq_true] at hauthority
      rw [show prior.binding = authority.expected from hsame]
      exact hauthority.1.1.2
    simp only [resultLabel_ok, LeaseTable.view_write, beq_iff_eq]
    by_cases hk : k = leaseRowKey authority.expected
    · rw [if_pos hk, if_pos hk, hk, LeaseTable.view, hprior, ← normalizeTime_eq_truncate hn]
      simpa [LeaseRow.view, howner, tokenFromRow] using
        Move.replace ownerID (free_of_not_held hclock hheld) hforward
    · rw [if_neg hk, if_neg hk]
      exact observeNowLocked_quiet hnow hobs k
  all_goals
    first
    | exact .quiet _
    | exact observed_quiet ‹_› ‹_› k

/-- A call made with a live token turns the row it found into `next`. -/
theorem held_move {after : LeaseTable} {label : Label} (next : LeaseRow) (hnow : 0 ≤ now)
    (hobs : table.observeNowLocked (leaseRowKey token.binding) now = .ok (observed, seen))
    (hcur : observed.currentRowLocked now token = some row)
    (hafter : ∀ k, after.rows.lookup k =
      if k = leaseRowKey token.binding then some next else observed.rows.lookup k)
    (hmove : ∀ prior : LeaseRow, Live prior.view now → prior.fence = token.fence →
      row = { prior with observedAt := now } →
      LeaseMove (some prior.view) label (some next.view)) (k : String) :
    LeaseMove (table.view k) (if k == leaseRowKey token.binding then label else .quiet)
      (after.view k) := by
  obtain ⟨prior, hholds, hrow, hrows⟩ := holds_of_current hnow hobs hcur
  by_cases hk : k = leaseRowKey token.binding
  · rw [if_pos (beq_iff_eq.mpr hk), LeaseTable.view, LeaseTable.view, hafter, if_pos hk, hk,
      hholds.found]
    exact hmove prior hholds.live hholds.fence hrow
  · rw [if_neg (by simpa using hk), LeaseTable.view.eq_def after, hafter, if_neg hk]
    exact observeNowLocked_quiet hnow hobs k

theorem used_move {databaseTime : Int} (hn : normalizeTime databaseTime = .ok now)
    (hobs : table.observeNowLocked (leaseRowKey token.binding) now = .ok (observed, seen))
    (hcur : observed.currentRowLocked now token = some row) (k : String) :
    LeaseMove (table.view k)
      (if k == leaseRowKey token.binding then .use token.fence (truncateTime databaseTime)
        else .quiet) (observed.view k) := by
  have hnow := (normalizeTime_ok hn).2.2.1
  rw [← normalizeTime_eq_truncate hn]
  obtain ⟨prior, -, -, hrows⟩ := holds_of_current hnow hobs hcur
  refine held_move row hnow hobs hcur (fun k => ?_) ?_ k
  · split_ifs with hk
    · rw [hrows, if_pos hk]
    · rfl
  · rintro prior hlive hfence rfl
    rw [← hfence]
    exact .use hlive

theorem renew_move (table : LeaseTable) (databaseTime : Int) (token : LeaseToken) (k : String) :
    LeaseMove (table.view k)
      (resultLabel (k == leaseRowKey token.binding)
        (fun _ => .renew token.fence (truncateTime databaseTime)) (table.renew databaseTime token).2)
      ((table.renew databaseTime token).1.view k) := by
  fun_cases LeaseTable.renew table databaseTime token
  case case7 hn observed _ hobs row hcur expiresAt hexpiry _ =>
    obtain rfl := addNormalizedDuration_exact hexpiry (normalizeTime_ok hn).2.2.2.2 (by decide)
    rw [resultLabel_ok, ← normalizeTime_eq_truncate hn]
    refine held_move _ (normalizeTime_ok hn).2.2.1 hobs hcur
      (LeaseTable.lookup_write observed _ · _) ?_ k
    rintro prior hlive hfence rfl
    rw [← hfence]
    exact .renew hlive
  all_goals
    first
    | exact .quiet _
    | exact observed_quiet ‹_› ‹_› k

theorem surrender_move (table : LeaseTable) (databaseTime : Int) (token : LeaseToken)
    (k : String) :
    LeaseMove (table.view k)
      (resultLabel (k == leaseRowKey token.binding)
        (fun _ => .release token.fence (truncateTime databaseTime))
        (table.surrender databaseTime token).2)
      ((table.surrender databaseTime token).1.view k) := by
  fun_cases LeaseTable.surrender table databaseTime token
  case case6 hn observed _ hobs row hcur =>
    rw [resultLabel_ok, ← normalizeTime_eq_truncate hn]
    refine held_move _ (normalizeTime_ok hn).2.2.1 hobs hcur
      (LeaseTable.lookup_write observed _ · _) ?_ k
    rintro prior hlive hfence rfl
    rw [← hfence]
    exact .release hlive
  all_goals
    first
    | exact .quiet _
    | exact observed_quiet ‹_› ‹_› k

theorem authorizeDispatch_move (table : LeaseTable) (atomics : Atomics) (databaseTime : Int)
    (token : LeaseToken) (rpcTimeout : Int) (authority : DispatchAuthority) (k : String) :
    LeaseMove (table.view k)
      (resultLabel (k == leaseRowKey token.binding)
        (fun _ => .use token.fence (truncateTime databaseTime))
        (table.authorizeDispatch atomics databaseTime token rpcTimeout authority).2.2)
      ((table.authorizeDispatch atomics databaseTime token rpcTimeout authority).1.view k) := by
  fun_cases LeaseTable.authorizeDispatch table atomics databaseTime token rpcTimeout authority
  all_goals
    first
    | exact .quiet _
    | exact observed_quiet ‹_› ‹_› k
    | exact used_move ‹_› ‹_› ‹_› k

theorem markAttemptDispatched_move [Sha256] (table : LeaseTable) (atomics : Atomics)
    (before : Attempt) (permit : DispatchPermit) (dispatchedAt : Int) (k : String) :
    LeaseMove (table.view k)
      (resultLabel (k == leaseRowKey permit.token.binding)
        (fun _ => .use permit.token.fence (truncateTime dispatchedAt))
        (table.markAttemptDispatched atomics before permit dispatchedAt).2.2)
      ((table.markAttemptDispatched atomics before permit dispatchedAt).1.view k) := by
  unfold LeaseTable.markAttemptDispatched
  fun_cases LeaseTable.markAttemptDispatchedReturned table atomics before permit dispatchedAt
  all_goals
    first
    | exact .quiet _
    | exact observed_quiet ‹_› ‹_› k
    | exact used_move ‹_› ‹_› ‹_› k

theorem authorizeCommit_move (table : LeaseTable) (databaseTime : Int) (token : LeaseToken)
    (bundle : TransitionBundle) (k : String) :
    LeaseMove (table.view k)
      (resultLabel (k == leaseRowKey token.binding)
        (fun _ => .use token.fence (truncateTime databaseTime))
        (table.authorizeCommit databaseTime token bundle).2)
      ((table.authorizeCommit databaseTime token bundle).1.view k) := by
  fun_cases LeaseTable.authorizeCommit table databaseTime token bundle
  all_goals
    first
    | exact .quiet _
    | exact observed_quiet ‹_› ‹_› k
    | exact used_move ‹_› ‹_› ‹_› k

end Veer.Reconcile
