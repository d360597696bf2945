import Veer.ListHeap
import Veer.ReconcileDigest
import Veer.StepMachine

/-!
# Request units of the work queue

A `QueueBudget` hands out the request units of one month to work items. Unit counts are `Int64`, as
in the source, so that a sum that leaves the range would wrap here too; the results below show that
none does. A call runs under the budget's lock. Nil receivers are left out.
-/
namespace Veer.Reconcile

open RawURLEncoding StepMachine ListHeap

/-! ## Work keys -/

/-- A compact durable queue identity. It retains the plan digest that a lease binding has. -/
structure WorkKey where
  value : DigestValue
  planDigest : PlanDigest
  deriving DecidableEq, Repr

def workKeyPrefix : String := "rwk1_"

def validWorkKey (value : WorkKey) : Bool := value.value.initialized && value.planDigest.initialized

def WorkKey.string (value : WorkKey) : String :=
  if !validWorkKey value then workKeyPrefix ++ "invalid"
  else workKeyPrefix ++ encodeToString value.planDigest.digest ++ "." ++
    encodeToString value.value.digest

/-! ## The budget -/

structure QueueReservation where
  initialized : Bool
  work : WorkKey
  total : Int64
  consumed : Int64
  completed : Bool
  deriving DecidableEq, Repr

structure QueueBudget where
  initialized : Bool
  requestCap : Int64
  maximumWork : Int
  used : Int64
  reserved : Int64
  records : AList (fun _ : String => QueueReservation)

/-- Go's zero value `QueueBudget{}`. -/
def QueueBudget.zero : QueueBudget := ⟨false, 0, 0, 0, 0, ∅⟩

def newQueueBudget (requestCap : Int64) (maximumWork : Int) : Except Failure QueueBudget :=
  if requestCap < 1 ∨ maximumWork < 1 then .error [.invalidDelivery]
  else .ok ⟨true, requestCap, maximumWork, 0, 0, ∅⟩

def validateQueueReservation (value : QueueReservation) : Bool :=
  value.initialized && validWorkKey value.work && decide (1 ≤ value.total) &&
    decide (0 ≤ value.consumed) && decide (value.consumed ≤ value.total)

def QueueBudget.reserve (budget : QueueBudget) (work : WorkKey) (requestUnits : Int64) :
    QueueBudget × Except Failure QueueReservation :=
  if !budget.initialized || !validWorkKey work || decide (requestUnits < 1) then
    (budget, .error [.invalidDelivery])
  else
    match budget.records.lookup work.string with
    | some current =>
      if current.completed then (budget, .error [.reservationLost])
      else if current.total = requestUnits then (budget, .ok current)
      else (budget, .error [.invalidDelivery])
    | none =>
      if budget.maximumWork ≤ budget.records.keys.length ∨
          budget.requestCap - budget.used - budget.reserved < requestUnits then
        (budget, .error [.capacity])
      else
        let reservation : QueueReservation := ⟨true, work, requestUnits, 0, false⟩
        ({ budget with
          records := budget.records.insert work.string reservation
          reserved := budget.reserved + requestUnits }, .ok reservation)

def QueueBudget.consume (budget : QueueBudget) (reservation : QueueReservation)
    (requestUnits : Int64) : QueueBudget × Except Failure QueueReservation :=
  if !budget.initialized || !validateQueueReservation reservation || decide (requestUnits < 1) then
    (budget, .error [.invalidDelivery])
  else
    match budget.records.lookup reservation.work.string with
    | none => (budget, .error [.reservationLost])
    | some current =>
      if current.completed ∨ current.total ≠ reservation.total ∨
          current.total - current.consumed < requestUnits then
        (budget, .error [.reservationLost])
      else
        let current := { current with consumed := current.consumed + requestUnits }
        ({ budget with
          reserved := budget.reserved - requestUnits
          used := budget.used + requestUnits
          records := budget.records.insert reservation.work.string current }, .ok current)

def QueueBudget.complete (budget : QueueBudget) (reservation : QueueReservation) :
    QueueBudget × Except Failure QueueReservation :=
  if !budget.initialized || !validateQueueReservation reservation then
    (budget, .error [.invalidDelivery])
  else
    match budget.records.lookup reservation.work.string with
    | none => (budget, .error [.invalidDelivery])
    | some current =>
      if current.total ≠ reservation.total then (budget, .error [.invalidDelivery])
      else if current.completed then (budget, .ok current)
      else
        let completed := { current with completed := true }
        ({ budget with
          reserved := budget.reserved - (current.total - current.consumed)
          records := budget.records.insert reservation.work.string completed }, .ok completed)

/-- Consumed, still reserved and unallocated units. -/
def QueueBudget.usage (budget : QueueBudget) : Int64 × Int64 × Int64 :=
  if !budget.initialized then (0, 0, 0)
  else (budget.used, budget.reserved, budget.requestCap - budget.used - budget.reserved)

inductive QueueCall
  | reserve (work : WorkKey) (requestUnits : Int64)
  | consume (reservation : QueueReservation) (requestUnits : Int64)
  | complete (reservation : QueueReservation)
  deriving DecidableEq, Repr

def QueueBudget.step (budget : QueueBudget) :
    QueueCall → QueueBudget × Except Failure QueueReservation
  | .reserve work requestUnits => budget.reserve work requestUnits
  | .consume reservation requestUnits => budget.consume reservation requestUnits
  | .complete reservation => budget.complete reservation

def queueMachine : Machine QueueBudget QueueCall (Except Failure QueueReservation) :=
  ⟨QueueBudget.step⟩

/-! ## What a call does to the records -/

/-- The four things that can happen to a budget, with what was checked before. -/
inductive QueueBudget.Moves (budget : QueueBudget) : QueueBudget → Prop
  | same : budget.Moves budget
  | reserve (work : WorkKey) (units : Int64) (hnone : budget.records.lookup work.string = none)
      (hunits : 1 ≤ units) (hroom : units ≤ budget.requestCap - budget.used - budget.reserved) :
      budget.Moves { budget with
        records := budget.records.insert work.string ⟨true, work, units, 0, false⟩
        reserved := budget.reserved + units }
  | consume (key : String) (current : QueueReservation) (units : Int64)
      (hcurrent : budget.records.lookup key = some current) (hopen : current.completed = false)
      (hunits : 1 ≤ units) (hroom : units ≤ current.total - current.consumed) :
      budget.Moves { budget with
        reserved := budget.reserved - units
        used := budget.used + units
        records := budget.records.insert key
          { current with consumed := current.consumed + units } }
  | complete (key : String) (current : QueueReservation)
      (hcurrent : budget.records.lookup key = some current) (hopen : current.completed = false) :
      budget.Moves { budget with
        reserved := budget.reserved - (current.total - current.consumed)
        records := budget.records.insert key { current with completed := true } }

theorem int64_not_lt {a b : Int64} (h : ¬ a < b) : b ≤ a := by
  rw [Int64.le_iff_toInt_le]
  rw [Int64.lt_iff_toInt_lt] at h
  omega

theorem QueueBudget.reserve_moves (budget : QueueBudget) (work : WorkKey) (units : Int64) :
    budget.Moves (budget.reserve work units).1 := by
  fun_cases QueueBudget.reserve budget work units
  case case6 hvalid hnone hroom reservation =>
    simp only [Bool.or_eq_true, decide_eq_true_eq, not_or] at hvalid
    exact .reserve work units hnone (int64_not_lt hvalid.2) (int64_not_lt (not_or.mp hroom).2)
  all_goals exact .same

theorem QueueBudget.consume_moves (budget : QueueBudget) (reservation : QueueReservation)
    (units : Int64) : budget.Moves (budget.consume reservation units).1 := by
  fun_cases QueueBudget.consume budget reservation units
  case case4 hvalid current hcurrent hopen consumed =>
    simp only [Bool.or_eq_true, decide_eq_true_eq, not_or] at hvalid
    obtain ⟨hcompleted, -, hroom⟩ := not_or.mp hopen |>.imp id not_or.mp
    exact .consume _ current units hcurrent (Bool.eq_false_of_not_eq_true hcompleted)
      (int64_not_lt hvalid.2) (int64_not_lt hroom)
  all_goals exact .same

theorem QueueBudget.complete_moves (budget : QueueBudget) (reservation : QueueReservation) :
    budget.Moves (budget.complete reservation).1 := by
  fun_cases QueueBudget.complete budget reservation
  case case5 current hcurrent _ hopen completed =>
    exact .complete _ current hcurrent (Bool.eq_false_of_not_eq_true hopen)
  all_goals exact .same

theorem queue_next_moves (budget : QueueBudget) (call : QueueCall) :
    budget.Moves (queueMachine.next budget call) := by
  cases call with
  | reserve work units => exact budget.reserve_moves work units
  | consume reservation units => exact budget.consume_moves reservation units
  | complete reservation => exact budget.complete_moves reservation

/-! ## Conservation -/

/-- The units that the records have consumed. -/
def QueueBudget.consumedUnits (budget : QueueBudget) : Int :=
  (budget.records.entries.map fun row => row.2.consumed.toInt).sum

def QueueReservation.openUnits (value : QueueReservation) : Int :=
  if value.completed then 0 else value.total.toInt - value.consumed.toInt

/-- What the open records may still consume. -/
def QueueBudget.openUnits (budget : QueueBudget) : Int :=
  (budget.records.entries.map fun row => row.2.openUnits).sum

structure QueueBudget.Conserved (budget : QueueBudget) : Prop where
  consumed : ∀ row ∈ budget.records.entries,
    0 ≤ row.2.consumed.toInt ∧ row.2.consumed.toInt ≤ row.2.total.toInt
  used : budget.used.toInt = budget.consumedUnits
  reserved : budget.reserved.toInt = budget.openUnits
  bounded : budget.used.toInt + budget.reserved.toInt ≤ budget.requestCap.toInt

theorem toInt_sub_of_nonneg {a b : Int64} (ha : 0 ≤ a.toInt) (hb : 0 ≤ b.toInt) :
    (a - b).toInt = a.toInt - b.toInt := by
  have haMax := a.toInt_lt
  have hbMax := b.toInt_lt
  rw [Int64.toInt_sub]
  apply Int.bmod_eq_of_le <;> omega

theorem toInt_add_of_le {a b c : Int64} (ha : 0 ≤ a.toInt) (hb : 0 ≤ b.toInt)
    (h : a.toInt + b.toInt ≤ c.toInt) : (a + b).toInt = a.toInt + b.toInt := by
  have hcMax := c.toInt_lt
  rw [Int64.toInt_add]
  apply Int.bmod_eq_of_le <;> omega

namespace QueueBudget.Conserved

variable {budget budget' : QueueBudget} (h : budget.Conserved) {key : String}
  {current : QueueReservation}
include h

theorem consumed_of_lookup
    (hcurrent : budget.records.lookup key = some current) :
    0 ≤ current.consumed.toInt ∧ current.consumed.toInt ≤ current.total.toInt :=
  h.consumed ⟨key, current⟩ (AList.mem_lookup_iff.mp hcurrent)

theorem openUnits_nonneg :
    ∀ units ∈ budget.records.entries.map fun row => row.2.openUnits, 0 ≤ units := by
  intro units hunits
  obtain ⟨row, hrow, rfl⟩ := List.mem_map.mp hunits
  have hconsumed := h.consumed row hrow
  unfold QueueReservation.openUnits
  split_ifs <;> omega

theorem used_nonneg : 0 ≤ budget.used.toInt := by
  rw [h.used]
  apply List.sum_nonneg
  intro units hunits
  obtain ⟨row, hrow, rfl⟩ := List.mem_map.mp hunits
  exact (h.consumed row hrow).1

theorem reserved_nonneg : 0 ≤ budget.reserved.toInt := by
  rw [h.reserved]
  exact List.sum_nonneg h.openUnits_nonneg

theorem open_le_reserved
    (hcurrent : budget.records.lookup key = some current) (hopen : current.completed = false) :
    current.total.toInt - current.consumed.toInt ≤ budget.reserved.toInt := by
  have hmem : current.openUnits ∈ budget.records.entries.map fun row => row.2.openUnits :=
    List.mem_map.mpr ⟨⟨key, current⟩, AList.mem_lookup_iff.mp hcurrent, rfl⟩
  have hle := List.single_le_sum h.openUnits_nonneg _ hmem
  have hunits : current.openUnits = current.total.toInt - current.consumed.toInt := by
    simp [QueueReservation.openUnits, hopen]
  rw [h.reserved, ← hunits]
  exact hle

theorem room : (budget.requestCap - budget.used - budget.reserved).toInt =
    budget.requestCap.toInt - budget.used.toInt - budget.reserved.toInt := by
  have hused := h.used_nonneg
  have hreserved := h.reserved_nonneg
  have hbounded := h.bounded
  have hfirst : (budget.requestCap - budget.used).toInt =
      budget.requestCap.toInt - budget.used.toInt := toInt_sub_of_nonneg (by omega) hused
  rw [toInt_sub_of_nonneg (by omega) hreserved, hfirst]

theorem left
    (hcurrent : budget.records.lookup key = some current) :
    (current.total - current.consumed).toInt = current.total.toInt - current.consumed.toInt := by
  have hconsumed := h.consumed_of_lookup hcurrent
  exact toInt_sub_of_nonneg (by omega) hconsumed.1

theorem reserve {work : WorkKey} {units : Int64}
    (hnone : budget.records.lookup work.string = none) (hunits : 1 ≤ units)
    (hroom : units ≤ budget.requestCap - budget.used - budget.reserved) :
    ({ budget with
      records := budget.records.insert work.string ⟨true, work, units, 0, false⟩
      reserved := budget.reserved + units } : QueueBudget).Conserved := by
  have hused := h.used_nonneg
  have hreserved := h.reserved_nonneg
  rw [Int64.le_iff_toInt_le, h.room] at hroom
  rw [Int64.le_iff_toInt_le, Int64.toInt_one] at hunits
  have hsum : (budget.reserved + units).toInt = budget.reserved.toInt + units.toInt :=
    toInt_add_of_le (c := budget.requestCap) hreserved (by omega) (by omega)
  refine ⟨fun row hrow => ?_, ?_, ?_, ?_⟩
  · rw [AList.entries_insert_of_notMem (AList.lookup_eq_none.mp hnone)] at hrow
    rcases List.mem_cons.mp hrow with rfl | hrow
    · simp only [Int64.toInt_zero]
      omega
    · exact h.consumed row hrow
  · dsimp only [consumedUnits]
    rw [sum_entries_insert_of_none hnone, Int64.toInt_zero, zero_add]
    exact h.used
  · have hopen : (⟨true, work, units, 0, false⟩ : QueueReservation).openUnits = units.toInt := by
      simp [QueueReservation.openUnits]
    rw [hsum, h.reserved]
    dsimp only [QueueBudget.openUnits]
    rw [sum_entries_insert_of_none hnone, hopen]
    omega
  · dsimp only
    omega

theorem consumed_insert {key : String} {value : QueueReservation}
    (hvalue : 0 ≤ value.consumed.toInt ∧ value.consumed.toInt ≤ value.total.toInt) :
    ∀ row ∈ (budget.records.insert key value).entries,
      0 ≤ row.2.consumed.toInt ∧ row.2.consumed.toInt ≤ row.2.total.toInt := by
  intro row hrow
  rw [AList.entries_insert] at hrow
  rcases List.mem_cons.mp hrow with rfl | hrow
  · exact hvalue
  · exact h.consumed row (List.mem_of_mem_eraseP hrow)

theorem consume {units : Int64}
    (hcurrent : budget.records.lookup key = some current) (hopen : current.completed = false)
    (hunits : 1 ≤ units) (hroom : units ≤ current.total - current.consumed) :
    ({ budget with
      reserved := budget.reserved - units
      used := budget.used + units
      records := budget.records.insert key
        { current with consumed := current.consumed + units } } : QueueBudget).Conserved := by
  have hused := h.used_nonneg
  have hreserved := h.reserved_nonneg
  have hbounded := h.bounded
  have hconsumed := h.consumed_of_lookup hcurrent
  have hle := h.open_le_reserved hcurrent hopen
  rw [Int64.le_iff_toInt_le, h.left hcurrent] at hroom
  rw [Int64.le_iff_toInt_le, Int64.toInt_one] at hunits
  have hspent : (current.consumed + units).toInt = current.consumed.toInt + units.toInt :=
    toInt_add_of_le (c := current.total) hconsumed.1 (by omega) (by omega)
  have husedSum : (budget.used + units).toInt = budget.used.toInt + units.toInt :=
    toInt_add_of_le (c := budget.requestCap) hused (by omega) (by omega)
  have hrest : (budget.reserved - units).toInt = budget.reserved.toInt - units.toInt :=
    toInt_sub_of_nonneg hreserved (by omega)
  refine ⟨h.consumed_insert ?_, ?_, ?_, ?_⟩
  · dsimp only
    omega
  · have hsum := sum_entries_insert_of_some hcurrent
      { current with consumed := current.consumed + units } fun row => row.2.consumed.toInt
    have hbefore := h.used
    dsimp only [consumedUnits] at hsum hbefore ⊢
    omega
  · have hsum := sum_entries_insert_of_some hcurrent
      { current with consumed := current.consumed + units } fun row => row.2.openUnits
    have hbefore := h.reserved
    dsimp only [QueueBudget.openUnits] at hsum hbefore ⊢
    simp only [QueueReservation.openUnits, hopen, Bool.false_eq_true, if_false] at hsum hbefore ⊢
    omega
  · dsimp only
    omega

theorem complete
    (hcurrent : budget.records.lookup key = some current) (hopen : current.completed = false) :
    ({ budget with
      reserved := budget.reserved - (current.total - current.consumed)
      records := budget.records.insert key { current with completed := true } } :
        QueueBudget).Conserved := by
  have hreserved := h.reserved_nonneg
  have hbounded := h.bounded
  have hconsumed := h.consumed_of_lookup hcurrent
  have hleft := h.left hcurrent
  have hrest : (budget.reserved - (current.total - current.consumed)).toInt =
      budget.reserved.toInt - (current.total.toInt - current.consumed.toInt) := by
    rw [toInt_sub_of_nonneg hreserved (by omega), hleft]
  refine ⟨h.consumed_insert hconsumed, ?_, ?_, ?_⟩
  · have hsum := sum_entries_insert_of_some hcurrent { current with completed := true }
      fun row => row.2.consumed.toInt
    have hbefore := h.used
    dsimp only [consumedUnits] at hsum hbefore ⊢
    omega
  · have hsum := sum_entries_insert_of_some hcurrent { current with completed := true }
      fun row => row.2.openUnits
    have hbefore := h.reserved
    dsimp only [QueueBudget.openUnits] at hsum hbefore ⊢
    simp only [QueueReservation.openUnits, hopen, Bool.false_eq_true, if_false, if_true]
      at hsum hbefore ⊢
    omega
  · dsimp only
    omega

theorem moves (hmoves : budget.Moves budget') : budget'.Conserved := by
  cases hmoves with
  | same => exact h
  | reserve work units hnone hunits hroom => exact h.reserve hnone hunits hroom
  | consume key current units hcurrent hopen hunits hroom =>
    exact h.consume hcurrent hopen hunits hroom
  | complete key current hcurrent hopen => exact h.complete hcurrent hopen

end QueueBudget.Conserved

/-! ## Whole runs -/

/-- The expressions that a call evaluates, each with its exact value. A check that fails earlier in the
source only leaves some of them out. -/
def QueueBudget.arithmetic (budget : QueueBudget) : QueueCall → List (Int64 × Int)
  | .reserve work units =>
    let room := budget.requestCap - budget.used - budget.reserved
    match budget.records.lookup work.string with
    | some _ => []
    | none =>
      [(budget.requestCap - budget.used, budget.requestCap.toInt - budget.used.toInt),
        (room, budget.requestCap.toInt - budget.used.toInt - budget.reserved.toInt)] ++
        if 1 ≤ units ∧ units ≤ room then
          [(budget.reserved + units, budget.reserved.toInt + units.toInt)]
        else []
  | .consume reservation units =>
    match budget.records.lookup reservation.work.string with
    | none => []
    | some current =>
      (current.total - current.consumed, current.total.toInt - current.consumed.toInt) ::
        if 1 ≤ units ∧ current.completed = false ∧ units ≤ current.total - current.consumed then
          [(current.consumed + units, current.consumed.toInt + units.toInt),
            (budget.reserved - units, budget.reserved.toInt - units.toInt),
            (budget.used + units, budget.used.toInt + units.toInt)]
        else []
  | .complete reservation =>
    match budget.records.lookup reservation.work.string with
    | none => []
    | some current =>
      let left := current.total - current.consumed
      (left, current.total.toInt - current.consumed.toInt) ::
        if current.completed = false then
          [(budget.reserved - left,
            budget.reserved.toInt - (current.total.toInt - current.consumed.toInt))]
        else []

/-- What a budget is known to be after any run. -/
structure QueueBudget.Accounts (budget : QueueBudget) : Prop where
  used : budget.used.toInt = budget.consumedUnits
  reserved : budget.reserved.toInt = budget.openUnits
  used_nonneg : 0 ≤ budget.used.toInt
  reserved_nonneg : 0 ≤ budget.reserved.toInt
  bounded : budget.used.toInt + budget.reserved.toInt ≤ budget.requestCap.toInt
  exact : ∀ call, ∀ expression ∈ budget.arithmetic call, expression.1.toInt = expression.2
  available : budget.initialized = true → budget.usage.2.2.toInt =
    budget.requestCap.toInt - budget.used.toInt - budget.reserved.toInt

theorem QueueBudget.Conserved.exact {budget : QueueBudget} (h : budget.Conserved)
    (call : QueueCall) : ∀ expression ∈ budget.arithmetic call,
      expression.1.toInt = expression.2 := by
  have hused := h.used_nonneg
  have hreserved := h.reserved_nonneg
  have hbounded := h.bounded
  have hroom := h.room
  have hfirst : (budget.requestCap - budget.used).toInt =
      budget.requestCap.toInt - budget.used.toInt := toInt_sub_of_nonneg (by omega) hused
  fun_cases QueueBudget.arithmetic budget call
  case case1 => simp
  case case2 =>
    intro expression hmem
    simp only [List.cons_append, List.nil_append, List.mem_cons] at hmem
    rcases hmem with rfl | rfl | hmem
    · exact hfirst
    · exact hroom
    split_ifs at hmem with hunits
    · rw [List.mem_singleton.mp hmem]
      rw [Int64.le_iff_toInt_le, Int64.le_iff_toInt_le, Int64.toInt_one, hroom] at hunits
      exact toInt_add_of_le (c := budget.requestCap) hreserved (by omega) (by omega)
    · cases hmem
  case case3 => simp
  case case4 current hcurrent =>
    have hconsumed := h.consumed_of_lookup hcurrent
    intro expression hmem
    rcases List.mem_cons.mp hmem with rfl | hmem
    · exact h.left hcurrent
    split_ifs at hmem with hunits
    · obtain ⟨hone, hopen, hle⟩ := hunits
      rw [Int64.le_iff_toInt_le, Int64.toInt_one] at hone
      rw [Int64.le_iff_toInt_le, h.left hcurrent] at hle
      have hopenLe := h.open_le_reserved hcurrent hopen
      simp only [List.mem_cons, List.not_mem_nil, or_false] at hmem
      rcases hmem with rfl | rfl | rfl
      · exact toInt_add_of_le (c := current.total) hconsumed.1 (by omega) (by omega)
      · exact toInt_sub_of_nonneg hreserved (by omega)
      · exact toInt_add_of_le (c := budget.requestCap) hused (by omega) (by omega)
    · cases hmem
  case case5 => simp
  case case6 current hcurrent left =>
    have hconsumed := h.consumed_of_lookup hcurrent
    have hleft : left.toInt = current.total.toInt - current.consumed.toInt := h.left hcurrent
    intro expression hmem
    rcases List.mem_cons.mp hmem with rfl | hmem
    · exact hleft
    split_ifs at hmem with hopen
    · rw [List.mem_singleton.mp hmem]
      rw [toInt_sub_of_nonneg hreserved (by omega), hleft]
    · cases hmem

theorem QueueBudget.Conserved.accounts {budget : QueueBudget} (h : budget.Conserved) :
    budget.Accounts := by
  refine ⟨h.used, h.reserved, h.used_nonneg, h.reserved_nonneg, h.bounded, h.exact, fun hinit => ?_⟩
  unfold QueueBudget.usage
  rw [hinit]
  exact h.room

/-- Used units only grow, records stay, and a completed record does not change. -/
structure QueueBudget.Extends (budget budget' : QueueBudget) : Prop where
  used : budget.used.toInt ≤ budget'.used.toInt
  records : ∀ key current, budget.records.lookup key = some current →
    ∃ current', budget'.records.lookup key = some current' ∧ current'.total = current.total ∧
      (current.completed = true → current' = current)

theorem QueueBudget.Extends.refl (budget : QueueBudget) : budget.Extends budget :=
  ⟨le_refl _, fun _ current hcurrent => ⟨current, hcurrent, rfl, fun _ => rfl⟩⟩

theorem QueueBudget.Extends.trans {a b c : QueueBudget} (hab : a.Extends b) (hbc : b.Extends c) :
    a.Extends c := by
  refine ⟨hab.used.trans hbc.used, fun key current hcurrent => ?_⟩
  obtain ⟨next, hnext, htotal, hcompleted⟩ := hab.records key current hcurrent
  obtain ⟨last, hlast, htotal', hcompleted'⟩ := hbc.records key next hnext
  refine ⟨last, hlast, htotal'.trans htotal, fun hdone => ?_⟩
  obtain rfl := hcompleted hdone
  exact hcompleted' hdone

variable {current : QueueReservation}

theorem extends_insert {budget budget' : QueueBudget} {key : String} {current' : QueueReservation}
    (hused : budget.used.toInt ≤ budget'.used.toInt)
    (hcurrent : budget.records.lookup key = some current) (hopen : current.completed = false)
    (hrecords : budget'.records = budget.records.insert key current')
    (htotal : current'.total = current.total) : budget.Extends budget' := by
  refine ⟨hused, fun other found hfound => ?_⟩
  rw [hrecords]
  by_cases hkey : other = key
  · subst hkey
    obtain rfl : current = found := Option.some.inj (hcurrent.symm.trans hfound)
    refine ⟨current', AList.lookup_insert _, htotal, fun hdone => ?_⟩
    rw [hopen] at hdone
    cases hdone
  · exact ⟨found, (AList.lookup_insert_ne hkey).trans hfound, rfl, fun _ => rfl⟩

theorem QueueBudget.Moves.extends {budget budget' : QueueBudget} (h : budget.Conserved)
    (hmoves : budget.Moves budget') : budget.Extends budget' := by
  cases hmoves with
  | same => exact .refl budget
  | reserve work units hnone =>
    refine ⟨le_refl _, fun key current hcurrent => ?_⟩
    have hkey : key ≠ work.string := by
      rintro rfl
      rw [hnone] at hcurrent
      cases hcurrent
    exact ⟨current, (AList.lookup_insert_ne hkey).trans hcurrent, rfl, fun _ => rfl⟩
  | consume key current units hcurrent hopen hunits hroom =>
    refine extends_insert ?_ hcurrent hopen rfl rfl
    have hle := h.open_le_reserved hcurrent hopen
    have hbounded := h.bounded
    rw [Int64.le_iff_toInt_le, h.left hcurrent] at hroom
    rw [Int64.le_iff_toInt_le, Int64.toInt_one] at hunits
    have husedSum : (budget.used + units).toInt = budget.used.toInt + units.toInt :=
      toInt_add_of_le (c := budget.requestCap) h.used_nonneg (by omega) (by omega)
    dsimp only
    omega
  | complete key current hcurrent hopen =>
    exact extends_insert (le_refl _) hcurrent hopen rfl rfl

theorem QueueBudget.Conserved.next {budget : QueueBudget} (h : budget.Conserved)
    (call : QueueCall) : (queueMachine.next budget call).Conserved :=
  h.moves (queue_next_moves budget call)

theorem queue_exec_extends {budget : QueueBudget} (h : budget.Conserved) (calls : List QueueCall) :
    budget.Extends (queueMachine.exec budget calls) :=
  exec_relation queueMachine (P := QueueBudget.Conserved) QueueBudget.Extends.refl
    (fun _ _ _ hab hbc => hab.trans hbc) (fun _ call hb => hb.next call)
    (fun b call hb => (queue_next_moves b call).extends hb) h calls

/-! ## Repeated calls -/

variable {budget : QueueBudget} {work : WorkKey} {units : Int64} {reservation : QueueReservation}

theorem QueueBudget.reserve_ok (h : (budget.reserve work units).2 = .ok reservation) :
    ∃ current, (budget.reserve work units).1.records.lookup work.string = some current ∧
      current.total = units := by
  revert h
  fun_cases QueueBudget.reserve budget work units
  case case3 current hcurrent _ htotal => exact fun _ => ⟨current, hcurrent, htotal⟩
  case case6 => exact fun _ => ⟨_, AList.lookup_insert _, rfl⟩
  all_goals exact nofun

theorem QueueBudget.reserve_same (hcurrent : budget.records.lookup work.string = some current) :
    (budget.reserve work units).1 = budget := by
  fun_cases QueueBudget.reserve budget work units
  case case6 hnone _ _ =>
    rw [hcurrent] at hnone
    cases hnone
  all_goals rfl

theorem QueueBudget.complete_ok {answer : QueueReservation}
    (h : (budget.complete reservation).2 = .ok answer) :
    ∃ current, (budget.complete reservation).1.records.lookup reservation.work.string =
      some current ∧ current.completed = true := by
  revert h
  fun_cases QueueBudget.complete budget reservation
  case case4 current hcurrent _ hdone => exact fun _ => ⟨current, hcurrent, hdone⟩
  case case5 => exact fun _ => ⟨_, AList.lookup_insert _, rfl⟩
  all_goals exact nofun

/-- A completed work key is refused everything. -/
structure QueueBudget.Closed (budget : QueueBudget) (work : WorkKey) : Prop where
  reserve : ∀ units, ∃ failure, budget.reserve work units = (budget, .error failure)
  consume : ∀ reservation units, reservation.work = work →
    ∃ failure, budget.consume reservation units = (budget, .error failure)
  complete : ∀ reservation, reservation.work = work → (budget.complete reservation).1 = budget

theorem QueueBudget.closed_of_completed
    (hcurrent : budget.records.lookup work.string = some current)
    (hdone : current.completed = true) : budget.Closed work := by
  refine ⟨fun units => ?_, fun reservation units hwork => ?_, fun reservation hwork => ?_⟩
  · unfold QueueBudget.reserve
    simp only [hcurrent, hdone, if_true]
    split_ifs
    · exact ⟨_, rfl⟩
    · exact ⟨_, rfl⟩
  · subst hwork
    unfold QueueBudget.consume
    simp only [hcurrent, hdone, true_or, if_true]
    split_ifs
    · exact ⟨_, rfl⟩
    · exact ⟨_, rfl⟩
  · subst hwork
    unfold QueueBudget.complete
    simp only [hcurrent, hdone, if_true]
    split_ifs <;> rfl

theorem queue_reserve_later (h : budget.Conserved)
    (hok : (budget.reserve work units).2 = .ok reservation) (later : List QueueCall) :
    let final := queueMachine.exec (budget.reserve work units).1 later
    (final.reserve work units).1 = final := by
  have hconserved : (budget.reserve work units).1.Conserved := h.moves (budget.reserve_moves _ _)
  obtain ⟨current, hcurrent, -⟩ := QueueBudget.reserve_ok hok
  obtain ⟨last, hlast, -, -⟩ := (queue_exec_extends hconserved later).records _ current hcurrent
  exact QueueBudget.reserve_same hlast

theorem queue_closed_later (h : budget.Conserved)
    (hcurrent : budget.records.lookup work.string = some current) (hdone : current.completed = true)
    (later : List QueueCall) : (queueMachine.exec budget later).Closed work := by
  obtain ⟨last, hlast, -, hsame⟩ := (queue_exec_extends h later).records _ current hcurrent
  obtain rfl := hsame hdone
  exact QueueBudget.closed_of_completed hlast hdone

theorem queue_complete_later (h : budget.Conserved) {answer : QueueReservation}
    (hok : (budget.complete reservation).2 = .ok answer) (later : List QueueCall) :
    (queueMachine.exec (budget.complete reservation).1 later).Closed reservation.work := by
  have hconserved : (budget.complete reservation).1.Conserved := h.moves (budget.complete_moves _)
  obtain ⟨current, hcurrent, hdone⟩ := QueueBudget.complete_ok hok
  exact queue_closed_later hconserved hcurrent hdone later

theorem QueueBudget.reserve_error {failure : Failure}
    (h : (budget.reserve work units).2 = .error failure) :
    (budget.reserve work units).1 = budget := by
  revert h
  fun_cases QueueBudget.reserve budget work units
  case case6 => exact nofun
  all_goals exact fun _ => rfl

theorem QueueBudget.complete_error {failure : Failure}
    (h : (budget.complete reservation).2 = .error failure) :
    (budget.complete reservation).1 = budget := by
  revert h
  fun_cases QueueBudget.complete budget reservation
  case case5 => exact nofun
  all_goals exact fun _ => rfl

/-- A budget as the package hands it out. -/
inductive QueueBudget.Initial : QueueBudget → Prop
  | zero : QueueBudget.Initial .zero
  | new {requestCap : Int64} {maximumWork : Int} {budget : QueueBudget}
      (h : newQueueBudget requestCap maximumWork = .ok budget) : QueueBudget.Initial budget

theorem QueueBudget.Initial.conserved (h : budget.Initial) : budget.Conserved := by
  have hempty : ∀ row ∈ (∅ : AList fun _ : String => QueueReservation).entries,
      0 ≤ row.2.consumed.toInt ∧ row.2.consumed.toInt ≤ row.2.total.toInt :=
    fun row hrow => (List.not_mem_nil hrow).elim
  cases h with
  | zero => exact ⟨hempty, rfl, rfl, le_refl _⟩
  | @new requestCap maximumWork budget hnew =>
    unfold newQueueBudget at hnew
    split_ifs at hnew with hbad
    cases hnew
    have hcap := int64_not_lt (not_or.mp hbad).1
    rw [Int64.le_iff_toInt_le, Int64.toInt_one] at hcap
    refine ⟨hempty, rfl, rfl, ?_⟩
    simp only [Int64.toInt_zero]
    omega

/-- What holds from the state of a budget on, whatever is called later. -/
structure QueueBudget.Lasting (reached : QueueBudget) (later : List QueueCall) : Prop where
  used : reached.used.toInt ≤ (queueMachine.exec reached later).used.toInt
  completed : ∀ work current, reached.records.lookup work.string = some current →
    current.completed = true → (queueMachine.exec reached later).Closed work
  reserve : ∀ work units reservation, (reached.reserve work units).2 = .ok reservation →
    let final := queueMachine.exec (reached.reserve work units).1 later
    (final.reserve work units).1 = final
  complete : ∀ reservation answer, (reached.complete reservation).2 = .ok answer →
    let final := queueMachine.exec (reached.complete reservation).1 later
    (final.complete reservation).1 = final

/-- In every run of every budget: the counters are the sums over the records, nothing overflows or
exceeds the cap, used units only grow, completed work stays closed, and a repeated `Reserve` or
`Complete` changes nothing. -/
theorem queue_units_conserved (hbudget : budget.Initial) (calls : List QueueCall) :
    let reached := queueMachine.exec budget calls
    reached.Accounts ∧ (∀ later, reached.Lasting later) ∧
      (∀ work units, let next := (reached.reserve work units).1
        (next.reserve work units).1 = next) ∧
      ∀ reservation, let next := (reached.complete reservation).1
        (next.complete reservation).1 = next := by
  have h : (queueMachine.exec budget calls).Conserved :=
    exec_invariant queueMachine (P := QueueBudget.Conserved) (fun _ call hb => hb.next call)
      hbudget.conserved calls
  have hcomplete : ∀ later reservation answer,
      ((queueMachine.exec budget calls).complete reservation).2 = .ok answer →
      let final := queueMachine.exec ((queueMachine.exec budget calls).complete reservation).1 later
      (final.complete reservation).1 = final := fun later reservation _ hok =>
    (queue_complete_later h hok later).complete reservation rfl
  refine ⟨h.accounts, fun later => ?_, fun work units => ?_, fun reservation => ?_⟩
  · exact ⟨(queue_exec_extends h later).used,
      fun _ _ hcurrent hdone => queue_closed_later h hcurrent hdone later,
      fun _ _ _ hok => queue_reserve_later h hok later, hcomplete later⟩
  · cases hanswer : ((queueMachine.exec budget calls).reserve work units).2 with
    | ok => exact queue_reserve_later h hanswer []
    | error =>
      rw [QueueBudget.reserve_error hanswer]
      exact QueueBudget.reserve_error hanswer
  · cases hanswer : ((queueMachine.exec budget calls).complete reservation).2 with
    | ok answer => exact hcomplete [] reservation answer hanswer
    | error =>
      rw [QueueBudget.complete_error hanswer]
      exact QueueBudget.complete_error hanswer

def demoWork : WorkKey := ⟨⟨true, [1]⟩, ⟨true, [2]⟩⟩

/-- Five units are reserved, two of them are consumed, and the rest is released. -/
theorem queue_units_conserved_demo :
    let reservation : QueueReservation := ⟨true, demoWork, 5, 0, false⟩
    let calls : List QueueCall := [.reserve demoWork 5, .consume reservation 2, .complete reservation]
    let reached := queueMachine.exec ⟨true, 10, 1, 0, 0, ∅⟩ calls
    newQueueBudget 10 1 = .ok ⟨true, 10, 1, 0, 0, ∅⟩ ∧ reached.used = 2 ∧ reached.reserved = 0 ∧
      reached.Accounts ∧ ∀ later, reached.Lasting later := by
  have h := queue_units_conserved (.new (show newQueueBudget 10 1 = .ok _ from rfl))
    [.reserve demoWork 5, .consume ⟨true, demoWork, 5, 0, false⟩ 2,
      .complete ⟨true, demoWork, 5, 0, false⟩]
  exact ⟨rfl, by decide +kernel, by decide +kernel, h.1, h.2.1⟩

end Veer.Reconcile
