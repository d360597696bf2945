import Veer.StepMachine

/-!
# A finite single-flight budget

A budget of `maximum` slots is used one reservation at a time. A reservation is closed before
the next one starts; closing may finish the budget, and an idle budget may expire.
-/
namespace Veer.SingleFlight

open StepMachine

structure Line where
  maximum : Nat
  used : Nat
  inFlight : Bool
  done : Bool

inductive Label
  | idle
  | reserve
  | close (quarantine : Bool)
  | expire

def Label.isReserve : Label → Bool
  | reserve => true
  | _ => false

def Label.isClose : Label → Bool
  | close _ => true
  | _ => false

def Label.isQuarantine : Label → Bool
  | close quarantine => quarantine
  | expire => true
  | _ => false

inductive Move : Line → Label → Line → Prop
  | idle (l : Line) : Move l .idle l
  | reserve {l : Line} : l.done = false → l.inFlight = false → l.used < l.maximum →
      Move l .reserve { l with used := l.used + 1, inFlight := true }
  | close {l : Line} {done quarantine : Bool} : l.done = false → l.inFlight = true →
      (quarantine = true → done = true) →
      Move l (.close quarantine) { l with inFlight := false, done := done }
  | expire {l : Line} : l.done = false → l.inFlight = false →
      Move l .expire { l with done := true }

variable {l l' : Line} {k : Label} {ks : List Label}

theorem Move.counts (h : Move l k l') :
    l'.maximum = l.maximum ∧ l'.used = l.used + k.isReserve.toNat ∧
      l'.inFlight.toNat + k.isClose.toNat = l.inFlight.toNat + k.isReserve.toNat ∧
      l.done.toNat + k.isQuarantine.toNat ≤ l'.done.toNat := by
  cases h with
  | idle => simp [Label.isReserve, Label.isClose, Label.isQuarantine]
  | reserve hd hf => simp [Label.isReserve, Label.isClose, Label.isQuarantine, hd, hf]
  | @close done quarantine hd hf hq =>
    cases quarantine with
    | false => simp [Label.isReserve, Label.isClose, Label.isQuarantine, hd, hf]
    | true => simp [Label.isReserve, Label.isClose, Label.isQuarantine, hd, hf, hq rfl]
  | expire hd => simp [Label.isReserve, Label.isClose, Label.isQuarantine, hd]

theorem Move.used_le (h : Move l k l') (hu : l.used ≤ l.maximum) : l'.used ≤ l'.maximum := by
  cases h with
  | idle | close | expire => exact hu
  | reserve _ _ hlt => exact hlt

theorem countP_cons_toNat {α : Type*} (p : α → Bool) (a : α) (as : List α) :
    (a :: as).countP p = as.countP p + (p a).toNat := by
  rw [List.countP_cons]
  cases p a <;> rfl

/-- Over a run the reservations are the used slots, at most one is open at the end, and at
most one move quarantines. -/
theorem Path.counts (h : Path Move l ks l') :
    l'.maximum = l.maximum ∧ l'.used = l.used + ks.countP Label.isReserve ∧
      l'.inFlight.toNat + ks.countP Label.isClose =
        l.inFlight.toNat + ks.countP Label.isReserve ∧
      l.done.toNat + ks.countP Label.isQuarantine ≤ l'.done.toNat := by
  induction h with
  | nil => simp
  | @cons t u v k ks hmove _ ih =>
    obtain ⟨hmax, hused, hflight, hdone⟩ := hmove.counts
    obtain ⟨imax, iused, iflight, idone⟩ := ih
    simp only [countP_cons_toNat]
    exact ⟨imax.trans hmax, by omega, by omega, by omega⟩

theorem Path.used_le (h : Path Move l ks l') (hu : l.used ≤ l.maximum) : l'.used ≤ l'.maximum :=
  h.invariant (P := fun l => l.used ≤ l.maximum) (Q := fun _ => True)
    (fun _ _ _ hm _ => hm.used_le) (fun _ _ => trivial) hu

end Veer.SingleFlight
