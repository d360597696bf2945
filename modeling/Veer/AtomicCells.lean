import Mathlib

/-!
# Shared atomic cells

Copies of a value that hold a pointer to an atomic share the cell behind it. A heap of
cells keeps their contents by address; `alloc` hands out a zeroed cell at an address
never used before.
-/
namespace Veer.AtomicCells

structure Cells (V : Type*) where
  value : Nat → V
  allocated : Nat

variable {V : Type*}

def Cells.load (cells : Cells V) (p : Nat) : V := cells.value p

def Cells.store (cells : Cells V) (p : Nat) (v : V) : Cells V :=
  { cells with value := Function.update cells.value p v }

/-- Swap in `new` exactly when the cell holds `old`, and report whether it did. -/
def Cells.compareAndSwap [DecidableEq V] (cells : Cells V) (p : Nat) (old new : V) : Cells V × Bool :=
  if cells.value p = old then (cells.store p new, true) else (cells, false)

def Cells.alloc [Inhabited V] (cells : Cells V) : Cells V × Nat :=
  (⟨Function.update cells.value cells.allocated default, cells.allocated + 1⟩, cells.allocated)

@[simp] theorem load_store_self (cells : Cells V) (p : Nat) (v : V) :
    (cells.store p v).load p = v := by
  simp [Cells.load, Cells.store]

@[simp] theorem load_store_ne (cells : Cells V) {p q : Nat} (v : V) (h : q ≠ p) :
    (cells.store p v).load q = cells.load q := by
  simp [Cells.load, Cells.store, h]

@[simp] theorem store_allocated (cells : Cells V) (p : Nat) (v : V) :
    (cells.store p v).allocated = cells.allocated := rfl

section CompareAndSwap

variable [DecidableEq V]

theorem compareAndSwap_success {cells after : Cells V} {p : Nat} {old new : V}
    (h : cells.compareAndSwap p old new = (after, true)) :
    cells.load p = old ∧ after = cells.store p new := by
  unfold Cells.compareAndSwap at h
  split_ifs at h with hc
  · exact ⟨hc, (Prod.ext_iff.mp h).1.symm⟩
  · simp at h

theorem compareAndSwap_failure {cells after : Cells V} {p : Nat} {old new : V}
    (h : cells.compareAndSwap p old new = (after, false)) :
    cells.load p ≠ old ∧ after = cells := by
  unfold Cells.compareAndSwap at h
  split_ifs at h with hc
  · simp at h
  · exact ⟨hc, (Prod.ext_iff.mp h).1.symm⟩

theorem compareAndSwap_of_eq {cells : Cells V} {p : Nat} {old : V} (new : V)
    (h : cells.load p = old) : cells.compareAndSwap p old new = (cells.store p new, true) := by
  exact if_pos h

end CompareAndSwap

variable [Inhabited V]

@[simp] theorem alloc_address (cells : Cells V) : cells.alloc.2 = cells.allocated := rfl

@[simp] theorem alloc_allocated (cells : Cells V) :
    cells.alloc.1.allocated = cells.allocated + 1 := rfl

@[simp] theorem load_alloc_self (cells : Cells V) :
    cells.alloc.1.load cells.allocated = default := by
  simp [Cells.load, Cells.alloc]

theorem load_alloc_of_lt (cells : Cells V) {p : Nat} (h : p < cells.allocated) :
    cells.alloc.1.load p = cells.load p := by
  simp [Cells.load, Cells.alloc, Nat.ne_of_lt h]

/-! ## One-shot flags -/

/-- No allocated flag of `before` is lowered in `after`. -/
structure Rises (before after : Cells Bool) : Prop where
  allocated : before.allocated ≤ after.allocated
  raised : ∀ p < before.allocated, before.load p = true → after.load p = true

theorem Rises.refl (cells : Cells Bool) : Rises cells cells := ⟨le_rfl, fun _ _ h => h⟩

theorem Rises.trans {a b c : Cells Bool} (hab : Rises a b) (hbc : Rises b c) : Rises a c :=
  ⟨hab.allocated.trans hbc.allocated,
    fun p hp h => hbc.raised p (hp.trans_le hab.allocated) (hab.raised p hp h)⟩

theorem rises_store (cells : Cells Bool) (p : Nat) : Rises cells (cells.store p true) := by
  refine ⟨le_rfl, fun q _ hq => ?_⟩
  by_cases hqp : q = p
  · rw [hqp, load_store_self]
  · rwa [load_store_ne _ _ hqp]

theorem rises_compareAndSwap (cells : Cells Bool) (p : Nat) :
    Rises cells (cells.compareAndSwap p false true).1 := by
  unfold Cells.compareAndSwap
  split_ifs
  · exact rises_store cells p
  · exact Rises.refl cells

theorem rises_alloc (cells : Cells Bool) : Rises cells cells.alloc.1 :=
  ⟨Nat.le_succ _, fun _ hp hq => (load_alloc_of_lt cells hp).trans hq⟩

/-! ## One-way words -/

/-- A word starts at `0`, may open once at `1`, and stops at whatever it is closed with. -/
def Forward (w next : Nat) : Prop := next = w ∨ w = 0 ∨ w = 1 ∧ 2 ≤ next

theorem Forward.trans {a b c : Nat} (hab : Forward a b) (hbc : Forward b c) : Forward a c := by
  unfold Forward at *
  omega

/-- Every allocated word of `before` has only gone forward in `after`. -/
structure Advances (before after : Cells Nat) : Prop where
  allocated : before.allocated ≤ after.allocated
  forward : ∀ p < before.allocated, Forward (before.load p) (after.load p)

theorem Advances.refl (cells : Cells Nat) : Advances cells cells :=
  ⟨le_rfl, fun _ _ => .inl rfl⟩

theorem Advances.trans {a b c : Cells Nat} (hab : Advances a b) (hbc : Advances b c) :
    Advances a c :=
  ⟨hab.allocated.trans hbc.allocated,
    fun p hp => (hab.forward p hp).trans (hbc.forward p (hp.trans_le hab.allocated))⟩

theorem advances_store (cells : Cells Nat) (p : Nat) {w : Nat} (h : Forward (cells.load p) w) :
    Advances cells (cells.store p w) := by
  refine ⟨le_rfl, fun q _ => ?_⟩
  by_cases hqp : q = p
  · rwa [hqp, load_store_self]
  · rw [load_store_ne _ _ hqp]
    exact .inl rfl

theorem advances_alloc (cells : Cells Nat) : Advances cells cells.alloc.1 :=
  ⟨Nat.le_succ _, fun _ hp => .inl (load_alloc_of_lt cells hp)⟩

end Veer.AtomicCells
