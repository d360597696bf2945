import Mathlib

/-!
# Sets of an enumeration as bit masks

`bit` numbers the elements of a type; a mask stands for the set of elements whose bits it has.
-/
namespace Veer.BitMask
variable {α : Type*} {bit : α → ℕ} {mask other : ℕ} {S T : α → Prop}

/-- The bits of `mask` are those of the elements of `S`. -/
def Encodes (bit : α → ℕ) (mask : ℕ) (S : α → Prop) : Prop :=
  ∀ k, mask.testBit k = true ↔ ∃ a, S a ∧ bit a = k

theorem Encodes.zero : Encodes bit 0 (fun _ => False) := by
  intro k
  simp

theorem Encodes.congr (h : Encodes bit mask S) (hST : ∀ a, S a ↔ T a) : Encodes bit mask T := by
  intro k
  rw [h k]
  simp only [hST]

theorem Encodes.union (h : Encodes bit mask S) (h' : Encodes bit other T) :
    Encodes bit (mask ||| other) (fun a => S a ∨ T a) := by
  intro k
  rw [Nat.testBit_or, Bool.or_eq_true, h k, h' k, ← exists_or]
  simp only [or_and_right]

theorem Encodes.single (a : α) : Encodes bit (2 ^ bit a) (fun b => b = a) := by
  intro k
  rw [Nat.testBit_two_pow]
  simp

theorem Encodes.eq_zero_iff (h : Encodes bit mask S) : mask = 0 ↔ ∀ a, ¬ S a := by
  constructor
  · rintro rfl a ha
    have hbit := (h (bit a)).mpr ⟨a, ha, rfl⟩
    simp at hbit
  · intro hnone
    apply Nat.eq_of_testBit_eq
    intro k
    rw [Nat.zero_testBit, Bool.eq_false_iff]
    intro hk
    obtain ⟨a, ha, -⟩ := (h k).mp hk
    exact hnone a ha

theorem and_two_pow_ne_zero (mask k : ℕ) : mask &&& 2 ^ k ≠ 0 ↔ mask.testBit k = true := by
  rw [Nat.and_two_pow]
  cases mask.testBit k <;> simp

theorem Encodes.test_iff (h : Encodes bit mask S) (hbit : Function.Injective bit) (a : α) :
    mask &&& 2 ^ bit a ≠ 0 ↔ S a := by
  rw [and_two_pow_ne_zero, h]
  constructor
  · rintro ⟨b, hb, hba⟩
    exact hbit hba ▸ hb
  · intro ha
    exact ⟨a, ha, rfl⟩

end Veer.BitMask
