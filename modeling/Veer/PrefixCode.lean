import Mathlib

/-!
# Uniquely readable codes

A code is uniquely readable when a reader of the code and whatever follows it knows where the code
ends and what it stands for. Codes of this kind may be written one after the other: the fields of a
record, the elements of a list after their count, and a byte string after its length are then
uniquely readable too.

A code need not stand for all of its value. `Reads P encode view` says that the code of a value
with `P` determines its `view`.
-/
namespace Veer.PrefixCode

variable {α β γ δ ε : Type*} {P Q : α → Prop} {encode : α → List β} {view : α → γ}

/-- The codes of two values with `P`, whatever follows them, agree only if the values have the same
view and the same follows. -/
def Reads (P : α → Prop) (encode : α → List β) (view : α → γ) : Prop :=
  ∀ ⦃a b : α⦄ ⦃x y : List β⦄, P a → P b → encode a ++ x = encode b ++ y → view a = view b ∧ x = y

/-- The same when what follows is known to have `S`, as a number that ends where its digits do. -/
def ReadsBefore (S : List β → Prop) (P : α → Prop) (encode : α → List β) (view : α → γ) : Prop :=
  ∀ ⦃a b : α⦄ ⦃x y : List β⦄, S x → S y → P a → P b → encode a ++ x = encode b ++ y →
    view a = view b ∧ x = y

theorem Reads.view_eq (h : Reads P encode view) {a b : α} (ha : P a) (hb : P b)
    (heq : encode a = encode b) : view a = view b :=
  (h (x := []) (y := []) ha hb (by rw [heq])).1

theorem Reads.mono (h : Reads P encode view) (hQ : ∀ a, Q a → P a) : Reads Q encode view := by
  intro a b x y ha hb heq
  exact h (hQ a ha) (hQ b hb) heq

theorem Reads.of_view {view' : α → δ} (h : Reads P encode view)
    (hview : ∀ a b, P a → P b → view a = view b → view' a = view' b) : Reads P encode view' := by
  intro a b x y ha hb heq
  obtain ⟨hsame, hrest⟩ := h ha hb heq
  exact ⟨hview a b ha hb hsame, hrest⟩

theorem Reads.field {f : δ → α} (h : Reads P encode view) :
    Reads (fun d => P (f d)) (fun d => encode (f d)) (fun d => view (f d)) := by
  intro a b x y ha hb heq
  exact h ha hb heq

theorem Reads.of_length {n : Nat} (hlength : ∀ a, (encode a).length = n)
    (hview : ∀ a b, P a → P b → encode a = encode b → view a = view b) : Reads P encode view := by
  intro a b x y ha hb heq
  obtain ⟨hcode, hrest⟩ := List.append_inj heq (by rw [hlength, hlength])
  exact ⟨hview a b ha hb hcode, hrest⟩

/-- A list after a code of its length. -/
theorem Reads.framed {N : Nat → Prop} {count : Nat → List β} (h : Reads N count id) :
    Reads (fun bytes : List β => N bytes.length) (fun bytes => count bytes.length ++ bytes) id := by
  intro a b x y ha hb heq
  rw [List.append_assoc, List.append_assoc] at heq
  obtain ⟨hlength, hrest⟩ := h ha hb heq
  exact List.append_inj hrest hlength

theorem Reads.flatMap (h : Reads P encode view) {l m : List α} {x y : List β}
    (hlength : l.length = m.length) (hl : ∀ a ∈ l, P a) (hm : ∀ a ∈ m, P a)
    (heq : l.flatMap encode ++ x = m.flatMap encode ++ y) : l.map view = m.map view ∧ x = y := by
  induction l generalizing m with
  | nil =>
    obtain rfl := List.length_eq_zero_iff.mp hlength.symm
    exact ⟨rfl, heq⟩
  | cons a l ih =>
    cases m with
    | nil => cases hlength
    | cons b =>
      simp only [List.flatMap_cons, List.append_assoc] at heq
      obtain ⟨hview, hrest⟩ := h (hl a List.mem_cons_self) (hm b List.mem_cons_self) heq
      obtain ⟨hviews, hend⟩ := ih (Nat.succ.inj hlength)
        (fun a ha => hl a (List.mem_cons_of_mem _ ha))
        (fun a ha => hm a (List.mem_cons_of_mem _ ha)) hrest
      exact ⟨by rw [List.map_cons, List.map_cons, hview, hviews], hend⟩

/-- The codes of the elements of a list after a code of their number. -/
theorem Reads.counted {N : Nat → Prop} {count : Nat → List β} (hcount : Reads N count id)
    (h : Reads P encode view) :
    Reads (fun l : List α => N l.length ∧ ∀ a ∈ l, P a)
      (fun l => count l.length ++ l.flatMap encode) (List.map view) := by
  intro l m x y hl hm heq
  rw [List.append_assoc, List.append_assoc] at heq
  obtain ⟨hlength, hrest⟩ := hcount hl.1 hm.1 heq
  exact h.flatMap hlength hl.2 hm.2 hrest

end Veer.PrefixCode
