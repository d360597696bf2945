import Mathlib

/-!
# Lists as heaps

A heap of records is a list that grows at its end and is modified in place. These are the
lemmas that a proof about such a heap needs: what a modified entry is, and how modification
commutes with a projection and with counting.
-/
namespace Veer.ListHeap

variable {α β : Type*}
variable {f : α → α} {l : List α}

theorem getElem?_modify_eq_some {i j : Nat} {a : α} :
    (l.modify i f)[j]? = some a ↔ ∃ x, l[j]? = some x ∧ (if i = j then f x else x) = a := by
  rw [List.getElem?_modify]
  cases l[j]? <;> simp

theorem getElem?_concat_eq_some {a x : α} {j : Nat} :
    (l ++ [a])[j]? = some x ↔ l[j]? = some x ∨ j = l.length ∧ x = a := by
  rcases Nat.lt_trichotomy j l.length with hlt | rfl | hgt
  · rw [List.getElem?_append_left hlt]
    simp [hlt.ne]
  · simp [eq_comm]
  · have hnone : (l ++ [a])[j]? = none := List.getElem?_eq_none (by simp; omega)
    rw [hnone, List.getElem?_eq_none hgt.le]
    simp [hgt.ne']

theorem getElem?_take_eq_some {n j : Nat} {a : α} :
    (l.take n)[j]? = some a ↔ j < n ∧ l[j]? = some a := by
  rw [List.getElem?_take]
  split_ifs with hj
  · simp [hj]
  · simp [hj]

theorem map_modify_of_comm {g : α → β} {k : β → β} (h : ∀ a, g (f a) = k (g a)) (l : List α)
    (i : Nat) : (l.modify i f).map g = (l.map g).modify i k := by
  apply List.ext_getElem?
  intro j
  rw [List.getElem?_map, List.getElem?_modify, List.getElem?_modify, List.getElem?_map]
  cases l[j]? with
  | none => rfl
  | some => by_cases hij : i = j <;> simp [hij, h]

theorem map_modify_of_eq {g : α → β} (h : ∀ a, g (f a) = g a) (l : List α) (i : Nat) :
    (l.modify i f).map g = l.map g := by
  rw [map_modify_of_comm (k := id) h]
  exact List.modify_id i _

theorem forall_mem_modify {P : α → Prop} {i : Nat} (h : ∀ a ∈ l, P a) (hf : ∀ a, P a → P (f a)) :
    ∀ a ∈ l.modify i f, P a := by
  intro a ha
  obtain ⟨j, hj⟩ := List.mem_iff_getElem?.mp ha
  obtain ⟨x, hx, rfl⟩ := getElem?_modify_eq_some.mp hj
  have hP := h x (List.mem_of_getElem? hx)
  by_cases hij : i = j
  · rw [if_pos hij]
    exact hf x hP
  · rw [if_neg hij]
    exact hP

variable {p : α → Bool}

theorem countP_modify_of_eq (h : ∀ a, p (f a) = p a) (l : List α) (i : Nat) :
    (l.modify i f).countP p = l.countP p := by
  have hmap : ∀ l : List α, l.countP p = (l.map p).countP id := fun l => by
    rw [List.countP_map, Function.id_comp]
  rw [hmap, hmap l, map_modify_of_eq h]

theorem countP_modify {i : Nat} {a : α} (ha : l[i]? = some a) :
    (l.modify i f).countP p + (p a).toNat = l.countP p + (p (f a)).toNat := by
  induction l generalizing i with
  | nil => simp at ha
  | cons x l ih =>
    cases i with
    | zero =>
      simp only [List.getElem?_cons_zero, Option.some.injEq] at ha
      subst ha
      simp only [List.modify_zero_cons, List.countP_cons]
      cases p x <;> cases p (f x) <;> simp
    | succ i =>
      have h := ih (i := i) (by simpa using ha)
      simp only [List.modify_succ_cons, List.countP_cons]
      omega

/-- Counting by a key: over distinct keys that cover the list, the parts add up to the whole. -/
theorem sum_countP_key {g : α → β} [DecidableEq β] {keys : List β} (hnodup : keys.Nodup)
    (l : List α) (hkeys : ∀ a ∈ l, p a = true → g a ∈ keys) :
    (keys.map fun k => l.countP fun a => p a && g a == k).sum = l.countP p := by
  induction l with
  | nil => simp
  | cons a l ih =>
    have hrest := ih fun x hx => hkeys x (List.mem_cons_of_mem _ hx)
    have hone : (keys.map fun k => if (p a && g a == k) = true then 1 else 0).sum =
        if p a = true then 1 else 0 := by
      by_cases hp : p a = true
      · have hmem := hkeys a List.mem_cons_self hp
        have hothers : ∀ k, k ≠ g a → k ∈ keys →
            (if (p a && g a == k) = true then 1 else 0) = 0 := by
          intro k hne _
          simp [hne.symm]
        rw [List.sum_map_eq_nsmul_single (g a) _ hothers,
          List.count_eq_one_of_mem hnodup hmem]
        simp [hp]
      · simp [hp]
    simp only [List.countP_cons, List.sum_map_add, hrest, hone]

/-! ## Maps: dropping keys, and sums -/

section Drop

variable {κ : Type*} {γ : κ → Type*} [DecidableEq κ]

theorem lookup_insert_eq_some {β : Type*} {map : AList fun _ : κ => β} {key found : κ}
    {value old : β} : (map.insert key value).lookup found = some old ↔
      found = key ∧ value = old ∨ found ≠ key ∧ map.lookup found = some old := by
  by_cases hkey : found = key
  · subst hkey
    simp
  · simp [AList.lookup_insert_ne hkey, hkey]

theorem lookup_erase_eq_some {map : AList γ} {key found : κ} {old : γ found} :
    (map.erase key).lookup found = some old ↔ found ≠ key ∧ map.lookup found = some old := by
  by_cases hkey : found = key
  · subst hkey
    simp
  · simp [AList.lookup_erase_ne hkey, hkey]

theorem lookup_foldl_erase (keys : List κ) (map : AList γ) (key : κ) :
    (keys.foldl (fun map key => map.erase key) map).lookup key =
      if key ∈ keys then none else map.lookup key := by
  induction keys generalizing map with
  | nil => simp
  | cons first keys ih =>
    rw [List.foldl_cons, ih]
    by_cases hkey : key = first
    · subst hkey
      simp
    · simp [AList.lookup_erase_ne hkey, hkey]

theorem mem_keys_filter {map : AList γ} {p : Sigma γ → Bool} {key : κ} :
    key ∈ (map.entries.filter p).map Sigma.fst ↔
      ∃ value, map.lookup key = some value ∧ p ⟨key, value⟩ = true := by
  simp only [List.mem_map, List.mem_filter]
  constructor
  · rintro ⟨⟨entryKey, value⟩, ⟨hmem, hp⟩, rfl⟩
    exact ⟨value, AList.mem_lookup_iff.mpr hmem, hp⟩
  · rintro ⟨value, hvalue, hp⟩
    exact ⟨⟨key, value⟩, ⟨AList.mem_lookup_iff.mp hvalue, hp⟩, rfl⟩

theorem lookup_drop_filter (map : AList γ) (p : Sigma γ → Bool) (key : κ) :
    (((map.entries.filter p).map Sigma.fst).foldl (fun map key => map.erase key) map).lookup key =
      (map.lookup key).filter fun value => !p ⟨key, value⟩ := by
  rw [lookup_foldl_erase]
  cases hvalue : map.lookup key with
  | none =>
    rw [Option.filter_none]
    split_ifs <;> rfl
  | some value =>
    rw [Option.filter_some]
    by_cases hp : p ⟨key, value⟩ = true
    · rw [if_pos (mem_keys_filter.mpr ⟨value, hvalue, hp⟩)]
      simp [hp]
    have hkept : key ∉ (map.entries.filter p).map Sigma.fst := by
      intro hmem
      obtain ⟨other, hother, hdrop⟩ := mem_keys_filter.mp hmem
      rw [hvalue, Option.some.injEq] at hother
      exact hp (hother ▸ hdrop)
    rw [if_neg hkept]
    simp [hp]

theorem length_foldl_erase_le (keys : List κ) (map : AList γ) :
    (keys.foldl (fun map key => map.erase key) map).keys.length ≤ map.keys.length := by
  induction keys generalizing map with
  | nil => exact le_refl _
  | cons first keys ih =>
    refine (ih (map.erase first)).trans ?_
    rw [AList.keys_erase]
    exact List.length_erase_le

theorem length_keys_insert (map : AList γ) (key : κ) (value : γ key) :
    (map.insert key value).keys.length =
      if (map.lookup key).isSome then map.keys.length else map.keys.length + 1 := by
  rw [AList.keys_insert, List.length_cons, List.length_erase]
  by_cases hmem : key ∈ map
  · have hsome : (map.lookup key).isSome = true := AList.lookup_isSome.mpr hmem
    have hpos : 0 < map.keys.length := List.length_pos_of_mem hmem
    rw [if_pos hsome, if_pos (AList.mem_keys.mp hmem)]
    omega
  · have hnone : ¬ (map.lookup key).isSome = true := fun h => hmem (AList.lookup_isSome.mp h)
    rw [if_neg hnone, if_neg (fun h => hmem (AList.mem_keys.mpr h))]

end Drop

section AList

variable {κ M : Type*} {γ : κ → Type*} [DecidableEq κ] [AddCommMonoid M]
variable {map : AList γ}

theorem sum_entries_insert_of_none {key : κ} (h : map.lookup key = none) (value : γ key)
    (f : Sigma γ → M) :
    ((map.insert key value).entries.map f).sum = f ⟨key, value⟩ + (map.entries.map f).sum := by
  rw [AList.entries_insert_of_notMem (AList.lookup_eq_none.mp h), List.map_cons, List.sum_cons]

theorem entries_perm_erase {key : κ} {old : γ key} (h : map.lookup key = some old) :
    map.entries.Perm (⟨key, old⟩ :: (map.erase key).entries) := by
  have hkey : key ∈ map.entries.keys :=
    List.mem_keys_of_mem (AList.mem_lookup_iff.mp (Option.mem_def.mpr h))
  obtain ⟨found, before, after, hnotMem, hentries, herase⟩ := List.exists_of_kerase hkey
  have hfound : found = old := by
    have hmem : found ∈ map.lookup key := by
      rw [AList.mem_lookup_iff, hentries]
      simp
    exact Option.some.inj (hmem.symm.trans h)
  change map.entries.Perm (_ :: List.kerase key map.entries)
  rw [herase, hentries, hfound]
  exact List.perm_middle

theorem sum_entries_erase {key : κ} {old : γ key} (h : map.lookup key = some old)
    (f : Sigma γ → M) :
    ((map.erase key).entries.map f).sum + f ⟨key, old⟩ = (map.entries.map f).sum := by
  rw [((entries_perm_erase h).map f).sum_eq, List.map_cons, List.sum_cons, add_comm]

/-- A replaced value changes the sum by its own part only. -/
theorem sum_entries_insert_of_some {key : κ} {old : γ key} (h : map.lookup key = some old)
    (value : γ key) (f : Sigma γ → M) :
    ((map.insert key value).entries.map f).sum + f ⟨key, old⟩ =
      (map.entries.map f).sum + f ⟨key, value⟩ := by
  rw [AList.entries_insert, List.map_cons, List.sum_cons, ← sum_entries_erase h]
  change _ + ((map.erase key).entries.map f).sum + _ = _
  abel

end AList

end Veer.ListHeap
