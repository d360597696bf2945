import Veer.ListHeap

/-!
# Loops over a map

A loop over a map visits each of its entries once, in an order that is picked anew for every loop,
and may delete or overwrite the entry it is at. The map afterwards is the same for every order.
-/
namespace Veer.MapVisits

open ListHeap

variable {κ : Type*} {γ : κ → Type*}

/-- The order in which a loop visits a map. -/
structure Order (γ : κ → Type*) where
  visit : AList γ → List (Sigma γ)
  perm : ∀ map, (visit map).Perm map.entries

/-- The order in which the entries happen to be listed. -/
def Order.listed (γ : κ → Type*) : Order γ := ⟨AList.entries, fun _ => .refl _⟩

theorem Order.nodupKeys_visit (order : Order γ) (map : AList γ) :
    (order.visit map).NodupKeys :=
  (List.perm_nodupKeys (order.perm map)).mpr map.nodupKeys

variable [DecidableEq κ]

theorem Order.mem_visit (order : Order γ) {map : AList γ} {key : κ} {value : γ key} :
    ⟨key, value⟩ ∈ order.visit map ↔ map.lookup key = some value := by
  rw [(order.perm map).mem_iff]
  exact AList.mem_lookup_iff.symm

theorem Order.any_visit (order : Order γ) (map : AList γ) (p : Sigma γ → Bool) :
    (order.visit map).any p = true ↔
      ∃ key value, map.lookup key = some value ∧ p ⟨key, value⟩ = true := by
  rw [List.any_eq_true]
  constructor
  · rintro ⟨⟨key, value⟩, hmem, hp⟩
    exact ⟨key, value, order.mem_visit.mp hmem, hp⟩
  · rintro ⟨key, value, hlookup, hp⟩
    exact ⟨⟨key, value⟩, order.mem_visit.mpr hlookup, hp⟩

/-! ## Deleting -/

/-- Delete the visited keys that satisfy `p`. -/
def deleteWhere (visited : List (Sigma γ)) (p : κ → Bool) (map : AList γ) : AList γ :=
  visited.foldl (fun map entry => if p entry.1 then map.erase entry.1 else map) map

theorem deleteWhere_eq (visited : List (Sigma γ)) (p : κ → Bool) (map : AList γ) :
    deleteWhere visited p map =
      ((visited.map Sigma.fst).filter p).foldl (fun map key => map.erase key) map := by
  unfold deleteWhere
  induction visited generalizing map with
  | nil => rfl
  | cons entry visited ih =>
    rw [List.foldl_cons, ih, List.map_cons, List.filter_cons]
    split_ifs <;> rfl

theorem lookup_deleteWhere (order : Order γ) (p : κ → Bool) (map : AList γ) (key : κ) :
    (deleteWhere (order.visit map) p map).lookup key =
      if p key then none else map.lookup key := by
  rw [deleteWhere_eq, lookup_foldl_erase]
  by_cases hp : p key = true
  · rw [if_pos hp]
    split_ifs with hmem
    · rfl
    cases hlookup : map.lookup key with
    | none => rfl
    | some =>
      have hvisited := List.mem_map_of_mem (f := Sigma.fst) (order.mem_visit.mpr hlookup)
      exact absurd (List.mem_filter.mpr ⟨hvisited, hp⟩) hmem
  · rw [if_neg hp, if_neg]
    intro hmem
    exact hp (List.mem_filter.mp hmem).2

/-! ## Overwriting -/

/-- Overwrite the visited keys that satisfy `p`, or delete them where there is no new value. -/
def rewriteWhere {β : Type*} (visited : List (Sigma fun _ : κ => β)) (p : κ → Bool)
    (f : β → Option β) (map : AList fun _ : κ => β) : AList fun _ : κ => β :=
  visited.foldl (fun map entry =>
    if p entry.1 then
      match f entry.2 with
      | none => map.erase entry.1
      | some value => map.insert entry.1 value
    else map) map

theorem lookup_rewriteWhere_of_notMem {β : Type*} {visited : List (Sigma fun _ : κ => β)}
    {p : κ → Bool} {f : β → Option β} {map : AList fun _ : κ => β} {key : κ}
    (hkey : key ∉ visited.map Sigma.fst) :
    (rewriteWhere visited p f map).lookup key = map.lookup key := by
  unfold rewriteWhere
  induction visited generalizing map with
  | nil => rfl
  | cons entry visited ih =>
    rw [List.map_cons, List.mem_cons, not_or] at hkey
    rw [List.foldl_cons, ih hkey.2]
    split_ifs
    · cases f entry.2 with
      | none => exact AList.lookup_erase_ne hkey.1
      | some => exact AList.lookup_insert_ne hkey.1
    · rfl

theorem lookup_rewriteWhere_of_mem {β : Type*} {visited : List (Sigma fun _ : κ => β)}
    (hnodup : visited.NodupKeys) {p : κ → Bool} {f : β → Option β} {map : AList fun _ : κ => β}
    {key : κ} {value : β} (hmem : ⟨key, value⟩ ∈ visited) (hlookup : map.lookup key = some value) :
    (rewriteWhere visited p f map).lookup key = if p key then f value else some value := by
  induction visited generalizing map with
  | nil => cases hmem
  | cons entry visited ih =>
    obtain ⟨hfresh, hrest⟩ := List.nodupKeys_cons.mp hnodup
    change (rewriteWhere visited p f _).lookup key = _
    rcases List.mem_cons.mp hmem with rfl | hmem
    · rw [lookup_rewriteWhere_of_notMem hfresh]
      by_cases hp : p key = true
      · simp only [hp, if_true]
        cases f value with
        | none => exact AList.lookup_erase _ _
        | some => exact AList.lookup_insert _
      · simp only [hp]
        exact hlookup
    · have hne : key ≠ entry.1 := by
        rintro rfl
        have hkey := List.mem_keys_of_mem hmem
        exact hfresh hkey
      refine ih hrest hmem ?_
      dsimp only
      split_ifs
      · cases f entry.2 with
        | none => exact (AList.lookup_erase_ne hne).trans hlookup
        | some => exact (AList.lookup_insert_ne hne).trans hlookup
      · exact hlookup

theorem lookup_rewriteWhere {β : Type*} (order : Order fun _ : κ => β) (p : κ → Bool)
    (f : β → Option β) (map : AList fun _ : κ => β) (key : κ) :
    (rewriteWhere (order.visit map) p f map).lookup key =
      if p key then (map.lookup key).bind f else map.lookup key := by
  cases hlookup : map.lookup key with
  | none =>
    rw [lookup_rewriteWhere_of_notMem, hlookup]
    · split_ifs <;> rfl
    · intro hmem
      obtain ⟨entry, hentry, rfl⟩ := List.mem_map.mp hmem
      rw [order.mem_visit.mp hentry] at hlookup
      cases hlookup
  | some =>
    rw [lookup_rewriteWhere_of_mem (order.nodupKeys_visit map) (order.mem_visit.mpr hlookup)
      hlookup]
    rfl

end Veer.MapVisits
