import Veer.StepMachine

/-!
# A fenced lease register

One register is held by at most one owner at a time. Each grant raises the fence by one;
a renewal keeps it; a release drops the owner and keeps the fence. The register's clock
never goes back. Nothing here says how the calls of a program decide between the moves.
-/
namespace Veer.FencedLease

open StepMachine

/-- The register: who holds it, under which binding and fence, until when. -/
structure Row (β ω : Type*) where
  binding : β
  owner : Option ω
  fence : Int
  expiresAt : Int
  observedAt : Int

/-- What a move shows: the fence it grants, or the fence its caller holds, and the instant. -/
inductive Label
  | quiet
  | issue (fence now : Int)
  | replace (fence now : Int)
  | renew (fence now : Int)
  | release (fence now : Int)
  | use (fence now : Int)

def Label.issued : Label → Option Int
  | issue fence _ => some fence
  | replace fence _ => some fence
  | _ => none

def Label.issuedAt : Label → Option Int
  | issue _ now => some now
  | replace _ now => some now
  | _ => none

def Label.held : Label → Option Int
  | renew fence _ => some fence
  | release fence _ => some fence
  | use fence _ => some fence
  | _ => none

def Label.heldAt : Label → Option Int
  | renew _ now => some now
  | release _ now => some now
  | use _ now => some now
  | _ => none

variable {β ω : Type*}

/-- A caller that may act on the row at `now`. -/
structure Live (row : Row β ω) (now : Int) : Prop where
  owned : row.owner.isSome
  clock : row.observedAt ≤ now
  unexpired : now < row.expiresAt

/-- A row that `now` finds free. -/
structure Free (row : Row β ω) (now : Int) : Prop where
  clock : row.observedAt ≤ now
  free : row.owner = none ∨ row.expiresAt ≤ now

/-- The moves of one register: `ttl` is the length of a grant, `forward` the changes of
binding that a replacement may make. -/
inductive Move (ttl : Int) (forward : β → β → Prop) :
    Option (Row β ω) → Label → Option (Row β ω) → Prop
  | quiet (r : Option (Row β ω)) : Move ttl forward r .quiet r
  | observe {row : Row β ω} {now : Int} : row.observedAt ≤ now →
      Move ttl forward (some row) .quiet (some { row with observedAt := now })
  | create (binding : β) (owner : ω) (now : Int) :
      Move ttl forward none (.issue 1 now) (some ⟨binding, some owner, 1, now + ttl, now⟩)
  | take {row : Row β ω} {now : Int} (owner : ω) : Free row now →
      Move ttl forward (some row) (.issue (row.fence + 1) now)
        (some ⟨row.binding, some owner, row.fence + 1, now + ttl, now⟩)
  | replace {row : Row β ω} {now : Int} {binding : β} (owner : ω) : Free row now →
      forward row.binding binding →
      Move ttl forward (some row) (.replace (row.fence + 1) now)
        (some ⟨binding, some owner, row.fence + 1, now + ttl, now⟩)
  | renew {row : Row β ω} {now : Int} : Live row now →
      Move ttl forward (some row) (.renew row.fence now)
        (some { row with expiresAt := now + ttl, observedAt := now })
  | release {row : Row β ω} {now : Int} : Live row now →
      Move ttl forward (some row) (.release row.fence now)
        (some { row with owner := none, expiresAt := now, observedAt := now })
  | use {row : Row β ω} {now : Int} : Live row now →
      Move ttl forward (some row) (.use row.fence now) (some { row with observedAt := now })

variable {ttl : Int} {forward : β → β → Prop} {r r' : Option (Row β ω)} {l : Label}

/-- The last fence a register granted, `0` before the first. -/
def lastFence : Option (Row β ω) → Int
  | none => 0
  | some row => row.fence

variable {f : Int}

theorem Move.lastFence_of_issued (h : Move ttl forward r l r') (hf : l.issued = some f) :
    f = lastFence r + 1 ∧ lastFence r' = f := by
  cases h <;> simp_all [Label.issued, lastFence]

theorem Move.lastFence_of_not_issued (h : Move ttl forward r l r') (hf : l.issued = none) :
    lastFence r' = lastFence r := by
  cases h <;> simp_all [Label.issued, lastFence]

theorem Move.lastFence_mono (h : Move ttl forward r l r') : lastFence r ≤ lastFence r' := by
  cases hl : l.issued with
  | none => exact (h.lastFence_of_not_issued hl).ge
  | some =>
    obtain ⟨hf, hlast⟩ := h.lastFence_of_issued hl
    omega

variable {ls : List Label}

/-- The fences of a run's grants count up by one from the register's last fence. -/
theorem Path.issued_eq (h : Path (Move ttl forward) r ls r') :
    ls.filterMap Label.issued =
      (List.range (ls.filterMap Label.issued).length).map fun n : Nat => lastFence r + 1 + n := by
  induction h with
  | nil => rfl
  | @cons t u v l ls hmove _ ih =>
    cases hl : l.issued with
    | none =>
      rw [List.filterMap_cons_none hl, ← hmove.lastFence_of_not_issued hl]
      exact ih
    | some =>
      obtain ⟨hf, hu⟩ := hmove.lastFence_of_issued hl
      rw [List.filterMap_cons_some hl, List.length_cons, List.range_succ_eq_map, List.map_cons,
        List.map_map, ih, hu]
      simp only [List.length_map, List.length_range, hf, Nat.cast_zero, add_zero,
        List.cons.injEq, true_and]
      refine List.map_congr_left fun n _ => ?_
      simp only [Function.comp_apply, Nat.succ_eq_add_one, Nat.cast_add, Nat.cast_one]
      ring

/-! ## Stale fences -/

/-- Fence `f` has been overtaken, or is the last one and its owner let go. -/
def Stale (f : Int) (r : Option (Row β ω)) : Prop :=
  f < lastFence r ∨ f = lastFence r ∧ ∀ row, r = some row → row.owner = none

theorem Move.unowned (h : Move ttl forward r l r') (hl : l.issued = none)
    (hr : ∀ row, r = some row → row.owner = none) : ∀ row, r' = some row → row.owner = none := by
  rintro row' rfl
  cases h with
  | quiet => exact hr row' rfl
  | @observe row | @renew row | @use row => exact hr row rfl
  | release => rfl
  | create | take | replace => simp [Label.issued] at hl

theorem Move.stale (h : Move ttl forward r l r') (hs : Stale f r) : Stale f r' := by
  have hle : f ≤ lastFence r := by
    rcases hs with hlt | ⟨heq, -⟩
    · exact hlt.le
    · exact heq.le
  cases hl : l.issued with
  | some =>
    obtain ⟨hg, hlast⟩ := h.lastFence_of_issued hl
    left
    omega
  | none =>
    rw [Stale, h.lastFence_of_not_issued hl]
    exact hs.imp_right fun ⟨heq, hr⟩ => ⟨heq, h.unowned hl hr⟩

theorem Move.held_not_stale (h : Move ttl forward r l r') (hl : l.held = some f) : ¬ Stale f r := by
  cases h with
  | quiet | observe | create | take | replace => simp [Label.held] at hl
  | renew hlive | release hlive | use hlive =>
    simp only [Label.held, Option.some.injEq] at hl
    subst hl
    rintro (hs | ⟨-, ho⟩)
    · simp [lastFence] at hs
    · have := hlive.owned
      simp [ho _ rfl] at this

theorem Move.stale_of_issued (h : Move ttl forward r l r') {f' : Int} (hl : l.issued = some f')
    (hf : f < f') : Stale f r' := by
  left
  rwa [(h.lastFence_of_issued hl).2]

variable {now : Int}

theorem Move.stale_of_release (h : Move ttl forward r (.release f now) r') : Stale f r' := by
  cases h with
  | release =>
    right
    simp [lastFence]

theorem Move.held_row (h : Move ttl forward r l r') (hl : l.held = some f)
    (hn : l.heldAt = some now) :
    ∃ row row', r = some row ∧ r' = some row' ∧ row.fence = f ∧ row'.fence = f ∧ Live row now := by
  cases h with
  | quiet | observe | create | take | replace => simp [Label.held] at hl
  | renew hlive | release hlive | use hlive =>
    simp only [Label.held, Label.heldAt, Option.some.injEq] at hl hn
    subst hl hn
    exact ⟨_, _, rfl, rfl, rfl, rfl, hlive⟩

theorem Path.held_ne_of_stale (h : Path (Move ttl forward) r ls r') (hs : Stale f r) {n : Nat}
    {k : Label} (hn : ls[n]? = some k) : k.held ≠ some f := by
  obtain ⟨u, w, hpre, hmove, -⟩ := h.at_index hn
  have hu : Stale f u :=
    hpre.invariant (P := Stale f) (Q := fun _ => True) (fun _ _ _ hm _ => hm.stale)
      (fun _ _ => trivial) hs
  intro hk
  exact hmove.held_not_stale hk hu

/-- After a move that makes a fence stale, the fence is dead for the rest of the run. -/
theorem Path.held_ne_after (h : Path (Move ttl forward) r ls r') {a b : Nat} (hab : a < b)
    {k m : Label} (ha : ls[a]? = some k) (hb : ls[b]? = some m)
    (hstale : ∀ u w : Option (Row β ω), Move ttl forward u k w → Stale f w) : m.held ≠ some f := by
  obtain ⟨u, w, -, hmove, hpost⟩ := h.at_index ha
  refine Path.held_ne_of_stale hpost (hstale u w hmove) (n := b - (a + 1)) ?_
  rw [List.getElem?_drop, show a + 1 + (b - (a + 1)) = b by omega]
  exact hb

/-! ## Bindings -/

theorem Move.some_of_some (h : Move ttl forward r l r') {row : Row β ω} (hr : r = some row) :
    ∃ row', r' = some row' := by
  cases h with
  | quiet => exact ⟨row, hr⟩
  | create => simp at hr
  | observe | take | replace | renew | release | use => exact ⟨_, rfl⟩

theorem Move.binding_changed (h : Move ttl forward r l r') {row row' : Row β ω} (hr : r = some row)
    (hr' : r' = some row') (hne : row'.binding ≠ row.binding) :
    (∃ f now, l = .replace f now) ∧ forward row.binding row'.binding := by
  cases h with
  | replace owner hfree hforward =>
    cases hr
    cases hr'
    exact ⟨⟨_, _, rfl⟩, hforward⟩
  | quiet =>
    rw [hr, Option.some.injEq] at hr'
    exact absurd (by rw [hr']) hne
  | create => simp at hr
  | observe | take | renew | release | use =>
    cases hr
    cases hr'
    exact absurd rfl hne

/-! ## Windows -/

/-- Until `bound` the register stays with fence `f`, or its clock has passed `bound`. -/
def Covered (ttl f bound : Int) : Option (Row β ω) → Prop
  | none => False
  | some row => bound ≤ row.observedAt ∨
      row.fence = f ∧ row.owner.isSome ∧ bound ≤ row.expiresAt ∧ row.expiresAt ≤ row.observedAt + ttl

theorem Move.covered (h : Move ttl forward r l r') {bound : Int} (hl : ∀ now, l ≠ .release f now)
    (hc : Covered ttl f bound r) : Covered ttl f bound r' := by
  cases h with
  | quiet => exact hc
  | create => exact hc.elim
  | observe =>
    rcases hc with hc | ⟨hf, ho, hb, he⟩
    · exact .inl (by simp only; omega)
    · exact .inr ⟨hf, ho, hb, by simp only; omega⟩
  | take owner hfree | replace owner hfree _ =>
    have hclock := hfree.clock
    left
    rcases hc with hc | ⟨hf, ho, hb, he⟩
    · simp only; omega
    · rcases hfree.free with hn | hx
      · simp [hn] at ho
      · simp only; omega
  | renew hlive =>
    have hclock := hlive.clock
    rcases hc with hc | ⟨hf, ho, hb, he⟩
    · exact .inl (by simp only; omega)
    · exact .inr ⟨hf, ho, by simp only; omega, by simp⟩
  | release hlive =>
    have hclock := hlive.clock
    rcases hc with hc | ⟨hf, ho, hb, he⟩
    · exact .inl (by simp only; omega)
    · exact absurd (by rw [hf]) (hl _)
  | use hlive =>
    have hclock := hlive.clock
    rcases hc with hc | ⟨hf, ho, hb, he⟩
    · exact .inl (by simp only; omega)
    · exact .inr ⟨hf, ho, hb, by simp only; omega⟩

theorem Move.issuedAt_of_covered (h : Move ttl forward r l r') {bound : Int}
    (hc : Covered ttl f bound r) (hl : l.issuedAt = some now) : bound ≤ now := by
  cases h with
  | create => exact hc.elim
  | take owner hfree | replace owner hfree _ =>
    simp only [Label.issuedAt, Option.some.injEq] at hl
    have hclock := hfree.clock
    rcases hc with hc | ⟨hf, ho, hb, he⟩
    · omega
    · rcases hfree.free with hn | hx
      · simp [hn] at ho
      · omega
  | quiet | observe | renew | release | use => simp [Label.issuedAt] at hl

/-- Until the bound, a covered register is granted again only after a release. -/
theorem Path.issuedAt_of_covered (h : Path (Move ttl forward) r ls r') {bound : Int}
    (hc : Covered ttl f bound r) {n : Nat} {k : Label} (hn : ls[n]? = some k)
    (hk : k.issuedAt = some now)
    (hkeep : ∀ c < n, ∀ l, ls[c]? = some l → ∀ now, l ≠ .release f now) :
    bound ≤ now := by
  obtain ⟨u, w, hpre, hmove, -⟩ := h.at_index hn
  have hkeep : ∀ l ∈ ls.take n, ∀ now, l ≠ .release f now := by
    intro l hl
    obtain ⟨c, hc⟩ := List.mem_iff_getElem?.mp hl
    rw [List.getElem?_take] at hc
    split_ifs at hc with hcn
    exact hkeep c hcn l hc
  have hu : Covered ttl f bound u :=
    hpre.invariant (P := Covered ttl f bound) (fun _ _ _ hm hl => hm.covered hl) hkeep hc
  exact hmove.issuedAt_of_covered hu hk

/-- A grant runs for at most `ttl` past the register's clock. -/
def Bounded (ttl : Int) (r : Option (Row β ω)) : Prop :=
  ∀ row, r = some row → row.expiresAt ≤ row.observedAt + ttl

theorem Move.bounded (h : Move ttl forward r l r') (httl : 0 ≤ ttl) (hb : Bounded ttl r) :
    Bounded ttl r' := by
  cases h with
  | quiet => exact hb
  | observe =>
    have := hb _ rfl
    simp only [Bounded, Option.some.injEq, forall_eq']
    omega
  | use hlive =>
    have := hb _ rfl
    have := hlive.clock
    simp only [Bounded, Option.some.injEq, forall_eq']
    omega
  | release => simpa [Bounded] using httl
  | create | take | replace | renew => simp [Bounded]

theorem Move.covered_of_use (h : Move ttl forward r l r') {row : Row β ω} (hl : l = .use f now)
    (hr : r = some row) (hb : Bounded ttl r) : Covered ttl f row.expiresAt r' := by
  cases h with
  | @use found _ hlive =>
    obtain rfl := Option.some.inj hr
    have hbound := hb found rfl
    have hclock := hlive.clock
    exact .inr ⟨(Label.use.inj hl).1, hlive.owned, le_rfl, by simp only; omega⟩
  | quiet | observe | create | take | replace | renew | release => simp at hl

end Veer.FencedLease
