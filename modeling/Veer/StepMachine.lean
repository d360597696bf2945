import Mathlib

/-!
# Deterministic step machines and their runs

A machine answers every input with a new state and an output. `exec` is the state
after a finite run and `trace` the record of all its steps, in order. The invariant
rules below are stated once here; a system is verified by giving its step lemma.
-/
namespace Veer.StepMachine

structure Machine (σ ι ο : Type*) where
  step : σ → ι → σ × ο

/-- One step of a run, with the states on both sides of it. -/
structure Entry (σ ι ο : Type*) where
  before : σ
  input : ι
  output : ο
  after : σ

variable {σ ι ο : Type*} (m : Machine σ ι ο)

def Machine.next (s : σ) (i : ι) : σ := (m.step s i).1

def Machine.entry (s : σ) (i : ι) : Entry σ ι ο := ⟨s, i, (m.step s i).2, (m.step s i).1⟩

def Machine.exec : σ → List ι → σ
  | s, [] => s
  | s, i :: is => Machine.exec (m.next s i) is

def Machine.trace : σ → List ι → List (Entry σ ι ο)
  | _, [] => []
  | s, i :: is => m.entry s i :: Machine.trace (m.next s i) is

@[simp] theorem exec_nil (s : σ) : m.exec s [] = s := rfl

@[simp] theorem exec_cons (s : σ) (i : ι) (is : List ι) :
    m.exec s (i :: is) = m.exec (m.next s i) is := rfl

@[simp] theorem trace_nil (s : σ) : m.trace s [] = [] := rfl

@[simp] theorem trace_cons (s : σ) (i : ι) (is : List ι) :
    m.trace s (i :: is) = m.entry s i :: m.trace (m.next s i) is := rfl

theorem exec_append (s : σ) (is js : List ι) :
    m.exec s (is ++ js) = m.exec (m.exec s is) js := by
  induction is generalizing s with
  | nil => rfl
  | cons i is ih => simp [ih]

theorem trace_append (s : σ) (is js : List ι) :
    m.trace s (is ++ js) = m.trace s is ++ m.trace (m.exec s is) js := by
  induction is generalizing s with
  | nil => rfl
  | cons i is ih => simp [ih]

theorem trace_length (s : σ) (is : List ι) : (m.trace s is).length = is.length := by
  induction is generalizing s with
  | nil => rfl
  | cons i is ih => simp [ih]

theorem trace_take (s : σ) (is : List ι) (k : Nat) :
    (m.trace s is).take k = m.trace s (is.take k) := by
  induction is generalizing s k with
  | nil => simp
  | cons i is ih =>
    cases k with
    | zero => rfl
    | succ => simp [ih]

variable {P : σ → Prop} {s : σ}

/-- A property that every step keeps holds at the end of every run. -/
theorem exec_invariant (hstep : ∀ s i, P s → P (m.next s i)) (hs : P s) (is : List ι) :
    P (m.exec s is) := by
  induction is generalizing s with
  | nil => exact hs
  | cons i is ih => exact ih (hstep s i hs)

/-- A step relation that is reflexive and transitive relates the two ends of every run. -/
theorem exec_relation {R : σ → σ → Prop} (hrefl : ∀ s, R s s)
    (htrans : ∀ a b c, R a b → R b c → R a c) (hinv : ∀ s i, P s → P (m.next s i))
    (hstep : ∀ s i, P s → R s (m.next s i)) (hs : P s) (is : List ι) : R s (m.exec s is) := by
  induction is generalizing s with
  | nil => exact hrefl s
  | cons i is ih => exact htrans _ _ _ (hstep s i hs) (ih (hinv s i hs))

variable {is : List ι} {e : Entry σ ι ο}

/-- Every entry of a run is the step its input takes from the state reached there. -/
theorem mem_trace (he : e ∈ m.trace s is) :
    ∃ pre post, is = pre ++ e.input :: post ∧ e = m.entry (m.exec s pre) e.input := by
  induction is generalizing s with
  | nil => simp at he
  | cons i is ih =>
    rcases List.mem_cons.mp he with rfl | he
    · exact ⟨[], is, rfl, rfl⟩
    · obtain ⟨pre, post, hsplit, hentry⟩ := ih he
      exact ⟨i :: pre, post, by simp [← hsplit], hentry⟩

variable {n : Nat}

/-- The `n`-th entry starts where the run of the first `n` inputs ends. -/
theorem trace_before (he : (m.trace s is)[n]? = some e) : e.before = m.exec s (is.take n) := by
  induction is generalizing s n with
  | nil => simp at he
  | cons i is ih =>
    cases n with
    | zero =>
      simp only [trace_cons, List.getElem?_cons_zero, Option.some.injEq] at he
      rw [← he]
      rfl
    | succ => exact ih (by simpa using he)

/-- An invariant holds before every entry of a run. -/
theorem trace_invariant (hstep : ∀ s i, P s → P (m.next s i)) (hs : P s) (he : e ∈ m.trace s is) :
    P e.before ∧ e = m.entry e.before e.input := by
  obtain ⟨pre, post, -, hentry⟩ := mem_trace m he
  rw [hentry]
  exact ⟨exec_invariant m hstep hs pre, rfl⟩

/-- A property of the record and the state, kept by every step with an allowed input. -/
theorem record_invariant {P : List (Entry σ ι ο) → σ → Prop} {Q : ι → Prop} (hs : P [] s)
    (hstep : ∀ past s i, Q i → P past s → P (past ++ [m.entry s i]) (m.next s i))
    (his : ∀ i ∈ is, Q i) : P (m.trace s is) (m.exec s is) := by
  induction is using List.reverseRecOn with
  | nil => exact hs
  | append_singleton is i ih =>
    have hpast := ih fun j hj => his j (List.mem_append_left _ hj)
    rw [trace_append, exec_append]
    exact hstep _ _ i (his i (by simp)) hpast

/-- Before its `n`-th entry a run has made the first `n` entries of its record. -/
theorem record_before {P : List (Entry σ ι ο) → σ → Prop} (hs : P [] s)
    (hstep : ∀ past s i, P past s → P (past ++ [m.entry s i]) (m.next s i))
    (he : (m.trace s is)[n]? = some e) : P ((m.trace s is).take n) e.before := by
  rw [trace_take, trace_before m he]
  exact record_invariant m (Q := fun _ => True) hs (fun past s i _ hpast => hstep past s i hpast)
    (fun _ _ => trivial)

/-- After its `n`-th entry a run goes on as the run of the remaining inputs. -/
theorem trace_after (he : (m.trace s is)[n]? = some e) :
    ∃ post, e = m.entry e.before e.input ∧
      ∀ k, (m.trace s is)[n + 1 + k]? = (m.trace e.after post)[k]? := by
  induction is generalizing s n with
  | nil => simp at he
  | cons i is ih =>
    cases n with
    | zero =>
      simp only [trace_cons, List.getElem?_cons_zero, Option.some.injEq] at he
      subst he
      refine ⟨is, rfl, fun k => ?_⟩
      rw [show 0 + 1 + k = k + 1 by omega]
      rfl
    | succ n =>
      obtain ⟨post, hentry, hrest⟩ := ih (by simpa using he)
      refine ⟨post, hentry, fun k => ?_⟩
      rw [show n + 1 + 1 + k = (n + 1 + k) + 1 by omega]
      exact hrest k

/-- Between two entries of a run lies a run of its own. -/
theorem trace_between {a b : Nat} {e' : Entry σ ι ο} (hab : a < b)
    (ha : (m.trace s is)[a]? = some e) (hb : (m.trace s is)[b]? = some e') :
    ∃ mid, e'.before = m.exec e.after mid ∧ ∀ k x, (m.trace e.after mid)[k]? = some x →
      a < a + 1 + k ∧ a + 1 + k < b ∧ (m.trace s is)[a + 1 + k]? = some x := by
  obtain ⟨post, -, hrest⟩ := trace_after m ha
  obtain ⟨k, rfl⟩ := Nat.exists_eq_add_of_lt hab
  rw [show a + k + 1 = a + 1 + k by omega, hrest k] at hb
  refine ⟨post.take k, trace_before m hb, fun j x hx => ?_⟩
  rw [← trace_take] at hx
  have hj := (List.getElem?_eq_some_iff.mp hx).1
  rw [List.length_take] at hj
  rw [List.getElem?_take_of_lt (by omega)] at hx
  exact ⟨by omega, by omega, (hrest j).trans hx⟩

/-- A property that becomes true over a run becomes true at one of its entries. -/
theorem trace_change (hs : ¬ P s) (he : P (m.exec s is)) :
    ∃ (k : Nat) (e : Entry σ ι ο), (m.trace s is)[k]? = some e ∧ ¬ P e.before ∧ P e.after := by
  induction is generalizing s with
  | nil => exact absurd he hs
  | cons i is ih =>
    by_cases hnext : P (m.next s i)
    · exact ⟨0, m.entry s i, rfl, hs, hnext⟩
    · obtain ⟨k, e, hk, hbefore, hafter⟩ := ih hnext he
      exact ⟨k + 1, e, by simpa using hk, hbefore, hafter⟩

/-! ## Obligations that wait for an event -/

/-- At index `n` of the run some state satisfied `A`, and no event `E` has answered it since. -/
def Machine.Unanswered (A : σ → Prop) (E : Entry σ ι ο → Prop) (s : σ) (is : List ι) (n : Nat) :
    Prop :=
  ∃ a ≤ n, A (m.exec s (is.take a)) ∧
    ∀ (k : Nat) e, a ≤ k → k < n → (m.trace s is)[k]? = some e → ¬ E e

/-- A stretch of a run that makes `P` true has an entry that makes it true. -/
theorem stretch_change {a : Nat} (han : a ≤ n) (hs : ¬ P (m.exec s (is.take a)))
    (he : P (m.exec s (is.take n))) :
    ∃ (k : Nat) (e : Entry σ ι ο), a ≤ k ∧ k < n ∧ (m.trace s is)[k]? = some e ∧
      ¬ P e.before ∧ P e.after := by
  have hsplit : is.take n = is.take a ++ (is.take n).drop a := by
    have h := List.take_append_drop a (is.take n)
    rw [List.take_take, Nat.min_eq_left han] at h
    exact h.symm
  rw [hsplit, exec_append] at he
  obtain ⟨k, e, hk, hbefore, hafter⟩ := trace_change m hs he
  have hlt := (List.getElem?_eq_some_iff.mp hk).1
  rw [trace_length, List.length_drop, List.length_take] at hlt
  have htrace : (m.trace s (is.take n))[a + k]? = some e := by
    rw [hsplit, trace_append, List.getElem?_append_right (by rw [trace_length]; simp)]
    rw [trace_length, List.length_take, Nat.min_eq_left (by omega)]
    rw [show a + k - a = k by omega]
    exact hk
  rw [← trace_take, List.getElem?_take_of_lt (by omega)] at htrace
  exact ⟨a + k, e, by omega, by omega, htrace, hbefore, hafter⟩

theorem trace_input (he : (m.trace s is)[n]? = some e) : is[n]? = some e.input := by
  induction is generalizing s n with
  | nil => simp at he
  | cons i is ih =>
    cases n with
    | zero =>
      simp only [trace_cons, List.getElem?_cons_zero, Option.some.injEq] at he
      rw [← he]
      rfl
    | succ => simpa using ih (by simpa using he)

theorem trace_next (he : (m.trace s is)[n]? = some e) :
    n < is.length ∧ e = m.entry e.before e.input ∧ e.after = m.exec s (is.take (n + 1)) := by
  have hinput := trace_input m he
  obtain ⟨-, hentry, -⟩ := trace_after m he
  have htake : is.take (n + 1) = is.take n ++ [e.input] := by
    rw [List.take_add_one, hinput]
    rfl
  refine ⟨(List.getElem?_eq_some_iff.mp hinput).1, hentry, ?_⟩
  rw [htake, exec_append, ← trace_before m he]
  exact congrArg Entry.after hentry

theorem exec_take_of_trace {β : Type*} {f : σ → β} {b : β}
    (hb : ((m.trace s is).map fun e => f e.after)[n]? = some b) :
    f (m.exec s (is.take (n + 1))) = b := by
  rw [List.getElem?_map, Option.map_eq_some_iff] at hb
  obtain ⟨e, he, rfl⟩ := hb
  rw [← (trace_next m he).2.2]

/-- When `B` only comes about with an answer or through a step of kind `Q`, it is never reached
over an open obligation exactly if no step of kind `Q` is taken over one. -/
theorem answered_iff {A B : σ → Prop} {E Q : Entry σ ι ο → Prop} (hAB : ∀ s, A s → ¬ B s)
    (hstep : ∀ s i, ¬ B s → B (m.next s i) → E (m.entry s i) ∨ Q (m.entry s i))
    (hQ : ∀ s i, Q (m.entry s i) → B (m.next s i) ∧ ¬ E (m.entry s i)) (s : σ) (is : List ι) :
    (∀ n ≤ is.length, B (m.exec s (is.take n)) → ¬ m.Unanswered A E s is n) ↔
      ∀ (n : Nat) e, (m.trace s is)[n]? = some e → Q e → ¬ m.Unanswered A E s is n := by
  constructor
  · rintro hall n e he hq ⟨a, han, ha, hopen⟩
    obtain ⟨hlt, hentry, hafter⟩ := trace_next m he
    rw [hentry] at hq
    obtain ⟨hb, hne⟩ := hQ _ _ hq
    have hB : B (m.exec s (is.take (n + 1))) := by
      rw [← hafter, hentry]
      exact hb
    refine hall (n + 1) (by omega) hB ⟨a, by omega, ha, ?_⟩
    intro k x hak hkn hx
    by_cases hk : k = n
    · subst hk
      rw [he, Option.some.injEq] at hx
      rw [← hx, hentry]
      exact hne
    · exact hopen k x hak (by omega) hx
  · rintro hguard n hn hB ⟨a, han, ha, hopen⟩
    obtain ⟨k, e, hak, hkn, he, hbefore, hafter⟩ := stretch_change m han (hAB _ ha) hB
    have hentry := (trace_next m he).2.1
    rw [hentry] at hafter
    rcases hstep _ _ hbefore hafter with hE | hq
    · exact hopen k e hak hkn he (hentry ▸ hE)
    · refine hguard k e he (hentry ▸ hq) ⟨a, hak, ha, ?_⟩
      intro j x haj hjk hx
      exact hopen j x haj (by omega) hx

/-! ## Labelled paths -/

/-- A finite path of a labelled transition relation. -/
inductive Path {τ ℓ : Type*} (R : τ → ℓ → τ → Prop) : τ → List ℓ → τ → Prop
  | nil (t : τ) : Path R t [] t
  | cons {t u v : τ} {l : ℓ} {ls : List ℓ} : R t l u → Path R u ls v → Path R t (l :: ls) v

section Path

variable {τ ℓ : Type*} {R : τ → ℓ → τ → Prop}

/-- Cut a path at one of its labels. -/
theorem Path.at_index {t v : τ} {ls : List ℓ} (h : Path R t ls v) {l : ℓ} (hn : ls[n]? = some l) :
    ∃ u w, Path R t (ls.take n) u ∧ R u l w ∧ Path R w (ls.drop (n + 1)) v := by
  induction h generalizing n with
  | nil => simp at hn
  | @cons t u v k ks hstep hpath ih =>
    cases n with
    | zero =>
      simp only [List.getElem?_cons_zero, Option.some.injEq] at hn
      subst hn
      exact ⟨t, u, .nil t, hstep, hpath⟩
    | succ =>
      obtain ⟨a, b, hpre, hl, hpost⟩ := ih (by simpa using hn)
      exact ⟨a, b, .cons hstep hpre, hl, hpost⟩

/-- A property of states that every move with an allowed label keeps. -/
theorem Path.invariant {P : τ → Prop} {Q : ℓ → Prop}
    (hstep : ∀ t l u, R t l u → Q l → P t → P u) {t v : τ} {ls : List ℓ}
    (h : Path R t ls v) (hok : ∀ l ∈ ls, Q l) (ht : P t) : P v := by
  induction h with
  | nil => exact ht
  | cons hl _ ih =>
    exact ih (fun l hm => hok l (List.mem_cons_of_mem _ hm))
      (hstep _ _ _ hl (hok _ List.mem_cons_self) ht)

/-- A machine whose steps are moves of `R` under a view and a labelling runs along a path. -/
theorem trace_path (view : σ → τ) (label : Entry σ ι ο → ℓ) (hinv : ∀ s i, P s → P (m.next s i))
    (hstep : ∀ s i, P s → R (view s) (label (m.entry s i)) (view (m.next s i))) (hs : P s)
    (is : List ι) : Path R (view s) ((m.trace s is).map label) (view (m.exec s is)) := by
  induction is generalizing s with
  | nil => exact .nil _
  | cons i is ih => exact .cons (hstep s i hs) (ih (hinv s i hs))

end Path

/-! ## Checks and loops that stop at the first error -/

def ensure {ε : Type} (holds : Bool) (failure : ε) : Except ε Unit :=
  if holds then .ok () else .error failure

theorem ensure_ok {ε : Type} {holds : Bool} {failure : ε} {result : Unit} :
    ensure holds failure = .ok result ↔ holds = true := by
  cases holds <;> simp [ensure]

theorem bind_ok {ε α β : Type} {first : Except ε α} {rest : α → Except ε β} {result : β} :
    (first >>= rest) = .ok result ↔ ∃ value, first = .ok value ∧ rest value = .ok result := by
  cases first with
  | error | ok => simp [bind, Except.bind]

/-- An invariant indexed by the part of the list a loop has read. -/
theorem foldlM_ok_induction {α β ε : Type*} {step : β → α → Except ε β} {P : List α → β → Prop}
    (hstep : ∀ done b a b', P done b → step b a = .ok b' → P (done ++ [a]) b')
    {done rest : List α} {b b' : β} (hb : P done b) (h : rest.foldlM step b = .ok b') :
    P (done ++ rest) b' := by
  induction rest generalizing done b with
  | nil =>
    obtain rfl : b = b' := Except.ok.inj h
    simpa using hb
  | cons a rest ih =>
    rw [List.foldlM_cons] at h
    cases hs : step b a with
    | error => simp [hs, bind, Except.bind] at h
    | ok c =>
      have hc : P (done ++ [a]) c := hstep done b a c hb hs
      have hrest : rest.foldlM step c = .ok b' := by simpa [hs, bind, Except.bind] using h
      simpa using ih hc hrest

/-- The same from the start of the loop. -/
theorem foldlM_ok_rule {α β ε : Type*} {step : β → α → Except ε β} {P : List α → β → Prop}
    (hstep : ∀ done b a b', P done b → step b a = .ok b' → P (done ++ [a]) b')
    {list : List α} {b b' : β} (hb : P [] b) (h : list.foldlM step b = .ok b') : P list b' := by
  have hlist := foldlM_ok_induction hstep hb h
  rwa [List.nil_append] at hlist

end Veer.StepMachine
