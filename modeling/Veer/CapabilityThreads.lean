import Veer.CapabilityCells

/-!
# Owners of words and threads in flight
-/
namespace Veer.Reconcile

open StepMachine AtomicCells

/-! ## Who owns a word -/

inductive Owner
  | permit (m : Nat)
  | authority (k : Nat)

namespace Workshop

def word (shop : Workshop) : Owner → Option Nat
  | .permit m => shop.permits[m]?.bind ObservationPermit.transition
  | .authority k => shop.authorities[k]?.bind LeaseReplacementAuthority.transition

/-- Words and flags of the pools are allocated, and no word has two owners. -/
structure Owned (shop : Workshop) : Prop where
  allocated : ∀ o p, shop.word o = some p → p < shop.atomics.words.allocated
  unique : ∀ o o' p, shop.word o = some p → shop.word o' = some p → o = o'
  admissions : ∀ admission ∈ shop.admissions,
    (∀ p, admission.word = some p → p < shop.atomics.words.allocated) ∧
      ∃ use, admission.use = some use ∧ use < shop.atomics.flags.allocated
  authorities : ∀ authority ∈ shop.authorities, authority.Allocated shop.atomics.flags

/-- Nothing minted is lost, flags rise and words go forward. -/
structure Extends (shop next : Workshop) : Prop where
  permits : shop.permits <+: next.permits
  admissions : shop.admissions <+: next.admissions
  authorities : shop.authorities <+: next.authorities
  flags : Rises shop.atomics.flags next.atomics.flags
  words : Advances shop.atomics.words next.atomics.words

theorem Extends.refl (shop : Workshop) : shop.Extends shop :=
  ⟨List.prefix_rfl, List.prefix_rfl, List.prefix_rfl, Rises.refl _, Advances.refl _⟩

theorem Extends.trans {a b c : Workshop} (hab : a.Extends b) (hbc : b.Extends c) : a.Extends c :=
  ⟨hab.permits.trans hbc.permits, hab.admissions.trans hbc.admissions,
    hab.authorities.trans hbc.authorities, hab.flags.trans hbc.flags, hab.words.trans hbc.words⟩

variable {shop next : Workshop}

theorem Owned.mint (h : shop.Owned) (hext : shop.Extends next) (new : Owner)
    (hword : ∀ o p, next.word o = some p → shop.word o = some p ∨
      o = new ∧ p = shop.atomics.words.allocated ∧ p < next.atomics.words.allocated)
    (hnew : ∀ admission ∈ next.admissions, admission ∈ shop.admissions ∨
      (∀ p, admission.word = some p → p < next.atomics.words.allocated) ∧
        ∃ use, admission.use = some use ∧ use < next.atomics.flags.allocated)
    (hminted : ∀ authority ∈ next.authorities, authority ∈ shop.authorities ∨
      authority.Allocated next.atomics.flags) : next.Owned where
  allocated := by
    intro o p hp
    rcases hword o p hp with hold | ⟨-, -, hlt⟩
    · exact (h.allocated o p hold).trans_le hext.words.allocated
    · exact hlt
  unique := by
    intro o o' p hp hp'
    rcases hword o p hp with hold | ⟨rfl, hfresh, -⟩
    · rcases hword o' p hp' with hold' | ⟨-, hfresh, -⟩
      · exact h.unique o o' p hold hold'
      · exact absurd hfresh (h.allocated o p hold).ne
    · rcases hword o' p hp' with hold' | ⟨rfl, -, -⟩
      · exact absurd hfresh (h.allocated o' p hold').ne
      · rfl
  admissions := by
    intro admission hm
    rcases hnew admission hm with hold | hfresh
    · obtain ⟨hwords, use, huse, hlt⟩ := h.admissions admission hold
      exact ⟨fun p hp => (hwords p hp).trans_le hext.words.allocated, use, huse,
        hlt.trans_le hext.flags.allocated⟩
    · exact hfresh
  authorities := by
    intro authority hm
    rcases hminted authority hm with hold | hfresh
    · exact (h.authorities authority hold).mono hext.flags
    · exact hfresh

theorem Owned.keep (h : shop.Owned) (hext : shop.Extends next)
    (hpermits : next.permits = shop.permits) (hauthorities : next.authorities = shop.authorities)
    (hadmissions : next.admissions = shop.admissions) : next.Owned := by
  refine h.mint hext (.permit 0) (fun o p hp => .inl ?_) (fun admission hm => .inl ?_)
    (fun authority hm => .inl ?_)
  · cases o with
    | permit => rwa [word, hpermits] at hp
    | authority => rwa [word, hauthorities] at hp
  · rwa [hadmissions] at hm
  · rwa [hauthorities] at hm

/-! ## Threads -/

end Workshop

/-- The replacement behind a thread that has spent its authority's flag. -/
def Pending.entitled : Pending → Option Replacing
  | .inspect call => some call
  | .write call => some call
  | .publish call => some call
  | _ => none

namespace Workshop

/-- What a thread may rely on before its next access. -/
def Runs (shop : Workshop) : Pending → Prop
  | .lock _ k authority _ _ => shop.authorities[k]? = some authority
  | .spend call => shop.authorities[call.k]? = some call.authority
  | .inspect call => shop.authorities[call.k]? = some call.authority ∧
      ∃ use, call.authority.use = some use ∧ use < shop.atomics.flags.allocated ∧
        shop.atomics.flags.load use = true
  | .write call | .publish call => shop.authorities[call.k]? = some call.authority ∧
      (∃ use, call.authority.use = some use ∧ use < shop.atomics.flags.allocated ∧
        shop.atomics.flags.load use = true) ∧
      ∀ p, call.authority.transition = some p → shop.atomics.words.load p = 0
  | .load call => shop.permits[call.m]? = some call.permit
  | .swap call state => shop.permits[call.m]? = some call.permit ∧ state ≤ 1
  | .close call => shop.permits[call.m]? = some call.permit ∧
      ∀ p, call.permit.transition = some p →
        p < shop.atomics.words.allocated ∧ shop.atomics.words.load p = 3
  | .returned => True

structure Threaded (shop : Workshop) : Prop where
  runs : ∀ (t : Nat) pending, shop.threads[t]? = some pending → shop.Runs pending
  /-- At most one thread is past the flag of an authority. -/
  alone : ∀ (t t' : Nat) pending pending' call call', shop.threads[t]? = some pending →
    shop.threads[t']? = some pending' → pending.entitled = some call →
    pending'.entitled = some call' → call.k = call'.k → t = t'

variable {shop next : Workshop} {pending pending' : Pending} {t : Nat}

theorem getElem?_of_initial {α : Type*} {as bs : List α} (h : as <+: bs) {n : Nat} {a : α}
    (hn : as[n]? = some a) : bs[n]? = some a := by
  obtain ⟨cs, rfl⟩ := h
  rw [List.getElem?_append_left (List.getElem?_eq_some_iff.mp hn).1]
  exact hn

/-- A thread keeps what it relies on when nothing is lost and its word is not published. -/
theorem Runs.mono (h : shop.Runs pending) (hext : shop.Extends next)
    (hzero : ∀ call p, pending.entitled = some call → call.authority.transition = some p →
      shop.atomics.words.load p = 0 → next.atomics.words.load p = 0) : next.Runs pending := by
  have hspent : ∀ use, use < shop.atomics.flags.allocated → shop.atomics.flags.load use = true →
      use < next.atomics.flags.allocated ∧ next.atomics.flags.load use = true := fun use hlt hload =>
    ⟨hlt.trans_le hext.flags.allocated, hext.flags.raised use hlt hload⟩
  cases pending with
  | lock | spend => exact getElem?_of_initial hext.authorities h
  | inspect =>
    obtain ⟨hauthority, use, huse, hlt, hload⟩ := h
    exact ⟨getElem?_of_initial hext.authorities hauthority, use, huse, hspent use hlt hload⟩
  | write call | publish call =>
    obtain ⟨hauthority, ⟨use, huse, hlt, hload⟩, hword⟩ := h
    exact ⟨getElem?_of_initial hext.authorities hauthority, ⟨use, huse, hspent use hlt hload⟩,
      fun p hp => hzero call p rfl hp (hword p hp)⟩
  | load => exact getElem?_of_initial hext.permits h
  | swap => exact ⟨getElem?_of_initial hext.permits h.1, h.2⟩
  | close =>
    refine ⟨getElem?_of_initial hext.permits h.1, fun p hp => ?_⟩
    obtain ⟨hlt, hload⟩ := h.2 p hp
    have hforward := hext.words.forward p hlt
    rw [hload] at hforward
    exact ⟨hlt.trans_le hext.words.allocated, by unfold Forward at hforward; omega⟩
  | returned => trivial

/-- No step but the publication of its own authority moves an unpublished word. -/
def KeepsZero (shop next : Workshop) : Prop :=
  ∀ k p, shop.word (.authority k) = some p → shop.atomics.words.load p = 0 →
    next.atomics.words.load p = 0

theorem Runs.entitled_word (h : shop.Runs pending) {call : Replacing} {p : Nat}
    (he : pending.entitled = some call) (hp : call.authority.transition = some p) :
    shop.word (.authority call.k) = some p := by
  cases pending with
  | lock | spend | load | swap | close | returned => simp [Pending.entitled] at he
  | inspect | write | publish =>
    cases he
    simp only [word, h.1, Option.bind_some, hp]

theorem Runs.entitled_flag (h : shop.Runs pending) {call : Replacing}
    (he : pending.entitled = some call) :
    shop.authorities[call.k]? = some call.authority ∧
      ∃ use, call.authority.use = some use ∧ shop.atomics.flags.load use = true := by
  cases pending with
  | lock | spend | load | swap | close | returned => simp [Pending.entitled] at he
  | inspect =>
    cases he
    obtain ⟨hauthority, use, huse, -, hload⟩ := h
    exact ⟨hauthority, use, huse, hload⟩
  | write | publish =>
    cases he
    obtain ⟨hauthority, ⟨use, huse, -, hload⟩, -⟩ := h
    exact ⟨hauthority, use, huse, hload⟩

theorem Runs.keep (h : shop.Runs pending) (hext : shop.Extends next)
    (hzero : shop.KeepsZero next) : next.Runs pending :=
  h.mono hext fun call p he hp => hzero call.k p (h.entitled_word he hp)

theorem Threaded.keep (h : shop.Threaded) (hext : shop.Extends next) (hzero : shop.KeepsZero next)
    (hthreads : next.threads = shop.threads) : next.Threaded where
  runs := by
    intro t pending ht
    rw [hthreads] at ht
    exact (h.runs t pending ht).keep hext hzero
  alone := by
    rw [hthreads]
    exact h.alone

theorem Threaded.start (h : shop.Threaded) (hruns : shop.Runs pending)
    (hfresh : pending.entitled = none) :
    ({ shop with threads := shop.threads ++ [pending] } : Workshop).Threaded := by
  have hcases : ∀ (t : Nat) other, (shop.threads ++ [pending])[t]? = some other →
      shop.threads[t]? = some other ∨ other = pending := by
    intro t other ht
    rw [List.getElem?_append] at ht
    split_ifs at ht with hlt
    · exact .inl ht
    · rw [List.getElem?_singleton] at ht
      split_ifs at ht
      exact .inr (Option.some.inj ht).symm
  refine ⟨fun t other ht => ?_, fun t t' other other' call call' ht ht' he he' => ?_⟩
  · rcases hcases t other ht with hold | rfl
    · exact h.runs t other hold
    · exact hruns
  · rcases hcases t other ht with hold | rfl
    · rcases hcases t' other' ht' with hold' | rfl
      · exact h.alone t t' other other' call call' hold hold' he he'
      · simp [hfresh] at he'
    · simp [hfresh] at he

/-- One thread goes on; it may become entitled only when no other is with its authority. -/
theorem Threaded.become (h : shop.Threaded) (ht : shop.threads[t]? = some pending)
    (hthreads : next.threads = shop.threads.set t pending')
    (hothers : ∀ (t' : Nat) other, t' ≠ t → shop.threads[t']? = some other → next.Runs other)
    (hnew : next.Runs pending')
    (halone : ∀ call, pending'.entitled = some call → pending.entitled = some call ∨
      ∀ (t' : Nat) other call', t' ≠ t → shop.threads[t']? = some other →
        other.entitled = some call' → call'.k ≠ call.k) : next.Threaded := by
  have hlt := (List.getElem?_eq_some_iff.mp ht).1
  have hcases : ∀ (t' : Nat) other, next.threads[t']? = some other →
      t' = t ∧ other = pending' ∨ t' ≠ t ∧ shop.threads[t']? = some other := by
    intro t' other ht'
    rw [hthreads] at ht'
    by_cases heq : t' = t
    · subst heq
      rw [List.getElem?_set_self hlt, Option.some.injEq] at ht'
      exact .inl ⟨rfl, ht'.symm⟩
    · rw [List.getElem?_set_ne (Ne.symm heq)] at ht'
      exact .inr ⟨heq, ht'⟩
  refine ⟨fun t' other ht' => ?_, fun a b pa pb ca cb ha hb hea heb hk => ?_⟩
  · rcases hcases t' other ht' with ⟨-, rfl⟩ | ⟨hne, hold⟩
    · exact hnew
    · exact hothers t' other hne hold
  · rcases hcases a pa ha with ⟨rfl, rfl⟩ | ⟨hane, hold⟩
    · rcases hcases b pb hb with ⟨rfl, -⟩ | ⟨hbne, hold'⟩
      · rfl
      · rcases halone ca hea with hwas | hfree
        · exact h.alone a b pending pb ca cb ht hold' hwas heb hk
        · exact absurd hk.symm (hfree b pb cb hbne hold' heb)
    · rcases hcases b pb hb with ⟨rfl, rfl⟩ | ⟨hbne, hold'⟩
      · rcases halone cb heb with hwas | hfree
        · exact h.alone a b pa pending ca cb hold ht hea hwas hk
        · exact absurd hk (hfree a pa ca hane hold hea)
      · exact h.alone a b pa pb ca cb hold hold' hea heb hk

end Workshop

end Veer.Reconcile
