import Veer.CapabilityThreads
import Veer.ListHeap

/-!
# Every step keeps words forward and owners apart
-/
namespace Veer.Reconcile

open StepMachine AtomicCells

namespace Workshop

structure Sound (shop : Workshop) : Prop where
  owned : shop.Owned
  threaded : shop.Threaded

/-- What every step does: it loses nothing, keeps the invariant, and moves an unpublished word
only by publishing it. -/
structure SoundStep (shop next : Workshop) (event : WorkEvent) : Prop where
  kept : shop.Extends next
  sound : next.Sound
  published : ∀ k p, shop.word (.authority k) = some p → shop.atomics.words.load p = 0 →
    next.atomics.words.load p = 0 ∨ ∃ token, event = .replaced k token

variable {shop next : Workshop} {event : WorkEvent}

theorem SoundStep.of_keepsZero (hext : shop.Extends next) (howned : next.Owned)
    (hthreaded : next.Threaded) (hzero : shop.KeepsZero next) : SoundStep shop next event :=
  ⟨hext, ⟨howned, hthreaded⟩, fun k p hp hload => .inl (hzero k p hp hload)⟩

theorem Sound.stays (h : shop.Sound) : SoundStep shop shop event :=
  .of_keepsZero (Extends.refl shop) h.owned h.threaded fun _ _ _ hload => hload

theorem extends_of_atomics (hpermits : next.permits = shop.permits)
    (hadmissions : next.admissions = shop.admissions)
    (hauthorities : next.authorities = shop.authorities)
    (hflags : Rises shop.atomics.flags next.atomics.flags)
    (hwords : Advances shop.atomics.words next.atomics.words) : shop.Extends next := by
  refine ⟨?_, ?_, ?_, hflags, hwords⟩
  · rw [hpermits]
  · rw [hadmissions]
  · rw [hauthorities]

/-! ## Unpublished words -/

theorem keepsZero_of_eq (h : next.atomics.words = shop.atomics.words) : shop.KeepsZero next := by
  intro k p _ hload
  rwa [h]

theorem keepsZero_alloc (howned : shop.Owned)
    (h : next.atomics.words = shop.atomics.words.alloc.1) : shop.KeepsZero next := by
  intro k p hp hload
  rw [h, load_alloc_of_lt _ (howned.allocated _ p hp)]
  exact hload

theorem keepsZero_permit (howned : shop.Owned) {m q w : Nat} (hq : shop.word (.permit m) = some q)
    (h : next.atomics.words = shop.atomics.words.store q w) : shop.KeepsZero next := by
  intro k p hp hload
  have hne : p ≠ q := by
    rintro rfl
    exact Owner.noConfusion (howned.unique _ _ p hp hq)
  rw [h, load_store_ne _ _ hne]
  exact hload

theorem keepsZero_open {q w : Nat} (hq : shop.atomics.words.load q = 1)
    (h : next.atomics.words = shop.atomics.words.store q w) : shop.KeepsZero next := by
  intro k p _ hload
  have hne : p ≠ q := by
    rintro rfl
    omega
  rw [h, load_store_ne _ _ hne]
  exact hload

/-! ## One access of a thread -/

section Resume

variable {t : Nat} {pending pending' : Pending}

/-- The thread goes on and the pools stay. -/
structure GoesOn (shop next : Workshop) (t : Nat) (pending' : Pending) : Prop where
  permits : next.permits = shop.permits
  admissions : next.admissions = shop.admissions
  authorities : next.authorities = shop.authorities
  threads : next.threads = shop.threads.set t pending'

/-- A thread becomes entitled only when no other thread is with its authority. -/
def Entitles (shop : Workshop) (t : Nat) (pending pending' : Pending) : Prop :=
  ∀ call, pending'.entitled = some call → pending.entitled = some call ∨
    ∀ (t' : Nat) other call', t' ≠ t → shop.threads[t']? = some other →
      other.entitled = some call' → call'.k ≠ call.k

theorem Sound.goesOn (h : shop.Sound) (ht : shop.threads[t]? = some pending)
    (hgoes : shop.GoesOn next t pending')
    (hflags : Rises shop.atomics.flags next.atomics.flags)
    (hwords : Advances shop.atomics.words next.atomics.words) (hzero : shop.KeepsZero next)
    (hnew : next.Runs pending') (halone : shop.Entitles t pending pending') :
    SoundStep shop next event := by
  have hext := extends_of_atomics hgoes.permits hgoes.admissions hgoes.authorities hflags hwords
  refine .of_keepsZero hext
    (h.owned.keep hext hgoes.permits hgoes.authorities hgoes.admissions) ?_ hzero
  refine h.threaded.become ht hgoes.threads (fun t' other _ hother => ?_) hnew halone
  exact (h.threaded.runs t' other hother).keep hext hzero

theorem Sound.reads (h : shop.Sound) (ht : shop.threads[t]? = some pending)
    (hgoes : shop.GoesOn next t pending') (hatomics : next.atomics = shop.atomics)
    (hnew : next.Runs pending') (halone : shop.Entitles t pending pending') :
    SoundStep shop next event := by
  refine h.goesOn ht hgoes ?_ ?_ ?_ hnew halone
  · rw [hatomics]
    exact Rises.refl _
  · rw [hatomics]
    exact Advances.refl _
  · exact keepsZero_of_eq (by rw [hatomics])

/-- The flag of a live authority was down, so no thread is past it. -/
theorem Sound.spends (h : shop.Sound) {call : Replacing} {use : Nat}
    (hcall : shop.authorities[call.k]? = some call.authority)
    (huse : call.authority.use = some use) (hload : shop.atomics.flags.load use = false) :
    shop.Entitles t (.spend call) (.inspect call) := by
  intro _ he
  cases he
  right
  intro t' other call' _ hother he' hk
  obtain ⟨hcall', use', huse', hload'⟩ := (h.threaded.runs t' other hother).entitled_flag he'
  rw [hk, hcall, Option.some.injEq] at hcall'
  rw [← hcall', huse, Option.some.injEq] at huse'
  rw [← huse', hload] at hload'
  simp at hload'

theorem Sound.publishes (h : shop.Sound) {call : Replacing}
    (ht : shop.threads[t]? = some (.publish call)) (hgoes : shop.GoesOn next t .returned)
    (hatomics : next.atomics = publishReplacement call.authority shop.atomics)
    (token : LeaseToken) : SoundStep shop next (.replaced call.k token) := by
  obtain ⟨hcall, -, hword⟩ := h.threaded.runs t _ ht
  have hflags : Rises shop.atomics.flags next.atomics.flags := by
    rw [hatomics, publishReplacement_flags]
    exact Rises.refl _
  cases htransition : call.authority.transition with
  | none =>
    have hwords : next.atomics.words = shop.atomics.words := by
      rw [hatomics, publishReplacement, htransition]
    refine h.goesOn ht hgoes hflags ?_ (keepsZero_of_eq hwords) trivial ?_
    · rw [hwords]
      exact Advances.refl _
    · intro _ he
      simp [Pending.entitled] at he
  | some q =>
    have hwords : next.atomics.words = shop.atomics.words.store q 1 := by
      rw [hatomics, publishReplacement, htransition]
    have hadvances : Advances shop.atomics.words next.atomics.words := by
      rw [hwords]
      exact advances_store _ q (.inr (.inl (hword q htransition)))
    have hext := extends_of_atomics hgoes.permits hgoes.admissions hgoes.authorities hflags
      hadvances
    have howner := (h.threaded.runs t _ ht).entitled_word rfl htransition
    refine ⟨hext, ⟨h.owned.keep hext hgoes.permits hgoes.authorities hgoes.admissions, ?_⟩,
      fun k p hp hload => ?_⟩
    swap
    · by_cases hpq : p = q
      · subst hpq
        obtain rfl := Owner.authority.inj (h.owned.unique _ _ p hp howner)
        exact .inr ⟨token, rfl⟩
      · rw [hwords, load_store_ne _ _ hpq]
        exact .inl hload
    refine h.threaded.become ht hgoes.threads (fun t' other hne hother => ?_) trivial ?_
    · have hruns := h.threaded.runs t' other hother
      refine hruns.mono hext fun call' p he hp hload => ?_
      -- another thread past its flag holds another authority, hence another word
      have hpq : p ≠ q := by
        rintro rfl
        have hsame := h.owned.unique _ _ p (hruns.entitled_word he hp) howner
        exact hne (h.threaded.alone t' t other _ call' call hother ht he rfl
          (Owner.authority.inj hsame))
      rw [hwords, load_store_ne _ _ hpq]
      exact hload
    · intro _ he
      simp [Pending.entitled] at he

theorem not_entitled {pending pending' : Pending} (h : pending'.entitled = none) :
    shop.Entitles t pending pending' := by
  intro call he
  simp [h] at he

theorem resume_sound (h : shop.Sound) (ht : shop.threads[t]? = some pending) :
    SoundStep shop (shop.resume t pending).1 (shop.resume t pending).2 := by
  have hruns := h.threaded.runs t pending ht
  fun_cases Workshop.resume shop t pending
  case case1 | case18 => exact h.stays
  case case2 | case7 | case10 | case11 | case13 =>
    exact h.reads ht ⟨rfl, rfl, rfl, rfl⟩ rfl trivial (not_entitled rfl)
  case case3 => exact h.reads ht ⟨rfl, rfl, rfl, rfl⟩ rfl hruns (not_entitled rfl)
  case case4 hspend =>
    obtain ⟨use, huse, hload, rfl⟩ := spendFlag_true hspend
    refine h.goesOn ht ⟨rfl, rfl, rfl, rfl⟩ (rises_store _ _) (Advances.refl _)
      (keepsZero_of_eq rfl) ⟨hruns, use, huse, ?_, load_store_self _ _ _⟩
      (h.spends hruns huse hload)
    obtain ⟨use', huse', hlt⟩ := h.owned.authorities _ (List.mem_of_getElem? hruns)
    rw [huse, Option.some.injEq] at huse'
    exact huse' ▸ hlt
  case case5 hspend =>
    obtain rfl := spendFlag_false hspend
    exact h.reads ht ⟨rfl, rfl, rfl, rfl⟩ rfl trivial (not_entitled rfl)
  case case6 hunpublished =>
    refine h.reads ht ⟨rfl, rfl, rfl, rfl⟩ rfl ⟨hruns.1, hruns.2, fun p hp => ?_⟩ fun _ he => .inl he
    have hload : shop.atomics.words.load p = 0 := by
      simpa [LeaseReplacementAuthority.unpublished, hp] using hunpublished
    exact hload
  case case8 => exact h.reads ht ⟨rfl, rfl, rfl, rfl⟩ rfl hruns fun _ he => .inl he
  case case9 =>
    refine h.publishes ht ?_ ?_ _
    · exact ⟨rfl, rfl, rfl, rfl⟩
    · rfl
  case case12 hstate =>
    refine h.reads ht ⟨rfl, rfl, rfl, rfl⟩ rfl ⟨hruns, ?_⟩ (not_entitled rfl)
    simp only [observationReserved, observationAdmitted] at hstate
    omega
  case case14 call state p hp words hswap =>
    obtain ⟨hload, rfl⟩ := compareAndSwap_success hswap
    have howner : shop.word (.permit call.m) = some p := by
      simp only [word, hruns.1, Option.bind_some, hp]
    have hstate := hruns.2
    refine h.goesOn ht ⟨rfl, rfl, rfl, rfl⟩ (Rises.refl _) (advances_store _ p ?_)
      (keepsZero_permit h.owned howner rfl) ⟨hruns.1, fun q hq => ?_⟩ (not_entitled rfl)
    · simp only [Forward, observationReleased]
      omega
    · rw [hp, Option.some.injEq] at hq
      subst hq
      exact ⟨h.owned.allocated _ p howner, load_store_self _ _ _⟩
  case case15 => exact h.reads ht ⟨rfl, rfl, rfl, rfl⟩ rfl hruns.1 (not_entitled rfl)
  case case16 hadvance | case17 hadvance =>
    obtain ⟨hflags, hwords⟩ := advance_cells hadvance
    refine h.goesOn ht ⟨rfl, rfl, rfl, rfl⟩ hflags ?_ (keepsZero_of_eq hwords) trivial
      (not_entitled rfl)
    exact hwords ▸ Advances.refl _

end Resume

/-! ## One step -/

variable {atomics : Atomics}

theorem Sound.moves (h : shop.Sound) (hflags : Rises shop.atomics.flags atomics.flags)
    (hwords : Advances shop.atomics.words atomics.words)
    (hzero : shop.KeepsZero (shop.withAtomics atomics)) :
    SoundStep shop (shop.withAtomics atomics) event := by
  have hext : shop.Extends (shop.withAtomics atomics) :=
    extends_of_atomics rfl rfl rfl hflags hwords
  exact .of_keepsZero hext (h.owned.keep hext rfl rfl rfl) (h.threaded.keep hext hzero rfl) hzero

section Steps

variable [Sha256]

theorem reserve_sound (h : shop.Sound) {budget after : ObservationBudget} {reservedAt : Int}
    {permit : ObservationPermit}
    (hreserve : reserveObservation shop.atomics budget reservedAt = (atomics, .ok (after, permit)))
    (hnext : next = { shop with atomics := atomics, permits := shop.permits ++ [permit] }) :
    SoundStep shop next event := by
  obtain ⟨hflags, hwords, hpermit⟩ := reserveObservation_mints hreserve
  subst hnext
  have hext : shop.Extends { shop with atomics := atomics, permits := shop.permits ++ [permit] } :=
    ⟨List.prefix_append _ _, List.prefix_rfl, List.prefix_rfl, hflags,
      hwords ▸ advances_alloc _⟩
  refine .of_keepsZero hext ?_ (h.threaded.keep hext (keepsZero_alloc h.owned hwords) rfl)
    (keepsZero_alloc h.owned hwords)
  refine h.owned.mint hext (.permit shop.permits.length) (fun o p hp => ?_)
    (fun _ hm => .inl hm) (fun _ hm => .inl hm)
  cases o with
  | authority => exact .inl hp
  | permit =>
    obtain ⟨minted, hm, hminted⟩ := Option.bind_eq_some_iff.mp hp
    rcases ListHeap.getElem?_concat_eq_some.mp hm with hold | ⟨rfl, rfl⟩
    · exact .inl (Option.bind_eq_some_iff.mpr ⟨minted, hold, hminted⟩)
    rw [hpermit, Option.some.injEq] at hminted
    refine .inr ⟨rfl, hminted.symm, ?_⟩
    rw [← hminted, hwords]
    exact Nat.lt_succ_self _

variable {input : AttemptAdmissionInput}

omit [Sha256] in
theorem withPermit_word {used : AttemptAdmissionInput} {permit : Option Nat}
    {value : ObservationPermit} {p : Nat} (hused : shop.withPermit input permit = some used)
    (hvalue : used.observation = some value) (hp : value.transition = some p) :
    ∃ m, permit = some m ∧ shop.word (.permit m) = some p := by
  cases permit with
  | none =>
    cases hused
    simp at hvalue
  | some m =>
    obtain ⟨found, hm, rfl⟩ := Option.map_eq_some_iff.mp hused
    obtain rfl := Option.some.inj hvalue
    exact ⟨m, rfl, Option.bind_eq_some_iff.mpr ⟨found, hm, hp⟩⟩

variable {admission : AttemptAdmission}

theorem admit_sound (h : shop.Sound) {used : AttemptAdmissionInput} {permit : Option Nat}
    (hused : shop.withPermit input permit = some used)
    (hadm : newAttemptAdmission shop.atomics used = (atomics, .ok admission))
    (hnext : next = { shop with
      atomics := atomics
      admissions := shop.admissions ++ [admission] }) :
    SoundStep shop next event := by
  have hadmits := newAttemptAdmission_ok hadm
  have hflags : Rises shop.atomics.flags atomics.flags := hadmits.flags ▸ rises_alloc _
  have huse : ∃ use, admission.use = some use ∧ use < atomics.flags.allocated := by
    refine ⟨_, hadmits.use, ?_⟩
    rw [hadmits.flags]
    exact Nat.lt_succ_self _
  have hword : admission.word = admission.observationTransition := by
    rw [AttemptAdmission.word, hadmits.replacement, Option.none_or]
  subst hnext
  have hkeep : ∀ (hwords : Advances shop.atomics.words atomics.words)
      (_ : ∀ p, admission.word = some p → p < atomics.words.allocated)
      (_ : shop.KeepsZero
        { shop with atomics := atomics, admissions := shop.admissions ++ [admission] }),
      SoundStep shop
        { shop with atomics := atomics, admissions := shop.admissions ++ [admission] } event := by
    intro hwords hallocated hzero
    have hext : shop.Extends
        { shop with atomics := atomics, admissions := shop.admissions ++ [admission] } :=
      ⟨List.prefix_rfl, List.prefix_append _ _, List.prefix_rfl, hflags, hwords⟩
    refine .of_keepsZero hext (h.owned.mint hext (.permit 0) (fun o p hp => .inl ?_)
      (fun a hm => ?_) (fun _ hm => .inl hm)) (h.threaded.keep hext hzero rfl) hzero
    · cases o <;> exact hp
    · rcases List.mem_append.mp hm with hold | hnew
      · exact .inl hold
      · rw [List.mem_singleton.mp hnew]
        exact .inr ⟨hallocated, huse⟩
  rcases hadmits.words with ⟨-, -, hnone, hwords⟩ | ⟨value, p, -, hvalue, hp, hobs, hload, hwords⟩
  · refine hkeep (hwords ▸ Advances.refl _) (fun p hp => ?_) (keepsZero_of_eq hwords)
    rw [hword, hnone] at hp
    exact absurd hp (by simp)
  · obtain ⟨m, -, howner⟩ := withPermit_word hused hvalue hp
    refine hkeep (hwords ▸ advances_store _ p (.inr (.inl hload))) (fun q hq => ?_)
      (keepsZero_permit h.owned howner hwords)
    rw [hword, hobs, Option.some.injEq] at hq
    rw [← hq, hwords]
    exact h.owned.allocated _ p howner

theorem select_sound (h : shop.Sound) {current candidate plan : Plan} {attempts : List Attempt}
    {effects : List EffectProjection} {fresh : Bool} {proofs : List CompensationProof}
    {selection : PlanSelection} {authority : LeaseReplacementAuthority}
    (hselect : selectPlan shop.atomics current candidate attempts effects fresh proofs =
      (atomics, .ok (plan, selection, some authority)))
    (hnext : next = { shop with
      atomics := atomics
      authorities := shop.authorities ++ [authority] }) : SoundStep shop next event := by
  have hmints := selectPlan_mints shop.atomics current candidate attempts effects fresh proofs
  have hwords := selectPlan_words hselect
  rw [hselect] at hmints
  subst hnext
  have hext : shop.Extends
      { shop with atomics := atomics, authorities := shop.authorities ++ [authority] } :=
    ⟨List.prefix_rfl, List.prefix_rfl, List.prefix_append _ _, hmints.rises,
      hwords ▸ Advances.refl _⟩
  refine .of_keepsZero hext ?_ (h.threaded.keep hext (keepsZero_of_eq hwords) rfl)
    (keepsZero_of_eq hwords)
  refine h.owned.mint hext (.permit 0) (fun o p hp => .inl ?_) (fun _ hm => .inl hm)
    (fun a hm => ?_)
  · cases o with
    | permit => exact hp
    | authority =>
      obtain ⟨minted, hk, hminted⟩ := Option.bind_eq_some_iff.mp hp
      rcases ListHeap.getElem?_concat_eq_some.mp hk with hold | ⟨rfl, rfl⟩
      · exact Option.bind_eq_some_iff.mpr ⟨minted, hold, hminted⟩
      · rw [selectPlan_transition hselect] at hminted
        exact absurd hminted (by simp)
  · rcases List.mem_append.mp hm with hold | hnew
    · exact .inl hold
    · rw [List.mem_singleton.mp hnew]
      exact .inr (hmints.allocated authority rfl)

theorem pair_sound (h : shop.Sound) {current candidate : Plan}
    {authority : LeaseReplacementAuthority}
    (hpair : authorizeGenerationReplacement shop.atomics current candidate input =
      (atomics, .ok (authority, admission)))
    (hnext : next = { shop with
      atomics := atomics
      authorities := shop.authorities ++ [authority]
      admissions := shop.admissions ++ [admission] }) : SoundStep shop next event := by
  have hpairs := authorizeGenerationReplacement_ok hpair
  have hwords : next.atomics.words = shop.atomics.words.alloc.1 := by
    rw [hnext]
    exact hpairs.words
  have hlt : shop.atomics.words.allocated < next.atomics.words.allocated := by
    rw [hwords]
    exact Nat.lt_succ_self _
  subst hnext
  have hext : shop.Extends
      { shop with
        atomics := atomics, authorities := shop.authorities ++ [authority],
        admissions := shop.admissions ++ [admission] } :=
    ⟨List.prefix_rfl, List.prefix_append _ _, List.prefix_append _ _, hpairs.rises,
      hpairs.words ▸ advances_alloc _⟩
  refine .of_keepsZero hext ?_ (h.threaded.keep hext (keepsZero_alloc h.owned hwords) rfl)
    (keepsZero_alloc h.owned hwords)
  refine h.owned.mint hext (.authority shop.authorities.length) (fun o p hp => ?_)
    (fun a hm => ?_) (fun a hm => ?_)
  · cases o with
    | permit => exact .inl hp
    | authority =>
      obtain ⟨minted, hk, hminted⟩ := Option.bind_eq_some_iff.mp hp
      rcases ListHeap.getElem?_concat_eq_some.mp hk with hold | ⟨rfl, rfl⟩
      · exact .inl (Option.bind_eq_some_iff.mpr ⟨minted, hold, hminted⟩)
      · rw [hpairs.transition, Option.some.injEq] at hminted
        exact .inr ⟨rfl, hminted.symm, hminted ▸ hlt⟩
  · rcases List.mem_append.mp hm with hold | hnew
    · exact .inl hold
    · rw [List.mem_singleton.mp hnew]
      refine .inr ⟨fun p hp => ?_, hpairs.use⟩
      rw [AttemptAdmission.word, hpairs.replacement, Option.some_or, Option.some.injEq] at hp
      exact hp ▸ hlt
  · rcases List.mem_append.mp hm with hold | hnew
    · exact .inl hold
    · rw [List.mem_singleton.mp hnew]
      exact .inr hpairs.used

omit [Sha256] in
theorem prepare_sound (h : shop.Sound) (hspends : Spends shop.atomics admission atomics) :
    SoundStep shop (shop.withAtomics atomics) event := by
  cases hspends with
  | word _ hload =>
    refine h.moves (Rises.refl _) (advances_store _ _ ?_) (keepsZero_open hload rfl)
    exact .inr (.inr ⟨hload, le_rfl⟩)
  | flag => exact h.moves (rises_store _ _) (Advances.refl _) (keepsZero_of_eq rfl)

omit [Sha256] in
theorem Sound.start (h : shop.Sound) {pending : Pending} (hruns : shop.Runs pending)
    (hfresh : pending.entitled = none) :
    SoundStep shop { shop with threads := shop.threads ++ [pending] } event := by
  have hext : shop.Extends { shop with threads := shop.threads ++ [pending] } :=
    extends_of_atomics rfl rfl rfl (Rises.refl _) (Advances.refl _)
  exact .of_keepsZero hext (h.owned.keep hext rfl rfl rfl) (h.threaded.start hruns hfresh)
    (keepsZero_of_eq rfl)

theorem work_sound (h : shop.Sound) (call : WorkCall) :
    SoundStep shop (workStep shop call).1 (workStep shop call).2 := by
  have hstay : ∀ atomics, atomics = shop.atomics →
      SoundStep shop (shop.withAtomics atomics) .silent := by
    rintro atomics rfl
    exact h.stays
  fun_cases workStep shop call
  case case1 hreserve => exact hstay _ (reserveObservation_refuses hreserve)
  case case2 hreserve => exact reserve_sound h hreserve rfl
  case case4 hadm => exact hstay _ (newAttemptAdmission_error hadm)
  case case5 hused _ _ hadm => exact admit_sound h hused hadm rfl
  case case6 hselect => exact select_sound h hselect rfl
  case case7 current candidate attempts effects fresh proofs after _ _ hselect =>
    have hwords := selectPlan_words hselect
    have hmints := selectPlan_mints shop.atomics current candidate attempts effects fresh proofs
    rw [hselect] at hmints
    exact h.moves hmints.rises (hwords ▸ Advances.refl _) (keepsZero_of_eq hwords)
  case case9 hpair =>
    obtain ⟨hflags, hwords | hwords⟩ := authorizeGenerationReplacement_error hpair
    · exact h.moves hflags (hwords ▸ Advances.refl _) (keepsZero_of_eq hwords)
    · exact h.moves hflags (hwords ▸ advances_alloc _) (keepsZero_alloc h.owned hwords)
  case case10 hpair => exact pair_sound h hpair rfl
  case case12 hprepare => exact hstay _ (newPreparedAttempt_error hprepare)
  case case13 hprepare => exact prepare_sound h (newPreparedAttempt_ok hprepare).1
  case case15 hauthority => exact h.start hauthority rfl
  case case16 hpermit _ => exact h.start hpermit rfl
  case case20 ht => exact resume_sound h ht
  case case21 i after =>
    split_ifs
    · exact h.stays
    have hext : shop.Extends (shop.setTable i after) :=
      extends_of_atomics rfl rfl rfl (Rises.refl _) (Advances.refl _)
    exact .of_keepsZero hext (h.owned.keep hext rfl rfl rfl)
      (h.threaded.keep hext (keepsZero_of_eq rfl) rfl) (keepsZero_of_eq rfl)
  all_goals exact h.stays

end Steps

end Workshop

end Veer.Reconcile
