import Veer.CapabilitySound

/-!
# Capabilities are linear

Every word of a permit or of a replacement has one owner, and goes forward only: `0`, then
`1`, then a final value. All uniqueness results follow from that and from the flags, which only
rise.
-/
namespace Veer.Reconcile

open StepMachine AtomicCells

variable {n : Nat}

namespace Workshop

variable {shop : Workshop}

/-! ## What an event tells -/

theorem resume_event (shop : Workshop) (t : Nat) (pending : Pending) :
    (shop.resume t pending).2 = .silent ∨
      (∃ k token, (shop.resume t pending).2 = .replaced k token) ∨
      ∃ call budget, pending = .close call ∧
        (shop.resume t pending).2 = .released call.m budget := by
  fun_cases Workshop.resume shop t pending
  case case9 => exact .inr (.inl ⟨_, _, rfl⟩)
  case case17 => exact .inr (.inr ⟨_, _, rfl, rfl⟩)
  all_goals exact .inl rfl

section Events

variable [Sha256] {next : Workshop} {call : WorkCall}

theorem prepared_event {attempt : Attempt} (h : workStep shop call = (next, .prepared n attempt)) :
    ∃ admission, shop.admissions[n]? = some admission ∧
      Spends shop.atomics admission next.atomics := by
  revert h
  fun_cases workStep shop call
  case case13 hn _ _ hprepare =>
    rintro ⟨⟩
    exact ⟨_, hn, (newPreparedAttempt_ok hprepare).1⟩
  case case20 t pending ht =>
    intro h
    rcases resume_event shop t pending with hs | ⟨k, token, hs⟩ | ⟨call, budget, -, hs⟩
    all_goals simp [h] at hs
  all_goals simp

theorem admitted_event {m : Nat} (h : workStep shop call = (next, .admitted (some m) n)) :
    ∃ p admission, shop.word (.permit m) = some p ∧ shop.atomics.words.load p = 0 ∧
      next.atomics.words.load p = 1 ∧ shop.admissions.length = n ∧
      next.admissions[n]? = some admission ∧ admission.word = some p := by
  revert h
  fun_cases workStep shop call
  case case5 permit used hused after admission hadm =>
    rintro ⟨⟩
    have hadmits := newAttemptAdmission_ok hadm
    obtain ⟨permit, hpermit, rfl⟩ := Option.map_eq_some_iff.mp hused
    rcases hadmits.words with ⟨-, hnone, -⟩ | ⟨value, p, -, hvalue, hp, hobs, hload, hwords⟩
    · simp at hnone
    refine ⟨p, admission, ?_, hload, ?_, rfl, by simp, ?_⟩
    · obtain ⟨_, hm, howner⟩ := withPermit_word hused hvalue hp
      rwa [← Option.some.inj hm] at howner
    · rw [hwords, load_store_self]
    · rw [AttemptAdmission.word, hadmits.replacement, Option.none_or, hobs]
  case case20 t pending ht =>
    intro h
    rcases resume_event shop t pending with hs | ⟨k, token, hs⟩ | ⟨call, budget, -, hs⟩
    all_goals simp [h] at hs
  all_goals simp

theorem paired_event {k : Nat} (h : workStep shop call = (next, .paired k n)) :
    ∃ p admission, next.word (.authority k) = some p ∧ next.atomics.words.load p = 0 ∧
      shop.admissions.length = n ∧ next.admissions[n]? = some admission ∧
      admission.word = some p := by
  revert h
  fun_cases workStep shop call
  case case10 admission hpair =>
    rintro ⟨⟩
    have hpairs := authorizeGenerationReplacement_ok hpair
    refine ⟨shop.atomics.words.allocated, admission, ?_, ?_, rfl, by simp, ?_⟩
    · simp [word, hpairs.transition]
    · rw [hpairs.words]
      exact load_alloc_self _
    · simp [AttemptAdmission.word, hpairs.replacement]
  case case20 t pending ht =>
    intro h
    rcases resume_event shop t pending with hs | ⟨k, token, hs⟩ | ⟨call, budget, -, hs⟩
    all_goals simp [h] at hs
  all_goals simp

theorem released_event (hsound : shop.Sound) {m : Nat} {budget : ObservationBudget}
    (h : workStep shop call = (next, .released m budget)) :
    ∃ permit, shop.permits[m]? = some permit ∧ ∀ p, permit.transition = some p →
      p < shop.atomics.words.allocated ∧ shop.atomics.words.load p = 3 := by
  revert h
  fun_cases workStep shop call
  case case20 t pending ht =>
    intro h
    rcases resume_event shop t pending with hs | ⟨k, token, hs⟩ | ⟨call, _, rfl, hs⟩
    · simp [h] at hs
    · simp [h] at hs
    · rw [h, WorkEvent.released.injEq] at hs
      obtain ⟨rfl, -⟩ := hs
      exact ⟨call.permit, hsound.threaded.runs t _ ht⟩
  all_goals simp

end Events

end Workshop

/-! ## Whole runs -/

def WorkEvent.Prepares (n : Nat) (event : WorkEvent) : Prop :=
  ∃ attempt, event = .prepared n attempt

def WorkEvent.Replaces (k : Nat) (event : WorkEvent) : Prop :=
  ∃ token, event = .replaced k token

def WorkEvent.Admits (m : Nat) (event : WorkEvent) : Prop :=
  ∃ n, event = .admitted (some m) n

def WorkEvent.Releases (m : Nat) (event : WorkEvent) : Prop :=
  ∃ budget, event = .released m budget

/-- What the one-use cells promise over the record of a run. -/
structure CapabilitiesLinear (run : List WorkEntry) : Prop where
  /-- All copies of one admission prepare at most one attempt. -/
  preparedOnce : ∀ (a b n : Nat) (e e' : WorkEntry), a < b → run[a]? = some e →
    run[b]? = some e' → e.output.Prepares n → ¬ e'.output.Prepares n
  /-- An admission minted with a replacement authority is used only after the replacement. -/
  preparedAfterReplacement : ∀ (a b k n : Nat) (e e' : WorkEntry), run[a]? = some e →
    run[b]? = some e' → e.output = .paired k n → e'.output.Prepares n →
    ∃ (c : Nat) (e'' : WorkEntry), a < c ∧ c < b ∧ run[c]? = some e'' ∧ e''.output.Replaces k
  /-- All copies of one permit are admitted at most once. -/
  admittedOnce : ∀ (a b m : Nat) (e e' : WorkEntry), a < b → run[a]? = some e →
    run[b]? = some e' → e.output.Admits m → ¬ e'.output.Admits m
  /-- A permit is either prepared from or released. -/
  preparedOrReleased : ∀ (a b c m n : Nat) (e e' e'' : WorkEntry), run[a]? = some e →
    run[b]? = some e' → run[c]? = some e'' → e.output = .admitted (some m) n →
    e'.output.Prepares n → ¬ e''.output.Releases m

variable {admission : AttemptAdmission}

theorem Spends.word_closed {atomics after : Atomics} {p : Nat} (h : Spends atomics admission after)
    (hp : admission.word = some p) : atomics.words.load p = 1 ∧ after.words.load p = 2 := by
  cases h with
  | word hq hload =>
    rw [hp, Option.some.injEq] at hq
    subst hq
    exact ⟨hload, load_store_self _ _ _⟩
  | flag hnone => simp [hp] at hnone

theorem Spends.flag_raised {atomics after : Atomics} (h : Spends atomics admission after)
    (hp : admission.word = none) {use : Nat} (huse : admission.use = some use) :
    atomics.flags.load use = false ∧ after.flags.load use = true := by
  cases h with
  | word hq => simp [hp] at hq
  | flag _ hq hload =>
    rw [huse, Option.some.injEq] at hq
    subst hq
    exact ⟨hload, load_store_self _ _ _⟩

theorem Spends.not_again {a b c d : Atomics} (hfirst : Spends a admission b)
    (hsecond : Spends c admission d) (hflags : Rises b.flags c.flags)
    (hwords : Advances b.words c.words)
    (hword : ∀ p, admission.word = some p → p < b.words.allocated)
    (huse : ∃ use, admission.use = some use ∧ use < b.flags.allocated) : False := by
  cases hw : admission.word with
  | some p =>
    have hforward := hwords.forward p (hword p hw)
    rw [(hfirst.word_closed hw).2, (hsecond.word_closed hw).1] at hforward
    simp [Forward] at hforward
  | none =>
    obtain ⟨use, hu, hlt⟩ := huse
    have hraised := hflags.raised use hlt (hfirst.flag_raised hw hu).2
    rw [(hsecond.flag_raised hw hu).1] at hraised
    simp at hraised

structure Workshop.Initial (shop : Workshop) : Prop where
  permits : shop.permits = []
  admissions : shop.admissions = []
  authorities : shop.authorities = []
  threads : shop.threads = []

theorem Workshop.Initial.sound {shop : Workshop} (h : shop.Initial) : shop.Sound := by
  have hword : ∀ o, shop.word o = none := by
    intro o
    cases o with
    | permit => simp [Workshop.word, h.permits]
    | authority => simp [Workshop.word, h.authorities]
  refine ⟨⟨?_, ?_, ?_, ?_⟩, ⟨?_, ?_⟩⟩
  · simp [hword]
  · simp [hword]
  · simp [h.admissions]
  · simp [h.authorities]
  · simp [h.threads]
  · simp [h.threads]

theorem Workshop.Extends.word {shop next : Workshop} (h : shop.Extends next) {o : Owner} {p : Nat}
    (hp : shop.word o = some p) : next.word o = some p := by
  cases o with
  | permit =>
    obtain ⟨permit, hm, htransition⟩ := Option.bind_eq_some_iff.mp hp
    exact Option.bind_eq_some_iff.mpr
      ⟨permit, Workshop.getElem?_of_initial h.permits hm, htransition⟩
  | authority =>
    obtain ⟨authority, hk, htransition⟩ := Option.bind_eq_some_iff.mp hp
    exact Option.bind_eq_some_iff.mpr
      ⟨authority, Workshop.getElem?_of_initial h.authorities hk, htransition⟩

section Runs

variable [Sha256] {shop : Workshop} {calls : List WorkCall}

variable {e : WorkEntry}

theorem work_entry (h : shop.Sound) (he : e ∈ workMachine.trace shop calls) :
    e.before.Sound ∧ workStep e.before e.input = (e.after, e.output) := by
  obtain ⟨hbefore, hentry⟩ := trace_invariant workMachine (P := Workshop.Sound)
    (fun _ call h => (Workshop.work_sound h call).sound) h he
  refine ⟨hbefore, ?_⟩
  rw [hentry]
  rfl

theorem exec_extends (h : shop.Sound) (calls : List WorkCall) :
    shop.Extends (workMachine.exec shop calls) :=
  exec_relation workMachine (P := Workshop.Sound) (R := Workshop.Extends) Workshop.Extends.refl
    (fun _ _ _ => Workshop.Extends.trans) (fun _ call h => (Workshop.work_sound h call).sound)
    (fun _ call h => (Workshop.work_sound h call).kept) h calls

theorem after_sound (h : shop.Sound) (he : e ∈ workMachine.trace shop calls) :
    e.before.Extends e.after ∧ e.after.Sound := by
  obtain ⟨hbefore, hstep⟩ := work_entry h he
  have hsound := Workshop.work_sound hbefore e.input
  rw [hstep] at hsound
  exact ⟨hsound.kept, hsound.sound⟩

variable {a b : Nat} {e' : WorkEntry}

theorem extends_between (h : shop.Sound) (hab : a < b)
    (ha : (workMachine.trace shop calls)[a]? = some e)
    (hb : (workMachine.trace shop calls)[b]? = some e') : e.after.Extends e'.before := by
  obtain ⟨mid, hmid, -⟩ := trace_between workMachine hab ha hb
  rw [hmid]
  exact exec_extends (after_sound h (List.mem_of_getElem? ha)).2 mid

theorem entry_prepared (h : shop.Sound) (he : e ∈ workMachine.trace shop calls)
    (hn : e.output.Prepares n) :
    ∃ admission, e.before.admissions[n]? = some admission ∧
      Spends e.before.atomics admission e.after.atomics := by
  obtain ⟨attempt, hattempt⟩ := hn
  have hstep := (work_entry h he).2
  rw [hattempt] at hstep
  exact Workshop.prepared_event hstep

theorem extends_before (h : shop.Sound) (hab : a < b)
    (ha : (workMachine.trace shop calls)[a]? = some e)
    (hb : (workMachine.trace shop calls)[b]? = some e') : e.before.Extends e'.before :=
  (after_sound h (List.mem_of_getElem? ha)).1.trans (extends_between h hab ha hb)

theorem admission_stays (h : shop.Sound) (hab : a < b)
    (ha : (workMachine.trace shop calls)[a]? = some e)
    (hb : (workMachine.trace shop calls)[b]? = some e') {first second : AttemptAdmission}
    (hfirst : e.after.admissions[n]? = some first)
    (hsecond : e'.before.admissions[n]? = some second) : first = second := by
  have hstays := Workshop.getElem?_of_initial (extends_between h hab ha hb).admissions hfirst
  exact Option.some.inj (hstays.symm.trans hsecond)

theorem permit_same (h : shop.Sound) {m : Nat} (ha : (workMachine.trace shop calls)[a]? = some e)
    (hb : (workMachine.trace shop calls)[b]? = some e') {permit permit' : ObservationPermit}
    (hm : e.before.permits[m]? = some permit) (hm' : e'.before.permits[m]? = some permit') :
    permit = permit' := by
  rcases lt_trichotomy a b with hab | rfl | hba
  · have hstays := Workshop.getElem?_of_initial (extends_before h hab ha hb).permits hm
    exact Option.some.inj (hstays.symm.trans hm')
  · cases ha.symm.trans hb
    exact Option.some.inj (hm.symm.trans hm')
  · have hstays := Workshop.getElem?_of_initial (extends_before h hba hb ha).permits hm'
    exact Option.some.inj (hm.symm.trans hstays)

theorem minted_before (h : shop.Sound) (ha : (workMachine.trace shop calls)[a]? = some e)
    (hb : (workMachine.trace shop calls)[b]? = some e') (hlength : e.before.admissions.length = n)
    (hminted : ¬ e.output.Prepares n) (hn : e'.output.Prepares n) : a < b := by
  obtain ⟨admission, hadmission, -⟩ := entry_prepared h (List.mem_of_getElem? hb) hn
  rcases lt_trichotomy a b with hab | rfl | hba
  · exact hab
  · cases ha.symm.trans hb
    exact absurd hn hminted
  · have hstays := Workshop.getElem?_of_initial (extends_before h hba hb ha).admissions hadmission
    have hlt := (List.getElem?_eq_some_iff.mp hstays).1
    omega

/-- An authority's word leaves `0` by its replacement only. -/
theorem published_between (h : shop.Sound) {k p : Nat} (hab : a < b)
    (ha : (workMachine.trace shop calls)[a]? = some e)
    (hb : (workMachine.trace shop calls)[b]? = some e')
    (howner : e.after.word (.authority k) = some p) (hzero : e.after.atomics.words.load p = 0)
    (hmoved : e'.before.atomics.words.load p ≠ 0) :
    ∃ (c : Nat) (e'' : WorkEntry), a < c ∧ c < b ∧
      (workMachine.trace shop calls)[c]? = some e'' ∧ e''.output.Replaces k := by
  have hafter := (after_sound h (List.mem_of_getElem? ha)).2
  obtain ⟨mid, hmid, hindex⟩ := trace_between workMachine hab ha hb
  rw [hmid] at hmoved
  obtain ⟨j, x, hx, hbefore, hchanged⟩ := trace_change workMachine
    (P := fun shop => shop.atomics.words.load p ≠ 0) (not_not.mpr hzero) hmoved
  obtain ⟨hac, hcb, hc⟩ := hindex j x hx
  obtain ⟨hsound, hstep⟩ := work_entry hafter (List.mem_of_getElem? hx)
  have hword : x.before.word (.authority k) = some p := by
    rw [trace_before workMachine hx]
    exact (exec_extends hafter _).word howner
  have hpublished := (Workshop.work_sound hsound x.input).published k p hword (not_not.mp hbefore)
  rw [hstep] at hpublished
  exact ⟨_, x, hac, hcb, hc, hpublished.resolve_left hchanged⟩

/-- Attempt capabilities are linear, in every interleaving of their accesses. -/
theorem capabilities_linear {shop : Workshop} (hinit : shop.Initial) (calls : List WorkCall) :
    CapabilitiesLinear (workMachine.trace shop calls) where
  preparedOnce := by
    intro a b n e e' hab ha hb hn hn'
    have h := hinit.sound
    have hmem := List.mem_of_getElem? ha
    obtain ⟨hext, hafter⟩ := after_sound h hmem
    obtain ⟨admission, hadmission, hfirst⟩ := entry_prepared h hmem hn
    obtain ⟨admission', hadmission', hsecond⟩ := entry_prepared h (List.mem_of_getElem? hb) hn'
    have hstays := Workshop.getElem?_of_initial hext.admissions hadmission
    obtain rfl := admission_stays h hab ha hb hstays hadmission'
    obtain ⟨hword, huse⟩ := hafter.owned.admissions _ (List.mem_of_getElem? hstays)
    have hbetween := extends_between h hab ha hb
    exact hfirst.not_again hsecond hbetween.flags hbetween.words hword huse
  preparedAfterReplacement := by
    intro a b k n e e' ha hb hpaired hn
    have h := hinit.sound
    have hstep := (work_entry h (List.mem_of_getElem? ha)).2
    rw [hpaired] at hstep
    obtain ⟨p, admission, howner, hzero, hlength, hadmission, hword⟩ :=
      Workshop.paired_event hstep
    have hab : a < b := minted_before h ha hb hlength (by simp [WorkEvent.Prepares, hpaired]) hn
    obtain ⟨admission', hadmission', hspends⟩ := entry_prepared h (List.mem_of_getElem? hb) hn
    obtain rfl := admission_stays h hab ha hb hadmission hadmission'
    have hopen := (hspends.word_closed hword).1
    exact published_between h hab ha hb howner hzero (by omega)
  admittedOnce := by
    rintro a b m e e' hab ha hb ⟨n, hn⟩ ⟨n', hn'⟩
    have h := hinit.sound
    have hstep := (work_entry h (List.mem_of_getElem? ha)).2
    have hstep' := (work_entry h (List.mem_of_getElem? hb)).2
    rw [hn] at hstep
    rw [hn'] at hstep'
    obtain ⟨p, _, howner, -, hopened, -⟩ := Workshop.admitted_event hstep
    obtain ⟨p', _, howner', hunopened, -⟩ := Workshop.admitted_event hstep'
    obtain ⟨hext, hafter⟩ := after_sound h (List.mem_of_getElem? ha)
    have hbetween := extends_between h hab ha hb
    have hstays := hext.word howner
    obtain rfl := Option.some.inj (howner'.symm.trans (hbetween.word hstays))
    have hforward := hbetween.words.forward p' (hafter.owned.allocated _ p' hstays)
    rw [hopened, hunopened] at hforward
    simp [Forward] at hforward
  preparedOrReleased := by
    rintro a b c m n e e' e'' ha hb hc hadmitted hn ⟨budget, hreleased⟩
    have h := hinit.sound
    have hstep := (work_entry h (List.mem_of_getElem? ha)).2
    rw [hadmitted] at hstep
    obtain ⟨p, admission, howner, -, -, hlength, hadmission, hword⟩ :=
      Workshop.admitted_event hstep
    have hab : a < b := minted_before h ha hb hlength (by simp [WorkEvent.Prepares, hadmitted]) hn
    obtain ⟨admission', hadmission', hspends⟩ := entry_prepared h (List.mem_of_getElem? hb) hn
    obtain rfl := admission_stays h hab ha hb hadmission hadmission'
    obtain ⟨hopen, hclosed⟩ := hspends.word_closed hword
    obtain ⟨hsound, hstep'⟩ := work_entry h (List.mem_of_getElem? hc)
    rw [hreleased] at hstep'
    obtain ⟨permit, hpermit, hretired⟩ := Workshop.released_event hsound hstep'
    obtain ⟨permit', hpermit', htransition⟩ := Option.bind_eq_some_iff.mp howner
    obtain rfl := permit_same h ha hc hpermit' hpermit
    obtain ⟨hlt, hthree⟩ := hretired p htransition
    -- both `2` and `3` are final, whichever came first
    rcases lt_trichotomy b c with hbc | rfl | hcb
    · obtain ⟨hext, hafter⟩ := after_sound h (List.mem_of_getElem? hb)
      have hmem := List.mem_of_getElem? (Workshop.getElem?_of_initial hext.admissions hadmission')
      have hforward := (extends_between h hbc hb hc).words.forward p
        ((hafter.owned.admissions _ hmem).1 p hword)
      rw [hclosed, hthree] at hforward
      simp [Forward] at hforward
    · cases hb.symm.trans hc
      obtain ⟨attempt, hattempt⟩ := hn
      rw [hattempt] at hreleased
      exact WorkEvent.noConfusion hreleased
    · have hforward := (extends_before h hcb hc hb).words.forward p hlt
      rw [hthree, hopen] at hforward
      simp [Forward] at hforward

end Runs

/-- The first plan of the next generation, under a new operation. -/
def sampleNextPlan [Sha256] : Plan :=
  Plan.sealed
    { (samplePlan : Plan) with
      id := "plan-00000000002"
      operationID := "operation-000001"
      generation := 2 }

def sampleNextEffect : EffectKey :=
  ⟨true, ⟨true, [2]⟩, "workspace-000000", "resource-0000000", "operation-000001", 2⟩

def sampleNextInput [Sha256] : AttemptAdmissionInput :=
  ⟨5 * second, sampleNextPlan, sampleNextEffect, .forward, ⟨true, [3]⟩, false, none, none, none, [],
    [], none, none⟩

/-- A table whose only row was left behind by the sample plan. -/
def sampleWorkshop [Sha256] : Workshop :=
  ⟨fun i => ⟨true, i, 4, AList.singleton "workspace-000000:resource-0000000"
      ⟨samplePlanBinding, "", 1, 1 * second, 2 * second, 2 * second⟩⟩,
    fun _ => false, ⟨⟨fun _ => false, 0⟩, ⟨fun _ => 0, 0⟩⟩, [], [], [], []⟩

def samplePrepare : WorkCall :=
  .newPreparedAttempt 0 "attempt-00000001" 1 "owner-0000000001" 2

/-- The admission is presented before, during and after the replacement it was minted with. -/
def replacementCalls [Sha256] : List WorkCall :=
  [.authorizeGenerationReplacement samplePlan sampleNextPlan sampleNextInput none, samplePrepare,
    .acquireReplacement 0 0 (6 * second) "owner-0000000001", .resume 0, .resume 0, .resume 0,
    samplePrepare, .resume 0, .resume 0, samplePrepare, samplePrepare]

attribute [local instance] plainSha256

theorem capabilities_linear_replacement :
    (workMachine.trace sampleWorkshop replacementCalls).map
        (fun e => decide (e.output = .silent)) =
      [false, true, true, true, true, true, true, true, false, false, true] ∧
    CapabilitiesLinear (workMachine.trace sampleWorkshop replacementCalls) :=
  ⟨by decide +kernel, capabilities_linear ⟨rfl, rfl, rfl, rfl⟩ replacementCalls⟩

/-- A replan of the sample plan, within its generation. -/
def sampleAuthority [Sha256] : LeaseReplacementAuthority :=
  ⟨true, samplePlanBinding, { samplePlanBinding with planRevision := 2, planDigest := ⟨true, [1]⟩ },
    .forward, .zero, .zero, none, some 0⟩

def replanningWorkshop : Workshop :=
  { sampleWorkshop with threads := [.lock 0 0 sampleAuthority (6 * second) "owner-0000000001"] }

theorem acquireReplacement_alone_replan :
    let shop := replanningWorkshop
    let result := (shop.tables 0).acquireReplacement shop.atomics (6 * second) sampleAuthority
      "owner-0000000001"
    let after := workMachine.exec shop (List.replicate 5 (.resume 0))
    result.2.2.isOk = true ∧ after.tables 0 = result.1 ∧ after.atomics = result.2.1 := by
  intro shop result
  exact ⟨by decide +kernel, @acquireReplacement_alone _ shop 0 _ _ _ _ _ rfl rfl _ _
    result.2.2 (by rw [Prod.mk.eta])⟩

def sampleReleasing : Releasing :=
  ⟨0, ⟨true, sampleEffect, 2, 1 * second, 100 * second, ⟨true, [1]⟩, some 0⟩,
    ⟨true, sampleEffect, 2, 1, 100 * second, 1 * second, 2, true, ⟨true, [1]⟩, some 0, false,
      false⟩, 3 * second⟩

theorem releaseObservation_alone_sample :
    let shop : Workshop := { sampleWorkshop with threads := [.load sampleReleasing] }
    let result := releaseObservation shop.atomics sampleReleasing.budget sampleReleasing.permit
      (3 * second)
    result.2.isOk = true ∧
      (workMachine.exec shop (List.replicate 3 (.resume 0))).atomics = result.1 := by
  intro shop result
  exact ⟨by decide +kernel, @releaseObservation_alone _ shop 0 sampleReleasing _ rfl
    (by decide +kernel) (by decide +kernel) (by decide)⟩

end Veer.Reconcile
