import Veer.HashFrames
import Veer.ListHeap
import Veer.ReconcileAdmission

/-!
# The generation gate is exact

`CheckGenerationDispatch` spends one proof on each unsettled older effect and wants none left over.
The spending is a bijection between the proofs and the unsettled effects, so the answer does not
depend on the order of either list.
-/
namespace Veer.Reconcile

/-- Prepared, dispatched and indeterminate effects may still change. -/
def EffectProjection.unsettled (projection : EffectProjection) : Bool :=
  projection.state != .applied && projection.state != .noEffect

/-- The projection is valid and of an older generation of the candidate's resource. -/
structure Older (candidate : EffectKey) (projection : EffectProjection) : Prop where
  valid : validateEffectProjection projection = true
  workspace : projection.key.workspaceID = candidate.workspaceID
  resource : projection.key.resourceID = candidate.resourceID
  generation : projection.key.generation < candidate.generation

/-- What the gate is for: the proofs name exactly the unsettled older effects, each once. Effects
are told apart by their printed keys. -/
structure GenerationClear (candidate : EffectKey) (prior : List EffectProjection)
    (proofs : List SafeSupersessionProof) : Prop where
  older : ∀ projection ∈ prior, Older candidate projection
  distinct : (prior.map fun projection => projection.key.string).Nodup
  qualified : ∀ proof ∈ proofs, validSupersessionProof proof = true ∧ proof.candidate = candidate
  covered : (proofs.map SafeSupersessionProof.prior).Perm
    ((prior.filter EffectProjection.unsettled).map EffectProjection.key)

variable {projection : EffectProjection}

theorem older_iff {candidate : EffectKey} :
    Older candidate projection ↔
      ¬ (!validateEffectProjection projection ||
        projection.key.workspaceID != candidate.workspaceID ||
        projection.key.resourceID != candidate.resourceID ||
        decide (candidate.generation ≤ projection.key.generation)) = true := by
  simp only [Bool.or_eq_true, Bool.not_eq_true', bne_iff_ne, decide_eq_true_eq, not_or,
    Bool.not_eq_false, not_not, not_le]
  constructor
  · intro h
    exact ⟨⟨⟨h.valid, h.workspace⟩, h.resource⟩, h.generation⟩
  · rintro ⟨⟨⟨hvalid, hworkspace⟩, hresource⟩, hgeneration⟩
    exact ⟨hvalid, hworkspace, hresource, hgeneration⟩

theorem Older.key (h : Older candidate projection) : validateEffectKey projection.key = true := by
  have hvalid := h.valid
  simp only [validateEffectProjection, Bool.and_eq_true] at hvalid
  exact hvalid.1.1.1.1.1.2

theorem unsettled_eq_false :
    projection.unsettled = false ↔ projection.state = .applied ∨ projection.state = .noEffect := by
  cases hstate : projection.state <;> simp [EffectProjection.unsettled, hstate]

/-! ## The map of proofs -/

/-- The effects that the proofs of the map qualify. -/
def qualifiedEffects (index : AList fun _ : String => SafeSupersessionProof) : List EffectKey :=
  index.entries.map fun entry => entry.2.prior

/-- Every proof stands under the printed key of the valid effect it is about. -/
def Filed (index : AList fun _ : String => SafeSupersessionProof) : Prop :=
  ∀ entry ∈ index.entries, entry.1 = entry.2.prior.string ∧ validateEffectKey entry.2.prior = true

variable {candidate : EffectKey} {index : AList fun _ : String => SafeSupersessionProof}

theorem Filed.erase (h : Filed index) (key : String) : Filed (index.erase key) := by
  intro entry hentry
  exact h entry ((List.kerase_sublist key index.entries).subset hentry)

variable {proof : SafeSupersessionProof}

theorem Filed.insert (h : Filed index) (hproof : validateEffectKey proof.prior = true) :
    Filed (index.insert proof.prior.string proof) := by
  intro entry hentry
  rcases List.mem_cons.mp hentry with rfl | hentry
  · exact ⟨rfl, hproof⟩
  · exact h entry ((List.kerase_sublist _ index.entries).subset hentry)

theorem Filed.lookup (h : Filed index) {effect : EffectKey} (heffect : effect ∈ qualifiedEffects index) :
    ∃ proof, index.lookup effect.string = some proof ∧ proof.prior = effect := by
  obtain ⟨⟨key, proof⟩, hentry, rfl⟩ := List.mem_map.mp heffect
  refine ⟨proof, ?_, rfl⟩
  rw [← (h _ hentry).1]
  exact AList.mem_lookup_iff.mpr hentry

theorem qualifiedEffects_perm {key : String} (h : index.lookup key = some proof) :
    (qualifiedEffects index).Perm (proof.prior :: qualifiedEffects (index.erase key)) := by
  have hperm := ListHeap.entries_perm_erase h
  exact hperm.map fun entry : (_ : String) × SafeSupersessionProof => entry.2.prior

theorem validSupersessionProof_prior (h : validSupersessionProof proof = true) :
    validateEffectKey proof.prior = true := by
  simp only [validSupersessionProof, Bool.and_eq_true] at h
  exact h.1.1.1.1.1.1.2

theorem not_unqualified_iff :
    ¬ (!validSupersessionProof proof || !proof.candidate.equal candidate) = true ↔
      validSupersessionProof proof = true ∧ proof.candidate = candidate := by
  simp only [Bool.or_eq_true, Bool.not_eq_true', not_or, Bool.not_eq_false, EffectKey.equal_iff]
  constructor
  · rintro ⟨hvalid, -, hsame⟩
    exact ⟨hvalid, hsame⟩
  · rintro ⟨hvalid, rfl⟩
    refine ⟨hvalid, ?_, rfl⟩
    simp only [validSupersessionProof, Bool.and_eq_true] at hvalid
    exact hvalid.1.1.1.1.1.2

/-- Indexing succeeds exactly on qualified proofs of different new effects. -/
theorem indexSupersessionProofs_isSome (candidate : EffectKey) (proofs : List SafeSupersessionProof)
    (index : AList fun _ : String => SafeSupersessionProof) :
    (indexSupersessionProofs candidate proofs index).isSome = true ↔
      (∀ proof ∈ proofs, validSupersessionProof proof = true ∧ proof.candidate = candidate) ∧
      (proofs.map fun proof => proof.prior.string).Nodup ∧
      ∀ proof ∈ proofs, proof.prior.string ∉ index := by
  fun_induction indexSupersessionProofs candidate proofs index with
  | case1 => simp
  | case2 proof proofs index hbad =>
    simp only [Option.isSome_none, Bool.false_eq_true, false_iff]
    rintro ⟨hqualified, -⟩
    exact not_unqualified_iff.mpr (hqualified proof List.mem_cons_self) hbad
  | case3 proof proofs index hgood hmem => simp [hmem]
  | case4 proof proofs index hgood hmem ih =>
    have hqualified := not_unqualified_iff.mp hgood
    simp only [ih, List.forall_mem_cons, List.map_cons, List.nodup_cons, List.mem_map, not_exists,
      not_and, AList.mem_insert, not_or, hqualified, hmem, true_and, not_false_eq_true, forall_and]
    tauto

variable {proofs : List SafeSupersessionProof}

theorem indexSupersessionProofs_some {index filed : AList fun _ : String => SafeSupersessionProof}
    (hindex : Filed index) (h : indexSupersessionProofs candidate proofs index = some filed) :
    Filed filed ∧ (qualifiedEffects filed).Perm
      (proofs.map SafeSupersessionProof.prior ++ qualifiedEffects index) := by
  fun_induction indexSupersessionProofs candidate proofs index with
  | case1 =>
    cases h
    exact ⟨hindex, List.Perm.refl _⟩
  | case2 | case3 => cases h
  | case4 proof proofs index hgood hmem ih =>
    have hprior := validSupersessionProof_prior (not_unqualified_iff.mp hgood).1
    obtain ⟨hfiled, hperm⟩ := ih (hindex.insert hprior) h
    refine ⟨hfiled, hperm.trans ?_⟩
    rw [qualifiedEffects, AList.entries_insert_of_notMem hmem]
    exact List.perm_middle

/-! ## The walk over the older effects -/

/-- The older effects are valid, different from each other and not met before. -/
structure Walkable (candidate : EffectKey) (prior : List EffectProjection) (seen : List String) :
    Prop where
  older : ∀ projection ∈ prior, Older candidate projection
  distinct : (prior.map fun projection => projection.key.string).Nodup
  fresh : ∀ projection ∈ prior, projection.key.string ∉ seen

variable {prior : List EffectProjection}

/-- The first effect joins those already met, whatever its state. -/
theorem walkable_cons {seen : List String} :
    Walkable candidate (projection :: prior) seen ↔ Older candidate projection ∧
      projection.key.string ∉ seen ∧ Walkable candidate prior (projection.key.string :: seen) := by
  constructor
  · rintro ⟨holder, hdistinct, hfresh⟩
    obtain ⟨hdiffer, hdistinct⟩ := List.nodup_cons.mp hdistinct
    obtain ⟨hhead, hfresh⟩ := List.forall_mem_cons.mp hfresh
    obtain ⟨hfirst, holder⟩ := List.forall_mem_cons.mp holder
    refine ⟨hfirst, hhead, holder, hdistinct, ?_⟩
    intro other hother hmem
    rcases List.mem_cons.mp hmem with hsame | hmem
    · exact hdiffer (List.mem_map.mpr ⟨other, hother, hsame⟩)
    · exact hfresh other hother hmem
  · rintro ⟨hfirst, hhead, holder, hdistinct, hfresh⟩
    refine ⟨List.forall_mem_cons.mpr ⟨hfirst, holder⟩, List.nodup_cons.mpr ⟨?_, hdistinct⟩,
      List.forall_mem_cons.mpr ⟨hhead, ?_⟩⟩
    · intro hmem
      obtain ⟨other, hother, hsame⟩ := List.mem_map.mp hmem
      apply hfresh other hother
      rw [hsame]
      exact List.mem_cons_self
    · intro other hother hmem
      exact hfresh other hother (List.mem_cons_of_mem _ hmem)

theorem filter_open (hopen : ¬(projection.state = .applied ∨ projection.state = .noEffect)) :
    ((projection :: prior).filter EffectProjection.unsettled).map EffectProjection.key =
      projection.key :: (prior.filter EffectProjection.unsettled).map EffectProjection.key := by
  rw [← unsettled_eq_false, Bool.not_eq_false] at hopen
  rw [List.filter_cons_of_pos hopen, List.map_cons]

/-- The walk spends the whole map exactly when its proofs are those of the unsettled effects. -/
theorem gatePriorEffects_spends (candidate : EffectKey) (prior : List EffectProjection)
    (seen : List String) (hindex : Filed index) :
    (∃ rest, gatePriorEffects candidate prior seen index = some rest ∧ rest.keys.length = 0) ↔
      Walkable candidate prior seen ∧ (qualifiedEffects index).Perm
        ((prior.filter EffectProjection.unsettled).map EffectProjection.key) := by
  fun_induction gatePriorEffects candidate prior seen index with
  | case1 =>
    simp only [Option.some.injEq, exists_eq_left', List.filter_nil, List.map_nil,
      List.perm_nil, qualifiedEffects, List.map_eq_nil_iff, AList.keys, List.keys, List.length_map,
      List.length_eq_zero_iff]
    refine ⟨fun h => ⟨⟨?_, List.nodup_nil, ?_⟩, h⟩, fun h => h.2⟩ <;> simp
  | case2 projection prior seen index hbad =>
    simp [walkable_cons, older_iff, hbad]
  | case3 projection prior seen index hgood hseen => simp [walkable_cons, hseen]
  | case4 projection prior seen index hgood hseen hsettled ih =>
    rw [ih hindex, walkable_cons, List.filter_cons_of_neg]
    · simp only [older_iff.mpr hgood, hseen, not_false_eq_true, true_and]
    · rw [unsettled_eq_false.mpr hsettled]; simp
  | case5 projection prior seen index hgood hseen hopen hnone =>
    simp only [reduceCtorEq, false_and, exists_false, false_iff, filter_open hopen]
    rintro ⟨-, hperm⟩
    obtain ⟨proof, hproof, -⟩ := hindex.lookup (hperm.mem_iff.mpr List.mem_cons_self)
    cases hnone.symm.trans hproof
  | case6 projection prior seen index hgood hseen hopen proof hproof hequal ih =>
    have hspent := qualifiedEffects_perm hproof
    rw [(EffectKey.equal_iff.mp hequal).2] at hspent
    rw [ih (hindex.erase _), walkable_cons, filter_open hopen]
    simp only [older_iff.mpr hgood, hseen, not_false_eq_true, true_and]
    refine and_congr_right fun _ => ⟨fun h => hspent.trans (h.cons _), fun h => ?_⟩
    exact (hspent.symm.trans h).cons_inv
  | case7 projection prior seen index hgood hseen hopen proof hproof hdiffer =>
    simp only [reduceCtorEq, false_and, exists_false, false_iff, filter_open hopen]
    rintro ⟨-, hperm⟩
    obtain ⟨found, hfound, hprior⟩ := hindex.lookup (hperm.mem_iff.mpr List.mem_cons_self)
    cases hproof.symm.trans hfound
    exact hdiffer (EffectKey.equal_iff.mpr ⟨hprior ▸ (older_iff.mpr hgood).key, hprior⟩)

/-! ## The gate -/

theorem checkGenerationDispatch_ok_iff {candidate : EffectKey} :
    checkGenerationDispatch candidate prior proofs = .ok () ↔
      validateEffectKey candidate = true ∧ prior.length ≤ maxEffectsPerOperation ∧
        proofs.length ≤ maxEffectsPerOperation ∧ GenerationClear candidate prior proofs := by
  unfold checkGenerationDispatch
  split
  case isTrue hbad =>
    simp only [Bool.or_eq_true, Bool.not_eq_true', decide_eq_true_eq] at hbad
    simp only [reduceCtorEq, false_iff]
    rintro ⟨hcandidate, hprior, hproofs, -⟩
    rcases hbad with (hbad | hbad) | hbad
    · rw [hcandidate] at hbad
      cases hbad
    · omega
    · omega
  case isFalse hgood =>
    simp only [Bool.or_eq_true, Bool.not_eq_true', decide_eq_true_eq, not_or, Bool.not_eq_false,
      not_lt] at hgood
    obtain ⟨⟨hcandidate, hprior⟩, hproofs⟩ := hgood
    simp only [hcandidate, hprior, hproofs, true_and]
    have hempty : Filed (∅ : AList fun _ : String => SafeSupersessionProof) := fun _ h => by cases h
    have hindexed := indexSupersessionProofs_isSome candidate proofs ∅
    split
    case h_1 hnone =>
      simp only [reduceCtorEq, false_iff]
      intro hclear
      rw [hnone] at hindexed
      refine Bool.false_ne_true (hindexed.mpr ⟨hclear.qualified, ?_, fun proof _ => AList.notMem_empty _⟩)
      have hstrings := hclear.covered.map EffectKey.string
      rw [List.map_map, List.map_map] at hstrings
      exact hstrings.nodup_iff.mpr (hclear.distinct.sublist (List.filter_sublist.map _))
    case h_2 filed hfiled =>
      obtain ⟨hfiles, hperm⟩ := indexSupersessionProofs_some hempty hfiled
      rw [hfiled] at hindexed
      obtain ⟨hqualified, -⟩ := hindexed.mp rfl
      have hspends := gatePriorEffects_spends candidate prior [] hfiles
      rw [show qualifiedEffects ∅ = [] from rfl, List.append_nil] at hperm
      have hclear : GenerationClear candidate prior proofs ↔
          ∃ rest, gatePriorEffects candidate prior [] filed = some rest ∧ rest.keys.length = 0 := by
        rw [hspends]
        constructor
        · intro h
          exact ⟨⟨h.older, h.distinct, fun _ _ => List.not_mem_nil⟩, hperm.trans h.covered⟩
        · rintro ⟨hwalk, hcovered⟩
          exact ⟨hwalk.older, hwalk.distinct, hqualified, hperm.symm.trans hcovered⟩
      rw [hclear]
      cases gatePriorEffects candidate prior [] filed with
      | none => simp
      | some =>
        simp only [Option.some.injEq, exists_eq_left']
        split
        case isTrue hleft => simp [hleft]
        case isFalse hnone => simpa using hnone

theorem checkGenerationDispatch_error {candidate : EffectKey}
    (h : checkGenerationDispatch candidate prior proofs ≠ .ok ()) :
    checkGenerationDispatch candidate prior proofs = .error [.generationBlocked] := by
  revert h
  fun_cases checkGenerationDispatch candidate prior proofs <;> simp

theorem GenerationClear.perm {candidate : EffectKey} {prior' : List EffectProjection}
    {proofs' : List SafeSupersessionProof} (h : GenerationClear candidate prior proofs)
    (hprior : prior'.Perm prior) (hproofs : proofs'.Perm proofs) :
    GenerationClear candidate prior' proofs' where
  older projection hmem := h.older projection (hprior.mem_iff.mp hmem)
  distinct := (hprior.map _).nodup_iff.mpr h.distinct
  qualified proof hmem := h.qualified proof (hproofs.mem_iff.mp hmem)
  covered := (hproofs.map _).trans (h.covered.trans ((hprior.filter _).map _).symm)

theorem checkGenerationDispatch_perm {candidate : EffectKey} {prior' : List EffectProjection}
    {proofs' : List SafeSupersessionProof} (hprior : prior'.Perm prior)
    (hproofs : proofs'.Perm proofs) (h : checkGenerationDispatch candidate prior proofs = .ok ()) :
    checkGenerationDispatch candidate prior' proofs' = .ok () := by
  obtain ⟨hcandidate, hshort, hfew, hclear⟩ := checkGenerationDispatch_ok_iff.mp h
  rw [checkGenerationDispatch_ok_iff, hprior.length_eq, hproofs.length_eq]
  exact ⟨hcandidate, hshort, hfew, hclear.perm hprior hproofs⟩

theorem GenerationClear.count {candidate : EffectKey} (h : GenerationClear candidate prior proofs) :
    proofs.length = prior.countP EffectProjection.unsettled := by
  have hlength := h.covered.length_eq
  rwa [List.length_map, List.length_map, ← List.countP_eq_length_filter] at hlength

/-- The gate accepts exactly the covered lists within its bounds, in any order, and a further
effect that turns uncertain without a proof of its own closes it. -/
theorem checkGenerationDispatch_exact (candidate : EffectKey) (prior : List EffectProjection)
    (proofs : List SafeSupersessionProof) :
    (checkGenerationDispatch candidate prior proofs = .ok () ↔
      validateEffectKey candidate = true ∧ prior.length ≤ maxEffectsPerOperation ∧
        proofs.length ≤ maxEffectsPerOperation ∧ GenerationClear candidate prior proofs) ∧
    (∀ prior' proofs', prior'.Perm prior → proofs'.Perm proofs →
      checkGenerationDispatch candidate prior' proofs' =
        checkGenerationDispatch candidate prior proofs) ∧
    (checkGenerationDispatch candidate prior proofs = .ok () →
      ∀ before after settled turned, prior = before ++ settled :: after →
        settled.unsettled = false → turned.key = settled.key → turned.unsettled = true →
        checkGenerationDispatch candidate (before ++ turned :: after) proofs =
          .error [.generationBlocked]) := by
  refine ⟨checkGenerationDispatch_ok_iff, ?_, ?_⟩
  · intro prior' proofs' hprior hproofs
    by_cases hok : checkGenerationDispatch candidate prior proofs = .ok ()
    · rw [hok, checkGenerationDispatch_perm hprior hproofs hok]
    rw [checkGenerationDispatch_error hok]
    apply checkGenerationDispatch_error
    intro hok'
    exact hok (checkGenerationDispatch_perm hprior.symm hproofs.symm hok')
  · rintro hok before after settled turned rfl hsettled - hturned
    apply checkGenerationDispatch_error
    intro hok'
    obtain ⟨-, -, -, hclear⟩ := checkGenerationDispatch_ok_iff.mp hok
    obtain ⟨-, -, -, hclear'⟩ := checkGenerationDispatch_ok_iff.mp hok'
    have hcount := hclear.count.symm.trans hclear'.count
    rw [List.countP_append, List.countP_append, List.countP_cons_of_neg (by rw [hsettled]; simp),
      List.countP_cons_of_pos hturned] at hcount
    omega

/-! The bound on the lists is part of the gate: a thousand and one applied effects close it though
each of them is settled. -/

/-- An effect of the generation after the sample's. -/
def newerEffect : EffectKey := { sampleEffect with generation := 2 }

def appliedEffect (n : Nat) : EffectProjection :=
  { initialized := true
    key := { sampleEffect with digest := ⟨true, uint64Bytes n⟩ }
    planDigest := ⟨true, []⟩
    sourceAttemptID := "attempt-00000000"
    purpose := .forward
    compensation := none
    cancellationTarget := none
    state := .applied
    updatedAt := 1 }

theorem appliedEffect_valid (n : Nat) : validateEffectProjection (appliedEffect n) = true := by
  have hkey : validateEffectKey (appliedEffect n).key = true := by
    change validateEffectKey sampleEffect = true
    decide
  have hattempt : validID "attempt-00000000" = true := by decide
  simp only [validateEffectProjection, hkey, Bool.and_eq_true]
  exact ⟨⟨⟨⟨⟨⟨rfl, trivial⟩, rfl⟩, hattempt⟩, rfl⟩, rfl⟩, rfl⟩

theorem appliedEffects_distinct (n : Nat) (hn : FitsUint64 n) :
    ((List.range n).map fun i => (appliedEffect i).key.string).Nodup := by
  apply List.nodup_range.map_on
  intro i hi j hj hstring
  rw [List.mem_range] at hi hj
  have hdigest := formatDigest_injective rfl rfl hstring
  apply uint64Bytes_injective (hi.trans hn) (hj.trans hn)
  exact congrArg DigestValue.digest hdigest

theorem generationGate_bounds_effects :
    validateEffectKey newerEffect = true ∧
      GenerationClear newerEffect ((List.range 1001).map appliedEffect) [] ∧
      checkGenerationDispatch newerEffect ((List.range 1001).map appliedEffect) [] =
        .error [.generationBlocked] := by
  refine ⟨by decide, ⟨?_, ?_, by simp, ?_⟩, ?_⟩
  · intro projection hmem
    obtain ⟨n, -, rfl⟩ := List.mem_map.mp hmem
    exact ⟨appliedEffect_valid n, rfl, rfl, show (1 : Int) < 2 by omega⟩
  · rw [List.map_map]
    exact appliedEffects_distinct 1001 (by unfold FitsUint64; omega)
  · rw [List.filter_eq_nil_iff.mpr]
    · exact List.Perm.nil
    · intro projection hmem
      obtain ⟨n, -, rfl⟩ := List.mem_map.mp hmem
      simp [EffectProjection.unsettled, appliedEffect]
  · unfold checkGenerationDispatch
    rw [if_pos]
    simp [maxEffectsPerOperation]

end Veer.Reconcile
