import Veer.HashFrames
import Veer.ListHeap
import Veer.ReconcilePlanning

/-!
# Compensation schedules and their runs

`NextCompensationStep` keeps no state: each call gets the whole schedule and the projections of the
steps already applied. What orders the steps of a run is that every step carries the digest of the
schedule it was taken from.
-/
namespace Veer.Reconcile
open PrefixCode (Reads)

def newCompensationProof [Sha256] (original : EffectProjection) (inverse : EffectKey)
    (dependencyOrder : Nat) (adapterVersion : String) (canonicalEvidence : List UInt8) :
    Except Failure CompensationProof :=
  if !validateEffectProjection original || original.state != .applied ||
      !validateEffectKey inverse || original.key.equal inverse || dependencyOrder == 0 ||
      !validVersion adapterVersion || decide (canonicalEvidence.length = 0) ||
      decide (canonicalEvidence.length > maxEvidenceBytes) ||
      !original.key.sameLineage inverse then .error [.invalidPlan]
  else .ok
    { initialized := true
      original := original
      inverse := inverse
      dependencyOrder := dependencyOrder
      adapterVersion := adapterVersion
      evidence := digestFromHasher (writeHashFrame "veer.reconciliation.compensation-proof.v1" ++
        writeHashFrame contractVersion ++ writeHashBytes original.key.digest.digest ++
        writeHashBytes inverse.digest.digest ++ writeHashUint64 dependencyOrder ++
        writeHashFrame adapterVersion ++ writeHashBytes canonicalEvidence) }

section Steps

variable [Sha256]

/-- The step that `NextCompensationStep` returns for the proof at a position. -/
def compensationStepAt (plan : Plan) (proofs : List CompensationProof) (index : Nat)
    (proof : CompensationProof) : CompensationStep :=
  { initialized := true
    planDigest := plan.digest
    original := proof.original.key
    inverse := proof.inverse
    dependencyOrder := proof.dependencyOrder
    position := index + 1
    total := proofs.length
    proofEvidence := proof.evidence
    schedule := deriveCompensationSchedule plan proofs }

/-- The body of the loop over the completed projections. -/
def completesProof (plan : Plan) (proofs : List CompensationProof) (index : Nat)
    (proof : CompensationProof) (projection : EffectProjection) : Bool :=
  validateEffectProjection projection && projection.state == .applied &&
    projection.purpose == .compensation && equalDigest projection.planDigest plan.digest &&
    projection.key.equal proof.inverse &&
    projection.compensation.any fun step =>
      step.original.equal proof.original.key && step.inverse.equal proof.inverse &&
        step.dependencyOrder == proof.dependencyOrder && step.position == index + 1 &&
        step.total == proofs.length && equalDigest step.proofEvidence proof.evidence &&
        equalDigest step.schedule (deriveCompensationSchedule plan proofs)

def completedMatchProofs (plan : Plan) (proofs : List CompensationProof)
    (completed : List EffectProjection) : Bool :=
  completed.zipIdx.all fun (projection, index) =>
    proofs[index]?.any fun proof => completesProof plan proofs index proof projection

def nextCompensationStep (plan : Plan) (proofs : List CompensationProof)
    (completed : List EffectProjection) : Except Failure CompensationStep :=
  if !validateCompensationPlan plan proofs || decide (proofs.length ≤ completed.length) ||
      !completedMatchProofs plan proofs completed then .error [.invalidPlan]
  else
    match proofs[completed.length]? with
    | none => .error [.invalidPlan]
    | some proof => .ok (compensationStepAt plan proofs completed.length proof)

/-! ## One call -/

/-- All steps of a schedule, in the order of its proofs. -/
def scheduledSteps (plan : Plan) (proofs : List CompensationProof) : List CompensationStep :=
  proofs.mapIdx (compensationStepAt plan proofs)

end Steps

/-- The projection of a step whose inverse effect was applied under it. -/
structure Records (step : CompensationStep) (projection : EffectProjection) : Prop where
  valid : validateEffectProjection projection = true
  applied : projection.state = .applied
  purpose : projection.purpose = .compensation
  plan : projection.planDigest = step.planDigest
  key : projection.key = step.inverse
  step : projection.compensation = some step

theorem Records.step_valid {step : CompensationStep} {projection : EffectProjection}
    (h : Records step projection) :
    validCompensationStep step = true ∧ step.planDigest = projection.planDigest := by
  have hvalid := h.valid
  simp only [validateEffectProjection, h.purpose, h.step, compensationAgrees, Bool.and_eq_true,
    equalDigest_iff] at hvalid
  exact ⟨hvalid.1.2.1.1, hvalid.1.2.1.2.2⟩

section Calls

variable [Sha256] {plan : Plan} {proofs : List CompensationProof}

theorem completesProof_iff {index : Nat} {proof : CompensationProof} {projection : EffectProjection} :
    completesProof plan proofs index proof projection = true ↔
      Records (compensationStepAt plan proofs index proof) projection := by
  simp only [completesProof, Bool.and_eq_true, beq_iff_eq, equalDigest_iff, EffectKey.equal_iff,
    Option.any_eq_true]
  constructor
  · rintro ⟨⟨⟨⟨⟨hvalid, happlied⟩, hpurpose⟩, -, hplan⟩, -, hkey⟩, step, hstep, hfields⟩
    have hagrees := hvalid
    simp only [validateEffectProjection, hpurpose, hstep, compensationAgrees, Bool.and_eq_true,
      equalDigest_iff] at hagrees
    have hinit := hagrees.1.2.1.1
    simp only [validCompensationStep, Bool.and_eq_true] at hinit
    refine ⟨hvalid, happlied, hpurpose, hplan, hkey, ?_⟩
    rw [hstep]
    obtain ⟨⟨⟨⟨⟨⟨⟨-, horiginal⟩, -, hinverse⟩, horder⟩, hposition⟩, htotal⟩, -, hevidence⟩, -, hschedule⟩ :=
      hfields
    rcases step with ⟨si, sp, so, sv, sd, sn, st, se, ss⟩
    simp only [compensationStepAt, Option.some.injEq, CompensationStep.mk.injEq]
    exact ⟨by tauto, hagrees.1.2.1.2.2.trans hplan, horiginal, hinverse, horder, hposition, htotal,
      hevidence, hschedule⟩
  · intro h
    obtain ⟨hstep, -⟩ := h.step_valid
    simp only [validCompensationStep, compensationStepAt, Bool.and_eq_true] at hstep
    obtain ⟨⟨⟨⟨⟨⟨⟨⟨⟨-, hplan⟩, horiginal⟩, hinverse⟩, -⟩, -⟩, -⟩, -⟩, hevidence⟩, hschedule⟩ := hstep
    refine ⟨⟨⟨⟨⟨h.valid, h.applied⟩, h.purpose⟩, ?_, h.plan⟩, ?_, h.key⟩, _, h.step, ?_⟩
    · rw [h.plan]
      exact hplan
    · rw [h.key]
      exact hinverse
    · exact ⟨⟨⟨⟨⟨⟨⟨horiginal, rfl⟩, hinverse, rfl⟩, rfl⟩, rfl⟩, rfl⟩, hevidence, rfl⟩, hschedule, rfl⟩

theorem getElem?_scheduledSteps (index : Nat) :
    (scheduledSteps plan proofs)[index]? =
      proofs[index]?.map (compensationStepAt plan proofs index) := by
  rw [scheduledSteps, List.getElem?_mapIdx]

theorem length_scheduledSteps : (scheduledSteps plan proofs).length = proofs.length := by
  rw [scheduledSteps, List.length_mapIdx]

/-- The completed projections are those of the first steps of the schedule. -/
def RecordedUnder (plan : Plan) (proofs : List CompensationProof) (completed : List EffectProjection) :
    Prop :=
  ∀ (index : Nat) (projection : EffectProjection), completed[index]? = some projection →
    ∃ step, (scheduledSteps plan proofs)[index]? = some step ∧ Records step projection

theorem completedMatchProofs_iff {completed : List EffectProjection} :
    completedMatchProofs plan proofs completed = true ↔ RecordedUnder plan proofs completed := by
  simp only [completedMatchProofs, List.all_eq_true, Prod.forall, List.mem_zipIdx_iff_getElem?,
    RecordedUnder, getElem?_scheduledSteps, Option.any_eq_true, completesProof_iff,
    Option.map_eq_some_iff]
  constructor
  · intro h index projection hprojection
    obtain ⟨proof, hproof, hrecords⟩ := h projection index hprojection
    exact ⟨_, ⟨proof, hproof, rfl⟩, hrecords⟩
  · intro h projection index hprojection
    obtain ⟨_, ⟨proof, hproof, rfl⟩, hrecords⟩ := h index projection hprojection
    exact ⟨proof, hproof, hrecords⟩

theorem nextCompensationStep_ok_iff {completed : List EffectProjection} {step : CompensationStep} :
    nextCompensationStep plan proofs completed = .ok step ↔
      validateCompensationPlan plan proofs = true ∧ RecordedUnder plan proofs completed ∧
        (scheduledSteps plan proofs)[completed.length]? = some step := by
  rw [getElem?_scheduledSteps, ← completedMatchProofs_iff]
  unfold nextCompensationStep
  by_cases hlength : proofs.length ≤ completed.length
  · simp [hlength]
  · cases hvalid : validateCompensationPlan plan proofs <;>
      cases hmatch : completedMatchProofs plan proofs completed <;> simp [hlength]
    cases proofs[completed.length]? <;> simp

end Calls

/-! ## Accepted schedules -/

theorem indexEffects_values {effects : List EffectKey}
    (h : (effects.map EffectKey.string).Nodup) :
    ((indexEffects effects).entries.map Sigma.snd).Perm effects := by
  have hfold : ∀ index : AList (fun _ : String => EffectKey),
      (∀ effect ∈ effects, effect.string ∉ index) →
      ((effects.foldl (fun index effect => index.insert effect.string effect) index).entries.map
        Sigma.snd).Perm (effects ++ index.entries.map Sigma.snd) := by
    induction effects with
    | nil => exact fun index _ => List.Perm.refl _
    | cons effect effects ih =>
      intro index hfresh
      obtain ⟨hdiffer, hnodup⟩ := List.nodup_cons.mp h
      obtain ⟨hnew, hfresh⟩ := List.forall_mem_cons.mp hfresh
      refine (ih hnodup _ ?_).trans ?_
      · intro other hother hmem
        rcases (AList.mem_insert _).mp hmem with hsame | hmem
        · exact hdiffer (List.mem_map.mpr ⟨other, hother, hsame⟩)
        · exact hfresh other hother hmem
      · rw [AList.entries_insert_of_notMem hnew]
        exact List.perm_middle
  have hall := hfold ∅ (fun _ _ => AList.notMem_empty _)
  rwa [show (∅ : AList (fun _ : String => EffectKey)).entries = [] from rfl, List.map_nil,
    List.append_nil] at hall

/-- What the scan has established of the proofs it read from a state on. -/
structure Scanned (plan : Plan) (scan : CompensationScan) (proofs : List CompensationProof)
    (done : CompensationScan) : Prop where
  valid : ∀ proof ∈ proofs, validCompensationProof proof = true ∧
    effectMatchesPlan proof.inverse plan = true
  outside : ∀ proof ∈ proofs, proof.inverse.string ∉ plan.compensates.map EffectKey.string
  below : ∀ proof ∈ proofs, ∀ previous ∈ scan.previousOrder, proof.dependencyOrder < previous
  decreasing : proofs.Pairwise fun earlier later => later.dependencyOrder < earlier.dependencyOrder
  unseen : ∀ proof ∈ proofs, proof.inverse.string ∉ scan.seenInverse
  distinct : (proofs.map fun proof => proof.inverse.string).Nodup
  originals : (scan.want.entries.map Sigma.snd).Perm
    (proofs.map (fun proof => proof.original.key) ++ done.want.entries.map Sigma.snd)

theorem scanCompensationProof_some {plan : Plan} {scan next : CompensationScan}
    {proof : CompensationProof} (h : scanCompensationProof plan scan proof = some next) :
    (validCompensationProof proof = true ∧ effectMatchesPlan proof.inverse plan = true) ∧
      proof.inverse.string ∉ plan.compensates.map EffectKey.string ∧
      (∀ previous ∈ scan.previousOrder, proof.dependencyOrder < previous) ∧
      proof.inverse.string ∉ scan.seenInverse ∧
      next.previousOrder = some proof.dependencyOrder ∧
      next.seenInverse = proof.inverse.string :: scan.seenInverse ∧
      (scan.want.entries.map Sigma.snd).Perm
        (proof.original.key :: next.want.entries.map Sigma.snd) := by
  revert h
  fun_cases scanCompensationProof plan scan proof
  case case7 hvalid hbelow houtside original hwant hequal hseen =>
    rintro ⟨⟩
    simp only [Bool.or_eq_true, Bool.not_eq_true', not_or, Bool.not_eq_false] at hvalid
    simp only [Bool.not_eq_true', Bool.not_eq_false, EffectKey.equal_iff] at hequal
    obtain ⟨-, rfl⟩ := hequal
    refine ⟨hvalid, by simpa using houtside, ?_, by simpa using hseen, rfl, rfl, ?_⟩
    · intro previous hprevious
      rw [Option.mem_def] at hprevious
      simpa [hprevious] using hbelow
    · exact (ListHeap.entries_perm_erase hwant).map Sigma.snd
  all_goals simp

theorem scanned_of_foldlM {plan : Plan} {scan done : CompensationScan}
    {proofs : List CompensationProof}
    (h : proofs.foldlM (scanCompensationProof plan) scan = some done) :
    Scanned plan scan proofs done := by
  induction proofs generalizing scan with
  | nil =>
    simp only [List.foldlM_nil, Option.pure_def, Option.some.injEq] at h
    subst h
    exact ⟨by simp, by simp, by simp, .nil, by simp, List.nodup_nil, List.Perm.refl _⟩
  | cons proof proofs ih =>
    rw [List.foldlM_cons] at h
    obtain ⟨next, hnext, hrest⟩ := Option.bind_eq_some_iff.mp h
    obtain ⟨hvalid, houtside, hbelow, hseen, horder, hinverse, hperm⟩ :=
      scanCompensationProof_some hnext
    have hscanned := ih hrest
    -- the state after the first proof remembers its order and its inverse
    have hsmaller : ∀ later ∈ proofs, later.dependencyOrder < proof.dependencyOrder :=
      fun later hlater => hscanned.below later hlater _ horder
    have hdiffer : ∀ later ∈ proofs, later.inverse.string ≠ proof.inverse.string ∧
        later.inverse.string ∉ scan.seenInverse := by
      intro later hlater
      have hunseen := hscanned.unseen later hlater
      rw [hinverse, List.mem_cons, not_or] at hunseen
      exact hunseen
    refine ⟨?_, ?_, ?_, ?_, ?_, ?_, ?_⟩
    · exact List.forall_mem_cons.mpr ⟨hvalid, hscanned.valid⟩
    · exact List.forall_mem_cons.mpr ⟨houtside, hscanned.outside⟩
    · refine List.forall_mem_cons.mpr ⟨hbelow, fun later hlater previous hprevious => ?_⟩
      exact (hsmaller later hlater).trans (hbelow previous hprevious)
    · exact List.pairwise_cons.mpr ⟨hsmaller, hscanned.decreasing⟩
    · exact List.forall_mem_cons.mpr ⟨hseen, fun later hlater => (hdiffer later hlater).2⟩
    · refine List.nodup_cons.mpr ⟨fun hmem => ?_, hscanned.distinct⟩
      obtain ⟨later, hlater, hsame⟩ := List.mem_map.mp hmem
      exact (hdiffer later hlater).1 hsame
    · exact hperm.trans (hscanned.originals.cons _)

section Runs

variable [Sha256] {plan : Plan} {proofs : List CompensationProof}

theorem validatePlan_compensates (h : validatePlan plan = true) :
    validCanonicalEffects plan.compensates plan = true := by
  simp only [validatePlan, validPlanEffects, Bool.and_eq_true] at h
  exact h.1.2.1.2

/-- The originals of an accepted schedule are the effects the plan compensates, each once, its
inverses are different and none of these, and its orders decrease. -/
structure Schedules (plan : Plan) (proofs : List CompensationProof) : Prop where
  valid : ∀ proof ∈ proofs, validCompensationProof proof = true ∧
    effectMatchesPlan proof.inverse plan = true
  canonical : validCanonicalEffects plan.compensates plan = true
  originals : (proofs.map fun proof => proof.original.key).Perm plan.compensates
  once : plan.compensates.Nodup
  inverses : (proofs.map CompensationProof.inverse).Nodup
  outside : ∀ proof ∈ proofs, proof.inverse ∉ plan.compensates
  decreasing : proofs.Pairwise fun earlier later => later.dependencyOrder < earlier.dependencyOrder

theorem validateCompensationPlan_schedules (h : validateCompensationPlan plan proofs = true) :
    Schedules plan proofs := by
  simp only [validateCompensationPlan, Bool.and_eq_true] at h
  obtain ⟨⟨⟨⟨hplan, -⟩, -⟩, -⟩, hscan⟩ := h
  have hcanonical := validatePlan_compensates hplan
  have hcompensates : (plan.compensates.map EffectKey.string).Nodup :=
    List.pairwise_map.mpr ((validCanonicalEffects_sorted hcanonical).imp ne_of_lt)
  split at hscan
  · cases hscan
  case h_2 done hdone =>
    have hscanned := scanned_of_foldlM hdone
    have hempty : done.want.entries = [] := by
      simpa [AList.keys, List.keys] using hscan
    have horiginals := hscanned.originals
    rw [hempty, List.map_nil, List.append_nil] at horiginals
    refine ⟨hscanned.valid, hcanonical, horiginals.symm.trans (indexEffects_values hcompensates), hcompensates.of_map _,
      ?_, ?_, hscanned.decreasing⟩
    · have hdistinct := hscanned.distinct
      rw [← Function.comp_def EffectKey.string, ← List.map_map] at hdistinct
      exact hdistinct.of_map _
    · intro proof hproof hmem
      exact hscanned.outside proof hproof (List.mem_map_of_mem hmem)

/-! ## Runs -/

/-- A run: each call gets the projections recorded under the steps returned so far. -/
inductive CompensationRun (plan : Plan) (proofs : List CompensationProof) :
    List CompensationStep → List EffectProjection → Prop
  | start : CompensationRun plan proofs [] []
  | next {steps : List CompensationStep} {completed : List EffectProjection} {step : CompensationStep}
      {projection : EffectProjection} : CompensationRun plan proofs steps completed →
      nextCompensationStep plan proofs completed = .ok step → Records step projection →
      CompensationRun plan proofs (steps ++ [step]) (completed ++ [projection])

variable {completed : List EffectProjection}

/-- The steps of a run are the first ones of the schedule, and its projections record them. -/
theorem CompensationRun.follows {steps : List CompensationStep}
    (h : CompensationRun plan proofs steps completed) :
    completed.length = steps.length ∧
      steps = (scheduledSteps plan proofs).take steps.length ∧ RecordedUnder plan proofs completed := by
  induction h with
  | start => exact ⟨rfl, rfl, by simp [RecordedUnder]⟩
  | @next steps completed step projection _ hnext hrecords ih =>
    obtain ⟨hlength, hsteps, hrecorded⟩ := ih
    obtain ⟨-, -, hstep⟩ := nextCompensationStep_ok_iff.mp hnext
    rw [hlength] at hstep
    refine ⟨by simp [hlength], ?_, ?_⟩
    · obtain ⟨hbound, hget⟩ := List.getElem?_eq_some_iff.mp hstep
      rw [List.length_append, List.length_singleton, List.take_succ_eq_append_getElem hbound, hget,
        ← hsteps]
    · intro index other hother
      rcases ListHeap.getElem?_concat_eq_some.mp hother with hold | ⟨rfl, rfl⟩
      · exact hrecorded index other hold
      · exact ⟨step, hlength ▸ hstep, hrecords⟩

/-! ## Binding of the schedule -/

/-- A proof that `NewCompensationProof` built. Digests are arrays of 32 bytes in the source and
orders are 32-bit words; here only that eight bytes hold their lengths and values. -/
structure Constructed (proof : CompensationProof) : Prop where
  built : ∃ canonical, newCompensationProof proof.original proof.inverse proof.dependencyOrder
    proof.adapterVersion canonical = .ok proof
  order : proof.dependencyOrder ≤ maxUint32
  original : FitsUint64 proof.original.key.digest.digest.length
  inverse : FitsUint64 proof.inverse.digest.digest.length
  evidence : FitsUint64 proof.evidence.digest.length

/-- Two proofs that say the same of the same effects; only the rest of the original's projection
may differ. -/
def SameProof (left right : CompensationProof) : Prop :=
  left.original.key = right.original.key ∧ left = { right with original := left.original }

/-- The bytes that the evidence of a proof is the digest of. -/
def proofCode (proof : CompensationProof) (canonical : List UInt8) : List UInt8 :=
  writeHashFrame "veer.reconciliation.compensation-proof.v1" ++ writeHashFrame contractVersion ++
    writeHashBytes proof.original.key.digest.digest ++ writeHashBytes proof.inverse.digest.digest ++
    writeHashUint64 proof.dependencyOrder ++ writeHashFrame proof.adapterVersion ++
    writeHashBytes canonical

theorem Constructed.evidence_eq {proof : CompensationProof} (h : Constructed proof) :
    validVersion proof.adapterVersion = true ∧ ∃ canonical,
      canonical.length ≤ maxEvidenceBytes ∧
        proof.evidence = digestFromHasher (proofCode proof canonical) := by
  obtain ⟨canonical, hbuilt⟩ := h.built
  unfold newCompensationProof at hbuilt
  split at hbuilt
  · cases hbuilt
  case isFalse hvalid =>
    simp only [Bool.or_eq_true, Bool.not_eq_true', not_or, Bool.not_eq_false, decide_eq_true_eq,
      not_lt] at hvalid
    refine ⟨hvalid.1.1.1.2, canonical, hvalid.1.2, ?_⟩
    have hevidence := congrArg CompensationProof.evidence (Except.ok.inj hbuilt)
    exact hevidence.symm

theorem proofCode_binds {left right : CompensationProof} {x y : List UInt8}
    (hleft : Constructed left) (hright : Constructed right)
    (hlversion : validVersion left.adapterVersion = true)
    (hrversion : validVersion right.adapterVersion = true)
    (h : proofCode left x = proofCode right y) :
    left.original.key.digest.digest = right.original.key.digest.digest ∧
      left.inverse.digest.digest = right.inverse.digest.digest ∧
      left.dependencyOrder = right.dependencyOrder ∧
      left.adapterVersion = right.adapterVersion := by
  simp only [proofCode, List.append_assoc, List.append_cancel_left_eq] at h
  have horder : ∀ {proof : CompensationProof}, Constructed proof →
      FitsUint64 proof.dependencyOrder := by
    intro proof hproof
    have hbound := hproof.order
    unfold maxUint32 at hbound
    unfold FitsUint64
    omega
  obtain ⟨horiginal, h⟩ := writeHashBytes_reads hleft.original hright.original h
  obtain ⟨hinverse, h⟩ := writeHashBytes_reads hleft.inverse hright.inverse h
  obtain ⟨hdepends, h⟩ := writeHashUint64_reads (horder hleft) (horder hright) h
  obtain ⟨hversion, -⟩ := writeHashFrame_reads (validVersion_framable hlversion)
    (validVersion_framable hrversion) h
  exact ⟨horiginal, hinverse, hdepends, hversion⟩

theorem sameProof_of_evidence (hsum : Function.Injective Sha256.sum) {plan : Plan}
    {left right : CompensationProof} (hleft : Constructed left) (hright : Constructed right)
    (hlvalid : validCompensationProof left = true ∧ effectMatchesPlan left.inverse plan = true)
    (hrvalid : validCompensationProof right = true ∧ effectMatchesPlan right.inverse plan = true)
    (hlplan : effectBelongs plan left.original.key = true)
    (hrplan : effectBelongs plan right.original.key = true) (h : left.evidence = right.evidence) :
    SameProof left right := by
  obtain ⟨hlversion, x, -, hx⟩ := hleft.evidence_eq
  obtain ⟨hrversion, y, -, hy⟩ := hright.evidence_eq
  have hcode : proofCode left x = proofCode right y := by
    apply hsum
    exact congrArg DigestValue.digest (hx.symm.trans (h.trans hy))
  obtain ⟨horiginal, hinverse, horder, hversion⟩ :=
    proofCode_binds hleft hright hlversion hrversion hcode
  simp only [effectBelongs, Bool.and_eq_true, beq_iff_eq] at hlplan hrplan
  simp only [effectMatchesPlan, validCompensationProof, Bool.and_eq_true, beq_iff_eq]
    at hlvalid hrvalid
  have hkey : left.original.key = right.original.key := by
    apply EffectKey.eq_of_digest hlplan.1.1.1.1 hrplan.1.1.1.1 _ horiginal
    simp [EffectKey.sameLineage, hlplan, hrplan]
  have heffect : left.inverse = right.inverse := by
    apply EffectKey.eq_of_digest hlvalid.1.1.1.1.2 hrvalid.1.1.1.1.2 _ hinverse
    simp [EffectKey.sameLineage, hlvalid, hrvalid]
  have hinit : left.initialized = right.initialized :=
    hlvalid.1.1.1.1.1.1.1.trans hrvalid.1.1.1.1.1.1.1.symm
  refine ⟨hkey, ?_⟩
  cases left
  cases right
  simp only at hinit heffect horder hversion h
  rw [hinit, heffect, horder, hversion, h]

theorem schedule_evidence (hsum : Function.Injective Sha256.sum)
    {plan : Plan} {left right : List CompensationProof} (hlength : left.length = right.length)
    (hleft : ∀ proof ∈ left, FitsUint64 proof.evidence.digest.length)
    (hright : ∀ proof ∈ right, FitsUint64 proof.evidence.digest.length)
    (h : deriveCompensationSchedule plan left = deriveCompensationSchedule plan right) :
    left.map (fun proof => proof.evidence.digest) = right.map fun proof => proof.evidence.digest := by
  have hbytes := hsum (congrArg DigestValue.digest h)
  simp only [List.append_assoc, List.append_cancel_left_eq] at hbytes
  have hreads := writeHashBytes_reads.field (f := fun proof : CompensationProof => proof.evidence.digest)
  refine (hreads.flatMap hlength hleft hright (x := []) (y := []) ?_).1
  rw [hbytes]

/-- After a first step a call with other proofs fails, unless they say the same. -/
theorem nextCompensationStep_bound (hsum : Function.Injective Sha256.sum)
    {proofs' : List CompensationProof} {step : CompensationStep}
    (hproofs : ∀ proof ∈ proofs, Constructed proof)
    (hproofs' : ∀ proof ∈ proofs', Constructed proof)
    (hvalid : validateCompensationPlan plan proofs = true)
    (hrecorded : RecordedUnder plan proofs completed) (hsome : completed ≠ [])
    (h : nextCompensationStep plan proofs' completed = .ok step) :
    List.Forall₂ SameProof proofs' proofs := by
  obtain ⟨hvalid', hrecorded', -⟩ := nextCompensationStep_ok_iff.mp h
  -- the first projection was recorded under both schedules
  obtain ⟨projection, rest, rfl⟩ := List.exists_cons_of_ne_nil hsome
  obtain ⟨first, hfirst, hrecords⟩ := hrecorded 0 projection rfl
  obtain ⟨first', hfirst', hrecords'⟩ := hrecorded' 0 projection rfl
  rw [getElem?_scheduledSteps, Option.map_eq_some_iff] at hfirst hfirst'
  obtain ⟨proof, -, rfl⟩ := hfirst
  obtain ⟨proof', -, rfl⟩ := hfirst'
  have hsame := Option.some.inj (hrecords'.step.symm.trans hrecords.step)
  have htotal : proofs'.length = proofs.length := congrArg CompensationStep.total hsame
  have hschedule := congrArg CompensationStep.schedule hsame
  have hevidence := schedule_evidence hsum htotal (fun proof hproof => (hproofs' proof hproof).evidence)
    (fun proof hproof => (hproofs proof hproof).evidence) hschedule
  have hs := validateCompensationPlan_schedules hvalid
  have hs' := validateCompensationPlan_schedules hvalid'
  rw [List.forall₂_iff_get]
  refine ⟨htotal, fun i hi hi' => ?_⟩
  have hmem := List.get_mem proofs' ⟨i, hi⟩
  have hmem' := List.get_mem proofs ⟨i, hi'⟩
  have hbelongs : ∀ {l : List CompensationProof} {p : CompensationProof}, Schedules plan l → p ∈ l →
      effectBelongs plan p.original.key = true := by
    intro l p hl hp
    apply validCanonicalEffects_belongs hl.canonical
    exact hl.originals.mem_iff.mp (List.mem_map_of_mem (f := fun proof => proof.original.key) hp)
  have hinit : ∀ {l : List CompensationProof} {p : CompensationProof}, Schedules plan l → p ∈ l →
      p.evidence.initialized = true := by
    intro l p hl hp
    have hproof := (hl.valid p hp).1
    simp only [validCompensationProof, Bool.and_eq_true] at hproof
    exact hproof.2
  have hbytes : (proofs'.get ⟨i, hi⟩).evidence.digest = (proofs.get ⟨i, hi'⟩).evidence.digest := by
    have hentry := congrArg (·[i]?) hevidence
    simpa [hi, hi'] using hentry
  have hequal : (proofs'.get ⟨i, hi⟩).evidence = (proofs.get ⟨i, hi'⟩).evidence := by
    apply (equalDigest_iff.mp ?_).2
    simp only [equalDigest, Bool.and_eq_true, beq_iff_eq]
    exact ⟨⟨hinit hs' hmem, hinit hs hmem'⟩, hbytes⟩
  exact sameProof_of_evidence hsum (hproofs' _ hmem) (hproofs _ hmem') (hs'.valid _ hmem)
    (hs.valid _ hmem') (hbelongs hs' hmem) (hbelongs hs hmem') hequal

/-! ## The order of a run -/

theorem map_scheduledSteps (plan : Plan) (proofs : List CompensationProof) {α : Type}
    (f : CompensationStep → α) (g : CompensationProof → α)
    (h : ∀ index proof, f (compensationStepAt plan proofs index proof) = g proof) :
    (scheduledSteps plan proofs).map f = proofs.map g := by
  apply List.ext_getElem?
  intro index
  rw [List.getElem?_map, List.getElem?_map, getElem?_scheduledSteps]
  cases proofs[index]? with
  | none => rfl
  | some => simp [h]

theorem nextCompensationStep_error
    (h : ∀ step, nextCompensationStep plan proofs completed ≠ .ok step) :
    nextCompensationStep plan proofs completed = .error [.invalidPlan] := by
  revert h
  fun_cases nextCompensationStep plan proofs completed <;> simp

/-- What a run of an accepted schedule is. -/
structure OrderedRun (plan : Plan) (proofs : List CompensationProof) (steps : List CompensationStep)
    (completed : List EffectProjection) : Prop where
  follows : steps = (scheduledSteps plan proofs).take steps.length
  decreasing : (scheduledSteps plan proofs).Pairwise fun earlier later =>
    later.dependencyOrder < earlier.dependencyOrder
  originals : ((scheduledSteps plan proofs).map CompensationStep.original).Perm plan.compensates
  once : plan.compensates.Nodup
  inverses : ((scheduledSteps plan proofs).map CompensationStep.inverse).Nodup
  outside : ∀ step ∈ scheduledSteps plan proofs, step.inverse ∉ plan.compensates
  /-- The run can go on to its last step. -/
  goes : steps.length < proofs.length → ∃ step, nextCompensationStep plan proofs completed = .ok step
  /-- Whoever calls, a step is returned only after the recorded ones before it. -/
  only : ∀ given step, nextCompensationStep plan proofs given = .ok step →
    RecordedUnder plan proofs given ∧ (scheduledSteps plan proofs)[given.length]? = some step
  ends : ∀ given : List EffectProjection, proofs.length ≤ given.length →
    nextCompensationStep plan proofs given = .error [.invalidPlan]
  /-- Other proofs do not continue the run. -/
  bound : Function.Injective Sha256.sum → (∀ proof ∈ proofs, Constructed proof) → completed ≠ [] →
    ∀ proofs', (∀ proof ∈ proofs', Constructed proof) → ¬ List.Forall₂ SameProof proofs' proofs →
      nextCompensationStep plan proofs' completed = .error [.invalidPlan]

/-- Compensation runs every inverse once, in the reverse order of its schedule. -/
theorem compensation_runs_in_order (hvalid : validateCompensationPlan plan proofs = true)
    {steps : List CompensationStep} {completed : List EffectProjection}
    (hrun : CompensationRun plan proofs steps completed) : OrderedRun plan proofs steps completed := by
  obtain ⟨hlength, hsteps, hrecorded⟩ := hrun.follows
  have hs := validateCompensationPlan_schedules hvalid
  refine ⟨hsteps, ?_, ?_, hs.once, ?_, ?_, ?_, ?_, ?_, ?_⟩
  · have horders := map_scheduledSteps plan proofs
      CompensationStep.dependencyOrder CompensationProof.dependencyOrder fun _ _ => rfl
    have hdecreasing : (proofs.map CompensationProof.dependencyOrder).Pairwise (· > ·) :=
      List.pairwise_map.mpr hs.decreasing
    rw [← horders] at hdecreasing
    exact List.pairwise_map.mp hdecreasing
  · rw [map_scheduledSteps _ _ _ (fun proof => proof.original.key) fun _ _ => rfl]
    exact hs.originals
  · rw [map_scheduledSteps _ _ _ CompensationProof.inverse fun _ _ => rfl]
    exact hs.inverses
  · intro step hstep
    obtain ⟨index, hindex⟩ := List.mem_iff_getElem?.mp hstep
    rw [getElem?_scheduledSteps, Option.map_eq_some_iff] at hindex
    obtain ⟨proof, hproof, rfl⟩ := hindex
    exact hs.outside proof (List.mem_of_getElem? hproof)
  · intro hmore
    obtain ⟨step, hstep⟩ : ∃ step, (scheduledSteps plan proofs)[completed.length]? = some step := by
      rw [hlength]
      exact ⟨_, List.getElem?_eq_getElem (by rwa [length_scheduledSteps])⟩
    exact ⟨step, nextCompensationStep_ok_iff.mpr ⟨hvalid, hrecorded, hstep⟩⟩
  · intro given step hstep
    exact (nextCompensationStep_ok_iff.mp hstep).2
  · intro given hgiven
    apply nextCompensationStep_error
    intro step hstep
    obtain ⟨-, -, hget⟩ := nextCompensationStep_ok_iff.mp hstep
    rw [List.getElem?_eq_none (by rwa [length_scheduledSteps])] at hget
    cases hget
  · intro hsum hproofs hsome proofs' hproofs' hdiffer
    apply nextCompensationStep_error
    intro step hstep
    exact hdiffer (nextCompensationStep_bound hsum hproofs hproofs' hvalid hrecorded hsome hstep)

end Runs

/-! ## A schedule of two inverses -/

section Sample

variable [Sha256]

def compensatedEffect (n : UInt8) : EffectKey := { sampleEffect with digest := ⟨true, [n]⟩ }

def sampleCompensation : Plan :=
  Plan.sealed { samplePlan with
    revision := 2
    kind := .compensation
    supersedes := some ⟨true, [0]⟩
    completedEffects := [compensatedEffect 1, compensatedEffect 2]
    compensates := [compensatedEffect 1, compensatedEffect 2] }

/-- The proof that effect `n` is inverted by effect `n + 10`; the original was applied by the
given attempt. -/
def sampleProof (attempt : ID) (n : UInt8) (order : Nat) : CompensationProof :=
  let draft : CompensationProof :=
    { initialized := true
      original :=
        { initialized := true
          key := compensatedEffect n
          planDigest := ⟨true, [0]⟩
          sourceAttemptID := attempt
          purpose := .forward
          compensation := none
          cancellationTarget := none
          state := .applied
          updatedAt := 1 }
      inverse := compensatedEffect (n + 10)
      dependencyOrder := order
      adapterVersion := "v1"
      evidence := .zero }
  { draft with evidence := digestFromHasher (proofCode draft [1]) }

/-- Two effects that the first attempt applied, the second inverted first; the schedule names the
attempt that applied the first one. -/
def sampleSchedule (attempt : ID) : List CompensationProof :=
  [sampleProof "attempt-00000001" 2 2, sampleProof attempt 1 1]

def recordedProjection (step : CompensationStep) : EffectProjection :=
  { initialized := true
    key := step.inverse
    planDigest := step.planDigest
    sourceAttemptID := "attempt-00000003"
    purpose := .compensation
    compensation := some step
    cancellationTarget := none
    state := .applied
    updatedAt := 2 }

def sampleCompleted : List EffectProjection :=
  ((scheduledSteps sampleCompensation (sampleSchedule "attempt-00000001")).take 1).map
    recordedProjection

end Sample

attribute [local instance] plainSha256

theorem sampleProof_constructed (attempt : ID) (n : UInt8) (order : Nat)
    (h : (newCompensationProof (sampleProof attempt n order).original
      (sampleProof attempt n order).inverse order "v1" [1]).toOption =
        some (sampleProof attempt n order))
    (horder : order ≤ maxUint32)
    (hlength : (sampleProof attempt n order).evidence.digest.length < 2 ^ 64) :
    Constructed (sampleProof attempt n order) := by
  have hbuilt : newCompensationProof (sampleProof attempt n order).original
      (sampleProof attempt n order).inverse order "v1" [1] =
        .ok (sampleProof attempt n order) := by
    revert h
    cases newCompensationProof (sampleProof attempt n order).original
      (sampleProof attempt n order).inverse order "v1" [1] with
    | error => exact nofun
    | ok => exact fun h => congrArg Except.ok (Option.some.inj h)
  exact ⟨⟨[1], hbuilt⟩, horder, show 1 < 2 ^ 64 by omega, show 1 < 2 ^ 64 by omega, hlength⟩

theorem sampleSchedule_constructed :
    ∀ proof ∈ sampleSchedule "attempt-00000001" ++ sampleSchedule "attempt-00000002",
      Constructed proof := by
  have hsecond := sampleProof_constructed "attempt-00000001" 2 2 (by decide +kernel) (by decide)
    (by decide +kernel)
  have hfirst := sampleProof_constructed "attempt-00000001" 1 1 (by decide +kernel) (by decide)
    (by decide +kernel)
  have hother := sampleProof_constructed "attempt-00000002" 1 1 (by decide +kernel) (by decide)
    (by decide +kernel)
  intro proof hproof
  rcases List.mem_append.mp hproof with hproof | hproof
  · rcases List.mem_pair.mp hproof with rfl | rfl
    · exact hsecond
    · exact hfirst
  · rcases List.mem_pair.mp hproof with rfl | rfl
    · exact hsecond
    · exact hother

theorem sampleRun :
    CompensationRun sampleCompensation (sampleSchedule "attempt-00000001")
      ((scheduledSteps sampleCompensation (sampleSchedule "attempt-00000001")).take 1)
      sampleCompleted := by
  refine @CompensationRun.next _ _ _ [] [] _ _ .start ?_ ?_
  · rw [nextCompensationStep_ok_iff]
    refine ⟨by decide +kernel, by simp [RecordedUnder], rfl⟩
  · exact ⟨by decide +kernel, rfl, rfl, rfl, rfl, rfl⟩

theorem compensation_runs_in_order_sample :
    OrderedRun sampleCompensation (sampleSchedule "attempt-00000001")
      ((scheduledSteps sampleCompensation (sampleSchedule "attempt-00000001")).take 1)
      sampleCompleted :=
  compensation_runs_in_order (by decide +kernel) sampleRun

/-- A proof of the same content whose original projection names another attempt does not stop the
run: the evidence of a proof binds the key of its original and nothing else of it. -/
theorem compensation_continues_with_restated_original :
    CompensationRun sampleCompensation (sampleSchedule "attempt-00000001")
        ((scheduledSteps sampleCompensation (sampleSchedule "attempt-00000001")).take 1)
        sampleCompleted ∧
      (∀ proof ∈ sampleSchedule "attempt-00000001" ++ sampleSchedule "attempt-00000002",
        Constructed proof) ∧
      sampleSchedule "attempt-00000002" ≠ sampleSchedule "attempt-00000001" ∧
      (nextCompensationStep sampleCompensation (sampleSchedule "attempt-00000002")
        sampleCompleted).toOption.isSome = true :=
  ⟨sampleRun, sampleSchedule_constructed, by decide +kernel, by decide +kernel⟩

end Veer.Reconcile
