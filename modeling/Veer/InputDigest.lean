import Veer.PolicyVersion

/-!
# What an input digest identifies

A decision carries the digest of the input it was made for. The input is hashed without tags, one
frame after the other, with a count before each list and a mark before each optional value. The
frames can be read back, so the digest of a valid input stands for all of it.
-/
namespace Veer.Authorization
open Reconcile (validID validID_framable Sha256 FitsUint64 Framable framable_of_le uint64Bytes
  uint64Bytes_reads utf8 writeHashFrame writeHashFrame_reads word_reads writeOptionalID
  writeOptionalID_reads)
open Identity (URLParser validateClaim validateCanonicalClaims validatePrincipal)
open PrefixCode (Reads)

/-- Two inputs that say the same of the principal, the action and the target. -/
structure SameInput (left right : Input) : Prop where
  kind : left.principal.kind = right.principal.kind
  issuer : left.principal.logicalIdentity.issuer = right.principal.logicalIdentity.issuer
  subject : left.principal.logicalIdentity.subject = right.principal.logicalIdentity.subject
  audiences : left.principal.audiences = right.principal.audiences
  groups : left.principal.groups = right.principal.groups
  workloadIdentity : left.principal.workloadIdentity = right.principal.workloadIdentity
  action : left.action = right.action
  target : left.target = right.target

/-- An input whose frames have lengths that eight bytes hold. -/
structure Input.Readable (input : Input) : Prop where
  issuer : Framable input.principal.logicalIdentity.issuer
  subject : Framable input.principal.logicalIdentity.subject
  audiences : FitsUint64 input.principal.audiences.length ∧
    ∀ audience ∈ input.principal.audiences, Framable audience
  groups : FitsUint64 input.principal.groups.length ∧
    ∀ group ∈ input.principal.groups, Framable group
  workloadIdentity : ∀ value ∈ input.principal.workloadIdentity, Framable value
  initialized : input.target.initialized = true
  objectID : Framable input.target.objectID
  resourceID : Framable input.target.resourceID
  workspaceID : Framable input.target.workspaceID
  environmentID : ∀ id ∈ input.target.environmentID, Framable id
  providerConnectionID : ∀ id ∈ input.target.providerConnectionID, Framable id

theorem claims_reads : Reads
    (fun claims : List String => FitsUint64 claims.length ∧ ∀ claim ∈ claims, Framable claim)
    (fun claims => uint64Bytes claims.length ++ claims.flatMap writeHashFrame) id :=
  (uint64Bytes_reads.counted writeHashFrame_reads).of_view fun _ _ _ _ h => by simpa using h

theorem validateClaim_framable {value : String} {maxBytes : Nat}
    (h : validateClaim value maxBytes = true) (hmax : maxBytes < 2 ^ 64) : Framable value := by
  simp only [validateClaim, Bool.and_eq_true, decide_eq_true_eq] at h
  exact h.1.1.2.trans_lt hmax

theorem validateCanonicalClaims_framable {values : List String} {maxValues maxValueBytes : Nat}
    {invalidError limitError : Identity.Sentinel}
    (h : validateCanonicalClaims values maxValues maxValueBytes invalidError limitError = .ok ())
    (hvalues : maxValues < 2 ^ 64) (hbytes : maxValueBytes < 2 ^ 64) :
    FitsUint64 values.length ∧ ∀ value ∈ values, Framable value := by
  unfold validateCanonicalClaims at h
  split_ifs at h with hlength hall
  rw [Bool.and_eq_true, List.all_eq_true] at hall
  exact ⟨(not_lt.mp hlength).trans_lt hvalues,
    fun value hvalue => validateClaim_framable (hall.1 value hvalue) hbytes⟩

theorem validateWorkloadForKind_framable {kind : Identity.Kind} {workload : Option String}
    (h : Identity.validateWorkloadForKind kind workload = .ok ()) :
    ∀ value ∈ workload, Framable value := by
  intro value hvalue
  cases workload with
  | none => cases hvalue
  | some workload =>
    cases hvalue
    cases kind with
    | workload =>
      unfold Identity.validateWorkloadForKind at h
      dsimp only at h
      split_ifs at h with hclaim
      exact validateClaim_framable hclaim (by decide)
    | human | unknown => cases h

section
variable [Sha256]

theorem Input.Readable.same (hsum : Function.Injective Sha256.sum) {left right : Input}
    (hl : left.Readable) (hr : right.Readable) (h : deriveInputDigest left = deriveInputDigest right) :
    SameInput left right := by
  have hcode := hsum (congrArg Reconcile.DigestValue.digest h)
  simp only [List.append_assoc, List.append_cancel_left_eq] at hcode
  obtain ⟨hkind, hcode⟩ :=
    word_reads Identity.Kind.string_injective Identity.Kind.string_framable trivial trivial hcode
  obtain ⟨hissuer, hcode⟩ := writeHashFrame_reads hl.issuer hr.issuer hcode
  obtain ⟨hsubject, hcode⟩ := writeHashFrame_reads hl.subject hr.subject hcode
  obtain ⟨haudiences, hcode⟩ := claims_reads hl.audiences hr.audiences (by simpa using hcode)
  obtain ⟨hgroups, hcode⟩ := claims_reads hl.groups hr.groups (by simpa using hcode)
  obtain ⟨hworkload, hcode⟩ :=
    writeOptionalID_reads hl.workloadIdentity hr.workloadIdentity hcode
  obtain ⟨haction, hcode⟩ := word_reads Action.string_injective
    (fun action => framable_of_le (by cases action <;> decide)) trivial trivial hcode
  obtain ⟨hobjectKind, hcode⟩ := word_reads ObjectKind.string_injective
    (fun kind => framable_of_le (by cases kind <;> decide)) trivial trivial hcode
  obtain ⟨hobject, hcode⟩ := writeHashFrame_reads hl.objectID hr.objectID hcode
  obtain ⟨hresourceKind, hcode⟩ := word_reads Hierarchy.Kind.string_injective
    (fun kind => framable_of_le (by cases kind <;> decide)) trivial trivial hcode
  obtain ⟨hresource, hcode⟩ := writeHashFrame_reads hl.resourceID hr.resourceID hcode
  obtain ⟨hworkspace, hcode⟩ := writeHashFrame_reads hl.workspaceID hr.workspaceID hcode
  obtain ⟨henvironment, hcode⟩ := writeOptionalID_reads hl.environmentID hr.environmentID hcode
  have hprovider :=
    writeOptionalID_reads.view_eq hl.providerConnectionID hr.providerConnectionID hcode
  have hinit : left.target.initialized = right.target.initialized :=
    hl.initialized.trans hr.initialized.symm
  refine ⟨hkind, hissuer, hsubject, haudiences, hgroups, hworkload, haction, ?_⟩
  rcases left with ⟨_, _, target⟩
  rcases right with ⟨_, _, target'⟩
  cases target
  cases target'
  simp_all only [id_eq]

theorem SameInput.digest_eq {left right : Input} (h : SameInput left right) :
    deriveInputDigest left = deriveInputDigest right := by
  unfold deriveInputDigest
  rw [h.kind, h.issuer, h.subject, h.audiences, h.groups, h.workloadIdentity, h.action, h.target]

variable [URLParser]

theorem validateInput_readable {input : Input} (h : validateInput input = .ok ()) :
    input.Readable := by
  have hframes := validateLogicalIdentity_framable (validateInput_principal h)
  unfold validateInput at h
  split_ifs at h with hprincipal htarget
  rw [Bool.not_eq_true, Bool.not_eq_false'] at hprincipal htarget
  simp only [validateTarget, Bool.and_eq_true, Option.all_eq_true] at htarget
  obtain ⟨⟨⟨⟨⟨⟨⟨⟨hinit, hobject⟩, hresource⟩, hworkspace⟩, -⟩, -⟩, henvironment⟩, hprovider⟩, -⟩ :=
    htarget
  revert hprincipal
  fun_cases validatePrincipal input.principal
  case case7 haudiences _ hgroups hworkload =>
    intro _
    exact {
      issuer := hframes.1
      subject := hframes.2
      audiences := validateCanonicalClaims_framable haudiences (by decide) (by decide)
      groups := validateCanonicalClaims_framable hgroups (by decide) (by decide)
      workloadIdentity := validateWorkloadForKind_framable hworkload
      initialized := hinit
      objectID := validID_framable hobject
      resourceID := validID_framable hresource
      workspaceID := validID_framable hworkspace
      environmentID := fun id hid => validID_framable (henvironment id hid)
      providerConnectionID := fun id hid => validID_framable (hprovider id hid).2 }
  all_goals exact nofun

/-- Valid inputs have one digest exactly when they say the same. -/
theorem input_digest_identifies (hsum : Function.Injective Sha256.sum) {left right : Input}
    (hleft : validateInput left = .ok ()) (hright : validateInput right = .ok ()) :
    deriveInputDigest left = deriveInputDigest right ↔ SameInput left right :=
  ⟨(validateInput_readable hleft).same hsum (validateInput_readable hright), SameInput.digest_eq⟩

end

attribute [local instance] Reconcile.plainSha256 Identity.plainURLParser

/-- A value that moves from the audiences to the groups changes the digest. -/
theorem input_digest_identifies_moved :
    deriveInputDigest
        { sampleInput with principal := { sampleInput.principal with audiences := ["a", "b"] } } ≠
      deriveInputDigest
        { sampleInput with
          principal := { sampleInput.principal with audiences := ["a"], groups := ["b"] } } := by
  intro h
  have hsame := (input_digest_identifies (fun _ _ h => h) (by decide +kernel)
    (by decide +kernel)).mp h
  exact absurd hsame.audiences (by decide)

end Veer.Authorization
