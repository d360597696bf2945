import Veer.Identity
import Veer.BearerText

/-!
# Trust anchors

`NewAuthenticator` accepts a list of anchors no two of which can overlap, and `Authenticate` routes
an inspected token to the one anchor it matches. The verifier then holds the claims of the token
against the clock. How a configured anchor is validated is a parameter of the routing; texts are
valid UTF-8.
-/
namespace Veer.OIDC
open Identity (validateClaim)
open Bearer (Bytes ascii)

/-- The class of a rune under simple case folding, by a representative. -/
class CaseFolding where
  fold : Char → Char

/-- `strings.EqualFold`. -/
def equalFold [CaseFolding] (left right : String) : Bool :=
  left.toList.map CaseFolding.fold == right.toList.map CaseFolding.fold

/-- Durations are in nanoseconds. -/
def second : Int := 1000000000

/-- `validatedTrustAnchor`, with the fields that routing and the time checks read. -/
structure TrustAnchor where
  issuer : String
  audience : String
  allowedAlgorithms : List String
  acceptedTypes : List String
  maxTokenLifetime : Int
  clockSkew : Int

def maxTypeBytes : Nat := 128
def maxKeyIDBytes : Nat := 256

section
variable [CaseFolding]

/-! ## Routing -/

def trustAnchorsOverlap (left right : TrustAnchor) : Bool :=
  left.issuer == right.issuer && left.audience == right.audience &&
    left.allowedAlgorithms.any right.allowedAlgorithms.contains &&
    left.acceptedTypes.any fun value => right.acceptedTypes.any (equalFold value)

/-- What an inspected token is routed by. -/
structure InspectedToken where
  issuer : String
  audiences : List String
  algorithm : String
  keyID : String
  typeName : String

def acceptsHeader (anchor : TrustAnchor) (token : InspectedToken) : Bool :=
  anchor.allowedAlgorithms.contains token.algorithm && validateClaim token.keyID maxKeyIDBytes &&
    validateClaim token.typeName maxTypeBytes && anchor.acceptedTypes.any (equalFold token.typeName)

def accepts (token : InspectedToken) (anchor : TrustAnchor) : Bool :=
  anchor.issuer == token.issuer && token.audiences.contains anchor.audience &&
    acceptsHeader anchor token

/-- The loop of `Authenticate`; `none` is the rejection. -/
def route (token : InspectedToken) (selected : Option TrustAnchor) :
    List TrustAnchor → Option TrustAnchor
  | [] => selected
  | verifier :: verifiers =>
    if accepts token verifier then
      match selected with
      | some _ => none
      | none => route token (some verifier) verifiers
    else route token selected verifiers

theorem trustAnchorsOverlap_symm (left right : TrustAnchor) :
    trustAnchorsOverlap left right = trustAnchorsOverlap right left := by
  rw [Bool.eq_iff_iff]
  simp only [trustAnchorsOverlap, equalFold, Bool.and_eq_true, beq_iff_eq, List.any_eq_true,
    List.contains_eq_mem, decide_eq_true_eq]
  constructor <;>
  · rintro ⟨⟨⟨hissuer, haudience⟩, algorithm, hleft, hright⟩, value, hvalue, other, hother, hfold⟩
    exact ⟨⟨⟨hissuer.symm, haudience.symm⟩, algorithm, hright, hleft⟩, other, hother, value, hvalue,
      hfold.symm⟩

/-- Case folding is transitive: two types that fold to the token's fold to each other. -/
theorem overlap_of_accepts {token : InspectedToken} {audience : String} {left right : TrustAnchor}
    (haudience : token.audiences = [audience]) (hleft : accepts token left = true)
    (hright : accepts token right = true) : trustAnchorsOverlap left right = true := by
  simp only [accepts, acceptsHeader, haudience, trustAnchorsOverlap, equalFold, Bool.and_eq_true,
    beq_iff_eq, List.any_eq_true, List.contains_eq_mem, decide_eq_true_eq,
    List.mem_singleton] at hleft hright ⊢
  obtain ⟨⟨hissuer, hname⟩, ⟨⟨halgorithm, -⟩, -⟩, value, hvalue, hfold⟩ := hleft
  obtain ⟨⟨hissuer', hname'⟩, ⟨⟨halgorithm', -⟩, -⟩, value', hvalue', hfold'⟩ := hright
  exact ⟨⟨⟨hissuer.trans hissuer'.symm, hname.trans hname'.symm⟩, _, halgorithm, halgorithm'⟩,
    value, hvalue, value', hvalue', hfold.symm.trans hfold'⟩

theorem route_some (token : InspectedToken) (selected : TrustAnchor)
    (verifiers : List TrustAnchor) : route token (some selected) verifiers =
      if verifiers.filter (accepts token) = [] then some selected else none := by
  induction verifiers with
  | nil => rfl
  | cons verifier verifiers ih =>
    rw [route]
    by_cases h : accepts token verifier = true
    · simp [h]
    · simp [h, ih]

theorem route_eq_some {token : InspectedToken} {verifiers : List TrustAnchor}
    {selected : TrustAnchor} :
    route token none verifiers = some selected ↔
      verifiers.filter (accepts token) = [selected] := by
  induction verifiers with
  | nil => simp [route]
  | cons verifier verifiers ih =>
    rw [route]
    by_cases h : accepts token verifier = true
    · rw [if_pos h, route_some, List.filter_cons_of_pos h]
      by_cases hrest : verifiers.filter (accepts token) = [] <;> simp [hrest]
    · rw [if_neg h, List.filter_cons_of_neg h, ih]

/-! ## Configuration -/

variable {Config : Type} (validateTrustAnchor : Config → Except String TrustAnchor)

def addAnchors (validated : List TrustAnchor) : List Config → Except String (List TrustAnchor)
  | [] => .ok validated
  | anchor :: anchors =>
    match validateTrustAnchor anchor with
    | .error message => .error message
    | .ok candidate =>
      if validated.any (trustAnchorsOverlap · candidate) then
        .error "trust anchors have an ambiguous token-class overlap"
      else addAnchors (validated ++ [candidate]) anchors

/-- The anchors of the verifiers, in the order of the configuration. -/
def newAuthenticator (anchors : List Config) : Except String (List TrustAnchor) :=
  if anchors.length = 0 ∨ 16 < anchors.length then
    .error "authenticator must contain between one and 16 trust anchors"
  else addAnchors validateTrustAnchor [] anchors

variable {validateTrustAnchor} {anchors anchors' : List Config} {verifiers : List TrustAnchor}

def Distinct : List TrustAnchor → Prop :=
  List.Pairwise fun left right => trustAnchorsOverlap left right = false

theorem addAnchors_ok {validated : List TrustAnchor} (hdistinct : Distinct validated) :
    addAnchors validateTrustAnchor validated anchors = .ok verifiers ↔
      ∃ added, verifiers = validated ++ added ∧
        List.Forall₂ (validateTrustAnchor · = .ok ·) anchors added ∧ Distinct verifiers := by
  fun_induction addAnchors validateTrustAnchor validated anchors
  case case1 =>
    simp only [List.forall₂_nil_left_iff, Except.ok.injEq]
    constructor
    · rintro rfl
      exact ⟨[], (List.append_nil _).symm, rfl, hdistinct⟩
    · rintro ⟨_, rfl, rfl, -⟩
      exact (List.append_nil _).symm
  case case2 hinvalid => simp [List.forall₂_cons_left_iff, hinvalid]
  case case3 hcandidate hoverlap =>
    obtain ⟨existing, hexisting, hoverlap⟩ := List.any_eq_true.mp hoverlap
    refine iff_of_false nofun ?_
    rintro ⟨added, rfl, hadded, hpairs⟩
    obtain ⟨other, added, hother, -, rfl⟩ := List.forall₂_cons_left_iff.mp hadded
    cases hcandidate.symm.trans hother
    have hnone := (List.pairwise_append.mp hpairs).2.2 existing hexisting _ List.mem_cons_self
    exact Bool.false_ne_true (hnone.symm.trans hoverlap)
  case case4 hvalid hnone ih =>
    rw [ih]
    · simp [List.forall₂_cons_left_iff, hvalid]
    · refine List.pairwise_append.mpr ⟨hdistinct, List.pairwise_singleton _ _, ?_⟩
      simpa using hnone

/-- Acceptance is a condition on the anchors as a set, and the verifiers keep their order. -/
theorem newAuthenticator_ok :
    newAuthenticator validateTrustAnchor anchors = .ok verifiers ↔
      ¬ (anchors.length = 0 ∨ 16 < anchors.length) ∧
      List.Forall₂ (validateTrustAnchor · = .ok ·) anchors verifiers ∧ Distinct verifiers := by
  unfold newAuthenticator
  split_ifs with hlength
  · exact iff_of_false nofun fun ⟨hbound, _⟩ => hbound hlength
  · rw [addAnchors_ok .nil]
    simp only [hlength, List.nil_append, exists_eq_left', not_false_eq_true, true_and]

theorem newAuthenticator_perm (hperm : anchors.Perm anchors')
    (h : newAuthenticator validateTrustAnchor anchors = .ok verifiers) :
    ∃ verifiers', newAuthenticator validateTrustAnchor anchors' = .ok verifiers' := by
  obtain ⟨hlength, hvalid, hdistinct⟩ := newAuthenticator_ok.mp h
  obtain ⟨verifiers', hvalid', hsame⟩ := List.perm_comp_forall₂ hperm.symm hvalid
  refine ⟨verifiers', newAuthenticator_ok.mpr ⟨?_, hvalid', ?_⟩⟩
  · rwa [← hperm.length_eq]
  · exact (hsame.pairwise_iff fun h => (trustAnchorsOverlap_symm _ _).symm.trans h).mpr hdistinct

theorem matching_le_one {token : InspectedToken} {audience : String}
    (haudience : token.audiences = [audience]) (hdistinct : Distinct verifiers) :
    (verifiers.filter (accepts token)).length ≤ 1 := by
  have hmatching := List.Pairwise.filter (accepts token) hdistinct
  have haccepts : ∀ anchor ∈ verifiers.filter (accepts token), accepts token anchor = true :=
    fun anchor hanchor => (List.mem_filter.mp hanchor).2
  generalize verifiers.filter (accepts token) = matching at hmatching haccepts ⊢
  match matching with
  | [] | [_] => simp
  | left :: right :: _ =>
    have hoverlap :=
      overlap_of_accepts haudience (haccepts left (by simp)) (haccepts right (by simp))
    have hnone := (List.pairwise_cons.mp hmatching).1 right List.mem_cons_self
    exact absurd (hnone.symm.trans hoverlap) Bool.false_ne_true

theorem route_perm {verifiers' : List TrustAnchor} (hperm : verifiers.Perm verifiers')
    (token : InspectedToken) : route token none verifiers' = route token none verifiers := by
  refine Option.ext fun selected => ?_
  have hsame := hperm.filter (accepts token)
  rw [route_eq_some, route_eq_some]
  exact ⟨fun hfound => List.perm_singleton.mp (hfound ▸ hsame),
    fun hfound => List.perm_singleton.mp (hfound ▸ hsame.symm)⟩

theorem route_matching {token : InspectedToken} {audience : String}
    (haudience : token.audiences = [audience]) (hdistinct : Distinct verifiers)
    (selected : TrustAnchor) :
    route token none verifiers = some selected ↔
      selected ∈ verifiers ∧ accepts token selected = true := by
  rw [route_eq_some, ← List.mem_filter]
  have hle := matching_le_one haudience hdistinct
  generalize verifiers.filter (accepts token) = matching at hle ⊢
  constructor
  · rintro rfl
    exact List.mem_singleton_self _
  · intro hmem
    obtain ⟨only, rfl⟩ := List.length_eq_one_iff.mp (le_antisymm hle (List.length_pos_of_mem hmem))
    rw [List.mem_singleton.mp hmem]

/-- A token of one audience matches at most one anchor of an accepted list and is routed to that
one, and neither acceptance nor the selected anchor depends on the order of the list, however each
anchor is validated. -/
theorem routing_order_free (validateTrustAnchor : Config → Except String TrustAnchor)
    (anchors : List Config) :
    (∀ verifiers, newAuthenticator validateTrustAnchor anchors = .ok verifiers →
      ∀ token audience, token.audiences = [audience] →
        (verifiers.filter (accepts token)).length ≤ 1 ∧
        ∀ selected, route token none verifiers = some selected ↔
          selected ∈ verifiers ∧ accepts token selected = true) ∧
    ((∃ verifiers, newAuthenticator validateTrustAnchor anchors = .ok verifiers) ↔
      ∀ anchors', anchors.Perm anchors' →
        ∃ verifiers', newAuthenticator validateTrustAnchor anchors' = .ok verifiers') ∧
    ∀ verifiers, newAuthenticator validateTrustAnchor anchors = .ok verifiers →
      ∀ anchors' verifiers', anchors.Perm anchors' →
      newAuthenticator validateTrustAnchor anchors' = .ok verifiers' →
      ∀ token, route token none verifiers' = route token none verifiers := by
  refine ⟨fun verifiers h token audience haudience => ?_, ⟨?_, fun h => h anchors (.refl _)⟩, ?_⟩
  · have hdistinct := (newAuthenticator_ok.mp h).2.2
    exact ⟨matching_le_one haudience hdistinct, route_matching haudience hdistinct⟩
  · exact fun ⟨verifiers, h⟩ anchors' hperm => newAuthenticator_perm hperm h
  · intro verifiers h anchors' verifiers' hperm h'
    have hunique : Relator.RightUnique fun anchor candidate =>
        validateTrustAnchor anchor = .ok candidate :=
      fun _ _ _ hleft hright => Except.ok.inj (hleft.symm.trans hright)
    exact route_perm (List.rel_perm_imp hunique (newAuthenticator_ok.mp h).2.1
      (newAuthenticator_ok.mp h').2.1 hperm)

end

/-! ## Time windows -/

/-- A time by its seconds since the year 1, in 64 bits, and the nanoseconds of the second. -/
structure Instant where
  sec : Int
  nsec : Int

def unixToInternal : Int := 62135596800

/-- `time.Unix(seconds, 0)`, which wraps around. -/
def unix (seconds : Int) : Instant := ⟨(seconds + unixToInternal).bmod (2 ^ 64), 0⟩

def Instant.before (left right : Instant) : Bool :=
  decide (left.sec < right.sec ∨ left.sec = right.sec ∧ left.nsec < right.nsec)

/-- `Time.Add`, where the sum stays within the range of seconds. -/
def Instant.add (time : Instant) (duration : Int) : Instant :=
  let sec := time.sec + duration.tdiv second
  let nsec := time.nsec + duration.tmod second
  if second ≤ nsec then ⟨sec + 1, nsec - second⟩
  else if nsec < 0 then ⟨sec - 1, nsec + second⟩
  else ⟨sec, nsec⟩

/-- Nanoseconds since 1970, without bound. -/
def Instant.unixNano (time : Instant) : Int := (time.sec - unixToInternal) * second + time.nsec

/-- A reading of the clock in the years 1970 to 9999. -/
structure ClockTime extends Instant where
  nsec_nonneg : 0 ≤ nsec
  nsec_lt : nsec < second
  from1970 : unixToInternal ≤ sec
  to9999 : sec < unixToInternal + 253402300800

def parseNumericDate (raw : Bytes) : Option Int :=
  if raw.length = 0 ∨ 19 < raw.length ∨ raw = [48] then none
  else if raw.any fun character => character < 48 || 57 < character then none
  else
    let value : Nat := raw.foldl (fun value character => 10 * value + (character.toNat - 48)) 0
    if value < 2 ^ 63 ∧ 0 < value then some value else none

/-- The raw members of the time claims that are present. -/
structure TimeClaims where
  exp : Option Bytes
  iat : Option Bytes
  nbf : Option Bytes

def validTimes (anchor : TrustAnchor) (now : Instant) (issuedAt expiresAt : Int)
    (notBefore : Option Int) : Bool :=
  if !(now.add (-anchor.clockSkew)).before (unix expiresAt) then false
  else if (now.add anchor.clockSkew).before (unix issuedAt) then false
  else !notBefore.any fun notBefore => (now.add anchor.clockSkew).before (unix notBefore)

/-- Absent, or present with a valid value. -/
def optionalNumericDate : Option Bytes → Option (Option Int)
  | none => some none
  | some raw => (parseNumericDate raw).map some

/-- The time checks of `principalFromClaims`. -/
def checkTimes (anchor : TrustAnchor) (now : Instant) (claims : TimeClaims) : Bool :=
  match claims.exp.bind parseNumericDate, claims.iat.bind parseNumericDate,
    optionalNumericDate claims.nbf with
  | some expiresAt, some issuedAt, some notBefore =>
    if expiresAt ≤ issuedAt ∨ anchor.maxTokenLifetime.tdiv second < expiresAt - issuedAt then false
    else if notBefore.any fun notBefore => expiresAt ≤ notBefore then false
    else validTimes anchor now issuedAt expiresAt notBefore
  | _, _, _ => false

theorem parseNumericDate_range {raw : Bytes} {value : Int}
    (h : parseNumericDate raw = some value) : 0 < value ∧ value < 2 ^ 63 := by
  unfold parseNumericDate at h
  split_ifs at h
  simp only [] at h
  split_ifs at h with hrange
  cases h
  omega

theorem optionalNumericDate_range {raw : Option Bytes} {value : Int}
    (h : optionalNumericDate raw = some (some value)) : 0 < value ∧ value < 2 ^ 63 := by
  cases raw with
  | none => simp [optionalNumericDate] at h
  | some raw =>
    have hvalue : parseNumericDate raw = some value := by simpa [optionalNumericDate] using h
    exact parseNumericDate_range hvalue

/-- A claim that wraps around lies before the clock, whatever whole seconds the skew moves it. -/
theorem ClockTime.before_unix (now : ClockTime) (shift : Int) {seconds : Int}
    (hshift : -300 ≤ shift) (hpositive : 0 < seconds) (hbound : seconds < 2 ^ 63) :
    (now.add (second * shift)).before (unix seconds) = decide (seconds + unixToInternal < 2 ^ 63 ∧
      now.unixNano + second * shift < seconds * second) := by
  have hnonneg := now.nsec_nonneg
  have hnsec := now.nsec_lt
  have hfrom := now.from1970
  have hadd : now.add (second * shift) = ⟨now.sec + shift, now.nsec⟩ := by
    have hdiv : (second * shift).tdiv second = shift := Int.mul_tdiv_cancel_left _ (by decide)
    have hmod : (second * shift).tmod second = 0 := Int.mul_tmod_right _ _
    simp only [Instant.add, hdiv, hmod, add_zero]
    rw [if_neg (by omega), if_neg (by omega)]
  have hwrap : unix seconds = ⟨if seconds + unixToInternal < 2 ^ 63 then
      seconds + unixToInternal else seconds + unixToInternal - 2 ^ 64, 0⟩ := by
    simp only [unix, Int.bmod, unixToInternal]
    congr 1
    split_ifs <;> omega
  rw [hadd, hwrap, Instant.before, decide_eq_decide, Instant.unixNano]
  dsimp only
  unfold second unixToInternal at *
  split_ifs <;> omega

/-- What the configuration asks of the two durations of an anchor. -/
structure TrustAnchor.Timed (anchor : TrustAnchor) : Prop where
  lifetime : second ≤ anchor.maxTokenLifetime ∧ anchor.maxTokenLifetime ≤ 86400 * second ∧
    anchor.maxTokenLifetime.tmod second = 0
  skew : 0 ≤ anchor.clockSkew ∧ anchor.clockSkew ≤ 300 * second ∧ anchor.clockSkew.tmod second = 0

theorem TrustAnchor.Timed.seconds {anchor : TrustAnchor} (h : anchor.Timed) :
    ∃ lifetime skew : Int, anchor.maxTokenLifetime = second * lifetime ∧ lifetime ≤ 86400 ∧
      anchor.clockSkew = second * skew ∧ 0 ≤ skew ∧ skew ≤ 300 := by
  obtain ⟨⟨-, hday, hlifetime⟩, hnonneg, hfive, hskew⟩ := h
  obtain ⟨lifetime, hlifetime⟩ := Int.dvd_of_tmod_eq_zero hlifetime
  obtain ⟨skew, hskew⟩ := Int.dvd_of_tmod_eq_zero hskew
  unfold second at *
  exact ⟨lifetime, skew, hlifetime, by omega, hskew, by omega, by omega⟩

theorem validTimes_iff {anchor : TrustAnchor} {now : Instant} {iat exp : Int} {nbf : Option Int} :
    validTimes anchor now iat exp nbf = true ↔
      (now.add (-anchor.clockSkew)).before (unix exp) = true ∧
      (now.add anchor.clockSkew).before (unix iat) = false ∧
      ∀ start ∈ nbf, (now.add anchor.clockSkew).before (unix start) = false := by
  unfold validTimes
  cases nbf <;> simp

theorem checkTimes_iff {anchor : TrustAnchor} {now : Instant} {claims : TimeClaims} :
    checkTimes anchor now claims = true ↔
      ∃ exp iat nbf, claims.exp.bind parseNumericDate = some exp ∧
        claims.iat.bind parseNumericDate = some iat ∧ optionalNumericDate claims.nbf = some nbf ∧
        iat < exp ∧ exp - iat ≤ anchor.maxTokenLifetime.tdiv second ∧ (∀ start ∈ nbf, start < exp) ∧
        validTimes anchor now iat exp nbf = true := by
  unfold checkTimes
  cases claims.exp.bind parseNumericDate with
  | none => simp
  | some exp =>
    cases claims.iat.bind parseNumericDate with
    | none => simp
    | some iat =>
      cases optionalNumericDate claims.nbf with
      | none => simp
      | some nbf => cases nbf <;> simp <;> tauto

/-- An anchor, a reading of the clock and the claims of a token that is inside its window. -/
example : ∃ (anchor : {anchor : TrustAnchor // anchor.Timed}) (now : ClockTime)
    (claims : TimeClaims), checkTimes anchor.1 now.toInstant claims = true := by
  refine ⟨⟨⟨Identity.sampleIssuer, "veer", ["ES256"], ["JWT"], 3600 * second, 60 * second⟩, ?_, ?_⟩,
    ⟨⟨unixToInternal + 70, 5⟩, ?_, ?_, ?_, ?_⟩, ⟨some (ascii "90"), some (ascii "60"), none⟩, ?_⟩
  all_goals decide

end Veer.OIDC
