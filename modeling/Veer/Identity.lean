import Veer.ReconcileDigest

/-!
# Authenticated principals

A logical identity is an exact issuer and subject with their derived fingerprint. A string of the
model is valid UTF-8, which the source checks. `net/url` stays abstract, as SHA-256 does.
-/
namespace Veer.Identity
open Reconcile (Sha256 DigestValue equalDigest digestFromHasher formatDigest utf8)

/-- The sentinel errors of the package. -/
inductive Sentinel
  | invalidPrincipal | invalidKind | invalidLogicalIdentity | invalidIssuer | invalidSubject
  | invalidAudiences | audienceRequired | tooManyAudiences | invalidGroups | tooManyGroups
  | invalidWorkloadIdentity | workloadIdentityRequired | workloadIdentityForbidden
  | invalidFingerprint
  deriving DecidableEq, Repr

abbrev Failure := List Sentinel

def maxIssuerBytes : Nat := 2048
def maxSubjectBytes : Nat := 255
def maxAudiences : Nat := 16
def maxAudienceBytes : Nat := 2048
def maxGroups : Nat := 256
def maxGroupBytes : Nat := 256
def maxWorkloadIdentityBytes : Nat := 512
def fingerprintDomain : String := "veer.identity.logical-principal.v1"

/-- `unknown` is every value outside the two authenticated kinds. -/
inductive Kind
  | unknown | human | workload
  deriving DecidableEq, Repr

def Kind.string : Kind → String
  | unknown => "unknown"
  | human => "human"
  | workload => "workload"

def validKind (kind : Kind) : Bool := kind == .human || kind == .workload

/-- The parts of a parsed request URI that the issuer check reads. -/
structure ParsedURL where
  scheme : String
  opaquePart : String
  user : Bool
  host : String
  hostname : String
  rendered : String
  deriving DecidableEq, Repr

/-- `url.ParseRequestURI`. -/
class URLParser where
  parseRequestURI : String → Option ParsedURL

/-- A parser for concrete runs. It accepts https URLs of letters, digits, dots, dashes and slashes,
and splits them as `net/url` does. -/
@[reducible] def plainURLParser : URLParser where
  parseRequestURI value :=
    let rest := value.toList.drop 8
    let host := String.ofList (rest.takeWhile (· != '/'))
    if "https://".toList.isPrefixOf value.toList &&
        rest.all fun c => c.isAlphanum || c == '.' || c == '-' || c == '/' then
      some ⟨"https", "", false, host, host, value⟩
    else none

def sampleIssuer : String := "https://issuer.example"

/-- `unicode.IsSpace`. -/
def isSpace (c : Char) : Bool :=
  let n := c.toNat
  decide (9 ≤ n ∧ n ≤ 13) || n == 0x20 || n == 0x85 || n == 0xa0 || n == 0x1680 ||
    decide (0x2000 ≤ n ∧ n ≤ 0x200a) || n == 0x2028 || n == 0x2029 || n == 0x202f ||
    n == 0x205f || n == 0x3000

/-- `unicode.IsControl`. -/
def isControl (c : Char) : Bool :=
  decide (c.toNat < 0x20) || decide (0x7f ≤ c.toNat ∧ c.toNat ≤ 0x9f)

/-- `strings.TrimSpace` changes nothing. -/
def trimmed (value : String) : Bool :=
  !(value.toList.head?.any isSpace) && !(value.toList.getLast?.any isSpace)

def validateClaim (value : String) (maxBytes : Nat) : Bool :=
  !value.toList.isEmpty && decide ((utf8 value).length ≤ maxBytes) && trimmed value &&
    !value.toList.any isControl

def validateSubject (value : String) : Bool :=
  !value.toList.isEmpty && decide ((utf8 value).length ≤ maxSubjectBytes) && trimmed value &&
    value.toList.all fun c => decide (0x20 ≤ c.toNat ∧ c.toNat ≤ 0x7e)

def validateIssuer [URLParser] (value : String) : Bool :=
  validateClaim value maxIssuerBytes && !value.toList.any (fun c => c == '?' || c == '#') &&
    match URLParser.parseRequestURI value with
    | none => false
    | some parsed =>
      parsed.opaquePart == "" && parsed.scheme.toLower == "https" && parsed.host != "" &&
        parsed.hostname != "" && !parsed.user && parsed.rendered == value

/-! ## Logical identities -/

abbrev Fingerprint := DigestValue

def Fingerprint.string (fingerprint : Fingerprint) : String := formatDigest "prn1_" fingerprint

/-- Four big-endian bytes of a 32-bit word. -/
def uint32Bytes (n : Nat) : List UInt8 :=
  [24, 16, 8, 0].map fun shift => UInt8.ofNat (n / 2 ^ shift % 256)

def deriveFingerprint [Sha256] (issuer subject : String) : Fingerprint :=
  digestFromHasher (utf8 fingerprintDomain ++ [0] ++ uint32Bytes (utf8 issuer).length ++
    utf8 issuer ++ uint32Bytes (utf8 subject).length ++ utf8 subject)

structure LogicalIdentity where
  issuer : String
  subject : String
  fingerprint : Fingerprint
  deriving DecidableEq, Repr

section
variable [Sha256] [URLParser]

def validateLogicalIdentity (logical : LogicalIdentity) : Except Failure Unit :=
  if !validateIssuer logical.issuer then .error [.invalidLogicalIdentity, .invalidIssuer]
  else if !validateSubject logical.subject then .error [.invalidLogicalIdentity, .invalidSubject]
  else if !equalDigest logical.fingerprint (deriveFingerprint logical.issuer logical.subject) then
    .error [.invalidLogicalIdentity, .invalidFingerprint]
  else .ok ()

def equalLogicalIdentity (left right : LogicalIdentity) : Bool :=
  (validateLogicalIdentity left).isOk && (validateLogicalIdentity right).isOk &&
    left.issuer == right.issuer && left.subject == right.subject

theorem validateLogicalIdentity_fingerprint {logical : LogicalIdentity}
    (h : (validateLogicalIdentity logical).isOk = true) :
    logical.fingerprint = deriveFingerprint logical.issuer logical.subject := by
  unfold validateLogicalIdentity at h
  split_ifs at h with hissuer hsubject hprint
  · cases h
  · cases h
  · cases h
  · rw [Bool.not_eq_true, Bool.not_eq_false'] at hprint
    exact (Reconcile.equalDigest_iff.mp hprint).2

theorem equalLogicalIdentity_iff {left right : LogicalIdentity} :
    equalLogicalIdentity left right = true ↔
      (validateLogicalIdentity left).isOk = true ∧ left = right := by
  constructor
  · intro h
    simp only [equalLogicalIdentity, Bool.and_eq_true, beq_iff_eq] at h
    obtain ⟨⟨⟨hleft, hright⟩, hissuer⟩, hsubject⟩ := h
    have hl := validateLogicalIdentity_fingerprint hleft
    have hr := validateLogicalIdentity_fingerprint hright
    refine ⟨hleft, ?_⟩
    rcases left with ⟨li, ls, lf⟩
    rcases right with ⟨ri, rs, rf⟩
    simp only at hissuer hsubject hl hr
    subst hissuer hsubject
    rw [hl, hr]
  · rintro ⟨hleft, rfl⟩
    simp [equalLogicalIdentity, hleft]

end

/-! ## Principals -/

structure Principal where
  kind : Kind
  logicalIdentity : LogicalIdentity
  audiences : List String
  groups : List String
  workloadIdentity : Option String
  deriving DecidableEq, Repr

def Principal.fingerprint (principal : Principal) : Fingerprint :=
  principal.logicalIdentity.fingerprint

/-- Each value is below the next one, in byte order. -/
def strictlySorted : List String → Bool
  | a :: b :: rest => decide (a < b) && strictlySorted (b :: rest)
  | _ => true

def validateCanonicalClaims (values : List String) (maxValues maxValueBytes : Nat)
    (invalidError limitError : Sentinel) : Except Failure Unit :=
  if maxValues < values.length then .error [invalidError, limitError]
  else if values.all (validateClaim · maxValueBytes) && strictlySorted values then .ok ()
  else .error [invalidError]

def validateWorkloadForKind : Kind → Option String → Except Failure Unit
  | .human, none => .ok ()
  | .human, some _ => .error [.workloadIdentityForbidden]
  | .workload, none => .error [.workloadIdentityRequired]
  | .workload, some value =>
    if validateClaim value maxWorkloadIdentityBytes then .ok ()
    else .error [.invalidWorkloadIdentity]
  | .unknown, _ => .error [.invalidKind]

def validatePrincipal [Sha256] [URLParser] (principal : Principal) : Except Failure Unit :=
  if !validKind principal.kind then .error [.invalidPrincipal, .invalidKind]
  else
    match validateLogicalIdentity principal.logicalIdentity with
    | .error failure => .error (.invalidPrincipal :: failure)
    | .ok () =>
      match validateCanonicalClaims principal.audiences maxAudiences maxAudienceBytes
          .invalidAudiences .tooManyAudiences with
      | .error failure => .error (.invalidPrincipal :: failure)
      | .ok () =>
        if principal.audiences.isEmpty then .error [.invalidPrincipal, .audienceRequired]
        else
          match validateCanonicalClaims principal.groups maxGroups maxGroupBytes
              .invalidGroups .tooManyGroups with
          | .error failure => .error (.invalidPrincipal :: failure)
          | .ok () =>
            match validateWorkloadForKind principal.kind principal.workloadIdentity with
            | .error failure => .error (.invalidPrincipal :: failure)
            | .ok () => .ok ()

theorem validatePrincipal_logical [Sha256] [URLParser] {principal : Principal}
    (h : (validatePrincipal principal).isOk = true) :
    (validateLogicalIdentity principal.logicalIdentity).isOk = true := by
  cases hlogical : validateLogicalIdentity principal.logicalIdentity with
  | ok => rfl
  | error =>
    simp only [validatePrincipal, hlogical] at h
    split at h
    · cases h
    · cases h

end Veer.Identity
