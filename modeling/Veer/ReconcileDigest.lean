import Veer.RawURLEncoding
import Veer.ReconcileSafety

/-!
# Digests, evidence and provider bindings

SHA-256 is a parameter of the development: nothing here depends on which function it is.
-/
namespace Veer.Reconcile

open RawURLEncoding

class Sha256 where
  sum : List UInt8 → List UInt8

/-- A stand-in for concrete runs; no result depends on it. -/
@[reducible] def plainSha256 : Sha256 := ⟨id⟩

structure DigestValue where
  initialized : Bool
  digest : List UInt8
  deriving DecidableEq, Repr

/-- Go's zero value `digestValue{}`. -/
def DigestValue.zero : DigestValue := ⟨false, List.replicate 32 0⟩

instance : Inhabited DigestValue := ⟨DigestValue.zero⟩

abbrev EvidenceDigest := DigestValue
abbrev PlanDigest := DigestValue
abbrev RequestFingerprint := DigestValue
abbrev ResultDigest := DigestValue

def digestFromHasher [Sha256] (hasher : List UInt8) : DigestValue := ⟨true, Sha256.sum hasher⟩

def deriveDigest [Sha256] (domain : String) (values : List (List UInt8)) : DigestValue :=
  digestFromHasher (writeHashFrame domain ++ writeHashFrame contractVersion ++
    values.flatMap writeHashBytes)

def equalDigest (left right : DigestValue) : Bool :=
  left.initialized && right.initialized && left.digest == right.digest

theorem equalDigest_iff {left right : DigestValue} :
    equalDigest left right = true ↔ left.initialized = true ∧ left = right := by
  rcases left with ⟨li, ld⟩
  rcases right with ⟨ri, rd⟩
  simp only [equalDigest, Bool.and_eq_true, beq_iff_eq, DigestValue.mk.injEq]
  constructor
  · rintro ⟨⟨rfl, rfl⟩, rfl⟩
    exact ⟨rfl, rfl, rfl⟩
  · rintro ⟨rfl, rfl, rfl⟩
    exact ⟨⟨rfl, rfl⟩, rfl⟩

def formatDigest (start : String) (value : DigestValue) : String :=
  if value.initialized then start ++ encodeToString value.digest else start ++ "invalid"

theorem formatDigest_injective {p : String} {left right : DigestValue}
    (hl : left.initialized = true) (hr : right.initialized = true)
    (h : formatDigest p left = formatDigest p right) : left = right := by
  rcases left with ⟨li, ld⟩
  rcases right with ⟨ri, rd⟩
  simp only at hl hr
  subst hl hr
  simp only [formatDigest, if_true] at h
  have hd : encodeToString ld = encodeToString rd := by
    rw [String.ext_iff, String.toList_append, String.toList_append] at h
    exact String.toList_inj.mp (List.append_cancel_left h)
  rw [encodeToString_injective hd]

/-- The part of a text after a given start, if the text starts so. -/
def trimStart (start value : String) : Option (List Char) :=
  if start.toList.isPrefixOf value.toList then some (value.toList.drop start.length) else none

/-- The shared form of `parseDigest`, `ParseInputDigest` and `ParsePolicyVersion`. The
decoder of the source also skips line breaks; the last comparison rejects such a text. -/
def parseDigest (start value : String) : Except Failure DigestValue :=
  match trimStart start value with
  | none => .error [.invalidDigest]
  | some text =>
    match decode text with
    | none => .error [.invalidDigest]
    | some decoded =>
      if decoded.length ≠ 32 ∨ start ++ encodeToString decoded ≠ value then
        .error [.invalidDigest]
      else .ok ⟨true, decoded⟩

def parsesAs (start value : String) : Bool :=
  match parseDigest start value with
  | .ok _ => true
  | .error _ => false

/-! ## Evidence -/

structure Evidence where
  initialized : Bool
  kind : EvidenceKind
  version : String
  digest : EvidenceDigest
  deriving DecidableEq, Repr

def validateEvidence (value : Evidence) : Bool :=
  value.initialized && validVersion value.version && value.digest.initialized

def Evidence.equal (value other : Evidence) : Bool :=
  validateEvidence value && validateEvidence other && value.kind == other.kind &&
    value.version == other.version && equalDigest value.digest other.digest

def writeEvidence (value : Evidence) : List UInt8 :=
  writeHashFrame value.kind.string ++ writeHashFrame value.version ++
    writeHashBytes value.digest.digest

def evidenceHasKind (value : Evidence) (kind : EvidenceKind) : Bool :=
  validateEvidence value && value.kind == kind

/-! ## Provider bindings -/

structure ProviderBinding where
  initialized : Bool
  connectionID : ID
  connectionGeneration : Int
  connectionResourceVersion : String
  connectionEvidence : Evidence
  credentialReferenceID : ID
  credentialGeneration : Int
  credentialResourceVersion : String
  credentialEvidence : Evidence
  deriving DecidableEq, Repr

def validateProviderBinding (value : ProviderBinding) : Bool :=
  value.initialized && validID value.connectionID && validID value.credentialReferenceID &&
    decide (1 ≤ value.connectionGeneration) && decide (1 ≤ value.credentialGeneration) &&
    validVersion value.connectionResourceVersion && validVersion value.credentialResourceVersion &&
    evidenceHasKind value.connectionEvidence .providerConnection &&
    value.connectionEvidence.version == value.connectionResourceVersion &&
    evidenceHasKind value.credentialEvidence .credentialReference &&
    value.credentialEvidence.version == value.credentialResourceVersion

def writeProviderBinding : Option ProviderBinding → List UInt8
  | none => writeHashFrame "0"
  | some value =>
    writeHashFrame "1" ++ writeHashFrame value.connectionID ++
      writeHashInt64 value.connectionGeneration ++
      writeHashFrame value.connectionResourceVersion ++ writeEvidence value.connectionEvidence ++
      writeHashFrame value.credentialReferenceID ++ writeHashInt64 value.credentialGeneration ++
      writeHashFrame value.credentialResourceVersion ++ writeEvidence value.credentialEvidence

end Veer.Reconcile
