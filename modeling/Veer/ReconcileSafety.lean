import Veer.ReconcileVocabulary

/-!
# Identifiers, canonical time and hash framing

An instant is the number of nanoseconds since Go's zero time, 0001-01-01T00:00:00Z, so
`IsZero` is equality with `0` and `Before` is `<`. A hasher is the list of bytes written
to it so far.
-/
namespace Veer.Reconcile

/-- The first instant of year 10000. -/
def endOfYear9999 : Int := 3652059 * (24 * hour)

def normalizeTime (value : Int) : Except Failure Int :=
  if value = 0 then .error [.invalidTime]
  else
    let truncated := value - value % millisecond
    if truncated < 0 ∨ endOfYear9999 ≤ truncated then .error [.invalidTime] else .ok truncated

def addNormalizedDuration (value : Int) (duration : Int) : Except Failure Int :=
  if duration < 0 then .error [.invalidTime] else normalizeTime (value + duration)

/-- `Time.Sub` saturates at the ends of the signed 64-bit nanosecond range. -/
def timeSub (left right : Int) : Int :=
  max (-maxInt64 - 1) (min maxInt64 (left - right))

theorem normalizeTime_ok {value now : Int} (h : normalizeTime value = .ok now) :
    now ≤ value ∧ value < now + millisecond ∧ 0 ≤ now ∧ now < endOfYear9999 ∧
      now % millisecond = 0 := by
  simp only [normalizeTime] at h
  split_ifs at h with hz hr
  simp only [Except.ok.injEq] at h
  simp only [not_or, not_lt, not_le] at hr
  unfold millisecond at *
  omega

theorem addNormalizedDuration_ok {value until_ : Int} {duration : Int}
    (h : addNormalizedDuration value duration = .ok until_) :
    0 ≤ duration ∧ normalizeTime (value + duration) = .ok until_ := by
  unfold addNormalizedDuration at h
  split_ifs at h with hd
  exact ⟨not_lt.mp hd, h⟩

/-- Adding whole milliseconds to a canonical instant is exact. -/
theorem addNormalizedDuration_exact {value until_ : Int} {duration : Int}
    (h : addNormalizedDuration value duration = .ok until_) (hv : value % millisecond = 0)
    (hd : duration % millisecond = 0) : until_ = value + duration := by
  obtain ⟨-, hn⟩ := addNormalizedDuration_ok h
  obtain ⟨hle, hlt, -, -, hm⟩ := normalizeTime_ok hn
  unfold millisecond at *
  omega

/-- A stable opaque identifier. -/
abbrev ID := String

def idRune (c : Char) : Bool := c.isAlphanum || c == '_' || c == '-'

/-- `resource.ParseID`, pattern `^[A-Za-z0-9][A-Za-z0-9_-]{15,127}$`. -/
def validID (value : ID) : Bool :=
  match value.toList with
  | [] => false
  | c :: cs => c.isAlphanum && cs.all idRune && decide (15 ≤ cs.length) && decide (cs.length ≤ 127)

def versionRune (c : Char) : Bool :=
  c.isAlphanum || c == '.' || c == '_' || c == ':' || c == '/' || c == '-'

/-- An alphanumeric and at most 127 version runes, as `versionPattern` has it. -/
def validVersion (value : String) : Bool :=
  match value.toList with
  | [] => false
  | c :: cs => c.isAlphanum && cs.all versionRune && decide (cs.length ≤ 127)

theorem validID_ne_empty {value : ID} (h : validID value = true) : value ≠ "" := by
  rintro rfl
  simp [validID] at h

theorem validID_no_colon {value : ID} (h : validID value = true) : ':' ∉ value.toList := by
  unfold validID at h
  cases hl : value.toList with
  | nil => simp
  | cons =>
    simp only [hl, Bool.and_eq_true, List.all_eq_true] at h
    obtain ⟨⟨⟨hc, hcs⟩, -⟩, -⟩ := h
    intro hm
    rcases List.mem_cons.mp hm with rfl | hm
    · simp at hc
    · simpa [idRune] using hcs _ hm

/-- The UTF-8 bytes of a string, as the hasher receives them. -/
def utf8 (value : String) : List UInt8 := value.toList.flatMap String.utf8EncodeChar

/-- Eight big-endian bytes of a 64-bit word. -/
def uint64Bytes (n : Nat) : List UInt8 :=
  [56, 48, 40, 32, 24, 16, 8, 0].map fun shift => UInt8.ofNat (n / 2 ^ shift % 256)

def writeHashBytes (value : List UInt8) : List UInt8 := uint64Bytes value.length ++ value

def writeHashFrame (value : String) : List UInt8 := writeHashBytes (utf8 value)

/-- The two's complement bytes of a signed 64-bit integer, framed. -/
def writeHashInt64 (value : Int) : List UInt8 := writeHashBytes (uint64Bytes (value % 2 ^ 64).toNat)

def writeHashUint64 (value : Nat) : List UInt8 := writeHashBytes (uint64Bytes value)

def writeOptionalID : Option ID → List UInt8
  | none => writeHashFrame "0"
  | some value => writeHashFrame "1" ++ writeHashFrame value

/-- `Time.UnixMilli`: milliseconds since 1970-01-01, which is day 719162 after the zero time. -/
def unixMilli (value : Int) : Int := (value - 719162 * (24 * hour)) / millisecond

end Veer.Reconcile
