import Veer.PrefixCode
import Veer.ReconcileDigest

/-!
# Reading hash frames back

The hashers of the repository write a text as its length in eight bytes and its UTF-8 bytes. Frames
of this kind are uniquely readable as long as the lengths fit into the eight bytes.
-/
namespace Veer.Reconcile
open PrefixCode (Reads)

/-- A count or a length that eight bytes hold. -/
def FitsUint64 (n : Nat) : Prop := n < 2 ^ 64

/-- A text whose length eight bytes hold. -/
def Framable (value : String) : Prop := FitsUint64 (utf8 value).length

theorem utf8_eq (value : String) : utf8 value = value.toByteArray.data.toList := by
  have h : value.toList.utf8Encode = value.toByteArray := by simp
  rw [← h, utf8, List.utf8Encode, List.data_toByteArray]

theorem utf8_injective : Function.Injective utf8 := by
  intro left right h
  rw [utf8_eq, utf8_eq] at h
  apply String.toByteArray_inj.mp
  exact ByteArray.ext (Array.toList_inj.mp h)

theorem utf8_length_le (value : String) : (utf8 value).length ≤ 4 * value.toList.length := by
  unfold utf8
  induction value.toList with
  | nil => simp
  | cons c =>
    have hc := Char.utf8Size_le_four c
    rw [List.flatMap_cons, List.length_append, String.length_utf8EncodeChar, List.length_cons]
    omega

variable {value : String}

theorem framable_of_length (h : value.toList.length ≤ 2 ^ 32) : Framable value := by
  have hbytes := utf8_length_le value
  unfold Framable FitsUint64
  omega

theorem validID_length {id : ID} (h : validID id = true) : id.toList.length ≤ 128 := by
  unfold validID at h
  split at h
  · cases h
  rename_i c cs hchars
  simp only [Bool.and_eq_true, decide_eq_true_eq] at h
  rw [hchars, List.length_cons]
  omega

theorem validID_framable {id : ID} (h : validID id = true) : Framable id :=
  framable_of_length ((validID_length h).trans (by omega))

theorem uint64Bytes_length (n : Nat) : (uint64Bytes n).length = 8 := rfl

/-- Eight more low bits of two numbers that agree in `j` bits above them. -/
theorem digit_step {m n j k : Nat}
    (hhigh : m / 2 ^ (k + 8) % 2 ^ j = n / 2 ^ (k + 8) % 2 ^ j)
    (hdigit : m / 2 ^ k % 256 = n / 2 ^ k % 256) :
    m / 2 ^ k % 2 ^ (j + 8) = n / 2 ^ k % 2 ^ (j + 8) := by
  rw [pow_add, ← Nat.div_div_eq_div_mul, ← Nat.div_div_eq_div_mul] at hhigh
  rw [show 2 ^ (j + 8) = 256 * 2 ^ j by rw [pow_add, mul_comm]; rfl, Nat.mod_mul, Nat.mod_mul, hdigit]
  exact congrArg (fun high => n / 2 ^ k % 256 + 256 * high) hhigh

theorem uint64Bytes_mod {m n : Nat} (h : uint64Bytes m = uint64Bytes n) :
    m % 2 ^ 64 = n % 2 ^ 64 := by
  have hdigit : ∀ shift ∈ [56, 48, 40, 32, 24, 16, 8, 0],
      m / 2 ^ shift % 256 = n / 2 ^ shift % 256 := by
    intro shift hshift
    have hbyte := List.map_inj_left.mp h shift hshift
    have hvalue := congrArg UInt8.toNat hbyte
    simpa using hvalue
  have h56 := digit_step (j := 0) (k := 56) (by simp [Nat.mod_one]) (hdigit 56 (by simp))
  have h48 := digit_step (k := 48) h56 (hdigit 48 (by simp))
  have h40 := digit_step (k := 40) h48 (hdigit 40 (by simp))
  have h32 := digit_step (k := 32) h40 (hdigit 32 (by simp))
  have h24 := digit_step (k := 24) h32 (hdigit 24 (by simp))
  have h16 := digit_step (k := 16) h24 (hdigit 16 (by simp))
  have h8 := digit_step (k := 8) h16 (hdigit 8 (by simp))
  have h0 := digit_step (k := 0) h8 (hdigit 0 (by simp))
  simpa using h0

theorem uint64Bytes_injective {m n : Nat} (hm : FitsUint64 m) (hn : FitsUint64 n)
    (h : uint64Bytes m = uint64Bytes n) : m = n := by
  have hmod := uint64Bytes_mod h
  rwa [Nat.mod_eq_of_lt hm, Nat.mod_eq_of_lt hn] at hmod

theorem uint64Bytes_reads : Reads FitsUint64 uint64Bytes id :=
  Reads.of_length uint64Bytes_length fun _ _ hm hn h => uint64Bytes_injective hm hn h

theorem writeHashBytes_reads :
    Reads (fun value : List UInt8 => FitsUint64 value.length) writeHashBytes id :=
  uint64Bytes_reads.framed

/-- A frame of any length is read when what follows it has about the same length, since the lengths
add up. -/
theorem writeHashBytes_tail {a b x y : List UInt8}
    (hclose : x.length < y.length + 2 ^ 64 ∧ y.length < x.length + 2 ^ 64)
    (h : writeHashBytes a ++ x = writeHashBytes b ++ y) : a = b ∧ x = y := by
  simp only [writeHashBytes, List.append_assoc] at h
  have htotal := congrArg List.length h
  obtain ⟨hcount, hrest⟩ := List.append_inj h (by rw [uint64Bytes_length, uint64Bytes_length])
  have hlength : a.length = b.length := by
    have hmod := uint64Bytes_mod hcount
    simp only [List.length_append, uint64Bytes_length] at htotal
    omega
  exact List.append_inj hrest hlength

/-- Two frames to the end of the input: a bound on the last one is enough to read both. -/
theorem writeHashBytes_pair {a b x y : List UInt8} (hx : FitsUint64 x.length)
    (hy : FitsUint64 y.length)
    (h : writeHashBytes a ++ writeHashBytes x = writeHashBytes b ++ writeHashBytes y) :
    a = b ∧ x = y := by
  have hclose : (writeHashBytes x).length < (writeHashBytes y).length + 2 ^ 64 ∧
      (writeHashBytes y).length < (writeHashBytes x).length + 2 ^ 64 := by
    simp only [writeHashBytes, List.length_append, uint64Bytes_length]
    unfold FitsUint64 at hx hy
    omega
  obtain ⟨hsame, hlast⟩ := writeHashBytes_tail hclose h
  exact ⟨hsame, writeHashBytes_reads.view_eq hx hy hlast⟩

theorem writeHashFrame_reads : Reads Framable writeHashFrame id := by
  have h : Reads Framable writeHashFrame utf8 := writeHashBytes_reads.field
  exact h.of_view fun _ _ _ _ heq => utf8_injective heq

theorem writeHashUint64_reads : Reads FitsUint64 writeHashUint64 id := by
  intro m n x y hm hn heq
  have hlength : ∀ k, FitsUint64 (uint64Bytes k).length := by
    intro k
    unfold FitsUint64
    rw [uint64Bytes_length]
    omega
  obtain ⟨hbytes, hrest⟩ := writeHashBytes_reads (hlength m) (hlength n) heq
  exact ⟨uint64Bytes_injective hm hn hbytes, hrest⟩

/-- A signed 64-bit number. -/
def FitsInt64 (value : Int) : Prop := -2 ^ 63 ≤ value ∧ value < 2 ^ 63

theorem writeHashInt64_reads : Reads FitsInt64 writeHashInt64 id := by
  intro a b x y ha hb heq
  have hfits : ∀ value : Int, FitsUint64 (value % 2 ^ 64).toNat := by
    intro value
    unfold FitsUint64
    omega
  obtain ⟨hword, hrest⟩ := writeHashUint64_reads (hfits a) (hfits b) heq
  refine ⟨?_, hrest⟩
  unfold FitsInt64 at ha hb
  change (a % 2 ^ 64).toNat = (b % 2 ^ 64).toNat at hword
  change a = b
  omega

theorem validVersion_framable (h : validVersion value = true) : Framable value := by
  apply framable_of_length
  unfold validVersion at h
  split at h
  · cases h
  case h_2 hchars =>
    simp only [Bool.and_eq_true, decide_eq_true_eq] at h
    rw [hchars, List.length_cons]
    omega

theorem word_reads {α : Type} {string : α → String} (hinjective : Function.Injective string)
    (hframable : ∀ value, Framable (string value)) :
    Reads (fun _ => True) (fun value => writeHashFrame (string value)) id := by
  intro a b x y _ _ heq
  obtain ⟨hword, hrest⟩ := writeHashFrame_reads (hframable a) (hframable b) heq
  exact ⟨hinjective hword, hrest⟩

theorem framable_of_le (h : value.toList.length ≤ 100) : Framable value :=
  framable_of_length (h.trans (by omega))

/-- An optional value behind a frame that says whether it is there. -/
theorem optional_reads {α : Type} {P : α → Prop} {write : Option α → List UInt8}
    (body : α → List UInt8) (hnone : write none = writeHashFrame "0")
    (hsome : ∀ value, write (some value) = writeHashFrame "1" ++ body value)
    (h : Reads P body id) : Reads (fun value => ∀ v ∈ value, P v) write id := by
  have hmark : ∀ {x y : List UInt8}, writeHashFrame "0" ++ x ≠ writeHashFrame "1" ++ y := by
    intro x y heq
    have hword := (writeHashFrame_reads (framable_of_le (by decide)) (framable_of_le (by decide))
      heq).1
    revert hword
    decide
  intro a b x y ha hb heq
  cases a with
  | none =>
    cases b with
    | none => exact ⟨rfl, List.append_cancel_left heq⟩
    | some =>
      rw [hnone, hsome, List.append_assoc] at heq
      exact absurd heq hmark
  | some a =>
    cases b with
    | none =>
      rw [hnone, hsome, List.append_assoc] at heq
      exact absurd heq.symm hmark
    | some b =>
      rw [hsome, hsome, List.append_assoc, List.append_assoc] at heq
      obtain ⟨hsame, hrest⟩ := h (ha a rfl) (hb b rfl) (List.append_cancel_left heq)
      exact ⟨congrArg some hsame, hrest⟩

theorem writeOptionalID_reads : Reads (fun value => ∀ id ∈ value, Framable id) writeOptionalID id :=
  optional_reads writeHashFrame rfl (fun _ => rfl) writeHashFrame_reads

/-! ## Texts of digests -/

theorem encode_length_le (bytes : List UInt8) : (RawURLEncoding.encode bytes).length ≤ 2 * bytes.length := by
  fun_induction RawURLEncoding.encode bytes with
  | case1 | case2 | case3 => simp
  | case4 =>
    simp only [List.length_cons]
    omega

theorem parsesAs_length {start : String} (h : parsesAs start value = true) :
    value.toList.length ≤ start.toList.length + 64 := by
  unfold parsesAs at h
  split at h
  next digest hparse =>
    revert hparse
    fun_cases parseDigest start value
    case case4 decoded _ hcheck =>
      intro _
      simp only [not_or, not_not] at hcheck
      have hencoded := encode_length_le decoded
      rw [← hcheck.2, String.toList_append, List.length_append,
        RawURLEncoding.encodeToString, String.toList_ofList]
      omega
    all_goals exact nofun
  next => cases h

theorem formatDigest_length (start : String) (value : DigestValue) :
    (formatDigest start value).toList.length ≤ start.toList.length + 2 * value.digest.length + 7 := by
  have hencoded := encode_length_le value.digest
  unfold formatDigest
  split
  · rw [String.toList_append, List.length_append, RawURLEncoding.encodeToString,
      String.toList_ofList]
    omega
  · rw [String.toList_append, List.length_append]
    have hinvalid : "invalid".toList.length = 7 := rfl
    omega

end Veer.Reconcile
