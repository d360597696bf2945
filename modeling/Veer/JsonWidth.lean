import Veer.JsonText

/-!
# The size of compact JSON text

How many bytes of UTF-8 a text takes. An object takes one byte for its opening brace and, for each
member, the name, a colon, the value, and the comma or brace that follows.
-/
namespace Veer.JsonText

/-- Bytes of a text in UTF-8. -/
def width (text : List Char) : Nat := (text.map Char.utf8Size).sum

@[simp] theorem width_nil : width [] = 0 := rfl

@[simp] theorem width_cons (c : Char) (text : List Char) :
    width (c :: text) = c.utf8Size + width text := by
  simp [width]

@[simp] theorem width_append (left right : List Char) :
    width (left ++ right) = width left + width right := by
  simp [width]

theorem width_flatMap_encode (text : List Char) :
    (text.flatMap String.utf8EncodeChar).length = width text := by
  induction text with
  | nil => rfl
  | cons c text ih =>
    rw [List.flatMap_cons, List.length_append, String.length_utf8EncodeChar, ih, width_cons]

/-! ## Strings -/

/-- One byte that an encoder writes as it is. -/
def plain (c : Char) : Bool :=
  c.isAlphanum || c == '.' || c == '_' || c == ':' || c == '/' || c == '-'

theorem plain_lt {c : Char} (h : plain c = true) : c.toNat < 128 := by
  simp only [plain, Char.isAlphanum, Char.isAlpha, Char.isUpper, Char.isLower, Char.isDigit,
    Bool.or_eq_true, Bool.and_eq_true, decide_eq_true_eq, beq_iff_eq, ge_iff_le,
    UInt32.le_iff_toNat_le] at h
  rcases h with (((((letter | digit) | rfl) | rfl) | rfl) | rfl) | rfl
  · change (65 ≤ c.toNat ∧ c.toNat ≤ 90) ∨ (97 ≤ c.toNat ∧ c.toNat ≤ 122) at letter
    omega
  · change 48 ≤ c.toNat ∧ c.toNat ≤ 57 at digit
    omega
  all_goals decide

theorem escape_plain {c : Char} (h : plain c = true) : escape c = [c] := by
  have hall : ∀ n : Fin 128, plain (Char.ofNat n) = true → escape (Char.ofNat n) = [Char.ofNat n] := by
    decide +kernel
  have hc := hall ⟨c.toNat, plain_lt h⟩
  rw [Char.ofNat_toNat] at hc
  exact hc h

theorem utf8Size_plain {c : Char} (h : plain c = true) : c.utf8Size = 1 := by
  have hlt := plain_lt h
  rw [Char.utf8Size_eq_one_iff, UInt32.le_iff_toNat_le]
  change c.toNat ≤ 127
  omega

theorem utf8Size_hexDigit {n : Nat} (h : n < 16) : (hexDigit n).utf8Size = 1 := by
  have hall : ∀ k : Fin 16, (hexDigit k).utf8Size = 1 := by decide
  exact hall ⟨n, h⟩

theorem width_escape_le (c : Char) : width (escape c) ≤ 6 := by
  have hsize := c.utf8Size_le_four
  have hmark : Char.utf8Size '\\' = 1 := by decide
  unfold escape
  split_ifs with _ _ _ _ _ _ _ hnumbered
  · decide
  · decide
  · decide
  · decide
  · decide
  · decide
  · decide
  · have hlt := numbered_lt hnumbered
    have hletter : Char.utf8Size 'u' = 1 := by decide
    simp only [width_cons, width_nil, hmark, hletter, utf8Size_hexDigit (n := c.toNat / 4096) (by omega),
      utf8Size_hexDigit (Nat.mod_lt _ (by decide))]
    omega
  · simp only [width_cons, width_nil]
    omega

theorem width_flatMap_escape_le (text : List Char) : width (text.flatMap escape) ≤ 6 * text.length := by
  induction text with
  | nil => exact Nat.le_refl 0
  | cons c =>
    have hc := width_escape_le c
    rw [List.flatMap_cons, width_append, List.length_cons]
    omega

theorem width_quote_le (value : String) : width (quote value) ≤ 6 * value.toList.length + 2 := by
  have hescaped := width_flatMap_escape_le value.toList
  have hmark : Char.utf8Size '"' = 1 := by decide
  simp only [quote, width_cons, width_append, width_nil, hmark]
  omega

theorem width_quote_plain {value : String} (h : value.toList.all plain = true) :
    width (quote value) = value.toList.length + 2 := by
  have hescaped : ∀ text : List Char, text.all plain = true →
      width (text.flatMap escape) = text.length := by
    intro text
    induction text with
    | nil => exact fun _ => rfl
    | cons c text ih =>
      intro htext
      rw [List.all_cons, Bool.and_eq_true] at htext
      rw [List.flatMap_cons, width_append, escape_plain htext.1, ih htext.2, List.length_cons,
        width_cons, width_nil, utf8Size_plain htext.1]
      omega
  have hmark : Char.utf8Size '"' = 1 := by decide
  simp only [quote, width_cons, width_append, width_nil, hmark, hescaped _ h]
  omega

/-! ## Numbers -/

theorem width_toDigits (n : Nat) : width (Nat.toDigits 10 n) = (Nat.toDigits 10 n).length := by
  have hsize : ∀ c ∈ Nat.toDigits 10 n, c.utf8Size = 1 := by
    intro c hc
    have hdigit := Nat.isDigit_of_mem_toDigits (by omega) (by omega) hc
    exact utf8Size_plain (by simp [plain, Char.isAlphanum, hdigit])
  unfold width
  rw [List.map_congr_left hsize]
  simp

theorem width_number_le {n k : Nat} (hk : 0 < k) (h : n < 10 ^ k) : width (number n) ≤ k := by
  have hlength := (Nat.length_toDigits_le_iff (b := 10) (by decide) hk).mpr h
  rw [← width_toDigits] at hlength
  exact hlength

/-! ## Objects -/

section
variable {α : Type*} (render : α → List Char)

/-- A member and the character that follows it. -/
def memberWidth (member : String × α) : Nat := width (quote member.1) + width (render member.2) + 2

def membersWidth (members : List (String × α)) : Nat := (members.map (memberWidth render)).sum

@[simp] theorem membersWidth_nil : membersWidth render [] = 0 := rfl

@[simp] theorem membersWidth_cons (name : String) (value : α) (rest : List (String × α)) :
    membersWidth render ((name, value) :: rest) =
      width (quote name) + width (render value) + 2 + membersWidth render rest := by
  simp [membersWidth, memberWidth]

@[simp] theorem membersWidth_append (left right : List (String × α)) :
    membersWidth render (left ++ right) = membersWidth render left + membersWidth render right := by
  simp [membersWidth]

theorem memberWidth_le {member : String × α} {members : List (String × α)} (h : member ∈ members) :
    memberWidth render member ≤ membersWidth render members :=
  List.single_le_sum (by simp) _ (List.mem_map_of_mem h)

theorem width_continued (members : List (String × α)) :
    width (continued render members) = membersWidth render members + 1 := by
  have hbrace : Char.utf8Size '}' = 1 := by decide
  have hcomma : Char.utf8Size ',' = 1 := by decide
  have hcolon : Char.utf8Size ':' = 1 := by decide
  induction members with
  | nil => simp [continued, hbrace]
  | cons member rest ih =>
    obtain ⟨name, value⟩ := member
    simp only [continued, width_cons, width_append, hcomma, hcolon, ih, membersWidth_cons]
    omega

theorem width_object {members : List (String × α)} (h : members ≠ []) :
    width (object render members) = membersWidth render members + 1 := by
  have hbrace : Char.utf8Size '{' = 1 := by decide
  have hcolon : Char.utf8Size ':' = 1 := by decide
  cases members with
  | nil => exact absurd rfl h
  | cons member =>
    obtain ⟨name, value⟩ := member
    simp only [object, width_cons, width_append, hbrace, hcolon, width_continued, membersWidth_cons]
    omega

end

end Veer.JsonText
