import Veer.PrefixCode

/-!
# Compact JSON text

Strings, numbers and objects as an encoder writes them with no blanks: the members of an object in
the order given, HTML and JavaScript metacharacters escaped. The text of a string or an object shows
its own end, the text of a number ends before the first character that is not a digit, so the text
of an object determines its members.
-/
namespace Veer.JsonText
open PrefixCode (Reads ReadsBefore)

/-! ## Strings -/

def hexDigit (n : Nat) : Char := "0123456789abcdef".toList.getD n '0'

def hexValue (c : Char) : Nat := "0123456789abcdef".toList.idxOf c

/-- Characters that are written by number. -/
def numbered (c : Char) : Bool :=
  decide (c.toNat < 0x20) || c == '<' || c == '>' || c == '&' || c.toNat == 0x2028 ||
    c.toNat == 0x2029

def escape (c : Char) : List Char :=
  if c = '"' then ['\\', '"']
  else if c = '\\' then ['\\', '\\']
  else if c = '\x08' then ['\\', 'b']
  else if c = '\x0c' then ['\\', 'f']
  else if c = '\n' then ['\\', 'n']
  else if c = '\r' then ['\\', 'r']
  else if c = '\t' then ['\\', 't']
  else if numbered c then
    ['\\', 'u', hexDigit (c.toNat / 4096), hexDigit (c.toNat / 256 % 16),
      hexDigit (c.toNat / 16 % 16), hexDigit (c.toNat % 16)]
  else [c]

/-- One character of a string, read back. -/
def unescape : List Char → Option (Char × List Char)
  | '\\' :: 'u' :: a :: b :: c :: d :: rest =>
    some (Char.ofNat (hexValue a * 4096 + hexValue b * 256 + hexValue c * 16 + hexValue d), rest)
  | '\\' :: 'b' :: rest => some ('\x08', rest)
  | '\\' :: 'f' :: rest => some ('\x0c', rest)
  | '\\' :: 'n' :: rest => some ('\n', rest)
  | '\\' :: 'r' :: rest => some ('\r', rest)
  | '\\' :: 't' :: rest => some ('\t', rest)
  | '\\' :: c :: rest => some (c, rest)
  | c :: rest => some (c, rest)
  | [] => none

def quote (value : String) : List Char := '"' :: (value.toList.flatMap escape ++ ['"'])

theorem hexValue_hexDigit {n : Nat} (h : n < 16) : hexValue (hexDigit n) = n := by
  have hall : ∀ k : Fin 16, hexValue (hexDigit k) = k.val := by decide
  exact hall ⟨n, h⟩

theorem numbered_lt {c : Char} (h : numbered c = true) : c.toNat < 65536 := by
  simp only [numbered, Bool.or_eq_true, decide_eq_true_eq, beq_iff_eq] at h
  rcases h with ((((h | rfl) | rfl) | rfl) | h) | h
  · omega
  · decide
  · decide
  · decide
  · omega
  · omega

theorem unescape_escape (c : Char) (rest : List Char) :
    unescape (escape c ++ rest) = some (c, rest) := by
  unfold escape
  split_ifs with h1 h2 h3 h4 h5 h6 h7 h8
  · rw [h1]; rfl
  · rw [h2]; rfl
  · rw [h3]; rfl
  · rw [h4]; rfl
  · rw [h5]; rfl
  · rw [h6]; rfl
  · rw [h7]; rfl
  · have hlt := numbered_lt h8
    simp only [List.cons_append, List.nil_append, unescape, Option.some.injEq, Prod.mk.injEq,
      and_true]
    rw [hexValue_hexDigit (by omega), hexValue_hexDigit (by omega), hexValue_hexDigit (by omega),
      hexValue_hexDigit (by omega)]
    have hsum : c.toNat / 4096 * 4096 + c.toNat / 256 % 16 * 256 + c.toNat / 16 % 16 * 16 +
        c.toNat % 16 = c.toNat := by omega
    rw [hsum, Char.ofNat_toNat]
  · unfold unescape
    simp [h2]

theorem escape_reads : Reads (fun _ => True) escape id := by
  intro a b x y _ _ heq
  have hread := congrArg unescape heq
  rw [unescape_escape, unescape_escape] at hread
  simpa using hread

theorem escape_ne_quote (c : Char) (x y : List Char) : escape c ++ x ≠ '"' :: y := by
  intro h
  unfold escape at h
  split_ifs at h with h1
  all_goals simp_all

theorem quote_reads : Reads (fun _ => True) quote id := by
  intro s t x y _ _ heq
  have hchars : ∀ l m : List Char, l.flatMap escape ++ '"' :: x = m.flatMap escape ++ '"' :: y →
      l = m ∧ x = y := by
    intro l
    induction l with
    | nil =>
      intro m h
      cases m with
      | nil => simpa using h
      | cons d =>
        rw [List.flatMap_cons, List.append_assoc] at h
        exact absurd h.symm (escape_ne_quote d _ _)
    | cons c l ih =>
      intro m h
      cases m with
      | nil =>
        rw [List.flatMap_cons, List.append_assoc] at h
        exact absurd h (escape_ne_quote c _ _)
      | cons d m =>
        simp only [List.flatMap_cons, List.append_assoc] at h
        obtain ⟨hc, hrest⟩ := escape_reads trivial trivial h
        obtain ⟨hl, hxy⟩ := ih m hrest
        exact ⟨congrArg₂ List.cons hc hl, hxy⟩
  simp only [quote, List.cons_append, List.append_assoc, List.cons.injEq, true_and,
    List.nil_append] at heq
  obtain ⟨hsame, hrest⟩ := hchars _ _ heq
  exact ⟨String.ext hsame, hrest⟩

/-! ## Numbers -/

/-- No digit comes next. -/
def Stops (rest : List Char) : Prop := ∀ c ∈ rest.head?, c.isDigit = false

def number : Int → List Char
  | .ofNat n => Nat.toDigits 10 n
  | .negSucc n => '-' :: Nat.toDigits 10 (n + 1)

theorem toDigits_readsBefore : ReadsBefore Stops (fun _ => True) (Nat.toDigits 10) id := by
  intro m n x y hx hy _ _ heq
  have htake : ∀ (k : Nat) (rest : List Char), Stops rest →
      (Nat.toDigits 10 k ++ rest).takeWhile Char.isDigit = Nat.toDigits 10 k := by
    intro k rest hrest
    rw [List.takeWhile_append_of_pos fun c hc => Nat.isDigit_of_mem_toDigits (by omega) (by omega) hc]
    cases rest with
    | nil => simp
    | cons c => simp [hrest c rfl]
  have hdigits := congrArg (List.takeWhile Char.isDigit) heq
  rw [htake m x hx, htake n y hy] at hdigits
  have hvalue := congrArg (fun digits => Nat.ofDigitChars 10 digits 0) hdigits
  simp only [Nat.ofDigitChars_toDigits (b := 10) (by omega) (by omega)] at hvalue
  rw [hdigits] at heq
  exact ⟨hvalue, List.append_cancel_left heq⟩

theorem toDigits_head (n : Nat) : ∃ c rest, Nat.toDigits 10 n = c :: rest ∧ c.isDigit = true := by
  cases hdigits : Nat.toDigits 10 n with
  | nil => exact absurd hdigits Nat.toDigits_ne_nil
  | cons c rest =>
    refine ⟨c, rest, rfl, Nat.isDigit_of_mem_toDigits (b := 10) (n := n) (by omega) (by omega) ?_⟩
    rw [hdigits]
    exact List.mem_cons_self

/-- The digits of a number do not start as another kind of value does. -/
theorem toDigits_ne_cons (n : Nat) (x y : List Char) {c : Char} (h : c.isDigit = false) :
    Nat.toDigits 10 n ++ x ≠ c :: y := by
  obtain ⟨d, rest, hdigits, hd⟩ := toDigits_head n
  rw [hdigits, List.cons_append]
  intro heq
  rw [(List.cons.inj heq).1, h] at hd
  cases hd

theorem number_readsBefore : ReadsBefore Stops (fun _ => True) number id := by
  intro a b x y hx hy _ _ heq
  cases a with
  | ofNat m =>
    cases b with
    | ofNat =>
      obtain ⟨hsame, hrest⟩ := toDigits_readsBefore hx hy trivial trivial heq
      exact ⟨congrArg Int.ofNat hsame, hrest⟩
    | negSucc => exact absurd heq (toDigits_ne_cons m x _ (by decide))
  | negSucc =>
    cases b with
    | ofNat n => exact absurd heq.symm (toDigits_ne_cons n y _ (by decide))
    | negSucc =>
      obtain ⟨hsame, hrest⟩ := toDigits_readsBefore hx hy trivial trivial (List.cons.inj heq).2
      exact ⟨congrArg Int.negSucc (Nat.succ.inj hsame), hrest⟩

/-! ## Scalars and objects -/

inductive Scalar
  | string (value : String)
  | number (value : Int)
  deriving DecidableEq, Repr

def Scalar.render : Scalar → List Char
  | string value => quote value
  | number value => JsonText.number value

theorem number_ne_cons (n : Int) (x y : List Char) {c : Char} (h : c.isDigit = false)
    (hsign : c ≠ '-') : number n ++ x ≠ c :: y := by
  cases n with
  | ofNat n => exact toDigits_ne_cons n x y h
  | negSucc =>
    intro heq
    exact hsign (List.cons.inj heq).1.symm

theorem Scalar.render_readsBefore : ReadsBefore Stops (fun _ => True) Scalar.render id := by
  intro a b x y hx hy _ _ heq
  cases a with
  | string =>
    cases b with
    | string =>
      obtain ⟨hsame, hrest⟩ := quote_reads trivial trivial heq
      exact ⟨congrArg Scalar.string hsame, hrest⟩
    | number n => exact absurd heq.symm (number_ne_cons n y _ (by decide) (by decide))
  | number m =>
    cases b with
    | string => exact absurd heq (number_ne_cons m x _ (by decide) (by decide))
    | number =>
      obtain ⟨hsame, hrest⟩ := number_readsBefore hx hy trivial trivial heq
      exact ⟨congrArg Scalar.number hsame, hrest⟩

section
variable {α : Type*}

/-- What follows a member: the next one after a comma, or the closing brace. -/
def continued (render : α → List Char) : List (String × α) → List Char
  | [] => ['}']
  | (name, value) :: rest => ',' :: (quote name ++ ':' :: (render value ++ continued render rest))

def object (render : α → List Char) : List (String × α) → List Char
  | [] => ['{', '}']
  | (name, value) :: rest => '{' :: (quote name ++ ':' :: (render value ++ continued render rest))

theorem continued_stops (render : α → List Char) (members : List (String × α)) (x : List Char) :
    Stops (continued render members ++ x) := by
  intro c hc
  cases members with
  | nil | cons =>
    cases hc
    decide

variable {render : α → List Char}

theorem member_reads (h : ReadsBefore Stops (fun _ => True) render id) {name name' : String}
    {value value' : α} {x y : List Char} (hx : Stops x) (hy : Stops y)
    (heq : quote name ++ ':' :: (render value ++ x) = quote name' ++ ':' :: (render value' ++ y)) :
    (name, value) = (name', value') ∧ x = y := by
  obtain ⟨hname, hrest⟩ := quote_reads trivial trivial heq
  obtain ⟨hvalue, hxy⟩ := h hx hy trivial trivial (List.cons.inj hrest).2
  exact ⟨Prod.ext hname hvalue, hxy⟩

theorem continued_reads (h : ReadsBefore Stops (fun _ => True) render id) :
    Reads (fun _ => True) (continued render) id := by
  intro l m x y _ _ heq
  induction l generalizing m with
  | nil =>
    cases m with
    | nil => exact ⟨rfl, (List.cons.inj heq).2⟩
    | cons => exact absurd (List.cons.inj heq).1 (by decide)
  | cons member rest ih =>
    cases m with
    | nil => exact absurd (List.cons.inj heq).1 (by decide)
    | cons member' rest' =>
      simp only [continued, List.cons_append, List.append_assoc] at heq
      obtain ⟨hmember, hrest⟩ := member_reads h (continued_stops render rest x)
        (continued_stops render rest' y) (List.cons.inj heq).2
      obtain ⟨hsame, hxy⟩ := ih hrest
      exact ⟨congrArg₂ List.cons hmember hsame, hxy⟩

theorem object_reads (h : ReadsBefore Stops (fun _ => True) render id) :
    Reads (fun _ => True) (object render) id := by
  intro l m x y _ _ heq
  cases l with
  | nil =>
    cases m with
    | nil => exact ⟨rfl, List.append_cancel_left heq⟩
    | cons => exact absurd (List.cons.inj (List.cons.inj heq).2).1 (by decide)
  | cons member rest =>
    cases m with
    | nil => exact absurd (List.cons.inj (List.cons.inj heq).2).1 (by decide)
    | cons member' rest' =>
      simp only [object, List.cons_append, List.append_assoc] at heq
      obtain ⟨hmember, hrest⟩ := member_reads h (continued_stops render rest x)
        (continued_stops render rest' y) (List.cons.inj heq).2
      obtain ⟨hsame, hxy⟩ := continued_reads h trivial trivial hrest
      exact ⟨congrArg₂ List.cons hmember hsame, hxy⟩

end

end Veer.JsonText
