import Mathlib

/-!
# Unpadded URL-safe base64

Three octets become four symbols of the URL-safe alphabet; one or two trailing octets
become two or three symbols, with no padding. `decode` is a left inverse of `encode`,
so the text of a byte string determines it.
-/
namespace Veer.RawURLEncoding

def alphabet : List Char :=
  "ABCDEFGHIJKLMNOPQRSTUVWXYZabcdefghijklmnopqrstuvwxyz0123456789-_".toList

def symbol (n : Nat) : Char := alphabet.getD n 'A'

def index (c : Char) : Option Nat := alphabet.idxOf? c

def encode : List UInt8 → List Char
  | [] => []
  | [a] => [symbol (a.toNat / 4), symbol (a.toNat % 4 * 16)]
  | [a, b] =>
    [symbol (a.toNat / 4), symbol (a.toNat % 4 * 16 + b.toNat / 16), symbol (b.toNat % 16 * 4)]
  | a :: b :: c :: rest =>
    symbol (a.toNat / 4) :: symbol (a.toNat % 4 * 16 + b.toNat / 16) ::
      symbol (b.toNat % 16 * 4 + c.toNat / 64) :: symbol (c.toNat % 64) :: encode rest

def decode : List Char → Option (List UInt8)
  | [] => some []
  | [_] => none
  | [x, y] => do
    let x ← index x
    let y ← index y
    some [UInt8.ofNat (x * 4 + y / 16)]
  | [x, y, z] => do
    let x ← index x
    let y ← index y
    let z ← index z
    some [UInt8.ofNat (x * 4 + y / 16), UInt8.ofNat (y % 16 * 16 + z / 4)]
  | x :: y :: z :: w :: rest => do
    let x ← index x
    let y ← index y
    let z ← index z
    let w ← index w
    let bytes ← decode rest
    some (UInt8.ofNat (x * 4 + y / 16) :: UInt8.ofNat (y % 16 * 16 + z / 4) ::
      UInt8.ofNat (z % 4 * 64 + w) :: bytes)

theorem index_symbol {n : Nat} (h : n < 64) : index (symbol n) = some n := by
  have hall : ∀ k : Fin 64, index (symbol k) = some k.val := by decide +kernel
  exact hall ⟨n, h⟩

theorem octet {n : Nat} {a : UInt8} (h : n = a.toNat) : UInt8.ofNat n = a := by
  subst h
  exact UInt8.ofNat_toNat

theorem decode_encode (bytes : List UInt8) : decode (encode bytes) = some bytes := by
  induction bytes using encode.induct with
  | case1 => rfl
  | case2 a =>
    have ha := a.toNat_lt
    simp only [encode, decode, index_symbol (show a.toNat / 4 < 64 by omega),
      index_symbol (show a.toNat % 4 * 16 < 64 by omega), Option.bind_eq_bind, Option.bind_some]
    rw [octet (a := a) (by omega)]
  | case3 a b =>
    have ha := a.toNat_lt
    have hb := b.toNat_lt
    simp only [encode, decode, index_symbol (show a.toNat / 4 < 64 by omega),
      index_symbol (show a.toNat % 4 * 16 + b.toNat / 16 < 64 by omega),
      index_symbol (show b.toNat % 16 * 4 < 64 by omega), Option.bind_eq_bind, Option.bind_some]
    rw [octet (a := a) (by omega), octet (a := b) (by omega)]
  | case4 a b c rest ih =>
    have ha := a.toNat_lt
    have hb := b.toNat_lt
    have hc := c.toNat_lt
    simp only [encode, decode, index_symbol (show a.toNat / 4 < 64 by omega),
      index_symbol (show a.toNat % 4 * 16 + b.toNat / 16 < 64 by omega),
      index_symbol (show b.toNat % 16 * 4 + c.toNat / 64 < 64 by omega),
      index_symbol (show c.toNat % 64 < 64 by omega), ih, Option.bind_eq_bind, Option.bind_some]
    rw [octet (a := a) (by omega), octet (a := b) (by omega), octet (a := c) (by omega)]

theorem encode_injective : Function.Injective encode := by
  intro a b h
  have hd := congrArg decode h
  rw [decode_encode, decode_encode] at hd
  exact Option.some_injective _ hd

theorem symbol_mem (n : Nat) : symbol n ∈ alphabet := by
  rw [symbol, List.getD_eq_getElem?_getD]
  cases h : alphabet[n]? with
  | none => decide
  | some => exact List.mem_of_getElem? h

theorem mem_encode {bytes : List UInt8} {c : Char} (h : c ∈ encode bytes) : c ∈ alphabet := by
  induction bytes using encode.induct with
  | case1 => simp [encode] at h
  | case2 =>
    simp only [encode, List.mem_cons, List.not_mem_nil, or_false] at h
    rcases h with rfl | rfl <;> exact symbol_mem _
  | case3 =>
    simp only [encode, List.mem_cons, List.not_mem_nil, or_false] at h
    rcases h with rfl | rfl | rfl <;> exact symbol_mem _
  | case4 a b d rest ih =>
    simp only [encode, List.mem_cons] at h
    rcases h with rfl | rfl | rfl | rfl | h
    · exact symbol_mem _
    · exact symbol_mem _
    · exact symbol_mem _
    · exact symbol_mem _
    · exact ih h

/-- Encoded text as a string. -/
def encodeToString (bytes : List UInt8) : String := String.ofList (encode bytes)

theorem encodeToString_injective : Function.Injective encodeToString := by
  intro a b h
  exact encode_injective (String.ofList_injective h)

end Veer.RawURLEncoding
