import Mathlib.Data.List.Basic

/-!
# `RainMakerNeo.Lib.Base64`: three bytes as four characters

`Base64.encode` writes the groups of three bytes as four characters of the alphabet, and fills the
last group up with `=`. `Base64.decode` reads such a text and refuses everything else, line feeds
included. `decode_of_encode` is the round trip.

The bytes are numbers of eight bits, and a character stands for a number below 64.
-/

set_option autoImplicit false

namespace RainMakerNeo.Lib

namespace Base64

/-- The alphabet. -/
def table : List Char :=
  ['A', 'B', 'C', 'D', 'E', 'F', 'G', 'H', 'I', 'J', 'K', 'L', 'M', 'N', 'O', 'P', 'Q', 'R', 'S',
    'T', 'U', 'V', 'W', 'X', 'Y', 'Z', 'a', 'b', 'c', 'd', 'e', 'f', 'g', 'h', 'i', 'j', 'k', 'l',
    'm', 'n', 'o', 'p', 'q', 'r', 's', 't', 'u', 'v', 'w', 'x', 'y', 'z', '0', '1', '2', '3', '4',
    '5', '6', '7', '8', '9', '+', '/']

/-- The character of a number below 64. -/
def symbol (n : Nat) : Char := table.getD n '='

/-- The number of a character. -/
def index (c : Char) : Option Nat := table.idxOf? c

theorem index_symbol {n : Nat} (h : n < 64) : index (symbol n) = some n := by
  have hall : ∀ n < 64, index (symbol n) = some n := by decide
  exact hall n h

theorem symbol_ne_pad {n : Nat} (h : n < 64) : symbol n ≠ '=' := by
  have hall : ∀ n < 64, symbol n ≠ '=' := by decide
  exact hall n h

/-- The text of some bytes. -/
def encode : List (BitVec 8) → List Char
  | a :: b :: c :: rest =>
    symbol (a.toNat / 4) :: symbol (a.toNat % 4 * 16 + b.toNat / 16) ::
      symbol (b.toNat % 16 * 4 + c.toNat / 64) :: symbol (c.toNat % 64) :: encode rest
  | [a, b] =>
    [symbol (a.toNat / 4), symbol (a.toNat % 4 * 16 + b.toNat / 16), symbol (b.toNat % 16 * 4),
      '=']
  | [a] => [symbol (a.toNat / 4), symbol (a.toNat % 4 * 16), '=', '=']
  | [] => []

/-- The bytes of a text. -/
def decode : List Char → Option (List (BitVec 8))
  | c₀ :: c₁ :: c₂ :: c₃ :: rest =>
    if c₃ = '=' then
      if rest ≠ [] then none
      else if c₂ = '=' then do
        let n₀ ← index c₀
        let n₁ ← index c₁
        some [BitVec.ofNat 8 (n₀ * 4 + n₁ / 16)]
      else do
        let n₀ ← index c₀
        let n₁ ← index c₁
        let n₂ ← index c₂
        some [BitVec.ofNat 8 (n₀ * 4 + n₁ / 16), BitVec.ofNat 8 (n₁ % 16 * 16 + n₂ / 4)]
    else do
      let n₀ ← index c₀
      let n₁ ← index c₁
      let n₂ ← index c₂
      let n₃ ← index c₃
      let bytes ← decode rest
      some (BitVec.ofNat 8 (n₀ * 4 + n₁ / 16) :: BitVec.ofNat 8 (n₁ % 16 * 16 + n₂ / 4) ::
        BitVec.ofNat 8 (n₂ % 4 * 64 + n₃) :: bytes)
  | [] => some []
  | _ => none

/-- A byte is its number. -/
theorem ofNat_of_eq {a : BitVec 8} {n : Nat} (h : n = a.toNat) : BitVec.ofNat 8 n = a := by
  rw [h, BitVec.ofNat_toNat]
  simp

/-- What is read from the text of some bytes. -/
theorem decode_of_encode (bytes : List (BitVec 8)) : decode (encode bytes) = some bytes := by
  induction bytes using encode.induct with
  | case1 a b c rest ih =>
    have ha := a.isLt
    have hb := b.isLt
    have hc := c.isLt
    rw [encode, decode, if_neg (symbol_ne_pad (by omega)), index_symbol (by omega),
      index_symbol (by omega), index_symbol (by omega), index_symbol (by omega), ih]
    simp only [Option.bind_eq_bind, Option.bind_some]
    rw [ofNat_of_eq (a := a) (by omega), ofNat_of_eq (a := b) (by omega),
      ofNat_of_eq (a := c) (by omega)]
  | case2 a b =>
    have ha := a.isLt
    have hb := b.isLt
    rw [encode, decode, if_pos rfl, if_neg (by simp), if_neg (symbol_ne_pad (by omega)),
      index_symbol (by omega), index_symbol (by omega), index_symbol (by omega)]
    simp only [Option.bind_eq_bind, Option.bind_some]
    rw [ofNat_of_eq (a := a) (by omega), ofNat_of_eq (a := b) (by omega)]
  | case3 a =>
    have ha := a.isLt
    rw [encode, decode, if_pos rfl, if_neg (by simp), if_pos rfl, index_symbol (by omega),
      index_symbol (by omega)]
    simp only [Option.bind_eq_bind, Option.bind_some]
    rw [ofNat_of_eq (a := a) (by omega)]
  | case4 => rfl

/-- The characters of the texts. -/
def IsSymbol (c : Char) : Prop := c ∈ '=' :: table

theorem isSymbol_symbol (n : Nat) : IsSymbol (symbol n) := by
  rw [symbol, List.getD_eq_getElem?_getD]
  cases hget : table[n]? with
  | none => exact List.mem_cons_self
  | some d => exact List.mem_cons_of_mem _ (List.mem_of_getElem? hget)

theorem isSymbol_of_mem {bytes : List (BitVec 8)} {c : Char} (h : c ∈ encode bytes) :
    IsSymbol c := by
  induction bytes using encode.induct with
  | case1 a b c' rest ih =>
    rw [encode] at h
    simp only [List.mem_cons] at h
    rcases h with rfl | rfl | rfl | rfl | h
    · exact isSymbol_symbol _
    · exact isSymbol_symbol _
    · exact isSymbol_symbol _
    · exact isSymbol_symbol _
    · exact ih h
  | case2 a b =>
    simp only [encode, List.mem_cons, List.not_mem_nil, or_false] at h
    rcases h with rfl | rfl | rfl | rfl
    · exact isSymbol_symbol _
    · exact isSymbol_symbol _
    · exact isSymbol_symbol _
    · exact List.mem_cons_self
  | case3 a =>
    simp only [encode, List.mem_cons, List.not_mem_nil, or_false] at h
    rcases h with rfl | rfl | rfl | rfl
    · exact isSymbol_symbol _
    · exact isSymbol_symbol _
    · exact List.mem_cons_self
    · exact List.mem_cons_self
  | case4 => exact absurd h List.not_mem_nil

end Base64

end RainMakerNeo.Lib
