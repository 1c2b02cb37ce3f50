import Mathlib.Data.List.Infix
import Mathlib.Data.List.TakeWhile

/-!
# `RainMakerNeo.Lib.CStr`: NUL-terminated strings and decimal fields

A C string is its characters before the terminator, so it has no NUL. `strncmpEq n` is
`strncmp` with the bound `n`, compared with 0: it looks at most at the first `n` characters and
stops at a terminator. With the length of the first string as the bound, it accepts each string
that *starts with* the first one (`strncmpEq_length_iff`).

A decimal field is printed by `%u` and read back by a digit loop on a `uint32_t`, which wraps.
`strToUint32_toDigits` is the round trip.
-/

set_option autoImplicit false

namespace RainMakerNeo.Lib

/-- The terminator of a C string. -/
def nul : Char := Char.ofNat 0

/-- A NUL-terminated string. `chars` are the characters before the terminator. -/
structure CStr where
  chars : List Char
  nulFree : nul ∉ chars
  deriving DecidableEq

namespace CStr

/-- The empty string. -/
def empty : CStr where
  chars := []
  nulFree := List.not_mem_nil

instance : Inhabited CStr := ⟨empty⟩

/-- `strlen`. -/
def length (s : CStr) : Nat := s.chars.length

@[simp] theorem length_empty : empty.length = 0 := rfl

/-- The string in front of the first terminator. -/
def ofChars (l : List Char) : CStr where
  chars := l.takeWhile (· != nul)
  nulFree := by
    intro hmem
    simpa using List.mem_takeWhile_imp hmem

theorem ext {a b : CStr} (h : a.chars = b.chars) : a = b := by
  cases a
  cases b
  simpa using h

end CStr

/-- `strncmp(a, b, n) == 0`. Past its last character a string reads as the terminator. -/
def strncmpEq : Nat → List Char → List Char → Bool
  | 0, _, _ => true
  | n + 1, a, b =>
    a.headD nul == b.headD nul && (a.headD nul == nul || strncmpEq n a.tail b.tail)

/-- On strings, the bounded comparison looks at the first `n` characters. -/
theorem strncmpEq_iff_take {a b : List Char} (ha : nul ∉ a) (hb : nul ∉ b) (n : Nat) :
    strncmpEq n a b = true ↔ a.take n = b.take n := by
  induction n generalizing a b with
  | zero => simp [strncmpEq]
  | succ n ih =>
    cases a with
    | nil =>
      cases b with
      | nil => simp [strncmpEq]
      | cons y b =>
        have hy : nul ≠ y := fun h => hb (h ▸ List.mem_cons_self)
        simp [strncmpEq, hy]
    | cons x a =>
      have hx : x ≠ nul := fun h => ha (h ▸ List.mem_cons_self)
      cases b with
      | nil => simp [strncmpEq, hx]
      | cons y b =>
        have ih' := @ih a b (fun h => ha (List.mem_cons_of_mem x h))
          fun h => hb (List.mem_cons_of_mem y h)
        simp [strncmpEq, hx, ih']

/-- Bounded by the length of `a`, the comparison accepts every string that `a` is a prefix of. -/
theorem strncmpEq_length_iff (a b : CStr) :
    strncmpEq a.length a.chars b.chars = true ↔ a.chars <+: b.chars := by
  rw [strncmpEq_iff_take a.nulFree b.nulFree, List.prefix_iff_eq_take]
  simp [CStr.length]

/-- With equal lengths, the comparison is equality. -/
theorem strncmpEq_of_length_eq {a b : CStr} (h : a.length = b.length) :
    strncmpEq a.length a.chars b.chars = true ↔ a = b := by
  rw [strncmpEq_length_iff]
  constructor
  · intro hp
    exact CStr.ext (hp.eq_of_length h)
  · intro hab
    rw [hab]

/-- The loop of a decimal reader: `value = value * 10 + (c - '0')` on a `uint32_t`, and no
value when a character is not a digit. -/
def readDigits (value : UInt32) : List Char → Option UInt32
  | [] => some value
  | c :: cs =>
    if c.isDigit then readDigits (value * 10 + UInt32.ofNat (c.toNat - '0'.toNat)) cs else none

/-- `__str_to_uint32`: the empty field has no value. -/
def strToUint32 (s : List Char) : Option UInt32 :=
  if s = [] then none else readDigits 0 s

/-- The loop computes the decimal value modulo `2 ^ 32`. -/
theorem readDigits_eq {cs : List Char} (hcs : ∀ c ∈ cs, c.isDigit) (n : Nat) :
    readDigits (UInt32.ofNat n) cs = some (UInt32.ofNat (Nat.ofDigitChars 10 cs n)) := by
  induction cs generalizing n with
  | nil => rw [readDigits, Nat.ofDigitChars_nil]
  | cons c cs ih =>
    have hc := hcs c List.mem_cons_self
    have hstep : UInt32.ofNat n * 10 + UInt32.ofNat (c.toNat - '0'.toNat)
        = UInt32.ofNat (10 * n + (c.toNat - '0'.toNat)) := by
      rw [UInt32.ofNat_add, UInt32.ofNat_mul, UInt32.mul_comm]
      rfl
    rw [readDigits, if_pos hc, hstep, ih fun d hd => hcs d (List.mem_cons_of_mem c hd),
      Nat.ofDigitChars_cons]

/-- What `%u` prints is read back. -/
theorem strToUint32_toDigits (n : UInt32) : strToUint32 (Nat.toDigits 10 n.toNat) = some n := by
  have hdigits : ∀ c ∈ Nat.toDigits 10 n.toNat, c.isDigit :=
    fun c hc => Nat.isDigit_of_mem_toDigits (by decide) (by decide) hc
  have h := readDigits_eq hdigits 0
  rw [Nat.ofDigitChars_ten_toDigits, UInt32.ofNat_toNat] at h
  rw [strToUint32, if_neg Nat.toDigits_ne_nil]
  exact h

end RainMakerNeo.Lib
