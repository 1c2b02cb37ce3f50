import Mathlib.Algebra.Group.Int.Defs
import Mathlib.Tactic.Common

/-!
# `RainMakerNeo.Lib.FixedWidth`: casts between the C integer types

A C program moves values between `uint8_t`, `uint16_t`, `int` and `int64_t`. The casts up keep
the value. A cast down keeps it exactly when the value fits, and the lemmas here say when it
does.
-/

set_option autoImplicit false

namespace RainMakerNeo.Lib

/-- A `uint8_t` keeps its value as an `int`. -/
theorem toInt_uint8 (x : UInt8) : x.toUInt32.toInt32.toInt = x.toNat := by
  rw [Int32.toInt, UInt32.toBitVec_toInt32, BitVec.toInt_eq_toNat_of_lt]
  · simp
  · have := x.toNat_lt
    simp
    omega

/-- A `uint16_t` keeps its value as an `int`. -/
theorem toInt_uint16 (x : UInt16) : x.toUInt32.toInt32.toInt = x.toNat := by
  rw [Int32.toInt, UInt32.toBitVec_toInt32, BitVec.toInt_eq_toNat_of_lt]
  · simp
  · have := x.toNat_lt
    simp
    omega

/-- A `uint16_t` that is not `0` is a positive `int`. -/
theorem uint16_pos {x : UInt16} (h : x ≠ 0) : 0 < x.toUInt32.toInt32 := by
  rw [Int32.lt_iff_toInt_lt, toInt_uint16]
  have : x.toNat ≠ 0 := fun h0 => h (UInt16.toNat_inj.mp (by simpa using h0))
  simp
  omega

/-- An `int` below `256` keeps its value as a `uint8_t`. -/
theorem toNat_toUInt8 {x : Int32} (h0 : 0 ≤ x.toInt) (h1 : x.toInt < 256) :
    (x.toUInt32.toUInt8.toNat : Int) = x.toInt := by
  have hx : (x.toUInt32.toNat : Int) = x.toInt := by
    rw [Int32.toInt, BitVec.toInt_eq_toNat_of_msb]
    · rfl
    · rw [BitVec.msb_eq_toInt]
      simpa using h0
  simp
  omega

/-- The `int64_t` values that an `int` can hold. -/
def FitsInt (x : Int64) : Prop := -2 ^ 31 ≤ x.toInt ∧ x.toInt < 2 ^ 31

instance (x : Int64) : Decidable (FitsInt x) := inferInstanceAs (Decidable (_ ∧ _))

/-- The cast to `int` and back keeps exactly the values that an `int` can hold. -/
theorem toInt64_toInt32_iff (x : Int64) : x.toInt32.toInt64 = x ↔ FitsInt x := by
  rw [← Int64.toInt_inj, Int32.toInt_toInt64, Int64.toInt_toInt32, FitsInt]
  constructor
  · intro h
    have hlt := @Int.bmod_lt x.toInt (2 ^ 32) (by decide)
    have hle := @Int.le_bmod x.toInt (2 ^ 32) (by decide)
    omega
  · intro h
    exact Int.bmod_eq_of_le (by omega) (by omega)

/-- The split of a minute of the day into an hour and a minute, each a `uint8_t`, and back. -/
theorem hours_mul_add_minutes {m : Int32} (h0 : 0 ≤ m.toInt) (h1 : m.toInt < 1440) :
    (m / 60).toUInt32.toUInt8.toUInt32.toInt32 * 60 +
      (m % 60).toUInt32.toUInt8.toUInt32.toInt32 = m := by
  have hdiv : (m / 60).toInt = m.toInt / 60 := by
    rw [Int32.toInt_div_of_ne_right _ _ (by decide)]
    exact Int.tdiv_eq_ediv_of_nonneg h0
  have hmod : (m % 60).toInt = m.toInt % 60 := by
    rw [Int32.toInt_mod]
    exact Int.tmod_eq_emod_of_nonneg h0
  rw [← Int32.toInt_inj, Int32.toInt_add, Int32.toInt_mul, toInt_uint8, toInt_uint8,
    toNat_toUInt8 (by omega) (by omega), toNat_toUInt8 (by omega) (by omega), hdiv, hmod]
  have h60 : (60 : Int32).toInt = 60 := by decide
  rw [h60, Int.bmod_eq_of_le (n := m.toInt / 60 * 60) (by omega) (by omega),
    Int.bmod_eq_of_le (by omega) (by omega)]
  omega

end RainMakerNeo.Lib
