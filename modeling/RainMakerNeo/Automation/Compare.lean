import RainMakerNeo.Automation.TriggerCodec
import RainMakerNeo.State.ShadowPayload

/-!
# `RainMakerNeo.Automation.Compare`: the comparison of a trigger

`esp_rmaker_val_compare` compares a value with the expected value of a trigger. It refuses values of
two types, and it refuses an ordered comparison of values that have no order. `opToCompare` and
`coerceValue` see to it that an installed trigger has the type of its parameter and an operator that
this type has.

`valCompare_refuses_iff` is what the report needs: whether a comparison is refused depends on the
type of the value alone.
-/

set_option autoImplicit false

namespace RainMakerNeo.Automation

open RainMakerNeo.State (Val)

/-! ### Floats -/

/-- The 32 bits are not a number. -/
def isNan (bits : UInt32) : Bool := 0x7F800000 < bits &&& 0x7FFFFFFF

/-- The place of a float in the order of the numbers. Both zeros have one place. -/
def floatRank (bits : UInt32) : Int :=
  if bits < 0x80000000 then bits.toNat else -((bits &&& 0x7FFFFFFF).toNat : Int)

/-- `==` of floats. -/
def floatEq (a b : UInt32) : Bool := !isNan a && !isNan b && floatRank a == floatRank b

/-- `<` of floats. -/
def floatLt (a b : UInt32) : Bool := !isNan a && !isNan b && floatRank a < floatRank b

/-- `n / 2 ^ shift`, rounded to the nearest, and to the even one of two. -/
def roundShift (n shift : Nat) : Nat :=
  let q := n / 2 ^ shift
  let rest := 2 * (n % 2 ^ shift)
  if 2 ^ shift < rest ∨ rest = 2 ^ shift ∧ q % 2 = 1 then q + 1 else q

/-- `(float)i`. -/
def floatOfInt (i : Int32) : UInt32 :=
  let n := i.toInt.natAbs
  if n = 0 then 0
  else
    let e := n.log2
    let mantissa := if e ≤ 23 then n * 2 ^ (23 - e) else roundShift n (e - 23)
    -- A mantissa that is rounded up to the next power of two carries into the exponent.
    UInt32.ofNat ((if i < 0 then 2 ^ 31 else 0) + (e + 127) * 2 ^ 23 + (mantissa - 2 ^ 23))

/-! ### The comparison -/

/-- `esp_rmaker_val_type_t`. -/
inductive ValType
  | invalid | boolean | integer | float | string | object | array
  deriving DecidableEq, Repr

/-- The type of a value. -/
def typeOf : Val → ValType
  | .invalid => .invalid
  | .boolean _ => .boolean
  | .integer _ => .integer
  | .float _ => .float
  | .string _ => .string
  | .object _ => .object
  | .array _ => .array

/-- `esp_rmaker_val_compare_t`. -/
inductive CompareOp
  | eq | neq | gt | lt | gte | lte
  deriving DecidableEq, Repr

/-- The operator on values with an order. -/
def CompareOp.ordered (op : CompareOp) (eq lt gt : Bool) : Bool :=
  match op with
  | .eq => eq
  | .neq => !eq
  | .gt => gt
  | .lt => lt
  | .gte => gt || eq
  | .lte => lt || eq

/-- The operator on values without an order. -/
def CompareOp.plain (op : CompareOp) (eq : Bool) : Option Bool :=
  match op with
  | .eq => some eq
  | .neq => some !eq
  | _ => none

/-- `esp_rmaker_val_compare`. It is `none` for `ESP_RMAKER_INVALID_ARG`. -/
def valCompare (val1 val2 : Val) (op : CompareOp) : Option Bool :=
  match val1, val2 with
  | .boolean a, .boolean b => op.plain (a == b)
  | .integer a, .integer b => some (op.ordered (a == b) (a < b) (b < a))
  | .float a, .float b => some (op.ordered (floatEq a b) (floatLt a b) (floatLt b a))
  | .string a, .string b => op.plain (a == b)
  | .object a, .object b => op.plain (a == b)
  | .array a, .array b => op.plain (a == b)
  | _, _ => none

/-! ### The details of a trigger -/

/-- The values of the type have an order. -/
def ValType.hasOrder : ValType → Bool
  | .boolean => false
  | .string => false
  | .object => false
  | .array => false
  | _ => true

/-- `__op_to_compare`. -/
def opToCompare (opCode : Nat) (expected : ValType) : Option CompareOp :=
  if opCode = 0 then some .eq
  else if opCode = 1 then some .neq
  else if !expected.hasOrder then none
  else if opCode = 2 then some .gt
  else if opCode = 3 then some .lt
  else if opCode = 4 then some .gte
  else if opCode = 5 then some .lte
  else none

/-- `__dup_n`, as the C string that it is read as. -/
def dupN (bytes : List UInt8) : List Char :=
  (bytes.takeWhile (· != 0)).map fun b => Char.ofNat b.toNat

/-- `__coerce_value`. -/
def coerceValue (e : Entry) (expected : ValType) (allocated : Bool) : Option Val :=
  let text := fun (vt : Nat) (val : List Char → Val) =>
    if e.valueType ≠ vt then none
    else if allocated then some (val (dupN e.valueStr))
    else none
  match expected with
  | .boolean =>
    if e.valueType = vtBool then some (.boolean e.valueBool)
    else if e.valueType = vtInt ∧ (e.valueInt = 0 ∨ e.valueInt = 1) then
      some (.boolean (e.valueInt != 0))
    else none
  | .integer => if e.valueType = vtInt then some (.integer e.valueInt) else none
  | .float =>
    if e.valueType = vtFloat then some (.float e.valueFloat)
    else if e.valueType = vtInt then some (.float (floatOfInt e.valueInt))
    else none
  | .string => text vtString .string
  | .object => text vtObject .object
  | .array => text vtArray .array
  | .invalid => none

/-! ### When a comparison is refused -/

variable {expected : ValType}

/-- A coerced value has the expected type. -/
theorem typeOf_coerceValue {e : Entry} {allocated : Bool} {val : Val}
    (h : coerceValue e expected allocated = some val) :
    typeOf val = expected ∧ expected ≠ .invalid := by
  cases expected with
  | invalid => cases h
  | boolean =>
    simp only [coerceValue] at h
    split at h
    · exact ⟨Option.some.inj h ▸ rfl, nofun⟩
    · split at h
      · exact ⟨Option.some.inj h ▸ rfl, nofun⟩
      · cases h
  | integer =>
    simp only [coerceValue] at h
    split at h
    · exact ⟨Option.some.inj h ▸ rfl, nofun⟩
    · cases h
  | float =>
    simp only [coerceValue] at h
    split at h
    · exact ⟨Option.some.inj h ▸ rfl, nofun⟩
    · split at h
      · exact ⟨Option.some.inj h ▸ rfl, nofun⟩
      · cases h
  | string | object | array =>
    simp only [coerceValue] at h
    split at h
    · cases h
    · split at h
      · exact ⟨Option.some.inj h ▸ rfl, nofun⟩
      · cases h

/-- A type without an order has the two plain operators. -/
theorem plain_of_opToCompare {opCode : Nat} {op : CompareOp}
    (h : opToCompare opCode expected = some op) (horder : expected.hasOrder = false) (eq : Bool) :
    (op.plain eq).isSome = true := by
  rw [opToCompare, horder] at h
  split at h
  · exact Option.some.inj h ▸ rfl
  · split at h
    · exact Option.some.inj h ▸ rfl
    · cases h

/-- Values of two types are refused. -/
theorem valCompare_of_ne {val1 val2 : Val} (h : typeOf val1 ≠ typeOf val2) (op : CompareOp) :
    valCompare val1 val2 op = none := by
  cases val1 <;> cases val2 <;> first | rfl | exact absurd rfl h

/-- The comparison with an installed trigger is refused exactly when the value does not have the
type of its parameter. -/
theorem valCompare_isSome_iff {val expectedVal : Val} {e : Entry} {allocated : Bool}
    {op : CompareOp} (hval : coerceValue e expected allocated = some expectedVal)
    (hop : opToCompare e.opCode expected = some op) :
    (valCompare val expectedVal op).isSome = true ↔ typeOf val = expected := by
  obtain ⟨rfl, hvalid⟩ := typeOf_coerceValue hval
  by_cases htype : typeOf val = typeOf expectedVal
  · refine iff_of_true ?_ htype
    cases expectedVal with
    | invalid => exact absurd rfl hvalid
    | integer | float => cases val <;> first | rfl | cases htype
    | boolean | string | object | array =>
      cases val <;> first | exact plain_of_opToCompare hop rfl _ | cases htype
  · rw [valCompare_of_ne htype]
    exact iff_of_false Bool.false_ne_true htype

example : floatOfInt 16777217 = 0x4B800000 := by decide

example : floatOfInt (-3) = 0xC0400000 := by decide

end RainMakerNeo.Automation
