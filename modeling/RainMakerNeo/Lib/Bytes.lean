import Mathlib.Algebra.Group.Nat.Defs
import Mathlib.Data.List.Basic

/-!
# `RainMakerNeo.Lib.Bytes`: fields of a packed byte format

A packed format writes one field after the other, and a reader keeps an offset into the bytes.
`At bytes off field` says that a field stands at an offset. `at_append` splits a record into its
fields, and the other lemmas read one field.

The numbers of two and four bytes are little-endian. Each comes back as it was written.
-/

set_option autoImplicit false

namespace RainMakerNeo.Lib

/-! ### Fields at an offset -/

section
variable {α : Type*} {bytes field field' : List α} {off : Nat}

/-- The field stands at the offset. -/
def At (bytes : List α) (off : Nat) (field : List α) : Prop := field <+: bytes.drop off

/-- A record is a field and the rest behind it. -/
theorem at_append : At bytes off (field ++ field') ↔
    At bytes off field ∧ At bytes (off + field.length) field' := by
  constructor
  · intro ⟨rest, h⟩
    refine ⟨⟨field' ++ rest, ?_⟩, ⟨rest, ?_⟩⟩
    · rw [← List.append_assoc]
      exact h
    · rw [← List.drop_drop, ← h, List.append_assoc, List.drop_left]
  · intro ⟨⟨rest, h⟩, ⟨rest', h'⟩⟩
    refine ⟨rest', ?_⟩
    rw [← List.drop_drop, ← h, List.drop_left] at h'
    rw [← h, List.append_assoc, h']

/-- A field ends inside the bytes. -/
theorem At.le_length (h : At bytes off field) (hoff : off ≤ bytes.length) :
    off + field.length ≤ bytes.length := by
  have hle := h.length_le
  rw [List.length_drop] at hle
  omega

/-- The bytes of a field. -/
theorem At.take (h : At bytes off field) : (bytes.drop off).take field.length = field :=
  List.prefix_iff_eq_take.mp h |>.symm

/-- The first byte of a field. -/
theorem At.getD {b d : α} (h : At bytes off (b :: field)) :
    bytes.getD off d = b ∧ off + 1 ≤ bytes.length := by
  obtain ⟨rest, h⟩ := h
  have hget : bytes[off]? = some b := by
    have hhead := congrArg List.head? h
    rw [List.head?_drop] at hhead
    exact hhead.symm
  refine ⟨?_, ?_⟩
  · rw [List.getD_eq_getElem?_getD, hget]
    rfl
  · obtain ⟨hlt, -⟩ := List.getElem?_eq_some_iff.mp hget
    exact hlt

end

/-! ### Little-endian numbers -/

/-- The two bytes of a number. -/
def le16 (v : Nat) : List UInt8 := [UInt8.ofNat (v &&& 0xFF), UInt8.ofNat ((v >>> 8) &&& 0xFF)]

/-- The number of two bytes. -/
def readLe16 (lo hi : UInt8) : Nat := (lo.toNat ||| hi.toNat <<< 8) % 65536

@[simp] theorem length_le16 (v : Nat) : (le16 v).length = 2 := rfl

theorem readLe16_le16 {v : Nat} (h : v < 65536) :
    readLe16 (UInt8.ofNat (v &&& 0xFF)) (UInt8.ofNat ((v >>> 8) &&& 0xFF)) = v := by
  have hmask : ∀ n : Nat, n &&& 0xFF = n % 256 := fun n => Nat.and_two_pow_sub_one_eq_mod n 8
  have hlo : (UInt8.ofNat (v &&& 0xFF)).toNat = v % 256 := by
    rw [UInt8.toNat_ofNat', hmask]
    omega
  have hhi : (UInt8.ofNat ((v >>> 8) &&& 0xFF)).toNat = v / 256 := by
    rw [UInt8.toNat_ofNat', hmask, Nat.shiftRight_eq_div_pow]
    omega
  rw [readLe16, hlo, hhi, Nat.or_comm, ← Nat.shiftLeft_add_eq_or_of_lt (i := 8) (by omega),
    Nat.shiftLeft_eq]
  omega

/-- The four bytes of a number. -/
def le32 (w : UInt32) : List UInt8 :=
  [UInt8.ofNat w.toNat, UInt8.ofNat (w.toNat / 2 ^ 8), UInt8.ofNat (w.toNat / 2 ^ 16),
    UInt8.ofNat (w.toNat / 2 ^ 24)]

/-- The number of a list of bytes. -/
def readLe32 (bytes : List UInt8) : UInt32 :=
  UInt32.ofNat (bytes.foldr (fun b acc => b.toNat + 256 * acc) 0)

@[simp] theorem length_le32 (w : UInt32) : (le32 w).length = 4 := rfl

theorem readLe32_le32 (w : UInt32) : readLe32 (le32 w) = w := by
  have hw := w.toNat_lt
  rw [← UInt32.toNat_inj, readLe32, le32, UInt32.toNat_ofNat']
  simp only [List.foldr_cons, List.foldr_nil, UInt8.toNat_ofNat']
  omega

end RainMakerNeo.Lib
