import Mathlib.Algebra.GroupWithZero.Nat
import Mathlib.Data.List.Basic

/-!
# `RainMakerNeo.Lib.BitCells`: bit arrays in byte cells

A bit array is a list of byte cells. Bit `i` is bit `i % 8` of cell `i / 8`, and a bit outside
the cells reads as clear.

A user of the array works on its first `n` bits only. The last cell can have padding bits above
them. `bitCount` counts the set bits among the first `n`. `maskedPopcount` is the way a C loop
counts them: one population count for each cell, with the padding of the last cell masked out.
`maskedPopcount_eq` says that the two agree.
-/

set_option autoImplicit false

namespace RainMakerNeo.Lib

/-- Byte cells, in the order of the bits. -/
abbrev Cells := List (BitVec 8)

/-- How many cells `n` bits take. -/
def cellCount (n : Nat) : Nat := (n + 7) / 8

/-- Bit `i`, clear when `i` is outside the cells. -/
def getBit (cells : Cells) (i : Nat) : Bool := (cells[i / 8]?.getD 0).getLsbD (i % 8)

/-- Clear bit `i`. -/
def clearBit (cells : Cells) (i : Nat) : Cells :=
  cells.modify (i / 8) fun cell => cell &&& ~~~(1#8 <<< (i % 8))

/-- Set bit `i`. -/
def setBit (cells : Cells) (i : Nat) : Cells :=
  cells.modify (i / 8) fun cell => cell ||| 1#8 <<< (i % 8)

/-- `count` cells with every bit set. -/
def fullCells (count : Nat) : Cells := List.replicate count 0xFF#8

/-- The number of set bits among the first `n`. -/
def bitCount (cells : Cells) (n : Nat) : Nat := (List.range n).countP (getBit cells)

/-- The number of set bits of one cell. -/
def popcount (cell : BitVec 8) : Nat := (List.range 8).countP cell.getLsbD

/-- The positions of the set bits, in increasing order. -/
def ones (cells : Cells) : List Nat := (List.range (8 * cells.length)).filter (getBit cells)

/-- Cell `c` with the bits from bit `n` on masked out, when it is the last cell and has such
bits. -/
def maskedCell (cells : Cells) (n c : Nat) : BitVec 8 :=
  let cell := cells[c]?.getD 0
  if c = cellCount n - 1 ∧ n % 8 ≠ 0 then cell &&& (1#8 <<< (n % 8) - 1) else cell

/-- The sum of the population counts of the cells, without the padding. -/
def maskedPopcount (cells : Cells) (n : Nat) : Nat :=
  ((List.range (cellCount n)).map fun c => popcount (maskedCell cells n c)).sum

/-! ### Single bits -/

@[simp] theorem clearBit_length (cells : Cells) (i : Nat) :
    (clearBit cells i).length = cells.length :=
  List.length_modify ..

@[simp] theorem fullCells_length (count : Nat) : (fullCells count).length = count :=
  List.length_replicate ..

/-- One bit of a cell survives the clear mask unless it is the bit of the mask. -/
theorem getLsbD_clearMask (cell : BitVec 8) {k j : Nat} (hj : j < 8) :
    (cell &&& ~~~(1#8 <<< k)).getLsbD j = (cell.getLsbD j && decide (j ≠ k)) := by
  rw [BitVec.getLsbD_and, BitVec.getLsbD_not, BitVec.getLsbD_shiftLeft]
  by_cases h : j < k
  · simp [h, hj, Nat.ne_of_lt h]
  · -- From `k` on the shifted one is the one at distance `j - k`.
    have hsub : j - k = 0 ↔ j = k := by omega
    simp [h, hj, BitVec.getLsbD_one, hsub]

/-- Clearing a bit changes no other bit. -/
theorem getBit_clearBit (cells : Cells) (i j : Nat) :
    getBit (clearBit cells i) j = (getBit cells j && decide (j ≠ i)) := by
  have hi : i % 8 < 8 := Nat.mod_lt i (by decide)
  have hj : j % 8 < 8 := Nat.mod_lt j (by decide)
  rw [getBit, getBit, clearBit, List.getElem?_modify]
  by_cases hcell : i / 8 = j / 8
  · -- In the same cell the bits differ in their positions.
    have hne : j % 8 ≠ i % 8 ↔ j ≠ i := by omega
    cases hget : cells[j / 8]? with
    | none => simp
    | some cell => simp [hcell, getLsbD_clearMask cell hj, hne]
  · have hne : j ≠ i := by
      intro h
      exact hcell (h ▸ rfl)
    cases hget : cells[j / 8]? with
    | none => simp
    | some cell => simp [hcell, hne]

/-- In full cells every bit is set. -/
theorem getBit_fullCells {count i : Nat} (h : i < 8 * count) :
    getBit (fullCells count) i = true := by
  have hcell : i / 8 < count := by omega
  have hi : i % 8 < 8 := Nat.mod_lt i (by decide)
  rw [getBit, fullCells, List.getElem?_replicate, if_pos hcell, Option.getD_some]
  show (BitVec.allOnes 8).getLsbD (i % 8) = true
  rw [BitVec.getLsbD_allOnes]
  exact decide_eq_true hi

@[simp] theorem setBit_length (cells : Cells) (i : Nat) :
    (setBit cells i).length = cells.length :=
  List.length_modify ..

/-- One bit of a cell is set by the set mask when it is the bit of the mask. -/
theorem getLsbD_setMask (cell : BitVec 8) {k j : Nat} (hj : j < 8) :
    (cell ||| 1#8 <<< k).getLsbD j = (cell.getLsbD j || decide (j = k)) := by
  rw [BitVec.getLsbD_or, BitVec.getLsbD_shiftLeft]
  by_cases h : j < k
  · simp [h, hj, Nat.ne_of_lt h]
  · have hsub : j - k = 0 ↔ j = k := by omega
    simp [h, hj, BitVec.getLsbD_one, hsub]

/-- Setting a bit inside the cells changes no other bit. -/
theorem getBit_setBit (cells : Cells) {i : Nat} (hi : i / 8 < cells.length) (j : Nat) :
    getBit (setBit cells i) j = (getBit cells j || decide (j = i)) := by
  have hj : j % 8 < 8 := Nat.mod_lt j (by decide)
  rw [getBit, getBit, setBit, List.getElem?_modify]
  by_cases hcell : i / 8 = j / 8
  · have heq : j % 8 = i % 8 ↔ j = i := by omega
    rw [hcell] at hi
    rw [List.getElem?_eq_getElem hi]
    simp [hcell, getLsbD_setMask _ hj, heq]
  · have hne : j ≠ i := by
      intro h
      exact hcell (h ▸ rfl)
    cases hget : cells[j / 8]? with
    | none => simp [hne]
    | some cell => simp [hcell, hne]

/-- In empty cells every bit is clear. -/
theorem getBit_replicate_zero (count i : Nat) : getBit (List.replicate count 0) i = false := by
  rw [getBit, List.getElem?_replicate]
  split <;> simp

/-- A mask with one bit tests this bit. -/
theorem and_mask_ne_zero {cell : BitVec 8} {k : Nat} (hk : k < 8) :
    cell &&& 1#8 <<< k ≠ 0 ↔ cell.getLsbD k = true := by
  have hmask : BitVec.twoPow 8 k ≠ 0 := by
    have h : ∀ k, k < 8 → BitVec.twoPow 8 k ≠ 0 := by decide
    exact h k hk
  rw [← BitVec.twoPow_eq, BitVec.and_twoPow]
  split
  · rename_i hbit
    simpa [hbit] using hmask
  · rename_i hbit
    simp [hbit]

variable {cells : Cells}

/-- The bits of a list are set one after the other. -/
theorem getBit_foldl_setBit {l : List Nat} (hl : ∀ i ∈ l, i / 8 < cells.length) (j : Nat) :
    getBit (l.foldl setBit cells) j = (getBit cells j || decide (j ∈ l)) := by
  induction l generalizing cells with
  | nil => simp
  | cons i l ih =>
    have hrest : ∀ k ∈ l, k / 8 < (setBit cells i).length := by
      intro k hk
      rw [setBit_length]
      exact hl k (List.mem_cons_of_mem i hk)
    rw [List.foldl_cons, ih hrest, getBit_setBit cells (hl i List.mem_cons_self), Bool.or_assoc]
    simp [List.mem_cons]

/-- A bit outside the cells reads as clear. -/
theorem mem_ones {i : Nat} : i ∈ ones cells ↔ getBit cells i = true := by
  rw [ones, List.mem_filter, List.mem_range]
  constructor
  · exact fun h => h.2
  · intro h
    refine ⟨?_, h⟩
    by_contra hout
    have hnone : cells[i / 8]? = none := by
      rw [List.getElem?_eq_none_iff]
      omega
    rw [getBit, hnone] at h
    simp at h

/-! ### Counting -/

theorem bitCount_eq_length (cells : Cells) (n : Nat) :
    bitCount cells n = ((List.range n).filter (getBit cells)).length :=
  List.countP_eq_length_filter

/-- No bit is set exactly when the count is zero. -/
theorem bitCount_eq_zero_iff {n : Nat} :
    bitCount cells n = 0 ↔ ∀ i, i < n → getBit cells i = false := by
  rw [bitCount, List.countP_eq_zero]
  constructor
  · intro h i hi
    exact Bool.eq_false_iff.mpr (h i (List.mem_range.mpr hi))
  · intro h i hi
    exact Bool.eq_false_iff.mp (h i (List.mem_range.mp hi))

/-- Every bit is set exactly when the count is the number of the bits. -/
theorem bitCount_eq_iff {n : Nat} : bitCount cells n = n ↔ ∀ i, i < n → getBit cells i = true := by
  have h := List.countP_eq_length (p := getBit cells) (l := List.range n)
  rw [List.length_range] at h
  rw [bitCount, h]
  constructor
  · intro h i hi
    exact h i (List.mem_range.mpr hi)
  · intro h i hi
    exact h i (List.mem_range.mp hi)

/-- Full cells have all of their bits set. -/
theorem bitCount_fullCells (n : Nat) : bitCount (fullCells (cellCount n)) n = n := by
  refine bitCount_eq_iff.mpr ?_
  intro i hi
  refine getBit_fullCells ?_
  show i < 8 * ((n + 7) / 8)
  omega

/-- Clearing a set bit takes one off the count. -/
theorem bitCount_clearBit {n i : Nat} (hi : i < n) (h : getBit cells i = true) :
    bitCount (clearBit cells i) n + 1 = bitCount cells n := by
  -- The range is cut at the bit. Only the middle part changes.
  have hsplit : List.range n = List.range i ++ i :: (List.range' (i + 1) (n - (i + 1))) := by
    have hn : n = i + (1 + (n - (i + 1))) := by omega
    rw [List.range_eq_range', List.range_eq_range', ← List.range'_succ]
    conv_lhs => rw [hn]
    rw [← List.range'_append_1, Nat.zero_add, Nat.add_comm 1]
  have hsame (l : List Nat) (hl : i ∉ l) :
      l.countP (getBit (clearBit cells i)) = l.countP (getBit cells) := by
    refine List.countP_congr ?_
    intro j hj
    have hne : j ≠ i := by
      intro hji
      exact hl (hji ▸ hj)
    rw [getBit_clearBit]
    simp [hne]
  have hlow : i ∉ List.range i := by simp
  have hhigh : i ∉ List.range' (i + 1) (n - (i + 1)) := by
    intro hmem
    have := (List.mem_range'_1.mp hmem).1
    omega
  have hbit : getBit (clearBit cells i) i = false := by
    rw [getBit_clearBit]
    simp
  rw [bitCount, bitCount, hsplit, List.countP_append, List.countP_append, List.countP_cons,
    List.countP_cons, hsame _ hlow, hsame _ hhigh, hbit, h]
  simp
  omega

/-! ### The loop over the cells -/

/-- The mask keeps the bits below `k`. -/
theorem getLsbD_lowMask (cell : BitVec 8) {k j : Nat} (hk : k < 8) (hj : j < 8) :
    (cell &&& (1#8 <<< k - 1)).getLsbD j = (cell.getLsbD j && decide (j < k)) := by
  rw [BitVec.getLsbD_and]
  -- Eight positions and eight masks.
  have h : ∀ k, k < 8 → ∀ j, j < 8 → (1#8 <<< k - 1).getLsbD j = decide (j < k) := by decide
  rw [h k hk j hj]

/-- A bit of a masked cell is the bit of the array, as long as it is one of the first `n`. -/
theorem getLsbD_maskedCell (cells : Cells) {n c j : Nat} (hc : c < cellCount n) (hj : j < 8) :
    (maskedCell cells n c).getLsbD j = (getBit cells (8 * c + j) && decide (8 * c + j < n)) := by
  have hcount : cellCount n = (n + 7) / 8 := rfl
  have hdiv : (8 * c + j) / 8 = c := by omega
  have hmod : (8 * c + j) % 8 = j := by omega
  rw [getBit, hdiv, hmod, maskedCell]
  by_cases hlast : c = cellCount n - 1 ∧ n % 8 ≠ 0
  · have hlt : j < n % 8 ↔ 8 * c + j < n := by omega
    rw [if_pos hlast, getLsbD_lowMask _ (Nat.mod_lt n (by decide)) hj]
    simp only [hlt]
  · have hlt : 8 * c + j < n := by omega
    rw [if_neg hlast, decide_eq_true hlt, Bool.and_true]

/-- The loop counts the set bits among the first `n`. -/
theorem maskedPopcount_eq (cells : Cells) (n : Nat) : maskedPopcount cells n = bitCount cells n := by
  -- The sum over the first `m` cells counts the first `8 * m` bits.
  have hsum : ∀ m, m ≤ cellCount n →
      ((List.range m).map fun c => popcount (maskedCell cells n c)).sum =
        (List.range (8 * m)).countP fun i => getBit cells i && decide (i < n) := by
    intro m
    induction m with
    | zero =>
      intro _
      rfl
    | succ m ih =>
      intro hm
      have hcell : popcount (maskedCell cells n m) =
          ((List.range 8).map (8 * m + ·)).countP fun i => getBit cells i && decide (i < n) := by
        rw [List.countP_map]
        refine List.countP_congr ?_
        intro j hj
        rw [getLsbD_maskedCell cells (by omega) (List.mem_range.mp hj)]
        rfl
      rw [List.range_succ, List.map_append, List.sum_append, ih (by omega), Nat.mul_succ,
        List.range_add, List.countP_append, ← hcell]
      simp
  have hn : 8 * cellCount n = n + (8 * cellCount n - n) := by
    have hcount : cellCount n = (n + 7) / 8 := rfl
    omega
  rw [maskedPopcount, hsum _ (Nat.le_refl _), hn, List.range_add, List.countP_append, bitCount]
  -- The padding adds nothing.
  have hpad : ((List.range (8 * cellCount n - n)).map (n + ·)).countP
      (fun i => getBit cells i && decide (i < n)) = 0 := by
    rw [List.countP_eq_zero]
    intro i hi
    obtain ⟨k, -, rfl⟩ := List.mem_map.mp hi
    simp
  rw [hpad, Nat.add_zero]
  refine List.countP_congr ?_
  intro i hi
  simp [List.mem_range.mp hi]

end RainMakerNeo.Lib
