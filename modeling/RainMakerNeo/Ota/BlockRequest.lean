import Mathlib.Data.List.Sort
import RainMakerNeo.Ota.Downloader
import RainMakerNeo.Ota.StatusManager

/-!
# `RainMakerNeo.Ota.BlockRequest`: a block request names the missing blocks

`request_get_next` of `ota_mqtt_downloader.c` with its two nested loops over cells and bits, and the
operations of `ota_mqtt_downloader_bitmap.c` on the C struct. The variables of type `uint32_t` wrap
at `2 ^ 32`. A request has a base offset and a bitmap of its own: bit `k` stands for block
`offset + k`.

`requestGetNext_eq` says that the loops compute what `requestGetNext` computes on a
`DownloaderBitmap`. `request_names_missing` says which blocks these are, and that the counter of the
struct stays the number of set bits of real blocks.
-/

set_option autoImplicit false

namespace RainMakerNeo.Ota

open RainMakerNeo.Lib (Cells cellCount getBit setBit clearBit fullCells ones maskedPopcount)
open RainMakerNeo.Ota.Status (EspError)

/-! ### The struct -/

/-- `mqtt_downloader_bitmap_t` with its array. The two counts are of type `size_t`. -/
structure BitmapStruct where
  bitmap : Cells
  blockCount : Nat
  unprocessedBlockCount : Nat
  deriving DecidableEq, Repr

namespace BitmapStruct

/-- `mqtt_downloader_bitmap_init`. The number of cells is a `uint32_t`. -/
def init (blockCount : UInt32) (allocated : Bool) : EspError × Option BitmapStruct :=
  if blockCount = 0 then (.invalidArg, none)
  else if allocated then
    (.ok, some
      { bitmap := fullCells ((blockCount + 7) / 8).toNat
        blockCount := blockCount.toNat
        unprocessedBlockCount := blockCount.toNat })
  else (.noMem, none)

/-- The test of one bit of a cell. -/
def testBit (cell : BitVec 8) (bitIdx : Nat) : Bool := cell &&& 1#8 <<< bitIdx ≠ 0

/-- `mqtt_downloader_bitmap_set_processed`. The decrement of a `size_t` wraps at zero. -/
def setProcessed (b : BitmapStruct) (blockId : Int32) : EspError × BitmapStruct :=
  if blockId < 0 ∨ b.blockCount ≤ blockId.toInt.toNat then (.invalidArg, b)
  else
    let id := blockId.toInt.toNat
    if testBit (b.bitmap[id / 8]?.getD 0) (id % 8) then
      (.ok,
        { b with
          bitmap := clearBit b.bitmap id
          unprocessedBlockCount :=
            if b.unprocessedBlockCount = 0 then 2 ^ 32 - 1 else b.unprocessedBlockCount - 1 })
    else (.invalidState, b)

/-- The overlay of `resume_attempt` on a tracker that matches the image. `true` where the stored
cells are taken over. -/
def overlay (b : BitmapStruct) (tracker : Cells) : Bool × BitmapStruct :=
  if tracker.length ≠ cellCount b.blockCount then (false, b)
  else
    let unprocessed := maskedPopcount tracker b.blockCount
    if unprocessed = 0 ∨ unprocessed = b.blockCount then (false, b)
    else (true, { b with bitmap := tracker, unprocessedBlockCount := unprocessed })

/-! ### The loops -/

/-- The first and the last unprocessed block that a scan saw, and how many. -/
abbrev Scan := Nat × Nat × Nat

/-- What one unprocessed block does to these. -/
def noteBlock (scan : Scan) (blockId : Nat) : Scan :=
  (if blockId < scan.1 then blockId else scan.1,
    if scan.2.1 < blockId then blockId else scan.2.1, (scan.2.2 + 1) % 2 ^ 32)

/-- The first loop over the bits of a cell, which stops at the end of the blocks. It is `true` where
the requested number is reached. -/
def scanBits (cell : BitVec 8) (cellIdx blockCount count : Nat) :
    List Nat → Scan → Scan × Bool
  | [], scan => (scan, false)
  | bitIdx :: bits, scan =>
    let blockId := (cellIdx * 8 + bitIdx) % 2 ^ 32
    if blockId ≥ blockCount then (scan, false)
    else if testBit cell bitIdx then
      let scan := noteBlock scan blockId
      if scan.2.2 = count then (scan, true) else scanBits cell cellIdx blockCount count bits scan
    else scanBits cell cellIdx blockCount count bits scan

/-- The first loop over the cells. -/
def scanCells (bitmap : Cells) (blockCount count : Nat) : List Nat → Scan → Scan
  | [], scan => scan
  | cellIdx :: cells, scan =>
    let cell := bitmap[cellIdx]?.getD 0
    let (scan, reached) :=
      if cell ≠ 0 then scanBits cell cellIdx blockCount count (List.range 8) scan
      else (scan, false)
    if reached then scan else scanCells bitmap blockCount count cells scan

/-- The second loop over the bits of a cell, which stops behind the last block. -/
def compactBits (cell : BitVec 8) (cellIdx first last : Nat) : List Nat → Cells → Cells
  | [], compact => compact
  | bitIdx :: bits, compact =>
    let blockId := (cellIdx * 8 + bitIdx) % 2 ^ 32
    if blockId > last then compact
    else if testBit cell bitIdx then
      compactBits cell cellIdx first last bits
        (setBit compact ((blockId + 2 ^ 32 - first) % 2 ^ 32))
    else compactBits cell cellIdx first last bits compact

/-- The second loop over the cells. -/
def compactCells (bitmap : Cells) (first last : Nat) : List Nat → Cells → Cells
  | [], compact => compact
  | cellIdx :: cells, compact =>
    let cell := bitmap[cellIdx]?.getD 0
    compactCells bitmap first last cells
      (if cell ≠ 0 then compactBits cell cellIdx first last (List.range 8) compact else compact)

/-- `request_get_next`. -/
def requestGetNext (b : BitmapStruct) (fileId : UInt32) (blockCount : Nat) (allocated : Bool) :
    EspError × Option Request :=
  if b.unprocessedBlockCount = 0 then (.ok, some {})
  else
    let (first, last, seen) := scanCells b.bitmap b.blockCount blockCount
      (List.range (cellCount b.blockCount)) (2 ^ 32 - 1, 0, 0)
    let bitmapRange := (last + 2 ^ 32 - first + 1) % 2 ^ 32
    let compactCellCount := (bitmapRange + 7) % 2 ^ 32 / 8
    if allocated then
      (.ok, some
        { fileId
          blockOffset := first
          blockCount := seen
          bitmap := compactCells b.bitmap first last
            (List.range' (first / 8) (last / 8 + 1 - first / 8))
            (List.replicate compactCellCount 0) })
    else (.noMem, none)

/-! ### What it stands for -/

/-- The ids of the unprocessed blocks, in increasing order. -/
def unprocessed (b : BitmapStruct) : List Nat := (List.range b.blockCount).filter (getBit b.bitmap)

/-- There is a bit for each block. What `total_blocks` can be is far below the bound. -/
structure Sized (b : BitmapStruct) : Prop where
  cells : b.bitmap.length = cellCount b.blockCount
  fits : b.blockCount + 7 < 2 ^ 32

/-- The counter is the number of set bits of real blocks. -/
def Counted (b : BitmapStruct) : Prop := b.unprocessedBlockCount = b.unprocessed.length

end BitmapStruct

/-- The ids of the blocks that a request asks for. -/
def Request.blocks (r : Request) : List Nat := (ones r.bitmap).map (r.blockOffset + ·)

/-! ### Increasing lists -/

/-- The elements that a prefix takes are those up to its last one. -/
theorem mem_take_iff_le {l : List Nat} (hl : l.Pairwise (· < ·)) {n last : Nat}
    (hlast : (l.take n).getLast? = some last) (x : Nat) : x ∈ l.take n ↔ x ∈ l ∧ x ≤ last := by
  obtain ⟨init, hinit⟩ := List.getLast?_eq_some_iff.mp hlast
  have hmem : last ∈ l.take n := by
    rw [hinit]
    simp
  have hsorted : (l.take n ++ l.drop n).Pairwise (· < ·) := by
    rw [List.take_append_drop]
    exact hl
  obtain ⟨htake, -, hcross⟩ := List.pairwise_append.mp hsorted
  constructor
  · intro hx
    refine ⟨List.mem_of_mem_take hx, ?_⟩
    rw [hinit] at hx htake
    rcases List.mem_append.mp hx with hx | hx
    · exact Nat.le_of_lt ((List.pairwise_append.mp htake).2.2 x hx last (by simp))
    · exact Nat.le_of_eq (List.mem_singleton.mp hx)
  · rintro ⟨hx, hle⟩
    rw [← List.take_append_drop n l] at hx
    rcases List.mem_append.mp hx with hx | hx
    · exact hx
    · -- What comes after the prefix is greater than its last element.
      have hlt := hcross last hmem x hx
      omega

namespace BitmapStruct

variable {l : List Nat} {first last count n : Nat} {bitmap : Cells}

/-- Behind the last block that was seen, only the last one and the number change. -/
theorem foldl_noteBlock_of_lt (hl : l.Pairwise (· < ·)) {seen : Nat} (hlt : ∀ x ∈ l, last < x)
    (hle : first ≤ last) (hseen : seen + l.length < 2 ^ 32) :
    l.foldl noteBlock (first, last, seen) =
      (first, l.getLast?.getD last, seen + l.length) := by
  induction l generalizing last seen with
  | nil => rfl
  | cons x l ih =>
    have hx := hlt x List.mem_cons_self
    rw [List.length_cons] at hseen
    have hnote : noteBlock (first, last, seen) x = (first, x, seen + 1) := by
      simp only [noteBlock]
      rw [if_neg (by omega), if_pos hx, Nat.mod_eq_of_lt (by omega)]
    rw [List.foldl_cons, hnote, ih hl.of_cons (List.pairwise_cons.mp hl).1 (by omega) (by omega),
      List.getLast?_cons, List.length_cons]
    simp only [Option.getD_some, Prod.mk.injEq, true_and]
    omega

/-- A scan of increasing ids finds the first, the last and their number. -/
theorem foldl_noteBlock {x : Nat} (hl : (x :: l).Pairwise (· < ·)) (hx : x < 2 ^ 32)
    (hlength : (x :: l).length < 2 ^ 32) :
    (x :: l).foldl noteBlock (2 ^ 32 - 1, 0, 0) =
      (x, l.getLast?.getD x, (x :: l).length) := by
  have hnote : noteBlock (2 ^ 32 - 1, 0, 0) x = (x, x, 1) := by
    simp only [noteBlock]
    congr 1
    · split <;> omega
    · congr 1
      split <;> omega
  rw [List.foldl_cons, hnote]
  rw [List.length_cons] at hlength
  rw [foldl_noteBlock_of_lt hl.of_cons (List.pairwise_cons.mp hl).1 (Nat.le_refl x) (by omega),
    List.length_cons, Nat.add_comm]

/-! ### The loops as folds -/

/-- A bit of a cell of the array. -/
theorem testBit_eq (bitmap : Cells) {cellIdx bitIdx : Nat} (h : bitIdx < 8) :
    testBit (bitmap[cellIdx]?.getD 0) bitIdx = getBit bitmap (8 * cellIdx + bitIdx) := by
  have hdiv : (8 * cellIdx + bitIdx) / 8 = cellIdx := by omega
  have hmod : (8 * cellIdx + bitIdx) % 8 = bitIdx := by omega
  rw [getBit, hdiv, hmod, testBit, Bool.eq_iff_iff, decide_eq_true_eq]
  exact Lib.and_mask_ne_zero h

/-- The ids of the unprocessed blocks among the positions from `start` on. -/
def missing (bitmap : Cells) (blockCount start size : Nat) : List Nat :=
  (List.range' start size).filter fun id => decide (id < blockCount) && getBit bitmap id

/-- The scan of a cell takes its unprocessed blocks until the number is reached. -/
theorem scanBits_eq (bitmap : Cells) {cellIdx blockCount : Nat} (size start : Nat)
    (hsize : start + size ≤ 8) (hfits : 8 * cellIdx + 8 ≤ 2 ^ 32) (scan : Scan)
    (hseen : scan.2.2 < count) (hcount : scan.2.2 + size < 2 ^ 32) :
    scanBits (bitmap[cellIdx]?.getD 0) cellIdx blockCount count (List.range' start size) scan =
      (((missing bitmap blockCount (8 * cellIdx + start) size).take
          (count - scan.2.2)).foldl noteBlock scan,
        decide (count - scan.2.2 ≤
          (missing bitmap blockCount (8 * cellIdx + start) size).length)) := by
  induction size generalizing start scan with
  | zero =>
    simp only [missing, List.range'_zero, List.filter_nil, List.take_nil, List.foldl_nil,
      List.length_nil, scanBits]
    rw [decide_eq_false (by omega)]
  | succ size ih =>
    have hid : (cellIdx * 8 + start) % 2 ^ 32 = 8 * cellIdx + start := by omega
    have hnext : missing bitmap blockCount (8 * cellIdx + start) (size + 1) =
        (if decide (8 * cellIdx + start < blockCount) && getBit bitmap (8 * cellIdx + start) then
          [8 * cellIdx + start] else []) ++
          missing bitmap blockCount (8 * cellIdx + (start + 1)) size := by
      rw [missing, List.range'_succ, List.filter_cons]
      split <;> rfl
    rw [List.range'_succ, scanBits, hid, testBit_eq bitmap (by omega)]
    simp only
    split
    · rename_i hend
      -- All later blocks are behind the end as well.
      have hnone : missing bitmap blockCount (8 * cellIdx + start) (size + 1) = [] := by
        rw [missing, List.filter_eq_nil_iff]
        intro id hid
        have hge := (List.mem_range'_1.mp hid).1
        simp only [Bool.and_eq_true, decide_eq_true_eq]
        omega
      rw [hnone]
      simp only [List.take_nil, List.foldl_nil, List.length_nil]
      rw [decide_eq_false (by omega)]
    · rename_i hin
      rw [hnext]
      split
      · rename_i hbit
        have hmissing : (decide (8 * cellIdx + start < blockCount) &&
            getBit bitmap (8 * cellIdx + start)) = true := by
          rw [hbit, Bool.and_true, decide_eq_true_eq]
          omega
        rw [if_pos hmissing]
        have hone : count - scan.2.2 = (count - (scan.2.2 + 1)) + 1 := by omega
        have hsucc : (noteBlock scan (8 * cellIdx + start)).2.2 = scan.2.2 + 1 := by
          show (scan.2.2 + 1) % 2 ^ 32 = scan.2.2 + 1
          omega
        rw [hsucc, List.singleton_append, hone, List.take_succ_cons, List.foldl_cons,
          List.length_cons]
        split
        · rename_i hreached
          rw [hreached, Nat.sub_self, List.take_zero, decide_eq_true (by omega)]
          rfl
        · rename_i hless
          rw [ih (start + 1) (by omega) (noteBlock scan (8 * cellIdx + start))
            (by rw [hsucc]; omega) (by rw [hsucc]; omega), hsucc]
          simp only [Prod.mk.injEq, true_and, decide_eq_decide]
          omega
      · rename_i hbit
        have hpresent : ¬(decide (8 * cellIdx + start < blockCount) &&
            getBit bitmap (8 * cellIdx + start)) = true := by
          rw [Bool.and_eq_true]
          exact fun h => hbit h.2
        rw [if_neg hpresent, List.nil_append]
        exact ih (start + 1) (by omega) scan hseen (by omega)

theorem missing_append (bitmap : Cells) (blockCount start size size' : Nat) :
    missing bitmap blockCount start (size + size') =
      missing bitmap blockCount start size ++ missing bitmap blockCount (start + size) size' := by
  rw [missing, ← List.range'_append_1, List.filter_append]
  rfl

theorem missing_length_le (bitmap : Cells) (blockCount start size : Nat) :
    (missing bitmap blockCount start size).length ≤ size := by
  have h := List.length_filter_le
    (fun id => decide (id < blockCount) && getBit bitmap id) (List.range' start size)
  rwa [List.length_range'] at h

/-- A cell without a set bit has no unprocessed block. -/
theorem missing_of_zero {blockCount cellIdx : Nat} (h : bitmap[cellIdx]?.getD 0 = 0) :
    missing bitmap blockCount (8 * cellIdx) 8 = [] := by
  rw [missing, List.filter_eq_nil_iff]
  intro id hid
  obtain ⟨hge, hlt⟩ := List.mem_range'_1.mp hid
  have hdiv : id / 8 = cellIdx := by omega
  rw [getBit, hdiv, h]
  simp

theorem foldl_noteBlock_seen (l : List Nat) (scan : Scan) (h : scan.2.2 + l.length < 2 ^ 32) :
    (l.foldl noteBlock scan).2.2 = scan.2.2 + l.length := by
  induction l generalizing scan with
  | nil => rfl
  | cons x l ih =>
    rw [List.length_cons] at h ⊢
    have hsucc : (noteBlock scan x).2.2 = scan.2.2 + 1 := by
      show (scan.2.2 + 1) % 2 ^ 32 = scan.2.2 + 1
      omega
    rw [List.foldl_cons, ih _ (by rw [hsucc]; omega), hsucc]
    omega

/-- The scan of the array takes its unprocessed blocks until the number is reached. -/
theorem scanCells_eq (bitmap : Cells) {blockCount : Nat} (size cellIdx : Nat)
    (hfits : 8 * (cellIdx + size) ≤ 2 ^ 32) (scan : Scan) (hseen : scan.2.2 < count)
    (hcount : scan.2.2 + 8 * size < 2 ^ 32) :
    scanCells bitmap blockCount count (List.range' cellIdx size) scan =
      ((missing bitmap blockCount (8 * cellIdx) (8 * size)).take
        (count - scan.2.2)).foldl noteBlock scan := by
  induction size generalizing cellIdx scan with
  | zero =>
    rw [missing, Nat.mul_zero, List.range'_zero, List.range'_zero, List.filter_nil,
      List.take_nil]
    rfl
  | succ size ih =>
    -- The cell is scanned as a whole, or it has nothing to scan.
    have hcell : (if bitmap[cellIdx]?.getD 0 ≠ 0 then
        scanBits (bitmap[cellIdx]?.getD 0) cellIdx blockCount count (List.range 8) scan
        else (scan, false)) =
        (((missing bitmap blockCount (8 * cellIdx) 8).take (count - scan.2.2)).foldl noteBlock scan,
          decide (count - scan.2.2 ≤ (missing bitmap blockCount (8 * cellIdx) 8).length)) := by
      split
      · rw [List.range_eq_range']
        exact scanBits_eq bitmap 8 0 (by omega) (by omega) scan hseen (by omega)
      · rename_i hzero
        rw [missing_of_zero (not_not.mp hzero), decide_eq_false (by simp; omega), List.take_nil]
        rfl
    have hlength := missing_length_le bitmap blockCount (8 * cellIdx) 8
    rw [List.range'_succ, scanCells, hcell, show 8 * (size + 1) = 8 + 8 * size by omega,
      missing_append, List.take_append]
    simp only [decide_eq_true_eq]
    split
    · rename_i hreached
      rw [Nat.sub_eq_zero_of_le hreached, List.take_zero, List.append_nil]
    · rename_i hless
      rw [List.take_of_length_le (by omega), List.foldl_append]
      have hnext := foldl_noteBlock_seen (missing bitmap blockCount (8 * cellIdx) 8) scan (by omega)
      rw [ih (cellIdx + 1) (by omega) _ (by rw [hnext]; omega) (by rw [hnext]; omega), hnext,
        Nat.sub_add_eq, Nat.mul_succ]

/-- The first loop goes over the unprocessed blocks. -/
theorem scanCells_unprocessed (b : BitmapStruct) (hb : b.Sized) (hcount : 0 < count) :
    scanCells b.bitmap b.blockCount count (List.range (cellCount b.blockCount))
        (2 ^ 32 - 1, 0, 0) =
      (b.unprocessed.take count).foldl noteBlock (2 ^ 32 - 1, 0, 0) := by
  have hcells : cellCount b.blockCount = (b.blockCount + 7) / 8 := rfl
  have hfits := hb.fits
  have hsplit : 8 * cellCount b.blockCount =
      b.blockCount + (8 * cellCount b.blockCount - b.blockCount) := by omega
  -- The padding has no real block.
  have hpadding : missing b.bitmap b.blockCount b.blockCount
      (8 * cellCount b.blockCount - b.blockCount) = [] := by
    rw [missing, List.filter_eq_nil_iff]
    intro id hid
    have hge := (List.mem_range'_1.mp hid).1
    simp only [Bool.and_eq_true, decide_eq_true_eq]
    omega
  have hreal : missing b.bitmap b.blockCount 0 b.blockCount = b.unprocessed := by
    rw [missing, unprocessed, List.range_eq_range']
    apply List.filter_congr
    intro id hid
    have hlt := (List.mem_range'_1.mp hid).2
    rw [decide_eq_true (by omega), Bool.true_and]
  rw [List.range_eq_range', scanCells_eq b.bitmap _ 0 (by omega) _ hcount (by simp only; omega),
    Nat.mul_zero, hsplit, missing_append, Nat.zero_add, hpadding, List.append_nil, hreal]
  rfl

section
variable (hfirst : ∀ id, getBit bitmap id = true → id ≤ last → first ≤ id)
include hfirst

/-- The second loop over a cell sets the bits of its blocks up to the last one. -/
theorem compactBits_eq {cellIdx : Nat} (size start : Nat) (hsize : start + size ≤ 8)
    (hfits : 8 * cellIdx + 8 ≤ 2 ^ 32) (compact : Cells) :
    compactBits (bitmap[cellIdx]?.getD 0) cellIdx first last (List.range' start size) compact =
      ((missing bitmap (last + 1) (8 * cellIdx + start) size).map (· - first)).foldl setBit
        compact := by
  induction size generalizing start compact with
  | zero => rfl
  | succ size ih =>
    have hid : (cellIdx * 8 + start) % 2 ^ 32 = 8 * cellIdx + start := by omega
    rw [List.range'_succ, compactBits, hid, testBit_eq bitmap (by omega)]
    split
    · rename_i hend
      have hnone : missing bitmap (last + 1) (8 * cellIdx + start) (size + 1) = [] := by
        rw [missing, List.filter_eq_nil_iff]
        intro id hid
        have hge := (List.mem_range'_1.mp hid).1
        simp only [Bool.and_eq_true, decide_eq_true_eq]
        omega
      rw [hnone]
      rfl
    · rename_i hin
      rw [Nat.add_comm size 1, missing_append]
      split
      · rename_i hbit
        have hle := hfirst _ hbit (by omega)
        have hone : missing bitmap (last + 1) (8 * cellIdx + start) 1 = [8 * cellIdx + start] := by
          rw [missing, List.range'_one, List.filter_cons_of_pos, List.filter_nil]
          rw [hbit, Bool.and_true, decide_eq_true_eq]
          omega
        have hpos : (8 * cellIdx + start + 2 ^ 32 - first) % 2 ^ 32 = 8 * cellIdx + start - first := by
          omega
        rw [hone, hpos, ih (start + 1) (by omega)]
        rfl
      · rename_i hbit
        have hnone : missing bitmap (last + 1) (8 * cellIdx + start) 1 = [] := by
          rw [missing, List.range'_one, List.filter_cons_of_neg, List.filter_nil]
          rw [Bool.and_eq_true]
          exact fun h => hbit h.2
        rw [hnone, ih (start + 1) (by omega)]
        rfl

/-- The second loop over the array. -/
theorem compactCells_eq (size cellIdx : Nat) (hfits : 8 * (cellIdx + size) ≤ 2 ^ 32)
    (compact : Cells) :
    compactCells bitmap first last (List.range' cellIdx size) compact =
      ((missing bitmap (last + 1) (8 * cellIdx) (8 * size)).map (· - first)).foldl setBit
        compact := by
  induction size generalizing cellIdx compact with
  | zero => rfl
  | succ size ih =>
    have hcell : (if bitmap[cellIdx]?.getD 0 ≠ 0 then
        compactBits (bitmap[cellIdx]?.getD 0) cellIdx first last (List.range 8) compact
        else compact) =
        ((missing bitmap (last + 1) (8 * cellIdx) 8).map (· - first)).foldl setBit compact := by
      split
      · rw [List.range_eq_range']
        exact compactBits_eq hfirst 8 0 (by omega) (by omega) compact
      · rename_i hzero
        rw [missing_of_zero (not_not.mp hzero)]
        rfl
    rw [List.range'_succ, compactCells]
    rw [hcell, ih (cellIdx + 1) (by omega), show 8 * (size + 1) = 8 + 8 * size by omega,
      missing_append, List.map_append, List.foldl_append, Nat.mul_succ]

/-- The blocks of the compact bitmap, from the cell of the first one on. -/
theorem mem_missing_compact (id : Nat) :
    id ∈ missing bitmap (last + 1) (8 * (first / 8)) (8 * (last / 8 + 1 - first / 8)) ↔
      id ≤ last ∧ getBit bitmap id = true := by
  rw [missing, List.mem_filter, List.mem_range'_1, Bool.and_eq_true, decide_eq_true_eq]
  constructor
  · rintro ⟨-, hlt, hbit⟩
    exact ⟨by omega, hbit⟩
  · rintro ⟨hle, hbit⟩
    have hge := hfirst id hbit hle
    exact ⟨by omega, by omega, hbit⟩

/-- The compact bitmap has a bit for each unprocessed block up to the last one, and no other. -/
theorem mem_ones_compactCells (hle : first ≤ last) (hlast : last + 8 < 2 ^ 32) (k : Nat) :
    k ∈ ones (compactCells bitmap first last (List.range' (first / 8) (last / 8 + 1 - first / 8))
      (List.replicate (cellCount (last - first + 1)) 0)) ↔
        first + k ≤ last ∧ getBit bitmap (first + k) = true := by
  have hinside : ∀ i ∈ (missing bitmap (last + 1) (8 * (first / 8))
      (8 * (last / 8 + 1 - first / 8))).map (· - first),
      i / 8 < (List.replicate (cellCount (last - first + 1)) (0 : BitVec 8)).length := by
    intro i hi
    obtain ⟨id, hid, rfl⟩ := List.mem_map.mp hi
    have hmem := (mem_missing_compact hfirst id).mp hid
    have hcells : cellCount (last - first + 1) = (last - first + 1 + 7) / 8 := rfl
    rw [List.length_replicate]
    omega
  rw [Lib.mem_ones, compactCells_eq hfirst _ _ (by omega), Lib.getBit_foldl_setBit hinside,
    Lib.getBit_replicate_zero, Bool.false_or, decide_eq_true_eq, List.mem_map]
  constructor
  · rintro ⟨id, hid, hk⟩
    obtain ⟨hmem, hbit⟩ := (mem_missing_compact hfirst id).mp hid
    have hge := hfirst id hbit hmem
    have hid : id = first + k := by omega
    rw [← hid]
    exact ⟨hmem, hbit⟩
  · rintro ⟨hmem, hbit⟩
    exact ⟨first + k, (mem_missing_compact hfirst _).mpr ⟨hmem, hbit⟩, by omega⟩

end

/-! ### What is requested -/

variable {b : BitmapStruct}

theorem mem_unprocessed {id : Nat} :
    id ∈ b.unprocessed ↔ id < b.blockCount ∧ getBit b.bitmap id = true := by
  rw [unprocessed, List.mem_filter, List.mem_range]

theorem unprocessed_sorted (b : BitmapStruct) : b.unprocessed.Pairwise (· < ·) :=
  List.pairwise_lt_range.filter _

theorem unprocessed_length_le (b : BitmapStruct) : b.unprocessed.length ≤ b.blockCount := by
  have h := List.length_filter_le (getBit b.bitmap) (List.range b.blockCount)
  rwa [List.length_range] at h

/-- The blocks of a request with a first block. The last one bounds them. -/
structure Requested (b : BitmapStruct) (n first last : Nat) : Prop where
  mem_iff : ∀ id, id ∈ b.unprocessed.take n ↔ id ≤ last ∧ getBit b.bitmap id = true
  first_le : ∀ id, getBit b.bitmap id = true → id ≤ last → first ≤ id
  le : first ≤ last
  lt : last < b.blockCount

theorem requested_of_take (h : b.unprocessed.take n = first :: l) :
    Requested b n first (l.getLast?.getD first) := by
  have hlast : (b.unprocessed.take n).getLast? = some (l.getLast?.getD first) := by
    rw [h, List.getLast?_cons]
  have hmem := mem_take_iff_le b.unprocessed_sorted hlast
  have hin : l.getLast?.getD first ∈ b.unprocessed.take n := List.mem_of_getLast? hlast
  have hlt : l.getLast?.getD first < b.blockCount :=
    (mem_unprocessed.mp (List.mem_of_mem_take hin)).1
  have hsorted : (first :: l).Pairwise (· < ·) := h ▸ b.unprocessed_sorted.take
  have hfirst : ∀ id ∈ first :: l, first ≤ id := by
    intro id hid
    rcases List.mem_cons.mp hid with rfl | hid
    · exact Nat.le_refl id
    · exact Nat.le_of_lt ((List.pairwise_cons.mp hsorted).1 id hid)
  have hiff : ∀ id, id ∈ b.unprocessed.take n ↔
      id ≤ l.getLast?.getD first ∧ getBit b.bitmap id = true := by
    intro id
    rw [hmem, mem_unprocessed]
    constructor
    · exact fun h => ⟨h.2, h.1.2⟩
    · exact fun h => ⟨⟨by omega, h.2⟩, h.1⟩
  refine ⟨hiff, ?_, hfirst _ (h ▸ hin), hlt⟩
  intro id hbit hle
  exact hfirst id (h ▸ (hiff id).mpr ⟨hle, hbit⟩)

/-- What the first loop leaves when there is a block to request. -/
theorem scanCells_of_take (hb : b.Sized) (hn : 0 < n) (h : b.unprocessed.take n = first :: l) :
    scanCells b.bitmap b.blockCount n (List.range (cellCount b.blockCount)) (2 ^ 32 - 1, 0, 0) =
      (first, l.getLast?.getD first, (first :: l).length) := by
  have hsorted : (first :: l).Pairwise (· < ·) := h ▸ b.unprocessed_sorted.take
  have hrequested := requested_of_take h
  have hle := hrequested.le
  have hlt := hrequested.lt
  have hfits := hb.fits
  have hlength : (first :: l).length ≤ b.blockCount := by
    rw [← h]
    exact Nat.le_trans (List.length_take_le' n _) b.unprocessed_length_le
  rw [scanCells_unprocessed b hb hn, h]
  exact foldl_noteBlock hsorted (by omega) (by omega)

/-- There is a block to request. -/
theorem exists_take (hcounted : b.Counted) (hn : 0 < n) (hsome : ¬b.unprocessedBlockCount = 0) :
    ∃ first l, b.unprocessed.take n = first :: l := by
  cases htake : b.unprocessed.take n with
  | nil =>
    rw [List.take_eq_nil_iff] at htake
    rcases htake with hzero | hnil
    · omega
    · rw [hcounted, hnil] at hsome
      exact absurd rfl hsome
  | cons first l => exact ⟨first, l, rfl⟩

/-- The number of cells of the compact bitmap does not wrap. -/
theorem compactCellCount_eq (hb : b.Sized) (h : Requested b n first last) :
    ((last + 2 ^ 32 - first + 1) % 2 ^ 32 + 7) % 2 ^ 32 / 8 = cellCount (last - first + 1) := by
  have hle := h.le
  have hlt := h.lt
  have hfits := hb.fits
  show _ = (last - first + 1 + 7) / 8
  omega

/-- The request for the first `n` unprocessed blocks. -/
structure Names (b : BitmapStruct) (n : Nat) (fileId : UInt32) (r : Request) : Prop where
  blocks : r.blocks = b.unprocessed.take n
  blockCount : r.blockCount = min n b.unprocessedBlockCount
  bits : r.blockCount = (ones r.bitmap).length
  real : ∀ id ∈ r.blocks, id < b.blockCount
  offset : ∀ first, b.unprocessed.head? = some first → r.blockOffset = first ∧ r.fileId = fileId

/-- The blocks of a compact bitmap are the requested ones, in the same order. -/
theorem blocks_eq (hb : b.Sized) (h : Requested b n first last) (fileId : UInt32) (seen : Nat) :
    Request.blocks
      { fileId
        blockOffset := first
        blockCount := seen
        bitmap := compactCells b.bitmap first last
          (List.range' (first / 8) (last / 8 + 1 - first / 8))
          (List.replicate (cellCount (last - first + 1)) 0) } = b.unprocessed.take n := by
  have hlt := h.lt
  have hfits := hb.fits
  have hones := mem_ones_compactCells h.first_le h.le (by omega)
  have hsorted : ∀ cells : Cells, ((ones cells).map (first + ·)).Pairwise (· < ·) := by
    intro cells
    rw [List.pairwise_map]
    have h : (ones cells).Pairwise (· < ·) := List.pairwise_lt_range.filter _
    exact h.imp fun hlt => Nat.add_lt_add_left hlt first
  refine (hsorted _).eq_of_mem_iff b.unprocessed_sorted.take fun id => ?_
  rw [List.mem_map, h.mem_iff]
  constructor
  · rintro ⟨k, hk, rfl⟩
    exact (hones k).mp hk
  · rintro ⟨hle, hbit⟩
    have hge := h.first_le id hbit hle
    refine ⟨id - first, (hones _).mpr ?_, by omega⟩
    rw [show first + (id - first) = id by omega]
    exact ⟨hle, hbit⟩

/-- `request_get_next` names the first `n` unprocessed blocks. -/
theorem requestGetNext_names (hb : b.Sized) (hcounted : b.Counted) (fileId : UInt32) (hn : 0 < n) :
    ∃ r, b.requestGetNext fileId n true = (.ok, some r) ∧ Names b n fileId r := by
  have hcount : b.unprocessedBlockCount = b.unprocessed.length := hcounted
  rw [requestGetNext]
  split
  · rename_i hzero
    have hnil : b.unprocessed = [] := List.length_eq_zero_iff.mp (hcount ▸ hzero)
    refine ⟨{}, rfl, ?_, ?_, rfl, ?_, ?_⟩
    · rw [hnil, List.take_nil]
      rfl
    · rw [hzero, Nat.min_zero]
    · exact nofun
    · rw [hnil]
      exact nofun
  · rename_i hsome
    obtain ⟨first, l, htake⟩ := exists_take hcounted hn hsome
    have hrequested := requested_of_take htake
    rw [scanCells_of_take hb hn htake]
    simp only [if_true, compactCellCount_eq hb hrequested]
    have hblocks := blocks_eq hb hrequested fileId (first :: l).length
    have hlength : (first :: l).length = min n b.unprocessedBlockCount := by
      rw [← htake, List.length_take, hcount]
    refine ⟨_, rfl, hblocks, hlength, ?_, ?_, ?_⟩
    · -- The request has as many blocks as its bitmap has bits.
      have hbits := congrArg List.length hblocks
      rw [Request.blocks, List.length_map, htake] at hbits
      exact hbits.symm
    · intro id hid
      rw [hblocks] at hid
      exact (mem_unprocessed.mp (List.mem_of_mem_take hid)).1
    · intro x hx
      have hhead : b.unprocessed.head? = some first := by
        have hsplit := List.take_append_drop n b.unprocessed
        rw [← hsplit, htake]
        rfl
      exact ⟨Option.some.inj (hhead.symm.trans hx), rfl⟩

/-! ### The counter -/

theorem counted_iff : b.Counted ↔ b.unprocessedBlockCount = Lib.bitCount b.bitmap b.blockCount := by
  rw [Counted, unprocessed, Lib.bitCount_eq_length]

/-- A fresh struct counts all of its blocks. -/
theorem init_counted {blockCount : UInt32} {allocated : Bool} {err : EspError}
    (hfits : blockCount.toNat + 7 < 2 ^ 32) (h : init blockCount allocated = (err, some b)) :
    b.Sized ∧ b.Counted := by
  have hcells : ((blockCount + 7) / 8).toNat = cellCount blockCount.toNat := by
    rw [UInt32.toNat_div, UInt32.toNat_add]
    show (blockCount.toNat + 7) % 2 ^ 32 / 8 = (blockCount.toNat + 7) / 8
    rw [Nat.mod_eq_of_lt hfits]
  rw [init] at h
  split at h
  · cases h
  · split at h
    · cases h
      refine ⟨⟨?_, hfits⟩, ?_⟩
      · rw [Lib.fullCells_length]
        exact hcells
      · rw [counted_iff, hcells]
        exact (Lib.bitCount_fullCells blockCount.toNat).symm
    · cases h

/-- Marking a block keeps the counter right, whatever the id is. -/
theorem setProcessed_counted (hb : b.Sized) (hcounted : b.Counted) (blockId : Int32) :
    (b.setProcessed blockId).2.Sized ∧ (b.setProcessed blockId).2.Counted := by
  rw [setProcessed]
  split
  · exact ⟨hb, hcounted⟩
  · rename_i hvalid
    have hid : blockId.toInt.toNat < b.blockCount := by
      rw [not_or, Nat.not_le] at hvalid
      exact hvalid.2
    simp only
    split
    · rename_i hbit
      have hdiv : 8 * (blockId.toInt.toNat / 8) + blockId.toInt.toNat % 8 =
          blockId.toInt.toNat := by omega
      rw [testBit_eq b.bitmap (Nat.mod_lt _ (by decide)), hdiv] at hbit
      have hcount := Lib.bitCount_clearBit hid hbit
      rw [counted_iff] at hcounted
      refine ⟨⟨(Lib.clearBit_length _ _).trans hb.cells, hb.fits⟩, counted_iff.mpr ?_⟩
      show (if b.unprocessedBlockCount = 0 then 2 ^ 32 - 1 else b.unprocessedBlockCount - 1) =
        Lib.bitCount (clearBit b.bitmap blockId.toInt.toNat) b.blockCount
      rw [if_neg (by omega)]
      omega
    · exact ⟨hb, hcounted⟩

/-- The overlay counts the bits of real blocks of the cells that it takes over. -/
theorem overlay_counted (hb : b.Sized) (hcounted : b.Counted) (tracker : Cells) :
    (b.overlay tracker).2.Sized ∧ (b.overlay tracker).2.Counted := by
  rw [overlay]
  split
  · exact ⟨hb, hcounted⟩
  · rename_i hlength
    simp only
    split
    · exact ⟨hb, hcounted⟩
    · refine ⟨⟨not_not.mp hlength, hb.fits⟩, counted_iff.mpr ?_⟩
      exact Lib.maskedPopcount_eq tracker b.blockCount

/-! ### The model of the downloader -/

/-- A struct whose counter is right, as a bitmap that carries the proof. -/
def toBitmap (b : BitmapStruct) (hb : b.Sized) (hcounted : b.Counted) : DownloaderBitmap where
  cells := b.bitmap
  blockCount := b.blockCount
  unprocessedBlockCount := b.unprocessedBlockCount
  cells_length := hb.cells
  unprocessed_eq := counted_iff.mp hcounted

/-- The scan over the ids of the blocks. -/
theorem scanUnprocessed_eq {cells : Cells} (ids : List Nat) (first last seen : Nat)
    (hseen : seen < count) (hfits : seen + ids.length < 2 ^ 32) :
    scanUnprocessed cells count ids first last seen =
      ((ids.filter (getBit cells)).take (count - seen)).foldl noteBlock (first, last, seen) := by
  induction ids generalizing first last seen with
  | nil =>
    rw [List.filter_nil, List.take_nil]
    rfl
  | cons id ids ih =>
    rw [List.length_cons] at hfits
    rw [scanUnprocessed]
    split
    · rename_i hbit
      have hnote : noteBlock (first, last, seen) id =
          (if id < first then id else first, if last < id then id else last, seen + 1) := by
        simp only [noteBlock]
        rw [Nat.mod_eq_of_lt (by omega)]
      rw [List.filter_cons_of_pos hbit, show count - seen = (count - (seen + 1)) + 1 by omega,
        List.take_succ_cons, List.foldl_cons, hnote]
      simp only
      split
      · rename_i hreached
        rw [hreached, Nat.sub_self, List.take_zero]
        rfl
      · exact ih _ _ _ (by omega) (by omega)
    · rename_i hbit
      rw [List.filter_cons_of_neg hbit]
      exact ih _ _ _ hseen (by omega)

/-- The compact bitmap as a fold over the ids of the blocks. -/
theorem compactBitmap_eq (hfirst : ∀ id, getBit bitmap id = true → id ≤ last → first ≤ id)
    (hle : first ≤ last) (hlast : last + 8 < 2 ^ 32) :
    compactCells bitmap first last (List.range' (first / 8) (last / 8 + 1 - first / 8))
        (List.replicate (cellCount (last - first + 1)) 0) =
      compactBitmap bitmap first last := by
  -- The ids behind the last block are in its cell, and none of them counts.
  have hsize : 8 * (last / 8 + 1 - first / 8) = (last + 1 - first / 8 * 8) +
      (8 * (last / 8 + 1 - first / 8) - (last + 1 - first / 8 * 8)) := by omega
  have hbehind : missing bitmap (last + 1) (8 * (first / 8) + (last + 1 - first / 8 * 8))
      (8 * (last / 8 + 1 - first / 8) - (last + 1 - first / 8 * 8)) = [] := by
    rw [missing, List.filter_eq_nil_iff]
    intro id hid
    have hge := (List.mem_range'_1.mp hid).1
    simp only [Bool.and_eq_true, decide_eq_true_eq]
    omega
  have hids : missing bitmap (last + 1) (8 * (first / 8)) (last + 1 - first / 8 * 8) =
      (List.range' (first / 8 * 8) (last + 1 - first / 8 * 8)).filter (getBit bitmap) := by
    rw [missing, Nat.mul_comm 8]
    apply List.filter_congr
    intro id hid
    have hlt := (List.mem_range'_1.mp hid).2
    rw [decide_eq_true (by omega), Bool.true_and]
  rw [compactCells_eq hfirst _ _ (by omega), hsize, missing_append, hbehind, List.append_nil, hids,
    List.foldl_map, List.foldl_filter, compactBitmap]

/-- The loops compute what `requestGetNext` computes on the bitmap. -/
theorem requestGetNext_eq (hb : b.Sized) (hcounted : b.Counted) (fileId : UInt32) (hn : 0 < n)
    (allocated : Bool) :
    (b.requestGetNext fileId n allocated).2 =
      Ota.requestGetNext fileId n (b.toBitmap hb hcounted) allocated := by
  by_cases hsome : b.unprocessedBlockCount = 0
  · have hsame : (b.toBitmap hb hcounted).unprocessedBlockCount = 0 := hsome
    rw [requestGetNext, if_pos hsome, Ota.requestGetNext, if_pos hsame]
  · have hsame : ¬(b.toBitmap hb hcounted).unprocessedBlockCount = 0 := hsome
    obtain ⟨first, l, htake⟩ := exists_take hcounted hn hsome
    have hrequested := requested_of_take htake
    have hle := hrequested.le
    have hlt := hrequested.lt
    have hfits := hb.fits
    have hlength : 0 + (List.range b.blockCount).length < 2 ^ 32 := by
      rw [List.length_range]
      omega
    have hscan : scanUnprocessed (b.toBitmap hb hcounted).cells n
        (List.range (b.toBitmap hb hcounted).blockCount) (2 ^ 32 - 1) 0 0 =
        (first, l.getLast?.getD first, (first :: l).length) := by
      rw [← scanCells_of_take hb hn htake, scanCells_unprocessed b hb hn]
      exact scanUnprocessed_eq (List.range b.blockCount) _ _ _ hn hlength
    have hcompact := compactBitmap_eq hrequested.first_le hle (by omega)
    rw [requestGetNext, if_neg hsome, Ota.requestGetNext, if_neg hsame, hscan,
      scanCells_of_take hb hn htake]
    simp only [compactCellCount_eq hb hrequested, hcompact]
    cases allocated with
    | false => rfl
    | true => rfl

/-- A mark of a block in range is the one of the bitmap. -/
theorem setProcessed_eq (hb : b.Sized) (hcounted : b.Counted) {blockId : Int32}
    (hid : ¬blockId < 0) :
    (b.setProcessed blockId).2.toBitmap (setProcessed_counted hb hcounted blockId).1
        (setProcessed_counted hb hcounted blockId).2 =
      (b.toBitmap hb hcounted).setProcessed blockId.toInt.toNat := by
  have hmod : 8 * (blockId.toInt.toNat / 8) + blockId.toInt.toNat % 8 = blockId.toInt.toNat := by
    omega
  have hbit : testBit (b.bitmap[blockId.toInt.toNat / 8]?.getD 0) (blockId.toInt.toNat % 8) =
      getBit b.bitmap blockId.toInt.toNat := by
    rw [testBit_eq b.bitmap (Nat.mod_lt _ (by decide)), hmod]
  by_cases hset : blockId.toInt.toNat < b.blockCount ∧
      getBit b.bitmap blockId.toInt.toNat = true
  · have hvalid : ¬(blockId < 0 ∨ b.blockCount ≤ blockId.toInt.toNat) := by
      rw [not_or, Nat.not_le]
      exact ⟨hid, hset.1⟩
    have hpos : b.unprocessedBlockCount ≠ 0 := by
      have hcount := Lib.bitCount_clearBit hset.1 hset.2
      rw [counted_iff] at hcounted
      omega
    have hmarked : (b.setProcessed blockId).2 =
        { b with
          bitmap := clearBit b.bitmap blockId.toInt.toNat
          unprocessedBlockCount := b.unprocessedBlockCount - 1 } := by
      rw [setProcessed, if_neg hvalid]
      simp only
      rw [if_pos (hbit.trans hset.2), if_neg hpos]
    have hright : (b.toBitmap hb hcounted).setProcessed blockId.toInt.toNat = _ :=
      dif_pos hset
    rw [hright]
    simp only [toBitmap, hmarked]
  · have hsame : (b.setProcessed blockId).2 = b := by
      rw [setProcessed]
      split
      · rfl
      · rename_i hvalid
        rw [not_or, Nat.not_le] at hvalid
        simp only
        rw [if_neg]
        rw [hbit]
        exact fun h => hset ⟨hvalid.2, h⟩
    have hright : (b.toBitmap hb hcounted).setProcessed blockId.toInt.toNat =
        b.toBitmap hb hcounted := dif_neg hset
    rw [hright]
    simp only [toBitmap, hsame]

/-! ### All bitmaps -/

/-- The number of blocks of a file is far below what `uint32_t` holds. -/
theorem totalBlocks_fits {cfg : DownloaderConfig} {filesize blocks : Nat}
    (h : totalBlocks cfg filesize = some blocks) : blocks + 7 < 2 ^ 32 := by
  rw [totalBlocks] at h
  split at h
  · rename_i hle
    obtain rfl := Option.some.inj h
    have hdiv := Nat.div_le_self (filesize + cfg.blockSize - 1) cfg.blockSize
    have hmax : intMax = 2147483647 := rfl
    omega
  · cases h

/-- **A block request names the missing blocks.** It names the first `n` of them in increasing
order and none beyond the last block, and its count is that of its bits. The init, a mark of any id
and the overlay of a stored tracker keep the counter of the struct right. -/
theorem request_names_missing (hb : b.Sized) (hcounted : b.Counted) (fileId : UInt32) (hn : 0 < n)
    (blockId : Int32) (tracker : Cells) :
    (∃ r, b.requestGetNext fileId n true = (.ok, some r)) ∧
    (∀ allocated err r, b.requestGetNext fileId n allocated = (err, some r) →
      Names b n fileId r) ∧
    ((b.setProcessed blockId).2.Sized ∧ (b.setProcessed blockId).2.Counted) ∧
    ((b.overlay tracker).2.Sized ∧ (b.overlay tracker).2.Counted) ∧
    ∀ blockCount allocated err fresh, blockCount.toNat + 7 < 2 ^ 32 →
      init blockCount allocated = (err, some fresh) → fresh.Sized ∧ fresh.Counted := by
  obtain ⟨r, hr, hnames⟩ := requestGetNext_names hb hcounted fileId hn
  refine ⟨⟨r, hr⟩, ?_, setProcessed_counted hb hcounted blockId,
    overlay_counted hb hcounted tracker, fun _ _ _ _ hfits h => init_counted hfits h⟩
  intro allocated err r' h
  have hsame : b.requestGetNext fileId n true = (err, some r') := by
    cases allocated with
    | true => exact h
    | false =>
      -- Without memory there is a request only where nothing is missing.
      rw [requestGetNext] at h ⊢
      split at h
      · rename_i hzero
        rw [if_pos hzero]
        exact h
      · cases h
  rw [hr] at hsame
  cases hsame
  exact hnames

end BitmapStruct

/-- A bitmap with 34 blocks whose last cell has six bits of padding. -/
def sparseBitmap : BitmapStruct where
  bitmap := [0x00, 0xB0, 0x00, 0x11, 0xFF]
  blockCount := 34
  unprocessedBlockCount := 7

/-- The bits of three cells go to two, and the padding is not requested. -/
theorem request_names_sample :
    (∃ r, sparseBitmap.requestGetNext 3 4 true = (.ok, some r) ∧ r.blocks = [12, 13, 15, 24]) ∧
      ∃ r, sparseBitmap.requestGetNext 3 9 true = (.ok, some r) ∧ r.blockCount = 7 := by
  have hsized : sparseBitmap.Sized := ⟨by decide, by decide⟩
  have hcounted : sparseBitmap.Counted := by
    show 7 = sparseBitmap.unprocessed.length
    decide +kernel
  obtain ⟨⟨r, hr⟩, hnames, -⟩ :=
    BitmapStruct.request_names_missing hsized hcounted 3 (n := 4) (by decide) 0 []
  obtain ⟨⟨q, hq⟩, hall, -⟩ :=
    BitmapStruct.request_names_missing hsized hcounted 3 (n := 9) (by decide) 0 []
  refine ⟨⟨r, hr, ?_⟩, q, hq, (hall true .ok q hq).blockCount⟩
  rw [(hnames true .ok r hr).blocks]
  decide +kernel

end RainMakerNeo.Ota
