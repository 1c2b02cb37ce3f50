import RainMakerNeo.Lib.BitCells

/-!
# `RainMakerNeo.Ota.DownloaderBitmap`: which blocks of the image are still missing

`ota_mqtt_downloader_bitmap.c`. A set bit stands for an unprocessed block. The struct keeps a
counter of the unprocessed blocks next to the cells. Here the two agree by construction: a
`DownloaderBitmap` carries the proof that the counter is the number of set bits of real blocks.

The C struct is either released, with a `NULL` array, or initialised. A value of
`DownloaderBitmap` is an initialised one.
-/

set_option autoImplicit false

namespace RainMakerNeo.Ota

open RainMakerNeo.Lib (Cells cellCount getBit clearBit fullCells bitCount maskedPopcount)

/-- `mqtt_downloader_bitmap_t` after the init. -/
structure DownloaderBitmap where
  cells : Cells
  blockCount : Nat
  unprocessedBlockCount : Nat
  cells_length : cells.length = cellCount blockCount
  unprocessed_eq : unprocessedBlockCount = bitCount cells blockCount

namespace DownloaderBitmap

/-- `mqtt_downloader_bitmap_init` when the allocation succeeds, `none` for no blocks. -/
def init (blockCount : Nat) : Option DownloaderBitmap :=
  if blockCount = 0 then none
  else some
    { cells := fullCells (cellCount blockCount)
      blockCount
      unprocessedBlockCount := blockCount
      cells_length := Lib.fullCells_length _
      unprocessed_eq := (Lib.bitCount_fullCells blockCount).symm }

/-- The overlay of `resume_attempt`: the stored cells, with the counter that its loop computes. -/
def overlay (bitmap : DownloaderBitmap) (tracker : Cells)
    (h : tracker.length = cellCount bitmap.blockCount) : DownloaderBitmap where
  cells := tracker
  blockCount := bitmap.blockCount
  unprocessedBlockCount := maskedPopcount tracker bitmap.blockCount
  cells_length := h
  unprocessed_eq := Lib.maskedPopcount_eq tracker bitmap.blockCount

/-- `mqtt_downloader_bitmap_is_processed`, `false` for an id out of range. -/
def isProcessed (bitmap : DownloaderBitmap) (blockId : Nat) : Bool :=
  decide (blockId < bitmap.blockCount) && !getBit bitmap.cells blockId

/-- `mqtt_downloader_bitmap_set_processed`. An id that is out of range or processed changes
nothing. -/
def setProcessed (bitmap : DownloaderBitmap) (blockId : Nat) : DownloaderBitmap :=
  if h : blockId < bitmap.blockCount ∧ getBit bitmap.cells blockId = true then
    { cells := clearBit bitmap.cells blockId
      blockCount := bitmap.blockCount
      unprocessedBlockCount := bitmap.unprocessedBlockCount - 1
      cells_length := (Lib.clearBit_length _ _).trans bitmap.cells_length
      unprocessed_eq := by
        have hcount := Lib.bitCount_clearBit h.1 h.2
        have heq := bitmap.unprocessed_eq
        omega }
  else bitmap

@[simp] theorem setProcessed_blockCount (bitmap : DownloaderBitmap) (blockId : Nat) :
    (bitmap.setProcessed blockId).blockCount = bitmap.blockCount := by
  rw [setProcessed]
  split <;> rfl

/-- After the mark, a block is processed exactly when it was, or when it is the marked one. -/
theorem isProcessed_setProcessed (bitmap : DownloaderBitmap) {blockId : Nat}
    (h : blockId < bitmap.blockCount) (j : Nat) :
    (bitmap.setProcessed blockId).isProcessed j = true ↔
      bitmap.isProcessed j = true ∨ j = blockId := by
  by_cases hset : getBit bitmap.cells blockId = true
  · rw [setProcessed, dif_pos ⟨h, hset⟩]
    simp only [isProcessed, Lib.getBit_clearBit, Bool.and_eq_true, decide_eq_true_eq,
      Bool.not_eq_true', Bool.and_eq_false_iff, decide_eq_false_iff_not, not_not]
    constructor
    · rintro ⟨hj, hbit | rfl⟩
      · exact .inl ⟨hj, hbit⟩
      · exact .inr rfl
    · rintro (⟨hj, hbit⟩ | rfl)
      · exact ⟨hj, .inl hbit⟩
      · exact ⟨h, .inr rfl⟩
  · -- A clear bit stays as it is, and the block counts as processed already.
    rw [setProcessed, dif_neg (fun hc => hset hc.2)]
    constructor
    · intro hj
      exact .inl hj
    · rintro (hj | rfl)
      · exact hj
      · simpa [isProcessed, h] using hset

variable {bitmap : DownloaderBitmap}

theorem init_blockCount {blockCount : Nat} (h : init blockCount = some bitmap) :
    bitmap.blockCount = blockCount := by
  rw [init] at h
  split at h
  · cases h
  · rw [← Option.some.inj h]

/-- A fresh bitmap has no processed block. -/
theorem isProcessed_init {blockCount : Nat} (h : init blockCount = some bitmap) (j : Nat) :
    bitmap.isProcessed j = false := by
  rw [init] at h
  split at h
  · cases h
  · obtain rfl := Option.some.inj h
    rw [isProcessed]
    by_cases hj : j < blockCount
    · have hcells : cellCount blockCount = (blockCount + 7) / 8 := rfl
      rw [Lib.getBit_fullCells (by omega)]
      simp
    · simp [hj]

/-- The download is complete when the counter is zero: every block is processed. -/
theorem isProcessed_of_complete (h : bitmap.unprocessedBlockCount = 0) {j : Nat}
    (hj : j < bitmap.blockCount) : bitmap.isProcessed j = true := by
  have hbits := Lib.bitCount_eq_zero_iff.mp (bitmap.unprocessed_eq ▸ h)
  simp [isProcessed, hj, hbits j hj]

/-- A counter below the number of blocks leaves a processed block. -/
theorem exists_isProcessed (h : bitmap.unprocessedBlockCount ≠ bitmap.blockCount) :
    ∃ j, j < bitmap.blockCount ∧ bitmap.isProcessed j = true := by
  rw [bitmap.unprocessed_eq] at h
  have hnot := mt Lib.bitCount_eq_iff.mpr h
  push Not at hnot
  obtain ⟨j, hj, hbit⟩ := hnot
  exact ⟨j, hj, by simp [isProcessed, hj, Bool.eq_false_iff.mpr hbit]⟩

end DownloaderBitmap

end RainMakerNeo.Ota
