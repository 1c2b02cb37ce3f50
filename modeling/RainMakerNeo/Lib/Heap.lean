import Mathlib.Data.List.Basic

/-!
# `RainMakerNeo.Lib.Heap`: blocks that are allocated and freed

An address is never given out twice, so a freed block keeps its address and no pointer to it becomes
valid again. `load` and `free` say with `none` that the block is not live. A program that ends with
a result has neither touched a freed block nor freed one twice.
-/

set_option autoImplicit false

namespace RainMakerNeo.Lib

/-- The blocks by their address, `none` for a freed one. -/
structure Heap (β : Type*) where
  blocks : List (Option β)
  deriving DecidableEq

namespace Heap
variable {β : Type*}

/-- The heap with no block. -/
def empty : Heap β := ⟨[]⟩

/-- The block at an address. -/
def load (h : Heap β) (p : Nat) : Option β := (h.blocks[p]?).join

/-- A new block. -/
def alloc (h : Heap β) (b : β) : Heap β × Nat := (⟨h.blocks ++ [some b]⟩, h.blocks.length)

/-- `free`. -/
def free (h : Heap β) (p : Nat) : Option (Heap β) :=
  if (h.load p).isSome then some ⟨h.blocks.set p none⟩ else none

/-- A write to a live block. -/
def store (h : Heap β) (p : Nat) (b : β) : Option (Heap β) :=
  if (h.load p).isSome then some ⟨h.blocks.set p (some b)⟩ else none

/-- The addresses of the live blocks. -/
def Live (h : Heap β) (p : Nat) : Prop := (h.load p).isSome

instance (h : Heap β) (p : Nat) : Decidable (h.Live p) := inferInstanceAs (Decidable (_ = true))

variable {h h' : Heap β} {b : β} {p q : Nat}

@[simp] theorem load_empty : (empty : Heap β).load p = none := by
  simp [empty, load]

theorem live_of_load (hp : h.load p = some b) : h.Live p := by
  simp [Live, hp]

/-- A live block lies among the blocks. -/
theorem lt_of_load (hp : h.load p = some b) : p < h.blocks.length := by
  by_contra hge
  rw [load, List.getElem?_eq_none (Nat.le_of_not_lt hge)] at hp
  cases hp

@[simp] theorem load_alloc_self : (h.alloc b).1.load (h.alloc b).2 = some b := by
  simp [alloc, load]

theorem load_alloc_of_ne (hne : q ≠ (h.alloc b).2) : (h.alloc b).1.load q = h.load q := by
  have hq : q ≠ h.blocks.length := hne
  obtain hlt | hgt := Nat.lt_or_gt_of_ne hq
  · simp [alloc, load, List.getElem?_append_left hlt]
  · have hbehind : (h.blocks ++ [some b])[q]? = none := by
      rw [List.getElem?_eq_none_iff, List.length_append, List.length_singleton]
      omega
    have hnone : h.blocks[q]? = none := by
      rw [List.getElem?_eq_none_iff]
      omega
    rw [load, load, alloc, hbehind, hnone]

theorem eq_of_alloc (ha : h.alloc b = (h', p)) :
    p = h.blocks.length ∧ h'.blocks.length = h.blocks.length + 1 := by
  obtain ⟨rfl, rfl⟩ := Prod.mk.inj ha
  simp

/-- The address of a new block is that of no live one. -/
theorem ne_alloc_of_live (hq : h.Live q) : q ≠ (h.alloc b).2 := by
  rintro rfl
  simp [Live, load, alloc] at hq

theorem load_alloc_of_live (hq : h.Live q) : (h.alloc b).1.load q = h.load q :=
  load_alloc_of_ne (ne_alloc_of_live hq)

/-- `free` of a live block goes well. -/
theorem exists_free (hp : h.Live p) : ∃ h', h.free p = some h' := by
  have hif : (h.load p).isSome = true := hp
  exact ⟨_, if_pos hif⟩

theorem length_free (hf : h.free p = some h') : h'.blocks.length = h.blocks.length := by
  unfold free at hf
  split at hf
  · simp [← Option.some.inj hf]
  · cases hf

theorem load_free_self (hf : h.free p = some h') : h'.load p = none := by
  unfold free at hf
  split at hf
  · obtain rfl := Option.some.inj hf
    by_cases hlt : p < h.blocks.length
    · simp [load, hlt]
    · simp [load, hlt]
  · cases hf

theorem load_free_of_ne (hf : h.free p = some h') (hne : q ≠ p) : h'.load q = h.load q := by
  unfold free at hf
  split at hf
  · obtain rfl := Option.some.inj hf
    simp [load, List.getElem?_set_ne hne.symm]
  · cases hf

/-- A write to a live block goes well. -/
theorem exists_store (hp : h.Live p) : ∃ h', h.store p b = some h' := by
  have hif : (h.load p).isSome = true := hp
  exact ⟨_, if_pos hif⟩

theorem length_store (hs : h.store p b = some h') : h'.blocks.length = h.blocks.length := by
  unfold store at hs
  split at hs
  · simp [← Option.some.inj hs]
  · cases hs

/-- A write frees nothing. -/
theorem Live.store (hq : h.Live q) (hs : h.store p b = some h') : h'.Live q := by
  unfold Heap.store at hs
  split at hs
  · obtain rfl := Option.some.inj hs
    obtain ⟨c, hc⟩ := Option.isSome_iff_exists.mp hq
    by_cases hqp : q = p
    · subst hqp
      simp [Live, load, lt_of_load hc]
    · rw [Live, load, List.getElem?_set_ne (Ne.symm hqp)]
      exact hq
  · cases hs

theorem load_store_self (hs : h.store p b = some h') : h'.load p = some b := by
  unfold store at hs
  split at hs
  · next hlive =>
    obtain rfl := Option.some.inj hs
    obtain ⟨c, hc⟩ := Option.isSome_iff_exists.mp hlive
    simp [load, lt_of_load hc]
  · cases hs

theorem load_store_of_ne (hs : h.store p b = some h') (hne : q ≠ p) : h'.load q = h.load q := by
  unfold store at hs
  split at hs
  · obtain rfl := Option.some.inj hs
    simp [load, List.getElem?_set_ne hne.symm]
  · cases hs

end Heap

end RainMakerNeo.Lib
