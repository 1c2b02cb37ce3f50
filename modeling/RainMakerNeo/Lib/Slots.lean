import Mathlib.Data.List.Count
import Mathlib.Data.List.Nodup

/-!
# `RainMakerNeo.Lib.Slots`: arrays of slots

A program with a fixed number of slots scans them for the first one that fits and writes into it.
`updateFirst` is such a scan. Its two specifications say where the slot was (`updateFirst_some`) and
that there was none (`updateFirst_none`).

What the slots hold is counted by `heldBy`. A write changes the count by what the one slot held and
holds (`count_heldBy_update`).
-/

set_option autoImplicit false

namespace RainMakerNeo.Lib

variable {α β : Type*}

/-- Write `f` into the first slot that satisfies `p`. The old content comes back as well. -/
def updateFirst (p : α → Bool) (f : α → α) : List α → Option (α × List α)
  | [] => none
  | x :: l =>
    if p x then some (x, f x :: l)
    else (updateFirst p f l).map fun r => (r.1, x :: r.2)

variable {p : α → Bool} {f : α → α} {l l' : List α} {x : α}

/-- The slot that a scan finds is the first one that fits. -/
theorem updateFirst_some (h : updateFirst p f l = some (x, l')) :
    ∃ l₁ l₂, l = l₁ ++ x :: l₂ ∧ l' = l₁ ++ f x :: l₂ ∧ p x = true ∧ ∀ y ∈ l₁, p y = false := by
  induction l generalizing l' with
  | nil => cases h
  | cons y l ih =>
    rw [updateFirst] at h
    split at h
    · next hp =>
      obtain ⟨rfl, rfl⟩ := Prod.mk.inj (Option.some.inj h)
      exact ⟨[], l, rfl, rfl, hp, fun z hz => nomatch hz⟩
    · next hp =>
      obtain ⟨r, hr, heq⟩ := Option.map_eq_some_iff.mp h
      obtain ⟨rfl, rfl⟩ := Prod.mk.inj heq
      obtain ⟨l₁, l₂, rfl, hl', hpx, hnone⟩ := ih hr
      refine ⟨y :: l₁, l₂, rfl, by rw [hl']; rfl, hpx, ?_⟩
      intro z hz
      rcases List.mem_cons.mp hz with rfl | hz
      · simpa using hp
      · exact hnone z hz

/-- A scan without a result has seen each slot. -/
theorem updateFirst_none : updateFirst p f l = none ↔ ∀ y ∈ l, p y = false := by
  induction l with
  | nil => simp [updateFirst]
  | cons y l ih =>
    rw [updateFirst]
    split
    · next hp => simp [hp]
    · next hp => simp [ih, hp]

/-- After a write into one slot, each slot is that one or an old one. -/
theorem mem_of_mem_update {l₁ l₂ : List α} {x x' y : α} (hy : y ∈ l₁ ++ x' :: l₂) :
    y = x' ∨ y ∈ l₁ ++ x :: l₂ := by
  rcases List.mem_append.mp hy with hy | hy
  · exact .inr (List.mem_append_left _ hy)
  · rcases List.mem_cons.mp hy with rfl | hy
    · exact .inl rfl
    · exact .inr (List.mem_append_right _ (List.mem_cons_of_mem x hy))

/-- What the slots hold. -/
def heldBy (g : α → Option β) (l : List α) : List β := l.filterMap g

/-- What one slot holds of a value. -/
def countOf [BEq β] (b : β) : Option β → Nat
  | some c => if c == b then 1 else 0
  | none => 0

variable {g : α → Option β}

theorem mem_heldBy {b : β} : b ∈ heldBy g l ↔ ∃ x ∈ l, g x = some b := List.mem_filterMap

theorem count_heldBy_cons [BEq β] (b : β) (x : α) (l : List α) :
    (heldBy g (x :: l)).count b = countOf b (g x) + (heldBy g l).count b := by
  rw [heldBy, List.filterMap_cons]
  cases hx : g x with
  | none => exact (Nat.zero_add _).symm
  | some c =>
    rw [List.count_cons, countOf, Nat.add_comm]
    rfl

/-- A write into one slot changes the count by what the slot held and holds. -/
theorem count_heldBy_update [BEq β] (b : β) (l₁ l₂ : List α) (x y : α) :
    (heldBy g (l₁ ++ y :: l₂)).count b + countOf b (g x) =
      (heldBy g (l₁ ++ x :: l₂)).count b + countOf b (g y) := by
  rw [heldBy, heldBy, List.filterMap_append, List.filterMap_append, List.count_append,
    List.count_append]
  have hx := count_heldBy_cons (g := g) b x l₂
  have hy := count_heldBy_cons (g := g) b y l₂
  rw [heldBy] at hx hy
  omega

end RainMakerNeo.Lib
