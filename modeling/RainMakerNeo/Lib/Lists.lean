import Mathlib.Data.List.Forall2

/-!
# `RainMakerNeo.Lib.Lists`: lists that a partial function rebuilds

A store that is written out and read back entry by entry is a list `l` and its image
`l.filterMap f`. The read can drop an entry, and then the positions no longer match.
-/

set_option autoImplicit false

namespace RainMakerNeo.Lib

variable {α β : Type*}

variable {r : α → β → Prop}

/-- The image of a list under a partial function matches the list entry by entry exactly when
each entry has an image of its own and matches that. -/
theorem forall₂_filterMap_iff {f : α → Option β} (l : List α) :
    List.Forall₂ r l (l.filterMap f) ↔ ∀ x ∈ l, ∃ y, f x = some y ∧ r x y := by
  induction l with
  | nil => simp
  | cons x l ih =>
    cases hx : f x with
    | none =>
      rw [List.filterMap_cons_none hx]
      constructor
      · intro h
        have hlen := h.length_eq
        have hle := List.length_filterMap_le f l
        rw [List.length_cons] at hlen
        omega
      · intro h
        obtain ⟨y, hy, -⟩ := h x List.mem_cons_self
        rw [hx] at hy
        simp at hy
    | some y =>
      rw [List.filterMap_cons_some hx, List.forall₂_cons, ih, List.forall_mem_cons]
      simp [hx]

/-- Each entry on the right matches an entry on the left. -/
theorem exists_mem_of_forall₂ {l : List α} {m : List β} (h : List.Forall₂ r l m) {y : β}
    (hy : y ∈ m) : ∃ x ∈ l, r x y := by
  induction h with
  | nil => simp at hy
  | @cons a b l m hab _ ih =>
    rcases List.mem_cons.mp hy with rfl | hy
    · exact ⟨a, List.mem_cons_self, hab⟩
    · obtain ⟨x, hx, hr⟩ := ih hy
      exact ⟨x, List.mem_cons_of_mem a hx, hr⟩

end RainMakerNeo.Lib
