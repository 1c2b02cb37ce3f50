import Mathlib.Data.List.Nodup

/-!
# `RainMakerNeo.Lib.FreeList`: lists that are linked through their elements

A free list often has no memory of its own: each element holds the link to the next one. `Linked`
says that the links from `head` visit the list `l` and then end. Since a link leads to one element
only, the list is determined (`Linked.unique`) and no element comes twice (`Linked.nodup`), so a
linked list has no cycle.

A push writes the link of the new head and a pop writes the link of the old one. Both leave the
other links alone. An append and an unlink write one link in the list (`Linked.redirect`).
-/

set_option autoImplicit false

namespace RainMakerNeo.Lib

variable {ι : Type*}

/-- The links from `head` visit the elements of the list, in this order, and end. -/
def Linked (next : ι → Option ι) : Option ι → List ι → Prop
  | head, [] => head = none
  | head, i :: l => head = some i ∧ Linked next (next i) l

variable {next next' : ι → Option ι} {head : Option ι} {i : ι} {l l' : List ι}

/-- Links outside the list do not matter. -/
theorem Linked.congr (h : Linked next head l) (heq : ∀ j ∈ l, next' j = next j) :
    Linked next' head l := by
  induction l generalizing head with
  | nil => exact h
  | cons j l ih =>
    refine ⟨h.1, ?_⟩
    rw [heq j List.mem_cons_self]
    exact ih h.2 fun k hk => heq k (List.mem_cons_of_mem j hk)

/-- A new element in front, linked to the old head. -/
theorem Linked.push (h : Linked next head l) (hi : next' i = head)
    (heq : ∀ j ∈ l, next' j = next j) : Linked next' (some i) (i :: l) := by
  refine ⟨rfl, ?_⟩
  rw [hi]
  exact h.congr heq

/-- The head is the first element, and its link leads to the rest. -/
theorem Linked.pop (h : Linked next (some i) l) :
    ∃ rest, l = i :: rest ∧ Linked next (next i) rest := by
  cases l with
  | nil => cases h
  | cons j l =>
    obtain rfl : i = j := Option.some.inj h.1
    exact ⟨l, rfl, h.2⟩

/-- Only the empty list is linked from no element. -/
theorem Linked.of_none (h : Linked next none l) : l = [] := by
  cases l with
  | nil => rfl
  | cons j l => cases h.1

/-- The links determine the list. -/
theorem Linked.unique (h : Linked next head l) (h' : Linked next head l') : l = l' := by
  induction l generalizing head l' with
  | nil =>
    rw [show head = none from h] at h'
    exact h'.of_none.symm
  | cons i l ih =>
    rw [h.1] at h'
    obtain ⟨rest, rfl, hrest⟩ := h'.pop
    rw [ih h.2 hrest]

variable {front : List ι}

/-- From each element on, the list is linked. -/
theorem Linked.of_append (h : Linked next head (front ++ i :: l)) :
    Linked next (some i) (i :: l) := by
  induction front generalizing head with
  | nil => exact ⟨rfl, h.2⟩
  | cons j front ih => exact ih h.2

/-- The list goes on behind each element. -/
theorem Linked.behind (h : Linked next head (front ++ i :: l)) :
    Linked next (next i) l := h.of_append.2

/-- One link is written, and the list goes on elsewhere from there. -/
theorem Linked.redirect (h : Linked next head (front ++ i :: l))
    (heq : ∀ j ∈ front, next' j = next j) (hrest : Linked next' (next' i) l') :
    Linked next' head (front ++ i :: l') := by
  induction front generalizing head with
  | nil => exact ⟨h.1, hrest⟩
  | cons j front ih =>
    refine ⟨h.1, ?_⟩
    rw [heq j List.mem_cons_self]
    exact ih h.2 fun k hk => heq k (List.mem_cons_of_mem j hk)

/-- A linked list has no cycle. -/
theorem Linked.nodup (h : Linked next head l) : l.Nodup := by
  induction l generalizing head with
  | nil => exact List.nodup_nil
  | cons i l ih =>
    refine List.nodup_cons.mpr ⟨?_, ih h.2⟩
    intro hmem
    -- From its second place on, the list would be the same again.
    obtain ⟨front, back, hl⟩ := List.append_of_mem hmem
    have hback : Linked next (some i) (i :: back) := by
      have htail := h.2
      rw [hl] at htail
      exact htail.of_append
    have hfront : Linked next (some i) (i :: l) := ⟨rfl, h.2⟩
    have hlength := congrArg List.length (hfront.unique hback)
    rw [hl] at hlength
    simp only [List.length_cons, List.length_append] at hlength
    omega

/-- The links from an element that is linked to itself do not end. -/
theorem not_linked_of_self (hi : next i = some i) : ¬Linked next (some i) l := by
  intro h
  obtain ⟨rest, rfl, hrest⟩ := h.pop
  rw [hi] at hrest
  have hlength := congrArg List.length (hrest.unique h)
  rw [List.length_cons] at hlength
  omega

end RainMakerNeo.Lib
