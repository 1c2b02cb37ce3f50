import Mathlib.Data.Nat.ModEq
import Mathlib.Logic.Function.Iterate

/-!
# `RainMakerNeo.Lib.RingQueue`: a queue in a ring of cells

A `RingQueue` has a fixed number of cells, the index of its first element, the index of the cell
behind its last, and a count. `push` and `pop` do not check anything, as the code that uses such
a ring checks before.

`Holds` says which queue the ring stands for. `Holds.push` and `Holds.pop` are the two operations
of the queue. A `push` needs a free cell, and a `pop` an element.
-/

set_option autoImplicit false

namespace RainMakerNeo.Lib

variable {α : Type*}

/-- The cells of a ring and its three counters. -/
structure RingQueue (α : Type*) where
  capacity : Nat
  cells : Nat → α
  head : Nat
  tail : Nat
  size : Nat

namespace RingQueue

/-- A ring whose cells were all set to one value. -/
def zeroed (capacity : Nat) (zero : α) : RingQueue α where
  capacity
  cells := fun _ => zero
  head := 0
  tail := 0
  size := 0

/-- The element at the head. -/
def front (r : RingQueue α) : α := r.cells r.head

/-- A new element behind the last. -/
def push (r : RingQueue α) (x : α) : RingQueue α :=
  { r with
    cells := Function.update r.cells r.tail x
    tail := (r.tail + 1) % r.capacity
    size := r.size + 1 }

/-- Without the element at the head. -/
def pop (r : RingQueue α) : RingQueue α :=
  { r with head := (r.head + 1) % r.capacity, size := r.size - 1 }

/-- One `pop` after the other until the count is 0. -/
def drain (r : RingQueue α) : RingQueue α := pop^[r.size] r

/-- The counters fit together. -/
structure Valid (r : RingQueue α) : Prop where
  head_lt : r.head < r.capacity
  size_le : r.size ≤ r.capacity
  tail_eq : r.tail = (r.head + r.size) % r.capacity

/-- The ring stands for the queue. -/
structure Holds (r : RingQueue α) (queue : List α) : Prop extends Valid r where
  length_eq : queue.length = r.size
  cell : ∀ i, i < r.size → queue[i]? = some (r.cells ((r.head + i) % r.capacity))

variable {r : RingQueue α} {queue : List α} {x : α}

@[simp] theorem push_capacity (r : RingQueue α) (x : α) : (r.push x).capacity = r.capacity := rfl

@[simp] theorem push_size (r : RingQueue α) (x : α) : (r.push x).size = r.size + 1 := rfl

@[simp] theorem pop_capacity (r : RingQueue α) : r.pop.capacity = r.capacity := rfl

@[simp] theorem pop_size (r : RingQueue α) : r.pop.size = r.size - 1 := rfl

theorem holds_zeroed {capacity : Nat} (zero : α) (h : 0 < capacity) :
    (zeroed capacity zero).Holds [] where
  head_lt := h
  size_le := Nat.zero_le _
  tail_eq := (Nat.zero_mod capacity).symm
  length_eq := rfl
  cell i hi := absurd hi (Nat.not_lt_zero i)

/-- The cell behind the last element is none of the cells before it. -/
theorem mod_ne_tail {capacity head size i : Nat} (hi : i < size) (hsize : size < capacity) :
    (head + i) % capacity ≠ (head + size) % capacity := by
  intro h
  have hmod : i % capacity = size % capacity := Nat.ModEq.add_left_cancel' head h
  rw [Nat.mod_eq_of_lt (hi.trans hsize), Nat.mod_eq_of_lt hsize] at hmod
  omega

/-- With a free cell, `push` adds to the end of the queue. -/
theorem Holds.push (h : r.Holds queue) (hfree : r.size < r.capacity) (x : α) :
    (r.push x).Holds (queue ++ [x]) where
  head_lt := h.head_lt
  size_le := hfree
  tail_eq := by
    show (r.tail + 1) % r.capacity = (r.head + (r.size + 1)) % r.capacity
    rw [h.tail_eq, Nat.mod_add_mod, Nat.add_assoc]
  length_eq := by simp [h.length_eq]
  cell i hi := by
    show (queue ++ [x])[i]?
      = some (Function.update r.cells r.tail x ((r.head + i) % r.capacity))
    rw [push_size] at hi
    cases Nat.lt_or_ge i r.size with
    | inl hlt =>
      have hne : (r.head + i) % r.capacity ≠ r.tail := by
        rw [h.tail_eq]
        exact mod_ne_tail hlt hfree
      rw [List.getElem?_append_left (h.length_eq ▸ hlt), Function.update_of_ne hne]
      exact h.cell i hlt
    | inr hge =>
      obtain rfl : i = r.size := by omega
      rw [← h.tail_eq, Function.update_self, ← h.length_eq]
      exact List.getElem?_concat_length

/-- The head of the ring is the head of the queue, and `pop` takes it away. -/
theorem Holds.pop (h : r.Holds (x :: queue)) : r.front = x ∧ r.pop.Holds queue := by
  have hsize : r.size = queue.length + 1 := h.length_eq.symm
  have hpos : 0 < r.capacity := Nat.lt_of_le_of_lt (Nat.zero_le _) h.head_lt
  constructor
  · have hcell := h.cell 0 (by omega)
    rw [Nat.add_zero, Nat.mod_eq_of_lt h.head_lt] at hcell
    exact (Option.some.inj hcell).symm
  · exact {
      head_lt := Nat.mod_lt _ hpos
      size_le := (Nat.sub_le _ _).trans h.size_le
      tail_eq := by
        show r.tail = ((r.head + 1) % r.capacity + (r.size - 1)) % r.capacity
        have hsum : r.head + 1 + (r.size - 1) = r.head + r.size := by omega
        rw [Nat.mod_add_mod, hsum, h.tail_eq]
      length_eq := by
        rw [pop_size]
        omega
      cell := by
        intro i hi
        rw [pop_size] at hi
        show queue[i]? = some (r.cells (((r.head + 1) % r.capacity + i) % r.capacity))
        have hsum : r.head + 1 + i = r.head + (i + 1) := by omega
        rw [Nat.mod_add_mod, hsum, ← h.cell (i + 1) (by omega)]
        rfl }

/-- A ring that counts no elements stands for the empty queue. -/
theorem Holds.eq_nil (h : r.Holds queue) (hsize : r.size = 0) : queue = [] :=
  List.length_eq_zero_iff.mp (h.length_eq.trans hsize)

theorem Holds.exists_cons (h : r.Holds queue) (hsize : r.size ≠ 0) :
    ∃ x rest, queue = x :: rest := by
  refine List.exists_cons_of_ne_nil fun hnil => hsize ?_
  rw [← h.length_eq, hnil]
  rfl

/-- Draining leaves the empty queue. -/
theorem Holds.drain (h : r.Holds queue) : r.drain.Holds [] := by
  rw [RingQueue.drain, ← h.length_eq]
  induction queue generalizing r with
  | nil => exact h
  | cons x queue ih => exact ih h.pop.2

end RingQueue

end RainMakerNeo.Lib
