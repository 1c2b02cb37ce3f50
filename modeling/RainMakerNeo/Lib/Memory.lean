import Mathlib.Data.List.Basic

/-!
# `RainMakerNeo.Lib.Memory`: a block of memory and the accesses to it

A block is the list of its cells. An access says with `none` that it lies outside, so a program that
ends with a result has stayed inside its blocks. A program that may use the first cells of a larger
block runs on these cells alone.

Each access has its rule at the split `p ++ cell :: q`, which is the form that a loop
invariant gives to the block. `strlen` looks for the terminator.
-/

set_option autoImplicit false

namespace RainMakerNeo.Lib

section Blocks
variable {α : Type*}

/-- A read. -/
def peek (m : List α) (i : Nat) : Option α := m[i]?

/-- A write. -/
def poke (m : List α) (i : Nat) (v : α) : Option (List α) :=
  if i < m.length then some (m.set i v) else none

/-- `memcpy` into the block. -/
def copyTo (m : List α) (i : Nat) : List α → Option (List α)
  | [] => some m
  | v :: data => (poke m i v).bind fun m => copyTo m (i + 1) data

/-- `memcpy` out of the block. -/
def copyFrom (m : List α) (i n : Nat) : Option (List α) :=
  if i + n ≤ m.length then some ((m.drop i).take n) else none

variable {m p q : List α} {i : Nat}

theorem peek_at (v : α) (hi : i = p.length) : peek (p ++ v :: q) i = some v := by
  simp [peek, hi]

theorem poke_at (u v : α) (hi : i = p.length) :
    poke (p ++ u :: q) i v = some (p ++ v :: q) := by
  simp [poke, hi]

theorem copyTo_at {old d : List α} (hlen : old.length = d.length) (hi : i = p.length) :
    copyTo (p ++ (old ++ q)) i d = some (p ++ (d ++ q)) := by
  induction d generalizing p old i with
  | nil => simp [copyTo, List.eq_nil_of_length_eq_zero hlen]
  | cons v d ih =>
    cases old with
    | nil => simp at hlen
    | cons u old =>
      have hold : old.length = d.length := by simpa using hlen
      rw [copyTo, List.cons_append, poke_at u v hi, Option.bind_some]
      simpa using ih (p := p ++ [v]) (i := i + 1) hold (by simp [hi])

/-- A write behind what is written of a block so far. -/
theorem poke_next {w : List α} {hole : Option α} {rest : List (Option α)} (v : α)
    (hi : i = w.length) :
    poke (w.map some ++ hole :: rest) i (some v) = some ((w ++ [v]).map some ++ rest) := by
  simpa using poke_at (p := w.map some) (q := rest) hole (some v) (by simpa using hi)

/-- `memcpy` behind what is written of a block so far. -/
theorem copyTo_next {w d : List α} {hole rest : List (Option α)}
    (hlen : hole.length = d.length) (hi : i = w.length) :
    copyTo (w.map some ++ (hole ++ rest)) i (d.map some)
      = some ((w ++ d).map some ++ rest) := by
  simpa using copyTo_at (p := w.map some) (q := rest) (d := d.map some)
    (by simpa using hlen) (by simpa using hi)

theorem copyFrom_at {d : List α} {n : Nat} (hi : i = p.length) (hn : n = d.length) :
    copyFrom (p ++ (d ++ q)) i n = some d := by
  simp [copyFrom, hi, hn]

/-- The first cells of a block, and those behind them. -/
theorem exists_front {n : Nat} (h : n ≤ m.length) :
    ∃ front rest, m = front ++ rest ∧ front.length = n :=
  ⟨m.take n, m.drop n, (List.take_append_drop n m).symm, List.length_take_of_le h⟩

end Blocks

/-- `strlen` of the string that starts at a cell. -/
def strlen (m : List UInt8) (i : Nat) : Option Nat :=
  if 0 ∈ m.drop i then some ((m.drop i).takeWhile (· ≠ 0)).length else none

theorem takeWhile_text {text : List UInt8} (h : 0 ∉ text) (rest : List UInt8) :
    (text ++ 0 :: rest).takeWhile (· ≠ 0) = text := by
  induction text with
  | nil => simp
  | cons c text ih =>
    obtain ⟨hc, htext⟩ : 0 ≠ c ∧ 0 ∉ text := by simpa using h
    simpa [hc.symm] using ih htext

theorem strlen_at {p text rest : List UInt8} {i : Nat} (htext : 0 ∉ text) (hi : i = p.length) :
    strlen (p ++ (text ++ 0 :: rest)) i = some text.length := by
  have hdrop : (p ++ (text ++ 0 :: rest)).drop i = text ++ 0 :: rest := by simp [hi]
  rw [strlen, hdrop, if_pos (by simp), takeWhile_text htext]

end RainMakerNeo.Lib
