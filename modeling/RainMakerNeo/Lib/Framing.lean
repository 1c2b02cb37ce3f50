import Mathlib.Data.List.Basic

/-!
# `RainMakerNeo.Lib.Framing`: a file of records one after the other

A reader takes one record off the front of the bytes, finds their end, or fails. If it takes back
every record that the writer puts down (`Frames`), then all records of a file come back in order
(`readAll_writeAll`), and a search for the next record of some kind stops at the first one
(`seek_writeAll`).

The readers recurse on a bound for the number of records. Each record has a byte, so the number of
bytes is such a bound.
-/

set_option autoImplicit false

namespace RainMakerNeo.Lib

/-- What a reader makes of the front of some bytes. -/
inductive Read (α β : Type*)
  | eof
  | fail (rest : List β)
  | ok (a : α) (rest : List β)
  deriving DecidableEq, Repr

/-- What a search for a record comes to, and where the file is left. -/
inductive Seek
  | eof (offset : Nat)
  | fail (offset : Nat)
  | found (offset : Nat)
  deriving DecidableEq, Repr

namespace Framing

variable {α β : Type*} (write : α → List β) (read : List β → Read α β)

/-- The records of a file. -/
def writeAll (as : List α) : List β := as.flatMap write

/-- The records of at most `bound` that the bytes hold, `none` if one cannot be read. -/
def readAll : Nat → List β → Option (List α)
  | 0, bytes =>
    match read bytes with
    | .eof => some []
    | .fail _ | .ok _ _ => none
  | bound + 1, bytes =>
    match read bytes with
    | .eof => some []
    | .fail _ => none
    | .ok a rest => (readAll bound rest).map (a :: ·)

/-- The offset of the first record with `p`, where the bytes start at `offset`. -/
def seek (p : α → Bool) : Nat → List β → Nat → Seek
  | 0, bytes, offset =>
    match read bytes with
    | .eof => .eof offset
    | .fail rest | .ok _ rest => .fail (offset + (bytes.length - rest.length))
  | bound + 1, bytes, offset =>
    match read bytes with
    | .eof => .eof offset
    | .fail rest => .fail (offset + (bytes.length - rest.length))
    | .ok a rest =>
      if p a then .found offset else seek p bound rest (offset + (bytes.length - rest.length))

/-- The reader takes back what the writer puts down, for the records with `P`. -/
structure Frames (P : α → Prop) : Prop where
  eof : read [] = .eof
  ok : ∀ a rest, P a → read (write a ++ rest) = .ok a rest
  nonempty : ∀ a, write a ≠ []

variable {write read} {P : α → Prop} {as bs : List α}

@[simp] theorem writeAll_nil : writeAll write ([] : List α) = [] := rfl

@[simp] theorem writeAll_cons (a : α) :
    writeAll write (a :: as) = write a ++ writeAll write as := rfl

@[simp] theorem writeAll_append :
    writeAll write (as ++ bs) = writeAll write as ++ writeAll write bs :=
  List.flatMap_append

variable (h : Frames write read P)
include h

/-- A file is at least as long as the number of its records. -/
theorem Frames.length_le (as : List α) : as.length ≤ (writeAll write as).length := by
  induction as with
  | nil => exact Nat.le_refl 0
  | cons a as ih =>
    have hpos : 0 < (write a).length := List.length_pos_iff.mpr (h.nonempty a)
    rw [writeAll_cons, List.length_append, List.length_cons]
    omega

/-- All records come back. -/
theorem readAll_writeAll (has : ∀ a ∈ as, P a) {bound : Nat} (hbound : as.length ≤ bound) :
    readAll read bound (writeAll write as) = some as := by
  induction as generalizing bound with
  | nil =>
    cases bound <;> rw [readAll, writeAll_nil, h.eof]
  | cons a as ih =>
    cases bound with
    | zero => simp at hbound
    | succ bound =>
      rw [List.length_cons] at hbound
      have hrest : readAll read bound (writeAll write as) = some as :=
        ih (fun b hb => has b (List.mem_cons_of_mem a hb)) (by omega)
      rw [readAll, writeAll_cons, h.ok a _ (has a List.mem_cons_self)]
      show (readAll read bound (writeAll write as)).map (a :: ·) = _
      rw [hrest]
      rfl

/-- The first of the records. -/
theorem read_writeAll_cons {a : α} (ha : P a) :
    read (writeAll write (a :: as)) = .ok a (writeAll write as) := h.ok a _ ha

/-- A search passes a record without `p`. -/
theorem seek_cons {a : α} (ha : P a) (p : α → Bool) (bound offset : Nat) :
    seek read p (bound + 1) (writeAll write (a :: as)) offset =
      if p a then .found offset
      else seek read p bound (writeAll write as) (offset + (write a).length) := by
  have hsize : (writeAll write (a :: as)).length - (writeAll write as).length =
      (write a).length := by
    rw [writeAll_cons, List.length_append]
    omega
  rw [seek, read_writeAll_cons h ha]
  show (if p a then _ else seek read p bound _ (offset + (_ - _))) = _
  rw [hsize]

/-- A search passes the records without `p` and stops at the first one with it. -/
theorem seek_writeAll (has : ∀ a ∈ as, P a) {p : α → Bool} {bound : Nat}
    (hbound : as.length ≤ bound) (offset : Nat) :
    (seek read p bound (writeAll write as) offset =
        .eof (offset + (writeAll write as).length) ∧ ∀ a ∈ as, p a = false) ∨
      ∃ pre a post, as = pre ++ a :: post ∧ (∀ b ∈ pre, p b = false) ∧ p a = true ∧
        seek read p bound (writeAll write as) offset =
          .found (offset + (writeAll write pre).length) := by
  induction as generalizing bound offset with
  | nil =>
    left
    refine ⟨?_, fun _ ha => nomatch ha⟩
    cases bound <;> (rw [seek, writeAll_nil, h.eof]; rfl)
  | cons a as ih =>
    cases bound with
    | zero => simp at hbound
    | succ bound =>
      rw [List.length_cons] at hbound
      rw [seek_cons h (has a List.mem_cons_self)]
      cases hp : p a with
      | true =>
        right
        exact ⟨[], a, as, rfl, (fun _ hb => nomatch hb), hp, rfl⟩
      | false =>
        have hbound' : as.length ≤ bound := by omega
        have hrest := ih (fun b hb => has b (List.mem_cons_of_mem a hb)) hbound'
          (offset + (write a).length)
        rw [if_neg Bool.false_ne_true]
        rcases hrest with ⟨heof, hnone⟩ | ⟨pre, b, post, rfl, hpre, hb, hfound⟩
        · left
          refine ⟨?_, fun c hc => ?_⟩
          · rw [heof, writeAll_cons, List.length_append, Nat.add_assoc]
          · rcases List.mem_cons.mp hc with rfl | hc
            · exact hp
            · exact hnone c hc
        · right
          refine ⟨a :: pre, b, post, rfl, fun c hc => ?_, hb, ?_⟩
          · rcases List.mem_cons.mp hc with rfl | hc
            · exact hp
            · exact hpre c hc
          · rw [hfound, writeAll_cons, List.length_append, Nat.add_assoc]

end Framing

end RainMakerNeo.Lib
