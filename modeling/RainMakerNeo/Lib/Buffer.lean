import Mathlib.Data.List.Basic

/-!
# `RainMakerNeo.Lib.Buffer`: a buffer of fixed size and the text in it

A `Buffer n` is `n` bytes. A write and a read say with `none` that they leave the buffer. The text
of a buffer is what stands before its first NUL, and a buffer without a NUL has no text.

`Holds b bytes` is the shape in which a message is put together: the bytes, and nothing but NULs
behind them, at least one. `Holds.write` adds bytes at the end, and `Holds.text` reads the text.

A message that travels in fragments is the concatenation of their payloads. `Contiguous total`
says that each fragment starts where the one before it ended and that all declare the same total.
-/

set_option autoImplicit false

namespace RainMakerNeo.Lib

/-! ### Buffers -/

/-- `n` bytes. -/
structure Buffer (n : Nat) where
  bytes : List UInt8
  length : bytes.length = n
  deriving DecidableEq

/-- What `strlen` and `%s` see of some bytes. -/
def cString (bytes : List UInt8) : List UInt8 := bytes.takeWhile (· ≠ 0)

namespace Buffer

variable {n : Nat}

/-- `memset` with 0. -/
def zero (n : Nat) : Buffer n where
  bytes := List.replicate n 0
  length := List.length_replicate

instance : Inhabited (Buffer n) := ⟨zero n⟩

/-- `memcpy` to an offset of the buffer. -/
def write (b : Buffer n) (offset : Nat) (data : List UInt8) : Option (Buffer n) :=
  if h : offset + data.length ≤ n then
    some
      { bytes := b.bytes.take offset ++ data ++ b.bytes.drop (offset + data.length)
        length := by
          have hlen := b.length
          rw [List.length_append, List.length_append, List.length_take, List.length_drop, hlen]
          omega }
  else none

/-- The bytes from an offset on. -/
def slice (b : Buffer n) (offset len : Nat) : Option (List UInt8) :=
  if offset + len ≤ n then some ((b.bytes.drop offset).take len) else none

/-- `snprintf`: what fits, and a NUL. -/
def print (b : Buffer n) (text : List UInt8) : Option (Buffer n) :=
  b.write 0 (text.take (n - 1) ++ [0])

/-- The text up to the first NUL. -/
def text (b : Buffer n) : Option (List UInt8) :=
  if (0 : UInt8) ∈ b.bytes then some (cString b.bytes) else none

/-- The last byte is a NUL. -/
def Terminated (b : Buffer n) : Prop := b.bytes.getLast? = some 0

instance (b : Buffer n) : Decidable b.Terminated := inferInstanceAs (Decidable (_ = _))

variable {b : Buffer n} {bytes : List UInt8}

theorem ext {c : Buffer n} (h : b.bytes = c.bytes) : b = c := by
  cases b
  cases c
  simpa using h

theorem zero_terminated (hn : 0 < n) : (zero n).Terminated := by
  show (List.replicate n (0 : UInt8)).getLast? = some 0
  rw [List.getLast?_replicate, if_neg (by omega)]

/-- A buffer that is terminated has a text. -/
theorem Terminated.text (h : b.Terminated) : b.text = some (cString b.bytes) :=
  if_pos (List.mem_of_getLast? h)

theorem write_eq_some {offset : Nat} {data : List UInt8} (h : offset + data.length ≤ n) :
    ∃ c, b.write offset data = some c
      ∧ c.bytes = b.bytes.take offset ++ data ++ b.bytes.drop (offset + data.length) :=
  ⟨_, dif_pos h, rfl⟩

/-- A write that stays away from the last byte leaves it as it is. -/
theorem Terminated.write {c : Buffer n} {offset : Nat} {data : List UInt8} (hb : b.Terminated)
    (hlt : offset + data.length < n) (hc : b.write offset data = some c) : c.Terminated := by
  rw [Buffer.write, dif_pos (Nat.le_of_lt hlt)] at hc
  obtain rfl := Option.some.inj hc
  have hrest : b.bytes.drop (offset + data.length) ≠ [] := by
    rw [Ne, List.drop_eq_nil_iff, b.length]
    omega
  show (_ ++ b.bytes.drop (offset + data.length)).getLast? = some 0
  rw [List.getLast?_append_of_ne_nil _ hrest, List.getLast?_drop, if_neg]
  · exact hb
  · rw [b.length]
    omega

/-- A printed text leaves a buffer that is terminated. -/
theorem Terminated.print (hb : b.Terminated) (hn : 0 < n) (text : List UInt8) :
    ∃ c, b.print text = some c ∧ c.Terminated ∧ text.take (n - 1) <+: c.bytes := by
  have hlen : (text.take (n - 1) ++ [0]).length ≤ n := by
    rw [List.length_append, List.length_take, List.length_singleton]
    omega
  have hfits : 0 + (text.take (n - 1) ++ [0]).length ≤ n := by
    rw [Nat.zero_add]
    exact hlen
  obtain ⟨c, hc, hbytes⟩ := write_eq_some (b := b) hfits
  refine ⟨c, hc, ?_, ?_⟩
  · rcases Nat.lt_or_ge (text.take (n - 1) ++ [0]).length n with hlt | hge
    · exact hb.write (by omega) hc
    · -- the NUL of the text is the last byte
      have hrest : b.bytes.drop (0 + (text.take (n - 1) ++ [0]).length) = [] := by
        rw [List.drop_eq_nil_iff, b.length]
        omega
      rw [Terminated, hbytes, hrest]
      simp
  · rw [hbytes, List.take_zero, List.nil_append, List.append_assoc]
    exact List.prefix_append _ _

theorem slice_eq_some {offset len : Nat} (h : offset + len ≤ n) :
    b.slice offset len = some ((b.bytes.drop offset).take len) := if_pos h

/-! ### A message that is put together -/

/-- The bytes stand at the start, and NULs behind them, at least one. -/
structure Holds (b : Buffer n) (bytes : List UInt8) : Prop where
  bytes_eq : b.bytes = bytes ++ List.replicate (n - bytes.length) 0
  lt : bytes.length < n

theorem holds_zero (hn : 0 < n) : Holds (zero n) [] := ⟨rfl, hn⟩

theorem Holds.terminated (h : Holds b bytes) : b.Terminated := by
  have hpos : n - bytes.length ≠ 0 := by
    have := h.lt
    omega
  rw [Terminated, h.bytes_eq, List.getLast?_append, List.getLast?_replicate, if_neg hpos]
  rfl

/-- The text of a message. -/
theorem Holds.text (h : Holds b bytes) : b.text = some (cString bytes) := by
  rw [h.terminated.text, h.bytes_eq, cString, cString]
  obtain ⟨k, hk⟩ : ∃ k, n - bytes.length = k + 1 := by
    have := h.lt
    exact ⟨n - bytes.length - 1, by omega⟩
  rw [hk, List.replicate_succ, List.takeWhile_append]
  split
  · next hall =>
    have hself := (List.takeWhile_prefix (p := fun c : UInt8 => decide (c ≠ 0))
      (l := bytes)).eq_of_length hall
    rw [hself]
    simp
  · rfl

/-- The next bytes go behind the ones that are there. -/
theorem Holds.write (h : Holds b bytes) (data : List UInt8) (hlt : bytes.length + data.length < n) :
    ∃ c, b.write bytes.length data = some c ∧ Holds c (bytes ++ data) := by
  obtain ⟨c, hc, hbytes⟩ := write_eq_some (b := b) (Nat.le_of_lt hlt)
  refine ⟨c, hc, ?_, ?_⟩
  · have hrest : n - (bytes ++ data).length = n - bytes.length - data.length := by
      rw [List.length_append]
      omega
    rw [hbytes, h.bytes_eq, hrest, List.take_left, List.drop_append, List.drop_replicate]
    simp
  · rw [List.length_append]
    exact hlt

end Buffer

/-! ### Fragments -/

/-- A part of a message, with its place in the message and the length of the whole. -/
structure Fragment where
  offset : Nat
  payload : List UInt8
  total : Nat
  deriving DecidableEq, Repr

namespace Fragment

/-- The concatenation of the payloads. -/
def join (l : List Fragment) : List UInt8 := (l.map payload).flatten

@[simp] theorem join_nil : join [] = [] := rfl

@[simp] theorem join_append (l l' : List Fragment) : join (l ++ l') = join l ++ join l' := by
  simp [join]

@[simp] theorem join_singleton (f : Fragment) : join [f] = f.payload := by
  simp [join]

/-- Each fragment starts where the ones before it end, and declares the total. -/
def Contiguous (total : Nat) (l : List Fragment) : Prop :=
  ∀ before f after, l = before ++ f :: after →
    f.offset = (join before).length ∧ f.total = total

theorem contiguous_nil (total : Nat) : Contiguous total [] := by
  intro before f after h
  cases before <;> cases h

/-- One more fragment at the end. -/
theorem Contiguous.append {total : Nat} {l : List Fragment} {f : Fragment}
    (h : Contiguous total l) (hoffset : f.offset = (join l).length) (htotal : f.total = total) :
    Contiguous total (l ++ [f]) := by
  intro before g after heq
  rcases List.eq_nil_or_concat' after with rfl | ⟨after, x, rfl⟩
  · obtain ⟨rfl, hg⟩ := List.append_inj' heq rfl
    cases hg
    exact ⟨hoffset, htotal⟩
  · have heq' : l ++ [f] = (before ++ g :: after) ++ [x] := by
      rw [heq]
      simp
    exact h before g after (List.append_inj' heq' rfl).1

end Fragment

end RainMakerNeo.Lib
