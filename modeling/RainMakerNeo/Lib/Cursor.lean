import RainMakerNeo.Lib.Bytes

/-!
# `RainMakerNeo.Lib.Cursor`: a cursor over untrusted bytes

A decoder moves a cursor over a buffer. `Cursor` is a program that does so: from an offset it gives
the parts of the buffer that it touched, the new offset, and a result if it succeeds. A failure
leaves the cursor where it happened.

`Cursor.Safe` is what such a program owes an untrusted buffer, and `Cursor.Parses` says which bytes
it accepts. Both have one rule for each way to build a program.
-/

set_option autoImplicit false

namespace RainMakerNeo.Lib

/-- A part of a buffer. -/
structure Span where
  start : Nat
  length : Nat
  deriving DecidableEq, Repr

/-- The part lies in a buffer of this length. -/
def Span.Within (s : Span) (n : Nat) : Prop := s.start + s.length ≤ n

/-- What a program did: the parts it touched, where the cursor is, and the result. -/
structure Reading (α : Type) where
  spans : List Span
  off : Nat
  result : Option α

/-- A program that moves a cursor. -/
def Cursor (α : Type) : Type := Nat → Reading α

namespace Cursor

variable {α β : Type}

/-- Nothing is touched. -/
def ret (a : α) : Cursor α := fun off => ⟨[], off, some a⟩

/-- The program gives up. -/
def fail : Cursor α := fun off => ⟨[], off, none⟩

/-- The second program goes on where the first one stopped, if that succeeded. -/
def andThen (x : Cursor α) (f : α → Cursor β) : Cursor β := fun off =>
  match (x off).result with
  | none => ⟨(x off).spans, (x off).off, none⟩
  | some a =>
    ⟨(x off).spans ++ (f a (x off).off).spans, (f a (x off).off).off, (f a (x off).off).result⟩

instance : Monad Cursor where
  pure := ret
  bind := andThen

/-- The next bytes are touched, after a check that they are there. The result is their offset. -/
def advance (len n : Nat) : Cursor Nat := fun off =>
  if off + n > len then ⟨[], off, none⟩ else ⟨[⟨off, n⟩], off + n, some off⟩

variable {x : Cursor α} {f : α → Cursor β} {off : Nat} {P : List UInt8 → α → Prop}

theorem bind_none (h : (x off).result = none) :
    (x >>= f) off = ⟨(x off).spans, (x off).off, none⟩ := by
  show andThen x f off = _
  rw [andThen, h]

theorem bind_some {a : α} (h : (x off).result = some a) :
    (x >>= f) off = ⟨(x off).spans ++ (f a (x off).off).spans, (f a (x off).off).off,
      (f a (x off).off).result⟩ := by
  show andThen x f off = _
  rw [andThen, h]

/-- A result of the whole comes from a result of the first part. -/
theorem of_bind {b : β} (h : ((x >>= f) off).result = some b) :
    ∃ a, (x off).result = some a ∧ (f a (x off).off).result = some b ∧
      ((x >>= f) off).off = (f a (x off).off).off := by
  cases hx : (x off).result with
  | none =>
    rw [bind_none hx] at h
    exact absurd h (by nofun)
  | some a =>
    rw [bind_some hx] at h
    exact ⟨a, rfl, h, by rw [bind_some hx]⟩

/-! ### Staying inside the buffer -/

/-- Inside a buffer of this length the program touches nothing else, and the cursor stays in it
and does not go back. -/
structure Safe (len : Nat) (x : Cursor α) : Prop where
  within : ∀ off, off ≤ len → ∀ s ∈ (x off).spans, s.Within len
  le_off : ∀ off, off ≤ (x off).off
  off_le : ∀ off, off ≤ len → (x off).off ≤ len

variable {len : Nat}

theorem safe_ret (a : α) : Safe len (pure a : Cursor α) where
  within := fun _ _ s hs => absurd hs (List.not_mem_nil (a := s))
  le_off := fun off => Nat.le_refl off
  off_le := fun _ h => h

theorem safe_fail : Safe len (fail : Cursor α) where
  within := fun _ _ s hs => absurd hs (List.not_mem_nil (a := s))
  le_off := fun off => Nat.le_refl off
  off_le := fun _ h => h

theorem safe_advance (n : Nat) : Safe len (advance len n) where
  within := by
    intro off _ s hs
    rw [advance] at hs
    by_cases hend : off + n > len
    · rw [if_pos hend] at hs
      exact absurd hs (List.not_mem_nil (a := s))
    -- The check came first, so the only part that is touched fits.
    · rw [if_neg hend] at hs
      rw [List.mem_singleton.mp hs]
      show off + n ≤ len
      omega
  le_off := by
    intro off
    rw [advance]
    split
    · exact Nat.le_refl off
    · exact Nat.le_add_right off n
  off_le := by
    intro off hoff
    rw [advance]
    split
    · exact hoff
    · show off + n ≤ len
      omega

theorem Safe.bind (hx : Safe len x) (hf : ∀ a, Safe len (f a)) : Safe len (x >>= f) where
  within := by
    intro off hoff s hs
    cases hres : (x off).result with
    | none =>
      rw [bind_none hres] at hs
      exact hx.within off hoff s hs
    | some a =>
      rw [bind_some hres] at hs
      rcases List.mem_append.mp hs with hs | hs
      · exact hx.within off hoff s hs
      · exact (hf a).within _ (hx.off_le off hoff) s hs
  le_off := by
    intro off
    cases hres : (x off).result with
    | none =>
      rw [bind_none hres]
      exact hx.le_off off
    | some a =>
      rw [bind_some hres]
      exact Nat.le_trans (hx.le_off off) ((hf a).le_off _)
  off_le := by
    intro off hoff
    cases hres : (x off).result with
    | none =>
      rw [bind_none hres]
      exact hx.off_le off hoff
    | some a =>
      rw [bind_some hres]
      exact (hf a).off_le _ (hx.off_le off hoff)

/-! ### What is accepted -/

/-- The program succeeds on the fields of a language, and the cursor ends behind the field. -/
structure Parses (buf : List UInt8) (x : Cursor α) (P : List UInt8 → α → Prop) : Prop where
  sound : ∀ off, off ≤ buf.length → ∀ a, (x off).result = some a →
    ∃ field, P field a ∧ At buf off field ∧ (x off).off = off + field.length
  complete : ∀ off, off ≤ buf.length → ∀ field a, P field a → At buf off field →
    (x off).result = some a ∧ (x off).off = off + field.length

variable {buf : List UInt8}

theorem parses_ret (a : α) :
    Parses buf (pure a : Cursor α) fun field b => field = [] ∧ b = a where
  sound := by
    intro off _ b h
    have hb : a = b := Option.some.inj h
    exact ⟨[], ⟨rfl, hb.symm⟩, List.nil_prefix, rfl⟩
  complete := by
    rintro off _ field b ⟨rfl, rfl⟩ -
    exact ⟨rfl, rfl⟩

theorem parses_fail : Parses buf (fail : Cursor α) fun _ _ => False where
  sound := fun _ _ _ h => absurd h (by nofun)
  complete := fun _ _ _ _ h => h.elim

/-- A fixed number of bytes, with a function that reads them. -/
theorem parses_advance (n : Nat) (read : List UInt8 → α) :
    Parses buf (advance buf.length n >>= fun i => pure (read ((buf.drop i).take n)))
      fun field a => field.length = n ∧ a = read field where
  sound := by
    intro off hoff a h
    obtain ⟨i, hi, ha, hend⟩ := of_bind h
    have hfits : ¬ off + n > buf.length := by
      intro hlong
      rw [show advance buf.length n off = _ from if_pos hlong] at hi
      exact absurd hi (by nofun)
    have hadv : advance buf.length n off = ⟨[⟨off, n⟩], off + n, some off⟩ := if_neg hfits
    rw [hadv] at hi hend
    cases hi
    have hlen : ((buf.drop off).take n).length = n := by
      rw [List.length_take, List.length_drop]
      omega
    refine ⟨(buf.drop off).take n, ⟨hlen, (Option.some.inj ha).symm⟩, List.take_prefix n _, ?_⟩
    rw [hend, hlen]
    rfl
  complete := by
    rintro off hoff field a ⟨rfl, rfl⟩ hat
    have hle := hat.le_length hoff
    have hadv : advance buf.length field.length off
        = ⟨[⟨off, field.length⟩], off + field.length, some off⟩ :=
      if_neg (show ¬ off + field.length > buf.length by omega)
    rw [bind_some (by rw [hadv]), hadv]
    show some (read ((buf.drop off).take field.length)) = _ ∧ _
    rw [hat.take]
    exact ⟨rfl, rfl⟩

/-- A field of the whole is one of the first part and one of the second behind it. -/
theorem Parses.bind {Q : α → List UInt8 → β → Prop} (hx : Parses buf x P)
    (hf : ∀ a, Parses buf (f a) (Q a)) :
    Parses buf (x >>= f) fun field b =>
      ∃ first second a, P first a ∧ Q a second b ∧ field = first ++ second where
  sound := by
    intro off hoff b h
    obtain ⟨a, ha, hb, hoff'⟩ := of_bind h
    obtain ⟨first, hfirst, hat, hend⟩ := hx.sound off hoff a ha
    -- The second program starts behind the first field, which is still in the buffer.
    have hmid : (x off).off ≤ buf.length := hend ▸ hat.le_length hoff
    obtain ⟨second, hsecond, hat', hend'⟩ := (hf a).sound _ hmid b hb
    refine ⟨first ++ second, ⟨first, second, a, hfirst, hsecond, rfl⟩, ?_, ?_⟩
    · exact at_append.mpr ⟨hat, hend ▸ hat'⟩
    · rw [hoff', hend', hend, List.length_append, Nat.add_assoc]
  complete := by
    rintro off hoff field b ⟨first, second, a, hfirst, hsecond, rfl⟩ hat
    obtain ⟨hat, hat'⟩ := at_append.mp hat
    obtain ⟨ha, hend⟩ := hx.complete off hoff first a hfirst hat
    have hmid : (x off).off ≤ buf.length := hend ▸ hat.le_length hoff
    obtain ⟨hb, hend'⟩ := (hf a).complete _ hmid second b hsecond (hend ▸ hat')
    rw [bind_some ha, List.length_append, ← Nat.add_assoc, ← hend]
    exact ⟨hb, hend'⟩

/-- The same language in other words. -/
theorem Parses.congr {Q : List UInt8 → α → Prop} (h : Parses buf x P)
    (hPQ : ∀ field a, P field a ↔ Q field a) : Parses buf x Q where
  sound := by
    intro off hoff a ha
    obtain ⟨field, hfield, hrest⟩ := h.sound off hoff a ha
    exact ⟨field, (hPQ field a).mp hfield, hrest⟩
  complete := fun off hoff field a hfield => h.complete off hoff field a ((hPQ field a).mpr hfield)

/-- A function of the result changes no byte. -/
theorem Parses.map (h : Parses buf x P) (f : α → β) :
    Parses buf (x >>= fun a => pure (f a)) fun field b => ∃ a, P field a ∧ b = f a := by
  refine (h.bind fun a => parses_ret (f a)).congr ?_
  intro field b
  constructor
  · rintro ⟨first, _, a, hfirst, ⟨rfl, rfl⟩, rfl⟩
    exact ⟨a, (List.append_nil first).symm ▸ hfirst, rfl⟩
  · rintro ⟨a, hfield, rfl⟩
    exact ⟨field, [], a, hfield, ⟨rfl, rfl⟩, (List.append_nil field).symm⟩

/-- Some step forward was made on success, if every field of the language has a byte. -/
theorem Parses.lt_off (h : Parses buf x P) (hne : ∀ field a, P field a → 0 < field.length)
    (hoff : off ≤ buf.length) {a : α} (ha : (x off).result = some a) : off < (x off).off := by
  obtain ⟨field, hfield, -, hend⟩ := h.sound off hoff a ha
  have hpos := hne field a hfield
  omega

end Cursor

end RainMakerNeo.Lib
