import RainMakerNeo.Automation.TriggerCodec
import RainMakerNeo.Lib.Cursor

/-!
# `RainMakerNeo.Automation.TriggerBounds`: the iterator on arbitrary bytes

The iterator of `TriggerCodec` gives what it reads. Here it is written once more as a cursor, which
also gives what it touches: the bytes it reads and the slices it hands out. `next_eq` says that both
are the same function.

`decoder_safe` is about any bytes. A call touches nothing outside the blob and moves the cursor
forward, and the loop over the entries ends. It ends without an error on the blobs that hold as many
entries as their second byte says, and on no others.
-/

set_option autoImplicit false

namespace RainMakerNeo.Automation

open RainMakerNeo.Lib

/-! ### The readers, with what they touch -/

/-- `cur_u8`. -/
def curU8 (buf : List UInt8) (len : Nat) : Cursor UInt8 := do
  let i ← Cursor.advance len 1
  pure (buf.getD i 0)

/-- `cur_u16`. -/
def curU16 (buf : List UInt8) (len : Nat) : Cursor Nat := do
  let i ← Cursor.advance len 2
  pure (readLe16 (buf.getD i 0) (buf.getD (i + 1) 0))

/-- The bytes of a field. -/
def curTake (buf : List UInt8) (len n : Nat) : Cursor (List UInt8) := do
  let i ← Cursor.advance len n
  pure ((buf.drop i).take n)

/-- `cur_blob`. The slice that it hands out counts as touched. -/
def curBlob (buf : List UInt8) (len : Nat) : Cursor (List UInt8) := do
  let n ← curU16 buf len
  curTake buf len n

/-- The value of an entry, by its type. -/
def curValue (buf : List UInt8) (len : Nat) (e : Entry) : Cursor Entry :=
  if e.valueType = vtBool then do
    let v ← curU8 buf len
    pure { e with valueBool := v != 0 }
  else if e.valueType = vtInt then do
    let bs ← curTake buf len 4
    pure { e with valueInt := (readLe32 bs).toInt32 }
  else if e.valueType = vtFloat then do
    let bs ← curTake buf len 4
    pure { e with valueFloat := readLe32 bs }
  else if e.valueType = vtString ∨ e.valueType = vtObject ∨ e.valueType = vtArray then do
    let bs ← curBlob buf len
    pure { e with valueStr := bs }
  else Cursor.fail

/-- The value type in the flags of an entry. -/
def valueTypeOf (flags : UInt8) : Nat := (flags.toNat &&& flagVtMask) >>> flagVtShift

/-- The entry as the first two bytes tell it. -/
def entryHead (flags opCode : UInt8) : Entry where
  opCode := opCode.toNat
  enabled := (flags.toNat &&& flagEnabled) != 0
  valueType := valueTypeOf flags

/-- The texts and the value behind the first two bytes. -/
def curTail (buf : List UInt8) (len : Nat) (e : Entry) : Cursor Entry :=
  if e.opCode ≥ opNames.length then Cursor.fail
  else do
    let id ← curBlob buf len
    let path ← curBlob buf len
    curValue buf len { e with id, path }

/-- The fields of the next entry. -/
def curEntry (buf : List UInt8) (len : Nat) : Cursor Entry := do
  let flags ← curU8 buf len
  let opCode ← curU8 buf len
  curTail buf len (entryHead flags opCode)

/-! ### The same iterator -/

section Same

variable {α β : Type} {it : Iter}

/-- A reader of the iterator is a cursor: the same result, and the cursor at the same offset. -/
def Follows (it : Iter) (x : Cursor α) (r : Option (α × Iter)) : Prop :=
  r = (x it.off).result.map fun a => (a, { it with off := (x it.off).off })

variable {r : Option (α × Iter)}

theorem Follows.bind {x : Cursor α} {f : α → Cursor β} {g : α × Iter → Option (β × Iter)}
    (hx : Follows it x r)
    (hf : ∀ a off, Follows { it with off := off } (f a) (g (a, { it with off := off }))) :
    Follows it (x >>= f) (r >>= g) := by
  rw [Follows, hx]
  cases hres : (x it.off).result with
  | none =>
    rw [Cursor.bind_none hres]
    rfl
  | some a =>
    rw [Cursor.bind_some hres]
    exact hf a (x it.off).off

theorem Follows.map {x : Cursor α} {f : α → β} (hx : Follows it x r) :
    Follows it (x >>= fun a => pure (f a)) (r.map fun p => (f p.1, p.2)) := by
  rw [Follows, hx]
  cases hres : (x it.off).result with
  | none =>
    rw [Cursor.bind_none hres]
    rfl
  | some a =>
    rw [Cursor.bind_some hres]
    rfl

theorem follows_advance (n : Nat) (read : Nat → α) :
    Follows it (Cursor.advance it.len n >>= fun i => pure (read i))
      (if it.off + n > it.len then none
        else some (read it.off, { it with off := it.off + n })) := by
  rw [Follows]
  by_cases hend : it.off + n > it.len
  · have hadv : Cursor.advance it.len n it.off = ⟨[], it.off, none⟩ := if_pos hend
    rw [Cursor.bind_none (by rw [hadv]), if_pos hend]
    rfl
  · have hadv : Cursor.advance it.len n it.off = ⟨[⟨it.off, n⟩], it.off + n, some it.off⟩ :=
      if_neg hend
    rw [Cursor.bind_some (by rw [hadv]), hadv, if_neg hend]
    rfl

theorem follows_u8 (it : Iter) : Follows it (curU8 it.buf it.len) it.u8 :=
  follows_advance 1 fun i => it.buf.getD i 0

theorem follows_u16 (it : Iter) : Follows it (curU16 it.buf it.len) it.u16 :=
  follows_advance 2 fun i => readLe16 (it.buf.getD i 0) (it.buf.getD (i + 1) 0)

theorem follows_take (it : Iter) (n : Nat) : Follows it (curTake it.buf it.len n) (it.take n) :=
  follows_advance n fun i => (it.buf.drop i).take n

theorem follows_blob (it : Iter) : Follows it (curBlob it.buf it.len) it.blob :=
  (follows_u16 it).bind fun n off => follows_take { it with off := off } n

theorem follows_value (it : Iter) (e : Entry) :
    Follows it (curValue it.buf it.len e) (it.value e) := by
  rw [curValue, Iter.value]
  split
  · exact (follows_u8 it).map
  split
  · exact (follows_take it 4).map
  split
  · exact (follows_take it 4).map
  split
  · exact (follows_blob it).map
  · rfl

/-- The texts and the value, as the iterator reads them. -/
theorem follows_tail (it : Iter) (e : Entry) : Follows it (curTail it.buf it.len e)
    (if e.opCode ≥ opNames.length then none
      else do
        let (id, it) ← it.blob
        let (path, it) ← it.blob
        it.value { e with id, path }) := by
  rw [curTail]
  split
  · rfl
  · exact (follows_blob it).bind fun id off =>
      (follows_blob { it with off := off }).bind fun path off' =>
        follows_value { it with off := off' } { e with id, path }

theorem follows_entry (it : Iter) : Follows it (curEntry it.buf it.len) it.entry :=
  (follows_u8 it).bind fun flags off =>
    (follows_u8 { it with off := off }).bind fun opCode off' =>
      follows_tail { it with off := off' } (entryHead flags opCode)

end Same

/-- A call of `esp_rmaker_trigger_details_iter_next`: what it touched, what it returned, and the
iterator after it. A failure leaves the cursor where it happened. -/
structure NextCall where
  spans : List Span
  result : Except Error Entry
  after : Iter

/-- What a call makes of the reading of an entry. -/
def Iter.called (it : Iter) (reading : Reading Entry) : NextCall :=
  match reading.result with
  | none => ⟨reading.spans, .error .fail, { it with off := reading.off }⟩
  | some e =>
    ⟨reading.spans, .ok e, { it with off := reading.off, remaining := it.remaining - 1 }⟩

/-- `esp_rmaker_trigger_details_iter_next`, with what it touches. -/
def Iter.nextCall (it : Iter) : NextCall :=
  if it.remaining = 0 then ⟨[], .error .notFound, it⟩
  else it.called (curEntry it.buf it.len it.off)

/-- Both forms of the iterator are the same function. -/
theorem Iter.next_eq (it : Iter) :
    it.next = it.nextCall.result.map fun e => (e, it.nextCall.after) := by
  rw [Iter.next, Iter.nextCall]
  by_cases hzero : it.remaining = 0
  · rw [if_pos hzero, if_pos hzero]
    rfl
  · rw [if_neg hzero, if_neg hzero, follows_entry it]
    -- Only the result and the offset of the reading matter; the touched parts go into the call.
    generalize curEntry it.buf it.len it.off = reading
    obtain ⟨spans, off, result⟩ := reading
    cases result with
    | none => rfl
    | some e => rfl

/-! ### What a call may touch -/

section Safety

variable {buf : List UInt8} {len : Nat}

theorem safe_u8 : (curU8 buf len).Safe len :=
  (Cursor.safe_advance 1).bind fun _ => Cursor.safe_ret _

theorem safe_u16 : (curU16 buf len).Safe len :=
  (Cursor.safe_advance 2).bind fun _ => Cursor.safe_ret _

theorem safe_take (n : Nat) : (curTake buf len n).Safe len :=
  (Cursor.safe_advance n).bind fun _ => Cursor.safe_ret _

theorem safe_blob : (curBlob buf len).Safe len := safe_u16.bind safe_take

theorem safe_value (e : Entry) : (curValue buf len e).Safe len := by
  rw [curValue]
  split
  · exact safe_u8.bind fun _ => Cursor.safe_ret _
  split
  · exact (safe_take 4).bind fun _ => Cursor.safe_ret _
  split
  · exact (safe_take 4).bind fun _ => Cursor.safe_ret _
  split
  · exact safe_blob.bind fun _ => Cursor.safe_ret _
  · exact Cursor.safe_fail

theorem safe_tail (e : Entry) : (curTail buf len e).Safe len := by
  rw [curTail]
  split
  · exact Cursor.safe_fail
  · exact safe_blob.bind fun id => safe_blob.bind fun path => safe_value _

/-- Reading an entry touches the blob only. -/
theorem safe_entry : (curEntry buf len).Safe len :=
  safe_u8.bind fun _ => safe_u8.bind fun _ => safe_tail _

end Safety

/-! ### The bytes of an entry -/

/-- The bytes of a value with this type. -/
inductive ValueLayout : Nat → List UInt8 → Prop
  | bool (b : UInt8) : ValueLayout vtBool [b]
  | word {valueType : Nat} {bs : List UInt8} (htype : valueType = vtInt ∨ valueType = vtFloat)
      (hlen : bs.length = 4) : ValueLayout valueType bs
  | text {valueType : Nat} {t : List UInt8}
      (htype : valueType = vtString ∨ valueType = vtObject ∨ valueType = vtArray)
      (hlen : t.length < 65536) : ValueLayout valueType (le16 t.length ++ t)

/-- The entry with the value in these bytes. -/
def Entry.withValue (e : Entry) (bs : List UInt8) : Entry :=
  if e.valueType = vtBool then { e with valueBool := bs.getD 0 0 != 0 }
  else if e.valueType = vtInt then { e with valueInt := (readLe32 bs).toInt32 }
  else if e.valueType = vtFloat then { e with valueFloat := readLe32 bs }
  else { e with valueStr := bs.drop 2 }

/-- The bytes of an entry: flags, operator, both texts with their lengths, and the value. -/
def EntryLayout (field : List UInt8) (e : Entry) : Prop :=
  ∃ (flags opCode : UInt8) (id path value : List UInt8),
    opCode.toNat < opNames.length ∧ id.length < 65536 ∧ path.length < 65536 ∧
    ValueLayout (valueTypeOf flags) value ∧
    field = [flags] ++ ([opCode] ++
      ((le16 id.length ++ id) ++ ((le16 path.length ++ path) ++ value))) ∧
    e = { entryHead flags opCode with id, path }.withValue value

/-- Two bytes are the number that they spell. -/
theorem le16_readLe16 (lo hi : UInt8) :
    le16 (readLe16 lo hi) = [lo, hi] ∧ readLe16 lo hi < 65536 := by
  have hlo := lo.toNat_lt
  have hhi := hi.toNat_lt
  have hmask : ∀ n : Nat, n &&& 0xFF = n % 256 := fun n => Nat.and_two_pow_sub_one_eq_mod n 8
  -- The two bytes do not overlap, so the disjunction of the shifted words is their sum.
  have hval : readLe16 lo hi = hi.toNat * 256 + lo.toNat := by
    rw [readLe16, Nat.or_comm, ← Nat.shiftLeft_add_eq_or_of_lt (i := 8) (by omega),
      Nat.shiftLeft_eq]
    omega
  constructor
  · rw [le16, hmask, hmask, Nat.shiftRight_eq_div_pow, hval,
      show (hi.toNat * 256 + lo.toNat) % 256 = lo.toNat by omega,
      show (hi.toNat * 256 + lo.toNat) / 2 ^ 8 % 256 = hi.toNat by omega,
      UInt8.ofNat_toNat, UInt8.ofNat_toNat]
  · omega

section Language

variable {buf : List UInt8}

theorem parses_u8 : (curU8 buf buf.length).Parses buf fun field b => field = [b] := by
  -- The byte is read through the field, the form that the rule for a fixed length asks for.
  have hread : curU8 buf buf.length = Cursor.advance buf.length 1 >>= fun i =>
      pure (((buf.drop i).take 1).getD 0 0) := by
    simp [curU8, List.getD_eq_getElem?_getD]
  rw [hread]
  refine (Cursor.parses_advance 1 fun bs => bs.getD 0 0).congr ?_
  intro field b
  constructor
  · rintro ⟨hlen, rfl⟩
    obtain ⟨c, rfl⟩ := List.length_eq_one_iff.mp hlen
    rfl
  · rintro rfl
    exact ⟨rfl, rfl⟩

theorem parses_u16 : (curU16 buf buf.length).Parses buf fun field n =>
    n < 65536 ∧ field = le16 n := by
  have hread : curU16 buf buf.length = Cursor.advance buf.length 2 >>= fun i =>
      pure (readLe16 (((buf.drop i).take 2).getD 0 0) (((buf.drop i).take 2).getD 1 0)) := by
    simp [curU16, List.getD_eq_getElem?_getD]
  rw [hread]
  refine (Cursor.parses_advance 2 fun bs => readLe16 (bs.getD 0 0) (bs.getD 1 0)).congr ?_
  intro field n
  constructor
  · rintro ⟨hlen, rfl⟩
    obtain ⟨lo, hi, rfl⟩ := List.length_eq_two.mp hlen
    exact ⟨(le16_readLe16 lo hi).2, (le16_readLe16 lo hi).1.symm⟩
  · rintro ⟨hn, rfl⟩
    exact ⟨rfl, (readLe16_le16 hn).symm⟩

theorem parses_take (n : Nat) : (curTake buf buf.length n).Parses buf fun field bs =>
    field.length = n ∧ bs = field :=
  Cursor.parses_advance n fun bs => bs

theorem parses_blob : (curBlob buf buf.length).Parses buf fun field t =>
    t.length < 65536 ∧ field = le16 t.length ++ t := by
  refine (parses_u16.bind parses_take).congr ?_
  intro field t
  constructor
  · rintro ⟨first, second, n, ⟨hn, rfl⟩, ⟨rfl, rfl⟩, rfl⟩
    exact ⟨hn, rfl⟩
  · rintro ⟨hn, rfl⟩
    exact ⟨le16 t.length, t, t.length, ⟨hn, rfl⟩, ⟨rfl, rfl⟩, rfl⟩

/-- A type has one kind of layout. -/
theorem valueLayout_iff {valueType : Nat} {field : List UInt8} : ValueLayout valueType field ↔
    (valueType = vtBool ∧ ∃ b, field = [b]) ∨
    ((valueType = vtInt ∨ valueType = vtFloat) ∧ field.length = 4) ∨
    ((valueType = vtString ∨ valueType = vtObject ∨ valueType = vtArray) ∧
      ∃ t : List UInt8, t.length < 65536 ∧ field = le16 t.length ++ t) := by
  constructor
  · intro h
    cases h with
    | bool b => exact .inl ⟨rfl, b, rfl⟩
    | word htype hlen => exact .inr (.inl ⟨htype, hlen⟩)
    | @text _ t htype hlen => exact .inr (.inr ⟨htype, t, hlen, rfl⟩)
  · rintro (⟨rfl, b, rfl⟩ | ⟨htype, hlen⟩ | ⟨htype, t, hlen, rfl⟩)
    · exact .bool b
    · exact .word htype hlen
    · exact .text htype hlen

theorem parses_value (e : Entry) : (curValue buf buf.length e).Parses buf fun field e' =>
    ValueLayout e.valueType field ∧ e' = e.withValue field := by
  simp only [valueLayout_iff, Entry.withValue]
  rw [curValue]
  -- One case for each branch of the reader. The types are distinct numbers, so in each case only
  -- one of the three layouts is left.
  by_cases hbool : e.valueType = vtBool
  · rw [if_pos hbool]
    refine (parses_u8.map fun v => { e with valueBool := v != 0 }).congr ?_
    intro field e'
    simp only [hbool, vtBool, vtInt, vtFloat, vtString, vtObject, vtArray]
    constructor
    · rintro ⟨b, rfl, rfl⟩
      simp
    · rintro ⟨h, rfl⟩
      obtain ⟨b, rfl⟩ : ∃ b, field = [b] := by simpa using h
      exact ⟨b, rfl, rfl⟩
  rw [if_neg hbool]
  by_cases hint : e.valueType = vtInt
  · rw [if_pos hint]
    refine ((parses_take 4).map fun bs => { e with valueInt := (readLe32 bs).toInt32 }).congr ?_
    intro field e'
    simp [hint, vtBool, vtInt, vtFloat, vtString, vtObject, vtArray]
  rw [if_neg hint]
  by_cases hfloat : e.valueType = vtFloat
  · rw [if_pos hfloat]
    refine ((parses_take 4).map fun bs => { e with valueFloat := readLe32 bs }).congr ?_
    intro field e'
    simp [hfloat, vtBool, vtInt, vtFloat, vtString, vtObject, vtArray]
  rw [if_neg hfloat]
  by_cases htext : e.valueType = vtString ∨ e.valueType = vtObject ∨ e.valueType = vtArray
  · rw [if_pos htext]
    refine (parses_blob.map fun bs => { e with valueStr := bs }).congr ?_
    intro field e'
    simp only [hbool, hint, hfloat, htext, false_and, true_and, false_or, or_false]
    constructor
    · rintro ⟨t, ⟨hlen, rfl⟩, rfl⟩
      exact ⟨⟨t, hlen, rfl⟩, rfl⟩
    · rintro ⟨⟨t, hlen, rfl⟩, rfl⟩
      exact ⟨t, ⟨hlen, rfl⟩, rfl⟩
  · rw [if_neg htext]
    refine Cursor.parses_fail.congr ?_
    intro field e'
    simp [hbool, hint, hfloat, htext]

theorem parses_tail (e : Entry) : (curTail buf buf.length e).Parses buf fun field e' =>
    ∃ id path value, e.opCode < opNames.length ∧ id.length < 65536 ∧ path.length < 65536 ∧
      ValueLayout e.valueType value ∧
      field = (le16 id.length ++ id) ++ ((le16 path.length ++ path) ++ value) ∧
      e' = { e with id, path }.withValue value := by
  rw [curTail]
  by_cases hop : e.opCode ≥ opNames.length
  · rw [if_pos hop]
    refine Cursor.parses_fail.congr ?_
    intro field e'
    refine iff_of_false id ?_
    rintro ⟨_, _, _, hlt, -⟩
    omega
  · rw [if_neg hop]
    refine (parses_blob.bind fun id => parses_blob.bind fun path =>
      parses_value { e with id, path }).congr ?_
    intro field e'
    constructor
    · rintro ⟨_, _, id, ⟨hid, rfl⟩, ⟨_, value, path, ⟨hpath, rfl⟩, ⟨hvalue, rfl⟩, rfl⟩, rfl⟩
      exact ⟨id, path, value, by omega, hid, hpath, hvalue, rfl, rfl⟩
    · rintro ⟨id, path, value, -, hid, hpath, hvalue, rfl, rfl⟩
      exact ⟨_, _, id, ⟨hid, rfl⟩, ⟨_, value, path, ⟨hpath, rfl⟩, ⟨hvalue, rfl⟩, rfl⟩, rfl⟩

/-- The iterator reads the entries of the layout and nothing else. -/
theorem parses_entry : (curEntry buf buf.length).Parses buf EntryLayout := by
  refine (parses_u8.bind fun flags => parses_u8.bind fun opCode =>
    parses_tail (entryHead flags opCode)).congr ?_
  intro field e
  constructor
  · rintro ⟨_, _, flags, rfl, ⟨_, _, opCode, rfl, ⟨id, path, value, hop, hid, hpath, hvalue, rfl,
      rfl⟩, rfl⟩, rfl⟩
    exact ⟨flags, opCode, id, path, value, hop, hid, hpath, hvalue, rfl, rfl⟩
  · rintro ⟨flags, opCode, id, path, value, hop, hid, hpath, hvalue, rfl, rfl⟩
    exact ⟨_, _, flags, rfl, ⟨_, _, opCode, rfl, ⟨id, path, value, hop, hid, hpath, hvalue, rfl,
      rfl⟩, rfl⟩, rfl⟩

theorem EntryLayout.length_pos {field : List UInt8} {e : Entry} (h : EntryLayout field e) :
    0 < field.length := by
  obtain ⟨flags, opCode, id, path, value, -, -, -, -, rfl, -⟩ := h
  simp

end Language

/-! ### The loop over the entries -/

/-- An iterator that is where `esp_rmaker_trigger_details_iter_begin` or a call left it. -/
structure Iter.Over (it : Iter) (buf : List UInt8) : Prop where
  buf_eq : it.buf = buf
  len_eq : it.len = buf.length
  off_le : it.off ≤ buf.length

variable {buf : List UInt8} {it : Iter} {es : List Entry}

/-- A fresh iterator. -/
theorem iterBegin_eq {count : Nat} (h : iterBegin buf = .ok (it, count)) :
    2 ≤ buf.length ∧ buf.getD 0 0 = codecVersion ∧ count = (buf.getD 1 0).toNat ∧
      it = ⟨buf, buf.length, 2, count⟩ := by
  rw [iterBegin] at h
  by_cases hbad : buf.length < 2 ∨ buf.getD 0 0 ≠ codecVersion
  · rw [if_pos hbad] at h
    exact absurd h (by simp)
  · rw [if_neg hbad] at h
    have heq := Except.ok.inj h
    have hlen : 2 ≤ buf.length := by omega
    have hversion : buf.getD 0 0 = codecVersion := by
      by_contra hno
      exact hbad (.inr hno)
    cases heq
    exact ⟨hlen, hversion, rfl, rfl⟩

/-- What one call does to an iterator over a blob. -/
structure NextCall.Sound (it : Iter) (call : NextCall) (buf : List UInt8) : Prop where
  within : ∀ s ∈ call.spans, s.Within buf.length
  after : call.after.Over buf
  le_off : it.off ≤ call.after.off
  yields : ∀ e, call.result = .ok e →
    it.off < call.after.off ∧ call.after.remaining + 1 = it.remaining
  stays : ∀ err, call.result = .error err → call.after.remaining = it.remaining

/-- A call on an iterator over a blob touches the blob only, and if it yields an entry the cursor
moves on and one entry less remains. -/
theorem Iter.Over.nextCall (h : it.Over buf) : it.nextCall.Sound it buf := by
  rw [Iter.nextCall]
  by_cases hzero : it.remaining = 0
  · rw [if_pos hzero]
    exact ⟨fun s hs => absurd hs (List.not_mem_nil (a := s)), h, Nat.le_refl _,
      fun e he => absurd he (by nofun), fun _ _ => rfl⟩
  rw [if_neg hzero]
  have hlen := h.len_eq
  have hsafe : (curEntry buf buf.length).Safe buf.length := safe_entry
  have hparses : (curEntry buf buf.length).Parses buf EntryLayout := parses_entry
  have hwithin := hsafe.within it.off h.off_le
  have hle := hsafe.le_off it.off
  have hend := hsafe.off_le it.off h.off_le
  rw [h.buf_eq, hlen, Iter.called]
  cases hres : (curEntry buf buf.length it.off).result with
  | none => exact ⟨hwithin, ⟨h.buf_eq, hlen, hend⟩, hle, fun e he => absurd he (by nofun),
      fun _ _ => rfl⟩
  | some e =>
    -- An entry has its flags byte at least.
    have hlt := hparses.lt_off (fun _ _ hfield => hfield.length_pos) h.off_le hres
    refine ⟨hwithin, ⟨h.buf_eq, hlen, hend⟩, hle, ?_, fun err he => absurd he (by nofun)⟩
    intro _ _
    refine ⟨hlt, ?_⟩
    show it.remaining - 1 + 1 = it.remaining
    omega

/-- The calls of a reader that calls on and on, whatever it gets, each with the iterator before
it. -/
def Iter.calls : Nat → Iter → List (Iter × NextCall)
  | 0, _ => []
  | n + 1, it => (it, it.nextCall) :: Iter.calls n it.nextCall.after

/-- The call yields an entry. -/
def NextCall.yielded (call : NextCall) : Bool := call.result.isOk

/-- Every call of a reader is sound. -/
theorem Iter.Over.calls (h : it.Over buf) (n : Nat) : ∀ c ∈ it.calls n, c.2.Sound c.1 buf := by
  induction n generalizing it with
  | zero => exact fun c hc => absurd hc (List.not_mem_nil (a := c))
  | succ n ih =>
    intro c hc
    rcases List.mem_cons.mp hc with rfl | hc
    · exact h.nextCall
    · exact ih h.nextCall.after c hc

/-- There are no more entries than the iterator has left. -/
theorem Iter.Over.countP_calls (h : it.Over buf) (n : Nat) :
    (it.calls n).countP (fun c => c.2.yielded) ≤ it.remaining := by
  induction n generalizing it with
  | zero => exact Nat.zero_le _
  | succ n ih =>
    have hcall := h.nextCall
    have hrest := ih hcall.after
    rw [Iter.calls, List.countP_cons]
    cases hres : it.nextCall.result with
    | ok e =>
      have hremaining := (hcall.yields e hres).2
      split <;> omega
    | error err =>
      -- A failed call leaves the count, so a reader that goes on gets no more entries for it.
      have hstays := hcall.stays err hres
      have hno : it.nextCall.yielded = false := by
        rw [NextCall.yielded, hres]
        rfl
      rw [hno, if_neg Bool.false_ne_true]
      omega

/-- The bytes of some entries, one behind the other. -/
inductive EntriesLayout : List UInt8 → List Entry → Prop
  | nil : EntriesLayout [] []
  | cons {field bs : List UInt8} {e : Entry} {es : List Entry} (head : EntryLayout field e)
      (tail : EntriesLayout bs es) : EntriesLayout (field ++ bs) (e :: es)

/-- A blob: the version, the number of entries, and the entries. -/
def BlobExact (buf : List UInt8) (es : List Entry) : Prop :=
  es.length < 256 ∧ ∃ bs, EntriesLayout bs es ∧
    buf = codecVersion :: UInt8.ofNat es.length :: bs

/-- A blob, with anything behind it. -/
def BlobLayout (buf : List UInt8) (es : List Entry) : Prop :=
  ∃ blob, BlobExact blob es ∧ blob <+: buf

section Run

variable {it : Iter} {buf : List UInt8}

/-- A call on an iterator that has entries left. -/
theorem Iter.Over.next_of_entry (h : it.Over buf) {field : List UInt8} {e : Entry}
    (hremaining : it.remaining ≠ 0) (hfield : EntryLayout field e) (hat : At buf it.off field) :
    it.next = .ok (e, { it with off := it.off + field.length, remaining := it.remaining - 1 }) := by
  have hparses : (curEntry buf buf.length).Parses buf EntryLayout := parses_entry
  obtain ⟨hres, hend⟩ := hparses.complete it.off h.off_le field e hfield hat
  have hcalled : it.nextCall = ⟨(curEntry buf buf.length it.off).spans, .ok e,
      { it with off := it.off + field.length, remaining := it.remaining - 1 }⟩ := by
    rw [Iter.nextCall, if_neg hremaining, h.buf_eq, h.len_eq, Iter.called, hres, hend]
    rw [h.buf_eq, h.len_eq]
  rw [Iter.next_eq, hcalled]
  rfl

/-- An entry that a call yields stands at the cursor. -/
theorem Iter.Over.entry_of_next (h : it.Over buf) {e : Entry} {after : Iter}
    (hnext : it.next = .ok (e, after)) : it.remaining = after.remaining + 1 ∧ after.Over buf ∧
      ∃ field, EntryLayout field e ∧ At buf it.off field ∧
        after.off = it.off + field.length := by
  have hcall := h.nextCall
  have hparses : (curEntry buf buf.length).Parses buf EntryLayout := parses_entry
  rw [Iter.next_eq] at hnext
  cases hres : it.nextCall.result with
  | error err =>
    rw [hres] at hnext
    exact absurd hnext (by nofun)
  | ok e' =>
    rw [hres] at hnext
    cases hnext
    refine ⟨(hcall.yields e hres).2.symm, hcall.after, ?_⟩
    have hzero : it.remaining ≠ 0 := by
      have := (hcall.yields e hres).2
      omega
    rw [Iter.nextCall, if_neg hzero, Iter.called, h.buf_eq, h.len_eq] at hres ⊢
    cases hread : (curEntry buf buf.length it.off).result with
    | none =>
      rw [hread] at hres
      exact absurd hres (by nofun)
    | some e' =>
      rw [hread] at hres
      cases hres
      exact hparses.sound it.off h.off_le e hread

/-- A call that yields nothing found the end of the count or failed. -/
theorem Iter.next_error {err : Error} (hnext : it.next = .error err) :
    (err = .notFound ∧ it.remaining = 0) ∨ (err = .fail ∧ it.remaining ≠ 0) := by
  rw [Iter.next] at hnext
  by_cases hzero : it.remaining = 0
  · rw [if_pos hzero] at hnext
    exact .inl ⟨(Except.error.inj hnext).symm, hzero⟩
  · rw [if_neg hzero] at hnext
    cases hentry : it.entry with
    | none =>
      rw [hentry] at hnext
      exact .inr ⟨(Except.error.inj hnext).symm, hzero⟩
    | some p =>
      rw [hentry] at hnext
      exact absurd hnext (by simp)

/-- The loop over the entries of a layout yields them. -/
theorem Iter.Over.run_of_layout (h : it.Over buf) {bs : List UInt8} {es : List Entry}
    (hes : EntriesLayout bs es) (hcount : es.length = it.remaining) (hat : At buf it.off bs)
    {n : Nat} (hn : it.remaining < n) :
    ∃ after, it.run n = (es, some .notFound, after) ∧ after.off = it.off + bs.length := by
  -- On the layout, with the iterator at its first byte.
  induction hes generalizing it n with
  | nil =>
    obtain ⟨n, rfl⟩ : ∃ k, n = k + 1 := ⟨n - 1, by omega⟩
    have hzero : it.remaining = 0 := hcount.symm
    have hnext : it.next = .error .notFound := if_pos hzero
    exact ⟨it, by rw [Iter.run, hnext], rfl⟩
  | @cons field bs e es head tail ih =>
    obtain ⟨n, rfl⟩ : ∃ k, n = k + 1 := ⟨n - 1, by omega⟩
    obtain ⟨hat, hat'⟩ := at_append.mp hat
    have hzero : it.remaining ≠ 0 := by
      rw [← hcount]
      simp
    have hnext := h.next_of_entry hzero head hat
    obtain ⟨hremaining, hafter, -⟩ := h.entry_of_next hnext
    rw [List.length_cons] at hcount
    obtain ⟨after, hrun, hoff⟩ := ih hafter (by omega) hat' (n := n) (by omega)
    refine ⟨after, ?_, ?_⟩
    · rw [Iter.run, hnext]
      simp only [hrun]
    · rw [hoff, List.length_append, Nat.add_assoc]

/-- The loop ends, and its error tells whether it saw as many entries as it was to see. -/
theorem Iter.Over.run_ends (h : it.Over buf) {n : Nat} (hn : it.remaining < n) :
    ∃ es err after, it.run n = (es, some err, after) ∧
      ((err = .notFound ∧ es.length = it.remaining ∧ ∃ bs, EntriesLayout bs es ∧
          At buf it.off bs ∧ after.off = it.off + bs.length) ∨
        (err = .fail ∧ es.length < it.remaining)) := by
  -- Each entry takes one from what remains, so the fuel is never what ends the loop.
  induction n generalizing it with
  | zero => exact absurd hn (Nat.not_lt_zero _)
  | succ n ih =>
    rw [Iter.run]
    cases hnext : it.next with
    | error err =>
      refine ⟨[], err, it, rfl, ?_⟩
      rcases it.next_error hnext with ⟨rfl, hzero⟩ | ⟨rfl, hzero⟩
      · exact .inl ⟨rfl, hzero.symm, [], .nil, List.nil_prefix, rfl⟩
      · exact .inr ⟨rfl, Nat.pos_of_ne_zero hzero⟩
    | ok p =>
      obtain ⟨e, after⟩ := p
      obtain ⟨hremaining, hafter, field, hfield, hat, hoff⟩ := h.entry_of_next hnext
      obtain ⟨es, err, last, hrun, hend⟩ := ih hafter (by omega)
      refine ⟨e :: es, err, last, by simp only [hrun], ?_⟩
      rcases hend with ⟨rfl, hlen, bs, hbs, hat', hoff'⟩ | ⟨rfl, hlt⟩
      · refine .inl ⟨rfl, ?_, field ++ bs, .cons hfield hbs, ?_, ?_⟩
        · rw [List.length_cons, hlen, hremaining]
        · exact at_append.mpr ⟨hat, hoff ▸ hat'⟩
        · rw [hoff', hoff, List.length_append, Nat.add_assoc]
      · refine .inr ⟨rfl, ?_⟩
        rw [List.length_cons, hremaining]
        omega

end Run

/-- What `esp_rmaker_trigger_details_iter_begin` touches. A blob with a wrong header is still
reported with its first byte. -/
def beginSpans (buf : List UInt8) : List Span :=
  if buf.length = 0 then []
  else if buf.length < 2 ∨ buf.getD 0 0 ≠ codecVersion then [⟨0, 1⟩]
  else [⟨0, 1⟩, ⟨1, 1⟩]

theorem beginSpans_within (buf : List UInt8) : ∀ s ∈ beginSpans buf, s.Within buf.length := by
  intro s hs
  rw [beginSpans] at hs
  by_cases hzero : buf.length = 0
  · rw [if_pos hzero] at hs
    exact absurd hs (List.not_mem_nil (a := s))
  rw [if_neg hzero] at hs
  by_cases hbad : buf.length < 2 ∨ buf.getD 0 0 ≠ codecVersion
  · rw [if_pos hbad] at hs
    rw [List.mem_singleton.mp hs]
    show 0 + 1 ≤ buf.length
    omega
  · rw [if_neg hbad] at hs
    have hlen : ¬ buf.length < 2 := fun h => hbad (.inl h)
    rcases List.mem_cons.mp hs with rfl | hs
    · show 0 + 1 ≤ buf.length
      omega
    · rw [List.mem_singleton.mp hs]
      show 1 + 1 ≤ buf.length
      omega

variable {bs : List UInt8}

/-- A buffer of a version and a count has the rest from its third byte on. -/
theorem prefix_iff_at_two {version count : UInt8} :
    version :: count :: bs <+: buf ↔ 2 ≤ buf.length ∧ buf.getD 0 0 = version ∧
      buf.getD 1 0 = count ∧ At buf 2 bs := by
  constructor
  · rintro ⟨rest, rfl⟩
    exact ⟨by simp, rfl, rfl, ⟨rest, rfl⟩⟩
  · rintro ⟨htwo, rfl, rfl, rest, hrest⟩
    match buf, htwo with
    | b :: c :: tail, _ =>
      have htail : bs ++ rest = tail := hrest
      exact ⟨rest, congrArg (fun l => b :: c :: l) htail⟩

/-- The entries behind a header with their count make a blob. -/
theorem blobLayout_of_at (htwo : 2 ≤ buf.length) (hversion : buf.getD 0 0 = codecVersion)
    (hlen : es.length = (buf.getD 1 0).toNat) (hes : EntriesLayout bs es) (hat : At buf 2 bs) :
    BlobLayout buf es := by
  refine ⟨codecVersion :: UInt8.ofNat es.length :: bs, ⟨?_, bs, hes, rfl⟩, ?_⟩
  -- The count is a byte.
  · rw [hlen]
    exact UInt8.toNat_lt _
  · refine prefix_iff_at_two.mpr ⟨htwo, hversion, ?_, hat⟩
    rw [hlen, UInt8.ofNat_toNat]

/-- A layout is what the loop over it yields, up to its last byte. -/
theorem run_of_blob (hlen : es.length < 256) (hes : EntriesLayout bs es)
    (hbuf : codecVersion :: UInt8.ofNat es.length :: bs <+: buf) :
    iterBegin buf = .ok (⟨buf, buf.length, 2, es.length⟩, es.length) ∧
      ∀ n, es.length < n → ∃ after,
        Iter.run n ⟨buf, buf.length, 2, es.length⟩ = (es, some .notFound, after) ∧
        after.off = 2 + bs.length := by
  obtain ⟨htwo, hversion, hcount, hat⟩ := prefix_iff_at_two.mp hbuf
  have hnum : (buf.getD 1 0).toNat = es.length := by
    rw [hcount, UInt8.toNat_ofNat', Nat.mod_eq_of_lt hlen]
  constructor
  · rw [iterBegin, hnum]
    refine if_neg ?_
    rintro (hshort | hother)
    · omega
    · exact hother hversion
  · intro n hn
    have hfresh : Iter.Over ⟨buf, buf.length, 2, es.length⟩ buf := ⟨rfl, rfl, htwo⟩
    exact hfresh.run_of_layout hes rfl hat hn

/-- A blob that ends with its last entry is no blob any more if something of it is missing: the
loop over the part would stop before the end of the whole. -/
theorem BlobExact.not_layout_of_part {whole part : List UInt8} (h : BlobExact whole es)
    (hpart : part <+: whole) (hne : part ≠ whole) (es' : List Entry) : ¬ BlobLayout part es' := by
  rintro ⟨blob, ⟨hlen', bs', hes', rfl⟩, hblob⟩
  obtain ⟨hlen, bs, hes, rfl⟩ := h
  obtain ⟨hbegin, hrun⟩ := run_of_blob hlen hes (List.prefix_refl _)
  obtain ⟨hbegin', hrun'⟩ := run_of_blob hlen' hes' (hblob.trans hpart)
  have hiter := Except.ok.inj (hbegin.symm.trans hbegin')
  have hcount : es.length = es'.length := congrArg Prod.snd hiter
  obtain ⟨after, hend, hoff⟩ := hrun (es.length + 1) (Nat.lt_succ_self _)
  obtain ⟨after', hend', hoff'⟩ := hrun' (es.length + 1) (by omega)
  -- Both loops see the same header, and the loop is a function: they stop at one offset. That is
  -- the end of the whole, which is behind the end of the part.
  rw [← hcount, hend] at hend'
  have hafter : after = after' := congrArg (fun r => r.2.2) hend'
  have hshort : part.length < (codecVersion :: UInt8.ofNat es.length :: bs).length := by
    refine lt_of_le_of_ne hpart.length_le fun heq => hne ?_
    exact hpart.eq_of_length heq
  have hlong := hblob.length_le
  rw [hafter, hoff'] at hoff
  simp only [List.length_cons] at hshort hlong
  omega

/-- On any bytes, no call touches anything outside them, an entry moves the cursor on, and there
are at most as many entries as the second byte says, also for a reader that calls on after an
error. The loop that stops at the first error ends. It has yielded that many entries and found no
error in them exactly on a blob that holds them, and no part of a blob does. -/
theorem decoder_safe (buf : List UInt8) :
    (∀ s ∈ beginSpans buf, s.Within buf.length) ∧
    (∀ err, iterBegin buf = .error err → err = .fail ∧ ∀ es, ¬ BlobLayout buf es) ∧
    (∀ it count, iterBegin buf = .ok (it, count) → count = (buf.getD 1 0).toNat ∧
      (∀ n, (∀ c ∈ it.calls n, (∀ s ∈ c.2.spans, s.Within buf.length) ∧
          ∀ e, c.2.result = .ok e → c.1.off < c.2.after.off) ∧
        (it.calls n).countP (fun c => c.2.yielded) ≤ count) ∧
      ∀ n, count < n → ∃ es after,
        (it.run n = (es, some .notFound, after) ∧ es.length = count ∧ BlobLayout buf es) ∨
        (it.run n = (es, some .fail, after) ∧ es.length < count ∧
          ∀ es', ¬ BlobLayout buf es')) ∧
    ∀ whole es, BlobExact whole es → buf <+: whole → buf ≠ whole → ∀ es', ¬ BlobLayout buf es' := by
  refine ⟨beginSpans_within buf, ?_, ?_, ?_⟩
  · intro err hbegin
    constructor
    · rw [iterBegin] at hbegin
      split at hbegin
      · exact (Except.error.inj hbegin).symm
      · exact absurd hbegin (by simp)
    · rintro es ⟨blob, ⟨hlen, bs, hes, rfl⟩, hblob⟩
      rw [(run_of_blob hlen hes hblob).1] at hbegin
      exact absurd hbegin (by simp)
  · intro it count hbegin
    obtain ⟨htwo, hversion, hcount, rfl⟩ := iterBegin_eq hbegin
    have hfresh : Iter.Over ⟨buf, buf.length, 2, count⟩ buf := ⟨rfl, rfl, htwo⟩
    refine ⟨hcount, ?_, ?_⟩
    · intro n
      refine ⟨?_, hfresh.countP_calls n⟩
      intro c hc
      have hsound := hfresh.calls n c hc
      exact ⟨hsound.within, fun e he => (hsound.yields e he).1⟩
    · intro n hn
      obtain ⟨es, err, after, hrun, hend⟩ := hfresh.run_ends hn
      refine ⟨es, after, ?_⟩
      rcases hend with ⟨rfl, hlen, bs, hbs, hat, -⟩ | ⟨rfl, hlt⟩
      · left
        exact ⟨hrun, hlen, blobLayout_of_at htwo hversion (hlen.trans hcount) hbs hat⟩
      · right
        refine ⟨hrun, hlt, ?_⟩
        rintro es' ⟨blob, ⟨hlen', bs', hes', rfl⟩, hblob⟩
        -- A layout would have made the loop end with `notFound`.
        obtain ⟨hbegin', hrun'⟩ := run_of_blob hlen' hes' hblob
        have hiter := Except.ok.inj (hbegin.symm.trans hbegin')
        have hcount' : count = es'.length := congrArg Prod.snd hiter
        obtain ⟨after', hend', -⟩ := hrun' n (by omega)
        rw [← hcount', hrun] at hend'
        exact absurd (congrArg (fun r => r.2.1) hend') (by simp)
  · intro whole es hwhole hpart hne es'
    exact hwhole.not_layout_of_part hpart hne es'

/-- A blob of one entry whose value is cut off holds no entries. -/
theorem decoder_safe_truncated :
    ∀ es, ¬ BlobLayout [1, 1, 1, 0, 1, 0, 97, 1, 0, 98] es := by
  have hvalue : ValueLayout (valueTypeOf 1) [1] := .bool 1
  have hentry : EntryLayout [1, 0, 1, 0, 97, 1, 0, 98, 1]
      ({ entryHead 1 0 with id := [97], path := [98] }.withValue [1]) :=
    ⟨1, 0, [97], [98], [1], by decide, by decide, by decide, hvalue, by decide, rfl⟩
  have hwhole : BlobExact [1, 1, 1, 0, 1, 0, 97, 1, 0, 98, 1]
      [{ entryHead 1 0 with id := [97], path := [98] }.withValue [1]] :=
    ⟨by decide, [1, 0, 1, 0, 97, 1, 0, 98, 1] ++ [], .cons hentry .nil, by decide⟩
  exact (decoder_safe _).2.2.2 _ _ hwhole (by decide) (by decide)

end RainMakerNeo.Automation
