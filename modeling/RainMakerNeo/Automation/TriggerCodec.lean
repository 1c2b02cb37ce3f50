import Mathlib.Data.List.Forall2
import Mathlib.Data.List.TakeWhile
import RainMakerNeo.Lib.Bytes

/-!
# `RainMakerNeo.Automation.TriggerCodec`: the packed form of the trigger details

The cloud sends the triggers of a node as a JSON array. `encode` packs the enabled ones into a
blob, and an iterator reads the blob, both when it is new and after a boot.

The model starts at the getters of the JSON parser. `Parser` has the three getters for numbers and
booleans, and its laws say that they return the value in the text. The allocator is a function that
tells which of the calls succeed.

`entryBytes` is the layout of one trigger. `decode_encode` meets there: the encoder appends the
layout of each enabled trigger, and the iterator reads it back.
-/

set_option autoImplicit false

namespace RainMakerNeo.Automation

open RainMakerNeo.Lib

/-! ### The JSON objects -/

/-- The text of a string, an object or an array. It is part of a C string. -/
abbrev Text := { t : List UInt8 // 0 ∉ t }

/-- A JSON value. A float is its 32 bits. -/
inductive Json
  | str (t : Text)
  | obj (t : Text)
  | arr (t : Text)
  | int (v : Int32)
  | float (bits : UInt32)
  | bool (b : Bool)
  | null
  deriving DecidableEq

/-- An entry of the trigger array, with the keys that the encoder reads. -/
structure TriggerObject where
  id : Option Json := none
  enabled : Option Json := none
  path : Option Json := none
  operator : Option Json := none
  value : Option Json := none
  deriving DecidableEq

/-- The getters of the JSON parser for values that are not text. -/
structure Parser where
  /-- `json_obj_get_int`. -/
  getInt : Json → Option Int32
  /-- `json_obj_get_float`. It can read an integer too. -/
  getFloat : Json → Option UInt32
  /-- `json_obj_get_bool`. It can read an integer too. -/
  getBool : Json → Option Bool
  getInt_iff : ∀ j v, getInt j = some v ↔ j = .int v
  getFloat_float : ∀ bits, getFloat (.float bits) = some bits
  of_getFloat : ∀ j bits, getFloat j = some bits → j = .float bits ∨ ∃ v, j = .int v
  getBool_bool : ∀ b, getBool (.bool b) = some b
  of_getBool : ∀ j b, getBool j = some b → j = .bool b ∨ ∃ v, j = .int v

namespace Parser

variable (P : Parser) {j : Json}

/-- The getter of an integer fails on anything else. -/
theorem getInt_eq_none (h : ∀ v, j ≠ .int v) : P.getInt j = none := by
  rw [Option.eq_none_iff_forall_ne_some]
  intro v hv
  exact h v ((P.getInt_iff j v).mp hv)

/-- The getter of a float fails on a value that is not a number. -/
theorem getFloat_eq_none (hfloat : ∀ bits, j ≠ .float bits) (hint : ∀ v, j ≠ .int v) :
    P.getFloat j = none := by
  rw [Option.eq_none_iff_forall_ne_some]
  intro bits hbits
  rcases P.of_getFloat j bits hbits with h | ⟨v, h⟩
  · exact hfloat bits h
  · exact hint v h

/-- The getter of a boolean fails on a value that is neither a boolean nor an integer. -/
theorem getBool_eq_none (hbool : ∀ b, j ≠ .bool b) (hint : ∀ v, j ≠ .int v) :
    P.getBool j = none := by
  rw [Option.eq_none_iff_forall_ne_some]
  intro b hb
  rcases P.of_getBool j b hb with h | ⟨v, h⟩
  · exact hbool b h
  · exact hint v h

end Parser

/-- `json_obj_get_strlen` and `json_obj_get_string` without the length check. -/
def strOf : Json → Option (List UInt8)
  | .str t => some t
  | _ => none

/-- `json_obj_get_object_strlen` and `json_obj_get_object_str`. -/
def objOf : Json → Option (List UInt8)
  | .obj t => some t
  | _ => none

/-- `json_obj_get_array_strlen` and `json_obj_get_array_str`. -/
def arrOf : Json → Option (List UInt8)
  | .arr t => some t
  | _ => none

/-- `json_obj_get_string` into a buffer. -/
def getString (j : Option Json) (size : Nat) : Option (List UInt8) :=
  (j.bind strOf).bind fun t => if t.length > size - 1 then none else some t

/-- `strlen` of a buffer with the bytes and a NUL behind them. -/
def strlen (t : List UInt8) : Nat := (t.takeWhile (· != 0)).length

/-! ### The encoder -/

/-- `RMAKER_TRIGGER_CODEC_VERSION`. -/
def codecVersion : UInt8 := 1

/-- `FLAG_ENABLED`. -/
def flagEnabled : Nat := 0x01

/-- `FLAG_VT_SHIFT`. -/
def flagVtShift : Nat := 1

/-- `FLAG_VT_MASK`. -/
def flagVtMask : Nat := 0x0E

/-- `RMAKER_TRIGGER_VT_BOOL`. -/
def vtBool : Nat := 0

/-- `RMAKER_TRIGGER_VT_INT`. -/
def vtInt : Nat := 1

/-- `RMAKER_TRIGGER_VT_FLOAT`. -/
def vtFloat : Nat := 2

/-- `RMAKER_TRIGGER_VT_STRING`. -/
def vtString : Nat := 3

/-- `RMAKER_TRIGGER_VT_OBJECT`. -/
def vtObject : Nat := 4

/-- `RMAKER_TRIGGER_VT_ARRAY`. -/
def vtArray : Nat := 5

/-- `OP_NAMES`. -/
def opNames : List (List UInt8) :=
  [['e', 'q'], ['n', 'e'], ['g', 't'], ['l', 't'], ['g', 'e'], ['l', 'e']].map
    fun name => name.map Char.toUInt8

/-- The errors of the codec. -/
inductive Error
  | fail | noMem | notFound
  deriving DecidableEq, Repr

/-- `bytebuf_t`, and the number of calls of the allocator so far. -/
structure ByteBuf where
  data : List UInt8 := []
  cap : Nat := 0
  oom : Bool := false
  calls : Nat := 0
  deriving DecidableEq, Repr

/-- The loop that doubles the capacity. It takes at most `need` rounds. -/
def doubled (need : Nat) : Nat → Nat → Nat
  | 0, cap => cap
  | n + 1, cap => if cap < need then doubled need n (cap * 2) else cap

namespace ByteBuf

variable (alloc : Nat → Bool)

/-- `bb_reserve`. -/
def reserve (b : ByteBuf) (extra : Nat) : ByteBuf :=
  if b.oom ∨ b.data.length + extra ≤ b.cap then b
  else
    let need := b.data.length + extra
    let cap := doubled need need (if b.cap = 0 then 64 else b.cap)
    if alloc b.calls then { b with cap, calls := b.calls + 1 }
    else { b with oom := true, calls := b.calls + 1 }

/-- `bb_bytes`. -/
def bytes (b : ByteBuf) (bs : List UInt8) : ByteBuf :=
  let b := b.reserve alloc bs.length
  if b.oom then b else { b with data := b.data ++ bs }

/-- `bb_u8`. -/
def u8 (b : ByteBuf) (v : UInt8) : ByteBuf :=
  let b := b.reserve alloc 1
  if b.oom then b else { b with data := b.data ++ [v] }

/-- `bb_u16`. -/
def u16 (b : ByteBuf) (v : Nat) : ByteBuf :=
  (b.u8 alloc (UInt8.ofNat (v &&& 0xFF))).u8 alloc (UInt8.ofNat ((v >>> 8) &&& 0xFF))

/-- A call of the allocator for a copy of a text. -/
def malloc (b : ByteBuf) : Option ByteBuf :=
  if alloc b.calls then some { b with calls := b.calls + 1 } else none

/-- A write over a byte that is there. -/
def patch (b : ByteBuf) (pos : Nat) (v : UInt8) : ByteBuf :=
  if b.oom then b else { b with data := b.data.set pos v }

end ByteBuf

/-- `op_to_code`. -/
def opToCode (op : List UInt8) : Option Nat := opNames.findIdx? (· == op)

/-- `encode_strlike` for the text that the getters return. -/
def encodeStrlike (alloc : Nat → Bool) (t : List UInt8) (b : ByteBuf) : Option ByteBuf :=
  if t.length > 0xFFFF then none
  else (b.malloc alloc).map fun b => (b.u16 alloc t.length).bytes alloc t

/-- `encode_value`: the type tag, and the buffer with the value. -/
def encodeValue (P : Parser) (alloc : Nat → Bool) (value : Option Json) (b : ByteBuf) :
    Option (Nat × ByteBuf) :=
  match value.bind strOf, value.bind objOf, value.bind arrOf with
  | some t, _, _ => (encodeStrlike alloc t b).map (vtString, ·)
  | none, some t, _ => (encodeStrlike alloc t b).map (vtObject, ·)
  | none, none, some t => (encodeStrlike alloc t b).map (vtArray, ·)
  | none, none, none =>
    match value.bind P.getInt, value.bind P.getFloat, value.bind P.getBool with
    | some v, _, _ => some (vtInt, b.bytes alloc (le32 v.toUInt32))
    | none, some bits, _ => some (vtFloat, b.bytes alloc (le32 bits))
    | none, none, some v => some (vtBool, b.u8 alloc (if v then 1 else 0))
    | none, none, none => none

/-- `get_required_string`. -/
def getRequiredString (alloc : Nat → Bool) (j : Option Json) (b : ByteBuf) :
    Option (List UInt8 × ByteBuf) :=
  (j.bind strOf).bind fun t =>
    if t.length > 0xFFFF then none else (b.malloc alloc).map (t, ·)

/-- The flags of a trigger. -/
def flagsOf (vt : Nat) : UInt8 :=
  UInt8.ofNat (flagEnabled ||| ((vt <<< flagVtShift) &&& flagVtMask))

/-- `enabled` of a trigger, which is true where the key is missing. -/
def Parser.enabled (P : Parser) (t : TriggerObject) : Bool := (t.enabled.bind P.getBool).getD true

/-- The loop body for an enabled trigger. -/
def encodeTrigger (P : Parser) (alloc : Nat → Bool) (t : TriggerObject) (b : ByteBuf) :
    Option ByteBuf := do
  let (id, b) ← getRequiredString alloc t.id b
  let (path, b) ← getRequiredString alloc t.path b
  let op ← getString t.operator 12
  let opCode ← opToCode op
  let flagsPos := b.data.length
  let b := (b.u8 alloc 0).u8 alloc (UInt8.ofNat opCode)
  let b := (b.u16 alloc (strlen id % 65536)).bytes alloc (id.take (strlen id))
  let b := (b.u16 alloc (strlen path % 65536)).bytes alloc (path.take (strlen path))
  let (vt, b) ← encodeValue P alloc t.value b
  some (b.patch flagsPos (flagsOf vt))

/-- The loop. An entry that is not an object ends it. -/
def encodeLoop (P : Parser) (alloc : Nat → Bool) :
    List (Option TriggerObject) → Nat → ByteBuf → Option (Nat × ByteBuf)
  | some t :: ts, emitted, b =>
    if !P.enabled t then encodeLoop P alloc ts emitted b
    else if emitted ≥ 0xFF then none
    else (encodeTrigger P alloc t b).bind (encodeLoop P alloc ts (emitted + 1))
  | none :: _, emitted, b => some (emitted, b)
  | [], emitted, b => some (emitted, b)

/-- `esp_rmaker_trigger_details_encode`. `json` is `none` where the parser does not start. -/
def encode (P : Parser) (alloc : Nat → Bool) (json : Option (List (Option TriggerObject))) :
    Except Error (List UInt8) :=
  match json with
  | none => .error .fail
  | some ts =>
    let b := ByteBuf.u8 alloc {} codecVersion
    let countPos := b.data.length
    match encodeLoop P alloc ts 0 (b.u8 alloc 0) with
    | none => .error .fail
    | some (emitted, b) =>
      if b.oom then .error .noMem else .ok (b.patch countPos (UInt8.ofNat emitted)).data

/-! ### The iterator -/

/-- `esp_rmaker_trigger_entry_t`. A pointer into the blob with its length is the bytes there. -/
structure Entry where
  id : List UInt8 := []
  path : List UInt8 := []
  opCode : Nat := 0
  enabled : Bool := false
  valueType : Nat := 0
  valueBool : Bool := false
  valueInt : Int32 := 0
  valueFloat : UInt32 := 0
  valueStr : List UInt8 := []
  deriving DecidableEq, Repr

/-- `esp_rmaker_trigger_iter_t`. -/
structure Iter where
  buf : List UInt8
  len : Nat
  off : Nat
  remaining : Nat
  deriving DecidableEq, Repr

/-- `esp_rmaker_trigger_details_iter_begin`, with the count. -/
def iterBegin (buf : List UInt8) : Except Error (Iter × Nat) :=
  if buf.length < 2 ∨ buf.getD 0 0 ≠ codecVersion then .error .fail
  else .ok (⟨buf, buf.length, 2, (buf.getD 1 0).toNat⟩, (buf.getD 1 0).toNat)

namespace Iter

/-- `cur_u8`. -/
def u8 (it : Iter) : Option (UInt8 × Iter) :=
  if it.off + 1 > it.len then none
  else some (it.buf.getD it.off 0, { it with off := it.off + 1 })

/-- `cur_u16`. -/
def u16 (it : Iter) : Option (Nat × Iter) :=
  if it.off + 2 > it.len then none
  else some (readLe16 (it.buf.getD it.off 0) (it.buf.getD (it.off + 1) 0),
    { it with off := it.off + 2 })

/-- The bytes of a field. -/
def take (it : Iter) (n : Nat) : Option (List UInt8 × Iter) :=
  if it.off + n > it.len then none
  else some ((it.buf.drop it.off).take n, { it with off := it.off + n })

/-- `cur_blob`. -/
def blob (it : Iter) : Option (List UInt8 × Iter) := do
  let (len, it) ← it.u16
  it.take len

/-- The value of an entry, by its type. -/
def value (it : Iter) (e : Entry) : Option (Entry × Iter) :=
  if e.valueType = vtBool then it.u8.map fun (v, it) => ({ e with valueBool := v != 0 }, it)
  else if e.valueType = vtInt then
    (it.take 4).map fun (bs, it) => ({ e with valueInt := (readLe32 bs).toInt32 }, it)
  else if e.valueType = vtFloat then
    (it.take 4).map fun (bs, it) => ({ e with valueFloat := readLe32 bs }, it)
  else if e.valueType = vtString ∨ e.valueType = vtObject ∨ e.valueType = vtArray then
    it.blob.map fun (bs, it) => ({ e with valueStr := bs }, it)
  else none

/-- The fields of the next entry. -/
def entry (it : Iter) : Option (Entry × Iter) := do
  let (flags, it) ← it.u8
  let (opCode, it) ← it.u8
  let e : Entry := {
    opCode := opCode.toNat
    enabled := (flags.toNat &&& flagEnabled) != 0
    valueType := (flags.toNat &&& flagVtMask) >>> flagVtShift }
  if e.opCode ≥ opNames.length then none
  else do
    let (id, it) ← it.blob
    let (path, it) ← it.blob
    it.value { e with id, path }

/-- `esp_rmaker_trigger_details_iter_next`. -/
def next (it : Iter) : Except Error (Entry × Iter) :=
  if it.remaining = 0 then .error .notFound
  else
    match it.entry with
    | none => .error .fail
    | some (e, it) => .ok (e, { it with remaining := it.remaining - 1 })

/-- A reader calls `next` until it does not return an entry. -/
def run : Nat → Iter → List Entry × Option Error × Iter
  | 0, it => ([], none, it)
  | n + 1, it =>
    match it.next with
    | .ok (e, it) =>
      let (es, err, it) := run n it
      (e :: es, err, it)
    | .error err => ([], some err, it)

end Iter

/-! ### The layout -/

/-- The kinds of values that are text in the blob. -/
inductive TextKind
  | string | object | array
  deriving DecidableEq, Repr

/-- The type tag of a text. -/
def TextKind.type : TextKind → Nat
  | .string => vtString
  | .object => vtObject
  | .array => vtArray

/-- A value that the blob can hold. -/
inductive Value
  | bool (b : Bool)
  | int (v : Int32)
  | float (bits : UInt32)
  | text (kind : TextKind) (t : List UInt8) (h : t.length < 65536)

namespace Value

/-- The type tag. -/
def type : Value → Nat
  | .bool _ => vtBool
  | .int _ => vtInt
  | .float _ => vtFloat
  | .text kind _ _ => kind.type

/-- A type tag has three bits. -/
theorem type_lt (v : Value) : v.type < 6 := by
  cases v with
  | bool b =>
    show vtBool < 6
    decide
  | int v =>
    show vtInt < 6
    decide
  | float bits =>
    show vtFloat < 6
    decide
  | text kind t h =>
    show kind.type < 6
    cases kind <;> decide

/-- The bytes in the blob. -/
def bytes : Value → List UInt8
  | .bool b => [if b then 1 else 0]
  | .int v => le32 v.toUInt32
  | .float bits => le32 bits
  | .text _ t _ => le16 t.length ++ t

/-- The entry with the value. -/
def store (v : Value) (e : Entry) : Entry :=
  match v with
  | .bool b => { e with valueBool := b }
  | .int v => { e with valueInt := v }
  | .float bits => { e with valueFloat := bits }
  | .text _ t _ => { e with valueStr := t }

/-- What the store of a value leaves as it is. -/
structure Stored (e e' : Entry) : Prop where
  id : e'.id = e.id
  path : e'.path = e.path
  opCode : e'.opCode = e.opCode
  enabled : e'.enabled = e.enabled
  valueType : e'.valueType = e.valueType

theorem store_fields (v : Value) (e : Entry) : Stored e (v.store e) := by
  cases v <;> exact ⟨rfl, rfl, rfl, rfl, rfl⟩

end Value

/-- A trigger that the blob can hold. -/
structure Record where
  id : List UInt8
  path : List UInt8
  opCode : Nat
  value : Value
  id_lt : id.length < 65536
  path_lt : path.length < 65536
  opCode_lt : opCode < opNames.length

namespace Record

/-- The bytes in the blob. -/
def bytes (r : Record) : List UInt8 :=
  flagsOf r.value.type :: UInt8.ofNat r.opCode ::
    ((le16 r.id.length ++ r.id) ++ ((le16 r.path.length ++ r.path) ++ r.value.bytes))

/-- The entry that the iterator yields. -/
def entry (r : Record) : Entry :=
  r.value.store { id := r.id, path := r.path, opCode := r.opCode, enabled := true,
                  valueType := r.value.type }

end Record

/-! ### Decoding -/

namespace Iter

/-- The iterator after some bytes. -/
def skip (it : Iter) (n : Nat) : Iter := { it with off := it.off + n }

theorem skip_skip (it : Iter) (m n : Nat) : (it.skip m).skip n = it.skip (m + n) := by
  rw [skip, skip, skip, Nat.add_assoc]

/-- The bytes stand at the cursor. -/
def Sees (it : Iter) (bs : List UInt8) : Prop :=
  it.len = it.buf.length ∧ it.off ≤ it.len ∧ At it.buf it.off bs

variable {it : Iter} {bs bs' : List UInt8}

/-- The cursor moves over a field. -/
theorem Sees.skip (h : it.Sees (bs ++ bs')) : it.Sees bs ∧ (it.skip bs.length).Sees bs' := by
  obtain ⟨hfield, hrest⟩ := at_append.mp h.2.2
  have hoff : it.off ≤ it.buf.length := Nat.le_trans h.2.1 (Nat.le_of_eq h.1)
  refine ⟨⟨h.1, h.2.1, hfield⟩, h.1, ?_, hrest⟩
  rw [Iter.skip, h.1]
  exact hfield.le_length hoff

theorem Sees.le_len (h : it.Sees bs) : it.off + bs.length ≤ it.len := by
  have hoff : it.off ≤ it.buf.length := Nat.le_trans h.2.1 (Nat.le_of_eq h.1)
  rw [h.1]
  exact h.2.2.le_length hoff

theorem Sees.u8 {b : UInt8} (h : it.Sees (b :: bs)) :
    it.u8 = some (b, it.skip 1) ∧ (it.skip 1).Sees bs := by
  have hget := h.2.2.getD (d := 0)
  have hskip : it.Sees ([b] ++ bs) := h
  refine ⟨?_, hskip.skip.2⟩
  rw [Iter.u8, if_neg (by rw [h.1]; omega), hget.1]
  rfl

theorem Sees.take (h : it.Sees bs) : it.take bs.length = some (bs, it.skip bs.length) := by
  have hle := h.le_len
  rw [Iter.take, if_neg (by omega), h.2.2.take]
  rfl

theorem Sees.u16 {n : Nat} (hn : n < 65536) (h : it.Sees (le16 n)) :
    it.u16 = some (n, it.skip 2) := by
  have hle := h.le_len
  have hlo := h.2.2.getD (d := 0)
  have hskip : it.Sees ([UInt8.ofNat (n &&& 0xFF)] ++ [UInt8.ofNat ((n >>> 8) &&& 0xFF)]) := h
  have hhi : it.buf.getD (it.off + 1) 0 = UInt8.ofNat ((n >>> 8) &&& 0xFF) :=
    (hskip.skip.2.2.2.getD (d := 0)).1
  rw [length_le16] at hle
  rw [Iter.u16, if_neg (by omega), hlo.1, hhi, readLe16_le16 hn]
  rfl

/-- A text with its length in front. -/
theorem Sees.blob (hn : bs.length < 65536) (h : it.Sees (le16 bs.length ++ bs)) :
    it.blob = some (bs, it.skip (le16 bs.length ++ bs).length) := by
  obtain ⟨hlen, htext⟩ := h.skip
  rw [Iter.blob, hlen.u16 hn]
  show (it.skip 2).take bs.length = _
  rw [show it.skip 2 = it.skip (le16 bs.length).length from rfl, htext.take, skip_skip,
    List.length_append]

/-- The iterator reads a value back. -/
theorem Sees.value {v : Value} {e : Entry} (htype : e.valueType = v.type) (h : it.Sees v.bytes) :
    it.value e = some (v.store e, it.skip v.bytes.length) := by
  rw [Iter.value]
  cases v with
  | bool b =>
    have hbyte : it.Sees [if b then 1 else 0] := h
    rw [if_pos (show e.valueType = vtBool from htype), hbyte.u8.1]
    cases b <;> rfl
  | int v =>
    have hint : e.valueType = vtInt := htype
    have htake : it.take 4 = some (le32 v.toUInt32, it.skip 4) := h.take
    rw [if_neg (by rw [hint]; decide), if_pos hint, htake]
    show some ({ e with valueInt := (readLe32 (le32 v.toUInt32)).toInt32 }, it.skip 4) = _
    rw [readLe32_le32]
    rfl
  | float bits =>
    have hfloat : e.valueType = vtFloat := htype
    have htake : it.take 4 = some (le32 bits, it.skip 4) := h.take
    rw [if_neg (by rw [hfloat]; decide), if_neg (by rw [hfloat]; decide), if_pos hfloat, htake]
    show some ({ e with valueFloat := readLe32 (le32 bits) }, it.skip 4) = _
    rw [readLe32_le32]
    rfl
  | text kind t ht =>
    have htext : e.valueType = kind.type := htype
    have hkind : e.valueType = vtString ∨ e.valueType = vtObject ∨ e.valueType = vtArray := by
      rw [htext]
      cases kind <;> decide
    have hne : e.valueType ≠ vtBool ∧ e.valueType ≠ vtInt ∧ e.valueType ≠ vtFloat := by
      rw [htext]
      cases kind <;> decide
    rw [if_neg hne.1, if_neg hne.2.1, if_neg hne.2.2, if_pos hkind, Sees.blob ht h]
    rfl

theorem flagsOf_toNat (v : Value) : (((flagsOf v.type).toNat &&& flagEnabled) != 0) = true ∧
    ((flagsOf v.type).toNat &&& flagVtMask) >>> flagVtShift = v.type := by
  have htype := v.type_lt
  generalize v.type = vt at htype
  revert vt
  decide

/-- The iterator reads a trigger back. -/
theorem Sees.entry {r : Record} (h : it.Sees r.bytes) :
    it.entry = some (r.entry, it.skip r.bytes.length) := by
  obtain ⟨hflags, h⟩ := h.u8
  obtain ⟨hop, h⟩ := h.u8
  obtain ⟨hid, h⟩ := h.skip
  obtain ⟨hpath, hvalue⟩ := h.skip
  have hopCode : (UInt8.ofNat r.opCode).toNat = r.opCode := by
    have hlt : r.opCode < 6 := r.opCode_lt
    rw [UInt8.toNat_ofNat']
    omega
  rw [Iter.entry, hflags]
  show (it.skip 1).u8.bind _ = _
  rw [hop]
  dsimp only [Option.bind_some]
  rw [hopCode, if_neg (Nat.not_le.mpr r.opCode_lt)]
  rw [hid.blob r.id_lt]
  show Option.bind (Iter.blob _) _ = _
  rw [hpath.blob r.path_lt]
  show Iter.value _ _ = _
  rw [(flagsOf_toNat r.value).1, (flagsOf_toNat r.value).2, hvalue.value rfl]
  have hlength : r.bytes.length = 1 + (1 + (le16 r.id.length ++ r.id).length) +
      (le16 r.path.length ++ r.path).length + r.value.bytes.length := by
    simp only [Record.bytes, List.length_cons, List.length_append]
    omega
  rw [hlength, skip_skip, skip_skip, skip_skip, skip_skip]
  rfl

/-- The iterator reads a list of triggers back and then reports the end. -/
theorem Sees.run {rs : List Record} (hremaining : it.remaining = rs.length)
    (h : it.Sees (rs.flatMap Record.bytes)) :
    it.run (rs.length + 1) = (rs.map Record.entry, some .notFound,
      { it.skip (rs.flatMap Record.bytes).length with remaining := 0 }) := by
  induction rs generalizing it with
  | nil =>
    rw [List.length_nil] at hremaining
    rw [Iter.run, next, if_pos hremaining, ← hremaining]
    rfl
  | cons r rs ih =>
    rw [List.flatMap_cons] at h
    obtain ⟨hr, hrs⟩ := h.skip
    have hnext : it.next = .ok (r.entry,
        { it.skip r.bytes.length with remaining := it.remaining - 1 }) := by
      rw [next, if_neg (by rw [hremaining]; exact Nat.succ_ne_zero _), hr.entry]
      rfl
    have hrs' : Sees { it.skip r.bytes.length with remaining := it.remaining - 1 }
        (rs.flatMap Record.bytes) := hrs
    have htail := ih (by rw [hremaining]; rfl) hrs'
    rw [List.length_cons, Iter.run, hnext]
    dsimp only
    rw [htail, List.flatMap_cons, List.length_append, ← skip_skip]
    rfl

end Iter

/-! ### Encoding -/

/-- The entry holds the value, under its category. -/
def Entry.Holds (e : Entry) : Json → Prop
  | .str t => e.valueType = vtString ∧ e.valueStr = t
  | .obj t => e.valueType = vtObject ∧ e.valueStr = t
  | .arr t => e.valueType = vtArray ∧ e.valueStr = t
  | .int v => e.valueType = vtInt ∧ e.valueInt = v
  | .float bits => e.valueType = vtFloat ∧ e.valueFloat = bits
  | .bool b => e.valueType = vtBool ∧ e.valueBool = b
  | .null => False

/-- The entry tells what the trigger of the JSON array says. -/
structure Tells (t : TriggerObject) (e : Entry) : Prop where
  enabled : e.enabled = true
  id : ∃ i : Text, t.id = some (.str i) ∧ e.id = i
  path : ∃ p : Text, t.path = some (.str p) ∧ e.path = p
  operator : ∃ o : Text, t.operator = some (.str o) ∧ opNames[e.opCode]? = some o.1
  value : ∃ v, t.value = some v ∧ e.Holds v

variable {P : Parser} {alloc : Nat → Bool}

/-- A text has no NUL. -/
theorem strlen_text (t : Text) : strlen t = t.1.length := by
  have hall : t.1.takeWhile (· != 0) = t.1 := by
    rw [List.takeWhile_eq_self_iff]
    intro b hb
    rw [bne_iff_ne]
    rintro rfl
    exact t.2 hb
  rw [strlen, hall]

namespace ByteBuf

variable (alloc) {b b' b'' : ByteBuf} {bs bs' : List UInt8}

/-- The bytes are appended, unless the memory runs out. -/
def Appends (b b' : ByteBuf) (bs : List UInt8) : Prop :=
  b'.oom = false → b.oom = false ∧ b'.data = b.data ++ bs

theorem Appends.trans (h : Appends b b' bs) (h' : Appends b' b'' bs') :
    Appends b b'' (bs ++ bs') := by
  intro hoom
  obtain ⟨hoom', hdata'⟩ := h' hoom
  obtain ⟨hoom, hdata⟩ := h hoom'
  refine ⟨hoom, ?_⟩
  rw [hdata', hdata, List.append_assoc]

theorem appends_reserve (b : ByteBuf) (extra : Nat) : Appends b (b.reserve alloc extra) [] := by
  intro hoom
  rw [List.append_nil]
  rw [reserve] at hoom ⊢
  split at hoom
  · next h =>
    rw [if_pos h]
    exact ⟨hoom, rfl⟩
  · next h =>
    rw [if_neg h]
    have hb : b.oom = false := by
      rw [not_or, Bool.not_eq_true] at h
      exact h.1
    refine ⟨hb, ?_⟩
    dsimp only
    split <;> rfl

theorem appends_bytes (b : ByteBuf) (bs : List UInt8) : Appends b (b.bytes alloc bs) bs := by
  intro hoom
  have hreserve := appends_reserve alloc b bs.length
  rw [bytes] at hoom ⊢
  split at hoom
  · next h =>
    rw [h] at hoom
    cases hoom
  · next h =>
    rw [if_neg h]
    obtain ⟨hb, hdata⟩ := hreserve hoom
    refine ⟨hb, ?_⟩
    show (b.reserve alloc bs.length).data ++ bs = b.data ++ bs
    rw [hdata, List.append_nil]

theorem appends_u8 (b : ByteBuf) (v : UInt8) : Appends b (b.u8 alloc v) [v] :=
  appends_bytes alloc b [v]

theorem appends_u16 (b : ByteBuf) (v : Nat) : Appends b (b.u16 alloc v) (le16 v) :=
  (appends_u8 alloc b _).trans (appends_u8 alloc _ _)

theorem appends_malloc {alloc : Nat → Bool} (h : b.malloc alloc = some b') : Appends b b' [] := by
  obtain ⟨-, h⟩ := Option.ite_none_right_eq_some.mp h
  obtain rfl := Option.some.inj h
  intro hoom
  rw [List.append_nil]
  exact ⟨hoom, rfl⟩

/-- A text with its length in front. -/
theorem appends_blob (b : ByteBuf) (bs : List UInt8) :
    Appends b ((b.u16 alloc bs.length).bytes alloc bs) (le16 bs.length ++ bs) :=
  (appends_u16 alloc b bs.length).trans (appends_bytes alloc _ bs)

/-- The patch of the first byte that was appended. -/
theorem Appends.patch {v : UInt8} (h : Appends b b' (v :: bs)) (v' : UInt8) :
    Appends b (b'.patch b.data.length v') (v' :: bs) := by
  intro hoom
  rw [ByteBuf.patch] at hoom ⊢
  split at hoom
  · next hb =>
    rw [hb] at hoom
    cases hoom
  · next hb =>
    rw [if_neg hb]
    obtain ⟨hoom, hdata⟩ := h hoom
    refine ⟨hoom, ?_⟩
    show b'.data.set b.data.length v' = b.data ++ v' :: bs
    rw [hdata, List.set_append_right _ _ (Nat.le_refl _), Nat.sub_self, List.set_cons_zero]

end ByteBuf

open ByteBuf

variable {t : List UInt8} {ts : List TriggerObject}

/-- What `get_required_string` returns. -/
theorem of_getRequiredString {j : Option Json} {b b' : ByteBuf}
    (h : getRequiredString alloc j b = some (t, b')) :
    (∃ i : Text, j = some (.str i) ∧ t = i) ∧ t.length < 65536 ∧ Appends b b' [] := by
  obtain ⟨u, hu, hcopy⟩ := Option.bind_eq_some_iff.mp h
  obtain ⟨v, hj, hv⟩ := Option.bind_eq_some_iff.mp hu
  obtain ⟨hlength, hcopy⟩ := Option.ite_none_left_eq_some.mp hcopy
  obtain ⟨b₁, hmalloc, heq⟩ := Option.map_eq_some_iff.mp hcopy
  obtain ⟨rfl, rfl⟩ : u = t ∧ b₁ = b' := Prod.mk.inj heq
  cases v with
  | str i => exact ⟨⟨i, hj, (Option.some.inj hv).symm⟩, by omega, appends_malloc hmalloc⟩
  | _ => cases hv

/-- What `json_obj_get_string` returns. -/
theorem of_getString {j : Option Json} {size : Nat} (h : getString j size = some t) :
    ∃ o : Text, j = some (.str o) ∧ t = o := by
  obtain ⟨u, hu, hfits⟩ := Option.bind_eq_some_iff.mp h
  obtain ⟨v, hj, hv⟩ := Option.bind_eq_some_iff.mp hu
  obtain ⟨-, hfits⟩ := Option.ite_none_left_eq_some.mp hfits
  obtain rfl := Option.some.inj hfits
  cases v with
  | str o => exact ⟨o, hj, (Option.some.inj hv).symm⟩
  | _ => cases hv

/-- A code of an operator is the index of its name. -/
theorem of_opToCode {op : List UInt8} {code : Nat} (h : opToCode op = some code) :
    opNames[code]? = some op := by
  obtain ⟨hlt, heq, -⟩ := List.findIdx?_eq_some_iff_getElem.mp h
  rw [List.getElem?_eq_getElem hlt]
  exact congrArg some (beq_iff_eq.mp heq)

/-- What `encode_strlike` appends. -/
theorem of_encodeStrlike {b b' : ByteBuf} (h : encodeStrlike alloc t b = some b') :
    t.length < 65536 ∧ Appends b b' (le16 t.length ++ t) := by
  obtain ⟨hlength, h⟩ := Option.ite_none_left_eq_some.mp h
  obtain ⟨b₁, hmalloc, rfl⟩ := Option.map_eq_some_iff.mp h
  exact ⟨by omega, (appends_malloc hmalloc).trans (appends_blob alloc b₁ t)⟩

/-- The JSON value of a value in the blob. -/
def Value.Of (v : Value) (j : Json) : Prop :=
  ∀ e : Entry, e.valueType = v.type → (v.store e).Holds j

/-- A text that the encoder appends, under its kind. -/
theorem of_encodeText (kind : TextKind) {b b' : ByteBuf} {vt : Nat} {j : Json}
    (hj : ∀ ht, (Value.text kind t ht).Of j)
    (h : (encodeStrlike alloc t b).map (kind.type, ·) = some (vt, b')) :
    ∃ v : Value, vt = v.type ∧ v.Of j ∧ Appends b b' v.bytes := by
  obtain ⟨b₁, hstrlike, heq⟩ := Option.map_eq_some_iff.mp h
  obtain ⟨rfl, rfl⟩ : kind.type = vt ∧ b₁ = b' := Prod.mk.inj heq
  have hlength := of_encodeStrlike hstrlike
  exact ⟨.text kind t hlength.1, rfl, hj _, hlength.2⟩

/-- What `encode_value` appends. -/
theorem of_encodeValue {value : Option Json} {b b' : ByteBuf} {vt : Nat}
    (h : encodeValue P alloc value b = some (vt, b')) :
    ∃ v : Value, vt = v.type ∧ (∃ j, value = some j ∧ v.Of j) ∧ Appends b b' v.bytes := by
  cases value with
  | none => cases h
  | some j =>
    suffices hv : ∃ v : Value, vt = v.type ∧ v.Of j ∧ Appends b b' v.bytes by
      obtain ⟨v, htype, hof, happends⟩ := hv
      exact ⟨v, htype, ⟨j, rfl, hof⟩, happends⟩
    rw [encodeValue] at h
    cases j with
    | str t => exact of_encodeText .string (fun _ _ he => ⟨he, rfl⟩) h
    | obj t => exact of_encodeText .object (fun _ _ he => ⟨he, rfl⟩) h
    | arr t => exact of_encodeText .array (fun _ _ he => ⟨he, rfl⟩) h
    | int v =>
      dsimp only [Option.bind_some, strOf, objOf, arrOf] at h
      rw [(P.getInt_iff (.int v) v).mpr rfl] at h
      obtain ⟨rfl, rfl⟩ := Prod.mk.inj (Option.some.inj h)
      exact ⟨.int v, rfl, fun _ he => ⟨he, rfl⟩, appends_bytes alloc b _⟩
    | float bits =>
      dsimp only [Option.bind_some, strOf, objOf, arrOf] at h
      rw [P.getInt_eq_none (by nofun), P.getFloat_float bits] at h
      obtain ⟨rfl, rfl⟩ := Prod.mk.inj (Option.some.inj h)
      exact ⟨.float bits, rfl, fun _ he => ⟨he, rfl⟩, appends_bytes alloc b _⟩
    | bool v =>
      dsimp only [Option.bind_some, strOf, objOf, arrOf] at h
      rw [P.getInt_eq_none (by nofun), P.getFloat_eq_none (by nofun) (by nofun),
        P.getBool_bool v] at h
      obtain ⟨rfl, rfl⟩ := Prod.mk.inj (Option.some.inj h)
      exact ⟨.bool v, rfl, fun _ he => ⟨he, rfl⟩, appends_u8 alloc b _⟩
    | null =>
      dsimp only [Option.bind_some, strOf, objOf, arrOf] at h
      rw [P.getInt_eq_none (by nofun), P.getFloat_eq_none (by nofun) (by nofun),
        P.getBool_eq_none (by nofun) (by nofun)] at h
      cases h

/-- What the loop body appends. -/
theorem of_encodeTrigger {t : TriggerObject} {b b' : ByteBuf}
    (h : encodeTrigger P alloc t b = some b') :
    ∃ r : Record, Tells t r.entry ∧ Appends b b' r.bytes := by
  obtain ⟨⟨id, b₁⟩, hid, h⟩ := Option.bind_eq_some_iff.mp h
  obtain ⟨⟨path, b₂⟩, hpath, h⟩ := Option.bind_eq_some_iff.mp h
  obtain ⟨op, hop, h⟩ := Option.bind_eq_some_iff.mp h
  obtain ⟨code, hcode, h⟩ := Option.bind_eq_some_iff.mp h
  obtain ⟨⟨vt, b₃⟩, hvalue, h⟩ := Option.bind_eq_some_iff.mp h
  obtain rfl := Option.some.inj h
  obtain ⟨⟨i, hi, rfl⟩, hilt, hb₁⟩ := of_getRequiredString hid
  obtain ⟨⟨p, hp, rfl⟩, hplt, hb₂⟩ := of_getRequiredString hpath
  obtain ⟨o, ho, rfl⟩ := of_getString hop
  obtain ⟨v, rfl, ⟨j, hj, hof⟩, hb₃⟩ := of_encodeValue hvalue
  have hname := of_opToCode hcode
  have hlt : code < opNames.length := (List.getElem?_eq_some_iff.mp hname).1
  refine ⟨⟨i, p, code, v, hilt, hplt, hlt⟩, ?_, ?_⟩
  · have hfields := v.store_fields { id := i, path := p, opCode := code, enabled := true,
                                     valueType := v.type }
    refine ⟨hfields.enabled, ⟨i, hi, hfields.id⟩, ⟨p, hp, hfields.path⟩, ⟨o, ho, ?_⟩, ⟨j, hj, ?_⟩⟩
    · rw [← hname]
      exact congrArg (opNames[·]?) hfields.opCode
    · exact hof _ rfl
  · rw [strlen_text, strlen_text, Nat.mod_eq_of_lt hilt, Nat.mod_eq_of_lt hplt,
      List.take_length, List.take_length] at hb₃
    have hstart := (appends_u8 alloc b₂ 0).trans (appends_u8 alloc _ (UInt8.ofNat code))
    have hkeys := (hstart.trans (appends_blob alloc _ i.1)).trans (appends_blob alloc _ p.1)
    have hrecord := hkeys.trans hb₃
    simp only [List.cons_append, List.nil_append, List.append_assoc] at hrecord
    have happends := (hb₁.trans hb₂).trans (hrecord.patch (flagsOf v.type))
    simp only [Record.bytes, List.nil_append, List.append_assoc] at happends ⊢
    exact happends

/-- What the loop appends: the layout of each enabled trigger, in the order of the array. -/
theorem of_encodeLoop {n m : Nat} {b b' : ByteBuf}
    (h : encodeLoop P alloc (ts.map some) n b = some (m, b')) :
    ∃ rs : List Record, m = n + rs.length ∧ (n ≤ 255 → m ≤ 255) ∧
      Appends b b' (rs.flatMap Record.bytes) ∧
      List.Forall₂ (fun t r => Tells t r.entry) (ts.filter P.enabled) rs := by
  induction ts generalizing n b with
  | nil =>
    obtain ⟨rfl, rfl⟩ := Prod.mk.inj (Option.some.inj h)
    refine ⟨[], rfl, id, ?_, .nil⟩
    intro hoom
    exact ⟨hoom, (List.append_nil _).symm⟩
  | cons t ts ih =>
    rw [List.map_cons, encodeLoop] at h
    cases henabled : P.enabled t with
    | false =>
      rw [henabled, if_pos (by rfl)] at h
      rw [List.filter_cons_of_neg (by rw [henabled]; exact Bool.false_ne_true)]
      exact ih h
    | true =>
      rw [henabled, if_neg (by decide)] at h
      obtain ⟨hemitted, h⟩ := Option.ite_none_left_eq_some.mp h
      obtain ⟨b₁, hb₁, h⟩ := Option.bind_eq_some_iff.mp h
      obtain ⟨r, htells, happends⟩ := of_encodeTrigger hb₁
      obtain ⟨rs, hm, hle, happends', hall⟩ := ih h
      refine ⟨r :: rs, ?_, fun _ => hle (by omega), ?_, ?_⟩
      · rw [hm, List.length_cons]
        omega
      · rw [List.flatMap_cons]
        exact happends.trans happends'
      · rw [List.filter_cons_of_pos henabled]
        exact .cons htells hall

/-- The blob of an accepted array. -/
theorem of_encode {blob : List UInt8} (h : encode P alloc (some (ts.map some)) = .ok blob) :
    ∃ rs : List Record, rs.length ≤ 255 ∧
      blob = codecVersion :: UInt8.ofNat rs.length :: rs.flatMap Record.bytes ∧
      List.Forall₂ (fun t r => Tells t r.entry) (ts.filter P.enabled) rs := by
  rw [encode] at h
  split at h
  · cases h
  · next m b hloop =>
    obtain ⟨rs, hm, hle, happends, hall⟩ := of_encodeLoop hloop
    split at h
    · cases h
    · next hoom =>
      rw [Bool.not_eq_true] at hoom
      have hversion := appends_u8 alloc {} codecVersion
      have hcount := appends_u8 alloc (ByteBuf.u8 alloc {} codecVersion) 0
      have hdata := (hversion.trans (hcount.trans happends) hoom).2
      have hpos : (ByteBuf.u8 alloc {} codecVersion).data.length = 1 := by
        rw [(hversion (hcount (happends hoom).1).1).2]
        rfl
      obtain rfl := Except.ok.inj h
      refine ⟨rs, by omega, ?_, hall⟩
      rw [ByteBuf.patch, hpos, hoom, hm, Nat.zero_add]
      show b.data.set 1 (UInt8.ofNat rs.length) = _
      rw [hdata]
      rfl

/-- The iterator over the blob of an accepted array yields the enabled triggers, in the order of the
array, each as the array has it. Then it reports the end, and the offset is the length of the
blob. -/
theorem decode_encode {blob : List UInt8} (h : encode P alloc (some (ts.map some)) = .ok blob) :
    ∃ it entries it', iterBegin blob = .ok (it, entries.length) ∧
      it.run (entries.length + 1) = (entries, some .notFound, it') ∧ it'.off = blob.length ∧
        List.Forall₂ Tells (ts.filter P.enabled) entries := by
  obtain ⟨rs, hlength, rfl, hall⟩ := of_encode h
  have hcount : (UInt8.ofNat rs.length).toNat = rs.length := by
    rw [UInt8.toNat_ofNat']
    omega
  let blob := codecVersion :: UInt8.ofNat rs.length :: rs.flatMap Record.bytes
  let it : Iter := ⟨blob, blob.length, 2, rs.length⟩
  have hsees : it.Sees (rs.flatMap Record.bytes) := by
    refine ⟨rfl, ?_, List.prefix_rfl⟩
    show 2 ≤ (rs.flatMap Record.bytes).length + 1 + 1
    omega
  refine ⟨it, rs.map Record.entry, { it.skip (rs.flatMap Record.bytes).length with remaining := 0 },
    ?_, ?_, ?_, List.forall₂_map_right_iff.mpr hall⟩
  · rw [iterBegin, if_neg, List.length_map]
    · show Except.ok (Iter.mk blob blob.length 2 (UInt8.ofNat rs.length).toNat,
        (UInt8.ofNat rs.length).toNat) = _
      rw [hcount]
    · intro h
      rcases h with h | h
      · rw [List.length_cons, List.length_cons] at h
        omega
      · exact h rfl
  · rw [List.length_map]
    exact hsees.run rfl
  · show 2 + (rs.flatMap Record.bytes).length = _
    rw [List.length_cons, List.length_cons]
    omega

/-- A parser whose getters read their own kind of value, and the boolean one also 0 and 1. -/
def strictParser : Parser where
  getInt
    | .int v => some v
    | _ => none
  getFloat
    | .float bits => some bits
    | _ => none
  getBool
    | .bool b => some b
    | .int 0 => some false
    | .int 1 => some true
    | _ => none
  getInt_iff := by
    intro j v
    cases j <;> simp
  getFloat_float _ := rfl
  of_getFloat := by
    intro j bits h
    cases j <;> simp_all
  getBool_bool _ := rfl
  of_getBool := by
    intro j b h
    cases j with
    | bool c => exact .inl (congrArg Json.bool (Option.some.inj h))
    | int v => exact .inr ⟨v, rfl⟩
    | _ => cases h

/-- Two enabled triggers, and a disabled one between them that has no path. -/
def sampleTriggers : List TriggerObject := [
  { id := some (.str ⟨[97], by decide⟩), path := some (.str ⟨[112], by decide⟩),
    operator := some (.str ⟨[101, 113], by decide⟩), value := some (.int (-5)) },
  { id := some (.str ⟨[98], by decide⟩), enabled := some (.bool false) },
  { id := some (.str ⟨[], by decide⟩), path := some (.str ⟨[113], by decide⟩),
    operator := some (.str ⟨[110, 101], by decide⟩),
    value := some (.str ⟨[97, 119], by decide⟩), enabled := some (.bool true) }]

/-- The blob of the two enabled triggers. -/
theorem sampleTriggers_decode : ∃ blob,
    encode strictParser (fun _ => true) (some (sampleTriggers.map some)) = .ok blob ∧
      ∃ it entries it', iterBegin blob = .ok (it, entries.length) ∧
        it.run (entries.length + 1) = (entries, some .notFound, it') ∧ it'.off = blob.length ∧
          List.Forall₂ Tells (sampleTriggers.filter strictParser.enabled) entries := by
  have hencode : encode strictParser (fun _ => true) (some (sampleTriggers.map some)) =
      .ok [1, 2, 3, 0, 1, 0, 97, 1, 0, 112, 251, 255, 255, 255,
        7, 1, 0, 0, 1, 0, 113, 2, 0, 97, 119] := by decide +kernel
  exact ⟨_, hencode, decode_encode hencode⟩

end RainMakerNeo.Automation
