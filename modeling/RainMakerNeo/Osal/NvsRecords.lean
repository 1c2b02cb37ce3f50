import RainMakerNeo.Lib.Bytes
import RainMakerNeo.Lib.Framing
import Mathlib.Data.List.Induction
import Mathlib.Data.List.Nodup
import Mathlib.Logic.Function.Basic

/-!
# `RainMakerNeo.Osal.NvsRecords`: the records of a POSIX storage file

A file is a sequence of records: the length of the key in two bytes, the length of the value in
four, the type in one, the key and the value. The host is little-endian.

The reader refuses a key of length 0 and a key of 16 bytes or more, the writer takes any key and
cuts its length to 16 bits. `frames` says that the reader takes back the records that are
`Admissible`, and `Holds` relates a file to the map that it stands for.
-/

set_option autoImplicit false

namespace RainMakerNeo.Osal.Nvs

open RainMakerNeo.Lib

/-- `OSAL_STORAGE_KEY_MAX_LENGTH`. -/
def keyMaxLength : Nat := 16

/-- `nvs_posix_record_t`. The type is the byte that stands in the file. -/
structure Record where
  key : List UInt8
  value : List UInt8
  type : UInt8
  deriving DecidableEq, Repr

/-- `read_next_record`. -/
def readNextRecord : List UInt8 → Read Record UInt8
  | [] => .eof
  | k₀ :: k₁ :: v₀ :: v₁ :: v₂ :: v₃ :: type :: rest =>
    let klen := readLe16 k₀ k₁
    let vlen := (readLe32 [v₀, v₁, v₂, v₃]).toNat
    if klen = 0 ∨ keyMaxLength ≤ klen then .fail rest
    else if rest.length < klen then .fail []
    else if (rest.drop klen).length < vlen then .fail []
    else .ok ⟨rest.take klen, (rest.drop klen).take vlen, type⟩ (rest.drop (klen + vlen))
  | _ => .fail []

/-- `write_record`. -/
def writeRecord (r : Record) : List UInt8 :=
  le16 r.key.length ++ (le32 (UInt32.ofNat r.value.length) ++ (r.type :: (r.key ++ r.value)))

/-- The `new_record` of `osal_storage_set`: both lengths are cut to the width of their fields. -/
def newRecord (key value : List UInt8) (type : UInt8) : Record where
  key := key.take (key.length % 2 ^ 16)
  value := value.take (value.length % 2 ^ 32)
  type := type

/-- The comparison of the key of a record with the key of a call. -/
def Record.isFor (key : List UInt8) (r : Record) : Bool :=
  r.key.length == key.length % 2 ^ 16 && r.key == key.take r.key.length

/-- The records of a file, `none` if one cannot be read. -/
def readRecords (bytes : List UInt8) : Option (List Record) :=
  Framing.readAll readNextRecord bytes.length bytes

/-- A file with some records. -/
def writeRecords (rs : List Record) : List UInt8 := Framing.writeAll writeRecord rs

/-- The search of `osal_storage_entry_next`. -/
def seekType (type : UInt8) (bytes : List UInt8) (offset : Nat) : Seek :=
  Framing.seek readNextRecord (fun r => r.type == type) bytes.length (bytes.drop offset) offset

/-- The last record for a key. -/
def lastFor (key : List UInt8) (rs : List Record) : Option Record :=
  rs.foldl (fun last r => if r.isFor key then some r else last) none

/-! ### What the reader takes back -/

/-- The records that the reader takes. -/
structure Admissible (r : Record) : Prop where
  key_pos : 0 < r.key.length
  key_lt : r.key.length < keyMaxLength
  value_lt : r.value.length < 2 ^ 32

/-- The reader takes the header apart. -/
theorem readNextRecord_header {r : Record} (hk : r.key.length < 2 ^ 16) (rest : List UInt8) :
    readNextRecord (writeRecord r ++ rest) =
      if r.key.length = 0 ∨ keyMaxLength ≤ r.key.length then .fail (r.key ++ r.value ++ rest)
      else if (r.key ++ r.value ++ rest).length < r.key.length then .fail []
      else if (r.value ++ rest).length < r.value.length % 2 ^ 32 then .fail []
      else .ok ⟨r.key, (r.value ++ rest).take (r.value.length % 2 ^ 32), r.type⟩
        ((r.value ++ rest).drop (r.value.length % 2 ^ 32)) := by
  have hk' : readLe16 (UInt8.ofNat (r.key.length &&& 0xFF))
      (UInt8.ofNat ((r.key.length >>> 8) &&& 0xFF)) = r.key.length :=
    readLe16_le16 hk
  have hv : (readLe32 (le32 (UInt32.ofNat r.value.length))).toNat = r.value.length % 2 ^ 32 := by
    rw [readLe32_le32, UInt32.toNat_ofNat']
  have hbytes : writeRecord r ++ rest =
      UInt8.ofNat (r.key.length &&& 0xFF) :: UInt8.ofNat ((r.key.length >>> 8) &&& 0xFF) ::
        (le32 (UInt32.ofNat r.value.length) ++ (r.type :: (r.key ++ r.value ++ rest))) := by
    simp [writeRecord, le16]
  have hkey : (r.key ++ r.value ++ rest).take r.key.length = r.key := by simp
  have hdrop : (r.key ++ r.value ++ rest).drop r.key.length = r.value ++ rest := by simp
  rw [hbytes, le32]
  rw [le32] at hv
  simp only [List.cons_append, List.nil_append]
  rw [readNextRecord]
  simp only [hk', hv, hkey, hdrop, ← List.drop_drop]

theorem readNextRecord_writeRecord {r : Record} (h : Admissible r) (rest : List UInt8) :
    readNextRecord (writeRecord r ++ rest) = .ok r rest := by
  have hpos := h.key_pos
  have hlt : r.key.length < 16 := h.key_lt
  rw [readNextRecord_header (by omega), Nat.mod_eq_of_lt h.value_lt,
    if_neg (by rw [keyMaxLength]; omega), if_neg (by simp), if_neg (by simp), List.take_left,
    List.drop_left]

theorem writeRecord_ne_nil (r : Record) : writeRecord r ≠ [] := by
  simp [writeRecord, le16]

/-- The reader takes back the admissible records. -/
theorem frames : Framing.Frames writeRecord readNextRecord Admissible where
  eof := rfl
  ok := fun _ rest h => readNextRecord_writeRecord h rest
  nonempty := writeRecord_ne_nil

theorem writeRecords_append (rs rs' : List Record) :
    writeRecords (rs ++ rs') = writeRecords rs ++ writeRecords rs' :=
  Framing.writeAll_append

theorem readRecords_writeRecords {rs : List Record} (h : ∀ r ∈ rs, Admissible r) :
    readRecords (writeRecords rs) = some rs :=
  Framing.readAll_writeAll frames h (frames.length_le rs)

/-! ### Keys that fit -/

variable {key : List UInt8} {r : Record} {rs : List Record}

/-- A key whose length fits its field is compared as it is. -/
theorem isFor_iff (h : key.length < 2 ^ 16) : r.isFor key = true ↔ r.key = key := by
  rw [Record.isFor, Nat.mod_eq_of_lt h, Bool.and_eq_true, beq_iff_eq, beq_iff_eq]
  constructor
  · intro ⟨hlen, hkey⟩
    rw [hkey, hlen, List.take_length]
  · intro hkey
    subst hkey
    exact ⟨rfl, List.take_length.symm⟩

/-- A key and a value whose lengths fit their fields are stored as they are. -/
theorem newRecord_eq {value : List UInt8} (type : UInt8) (hkey : key.length < 2 ^ 16)
    (hvalue : value.length < 2 ^ 32) : newRecord key value type = ⟨key, value, type⟩ := by
  rw [newRecord, Nat.mod_eq_of_lt hkey, Nat.mod_eq_of_lt hvalue, List.take_length,
    List.take_length]

/-- The loop over the records keeps the last one for the key. -/
theorem lastFor_append (rs : List Record) (r : Record) :
    lastFor key (rs ++ [r]) = if r.isFor key then some r else lastFor key rs := by
  rw [lastFor, List.foldl_append]
  rfl

/-- A record that is found is one of the records, and is for the key. -/
theorem lastFor_mem (h : lastFor key rs = some r) : r ∈ rs ∧ r.isFor key = true := by
  induction rs using List.reverseRecOn with
  | nil => cases h
  | append_singleton rs x ih =>
    rw [lastFor_append] at h
    split at h
    · next hx =>
      cases h
      exact ⟨by simp, hx⟩
    · exact ⟨List.mem_append_left _ (ih h).1, (ih h).2⟩

/-- If there is a record for the key, one is found. -/
theorem lastFor_ne_none (hmem : r ∈ rs) (hr : r.isFor key = true) : lastFor key rs ≠ none := by
  induction rs using List.reverseRecOn with
  | nil => exact absurd hmem List.not_mem_nil
  | append_singleton rs x ih =>
    rw [lastFor_append]
    split
    · exact Option.some_ne_none x
    · next hx =>
      rcases List.mem_append.mp hmem with hmem | hmem
      · exact ih hmem
      · rw [List.mem_singleton] at hmem
        exact absurd (hmem ▸ hr) hx

/-! ### The map that a file stands for -/

/-- A value with its type. -/
structure Entry where
  value : List UInt8
  type : UInt8
  deriving DecidableEq, Repr

/-- The file holds the entries of a map, each in one record. -/
structure Holds (m : List UInt8 → Option Entry) (rs : List Record) : Prop where
  admissible : ∀ r ∈ rs, Admissible r
  nodup : (rs.map Record.key).Nodup
  mem_iff : ∀ r, r ∈ rs ↔ m r.key = some ⟨r.value, r.type⟩

variable {m : List UInt8 → Option Entry}

/-- A new file holds nothing. -/
theorem Holds.nil : Holds (fun _ => none) [] where
  admissible := fun _ h => absurd h List.not_mem_nil
  nodup := List.nodup_nil
  mem_iff := fun _ => ⟨fun h => absurd h List.not_mem_nil, fun h => by cases h⟩

/-- A key is looked up in the map. -/
theorem Holds.lastFor (h : Holds m rs) (hkey : key.length < 2 ^ 16) :
    (lastFor key rs).map (fun r => Entry.mk r.value r.type) = m key := by
  cases hlast : Nvs.lastFor key rs with
  | some r =>
    obtain ⟨hmem, hr⟩ := lastFor_mem hlast
    rw [isFor_iff hkey] at hr
    rw [← hr, (h.mem_iff r).mp hmem]
    rfl
  | none =>
    cases hm : m key with
    | none => rfl
    | some e =>
      have hmem : Record.mk key e.value e.type ∈ rs := (h.mem_iff _).mpr hm
      exact absurd hlast (lastFor_ne_none hmem ((isFor_iff hkey).mpr rfl))

/-- Without the records for a key, the file holds the map without it. -/
theorem Holds.erase (h : Holds m rs) (hkey : key.length < 2 ^ 16) :
    Holds (Function.update m key none) (rs.filter fun r => !r.isFor key) where
  admissible := fun r hr => h.admissible r (List.mem_of_mem_filter hr)
  nodup := h.nodup.sublist (List.Sublist.map _ List.filter_sublist)
  mem_iff := by
    intro r
    rw [List.mem_filter, Bool.not_eq_true', ← Bool.not_eq_true, isFor_iff hkey, h.mem_iff]
    by_cases hr : r.key = key
    · simp [hr]
    · simp [hr]

/-- With a record behind the others, the file holds the map with its entry. -/
theorem Holds.set (h : Holds m rs) (r : Record) (hr : Admissible r) :
    Holds (Function.update m r.key (some ⟨r.value, r.type⟩))
      ((rs.filter fun x => !x.isFor r.key) ++ [r]) := by
  have hlt : r.key.length < 16 := hr.key_lt
  have hkey : r.key.length < 2 ^ 16 := by omega
  have herase := h.erase hkey
  have hnot : ∀ x ∈ rs.filter (fun x => !x.isFor r.key), x.key ≠ r.key := by
    intro x hx
    have hx' := (herase.mem_iff x).mp hx
    intro heq
    rw [heq, Function.update_self] at hx'
    cases hx'
  refine ⟨?_, ?_, ?_⟩
  · intro x hx
    rcases List.mem_append.mp hx with hx | hx
    · exact herase.admissible x hx
    · rw [List.mem_singleton] at hx
      exact hx ▸ hr
  · rw [List.map_append]
    refine List.nodup_append.mpr ⟨herase.nodup, List.nodup_singleton _, ?_⟩
    intro k hk k' hk'
    obtain ⟨x, hx, rfl⟩ := List.mem_map.mp hk
    rw [List.map_singleton, List.mem_singleton] at hk'
    exact hk' ▸ hnot x hx
  · intro x
    rw [List.mem_append, List.mem_singleton]
    by_cases hx : x.key = r.key
    · rw [hx, Function.update_self]
      constructor
      · rintro (hmem | rfl)
        · exact absurd hx (hnot x hmem)
        · rfl
      · intro heq
        right
        cases x
        cases r
        simp_all
    · rw [Function.update_of_ne hx, herase.mem_iff, Function.update_of_ne hx]
      constructor
      · rintro (hmem | rfl)
        · exact hmem
        · exact absurd rfl hx
      · exact Or.inl

end RainMakerNeo.Osal.Nvs
