import RainMakerNeo.Automation.Compare
import RainMakerNeo.Lib.Run

/-!
# `RainMakerNeo.Node.ParamValue`: a persisted parameter over reboots

A parameter has its value in RAM, a type and bounds from the firmware, and its entry in the NVS.
`esp_rmaker_param_update` writes the value back unless it is equal to the one in RAM, and
`esp_rmaker_device_add_param` restores it after a reboot. A text is stored as its bytes, any other
value as the raw `esp_rmaker_param_val_t`.

The restore takes the raw bytes as they are, with their own type and without a look at the bounds.
An equal value is taken to be stored, also after a store that has failed. The comparison of two
texts reads through NULL, and a float that is not a number passes every bound (`sound_fails`).
`Careful` keeps away from these, and `sound_of_careful` is what then holds over any history.

What bytes of one kind look like when they are read as the other kind is up to the environment.
-/

set_option autoImplicit false

namespace RainMakerNeo.Node.ParamValue

open RainMakerNeo.Lib
open RainMakerNeo.Automation (ValType isNan floatRank floatEq floatLt valCompare)
open RainMakerNeo.State (Val)

/-! ### Values -/

/-- The types whose value is a text. -/
inductive TextKind
  | string | object | array
  deriving DecidableEq, Repr

/-- `esp_rmaker_param_val_t`. A text that is `none` is NULL. -/
inductive ParamVal
  | invalid
  | boolean (b : Bool)
  | integer (i : Int32)
  | float (bits : UInt32)
  | text (kind : TextKind) (s : Option (List Char))
  deriving DecidableEq, Repr

namespace ParamVal

/-- The type of a value. -/
def type : ParamVal → ValType
  | invalid => .invalid
  | boolean _ => .boolean
  | integer _ => .integer
  | float _ => .float
  | text .string _ => .string
  | text .object _ => .object
  | text .array _ => .array

/-- The value, if no string of it is absent. -/
def toVal : ParamVal → Option Val
  | invalid => some .invalid
  | boolean b => some (.boolean b)
  | integer i => some (.integer i)
  | float bits => some (.float bits)
  | text .string s => s.map .string
  | text .object s => s.map .object
  | text .array s => s.map .array

/-- The first word of the union. A pointer is not looked at as a number. -/
def word : ParamVal → UInt32
  | boolean b => if b then 1 else 0
  | integer i => i.toUInt32
  | float bits => bits
  | invalid | text _ _ => 0

end ParamVal

/-- What `esp_rmaker_val_compare` does with `RMAKER_VAL_COMPARE_EQ`. -/
inductive Comparison
  | invalidArg
  | equal
  | differs
  /-- `strcmp` reads through NULL. -/
  | absent
  deriving DecidableEq, Repr

/-- `esp_rmaker_val_compare` with `RMAKER_VAL_COMPARE_EQ`, on values that may be NULL. -/
def compareEq (val1 val2 : ParamVal) : Comparison :=
  if val1.type ≠ val2.type then .invalidArg
  else
    match val1.toVal, val2.toVal with
    | some a, some b =>
      match valCompare a b .eq with
      | none => .invalidArg
      | some result => if result then .equal else .differs
    | _, _ => .absent

/-- `esp_rmaker_param_bounds_t`. -/
structure Bounds where
  min : ParamVal
  max : ParamVal
  step : ParamVal
  deriving DecidableEq, Repr

/-- The test of a new value against the bounds, in `esp_rmaker_param_update`. -/
def Bounds.excludes (b : Bounds) (type : ValType) (val : ParamVal) : Bool :=
  match type with
  | .integer =>
    val.word.toInt32 < b.min.word.toInt32 || b.max.word.toInt32 < val.word.toInt32
  | .float => floatLt val.word b.min.word || floatLt b.max.word val.word
  | _ => false

/-! ### The entry in the NVS -/

/-- A stored value. -/
inductive Blob
  | text (s : List Char)
  | raw (val : ParamVal)
  deriving DecidableEq, Repr

/-- What `esp_rmaker_param_store_value` writes. Nothing is written for NULL. -/
def ParamVal.blob : ParamVal → Option Blob
  | .text _ s => s.map .text
  | val => some (.raw val)

/-- What reads of the wrong kind give, up to the layout of the structure. -/
structure Misread where
  text : List Char := []
  /-- `none` if the bytes do not fit the structure. -/
  val : Option ParamVal := none

/-- `esp_rmaker_param_get_stored_value` of an entry, for a parameter with the value `val`. -/
def Blob.read (val : ParamVal) (misread : Misread) : Blob → Option ParamVal
  | .text s =>
    match val with
    | .text kind _ => some (.text kind (some s))
    | _ => misread.val
  | .raw stored =>
    match val with
    | .text kind _ => some (.text kind (some misread.text))
    | _ => some stored

/-! ### The parameter -/

/-- `_esp_rmaker_param_t`. -/
structure Param where
  val : ParamVal
  /-- `PROP_FLAG_PERSIST`. -/
  persist : Bool
  bounds : Option Bounds
  /-- The parameter has a parent. -/
  added : Bool
  /-- The type that the parameter was created with. This does not exist in the code. -/
  declared : ValType
  deriving DecidableEq, Repr

/-- A value that was set by an update or a restore, the bounds then, and for a restore the value
that was kept. -/
structure Record where
  val : ParamVal
  bounds : Option Bounds
  restored : Option (Option Blob)
  deriving DecidableEq, Repr

/-- The fields from `crashed` on are history. -/
structure State where
  stored : Option Blob := none
  param : Option Param := none
  /-- A comparison has read an absent string. -/
  crashed : Bool := false
  /-- The value of the last successful update that could be stored, or the one that was stored when
  the parameter was first added. -/
  kept : Option Blob := none
  log : List Record := []
  deriving DecidableEq, Repr

/-- What the environment does during an update: the copy of a text, the store, and the id of the
state update. -/
structure UpdateEnv where
  copied : Bool := true
  stores : Bool := true
  marked : Bool := true
  deriving DecidableEq, Repr

/-- What the environment does when a parameter is added. -/
structure AddEnv where
  /-- The entry can be opened and read. -/
  readable : Bool := true
  stores : Bool := true
  misread : Misread := {}

/-- `esp_rmaker_param_store_value`. -/
def Param.store (p : Param) (stores : Bool) (stored : Option Blob) : Option Blob :=
  if p.added ∧ stores then p.val.blob.or stored else stored

/-- `esp_rmaker_param_create`, where `copied` says whether a text can be copied. -/
def create (val : ParamVal) (persist copied : Bool) : Param where
  val :=
    match val with
    | .text kind s => .text kind (if copied then s else none)
    | val => val
  persist := persist
  bounds := none
  added := false
  declared := val.type

/-- `esp_rmaker_param_add_bounds`. -/
def Param.addBounds (p : Param) (bounds : Bounds) (allocated : Bool) : Param :=
  if p.val.type ≠ .integer ∧ p.val.type ≠ .float then p
  else if bounds.min.type ≠ p.val.type ∨ bounds.max.type ≠ p.val.type
      ∨ bounds.step.type ≠ p.val.type then p
  else if !allocated then p
  else { p with bounds := some bounds }

/-- `esp_rmaker_device_add_param`. -/
def State.addParam (s : State) (p : Param) (env : AddEnv) : State :=
  let p := { p with added := true }
  if p.persist then
    match if env.readable then s.stored.bind (Blob.read p.val env.misread) else none with
    | some val => { s with
        param := some { p with val := val }
        log := { val := val, bounds := p.bounds, restored := some s.kept } :: s.log }
    | none =>
      let stored := p.store env.stores s.stored
      { s with param := some p, stored := stored, kept := s.kept.or stored }
  else { s with param := some p }

/-- `esp_rmaker_param_update`, after the comparison and the bounds. -/
def State.apply (s : State) (p : Param) (val : ParamVal) (unchanged : Bool) (env : UpdateEnv) :
    State :=
  let p := { p with val := val }
  let s := { s with
    param := some p
    stored := if !unchanged && p.persist then p.store env.stores s.stored else s.stored }
  if env.marked then { s with
    kept := if p.persist then p.store env.stores s.kept else s.kept
    log := { val := val, bounds := p.bounds, restored := none } :: s.log }
  else s

/-- The copy of the new value. -/
def UpdateEnv.copies (env : UpdateEnv) : ParamVal → Bool
  | .text _ (some _) => env.copied
  | _ => true

/-- `esp_rmaker_param_update`. -/
def State.update (s : State) (p : Param) (val : ParamVal) (env : UpdateEnv) : State :=
  match compareEq p.val val with
  | .absent => { s with crashed := true }
  | .invalidArg => s
  | comparison =>
    if p.bounds.any fun b => b.excludes p.val.type val then s
    else if !env.copies val then s
    else s.apply p val (comparison = .equal) env

/-- What happens next. -/
inductive Action
  | create (val : ParamVal) (persist copied : Bool)
  | addBounds (bounds : Bounds) (allocated : Bool)
  | addParam (env : AddEnv)
  | update (val : ParamVal) (env : UpdateEnv)
  | reboot

/-- The next step. After a crash there is only the reboot. -/
def step (s : State) : Action → Option State
  | .create val persist copied =>
    if s.crashed ∨ s.param.isSome then none
    else some { s with param := some (create val persist copied) }
  | .addBounds bounds allocated =>
    if s.crashed then none
    else s.param.map fun p => { s with param := some (p.addBounds bounds allocated) }
  | .addParam env =>
    if s.crashed then none
    else s.param.bind fun p => if p.added then none else some (s.addParam p env)
  | .update val env => if s.crashed then none else s.param.map fun p => s.update p val env
  | .reboot => some { s with param := none }

/-- A node that has not stored the parameter yet. -/
def Initial (s : State) : Prop := s = {}

/-! ### Soundness -/

/-- `<=` of floats. -/
def floatLe (a b : UInt32) : Bool := !isNan a && !isNan b && floatRank a ≤ floatRank b

/-- The value lies within the bounds. -/
def Within (bounds : Option Bounds) (val : ParamVal) : Prop :=
  ∀ b ∈ bounds,
    match val with
    | .integer i => b.min.word.toInt32 ≤ i ∧ i ≤ b.max.word.toInt32
    | .float bits => floatLe b.min.word bits ∧ floatLe bits b.max.word
    | _ => True

/-- The bits of a stored float. -/
def Blob.float : Blob → Option UInt32
  | .raw (.float bits) => some bits
  | _ => none

/-- Two stored values are the same, up to the sign of a zero. -/
def Same (a b : Blob) : Prop :=
  a = b ∨ ∃ x ∈ a.float, ∃ y ∈ b.float, floatEq x y = true

/-- **Soundness.** The value has the declared type. A value that was updated or restored lies within
the bounds. A restored value is the kept one. No comparison has read an absent string. -/
structure Sound (s : State) : Prop where
  typed : ∀ p ∈ s.param, p.val.type = p.declared
  within : ∀ r ∈ s.log, Within r.bounds r.val
  restored : ∀ r ∈ s.log, ∀ kept ∈ r.restored, ∃ k ∈ kept, ∃ b ∈ r.val.blob, Same k b
  compared : s.crashed = false

/-- The entry can be restored into a parameter with the value `val`. -/
def Blob.Fits (val : ParamVal) : Blob → Prop
  | .text _ => ∃ kind s, val = .text kind s
  | .raw stored => stored.type = val.type ∧ ∀ kind s, stored ≠ .text kind s

/-- The bounds and the value are numbers. -/
def Numeric (b : Bounds) : ParamVal → Prop
  | .float bits => isNan bits = false ∧ isNan b.min.word = false ∧ isNan b.max.word = false
  | _ => True

/-- The steps that keep the value sound. -/
def Careful (s : State) : Action → Prop
  | .addParam env => ∀ p ∈ s.param, p.persist = true → ∀ b ∈ s.stored,
    -- the entry is read, and it suits the declaration of the new firmware
    env.readable = true ∧ b.Fits p.val ∧ ∀ val ∈ b.read p.val env.misread, Within p.bounds val
  | .update val env => ∀ p ∈ s.param,
    compareEq p.val val ≠ .absent ∧ (p.persist = true → p.added = true → env.marked = true)
    ∧ (∀ b ∈ p.bounds, Numeric b val)
    -- an equal value is in the NVS
    ∧ (compareEq p.val val = .equal → p.persist = true → p.added = true → env.stores = true →
      ∀ k ∈ val.blob, ∃ b ∈ s.stored, Same k b)
  | .create _ _ _ | .addBounds _ _ | .reboot => True

instance (bounds : Option Bounds) (val : ParamVal) : Decidable (Within bounds val) := by
  unfold Within
  cases val <;> infer_instance

instance (val : ParamVal) : (b : Blob) → Decidable (b.Fits val)
  | .text _ =>
    match val with
    | .text kind s => .isTrue ⟨kind, s, rfl⟩
    | .invalid | .boolean _ | .integer _ | .float _ => .isFalse fun ⟨_, _, h⟩ => nomatch h
  | .raw stored =>
    have : Decidable (∀ kind s, stored ≠ .text kind s) :=
      match stored with
      | .text kind s => .isFalse fun h => h kind s rfl
      | .invalid | .boolean _ | .integer _ | .float _ => .isTrue fun _ _ h => nomatch h
    inferInstanceAs (Decidable (_ ∧ _))

instance (b : Bounds) (val : ParamVal) : Decidable (Numeric b val) := by
  unfold Numeric
  cases val <;> infer_instance

instance (a b : Blob) : Decidable (Same a b) :=
  inferInstanceAs (Decidable (_ ∨ ∃ x ∈ a.float, ∃ y ∈ b.float, _))

instance (s : State) : (a : Action) → Decidable (Careful s a)
  | .addParam env =>
    inferInstanceAs (Decidable (∀ p ∈ s.param, _ → ∀ b ∈ s.stored, _ ∧ b.Fits p.val
      ∧ ∀ val ∈ b.read p.val env.misread, Within p.bounds val))
  | .update val _ =>
    inferInstanceAs (Decidable (∀ p ∈ s.param, _ ∧ _ ∧ (∀ b ∈ p.bounds, Numeric b val)
      ∧ (_ → _ → _ → _ → ∀ k ∈ val.blob, ∃ b ∈ s.stored, Same k b)))
  | .create _ _ _ | .addBounds _ _ | .reboot => .isTrue trivial

/-! ### The operations -/

variable {s t : State} {p : Param}

theorem Same.refl (b : Blob) : Same b b := .inl rfl

/-- Values that are compared have one type. -/
theorem type_eq_of_compareEq {v w : ParamVal} (h : compareEq v w ≠ .invalidArg) :
    v.type = w.type := by
  by_contra hne
  exact h (if_pos hne)

theorem le_of_not_floatLt {a b : UInt32} (ha : isNan a = false) (hb : isNan b = false)
    (h : floatLt b a = false) : floatLe a b = true := by
  simp only [floatLt, floatLe, ha, hb, Bool.not_false, Bool.true_and, decide_eq_false_iff_not,
    decide_eq_true_eq] at h ⊢
  omega

variable {val : ParamVal}

/-- A number that is not excluded lies within the bounds. -/
theorem within_of_not_excludes {bounds : Option Bounds} (hnumeric : ∀ b ∈ bounds, Numeric b val)
    (h : ¬(bounds.any fun b => b.excludes val.type val) = true) : Within bounds val := by
  rintro b ⟨⟩
  have hnumbers := hnumeric b rfl
  rw [Option.any_some, Bool.not_eq_true] at h
  cases val with
  | integer i =>
    simp only [Bounds.excludes, ParamVal.type, Bool.or_eq_false_iff,
      decide_eq_false_iff_not] at h
    have hword : (ParamVal.integer i).word.toInt32 = i := Int32.toInt32_toUInt32 i
    rw [hword] at h
    exact ⟨Int32.not_lt.mp h.1, Int32.not_lt.mp h.2⟩
  | float bits =>
    simp only [Bounds.excludes, ParamVal.type, Bool.or_eq_false_iff] at h
    obtain ⟨hbits, hmin, hmax⟩ := hnumbers
    exact ⟨le_of_not_floatLt hmin hbits h.1, le_of_not_floatLt hbits hmax h.2⟩
  | _ => trivial

/-- An entry that fits is restored as it is. -/
theorem read_of_fits {b : Blob} {val' : ParamVal} {misread : Misread} (h : b.Fits val)
    (hread : b.read val misread = some val') : val'.type = val.type ∧ val'.blob = some b := by
  cases b with
  | text s =>
    obtain ⟨kind, s', rfl⟩ := h
    cases Option.some.inj hread
    cases kind <;> exact ⟨rfl, rfl⟩
  | raw stored =>
    obtain ⟨htype, hraw⟩ := h
    have hblob : stored.blob = some (.raw stored) := by
      cases stored with
      | text kind s => exact absurd rfl (hraw kind s)
      | _ => rfl
    cases val with
    | text kind s =>
      -- no raw value has the type of a text
      exfalso
      cases stored with
      | text kind' s' => exact hraw kind' s' rfl
      | _ => cases kind <;> cases htype
    | _ =>
      cases Option.some.inj hread
      exact ⟨htype, hblob⟩

/-! ### The invariant -/

/-- What the NVS holds is what is kept. -/
def Stored (kept stored : Option Blob) : Prop :=
  kept = none ∧ stored = none ∨ ∃ k b, kept = some k ∧ stored = some b ∧ Same k b

theorem Stored.exists_kept {kept stored : Option Blob} (h : Stored kept stored) {b : Blob}
    (hb : stored = some b) : ∃ k, kept = some k ∧ Same k b := by
  rcases h with ⟨-, hnone⟩ | ⟨k, b', hk, hb', hsame⟩
  · rw [hb] at hnone
    cases hnone
  · cases Option.some.inj (hb.symm.trans hb')
    exact ⟨k, hk, hsame⟩

/-- A store keeps them together. -/
theorem Stored.store {kept stored : Option Blob} (h : Stored kept stored) (p : Param)
    (stores : Bool) : Stored (p.store stores kept) (p.store stores stored) := by
  rw [Param.store, Param.store]
  split
  · cases p.val.blob with
    | none => exact h
    | some b => exact .inr ⟨b, b, rfl, rfl, .refl b⟩
  · exact h

/-- What holds between two steps. -/
structure Inv (s : State) : Prop extends Sound s where
  stored : Stored s.kept s.stored

theorem Inv.initial (h : Initial s) : Inv s := by
  obtain rfl : s = {} := h
  have hlog : ∀ r ∈ ({} : State).log, False := fun _ hr => nomatch hr
  refine ⟨⟨?_, fun r hr => (hlog r hr).elim, fun r hr => (hlog r hr).elim, rfl⟩, .inl ⟨rfl, rfl⟩⟩
  intro p hp
  cases hp

theorem type_create (val : ParamVal) (persist copied : Bool) :
    (create val persist copied).val.type = val.type := by
  cases val with
  | text kind s => cases kind <;> rfl
  | _ => rfl

theorem Param.addBounds_frame (p : Param) (bounds : Bounds) (allocated : Bool) :
    (p.addBounds bounds allocated).val = p.val
      ∧ (p.addBounds bounds allocated).declared = p.declared := by
  rw [Param.addBounds]
  repeat' split
  all_goals exact ⟨rfl, rfl⟩

theorem Inv.addParam (h : Inv s) (hp : s.param = some p) {env : AddEnv}
    (hcareful : p.persist = true → ∀ b ∈ s.stored, env.readable = true ∧ b.Fits p.val
      ∧ ∀ val ∈ b.read p.val env.misread, Within p.bounds val) : Inv (s.addParam p env) := by
  have htyped : p.val.type = p.declared := h.typed p hp
  have hkeep : ∀ q : Param, q.val.type = q.declared → Inv { s with param := some q } := by
    intro q hq
    refine ⟨⟨?_, h.within, h.restored, h.compared⟩, h.stored⟩
    rintro q' ⟨⟩
    exact hq
  rw [State.addParam]
  dsimp only
  split
  · next hpersist =>
    split
    · next val hread =>
      -- the entry is there, and it was read
      have hsome : ∃ b, s.stored = some b ∧ b.read p.val env.misread = some val := by
        split at hread
        · exact Option.bind_eq_some_iff.mp hread
        · cases hread
      obtain ⟨b, hb, hval⟩ := hsome
      obtain ⟨-, hfits, hwithin⟩ := hcareful hpersist b hb
      obtain ⟨htype, hblob⟩ := read_of_fits hfits hval
      obtain ⟨k, hk, hsame⟩ := h.stored.exists_kept hb
      refine ⟨⟨?_, ?_, ?_, h.compared⟩, h.stored⟩
      · rintro q ⟨⟩
        exact htype.trans htyped
      · intro r hr
        rcases List.mem_cons.mp hr with rfl | hr
        · exact hwithin val hval
        · exact h.within r hr
      · intro r hr
        rcases List.mem_cons.mp hr with rfl | hr
        · rintro kept ⟨⟩
          exact ⟨k, hk, b, hblob, hsame⟩
        · exact h.restored r hr
    · next hread =>
      have hnone : s.stored = none := by
        cases hb : s.stored with
        | none => rfl
        | some b =>
          obtain ⟨hreadable, hfits, -⟩ := hcareful hpersist b hb
          rw [if_pos hreadable, hb, Option.bind_some] at hread
          cases b with
          | text t =>
            obtain ⟨kind, t', heq⟩ := hfits
            rw [heq] at hread
            cases hread
          | raw stored =>
            cases hval : p.val with
            | text kind t =>
              rw [hval] at hread
              cases hread
            | _ =>
              rw [hval] at hread
              cases hread
      obtain ⟨hkept, -⟩ | ⟨k, b, -, hb, -⟩ := h.stored
      · refine ⟨⟨?_, h.within, h.restored, h.compared⟩, ?_⟩
        · rintro q ⟨⟩
          exact htyped
        · show Stored (s.kept.or _) _
          rw [hkept, Option.none_or]
          cases hstore : Param.store { p with added := true } env.stores s.stored with
          | none => exact .inl ⟨rfl, rfl⟩
          | some b => exact .inr ⟨b, b, rfl, rfl, .refl b⟩
      · rw [hnone] at hb
        cases hb
  · exact hkeep _ htyped

theorem Inv.apply (h : Inv s) {unchanged : Bool} {env : UpdateEnv} (htype : val.type = p.declared)
    (hwithin : Within p.bounds val)
    (hmarked : p.persist = true → p.added = true → env.marked = true)
    (hequal : unchanged = true → p.persist = true → p.added = true → env.stores = true →
      ∀ k ∈ val.blob, ∃ b ∈ s.stored, Same k b) : Inv (s.apply p val unchanged env) := by
  have hparam : ∀ q ∈ some { p with val := val }, q.val.type = q.declared := by
    rintro q ⟨⟩
    exact htype
  let q : Param := { p with val := val }
  -- the value is stored, or it is in the NVS already
  have hstored : p.persist = true → Stored (q.store env.stores s.kept)
      (if !unchanged then q.store env.stores s.stored else s.stored) := by
    intro hpersist
    cases hunchanged : unchanged with
    | false => exact h.stored.store q env.stores
    | true =>
      show Stored _ s.stored
      rw [Param.store]
      split
      · next hstores =>
        cases hblob : val.blob with
        | none => exact h.stored
        | some k =>
          obtain ⟨b, hb, hsame⟩ := hequal hunchanged hpersist hstores.1 hstores.2 k hblob
          exact .inr ⟨k, b, rfl, hb, hsame⟩
      · exact h.stored
  rw [State.apply]
  dsimp only
  split
  · refine ⟨⟨hparam, ?_, ?_, h.compared⟩, ?_⟩
    · intro r hr
      rcases List.mem_cons.mp hr with rfl | hr
      · exact hwithin
      · exact h.within r hr
    · intro r hr
      rcases List.mem_cons.mp hr with rfl | hr
      · exact nofun
      · exact h.restored r hr
    · cases hpersist : p.persist with
      | true =>
        show Stored (q.store env.stores s.kept) (if (!unchanged && true) = true then _ else _)
        rw [Bool.and_true]
        exact hstored hpersist
      | false =>
        show Stored s.kept (if (!unchanged && false) = true then _ else _)
        rw [Bool.and_false, if_neg Bool.false_ne_true]
        exact h.stored
  · next hfailed =>
    refine ⟨⟨hparam, h.within, h.restored, h.compared⟩, ?_⟩
    show Stored s.kept (if (!unchanged && p.persist) = true then _ else _)
    split
    · next hstore =>
      -- a parameter without a parent is not stored
      rw [Param.store, if_neg]
      · exact h.stored
      · intro hstores
        exact hfailed (hmarked (Bool.and_eq_true_iff.mp hstore).2 hstores.1)
    · exact h.stored

theorem Inv.update (h : Inv s) (hp : s.param = some p) {env : UpdateEnv}
    (hguard : Careful s (.update val env)) : Inv (s.update p val env) := by
  obtain ⟨habsent, hmarked, hnumeric, hequal⟩ := hguard p hp
  rw [State.update]
  split
  · next hcompare => exact absurd hcompare habsent
  · exact h
  · next hnoabsent hvalid =>
    have htype : p.val.type = val.type := type_eq_of_compareEq hvalid
    split
    · exact h
    · next hin =>
      split
      · exact h
      · refine h.apply (htype.symm.trans (h.typed p hp)) ?_ hmarked ?_
        · rw [htype] at hin
          exact within_of_not_excludes hnumeric hin
        · exact fun heq => hequal (of_decide_eq_true heq)

/-- One careful step. -/
theorem Inv.step {a : Action} (h : Inv s) (hguard : Careful s a)
    (hstep : ParamValue.step s a = some t) : Inv t := by
  cases a with
  | create val persist copied =>
    rw [ParamValue.step] at hstep
    split at hstep
    · cases hstep
    · cases Option.some.inj hstep
      refine ⟨⟨?_, h.within, h.restored, h.compared⟩, h.stored⟩
      rintro p ⟨⟩
      exact type_create val persist copied
  | addBounds bounds allocated =>
    rw [ParamValue.step] at hstep
    split at hstep
    · cases hstep
    · obtain ⟨p, hp, rfl⟩ := Option.map_eq_some_iff.mp hstep
      obtain ⟨hval, hdeclared⟩ := p.addBounds_frame bounds allocated
      refine ⟨⟨?_, h.within, h.restored, h.compared⟩, h.stored⟩
      rintro q ⟨⟩
      rw [hval, hdeclared]
      exact h.typed p hp
  | addParam env =>
    rw [ParamValue.step] at hstep
    split at hstep
    · cases hstep
    · obtain ⟨p, hp, hstep⟩ := Option.bind_eq_some_iff.mp hstep
      split at hstep
      · cases hstep
      · cases Option.some.inj hstep
        exact h.addParam hp (hguard p hp)
  | update val env =>
    rw [ParamValue.step] at hstep
    split at hstep
    · cases hstep
    · obtain ⟨p, hp, rfl⟩ := Option.map_eq_some_iff.mp hstep
      exact h.update hp hguard
  | reboot =>
    cases Option.some.inj hstep
    refine ⟨⟨?_, h.within, h.restored, h.compared⟩, h.stored⟩
    intro p hp
    cases hp

/-- **Soundness** in every state of a run whose steps are careful. -/
theorem sound_of_careful (hs : Reach Initial step Careful s) : Sound s := by
  have hinv : Inv s :=
    hs.inv _ (fun _ => Inv.initial) fun _ _ _ h hguard hstep => h.step hguard hstep
  exact hinv.toSound

/-! ### Samples -/

/-- A firmware that declares an integer between 0 and `max`. -/
def declareInt (val max : Int32) : List Action :=
  [.create (.integer val) true true, .addBounds ⟨.integer 0, .integer max, .integer 1⟩ true,
    .addParam {}]

/-- The value is updated, the firmware is updated, and the value is there again. -/
theorem sound_sample : ∃ s, exec step {} (declareInt 5 100 ++ [.update (.integer 10) {},
      .update (.integer 10) {}, .reboot] ++ declareInt 7 50) = some s
    ∧ s.param.map Param.val = some (.integer 10) ∧ Sound s := by
  have hrun : Reach Initial step Careful _ := Reach.exec (declareInt 5 100 ++
    [.update (.integer 10) {}, .update (.integer 10) {}, .reboot] ++ declareInt 7 50)
    (.start rfl) (by decide +kernel) rfl
  exact ⟨_, rfl, rfl, sound_of_careful hrun⟩

/-- An integer is restored into a boolean, or beyond the new bounds. A failed store is not made up
for by an equal update. NULL is compared. A float that is no number passes its bounds. -/
theorem sound_fails :
    (∃ s, exec step {} (declareInt 5 100 ++ [.reboot, .create (.boolean true) true true,
        .addParam {}]) = some s
      ∧ s.param.map Param.val = some (.integer 5) ∧ s.param.map Param.declared = some .boolean
      ∧ ¬Sound s)
    ∧ (∃ s, exec step {} (declareInt 5 100 ++ [.update (.integer 80) {}, .reboot]
        ++ declareInt 5 50) = some s
      ∧ s.param.map Param.val = some (.integer 80) ∧ ¬Sound s)
    ∧ (∃ s, exec step {} (declareInt 5 100 ++ [.update (.integer 10) { stores := false },
        .update (.integer 10) {}, .reboot] ++ declareInt 5 100) = some s
      ∧ s.param.map Param.val = some (.integer 5) ∧ s.kept = some (.raw (.integer 10)) ∧ ¬Sound s)
    ∧ (∃ s, exec step {} [.create (.text .string (some ['a'])) true true, .addParam {},
        .update (.text .string none) {}] = some s ∧ s.crashed = true ∧ ¬Sound s)
    ∧ ∃ s, exec step {} [.create (.float 0) true true, .addBounds ⟨.float 0, .float 0, .float 0⟩ true,
        .addParam {}, .update (.float 0x7FC00000) {}] = some s
      ∧ s.param.map Param.val = some (.float 0x7FC00000) ∧ ¬Sound s := by
  refine ⟨⟨_, rfl, rfl, rfl, ?_⟩, ⟨_, rfl, rfl, ?_⟩, ⟨_, rfl, rfl, rfl, ?_⟩, ⟨_, rfl, rfl, ?_⟩,
    ⟨_, rfl, rfl, ?_⟩⟩
  · intro h
    exact absurd (h.typed _ rfl) (by decide +kernel)
  · intro h
    exact absurd h.within (by decide +kernel)
  · intro h
    exact absurd h.restored (by decide +kernel)
  · intro h
    cases h.compared
  · intro h
    exact absurd h.within (by decide +kernel)

end RainMakerNeo.Node.ParamValue
