import RainMakerNeo.Lib.Run

/-!
# `RainMakerNeo.State.UpdateList`: the pending updates of a node

A node keeps a list of what its next shadow report has to tell. A parameter entry names a device and
a parameter by their addresses. A synthetic entry carries the online state or the version of the
node configuration. An insert replaces an entry of the same kind, or puts a new one in its place.

`Pending.sorted` says what every list keeps: the parameter entries stand in descending order of the
addresses, with the synthetic entries anywhere between them.
-/

set_option autoImplicit false

namespace RainMakerNeo.State

open RainMakerNeo.Lib

/-- `_esp_rmaker_state_update_id_t`: the addresses of a device and of one of its parameters. -/
structure UpdateId where
  device : Nat
  param : Nat
  deriving DecidableEq, Repr

/-- `data_model_state_update_id_compare`. -/
def UpdateId.compare (a b : UpdateId) : Int :=
  if a.device ≠ b.device then if a.device < b.device then -1 else 1
  else if a.param ≠ b.param then if a.param < b.param then -1 else 1
  else 0

/-- `RMAKER_STATE_UPDATE_FLAG_ONLINE`. -/
def flagOnline : Nat := 1

/-- `RMAKER_STATE_UPDATE_FLAG_NCFG_VER`. -/
def flagNcfgVer : Nat := 2

/-- `esp_rmaker_state_update_flag_payload_t`. -/
structure FlagPayload where
  onlineValue : Bool := false
  ncfgVerHash : List UInt8 := []
  deriving DecidableEq, Repr

/-- `esp_rmaker_state_update_info_t`. An entry with flags has no update id. -/
inductive UpdateInfo
  | param (updateId : UpdateId) (timestampMs : Nat)
  | flag (flags : Nat) (payload : FlagPayload) (timestampMs : Nat)
  deriving DecidableEq, Repr

/-- The answers of an insert. -/
inductive InsertResult
  | ok | alreadyExists | noMem
  deriving DecidableEq, Repr

/-- The payload of a synthetic entry that is there already. -/
def FlagPayload.replace (old : FlagPayload) (flags : Nat) (new : FlagPayload) : FlagPayload :=
  if flags &&& flagOnline ≠ 0 then { old with onlineValue := new.onlineValue }
  else if flags &&& flagNcfgVer ≠ 0 then { old with ncfgVerHash := new.ncfgVerHash }
  else old

/-- `__insert_into_node_locked_full` for a parameter. Only a new entry asks the allocator. -/
def insertParam (u : UpdateId) (timestampMs : Nat) (allocated : Bool) :
    List UpdateInfo → List UpdateInfo × InsertResult
  | [] => if allocated then ([.param u timestampMs], .ok) else ([], .noMem)
  | .flag flags payload t :: rest =>
    let (rest, result) := insertParam u timestampMs allocated rest
    (.flag flags payload t :: rest, result)
  | .param v t :: rest =>
    if u.compare v = 0 then (.param u timestampMs :: rest, .alreadyExists)
    else if u.compare v > 0 then
      if allocated then (.param u timestampMs :: .param v t :: rest, .ok)
      else (.param v t :: rest, .noMem)
    else
      let (rest, result) := insertParam u timestampMs allocated rest
      (.param v t :: rest, result)

/-- `__insert_into_node_locked_full` for a synthetic entry. -/
def insertFlag (flags : Nat) (payload : FlagPayload) (timestampMs : Nat) (allocated : Bool) :
    List UpdateInfo → List UpdateInfo × InsertResult
  | [] => if allocated then ([.flag flags payload timestampMs], .ok) else ([], .noMem)
  | .flag flags' payload' t :: rest =>
    if flags' = flags then
      (.flag flags' (payload'.replace flags payload) timestampMs :: rest, .alreadyExists)
    else
      let (rest, result) := insertFlag flags payload timestampMs allocated rest
      (.flag flags' payload' t :: rest, result)
  | .param v t :: rest =>
    let (rest, result) := insertFlag flags payload timestampMs allocated rest
    (.param v t :: rest, result)

/-- The update ids of the parameter entries. -/
def updateIds : List UpdateInfo → List UpdateId
  | [] => []
  | .param u _ :: rest => u :: updateIds rest
  | .flag _ _ _ :: rest => updateIds rest

/-! ### The order -/

/-- The first update id stands before the second. -/
def UpdateId.Before (a b : UpdateId) : Prop :=
  b.device < a.device ∨ b.device = a.device ∧ b.param < a.param

/-- The list is sorted. -/
def Sorted (l : List UpdateInfo) : Prop := (updateIds l).Pairwise UpdateId.Before

theorem UpdateId.Before.trans {a b c : UpdateId} (h : a.Before b) (h' : b.Before c) :
    a.Before c := by
  rw [Before] at h h' ⊢
  omega

theorem UpdateId.Before.total {a b : UpdateId} (h : a ≠ b) : a.Before b ∨ b.Before a := by
  by_cases hdevice : a.device = b.device
  · have hparam : a.param ≠ b.param := by
      intro hparam
      obtain ⟨d, p⟩ := a
      obtain ⟨d', p'⟩ := b
      exact h (UpdateId.mk.injEq d p d' p' ▸ ⟨hdevice, hparam⟩)
    rw [Before, Before]
    omega
  · rw [Before, Before]
    omega

theorem compare_eq_zero {a b : UpdateId} : a.compare b = 0 ↔ a = b := by
  obtain ⟨d, p⟩ := a
  obtain ⟨d', p'⟩ := b
  rw [UpdateId.compare, UpdateId.mk.injEq]
  dsimp only
  split
  · next h =>
    refine iff_of_false ?_ fun heq => h heq.1
    split <;> decide
  · next h =>
    rw [ne_eq, Decidable.not_not] at h
    split
    · next h' =>
      refine iff_of_false ?_ fun heq => h' heq.2
      split <;> decide
    · next h' =>
      rw [ne_eq, Decidable.not_not] at h'
      exact iff_of_true rfl ⟨h, h'⟩

theorem compare_pos {a b : UpdateId} : 0 < a.compare b ↔ a.Before b := by
  rw [UpdateId.compare, UpdateId.Before]
  split
  · split
    · exact iff_of_false (by decide) (by omega)
    · exact iff_of_true (by decide) (by omega)
  · split
    · split
      · exact iff_of_false (by decide) (by omega)
      · exact iff_of_true (by decide) (by omega)
    · exact iff_of_false (by decide) (by omega)

variable {allocated : Bool} {l : List UpdateInfo}

/-- An insert of a parameter adds its update id, and no other. -/
theorem mem_updateIds_insertParam {u v : UpdateId} {t : Nat}
    (h : v ∈ updateIds (insertParam u t allocated l).1) : v = u ∨ v ∈ updateIds l := by
  induction l with
  | nil =>
    rw [insertParam] at h
    split at h
    · exact .inl (List.mem_singleton.mp h)
    · cases h
  | cons e rest ih =>
    cases e with
    | flag flags payload t' => exact ih h
    | param w t' =>
      rw [insertParam] at h
      split at h
      · next hzero =>
        rcases List.mem_cons.mp h with h | h
        · exact .inl h
        · exact .inr (List.mem_cons_of_mem w h)
      · split at h
        · split at h
          · rcases List.mem_cons.mp h with h | h
            · exact .inl h
            · exact .inr h
          · exact .inr h
        · rcases List.mem_cons.mp h with h | h
          · exact .inr (h ▸ List.mem_cons_self)
          · exact (ih h).imp id (List.mem_cons_of_mem w)

theorem insertParam_sorted {u : UpdateId} {t : Nat} (h : Sorted l) :
    Sorted (insertParam u t allocated l).1 := by
  induction l with
  | nil =>
    rw [insertParam]
    split
    · exact List.pairwise_singleton _ u
    · exact .nil
  | cons e rest ih =>
    cases e with
    | flag flags payload t' => exact ih h
    | param w t' =>
      obtain ⟨hw, hrest⟩ := List.pairwise_cons.mp h
      rw [insertParam]
      split
      · next hzero =>
        rw [compare_eq_zero.mp hzero]
        exact h
      · next hzero =>
        split
        · next hpos =>
          have hbefore := compare_pos.mp hpos
          split
          · refine List.pairwise_cons.mpr ⟨?_, h⟩
            refine List.forall_mem_cons.mpr ⟨hbefore, ?_⟩
            exact fun v hv => hbefore.trans (hw v hv)
          · exact h
        · next hpos =>
          refine List.pairwise_cons.mpr ⟨?_, ih hrest⟩
          intro v hv
          rcases mem_updateIds_insertParam hv with rfl | hv
          · have hne : v ≠ w := fun heq => hzero (compare_eq_zero.mpr heq)
            exact (UpdateId.Before.total hne).resolve_left fun h => hpos (compare_pos.mpr h)
          · exact hw v hv

/-- An insert of a synthetic entry leaves the parameter entries alone. -/
theorem updateIds_insertFlag {flags : Nat} {payload : FlagPayload} {t : Nat} :
    updateIds (insertFlag flags payload t allocated l).1 = updateIds l := by
  induction l with
  | nil =>
    rw [insertFlag]
    split <;> rfl
  | cons e rest ih =>
    cases e with
    | param v t' => exact congrArg (v :: ·) ih
    | flag flags' payload' t' =>
      rw [insertFlag]
      split
      · rfl
      · exact ih

/-! ### Pending lists -/

/-- What happens to the list of a node. -/
inductive PendingAction
  | param (u : UpdateId) (timestampMs : Nat) (allocated : Bool)
  | flag (flags : Nat) (payload : FlagPayload) (timestampMs : Nat) (allocated : Bool)
  /-- `__reset_node_update_list_locked`. -/
  | reset
  deriving DecidableEq, Repr

/-- The list after it. -/
def pendingStep (l : List UpdateInfo) : PendingAction → Option (List UpdateInfo)
  | .param u t allocated => some (insertParam u t allocated l).1
  | .flag flags payload t allocated => some (insertFlag flags payload t allocated l).1
  | .reset => some []

/-- The lists that a node can have. -/
def Pending (l : List UpdateInfo) : Prop := Reach (· = []) pendingStep (fun _ _ => True) l

/-- Every list of a node is sorted. -/
theorem Pending.sorted (h : Pending l) : Sorted l := by
  refine h.inv Sorted ?_ ?_
  · rintro _ rfl
    exact .nil
  · intro l a l' hl _ hstep
    cases a with
    | param u t allocated =>
      obtain rfl := Option.some.inj hstep
      exact insertParam_sorted hl
    | flag flags payload t allocated =>
      obtain rfl := Option.some.inj hstep
      rw [Sorted, updateIds_insertFlag]
      exact hl
    | reset =>
      obtain rfl := Option.some.inj hstep
      exact .nil

end RainMakerNeo.State
