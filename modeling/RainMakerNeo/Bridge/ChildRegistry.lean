import Mathlib.Data.List.Range
import Mathlib.Data.Nat.Basic
import Mathlib.Logic.Function.Basic
import RainMakerNeo.Lib.Run

/-!
# `RainMakerNeo.Bridge.ChildRegistry`: the children of a bridge and their requests

The bridge keeps its children in a pool of slots. `add_child` stages a slot and publishes a request,
and the `bridgeAck` promotes the slot or frees it. `remove_child` marks the slot, and the slot is
freed when the request is published. The requests wait for their acknowledgements in a table of
their own, whose entries expire.

The acknowledgement is matched with the entry by the request id, and the entry with the slot by the
thing name or the local id. Nothing else ties an entry to its slot. `Pending` and `Exact` are what
the two structures owe each other, and `Careful` is what this takes.

Each place where a call lets go of a lock is a step, so the runs are the interleavings of any number
of calls with the acknowledgements, which one task handles.
-/

set_option autoImplicit false

namespace RainMakerNeo.Bridge.Registry

open RainMakerNeo.Lib

/-! ### The model -/

/-- The characters of a C string. -/
abbrev Str := List Char

/-- `rmng_bridge_child_state_t`. -/
inductive ChildState
  | pendingAdd
  | ready
  | pendingRemove
  deriving DecidableEq, Repr

/-- `struct __bridge_child_slot` with its child. A free slot is zeroed. -/
structure Slot where
  inUse : Bool := false
  state : ChildState := .pendingAdd
  childSuffix : Str := []
  bridgeLocalId : Str := []
  thingName : Option Str := none
  /-- The call that staged or marked the slot. This does not exist in the code. -/
  request : Option Nat := none
  deriving DecidableEq, Repr

/-- `__pend_kind_t` with its part of the entry. -/
inductive Kind
  | add (childSuffix : Str)
  | remove
  deriving DecidableEq, Repr

/-- `__pending_entry_t`. -/
structure Entry (ρ : Type*) where
  kind : Kind
  requestId : ρ
  bridgeLocalId : Str
  insertedS : Int
  /-- The call that has registered the entry. This does not exist in the code. -/
  call : Nat
  deriving DecidableEq, Repr

/-- Where a call is. -/
inductive Place (ρ : Type*)
  /-- `bridge_to_cloud_publish_add_child` before the strings are copied. -/
  | addCopy
  | addName (childSuffix bridgeLocalId : Str)
  | addRegister (childSuffix bridgeLocalId : Str)
  | addPublish (requestId : ρ)
  /-- `esp_rmaker_bridge_add_child` before it frees the slot. -/
  | rollback
  /-- `bridge_to_cloud_publish_remove_child` before the strings are copied. -/
  | removeCopy
  | removeRegister (bridgeLocalId : Str)
  | removePublish (requestId : ρ) (bridgeLocalId : Str)
  /-- `bridge_handle_ack_success_remove_by_local_id` after the publish. -/
  | teardown (bridgeLocalId : Str)
  deriving DecidableEq, Repr

/-- A call of `esp_rmaker_bridge_add_child` or `esp_rmaker_bridge_remove_child`. -/
structure Call (ρ : Type*) where
  slot : Nat
  place : Place ρ
  deriving DecidableEq, Repr

/-- What a `bridgeAck` says. -/
inductive Answer
  | success (childNodeId : Str)
  /-- A success without a `child_node_id`. -/
  | missing
  | failure
  deriving DecidableEq, Repr

/-- The pool, the table, the calls under way, and the acknowledgement that is handled. The number of
a call does not exist in the code. -/
structure State (ρ : Type*) where
  slots : Nat → Slot := fun _ => {}
  table : Nat → Option (Entry ρ) := fun _ => none
  calls : Nat → Option (Call ρ) := fun _ => none
  /-- The entry that was taken for an acknowledgement. -/
  handling : Option (Entry ρ × Answer) := none
  nextCall : Nat := 0

/-- What happens next. -/
inductive Action (ρ : Type*)
  /-- `allocates` says that the strings of the slot are copied. -/
  | add (childSuffix bridgeLocalId : Str) (allocates : Bool)
  | remove (slot : Nat)
  /-- A call goes on to where it lets go of a lock. `ok` says that the strings are there, or that
  the message is published. -/
  | go (call : Nat) (ok : Bool)
  /-- A call registers a random id. The clock is read before and after the sweep. -/
  | register (call : Nat) (requestId : ρ) (now later : Int)
  /-- `bridge_internal_dispatch_from_cloud_event` takes the entry. -/
  | ack (requestId : ρ) (answer : Answer)
  /-- The rest of the dispatch. -/
  | handle
  deriving DecidableEq, Repr

/-- `bridge_internal_valid_suffix`. -/
def validSuffix (s : Str) : Bool :=
  !s.isEmpty && s.length ≤ 32 && s.all fun c => c.isAlphanum || c = '_'

/-- `__compute_child_thing_name`. -/
def childThingName (selfName childSuffix : Str) : Str := selfName ++ '-' :: '-' :: childSuffix

/-- `RMAKER_BRIDGE_LOCAL_ID_LEN_MAX`. -/
def localIdLenMax : Nat := 64

/-- `__PEND_EXPIRY_S`. -/
def pendExpiryS : Int := 60

/-- The first slot in use that fits. -/
def findSlot (size : Nat) (slots : Nat → Slot) (p : Slot → Bool) : Option Nat :=
  (List.range size).find? fun i => (slots i).inUse && p (slots i)

/-- `__find_by_local_id_locked`. -/
def findByLocalId (size : Nat) (slots : Nat → Slot) (bridgeLocalId : Str) : Option Nat :=
  findSlot size slots fun x => x.bridgeLocalId = bridgeLocalId

/-- `__find_by_thing_name_locked`. -/
def findByThingName (size : Nat) (slots : Nat → Slot) (thingName : Str) : Option Nat :=
  findSlot size slots fun x => x.thingName = some thingName

/-- The scan of `__alloc_child_locked`. -/
def freeSlot (size : Nat) (slots : Nat → Slot) : Option Nat :=
  (List.range size).find? fun i => !(slots i).inUse

variable {ρ : Type*}

/-- `__PEND_MAX`. -/
def pendMax (size : Nat) : Nat := 1 + size

/-- `__pend_sweep_expired_locked`. -/
def sweep (now : Int) (table : Nat → Option (Entry ρ)) (j : Nat) : Option (Entry ρ) :=
  (table j).filter fun e => ¬pendExpiryS < now - e.insertedS

/-- The scan of `__pend_register_add` and `__pend_register_remove`. -/
def freeEntry (size : Nat) (table : Nat → Option (Entry ρ)) : Option Nat :=
  (List.range (pendMax size)).find? fun j => (table j).isNone

variable [DecidableEq ρ]

/-- The scan of `__pend_take_by_request_id` and `__pend_drop_by_request_id`. -/
def findEntry (size : Nat) (table : Nat → Option (Entry ρ)) (requestId : ρ) : Option Nat :=
  (List.range (pendMax size)).find? fun j => (table j).any fun e => e.requestId = requestId

/-- `__pend_drop_by_request_id`. -/
def drop (size : Nat) (table : Nat → Option (Entry ρ)) (requestId : ρ) : Nat → Option (Entry ρ) :=
  match findEntry size table requestId with
  | some j => Function.update table j none
  | none => table

namespace State

def setSlot (s : State ρ) (i : Nat) (x : Slot) : State ρ :=
  { s with slots := Function.update s.slots i x }

def setCall (s : State ρ) (c : Nat) (call : Option (Call ρ)) : State ρ :=
  { s with calls := Function.update s.calls c call }

/-- `__free_child_locked`. -/
def free (s : State ρ) (i : Nat) : State ρ := if (s.slots i).inUse then s.setSlot i {} else s

/-- A call goes on. -/
def goTo (s : State ρ) (c i : Nat) (place : Place ρ) : State ρ := s.setCall c (some ⟨i, place⟩)

/-- A call returns. -/
def leave (s : State ρ) (c : Nat) : State ρ := s.setCall c none

/-- `esp_rmaker_bridge_add_child` up to the unlock. -/
def add (size : Nat) (s : State ρ) (childSuffix bridgeLocalId : Str) (allocates : Bool) : State ρ :=
  if validSuffix childSuffix ∧ bridgeLocalId ≠ [] then
    match findByLocalId size s.slots bridgeLocalId, freeSlot size s.slots with
    | none, some i =>
      if allocates then
        { (s.setSlot i
            { inUse := true, childSuffix, bridgeLocalId, request := some s.nextCall }).goTo
              s.nextCall i .addCopy with nextCall := s.nextCall + 1 }
      else s
    | _, _ => s
  else s

/-- `esp_rmaker_bridge_remove_child` up to the unlock. -/
def remove (s : State ρ) (i : Nat) : State ρ :=
  if (s.slots i).state = .ready then
    { (s.setSlot i { s.slots i with state := .pendingRemove, request := some s.nextCall }).goTo
        s.nextCall i .removeCopy with nextCall := s.nextCall + 1 }
  else s

/-- The next step of a call, apart from the registration. -/
def go (size : Nat) (selfName : Str) (s : State ρ) (c : Nat) (call : Call ρ) (ok : Bool) :
    Option (State ρ) :=
  let i := call.slot
  match call.place with
  | .addCopy =>
    some (if ok ∧ (s.slots i).inUse then
      s.goTo c i (.addName (s.slots i).childSuffix (s.slots i).bridgeLocalId) else s.goTo c i .rollback)
  | .addName childSuffix bridgeLocalId =>
    some (if ok then
      (s.setSlot i { s.slots i with thingName := some (childThingName selfName childSuffix) }).goTo c i
        (.addRegister childSuffix bridgeLocalId) else s.goTo c i .rollback)
  | .addPublish requestId =>
    some (if ok then s.leave c
      else { s.goTo c i .rollback with table := drop size s.table requestId })
  | .rollback => some ((s.free i).leave c)
  | .removeCopy =>
    some (if ok ∧ (s.slots i).thingName ≠ none then
      s.goTo c i (.removeRegister (s.slots i).bridgeLocalId) else s.leave c)
  | .removePublish requestId bridgeLocalId =>
    some (if ok then s.goTo c i (.teardown bridgeLocalId)
      else { s.leave c with table := drop size s.table requestId })
  | .teardown bridgeLocalId =>
    match findByLocalId size s.slots bridgeLocalId with
    | some j => some ((s.free j).leave c)
    | none => some (s.leave c)
  | .addRegister _ _ | .removeRegister _ => none

/-- A request is registered, where there is a free entry. -/
def enter (s : State ρ) (now : Int) (j : Nat) (e : Entry ρ) : State ρ :=
  { s with table := Function.update (sweep now s.table) j (some e) }

/-- `__pend_register_add` and `__pend_register_remove`. -/
def register (size : Nat) (s : State ρ) (c : Nat) (call : Call ρ) (requestId : ρ)
    (now later : Int) : Option (State ρ) :=
  let i := call.slot
  match call.place with
  | .addRegister childSuffix bridgeLocalId =>
    match freeEntry size (sweep now s.table) with
    | some j => some ((s.enter now j
        { kind := .add childSuffix, requestId, bridgeLocalId := bridgeLocalId.take localIdLenMax,
          insertedS := later, call := c }).goTo c i (.addPublish requestId))
    | none => some ({ s with table := sweep now s.table }.goTo c i .rollback)
  | .removeRegister bridgeLocalId =>
    match freeEntry size (sweep now s.table) with
    | some j => some ((s.enter now j
        { kind := .remove, requestId, bridgeLocalId := bridgeLocalId.take localIdLenMax,
          insertedS := later, call := c }).goTo c i (.removePublish requestId bridgeLocalId))
    | none => some ({ s with table := sweep now s.table }.leave c)
  | _ => none

/-- `bridge_handle_ack_success_add`. -/
def ackSuccessAdd (size : Nat) (s : State ρ) (childThingName : Str) : State ρ :=
  match findByThingName size s.slots childThingName with
  | some i =>
    if (s.slots i).state = .pendingAdd then s.setSlot i { s.slots i with state := .ready } else s
  | none => s

/-- `bridge_handle_ack_failure_add`. -/
def ackFailureAdd (size : Nat) (s : State ρ) (bridgeLocalId : Str) : State ρ :=
  match findByLocalId size s.slots bridgeLocalId with
  | some i => if (s.slots i).state = .pendingAdd then s.free i else s
  | none => s

/-- `bridge_internal_dispatch_from_cloud_event` after the entry was taken. -/
def dispatch (size : Nat) (s : State ρ) (e : Entry ρ) (answer : Answer) : State ρ :=
  match e.kind, answer with
  | .add _, .success childNodeId => s.ackSuccessAdd size childNodeId
  | .add _, .missing | .add _, .failure => s.ackFailureAdd size e.bridgeLocalId
  | .remove, _ => s

end State

/-- The next step. The pool has `size` slots, and `selfName` is the thing name of the bridge. -/
def step (size : Nat) (selfName : Str) (s : State ρ) : Action ρ → Option (State ρ)
  | .add childSuffix bridgeLocalId allocates => some (s.add size childSuffix bridgeLocalId allocates)
  | .remove i => if i < size then some (s.remove i) else none
  | .go c ok => (s.calls c).bind fun call => s.go size selfName c call ok
  | .register c requestId now later =>
    (s.calls c).bind fun call => s.register size c call requestId now later
  | .ack requestId answer =>
    if s.handling = none then
      match findEntry size s.table requestId with
      | some j => (s.table j).map fun e =>
          { s with table := Function.update s.table j none, handling := some (e, answer) }
      | none => some s
    else none
  | .handle => s.handling.map fun h => { s with handling := none }.dispatch size h.1 h.2

/-- Before the first call. -/
def Initial (s : State ρ) : Prop := s = {}

/-! ### The statement -/

namespace Place

/-- The call has staged a slot, and no request for it is registered. -/
def stages : Place ρ → Bool
  | .addCopy | .addName _ _ | .addRegister _ _ | .rollback => true
  | _ => false

/-- The call has marked a slot. -/
def marks : Place ρ → Bool
  | .removeCopy | .removeRegister _ | .removePublish _ _ | .teardown _ => true
  | _ => false

/-- The call goes on in `bridge_to_cloud_publish_remove_child` before the request is published. -/
def unpublished : Place ρ → Bool
  | .removeCopy | .removeRegister _ | .removePublish _ _ => true
  | _ => false

end Place

/-- The kind is `__PEND_KIND_ADD`. -/
def Entry.isAdd (e : Entry ρ) : Bool :=
  match e.kind with
  | .add _ => true
  | .remove => false

/-- The entry is in the table, or it was taken for the acknowledgement that is handled. -/
def State.Live (size : Nat) (s : State ρ) (e : Entry ρ) : Prop :=
  (∃ j < pendMax size, s.table j = some e) ∨ ∃ answer, s.handling = some (e, answer)

/-- Each staged slot has the entry of its own request, unless the call has not registered it yet or
takes the slot back. Each marked slot is in the hands of the call that has marked it. -/
structure Pending (size : Nat) (s : State ρ) : Prop where
  add : ∀ i, (s.slots i).inUse = true → (s.slots i).state = .pendingAdd →
    ∃ c, (s.slots i).request = some c ∧
      ((∃ call, s.calls c = some call ∧ call.slot = i ∧ call.place.stages = true) ∨
        ∃ e, s.Live size e ∧ e.isAdd = true ∧ e.call = c)
  remove : ∀ i, (s.slots i).inUse = true → (s.slots i).state = .pendingRemove →
    ∃ c call, (s.slots i).request = some c ∧ s.calls c = some call ∧ call.slot = i ∧
      call.place.marks = true

/-- What an answer does to the slot of the request. -/
def Answer.apply (answer : Answer) (x : Slot) : Slot :=
  match answer with
  | .success _ => { x with state := .ready }
  | .missing | .failure => {}

/-- The call that takes the step. -/
def Action.call : Action ρ → Option Nat
  | .go c _ | .register c _ _ _ => some c
  | _ => none

/-- What a step does to the slots. -/
structure Exact (size : Nat) (selfName : Str) (s : State ρ) (a : Action ρ) (t : State ρ) : Prop where
  /-- The answer to a request is for the slot of that request. -/
  answered : a = .handle → ∀ e answer, s.handling = some (e, answer) → e.isAdd = true →
    ∃ i < size, (s.slots i).inUse = true ∧ (s.slots i).state = .pendingAdd ∧
      (s.slots i).request = some e.call ∧
      t.slots = Function.update s.slots i (answer.apply (s.slots i))
  /-- A call that fails frees the slot that it has staged. -/
  failed : ∀ c ok i, a = .go c ok → s.calls c = some ⟨i, .rollback⟩ →
    (s.slots i).inUse = true ∧ (s.slots i).request = some c ∧
      t.slots = Function.update s.slots i {}
  /-- A removal that returns an error has not changed the state of the child. -/
  refused : ∀ i, a = .remove i → (s.slots i).state ≠ .ready → t = s
  /-- A removal that returns an error after that leaves the child as it was. -/
  unpublished : ∀ c call, a.call = some c → s.calls c = some call →
    call.place.unpublished = true → t.calls c = none → (t.slots call.slot).state = .ready

/-- The step of a call, apart from the registration. -/
def Place.Careful (size : Nat) (s : State ρ) (c : Nat) (ok : Bool) : Place ρ → Prop
  | .addPublish requestId => ok = false → ∃ j < pendMax size,
    ((s.table j).any fun e => e.isAdd ∧ e.call = c ∧ e.requestId = requestId) = true
  | .removeCopy | .removePublish _ _ => ok = true
  | _ => True

/-- The registration of a request. -/
def Place.CarefulEntry (size : Nat) (table : Nat → Option (Entry ρ)) (requestId : ρ) (now : Int)
    (place : Place ρ) : Prop :=
  (∀ j < pendMax size, ∀ e, table j = some e → e.isAdd = true → sweep now table j = some e) ∧
    (∀ j < pendMax size, ∀ e, sweep now table j = some e → e.requestId ≠ requestId) ∧
    (place.marks = true → freeEntry size (sweep now table) ≠ none)

/-- An answer to the request of a slot. -/
def Answer.Careful (selfName : Str) (s : State ρ) (i : Nat) (childSuffix : Str) : Answer → Prop
  | .success childNodeId =>
    childNodeId = childThingName selfName childSuffix ∧
      ∀ j < i, (s.slots j).inUse = true → (s.slots j).thingName ≠ some childNodeId
  | .missing | .failure => (s.slots i).bridgeLocalId.length ≤ localIdLenMax

/-- The random ids differ, no entry of an add expires, and a removal does not fail after it has
marked the child. A publish of an add fails only while it is unanswered. A success comes with the
thing name of the child, which no child in an earlier slot has, and a failure is for a local id that
the entry holds as a whole. -/
def Careful (size : Nat) (selfName : Str) (s : State ρ) : Action ρ → Prop
  | .go c ok => ∀ call, s.calls c = some call → call.place.Careful size s c ok
  | .register c requestId now _ =>
    ∀ call, s.calls c = some call → call.place.CarefulEntry size s.table requestId now
  | .handle => ∀ e answer, s.handling = some (e, answer) → ∀ childSuffix, e.kind = .add childSuffix →
    ∀ i < size, (s.slots i).request = some e.call → answer.Careful selfName s i childSuffix
  | _ => True

/-! ### The scans -/

variable {size : Nat}

section Scans

omit [DecidableEq ρ]

variable {slots : Nat → Slot} {table : Nat → Option (Entry ρ)}

theorem findSlot_some {p : Slot → Bool} {i : Nat} :
    findSlot size slots p = some i ↔ ((slots i).inUse = true ∧ p (slots i) = true) ∧ i < size ∧
      ∀ j < i, (slots j).inUse = true → p (slots j) = false := by
  rw [findSlot, List.find?_range_eq_some]
  simp [Bool.and_eq_true, imp_iff_not_or]

theorem findSlot_none {p : Slot → Bool} :
    findSlot size slots p = none ↔ ∀ i < size, (slots i).inUse = true → p (slots i) = false := by
  rw [findSlot, List.find?_eq_none]
  simp

theorem freeSlot_some {i : Nat} (h : freeSlot size slots = some i) :
    (slots i).inUse = false ∧ i < size := by
  rw [freeSlot, List.find?_range_eq_some] at h
  obtain ⟨hfree, hi, -⟩ := h
  exact ⟨by simpa using hfree, List.mem_range.mp hi⟩

theorem freeEntry_some {j : Nat} (h : freeEntry size table = some j) :
    table j = none ∧ j < pendMax size := by
  rw [freeEntry, List.find?_range_eq_some] at h
  obtain ⟨hfree, hj, -⟩ := h
  exact ⟨Option.isNone_iff_eq_none.mp hfree, List.mem_range.mp hj⟩

theorem sweep_some {now : Int} {j : Nat} {e : Entry ρ} (h : sweep now table j = some e) :
    table j = some e :=
  (Option.filter_eq_some_iff.mp h).1

end Scans

variable {table : Nat → Option (Entry ρ)}

theorem findEntry_some {r : ρ} {j : Nat} (h : findEntry size table r = some j) :
    j < pendMax size ∧ ∃ e, table j = some e ∧ e.requestId = r := by
  rw [findEntry, List.find?_range_eq_some] at h
  obtain ⟨hhit, hj, -⟩ := h
  rw [Option.any_eq_true] at hhit
  obtain ⟨e, he, hr⟩ := hhit
  exact ⟨List.mem_range.mp hj, e, he, by simpa using hr⟩

theorem findEntry_none {r : ρ} (h : findEntry size table r = none) {j : Nat}
    (hj : j < pendMax size) {e : Entry ρ} (he : table j = some e) : e.requestId ≠ r := by
  rw [findEntry, List.find?_eq_none] at h
  have hmiss := h j (List.mem_range.mpr hj)
  rw [he] at hmiss
  simpa using hmiss

end RainMakerNeo.Bridge.Registry
