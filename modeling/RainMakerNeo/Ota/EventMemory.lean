import RainMakerNeo.Lib.Heap
import RainMakerNeo.Lib.Ledger
import RainMakerNeo.Ota.JobsContext

/-!
# `RainMakerNeo.Ota.EventMemory`: the memory of the job events

A posted event is copied. A copy without a payload takes a slot of a static pool, as long as there
is one, and any other copy is made of up to three heap blocks: the event, its payload and the data
of the payload. `copyEventData` and `freeEventData` are the two functions that make and end a copy.

`Owned` is the ledger of this memory. The free slots and the events of the list own each slot of the
pool and each live block once. `Owned.copyEventData` and `Owned.freeEventData` say how the two
functions change the list.
-/

set_option autoImplicit false

namespace RainMakerNeo.Ota.Events

open RainMakerNeo.Lib
open RainMakerNeo.Ota.Jobs (DownloadFailure CustomReport)

/-! ### Data -/

/-- `ota_job_event_t`. -/
inductive JobEvent
  | emptyTransition
  | errorOccurred
  | rebootCheckRequested
  | finalStatusReportRequested
  | fetchRequested
  | jobsChanged
  | pendingJobsAccepted
  | pendingJobsRejected
  | jobDocAccepted
  | jobDocRejected
  | updateAccepted
  | updateRejected
  | timeout
  | imageDownloadProgress
  | imageDownloadSucceeded
  | imageDownloadFailed (failure : DownloadFailure)
  | customJobExecutionRequested
  | customJobReport (report : CustomReport)
  | recoveryRequested
  deriving DecidableEq, Repr

/-- `ota_job_event_data_payload_t` in the memory of a copy. `data` is the block with the copied
data. A pointer that is kept as it is has no block, and the length 0. -/
structure Payload where
  data : Option Nat := none
  len : Nat := 0
  deriving DecidableEq, Repr

/-- `ota_job_event_data_t`. `payload` is the address of the payload, and 0 is the null pointer of
`fixed_data`. -/
structure EventData where
  event : JobEvent := .rebootCheckRequested
  payload : Option Nat := none
  fixedData : Nat := 0
  deriving DecidableEq, Repr

/-- The payload of an event that is posted. -/
structure PayloadArg where
  hasData : Bool := true
  len : Nat := 1
  deriving DecidableEq, Repr

/-- An event that is posted. It stays with the poster. -/
structure Message where
  event : JobEvent
  payload : Option PayloadArg := none
  fixedData : Nat := 0
  deriving DecidableEq, Repr

/-- A heap block of a copy. -/
inductive Block
  | event (e : EventData)
  | payload (p : Payload)
  | data (len : Nat)
  deriving DecidableEq, Repr

/-- A pointer to a copy: to a slot of `g_event_pool_slots`, or to a heap block. -/
inductive Ptr
  | slot (i : Nat)
  | heap (a : Nat)
  deriving DecidableEq, Repr

/-- The pointer leads to a slot. -/
def Ptr.isSlot : Ptr → Bool
  | .slot _ => true
  | .heap _ => false

/-- What a copy may own. -/
inductive Resource
  | slot (i : Nat)
  | block (a : Nat)
  deriving DecidableEq, Repr

/-- The event pool and the heap. -/
structure Mem where
  /-- `g_event_pool_free_queue`, `none` for the null handle. -/
  freeQueue : Option (List Nat) := none
  /-- `g_event_pool_slots`. -/
  slots : Nat → EventData := fun _ => {}
  heap : Heap Block := .empty
  /-- A freed block was read, written or freed. -/
  fault : Bool := false

/-- Which allocations of a copy go well. -/
structure CopyEnv where
  event : Bool := true
  payload : Bool := true
  data : Bool := true
  deriving DecidableEq, Repr

/-! ### The functions -/

namespace Mem

/-- `OSAL_CALLOC_EXTRAM`. -/
def calloc (m : Mem) (b : Block) : Mem × Nat :=
  ({ m with heap := (m.heap.alloc b).1 }, (m.heap.alloc b).2)

/-- A write to a block. -/
def write (m : Mem) (a : Nat) (b : Block) : Mem :=
  match m.heap.store a b with
  | some heap => { m with heap := heap }
  | none => { m with fault := true }

/-- `free`. -/
def release (m : Mem) (a : Nat) : Mem :=
  match m.heap.free a with
  | some heap => { m with heap := heap }
  | none => { m with fault := true }

/-- `event_pool_init`, where the queue is made. Each slot is cleared and sent to the queue. -/
def eventPoolInit (size : Nat) (m : Mem) : Mem :=
  if m.freeQueue.isSome then m
  else { m with freeQueue := some (List.range size), slots := fun _ => {} }

/-- `event_pool_deinit`. -/
def eventPoolDeinit (m : Mem) : Mem := { m with freeQueue := none }

/-- `event_pool_take`. -/
def eventPoolTake (m : Mem) : Option (Mem × Nat) :=
  match m.freeQueue with
  | some (i :: rest) => some ({ m with freeQueue := some rest }, i)
  | _ => none

/-- `event_pool_return` for a slot. A send to a full queue, or to none, is lost. -/
def eventPoolReturn (size : Nat) (m : Mem) (i : Nat) : Mem :=
  let m := { m with slots := Function.update m.slots i {} }
  match m.freeQueue with
  | none => m
  | some queue => if queue.length < size then { m with freeQueue := some (queue ++ [i]) } else m

/-- The part of `free_event_data` for a payload. -/
def freePayload (m : Mem) (b : Nat) : Mem :=
  match m.heap.load b with
  | some (.payload p) =>
    match p.data with
    | some c => if p.len > 0 then (m.release c).release b else m.release b
    | none => m.release b
  | _ => { m with fault := true }

/-- `free_event_data`. -/
def freeEventData (size : Nat) (m : Mem) : Ptr → Mem
  | .slot i => m.eventPoolReturn size i
  | .heap a =>
    match m.heap.load a with
    | some (.event e) =>
      match e.payload with
      | some b => (m.freePayload b).release a
      | none => m.release a
    | _ => { m with fault := true }

/-- The part of `copy_event_data` for a payload, behind the allocation of the event. -/
def copyPayload (size : Nat) (m : Mem) (a : Nat) (e : EventData) (arg : PayloadArg)
    (env : CopyEnv) : Mem × Option Ptr :=
  if env.payload = false then (m.release a, none)
  else
    let (m, b) := m.calloc (.payload { len := arg.len })
    let m := m.write a (.event { e with payload := some b })
    if arg.hasData ∧ arg.len > 0 then
      if env.data = false then (m.freeEventData size (.heap a), none)
      else
        let (m, c) := m.calloc (.data arg.len)
        (m.write b (.payload { data := some c, len := arg.len }), some (.heap a))
    else (m.write b (.payload {}), some (.heap a))

/-- The part of `copy_event_data` that makes a copy on the heap. -/
def copyToHeap (size : Nat) (m : Mem) (msg : Message) (env : CopyEnv) : Mem × Option Ptr :=
  if env.event = false then (m, none)
  else
    let e : EventData := { event := msg.event, fixedData := msg.fixedData }
    let (m, a) := m.calloc (.event e)
    match msg.payload with
    | none => (m, some (.heap a))
    | some arg => m.copyPayload size a e arg env

/-- `copy_event_data`. -/
def copyEventData (size : Nat) (m : Mem) (msg : Message) (env : CopyEnv) : Mem × Option Ptr :=
  if msg.payload.isNone then
    match m.eventPoolTake with
    | some (m, i) =>
      let e : EventData := { event := msg.event, fixedData := msg.fixedData }
      ({ m with slots := Function.update m.slots i e }, some (.slot i))
    | none => m.copyToHeap size msg env
  else m.copyToHeap size msg env

/-- The event at a pointer. -/
def loadEvent (m : Mem) : Ptr → Option EventData
  | .slot i => some (m.slots i)
  | .heap a =>
    match m.heap.load a with
    | some (.event e) => some e
    | _ => none

/-! ### Ownership -/

/-- The blocks of a payload. -/
def payloadBlocks (m : Mem) (b : Nat) : List Nat :=
  match m.heap.load b with
  | some (.payload p) => b :: if p.len > 0 then p.data.toList else []
  | _ => [b]

/-- The blocks of an event on the heap. -/
def eventBlocks (m : Mem) (a : Nat) : List Nat :=
  match m.heap.load a with
  | some (.event e) => a :: e.payload.elim [] m.payloadBlocks
  | _ => [a]

/-- What a copy owns. -/
def owns (m : Mem) : Ptr → List Resource
  | .slot i => [.slot i]
  | .heap a => (m.eventBlocks a).map .block

/-- The slots of the pool and the live blocks. -/
def Live (size : Nat) (m : Mem) : Resource → Prop
  | .slot i => m.freeQueue.isSome ∧ i < size
  | .block a => m.heap.Live a

instance (size : Nat) (m : Mem) : ∀ r, Decidable (m.Live size r)
  | .slot _ => inferInstanceAs (Decidable (_ ∧ _))
  | .block a => inferInstanceAs (Decidable (m.heap.Live a))

/-- The slots in the free queue. -/
def freeSlots (m : Mem) : List Ptr := (m.freeQueue.getD []).map .slot

/-- A pointer leads to an event, and the event to its payload. -/
def Typed (m : Mem) : Ptr → Prop
  | .slot _ => True
  | .heap a => ∃ e, m.heap.load a = some (.event e) ∧
      ∀ b, e.payload = some b → ∃ p, m.heap.load b = some (.payload p)

end Mem

/-- The free slots and the events of the list own each slot of the pool and each live block once. -/
structure Owned (size : Nat) (m : Mem) (held : List Ptr) : Prop where
  owner : OneOwner m.owns (m.Live size) (m.freeSlots ++ held)
  typed : ∀ p ∈ held, m.Typed p
  sound : m.fault = false

/-! ### One access -/

namespace Mem

variable {m : Mem} {a q : Nat} {b : Block}

@[simp] theorem calloc_freeQueue : (m.calloc b).1.freeQueue = m.freeQueue := rfl

@[simp] theorem calloc_fault : (m.calloc b).1.fault = m.fault := rfl

@[simp] theorem load_calloc_self : (m.calloc b).1.heap.load (m.calloc b).2 = some b :=
  Heap.load_alloc_self

theorem ne_calloc_of_live (hq : m.heap.Live q) : q ≠ (m.calloc b).2 :=
  Heap.ne_alloc_of_live (b := b) hq

theorem load_calloc_of_live (hq : m.heap.Live q) : (m.calloc b).1.heap.load q = m.heap.load q :=
  Heap.load_alloc_of_live hq

@[simp] theorem write_freeQueue : (m.write a b).freeQueue = m.freeQueue := by
  rw [write]
  split <;> rfl

@[simp] theorem release_freeQueue : (m.release a).freeQueue = m.freeQueue := by
  rw [release]
  split <;> rfl

theorem write_of_live (ha : m.heap.Live a) :
    (m.write a b).fault = m.fault ∧ (m.write a b).heap.load a = some b ∧
      ∀ q, q ≠ a → (m.write a b).heap.load q = m.heap.load q := by
  obtain ⟨heap, hstore⟩ := Heap.exists_store (b := b) ha
  rw [write, hstore]
  exact ⟨rfl, Heap.load_store_self hstore, fun q hq => Heap.load_store_of_ne hstore hq⟩

theorem release_of_live (ha : m.heap.Live a) :
    (m.release a).fault = m.fault ∧ (m.release a).heap.load a = none ∧
      ∀ q, q ≠ a → (m.release a).heap.load q = m.heap.load q := by
  obtain ⟨heap, hfree⟩ := Heap.exists_free ha
  rw [release, hfree]
  exact ⟨rfl, Heap.load_free_self hfree, fun q hq => Heap.load_free_of_ne hfree hq⟩

/-! ### What other memory does not change -/

variable {m' : Mem} {p : Ptr}

/-- What a copy owns depends on its own blocks only. -/
theorem owns_congr (h : ∀ a, .block a ∈ m.owns p → m'.heap.load a = m.heap.load a) :
    m'.owns p = m.owns p := by
  cases p with
  | slot i => rfl
  | heap a =>
    have hblocks : ∀ x ∈ m.eventBlocks a, m'.heap.load x = m.heap.load x :=
      fun x hx => h x (List.mem_map_of_mem hx)
    show (m'.eventBlocks a).map _ = (m.eventBlocks a).map _
    rw [eventBlocks] at hblocks
    rw [eventBlocks, eventBlocks]
    cases hload : m.heap.load a with
    | none =>
      rw [hload] at hblocks
      rw [hblocks a List.mem_cons_self, hload]
    | some block =>
      cases block with
      | event e =>
        rw [hload] at hblocks
        rw [hblocks a List.mem_cons_self, hload]
        cases hpayload : e.payload with
        | none => simp [hpayload]
        | some b =>
          -- The payload is a block of the event, so it is the same as well.
          have hb : m'.heap.load b = m.heap.load b := by
            apply hblocks b
            simp only [hpayload, payloadBlocks, Option.elim]
            split <;> simp
          simp [hpayload, payloadBlocks, hb]
      | payload _ =>
        rw [hload] at hblocks
        rw [hblocks a List.mem_cons_self, hload]
      | data _ =>
        rw [hload] at hblocks
        rw [hblocks a List.mem_cons_self, hload]

theorem flatMap_owns_slots (m : Mem) (queue : List Nat) :
    (queue.map Ptr.slot).flatMap m.owns = queue.map .slot := by
  induction queue with
  | nil => rfl
  | cons i queue ih => rw [List.map_cons, List.flatMap_cons, ih, List.map_cons]; rfl

theorem mem_eventBlocks_self : a ∈ m.eventBlocks a := by
  rw [eventBlocks]
  split <;> exact List.mem_cons_self

theorem mem_eventBlocks_payload {e : EventData} {b : Nat} (hload : m.heap.load a = some (.event e))
    (hb : e.payload = some b) : b ∈ m.eventBlocks a := by
  simp only [eventBlocks, hload, hb, Option.elim, payloadBlocks]
  split <;> simp

/-- The type of a copy depends on its own blocks only. -/
theorem Typed.congr (ht : m.Typed p)
    (h : ∀ a, .block a ∈ m.owns p → m'.heap.load a = m.heap.load a) : m'.Typed p := by
  cases p with
  | slot i => trivial
  | heap a =>
    obtain ⟨e, hload, hpayload⟩ := ht
    refine ⟨e, ?_, ?_⟩
    · rw [h a (List.mem_map_of_mem mem_eventBlocks_self), hload]
    · intro b hb
      obtain ⟨payload, hp⟩ := hpayload b hb
      exact ⟨payload, by rw [h b (List.mem_map_of_mem (mem_eventBlocks_payload hload hb)), hp]⟩

/-! ### New blocks -/

/-- The memory has new blocks, and the old ones are as they were. -/
structure Extends (m m' : Mem) (new : List Nat) : Prop where
  load : ∀ a, m.heap.Live a → m'.heap.load a = m.heap.load a
  live : ∀ a, m'.heap.Live a ↔ a ∈ new ∨ m.heap.Live a
  fresh : ∀ a ∈ new, ¬m.heap.Live a
  freeQueue : m'.freeQueue = m.freeQueue
  fault : m'.fault = m.fault

namespace Extends

variable {new rest : List Nat}

theorem refl (m : Mem) : Extends m m [] where
  load _ _ := rfl
  live := by simp
  fresh := by simp
  freeQueue := rfl
  fault := rfl

theorem calloc (h : Extends m m' new) (b : Block) :
    Extends m (m'.calloc b).1 ((m'.calloc b).2 :: new) where
  load a ha := by
    rw [load_calloc_of_live ((h.live a).mpr (.inr ha)), h.load a ha]
  live a := by
    by_cases hself : a = (m'.calloc b).2
    · simp [hself, Heap.Live]
    · have hother : (m'.calloc b).1.heap.load a = m'.heap.load a := Heap.load_alloc_of_ne hself
      have hlive := h.live a
      rw [Heap.Live] at hlive
      rw [Heap.Live, hother, hlive, List.mem_cons, or_assoc]
      simp [hself]
  fresh a ha := by
    rcases List.mem_cons.mp ha with rfl | ha
    · intro hold
      exact ne_calloc_of_live (b := b) ((h.live _).mpr (.inr hold)) rfl
    · exact h.fresh a ha
  freeQueue := h.freeQueue
  fault := h.fault

theorem write (h : Extends m m' new) (ha : a ∈ new) (b : Block) : Extends m (m'.write a b) new := by
  obtain ⟨hfault, hself, hother⟩ := write_of_live (b := b) ((h.live a).mpr (.inl ha))
  have hne {q : Nat} (hq : m.heap.Live q) : q ≠ a := by
    rintro rfl
    exact h.fresh q ha hq
  refine ⟨?_, ?_, h.fresh, by rw [write_freeQueue, h.freeQueue], by rw [hfault, h.fault]⟩
  · intro q hq
    rw [hother q (hne hq), h.load q hq]
  · intro q
    by_cases hq : q = a
    · subst hq
      simp [Heap.Live, hself, ha]
    · rw [← h.live q, Heap.Live, Heap.Live, hother q hq]

theorem release (h : Extends m m' (a :: rest)) (hrest : a ∉ rest) :
    Extends m (m'.release a) rest := by
  obtain ⟨hfault, hself, hother⟩ := release_of_live ((h.live a).mpr (.inl List.mem_cons_self))
  have ha : ¬m.heap.Live a := h.fresh a List.mem_cons_self
  refine ⟨?_, ?_, fun q hq => h.fresh q (List.mem_cons_of_mem a hq),
    by rw [release_freeQueue, h.freeQueue], by rw [hfault, h.fault]⟩
  · intro q hq
    have hne : q ≠ a := by
      rintro rfl
      exact ha hq
    rw [hother q hne, h.load q hq]
  · intro q
    by_cases hq : q = a
    · subst hq
      simp [Heap.Live, hself, hrest, show m.heap.load q = none by simpa [Heap.Live] using ha]
    · have hlive := h.live q
      rw [Heap.Live] at hlive
      rw [Heap.Live, hother q hq, hlive, List.mem_cons]
      simp [hq]

end Extends

end Mem

namespace Owned

open Mem

variable {size : Nat} {m m' : Mem} {held held' : List Ptr} {new : List Nat} {a : Nat}

section
variable (h : Owned size m held)
include h

theorem perm (hp : held.Perm held') : Owned size m held' where
  owner := h.owner.perm (hp.append_left m.freeSlots)
  typed p hmem := h.typed p (hp.mem_iff.mpr hmem)
  sound := h.sound

/-- The order of the events does not matter. -/
theorem of_count (hcount : ∀ q, held.count q = held'.count q) : Owned size m held' :=
  h.perm (List.perm_iff_count.mpr hcount)

/-- The blocks of an event on the list are live. -/
theorem live_of_owns {p : Ptr} (hp : p ∈ m.freeSlots ++ held) (ha : .block a ∈ m.owns p) :
    m.heap.Live a := h.owner.live_of_mem hp ha

/-- An event of new blocks comes onto the list. -/
theorem extend (hx : Extends m m' new) (ht : m'.Typed (.heap a))
    (hnew : ∀ x, x ∈ m'.eventBlocks a ↔ x ∈ new) (hnodup : (m'.eventBlocks a).Nodup) :
    Owned size m' (.heap a :: held) := by
  have hframe : ∀ p ∈ m.freeSlots ++ held, m'.owns p = m.owns p := fun p hp =>
    owns_congr fun x hmem => hx.load x (h.live_of_owns hp hmem)
  have hslots : m'.freeSlots = m.freeSlots := by rw [freeSlots, hx.freeQueue, freeSlots]
  refine ⟨?_, ?_, by rw [hx.fault, h.sound]⟩
  · refine OneOwner.perm (OneOwner.add (p := .heap a) h.owner hframe ?_ ?_ ?_) ?_
    · exact hnodup.map fun x y hxy => Resource.block.inj hxy
    · intro r hr
      obtain ⟨x, hmem, rfl⟩ := List.mem_map.mp hr
      exact hx.fresh x ((hnew x).mp hmem)
    · intro r
      cases r with
      | slot i => simp [Live, owns, hx.freeQueue]
      | block x => simp [Live, owns, hx.live x, hnew x]
    · rw [hslots]
      exact List.perm_middle.symm
  · intro p hp
    rcases List.mem_cons.mp hp with rfl | hp
    · exact ht
    · exact (h.typed p hp).congr fun x hmem =>
        hx.load x (h.live_of_owns (List.mem_append_right _ hp) hmem)

/-- Without a new block, nothing changes. -/
theorem same (hx : Extends m m' []) : Owned size m' held := by
  have hframe : ∀ p ∈ m.freeSlots ++ held, ∀ x, .block x ∈ m.owns p →
      m'.heap.load x = m.heap.load x := fun p hp x hmem => hx.load x (h.live_of_owns hp hmem)
  have hslots : m'.freeSlots = m.freeSlots := by rw [freeSlots, hx.freeQueue, freeSlots]
  refine ⟨⟨?_, ?_⟩, ?_, by rw [hx.fault, h.sound]⟩
  · rw [hslots, List.flatMap_congr fun p hp => owns_congr (hframe p hp)]
    exact h.owner.nodup
  · intro r
    rw [hslots, List.flatMap_congr fun p hp => owns_congr (hframe p hp), h.owner.mem_iff r]
    cases r with
    | slot i => simp [Live, hx.freeQueue]
    | block x => simp [Live, hx.live x]
  · intro p hp
    exact (h.typed p hp).congr (hframe p (List.mem_append_right _ hp))

end

/-! ### The end of a copy -/

/-- The blocks of an event are gone, and the others are as they were. -/
theorem shrink (h : Owned size m (.heap a :: held))
    (hgone : ∀ x ∈ m.eventBlocks a, m'.heap.load x = none)
    (hother : ∀ x ∉ m.eventBlocks a, m'.heap.load x = m.heap.load x)
    (hqueue : m'.freeQueue = m.freeQueue) (hfault : m'.fault = m.fault) :
    Owned size m' held := by
  have hslots : m'.freeSlots = m.freeSlots := by rw [freeSlots, hqueue, freeSlots]
  have howner : OneOwner m.owns (m.Live size) (.heap a :: (m.freeSlots ++ held)) :=
    h.owner.perm List.perm_middle
  have hframe : ∀ p ∈ m.freeSlots ++ held, ∀ x, .block x ∈ m.owns p →
      m'.heap.load x = m.heap.load x := by
    intro p hp x hx
    apply hother
    intro hmem
    exact howner.disjoint hp (r := .block x) (List.mem_map_of_mem hmem) hx
  refine ⟨?_, ?_, by rw [hfault, h.sound]⟩
  · rw [hslots]
    refine howner.remove (fun p hp => owns_congr (hframe p hp)) ?_
    intro r
    cases r with
    | slot i => simp [Live, owns, hqueue]
    | block x =>
      by_cases hx : x ∈ m.eventBlocks a
      · simp [Live, owns, Heap.Live, hgone x hx, hx]
      · simp [Live, owns, Heap.Live, hother x hx, hx]
  · intro p hp
    exact (h.typed p (List.mem_cons_of_mem _ hp)).congr
      (hframe p (List.mem_append_right _ hp))

/-- A slot that comes back goes behind the free ones. The queue has room for it. -/
theorem eventPoolReturn {i : Nat} (h : Owned size m (.slot i :: held)) :
    Owned size (m.eventPoolReturn size i) held := by
  have howner : OneOwner m.owns (m.Live size) (.slot i :: (m.freeSlots ++ held)) :=
    h.owner.perm List.perm_middle
  obtain ⟨hpool, hlt⟩ : m.freeQueue.isSome ∧ i < size :=
    howner.live_of_mem List.mem_cons_self (List.mem_singleton_self (Resource.slot i))
  obtain ⟨queue, hqueue⟩ := Option.isSome_iff_exists.mp hpool
  have hslots : m.freeSlots = queue.map .slot := by rw [freeSlots, hqueue, Option.getD_some]
  rw [hslots] at howner
  have hroom : queue.length < size := by
    -- The slot and the free ones are different slots of the pool.
    have hnodup : (i :: queue).Nodup := by
      have hall := howner.nodup
      rw [List.flatMap_cons, List.flatMap_append, ← List.append_assoc] at hall
      have hfront := hall.of_append_left
      have hmap : m.owns (.slot i) ++ (queue.map Ptr.slot).flatMap m.owns =
          (i :: queue).map Resource.slot := by
        rw [flatMap_owns_slots]
        rfl
      rw [hmap] at hfront
      exact hfront.of_map _
    have hsub : (i :: queue) ⊆ List.range size := by
      intro j hj
      rw [List.mem_range]
      rcases List.mem_cons.mp hj with rfl | hj
      · exact hlt
      · have hmem : .slot j ∈ queue.map Ptr.slot ++ held :=
          List.mem_append_left _ (List.mem_map_of_mem hj)
        have hlive : m.Live size (.slot j) :=
          howner.live_of_mem (List.mem_cons_of_mem _ hmem) (List.mem_singleton_self _)
        exact hlive.2
    have hle := (List.subperm_of_subset hnodup hsub).length_le
    rw [List.length_range] at hle
    exact hle
  simp only [Mem.eventPoolReturn, hqueue, if_pos hroom]
  refine ⟨?_, fun p hp => h.typed p (List.mem_cons_of_mem _ hp), h.sound⟩
  show OneOwner m.owns _ ((queue ++ [i]).map .slot ++ held)
  have hperm : (.slot i :: (queue.map .slot ++ held)).Perm ((queue ++ [i]).map .slot ++ held) := by
    rw [List.map_append, List.append_assoc]
    exact List.perm_middle.symm
  refine ⟨(howner.perm hperm).nodup, ?_⟩
  intro r
  rw [(howner.perm hperm).mem_iff r]
  cases r with
  | slot j => simp [Live, hqueue]
  | block x => rfl

/-- `free_event_data` ends an event of the list, and nothing else. -/
theorem freeEventData {p : Ptr} (h : Owned size m (p :: held)) :
    Owned size (m.freeEventData size p) held := by
  cases p with
  | slot i => exact h.eventPoolReturn
  | heap a =>
    obtain ⟨e, hload, hpayload⟩ := h.typed _ List.mem_cons_self
    have hmem : ∀ x ∈ m.eventBlocks a, m.heap.Live x := fun x hx =>
      h.live_of_owns (p := .heap a) (by simp) (List.mem_map_of_mem hx)
    have hnodup : (m.eventBlocks a).Nodup :=
      (h.owner.perm List.perm_middle).nodup_owns.of_map _
    have hlive := hmem a mem_eventBlocks_self
    simp only [Mem.freeEventData, hload]
    cases hb : e.payload with
    | none =>
      have hblocks : m.eventBlocks a = [a] := by simp [eventBlocks, hload, hb]
      obtain ⟨hfault, hself, hother⟩ := release_of_live hlive
      refine h.shrink ?_ ?_ (by simp) hfault
      · simpa [hblocks] using hself
      · intro x hx
        exact hother x (by simpa [hblocks] using hx)
    | some b =>
      obtain ⟨payload, hp⟩ := hpayload b hb
      simp only [freePayload, hp]
      by_cases hdata : ∃ c, payload.data = some c ∧ payload.len > 0
      · obtain ⟨c, hc, hlen⟩ := hdata
        have hblocks : m.eventBlocks a = [a, b, c] := by
          simp [eventBlocks, hload, hb, payloadBlocks, hp, hc, hlen]
        simp only [hblocks, List.nodup_cons, List.mem_cons, List.not_mem_nil, or_false,
          not_or] at hnodup
        -- The data goes first, then the payload, then the event.
        obtain ⟨hfault₁, hself₁, hother₁⟩ := release_of_live (hmem c (by simp [hblocks]))
        have hlive₁ : (m.release c).heap.Live b := by
          rw [Heap.Live, hother₁ b hnodup.2.1]
          exact hmem b (by simp [hblocks])
        obtain ⟨hfault₂, hself₂, hother₂⟩ := release_of_live hlive₁
        have hlive₂ : ((m.release c).release b).heap.Live a := by
          rw [Heap.Live, hother₂ a hnodup.1.1, hother₁ a hnodup.1.2]
          exact hlive
        obtain ⟨hfault₃, hself₃, hother₃⟩ := release_of_live hlive₂
        simp only [hc, if_pos hlen]
        refine h.shrink ?_ ?_ (by simp) (by rw [hfault₃, hfault₂, hfault₁])
        · intro x hx
          rw [hblocks] at hx
          simp only [List.mem_cons, List.not_mem_nil, or_false] at hx
          rcases hx with rfl | rfl | rfl
          · exact hself₃
          · rw [hother₃ _ (Ne.symm hnodup.1.1), hself₂]
          · rw [hother₃ _ (Ne.symm hnodup.1.2), hother₂ _ (Ne.symm hnodup.2.1), hself₁]
        · intro x hx
          simp only [hblocks, List.mem_cons, List.not_mem_nil, or_false, not_or] at hx
          rw [hother₃ x hx.1, hother₂ x hx.2.1, hother₁ x hx.2.2]
      · have hblocks : m.eventBlocks a = [a, b] := by
          simp only [eventBlocks, hload, hb, Option.elim, payloadBlocks, hp]
          split
          · rename_i hlen
            have hnone : payload.data = none := by
              by_contra hsome
              obtain ⟨c, hc⟩ := Option.ne_none_iff_exists'.mp hsome
              exact hdata ⟨c, hc, hlen⟩
            simp [hnone]
          · rfl
        simp only [hblocks, List.nodup_cons, List.mem_cons, List.not_mem_nil, or_false] at hnodup
        obtain ⟨hfault₁, hself₁, hother₁⟩ := release_of_live (hmem b (by simp [hblocks]))
        have hlive₁ : (m.release b).heap.Live a := by
          rw [Heap.Live, hother₁ a hnodup.1]
          exact hlive
        obtain ⟨hfault₂, hself₂, hother₂⟩ := release_of_live hlive₁
        have hfree : (match payload.data with
            | some c => if payload.len > 0 then (m.release c).release b else m.release b
            | none => m.release b) = m.release b := by
          split
          · rename_i c hc
            exact if_neg fun hlen => hdata ⟨c, hc, hlen⟩
          · rfl
        rw [hfree]
        refine h.shrink ?_ ?_ (by simp) (by rw [hfault₂, hfault₁])
        · intro x hx
          rw [hblocks] at hx
          simp only [List.mem_cons, List.not_mem_nil, or_false] at hx
          rcases hx with rfl | rfl
          · exact hself₂
          · rw [hother₂ _ (Ne.symm hnodup.1), hself₁]
        · intro x hx
          simp only [hblocks, List.mem_cons, List.not_mem_nil, or_false, not_or] at hx
          rw [hother₂ x hx.1, hother₁ x hx.2]

/-! ### A copy -/

section
variable (h : Owned size m held)
include h

/-- An event with a payload comes onto the list. -/
theorem extendPayload {e : EventData} {p : Payload} {b : Nat} (hx : Extends m m' new)
    (ha : m'.heap.load a = some (.event { e with payload := some b }))
    (hb : m'.heap.load b = some (.payload p))
    (hnew : ∀ x, x ∈ a :: b :: (if p.len > 0 then p.data.toList else []) ↔ x ∈ new)
    (hnodup : (a :: b :: (if p.len > 0 then p.data.toList else [])).Nodup) :
    Owned size m' (.heap a :: held) := by
  have hblocks : m'.eventBlocks a = a :: b :: (if p.len > 0 then p.data.toList else []) := by
    simp [eventBlocks, ha, payloadBlocks, hb]
  rw [← hblocks] at hnew hnodup
  refine h.extend hx ⟨_, ha, ?_⟩ hnew hnodup
  intro c hc
  obtain rfl := Option.some.inj hc
  exact ⟨p, hb⟩

/-- The payload of a copy is allocated behind its event. Where an allocation fails, the blocks that
were there go back. -/
theorem copyPayload {e : EventData} {arg : PayloadArg} (hx : Extends m m' [a])
    (hload : m'.heap.load a = some (.event e)) (env : CopyEnv) :
    Owned size (m'.copyPayload size a e arg env).1
      ((m'.copyPayload size a e arg env).2.toList ++ held) := by
  rw [Mem.copyPayload]
  split
  · exact h.same (hx.release List.not_mem_nil)
  · -- The payload is allocated, and the event gets its address.
    have hlive : (m'.calloc (.payload { len := arg.len })).1.heap.Live a := by
      rw [Heap.Live, load_calloc_of_live (Heap.live_of_load hload), hload]
      rfl
    have hne : a ≠ (m'.calloc (.payload { len := arg.len })).2 :=
      ne_calloc_of_live (Heap.live_of_load hload)
    have hx₂ := (hx.calloc (.payload { len := arg.len })).write (a := a) (by simp)
      (.event { e with payload := some (m'.calloc (.payload { len := arg.len })).2 })
    obtain ⟨-, hevent, hother⟩ := write_of_live hlive
      (b := .event { e with payload := some (m'.calloc (.payload { len := arg.len })).2 })
    have hpayload := hother _ hne.symm
    rw [load_calloc_self] at hpayload
    dsimp only
    generalize (m'.calloc (.payload { len := arg.len })).1.write a
      (.event { e with payload := some (m'.calloc (.payload { len := arg.len })).2 }) = m₂ at *
    generalize (m'.calloc (.payload { len := arg.len })).2 = b at *
    split
    · split
      · -- Without the data, the event ends with its payload.
        refine (h.extendPayload hx₂ hevent hpayload ?_ ?_).freeEventData
        · simp [or_comm]
        · simpa using hne
      · rename_i hdata _
        have hneb : b ≠ (m₂.calloc (.data arg.len)).2 :=
          ne_calloc_of_live (Heap.live_of_load hpayload)
        have hnea : a ≠ (m₂.calloc (.data arg.len)).2 :=
          ne_calloc_of_live (Heap.live_of_load hevent)
        have hx₃ := (hx₂.calloc (.data arg.len)).write (a := b) (by simp)
          (.payload { data := some (m₂.calloc (.data arg.len)).2, len := arg.len })
        have hlive₂ : (m₂.calloc (.data arg.len)).1.heap.Live b := by
          rw [Heap.Live, load_calloc_of_live (Heap.live_of_load hpayload), hpayload]
          rfl
        obtain ⟨-, hpayload₃, hother₃⟩ := write_of_live hlive₂
          (b := .payload { data := some (m₂.calloc (.data arg.len)).2, len := arg.len })
        have hevent₃ := hother₃ a hne
        rw [load_calloc_of_live (Heap.live_of_load hevent), hevent] at hevent₃
        refine h.extendPayload hx₃ hevent₃ hpayload₃ ?_ ?_
        · intro x
          simp only [if_pos hdata.2, Option.toList_some, List.mem_cons, List.not_mem_nil, or_false]
          tauto
        · simp [hdata.2, hne, hnea, hneb]
    · -- The pointer to the data is kept as it is.
      have hx₃ := hx₂.write (a := b) (by simp) (.payload {})
      obtain ⟨-, hpayload₃, hother₃⟩ :=
        write_of_live (Heap.live_of_load hpayload) (b := .payload {})
      have hevent₃ := hother₃ a hne
      rw [hevent] at hevent₃
      refine h.extendPayload hx₃ hevent₃ hpayload₃ ?_ ?_
      · simp [or_comm]
      · simpa using hne

theorem copyToHeap (msg : Message) (env : CopyEnv) :
    Owned size (m.copyToHeap size msg env).1
      ((m.copyToHeap size msg env).2.toList ++ held) := by
  rw [Mem.copyToHeap]
  split
  · exact h
  · dsimp only
    generalize hevent : Block.event { event := msg.event, fixedData := msg.fixedData } = event
    have hload : (m.calloc event).1.heap.load (m.calloc event).2 = some event := load_calloc_self
    have hx := (Extends.refl m).calloc event
    split
    · have hblocks : (m.calloc event).1.eventBlocks (m.calloc event).2 = [(m.calloc event).2] := by
        simp [eventBlocks, ← hevent]
      refine h.extend hx ⟨_, by rw [hload, ← hevent], by nofun⟩ ?_ ?_
      · intro x
        rw [hblocks]
      · rw [hblocks]
        exact List.nodup_singleton _
    · exact h.copyPayload hx (by rw [hload, ← hevent]) env

/-- A slot that is taken goes from the free ones to the list. -/
theorem eventPoolTake {i : Nat} (htake : m.eventPoolTake = some (m', i)) :
    Owned size m' (.slot i :: held) := by
  rw [Mem.eventPoolTake] at htake
  split at htake
  · rename_i j rest hqueue
    obtain ⟨rfl, rfl⟩ := Prod.mk.inj (Option.some.inj htake)
    have hslots : m.freeSlots = .slot j :: rest.map .slot := by
      rw [freeSlots, hqueue, Option.getD_some, List.map_cons]
    have hperm : (m.freeSlots ++ held).Perm (rest.map .slot ++ .slot j :: held) := by
      rw [hslots]
      exact List.perm_middle.symm
    refine ⟨⟨(h.owner.perm hperm).nodup, ?_⟩, ?_, h.sound⟩
    · intro r
      show r ∈ List.flatMap m.owns (rest.map .slot ++ .slot j :: held) ↔ _
      rw [(h.owner.perm hperm).mem_iff r]
      cases r with
      | slot k => simp [Live, hqueue]
      | block x => rfl
    · intro p hp
      rcases List.mem_cons.mp hp with rfl | hp
      · trivial
      · exact h.typed p hp
  · cases htake

/-- `copy_event_data` puts a copy on the list, or it changes nothing. -/
theorem copyEventData (msg : Message) (env : CopyEnv) :
    Owned size (m.copyEventData size msg env).1
      ((m.copyEventData size msg env).2.toList ++ held) := by
  rw [Mem.copyEventData]
  split
  · cases htake : m.eventPoolTake with
    | none => exact h.copyToHeap msg env
    | some r =>
      have htaken := h.eventPoolTake htake
      exact ⟨htaken.owner, htaken.typed, htaken.sound⟩
  · exact h.copyToHeap msg env

/-! ### The pool -/

/-- A pool that is made has all its slots in the queue. -/
theorem eventPoolInit : Owned size (m.eventPoolInit size) held := by
  rw [Mem.eventPoolInit]
  split
  · exact h
  · rename_i hpool
    have hqueue : m.freeQueue = none := by simpa using hpool
    have hslots : m.freeSlots = [] := by rw [freeSlots, hqueue]; rfl
    have howner := h.owner
    rw [hslots, List.nil_append] at howner
    have hnone : ∀ i, .slot i ∉ held.flatMap m.owns := by
      intro i hmem
      have hlive : m.Live size (.slot i) := (howner.mem_iff _).mp hmem
      simp [Live, hqueue] at hlive
    refine ⟨?_, h.typed, h.sound⟩
    show OneOwner m.owns _ ((List.range size).map .slot ++ held)
    constructor
    · rw [List.flatMap_append, flatMap_owns_slots, List.nodup_append]
      refine ⟨List.nodup_range.map fun i j hij => Resource.slot.inj hij, howner.nodup, ?_⟩
      rintro r hr _ hmem rfl
      obtain ⟨i, -, rfl⟩ := List.mem_map.mp hr
      exact hnone i hmem
    · intro r
      rw [List.flatMap_append, flatMap_owns_slots, List.mem_append]
      cases r with
      | slot i => simp [Live, hnone i]
      | block x =>
        rw [howner.mem_iff]
        simp [Live]

end

/-- A pool goes with the events in its slots. -/
theorem eventPoolDeinit {gone : List Ptr} (h : Owned size m (gone ++ held))
    (hgone : ∀ p ∈ gone, p.isSlot = true) (hheld : ∀ p ∈ held, p.isSlot = false) :
    Owned size m.eventPoolDeinit held := by
  refine ⟨?_, fun p hp => h.typed p (List.mem_append_right _ hp), h.sound⟩
  show OneOwner m.owns _ ([] ++ held)
  rw [List.nil_append]
  have hnodup := h.owner.nodup
  rw [List.flatMap_append, List.flatMap_append, List.nodup_append, List.nodup_append] at hnodup
  refine ⟨hnodup.2.1.2.1, ?_⟩
  intro r
  have hmem := h.owner.mem_iff r
  rw [List.flatMap_append, List.flatMap_append, List.mem_append, List.mem_append, freeSlots,
    flatMap_owns_slots] at hmem
  cases r with
  | slot i =>
    have hnone : .slot i ∉ held.flatMap m.owns := by
      intro hi
      obtain ⟨p, hp, hi⟩ := List.mem_flatMap.mp hi
      cases p with
      | slot j => cases hheld _ hp
      | heap a => simp [owns] at hi
    simp [Live, Mem.eventPoolDeinit, hnone]
  | block x =>
    have hnone : .block x ∉ gone.flatMap m.owns := by
      intro hx
      obtain ⟨p, hp, hx⟩ := List.mem_flatMap.mp hx
      cases p with
      | slot j => simp [owns] at hx
      | heap a => cases hgone _ hp
    simpa [Live, Mem.eventPoolDeinit, hnone] using hmem

end Owned

end RainMakerNeo.Ota.Events
