import RainMakerNeo.Lib.FreeList
import RainMakerNeo.Lib.Run

/-!
# `RainMakerNeo.Schedules.TimerPool`: the timers of the schedule port

The port gives each timer a slot of a pool and hands the scheduler an id with the slot's index and
its generation. A release counts the generation up and puts the slot on a free list that runs
through the slots. The scheduler can deliver an id long after the timer was cancelled.

The sections that hold `__cb_mutex` are single steps, and a callback holds it from the lookup to its
end. Everything else that reads or writes a timer handle is a step of its own. So the runs of `step`
are the interleavings of starts, cancels, dispatches and the calls that a callback makes. Any id
that was handed out can be delivered at any time. So the scheduler's own timers are left out.

A slot counts its releases in `releases`, which does not exist in the code. The count tells the
occupancies of a slot apart, as the 16 bits of `gen` do for 65536 releases. `pool_and_dispatch` is
the main result. It needs that no other operation on a handle goes on while a cancel of it releases
the slot, and `twiceCancelled_cycle` shows the free list after two cancels at once.
-/

set_option autoImplicit false

namespace RainMakerNeo.Schedules.Timers

open RainMakerNeo.Lib

/-! ### The pool -/

/-- `PORT_BLOCK_SLOTS`. -/
def blockSlots : Nat := 8

/-- `PORT_MAX_BLOCKS`. -/
def maxBlocks : Nat := 64

/-- `PORT_NO_SLOT`. -/
def noSlot : Nat := 0xFFFF

/-- `__port_timer_t`. The callback and its argument are numbers. -/
structure Slot where
  task : Option Nat := none
  cb : Option Nat := none
  privData : Nat := 0
  index : Nat := 0
  /-- A `uint16_t`. -/
  gen : Nat := 0
  nextFree : Nat := 0
  valid : Bool := false
  /-- History: the number of releases. -/
  releases : Nat := 0
  /-- History: the handle for which the slot was taken. -/
  owner : Nat := 0
  /-- History: the occupancy for which the callback was set. -/
  boundFor : Nat := 0
  deriving DecidableEq, Repr

/-- The blocks. A slot from `blockCount * blockSlots` on is not allocated. -/
structure Pool where
  slot : Nat → Slot := fun _ => {}
  blockCount : Nat := 0
  freeHead : Nat := noSlot

namespace Pool

/-- The number of slots. -/
def size (p : Pool) : Nat := p.blockCount * blockSlots

/-- A write to one slot. -/
def set (p : Pool) (i : Nat) (t : Slot) : Pool :=
  { p with slot := fun j => if j = i then t else p.slot j }

/-- A slot of a new block goes onto the free list. -/
def thread (p : Pool) (i : Nat) : Pool :=
  { p.set i { index := i, nextFree := p.freeHead } with freeHead := i }

/-- `__pool_grow`. `allocated` is the answer of the allocator. -/
def grow (p : Pool) (allocated : Bool) : Option Pool :=
  if p.blockCount ≥ maxBlocks then none
  else if allocated then
    let p' := (List.range blockSlots).foldr (fun i q => q.thread (p.size + i)) p
    some { p' with blockCount := p.blockCount + 1 }
  else none

/-- The head of the free list becomes a slot in use. -/
def pop (p : Pool) : Nat × Pool :=
  let t := p.slot p.freeHead
  (p.freeHead,
    { p.set p.freeHead { t with nextFree := noSlot, valid := true } with freeHead := t.nextFree })

/-- `__pool_acquire`. -/
def acquire (p : Pool) (allocated : Bool) : Option (Nat × Pool) :=
  if p.freeHead = noSlot then (p.grow allocated).map pop else some p.pop

/-- `__pool_release` of the slot at an index. -/
def release (p : Pool) (i : Nat) : Pool :=
  let t := p.slot i
  { p.set i { t with
      valid := false
      gen := (t.gen + 1) % 65536
      cb := none
      privData := 0
      task := none
      nextFree := p.freeHead
      releases := t.releases + 1 } with
    freeHead := t.index }

/-- `__pool_id_of` the slot at an index. -/
def idOf (p : Pool) (i : Nat) : Nat := (p.slot i).gen <<< 16 ||| (p.slot i).index

/-- `__pool_lookup`. -/
def lookup (p : Pool) (id : Nat) : Option Nat :=
  let index := id &&& 0xFFFF
  let gen := id >>> 16
  if index ≥ p.size % 65536 then none
  else
    let t := p.slot index
    if !t.valid || t.gen != gen || t.cb.isNone then none else some index

end Pool

/-! ### The operations -/

/-- Where an operation on a timer handle is. `occupancy` is the one at the read of the handle. -/
inductive Stage
  /-- `__timer_start` of an empty handle before it takes the mutex. -/
  | acquire (cb privData : Nat)
  /-- `__timer_start` of a timer before it takes the mutex. -/
  | rebind (index occupancy cb privData : Nat)
  /-- `__timer_cancel` before the scheduler's cancel. -/
  | cancelTask (index occupancy : Nat)
  /-- `__timer_cancel` before it takes the mutex. -/
  | release (index occupancy : Nat)
  /-- `__timer_cancel` before it clears the handle. -/
  | clear
  deriving DecidableEq, Repr

/-- An operation that is under way, outside or inside a callback. -/
structure Op where
  handle : Nat
  inside : Bool
  stage : Stage
  deriving DecidableEq, Repr

/-- The operation is a cancel. -/
def Op.cancels (op : Op) : Bool :=
  match op.stage with
  | .acquire _ _ | .rebind _ _ _ _ => false
  | _ => true

/-- The slot that the operation has read from the handle and still uses, and its occupancy. -/
def Op.uses (op : Op) : Option (Nat × Nat) :=
  match op.stage with
  | .rebind index occupancy _ _ | .cancelTask index occupancy | .release index occupancy =>
    some (index, occupancy)
  | _ => none

/-- An id that the scheduler has, with the occupancy that it was made for. -/
structure Issue where
  id : Nat
  index : Nat
  occupancy : Nat
  deriving DecidableEq, Repr

/-- A callback that runs, the issue that led to it, and what the lookup found in the slot. -/
structure Running where
  issue : Issue
  index : Nat
  occupancy : Nat
  boundFor : Nat
  cb : Option Nat
  privData : Nat
  deriving DecidableEq, Repr

/-- The port. -/
structure Port where
  /-- `__cb_mutex` exists. -/
  mutex : Bool := false
  pool : Pool := {}
  /-- The handles that the schedules hold. -/
  handle : Nat → Option Nat := fun _ => none
  ops : List Op := []
  running : Option Running := none
  issued : List Issue := []

/-- What the allocator and the scheduler answer. -/
structure Answer where
  allocated : Bool := true
  task : Option Nat := some 0
  deriving DecidableEq, Repr

/-- What happens next. -/
inductive Action
  /-- `esp_schedule_port_osal_get`. -/
  | get (created : Bool)
  | start (handle cb privData : Nat) (inside : Bool)
  | cancel (handle : Nat) (inside : Bool)
  | advance (op : Op) (answer : Answer)
  /-- The scheduler delivers an id, and `__timer_trampoline` looks it up. -/
  | deliver (issue : Issue)
  /-- The callback returns. -/
  | finish
  deriving DecidableEq, Repr

namespace Port

/-- The slot at an index. -/
def slot (s : Port) (i : Nat) : Slot := s.pool.slot i

/-- A task can call the port. A callback makes one call after the other. -/
def canCall (s : Port) (inside : Bool) : Bool :=
  !inside || (s.running.isSome && !s.ops.any Op.inside)

/-- The operation can take the mutex, which a callback holds. -/
def canLock (s : Port) (op : Op) : Bool := op.inside || s.running.isNone

/-- The operation goes on. -/
def proceed (s : Port) (op : Op) (stage : Stage) : Port :=
  { s with ops := { op with stage } :: s.ops.erase op }

/-- The operation returns. -/
def leave (s : Port) (op : Op) : Port := { s with ops := s.ops.erase op }

/-- `__timer_start` up to the mutex. -/
def startCall (s : Port) (handle cb privData : Nat) (inside : Bool) : Port :=
  if s.mutex then
    { s with
      ops := ⟨handle, inside, match s.handle handle with
        | none => .acquire cb privData
        | some i => .rebind i (s.slot i).releases cb privData⟩ :: s.ops }
  else s

/-- `__timer_cancel` up to the scheduler's cancel. -/
def cancelCall (s : Port) (handle : Nat) (inside : Bool) : Port :=
  match s.handle handle with
  | none => s
  | some i => { s with ops := ⟨handle, inside, .cancelTask i (s.slot i).releases⟩ :: s.ops }

/-- The section of `__timer_start` for an empty handle. -/
def acquire (s : Port) (op : Op) (cb privData : Nat) (answer : Answer) : Port :=
  match s.pool.acquire answer.allocated with
  | none => s.leave op
  | some (i, pool) =>
    let t := { pool.slot i with
      cb := some cb, privData, owner := op.handle, boundFor := (pool.slot i).releases }
    let pool := pool.set i t
    match answer.task with
    | none => { s with pool := pool.release i }.leave op
    | some task =>
      { s with
        pool := pool.set i { t with task := some task }
        handle := fun h => if h = op.handle then some i else s.handle h
        issued := ⟨pool.idOf i, i, t.releases⟩ :: s.issued }.leave op

/-- The next step of an operation. -/
def advance (s : Port) (op : Op) (answer : Answer) : Option Port :=
  match op.stage with
  | .acquire cb privData =>
    if s.canLock op then some (s.acquire op cb privData answer) else none
  | .rebind i occupancy cb privData =>
    if s.canLock op then
      let t := { s.slot i with cb := some cb, privData, boundFor := occupancy }
      some ({ s with pool := s.pool.set i t }.leave op)
    else none
  | .cancelTask i occupancy =>
    let t := { s.slot i with task := none }
    some ({ s with pool := s.pool.set i t }.proceed op
      (if s.mutex then .release i occupancy else .clear))
  | .release i _ =>
    if s.canLock op then some ({ s with pool := s.pool.release i }.proceed op .clear) else none
  | .clear =>
    some ({ s with handle := fun h => if h = op.handle then none else s.handle h }.leave op)

/-- `__timer_trampoline` up to the callback. -/
def deliver (s : Port) (issue : Issue) : Port :=
  match s.pool.lookup issue.id with
  | none => s
  | some i =>
    { s with running := some ⟨issue, i, (s.slot i).releases, (s.slot i).boundFor, (s.slot i).cb,
        (s.slot i).privData⟩ }

end Port

open Port

/-- The next step of the port. -/
def step (s : Port) : Action → Option Port
  | .get created => some { s with mutex := s.mutex || created }
  | .start handle cb privData inside =>
    if s.canCall inside then some (s.startCall handle cb privData inside) else none
  | .cancel handle inside => if s.canCall inside then some (s.cancelCall handle inside) else none
  | .advance op answer => if op ∈ s.ops then s.advance op answer else none
  | .deliver issue =>
    if issue ∈ s.issued ∧ s.running.isNone ∧ s.mutex then some (s.deliver issue) else none
  | .finish =>
    if s.running.isSome ∧ !s.ops.any Op.inside then some { s with running := none } else none

/-! ### The free list -/

/-- A link of the free list. -/
def link (n : Nat) : Option Nat := if n = noSlot then none else some n

/-- An index of the pool is not the end of the list. -/
theorem link_of_lt {n : Nat} (h : n < maxBlocks * blockSlots) : link n = some n := by
  rw [link, if_neg]
  rw [maxBlocks, blockSlots] at h
  rw [noSlot]
  omega

/-- The link of a slot. -/
def Pool.next (p : Pool) (i : Nat) : Option Nat := link (p.slot i).nextFree

/-- The free list has exactly the slots that are not in use. -/
def Pool.Free (p : Pool) (l : List Nat) : Prop :=
  Linked p.next (link p.freeHead) l ∧ ∀ i, i ∈ l ↔ i < p.size ∧ (p.slot i).valid = false

/-- The pool is well formed. -/
structure Pool.Ok (p : Pool) : Prop where
  free : ∃ l, p.Free l
  blocks : p.blockCount ≤ maxBlocks
  index : ∀ i, i < p.size → (p.slot i).index = i
  gen : ∀ i, (p.slot i).gen = (p.slot i).releases % 65536

namespace Pool

@[simp] theorem set_slot_self (p : Pool) (i : Nat) (t : Slot) : (p.set i t).slot i = t := if_pos rfl

theorem set_slot_of_ne (p : Pool) {i j : Nat} (t : Slot) (h : j ≠ i) :
    (p.set i t).slot j = p.slot j := if_neg h

variable {p : Pool} {l : List Nat}

theorem Ok.size_le (hp : p.Ok) : p.size ≤ maxBlocks * blockSlots :=
  Nat.mul_le_mul_right blockSlots hp.blocks

/-- A write that leaves the list, the index and the generation of the slot alone. -/
theorem Ok.set (hp : p.Ok) {i : Nat} {t : Slot} (hnext : t.nextFree = (p.slot i).nextFree)
    (hvalid : t.valid = (p.slot i).valid) (hindex : t.index = (p.slot i).index)
    (hgen : t.gen = (p.slot i).gen) (hreleases : t.releases = (p.slot i).releases) :
    (p.set i t).Ok := by
  have hfield : ∀ j, ((p.set i t).slot j).nextFree = (p.slot j).nextFree ∧
      ((p.set i t).slot j).valid = (p.slot j).valid ∧
      ((p.set i t).slot j).index = (p.slot j).index ∧
      ((p.set i t).slot j).gen = (p.slot j).gen ∧
      ((p.set i t).slot j).releases = (p.slot j).releases := by
    intro j
    by_cases hj : j = i
    · rw [hj, set_slot_self]
      exact ⟨hnext, hvalid, hindex, hgen, hreleases⟩
    · rw [set_slot_of_ne p t hj]
      exact ⟨rfl, rfl, rfl, rfl, rfl⟩
  obtain ⟨l, hlinked, hmem⟩ := hp.free
  refine ⟨⟨l, ?_, ?_⟩, hp.blocks, ?_, ?_⟩
  · refine hlinked.congr ?_
    intro j _
    rw [next, next, (hfield j).1]
  · intro j
    rw [(hfield j).2.1]
    exact hmem j
  · intro j hj
    rw [(hfield j).2.2.1]
    exact hp.index j hj
  · intro j
    rw [(hfield j).2.2.2.1, (hfield j).2.2.2.2]
    exact hp.gen j

/-- A release puts a slot in use onto the free list. -/
theorem Ok.release (hp : p.Ok) {i : Nat} (hi : i < p.size) (hvalid : (p.slot i).valid = true) :
    (p.release i).Ok := by
  obtain ⟨l, hlinked, hmem⟩ := hp.free
  have hnot : i ∉ l := by
    intro h
    rw [((hmem i).mp h).2] at hvalid
    cases hvalid
  have hother : ∀ j, j ≠ i → (p.release i).slot j = p.slot j := fun j hj => if_neg hj
  have hself : (p.release i).slot i = { p.slot i with
      valid := false
      gen := ((p.slot i).gen + 1) % 65536
      cb := none
      privData := 0
      task := none
      nextFree := p.freeHead
      releases := (p.slot i).releases + 1 } := if_pos rfl
  refine ⟨⟨i :: l, ?_, ?_⟩, hp.blocks, ?_, ?_⟩
  · have hhead : link (p.release i).freeHead = some i := by
      show link (p.slot i).index = some i
      rw [hp.index i hi]
      exact link_of_lt (Nat.lt_of_lt_of_le hi hp.size_le)
    rw [hhead]
    refine hlinked.push ?_ ?_
    · rw [next, hself]
    · intro j hj
      rw [next, next, hother j fun h => hnot (h ▸ hj)]
  · intro j
    show j ∈ i :: l ↔ j < p.size ∧ _
    by_cases hj : j = i
    · rw [hj, hself]
      exact iff_of_true List.mem_cons_self ⟨hi, rfl⟩
    · rw [hother j hj, List.mem_cons, or_iff_right hj]
      exact hmem j
  · intro j hj
    by_cases hji : j = i
    · rw [hji, hself]
      exact hp.index i hi
    · rw [hother j hji]
      exact hp.index j hj
  · intro j
    by_cases hji : j = i
    · rw [hji, hself]
      show ((p.slot i).gen + 1) % 65536 = ((p.slot i).releases + 1) % 65536
      rw [hp.gen i]
      omega
    · rw [hother j hji]
      exact hp.gen j

/-- The head of a nonempty free list comes into use. -/
theorem Ok.pop (hp : p.Ok) (hhead : p.freeHead ≠ noSlot) :
    p.pop.2.Ok ∧ p.freeHead < p.size ∧ (p.slot p.freeHead).valid = false := by
  obtain ⟨l, hlinked, hmem⟩ := hp.free
  rw [show link p.freeHead = some p.freeHead from if_neg hhead] at hlinked
  have hnodup := hlinked.nodup
  obtain ⟨rest, rfl, hrest⟩ := hlinked.pop
  have hfree := (hmem p.freeHead).mp List.mem_cons_self
  have hnot := (List.nodup_cons.mp hnodup).1
  have hother : ∀ j, j ≠ p.freeHead → p.pop.2.slot j = p.slot j := fun j hj => if_neg hj
  have hself : p.pop.2.slot p.freeHead =
      { p.slot p.freeHead with nextFree := noSlot, valid := true } := if_pos rfl
  refine ⟨⟨⟨rest, ?_, ?_⟩, hp.blocks, ?_, ?_⟩, hfree⟩
  · refine Linked.congr (show Linked p.next _ rest from hrest) ?_
    intro j hj
    rw [next, next, hother j fun h => hnot (h ▸ hj)]
  · intro j
    show j ∈ rest ↔ j < p.size ∧ _
    by_cases hj : j = p.freeHead
    · rw [hj, hself]
      exact iff_of_false hnot fun h => nomatch h.2
    · rw [hother j hj, ← hmem j, List.mem_cons, or_iff_right hj]
  · intro j hj
    by_cases hjh : j = p.freeHead
    · rw [hjh, hself]
      exact hp.index _ hfree.1
    · rw [hother j hjh]
      exact hp.index j hj
  · intro j
    by_cases hjh : j = p.freeHead
    · rw [hjh, hself]
      exact hp.gen _
    · rw [hother j hjh]
      exact hp.gen j

/-- The slots that a loop threads onto the free list. -/
structure Threaded (p : Pool) (l is : List Nat) (q : Pool) : Prop where
  linked : Linked q.next (link q.freeHead) (is ++ l)
  blocks : q.blockCount = p.blockCount
  other : ∀ j, j ∉ is → q.slot j = p.slot j
  fresh : ∀ i ∈ is, (q.slot i).valid = false ∧ (q.slot i).index = i ∧ (q.slot i).gen = 0 ∧
    (q.slot i).releases = 0

/-- The loop of `__pool_grow`, over new indexes. -/
theorem threaded_foldr (hlinked : Linked p.next (link p.freeHead) l) (is : List Nat)
    (hnodup : is.Nodup) (hnew : ∀ i ∈ is, i < maxBlocks * blockSlots ∧ i ∉ l) :
    Threaded p l is (is.foldr (fun i q => q.thread i) p) := by
  induction is with
  | nil => exact ⟨hlinked, rfl, fun _ _ => rfl, nofun⟩
  | cons i is ih =>
    have hnot := (List.nodup_cons.mp hnodup).1
    have hq := ih (List.nodup_cons.mp hnodup).2 fun j hj => hnew j (List.mem_cons_of_mem i hj)
    have hi := hnew i List.mem_cons_self
    rw [List.foldr_cons]
    generalize hfold : is.foldr (fun i q => Pool.thread q i) p = q at hq ⊢
    have hother : ∀ j, j ≠ i → (q.thread i).slot j = q.slot j := fun j hj => if_neg hj
    have hself : (q.thread i).slot i = { index := i, nextFree := q.freeHead } := if_pos rfl
    refine ⟨?_, hq.blocks, ?_, ?_⟩
    · show Linked (q.thread i).next (link i) (i :: (is ++ l))
      rw [link_of_lt hi.1]
      refine hq.linked.push ?_ ?_
      · rw [next, hself]
      · intro j hj
        have hne : j ≠ i := by
          rintro rfl
          rcases List.mem_append.mp hj with hj | hj
          · exact hnot hj
          · exact hi.2 hj
        rw [next, next, hother j hne]
    · intro j hj
      rw [List.mem_cons, not_or] at hj
      rw [hother j hj.1]
      exact hq.other j hj.2
    · intro j hj
      by_cases hji : j = i
      · rw [hji, hself]
        exact ⟨rfl, rfl, rfl, rfl⟩
      · rw [hother j hji]
        exact hq.fresh j ((List.mem_cons.mp hj).resolve_left hji)

/-- The indexes of the block that `__pool_grow` adds. -/
def newBlock (p : Pool) : List Nat := (List.range blockSlots).map (p.size + ·)

theorem mem_newBlock (j : Nat) : j ∈ p.newBlock ↔ p.size ≤ j ∧ j < p.size + blockSlots := by
  rw [newBlock, List.mem_map]
  constructor
  · rintro ⟨k, hk, rfl⟩
    rw [List.mem_range] at hk
    omega
  · intro h
    exact ⟨j - p.size, List.mem_range.mpr (by omega), by omega⟩

theorem nodup_newBlock (p : Pool) : p.newBlock.Nodup := by
  refine List.nodup_range.map ?_
  intro a b hab
  exact Nat.add_left_cancel hab

/-- The free list of a pool that still has a block to add, after the loop over that block. -/
theorem threaded_newBlock (hlinked : Linked p.next (link p.freeHead) l)
    (hmem : ∀ j, j ∈ l ↔ j < p.size ∧ (p.slot j).valid = false)
    (hblocks : p.blockCount < maxBlocks) :
    Threaded p l p.newBlock
      ((List.range blockSlots).foldr (fun i q => Pool.thread q (p.size + i)) p) := by
  have hsize : p.size + blockSlots ≤ maxBlocks * blockSlots := by
    rw [size]
    rw [maxBlocks, blockSlots] at *
    omega
  have h := threaded_foldr hlinked p.newBlock p.nodup_newBlock ?_
  · rw [newBlock, List.foldr_map] at h
    exact h
  · intro i hi
    have hrange := (mem_newBlock i).mp hi
    refine ⟨by omega, ?_⟩
    intro h
    have hlt := ((hmem i).mp h).1
    omega

/-- The pool after the loop over the new block, once the block is counted. -/
theorem Ok.counted {q : Pool} (hp : p.Ok)
    (hmem : ∀ j, j ∈ l ↔ j < p.size ∧ (p.slot j).valid = false)
    (hblocks : p.blockCount < maxBlocks) (hq : Threaded p l p.newBlock q)
    (hold : ∀ j, j < p.size → q.slot j = p.slot j)
    (hcount : Pool.size { q with blockCount := p.blockCount + 1 } = p.size + blockSlots) :
    Pool.Ok { q with blockCount := p.blockCount + 1 } := by
  refine ⟨⟨_, hq.linked, ?_⟩, ?_, ?_, ?_⟩
  · intro j
    rw [hcount, List.mem_append, mem_newBlock, hmem]
    by_cases hj : j < p.size
    · dsimp only
      rw [hold j hj]
      constructor
      · intro h
        exact ⟨by omega, (h.resolve_left (by omega)).2⟩
      · intro h
        exact .inr ⟨hj, h.2⟩
    · constructor
      · intro h
        have hin : p.size ≤ j ∧ j < p.size + blockSlots := by omega
        exact ⟨by omega, (hq.fresh j ((mem_newBlock j).mpr hin)).1⟩
      · intro h
        exact .inl ⟨by omega, h.1⟩
  · show p.blockCount + 1 ≤ maxBlocks
    omega
  · intro j hj
    rw [hcount] at hj
    dsimp only
    by_cases hjp : j < p.size
    · rw [hold j hjp]
      exact hp.index j hjp
    · exact (hq.fresh j ((mem_newBlock j).mpr (by omega))).2.1
  · intro j
    dsimp only
    by_cases hjn : j ∈ p.newBlock
    · have hfresh := hq.fresh j hjn
      rw [hfresh.2.2.1, hfresh.2.2.2]
    · rw [hq.other j hjn]
      exact hp.gen j

/-- The loop over a new block leaves a free slot at the head. -/
theorem Threaded.freeHead_ne {q : Pool} (hq : Threaded p l p.newBlock q) : q.freeHead ≠ noSlot := by
  intro hhead
  have hlink := hq.linked
  rw [show link q.freeHead = none from if_pos hhead] at hlink
  have hempty := congrArg List.length hlink.of_none
  rw [newBlock, List.length_append, List.length_map, List.length_range, blockSlots,
    List.length_nil] at hempty
  omega

/-- A grown pool keeps its slots, and a new block is free. -/
theorem Ok.grow {q : Pool} (hp : p.Ok) {allocated : Bool} (hq : p.grow allocated = some q) :
    q.Ok ∧ p.size ≤ q.size ∧ (∀ j, j < p.size → q.slot j = p.slot j) ∧
      (∀ j, (q.slot j).valid = true → q.slot j = p.slot j) ∧ q.freeHead ≠ noSlot := by
  obtain ⟨l, hlinked, hmem⟩ := hp.free
  rw [Pool.grow] at hq
  split at hq
  · cases hq
  · next hblocks =>
    rw [Option.ite_none_right_eq_some] at hq
    obtain rfl := Option.some.inj hq.2
    have hlt : p.blockCount < maxBlocks := by omega
    have hthreaded := threaded_newBlock hlinked hmem hlt
    generalize (List.range blockSlots).foldr (fun i q => Pool.thread q (p.size + i)) p = q
      at hthreaded ⊢
    have hold : ∀ j, j < p.size → q.slot j = p.slot j := by
      intro j hj
      refine hthreaded.other j ?_
      rw [mem_newBlock]
      omega
    have hcount : Pool.size { q with blockCount := p.blockCount + 1 } = p.size + blockSlots := by
      rw [size, size, Nat.succ_mul]
    refine ⟨hp.counted hmem hlt hthreaded hold hcount, ?_, hold, ?_, hthreaded.freeHead_ne⟩
    · rw [hcount]
      omega
    · intro j hvalid
      by_cases hjn : j ∈ p.newBlock
      · dsimp only at hvalid
        rw [(hthreaded.fresh j hjn).1] at hvalid
        cases hvalid
      · exact hthreaded.other j hjn

/-- What a successful `__pool_acquire` does: a free slot comes into use, and the slots in use stay
as they are. -/
structure Acquired (p : Pool) (i : Nat) (q : Pool) : Prop where
  ok : q.Ok
  lt : i < q.size
  valid : (q.slot i).valid = true
  size : p.size ≤ q.size
  used : ∀ j, j < p.size → (p.slot j).valid = true → j ≠ i ∧ q.slot j = p.slot j
  releases : ∀ j, j < p.size → (q.slot j).releases = (p.slot j).releases
  other : ∀ j, j ≠ i → (q.slot j).valid = true → q.slot j = p.slot j

theorem acquired_pop (hp : p.Ok) (hhead : p.freeHead ≠ noSlot) : Acquired p p.freeHead p.pop.2 := by
  have hpop := hp.pop hhead
  have hother : ∀ j, j ≠ p.freeHead → p.pop.2.slot j = p.slot j := fun j hj => if_neg hj
  have hself : p.pop.2.slot p.freeHead =
      { p.slot p.freeHead with nextFree := noSlot, valid := true } := if_pos rfl
  refine ⟨hpop.1, hpop.2.1, ?_, Nat.le_refl _, ?_, ?_, ?_⟩
  · rw [hself]
  · intro j _ hvalid
    have hne : j ≠ p.freeHead := by
      rintro rfl
      rw [hpop.2.2] at hvalid
      cases hvalid
    exact ⟨hne, hother j hne⟩
  · intro j _
    by_cases hj : j = p.freeHead
    · rw [hj, hself]
    · rw [hother j hj]
  · intro j hne _
    exact hother j hne

theorem acquired_of_acquire {q : Pool} (hp : p.Ok) {allocated : Bool} {i : Nat}
    (hq : p.acquire allocated = some (i, q)) : Acquired p i q := by
  rw [Pool.acquire] at hq
  split at hq
  · obtain ⟨grown, hgrown, hpop⟩ := Option.map_eq_some_iff.mp hq
    have hok := hp.grow hgrown
    have hacq := acquired_pop hok.1 hok.2.2.2.2
    obtain ⟨rfl, rfl⟩ : grown.freeHead = i ∧ grown.pop.2 = q := Prod.mk.inj hpop
    refine ⟨hacq.ok, hacq.lt, hacq.valid, Nat.le_trans hok.2.1 hacq.size, ?_, ?_, ?_⟩
    · intro j hj hvalid
      have hsame := hok.2.2.1 j hj
      have hused := hacq.used j (Nat.lt_of_lt_of_le hj hok.2.1) (by rw [hsame]; exact hvalid)
      exact ⟨hused.1, hused.2.trans hsame⟩
    · intro j hj
      rw [hacq.releases j (Nat.lt_of_lt_of_le hj hok.2.1), hok.2.2.1 j hj]
    · intro j hne hvalid
      have hsame := hacq.other j hne hvalid
      rw [hsame] at hvalid ⊢
      exact hok.2.2.2.1 j hvalid
  · next hhead =>
    obtain ⟨rfl, rfl⟩ : p.freeHead = i ∧ p.pop.2 = q := Prod.mk.inj (Option.some.inj hq)
    exact acquired_pop hp hhead

/-- The two halves of an id. -/
theorem split_id {gen index : Nat} (h : index < 65536) :
    (gen <<< 16 ||| index) &&& 0xFFFF = index ∧ (gen <<< 16 ||| index) >>> 16 = gen := by
  rw [← Nat.shiftLeft_add_eq_or_of_lt (i := 16) h, Nat.shiftLeft_eq, Nat.shiftRight_eq_div_pow,
    show 0xFFFF = 2 ^ 16 - 1 by decide, Nat.and_two_pow_sub_one_eq_mod]
  omega

/-- A lookup that succeeds finds the slot of the id, in use and with the generation of the id. -/
theorem Ok.lookup (hp : p.Ok) {gen index i : Nat} (hindex : index < p.size)
    (h : p.lookup (gen <<< 16 ||| index) = some i) :
    i = index ∧ (p.slot i).valid = true ∧ (p.slot i).releases % 65536 = gen := by
  have hsize := hp.size_le
  rw [maxBlocks, blockSlots] at hsize
  have hid : (gen <<< 16 ||| index) &&& 0xFFFF = index ∧ (gen <<< 16 ||| index) >>> 16 = gen :=
    split_id (by omega)
  rw [Pool.lookup, hid.1, hid.2] at h
  rw [Option.ite_none_left_eq_some] at h
  have hfound := h.2
  dsimp only at hfound
  rw [Option.ite_none_left_eq_some] at hfound
  obtain rfl := Option.some.inj hfound.2
  have hslot := hfound.1
  rw [Bool.or_eq_true, Bool.or_eq_true, not_or, not_or] at hslot
  refine ⟨rfl, by simpa using hslot.1.1, ?_⟩
  rw [← hp.gen]
  simpa using hslot.1.2

end Pool

/-! ### What the port keeps -/

/-- Two operations on one handle do not disturb each other: with a cancel only a call of the running
callback goes on that is not a cancel. A callback makes one call at a time. -/
def Compatible (a b : Op) : Prop :=
  ¬(a.inside = true ∧ b.inside = true) ∧
    (a.handle = b.handle →
      (a.cancels = true → b.inside = true ∧ b.cancels = false) ∧
      (b.cancels = true → a.inside = true ∧ a.cancels = false))

/-- What an operation has read is still so. -/
def Current (s : Port) (op : Op) : Prop :=
  ∀ i occupancy, op.uses = some (i, occupancy) →
    i < s.pool.size ∧ (s.slot i).valid = true ∧ (s.slot i).owner = op.handle ∧
      (s.slot i).releases = occupancy

/-- An id that was handed out tells an occupancy of its slot. -/
def Known (s : Port) (issue : Issue) : Prop :=
  issue.index < s.pool.size ∧ issue.id = (issue.occupancy % 65536) <<< 16 ||| issue.index ∧
    issue.occupancy ≤ (s.slot issue.index).releases

/-- A callback runs for the occupancy for which its id was made, and it is the callback that was set
for this occupancy. -/
def Matches (run : Running) : Prop :=
  run.index = run.issue.index ∧ run.occupancy = run.issue.occupancy ∧
    run.boundFor = run.issue.occupancy

/-- What every serialized run keeps. -/
structure Inv (s : Port) : Prop where
  pool : s.pool.Ok
  handles : ∀ h i, s.handle h = some i →
    (i < s.pool.size ∧ (s.slot i).valid = true ∧ (s.slot i).owner = h) ∨
      ∃ op ∈ s.ops, op.handle = h ∧ op.stage = .clear
  current : ∀ op ∈ s.ops, Current s op
  compatible : s.ops.Pairwise Compatible
  inside : ∀ op ∈ s.ops, op.inside = true → s.running.isSome = true
  bound : ∀ i, (s.slot i).valid = true → (s.slot i).boundFor = (s.slot i).releases
  issued : ∀ issue ∈ s.issued, Known s issue
  running : ∀ run, s.running = some run → Matches run

theorem Compatible.symm {a b : Op} (h : Compatible a b) : Compatible b a :=
  ⟨fun hin => h.1 hin.symm, fun heq => (h.2 heq.symm).symm⟩

variable {s : Port} {op : Op} {inside : Bool} {t : Slot} {q : Pool} {i : Nat}

/-- The operations without the one that steps. -/
theorem Inv.others (hi : Inv s) (hop : op ∈ s.ops) :
    (∀ o ∈ s.ops.erase op, Compatible op o) ∧ (s.ops.erase op).Pairwise Compatible := by
  have hperm := (List.perm_cons_erase hop).pairwise hi.compatible Compatible.symm
  exact List.pairwise_cons.mp hperm

/-! ### The steps -/

/-- No operation on a handle begins while a cancel of it is under way, except in a callback while
the cancel still waits for the mutex, and no cancel of a handle begins while another operation on it
is under way, except one of a callback. An id is delivered before its slot was released 65536 times
more. -/
def Serialized (s : Port) : Action → Prop
  | .start handle _ _ inside =>
    ∀ op ∈ s.ops, op.handle = handle → op.cancels = true → inside = true ∧ op.stage ≠ .clear
  | .cancel handle inside =>
    ∀ op ∈ s.ops, op.handle = handle → inside = false ∧ op.inside = true ∧ op.cancels = false
  | .deliver issue => (s.slot issue.index).releases < issue.occupancy + 65536
  | _ => True

instance (s : Port) : ∀ a, Decidable (Serialized s a)
  | .start handle _ _ inside => inferInstanceAs (Decidable (∀ op ∈ s.ops, op.handle = handle →
      op.cancels = true → inside = true ∧ op.stage ≠ .clear))
  | .cancel handle inside => inferInstanceAs (Decidable (∀ op ∈ s.ops, op.handle = handle →
      inside = false ∧ op.inside = true ∧ op.cancels = false))
  | .deliver issue =>
    inferInstanceAs (Decidable ((s.slot issue.index).releases < issue.occupancy + 65536))
  | .get _ | .advance _ _ | .finish => inferInstanceAs (Decidable True)

/-- A call of a callback is the only one. -/
theorem canCall_inside (h : s.canCall inside = true) :
    inside = true → s.running.isSome = true ∧ ∀ op ∈ s.ops, op.inside = false := by
  intro hin
  rw [canCall, hin, Bool.not_true, Bool.false_or, Bool.and_eq_true] at h
  refine ⟨h.1, ?_⟩
  intro op hop
  have hnone := h.2
  rw [Bool.not_eq_true', List.any_eq_false] at hnone
  simpa using hnone op hop

/-- A new operation. -/
theorem Inv.call (hi : Inv s) (hcall : s.canCall op.inside = true) (hcurrent : Current s op)
    (hguard : ∀ o ∈ s.ops, op.handle = o.handle →
      (op.cancels = true → o.inside = true ∧ o.cancels = false) ∧
      (o.cancels = true → op.inside = true ∧ op.cancels = false)) :
    Inv { s with ops := op :: s.ops } := by
  have hinside := canCall_inside hcall
  refine ⟨hi.pool, ?_, ?_, ?_, ?_, hi.bound, hi.issued, hi.running⟩
  · intro h i hh
    refine (hi.handles h i hh).imp id ?_
    intro ⟨o, ho, heq⟩
    exact ⟨o, List.mem_cons_of_mem op ho, heq⟩
  · exact List.forall_mem_cons.mpr ⟨hcurrent, hi.current⟩
  · refine List.pairwise_cons.mpr ⟨?_, hi.compatible⟩
    intro o ho
    refine ⟨?_, hguard o ho⟩
    intro ⟨hin, hin'⟩
    rw [(hinside hin).2 o ho] at hin'
    cases hin'
  · refine List.forall_mem_cons.mpr ⟨?_, hi.inside⟩
    intro hin
    exact (hinside hin).1

theorem Inv.start (hi : Inv s) {handle cb privData : Nat} (hcall : s.canCall inside = true)
    (hguard : Serialized s (.start handle cb privData inside)) :
    Inv (s.startCall handle cb privData inside) := by
  rw [Serialized] at hguard
  rw [startCall]
  split
  · refine hi.call hcall ?_ ?_
    · intro i occupancy huses
      cases hhandle : s.handle handle with
      | none =>
        rw [Op.uses, hhandle] at huses
        cases huses
      | some k =>
        rw [Op.uses, hhandle] at huses
        obtain ⟨rfl, rfl⟩ : k = i ∧ (s.slot k).releases = occupancy :=
          Prod.mk.inj (Option.some.inj huses)
        rcases hi.handles handle k hhandle with h | ⟨o, ho, heq, hclear⟩
        · exact ⟨h.1, h.2.1, h.2.2, rfl⟩
        · -- A cancel that has released the slot excludes the call.
          exact absurd hclear (hguard o ho heq (by rw [Op.cancels, hclear])).2
    · intro o ho heq
      have hnot : Op.cancels ⟨handle, inside, match s.handle handle with
          | none => .acquire cb privData
          | some i => .rebind i (s.slot i).releases cb privData⟩ = false := by
        cases s.handle handle <;> rfl
      refine ⟨?_, ?_⟩
      · intro h
        rw [hnot] at h
        cases h
      · intro h
        exact ⟨(hguard o ho heq.symm h).1, hnot⟩
  · exact hi

theorem Inv.cancel (hi : Inv s) {handle : Nat} (hcall : s.canCall inside = true)
    (hguard : Serialized s (.cancel handle inside)) : Inv (s.cancelCall handle inside) := by
  rw [Serialized] at hguard
  rw [cancelCall]
  cases hhandle : s.handle handle with
  | none => exact hi
  | some k =>
    refine hi.call hcall ?_ ?_
    · intro i occupancy huses
      obtain ⟨rfl, rfl⟩ : k = i ∧ (s.slot k).releases = occupancy :=
        Prod.mk.inj (Option.some.inj huses)
      rcases hi.handles handle k hhandle with h | ⟨o, ho, heq, hclear⟩
      · exact ⟨h.1, h.2.1, h.2.2, rfl⟩
      · have hcancels := (hguard o ho heq).2.2
        rw [Op.cancels, hclear] at hcancels
        cases hcancels
    · intro o ho heq
      have hother := hguard o ho heq.symm
      refine ⟨fun _ => hother.2, ?_⟩
      intro h
      rw [hother.2.2] at h
      cases h

/-- A section that leaves the slots in use alone and ends its operation. -/
theorem Inv.section {t : Port} (hi : Inv s) (hclear : op.stage ≠ .clear) (hpool : t.pool.Ok)
    (hops : t.ops = s.ops.erase op) (hrunning : t.running = s.running)
    (hsize : s.pool.size ≤ t.pool.size)
    (hused : ∀ j, j < s.pool.size → (s.slot j).valid = true → t.slot j = s.slot j)
    (hreleases : ∀ j, j < s.pool.size → (s.slot j).releases ≤ (t.slot j).releases)
    (hbound : ∀ j, (t.slot j).valid = true → (t.slot j).boundFor = (t.slot j).releases)
    (hhandles : ∀ h k, t.handle h = some k → s.handle h = some k ∨
      (k < t.pool.size ∧ (t.slot k).valid = true ∧ (t.slot k).owner = h))
    (hissued : ∀ issue ∈ t.issued, issue ∈ s.issued ∨ Known t issue) : Inv t := by
  have hothers : ∀ o ∈ t.ops, o ∈ s.ops := by
    rw [hops]
    exact fun o ho => List.mem_of_mem_erase ho
  refine ⟨hpool, ?_, ?_, ?_, ?_, hbound, ?_, ?_⟩
  · intro h k hh
    rcases hhandles h k hh with hh | hh
    · rcases hi.handles h k hh with hv | ⟨o, ho, heq, hstage⟩
      · refine .inl ⟨Nat.lt_of_lt_of_le hv.1 hsize, ?_⟩
        rw [hused k hv.1 hv.2.1]
        exact hv.2
      · refine .inr ⟨o, ?_, heq, hstage⟩
        rw [hops]
        refine (List.mem_erase_of_ne ?_).mpr ho
        rintro rfl
        exact hclear hstage
    · exact .inl hh
  · intro o ho i occupancy huses
    have hcur := hi.current o (hothers o ho) i occupancy huses
    rw [hused i hcur.1 hcur.2.1]
    exact ⟨Nat.lt_of_lt_of_le hcur.1 hsize, hcur.2⟩
  · rw [hops]
    exact hi.compatible.sublist List.erase_sublist
  · intro o ho
    rw [hrunning]
    exact hi.inside o (hothers o ho)
  · intro issue hissue
    rcases hissued issue hissue with h | h
    · have hknown := hi.issued issue h
      exact ⟨Nat.lt_of_lt_of_le hknown.1 hsize, hknown.2.1,
        Nat.le_trans hknown.2.2 (hreleases _ hknown.1)⟩
    · exact h
  · rw [hrunning]
    exact hi.running

/-- A slot just acquired, with the callback and the handle of its start and not yet a task. -/
structure Taken (op : Op) (old t : Slot) : Prop where
  nextFree : t.nextFree = old.nextFree
  valid : t.valid = old.valid
  index : t.index = old.index
  gen : t.gen = old.gen
  releases : t.releases = old.releases
  boundFor : t.boundFor = old.releases
  owner : t.owner = op.handle

theorem Taken.ok (ht : Taken op (q.slot i) t) (hq : q.Ok) : (q.set i t).Ok :=
  hq.set ht.nextFree ht.valid ht.index ht.gen ht.releases

theorem Taken.withTask {old : Slot} (ht : Taken op old t) (task : Nat) :
    Taken op old { t with task := some task } :=
  ⟨ht.nextFree, ht.valid, ht.index, ht.gen, ht.releases, ht.boundFor, ht.owner⟩

/-- The slots in use next to the acquired one are bound to their occupancies. -/
theorem Inv.bound_acquired (hi : Inv s) (hacq : Pool.Acquired s.pool i q) (j : Nat) (hj : j ≠ i)
    (hv : (q.slot j).valid = true) : (q.slot j).boundFor = (q.slot j).releases := by
  have hsame := hacq.other j hj hv
  rw [hsame] at hv ⊢
  exact hi.bound j hv

/-- A start whose task could not be created gives the acquired slot back. -/
theorem Inv.acquireFailed (hi : Inv s) (hclear : op.stage ≠ .clear)
    (hacq : Pool.Acquired s.pool i q) (ht : Taken op (q.slot i) t) :
    Inv ({ s with pool := (q.set i t).release i }.leave op) := by
  have hvalid : ((q.set i t).slot i).valid = true := by
    rw [Pool.set_slot_self, ht.valid]
    exact hacq.valid
  have hslot : ∀ j, j ≠ i → ((q.set i t).release i).slot j = q.slot j := by
    intro j hj
    exact (if_neg hj).trans (if_neg hj)
  have hself : (((q.set i t).release i).slot i).valid = false ∧
      (((q.set i t).release i).slot i).releases = (q.slot i).releases + 1 := by
    have h : ((q.set i t).release i).slot i = _ := if_pos rfl
    rw [h]
    exact ⟨rfl, by rw [Pool.set_slot_self, ht.releases]⟩
  refine hi.section hclear ((ht.ok hacq.ok).release hacq.lt hvalid) rfl rfl hacq.size ?_ ?_ ?_
    (fun _ _ h => .inl h) (fun _ h => .inl h)
  · intro j hj hv
    have hused := hacq.used j hj hv
    exact (hslot j hused.1).trans hused.2
  · intro j hj
    show (s.slot j).releases ≤ (((q.set i t).release i).slot j).releases
    have hsame := hacq.releases j hj
    by_cases hji : j = i
    · rw [hji, hself.2]
      rw [hji] at hsame
      rw [slot]
      omega
    · rw [hslot j hji, hsame]
      exact Nat.le_refl _
  · intro j hv
    show (((q.set i t).release i).slot j).boundFor = (((q.set i t).release i).slot j).releases
    have hused : (((q.set i t).release i).slot j).valid = true := hv
    have hji : j ≠ i := by
      rintro rfl
      rw [hself.1] at hused
      cases hused
    rw [hslot j hji] at hused ⊢
    exact hi.bound_acquired hacq j hji hused

/-- A start with its task issues an identifier for the acquired slot. -/
theorem Inv.acquireStarted (hi : Inv s) (hclear : op.stage ≠ .clear)
    (hacq : Pool.Acquired s.pool i q) {u : Slot} (ht : Taken op (q.slot i) t)
    (hu : Taken op (q.slot i) u) :
    Inv ({ s with
      pool := (q.set i t).set i u
      handle := fun h => if h = op.handle then some i else s.handle h
      issued := ⟨(q.set i t).idOf i, i, (q.slot i).releases⟩ :: s.issued }.leave op) := by
  have hslot : ∀ j, j ≠ i → ((q.set i t).set i u).slot j = q.slot j := by
    intro j hj
    exact (if_neg hj).trans (if_neg hj)
  have hself : ((q.set i t).set i u).slot i = u := if_pos rfl
  have hold : (q.set i t).slot i = t := Pool.set_slot_self q i t
  have hok : ((q.set i t).set i u).Ok := by
    refine (ht.ok hacq.ok).set ?_ ?_ ?_ ?_ ?_ <;> rw [hold]
    · exact hu.nextFree.trans ht.nextFree.symm
    · exact hu.valid.trans ht.valid.symm
    · exact hu.index.trans ht.index.symm
    · exact hu.gen.trans ht.gen.symm
    · exact hu.releases.trans ht.releases.symm
  refine hi.section hclear hok rfl rfl hacq.size ?_ ?_ ?_ ?_ ?_
  · intro j hj hv
    have hused := hacq.used j hj hv
    exact (hslot j hused.1).trans hused.2
  · intro j hj
    show (s.slot j).releases ≤ (((q.set i t).set i u).slot j).releases
    have hsame := hacq.releases j hj
    by_cases hji : j = i
    · rw [hji] at hsame
      rw [hji, hself, hu.releases, hsame]
      exact Nat.le_refl _
    · rw [hslot j hji, hsame]
      exact Nat.le_refl _
  · intro j hv
    show (((q.set i t).set i u).slot j).boundFor = (((q.set i t).set i u).slot j).releases
    have hused : (((q.set i t).set i u).slot j).valid = true := hv
    by_cases hji : j = i
    · rw [hji, hself, hu.boundFor, hu.releases]
    · rw [hslot j hji] at hused ⊢
      exact hi.bound_acquired hacq j hji hused
  · intro h k hh
    dsimp only [leave] at hh
    by_cases hop : h = op.handle
    · rw [if_pos hop] at hh
      obtain rfl := Option.some.inj hh
      refine .inr ⟨hacq.lt, ?_⟩
      show (((q.set i t).set i u).slot i).valid = true ∧
        (((q.set i t).set i u).slot i).owner = h
      rw [hself]
      exact ⟨hu.valid.trans hacq.valid, hu.owner.trans hop.symm⟩
    · rw [if_neg hop] at hh
      exact .inl hh
  · intro issue hissue
    rcases List.mem_cons.mp hissue with rfl | h
    · refine .inr ⟨hacq.lt, ?_, ?_⟩
      · show (q.set i t).idOf i = ((q.slot i).releases % 65536) <<< 16 ||| i
        rw [Pool.idOf, hold, ht.gen, hacq.ok.gen i, ht.index, hacq.ok.index i hacq.lt]
      · show (q.slot i).releases ≤ (((q.set i t).set i u).slot i).releases
        rw [hself]
        exact Nat.le_of_eq hu.releases.symm
    · exact .inl h

/-- A start of an empty handle. -/
theorem Inv.acquire (hi : Inv s) (hclear : op.stage ≠ .clear) (cb privData : Nat)
    (answer : Answer) : Inv (s.acquire op cb privData answer) := by
  rw [Port.acquire]
  cases hacquire : s.pool.acquire answer.allocated with
  | none =>
    exact hi.section hclear hi.pool rfl rfl (Nat.le_refl _) (fun _ _ _ => rfl)
      (fun _ _ => Nat.le_refl _) hi.bound (fun _ _ h => .inl h) (fun _ h => .inl h)
  | some acquired =>
    obtain ⟨i, pool⟩ := acquired
    have hacq := Pool.acquired_of_acquire hi.pool hacquire
    have ht : Taken op (pool.slot i) { pool.slot i with
        cb := some cb, privData, owner := op.handle, boundFor := (pool.slot i).releases } :=
      ⟨rfl, rfl, rfl, rfl, rfl, rfl, rfl⟩
    cases answer.task with
    | none => exact hi.acquireFailed hclear hacq ht
    | some task => exact hi.acquireStarted hclear hacq ht (ht.withTask task)

/-- A write that leaves the occupancy of a slot alone. -/
theorem set_occupancy (s : Port) (hvalid : t.valid = (s.slot i).valid)
    (howner : t.owner = (s.slot i).owner) (hreleases : t.releases = (s.slot i).releases) (j : Nat) :
    ((s.pool.set i t).slot j).valid = (s.slot j).valid ∧
      ((s.pool.set i t).slot j).owner = (s.slot j).owner ∧
      ((s.pool.set i t).slot j).releases = (s.slot j).releases := by
  by_cases hj : j = i
  · rw [hj, Pool.set_slot_self]
    exact ⟨hvalid, howner, hreleases⟩
  · rw [Pool.set_slot_of_ne s.pool t hj]
    exact ⟨rfl, rfl, rfl⟩

section
variable (hi : Inv s)
include hi

section
variable (hop : op ∈ s.ops)
include hop

/-- A step of an operation that writes one slot and leaves its occupancy alone. -/
theorem Inv.write {u : Port} (hclear : op.stage ≠ .clear) (hset : (s.pool.set i t).Ok)
    (hvalid : t.valid = (s.slot i).valid) (howner : t.owner = (s.slot i).owner)
    (hreleases : t.releases = (s.slot i).releases)
    (hbound : (s.slot i).valid = true → t.boundFor = (s.slot i).releases) {next : List Op}
    (hnext : next = [] ∨ ∃ stage, next = [{ op with stage }] ∧
      Op.cancels { op with stage } = op.cancels ∧
      ∀ x, Op.uses { op with stage } = some x → op.uses = some x)
    (hpool : u.pool = s.pool.set i t) (hops : u.ops = next ++ s.ops.erase op)
    (hhandle : u.handle = s.handle) (hrunning : u.running = s.running)
    (hissued : u.issued = s.issued) : Inv u := by
  have hocc := set_occupancy s hvalid howner hreleases
  have hslot : ∀ j, u.slot j = (s.pool.set i t).slot j := by
    intro j
    rw [slot, hpool]
  have hsize : u.pool.size = s.pool.size := by
    rw [hpool]
    rfl
  have hothers := hi.others hop
  have hmem : ∀ o ∈ u.ops, o ∈ s.ops ∨ ∃ stage, o = { op with stage } ∧
      Op.cancels { op with stage } = op.cancels ∧
      ∀ x, Op.uses { op with stage } = some x → op.uses = some x := by
    intro o ho
    rw [hops] at ho
    rcases List.mem_append.mp ho with ho | ho
    · rcases hnext with rfl | ⟨stage, rfl, h⟩
      · cases ho
      · exact .inr ⟨stage, List.mem_singleton.mp ho, h⟩
    · exact .inl (List.mem_of_mem_erase ho)
  have hcurrent : ∀ o ∈ s.ops, Current u o := by
    intro o ho j occupancy huses
    have h := hi.current o ho j occupancy huses
    rw [hsize, hslot, (hocc j).1, (hocc j).2.1, (hocc j).2.2]
    exact h
  refine ⟨hpool ▸ hset, ?_, ?_, ?_, ?_, ?_, ?_, ?_⟩
  · intro h k hh
    rw [hhandle] at hh
    rw [hsize, hslot, (hocc k).1, (hocc k).2.1]
    refine (hi.handles h k hh).imp id ?_
    intro ⟨o, ho, heq, hstage⟩
    refine ⟨o, ?_, heq, hstage⟩
    rw [hops]
    refine List.mem_append_right _ ((List.mem_erase_of_ne ?_).mpr ho)
    rintro rfl
    exact hclear hstage
  · intro o ho
    rcases hmem o ho with ho | ⟨stage, rfl, -, huses⟩
    · exact hcurrent o ho
    · intro j occupancy h
      exact hcurrent op hop j occupancy (huses _ h)
  · rw [hops]
    rcases hnext with rfl | ⟨stage, rfl, hcancels, -⟩
    · exact hothers.2
    · refine List.pairwise_cons.mpr ⟨?_, hothers.2⟩
      intro o ho
      have hcompat := hothers.1 o ho
      rw [Compatible] at hcompat ⊢
      rw [hcancels]
      exact hcompat
  · intro o ho
    rw [hrunning]
    rcases hmem o ho with ho | ⟨stage, rfl, -⟩
    · exact hi.inside o ho
    · exact hi.inside op hop
  · intro j hv
    rw [hslot] at hv ⊢
    rw [(hocc j).1] at hv
    rw [(hocc j).2.2]
    by_cases hj : j = i
    · rw [hj] at hv ⊢
      rw [Pool.set_slot_self]
      exact hbound hv
    · rw [Pool.set_slot_of_ne s.pool t hj]
      exact hi.bound j hv
  · rw [hissued]
    intro issue hissue
    have hknown := hi.issued issue hissue
    rw [Known, hsize, hslot, (hocc issue.index).2.2]
    exact hknown
  · rw [hrunning]
    exact hi.running

variable {occupancy : Nat}

/-- A start of a timer binds its callback for the occupancy that it has read. -/
theorem Inv.rebind {cb privData : Nat} (hstage : op.stage = .rebind i occupancy cb privData)
    (ht : t = { s.slot i with cb := some cb, privData, boundFor := occupancy }) :
    Inv ({ s with pool := s.pool.set i t }.leave op) := by
  have hcurrent := hi.current op hop i occupancy (by rw [Op.uses, hstage])
  refine hi.write hop (t := t) ?_ ?_ (by rw [ht]) (by rw [ht]) (by rw [ht]) ?_ (.inl rfl)
    rfl rfl rfl rfl rfl
  · rw [hstage]
    nofun
  · rw [ht]
    exact hi.pool.set rfl rfl rfl rfl rfl
  · intro _
    rw [ht]
    exact hcurrent.2.2.2.symm

/-- The scheduler's cancel leaves the slot in use. -/
theorem Inv.cancelTask (hstage : op.stage = .cancelTask i occupancy)
    (ht : t = { s.slot i with task := none }) {stage : Stage}
    (hnext : stage = .release i occupancy ∨ stage = .clear) :
    Inv ({ s with pool := s.pool.set i t }.proceed op stage) := by
  refine hi.write hop (t := t) ?_ ?_ (by rw [ht]) (by rw [ht]) (by rw [ht]) ?_
    (.inr ⟨stage, rfl, ?_, ?_⟩) rfl rfl rfl rfl rfl
  · rw [hstage]
    nofun
  · rw [ht]
    exact hi.pool.set rfl rfl rfl rfl rfl
  · rw [ht]
    exact hi.bound i
  · rcases hnext with rfl | rfl <;> rw [Op.cancels, Op.cancels, hstage]
  · intro x hx
    rcases hnext with rfl | rfl
    · rw [Op.uses, hstage]
      exact hx
    · cases hx

/-- The release ends the occupancy. No other operation has read it, and the handle is cleared
next. -/
theorem Inv.release (hstage : op.stage = .release i occupancy) (hlock : s.canLock op = true) :
    Inv ({ s with pool := s.pool.release i }.proceed op .clear) := by
  have hcurrent := hi.current op hop i occupancy (by rw [Op.uses, hstage])
  have hothers := hi.others hop
  have hcancels : op.cancels = true := by rw [Op.cancels, hstage]
  have hslot : ∀ j, j ≠ i → (s.pool.release i).slot j = s.slot j := fun j hj => if_neg hj
  have hself : ((s.pool.release i).slot i).valid = false ∧
      ((s.pool.release i).slot i).releases = (s.slot i).releases + 1 := by
    have h : (s.pool.release i).slot i = _ := if_pos rfl
    rw [h]
    exact ⟨rfl, rfl⟩
  -- Another operation on the handle is one of a callback, and with it the mutex is not free.
  have halone : ∀ o ∈ s.ops.erase op, o.handle ≠ op.handle := by
    intro o ho heq
    have hcompat := hothers.1 o ho
    have hin := (hcompat.2 heq.symm).1 hcancels
    rw [canLock, Bool.or_eq_true] at hlock
    rcases hlock with h | h
    · exact hcompat.1 ⟨h, hin.1⟩
    · have hrun := hi.inside o (List.mem_of_mem_erase ho) hin.1
      rw [Option.isNone_iff_eq_none] at h
      rw [h] at hrun
      cases hrun
  refine ⟨hi.pool.release hcurrent.1 hcurrent.2.1, ?_, ?_, ?_, ?_, ?_, ?_, hi.running⟩
  · intro h k hh
    rcases hi.handles h k hh with hv | ⟨o, ho, heq, hclear⟩
    · by_cases hk : k = i
      · refine .inr ⟨{ op with stage := .clear }, List.mem_cons_self, ?_, rfl⟩
        show op.handle = h
        rw [← hcurrent.2.2.1, ← hv.2.2, hk]
      · refine .inl ⟨hv.1, ?_⟩
        show ((s.pool.release i).slot k).valid = true ∧ ((s.pool.release i).slot k).owner = h
        rw [hslot k hk]
        exact hv.2
    · refine .inr ⟨o, List.mem_cons_of_mem _ ((List.mem_erase_of_ne ?_).mpr ho), heq, hclear⟩
      intro heq
      rw [heq, hstage] at hclear
      cases hclear
  · refine List.forall_mem_cons.mpr ⟨nofun, ?_⟩
    intro o ho j occupancy' huses
    have hcur := hi.current o (List.mem_of_mem_erase ho) j occupancy' huses
    have hji : j ≠ i := by
      rintro rfl
      exact halone o ho (hcur.2.2.1.symm.trans hcurrent.2.2.1)
    show j < s.pool.size ∧ ((s.pool.release i).slot j).valid = true ∧
      ((s.pool.release i).slot j).owner = o.handle ∧
      ((s.pool.release i).slot j).releases = occupancy'
    rw [hslot j hji]
    exact hcur
  · refine List.pairwise_cons.mpr ⟨?_, hothers.2⟩
    intro o ho
    exact ⟨(hothers.1 o ho).1, fun heq => absurd heq.symm (halone o ho)⟩
  · refine List.forall_mem_cons.mpr ⟨hi.inside op hop, ?_⟩
    intro o ho
    exact hi.inside o (List.mem_of_mem_erase ho)
  · intro j hv
    have hv' : ((s.pool.release i).slot j).valid = true := hv
    have hji : j ≠ i := by
      rintro rfl
      rw [hself.1] at hv'
      cases hv'
    show ((s.pool.release i).slot j).boundFor = ((s.pool.release i).slot j).releases
    rw [hslot j hji] at hv' ⊢
    exact hi.bound j hv'
  · intro issue hissue
    have hknown := hi.issued issue hissue
    refine ⟨hknown.1, hknown.2.1, ?_⟩
    show issue.occupancy ≤ ((s.pool.release i).slot issue.index).releases
    by_cases hk : issue.index = i
    · have h := hknown.2.2
      rw [hk] at h
      rw [hk, hself.2]
      omega
    · rw [hslot _ hk]
      exact hknown.2.2

/-- The cancel ends with an empty handle. -/
theorem Inv.clear :
    Inv ({ s with handle := fun h => if h = op.handle then none else s.handle h }.leave op) := by
  have hothers := hi.others hop
  refine ⟨hi.pool, ?_, ?_, hothers.2, ?_, hi.bound, hi.issued, hi.running⟩
  · intro h k hh
    have hne : h ≠ op.handle := by
      intro heq
      have hnone : (if h = op.handle then none else s.handle h) = some k := hh
      rw [if_pos heq] at hnone
      cases hnone
    have hhandle : s.handle h = some k := (if_neg hne).symm.trans hh
    rcases hi.handles h k hhandle with hv | ⟨o, ho, heq, hclear⟩
    · exact .inl hv
    · refine .inr ⟨o, (List.mem_erase_of_ne ?_).mpr ho, heq, hclear⟩
      rintro rfl
      exact hne heq.symm
  · intro o ho
    exact hi.current o (List.mem_of_mem_erase ho)
  · intro o ho
    exact hi.inside o (List.mem_of_mem_erase ho)

theorem Inv.advance {t : Port} {answer : Answer} (ht : s.advance op answer = some t) : Inv t := by
  rw [Port.advance] at ht
  cases hstage : op.stage with
  | acquire cb privData =>
    rw [hstage] at ht
    obtain ⟨-, ht⟩ := Option.ite_none_right_eq_some.mp ht
    obtain rfl := Option.some.inj ht
    refine hi.acquire ?_ cb privData answer
    rw [hstage]
    nofun
  | rebind i occupancy cb privData =>
    rw [hstage] at ht
    obtain ⟨-, ht⟩ := Option.ite_none_right_eq_some.mp ht
    obtain rfl := Option.some.inj ht
    exact hi.rebind hop hstage rfl
  | cancelTask i occupancy =>
    rw [hstage] at ht
    obtain rfl := Option.some.inj ht
    refine hi.cancelTask hop hstage rfl ?_
    split
    · exact .inl rfl
    · exact .inr rfl
  | release i occupancy =>
    rw [hstage] at ht
    obtain ⟨hlock, ht⟩ := Option.ite_none_right_eq_some.mp ht
    obtain rfl := Option.some.inj ht
    exact hi.release hop hstage hlock
  | clear =>
    rw [hstage] at ht
    obtain rfl := Option.some.inj ht
    exact hi.clear hop

end

/-- A delivery that finds a slot finds the occupancy of its id. -/
theorem Inv.deliver {issue : Issue} (hissue : issue ∈ s.issued)
    (hguard : Serialized s (.deliver issue)) : Inv (s.deliver issue) := by
  rw [Port.deliver]
  cases hlookup : s.pool.lookup issue.id with
  | none => exact hi
  | some i =>
    have hknown := hi.issued issue hissue
    rw [hknown.2.1] at hlookup
    obtain ⟨rfl, hvalid, hgen⟩ := hi.pool.lookup hknown.1 hlookup
    have hreleases : (s.slot issue.index).releases = issue.occupancy := by
      have hlow := hknown.2.2
      rw [Serialized] at hguard
      rw [slot] at hlow hguard ⊢
      omega
    refine ⟨hi.pool, hi.handles, hi.current, hi.compatible, fun _ _ _ => rfl, hi.bound,
      hi.issued, ?_⟩
    intro run hrun
    obtain rfl := Option.some.inj hrun
    exact ⟨rfl, hreleases, (hi.bound issue.index hvalid).trans hreleases⟩

theorem Inv.finish (hnone : !s.ops.any Op.inside) : Inv { s with running := none } := by
  refine ⟨hi.pool, hi.handles, hi.current, hi.compatible, ?_, hi.bound, hi.issued, nofun⟩
  intro op hop hin
  rw [Bool.not_eq_true', List.any_eq_false] at hnone
  exact absurd hin (hnone op hop)

/-- A step that meets the guard keeps the invariant. -/
theorem Inv.step {t : Port} {a : Action} (hguard : Serialized s a) (ht : step s a = some t) :
    Inv t := by
  cases a with
  | get created =>
    obtain rfl := Option.some.inj ht
    exact ⟨hi.pool, hi.handles, hi.current, hi.compatible, hi.inside, hi.bound, hi.issued,
      hi.running⟩
  | start handle cb privData inside =>
    obtain ⟨hcall, ht⟩ := Option.ite_none_right_eq_some.mp ht
    obtain rfl := Option.some.inj ht
    exact hi.start hcall hguard
  | cancel handle inside =>
    obtain ⟨hcall, ht⟩ := Option.ite_none_right_eq_some.mp ht
    obtain rfl := Option.some.inj ht
    exact hi.cancel hcall hguard
  | advance op answer =>
    obtain ⟨hop, ht⟩ := Option.ite_none_right_eq_some.mp ht
    exact hi.advance hop ht
  | deliver issue =>
    obtain ⟨hissue, ht⟩ := Option.ite_none_right_eq_some.mp ht
    obtain rfl := Option.some.inj ht
    exact hi.deliver hissue.1 hguard
  | finish =>
    obtain ⟨hnone, ht⟩ := Option.ite_none_right_eq_some.mp ht
    obtain rfl := Option.some.inj ht
    exact hi.finish hnone.2

end

/-! ### Runs -/

/-- The port before `esp_schedule_port_osal_get`. -/
def Initial (s : Port) : Prop := s = {}

theorem Inv.initial (h : Initial s) : Inv s := by
  subst h
  refine ⟨⟨⟨[], rfl, ?_⟩, Nat.zero_le _, ?_, fun _ => rfl⟩, nofun, nofun, .nil, nofun, ?_,
    nofun, nofun⟩
  · intro i
    refine iff_of_false List.not_mem_nil ?_
    intro h
    exact Nat.not_lt_zero i (Nat.lt_of_lt_of_eq h.1 (Nat.zero_mul _))
  · intro i h
    exact absurd (Nat.lt_of_lt_of_eq h (Nat.zero_mul _)) (Nat.not_lt_zero i)
  · intro i h
    cases h

/-- In every run in which no other operation on a handle overlaps a cancel of it (except a re-arm in
a callback that the cancel waits for) and each id is delivered before 65536 more releases of its
slot: the free list visits each slot that is not in use once, and no other, and ends. The pool
has at most its maximum of blocks. A callback runs only for the occupancy of the slot for which its
id was made, and it is the callback that was set for this occupancy. -/
theorem pool_and_dispatch (hs : Reach Initial step Serialized s) :
    (∃ l, s.pool.Free l ∧ l.Nodup) ∧ s.pool.blockCount ≤ maxBlocks ∧
      ∀ run, s.running = some run → Matches run := by
  have hi := hs.inv Inv (fun _ => Inv.initial) fun _ _ _ hi hguard ht => hi.step hguard ht
  obtain ⟨l, hfree⟩ := hi.pool.free
  exact ⟨⟨l, hfree, hfree.1.nodup⟩, hi.pool.blocks, hi.running⟩

/-- A timer is cancelled while its callback runs, and the callback re-arms it. The cancel releases
the slot after the callback, and another timer takes it. The old id does nothing, and the new id
runs the callback of the other timer. -/
theorem recycledSlot_dispatch : ∃ s run, Reach Initial step Serialized s ∧ s.running = some run ∧
    run.issue.occupancy = 1 ∧ run.cb = some 9 ∧ (∃ l, s.pool.Free l ∧ l.Nodup) ∧
      s.pool.blockCount ≤ maxBlocks ∧ ∀ run, s.running = some run → Matches run := by
  have hrun : Reach Initial step Serialized _ := Reach.exec
    [.get true, .start 0 7 70 false, .advance ⟨0, false, .acquire 7 70⟩ {},
      .deliver ⟨0, 0, 0⟩, .cancel 0 false, .advance ⟨0, false, .cancelTask 0 0⟩ {},
      .start 0 8 80 true, .advance ⟨0, true, .rebind 0 0 8 80⟩ {}, .finish,
      .advance ⟨0, false, .release 0 0⟩ {}, .advance ⟨0, false, .clear⟩ {},
      .start 1 9 90 false, .advance ⟨1, false, .acquire 9 90⟩ {},
      .deliver ⟨0, 0, 0⟩, .deliver ⟨65536, 0, 1⟩] (.start rfl) (by decide) rfl
  exact ⟨_, _, hrun, rfl, rfl, rfl, pool_and_dispatch hrun⟩

/-- An id is delivered before 65536 more releases of its slot. -/
def Fresh (s : Port) : Action → Prop
  | .deliver issue => (s.slot issue.index).releases < issue.occupancy + 65536
  | _ => True

instance (s : Port) : ∀ a, Decidable (Fresh s a)
  | .deliver issue =>
    inferInstanceAs (Decidable ((s.slot issue.index).releases < issue.occupancy + 65536))
  | .get _ | .start _ _ _ _ | .cancel _ _ | .advance _ _ | .finish => inferInstanceAs (Decidable True)

/-- A slot at the head of the free list that is linked to itself leaves no free list. -/
theorem Pool.not_free {p : Pool} (hhead : link p.freeHead = some i) (hnext : p.next i = some i) :
    ¬∃ l, p.Free l ∧ l.Nodup := by
  intro ⟨l, hfree, _⟩
  have hlinked := hfree.1
  rw [hhead] at hlinked
  exact not_linked_of_self hnext hlinked

/-- A cancel waits for the callback of its timer, and the callback cancels the timer too. Both
release the slot, and its link then leads to itself. -/
theorem twiceCancelled_cycle : ∃ s, Reach Initial step Fresh s ∧ s.pool.freeHead = 0 ∧
    s.pool.next 0 = some 0 ∧ ¬∃ l, s.pool.Free l ∧ l.Nodup := by
  exact ⟨_, Reach.exec
    [.get true, .start 0 7 70 false, .advance ⟨0, false, .acquire 7 70⟩ {},
      .deliver ⟨0, 0, 0⟩, .cancel 0 false, .advance ⟨0, false, .cancelTask 0 0⟩ {},
      .cancel 0 true, .advance ⟨0, true, .cancelTask 0 0⟩ {}, .advance ⟨0, true, .release 0 0⟩ {},
      .advance ⟨0, true, .clear⟩ {}, .finish, .advance ⟨0, false, .release 0 0⟩ {}]
    (.start rfl) (by decide) rfl, rfl, rfl, Pool.not_free (i := 0) rfl rfl⟩

end RainMakerNeo.Schedules.Timers
