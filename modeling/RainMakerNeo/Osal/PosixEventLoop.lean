import RainMakerNeo.Lib.Progress
import RainMakerNeo.Lib.RingQueue

/-!
# `RainMakerNeo.Osal.PosixEventLoop`: one thread that dispatches, and any number that post

The default event loop has a ring of 32 events, a list of handlers and one thread that takes the
events out of the ring and calls the handlers. One step of a `Loop` is one section under its mutex,
or one step of the loop thread outside of it. A call by another thread checks its arguments first
and takes the mutex in a later step; in between the loop can be deleted. A call by a handler is one
step, since the loop stays while its thread is in a handler.

`enqueued`, `dequeued` and `started` are the books: the events whose post returned `OSAL_ERR_OK`,
the events that were taken out with the handlers that were registered for them then, and the
handlers that were started. `Served` says how they must agree. `served_iff` says which steps keep
them in agreement. A handler must not post with a wait while the ring is full, because its own
thread would have to make the room (`self_wait_frozen`). The copy of the handlers must not fail.

A wait for room can return at any time, as a wait on a condition may. So the signals on
`cond_not_full` are not recorded. A handler returns, and there is one delete at a time.
-/

set_option autoImplicit false

namespace RainMakerNeo.Osal.PosixEventLoop

open RainMakerNeo.Lib (RingQueue Leads Reach exec)

/-! ### The loop -/

/-- `osal_err_t`, as far as the calls return it. -/
inductive OsalErr
  | ok | fail | noMem | invalidArg | invalidState | timeout
  deriving DecidableEq

/-- An address. The code compares event bases and handlers by address, and `0` is NULL. -/
abbrev Ptr := Nat

/-- `OSAL_EVENT_ID_ANY`. -/
def eventIdAny : Int32 := -1

/-- `OSAL_MAX_DELAY`. -/
def maxDelay : UInt32 := UInt32.ofNat (2 ^ 32 - 1)

/-- `platform_posix_event_item_t`. The data is a copy of its own, with its size. -/
structure EventItem where
  eventBase : Ptr := 0
  eventId : Int32 := 0
  eventData : Option (List UInt8) := none
  deriving DecidableEq

/-- `platform_posix_event_handler_entry_t`. -/
structure HandlerEntry where
  eventBase : Ptr
  eventId : Int32
  handler : Ptr
  handlerArg : Ptr
  deriving DecidableEq

/-- The entry is registered for the event. -/
def HandlerEntry.isFor (h : HandlerEntry) (item : EventItem) : Bool :=
  h.eventBase == item.eventBase && (h.eventId == item.eventId || h.eventId == eventIdAny)

/-- Where the loop thread is in `platform_posix_event_loop_thread`. -/
inductive Worker
  /-- Without the mutex, before the loop takes it. -/
  | unlocked
  | condWait
  /-- Out of `pthread_cond_wait`, without the mutex yet. -/
  | condWoken
  /-- Between two handlers of an event. -/
  | dispatching (item : EventItem) (rest : List HandlerEntry)
  /-- In a handler, which may be in a post that waits for room. -/
  | inHandler (item : EventItem) (rest : List HandlerEntry) (wait : Option (EventItem × UInt32))
  | exited
  deriving DecidableEq

namespace Worker

/-- A signal or a broadcast on `cond_not_empty`. -/
def wake : Worker → Worker
  | .condWait => .condWoken
  | w => w

/-- The post that the loop thread waits in. -/
def ownWait : Worker → Option (EventItem × UInt32)
  | .inHandler _ _ wait => wait
  | .unlocked | .condWait | .condWoken | .dispatching .. | .exited => none

/-- What the loop thread still has to call for the event it is at. -/
def toStart : Worker → List (HandlerEntry × EventItem)
  | .dispatching item rest | .inHandler item rest _ => rest.map fun h => (h, item)
  | .unlocked | .condWait | .condWoken | .exited => []

@[simp] theorem wake_ownWait (w : Worker) : w.wake.ownWait = w.ownWait := by cases w <;> rfl

@[simp] theorem wake_toStart (w : Worker) : w.wake.toStart = w.toStart := by cases w <;> rfl

theorem wake_ne_condWait (w : Worker) : w.wake ≠ .condWait := by cases w <;> nofun

theorem wake_of_ne {w : Worker} (h : w ≠ .condWait) : w.wake = w := by
  cases w with
  | condWait => exact absurd rfl h
  | unlocked | condWoken | dispatching | inHandler | exited => rfl

theorem eq_exited_of_wake {w : Worker} (h : w.wake = .exited) : w = .exited := by
  cases w with
  | exited => rfl
  | unlocked | condWait | condWoken | dispatching | inHandler => exact absurd h (by nofun)

end Worker

/-- A call by another thread that is past its checks. -/
inductive Call
  | post (item : EventItem) (ticksToWait : UInt32)
  /-- The post is in its wait for room. -/
  | postWaiting (item : EventItem) (ticksToWait : UInt32)
  | register (entry : HandlerEntry)
  | unregister (eventBase : Ptr) (eventId : Int32) (handler : Ptr)
  deriving DecidableEq

/-- Who is in `osal_event_loop_delete_default`. -/
inductive Deletion
  | none | byOther | byHandler | done
  deriving DecidableEq

/-- `platform_posix_event_loop_t`, its thread, the calls in it and the books. -/
structure Loop where
  queue : RingQueue EventItem
  handlers : List HandlerEntry
  handlersCapacity : Nat
  running : Bool
  worker : Worker
  calls : List Call
  /-- After `done` the loop is freed, and `g_default_loop` is NULL. -/
  deletion : Deletion
  /-- Some thread has used the loop after that. -/
  usedAfterFree : Bool
  enqueued : List EventItem
  dequeued : List (EventItem × List HandlerEntry)
  started : List (HandlerEntry × EventItem)

/-- `osal_event_loop_create_default`, when everything could be allocated. -/
def Loop.created : Loop where
  queue := .zeroed 32 {}
  handlers := []
  handlersCapacity := 8
  running := true
  worker := .unlocked
  calls := []
  deletion := .none
  usedAfterFree := false
  enqueued := []
  dequeued := []
  started := []

/-- What the allocator, the clock and the wait answer in a section. -/
structure Env where
  malloc : Bool := true
  realloc : Bool := true
  clock : Bool := true
  /-- What `pthread_cond_timedwait` returns: 0, `ETIMEDOUT` or something else. -/
  rc : OsalErr := .ok

/-- How a section of a call ends. -/
inductive Outcome
  | returns (err : OsalErr)
  | waits (call : Call)

namespace Loop

/-- A thread uses the loop. -/
def touch (l : Loop) : Loop :=
  { l with usedAfterFree := l.usedAfterFree || decide (l.deletion = .done) }

/-! ### The loop thread -/

/-- The loop that copies the matching handlers, with `tmp_count < max_tmp` and `tmp != NULL`. -/
def copyMatching (item : EventItem) (tmp : Bool) (maxTmp : Nat) :
    List HandlerEntry → List HandlerEntry → List HandlerEntry
  | copied, [] => copied
  | copied, h :: hs =>
    if h.isFor item && (tmp && decide (copied.length < maxTmp)) then
      copyMatching item tmp maxTmp (copied ++ [h]) hs
    else copyMatching item tmp maxTmp copied hs

/-- The local list of handlers. -/
def snapshot (l : Loop) (item : EventItem) (malloc : Bool) : List HandlerEntry :=
  let maxTmp := l.handlers.length
  copyMatching item (decide (0 < maxTmp) && malloc) maxTmp [] l.handlers

/-- The handlers that are registered for an event, in the order of their registration. -/
def registeredFor (l : Loop) (item : EventItem) : List HandlerEntry :=
  l.handlers.filter fun h => h.isFor item

/-- The loop thread takes the first event out of the ring. -/
def dequeue (l : Loop) (malloc : Bool) : Loop :=
  let item := l.queue.front
  { l with
    queue := l.queue.pop
    worker := .dispatching item (l.snapshot item malloc)
    dequeued := l.dequeued ++ [(item, l.registeredFor item)] }

/-- With the mutex, from the loop `while (running && size == 0)` on. -/
def loopTop (l : Loop) (malloc : Bool) : Loop :=
  if l.queue.size = 0 then
    if l.running then { l with worker := .condWait } else { l with worker := .exited }
  else l.dequeue malloc

/-- The next step of the loop thread, unless it waits. -/
def work (l : Loop) (malloc : Bool) : Option Loop :=
  match l.worker with
  | .unlocked | .condWoken => some (l.touch.loopTop malloc)
  | .dispatching item (h :: rest) => some { l with
      worker := .inHandler item rest none
      started := l.started ++ [(h, item)] }
  | .dispatching _ [] => some { l with worker := .unlocked }
  | .inHandler item rest none =>
    -- a handler that deletes the loop is in the join
    if l.deletion = .byHandler then none else some { l with worker := .dispatching item rest }
  | .inHandler _ _ (some _) | .condWait | .exited => none

/-! ### The calls under the mutex -/

/-- The ring has no free cell. -/
def full (l : Loop) : Bool := l.queue.size == l.queue.capacity

/-- The end of `osal_event_post`, from `if (!loop->running)` on. -/
def enqueue (l : Loop) (item : EventItem) : Outcome × Loop :=
  if !l.running then (.returns .fail, l)
  else
    (.returns .ok,
      { l with
        queue := l.queue.push item, worker := l.worker.wake, enqueued := l.enqueued ++ [item] })

/-- The head of both wait loops. -/
def waitForRoom (l : Loop) (item : EventItem) (ticksToWait : UInt32) : Outcome × Loop :=
  if l.full && l.running then (.waits (.postWaiting item ticksToWait), l) else l.enqueue item

/-- `osal_event_post` from where it takes the mutex. -/
def postLocked (l : Loop) (item : EventItem) (ticksToWait : UInt32) (clock : Bool) :
    Outcome × Loop :=
  if ticksToWait = 0 then
    if l.full then (.returns .timeout, l) else l.enqueue item
  else if ticksToWait ≠ maxDelay then
    if !clock then (.returns .fail, l) else l.waitForRoom item ticksToWait
  else l.waitForRoom item ticksToWait

/-- `osal_event_post` from where a wait returns. Only a finite wait looks at what it returned. -/
def postWoken (l : Loop) (item : EventItem) (ticksToWait : UInt32) (rc : OsalErr) :
    Outcome × Loop :=
  if ticksToWait ≠ maxDelay ∧ rc ≠ .ok then
    (.returns (if rc = .timeout then .timeout else .fail), l)
  else l.waitForRoom item ticksToWait

/-- `osal_event_handler_register`. -/
def register (l : Loop) (entry : HandlerEntry) (realloc : Bool) : Outcome × Loop :=
  if l.handlers.length = l.handlersCapacity then
    if !realloc then (.returns .noMem, l)
    else (.returns .ok, { l with
      handlersCapacity := l.handlersCapacity * 2, handlers := l.handlers ++ [entry] })
  else (.returns .ok, { l with handlers := l.handlers ++ [entry] })

/-- The loop of `osal_event_handler_unregister`, which moves the other entries together. -/
def compact (eventBase : Ptr) (eventId : Int32) (handler : Ptr) :
    Bool → List HandlerEntry → List HandlerEntry
  | _, [] => []
  | removed, h :: hs =>
    if !removed && h.eventBase == eventBase && h.eventId == eventId && h.handler == handler then
      compact eventBase eventId handler true hs
    else h :: compact eventBase eventId handler removed hs

/-- `osal_event_handler_unregister`. -/
def unregister (l : Loop) (eventBase : Ptr) (eventId : Int32) (handler : Ptr) : Outcome × Loop :=
  (.returns .ok, { l with handlers := compact eventBase eventId handler false l.handlers })

/-- The section of a call. -/
def take (l : Loop) (env : Env) : Call → Outcome × Loop
  | .post item ticksToWait => l.postLocked item ticksToWait env.clock
  | .postWaiting item ticksToWait => l.postWoken item ticksToWait env.rc
  | .register entry => l.register entry env.realloc
  | .unregister eventBase eventId handler => l.unregister eventBase eventId handler

end Loop

/-- The arguments of a call. -/
inductive Request
  | post (eventBase : Ptr) (eventId : Int32) (eventData : Option (List UInt8))
      (ticksToWait : UInt32)
  | register (entry : HandlerEntry)
  | unregister (eventBase : Ptr) (eventId : Int32) (handler : Ptr)

/-- The copy of the event data, NULL without any. The allocator can fail. -/
def copyData (eventData : Option (List UInt8)) (malloc : Bool) :
    Except OsalErr (Option (List UInt8)) :=
  match eventData with
  | some (b :: bs) => if malloc then .ok (some (b :: bs)) else .error .noMem
  | some [] | none => .ok none

/-- What a call does before it takes the mutex. -/
def Request.check (deletion : Deletion) (malloc : Bool) : Request → Except OsalErr Call
  | .post eventBase eventId eventData ticksToWait =>
    if deletion = .done then .error .invalidState
    else if eventBase = 0 then .error .invalidArg
    else (copyData eventData malloc).map fun eventData =>
      .post { eventBase, eventId, eventData } ticksToWait
  | .register entry =>
    if deletion = .done then .error .invalidState
    else if entry.eventBase = 0 ∨ entry.handler = 0 then .error .invalidArg
    else .ok (.register entry)
  | .unregister eventBase eventId handler =>
    if deletion = .done then .error .invalidState
    else if eventBase = 0 ∨ handler = 0 then .error .invalidArg
    else .ok (.unregister eventBase eventId handler)

/-! ### The steps -/

/-- A step of the loop thread, of a call or of the delete. -/
inductive Action
  | work (malloc : Bool)
  /-- The wait of the loop thread on `cond_not_empty` returns without a signal. -/
  | spurious
  /-- A handler makes a call. -/
  | byHandler (req : Request) (env : Env)
  /-- The wait of a handler for room returns. -/
  | handlerWoken (env : Env)
  /-- Another thread makes a call, up to the mutex. -/
  | enter (req : Request) (malloc : Bool)
  /-- The call at the index takes the mutex. -/
  | proceed (i : Nat) (env : Env)
  | delete (byHandler : Bool)
  /-- The join of the delete returns, and the loop is freed. -/
  | joined
  /-- `pthread_join` of the calling thread itself fails, and the loop is freed. -/
  | selfJoined

namespace Loop

/-- A call of a handler. -/
def handlerCall (l : Loop) (item : EventItem) (rest : List HandlerEntry) (env : Env)
    (call : Call) : Loop :=
  match l.take env call with
  | (.waits (.postWaiting waiting ticks), m) =>
    { m with worker := .inHandler item rest (some (waiting, ticks)) }
  | (_, m) => { m with worker := .inHandler item rest none }

/-- A call of another thread takes the mutex. -/
def proceed (l : Loop) (i : Nat) (env : Env) : Option Loop :=
  l.calls[i]?.map fun call =>
    match l.touch.take env call with
    | (.waits waiting, m) => { m with calls := l.calls.set i waiting }
    | (.returns _, m) => { m with calls := l.calls.eraseIdx i }

/-- `osal_event_loop_delete_default` up to `pthread_join`. -/
def delete (l : Loop) (byHandler : Bool) : Loop :=
  { l with
    running := false
    worker := l.worker.wake
    deletion := if byHandler then .byHandler else .byOther }

/-- The rest of `osal_event_loop_delete_default`. -/
def free (l : Loop) : Loop :=
  { l with queue := l.queue.drain, deletion := .done }

/-- The loop thread is in a handler that may make a call. -/
def inHandler (l : Loop) : Option (EventItem × List HandlerEntry) :=
  match l.worker with
  | .inHandler item rest none => if l.deletion = .byHandler then none else some (item, rest)
  | _ => none

end Loop

/-- One step. -/
def step (l : Loop) : Action → Option Loop
  | .work malloc => l.work malloc
  | .spurious => some { l with worker := l.worker.wake }
  | .byHandler req env => l.inHandler.map fun (item, rest) =>
    match req.check l.deletion env.malloc with
    | .error _ => l
    | .ok call => l.handlerCall item rest env call
  | .handlerWoken env =>
    match l.worker with
    | .inHandler item rest (some (waiting, ticks)) =>
      some (l.handlerCall item rest env (.postWaiting waiting ticks))
    | _ => none
  | .enter req malloc =>
    match req.check l.deletion malloc with
    | .error _ => some l
    | .ok call => some { l with calls := l.calls ++ [call] }
  | .proceed i env => l.proceed i env
  | .delete byHandler =>
    match l.deletion with
    | .none =>
      if byHandler = true → l.inHandler.isSome = true then some (l.delete byHandler) else none
    | .done => some l
    | .byOther | .byHandler => none
  | .joined => if l.deletion = .byOther ∧ l.worker = .exited then some l.free else none
  | .selfJoined => if l.deletion = .byHandler then some l.free else none

/-! ### What the loop owes -/

/-- A step that the loop thread takes by itself, with memory for the copy of the handlers. -/
def Action.own : Action → Bool
  | .work malloc => malloc
  | .selfJoined => true
  | .spurious | .byHandler .. | .handlerWoken _ | .enter .. | .proceed .. | .delete _ | .joined =>
    false

/-- The loop thread, left to itself, leads from one state to the other. -/
abbrev LeadsTo : Loop → Loop → Prop := Leads step fun a => a.own = true

/-- The calls that a dequeued event asks for. -/
def dispatches (e : EventItem × List HandlerEntry) : List (HandlerEntry × EventItem) :=
  e.2.map fun h => (h, e.1)

/-- The books agree, and the loop thread can go on. -/
structure Served (l : Loop) : Prop where
  /-- The ring is consistent, and it holds what was enqueued and not dequeued, in this order. -/
  ordered : ∃ queue, l.queue.Holds queue ∧ l.enqueued = l.dequeued.map Prod.fst ++ queue
  /-- Each dequeued event goes once to each handler that was registered for it then, in the order
  of the events and of the registrations. -/
  once : l.started ++ l.worker.toStart = l.dequeued.flatMap dispatches
  /-- The loop thread does not wait for room in its own ring. -/
  noWait : l.worker.ownWait = none
  /-- No thread uses the loop after it was freed, and none is in it when it is freed. -/
  safe : ∀ u, LeadsTo l u → u.usedAfterFree = false ∧
    (u.deletion = .done → u.calls = [] ∧ u.worker = .exited)
  /-- The events that are in the ring come to be dispatched. -/
  delivered : ∃ u, LeadsTo l u ∧ u.enqueued = l.enqueued ∧
    u.dequeued.map Prod.fst = u.enqueued ∧ u.worker.toStart = []

/-- The call gets to the wait for room. -/
def Request.blocks (l : Loop) (env : Env) : Request → Bool
  | .post eventBase _ eventData ticksToWait =>
    eventBase != 0 && (copyData eventData env.malloc).isOk && ticksToWait != 0 &&
      (ticksToWait == maxDelay || env.clock) && l.full && l.running
  | .register _ | .unregister .. => false

/-- A step that the loop can take. The copy of the handlers fails only for an event without
handlers. A handler makes no post that has to wait for room, and it does not delete the loop. The
loop is freed when no thread is in a call. -/
def InBounds (l : Loop) : Action → Prop
  | .work malloc => malloc = false → (l.worker = .unlocked ∨ l.worker = .condWoken) →
      l.queue.size ≠ 0 → l.registeredFor l.queue.front = []
  | .byHandler req env => req.blocks l env = false
  | .delete byHandler => byHandler = true → l.deletion ≠ .none
  | .joined => l.calls = []
  | .spurious | .handlerWoken _ | .enter .. | .proceed .. | .selfJoined => True

instance (l : Loop) (a : Action) : Decidable (InBounds l a) := by
  cases a <;> unfold InBounds <;> infer_instance

theorem InBounds.of_own {l : Loop} {a : Action} (h : a.own = true) : InBounds l a := by
  cases a with
  | work malloc => exact fun hfails => absurd (hfails.symm.trans h) (by nofun)
  | selfJoined => trivial
  | spurious | byHandler | handlerWoken | enter | proceed | delete | joined =>
    exact absurd h (by simp [Action.own])

/-! ### The handlers -/

/-- With memory, the copy has the matching entries. -/
theorem copyMatching_true (item : EventItem) (maxTmp : Nat) (copied hs : List HandlerEntry)
    (h : copied.length + hs.length ≤ maxTmp) :
    Loop.copyMatching item true maxTmp copied hs = copied ++ hs.filter fun h => h.isFor item := by
  induction hs generalizing copied with
  | nil => simp [Loop.copyMatching]
  | cons x hs ih =>
    rw [List.length_cons] at h
    have hroom : copied.length < maxTmp := by omega
    rw [Loop.copyMatching]
    by_cases hx : x.isFor item = true
    · have hlen : (copied ++ [x]).length + hs.length ≤ maxTmp := by
        rw [List.length_append, List.length_singleton]
        omega
      rw [if_pos (by simp [hx, hroom]), ih _ hlen, List.filter_cons_of_pos (by simpa using hx)]
      simp
    · rw [if_neg (by simp [hx]), ih _ (by omega), List.filter_cons_of_neg (by simpa using hx)]

theorem copyMatching_false (item : EventItem) (maxTmp : Nat) (copied hs : List HandlerEntry) :
    Loop.copyMatching item false maxTmp copied hs = copied := by
  induction hs generalizing copied with
  | nil => rfl
  | cons x hs ih =>
    rw [Loop.copyMatching, if_neg (by simp)]
    exact ih copied

section
variable {l : Loop}

/-- The copy is what is registered, unless the allocation fails for an event with handlers. -/
theorem Loop.snapshot_eq {item : EventItem} {malloc : Bool}
    (h : malloc = false → l.registeredFor item = []) :
    l.snapshot item malloc = l.registeredFor item := by
  rw [Loop.snapshot]
  cases hmalloc : malloc with
  | false => rw [Bool.and_false, copyMatching_false, h hmalloc]
  | true =>
    rw [Bool.and_true]
    cases hhandlers : l.handlers with
    | nil => rw [Loop.registeredFor, hhandlers]; rfl
    | cons x hs =>
      rw [decide_eq_true (by simp), copyMatching_true _ _ _ _ (by simp), Loop.registeredFor,
        hhandlers, List.nil_append]

theorem Loop.snapshot_of_fails (item : EventItem) : l.snapshot item false = [] := by
  rw [Loop.snapshot, Bool.and_false, copyMatching_false]

end

/-! ### The invariant -/

/-- The invariant of the runs whose steps are in bounds. -/
structure Inv (l : Loop) : Prop where
  ordered : ∃ queue, l.queue.Holds queue ∧ l.enqueued = l.dequeued.map Prod.fst ++ queue
  once : l.started ++ l.worker.toStart = l.dequeued.flatMap dispatches
  noWait : l.worker.ownWait = none
  idle : l.worker = .condWait → l.running = true ∧ l.queue.size = 0
  exited : l.worker = .exited → l.running = false ∧ l.queue.size = 0
  running : l.running = true ↔ l.deletion = .none
  deleter : l.deletion ≠ .byHandler
  done : l.deletion = .done → l.calls = [] ∧ l.worker = .exited
  unused : l.usedAfterFree = false

theorem Inv.created : Inv .created where
  ordered := ⟨[], RingQueue.holds_zeroed _ (by decide), rfl⟩
  once := rfl
  noWait := rfl
  idle := by nofun
  exited := by nofun
  running := ⟨fun _ => rfl, fun _ => rfl⟩
  deleter := by nofun
  done := by nofun
  unused := rfl

section
variable {l : Loop}

/-- As long as some thread is in the loop it is there. -/
theorem Inv.touch_eq (hi : Inv l) (h : l.worker ≠ .exited ∨ l.calls ≠ []) : l.touch = l := by
  have hthere : l.deletion ≠ .done := by
    intro hdone
    obtain ⟨hcalls, hworker⟩ := hi.done hdone
    exact h.elim (fun hne => hne hworker) fun hne => hne hcalls
  have hflag : (l.usedAfterFree || decide (l.deletion = .done)) = l.usedAfterFree := by
    simp [hthere]
  rw [Loop.touch, hflag]

/-- Another place for the loop thread, with as much to call. -/
theorem Inv.move (hi : Inv l) (hexit : l.worker ≠ .exited) {w : Worker}
    (hstart : w.toStart = l.worker.toStart) (hwait : w.ownWait = none)
    (hidle : w = .condWait → l.running = true ∧ l.queue.size = 0)
    (hexited : w = .exited → l.running = false ∧ l.queue.size = 0) :
    Inv { l with worker := w } where
  ordered := hi.ordered
  once := by
    show l.started ++ w.toStart = l.dequeued.flatMap dispatches
    rw [hstart]
    exact hi.once
  noWait := hwait
  idle := hidle
  exited := hexited
  running := hi.running
  deleter := hi.deleter
  done hdone := absurd (hi.done hdone).2 hexit
  unused := hi.unused

/-- A wake-up on `cond_not_empty`. -/
theorem Inv.wake (hi : Inv l) : Inv { l with worker := l.worker.wake } := by
  by_cases hw : l.worker = .condWait
  · rw [hw]
    exact hi.move (by simp [hw]) (by rw [hw]; rfl) rfl (by nofun) (by nofun)
  · rw [Worker.wake_of_ne hw]
    exact hi

variable {malloc : Bool} {item : EventItem} {rest : List HandlerEntry} {m : Loop} {req : Request}
  {env : Env} {a : Action}

/-- The first event goes from the ring to its handlers. -/
theorem Inv.dequeue (hi : Inv l) (hstart : l.worker.toStart = []) (hexit : l.worker ≠ .exited)
    (hsize : l.queue.size ≠ 0) (hmalloc : malloc = false → l.registeredFor l.queue.front = []) :
    Inv (l.dequeue malloc) where
  ordered := by
    obtain ⟨queue, hholds, henqueued⟩ := hi.ordered
    obtain ⟨x, rest, rfl⟩ := hholds.exists_cons hsize
    obtain ⟨hfront, hpop⟩ := hholds.pop
    refine ⟨rest, hpop, ?_⟩
    show l.enqueued
      = (l.dequeued ++ [(l.queue.front, l.registeredFor l.queue.front)]).map Prod.fst ++ rest
    rw [henqueued, hfront, List.map_append, List.append_assoc]
    rfl
  once := by
    have honce := hi.once
    rw [hstart, List.append_nil] at honce
    show l.started ++ (l.snapshot l.queue.front malloc).map (fun h => (h, l.queue.front))
      = (l.dequeued ++ [(l.queue.front, l.registeredFor l.queue.front)]).flatMap dispatches
    rw [Loop.snapshot_eq hmalloc, List.flatMap_append, ← honce, List.flatMap_singleton]
    rfl
  noWait := rfl
  idle := by nofun
  exited := by nofun
  running := hi.running
  deleter := hi.deleter
  done hdone := absurd (hi.done hdone).2 hexit
  unused := hi.unused

theorem Inv.loopTop (hi : Inv l) (hstart : l.worker.toStart = []) (hexit : l.worker ≠ .exited)
    (hmalloc : malloc = false → l.queue.size ≠ 0 → l.registeredFor l.queue.front = []) :
    Inv (l.loopTop malloc) := by
  rw [Loop.loopTop]
  by_cases hsize : l.queue.size = 0
  · rw [if_pos hsize]
    by_cases hrunning : l.running = true
    · rw [if_pos hrunning]
      exact hi.move hexit hstart.symm rfl (fun _ => ⟨hrunning, hsize⟩) (by nofun)
    · rw [if_neg hrunning]
      have hstopped : l.running = false := by simpa using hrunning
      exact hi.move hexit hstart.symm rfl (by nofun) fun _ => ⟨hstopped, hsize⟩
  · rw [if_neg hsize]
    exact hi.dequeue hstart hexit hsize fun hfails => hmalloc hfails hsize

/-- A handler starts. -/
theorem Inv.start (hi : Inv l) {h : HandlerEntry} (hw : l.worker = .dispatching item (h :: rest)) :
    Inv { l with worker := .inHandler item rest none, started := l.started ++ [(h, item)] } where
  ordered := hi.ordered
  once := by
    have honce := hi.once
    rw [hw] at honce
    rw [← honce, List.append_assoc]
    rfl
  noWait := rfl
  idle := by nofun
  exited := by nofun
  running := hi.running
  deleter := hi.deleter
  done hdone := absurd (hi.done hdone).2 (by simp [hw])
  unused := hi.unused

/-- Each step of the loop thread keeps the invariant, if it gets its memory. -/
theorem Inv.work (hi : Inv l) (hg : InBounds l (.work malloc)) (h : l.work malloc = some m) :
    Inv m := by
  rw [Loop.work.eq_def] at h
  cases hw : l.worker with
  | unlocked | condWoken =>
    rw [hw] at h
    have hexit : l.worker ≠ .exited := by simp [hw]
    obtain rfl := Option.some.inj h
    rw [hi.touch_eq (.inl hexit)]
    exact hi.loopTop (by rw [hw]; rfl) hexit fun hfails => hg hfails (by simp [hw])
  | dispatching item rest =>
    rw [hw] at h
    have hexit : l.worker ≠ .exited := by simp [hw]
    cases rest with
    | nil =>
      obtain rfl := Option.some.inj h
      exact hi.move hexit (by rw [hw]; rfl) rfl (by nofun) (by nofun)
    | cons x rest =>
      obtain rfl := Option.some.inj h
      exact hi.start hw
  | inHandler item rest wait =>
    have hwait := hi.noWait
    rw [hw] at h hwait
    obtain rfl : wait = none := hwait
    dsimp only at h
    rw [if_neg hi.deleter] at h
    obtain rfl := Option.some.inj h
    exact hi.move (by simp [hw]) (by rw [hw]; rfl) rfl (by nofun) (by nofun)
  | condWait | exited =>
    rw [hw] at h
    exact absurd h (by nofun)

/-! ### The calls keep the invariant -/

/-- The loop after a post that was accepted. -/
def Loop.pushed (l : Loop) (item : EventItem) : Loop :=
  { l with queue := l.queue.push item, worker := l.worker.wake, enqueued := l.enqueued ++ [item] }

/-- An effect of a section: nothing, a push into a free cell, or a change of the handlers. -/
inductive Effect (l : Loop) : Loop → Prop
  | same : Effect l l
  | pushed (item : EventItem) (hrunning : l.running = true) (hfull : l.full = false) :
      Effect l (l.pushed item)
  | handlers (handlers : List HandlerEntry) (handlersCapacity : Nat) :
      Effect l { l with handlers, handlersCapacity }

theorem Effect.enqueue (hfull : l.running = true → l.full = false) (item : EventItem) :
    Effect l (l.enqueue item).2 := by
  rw [Loop.enqueue]
  by_cases hrunning : l.running = true
  · rw [if_neg (by simp [hrunning])]
    exact .pushed item hrunning (hfull hrunning)
  · rw [if_pos (by simpa using hrunning)]
    exact .same

theorem Effect.waitForRoom (item : EventItem) (ticksToWait : UInt32) :
    Effect l (l.waitForRoom item ticksToWait).2 := by
  rw [Loop.waitForRoom]
  split
  · exact .same
  · rename_i hroom
    refine .enqueue (fun hrunning => ?_) item
    simpa [hrunning] using hroom

theorem Effect.take (env : Env) (call : Call) : Effect l (l.take env call).2 := by
  cases call with
  | post item ticksToWait =>
    show Effect l (l.postLocked item ticksToWait env.clock).2
    rw [Loop.postLocked]
    split
    · split
      · exact .same
      · rename_i hfull
        exact .enqueue (fun _ => by simpa using hfull) item
    · split
      · split
        · exact .same
        · exact .waitForRoom item ticksToWait
      · exact .waitForRoom item ticksToWait
  | postWaiting item ticksToWait =>
    show Effect l (l.postWoken item ticksToWait env.rc).2
    rw [Loop.postWoken]
    split
    · exact .same
    · exact .waitForRoom item ticksToWait
  | register entry =>
    show Effect l (l.register entry env.realloc).2
    rw [Loop.register]
    split
    · split
      · exact .same
      · exact .handlers _ _
    · exact .handlers _ _
  | unregister eventBase eventId handler => exact .handlers _ l.handlersCapacity

theorem Inv.pushed (hi : Inv l) (item : EventItem) (hrunning : l.running = true)
    (hfull : l.full = false) : Inv (l.pushed item) where
  ordered := by
    obtain ⟨queue, hholds, henqueued⟩ := hi.ordered
    -- the one check before a push, a comparison for equality, is enough
    have hne : l.queue.size ≠ l.queue.capacity := by simpa [Loop.full] using hfull
    have hfree : l.queue.size < l.queue.capacity := Nat.lt_of_le_of_ne hholds.size_le hne
    refine ⟨queue ++ [item], hholds.push hfree item, ?_⟩
    show l.enqueued ++ [item] = l.dequeued.map Prod.fst ++ (queue ++ [item])
    rw [henqueued, List.append_assoc]
  once := by
    show l.started ++ l.worker.wake.toStart = l.dequeued.flatMap dispatches
    rw [Worker.wake_toStart]
    exact hi.once
  noWait := by
    show l.worker.wake.ownWait = none
    rw [Worker.wake_ownWait]
    exact hi.noWait
  idle h := absurd h (Worker.wake_ne_condWait _)
  exited h := by
    have hstopped := (hi.exited (Worker.eq_exited_of_wake h)).1
    exact absurd (hrunning.symm.trans hstopped) (by nofun)
  running := hi.running
  deleter := hi.deleter
  done hdone := by
    have hopen : l.deletion = .none := hi.running.mp hrunning
    exact absurd (hopen.symm.trans hdone) (by nofun)
  unused := hi.unused

theorem Inv.handlers (hi : Inv l) (handlers : List HandlerEntry) (handlersCapacity : Nat) :
    Inv { l with handlers, handlersCapacity } where
  ordered := hi.ordered
  once := hi.once
  noWait := hi.noWait
  idle := hi.idle
  exited := hi.exited
  running := hi.running
  deleter := hi.deleter
  done := hi.done
  unused := hi.unused

theorem Inv.effect (hi : Inv l) (h : Effect l m) : Inv m := by
  cases h with
  | same => exact hi
  | pushed item hrunning hfull => exact hi.pushed item hrunning hfull
  | handlers handlers handlersCapacity => exact hi.handlers handlers handlersCapacity

/-- A section of a call leaves alone what the delete and the loop thread are at. -/
theorem Effect.frame (h : Effect l m) : m.deletion = l.deletion ∧
    m.calls = l.calls ∧ (l.worker ≠ .condWait → m.worker = l.worker) := by
  cases h with
  | same => exact ⟨rfl, rfl, fun _ => rfl⟩
  | pushed => exact ⟨rfl, rfl, fun hw => Worker.wake_of_ne hw⟩
  | handlers => exact ⟨rfl, rfl, fun _ => rfl⟩

theorem Loop.waitForRoom_waits {ticksToWait : UInt32} {waiting : Call}
    (h : (l.waitForRoom item ticksToWait).1 = .waits waiting) :
    l.full = true ∧ l.running = true := by
  rw [Loop.waitForRoom] at h
  split at h
  · rename_i hwaits
    simpa using hwaits
  · rw [Loop.enqueue] at h
    split at h <;> exact absurd h (by nofun)

/-- A call that gets to the wait for room is a post that the guard knows. -/
theorem Request.blocks_of_waits {call waiting : Call}
    (hcheck : req.check l.deletion env.malloc = .ok call)
    (h : (l.take env call).1 = .waits waiting) : req.blocks l env = true := by
  cases req with
  | post eventBase eventId eventData ticksToWait =>
    rw [Request.check] at hcheck
    split at hcheck
    · exact absurd hcheck (by nofun)
    split at hcheck
    · exact absurd hcheck (by nofun)
    rename_i hbase
    cases hcopy : copyData eventData env.malloc with
    | error err =>
      rw [hcopy] at hcheck
      exact absurd hcheck (by nofun)
    | ok data =>
      rw [hcopy] at hcheck
      obtain rfl := Except.ok.inj hcheck
      change (l.postLocked _ ticksToWait env.clock).1 = .waits waiting at h
      rw [Loop.postLocked] at h
      have hcopied : (copyData eventData env.malloc).isOk = true := by rw [hcopy]; rfl
      by_cases hzero : ticksToWait = 0
      · rw [if_pos hzero] at h
        split at h
        · exact absurd h (by nofun)
        · rw [Loop.enqueue] at h
          split at h <;> exact absurd h (by nofun)
      · rw [if_neg hzero] at h
        by_cases hmax : ticksToWait = maxDelay
        · rw [if_neg (not_not.mpr hmax)] at h
          obtain ⟨hfull, hrunning⟩ := Loop.waitForRoom_waits h
          have hmaxZero : maxDelay ≠ 0 := hmax ▸ hzero
          simp [Request.blocks, hbase, hcopied, hmax, hmaxZero, hfull, hrunning]
        · rw [if_pos hmax] at h
          split at h
          · exact absurd h (by nofun)
          · rename_i hclock
            obtain ⟨hfull, hrunning⟩ := Loop.waitForRoom_waits h
            have hclock : env.clock = true := by simpa using hclock
            simp [Request.blocks, hbase, hcopied, hzero, hclock, hfull, hrunning]
  | register entry =>
    rw [Request.check] at hcheck
    split at hcheck
    · exact absurd hcheck (by nofun)
    split at hcheck
    · exact absurd hcheck (by nofun)
    obtain rfl := Except.ok.inj hcheck
    change (l.register entry env.realloc).1 = .waits waiting at h
    rw [Loop.register] at h
    split at h
    · split at h <;> exact absurd h (by nofun)
    · exact absurd h (by nofun)
  | unregister eventBase eventId handler =>
    rw [Request.check] at hcheck
    split at hcheck
    · exact absurd hcheck (by nofun)
    split at hcheck
    · exact absurd hcheck (by nofun)
    obtain rfl := Except.ok.inj hcheck
    exact absurd h (by nofun)

/-! ### The steps keep the invariant -/

theorem Loop.inHandler_some (h : l.inHandler = some (item, rest)) :
    l.worker = .inHandler item rest none := by
  rw [Loop.inHandler] at h
  split at h
  · rename_i hw
    split at h
    · exact absurd h (by nofun)
    · obtain ⟨rfl, rfl⟩ := Prod.mk.inj (Option.some.inj h)
      exact hw
  · exact absurd h (by nofun)

/-- A call of a handler that does not wait is its section. -/
theorem Loop.handlerCall_returns {call : Call} (hw : l.worker = .inHandler item rest none)
    (h : ∀ waiting, (l.take env call).1 ≠ .waits waiting) :
    l.handlerCall item rest env call = (l.take env call).2 := by
  have hworker := (Effect.take env call : Effect l _).frame.2.2 (by simp [hw])
  rw [hw] at hworker
  rw [Loop.handlerCall]
  cases htake : l.take env call with
  | mk outcome m =>
    rw [htake] at h hworker
    cases outcome with
    | waits waiting => exact absurd rfl (h waiting)
    | returns err =>
      show { m with worker := .inHandler item rest none } = m
      rw [← hworker]

theorem Inv.byHandler (hi : Inv l) (hg : req.blocks l env = false)
    (h : step l (.byHandler req env) = some m) : Inv m := by
  obtain ⟨⟨item, rest⟩, hin, hm⟩ := Option.map_eq_some_iff.mp h
  have hw := Loop.inHandler_some hin
  dsimp only at hm
  cases hcheck : req.check l.deletion env.malloc with
  | error err =>
    rw [hcheck] at hm
    exact hm ▸ hi
  | ok call =>
    rw [hcheck] at hm
    have hreturns : ∀ waiting, (l.take env call).1 ≠ .waits waiting := by
      intro waiting hwaits
      exact absurd (hg.symm.trans (Request.blocks_of_waits hcheck hwaits)) (by nofun)
    dsimp only at hm
    rw [Loop.handlerCall_returns hw hreturns] at hm
    exact hm ▸ hi.effect (.take env call)

/-- A call is admitted only while the loop is there. -/
theorem Request.not_done_of_check {deletion : Deletion} {call : Call}
    (h : req.check deletion malloc = .ok call) : deletion ≠ .done := by
  rintro rfl
  cases req <;> exact absurd h (by nofun)

section
variable (hi : Inv l)
include hi

/-- Other calls under way, while the loop is there. -/
theorem Inv.withCalls (hthere : l.deletion ≠ .done) (calls : List Call) : Inv { l with calls } where
  ordered := hi.ordered
  once := hi.once
  noWait := hi.noWait
  idle := hi.idle
  exited := hi.exited
  running := hi.running
  deleter := hi.deleter
  done hdone := absurd hdone hthere
  unused := hi.unused

theorem Inv.enter (h : step l (.enter req malloc) = some m) : Inv m := by
  rw [step] at h
  cases hcheck : req.check l.deletion malloc with
  | error err =>
    rw [hcheck] at h
    exact Option.some.inj h ▸ hi
  | ok call =>
    rw [hcheck] at h
    exact Option.some.inj h ▸ hi.withCalls (Request.not_done_of_check hcheck) _

theorem Inv.proceed {i : Nat} (h : l.proceed i env = some m) : Inv m := by
  obtain ⟨call, hcall, hm⟩ := Option.map_eq_some_iff.mp h
  have hcalls : l.calls ≠ [] := by
    intro hnil
    rw [hnil] at hcall
    exact absurd hcall (by simp)
  have hthere : l.deletion ≠ .done := fun hdone => hcalls (hi.done hdone).1
  rw [hi.touch_eq (.inr hcalls)] at hm
  have heffect : Effect l (l.take env call).2 := .take env call
  have hdeletion := heffect.frame.1
  have htaken := hi.effect heffect
  cases htake : l.take env call with
  | mk outcome n =>
    rw [htake] at hm hdeletion htaken
    cases outcome <;> exact hm ▸ htaken.withCalls (hdeletion ▸ hthere) _

theorem Inv.delete : Inv (l.delete false) where
  ordered := hi.ordered
  once := by
    show l.started ++ l.worker.wake.toStart = l.dequeued.flatMap dispatches
    rw [Worker.wake_toStart]
    exact hi.once
  noWait := by
    show l.worker.wake.ownWait = none
    rw [Worker.wake_ownWait]
    exact hi.noWait
  idle h := absurd h (Worker.wake_ne_condWait _)
  exited h := ⟨rfl, (hi.exited (Worker.eq_exited_of_wake h)).2⟩
  running := ⟨by nofun, by nofun⟩
  deleter := by nofun
  done := by nofun
  unused := hi.unused

/-- The loop is freed with an empty ring and no thread in it. -/
theorem Inv.free (hexited : l.worker = .exited) (hcalls : l.calls = []) : Inv l.free := by
  -- the loop thread exits with an empty ring only, so the drain loses nothing
  obtain ⟨hstopped, hsize⟩ := hi.exited hexited
  obtain ⟨queue, hholds, henqueued⟩ := hi.ordered
  obtain rfl := hholds.eq_nil hsize
  have hdrained : l.queue.drain.size = 0 := hholds.drain.length_eq.symm
  exact {
    ordered := ⟨[], hholds.drain, henqueued⟩
    once := hi.once
    noWait := hi.noWait
    idle := fun h => absurd (hexited.symm.trans h) (by nofun)
    exited := fun _ => ⟨hstopped, hdrained⟩
    running := ⟨fun h => absurd (hstopped.symm.trans h) (by nofun), by nofun⟩
    deleter := by nofun
    done := fun _ => ⟨hcalls, hexited⟩
    unused := hi.unused }

/-- A step in bounds keeps the invariant. -/
theorem Inv.step (hg : InBounds l a) (h : step l a = some m) : Inv m := by
  cases a with
  | work malloc => exact hi.work hg h
  | spurious => exact Option.some.inj h ▸ hi.wake
  | byHandler req env => exact hi.byHandler hg h
  | handlerWoken env =>
    rw [PosixEventLoop.step] at h
    have hwait := hi.noWait
    split at h
    · rename_i hw
      rw [hw] at hwait
      exact absurd hwait (by nofun)
    · exact absurd h (by nofun)
  | enter req malloc => exact hi.enter h
  | proceed i env => exact hi.proceed h
  | delete byHandler =>
    rw [PosixEventLoop.step] at h
    split at h
    · rename_i hopen
      split at h
      · obtain rfl := Option.some.inj h
        cases byHandler with
        | false => exact hi.delete
        | true => exact absurd hopen (hg rfl)
      · exact absurd h (by nofun)
    · exact Option.some.inj h ▸ hi
    · exact absurd h (by nofun)
    · exact absurd h (by nofun)
  | joined =>
    rw [PosixEventLoop.step] at h
    split at h
    · rename_i hjoined
      exact Option.some.inj h ▸ hi.free hjoined.2 hg
    · exact absurd h (by nofun)
  | selfJoined =>
    rw [PosixEventLoop.step, if_neg hi.deleter] at h
    exact absurd h (by nofun)

theorem Inv.leadsTo (h : LeadsTo l m) : Inv m :=
  Leads.inv Inv (fun _ _ _ hi ha hstep => hi.step (.of_own ha) hstep) h hi

/-! ### Progress -/

/-- How many steps the loop thread is from its next look at the ring. -/
def Worker.toLook : Worker → Nat
  | .dispatching _ rest => 2 * rest.length + 2
  | .inHandler _ rest _ => 2 * rest.length + 3
  | .unlocked | .condWoken => 1
  | .condWait | .exited => 0

/-- How many steps the loop thread is at most from an empty ring. -/
def Loop.toDrain (l : Loop) : Nat :=
  l.queue.size * (2 * l.handlers.length + 2) + l.worker.toLook

/-- The loop thread has an event to dispatch or a handler to call. -/
def Loop.busy (l : Loop) : Prop := l.queue.size ≠ 0 ∨ l.worker.toStart ≠ []

theorem Inv.toward_drain (hbusy : l.busy) :
    ∃ m, l.work true = some m ∧ m.enqueued = l.enqueued ∧ m.toDrain < l.toDrain := by
  cases hw : l.worker with
  | unlocked | condWoken =>
    have hsize : l.queue.size ≠ 0 := by
      refine hbusy.resolve_right fun hstart => hstart ?_
      rw [hw]
      rfl
    refine ⟨l.dequeue true, ?_, rfl, ?_⟩
    · rw [Loop.work.eq_def, hw]
      simp only [hi.touch_eq (.inl (by simp [hw])), Loop.loopTop, if_neg hsize]
    -- one event less pays for the calls of all handlers
    · have hle : (l.snapshot l.queue.front true).length ≤ l.handlers.length := by
        rw [Loop.snapshot_eq (by nofun)]
        exact List.length_filter_le _ _
      obtain ⟨n, hn⟩ := Nat.exists_eq_succ_of_ne_zero hsize
      have hmul := Nat.succ_mul n (2 * l.handlers.length + 2)
      show (l.queue.size - 1) * (2 * l.handlers.length + 2)
        + (2 * (l.snapshot l.queue.front true).length + 2) < l.toDrain
      rw [Loop.toDrain, hw, hn, hmul, Nat.succ_sub_one]
      show _ < _ + 1
      omega
  | dispatching item rest =>
    cases rest with
    | nil =>
      refine ⟨{ l with worker := .unlocked }, by rw [Loop.work.eq_def, hw], rfl, ?_⟩
      rw [Loop.toDrain, Loop.toDrain, hw]
      exact Nat.add_lt_add_left (show 1 < 2 by omega) _
    | cons x rest =>
      refine ⟨{ l with
        worker := .inHandler item rest none, started := l.started ++ [(x, item)] }, ?_, rfl, ?_⟩
      · rw [Loop.work.eq_def, hw]
      · rw [Loop.toDrain, Loop.toDrain, hw]
        refine Nat.add_lt_add_left ?_ _
        show 2 * rest.length + 3 < 2 * (rest.length + 1) + 2
        omega
  | inHandler item rest wait =>
    have hwait := hi.noWait
    rw [hw] at hwait
    obtain rfl : wait = none := hwait
    refine ⟨{ l with worker := .dispatching item rest }, ?_, rfl, ?_⟩
    · rw [Loop.work.eq_def, hw]
      exact if_neg hi.deleter
    · rw [Loop.toDrain, Loop.toDrain, hw]
      exact Nat.add_lt_add_left (show 2 * rest.length + 2 < 2 * rest.length + 3 by omega) _
  | condWait =>
    refine absurd hbusy ?_
    rw [Loop.busy, hw]
    simp [(hi.idle hw).2, Worker.toStart]
  | exited =>
    refine absurd hbusy ?_
    rw [Loop.busy, hw]
    simp [(hi.exited hw).2, Worker.toStart]

/-- The invariant gives what the loop owes. -/
theorem Inv.served : Served l where
  ordered := hi.ordered
  once := hi.once
  noWait := hi.noWait
  safe u hu := ⟨(hi.leadsTo hu).unused, (hi.leadsTo hu).done⟩
  delivered := by
    have hlead : ∃ u, LeadsTo l u ∧ (Inv u ∧ u.enqueued = l.enqueued) ∧ ¬ u.busy := by
      refine Leads.of_rank Loop.toDrain _ _ ?_ ⟨hi, rfl⟩
      rintro s ⟨his, henqueued⟩ hbusy
      obtain ⟨u, hu, hsame, hlt⟩ := his.toward_drain (not_not.mp hbusy)
      have hinv : Inv u := his.step (a := .work true) (.of_own rfl) hu
      exact ⟨.work true, u, rfl, hu, ⟨hinv, hsame.trans henqueued⟩, hlt⟩
    obtain ⟨u, hu, ⟨hinv, henqueued⟩, hidle⟩ := hlead
    rw [Loop.busy, not_or, not_not, not_not] at hidle
    obtain ⟨queue, hholds, hbooks⟩ := hinv.ordered
    obtain rfl := hholds.eq_nil hidle.1
    exact ⟨u, hu, henqueued, by rw [hbooks, List.append_nil], hidle.2⟩

/-! ### The steps out of bounds -/

/-- Each step that keeps the books in agreement is in bounds. -/
theorem Inv.inBounds (h : PosixEventLoop.step l a = some m) (hm : Served m) : InBounds l a := by
  cases a with
  | spurious | handlerWoken | enter | proceed | selfJoined => trivial
  | work malloc =>
    rintro rfl hw hsize
    have hstart : l.worker.toStart = [] := by obtain hw | hw := hw <;> rw [hw] <;> rfl
    have hexit : l.worker ≠ .exited := by obtain hw | hw := hw <;> simp [hw]
    have hdequeue : l.work false = some (l.dequeue false) := by
      rw [Loop.work.eq_def]
      obtain hw | hw := hw <;> rw [hw] <;>
        simp only [hi.touch_eq (.inl hexit), Loop.loopTop, if_neg hsize]
    obtain rfl := Option.some.inj (hdequeue.symm.trans h)
    have honce := hi.once
    rw [hstart, List.append_nil] at honce
    -- nothing is called, and the books ask for the handlers of the event
    have hnow : l.started ++ (l.snapshot l.queue.front false).map (fun h => (h, l.queue.front))
      = (l.dequeued ++ [(l.queue.front, l.registeredFor l.queue.front)]).flatMap dispatches :=
      hm.once
    rw [Loop.snapshot_of_fails, List.flatMap_append, ← honce, List.flatMap_singleton] at hnow
    have hnone : dispatches (l.queue.front, l.registeredFor l.queue.front) = [] :=
      (List.append_cancel_left hnow).symm
    exact List.map_eq_nil_iff.mp hnone
  | byHandler req env =>
    obtain ⟨⟨item, rest⟩, hin, hcall⟩ := Option.map_eq_some_iff.mp h
    cases req with
    | register | unregister => rfl
    | post eventBase eventId eventData ticksToWait =>
      by_contra hblocks
      simp only [InBounds, Request.blocks, Bool.not_eq_false, Bool.and_eq_true, bne_iff_ne,
        Bool.or_eq_true, beq_iff_eq] at hblocks
      obtain ⟨⟨⟨⟨⟨hbase, hcopy⟩, hzero⟩, hclock⟩, hfull⟩, hrunning⟩ := hblocks
      have hthere : l.deletion ≠ .done := by simp [hi.running.mp hrunning]
      cases hdata : copyData eventData env.malloc with
      | error err =>
        rw [hdata] at hcopy
        exact absurd hcopy (by nofun)
      | ok data =>
        have hcheck : (Request.post eventBase eventId eventData ticksToWait).check l.deletion
            env.malloc = .ok (.post { eventBase, eventId, eventData := data } ticksToWait) := by
          rw [Request.check, if_neg hthere, if_neg hbase, hdata]
          rfl
        have hroom : ∀ item, l.waitForRoom item ticksToWait =
            (.waits (.postWaiting item ticksToWait), l) := by
          intro item
          rw [Loop.waitForRoom, if_pos (by rw [hfull, hrunning]; rfl)]
        have hlocked : ∀ item, l.postLocked item ticksToWait env.clock =
            (.waits (.postWaiting item ticksToWait), l) := by
          intro item
          rw [Loop.postLocked, if_neg hzero]
          by_cases hmax : ticksToWait = maxDelay
          · rw [if_neg (not_not.mpr hmax), hroom]
          · rw [if_pos hmax, if_neg (by simp [hclock.resolve_left hmax]), hroom]
        dsimp only at hcall
        rw [hcheck] at hcall
        have hwait : m.worker.ownWait = some ({ eventBase, eventId, eventData := data },
            ticksToWait) := by
          rw [← hcall]
          simp only [Loop.handlerCall, Loop.take, hlocked]
          rfl
        exact absurd (hm.noWait.symm.trans hwait) (by nofun)
  | delete byHandler =>
    rintro rfl hopen
    rw [PosixEventLoop.step, hopen] at h
    dsimp only at h
    split at h
    · rename_i henabled
      obtain rfl := Option.some.inj h
      obtain ⟨⟨item, rest⟩, hin⟩ := Option.isSome_iff_exists.mp (henabled rfl)
      have hfree : LeadsTo (l.delete true) (l.delete true).free :=
        .single (a := .selfJoined) rfl rfl
      have hexited : l.worker.wake = .exited := ((hm.safe _ hfree).2 rfl).2
      rw [Loop.inHandler_some hin] at hexited
      exact absurd hexited (by nofun)
    · exact absurd h (by nofun)
  | joined =>
    rw [PosixEventLoop.step] at h
    split at h
    · obtain rfl := Option.some.inj h
      exact ((hm.safe _ (.refl _)).2 rfl).1
    · exact absurd h (by nofun)

end

/-! ### A handler that waits for its own thread -/

/-- The loop thread waits for room without a limit, and nobody deletes the loop. -/
structure Frozen (l : Loop) : Prop where
  waits : ∃ item rest waiting, l.worker = .inHandler item rest (some (waiting, maxDelay))
  full : l.full = true
  running : l.running = true
  deletion : l.deletion = .none

theorem Frozen.step (hf : Frozen l) (ha : ∀ byHandler, a ≠ .delete byHandler)
    (h : PosixEventLoop.step l a = some m) : Frozen m ∧ m.started = l.started := by
  obtain ⟨item, rest, waiting, hw⟩ := hf.waits
  cases a with
  | work malloc =>
    -- the thread that would make room is the one that waits for it
    change l.work malloc = some m at h
    rw [Loop.work.eq_def, hw] at h
    exact absurd h (by nofun)
  | spurious =>
    rw [PosixEventLoop.step, Worker.wake_of_ne (by simp [hw])] at h
    exact Option.some.inj h ▸ ⟨hf, rfl⟩
  | byHandler req env =>
    rw [PosixEventLoop.step, Loop.inHandler, hw] at h
    exact absurd h (by nofun)
  | handlerWoken env =>
    have htake : l.take env (.postWaiting waiting maxDelay)
        = (.waits (.postWaiting waiting maxDelay), l) := by
      show l.postWoken waiting maxDelay env.rc = _
      rw [Loop.postWoken, if_neg (by simp), Loop.waitForRoom,
        if_pos (by rw [hf.full, hf.running]; rfl)]
    rw [PosixEventLoop.step, hw] at h
    obtain rfl := Option.some.inj h
    rw [Loop.handlerCall, htake]
    exact ⟨⟨⟨item, rest, waiting, rfl⟩, hf.full, hf.running, hf.deletion⟩, rfl⟩
  | enter req malloc =>
    rw [PosixEventLoop.step] at h
    split at h
    · exact Option.some.inj h ▸ ⟨hf, rfl⟩
    · exact Option.some.inj h ▸ ⟨⟨hf.waits, hf.full, hf.running, hf.deletion⟩, rfl⟩
  | proceed i env =>
    obtain ⟨call, hcall, hm⟩ := Option.map_eq_some_iff.mp h
    have hkept : ∀ n, Effect l.touch n → Frozen n ∧ n.started = l.started := by
      intro n heffect
      cases heffect with
      | same => exact ⟨⟨hf.waits, hf.full, hf.running, hf.deletion⟩, rfl⟩
      | pushed _ _ hroom => exact absurd (hf.full.symm.trans hroom) (by nofun)
      | handlers => exact ⟨⟨hf.waits, hf.full, hf.running, hf.deletion⟩, rfl⟩
    have htaken := hkept _ (.take env call)
    cases htake : l.touch.take env call with
    | mk outcome n =>
      rw [htake] at hm htaken
      obtain ⟨hn, hstarted⟩ := htaken
      cases outcome <;>
        exact hm ▸ ⟨⟨hn.waits, hn.full, hn.running, hn.deletion⟩, hstarted⟩
  | delete byHandler => exact absurd rfl (ha byHandler)
  | joined =>
    rw [PosixEventLoop.step, if_neg (by simp [hf.deletion])] at h
    exact absurd h (by nofun)
  | selfJoined =>
    rw [PosixEventLoop.step, if_neg (by simp [hf.deletion])] at h
    exact absurd h (by nofun)

/-- When a handler waits without a limit while the ring is full, no handler is called again. -/
theorem self_wait_frozen (hf : Frozen l)
    (h : Leads PosixEventLoop.step (fun a => ∀ byHandler, a ≠ .delete byHandler) l m) :
    Frozen m ∧ m.started = l.started := by
  refine Leads.inv (fun n => Frozen n ∧ n.started = l.started) ?_ h ⟨hf, rfl⟩
  rintro s a t ⟨hs, hsame⟩ ha hstep
  obtain ⟨ht, hstarted⟩ := hs.step ha hstep
  exact ⟨ht, hstarted.trans hsame⟩

end

/-! ### The loop over the runs -/

/-- In a run whose steps are all in bounds the books agree in every state, and a further step
keeps them in agreement exactly when it is in bounds as well. -/
theorem served_iff {l : Loop} (h : Reach (fun l => l = .created) step InBounds l) :
    Served l ∧ ∀ a m, step l a = some m → (Served m ↔ InBounds l a) := by
  have hi : Inv l := by
    refine h.inv Inv ?_ fun _ _ _ hi hg hstep => hi.step hg hstep
    rintro _ rfl
    exact .created
  refine ⟨hi.served, fun a m hstep => ⟨hi.inBounds hstep, fun hg => ?_⟩⟩
  exact (hi.step hg hstep).served

/-- An entry for the events of base 1. -/
def anyOfOne : HandlerEntry where
  eventBase := 1
  eventId := eventIdAny
  handler := 7
  handlerArg := 0

/-- A post of an event of base 1 without data. -/
def postOne (eventId : Int32) (ticksToWait : UInt32) : Request := .post 1 eventId none ticksToWait

/-- Another thread makes a call. -/
def called (req : Request) : List Action := [.enter req true, .proceed 0 {}]

/-- A run with a post of a handler, an unregister and a delete. -/
def servedRun : List Action :=
  called (.register anyOfOne) ++ called (postOne 2 0) ++ [.work true, .work true,
    .byHandler (postOne 3 maxDelay) {}] ++ called (.unregister 1 eventIdAny 7) ++
    [.delete false, .work true, .work true, .work true]

theorem served_iff_servedRun : ∃ l, exec step .created servedRun = some l ∧
    l.started = [(anyOfOne, { eventBase := 1, eventId := 2 })] ∧ Served l ∧
    ∀ a m, step l a = some m → (Served m ↔ InBounds l a) :=
  ⟨_, rfl, rfl, served_iff (Reach.exec servedRun (.start rfl) (by decide +kernel) rfl)⟩

/-- While a handler runs, 32 posts fill the ring, and then the handler posts without a limit. -/
def fullRingRun : List Action :=
  called (.register anyOfOne) ++ called (postOne 2 0) ++ [.work true, .work true] ++
    (List.replicate 32 (called (postOne 3 0))).flatten ++ [.byHandler (postOne 4 maxDelay) {}]

theorem self_wait_frozen_fullRing : ∃ l m, exec step .created fullRingRun = some l ∧
    step l (.handlerWoken {}) = some m ∧ Frozen m ∧ m.started = l.started :=
  ⟨_, _, rfl, rfl, self_wait_frozen ⟨⟨_, _, _, rfl⟩, rfl, rfl, rfl⟩
    (.single (a := .handlerWoken {}) (fun _ h => (by cases h)) rfl)⟩

/-- The copy of the handlers fails for an event that has one. -/
def noCopyRun : List Action :=
  called (.register anyOfOne) ++ called (postOne 2 0) ++ [.work false, .work true]

/-- In the first run the loop thread waits for room in its own ring. In the second an event is
dequeued and done with, and its handler was never called. -/
theorem full_ring_freezes :
    (∃ l, exec step .created fullRingRun = some l ∧
      l.worker.ownWait = some ({ eventBase := 1, eventId := 4 }, maxDelay)) ∧
    (∃ l, exec step .created noCopyRun = some l ∧ l.worker = .unlocked ∧ l.started = [] ∧
      l.dequeued = [({ eventBase := 1, eventId := 2 }, [anyOfOne])]) ∧
    ¬ ∀ l, Reach (fun l => l = .created) step (fun _ _ => True) l → Served l := by
  have hwaits : ∃ l, exec step .created fullRingRun = some l ∧
      l.worker.ownWait = some ({ eventBase := 1, eventId := 4 }, maxDelay) := ⟨_, rfl, rfl⟩
  refine ⟨hwaits, ⟨_, rfl, rfl, rfl, rfl⟩, fun h => ?_⟩
  obtain ⟨l, hrun, hwait⟩ := hwaits
  have hserved := h l (Reach.exec_true fullRingRun (.start rfl) hrun)
  exact absurd (hserved.noWait.symm.trans hwait) (by nofun)

end RainMakerNeo.Osal.PosixEventLoop
