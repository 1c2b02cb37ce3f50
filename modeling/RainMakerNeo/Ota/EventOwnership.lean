import RainMakerNeo.Lib.Run
import RainMakerNeo.Ota.EventHandlers

/-!
# `RainMakerNeo.Ota.EventOwnership`: who owns a job event

A copy of an event is in the work queue, in the queue for events before the initialization, in the
recovery record, or with the worker that runs its handler. The runs of `step` are the interleavings
of all tasks: any task posts events, the worker runs the handlers command by command, the callback
of the subscription enters an error, the application enables and disables the OTA. `size` is the
number of slots of the event pool.

`OwnedOnce` says that each slot and each block of an event has one owner in all of these places and
the pool. `Careful` leaves out the steps that drop an event: an error that is entered while the
recovery record holds one, an initialization over events that wait for one, and a deinitialization
while an event is kept or a slot is in use. `ownedOnce_of_careful` has the property for the other
runs, and `kept_event_dropped` is a run with a slot that is lost.
-/

set_option autoImplicit false

namespace RainMakerNeo.Ota.Events

open RainMakerNeo.Lib
open RainMakerNeo.Ota.Jobs (JobState ErrorReason)
open RainMakerNeo.Ota.Status (EspError)

/-! ### Data -/

/-- The recovery information of `ota_job_state_ctx_t`. -/
structure Recovery where
  state : JobState := .uninitialized
  eventData : Option Ptr := none
  event : JobEvent := .rebootCheckRequested
  deriving DecidableEq

/-- `ota_job_state_run_once` inside a handler. -/
structure Running where
  event : Ptr
  shouldFree : Bool := true
  prog : Prog

/-- The static variables of `ota_jobs.c` that lead to events, the work queue and its worker. -/
structure State where
  mem : Mem := {}
  workQueue : List Ptr := []
  /-- The mutex of `g_pre_init_event_queue` exists. -/
  mutex : Bool := false
  /-- The events of `g_pre_init_event_queue`. -/
  preInit : List Ptr := []
  /-- `g_pre_init_event_queue.state_initialized`. -/
  initialized : Bool := false
  fsm : JobState := .uninitialized
  recovery : Recovery := {}
  running : Option Running := none
  /-- The callback of the subscription could not post its fetch. -/
  fetchFailed : Bool := false

/-- What the environment answers to a post: the allocation of the list node, those of the copy, and
the work queue. -/
structure PostEnv where
  node : Bool := true
  copy : CopyEnv := {}
  queued : Bool := true
  deriving DecidableEq, Repr

/-- What a handler gets to know in one command. -/
structure Answer where
  choice : Bool := true
  err : EspError := .ok
  /-- The payload of the event that is enqueued. -/
  payload : PayloadArg := {}
  env : PostEnv := {}
  deriving DecidableEq, Repr

/-- What happens next. -/
inductive Action
  /-- `ota_job_critical_init`. The Booleans tell whether the queue and the mutex are made. -/
  | criticalInit (queueCreated mutexCreated : Bool)
  /-- The end of `ota_job_state_init`: the transition event, and the events that waited. -/
  | stateInit (env : PostEnv) (queued : Nat → Bool)
  /-- `ota_job_state_deinit`. -/
  | deinit
  /-- Any task calls `ota_job_state_post_event`. -/
  | post (msg : Message) (env : PostEnv)
  /-- `ota_job_state_recover`, from the backoff task or the application. -/
  | recover (env : PostEnv)
  /-- The jobs subscription is acknowledged, and the callback posts a fetch. -/
  | subscribed (env : PostEnv)
  /-- The callback could not post, and it enters the error state. -/
  | subscribedError (env : PostEnv)
  /-- The worker takes the next event. -/
  | begin
  /-- The worker runs the next command of the handler. -/
  | worker (answer : Answer)

/-! ### The functions -/

namespace State

/-- `esp_rmaker_work_queue_add_task` in `enqueue_event`. What is not queued is freed. -/
def addTask (size : Nat) (s : State) (p : Ptr) (queued : Bool) : Bool × State :=
  if queued then (true, { s with workQueue := s.workQueue ++ [p] })
  else (false, { s with mem := s.mem.freeEventData size p })

/-- `enqueue_event` of a copy. -/
def enqueueEvent (size : Nat) (s : State) (msg : Message) (env : PostEnv) : Bool × State :=
  match s.mem.copyEventData size msg env.copy with
  | (mem, none) => (false, { s with mem := mem })
  | (mem, some p) => { s with mem := mem }.addTask size p env.queued

/-- `pre_init_event_queue_add_if_not_initialized`, where the machine is not initialized. The list
node is no event memory, and it is left out. -/
def addPreInit (size : Nat) (s : State) (msg : Message) (env : PostEnv) : Bool × State :=
  if s.mutex = false then (false, s)
  else if env.node = false then (false, s)
  else match s.mem.copyEventData size msg env.copy with
    | (mem, none) => (false, { s with mem := mem })
    | (mem, some p) => (true, { s with mem := mem, preInit := s.preInit ++ [p] })

/-- `ota_job_state_post_event`. -/
def postEvent (size : Nat) (s : State) (msg : Message) (env : PostEnv) : Bool × State :=
  if s.initialized then s.enqueueEvent size msg env else s.addPreInit size msg env

/-- `post_error_event`. Nothing looks at the result. -/
def postErrorEvent (size : Nat) (s : State) (env : PostEnv) : State :=
  (s.postEvent size { event := .errorOccurred } env).2

/-- `enter_error_state`. -/
def enterErrorState (size : Nat) (s : State) (reason : ErrorReason) (env : PostEnv) : State :=
  let (state, event) := recoveryFor reason
  { s with recovery := { state, event } }.postErrorEvent size env

/-- `enter_error_state_custom`. -/
def enterErrorStateCustom (size : Nat) (s : State) (recovery : JobState) (p : Ptr)
    (env : PostEnv) : State :=
  { s with
    recovery := { state := recovery, eventData := some p, event := .errorOccurred }
  }.postErrorEvent size env

/-- `pre_init_event_queue_check_init_flag`. -/
def checkInitFlag (s : State) : Bool := s.mutex && s.initialized

/-- `ota_job_critical_init`. A new pre-init queue is empty, whatever the old one held. -/
def criticalInit (size : Nat) (s : State) (queueCreated mutexCreated : Bool) : State :=
  if s.mem.freeQueue.isNone && !queueCreated then s
  else if mutexCreated then
    { s with mem := s.mem.eventPoolInit size, mutex := true, preInit := [], initialized := false }
  else { s with mem := (s.mem.eventPoolInit size).eventPoolDeinit, mutex := false }

/-- The loop of `pre_init_event_queue_enqueue_all_and_set_state_initialized`. The Boolean tells
whether all events were queued. -/
def enqueueAll (size : Nat) (s : State) : List Ptr → (Nat → Bool) → Bool × State
  | [], _ => (true, s)
  | p :: rest, queued =>
    let (added, s) := s.addTask size p (queued 0)
    let (all, s) := s.enqueueAll size rest fun i => queued (i + 1)
    (added && all, s)

/-- The end of `ota_job_state_init`. -/
def stateInit (size : Nat) (s : State) (env : PostEnv) (queued : Nat → Bool) : State :=
  if s.initialized then s
  else
    let (added, s) := { s with fsm := .networkInit }.enqueueEvent size
      { event := .emptyTransition } env
    if added = false then s
    else if s.mutex = false then s
    else
      let (all, s) := { s with preInit := [] }.enqueueAll size s.preInit queued
      { s with initialized := all }

/-- `free_event_data` for the events of a list. -/
def freeAll (size : Nat) (m : Mem) (events : List Ptr) : Mem :=
  events.foldl (Mem.freeEventData size) m

/-- `ota_job_state_deinit`. The context is zeroed, with the pointer in the recovery record. -/
def deinit (size : Nat) (s : State) : State :=
  if s.checkInitFlag = false then s
  else
    { s with
      fsm := .uninitialized
      recovery := {}
      mutex := false
      preInit := []
      initialized := false
      mem := (freeAll size s.mem s.preInit).eventPoolDeinit }

/-- `ota_job_state_recover`. -/
def recover (size : Nat) (s : State) (env : PostEnv) : State :=
  if s.recovery.state = .uninitialized ∨ s.recovery.event = .errorOccurred then s
  else (s.postEvent size { event := .recoveryRequested } env).2

/-- `RMAKER_MQTT_EVENT_SUBSCRIBED` up to the fetch. -/
def subscribed (size : Nat) (s : State) (env : PostEnv) : State :=
  let (posted, s) := s.postEvent size { event := .fetchRequested } env
  { s with fetchFailed := !posted }

/-- `ota_job_state_run_once` up to the handler. An error event takes any state to `ERROR`. -/
def begin (size : Nat) (s : State) (p : Ptr) : State :=
  if s.checkInitFlag = false then { s with mem := s.mem.freeEventData size p }
  else match s.mem.loadEvent p with
    | none => { s with mem := { s.mem with fault := true } }
    | some e =>
      if e.event = .errorOccurred then
        { s with fsm := .error, running := some { event := p, prog := handleStateError e } }
      else { s with running := some { event := p, prog := handleState s.fsm e } }

/-- `ota_job_state_run_once` behind the handler. -/
def finish (size : Nat) (s : State) (r : Running) (next : JobState) : State :=
  let mem := if r.shouldFree then s.mem.freeEventData size r.event else s.mem
  { s with fsm := next, mem := mem, running := none }

/-- The post of `handle_state_error` for a recovery. -/
def postRecovery (size : Nat) (s : State) (env : PostEnv) : Bool × State :=
  match s.recovery.eventData with
  | some p => { s with recovery := { s.recovery with eventData := none } }.addTask size p env.queued
  | none => s.enqueueEvent size { event := s.recovery.event } env

/-- `recovery_reset_context`. -/
def recoveryResetContext (size : Nat) (s : State) : State :=
  { s with
    mem := freeAll size s.mem s.recovery.eventData.toList
    recovery := { state := .uninitialized, eventData := none, event := .errorOccurred } }

/-- The handler goes on. -/
def goOn (s : State) (r : Running) (prog : Prog) : State :=
  { s with running := some { r with prog := prog } }

/-- One command of a handler. -/
def runCommand (size : Nat) (s : State) (r : Running) (answer : Answer) : State :=
  match r.prog with
  | .done next => s.finish size r next
  | .choose k => s.goOn r (k answer.choice)
  | .send k => s.goOn r (k answer.err)
  | .enqueue event payload k =>
    let msg : Message := { event, payload := if payload then some answer.payload else none }
    let (queued, s) := s.enqueueEvent size msg answer.env
    s.goOn r (k queued)
  | .postEvent event k =>
    let (posted, s) := s.postEvent size { event } answer.env
    s.goOn r (k posted)
  | .repost k =>
    let (queued, s) := s.addTask size r.event answer.env.queued
    s.goOn { r with shouldFree := false } (k queued)
  | .error reason k => (s.enterErrorState size reason answer.env).goOn r k
  | .keep _ recovery k =>
    (s.enterErrorStateCustom size recovery r.event answer.env).goOn { r with shouldFree := false } k
  | .postRecovery k =>
    let (queued, s) := s.postRecovery size answer.env
    s.goOn r (k queued)
  | .recoveryReset k => (s.recoveryResetContext size).goOn r (k s.recovery.state)

end State

/-- One step of a task. -/
def step (size : Nat) (s : State) : Action → Option State
  | .criticalInit queueCreated mutexCreated =>
    if s.initialized then none else some (s.criticalInit size queueCreated mutexCreated)
  | .stateInit env queued => some (s.stateInit size env queued)
  | .deinit => some (s.deinit size)
  | .post msg env => some (s.postEvent size msg env).2
  | .recover env => some (s.recover size env)
  | .subscribed env => if s.fetchFailed then none else some (s.subscribed size env)
  | .subscribedError env =>
    if s.fetchFailed then
      some ({ s with fetchFailed := false }.enterErrorState size .retryWithBackoff env)
    else none
  | .begin =>
    match s.running, s.workQueue with
    | none, p :: rest => some ({ s with workQueue := rest }.begin size p)
    | _, _ => none
  | .worker answer => s.running.map fun r => s.runCommand size r answer

/-- Before the OTA is enabled. -/
def Initial (s : State) : Prop := s = {}

/-! ### The property -/

/-- Where an event can be. -/
inductive Place
  | free
  | workQueue
  | preInit
  | recovery
  | processing
  deriving DecidableEq, Repr

/-- The five places. -/
def Place.all : List Place := [.free, .workQueue, .preInit, .recovery, .processing]

namespace State

/-- The event whose handler runs, as long as the handler has not given it away. -/
def processing (s : State) : List Ptr :=
  match s.running with
  | some r => if r.shouldFree then [r.event] else []
  | none => []

/-- The events at a place. -/
def eventsAt (s : State) : Place → List Ptr
  | .free => s.mem.freeSlots
  | .workQueue => s.workQueue
  | .preInit => s.preInit
  | .recovery => s.recovery.eventData.toList
  | .processing => s.processing

/-- How often the places own a slot or a block. -/
def owners (s : State) (r : Resource) : Nat :=
  (Place.all.map fun place => ((s.eventsAt place).flatMap s.mem.owns).count r).sum

/-- The events outside the pool. -/
def held (s : State) : List Ptr :=
  s.workQueue ++ s.preInit ++ s.recovery.eventData.toList ++ s.processing

end State

/-- Each slot of the pool and each block of an event is in one place, once. A slot of no pool and a
freed block are in none, and no freed block was touched. -/
structure OwnedOnce (size : Nat) (s : State) : Prop where
  once : ∀ r, s.mem.Live size r → s.owners r = 1
  none : ∀ r, ¬s.mem.Live size r → s.owners r = 0
  sound : s.mem.fault = false

/-! ### The condition -/

/-- The next command of the handler enters the error state. -/
def State.entersError (s : State) : Bool :=
  s.running.any fun r => match r.prog with
    | .error .. | .keep .. => true
    | _ => false

/-- The steps that drop no event: no error is entered while the recovery record holds an event, no
pre-init queue is made over one with events, and the pool goes only when no slot is in use. -/
def Careful (s : State) : Action → Prop
  | .criticalInit queueCreated mutexCreated =>
    s.mem.freeQueue.isSome ∨ queueCreated = true →
      if mutexCreated then s.preInit = [] else ∀ p ∈ s.held, p.isSlot = false
  | .deinit =>
    s.checkInitFlag = true →
      (∀ p ∈ s.recovery.eventData, p.isSlot = true) ∧
        ∀ p ∈ s.workQueue ++ s.processing, p.isSlot = false
  | .subscribedError _ => s.recovery.eventData = none
  | .worker _ => s.entersError = true → s.recovery.eventData = none
  | _ => True

instance (s : State) : ∀ a, Decidable (Careful s a)
  | .criticalInit queueCreated mutexCreated =>
    inferInstanceAs (Decidable (s.mem.freeQueue.isSome ∨ queueCreated = true →
      if mutexCreated then s.preInit = [] else ∀ p ∈ s.held, p.isSlot = false))
  | .stateInit .. => inferInstanceAs (Decidable True)
  | .deinit => inferInstanceAs (Decidable (s.checkInitFlag = true →
      (∀ p ∈ s.recovery.eventData, p.isSlot = true) ∧
        ∀ p ∈ s.workQueue ++ s.processing, p.isSlot = false))
  | .post .. => inferInstanceAs (Decidable True)
  | .recover _ => inferInstanceAs (Decidable True)
  | .subscribed _ => inferInstanceAs (Decidable True)
  | .subscribedError _ => inferInstanceAs (Decidable (_ = _))
  | .begin => inferInstanceAs (Decidable True)
  | .worker _ => inferInstanceAs (Decidable (_ → _))

/-! ### One function -/

namespace State

variable {size : Nat} {s : State} {extra : List Ptr} {p : Ptr} {r : Running}

/-- The events outside the pool, with those that a function has in hand, are owned once. -/
def Holds (size : Nat) (s : State) (extra : List Ptr) : Prop := Owned size s.mem (extra ++ s.held)

@[simp] theorem addTask_running (queued : Bool) :
    (s.addTask size p queued).2.running = s.running := by
  rw [addTask]
  split <;> rfl

/-- The work queue does not look at the worker. -/
theorem addTask_setRunning (running : Option Running) (queued : Bool) :
    ({ s with running := running } : State).addTask size p queued =
      ((s.addTask size p queued).1,
        { (s.addTask size p queued).2 with running := running }) := by
  cases queued <;> rfl

@[simp] theorem enqueueEvent_running (msg : Message) (env : PostEnv) :
    (s.enqueueEvent size msg env).2.running = s.running := by
  rw [enqueueEvent]
  split
  · rfl
  · rw [addTask_running]

/-- A post does not look at the worker. -/
theorem postEvent_setRunning (running : Option Running) (msg : Message) (env : PostEnv) :
    ({ s with running := running } : State).postEvent size msg env =
      ((s.postEvent size msg env).1,
        { (s.postEvent size msg env).2 with running := running }) := by
  simp only [postEvent]
  split
  · simp only [enqueueEvent]
    split
    · rfl
    · rename_i mem p hmem
      exact addTask_setRunning (s := { s with mem := mem }) running env.queued
  · simp only [addPreInit]
    split_ifs
    · rfl
    · rfl
    · split <;> rfl

@[simp] theorem postEvent_running (msg : Message) (env : PostEnv) :
    (s.postEvent size msg env).2.running = s.running := by
  have hrunning : ({ s with running := s.running } : State).postEvent size msg env =
      ((s.postEvent size msg env).1,
        { (s.postEvent size msg env).2 with running := s.running }) :=
    postEvent_setRunning s.running msg env
  exact congrArg (fun result => result.2.running) hrunning

@[simp] theorem enterErrorState_running (reason : ErrorReason) (env : PostEnv) :
    (s.enterErrorState size reason env).running = s.running := by
  simp only [enterErrorState, postErrorEvent, postEvent_running]

theorem enterErrorStateCustom_setRunning (running : Option Running) (recovery : JobState)
    (env : PostEnv) :
    ({ s with running := running } : State).enterErrorStateCustom size recovery p env =
      { s.enterErrorStateCustom size recovery p env with running := running } := by
  simp only [enterErrorStateCustom, postErrorEvent]
  exact congrArg Prod.snd (postEvent_setRunning (s := { s with
    recovery := { state := recovery, eventData := some p, event := .errorOccurred } }) running _ env)

@[simp] theorem enqueueAll_running (queued : Nat → Bool) (events : List Ptr) :
    (s.enqueueAll size events queued).2.running = s.running := by
  induction events generalizing s queued with
  | nil => rfl
  | cons p rest ih =>
    show ((s.addTask size p (queued 0)).2.enqueueAll size rest _).2.running = _
    rw [ih, addTask_running]

@[simp] theorem postRecovery_running (env : PostEnv) :
    (s.postRecovery size env).2.running = s.running := by
  rw [postRecovery]
  split
  · rw [addTask_running]
  · rw [enqueueEvent_running]

/-- `ota_job_critical_init` goes on with a pool that is there or is made. -/
theorem poolMade_iff {queueCreated : Bool} :
    ¬(s.mem.freeQueue.isNone && !queueCreated) = true ↔
      s.mem.freeQueue.isSome ∨ queueCreated = true := by
  cases hqueue : s.mem.freeQueue <;> cases queueCreated <;> simp

namespace Holds

/-- `enqueue_event` takes an event that is in hand, also when it fails. -/
theorem addTask (h : s.Holds size (p :: extra)) (queued : Bool) :
    (s.addTask size p queued).2.Holds size extra := by
  rw [State.addTask]
  split
  · refine Owned.of_count h ?_
    intro q
    simp [held, processing, List.count_append, List.count_cons]
    omega
  · exact Owned.freeEventData h

theorem enqueueEvent (h : s.Holds size extra) (msg : Message) (env : PostEnv) :
    (s.enqueueEvent size msg env).2.Holds size extra := by
  have hcopy := Owned.copyEventData h msg env.copy
  rw [State.enqueueEvent]
  split
  · rename_i mem hmem
    rw [hmem] at hcopy
    exact hcopy
  · rename_i mem p hmem
    rw [hmem] at hcopy
    exact addTask (s := { s with mem := mem }) hcopy env.queued

theorem addPreInit (h : s.Holds size extra) (msg : Message) (env : PostEnv) :
    (s.addPreInit size msg env).2.Holds size extra := by
  rw [State.addPreInit]
  split_ifs
  · exact h
  · exact h
  · have hcopy := Owned.copyEventData h msg env.copy
    split
    · rename_i mem hmem
      rw [hmem] at hcopy
      exact hcopy
    · rename_i mem p hmem
      rw [hmem] at hcopy
      refine Owned.of_count hcopy ?_
      intro q
      simp [held, processing, List.count_append, List.count_cons]
      omega

theorem postEvent (h : s.Holds size extra) (msg : Message) (env : PostEnv) :
    (s.postEvent size msg env).2.Holds size extra := by
  rw [State.postEvent]
  split
  · exact h.enqueueEvent msg env
  · exact h.addPreInit msg env

/-- A new record takes its event out of the hand, and the event of the old one into it. -/
theorem setRecovery {recovery : Recovery}
    (h : s.Holds size (recovery.eventData.toList ++ extra)) :
    ({ s with recovery := recovery } : State).Holds size
      (s.recovery.eventData.toList ++ extra) := by
  refine Owned.of_count h ?_
  intro q
  simp only [held, processing, List.count_append]
  omega

/-- An error that is entered leaves the event of the old record behind. -/
theorem enterErrorState (h : s.Holds size extra) (reason : ErrorReason) (env : PostEnv) :
    (s.enterErrorState size reason env).Holds size (s.recovery.eventData.toList ++ extra) :=
  postEvent (s := { s with
    recovery := { state := (recoveryFor reason).1, event := (recoveryFor reason).2 } })
    (setRecovery h) _ env

/-- The same for an error that keeps the event in hand. -/
theorem enterErrorStateCustom (h : s.Holds size (p :: extra)) (recovery : JobState)
    (env : PostEnv) :
    (s.enterErrorStateCustom size recovery p env).Holds size
      (s.recovery.eventData.toList ++ extra) :=
  postEvent (s := { s with
    recovery := { state := recovery, eventData := some p, event := .errorOccurred } })
    (setRecovery h) _ env

theorem freeAll {m : Mem} {events held : List Ptr} (h : Owned size m (events ++ held)) :
    Owned size (freeAll size m events) held := by
  induction events generalizing m with
  | nil => exact h
  | cons p events ih => exact ih (Owned.freeEventData h)

theorem enqueueAll {events : List Ptr} (h : s.Holds size (events ++ extra))
    (queued : Nat → Bool) : (s.enqueueAll size events queued).2.Holds size extra := by
  induction events generalizing s queued with
  | nil => exact h
  | cons p rest ih => exact ih (addTask h (queued 0)) _

section
variable (h : s.Holds size [])
include h

/-- A pre-init queue that is made anew leaves the events of the old one behind. -/
theorem resetPreInit :
    ({ s with
        mem := s.mem.eventPoolInit size
        mutex := true
        preInit := []
        initialized := false } : State).Holds size s.preInit := by
  refine Owned.of_count (Owned.eventPoolInit h) ?_
  intro q
  simp only [held, processing, List.count_append, List.nil_append, List.append_nil]
  omega

/-- The events that wait for the initialization are freed. -/
theorem freePreInit :
    Owned size (State.freeAll size s.mem s.preInit)
      (s.recovery.eventData.toList ++ (s.workQueue ++ s.processing)) := by
  apply freeAll
  refine Owned.of_count h ?_
  intro q
  simp only [held, List.count_append, List.nil_append]
  omega

theorem stateInit (env : PostEnv) (queued : Nat → Bool) :
    (s.stateInit size env queued).Holds size [] := by
  rw [State.stateInit]
  split
  · exact h
  · have hqueued := enqueueEvent (s := { s with fsm := .networkInit }) h
      { event := .emptyTransition } env
    dsimp only
    generalize ({ s with fsm := .networkInit } : State).enqueueEvent size
      { event := .emptyTransition } env = r at *
    split_ifs
    · exact hqueued
    · exact hqueued
    · refine enqueueAll (s := { r.2 with preInit := [] }) (Owned.of_count hqueued ?_) queued
      intro q
      simp [held, processing, List.count_append]
      omega

theorem criticalInit {queueCreated mutexCreated : Bool}
    (hcareful : Careful s (.criticalInit queueCreated mutexCreated)) :
    (s.criticalInit size queueCreated mutexCreated).Holds size [] := by
  rw [State.criticalInit]
  split
  · exact h
  · rename_i hpool
    have hcareful := hcareful (poolMade_iff.mp hpool)
    split
    · rename_i hmutex
      rw [if_pos hmutex] at hcareful
      have hinit := h.resetPreInit
      rw [hcareful] at hinit
      exact hinit
    · rename_i hmutex
      rw [if_neg hmutex] at hcareful
      have hgone : ∀ p ∈ ([] : List Ptr), p.isSlot = true := by nofun
      exact Owned.eventPoolDeinit (Owned.eventPoolInit h) hgone hcareful

theorem deinit (hcareful : Careful s .deinit) : (s.deinit size).Holds size [] := by
  rw [State.deinit]
  split
  · exact h
  · rename_i hflag
    obtain ⟨hkept, hslots⟩ := hcareful (Bool.not_eq_false _ ▸ hflag)
    have hrest := h.freePreInit.eventPoolDeinit (by simpa using hkept) hslots
    simpa [Holds, held, processing] using hrest

end

theorem begin (h : s.Holds size [p]) (hidle : s.running = none) :
    (s.begin size p).Holds size [] := by
  have hp : Owned size s.mem
      (s.workQueue ++ s.preInit ++ s.recovery.eventData.toList ++ [p]) := by
    refine Owned.of_count h ?_
    intro q
    simp [held, processing, hidle, List.count_append, List.count_cons]
    omega
  rw [State.begin]
  split
  · exact Owned.freeEventData h
  · split
    · rename_i hload
      -- An event that is owned can be read.
      have htyped := h.typed p List.mem_cons_self
      cases p with
      | slot i => cases hload
      | heap a =>
        obtain ⟨e, he, -⟩ := htyped
        simp [Mem.loadEvent, he] at hload
    · split <;> exact hp

/-- The event goes where the handler has not given it away. -/
theorem finish (h : s.Holds size []) (hr : s.running = some r) (next : JobState) :
    (s.finish size r next).Holds size [] := by
  rw [State.finish]
  have hheld : s.held = s.workQueue ++ s.preInit ++ s.recovery.eventData.toList ++
      if r.shouldFree then [r.event] else [] := by rw [held, processing, hr]
  rw [Holds, hheld] at h
  cases hfree : r.shouldFree with
  | true =>
    rw [hfree, if_pos rfl] at h
    have hperm : Owned size s.mem
        (r.event :: (s.workQueue ++ s.preInit ++ s.recovery.eventData.toList)) :=
      Owned.perm h (List.perm_append_singleton _ _)
    simpa [Holds, held, processing] using hperm.freeEventData
  | false =>
    rw [hfree, if_neg Bool.false_ne_true] at h
    simpa [Holds, held, processing] using h

theorem postRecovery (h : s.Holds size []) (env : PostEnv) :
    (s.postRecovery size env).2.Holds size [] := by
  rw [State.postRecovery]
  split
  · rename_i p hp
    refine addTask (s := { s with recovery := { s.recovery with eventData := none } }) ?_ env.queued
    refine Owned.of_count h ?_
    intro q
    simp [held, processing, hp, List.count_append, List.count_cons]
    omega
  · exact h.enqueueEvent _ env

theorem recoveryResetContext (h : s.Holds size []) :
    (s.recoveryResetContext size).Holds size [] := by
  have hall : Owned size s.mem
      (s.recovery.eventData.toList ++ (s.workQueue ++ s.preInit ++ s.processing)) := by
    refine Owned.of_count h ?_
    intro q
    simp [held, List.count_append]
    omega
  simpa [Holds, held, processing, State.recoveryResetContext] using freeAll hall

/-- The next command has the same event. -/
theorem goOn (h : s.Holds size extra) (hr : s.running = some r) (prog : Prog) :
    (s.goOn r prog).Holds size extra := by
  have hheld : (s.goOn r prog).held = s.held := by
    rw [held, held, processing, processing, hr]
    rfl
  rw [Holds, hheld]
  exact h

/-- A handler that has given its event away holds nothing. -/
theorem goOn_given (h : s.Holds size extra) (hr : s.running = none) (prog : Prog) :
    (s.goOn { r with shouldFree := false } prog).Holds size extra := by
  have hheld : (s.goOn { r with shouldFree := false } prog).held = s.held := by
    rw [held, held, processing, processing, hr]
    rfl
  rw [Holds, hheld]
  exact h

/-- The event of a handler that has it comes into its hand. -/
theorem takeEvent (h : s.Holds size []) (hr : s.running = some r) (hfree : r.shouldFree = true) :
    ({ s with running := none } : State).Holds size [r.event] := by
  refine Owned.of_count h ?_
  intro q
  simp [held, processing, hr, hfree, List.count_append, List.count_cons]
  omega

end Holds

end State

/-! ### The invariant -/

/-- The events are owned once, and the handler that runs follows the rule for its event. -/
structure Inv (size : Nat) (s : State) : Prop where
  holds : s.Holds size []
  disciplined : ∀ r, s.running = some r → r.prog.Disciplined r.shouldFree

section
variable {size : Nat} {s t : State} {r : Running} {a : Action}

theorem Inv.of_running (hi : Inv size s) (hholds : t.Holds size [])
    (hrunning : t.running = s.running) : Inv size t :=
  ⟨hholds, fun r hr => hi.disciplined r (hrunning ▸ hr)⟩

theorem Inv.goOn (hholds : t.Holds size []) (hr : t.running = some r) {prog : Prog}
    (hprog : prog.Disciplined r.shouldFree) : Inv size (t.goOn r prog) := by
  refine ⟨hholds.goOn hr prog, ?_⟩
  rintro _ ⟨rfl⟩
  exact hprog

theorem Inv.goOn_given (hholds : t.Holds size []) (hr : t.running = none) {prog : Prog}
    (hprog : prog.Disciplined false) :
    Inv size (t.goOn { r with shouldFree := false } prog) := by
  refine ⟨hholds.goOn_given hr prog, ?_⟩
  rintro _ ⟨rfl⟩
  exact hprog

section
variable (hi : Inv size s)
include hi

/-- A handler that enters an error leaves the event of the record behind. -/
theorem holds_error {reason : ErrorReason} {k : Prog} (hr : s.running = some r)
    (hk : r.prog = .error reason k) (answer : Answer) :
    (s.runCommand size r answer).Holds size s.recovery.eventData.toList := by
  rw [State.runCommand, hk]
  have herror := hi.holds.enterErrorState reason answer.env
  rw [List.append_nil] at herror
  exact herror.goOn (by simpa using hr) k

/-- A handler that keeps its event for a recovery leaves the event of the record behind. -/
theorem holds_keep {reason : ErrorReason} {recovery : JobState} {k : Prog}
    (hr : s.running = some r) (hk : r.prog = .keep reason recovery k) (answer : Answer) :
    (s.runCommand size r answer).Holds size s.recovery.eventData.toList := by
  obtain ⟨p, shouldFree, prog⟩ := r
  obtain rfl : prog = .keep reason recovery k := hk
  have hprog := hi.disciplined _ hr
  have hkept := (hi.holds.takeEvent hr hprog.1).enterErrorStateCustom recovery answer.env
  -- The context of the handler does not enter the post.
  rw [List.append_nil, State.enterErrorStateCustom_setRunning] at hkept
  exact hkept.goOn_given (r := ⟨p, shouldFree, k⟩) rfl k

/-- A command of a handler keeps the invariant, where an error finds the record empty. -/
theorem inv_runCommand (hr : s.running = some r)
    (hcareful : s.entersError = true → s.recovery.eventData = none) (answer : Answer) :
    Inv size (s.runCommand size r answer) := by
  have hprog := hi.disciplined r hr
  have hholds := hi.holds
  rw [State.runCommand]
  split
  · rename_i next _
    exact ⟨hholds.finish hr next, by nofun⟩
  · rename_i k hk
    rw [hk] at hprog
    exact .goOn hholds hr (hprog _)
  · rename_i k hk
    rw [hk] at hprog
    exact .goOn hholds hr (hprog _)
  · rename_i event payload k hk
    rw [hk] at hprog
    exact .goOn (hholds.enqueueEvent _ _) (by simpa using hr) (hprog _)
  · rename_i event k hk
    rw [hk] at hprog
    exact .goOn (hholds.postEvent _ _) (by simpa using hr) (hprog _)
  · -- The event goes from the worker to the work queue.
    rename_i k hk
    rw [hk] at hprog
    have hadded := (hholds.takeEvent hr hprog.1).addTask answer.env.queued
    rw [State.addTask_setRunning] at hadded
    exact .goOn_given hadded rfl (hprog.2 _)
  · rename_i reason k hk
    have herror := holds_error hi hr hk answer
    rw [hcareful (by simp [State.entersError, hr, hk]), State.runCommand, hk] at herror
    rw [hk] at hprog
    refine ⟨herror, ?_⟩
    rintro _ ⟨rfl⟩
    exact hprog
  · -- The event goes from the worker to the recovery record.
    rename_i reason recovery k hk
    have hkept := holds_keep hi hr hk answer
    rw [hcareful (by simp [State.entersError, hr, hk]), State.runCommand, hk] at hkept
    rw [hk] at hprog
    refine ⟨hkept, ?_⟩
    rintro _ ⟨rfl⟩
    exact hprog.2
  · rename_i k hk
    rw [hk] at hprog
    exact .goOn (hholds.postRecovery _) (by simpa using hr) (hprog _)
  · rename_i k hk
    rw [hk] at hprog
    exact .goOn hholds.recoveryResetContext hr (hprog _)

/-- The callback of the subscription leaves the event of the record behind. -/
theorem holds_subscribedError (env : PostEnv) :
    (({ s with fetchFailed := false } : State).enterErrorState size .retryWithBackoff env).Holds
      size s.recovery.eventData.toList := by
  have hholds : ({ s with fetchFailed := false } : State).Holds size [] := hi.holds
  have herror := hholds.enterErrorState .retryWithBackoff env
  rw [List.append_nil] at herror
  exact herror

theorem inv_begin {p : Ptr} {rest : List Ptr} (hidle : s.running = none)
    (hqueue : s.workQueue = p :: rest) : Inv size ({ s with workQueue := rest }.begin size p) := by
  have hholds : ({ s with workQueue := rest } : State).Holds size [p] := by
    refine Owned.of_count hi.holds ?_
    intro q
    simp [State.held, State.processing, hidle, hqueue, List.count_append, List.count_cons]
  refine ⟨hholds.begin hidle, ?_⟩
  intro r hr
  rw [State.begin] at hr
  split at hr
  · rw [show _ = s.running from rfl, hidle] at hr
    cases hr
  · split at hr
    · rw [show _ = s.running from rfl, hidle] at hr
      cases hr
    · split at hr
      · obtain rfl := Option.some.inj hr
        exact handleStateError_disciplined
      · obtain rfl := Option.some.inj hr
        exact handleState_disciplined _ _

theorem inv_step (hcareful : Careful s a) (ht : step size s a = some t) : Inv size t := by
  cases a with
  | criticalInit queueCreated mutexCreated =>
    simp only [step] at ht
    split at ht
    · cases ht
    · obtain rfl := Option.some.inj ht
      refine hi.of_running (hi.holds.criticalInit hcareful) ?_
      rw [State.criticalInit]
      split_ifs <;> rfl
  | stateInit env queued =>
    obtain rfl := Option.some.inj ht
    refine hi.of_running (hi.holds.stateInit env queued) ?_
    rw [State.stateInit]
    split
    · rfl
    · dsimp only
      split_ifs
      · rw [State.enqueueEvent_running]
      · rw [State.enqueueEvent_running]
      · exact (State.enqueueAll_running _ _).trans (State.enqueueEvent_running _ _)
  | deinit =>
    obtain rfl := Option.some.inj ht
    refine hi.of_running (hi.holds.deinit hcareful) ?_
    rw [State.deinit]
    split <;> rfl
  | post msg env =>
    obtain rfl := Option.some.inj ht
    exact hi.of_running (hi.holds.postEvent msg env) (State.postEvent_running msg env)
  | recover env =>
    obtain rfl := Option.some.inj ht
    rw [State.recover]
    split
    · exact hi
    · exact hi.of_running (hi.holds.postEvent _ env) (State.postEvent_running _ env)
  | subscribed env =>
    simp only [step] at ht
    split at ht
    · cases ht
    · obtain rfl := Option.some.inj ht
      exact hi.of_running (hi.holds.postEvent _ env) (State.postEvent_running _ env)
  | subscribedError env =>
    simp only [step] at ht
    split at ht
    · obtain rfl := Option.some.inj ht
      have herror := holds_subscribedError hi env
      rw [show s.recovery.eventData = none from hcareful] at herror
      exact hi.of_running herror (State.enterErrorState_running _ env)
    · cases ht
  | begin =>
    simp only [step] at ht
    split at ht
    · rename_i p rest hidle hqueue
      obtain rfl := Option.some.inj ht
      exact inv_begin hi hidle hqueue
    · cases ht
  | worker answer =>
    obtain ⟨r, hr, rfl⟩ := Option.map_eq_some_iff.mp ht
    exact inv_runCommand hi hr hcareful answer

end

theorem inv_of_initial (h : Initial s) : Inv size s := by
  subst h
  refine ⟨⟨⟨List.nodup_nil, ?_⟩, by nofun, rfl⟩, by nofun⟩
  intro r
  cases r with
  | slot i => simp [Mem.Live, Mem.freeSlots, State.held, State.processing]
  | block a => simp [Mem.Live, Heap.Live, Mem.freeSlots, State.held, State.processing]

/-- The places together hold the free slots and the other events. -/
theorem owners_eq (s : State) (r : Resource) :
    s.owners r = ((s.mem.freeSlots ++ s.held).flatMap s.mem.owns).count r := by
  simp [State.owners, Place.all, State.eventsAt, State.held, List.flatMap_append,
    List.count_append]

theorem Inv.ownedOnce (hi : Inv size s) : OwnedOnce size s where
  once r hr := by
    rw [owners_eq]
    exact hi.holds.owner.count_eq_one hr
  none r hr := by
    rw [owners_eq]
    exact hi.holds.owner.count_eq_zero hr
  sound := hi.holds.sound

/-! ### A careless step -/

/-- An event that is still in the hand of a function when the function ends is lost. -/
theorem not_ownedOnce_of_lost {p : Ptr} {extra : List Ptr} (h : t.Holds size (p :: extra)) :
    ¬OwnedOnce size t := by
  intro ho
  have howner : OneOwner t.mem.owns (t.mem.Live size)
      (p :: (extra ++ (t.mem.freeSlots ++ t.held))) := by
    refine h.owner.perm (List.perm_iff_count.mpr ?_)
    intro q
    simp only [List.count_append, List.count_cons]
    omega
  obtain ⟨r, hr⟩ : ∃ r, r ∈ t.mem.owns p := by
    cases p with
    | slot i => exact ⟨_, List.mem_singleton_self _⟩
    | heap a => exact ⟨_, List.mem_map_of_mem Mem.mem_eventBlocks_self⟩
  have hone := ho.once r (howner.live_of_mem List.mem_cons_self hr)
  rw [owners_eq] at hone
  have hmem : r ∈ (t.mem.freeSlots ++ t.held).flatMap t.mem.owns :=
    List.count_pos_iff.mp (by rw [hone]; exact Nat.one_pos)
  obtain ⟨q, hq, hrq⟩ := List.mem_flatMap.mp hmem
  exact howner.disjoint (List.mem_append_right _ hq) hr hrq

/-- A slot that is in use without a pool is owned, though there is none. -/
theorem not_ownedOnce_of_stray {p : Ptr} (hpool : t.mem.freeQueue = none) (hp : p ∈ t.held)
    (hslot : p.isSlot = true) : ¬OwnedOnce size t := by
  intro ho
  cases p with
  | slot i =>
    have hzero := ho.none (.slot i) (by simp [Mem.Live, hpool])
    rw [owners_eq, List.count_eq_zero] at hzero
    apply hzero
    exact List.mem_flatMap.mpr ⟨_, List.mem_append_right _ hp, List.mem_singleton_self _⟩
  | heap a => cases hslot

/-- A record that an error must not overwrite is empty. -/
theorem record_empty (h : t.Holds size s.recovery.eventData.toList) (ho : OwnedOnce size t) :
    s.recovery.eventData = none := by
  cases hp : s.recovery.eventData with
  | none => rfl
  | some p =>
    rw [hp] at h
    exact absurd ho (not_ownedOnce_of_lost h)

theorem careful_of_ownedOnce (hi : Inv size s) (ht : step size s a = some t)
    (ho : OwnedOnce size t) : Careful s a := by
  cases a with
  | criticalInit queueCreated mutexCreated =>
    simp only [step] at ht
    split at ht
    · cases ht
    · obtain rfl := Option.some.inj ht
      intro hset
      rw [State.criticalInit, if_neg (State.poolMade_iff.mpr hset)] at ho
      split
      · rename_i hmutex
        rw [if_pos hmutex] at ho
        have hreset := hi.holds.resetPreInit
        cases hpre : s.preInit with
        | nil => rfl
        | cons p rest =>
          rw [hpre] at hreset
          exact absurd ho (not_ownedOnce_of_lost hreset)
      · rename_i hmutex
        rw [if_neg hmutex] at ho
        intro p hp
        by_contra hslot
        refine not_ownedOnce_of_stray (p := p) ?_ ?_ (Bool.not_eq_false _ ▸ hslot) ho
        · rfl
        · exact hp
  | deinit =>
    obtain rfl := Option.some.inj ht
    intro hflag
    rw [State.deinit, if_neg (by simp [hflag])] at ho
    have hslots : ∀ p ∈ s.workQueue ++ s.processing, p.isSlot = false := by
      intro p hp
      by_contra hslot
      refine not_ownedOnce_of_stray (p := p) rfl ?_ (Bool.not_eq_false _ ▸ hslot) ho
      simpa [State.held, State.processing] using hp
    refine ⟨?_, hslots⟩
    intro p hp
    by_contra hheap
    -- The event in the record is on the heap, so the pool does not take it along.
    have hfreed := hi.holds.freePreInit
    rw [Option.mem_def.mp hp] at hfreed
    have hall : Owned size (State.freeAll size s.mem s.preInit)
        ([] ++ ([p] ++ (s.workQueue ++ s.processing))) := hfreed
    have hgone : ∀ q ∈ ([] : List Ptr), q.isSlot = true := by nofun
    have hstay : ∀ q ∈ [p] ++ (s.workQueue ++ s.processing), q.isSlot = false := by
      intro q hq
      rcases List.mem_cons.mp hq with rfl | hq
      · exact Bool.not_eq_true _ ▸ hheap
      · exact hslots q hq
    have hlost := Owned.eventPoolDeinit hall hgone hstay
    have hhand : ({ s with
        fsm := .uninitialized
        recovery := {}
        mutex := false
        preInit := []
        initialized := false
        mem := (State.freeAll size s.mem s.preInit).eventPoolDeinit } : State).Holds size [p] := by
      simpa [State.Holds, State.held, State.processing] using hlost
    exact not_ownedOnce_of_lost hhand ho
  | subscribedError env =>
    simp only [step] at ht
    split at ht
    · obtain rfl := Option.some.inj ht
      exact record_empty (holds_subscribedError hi env) ho
    · cases ht
  | worker answer =>
    obtain ⟨r, hr, rfl⟩ := Option.map_eq_some_iff.mp ht
    intro herror
    rw [State.entersError, hr, Option.any_some] at herror
    split at herror
    · rename_i hk
      exact record_empty (holds_error hi hr hk answer) ho
    · rename_i hk
      exact record_empty (holds_keep hi hr hk answer) ho
    · cases herror
  | stateInit env queued => trivial
  | post msg env => trivial
  | recover env => trivial
  | subscribed env => trivial
  | begin => trivial

end

/-- In every run without a careless step, each slot and each block of an event is in one place. The
next step keeps it there if and only if it is careful as well. -/
theorem ownedOnce_of_careful {size : Nat} {s : State}
    (hs : Reach Initial (step size) Careful s) :
    OwnedOnce size s ∧ ∀ a t, step size s a = some t → (OwnedOnce size t ↔ Careful s a) := by
  have hi : Inv size s := hs.inv (Inv size) (fun _ => inv_of_initial)
    fun _ _ _ hi hg ht => inv_step hi hg ht
  refine ⟨hi.ownedOnce, ?_⟩
  intro a t ht
  constructor
  · exact careful_of_ownedOnce hi ht
  · intro hcareful
    exact (inv_step hi hcareful ht).ownedOnce

/-- A reboot check before the initialization, whose status the service does not get. The worker
keeps the event in the recovery record. -/
def keptRebootCheck : List Action :=
  [.criticalInit true true, .post { event := .rebootCheckRequested } {},
    .stateInit {} fun _ => true,
    .begin, .worker {}, .worker {}, .worker {},
    .begin, .worker {}, .worker { err := .fail }, .worker {}, .worker {}]

/-- The kept event is in the record, and only there. -/
theorem ownedOnce_with_kept_event :
    ∃ s, Reach Initial (step 8) Careful s ∧ s.recovery.eventData = some (.slot 0) ∧
      OwnedOnce 8 s := by
  have hs : Reach Initial (step 8) Careful
      ((exec (step 8) {} keptRebootCheck).get (by decide)) :=
    .exec keptRebootCheck (.start rfl) (by decide) (Option.some_get _).symm
  exact ⟨_, hs, by decide, (ownedOnce_of_careful hs).1⟩

/-- Then the subscription is acknowledged while the work queue is full, and the callback enters an
error. -/
def lostRebootCheck : List Action :=
  keptRebootCheck ++ [.subscribed { queued := false }, .subscribedError {}]

/-- The kept event is lost with its slot. -/
theorem kept_event_dropped :
    ∃ s, Reach Initial (step 8) (fun _ _ => True) s ∧ ¬OwnedOnce 8 s := by
  have hs : Reach Initial (step 8) (fun _ _ => True)
      ((exec (step 8) {} lostRebootCheck).get (by decide)) :=
    .exec_true lostRebootCheck (.start rfl) (Option.some_get _).symm
  refine ⟨_, hs, ?_⟩
  intro ho
  have hone := ho.once (.slot 0) (by decide)
  revert hone
  decide

end RainMakerNeo.Ota.Events
