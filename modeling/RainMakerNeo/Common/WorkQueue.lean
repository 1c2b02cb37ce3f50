import Mathlib.Data.List.Nodup
import RainMakerNeo.Lib.Run

/-!
# `RainMakerNeo.Common.WorkQueue`: the work queue and its worker

Producers send entries to a bounded queue, and the worker task runs them one after the other. Each
step of the model is one access to the shared state: a load or a store of `queue_state`, a send, a
receive, or a run of a work function. So the runs of `step` are the interleavings of any number of
producers, the worker and the one task that makes the control calls (init, start, stop, deinit).

Each accepted entry gets its position as a sequence number. The lists from `accepted` on record the
history, and none of them exists in the code. `early` holds the entries whose add had returned when
the current stop was called, and `missed` those of them that were still queued when the stop
request was stored while the worker was about to read the state.

The worker reads the state only after an empty receive, and it does not receive again when it sees
the request. So an entry that arrives in between stays in the queue. `drained_iff_missed` says that
these are the only entries that a stop leaves behind, and `drained_of_safe_stop` gives the drain for
the runs without such a stop.
-/

set_option autoImplicit false

namespace RainMakerNeo.Common.Work

open RainMakerNeo.Lib

/-! ### The model -/

/-- `esp_rmaker_work_queue_state_t`. -/
inductive QueueState
  | deinit
  | initDone
  | running
  | stopRequested
  | parked
  deriving DecidableEq, Repr

/-- `esp_rmaker_work_queue_entry_t` with its position. `none` is `__empty_work_task`. -/
structure Entry where
  seq : Nat
  work : Option Nat
  deriving DecidableEq, Repr

/-- Where `esp_rmaker_work_queue_task` is. -/
inductive Worker
  /-- Before the store of the task handle. -/
  | boot
  /-- Before the load of the state. -/
  | check
  /-- In the receive that waits two seconds. -/
  | receive
  | execute (e : Entry)
  /-- In the receive that does not wait. -/
  | receiveNext
  /-- After the loop, before the task handle is cleared. -/
  | clear
  /-- Before the store of `WORK_QUEUE_STATE_INIT_DONE`. -/
  | report
  deriving DecidableEq, Repr

/-- Where the task with the control calls is. -/
inductive Control
  /-- `esp_rmaker_work_queue_init` before the store of `WORK_QUEUE_STATE_INIT_DONE`. -/
  | initStore
  /-- `__flush_work_queue`, called by init or by deinit. -/
  | flush (parks : Bool)
  /-- `esp_rmaker_work_queue_deinit` before the store of `WORK_QUEUE_STATE_PARKED`. -/
  | park
  /-- `esp_rmaker_work_queue_start` after the task was created. -/
  | startStore
  /-- `esp_rmaker_work_queue_stop` before the exchange. `early` are the entries whose add had
  returned at the call. -/
  | stopExchange (early : List Entry) (deinits : Bool)
  /-- `esp_rmaker_work_queue_stop` before it adds the empty task. -/
  | stopAdd (deinits : Bool)
  /-- The loop of `esp_rmaker_work_queue_deinit`. -/
  | deinitWait
  deriving DecidableEq, Repr

/-- The module's static variables, its tasks, and the history. -/
structure WorkQueue where
  created : Bool := false
  state : QueueState := .deinit
  queue : List Entry := []
  /-- `s_work_queue_task` is not `NULL`. -/
  handle : Bool := false
  worker : Option Worker := none
  control : Option Control := none
  /-- The producers between the check of the state and the send. -/
  adding : List Nat := []
  accepted : List Entry := []
  returned : List Entry := []
  executed : List Entry := []
  discarded : List Entry := []
  early : List Entry := []
  missed : List Entry := []
  deriving DecidableEq, Repr

/-- What happens next. A Boolean says whether the OS makes the queue or the task. -/
inductive Action
  | addBegin (work : Nat)
  | addSend (work : Nat)
  | addReturn (e : Entry)
  | worker
  | init (created : Bool)
  | start (created : Bool)
  | stop
  | deinit
  /-- The next step of the control call that is under way. -/
  | control
  deriving DecidableEq, Repr

namespace WorkQueue

/-- `osal_queue_send` without a wait. A full queue takes nothing. -/
def send (size : Nat) (s : WorkQueue) (work : Option Nat) : WorkQueue :=
  if s.queue.length < size then
    { s with
      queue := s.queue ++ [⟨s.accepted.length, work⟩]
      accepted := s.accepted ++ [⟨s.accepted.length, work⟩] }
  else s

/-- The entry that the worker runs. -/
def inHand (s : WorkQueue) : List Entry :=
  match s.worker with
  | some (.execute e) => [e]
  | _ => []

/-- The worker reads the state before it receives again. -/
def atCheck (s : WorkQueue) : Bool := s.worker == some .boot || s.worker == some .check

/-- The worker leaves its loop before it receives again, once a stop is requested. -/
def atExit (s : WorkQueue) : Bool :=
  s.atCheck || s.worker == some .clear || s.worker == some .report

/-- What was executed, is executed and waits, in this order. -/
def pipeline (s : WorkQueue) : List Entry := s.executed ++ s.inHand ++ s.queue

/-- The entries whose add has returned, without those that a flush has dropped. -/
def returnedSoFar (s : WorkQueue) : List Entry := s.returned.filter fun e => !s.discarded.contains e

/-- A receive of the worker. -/
def workerReceive (s : WorkQueue) : WorkQueue :=
  match s.queue with
  | [] => { s with worker := some .check }
  | e :: queue => { s with queue := queue, worker := some (.execute e) }

/-- `esp_rmaker_work_queue_task` and `esp_rmaker_handle_work_queue`. -/
def workerStep (s : WorkQueue) : Worker → WorkQueue
  | .boot => { s with handle := true, worker := some .check }
  | .check =>
    { s with worker := some (if s.state ≠ .stopRequested then .receive else .clear) }
  | .receive => s.workerReceive
  | .execute e => { s with executed := s.executed ++ [e], worker := some .receiveNext }
  | .receiveNext => s.workerReceive
  | .clear => { s with handle := false, worker := some .report }
  | .report => { s with state := .initDone, worker := none }

/-- What follows `esp_rmaker_work_queue_stop`, called on its own or by deinit. -/
def afterStop (deinits : Bool) : Option Control := if deinits then some .deinitWait else none

/-- The exchange of `esp_rmaker_work_queue_stop`. -/
def stopExchange (s : WorkQueue) (early : List Entry) (deinits : Bool) : WorkQueue :=
  if s.state = .running then
    { s with
      state := .stopRequested
      control := some (.stopAdd deinits)
      early := early
      missed := if s.atCheck then early.filter fun e => s.queue.contains e else [] }
  else { s with control := afterStop deinits }

/-- `esp_rmaker_work_queue_add_task`, called by stop for the empty task. -/
def addEmpty (size : Nat) (s : WorkQueue) : WorkQueue :=
  if s.created ∧ s.state ≠ .parked then s.send size none else s

/-- The next step of a control call. -/
def controlStep (size : Nat) (s : WorkQueue) : Control → WorkQueue
  | .initStore => { s with state := .initDone, control := some (.flush false) }
  | .flush parks =>
    match s.queue with
    | [] => { s with control := if parks then some .park else none }
    | e :: queue => { s with queue := queue, discarded := s.discarded ++ [e] }
  | .park => { s with state := .parked, control := none }
  | .startStore => { s with state := .running, control := none }
  | .stopExchange early deinits => s.stopExchange early deinits
  | .stopAdd deinits => { s.addEmpty size with control := afterStop deinits }
  | .deinitWait =>
    match s.state with
    | .stopRequested => s
    | .initDone => { s with control := some (.flush true) }
    | _ => { s with control := none }

/-- The load of the state in `esp_rmaker_work_queue_init`, and the creation of the queue. -/
def initCall (s : WorkQueue) (created : Bool) : WorkQueue :=
  match s.state with
  | .deinit =>
    if created then { s with created := true, control := some .initStore } else s
  | .parked => { s with control := some .initStore }
  | .initDone => { s with control := some (.flush false) }
  | _ => s

/-- The load of the state in `esp_rmaker_work_queue_start`, and the creation of the task. -/
def startCall (s : WorkQueue) (created : Bool) : WorkQueue :=
  if s.state = .initDone ∧ created then
    { s with worker := some .boot, control := some .startStore }
  else s

/-- The load of the state in `esp_rmaker_work_queue_deinit`. -/
def deinitCall (s : WorkQueue) : WorkQueue :=
  { s with
    control := some (if s.state ≠ .stopRequested then .stopExchange s.returnedSoFar true
      else .deinitWait) }

end WorkQueue

open WorkQueue

/-- The next step of some task. -/
def step (size : Nat) (s : WorkQueue) : Action → Option WorkQueue
  | .addBegin work =>
    some (if s.created ∧ s.state ≠ .parked then { s with adding := work :: s.adding } else s)
  | .addSend work =>
    if work ∈ s.adding then
      some ({ s with adding := s.adding.erase work }.send size (some work))
    else none
  | .addReturn e => if e ∈ s.accepted then some { s with returned := e :: s.returned } else none
  | .worker => s.worker.map s.workerStep
  | .init created => if s.control = none then some (s.initCall created) else none
  | .start created => if s.control = none then some (s.startCall created) else none
  | .stop =>
    if s.control = none then some { s with control := some (.stopExchange s.returnedSoFar false) }
    else none
  | .deinit => if s.control = none then some s.deinitCall else none
  | .control => s.control.map (s.controlStep size)

/-- Before the first init. -/
def Initial (s : WorkQueue) : Prop := s = {}

/-! ### The tasks and the state -/

/-- The control calls that run while there is no worker. -/
def Control.closes : Control → Bool
  | .initStore | .flush _ | .park => true
  | _ => false

/-- How the state, the worker and the control call fit together. -/
structure Phased (s : WorkQueue) : Prop where
  alive : s.worker ≠ none →
    s.state = .running ∨ s.state = .stopRequested ∨ s.control = some .startStore
  idle : s.worker = none → s.state ≠ .running ∧ s.state ≠ .stopRequested
  starting : s.control = some .startStore → s.state = .initDone ∧ s.worker ≠ none
  leaving : s.worker = some .clear ∨ s.worker = some .report → s.state = .stopRequested
  closing : ∀ c, s.control = some c → c.closes → s.worker = none

/-- A send changes the queue and the history only. -/
theorem send_frame (size : Nat) (s : WorkQueue) (work : Option Nat) :
    (s.send size work).state = s.state ∧ (s.send size work).worker = s.worker ∧
      (s.send size work).control = s.control := by
  rw [WorkQueue.send]
  split <;> exact ⟨rfl, rfl, rfl⟩

theorem addEmpty_frame (size : Nat) (s : WorkQueue) :
    (s.addEmpty size).state = s.state ∧ (s.addEmpty size).worker = s.worker := by
  rw [WorkQueue.addEmpty]
  split
  · exact ⟨(send_frame size s none).1, (send_frame size s none).2.1⟩
  · exact ⟨rfl, rfl⟩

variable {s t : WorkQueue} {w : Worker} {size : Nat}

/-- The phases read the state, the worker and the control call. -/
theorem Phased.congr (hp : Phased s) (hstate : t.state = s.state) (hworker : t.worker = s.worker)
    (hcontrol : t.control = s.control) : Phased t := by
  refine ⟨?_, ?_, ?_, ?_, ?_⟩
  · rw [hstate, hworker, hcontrol]
    exact hp.alive
  · rw [hstate, hworker]
    exact hp.idle
  · rw [hstate, hworker, hcontrol]
    exact hp.starting
  · rw [hstate, hworker]
    exact hp.leaving
  · rw [hworker, hcontrol]
    exact hp.closing

/-- A worker is only there while the queue runs or stops, or during a start. -/
theorem Phased.worker_eq_none (hp : Phased s) (hc : s.control ≠ some .startStore)
    (hrun : s.state ≠ .running) (hstop : s.state ≠ .stopRequested) : s.worker = none := by
  by_contra hw
  rcases hp.alive hw with h | h | h
  · exact hrun h
  · exact hstop h
  · exact hc h

/-- A call at rest finds no worker, unless it runs or stops. -/
theorem Phased.worker_none (hp : Phased s) (hc : s.control ≠ some .startStore)
    (hs : s.state = .initDone) : s.worker = none :=
  hp.worker_eq_none hc (by simp [hs]) (by simp [hs])

/-- Without a worker the state and the control call are those of a queue at rest. -/
theorem Phased.at_rest (hworker : t.worker = none) (hrun : t.state ≠ .running)
    (hstop : t.state ≠ .stopRequested) (hcontrol : t.control ≠ some .startStore) : Phased t where
  alive h := absurd hworker h
  idle _ := ⟨hrun, hstop⟩
  starting h := absurd h hcontrol
  leaving h := by simp [hworker] at h
  closing _ _ _ := hworker

section
variable (hp : Phased s)
include hp

/-- The worker goes on in its loop. -/
theorem Phased.goOn (hw : s.worker ≠ none) (hworker : t.worker = some w)
    (hstate : t.state = s.state) (hcontrol : t.control = s.control)
    (hleave : w = .clear ∨ w = .report → s.state = .stopRequested) : Phased t where
  alive _ := by
    rw [hstate, hcontrol]
    exact hp.alive hw
  idle h := by simp [hworker] at h
  starting h := by
    rw [hcontrol] at h
    exact ⟨hstate.trans (hp.starting h).1, by simp [hworker]⟩
  leaving h := by
    rw [hstate]
    exact hleave (by simpa [hworker] using h)
  closing c h hcloses := by
    rw [hcontrol] at h
    exact absurd (hp.closing c h hcloses) hw

/-- Another control call, which does not start a worker. -/
theorem Phased.setControl (hstate : t.state = s.state) (hworker : t.worker = s.worker)
    (hold : s.control ≠ some .startStore)
    (hnew : ∀ c, t.control = some c → c ≠ .startStore ∧ (c.closes → s.worker = none)) :
    Phased t where
  alive h := by
    rw [hworker] at h
    rw [hstate]
    rcases hp.alive h with hrun | hstop | hstart
    · exact .inl hrun
    · exact .inr (.inl hstop)
    · exact absurd hstart hold
  idle h := by
    rw [hworker] at h
    rw [hstate]
    exact hp.idle h
  starting h := absurd rfl (hnew _ h).1
  leaving h := by
    rw [hworker] at h
    rw [hstate]
    exact hp.leaving h
  closing c h hcloses := by
    rw [hworker]
    exact (hnew c h).2 hcloses

theorem Phased.workerReceive (hw : s.worker ≠ none) : Phased s.workerReceive := by
  unfold WorkQueue.workerReceive
  split
  · exact hp.goOn hw rfl rfl rfl (by simp)
  · exact hp.goOn hw rfl rfl rfl (by simp)

theorem Phased.workerStep (hw : s.worker = some w) : Phased (s.workerStep w) := by
  have hsome : s.worker ≠ none := by simp [hw]
  cases w with
  | boot => exact hp.goOn hsome rfl rfl rfl (by simp)
  | check =>
    refine hp.goOn hsome rfl rfl rfl ?_
    by_cases hstop : s.state = .stopRequested
    · simp [hstop]
    · simp [hstop]
  | receive => exact hp.workerReceive hsome
  | execute e => exact hp.goOn hsome rfl rfl rfl (by simp)
  | receiveNext => exact hp.workerReceive hsome
  | clear => exact hp.goOn hsome rfl rfl rfl fun _ => hp.leaving (.inl hw)
  | report =>
    -- a worker that leaves was told to, so no start is under way
    have hstop : s.state = .stopRequested := hp.leaving (.inr hw)
    have hcontrol : s.control ≠ some .startStore := by
      intro h
      have hdone := (hp.starting h).1
      rw [hstop] at hdone
      cases hdone
    exact .at_rest rfl (by simp [WorkQueue.workerStep]) (by simp [WorkQueue.workerStep]) hcontrol

theorem Phased.stopExchange {early : List Entry} {deinits : Bool}
    (hc : s.control = some (.stopExchange early deinits)) :
    Phased (s.stopExchange early deinits) := by
  unfold WorkQueue.stopExchange
  split
  · next hrun =>
    exact
      { alive := fun _ => .inr (.inl rfl)
        idle := fun h => absurd hrun (hp.idle h).1
        starting := fun h => by simp at h
        leaving := fun _ => rfl
        closing := fun c h hcloses => by
          obtain rfl := Option.some.inj h
          cases hcloses }
  · refine hp.setControl rfl rfl (by simp [hc]) fun c h => ?_
    cases deinits with
    | true =>
      obtain rfl := Option.some.inj h
      exact ⟨by simp, nofun⟩
    | false => cases h

theorem Phased.controlStep (size : Nat) {c : Control} (hc : s.control = some c) :
    Phased (s.controlStep size c) := by
  cases c with
  | initStore =>
    have hnone := hp.closing _ hc rfl
    exact .at_rest hnone (by simp [WorkQueue.controlStep]) (by simp [WorkQueue.controlStep])
      (by simp [WorkQueue.controlStep])
  | flush parks =>
    have hnone := hp.closing _ hc rfl
    obtain ⟨hrun, hstop⟩ := hp.idle hnone
    simp only [WorkQueue.controlStep]
    split
    · refine .at_rest hnone hrun hstop ?_
      cases parks with
      | true => simp
      | false => simp
    · exact .at_rest hnone hrun hstop (by simp [hc])
  | park =>
    have hnone := hp.closing _ hc rfl
    exact .at_rest hnone (by simp [WorkQueue.controlStep]) (by simp [WorkQueue.controlStep])
      (by simp [WorkQueue.controlStep])
  | startStore =>
    obtain ⟨hdone, hsome⟩ := hp.starting hc
    exact
      { alive := fun _ => .inl rfl
        idle := fun h => absurd h hsome
        starting := fun h => by simp [WorkQueue.controlStep] at h
        leaving := fun h => by
          -- the new worker has not read the state yet
          have hstop := hp.leaving h
          rw [hdone] at hstop
          cases hstop
        closing := fun c h => by simp [WorkQueue.controlStep] at h }
  | stopExchange early deinits => exact hp.stopExchange hc
  | stopAdd deinits =>
    obtain ⟨hstate, hworker⟩ := addEmpty_frame size s
    refine hp.setControl hstate hworker (by simp [hc]) fun c h => ?_
    cases deinits with
    | true =>
      obtain rfl := Option.some.inj h
      exact ⟨by simp, nofun⟩
    | false => cases h
  | deinitWait =>
    simp only [WorkQueue.controlStep]
    split
    · exact hp
    · next hdone =>
      have hnone := hp.worker_none (by simp [hc]) hdone
      refine hp.setControl rfl rfl (by simp [hc]) fun c h => ?_
      obtain rfl := Option.some.inj h
      exact ⟨by simp, fun _ => hnone⟩
    · exact hp.setControl rfl rfl (by simp [hc]) fun c h => by cases h

/-- A control call starts only when no other one is under way. -/
theorem Phased.initCall (hc : s.control = none) (created : Bool) : Phased (s.initCall created) := by
  have hold : s.control ≠ some .startStore := by simp [hc]
  unfold WorkQueue.initCall
  split
  · next hs =>
    split
    · exact .at_rest (hp.worker_eq_none hold (by simp [hs]) (by simp [hs])) (by simp [hs])
        (by simp [hs]) (by simp)
    · exact hp
  · next hs =>
    exact .at_rest (hp.worker_eq_none hold (by simp [hs]) (by simp [hs])) (by simp [hs])
      (by simp [hs]) (by simp)
  · next hs => exact .at_rest (hp.worker_none hold hs) (by simp [hs]) (by simp [hs]) (by simp)
  · exact hp

theorem Phased.startCall (created : Bool) : Phased (s.startCall created) := by
  unfold WorkQueue.startCall
  split
  · next h =>
    exact
      { alive := fun _ => .inr (.inr rfl)
        idle := fun hnone => by simp at hnone
        starting := fun _ => ⟨h.1, by simp⟩
        leaving := fun hleave => by simp at hleave
        closing := fun c hcontrol hcloses => by
          obtain rfl := Option.some.inj hcontrol
          cases hcloses }
  · exact hp

theorem Phased.deinitCall (hc : s.control = none) : Phased s.deinitCall := by
  refine hp.setControl rfl rfl (by simp [hc]) fun c h => ?_
  obtain rfl := Option.some.inj h
  split
  · exact ⟨by simp, nofun⟩
  · exact ⟨by simp, nofun⟩

theorem Phased.stopCall (hc : s.control = none) (early : List Entry) :
    Phased { s with control := some (.stopExchange early false) } := by
  refine hp.setControl rfl rfl (by simp [hc]) fun c h => ?_
  obtain rfl := Option.some.inj h
  exact ⟨by simp, nofun⟩

end

/-! ### The entries -/

/-- Every accepted entry is in the pipeline, in its place, or was dropped by a flush. -/
structure Accounted (s : WorkQueue) : Prop where
  seqs : s.accepted.map Entry.seq = List.range s.accepted.length
  order : s.pipeline.Sublist s.accepted
  kept : ∀ e ∈ s.accepted, e ∈ s.pipeline ∨ e ∈ s.discarded
  returned : ∀ e ∈ s.returned, e ∈ s.accepted

/-- The accounting reads the pipeline and the history. -/
theorem Accounted.congr (ha : Accounted s) (hpipe : t.pipeline = s.pipeline)
    (haccepted : t.accepted = s.accepted) (hdiscarded : t.discarded = s.discarded)
    (hreturned : t.returned = s.returned) : Accounted t := by
  refine ⟨?_, ?_, ?_, ?_⟩
  · rw [haccepted]
    exact ha.seqs
  · rw [hpipe, haccepted]
    exact ha.order
  · rw [hpipe, haccepted, hdiscarded]
    exact ha.kept
  · rw [hreturned, haccepted]
    exact ha.returned

/-- The positions tell the accepted entries apart. -/
theorem Accounted.nodup (ha : Accounted s) : s.accepted.Nodup := by
  have hseqs : (s.accepted.map Entry.seq).Nodup := by
    rw [ha.seqs]
    exact List.nodup_range
  exact hseqs.of_map _

/-- The entry of a send that comes next is new. -/
theorem Accounted.fresh (ha : Accounted s) (work : Option Nat) :
    (⟨s.accepted.length, work⟩ : Entry) ∉ s.accepted := by
  intro hmem
  have hseq : s.accepted.length ∈ s.accepted.map Entry.seq := List.mem_map_of_mem hmem
  rw [ha.seqs, List.mem_range] at hseq
  omega

/-- An entry is executed or queued, not both. -/
theorem Accounted.not_queued (ha : Accounted s) {e : Entry} (he : e ∈ s.executed) :
    e ∉ s.queue := by
  have hnodup : (s.executed ++ s.inHand ++ s.queue).Nodup := ha.order.nodup ha.nodup
  intro hq
  exact (List.nodup_append.mp hnodup).2.2 e (List.mem_append_left _ he) e hq rfl

/-- The worker moves entries along the pipeline. -/
theorem workerStep_pipeline (hw : s.worker = some w) : (s.workerStep w).pipeline = s.pipeline := by
  have hreceive : s.inHand = [] → s.workerReceive.pipeline = s.pipeline := by
    intro hhand
    rw [WorkQueue.workerReceive, pipeline, pipeline, hhand]
    cases hq : s.queue with
    | nil => simp [inHand]
    | cons e queue => simp [inHand]
  cases w with
  | boot => simp [WorkQueue.workerStep, pipeline, inHand, hw]
  | check =>
    rw [WorkQueue.workerStep]
    split <;> simp [pipeline, inHand, hw]
  | receive => exact hreceive (by simp [inHand, hw])
  | execute e => simp [WorkQueue.workerStep, pipeline, inHand, hw]
  | receiveNext => exact hreceive (by simp [inHand, hw])
  | clear => simp [WorkQueue.workerStep, pipeline, inHand, hw]
  | report => simp [WorkQueue.workerStep, pipeline, inHand, hw]

/-- The worker leaves the history of the sends alone. -/
theorem workerStep_frame (s : WorkQueue) (w : Worker) :
    (s.workerStep w).accepted = s.accepted ∧ (s.workerStep w).discarded = s.discarded ∧
      (s.workerStep w).returned = s.returned ∧ (s.workerStep w).control = s.control ∧
      (s.workerStep w).early = s.early ∧ (s.workerStep w).missed = s.missed := by
  have hreceive : s.workerReceive.accepted = s.accepted ∧ s.workerReceive.discarded = s.discarded ∧
      s.workerReceive.returned = s.returned ∧ s.workerReceive.control = s.control ∧
      s.workerReceive.early = s.early ∧ s.workerReceive.missed = s.missed := by
    rw [WorkQueue.workerReceive]
    split <;> exact ⟨rfl, rfl, rfl, rfl, rfl, rfl⟩
  cases w with
  | receive => exact hreceive
  | receiveNext => exact hreceive
  | _ => exact ⟨rfl, rfl, rfl, rfl, rfl, rfl⟩

section
variable (ha : Accounted s)
include ha

theorem Accounted.workerStep (hw : s.worker = some w) : Accounted (s.workerStep w) :=
  have hframe := workerStep_frame s w
  ha.congr (workerStep_pipeline hw) hframe.1 hframe.2.1 hframe.2.2.1

/-- A send that the queue takes adds an entry to both ends of the accounting. -/
theorem Accounted.send (size : Nat) (work : Option Nat) : Accounted (s.send size work) := by
  rw [WorkQueue.send]
  split
  · have hpipe : pipeline { s with
        queue := s.queue ++ [⟨s.accepted.length, work⟩]
        accepted := s.accepted ++ [⟨s.accepted.length, work⟩] } =
          s.pipeline ++ [⟨s.accepted.length, work⟩] := by
      simp [pipeline, inHand]
    refine ⟨?_, ?_, ?_, ?_⟩
    · simp [ha.seqs, List.range_succ]
    · rw [hpipe]
      exact ha.order.append (.refl _)
    · rw [hpipe]
      intro e he
      rcases List.mem_append.mp he with he | he
      · exact (ha.kept e he).imp (List.mem_append_left _) id
      · exact .inl (List.mem_append_right _ he)
    · intro e he
      exact List.mem_append_left _ (ha.returned e he)
  · exact ha

/-- A flush drops the head of the queue. -/
theorem Accounted.flush {e : Entry} {queue : List Entry} (hq : s.queue = e :: queue) :
    Accounted { s with queue := queue, discarded := s.discarded ++ [e] } := by
  have hpipe : s.pipeline = s.executed ++ s.inHand ++ e :: queue := by rw [pipeline, hq]
  have hpipe' : pipeline { s with queue := queue, discarded := s.discarded ++ [e] } =
      s.executed ++ s.inHand ++ queue := rfl
  refine ⟨ha.seqs, ?_, ?_, ha.returned⟩
  · rw [hpipe']
    have horder := ha.order
    rw [hpipe] at horder
    exact ((List.Sublist.refl _).append (List.sublist_cons_self e queue)).trans horder
  · rw [hpipe']
    intro x hx
    have hkept := ha.kept x hx
    rw [hpipe] at hkept
    grind

theorem Accounted.addEmpty (size : Nat) : Accounted (s.addEmpty size) := by
  rw [WorkQueue.addEmpty]
  split
  · exact ha.send size none
  · exact ha

theorem Accounted.controlStep (size : Nat) (c : Control) : Accounted (s.controlStep size c) := by
  cases c with
  | initStore => exact ha.congr rfl rfl rfl rfl
  | flush parks =>
    rw [WorkQueue.controlStep]
    split
    · exact ha.congr rfl rfl rfl rfl
    · next e queue hq => exact ha.flush hq
  | park => exact ha.congr rfl rfl rfl rfl
  | startStore => exact ha.congr rfl rfl rfl rfl
  | stopExchange early deinits =>
    rw [WorkQueue.controlStep, WorkQueue.stopExchange]
    split
    · exact ha.congr rfl rfl rfl rfl
    · exact ha.congr rfl rfl rfl rfl
  | stopAdd deinits => exact (ha.addEmpty size).congr rfl rfl rfl rfl
  | deinitWait =>
    rw [WorkQueue.controlStep]
    split
    · exact ha
    · exact ha.congr rfl rfl rfl rfl
    · exact ha.congr rfl rfl rfl rfl

theorem Accounted.startCall (hp : Phased s) (hc : s.control = none) (created : Bool) :
    Accounted (s.startCall created) := by
  rw [WorkQueue.startCall]
  split
  · next h =>
    have hw := hp.worker_none (by rw [hc]; exact nofun) h.1
    refine ha.congr ?_ rfl rfl rfl
    simp [pipeline, inHand, hw]
  · exact ha

theorem Accounted.initCall (created : Bool) : Accounted (s.initCall created) := by
  rw [WorkQueue.initCall]
  split
  · split
    · exact ha.congr rfl rfl rfl rfl
    · exact ha
  · exact ha.congr rfl rfl rfl rfl
  · exact ha.congr rfl rfl rfl rfl
  · exact ha

/-! ### The stop -/

/-- What a requested stop has left to do. An early entry is missed when it waits and the worker
does not receive again. -/
structure Draining (s : WorkQueue) : Prop where
  pending : ∀ early deinits, s.control = some (.stopExchange early deinits) →
    ∀ e ∈ early, e ∈ s.accepted ∧ e ∉ s.discarded
  known : s.state = .stopRequested → ∀ e ∈ s.early, e ∈ s.accepted ∧ e ∉ s.discarded
  missed : s.state = .stopRequested → ∀ e ∈ s.missed, e ∈ s.early ∧ e ∈ s.queue
  left : s.state = .stopRequested → s.atExit → ∀ e ∈ s.early, e ∈ s.queue → e ∈ s.missed
  drains : s.state = .stopRequested → s.atExit = false → s.missed = []

/-- The entries that had returned at a call were accepted and not dropped. -/
theorem returnedSoFar_known : ∀ e ∈ s.returnedSoFar, e ∈ s.accepted ∧ e ∉ s.discarded := by
  intro e he
  rw [returnedSoFar, List.mem_filter] at he
  refine ⟨ha.returned e he.1, ?_⟩
  simpa using he.2

end

section
variable (hd : Draining s)
include hd

/-- A receive goes back to the check only when nothing is queued. -/
theorem Draining.receive (hexit : s.atExit = false) : Draining s.workerReceive := by
  have ⟨h₁, h₂, h₃, h₄, h₅⟩ := hd
  rw [WorkQueue.workerReceive]
  cases hq : s.queue with
  | nil =>
    refine ⟨h₁, h₂, ?_, ?_, ?_⟩
    · intro hs e he
      rw [show s.missed = [] from h₅ hs hexit] at he
      cases he
    · intro _ _ e _ he
      exact absurd he List.not_mem_nil
    · intro hs _
      exact h₅ hs hexit
  | cons e queue =>
    refine ⟨h₁, h₂, ?_, ?_, ?_⟩
    · intro hs e he
      rw [show s.missed = [] from h₅ hs hexit] at he
      cases he
    · intro _ hleft
      cases hleft
    · intro hs _
      exact h₅ hs hexit

theorem Draining.workerStep (hw : s.worker = some w) : Draining (s.workerStep w) := by
  have ⟨h₁, h₂, h₃, h₄, h₅⟩ := hd
  have hexit : s.atExit = (w == .boot || w == .check || w == .clear || w == .report) := by
    rw [atExit, atCheck, hw]
    rfl
  cases w with
  | boot => exact ⟨h₁, h₂, h₃, fun hs _ => h₄ hs hexit, nofun⟩
  | check =>
    rw [WorkQueue.workerStep]
    by_cases hs : s.state = .stopRequested
    · rw [if_neg (not_not_intro hs)]
      exact ⟨h₁, h₂, h₃, fun hs _ => h₄ hs hexit, nofun⟩
    · exact ⟨h₁, h₂, h₃, fun h => absurd h hs, fun h => absurd h hs⟩
  | receive => exact hd.receive hexit
  | execute e => exact ⟨h₁, h₂, h₃, nofun, fun hs _ => h₅ hs hexit⟩
  | receiveNext => exact hd.receive hexit
  | clear => exact ⟨h₁, h₂, h₃, fun hs _ => h₄ hs hexit, nofun⟩
  | report => exact ⟨h₁, nofun, nofun, nofun,
      nofun⟩

/-- A new entry is not an early one. -/
theorem Draining.send (ha : Accounted s) (size : Nat) (work : Option Nat) :
    Draining (s.send size work) := by
  have ⟨h₁, h₂, h₃, h₄, h₅⟩ := hd
  have hfresh := ha.fresh work
  rw [WorkQueue.send]
  split
  · refine ⟨?_, ?_, ?_, ?_, h₅⟩
    · intro early deinits hc e he
      have hknown := h₁ early deinits hc e he
      exact ⟨List.mem_append_left _ hknown.1, hknown.2⟩
    · intro hs e he
      have hknown := h₂ hs e he
      exact ⟨List.mem_append_left _ hknown.1, hknown.2⟩
    · intro hs e he
      have hmissed := h₃ hs e he
      exact ⟨hmissed.1, List.mem_append_left _ hmissed.2⟩
    · intro hs hexit e he hq
      rcases List.mem_append.mp hq with hq | hq
      · exact h₄ hs hexit e he hq
      · rw [List.mem_singleton.mp hq] at he
        exact absurd (h₂ hs _ he).1 hfresh
  · exact hd

/-- The stop request. The early entries that wait are missed when the worker is at the check. -/
theorem Draining.stopExchange (hp : Phased s) {early : List Entry} {deinits : Bool}
    (hc : s.control = some (.stopExchange early deinits)) :
    Draining (s.stopExchange early deinits) := by
  have ⟨h₁, h₂, h₃, h₄, h₅⟩ := hd
  rw [WorkQueue.stopExchange]
  by_cases hs : s.state = .running
  · rw [if_pos hs]
    -- The worker has not seen a request before.
    have hcheck : s.atExit = s.atCheck := by
      have hclear : ¬(s.worker = some .clear ∨ s.worker = some .report) := by
        intro h
        have hleaving := hp.leaving h
        rw [hs] at hleaving
        cases hleaving
      rw [atExit]
      grind
    refine ⟨nofun, fun _ => h₁ early deinits hc, ?_, ?_, ?_⟩
    · intro _ e he
      dsimp only at he
      split at he
      · rw [List.mem_filter] at he
        exact ⟨he.1, by simpa using he.2⟩
      · cases he
    · intro _ hexit e he hq
      have hat : s.atCheck = true := hcheck ▸ hexit
      dsimp only
      rw [if_pos hat, List.mem_filter]
      exact ⟨he, by simpa using hq⟩
    · intro _ hexit
      have hat : s.atCheck = false := hcheck ▸ hexit
      dsimp only
      rw [if_neg (by rw [hat]; exact Bool.false_ne_true)]
  · rw [if_neg hs]
    refine ⟨?_, h₂, h₃, h₄, h₅⟩
    intro early deinits hc
    rw [afterStop] at hc
    split at hc <;> cases hc

/-- A control call that is not at the exchange leaves the stop alone. -/
theorem Draining.setControl {c : Option Control}
    (hc : ∀ early deinits, c ≠ some (.stopExchange early deinits)) :
    Draining { s with control := c } :=
  ⟨fun early deinits h => absurd h (hc early deinits), hd.known, hd.missed, hd.left, hd.drains⟩

end

/-- Outside a stop only the entries of a pending call count. -/
theorem Draining.of_state (hs : t.state ≠ .stopRequested)
    (hc : ∀ early deinits, t.control ≠ some (.stopExchange early deinits)) : Draining t :=
  ⟨fun early deinits h => absurd h (hc early deinits), fun h => absurd h hs, fun h => absurd h hs,
    fun h => absurd h hs, fun h => absurd h hs⟩

theorem afterStop_ne (deinits : Bool) (early : List Entry) (deinits' : Bool) :
    afterStop deinits ≠ some (.stopExchange early deinits') := by
  rw [afterStop]
  split <;> exact nofun

theorem Draining.controlStep (hd : Draining s) (ha : Accounted s) (hp : Phased s) (size : Nat)
    {c : Control} (hc : s.control = some c) : Draining (s.controlStep size c) := by
  cases c with
  | initStore => exact .of_state nofun nofun
  | flush parks =>
    -- Without a worker no stop is requested.
    have hidle := (hp.idle (hp.closing _ hc rfl)).2
    rw [WorkQueue.controlStep]
    split
    · refine .of_state hidle ?_
      intro early deinits h
      dsimp only at h
      split at h <;> cases h
    · refine .of_state hidle ?_
      intro early deinits h
      rw [show s.control = _ from hc] at h
      cases h
  | park => exact .of_state nofun nofun
  | startStore => exact .of_state nofun nofun
  | stopExchange early deinits => exact hd.stopExchange hp hc
  | stopAdd deinits =>
    refine Draining.setControl (s := s.addEmpty size) ?_ (afterStop_ne deinits)
    rw [WorkQueue.addEmpty]
    split
    · exact hd.send ha size none
    · exact hd
  | deinitWait =>
    rw [WorkQueue.controlStep]
    split
    · exact hd
    · exact hd.setControl nofun
    · exact hd.setControl nofun

/-! ### The run -/

/-- What every reachable state keeps. -/
structure Inv (s : WorkQueue) : Prop where
  phased : Phased s
  accounted : Accounted s
  draining : Draining s

theorem Inv.initial (h : Initial s) : Inv s := by
  rw [h]
  refine ⟨?_, ?_, ?_⟩
  · constructor <;> simp
  · exact ⟨rfl, .slnil, nofun, nofun⟩
  · exact .of_state nofun nofun

/-- A send changes neither the tasks nor the state. -/
theorem Inv.send (hi : Inv s) (size : Nat) (work : Option Nat) : Inv (s.send size work) :=
  have hframe := send_frame size s work
  ⟨hi.phased.congr hframe.1 hframe.2.1 hframe.2.2, hi.accounted.send size work,
    hi.draining.send hi.accounted size work⟩

/-- The step lemma. -/
theorem Inv.step {a : Action} (hi : Inv s) (ht : step size s a = some t) : Inv t := by
  have ⟨hp, ha, hd⟩ := hi
  cases a with
  | addBegin work =>
    obtain rfl := Option.some.inj ht
    split
    · exact ⟨hp.congr rfl rfl rfl, ha.congr rfl rfl rfl rfl, ⟨hd.1, hd.2, hd.3, hd.4, hd.5⟩⟩
    · exact hi
  | addSend work =>
    rw [Work.step, Option.ite_none_right_eq_some] at ht
    obtain rfl := Option.some.inj ht.2
    have herase : Inv { s with adding := s.adding.erase work } :=
      ⟨hp.congr rfl rfl rfl, ha.congr rfl rfl rfl rfl, ⟨hd.1, hd.2, hd.3, hd.4, hd.5⟩⟩
    exact herase.send size (some work)
  | addReturn e =>
    rw [Work.step, Option.ite_none_right_eq_some] at ht
    obtain rfl := Option.some.inj ht.2
    refine ⟨hp.congr rfl rfl rfl, ⟨ha.1, ha.2, ha.3, ?_⟩, ⟨hd.1, hd.2, hd.3, hd.4, hd.5⟩⟩
    exact List.forall_mem_cons.mpr ⟨ht.1, ha.returned⟩
  | worker =>
    obtain ⟨w, hw, rfl⟩ := Option.map_eq_some_iff.mp ht
    exact ⟨hp.workerStep hw, ha.workerStep hw, hd.workerStep hw⟩
  | init created =>
    rw [Work.step, Option.ite_none_right_eq_some] at ht
    obtain rfl := Option.some.inj ht.2
    refine ⟨hp.initCall ht.1 created, ha.initCall created, ?_⟩
    rw [initCall]
    split
    · split
      · exact ⟨nofun, hd.2, hd.3, hd.4, hd.5⟩
      · exact hd
    · exact hd.setControl nofun
    · exact hd.setControl nofun
    · exact hd
  | start created =>
    rw [Work.step, Option.ite_none_right_eq_some] at ht
    obtain rfl := Option.some.inj ht.2
    refine ⟨hp.startCall created, ha.startCall hp ht.1 created, ?_⟩
    rw [startCall]
    split
    · next h =>
      refine .of_state ?_ nofun
      show s.state ≠ .stopRequested
      rw [h.1]
      exact nofun
    · exact hd
  | stop =>
    rw [Work.step, Option.ite_none_right_eq_some] at ht
    obtain rfl := Option.some.inj ht.2
    refine ⟨hp.stopCall ht.1 _, ha.congr rfl rfl rfl rfl, ?_⟩
    refine ⟨?_, hd.2, hd.3, hd.4, hd.5⟩
    intro early deinits hc
    obtain ⟨rfl, -⟩ : s.returnedSoFar = early ∧ false = deinits := by simpa using hc
    exact returnedSoFar_known ha
  | deinit =>
    rw [Work.step, Option.ite_none_right_eq_some] at ht
    obtain rfl := Option.some.inj ht.2
    refine ⟨hp.deinitCall ht.1, ha.congr rfl rfl rfl rfl, ?_⟩
    refine ⟨?_, hd.2, hd.3, hd.4, hd.5⟩
    intro early deinits hc
    rw [deinitCall] at hc
    dsimp only at hc
    split at hc
    · obtain ⟨rfl, -⟩ : s.returnedSoFar = early ∧ true = deinits := by simpa using hc
      exact returnedSoFar_known ha
    · simp at hc
  | control =>
    obtain ⟨c, hc, rfl⟩ := Option.map_eq_some_iff.mp ht
    exact ⟨hp.controlStep size hc, ha.controlStep size c, hd.controlStep ha hp size hc⟩

/-- The executed entries and the one in hand, in the order of acceptance and each once. -/
def Ordered (s : WorkQueue) : Prop :=
  (s.executed ++ s.inHand).Sublist s.accepted ∧ s.accepted.Nodup

/-- Every entry whose add had returned when the stop was called has been executed. -/
def Drained (s : WorkQueue) : Prop := ∀ e ∈ s.early, e ∈ s.executed

/-- The early entries of the stop call that is before its exchange. -/
def stopping (s : WorkQueue) : List Entry :=
  match s.control with
  | some (.stopExchange early _) => early
  | _ => []

/-- A stop request is not stored while an early entry waits and the worker is about to read the
state. -/
def SafeStop (s : WorkQueue) (a : Action) : Prop :=
  a = .control → s.state = .running → s.atCheck = true → ∀ e ∈ stopping s, e ∉ s.queue

instance (s : WorkQueue) (a : Action) : Decidable (SafeStop s a) :=
  inferInstanceAs (Decidable (a = .control → s.state = .running → s.atCheck = true →
    ∀ e ∈ stopping s, e ∉ s.queue))

theorem Inv.ordered (hi : Inv s) : Ordered s :=
  ⟨(List.sublist_append_left _ s.queue).trans hi.accounted.order, hi.accounted.nodup⟩

/-- When the worker is about to report, the early entries are executed or missed. -/
theorem Inv.drained_iff (hi : Inv s) (hw : s.worker = some .report) :
    Drained s ↔ s.missed = [] := by
  have hs := hi.phased.leaving (.inr hw)
  have hexit : s.atExit = true := by
    rw [atExit, atCheck, hw]
    rfl
  constructor
  · intro hdrained
    rw [List.eq_nil_iff_forall_not_mem]
    intro e he
    have hmissed := hi.draining.missed hs e he
    exact hi.accounted.not_queued (hdrained e hmissed.1) hmissed.2
  · intro hnone e he
    have hknown := hi.draining.known hs e he
    have hkept := (hi.accounted.kept e hknown.1).resolve_right hknown.2
    have hhand : s.inHand = [] := by
      rw [inHand, hw]
    rw [pipeline, hhand, List.append_nil] at hkept
    rcases List.mem_append.mp hkept with hdone | hq
    · exact hdone
    · have hmissed := hi.draining.left hs hexit e he hq
      rw [hnone] at hmissed
      cases hmissed

/-- In every run, a stop leaves behind exactly the entries that `missed` records. -/
theorem drained_iff_missed (h : Reach Initial (step size) (fun _ _ => True) s) :
    Ordered s ∧ (s.worker = some .report → (Drained s ↔ s.missed = [])) := by
  have hi : Inv s := h.inv Inv (fun _ h0 => .initial h0) fun _ _ _ hi _ ht => hi.step ht
  exact ⟨hi.ordered, hi.drained_iff⟩

/-- Only the exchange of a stop misses entries. -/
theorem step_missed {a : Action} (hsafe : SafeStop s a) (hm : s.missed = [])
    (ht : step size s a = some t) : t.missed = [] := by
  cases a with
  | worker =>
    obtain ⟨w, hw, rfl⟩ := Option.map_eq_some_iff.mp ht
    rw [(workerStep_frame s w).2.2.2.2.2, hm]
  | control =>
    obtain ⟨c, hc, rfl⟩ := Option.map_eq_some_iff.mp ht
    cases c with
    | stopExchange early deinits =>
      rw [WorkQueue.controlStep, WorkQueue.stopExchange]
      have hearly : stopping s = early := by
        rw [stopping, hc]
      by_cases hs : s.state = .running
      · rw [if_pos hs]
        by_cases hat : s.atCheck = true
        · rw [if_pos hat]
          refine List.filter_eq_nil_iff.mpr ?_
          intro e he
          have hq := hsafe rfl hs hat e (hearly ▸ he)
          simpa using hq
        · rw [if_neg hat]
      · rw [if_neg hs]
        exact hm
    | _ => grind [WorkQueue.controlStep, WorkQueue.addEmpty, WorkQueue.send]
  | _ => grind [Work.step, WorkQueue.send, initCall, startCall, deinitCall]

/-- **Drain.** In the runs without an unsafe stop, entries are executed in the order of
acceptance, each once, and a worker that reports its end has executed every early entry. -/
theorem drained_of_safe_stop (h : Reach Initial (step size) SafeStop s) :
    Ordered s ∧ (s.worker = some .report → Drained s) := by
  have hi : Inv s ∧ s.missed = [] := by
    refine h.inv (fun s => Inv s ∧ s.missed = []) ?_ ?_
    · intro s h0
      exact ⟨.initial h0, by rw [h0]⟩
    · intro s a t hi hsafe ht
      exact ⟨hi.1.step ht, step_missed hsafe hi.2 ht⟩
  exact ⟨hi.1.ordered, fun hw => (hi.1.drained_iff hw).mpr hi.2⟩

/-- From the first init to a worker that waits for entries. -/
def startUp : List Action :=
  [.init true, .control, .control, .start true, .control, .worker, .worker]

/-- An entry is added, and its add returns. -/
def addOne : List Action := [.addBegin 7, .addSend 7, .addReturn ⟨0, some 7⟩]

/-- A stop while the worker waits. -/
def stopWhileWaiting : List Action :=
  startUp ++ addOne ++ [.stop, .control, .control] ++ List.replicate 7 .worker

/-- The stopped queue has executed the entry and the empty task. -/
theorem stopWhileWaiting_drained : ∃ s, Reach Initial (step 4) SafeStop s ∧
    s.worker = some .report ∧ s.executed = [⟨0, some 7⟩, ⟨1, none⟩] ∧ Drained s := by
  have hrun : Reach Initial (step 4) SafeStop _ :=
    Reach.exec stopWhileWaiting (.start rfl) (by decide) rfl
  exact ⟨_, hrun, rfl, rfl, (drained_of_safe_stop hrun).2 rfl⟩

/-- A start, an add and a stop before the new worker has read the state. -/
def stopBeforeCheck : List Action :=
  [.init true, .control, .control, .start true, .control] ++ addOne ++
    [.stop, .control, .worker, .worker, .worker]

/-- The worker reports its end, and the entry was not executed. -/
theorem stopBeforeCheck_not_drained : ∃ s, Reach Initial (step 4) (fun _ _ => True) s ∧
    s.worker = some .report ∧ ⟨0, some 7⟩ ∈ s.early ∧ s.executed = [] ∧ ¬ Drained s := by
  refine ⟨_, Reach.exec stopBeforeCheck (.start rfl) (by decide) rfl, rfl, ?_, rfl, ?_⟩
  · decide
  · intro hdrained
    have hdone := hdrained ⟨0, some 7⟩ (by decide)
    cases hdone

theorem drained_iff_missed_stopBeforeCheck : ∃ s, exec (step 4) {} stopBeforeCheck = some s ∧
    s.missed = [⟨0, some 7⟩] ∧ Ordered s ∧
    (s.worker = some .report → (Drained s ↔ s.missed = [])) := by
  have hrun : Reach Initial (step 4) (fun _ _ => True) _ :=
    Reach.exec_true stopBeforeCheck (.start rfl) rfl
  exact ⟨_, rfl, rfl, drained_iff_missed hrun⟩

end RainMakerNeo.Common.Work
