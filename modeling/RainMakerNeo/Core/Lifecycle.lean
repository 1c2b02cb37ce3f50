import Mathlib.Data.List.Count
import RainMakerNeo.Common.WorkQueue

/-!
# `RainMakerNeo.Core.Lifecycle`: starting and stopping the SDK

`esp_rmaker_start` and `esp_rmaker_stop` check the state, add their task to the work queue, and
store the new state at their end. The worker runs the task and stores its result in the same
variable. The runs of `step` are the interleavings of any number of callers with the tasks of the
work queue. One step is one access to the shared state.

The caller stores its state after the task was added. When the worker is done by then, the caller
overwrites the result of the task. Since only `esp_rmaker_pre_prov_init` sets
`start_task_in_queue`, a second start adds a second start task. `honest_of_timely` says that the
state is right in each run without these two steps. `overwritten_or_repeated` runs into each of
them.
-/

set_option autoImplicit false

namespace RainMakerNeo.Core.Lifecycle

open RainMakerNeo.Lib
open RainMakerNeo.Common.Work (QueueState)

/-! ### The model -/

/-- `esp_rmaker_state_t`. -/
inductive SdkState
  | deinit
  | initDone
  | starting
  | started
  | stopRequested
  | stopped
  | error
  deriving DecidableEq, Repr

/-- A work function in the queue. -/
inductive Task
  /-- `esp_rmaker_start_task`. -/
  | start
  /-- `esp_rmaker_stop_task`. -/
  | stop
  /-- Any other work function. It does not touch the state. -/
  | other
  deriving DecidableEq, Repr

/-- Where a task of the work queue is. -/
inductive Worker
  /-- Before the load of the queue state. -/
  | check
  /-- In a receive. -/
  | receive
  | run (task : Task)
  /-- `esp_rmaker_stop_task` after `esp_rmaker_work_queue_stop`. -/
  | stopped
  /-- After the loop, before the store of `WORK_QUEUE_STATE_INIT_DONE`. -/
  | leave
  deriving DecidableEq, Repr

/-- Where a call of `esp_rmaker_start` or `esp_rmaker_stop` is. -/
inductive Call
  /-- Before the load of `start_task_in_queue`. -/
  | startFlag
  /-- Before the start task is added. -/
  | startAdd
  /-- `esp_rmaker_work_queue_start` before the load of the queue state. -/
  | startQueue
  /-- `esp_rmaker_work_queue_start` after the task was created. -/
  | startRunning
  /-- Before the store of `ESP_RMAKER_STATE_STARTING`. -/
  | startStore
  /-- Before the stop task is added. -/
  | stopAdd
  /-- Before the store of `ESP_RMAKER_STATE_STOP_REQUESTED`. -/
  | stopStore
  deriving DecidableEq, Repr

/-- The trackers of an initialized SDK, the work queue, the calls under way, and the history. The
fields from `starting` on do not exist in the code. -/
structure Sdk where
  state : SdkState := .initDone
  startTaskInQueue : Bool := false
  queueState : QueueState := .initDone
  queue : List Task := []
  workers : List Worker := []
  calls : List Call := []
  /-- A start was accepted, and no start task has finished since. -/
  starting : Bool := false
  /-- A start task has succeeded, and no stop was accepted since. -/
  startDone : Bool := false
  /-- A stop was accepted, and no stop task has finished since. -/
  stopping : Bool := false
  /-- A stop task has succeeded, and no start was accepted since. -/
  stopDone : Bool := false
  /-- The start tasks that ran since a stop task finished or a start task failed. -/
  effects : Nat := 0
  deriving DecidableEq, Repr

/-- What happens next. The Boolean of a call says whether the entry or the task could be made, and
that of a worker whether the work function succeeds. -/
inductive Action
  | start
  | stop
  | call (c : Call) (made : Bool)
  | worker (w : Worker) (ok : Bool)
  /-- Another component adds an entry. -/
  | add
  deriving DecidableEq, Repr

namespace Sdk

/-- A task of the work queue goes on. -/
def work (s : Sdk) (w w' : Worker) : Sdk := { s with workers := w' :: s.workers.erase w }

/-- A call goes on. -/
def go (s : Sdk) (c c' : Call) : Sdk := { s with calls := c' :: s.calls.erase c }

/-- A call returns. -/
def back (s : Sdk) (c : Call) : Sdk := { s with calls := s.calls.erase c }

/-- `osal_queue_receive`, and the first line of `esp_rmaker_start_task`. -/
def receive (s : Sdk) : Sdk :=
  match s.queue with
  | [] => s.work .receive .check
  | .start :: queue =>
    { s.work .receive (.run .start) with
      queue := queue, startTaskInQueue := false, effects := s.effects + 1 }
  | task :: queue => { s.work .receive (.run task) with queue := queue }

/-- The end of `esp_rmaker_start_task`. -/
def startTask (s : Sdk) (ok : Bool) : Sdk :=
  if ok then
    { s.work (.run .start) .receive with state := .started, starting := false, startDone := true }
  else { s.work (.run .start) .receive with state := .error, starting := false, effects := 0 }

/-- `esp_rmaker_stop_task` up to the call of `esp_rmaker_work_queue_stop`, which adds the empty
task. -/
def stopTask (s : Sdk) (ok : Bool) : Sdk :=
  if ok then
    if s.queueState = .running then
      { s.work (.run .stop) .stopped with
        queueState := .stopRequested, queue := s.queue ++ [.other] }
    else s.work (.run .stop) .stopped
  else { s.work (.run .stop) .receive with state := .error, stopping := false, effects := 0 }

/-- The end of `esp_rmaker_stop_task`. -/
def stopTaskEnd (s : Sdk) : Sdk :=
  { s.work .stopped .receive with
    state := .stopped, stopping := false, stopDone := true, effects := 0 }

/-- `esp_rmaker_work_queue_task`. -/
def workerStep (s : Sdk) (ok : Bool) : Worker → Sdk
  | .check => s.work .check (if s.queueState = .stopRequested then .leave else .receive)
  | .receive => s.receive
  | .run .start => s.startTask ok
  | .run .stop => s.stopTask ok
  | .run .other => s.work (.run .other) .receive
  | .stopped => s.stopTaskEnd
  | .leave => { s with queueState := .initDone, workers := s.workers.erase .leave }

/-- A start is accepted once it has passed its checks and the add. -/
def acceptStart (s : Sdk) : Sdk := { s with starting := true, stopDone := false }

/-- `esp_rmaker_work_queue_start` up to the creation of the task. -/
def startQueue (s : Sdk) (made : Bool) : Sdk :=
  match s.queueState with
  | .running => s.go .startQueue .startStore
  | .initDone =>
    if made then
      { s.go .startQueue .startRunning with workers := .check :: s.workers }
    else s.back .startQueue
  | _ => s.back .startQueue

/-- The next step of `esp_rmaker_start` or `esp_rmaker_stop`. -/
def callStep (s : Sdk) (made : Bool) : Call → Sdk
  | .startFlag =>
    if s.startTaskInQueue then (s.go .startFlag .startQueue).acceptStart
    else s.go .startFlag .startAdd
  | .startAdd =>
    -- The result of the add is ignored.
    { (s.go .startAdd .startQueue).acceptStart with
      queue := if made then s.queue ++ [.start] else s.queue }
  | .startQueue => s.startQueue made
  | .startRunning => { s.go .startRunning .startStore with queueState := .running }
  | .startStore => { s.back .startStore with state := .starting }
  | .stopAdd =>
    { s.go .stopAdd .stopStore with
      queue := if made then s.queue ++ [.stop] else s.queue
      startDone := false, stopping := true }
  | .stopStore => { s.back .stopStore with state := .stopRequested }

/-- `esp_rmaker_start` up to its check of the state. -/
def start (s : Sdk) : Sdk :=
  if s.state = .started then s else { s with calls := .startFlag :: s.calls }

/-- `esp_rmaker_stop` refuses. -/
def stopRefused (s : Sdk) : Bool := s.state != .started

/-- `esp_rmaker_stop` up to its check of the state. -/
def stop (s : Sdk) : Sdk :=
  if s.stopRefused then s else { s with calls := .stopAdd :: s.calls }

end Sdk

/-- What `esp_rmaker_node_deinit` does. -/
inductive DeinitAnswer
  | invalidArg
  /-- It waits for `ESP_RMAKER_STATE_STOPPED` or `ESP_RMAKER_STATE_ERROR`. -/
  | waits
  | invalidState
  | deinits
  deriving DecidableEq, Repr

/-- The checks of `esp_rmaker_node_deinit`. -/
def Sdk.nodeDeinit (s : Sdk) : DeinitAnswer :=
  match s.state with
  | .deinit => .invalidArg
  | .stopRequested => .waits
  | .started | .starting => .invalidState
  | .initDone | .stopped | .error => .deinits

/-- The next step of a caller or of a worker. -/
def step (s : Sdk) : Action → Option Sdk
  | .start => some s.start
  | .stop => some s.stop
  | .call c made => if c ∈ s.calls then some (s.callStep made c) else none
  | .worker w ok => if w ∈ s.workers then some (s.workerStep ok w) else none
  | .add => some { s with queue := s.queue ++ [.other] }

/-- After `esp_rmaker_node_init`. The start task is in the queue already, unless its add failed. -/
def Initial (s : Sdk) : Prop := s = {} ∨ s = { queue := [.start], startTaskInQueue := true }

/-! ### The statement -/

/-- The state tells what the tasks have done. -/
structure Honest (s : Sdk) : Prop where
  started : s.startDone = true → s.state = .started
  stopped : s.stopDone = true → s.state = .stopped
  once : s.effects ≤ 1
  /-- A stop is not refused after a start task has succeeded. -/
  accepted : s.startDone = true → s.stopRefused = false
  /-- A deinit is refused only while the SDK starts, runs or stops. -/
  refused : s.nodeDeinit = .invalidState →
    s.starting = true ∨ s.startDone = true ∨ s.stopping = true
  /-- A deinit waits only while the SDK stops. -/
  waits : s.nodeDeinit = .waits → s.stopping = true
  /-- A deinit goes on after a stop task has succeeded. -/
  deinits : s.stopDone = true → s.nodeDeinit = .deinits

/-- The caller is in time. A start task is added only when none is queued and none has run since the
last stop, and a stop task only when no other stop came first. A caller stores its state before the
task has finished. -/
def Timely (s : Sdk) : Action → Prop
  | .call .startAdd _ => .start ∉ s.queue ∧ s.effects = 0
  | .call .startStore _ => s.starting = true
  | .call .stopAdd _ => s.startDone = true
  | .call .stopStore _ => s.stopping = true
  | _ => True

instance (s : Sdk) : ∀ a, Decidable (Timely s a)
  | .call .startAdd _ => inferInstanceAs (Decidable (_ ∧ _))
  | .call .startStore _ => inferInstanceAs (Decidable (s.starting = true))
  | .call .stopAdd _ => inferInstanceAs (Decidable (s.startDone = true))
  | .call .stopStore _ => inferInstanceAs (Decidable (s.stopping = true))
  | .call .startFlag _ | .call .startQueue _ | .call .startRunning _ =>
    inferInstanceAs (Decidable True)
  | .start | .stop | .worker _ _ | .add => inferInstanceAs (Decidable True)

/-! ### The tasks and the state -/

/-- The start tasks that are queued or run. -/
def Sdk.starts (s : Sdk) : Nat := s.queue.count .start + s.workers.count (.run .start)

/-- The stop tasks that are queued or run. -/
def Sdk.stops (s : Sdk) : Nat :=
  s.queue.count .stop + s.workers.count (.run .stop) + s.workers.count .stopped

/-- No start task has succeeded since the last stop. -/
structure Idle (s : Sdk) : Prop where
  startDone : s.startDone = false
  stopping : s.stopping = false
  stops : s.stops = 0
  starts : s.starts ≤ 1
  effects : s.effects = s.workers.count (.run .start)
  state : s.state = .initDone ∨ s.state = .stopped ∨ s.state = .error ∨
    s.state = .starting ∧ s.starting = true
  stopDone : s.stopDone = true → s.state = .stopped ∧ s.starting = false ∧ s.starts = 0

/-- A start task has succeeded, and no stop was accepted since. -/
structure Started (s : Sdk) : Prop where
  startDone : s.startDone = true
  starting : s.starting = false
  stopping : s.stopping = false
  stopDone : s.stopDone = false
  stops : s.stops = 0
  starts : s.starts = 0
  effects : s.effects = 1
  state : s.state = .started

/-- A stop was accepted, and its task has not finished. -/
structure Stopping (s : Sdk) : Prop where
  startDone : s.startDone = false
  starting : s.starting = false
  stopping : s.stopping = true
  stopDone : s.stopDone = false
  stops : s.stops ≤ 1
  starts : s.starts = 0
  effects : s.effects = 1
  state : s.state = .started ∨ s.state = .stopRequested

/-- The SDK is in one of three phases, and the flag stands for a queued start task. -/
structure Phased (s : Sdk) : Prop where
  flag : s.startTaskInQueue = true → .start ∈ s.queue
  phase : Idle s ∨ Started s ∨ Stopping s

variable {s : Sdk}

/-- The state tells the phase. -/
theorem Phased.honest (h : Phased s) : Honest s := by
  rcases h.phase with hidle | hstarted | hstopping
  · have hdone := hidle.startDone
    have hstop := hidle.stopDone
    have hstarts := hidle.starts
    rw [Sdk.starts] at hstarts
    constructor
    all_goals first
      | (rw [hdone]; intro h; cases h)
      | skip
    · exact fun h => (hstop h).1
    · rw [hidle.effects]
      omega
    · intro hrefused
      rcases hidle.state with h | h | h | h
      all_goals simp_all [Sdk.nodeDeinit]
    · intro hwaits
      rcases hidle.state with h | h | h | h
      all_goals simp_all [Sdk.nodeDeinit]
    · intro h
      rw [Sdk.nodeDeinit, (hstop h).1]
  · have hstate := hstarted.state
    refine ⟨fun _ => hstate, ?_, Nat.le_of_eq hstarted.effects, ?_, ?_, ?_, ?_⟩
    · rw [hstarted.stopDone]
      exact fun h => nomatch h
    · intro _
      rw [Sdk.stopRefused, hstate]
      rfl
    · exact fun _ => .inr (.inl hstarted.startDone)
    · rw [Sdk.nodeDeinit, hstate]
      exact fun h => nomatch h
    · rw [hstarted.stopDone]
      exact fun h => nomatch h
  · refine ⟨?_, ?_, Nat.le_of_eq hstopping.effects, ?_, ?_, ?_, ?_⟩
    · rw [hstopping.startDone]
      exact fun h => nomatch h
    · rw [hstopping.stopDone]
      exact fun h => nomatch h
    · rw [hstopping.startDone]
      exact fun h => nomatch h
    · exact fun _ => .inr (.inr hstopping.stopping)
    · exact fun _ => hstopping.stopping
    · rw [hstopping.stopDone]
      exact fun h => nomatch h

/-! ### One step -/

/-- What a task of the work queue was and what it becomes. -/
theorem count_work {w : Worker} (hw : w ∈ s.workers) (w' x : Worker) :
    (s.work w w').workers.count x + (if w = x then 1 else 0) =
      s.workers.count x + if w' = x then 1 else 0 := by
  have hpos : 0 < s.workers.count w := List.count_pos_iff.mpr hw
  rw [Sdk.work, List.count_cons, List.count_erase]
  by_cases hx : w = x
  · subst hx
    simp only [BEq.rfl, if_true]
    split <;> split <;> simp_all
  · simp only [beq_iff_eq, hx, if_false]
    omega

@[simp]
theorem work_queue (s : Sdk) (w w' : Worker) : (s.work w w').queue = s.queue := rfl

section
variable (h : Phased s)
include h

/-- The parts that the phases read. -/
theorem Phased.congr {t : Sdk} (hstate : t.state = s.state)
    (hflag : t.startTaskInQueue = s.startTaskInQueue) (hmem : .start ∈ s.queue → .start ∈ t.queue)
    (hstarts : t.starts = s.starts) (hstops : t.stops = s.stops)
    (hruns : t.workers.count (.run .start) = s.workers.count (.run .start))
    (hghost : t.starting = s.starting ∧ t.startDone = s.startDone ∧ t.stopping = s.stopping ∧
      t.stopDone = s.stopDone ∧ t.effects = s.effects) : Phased t := by
  obtain ⟨h₁, h₂, h₃, h₄, h₅⟩ := hghost
  refine ⟨?_, ?_⟩
  · rw [hflag]
    exact fun hf => hmem (h.flag hf)
  · rcases h.phase with ⟨a, b, c, d, e, f, g⟩ | ⟨a, b, c, d, e, f, g, i⟩ | ⟨a, b, c, d, e, f, g, i⟩
    · exact .inl ⟨by rw [h₂, a], by rw [h₃, b], by rw [hstops, c], by rw [hstarts]; exact d,
        by rw [h₅, hruns, e], by rw [hstate, h₁]; exact f, by rw [h₄, hstate, h₁, hstarts]; exact g⟩
    · exact .inr (.inl ⟨by rw [h₂, a], by rw [h₁, b], by rw [h₃, c], by rw [h₄, d],
        by rw [hstops, e], by rw [hstarts, f], by rw [h₅, g], by rw [hstate, i]⟩)
    · exact .inr (.inr ⟨by rw [h₂, a], by rw [h₁, b], by rw [h₃, c], by rw [h₄, d],
        by rw [hstops]; exact e, by rw [hstarts, f], by rw [h₅, g], by rw [hstate]; exact i⟩)

/-- A task of the work queue keeps the phase where neither its old place nor its new one is in a
start or stop task. -/
theorem Phased.work {w w' : Worker} (hw : w ∈ s.workers)
    (hold : w ≠ .run .start ∧ w ≠ .run .stop ∧ w ≠ .stopped)
    (hnew : w' ≠ .run .start ∧ w' ≠ .run .stop ∧ w' ≠ .stopped) : Phased (s.work w w') := by
  have hcount : ∀ x : Worker, w ≠ x → w' ≠ x →
      (s.work w w').workers.count x = s.workers.count x := by
    intro x hx hx'
    have hwork := count_work hw w' x
    rw [if_neg hx, if_neg hx'] at hwork
    exact hwork
  have hruns := hcount _ hold.1 hnew.1
  refine h.congr rfl rfl id ?_ ?_ hruns ⟨rfl, rfl, rfl, rfl, rfl⟩
  · rw [Sdk.starts, hruns]
    rfl
  · rw [Sdk.stops, hcount _ hold.2.1 hnew.2.1, hcount _ hold.2.2 hnew.2.2]
    rfl

/-- A queued or running start task belongs to an SDK that has not started. -/
theorem Phased.idle (hpos : 0 < s.starts) : Idle s := by
  rcases h.phase with hidle | hstarted | hstopping
  · exact hidle
  · have hzero := hstarted.starts
    omega
  · have hzero := hstopping.starts
    omega

/-- A queued or running stop task belongs to an accepted stop. -/
theorem Phased.stopTask (hpos : 0 < s.stops) : Stopping s := by
  rcases h.phase with hidle | hstarted | hstopping
  · have hzero := hidle.stops
    omega
  · have hzero := hstarted.stops
    omega
  · exact hstopping

/-- A receive moves the first entry into the hands of the task. -/
theorem Phased.receive (hw : .receive ∈ s.workers) : Phased s.receive := by
  rw [Sdk.receive]
  split
  · exact h.work hw (by decide) (by decide)
  · next queue hqueue =>
    have hruns := count_work hw (.run .start) (.run .start)
    have hstop := count_work hw (.run .start) (.run .stop)
    have hstopped := count_work hw (.run .start) .stopped
    simp only [reduceCtorEq, Worker.run.injEq, if_true, if_false] at hruns hstop hstopped
    have hcount : s.queue.count .start = queue.count .start + 1 := by
      rw [hqueue, List.count_cons_self]
    have hstops : s.queue.count .stop = queue.count .stop := by
      rw [hqueue, List.count_cons_of_ne (by decide)]
    -- The one start task leaves the queue.
    have hidle := h.idle (by rw [Sdk.starts]; omega)
    obtain ⟨a, b, c, d, e, f, g⟩ := hidle
    simp only [Sdk.starts, Sdk.stops] at c d g
    refine ⟨?_, .inl ⟨a, b, ?_, ?_, ?_, f, ?_⟩⟩
    · intro hflag
      cases hflag
    · simp only [Sdk.stops]
      omega
    · simp only [Sdk.starts]
      omega
    · simp only
      omega
    · intro hdone
      have hzero := (g hdone).2.2
      omega
  · next task queue htask hqueue =>
    have hne : task ≠ .start := htask
    have hcount : s.queue.count .start = queue.count .start := by
      rw [hqueue, List.count_cons_of_ne hne]
    have hruns := count_work hw (.run task) (.run .start)
    have hstop := count_work hw (.run task) (.run .stop)
    have hstopped := count_work hw (.run task) .stopped
    simp only [reduceCtorEq, Worker.run.injEq, hne, if_false] at hruns hstop hstopped
    have hstops : s.queue.count .stop = queue.count .stop + if task = .stop then 1 else 0 := by
      rw [hqueue, List.count_cons]
      simp only [beq_iff_eq]
    refine h.congr rfl rfl ?_ ?_ ?_ hruns ⟨rfl, rfl, rfl, rfl, rfl⟩
    · intro hmem
      rw [hqueue] at hmem
      exact (List.mem_cons.mp hmem).resolve_left hne.symm
    · simp only [Sdk.starts]
      omega
    · simp only [Sdk.stops]
      omega

/-- A start task that ends. -/
theorem Phased.startTask (hw : .run .start ∈ s.workers) (ok : Bool) : Phased (s.startTask ok) := by
  have hpos : 0 < s.workers.count (.run .start) := List.count_pos_iff.mpr hw
  have hruns := count_work hw .receive (.run .start)
  have hstop := count_work hw .receive (.run .stop)
  have hstopped := count_work hw .receive .stopped
  simp only [reduceCtorEq, Worker.run.injEq, if_true, if_false] at hruns hstop hstopped
  obtain ⟨a, b, c, d, e, f, g⟩ := h.idle (by rw [Sdk.starts]; omega)
  have hflag := h.flag
  rw [← List.count_pos_iff] at hflag
  simp only [Sdk.starts, Sdk.stops] at c d g
  have hnot : s.stopDone = false := by
    by_contra hdone
    have hzero := (g (by simpa using hdone)).2.2
    omega
  have hnone : s.startTaskInQueue = false := by
    by_contra hset
    have hqueued := hflag (by simpa using hset)
    omega
  rw [Sdk.startTask]
  split
  · refine ⟨?_, .inr (.inl ⟨rfl, rfl, b, hnot, ?_, ?_, ?_, rfl⟩)⟩
    · show s.startTaskInQueue = true → _
      rw [hnone]
      exact fun h => nomatch h
    · simp only [Sdk.stops, work_queue]
      omega
    · simp only [Sdk.starts, work_queue]
      omega
    · simp only [Sdk.work]
      omega
  · refine ⟨?_, .inl ⟨a, b, ?_, ?_, ?_, .inr (.inr (.inl rfl)), ?_⟩⟩
    · show s.startTaskInQueue = true → _
      rw [hnone]
      exact fun h => nomatch h
    · simp only [Sdk.stops, work_queue]
      omega
    · simp only [Sdk.starts, work_queue]
      omega
    · simp only
      omega
    · show s.stopDone = true → _
      rw [hnot]
      exact fun h => nomatch h

/-- A stop task that fails, or that stops the work queue. -/
theorem Phased.stopTaskStep (hw : .run .stop ∈ s.workers) (ok : Bool) : Phased (s.stopTask ok) := by
  have hpos : 0 < s.workers.count (.run .stop) := List.count_pos_iff.mpr hw
  obtain ⟨a, b, c, d, e, f, g, i⟩ := h.stopTask (by rw [Sdk.stops]; omega)
  simp only [Sdk.starts, Sdk.stops] at e f
  have hflag := h.flag
  rw [Sdk.stopTask]
  split
  · -- The task goes on, and the queue may get the empty task.
    have hruns := count_work hw .stopped (.run .start)
    have hstop := count_work hw .stopped (.run .stop)
    have hstopped := count_work hw .stopped .stopped
    simp only [reduceCtorEq, Worker.run.injEq, if_true, if_false] at hruns hstop hstopped
    split
    · refine h.congr rfl rfl (List.mem_append_left _) ?_ ?_ hruns ⟨rfl, rfl, rfl, rfl, rfl⟩
      · have hother : [Task.other].count .start = 0 := rfl
        simp only [Sdk.starts, List.count_append]
        omega
      · have hother : [Task.other].count .stop = 0 := rfl
        simp only [Sdk.stops, List.count_append]
        omega
    · refine h.congr rfl rfl id ?_ ?_ hruns ⟨rfl, rfl, rfl, rfl, rfl⟩
      · simp only [Sdk.starts, work_queue]
        omega
      · simp only [Sdk.stops, work_queue]
        omega
  · have hruns := count_work hw .receive (.run .start)
    have hstop := count_work hw .receive (.run .stop)
    have hstopped := count_work hw .receive .stopped
    simp only [reduceCtorEq, Worker.run.injEq, if_true, if_false] at hruns hstop hstopped
    refine ⟨hflag, .inl ⟨a, rfl, ?_, ?_, ?_, .inr (.inr (.inl rfl)), ?_⟩⟩
    · simp only [Sdk.stops, work_queue]
      omega
    · simp only [Sdk.starts, work_queue]
      omega
    · simp only
      omega
    · show s.stopDone = true → _
      rw [d]
      exact fun h => nomatch h

/-- A stop task that ends. -/
theorem Phased.stopTaskEnd (hw : .stopped ∈ s.workers) : Phased s.stopTaskEnd := by
  have hpos : 0 < s.workers.count .stopped := List.count_pos_iff.mpr hw
  have hruns := count_work hw .receive (.run .start)
  have hstop := count_work hw .receive (.run .stop)
  have hstopped := count_work hw .receive .stopped
  simp only [reduceCtorEq, if_true, if_false] at hruns hstop hstopped
  obtain ⟨a, b, c, d, e, f, g, i⟩ := h.stopTask (by rw [Sdk.stops]; omega)
  simp only [Sdk.starts, Sdk.stops] at e f
  refine ⟨h.flag, .inl ⟨a, rfl, ?_, ?_, ?_, .inr (.inl rfl), fun _ => ⟨rfl, b, ?_⟩⟩⟩
  · simp only [Sdk.stopTaskEnd, Sdk.stops, work_queue]
    omega
  · simp only [Sdk.stopTaskEnd, Sdk.starts, work_queue]
    omega
  · simp only [Sdk.stopTaskEnd]
    omega
  · simp only [Sdk.stopTaskEnd, Sdk.starts, work_queue]
    omega

/-- The tasks of the work queue keep the phases. -/
theorem Phased.workerStep {w : Worker} (hw : w ∈ s.workers) (ok : Bool) :
    Phased (s.workerStep ok w) := by
  cases w with
  | check =>
    rw [Sdk.workerStep]
    split
    · exact h.work hw (by decide) (by decide)
    · exact h.work hw (by decide) (by decide)
  | receive => exact h.receive hw
  | run task =>
    cases task with
    | start => exact h.startTask hw ok
    | stop => exact h.stopTaskStep hw ok
    | other => exact h.work hw (by decide) (by decide)
  | stopped => exact h.stopTaskEnd hw
  | leave =>
    have hcount : ∀ x : Worker, x ≠ .leave → (s.workers.erase .leave).count x = s.workers.count x :=
      fun x hx => List.count_erase_of_ne hx
    refine h.congr rfl rfl id ?_ ?_ (hcount _ (by decide)) ⟨rfl, rfl, rfl, rfl, rfl⟩
    · simp only [Sdk.workerStep, Sdk.starts, hcount _ (show Worker.run .start ≠ .leave by decide)]
    · simp only [Sdk.workerStep, Sdk.stops, hcount _ (show Worker.run .stop ≠ .leave by decide),
        hcount _ (show Worker.stopped ≠ .leave by decide)]

/-- A start that is on its way finds the SDK idle. -/
theorem Phased.idle_of_starting (hs : s.starting = true) : Idle s := by
  rcases h.phase with hidle | hstarted | hstopping
  · exact hidle
  · have hnot := hstarted.starting
    rw [hs] at hnot
    cases hnot
  · have hnot := hstopping.starting
    rw [hs] at hnot
    cases hnot

/-- A stop that comes in time finds the SDK started. -/
theorem Phased.started_of_startDone (hs : s.startDone = true) : Started s := by
  rcases h.phase with hidle | hstarted | hstopping
  · have hnot := hidle.startDone
    rw [hs] at hnot
    cases hnot
  · exact hstarted
  · have hnot := hstopping.startDone
    rw [hs] at hnot
    cases hnot

/-- A stop that is on its way finds the SDK stopping. -/
theorem Phased.stopping_of_stopping (hs : s.stopping = true) : Stopping s := by
  rcases h.phase with hidle | hstarted | hstopping
  · have hnot := hidle.stopping
    rw [hs] at hnot
    cases hnot
  · have hnot := hstarted.stopping
    rw [hs] at hnot
    cases hnot
  · exact hstopping

end

/-- The state of an idle SDK is one of an idle SDK that a start goes on in. -/
theorem Idle.state_starting (h : Idle s) :
    s.state = .initDone ∨ s.state = .stopped ∨ s.state = .error ∨
      s.state = .starting ∧ true = true := by
  rcases h.state with h | h | h | h
  · exact .inl h
  · exact .inr (.inl h)
  · exact .inr (.inr (.inl h))
  · exact .inr (.inr (.inr ⟨h.1, rfl⟩))

/-- An add may fail, so it queues at most one task more. -/
theorem count_add_le (q : List Task) (task : Task) (made : Bool) :
    (if made then q ++ [task] else q).count task ≤ q.count task + 1 := by
  split
  · exact Nat.le_of_eq (List.count_append.trans (by rw [List.count_singleton_self]))
  · exact Nat.le_succ _

theorem count_add_of_ne (q : List Task) {task task' : Task} (hne : task ≠ task') (made : Bool) :
    (if made then q ++ [task] else q).count task' = q.count task' := by
  split
  · rw [List.count_append, List.count_singleton, if_neg (by simpa using hne), Nat.add_zero]
  · rfl

section
variable (h : Phased s)
include h

/-- A start reads the flag: either a start task is queued, or it will queue one. -/
theorem Phased.startFlag (made : Bool) : Phased (s.callStep made .startFlag) := by
  rw [Sdk.callStep]
  split
  · next hset =>
    -- The flag stands for a queued start task.
    have hpos := List.count_pos_iff.mpr (h.flag hset)
    have hidle := h.idle (by rw [Sdk.starts]; omega)
    exact ⟨h.flag, .inl { hidle with
      state := hidle.state_starting, stopDone := fun h => by cases h }⟩
  · exact h.congr rfl rfl id rfl rfl rfl ⟨rfl, rfl, rfl, rfl, rfl⟩

/-- A start queues its task, while none is queued and none is in effect. -/
theorem Phased.startAdd (hqueue : .start ∉ s.queue) (heffects : s.effects = 0) (made : Bool) :
    Phased (s.callStep made .startAdd) := by
  rcases h.phase with hidle | hstarted | hstopping
  · have hstops := hidle.stops
    have hrun := hidle.effects
    have hnone : s.queue.count .start = 0 := List.count_eq_zero.mpr hqueue
    have hstart := count_add_le s.queue .start made
    have hstop := count_add_of_ne s.queue (show Task.start ≠ .stop by decide) made
    simp only [Sdk.stops] at hstops
    refine ⟨?_, .inl ⟨hidle.startDone, hidle.stopping, ?_, ?_, hidle.effects,
      hidle.state_starting, fun h => by cases h⟩⟩
    · intro hset
      exact absurd (h.flag hset) hqueue
    · simp only [Sdk.callStep, Sdk.stops, Sdk.acceptStart, Sdk.go]
      omega
    · simp only [Sdk.callStep, Sdk.starts, Sdk.acceptStart, Sdk.go]
      omega
  · have hone := hstarted.effects
    omega
  · have hone := hstopping.effects
    omega

/-- A start of the work queue creates its task, or finds the queue running. -/
theorem Phased.startQueue (made : Bool) : Phased (s.callStep made .startQueue) := by
  rw [Sdk.callStep, Sdk.startQueue]
  split
  · exact h.congr rfl rfl id rfl rfl rfl ⟨rfl, rfl, rfl, rfl, rfl⟩
  · split
    · have hcount : ∀ x : Worker, x ≠ .check →
          (Worker.check :: s.workers).count x = s.workers.count x :=
        fun x hx => List.count_cons_of_ne hx.symm
      refine h.congr rfl rfl id ?_ ?_ (hcount _ (by decide)) ⟨rfl, rfl, rfl, rfl, rfl⟩
      · simp only [Sdk.starts, Sdk.go, hcount _ (show Worker.run .start ≠ .check by decide)]
      · simp only [Sdk.stops, Sdk.go, hcount _ (show Worker.run .stop ≠ .check by decide),
          hcount _ (show Worker.stopped ≠ .check by decide)]
    · exact h.congr rfl rfl id rfl rfl rfl ⟨rfl, rfl, rfl, rfl, rfl⟩
  · exact h.congr rfl rfl id rfl rfl rfl ⟨rfl, rfl, rfl, rfl, rfl⟩

/-- A start stores its state while it is on its way. -/
theorem Phased.startStore (hstarting : s.starting = true) (made : Bool) :
    Phased (s.callStep made .startStore) := by
  have hidle := h.idle_of_starting hstarting
  refine ⟨h.flag, .inl { hidle with
    state := .inr (.inr (.inr ⟨rfl, hstarting⟩)), stopDone := ?_ }⟩
  intro hdone
  have hnot := (hidle.stopDone hdone).2.1
  rw [hstarting] at hnot
  cases hnot

/-- A stop queues its task after a start that succeeded. -/
theorem Phased.stopAdd (hdone : s.startDone = true) (made : Bool) :
    Phased (s.callStep made .stopAdd) := by
  have hstarted := h.started_of_startDone hdone
  have hstops := hstarted.stops
  have hstarts := hstarted.starts
  have hstop := count_add_le s.queue .stop made
  have hstart := count_add_of_ne s.queue (show Task.stop ≠ .start by decide) made
  simp only [Sdk.stops] at hstops
  simp only [Sdk.starts] at hstarts
  refine ⟨?_, .inr (.inr ⟨rfl, hstarted.starting, rfl, hstarted.stopDone, ?_, ?_,
    hstarted.effects, .inl hstarted.state⟩)⟩
  · intro hset
    have hpos := List.count_pos_iff.mpr (h.flag hset)
    omega
  · simp only [Sdk.callStep, Sdk.stops, Sdk.go]
    omega
  · simp only [Sdk.callStep, Sdk.starts, Sdk.go]
    omega

/-- The steps of the callers keep the phases, where the callers are in time. -/
theorem Phased.callStep {c : Call} {made : Bool} (hg : Timely s (.call c made)) :
    Phased (s.callStep made c) := by
  cases c with
  | startFlag => exact h.startFlag made
  | startAdd => exact h.startAdd hg.1 hg.2 made
  | startQueue => exact h.startQueue made
  | startRunning => exact h.congr rfl rfl id rfl rfl rfl ⟨rfl, rfl, rfl, rfl, rfl⟩
  | startStore => exact h.startStore hg made
  | stopAdd => exact h.stopAdd hg made
  | stopStore =>
    have hstopping := h.stopping_of_stopping hg
    exact ⟨h.flag, .inr (.inr { hstopping with state := .inr rfl })⟩

/-- Each step keeps the phases, where the callers are in time. -/
theorem Phased.step {t : Sdk} {a : Action} (hg : Timely s a) (ht : step s a = some t) :
    Phased t := by
  cases a with
  | start =>
    obtain rfl := Option.some.inj ht
    rw [Sdk.start]
    split
    · exact h
    · exact h.congr rfl rfl id rfl rfl rfl ⟨rfl, rfl, rfl, rfl, rfl⟩
  | stop =>
    obtain rfl := Option.some.inj ht
    rw [Sdk.stop]
    split
    · exact h
    · exact h.congr rfl rfl id rfl rfl rfl ⟨rfl, rfl, rfl, rfl, rfl⟩
  | call c made =>
    rw [Lifecycle.step] at ht
    split at ht
    · obtain rfl := Option.some.inj ht
      exact h.callStep hg
    · cases ht
  | worker w ok =>
    rw [Lifecycle.step] at ht
    split at ht
    · next hw =>
      obtain rfl := Option.some.inj ht
      exact h.workerStep hw ok
    · cases ht
  | add =>
    obtain rfl := Option.some.inj ht
    have hstart : [Task.other].count .start = 0 := rfl
    have hstop : [Task.other].count .stop = 0 := rfl
    refine h.congr rfl rfl (List.mem_append_left _) ?_ ?_ rfl ⟨rfl, rfl, rfl, rfl, rfl⟩
    · simp only [Sdk.starts, List.count_append]
      omega
    · simp only [Sdk.stops, List.count_append]
      omega

end

/-! ### Every run -/

theorem Phased.initial (h : Initial s) : Phased s := by
  rcases h with rfl | rfl
  · refine ⟨?_, .inl ⟨rfl, rfl, rfl, by decide, rfl, .inl rfl, fun h => nomatch h⟩⟩
    intro hset
    cases hset
  · exact ⟨fun _ => List.mem_singleton_self _,
      .inl ⟨rfl, rfl, rfl, by decide, rfl, .inl rfl, fun h => nomatch h⟩⟩

/-- **The state of the SDK.** While the callers are in time, the state tells what the tasks have
done, at most one start task runs for a start, and neither a stop nor a deinit is refused or waits
in vain. -/
theorem honest_of_timely (h : Reach Initial step Timely s) : Honest s :=
  (h.inv Phased (fun _ h => Phased.initial h) fun _ _ _ hi hg ht => hi.step hg ht).honest

/-- A start and a stop, one after the other. The caller stores its state before the worker has run
the task. -/
def orderly : List Action :=
  [.start, .call .startFlag true, .call .startAdd true, .call .startQueue true,
    .call .startRunning true, .call .startStore true, .worker .check true, .worker .receive true,
    .worker (.run .start) true, .stop, .call .stopAdd true, .call .stopStore true,
    .worker .receive true, .worker (.run .stop) true, .worker .stopped true]

theorem orderly_honest :
    ∃ s, exec step {} orderly = some s ∧ s.stopDone = true ∧ Honest s :=
  ⟨_, rfl, rfl, honest_of_timely (Reach.exec orderly (.start (.inl rfl)) (by decide +kernel) rfl)⟩

/-- The worker runs the start task before the caller stores its state. -/
def lateStart : List Action :=
  [.start, .call .startFlag true, .call .startAdd true, .call .startQueue true,
    .call .startRunning true, .worker .check true, .worker .receive true,
    .worker (.run .start) true, .call .startStore true]

/-- The worker runs the stop task before the caller stores its state. -/
def lateStop : List Action :=
  [.start, .call .startFlag true, .call .startAdd true, .call .startQueue true,
    .call .startRunning true, .call .startStore true, .worker .check true, .worker .receive true,
    .worker (.run .start) true, .stop, .call .stopAdd true, .worker .receive true,
    .worker (.run .stop) true, .worker .stopped true, .call .stopStore true]

/-- A second start while the SDK starts. -/
def secondStart : List Action :=
  [.start, .call .startFlag true, .call .startAdd true, .call .startQueue true,
    .call .startRunning true, .call .startStore true, .start, .call .startFlag true,
    .call .startAdd true, .worker .check true, .worker .receive true, .worker (.run .start) true,
    .worker .receive true]

/-- A result is overwritten, so that a stop is refused or a deinit waits forever, and a second start
task runs. -/
theorem overwritten_or_repeated :
    (∃ s, Reach Initial step (fun _ _ => True) s ∧ s.startDone = true ∧ s.state = .starting ∧
        s.stopRefused = true ∧ s.nodeDeinit = .invalidState) ∧
      (∃ s, Reach Initial step (fun _ _ => True) s ∧ s.stopDone = true ∧
        s.state = .stopRequested ∧ s.nodeDeinit = .waits) ∧
      ∃ s, Reach Initial step (fun _ _ => True) s ∧ s.effects = 2 := by
  refine ⟨?_, ?_, ?_⟩
  · have hrun : Reach Initial step (fun _ _ => True) _ :=
      Reach.exec lateStart (.start (.inl rfl)) (by decide +kernel) rfl
    exact ⟨_, hrun, rfl, rfl, rfl, rfl⟩
  · have hrun : Reach Initial step (fun _ _ => True) _ :=
      Reach.exec lateStop (.start (.inl rfl)) (by decide +kernel) rfl
    exact ⟨_, hrun, rfl, rfl, rfl⟩
  · have hrun : Reach Initial step (fun _ _ => True) _ :=
      Reach.exec secondStart (.start (.inl rfl)) (by decide +kernel) rfl
    exact ⟨_, hrun, rfl⟩

end RainMakerNeo.Core.Lifecycle
