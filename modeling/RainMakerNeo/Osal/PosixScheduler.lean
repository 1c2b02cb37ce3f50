import RainMakerNeo.Lib.Progress

/-!
# `RainMakerNeo.Osal.PosixScheduler`: the worker thread of a scheduled task

Each task has a worker thread. It sleeps until the due time, or until a call wakes it. One step of
a `Task` is one section under its mutex, or one step of the worker outside of it. So a call can take
the mutex between the instant at which the timed wait ends and the instant at which the worker has
the mutex again. It can also come between the choice to fire and the start of the callback.

`expected` follows what the calls have asked for: the instant of the next start, if there is one.
`Contracted` states the contract with it. `contracted_iff` says which steps keep the contract: all
but a call that comes late, and a cancel from the own callback. After a late stop the callback
starts, and after a late reset it starts at once.

The callback returns, and `pthread_join` of the calling thread itself fails with `EDEADLK`. Instants
are in nanoseconds.
-/

set_option autoImplicit false

namespace RainMakerNeo.Osal.PosixScheduler

open RainMakerNeo.Lib

/-! ### The task -/

/-- `osal_err_t`, as far as the calls return it. -/
inductive OsalErr
  | ok | fail | noMem | invalidArg | invalidState
  deriving DecidableEq

/-- `platform_posix_timespec_from_now_ms`. `clock_gettime` gives `now`, or it fails. -/
def timespecFromNowMs (now : Option Nat) (waitMs : UInt64) : Option Nat :=
  now.map fun now =>
    let nsecTotal := now % 1000000000 + waitMs.toNat % 1000 * 1000000
    (now / 1000000000 + waitMs.toNat / 1000 + nsecTotal / 1000000000) * 1000000000
      + nsecTotal % 1000000000

/-- The seconds and the nanoseconds add up. -/
@[simp] theorem timespecFromNowMs_some (now : Nat) (waitMs : UInt64) :
    timespecFromNowMs (some now) waitMs = some (now + waitMs.toNat * 1000000) := by
  simp only [timespecFromNowMs, Option.map_some, Option.some.injEq]
  omega

@[simp] theorem timespecFromNowMs_none (waitMs : UInt64) : timespecFromNowMs none waitMs = none :=
  rfl

/-- What `pthread_cond_timedwait` returns. -/
inductive WaitResult
  | signalled | timedOut
  deriving DecidableEq

/-- Where the worker is in `platform_posix_scheduler_thread`. -/
inductive Worker
  /-- Without the mutex, before the loop takes it. -/
  | unlocked
  | condWait
  /-- Out of `pthread_cond_wait`, without the mutex yet. -/
  | condWoken
  | timedWait (due : Nat)
  /-- Out of `pthread_cond_timedwait`, without the mutex yet. -/
  | timedWoken (rc : WaitResult)
  /-- The choice to fire is made, the mutex is free, the callback has not started. -/
  | firing
  | inCallback
  /-- The callback has returned. -/
  | returned
  | exited
  deriving DecidableEq

/-- Who is in `osal_scheduler_cancel_task`. -/
inductive Cancel
  | none | byOther | byCallback | returned
  deriving DecidableEq

/-- `platform_posix_scheduled_task_t`, its handle, the worker and the clock. -/
structure Task where
  now : Nat
  /-- `is_initialized` of the scheduler. -/
  initialized : Bool := true
  /-- The handle is not NULL. -/
  handle : Bool := true
  running : Bool := true
  isActive : Bool := true
  hasDue : Bool := true
  isPeriodic : Bool
  periodMs : UInt64
  due : Nat
  worker : Worker := .unlocked
  cancel : Cancel := .none
  /-- How often the task was freed. -/
  freed : Nat := 0
  /-- The worker has used the task after that. -/
  usedAfterFree : Bool := false
  /-- The next start that the calls have asked for. The code does not record it. -/
  expected : Option Nat
  deriving DecidableEq

/-- What `schedule_task` gets from the allocator and from `pthread`. -/
structure ScheduleEnv where
  calloc : Bool := true
  mutexInit : Bool := true
  condInit : Bool := true
  clock : Bool := true
  create : Bool := true

/-- `osal_scheduler_schedule_task_internal`. The signal to the new worker is one of the spurious
wake-ups. -/
def scheduleTaskInternal (env : ScheduleEnv) (initialized : Bool) (now : Nat) (delayMs : UInt64)
    (isPeriodic : Bool) : OsalErr × Option Task :=
  if !initialized then (.invalidState, none)
  else if !env.calloc then (.noMem, none)
  else if !env.mutexInit || !env.condInit then (.fail, none)
  else match timespecFromNowMs (if env.clock then some now else none) delayMs with
    | none => (.fail, none)
    | some due =>
      if !env.create then (.fail, none)
      else
        let periodMs := if isPeriodic then delayMs else 0
        (.ok, some { now, isPeriodic, periodMs, due, expected := some due })

namespace Task

/-- `clock_gettime`. -/
def clock (t : Task) (answers : Bool) : Option Nat := if answers then some t.now else none

/-! ### The worker -/

/-- The worker uses the task. -/
def touch (t : Task) : Task :=
  { t with usedAfterFree := t.usedAfterFree || decide (0 < t.freed) }

/-- With the mutex, from the loop `while (running && (!is_active || !has_due))` on. -/
def loopTop (t : Task) : Task :=
  if !t.running then { t with worker := .exited }
  else if !t.isActive || !t.hasDue then { t with worker := .condWait }
  else { t with worker := .timedWait t.due }

/-- The branch `rc == ETIMEDOUT`. -/
def fire (t : Task) (clockAnswers : Bool) : Task :=
  if t.isPeriodic then
    match timespecFromNowMs (t.clock clockAnswers) t.periodMs with
    | some due => { t with due, worker := .firing }
    | none => { t with hasDue := false, worker := .firing }
  else { t with hasDue := false, worker := .firing }

/-- With the mutex, after the timed wait. -/
def waitReturned (t : Task) (rc : WaitResult) (clockAnswers : Bool) : Task :=
  if !t.running then { t with worker := .unlocked }
  else match rc with
    | .timedOut => t.fire clockAnswers
    | .signalled =>
      if t.isActive && t.hasDue then { t with worker := .timedWait t.due }
      else { t with worker := .unlocked }

/-- The callback starts. A periodic task is expected again when it is due next. -/
def startCallback (t : Task) : Task :=
  { t with
      worker := .inCallback
      expected := if t.isPeriodic && t.hasDue then some t.due else none }

/-- The next step of the worker, unless it waits for the condition. -/
def work (t : Task) (clockAnswers : Bool) : Option Task :=
  match t.worker with
  | .unlocked | .condWoken => some t.touch.loopTop
  | .timedWoken rc => some (t.touch.waitReturned rc clockAnswers)
  | .firing => some t.startCallback
  | .inCallback =>
    -- a callback that cancels the task is in the join
    if t.cancel = .byCallback then none else some { t with worker := .returned }
  | .returned => some { t.touch with worker := .unlocked }
  | .condWait | .timedWait _ | .exited => none

/-- The due time of the wait has passed. -/
def timeout (t : Task) : Option Task :=
  match t.worker with
  | .timedWait due => if due ≤ t.now then some { t with worker := .timedWoken .timedOut } else none
  | _ => none

end Task

/-- A signal or a broadcast on the condition. -/
def Worker.signal : Worker → Worker
  | .condWait => .condWoken
  | .timedWait _ => .timedWoken .signalled
  | w => w

/-- Only a worker that waits for the condition hears it. -/
theorem Worker.signal_cases (w : Worker) :
    w.signal = w ∨ w = .condWait ∨ ∃ due, w = .timedWait due := by
  cases w with
  | condWait => exact .inr (.inl rfl)
  | timedWait due => exact .inr (.inr ⟨due, rfl⟩)
  | unlocked | condWoken | timedWoken | firing | inCallback | returned | exited => exact .inl rfl

namespace Task

/-! ### The calls -/

/-- `osal_scheduler_reset_timer`. -/
def resetTimer (t : Task) (delayMs : UInt64) (clockAnswers : Bool) : OsalErr × Task :=
  if !t.initialized then (.invalidState, t)
  else if !t.handle then (.invalidArg, t)
  else match timespecFromNowMs (t.clock clockAnswers) delayMs with
    | none => (.fail, t)
    | some due =>
      (.ok, { t with
        due, isActive := true, hasDue := true, worker := t.worker.signal, expected := some due })

/-- `osal_scheduler_stop_timer`. -/
def stopTimer (t : Task) : OsalErr × Task :=
  if !t.initialized then (.invalidState, t)
  else if !t.handle then (.invalidArg, t)
  else (.ok, { t with isActive := false, worker := t.worker.signal, expected := none })

/-- `osal_scheduler_cancel_task` up to `pthread_join`. -/
def cancelTask (t : Task) (byCallback : Bool) : OsalErr × Task :=
  if !t.initialized then (.invalidState, { t with handle := false })
  else if !t.handle then (.invalidArg, t)
  else (.ok, { t with
    running := false, hasDue := false, worker := t.worker.signal
    cancel := if byCallback then .byCallback else .byOther })

/-- The rest of `osal_scheduler_cancel_task`, from where `pthread_join` returns. -/
def release (t : Task) : Task :=
  { t with freed := t.freed + 1, handle := false, cancel := .returned }

/-- `pthread_join` returns: the worker has exited, or the caller is the worker itself. -/
def join (t : Task) : Option Task :=
  match t.cancel with
  | .byOther => if t.worker = .exited then some t.release else none
  | .byCallback => some t.release
  | .none | .returned => none

end Task

/-- A step of the worker, of a caller or of the clock. -/
inductive Action
  | work (clockAnswers : Bool)
  | timeout
  /-- A wait returns without a signal and before the due time. -/
  | spurious
  | join
  | tick (ns : Nat)
  | init
  | deinit
  | reset (delayMs : UInt64) (clockAnswers : Bool)
  | stop
  | cancel (byCallback : Bool)

/-- A step of the worker, or the end of a cancel that waits for it. The worker cannot count on a
spurious wake-up, so that is none of its own steps. -/
def Action.own : Action → Bool
  | .work _ | .timeout | .join => true
  | .spurious | .tick _ | .init | .deinit | .reset .. | .stop | .cancel _ => false

/-- A step without a call, at the same instant. -/
def Action.quiet : Action → Bool
  | .work _ | .timeout | .spurious | .join => true
  | .tick _ | .init | .deinit | .reset .. | .stop | .cancel _ => false

theorem Action.quiet_of_own {a : Action} (h : a.own = true) : a.quiet = true := by
  cases a with
  | work | timeout | join => rfl
  | spurious | tick | init | deinit | reset | stop | cancel => exact absurd h (by simp [own])

/-- One step. A reset or a stop comes from any thread, also from the callback. A task is not
cancelled while a cancel of it is under way. -/
def step (t : Task) : Action → Option Task
  | .work clockAnswers => t.work clockAnswers
  | .timeout => t.timeout
  | .spurious => some { t with worker := t.worker.signal }
  | .join => t.join
  | .tick ns => some { t with now := t.now + ns }
  | .init => some { t with initialized := true }
  | .deinit => some { t with initialized := false }
  | .reset delayMs clockAnswers => some (t.resetTimer delayMs clockAnswers).2
  | .stop => some t.stopTimer.2
  | .cancel byCallback =>
    if t.cancel ≠ .byOther ∧ t.cancel ≠ .byCallback ∧
        (byCallback = true → t.worker = .inCallback) then
      some (t.cancelTask byCallback).2
    else none

/-- A task that was just scheduled. -/
def Scheduled (t : Task) : Prop :=
  ∃ env initialized now delayMs isPeriodic,
    scheduleTaskInternal env initialized now delayMs isPeriodic = (.ok, some t)

/-! ### The contract -/

/-- No call comes, and the one state can lead to the other. A wait can wake up spuriously. -/
abbrev LeadsTo : Task → Task → Prop := Leads step fun a => a.quiet = true

/-- The worker and a waiting cancel bring about the other state by themselves. A wait ends only with
a signal or at its due time. -/
abbrev BringsAbout : Task → Task → Prop := Leads step fun a => a.own = true

/-- What `osal_scheduler.h` promises. Each part looks ahead, over the steps that no caller can
take back. -/
structure Contracted (t : Task) : Prop where
  /-- The callback starts only when it is expected, and not before. -/
  starts : ∀ u, LeadsTo t u → u.worker = .firing → ∃ due, u.expected = some due ∧ due ≤ u.now
  /-- A start that is expected by now is not lost. -/
  fires : ∀ due, t.running = true → t.expected = some due → due ≤ t.now →
    ∃ u, BringsAbout t u ∧ u.worker = .firing
  /-- A cancel comes to its end. -/
  ends : t.cancel = .byOther ∨ t.cancel = .byCallback →
    ∃ u, BringsAbout t u ∧ u.cancel = .returned
  /-- The task is freed once, by the cancel, and it is not used afterwards. -/
  safe : ∀ u, LeadsTo t u →
    u.usedAfterFree = false ∧ u.freed = if u.cancel = .returned then 1 else 0

/-- A call through the handle goes ahead. -/
def Task.callable (t : Task) : Bool := t.initialized && t.handle

/-- The worker fires without a further look at the task. -/
def Task.committed (t : Task) : Prop :=
  t.worker = .firing ∨ t.worker = .timedWoken .timedOut ∧ t.running = true

instance (t : Task) : Decidable t.committed := inferInstanceAs (Decidable (_ ∨ _ ∧ _))

/-- A call comes in time: a stop before the worker is committed to fire, and a reset as well,
unless its due time is now and the committed start can stand for it. The callback does not cancel
its own task. -/
def InTime (t : Task) : Action → Prop
  | .stop => t.callable = true → ¬ t.committed
  | .reset delayMs clockAnswers => t.callable = true → clockAnswers = true → t.committed →
      delayMs = 0 ∧ (t.worker = .firing → t.running = true → t.isPeriodic = true)
  | .cancel byCallback => byCallback = true → t.callable = false
  | .work _ | .timeout | .spurious | .join | .tick _ | .init | .deinit => True

instance (t : Task) (a : Action) : Decidable (InTime t a) := by
  cases a <;> unfold InTime <;> infer_instance

/-- The steps without a call are in time. -/
theorem InTime.of_quiet {t : Task} {a : Action} (h : a.quiet = true) : InTime t a := by
  cases a with
  | work | timeout | spurious | join => trivial
  | tick | init | deinit | reset | stop | cancel => exact absurd h (by simp [Action.quiet])

/-! ### The invariant -/

/-- The due time of an active task. -/
def Task.nextDue (t : Task) : Option Nat := if t.isActive && t.hasDue then some t.due else none

/-- What holds of the task while the worker is there. -/
def Task.WorkerAt (t : Task) : Worker → Prop
  | .condWait => t.running = true ∧ t.nextDue = none
  | .timedWait due => t.running = true ∧ t.nextDue = some due
  | .timedWoken .timedOut => t.running = true → ∃ due, t.nextDue = some due ∧ due ≤ t.now
  | .firing => (∃ due, t.expected = some due ∧ due ≤ t.now) ∧
      (t.running = true → t.isActive = true ∧ (t.isPeriodic = false → t.hasDue = false))
  | .exited => t.running = false
  | .unlocked | .condWoken | .timedWoken .signalled | .inCallback | .returned => True

/-- The invariant of the runs whose calls are in time. -/
structure Inv (t : Task) : Prop where
  place : t.WorkerAt t.worker
  armed : t.running = true → t.worker ≠ .firing → t.expected = t.nextDue
  running : t.running = true ↔ t.cancel = .none
  cancel : t.cancel ≠ .byCallback
  gone : t.cancel = .returned → t.worker = .exited ∧ t.handle = false
  freed : t.freed = if t.cancel = .returned then 1 else 0
  unused : t.usedAfterFree = false

theorem Inv.of_scheduled {t : Task} (h : Scheduled t) : Inv t := by
  obtain ⟨env, initialized, now, delayMs, isPeriodic, h⟩ := h
  rw [scheduleTaskInternal] at h
  split at h
  · exact absurd h (by nofun)
  split at h
  · exact absurd h (by nofun)
  split at h
  · exact absurd h (by nofun)
  split at h
  · exact absurd h (by nofun)
  split at h
  · exact absurd h (by nofun)
  obtain rfl := Option.some.inj (congrArg Prod.snd h)
  exact ⟨trivial, fun _ _ => rfl, by simp, by nofun, by nofun, rfl, rfl⟩

section
variable {t : Task}

/-- Before its end the worker finds the task there. -/
theorem Inv.touch_eq (hi : Inv t) (h : t.worker ≠ .exited) : t.touch = t := by
  have hfreed : t.freed = 0 := by
    rw [hi.freed, if_neg fun hc => h (hi.gone hc).1]
  have hflag : (t.usedAfterFree || decide (0 < t.freed)) = t.usedAfterFree := by
    simp [hfreed]
  rw [Task.touch, hflag]

theorem Task.nextDue_of_armed (h : (!t.isActive || !t.hasDue) = false) :
    t.nextDue = some t.due := by
  rw [Task.nextDue, if_pos (by simpa using h)]

theorem Task.nextDue_of_idle (h : (!t.isActive || !t.hasDue) = true) : t.nextDue = none := by
  rw [Task.nextDue, if_neg]
  simpa [Bool.not_eq_true, Classical.or_iff_not_imp_left] using h

/-- Another place for the worker. -/
theorem Inv.move (hi : Inv t) (hfrom : t.worker ≠ .firing) (hexit : t.worker ≠ .exited)
    {w : Worker} (hw : t.WorkerAt w) : Inv { t with worker := w } where
  place := by cases w with
    | timedWoken rc => cases rc <;> exact hw
    | _ => exact hw
  armed hrunning _ := hi.armed hrunning hfrom
  running := hi.running
  cancel := hi.cancel
  gone hgone := absurd (hi.gone hgone).1 hexit
  freed := hi.freed
  unused := hi.unused

theorem Inv.loopTop (hi : Inv t) (hfrom : t.worker ≠ .firing) (hexit : t.worker ≠ .exited) :
    Inv t.loopTop := by
  rw [Task.loopTop]
  by_cases hrunning : (!t.running) = true
  · rw [if_pos hrunning]
    exact hi.move hfrom hexit (show t.running = false by simpa using hrunning)
  · rw [if_neg hrunning]
    have hrunning : t.running = true := by simpa using hrunning
    by_cases hidle : (!t.isActive || !t.hasDue) = true
    · rw [if_pos hidle]
      exact hi.move hfrom hexit ⟨hrunning, Task.nextDue_of_idle hidle⟩
    · rw [if_neg hidle]
      exact hi.move hfrom hexit
        ⟨hrunning, Task.nextDue_of_armed (Bool.not_eq_true _ ▸ hidle)⟩

theorem Task.flags_of_nextDue {due : Nat} (h : t.nextDue = some due) :
    t.isActive = true ∧ t.hasDue = true := by
  rw [Task.nextDue] at h
  split at h
  · rename_i hflags
    simpa using hflags
  · exact absurd h (by nofun)

/-- The choice to fire is for the start that was expected. -/
theorem Inv.fire (hi : Inv t) (hw : t.worker = .timedWoken .timedOut) (hrunning : t.running = true)
    (clockAnswers : Bool) : Inv (t.fire clockAnswers) := by
  have hplace := hi.place
  rw [hw] at hplace
  -- the wait ended for the due time, and no call in time has changed it since
  obtain ⟨due, hnext, hle⟩ := hplace hrunning
  have hexpected : t.expected = some due := (hi.armed hrunning (by simp [hw])).trans hnext
  have hactive := (Task.flags_of_nextDue hnext).1
  have hfiring : ∀ due' hasDue', (t.isPeriodic = false → hasDue' = false) →
      Inv { t with due := due', hasDue := hasDue', worker := .firing } := by
    intro due' hasDue' honce
    exact {
      place := ⟨⟨due, hexpected, hle⟩, fun _ => ⟨hactive, honce⟩⟩
      armed := fun _ h => absurd rfl h
      running := hi.running
      cancel := hi.cancel
      gone := fun hgone => absurd (hi.gone hgone).1 (by simp [hw])
      freed := hi.freed
      unused := hi.unused }
  rw [Task.fire]
  by_cases hperiodic : t.isPeriodic = true
  · rw [if_pos hperiodic]
    have hmany : ∀ b, t.isPeriodic = false → b = false := fun _ h => by simp [hperiodic] at h
    cases timespecFromNowMs (t.clock clockAnswers) t.periodMs with
    | some due' => exact hfiring due' t.hasDue (hmany _)
    | none => exact hfiring t.due false (hmany _)
  · rw [if_neg hperiodic]
    exact hfiring t.due false fun _ => rfl

theorem Inv.waitReturned (hi : Inv t) {rc : WaitResult} (hw : t.worker = .timedWoken rc)
    (clockAnswers : Bool) : Inv (t.waitReturned rc clockAnswers) := by
  have hfrom : t.worker ≠ .firing := by simp [hw]
  have hexit : t.worker ≠ .exited := by simp [hw]
  rw [Task.waitReturned.eq_def]
  by_cases hrunning : (!t.running) = true
  · rw [if_pos hrunning]
    exact hi.move hfrom hexit trivial
  · rw [if_neg hrunning]
    have hrunning : t.running = true := by simpa using hrunning
    cases rc with
    | timedOut => exact hi.fire hw hrunning clockAnswers
    | signalled =>
      dsimp only
      by_cases hflags : (t.isActive && t.hasDue) = true
      · rw [if_pos hflags]
        exact hi.move hfrom hexit ⟨hrunning, by rw [Task.nextDue, if_pos hflags]⟩
      · rw [if_neg hflags]
        exact hi.move hfrom hexit trivial

/-- The start takes the expectation with it. -/
theorem Inv.startCallback (hi : Inv t) (hw : t.worker = .firing) : Inv t.startCallback where
  place := trivial
  armed hrunning _ := by
    have hplace := hi.place
    rw [hw] at hplace
    obtain ⟨hactive, honce⟩ := hplace.2 hrunning
    -- A periodic task is expected again at the due time that the worker has just set; a one-shot
    -- has nothing left to expect.
    show (if t.isPeriodic && t.hasDue then some t.due else none)
      = if t.isActive && t.hasDue then some t.due else none
    cases hperiodic : t.isPeriodic with
    | true => rw [hactive]
    | false => rw [honce hperiodic, Bool.and_false, Bool.and_false]
  running := hi.running
  cancel := hi.cancel
  gone hgone := absurd (hi.gone hgone).1 (by simp [hw])
  freed := hi.freed
  unused := hi.unused

variable {u : Task}

/-- Each step of the worker keeps the invariant. -/
theorem Inv.work (hi : Inv t) {clockAnswers : Bool} (h : t.work clockAnswers = some u) : Inv u := by
  rw [Task.work] at h
  cases hw : t.worker with
  | unlocked | condWoken =>
    rw [hw] at h
    have hexit : t.worker ≠ .exited := by simp [hw]
    obtain rfl := Option.some.inj h
    rw [hi.touch_eq hexit]
    exact hi.loopTop (by simp [hw]) hexit
  | timedWoken rc =>
    rw [hw] at h
    obtain rfl := Option.some.inj h
    rw [hi.touch_eq (by simp [hw])]
    exact hi.waitReturned hw clockAnswers
  | firing =>
    rw [hw] at h
    obtain rfl := Option.some.inj h
    exact hi.startCallback hw
  | inCallback =>
    rw [hw] at h
    dsimp only at h
    rw [if_neg hi.cancel] at h
    obtain rfl := Option.some.inj h
    exact hi.move (by simp [hw]) (by simp [hw]) trivial
  | returned =>
    rw [hw] at h
    have hexit : t.worker ≠ .exited := by simp [hw]
    obtain rfl := Option.some.inj h
    rw [hi.touch_eq hexit]
    exact hi.move (by simp [hw]) hexit trivial
  | condWait | timedWait | exited =>
    rw [hw] at h
    exact absurd h (by nofun)

theorem Inv.timeout (hi : Inv t) (h : t.timeout = some u) : Inv u := by
  rw [Task.timeout] at h
  cases hw : t.worker with
  | timedWait due =>
    have hplace := hi.place
    rw [hw] at h hplace
    dsimp only at h
    split at h
    · rename_i hle
      obtain rfl := Option.some.inj h
      exact hi.move (by simp [hw]) (by simp [hw]) fun _ => ⟨due, hplace.2, hle⟩
    · exact absurd h (by nofun)
  | unlocked | condWait | condWoken | timedWoken | firing | inCallback | returned | exited =>
    rw [hw] at h
    exact absurd h (by nofun)

/-- A wake-up finds the worker somewhere else, or it is nothing to the worker. -/
theorem Inv.spurious (hi : Inv t) : Inv { t with worker := t.worker.signal } := by
  -- Only a worker in one of the two waits notices.
  obtain hsame | hw | ⟨due, hw⟩ := t.worker.signal_cases
  · rw [hsame]
    exact hi
  · rw [hw]
    exact hi.move (by simp [hw]) (by simp [hw]) trivial
  · rw [hw]
    exact hi.move (by simp [hw]) (by simp [hw]) trivial

theorem Inv.join (hi : Inv t) (h : t.join = some u) : Inv u := by
  rw [Task.join] at h
  cases hcancel : t.cancel with
  | byOther =>
    rw [hcancel] at h
    dsimp only at h
    by_cases hw : t.worker = .exited
    · rw [if_pos hw] at h
      obtain rfl := Option.some.inj h
      -- The worker leaves its loop only when it is told to.
      have hstopped : t.running = false := by
        have hplace := hi.place
        rw [hw] at hplace
        exact hplace
      exact {
        place := hi.place
        armed := fun hrunning => absurd (hstopped.symm.trans hrunning) (by nofun)
        running := by simp [Task.release, hstopped]
        cancel := by nofun
        gone := fun _ => ⟨hw, rfl⟩
        freed := by simp [Task.release, hi.freed, hcancel]
        unused := hi.unused }
    · rw [if_neg hw] at h
      exact absurd h (by nofun)
  | byCallback => exact absurd hcancel hi.cancel
  | none | returned =>
    rw [hcancel] at h
    exact absurd h (by nofun)

theorem Inv.tick (hi : Inv t) (ns : Nat) : Inv { t with now := t.now + ns } where
  place := by
    have hplace := hi.place
    show ({ t with now := t.now + ns } : Task).WorkerAt t.worker
    cases hw : t.worker with
    | timedWoken rc =>
      rw [hw] at hplace
      cases rc with
      | signalled => trivial
      | timedOut =>
        intro hrunning
        -- A due time that has come stays come.
        obtain ⟨due, hnext, hle⟩ := hplace hrunning
        exact ⟨due, hnext, Nat.le_add_right_of_le hle⟩
    | firing =>
      rw [hw] at hplace
      obtain ⟨⟨due, hexpected, hle⟩, hrest⟩ := hplace
      exact ⟨⟨due, hexpected, Nat.le_add_right_of_le hle⟩, hrest⟩
    | unlocked | condWait | condWoken | timedWait | inCallback | returned | exited =>
      rw [hw] at hplace
      exact hplace
  armed := hi.armed
  running := hi.running
  cancel := hi.cancel
  gone := hi.gone
  freed := hi.freed
  unused := hi.unused

/-! ### The calls keep the invariant -/

/-- The task after a reset that was accepted. -/
def Task.resetTo (t : Task) (due : Nat) : Task :=
  { t with due, isActive := true, hasDue := true, worker := t.worker.signal, expected := some due }

/-- The task after a stop that was accepted. -/
def Task.stopped (t : Task) : Task :=
  { t with isActive := false, worker := t.worker.signal, expected := none }

/-- The task after the first section of a cancel that was accepted. -/
def Task.cancelling (t : Task) (byCallback : Bool) : Task :=
  { t with
    running := false, hasDue := false, worker := t.worker.signal
    cancel := if byCallback then .byCallback else .byOther }

theorem Task.resetTimer_eq (t : Task) (delayMs : UInt64) (clockAnswers : Bool) :
    (t.resetTimer delayMs clockAnswers).2 =
      if t.callable && clockAnswers then t.resetTo (t.now + delayMs.toNat * 1000000) else t := by
  rw [Task.resetTimer, Task.callable]
  cases hinit : t.initialized with
  | false => simp
  | true =>
    cases hhandle : t.handle with
    | false => simp
    | true => cases clockAnswers <;> simp [Task.clock, Task.resetTo, hinit, hhandle]

theorem Task.stopTimer_eq (t : Task) :
    t.stopTimer.2 = if t.callable then t.stopped else t := by
  rw [Task.stopTimer, Task.callable]
  cases hinit : t.initialized with
  | false => simp
  | true => cases hhandle : t.handle <;> simp [Task.stopped, hinit, hhandle]

theorem Task.cancelTask_eq (t : Task) (byCallback : Bool) :
    (t.cancelTask byCallback).2 =
      if t.callable then t.cancelling byCallback else { t with handle := false } := by
  rw [Task.cancelTask, Task.callable]
  by_cases hinit : t.initialized = true
  · by_cases hhandle : t.handle = true
    · simp [Task.cancelling, hinit, hhandle]
    · have hnull : t.handle = false := by simpa using hhandle
      have hsame : t = { t with handle := false } := by rw [← hnull]
      simpa [hinit, hhandle] using hsame
  · simp [hinit]

section
variable (hi : Inv t)
include hi

/-- A signal finds no worker after a cancel has returned. -/
theorem Inv.signal_gone (hgone : t.cancel = .returned) : t.worker.signal = .exited := by
  rw [(hi.gone hgone).1]
  rfl

/-- The due time of a reset and the committed start that stands for it. -/
theorem Inv.resetTo {delayMs : UInt64}
    (hlate : t.committed →
      delayMs = 0 ∧ (t.worker = .firing → t.running = true → t.isPeriodic = true)) :
    Inv (t.resetTo (t.now + delayMs.toNat * 1000000)) where
  place := by
    have hplace := hi.place
    show (t.resetTo (t.now + delayMs.toNat * 1000000)).WorkerAt t.worker.signal
    -- A committed worker will not wait again, so the new due time must be now.
    have hnow : t.committed → t.now + delayMs.toNat * 1000000 ≤ t.now := by
      intro h
      rw [(hlate h).1]
      simp
    cases hw : t.worker with
    | timedWoken rc =>
      cases rc with
      | signalled => trivial
      | timedOut => exact fun hrunning => ⟨_, rfl, hnow (.inr ⟨hw, hrunning⟩)⟩
    | firing =>
      refine ⟨⟨_, rfl, hnow (.inl hw)⟩, fun hrunning => ⟨rfl, fun honce => ?_⟩⟩
      have hperiodic := (hlate (.inl hw)).2 hw hrunning
      exact absurd (hperiodic.symm.trans honce) (by nofun)
    | exited =>
      rw [hw] at hplace
      exact hplace
    | unlocked | condWait | condWoken | timedWait | inCallback | returned => trivial
  armed _ _ := rfl
  running := hi.running
  cancel := hi.cancel
  gone hgone := ⟨hi.signal_gone hgone, (hi.gone hgone).2⟩
  freed := hi.freed
  unused := hi.unused

theorem Inv.stopped (hlate : ¬ t.committed) : Inv t.stopped where
  place := by
    have hplace := hi.place
    show t.stopped.WorkerAt t.worker.signal
    cases hw : t.worker with
    | timedWoken rc =>
      cases rc with
      | signalled => trivial
      | timedOut => exact fun hrunning => absurd (.inr ⟨hw, hrunning⟩) hlate
    | firing => exact absurd (.inl hw) hlate
    | exited =>
      rw [hw] at hplace
      exact hplace
    | unlocked | condWait | condWoken | timedWait | inCallback | returned => trivial
  armed _ _ := rfl
  running := hi.running
  cancel := hi.cancel
  gone hgone := ⟨hi.signal_gone hgone, (hi.gone hgone).2⟩
  freed := hi.freed
  unused := hi.unused

/-- A cancel that waits for the worker. A committed start still comes. -/
theorem Inv.cancelling (hcallable : t.callable = true) : Inv (t.cancelling false) where
  place := by
    have hplace := hi.place
    show (t.cancelling false).WorkerAt t.worker.signal
    cases hw : t.worker with
    | timedWoken rc =>
      cases rc with
      | signalled => trivial
      | timedOut => nofun
    | firing =>
      rw [hw] at hplace
      exact ⟨hplace.1, by nofun⟩
    | exited => rfl
    | unlocked | condWait | condWoken | timedWait | inCallback | returned => trivial
  armed := by nofun
  running := ⟨by nofun, by nofun⟩
  cancel := by nofun
  gone := by nofun
  freed := by
    have hhandle : t.handle = true := by
      rw [Task.callable, Bool.and_eq_true] at hcallable
      exact hcallable.2
    have hnot : t.cancel ≠ .returned := by
      intro hgone
      exact absurd (hhandle.symm.trans (hi.gone hgone).2) (by nofun)
    show t.freed = 0
    rw [hi.freed, if_neg hnot]
  unused := hi.unused

/-- The scheduler is initialised or not, and the handle is lost. -/
theorem Inv.reinit (b : Bool) : Inv { t with initialized := b } where
  place := hi.place
  armed := hi.armed
  running := hi.running
  cancel := hi.cancel
  gone := hi.gone
  freed := hi.freed
  unused := hi.unused

theorem Inv.dropHandle : Inv { t with handle := false } where
  place := hi.place
  armed := hi.armed
  running := hi.running
  cancel := hi.cancel
  gone hgone := ⟨(hi.gone hgone).1, rfl⟩
  freed := hi.freed
  unused := hi.unused

/-- A step in time keeps the invariant. -/
theorem Inv.step {a : Action} (hg : InTime t a) (h : step t a = some u) : Inv u := by
  cases a with
  | work clockAnswers => exact hi.work h
  | timeout => exact hi.timeout h
  | spurious => exact Option.some.inj h ▸ hi.spurious
  | join => exact hi.join h
  | tick ns => exact Option.some.inj h ▸ hi.tick ns
  | init => exact Option.some.inj h ▸ hi.reinit true
  | deinit => exact Option.some.inj h ▸ hi.reinit false
  | reset delayMs clockAnswers =>
    obtain rfl := Option.some.inj h
    rw [Task.resetTimer_eq]
    by_cases haccepted : (t.callable && clockAnswers) = true
    · rw [if_pos haccepted]
      rw [Bool.and_eq_true] at haccepted
      exact hi.resetTo (hg haccepted.1 haccepted.2)
    · rw [if_neg haccepted]
      exact hi
  | stop =>
    obtain rfl := Option.some.inj h
    rw [Task.stopTimer_eq]
    by_cases haccepted : t.callable = true
    · rw [if_pos haccepted]
      exact hi.stopped (hg haccepted)
    · rw [if_neg haccepted]
      exact hi
  | cancel byCallback =>
    rw [PosixScheduler.step] at h
    split at h
    · obtain rfl := Option.some.inj h
      rw [Task.cancelTask_eq]
      by_cases haccepted : t.callable = true
      · rw [if_pos haccepted]
        cases byCallback with
        | false => exact hi.cancelling haccepted
        | true => exact absurd ((hg rfl).symm.trans haccepted) (by nofun)
      · rw [if_neg haccepted]
        exact hi.dropHandle
    · exact absurd h (by nofun)

theorem Inv.leadsTo (h : LeadsTo t u) : Inv u :=
  Leads.inv Inv (fun _ _ _ hi ha hstep => hi.step (.of_quiet ha) hstep) h hi

end

/-! ### Progress -/

/-- How far the worker is from firing, when a start is expected. -/
def Worker.toFire : Worker → Nat
  | .inCallback => 5
  | .returned => 4
  | .unlocked | .condWoken | .timedWoken .signalled => 3
  | .timedWait _ => 2
  | .timedWoken .timedOut => 1
  | .firing | .condWait | .exited => 0

theorem Task.loopTop_of_nextDue {due : Nat} (hrunning : t.running = true)
    (hnext : t.nextDue = some due) : t.loopTop = { t with worker := .timedWait t.due } := by
  obtain ⟨hactive, hdue⟩ := Task.flags_of_nextDue hnext
  simp [Task.loopTop, hrunning, hactive, hdue]

theorem Task.fire_frame (t : Task) (clockAnswers : Bool) :
    (t.fire clockAnswers).worker = .firing ∧ (t.fire clockAnswers).now = t.now ∧
      (t.fire clockAnswers).running = t.running ∧
      (t.fire clockAnswers).expected = t.expected := by
  rw [Task.fire]
  split
  · split <;> exact ⟨rfl, rfl, rfl, rfl⟩
  · exact ⟨rfl, rfl, rfl, rfl⟩

/-- With a start that is expected by now, the worker comes one step closer to it. -/
theorem Inv.toward_firing (hi : Inv t) {due : Nat} (hrunning : t.running = true)
    (hexpected : t.expected = some due) (hle : due ≤ t.now) (hw : t.worker ≠ .firing) :
    ∃ a u, a.own = true ∧ PosixScheduler.step t a = some u ∧ u.now = t.now ∧
      u.running = t.running ∧ u.expected = t.expected ∧
      u.worker.toFire < t.worker.toFire := by
  have hnext : t.nextDue = some due := (hi.armed hrunning hw).symm.trans hexpected
  have hplace := hi.place
  -- every step but the timeout and the choice to fire only moves the worker
  have hto : ∀ {w : Worker}, t.work true = some { t with worker := w } →
      w.toFire < t.worker.toFire →
      ∃ a u, a.own = true ∧ PosixScheduler.step t a = some u ∧ u.now = t.now ∧
        u.running = t.running ∧ u.expected = t.expected ∧
        u.worker.toFire < t.worker.toFire := by
    intro w hwork hlt
    exact ⟨.work true, _, rfl, hwork, rfl, rfl, rfl, hlt⟩
  cases hworker : t.worker with
  | unlocked | condWoken =>
    rw [hworker] at hto
    refine hto (w := .timedWait t.due) ?_ (by simp [Worker.toFire])
    simp only [Task.work, hworker]
    rw [hi.touch_eq (by simp [hworker]), Task.loopTop_of_nextDue hrunning hnext]
  | timedWoken rc =>
    have htouch := hi.touch_eq (by simp [hworker])
    cases rc with
    | signalled =>
      rw [hworker] at hto
      refine hto (w := .timedWait t.due) ?_ (by simp [Worker.toFire])
      obtain ⟨hactive, hdue⟩ := Task.flags_of_nextDue hnext
      simp [Task.work, hworker, htouch, Task.waitReturned, hrunning, hactive, hdue]
    | timedOut =>
      obtain ⟨hfiring, hnow, hrun, hexp⟩ := t.fire_frame true
      refine ⟨.work true, t.fire true, rfl, ?_, hnow, hrun, hexp, ?_⟩
      · simp [PosixScheduler.step, Task.work, hworker, htouch, Task.waitReturned, hrunning]
      · rw [hfiring]
        decide
  | timedWait wait =>
    rw [hworker] at hplace
    -- The worker waits for the due time of the task itself, so the wait can end.
    have hwait : wait ≤ t.now := by
      obtain rfl := Option.some.inj (hplace.2.symm.trans hnext)
      exact hle
    refine ⟨.timeout, { t with worker := .timedWoken .timedOut }, rfl, ?_, rfl, rfl, rfl, ?_⟩
    · simp [PosixScheduler.step, Task.timeout, hworker, hwait]
    · show 1 < 2
      omega
  | inCallback =>
    rw [hworker] at hto
    refine hto (w := .returned) ?_ (by simp [Worker.toFire])
    simp [Task.work, hworker, hi.cancel]
  | returned =>
    rw [hworker] at hto
    refine hto (w := .unlocked) ?_ (by simp [Worker.toFire])
    simp [Task.work, hworker, hi.touch_eq (by simp [hworker])]
  | firing => exact absurd hworker hw
  | condWait =>
    -- an idle worker has nothing that is due
    rw [hworker] at hplace
    exact absurd (hplace.2.symm.trans hnext) (by nofun)
  | exited =>
    rw [hworker] at hplace
    exact absurd (hrunning.symm.trans hplace) (by nofun)

/-- How far the worker is from its end, once it is told to stop. -/
def Worker.toExit : Worker → Nat
  | .firing => 5
  | .inCallback => 4
  | .returned | .timedWoken _ => 3
  | .unlocked | .condWoken => 2
  | .exited => 1
  | .condWait | .timedWait _ => 0

/-- How far a cancel is from its end. -/
def Task.toEnd (t : Task) : Nat := if t.cancel = .returned then 0 else t.worker.toExit

/-- A cancel comes one step closer to its end. -/
theorem Inv.toward_end (hi : Inv t) (hcancel : t.cancel = .byOther) :
    ∃ a u, a.own = true ∧ PosixScheduler.step t a = some u ∧
      (u.cancel = .byOther ∨ u.cancel = .returned) ∧ u.toEnd < t.toEnd := by
  -- A cancel under way means that the worker was told to stop.
  have hstopped : t.running = false := by
    have hopen := mt hi.running.mp (by simp [hcancel])
    simpa using hopen
  have hplace := hi.place
  have hend : t.toEnd = t.worker.toExit := by rw [Task.toEnd, if_neg (by simp [hcancel])]
  have hto : ∀ {u : Task}, t.work true = some u → u.cancel = .byOther →
      u.worker.toExit < t.worker.toExit →
      ∃ a u, a.own = true ∧ PosixScheduler.step t a = some u ∧
        (u.cancel = .byOther ∨ u.cancel = .returned) ∧ u.toEnd < t.toEnd := by
    intro u hwork hby hlt
    refine ⟨.work true, u, rfl, hwork, .inl hby, ?_⟩
    rw [hend, Task.toEnd, if_neg (by simp [hby])]
    exact hlt
  cases hworker : t.worker with
  | unlocked | condWoken =>
    rw [hworker] at hto
    refine hto (u := { t with worker := .exited }) ?_ hcancel (by simp [Worker.toExit])
    simp [Task.work, hworker, hi.touch_eq (by simp [hworker]), Task.loopTop, hstopped]
  | timedWoken rc =>
    rw [hworker] at hto
    refine hto (u := { t with worker := .unlocked }) ?_ hcancel (by simp [Worker.toExit])
    simp [Task.work, hworker, hi.touch_eq (by simp [hworker]), Task.waitReturned.eq_def, hstopped]
  | firing =>
    rw [hworker] at hto
    exact hto (u := t.startCallback) (by simp [Task.work, hworker]) hcancel
      (by simp [Task.startCallback, Worker.toExit])
  | inCallback =>
    rw [hworker] at hto
    refine hto (u := { t with worker := .returned }) ?_ hcancel (by simp [Worker.toExit])
    simp [Task.work, hworker, hi.cancel]
  | returned =>
    rw [hworker] at hto
    refine hto (u := { t with worker := .unlocked }) ?_ hcancel (by simp [Worker.toExit])
    simp [Task.work, hworker, hi.touch_eq (by simp [hworker])]
  | exited =>
    refine ⟨.join, t.release, rfl, ?_, .inr rfl, ?_⟩
    · simp [PosixScheduler.step, Task.join, hcancel, hworker]
    · rw [hend, hworker]
      simp [Task.toEnd, Task.release, Worker.toExit]
  | condWait | timedWait =>
    -- the broadcast of the cancel has woken the worker
    rw [hworker] at hplace
    exact absurd (hstopped.symm.trans hplace.1) (by nofun)

/-- The invariant gives the contract. -/
theorem Inv.contracted (hi : Inv t) : Contracted t where
  starts u hu hw := by
    have hplace := (hi.leadsTo hu).place
    rw [hw] at hplace
    exact hplace.1
  fires due hrunning hexpected hle := by
    -- Nothing else moves: the clock stands still, and no call comes between.
    have hlead : ∃ u, BringsAbout t u ∧
        (Inv u ∧ u.running = true ∧ u.expected = some due ∧ due ≤ u.now) ∧ u.worker = .firing := by
      refine Leads.of_rank (fun u => u.worker.toFire) _ _ ?_ ⟨hi, hrunning, hexpected, hle⟩
      rintro s ⟨his, hrun, hexp, hdue⟩ hfar
      obtain ⟨a, u, ha, hstep, hnow, hrun', hexp', hlt⟩ := his.toward_firing hrun hexp hdue hfar
      have hu : Inv u := his.step (.of_quiet (Action.quiet_of_own ha)) hstep
      exact ⟨a, u, ha, hstep, ⟨hu, hrun'.trans hrun, hexp'.trans hexp, hnow ▸ hdue⟩, hlt⟩
    obtain ⟨u, hu, -, hfiring⟩ := hlead
    exact ⟨u, hu, hfiring⟩
  ends hcancel := by
    have hby : t.cancel = .byOther := hcancel.resolve_right hi.cancel
    have hlead : ∃ u, BringsAbout t u ∧
        (Inv u ∧ (u.cancel = .byOther ∨ u.cancel = .returned)) ∧ u.cancel = .returned := by
      refine Leads.of_rank Task.toEnd _ _ ?_ ⟨hi, .inl hby⟩
      rintro s ⟨his, hs⟩ hopen
      obtain ⟨a, u, ha, hstep, hu, hlt⟩ := his.toward_end (hs.resolve_right hopen)
      have hiu : Inv u := his.step (.of_quiet (Action.quiet_of_own ha)) hstep
      exact ⟨a, u, ha, hstep, ⟨hiu, hu⟩, hlt⟩
    obtain ⟨u, hu, -, hdone⟩ := hlead
    exact ⟨u, hu, hdone⟩
  safe u hu := ⟨(hi.leadsTo hu).unused, (hi.leadsTo hu).freed⟩

/-! ### The late calls -/

/-- A committed worker fires, whatever the calls have changed. -/
theorem Task.committed_leadsTo (h : t.committed) :
    ∃ u, LeadsTo t u ∧ u.worker = .firing ∧ u.expected = t.expected ∧ u.now = t.now := by
  obtain hw | ⟨hw, hrunning⟩ := h
  · exact ⟨t, .refl t, hw, rfl, rfl⟩
  · obtain ⟨hfiring, hnow, -, hexpected⟩ := t.touch.fire_frame true
    refine ⟨t.touch.fire true, .single (a := .work true) rfl ?_, hfiring, hexpected, hnow⟩
    have hrun : t.touch.running = true := hrunning
    simp [PosixScheduler.step, Task.work, hw, Task.waitReturned, hrun]

/-- A call does not take the commitment back. -/
theorem Task.committed_of_signal (hworker : u.worker = t.worker.signal)
    (hrunning : u.running = t.running) (h : t.committed) : u.committed := by
  obtain hw | ⟨hw, hrun⟩ := h
  · exact .inl (by rw [hworker, hw]; rfl)
  · exact .inr ⟨by rw [hworker, hw]; rfl, hrunning.trans hrun⟩

/-- After a late stop the callback starts, and it is not expected. -/
theorem Contracted.not_late_stop (h : Contracted t.stopped) : ¬ t.committed := by
  intro hcommitted
  have hstill : t.stopped.committed := Task.committed_of_signal rfl rfl hcommitted
  obtain ⟨u, hu, hw, hexpected, -⟩ := Task.committed_leadsTo hstill
  obtain ⟨due, hdue, -⟩ := h.starts u hu hw
  exact absurd (hexpected.symm.trans hdue) (by nofun)

/-- After a late reset the callback starts at once. -/
theorem Contracted.not_late_reset {delayMs : UInt64}
    (h : Contracted (t.resetTo (t.now + delayMs.toNat * 1000000))) (hcommitted : t.committed) :
    delayMs = 0 := by
  have hstill : (t.resetTo (t.now + delayMs.toNat * 1000000)).committed :=
    Task.committed_of_signal rfl rfl hcommitted
  obtain ⟨u, hu, hw, hexpected, hnow⟩ := Task.committed_leadsTo hstill
  obtain ⟨due, hdue, hle⟩ := h.starts u hu hw
  have hsome : some (t.now + delayMs.toNat * 1000000) = some due := hexpected.symm.trans hdue
  have hsame : t.now + delayMs.toNat * 1000000 = due := Option.some.inj hsome
  have hstart : u.now = t.now := hnow
  have hzero : delayMs.toNat = 0 := by omega
  exact UInt64.toNat_inj.mp hzero

/-- A one-shot that is reset to now, after the choice to fire, starts twice. -/
theorem Contracted.not_twice (hi : Inv t) (h : Contracted (t.resetTo t.now))
    (hw : t.worker = .firing) (hrunning : t.running = true) : t.isPeriodic = true := by
  by_contra hperiodic
  have honce : t.isPeriodic = false := by simpa using hperiodic
  have hcancel : t.cancel = .none := hi.running.mp hrunning
  have hfreed : t.freed = 0 := by rw [hi.freed, if_neg (by simp [hcancel])]
  -- the committed start, the rest of the loop, and the timed wait for the due time of the reset
  have hsix : ∃ u, exec step (t.resetTo t.now) [.work true, .work true, .work true, .work true,
      .timeout, .work true] = some u ∧ u.worker = .firing ∧ u.expected = none := by
    simp [exec, PosixScheduler.step, Task.resetTo, Task.work, Task.timeout, Task.startCallback,
      Task.touch, Task.loopTop, Task.waitReturned, Task.fire, Worker.signal, hw, honce, hrunning,
      hcancel]
  obtain ⟨u, hu, hfiring, hexpected⟩ := hsix
  have hlead : LeadsTo (t.resetTo t.now) u := Leads.exec _ (by simp [Action.quiet]) hu
  obtain ⟨due, hdue, -⟩ := h.starts u hlead hfiring
  exact absurd (hexpected.symm.trans hdue) (by simp)

/-- A callback that cancels its own task returns to a worker that uses it. -/
theorem Contracted.not_own_cancel (h : Contracted (t.cancelling true)) :
    t.worker ≠ .inCallback := by
  intro hw
  -- the join fails, the callback returns, and the worker takes the mutex
  have hthree : ∃ u, exec step (t.cancelling true) [.join, .work true, .work true] = some u ∧
      u.usedAfterFree = true := by
    simp [exec, PosixScheduler.step, Task.cancelling, Task.join, Task.release, Task.work,
      Task.touch, Worker.signal, hw]
  obtain ⟨u, hu, hused⟩ := hthree
  have hlead : LeadsTo (t.cancelling true) u := Leads.exec _ (by simp [Action.quiet]) hu
  exact absurd ((h.safe u hlead).1.symm.trans hused) (by simp)

/-- Each step that keeps the contract is in time. -/
theorem Inv.inTime {a : Action} (hi : Inv t) (h : PosixScheduler.step t a = some u)
    (hu : Contracted u) : InTime t a := by
  cases a with
  | work | timeout | spurious | join | tick | init | deinit => trivial
  | stop =>
    intro hcallable
    have hstop : t.stopTimer.2 = u := Option.some.inj h
    rw [Task.stopTimer_eq, if_pos hcallable] at hstop
    exact (hstop ▸ hu).not_late_stop
  | reset delayMs clockAnswers =>
    intro hcallable hclock hcommitted
    have hreset : (t.resetTimer delayMs clockAnswers).2 = u := Option.some.inj h
    rw [Task.resetTimer_eq, if_pos (by rw [hcallable, hclock]; rfl)] at hreset
    subst hreset
    have hzero := hu.not_late_reset hcommitted
    refine ⟨hzero, fun hw hrunning => Contracted.not_twice hi ?_ hw hrunning⟩
    rw [hzero] at hu
    simpa using hu
  | cancel byCallback =>
    intro hown
    rw [PosixScheduler.step] at h
    split at h
    · rename_i henabled
      by_contra hcallable
      have hcancel : (t.cancelTask byCallback).2 = u := Option.some.inj h
      rw [Task.cancelTask_eq, if_pos (by simpa using hcallable), hown] at hcancel
      exact (hcancel ▸ hu).not_own_cancel (henabled.2.2 hown)
    · exact absurd h (by nofun)

end

/-! ### The contract over the runs -/

/-- In a run whose calls are all in time the contract holds in every state, and a further step
keeps it exactly when that step is in time as well. -/
theorem contracted_iff {t : Task} (h : Reach Scheduled step InTime t) :
    Contracted t ∧ ∀ a u, step t a = some u → (Contracted u ↔ InTime t a) := by
  have hi : Inv t := h.inv Inv (fun _ => .of_scheduled) fun _ _ _ hi hg hstep => hi.step hg hstep
  refine ⟨hi.contracted, fun a u hstep => ⟨hi.inTime hstep, fun hg => ?_⟩⟩
  exact (hi.step hg hstep).contracted

/-- A one-shot that was scheduled for 10 ms. -/
def oneShot : Task :=
  { now := 0, isPeriodic := false, periodMs := 0, due := 10000000, expected := some 10000000 }

theorem oneShot_scheduled : Scheduled oneShot := ⟨{}, true, 0, 10, false, rfl⟩

/-- The one-shot after it fired, its callback reset it, it was stopped and reset again. -/
def oneShotAgain : Task :=
  { now := 10000000, isPeriodic := false, periodMs := 0, due := 30000000,
    worker := .timedWait 30000000, expected := some 30000000 }

theorem contracted_iff_again : Contracted oneShotAgain ∧
    ∀ a u, step oneShotAgain a = some u → (Contracted u ↔ InTime oneShotAgain a) :=
  contracted_iff (Reach.exec [.work true, .tick 10000000, .timeout, .work true, .work true,
    .reset 5 true, .work true, .work true, .work true, .stop, .work true, .reset 20 true,
    .work true] (.start oneShot_scheduled) (by decide +kernel) rfl)

/-- The timed wait of a one-shot ends, and a stop returns before the worker has the mutex. The
callback starts nevertheless. In a second run the callback cancels its own task, and its worker
uses the task after it was freed. -/
theorem stop_then_start :
    (∃ u, exec step oneShot [.work true, .tick 10000000, .timeout, .stop, .work true] = some u ∧
      u.worker = .firing ∧ u.expected = none) ∧
    (∃ u, exec step oneShot [.work true, .tick 10000000, .timeout, .work true, .work true,
      .cancel true, .join, .work true, .work true] = some u ∧ u.usedAfterFree = true) ∧
    ¬ ∀ t, Reach Scheduled step (fun _ _ => True) t → Contracted t := by
  refine ⟨⟨_, rfl, rfl, rfl⟩, ⟨_, rfl, rfl⟩, fun h => ?_⟩
  have hrun : exec step oneShot [.work true, .tick 10000000, .timeout, .stop, .work true] =
    some _ := rfl
  have hcontracted := h _ (Reach.exec_true _ (.start oneShot_scheduled) hrun)
  obtain ⟨due, hdue, -⟩ := hcontracted.starts _ (.refl _) rfl
  exact absurd hdue (by nofun)

end RainMakerNeo.Osal.PosixScheduler
