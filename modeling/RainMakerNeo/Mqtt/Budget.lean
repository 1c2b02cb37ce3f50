import Mathlib.Algebra.Group.Nat.Defs
import RainMakerNeo.Lib.Run
import RainMakerNeo.Lib.TokenBucket

/-!
# `RainMakerNeo.Mqtt.Budget`: the budget of the published messages

The budget puts its own publish function in front of the one of the MQTT client. Each message costs
one unit, and a periodic task sends a task to the work queue that revives some units. One step is
one section under the mutex, or one call of the core, so the runs of `step` are the interleavings
of any number of publishers with the scheduler, the work queue and the core.

`refused_eq_zero_iff` says when no message is dropped: exactly when the messages conform to the
bucket of the configuration. `forwarded_le` is the limit that the budget keeps: in a stretch of any
run, the client gets no more messages than the full budget and the revivals allow. A message passes
the budget for nothing when the mutex is not there or not taken in time, and both results count
these messages on their own.

The history of a bucket starts at its setup. The period is one of the scheduler and does not occur.
-/

set_option autoImplicit false

namespace RainMakerNeo.Mqtt.Budget

open RainMakerNeo.Lib (Reach exec)
open RainMakerNeo.Lib.TokenBucket

/-! ### The model -/

/-- The options `CONFIG_ESP_RMAKER_NEO_MQTT_*` with the ranges of their menu. -/
structure Config where
  defaultBudget : Nat
  maxBudget : Nat
  reviveCount : Nat
  default_range : 64 ≤ defaultBudget ∧ defaultBudget ≤ maxBudget
  max_range : 64 ≤ maxBudget ∧ maxBudget ≤ 2048
  revive_range : 1 ≤ reviveCount ∧ reviveCount ≤ 16

/-- The publish functions that a pointer can hold. -/
inductive PublishFn
  | null | client | budgeted
  deriving DecidableEq

/-- The variables of the budget, of the core and of the work queue, and the history. -/
structure State where
  /-- `esp_rmaker_mqtt_impl.publish`. -/
  publish : PublishFn := .null
  /-- `osal_mqtt_publish_fn_original`. -/
  original : PublishFn := .null
  mutex : Bool := false
  budget : Nat := 0
  /-- The handle of the reviver. -/
  reviveTaskHandle : Bool := false
  /-- The periodic tasks of the scheduler. -/
  periodic : Nat := 0
  /-- The revive tasks in the work queue. -/
  queued : Nat := 0
  /-- `core_mqtt_setup_done`. -/
  setupDone : Bool := false
  /-- What the mutex has seen since the setup. -/
  events : List Event := []
  /-- The messages that were refused since the setup. -/
  refused : Nat := 0
  forwarded : Nat := 0
  /-- The forwarded messages that cost nothing. -/
  free : Nat := 0
  /-- The revive tasks that the scheduler has queued. -/
  ticks : Nat := 0
  deriving DecidableEq

/-- `osal_err_t`, as far as the calls return it. -/
inductive OsalErr
  | ok | noMem | fail | invalidState | sendFailed
  deriving DecidableEq

/-- `mqtt_budget_impl_setup`, with the answers of the original setup and of the mutex. -/
def implSetup (cfg : Config) (setupOk mutexOk : Bool) (s : State) : OsalErr × State :=
  if !setupOk then (.fail, s)
  else if !mutexOk then (.noMem, { s with publish := .client, mutex := false })
  else (.ok, { s with
    publish := .budgeted
    original := .client
    mutex := true
    budget := cfg.defaultBudget
    events := []
    refused := 0 })

/-- `mqtt_budget_impl_deinit`. -/
def implDeinit (s : State) : State :=
  { s with publish := s.original, original := .null, mutex := false, budget := 0 }

/-- `mqtt_budget_impl_start_reviver`. -/
def implStartReviver (ok : Bool) (s : State) : OsalErr × State :=
  if ok then (.ok, { s with reviveTaskHandle := true, periodic := s.periodic + 1 }) else (.fail, s)

/-- `mqtt_budget_impl_stop_reviver`. -/
def implStopReviver (s : State) : OsalErr × State :=
  if !s.reviveTaskHandle then (.invalidState, s)
  else (.ok, { s with reviveTaskHandle := false, periodic := s.periodic - 1 })

/-- `mqtt_budget_check_available_and_decrement`. `lock` says whether the mutex is taken in time. -/
def checkAvailableAndDecrement (lock : Bool) (s : State) : Bool × State :=
  if !(s.mutex && lock) then (true, { s with free := s.free + 1 })
  else if 0 < s.budget then
    (true, { s with budget := s.budget - 1, events := s.events ++ [.take] })
  else (false, { s with refused := s.refused + 1, events := s.events ++ [.take] })

/-- `mqtt_budget_publish_fn`. -/
def publishFn (lock : Bool) (s : State) : Option (OsalErr × State) :=
  match checkAvailableAndDecrement lock s with
  | (false, s) => some (.sendFailed, s)
  | (true, s) =>
    match s.original with
    | .null => some (.invalidState, s)
    | .client => some (.ok, { s with forwarded := s.forwarded + 1 })
    -- a call of itself, without an end
    | .budgeted => none

/-- `mqtt_budget_revive_work_queue_task`, with the sum of `uint32_t`. -/
def reviveWorkQueueTask (cfg : Config) (lock : Bool) (s : State) : State :=
  if !(s.mutex && lock) then s
  else
    let budget := (s.budget + cfg.reviveCount) % 2 ^ 32
    { s with
      budget := if cfg.maxBudget < budget then cfg.maxBudget else budget
      events := s.events ++ [.refill] }

/-- `mqtt_budget_revive_scheduler_task`, with the answer of the work queue. -/
def reviveSchedulerTask (added : Bool) (s : State) : State :=
  if added then { s with queued := s.queued + 1, ticks := s.ticks + 1 } else s

inductive Action
  | setup (setupOk mutexOk : Bool)
  | deinit
  | startReviver (ok : Bool)
  | stopReviver
  | publish (lock : Bool)
  /-- A period of the scheduler. -/
  | period (added : Bool)
  /-- The work queue runs a revive task. -/
  | revive (lock : Bool)
  /-- The work queue drops its entries. -/
  | flush
  deriving DecidableEq

/-- A message of the client, through the pointer. -/
def publishMessage (lock : Bool) (s : State) : Option State :=
  match s.publish with
  | .null => none
  | .client => some { s with forwarded := s.forwarded + 1, free := s.free + 1 }
  | .budgeted => (publishFn lock s).map (·.2)

variable (cfg : Config)

/-- One step. The core sets up what is not set up, and it deinits what is. -/
def step (s : State) : Action → Option State
  | .setup setupOk mutexOk =>
    if s.setupDone then none
    else
      let (err, s) := implSetup cfg setupOk mutexOk s
      some { s with setupDone := err == .ok }
  | .deinit => if s.setupDone then some { implDeinit s with setupDone := false } else none
  | .startReviver ok => some (implStartReviver ok s).2
  | .stopReviver => some (implStopReviver s).2
  | .publish lock => publishMessage lock s
  | .period added => if 0 < s.periodic then some (reviveSchedulerTask added s) else none
  | .revive lock =>
    if 0 < s.queued then some (reviveWorkQueueTask cfg lock { s with queued := s.queued - 1 })
    else none
  | .flush => some { s with queued := 0 }

/-! ### The bucket -/

variable {cfg} {s t : State} {a : Action}

/-- The sum of the revival does not wrap. -/
theorem revive_eq (h : s.budget ≤ cfg.maxBudget) (hmutex : s.mutex = true) :
    reviveWorkQueueTask cfg true s = { s with
      budget := next cfg.maxBudget cfg.reviveCount s.budget .refill
      events := s.events ++ [.refill] } := by
  have hmax := cfg.max_range.2
  have hcount := cfg.revive_range.2
  have hsum : (s.budget + cfg.reviveCount) % 2 ^ 32 = s.budget + cfg.reviveCount :=
    Nat.mod_eq_of_lt (by omega)
  rw [reviveWorkQueueTask, hmutex, hsum]
  simp only [Bool.and_true, Bool.not_true, Bool.false_eq_true, if_false, next]
  congr 1
  split
  · rw [Nat.min_eq_left (by omega)]
  · rw [Nat.min_eq_right (by omega)]

/-- The pointers and the mutex come and go with the setup, and the budget is a bucket. -/
structure Inv (cfg : Config) (s : State) : Prop where
  mutex_eq : s.mutex = s.setupDone
  publish_iff : s.publish = .budgeted ↔ s.setupDone = true
  original_eq : s.original = if s.setupDone then .client else .null
  budget_idle : s.setupDone = false → s.budget = 0
  budget_eq : s.setupDone = true →
    s.budget = level cfg.maxBudget cfg.reviveCount cfg.defaultBudget s.events
  refused_eq : s.setupDone = true →
    s.refused = refusals cfg.maxBudget cfg.reviveCount cfg.defaultBudget s.events

namespace Inv

theorem init : Inv cfg {} where
  mutex_eq := rfl
  publish_iff := by decide
  original_eq := rfl
  budget_idle := fun _ => rfl
  budget_eq := fun h => (by cases h)
  refused_eq := fun h => (by cases h)

theorem budget_le (h : Inv cfg s) : s.budget ≤ cfg.maxBudget := by
  cases hdone : s.setupDone with
  | false =>
    rw [h.budget_idle hdone]
    exact Nat.zero_le _
  | true =>
    rw [h.budget_eq hdone]
    exact level_le cfg.default_range.2 s.events

/-- The mutex has seen one more event. -/
theorem event (h : Inv cfg s) (hdone : s.setupDone = true) (e : Event) :
    Inv cfg { s with
      budget := next cfg.maxBudget cfg.reviveCount s.budget e
      events := s.events ++ [e]
      refused := s.refused + if e = .take ∧ s.budget = 0 then 1 else 0 } where
  mutex_eq := h.mutex_eq
  publish_iff := h.publish_iff
  original_eq := h.original_eq
  budget_idle := fun hidle => by
    rw [hdone] at hidle
    cases hidle
  budget_eq := fun _ => by
    rw [h.budget_eq hdone, level_append]
    rfl
  refused_eq := fun _ => by
    rw [h.refused_eq hdone, refusals_append, h.budget_eq hdone]
    rfl

/-- The counters of the messages and of the work queue are not part of it. -/
theorem counters (h : Inv cfg s) (handle : Bool) (periodic queued forwarded free ticks : Nat) :
    Inv cfg { s with
      reviveTaskHandle := handle
      periodic
      queued
      forwarded
      free
      ticks } where
  mutex_eq := h.mutex_eq
  publish_iff := h.publish_iff
  original_eq := h.original_eq
  budget_idle := h.budget_idle
  budget_eq := h.budget_eq
  refused_eq := h.refused_eq

/-- A message takes a unit or is refused, exactly as the bucket says. -/
theorem check (h : Inv cfg s) (hdone : s.setupDone = true) (lock : Bool) :
    Inv cfg (checkAvailableAndDecrement lock s).2 := by
  have hevent := h.event hdone .take
  rw [checkAvailableAndDecrement]
  split
  · exact h.counters _ _ _ _ _ _
  · split
    · next hpos => simpa [next, hpos.ne'] using hevent
    · next hpos =>
      have hzero : s.budget = 0 := by omega
      simpa [next, hzero] using hevent

theorem publish (h : Inv cfg s) {lock : Bool} (ht : publishMessage lock s = some t) :
    Inv cfg t := by
  rw [publishMessage] at ht
  split at ht
  · cases ht
  · cases ht
    exact h.counters _ _ _ _ _ _
  · next hbudgeted =>
    have hdone := h.publish_iff.mp hbudgeted
    have hcheck := h.check hdone lock
    rw [publishFn] at ht
    split at ht
    · next s' heq =>
      rw [heq] at hcheck
      cases ht
      exact hcheck
    · next s' heq =>
      rw [heq] at hcheck
      split at ht
      · cases ht
        exact hcheck
      · cases ht
        exact hcheck.counters _ _ _ _ _ _
      · cases ht

theorem revive (h : Inv cfg s) (lock : Bool) : Inv cfg (reviveWorkQueueTask cfg lock s) := by
  by_cases hlock : s.mutex = true ∧ lock = true
  · obtain ⟨hmutex, rfl⟩ := hlock
    have hdone : s.setupDone = true := h.mutex_eq ▸ hmutex
    rw [revive_eq (h.budget_le) hmutex]
    have hevent := h.event hdone .refill
    simpa using hevent
  · have hnot : (s.mutex && lock) = false := by simpa using hlock
    rw [reviveWorkQueueTask, hnot]
    exact h

theorem setup (h : Inv cfg s) (hdone : s.setupDone = false) (setupOk mutexOk : Bool) :
    Inv cfg { (implSetup cfg setupOk mutexOk s).2 with
      setupDone := (implSetup cfg setupOk mutexOk s).1 == .ok } := by
  have horiginal : s.original = .null := by
    rw [h.original_eq, hdone]
    rfl
  have hmutex : s.mutex = false := h.mutex_eq.trans hdone
  have hpublish : s.publish ≠ .budgeted := by
    intro hbudgeted
    rw [h.publish_iff.mp hbudgeted] at hdone
    cases hdone
  cases setupOk with
  | false => exact ⟨hmutex, by simpa [implSetup] using hpublish, horiginal,
      fun _ => h.budget_idle hdone, fun hok => (by cases hok), fun hok => (by cases hok)⟩
  | true =>
    cases mutexOk with
    | false => exact ⟨rfl, by simp [implSetup], horiginal, fun _ => h.budget_idle hdone,
        fun hok => (by cases hok), fun hok => (by cases hok)⟩
    | true => exact ⟨rfl, by simp [implSetup], rfl, fun hidle => (by cases hidle), fun _ => rfl,
        fun _ => rfl⟩

theorem deinit (h : Inv cfg s) (hdone : s.setupDone = true) :
    Inv cfg { implDeinit s with setupDone := false } := by
  have horiginal : s.original = .client := by
    rw [h.original_eq, hdone]
    rfl
  exact ⟨rfl, by simp [implDeinit, horiginal], rfl, fun _ => rfl, fun hok => (by cases hok),
    fun hok => (by cases hok)⟩

theorem step (h : Inv cfg s) (ht : step cfg s a = some t) : Inv cfg t := by
  cases a with
  | setup setupOk mutexOk =>
    rw [Budget.step] at ht
    split at ht
    · cases ht
    · next hdone =>
      cases ht
      exact h.setup (by simpa using hdone) setupOk mutexOk
  | deinit =>
    rw [Budget.step] at ht
    split at ht
    · next hdone =>
      cases ht
      exact h.deinit hdone
    · cases ht
  | startReviver ok =>
    cases ht
    cases ok with
    | false => exact h
    | true => exact h.counters _ _ _ _ _ _
  | stopReviver =>
    cases ht
    rw [implStopReviver]
    split
    · exact h
    · exact h.counters _ _ _ _ _ _
  | publish lock => exact h.publish ht
  | period added =>
    rw [Budget.step] at ht
    split at ht
    · cases ht
      cases added with
      | false => exact h
      | true => exact h.counters _ _ _ _ _ _
    · cases ht
  | revive lock =>
    rw [Budget.step] at ht
    split at ht
    · cases ht
      exact (h.counters s.reviveTaskHandle s.periodic (s.queued - 1) s.forwarded s.free s.ticks).revive
        lock
    · cases ht
  | flush =>
    cases ht
    exact h.counters _ _ _ _ _ _

end Inv

/-- The states of the runs. -/
abbrev Reached (cfg : Config) : State → Prop := Reach (· = {}) (step cfg) fun _ _ => True

theorem Inv.of_reached (h : Reached cfg s) : Inv cfg s :=
  h.inv (Inv cfg) (by rintro _ rfl; exact .init) fun _ _ _ hi _ ht => hi.step ht

/-- **The budget drops exactly what does not conform.** While the budget is set up, no message was
refused if and only if the messages never ran ahead of the budget: not since the setup, and in no
stretch since then. -/
theorem refused_eq_zero_iff (h : Reached cfg s) (hdone : s.setupDone = true) :
    s.refused = 0 ↔
      Conforms cfg.maxBudget cfg.reviveCount cfg.defaultBudget s.events := by
  rw [(Inv.of_reached h).refused_eq hdone]
  exact refusals_eq_zero_iff cfg.default_range.2 s.events

/-- The smallest configuration. -/
def smallest : Config where
  defaultBudget := 64
  maxBudget := 64
  reviveCount := 1
  default_range := by decide
  max_range := by decide
  revive_range := by decide

/-- After 65 messages and no revival, one message was refused. -/
def spentRun : List Action := .setup true true :: List.replicate 65 (.publish true)

theorem refused_eq_zero_iff_spentRun :
    (1 : Nat) = 0 ↔ Conforms 64 1 64 (List.replicate 65 Event.take) := by
  have hexec : exec (step smallest) {} spentRun = some {
      publish := .budgeted
      original := .client
      mutex := true
      setupDone := true
      events := List.replicate 65 .take
      refused := 1
      forwarded := 64 } := by
    decide +kernel
  exact refused_eq_zero_iff (Reach.exec_true spentRun (.start rfl) hexec) rfl

/-! ### The limit -/

/-- No setup, which would fill the budget. -/
def NoSetup (_ : State) : Action → Prop
  | .setup .. => False
  | _ => True

instance (s : State) : ∀ a, Decidable (NoSetup s a)
  | .setup .. => inferInstanceAs (Decidable False)
  | .deinit | .startReviver _ | .stopReviver | .publish _ | .period _ | .revive _ | .flush =>
    inferInstanceAs (Decidable True)

/-- What the client gets is paid for: by the budget, by a revival that was queued, or it was
free. -/
structure Paid (cfg : Config) (s t : State) : Prop where
  free_le : s.free ≤ t.free
  ticks_le : s.ticks ≤ t.ticks
  paid : t.forwarded + t.budget + cfg.reviveCount * t.queued + s.free + cfg.reviveCount * s.ticks ≤
    s.forwarded + s.budget + cfg.reviveCount * s.queued + t.free + cfg.reviveCount * t.ticks

namespace Paid

theorem rfl' : Paid cfg s s where
  free_le := Nat.le_refl _
  ticks_le := Nat.le_refl _
  paid := by omega

theorem trans {u : State} (h : Paid cfg s t) (h' : Paid cfg t u) : Paid cfg s u where
  free_le := h.free_le.trans h'.free_le
  ticks_le := h.ticks_le.trans h'.ticks_le
  paid := by
    have hfirst := h.paid
    have hsecond := h'.paid
    omega

/-- A message that passes the check may be forwarded. -/
theorem check (cfg : Config) (s : State) (lock : Bool) :
    Paid cfg s (checkAvailableAndDecrement lock s).2 ∧
      ((checkAvailableAndDecrement lock s).1 = true →
        Paid cfg s { (checkAvailableAndDecrement lock s).2 with
          forwarded := (checkAvailableAndDecrement lock s).2.forwarded + 1 }) := by
  rw [checkAvailableAndDecrement]
  split
  · exact ⟨⟨by simp, by simp, by simp⟩, fun _ => ⟨by simp, by simp, by simp; omega⟩⟩
  · split
    · exact ⟨⟨by simp, by simp, by simp⟩, fun _ => ⟨by simp, by simp, by simp; omega⟩⟩
    · exact ⟨⟨by simp, by simp, by simp⟩, fun hok => (by cases hok)⟩

theorem publish {lock : Bool} (ht : publishMessage lock s = some t) : Paid cfg s t := by
  rw [publishMessage] at ht
  split at ht
  · cases ht
  · cases ht
    exact ⟨by simp, by simp, by simp; omega⟩
  · have hcheck := check cfg s lock
    rw [publishFn] at ht
    split at ht
    · next s' heq =>
      rw [heq] at hcheck
      cases ht
      exact hcheck.1
    · next s' heq =>
      rw [heq] at hcheck
      split at ht
      · cases ht
        exact hcheck.1
      · cases ht
        exact hcheck.2 rfl
      · cases ht

/-- A revival pays for what it adds. -/
theorem revive (hq : 0 < s.queued) (lock : Bool) :
    Paid cfg s (reviveWorkQueueTask cfg lock { s with queued := s.queued - 1 }) := by
  have hqueued : cfg.reviveCount * s.queued =
      cfg.reviveCount * (s.queued - 1) + cfg.reviveCount := by
    rw [← Nat.mul_succ]
    congr 1
    omega
  rw [reviveWorkQueueTask]
  split
  · exact ⟨by simp, by simp, by simp; omega⟩
  · have hsum := Nat.mod_le (s.budget + cfg.reviveCount) (2 ^ 32)
    refine ⟨by simp, by simp, ?_⟩
    simp only
    split
    · omega
    · omega

theorem period (s : State) (added : Bool) : Paid cfg s (reviveSchedulerTask added s) := by
  cases added with
  | false => exact rfl'
  | true =>
    refine ⟨Nat.le_refl _, Nat.le_succ _, ?_⟩
    simp only [reviveSchedulerTask, if_true, Nat.mul_succ]
    omega

theorem step (hg : NoSetup s a) (ht : step cfg s a = some t) : Paid cfg s t := by
  cases a with
  | setup => cases hg
  | deinit =>
    rw [Budget.step] at ht
    split at ht
    · cases ht
      exact ⟨Nat.le_refl _, Nat.le_refl _, by simp [implDeinit]⟩
    · cases ht
  | startReviver ok =>
    cases ht
    cases ok with
    | false => exact rfl'
    | true => exact ⟨Nat.le_refl _, Nat.le_refl _, Nat.le_refl _⟩
  | stopReviver =>
    cases ht
    rw [implStopReviver]
    split
    · exact rfl'
    · exact ⟨Nat.le_refl _, Nat.le_refl _, Nat.le_refl _⟩
  | publish lock => exact publish ht
  | period added =>
    rw [Budget.step] at ht
    split at ht
    · cases ht
      exact period s added
    · cases ht
  | revive lock =>
    rw [Budget.step] at ht
    split at ht
    · next hq =>
      cases ht
      exact revive hq lock
    · cases ht
  | flush =>
    cases ht
    exact ⟨Nat.le_refl _, Nat.le_refl _, by simp⟩

end Paid

/-- **The limit of the budget.** In each stretch of a run without a setup, the client gets at most a
full budget, what the scheduler revives in the stretch or had queued before it, and what passes
without the mutex. -/
theorem forwarded_le (hs : Reached cfg s) (h : Reach (· = s) (step cfg) NoSetup t) :
    t.forwarded - s.forwarded ≤ cfg.maxBudget +
      cfg.reviveCount * (s.queued + (t.ticks - s.ticks)) + (t.free - s.free) := by
  have hpaid : Paid cfg s t :=
    h.inv (Paid cfg s) (by rintro _ rfl; exact .rfl') fun _ _ _ hp hg ht => hp.trans (.step hg ht)
  have hbudget := (Inv.of_reached hs).budget_le
  obtain ⟨hfree, hticks, hsum⟩ := hpaid
  have hrevived : cfg.reviveCount * (s.queued + (t.ticks - s.ticks)) + cfg.reviveCount * s.ticks =
      cfg.reviveCount * s.queued + cfg.reviveCount * t.ticks := by
    rw [← Nat.mul_add, ← Nat.mul_add]
    congr 1
    omega
  omega

/-- The budget is spent and one unit is revived and spent. -/
def revivedRun : List Action :=
  .startReviver true :: List.replicate 65 (.publish true) ++
    [.period true, .revive true, .publish true, .publish true]

theorem forwarded_le_revivedRun : (65 : Nat) - 0 ≤ 64 + 1 * (0 + (1 - 0)) + (0 - 0) := by
  have hstart : Reached smallest {
      publish := .budgeted
      original := .client
      mutex := true
      budget := 64
      setupDone := true } :=
    Reach.exec_true [.setup true true] (.start rfl) rfl
  have hexec : exec (step smallest) {
      publish := .budgeted
      original := .client
      mutex := true
      budget := 64
      setupDone := true } revivedRun = some {
      publish := .budgeted
      original := .client
      mutex := true
      reviveTaskHandle := true
      periodic := 1
      setupDone := true
      events := List.replicate 65 .take ++ [.refill, .take, .take]
      refused := 2
      forwarded := 65
      ticks := 1 } := by
    decide +kernel
  exact forwarded_le hstart (Reach.exec revivedRun (.start rfl) (by decide +kernel) hexec)

end RainMakerNeo.Mqtt.Budget
