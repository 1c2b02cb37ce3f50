import Mathlib.Algebra.Group.Nat.Defs
import RainMakerNeo.Lib.CondVar
import RainMakerNeo.Lib.Run

/-!
# `RainMakerNeo.Osal.PosixSemaphore`: mutexes and semaphores for any number of threads

A semaphore is a state behind a pthread mutex, with one condition variable. The kind says which
part of the state counts: a mutex has an owner and, for the recursive calls, a depth; a binary or a
counting semaphore has a count. One step is one section under the pthread mutex: a call up to its
return or to its sleep, or a woken caller that has the mutex back and looks again. A wake-up without
a signal and the end of a time limit are steps of their own.

`taken` and `given` are the books: who took it and who gave it back, once for each call that
returned `OSAL_ERR_OK`. `exclusive_of_proper` is about a mutex: the takes of a thread exceed its
gives only while it owns the mutex, and then by the depth, so there is one such thread at most.
`conserved` is about the other kinds: what is taken and not given back is missing from the count,
and the count stays below its maximum. `awake_of_inTime` is about all kinds: no wake-up is lost.

A mutex must be used through one pair of calls, the plain or the recursive one (`Proper`). The
plain calls do not keep the depth, so a thread that mixes them gives the mutex back too early.
-/

set_option autoImplicit false

namespace RainMakerNeo.Osal.PosixSemaphore

open RainMakerNeo.Lib (CondVar Reach exec)

/-! ### The semaphore -/

/-- A `pthread_t`. -/
abbrev Thread := Nat

/-- `platform_posix_semaphore_kind_t`. -/
inductive Kind
  | mutex | binary | counting
  deriving DecidableEq

/-- `osal_err_t`, as far as the calls return it. -/
inductive OsalErr
  | ok | fail | timeout
  deriving DecidableEq

/-- `ticks_to_wait`: 0, a limit, or `OSAL_MAX_DELAY`. -/
inductive Wait
  | zero
  /-- With the success of `clock_gettime`. -/
  | limited (clock : Bool)
  | forever
  deriving DecidableEq

/-- A call that takes, by `osal_semaphore_take` or `osal_semaphore_take_recursive`. -/
structure Caller where
  thread : Thread
  recursive : Bool
  wait : Wait
  deriving DecidableEq

/-- `platform_posix_semaphore_t`, and the books. -/
structure Sem where
  kind : Kind
  count : Nat
  maxCount : Nat
  mutexLocked : Bool := false
  /-- `none` is the thread 0. -/
  owner : Option Thread := none
  recursionDepth : Nat := 0
  cond : CondVar Caller := {}
  /-- Who took it, the last first. -/
  taken : List Thread := []
  given : List Thread := []
  /-- The returns, the last first. -/
  answers : List (Thread × OsalErr) := []
  deriving DecidableEq

/-- `osal_semaphore_create_mutex` and `osal_semaphore_create_recursive_mutex`. -/
def createMutex : Sem where
  kind := .mutex
  count := 1
  maxCount := 1

/-- `osal_semaphore_create_binary`. -/
def createBinary : Sem where
  kind := .binary
  count := 0
  maxCount := 1

/-- `osal_semaphore_create_counting`. -/
def createCounting (maxCount initialCount : Nat) : Option Sem :=
  if maxCount = 0 ∨ maxCount < initialCount then none
  else some { kind := .counting, count := initialCount, maxCount }

namespace Sem

variable (s : Sem)

/-- A call returns without a change. -/
def answer (t : Thread) (err : OsalErr) : Sem := { s with answers := (t, err) :: s.answers }

/-- A take returns `OSAL_ERR_OK`. -/
def tookOk (t : Thread) : Sem := { s.answer t .ok with taken := t :: s.taken }

/-- A give returns `OSAL_ERR_OK`. -/
def gaveOk (t : Thread) : Sem := { s.answer t .ok with given := t :: s.given }

/-- The condition of the loops. -/
def blocked : Bool :=
  match s.kind with
  | .mutex => s.mutexLocked
  | .binary | .counting => s.count == 0

/-- What is free to take. -/
def units : Nat :=
  match s.kind with
  | .mutex => if s.mutexLocked then 0 else 1
  | .binary | .counting => s.count

/-- Take what is free. -/
def acquire (c : Caller) : Sem :=
  match s.kind with
  | .mutex =>
    { s with
      mutexLocked := true
      owner := some c.thread
      recursionDepth := if c.recursive then 1 else s.recursionDepth }.tookOk c.thread
  | .binary | .counting => { s with count := s.count - 1 }.tookOk c.thread

/-- One turn of the loop of a call that waits. -/
def turn (c : Caller) : Sem :=
  if s.blocked then { s with cond := s.cond.sleep c } else s.acquire c

/-- What the two calls that take have in common, under the pthread mutex. -/
def enter (c : Caller) : Sem :=
  match c.wait with
  | .zero => if s.blocked then s.answer c.thread .timeout else s.acquire c
  | .limited clock => if !clock then s.answer c.thread .fail else s.turn c
  | .forever => s.turn c

/-- `osal_semaphore_take`. `lock` is what `pthread_mutex_lock` returns. -/
def take (t : Thread) (wait : Wait) (lock : Bool) : Sem :=
  if !lock then s.answer t .fail else s.enter { thread := t, recursive := false, wait }

/-- `osal_semaphore_take_recursive`. -/
def takeRecursive (t : Thread) (wait : Wait) (lock : Bool) : Sem :=
  if s.kind ≠ .mutex then s.answer t .fail
  else if !lock then s.answer t .fail
  else if s.mutexLocked && s.owner == some t then
    { s with recursionDepth := (s.recursionDepth + 1) % 2 ^ 32 }.tookOk t
  else s.enter { thread := t, recursive := true, wait }

/-- The mutex is free again. -/
def unlock (t : Thread) (pick : Nat) : Sem :=
  { s with
    mutexLocked := false
    owner := none
    cond := s.cond.signal pick }.gaveOk t

/-- `osal_semaphore_give`. The system picks who the signal wakes. -/
def give (t : Thread) (lock : Bool) (pick : Nat) : Sem :=
  if !lock then s.answer t .fail
  else match s.kind with
    | .mutex =>
      if !s.mutexLocked then s.answer t .fail
      else if s.owner != some t then s.answer t .fail
      else s.unlock t pick
    | .binary | .counting =>
      if s.count < s.maxCount then
        { s with count := s.count + 1, cond := s.cond.signal pick }.gaveOk t
      else s.answer t .fail

/-- `osal_semaphore_give_recursive`. -/
def giveRecursive (t : Thread) (lock : Bool) (pick : Nat) : Sem :=
  if s.kind ≠ .mutex then s.answer t .fail
  else if !lock then s.answer t .fail
  else if !s.mutexLocked || s.owner != some t then s.answer t .fail
  else if s.recursionDepth > 1 then { s with recursionDepth := s.recursionDepth - 1 }.gaveOk t
  else { s with recursionDepth := 0 }.unlock t pick

end Sem

/-- What happens next. -/
inductive Action
  | take (t : Thread) (wait : Wait) (lock : Bool)
  | takeRecursive (t : Thread) (wait : Wait) (lock : Bool)
  | give (t : Thread) (lock : Bool) (pick : Nat)
  | giveRecursive (t : Thread) (lock : Bool) (pick : Nat)
  /-- A sleeper wakes without a signal. -/
  | wake (c : Caller)
  /-- A woken caller has the pthread mutex back. -/
  | resume (c : Caller)
  /-- The wait returns `ETIMEDOUT` or fails. A late one has been woken before. -/
  | expire (c : Caller) (late : Bool) (err : OsalErr)
  deriving DecidableEq

/-- How the wait on the condition can end other than by waking. -/
def Wait.ends : Wait → OsalErr → Bool
  | .limited _, .timeout | .limited _, .fail | .forever, .fail => true
  | _, _ => false

/-- One step. -/
def step (s : Sem) : Action → Option Sem
  | .take t wait lock => some (s.take t wait lock)
  | .takeRecursive t wait lock => some (s.takeRecursive t wait lock)
  | .give t lock pick => some (s.give t lock pick)
  | .giveRecursive t lock pick => some (s.giveRecursive t lock pick)
  | .wake c => if c ∈ s.cond.asleep then some { s with cond := s.cond.wake c } else none
  | .resume c =>
    if c ∈ s.cond.woken then some ({ s with cond := s.cond.resume c }.turn c) else none
  | .expire c late err =>
    if c.wait.ends err then
      if late then
        if c ∈ s.cond.woken then
          some ({ s with cond := s.cond.resume c }.answer c.thread err) else none
      else
        if c ∈ s.cond.asleep then
          some ({ s with cond := s.cond.leave c }.answer c.thread err) else none
    else none

/-! ### No lost wake-up -/

/-- No time limit ends on a caller that was woken: a thread that times out consumes no signal. -/
def InTime (_ : Sem) : Action → Prop
  | .expire _ late _ => late = false
  | _ => True

instance (s : Sem) : ∀ a, Decidable (InTime s a)
  | .expire _ late _ => inferInstanceAs (Decidable (late = false))
  | .take .. | .takeRecursive .. | .give .. | .giveRecursive .. | .wake _ | .resume _ =>
    inferInstanceAs (Decidable True)

/-- While someone sleeps, a woken caller is on its way for each free unit. -/
def Awake (s : Sem) : Prop := s.cond.Covered s.units

variable {s t : Sem} {c : Caller}

/-! What the condition variable does in a step. -/

theorem step_wake (ht : step s (.wake c) = some t) :
    c ∈ s.cond.asleep ∧ t = { s with cond := s.cond.wake c } := by
  rw [step, Option.ite_none_right_eq_some] at ht
  exact ⟨ht.1, (Option.some.inj ht.2).symm⟩

theorem step_resume (ht : step s (.resume c) = some t) :
    c ∈ s.cond.woken ∧ t = { s with cond := s.cond.resume c }.turn c := by
  rw [step, Option.ite_none_right_eq_some] at ht
  exact ⟨ht.1, (Option.some.inj ht.2).symm⟩

/-- A time limit ends on a caller that was woken, or on one that sleeps. -/
theorem step_expire {late : Bool} {err : OsalErr} (ht : step s (.expire c late err) = some t) :
    ∃ cond, t = { s with cond := cond }.answer c.thread err ∧
      (late = true ∧ cond = s.cond.resume c ∨ late = false ∧ cond = s.cond.leave c) := by
  rw [step, Option.ite_none_right_eq_some] at ht
  cases late with
  | true =>
    obtain ⟨-, ht⟩ := Option.ite_none_right_eq_some.mp ht.2
    exact ⟨_, (Option.some.inj ht).symm, .inl ⟨rfl, rfl⟩⟩
  | false =>
    obtain ⟨-, ht⟩ := Option.ite_none_right_eq_some.mp ht.2
    exact ⟨_, (Option.some.inj ht).symm, .inr ⟨rfl, rfl⟩⟩

theorem Sem.units_mutex (hkind : s.kind = .mutex) :
    s.units = if s.mutexLocked then 0 else 1 := by
  rw [Sem.units, hkind]

theorem Sem.units_count (hkind : s.kind ≠ .mutex) : s.units = s.count := by
  rw [Sem.units]
  cases h : s.kind with
  | mutex => exact absurd h hkind
  | binary | counting => rfl

theorem Sem.acquire_mutex (hkind : s.kind = .mutex) (c : Caller) :
    s.acquire c = { s with
      mutexLocked := true
      owner := some c.thread
      recursionDepth := if c.recursive then 1 else s.recursionDepth }.tookOk c.thread := by
  rw [Sem.acquire, hkind]

theorem Sem.acquire_count (hkind : s.kind ≠ .mutex) (c : Caller) :
    s.acquire c = { s with count := s.count - 1 }.tookOk c.thread := by
  rw [Sem.acquire]
  cases h : s.kind with
  | mutex => exact absurd h hkind
  | binary | counting => rfl

/-- A call is blocked exactly when there is nothing to take. -/
theorem Sem.blocked_iff (s : Sem) : s.blocked = true ↔ s.units = 0 := by
  by_cases hkind : s.kind = .mutex
  · rw [s.units_mutex hkind, Sem.blocked, hkind]
    cases s.mutexLocked <;> simp
  · rw [s.units_count hkind, Sem.blocked]
    cases h : s.kind with
    | mutex => exact absurd h hkind
    | binary | counting => exact beq_iff_eq

/-- A call takes one unit. -/
theorem Sem.units_acquire (s : Sem) (c : Caller) : (s.acquire c).units = s.units - 1 := by
  by_cases hkind : s.kind = .mutex
  · have hunits : s.units ≤ 1 := by
      rw [s.units_mutex hkind]
      split <;> decide
    rw [s.acquire_mutex hkind]
    have hnone : s.units - 1 = 0 := by omega
    rw [hnone]
    exact Sem.units_mutex (s := Sem.tookOk _ c.thread) hkind
  · rw [s.acquire_count hkind, s.units_count hkind]
    exact Sem.units_count (s := Sem.tookOk _ c.thread) hkind

theorem Sem.cond_acquire (s : Sem) (c : Caller) : (s.acquire c).cond = s.cond := by
  by_cases hkind : s.kind = .mutex
  · rw [s.acquire_mutex hkind]
    rfl
  · rw [s.acquire_count hkind]
    rfl

/-- The state of each kind at the start. -/
inductive Created : Sem → Prop
  | mutex : Created createMutex
  | binary : Created createBinary
  | counting {maxCount initialCount : Nat} {s : Sem}
      (h : createCounting maxCount initialCount = some s) : Created s

/-- One turn of a loop. The caller may have been the one on the way to a free unit. -/
theorem Awake.turn (h : s.cond.Covered (s.units - 1)) (c : Caller) : Awake (s.turn c) := by
  rw [Sem.turn]
  split
  next hblocked =>
    have hnone := s.blocked_iff.mp hblocked
    show (s.cond.sleep c).Covered s.units
    rw [hnone]
    exact CondVar.covered_zero _
  next =>
    rw [Awake, s.cond_acquire, s.units_acquire]
    exact h

section
variable (h : Awake s)
include h

theorem Awake.enter (c : Caller) : Awake (s.enter c) := by
  have hturn : Awake (s.turn c) := Awake.turn (h.mono (Nat.sub_le _ _)) c
  rw [Sem.enter]
  split
  · split
    · exact h
    · rw [Awake, s.cond_acquire, s.units_acquire]
      exact h.mono (Nat.sub_le _ _)
  · split
    · exact h
    · exact hturn
  · exact hturn

/-- The mutex was locked, so its one unit comes with a signal. -/
theorem Awake.unlock (hkind : s.kind = .mutex) (hlocked : s.mutexLocked = true) (thread : Thread)
    (pick : Nat) : Awake (s.unlock thread pick) := by
  have hzero : s.units = 0 := by
    rw [s.units_mutex hkind, if_pos hlocked]
  have hone : (s.unlock thread pick).units = s.units + 1 := by
    rw [hzero]
    exact Sem.units_mutex (s := s.unlock thread pick) hkind
  rw [Awake, hone]
  exact CondVar.Covered.signal h pick

theorem Awake.give (thread : Thread) (lock : Bool) (pick : Nat) :
    Awake (s.give thread lock pick) := by
  rw [Sem.give]
  split
  · exact h
  · split
    next hkind =>
      split
      · exact h
      next hlocked =>
        split
        · exact h
        · exact h.unlock hkind (by simpa using hlocked) thread pick
    all_goals
      next hkind =>
        split
        · have hcount : s.units = s.count := s.units_count (by rw [hkind]; decide)
          rw [Awake, hcount] at h
          rw [Awake, Sem.units_count (by show s.kind ≠ .mutex; rw [hkind]; decide)]
          exact h.signal pick
        · exact h

theorem Awake.takeRecursive (thread : Thread) (wait : Wait) (lock : Bool) :
    Awake (s.takeRecursive thread wait lock) := by
  rw [Sem.takeRecursive]
  split
  · exact h
  · split
    · exact h
    · split
      · exact h
      · exact h.enter _

theorem Awake.giveRecursive (thread : Thread) (lock : Bool) (pick : Nat) :
    Awake (s.giveRecursive thread lock pick) := by
  rw [Sem.giveRecursive]
  split
  · exact h
  next hkind =>
    split
    · exact h
    · split
      · exact h
      next howner =>
        split
        · exact h
        · have hlocked : s.mutexLocked = true := by
            simp only [Bool.or_eq_true, Bool.not_eq_true', not_or, Bool.not_eq_false] at howner
            exact howner.1
          exact Awake.unlock (s := { s with recursionDepth := 0 }) h (not_not.mp hkind) hlocked
            thread pick

/-- Each step in time keeps it. -/
theorem Awake.step {a : Action} (htime : InTime s a) (ht : PosixSemaphore.step s a = some t) :
    Awake t := by
  cases a with
  | take thread wait lock =>
    obtain rfl := Option.some.inj ht
    rw [Sem.take]
    split
    · exact h
    · exact h.enter _
  | takeRecursive thread wait lock =>
    obtain rfl := Option.some.inj ht
    exact h.takeRecursive thread wait lock
  | give thread lock pick =>
    obtain rfl := Option.some.inj ht
    exact h.give thread lock pick
  | giveRecursive thread lock pick =>
    obtain rfl := Option.some.inj ht
    exact h.giveRecursive thread lock pick
  | wake c =>
    obtain ⟨-, rfl⟩ := step_wake ht
    exact CondVar.Covered.wake h c
  | resume c =>
    obtain ⟨hc, rfl⟩ := step_resume ht
    exact Awake.turn (CondVar.Covered.resume h hc) c
  | expire c late err =>
    obtain rfl : late = false := htime
    obtain ⟨cond, rfl, ⟨hlate, -⟩ | ⟨-, rfl⟩⟩ := step_expire ht
    · exact absurd hlate Bool.false_ne_true
    · exact CondVar.Covered.leave h c

end

/-- **No wake-up is lost.** In every run in which no time limit ends on a woken caller, while
someone sleeps a woken caller is on its way for each free unit. So when nobody is on the way, a
sleeper means a locked mutex or a count of 0. -/
theorem awake_of_inTime (h : Reach Created step InTime s) :
    Awake s ∧ (s.cond.woken = [] → s.cond.asleep ≠ [] → s.blocked = true) := by
  have hawake : Awake s := by
    refine h.inv Awake ?_ ?_
    · intro s hs
      cases hs with
      | mutex | binary => exact CondVar.covered_of_nil rfl _
      | counting hcreate =>
        rw [createCounting, Option.ite_none_left_eq_some] at hcreate
        obtain rfl := Option.some.inj hcreate.2
        exact CondVar.covered_of_nil rfl _
    · intro s a t hs htime ht
      exact hs.step htime ht
  refine ⟨hawake, ?_⟩
  intro hrest hsleep
  exact s.blocked_iff.mpr (hawake.at_rest hrest hsleep)

/-- A thread waits for a binary semaphore, and another one gives it. -/
def handOver : List Action :=
  [.take 1 .forever true, .take 2 .forever true, .give 3 true 0, .resume ⟨1, false, .forever⟩]

theorem awake_of_inTime_handOver : ∃ s, exec step createBinary handOver = some s ∧
    s.taken = [1] ∧ s.cond.asleep ≠ [] ∧ Awake s ∧
    (s.cond.woken = [] → s.cond.asleep ≠ [] → s.blocked = true) :=
  ⟨_, rfl, rfl, by decide,
    awake_of_inTime (Reach.exec handOver (.start .binary) (by decide) rfl)⟩

/-! ### A mutex excludes -/

/-- How often a thread has the mutex. -/
def Sem.depthOf (s : Sem) (t : Thread) : Nat :=
  if s.owner = some t then max 1 s.recursionDepth else 0

/-- The callers keep to one pair of calls, and do not overflow the depth. -/
def Proper (recursive : Bool) (s : Sem) : Action → Prop
  | .take .. | .give .. => recursive = false
  | .takeRecursive .. => recursive = true ∧ s.recursionDepth + 1 < 2 ^ 32
  | .giveRecursive .. => recursive = true
  | .wake _ | .resume _ | .expire .. => True

instance (recursive : Bool) (s : Sem) : ∀ a, Decidable (Proper recursive s a)
  | .take .. | .give .. => inferInstanceAs (Decidable (recursive = false))
  | .takeRecursive .. =>
    inferInstanceAs (Decidable (recursive = true ∧ s.recursionDepth + 1 < 2 ^ 32))
  | .giveRecursive .. => inferInstanceAs (Decidable (recursive = true))
  | .wake _ | .resume _ | .expire .. => inferInstanceAs (Decidable True)

/-- A mutex that is used through one pair of calls. -/
structure Used (recursive : Bool) (s : Sem) : Prop where
  kind : s.kind = .mutex
  waiting : ∀ c ∈ s.cond.callers, c.recursive = recursive
  owned : s.mutexLocked = s.owner.isSome
  depth : if recursive then s.mutexLocked = true → 0 < s.recursionDepth else s.recursionDepth = 0
  books : ∀ t, s.taken.count t = s.given.count t + s.depthOf t

variable {recursive : Bool}

section
variable (h : Used recursive s)
include h

theorem Used.answer (thread : Thread) (err : OsalErr) : Used recursive (s.answer thread err) :=
  ⟨h.kind, h.waiting, h.owned, h.depth, h.books⟩

/-- A step of the condition variable that brings only callers of the same pair. -/
theorem Used.onCond {cond : CondVar Caller}
    (hcond : ∀ c ∈ cond.callers, c.recursive = recursive ∨ c ∈ s.cond.callers) :
    Used recursive { s with cond := cond } := by
  refine ⟨h.kind, ?_, h.owned, h.depth, h.books⟩
  intro c hc
  rcases hcond c hc with hc | hc
  · exact hc
  · exact h.waiting c hc

/-- A free mutex gets an owner, who has it once. -/
theorem Used.acquire (hfree : s.mutexLocked = false) (hc : c.recursive = recursive) :
    Used recursive (s.acquire c) := by
  have hnone : s.owner = none := by
    have howned := h.owned
    rw [hfree] at howned
    exact Option.isSome_eq_false_iff.mp howned.symm |> Option.isNone_iff_eq_none.mp
  have hdepth : max 1 (if c.recursive then 1 else s.recursionDepth) = 1 := by
    have hdepth := h.depth
    rw [hc]
    cases recursive with
    | true => rfl
    | false =>
      have hplain : s.recursionDepth = 0 := by simpa using hdepth
      simp [hplain]
  rw [s.acquire_mutex h.kind]
  refine ⟨h.kind, h.waiting, rfl, ?_, ?_⟩
  · have hdepth := h.depth
    show if recursive then true = true → 0 < (if c.recursive then 1 else s.recursionDepth)
      else (if c.recursive then 1 else s.recursionDepth) = 0
    rw [hc]
    cases recursive with
    | true => exact fun _ => Nat.one_pos
    | false => exact hdepth
  · intro t
    have hbooks := h.books t
    rw [Sem.depthOf, hnone, if_neg (by simp)] at hbooks
    show (c.thread :: s.taken).count t = s.given.count t + if some c.thread = some t then
      max 1 (if c.recursive then 1 else s.recursionDepth) else 0
    rw [List.count_cons, hbooks, hdepth]
    simp

theorem Used.turn (hc : c.recursive = recursive) : Used recursive (s.turn c) := by
  rw [Sem.turn]
  split
  · refine h.onCond ?_
    intro x hx
    rcases CondVar.mem_of_mem_sleep hx with rfl | hx
    · exact .inl hc
    · exact .inr hx
  next hblocked =>
    refine h.acquire ?_ hc
    rw [Sem.blocked, h.kind] at hblocked
    simpa using hblocked

theorem Used.enter (hc : c.recursive = recursive) : Used recursive (s.enter c) := by
  rw [Sem.enter]
  split
  · split
    · exact h.answer c.thread .timeout
    next hblocked =>
      refine h.acquire ?_ hc
      rw [Sem.blocked, h.kind] at hblocked
      simpa using hblocked
  · split
    · exact h.answer c.thread .fail
    · exact h.turn hc
  · exact h.turn hc

/-- The owner gives back what it has once. -/
theorem Used.unlock {thread : Thread} (howner : s.owner = some thread)
    (honce : s.recursionDepth ≤ 1) (pick : Nat) :
    Used recursive ({ s with recursionDepth := 0 }.unlock thread pick) := by
  refine ⟨h.kind, ?_, rfl, ?_, ?_⟩
  · exact fun c hc => h.waiting c (CondVar.mem_of_mem_signal hc)
  · cases recursive with
    | true => exact fun hlocked => by cases hlocked
    | false => rfl
  · intro t
    have hbooks := h.books t
    rw [Sem.depthOf, howner, Nat.max_eq_left honce] at hbooks
    show s.taken.count t = (thread :: s.given).count t + 0
    rw [List.count_cons, hbooks]
    simp

theorem Used.give (hplain : recursive = false) (thread : Thread) (lock : Bool) (pick : Nat) :
    Used recursive (s.give thread lock pick) := by
  have hdepth : s.recursionDepth = 0 := by simpa [hplain] using h.depth
  rw [Sem.give, h.kind]
  split
  · exact h.answer thread .fail
  · show Used recursive (if !s.mutexLocked then s.answer thread .fail
      else if s.owner != some thread then s.answer thread .fail else s.unlock thread pick)
    split
    · exact h.answer thread .fail
    · split
      · exact h.answer thread .fail
      next howner =>
        have howned : s.owner = some thread := by simpa using howner
        have hgive := h.unlock howned (by omega) pick
        rw [← hdepth] at hgive
        exact hgive

/-- A thread that has the mutex takes it once more. -/
theorem Used.deepen {thread : Thread} (hrec : recursive = true) (howner : s.owner = some thread)
    (hroom : s.recursionDepth + 1 < 2 ^ 32) :
    Used recursive
      ({ s with recursionDepth := (s.recursionDepth + 1) % 2 ^ 32 }.tookOk thread) := by
  have hlocked : s.mutexLocked = true := by rw [h.owned, howner]; rfl
  have hpos : 0 < s.recursionDepth := by
    have hdepth := h.depth
    rw [if_pos hrec] at hdepth
    exact hdepth hlocked
  rw [Nat.mod_eq_of_lt hroom]
  refine ⟨h.kind, h.waiting, h.owned, ?_, ?_⟩
  · rw [if_pos hrec]
    exact fun _ => Nat.succ_pos _
  · intro t
    have hbooks := h.books t
    rw [Sem.depthOf, howner] at hbooks
    show (thread :: s.taken).count t = s.given.count t +
      if s.owner = some t then max 1 (s.recursionDepth + 1) else 0
    rw [List.count_cons, hbooks, howner]
    by_cases heq : thread = t
    · simp [heq]
      omega
    · simp [heq]

theorem Used.takeRecursive (hrec : recursive = true) (hroom : s.recursionDepth + 1 < 2 ^ 32)
    (thread : Thread) (wait : Wait) (lock : Bool) :
    Used recursive (s.takeRecursive thread wait lock) := by
  rw [Sem.takeRecursive, if_neg (not_not.mpr h.kind)]
  split
  · exact h.answer thread .fail
  · split
    next hours =>
      simp only [Bool.and_eq_true, beq_iff_eq] at hours
      exact h.deepen hrec hours.2 hroom
    · exact h.enter hrec.symm

/-- A thread that has the mutex several times gives it back once. -/
theorem Used.giveRecursive (hrec : recursive = true) (thread : Thread) (lock : Bool) (pick : Nat) :
    Used recursive (s.giveRecursive thread lock pick) := by
  rw [Sem.giveRecursive, if_neg (not_not.mpr h.kind)]
  split
  · exact h.answer thread .fail
  · split
    · exact h.answer thread .fail
    next hours =>
      simp only [Bool.or_eq_true, Bool.not_eq_true', bne_iff_ne, ne_eq, not_or, not_not] at hours
      split
      next hdeep =>
        refine ⟨h.kind, h.waiting, h.owned, ?_, ?_⟩
        · rw [if_pos hrec]
          exact fun _ => Nat.sub_pos_of_lt hdeep
        · intro t
          have hbooks := h.books t
          rw [Sem.depthOf, hours.2] at hbooks
          show s.taken.count t = (thread :: s.given).count t +
            if s.owner = some t then max 1 (s.recursionDepth - 1) else 0
          rw [List.count_cons, hbooks, hours.2]
          by_cases heq : thread = t
          · simp [heq]
            omega
          · simp [heq]
      next honce => exact h.unlock hours.2 (Nat.le_of_not_lt honce) pick

/-- Each proper step keeps it. -/
theorem Used.step {a : Action} (hproper : Proper recursive s a)
    (ht : PosixSemaphore.step s a = some t) : Used recursive t := by
  cases a with
  | take thread wait lock =>
    obtain rfl := Option.some.inj ht
    rw [Sem.take]
    split
    · exact h.answer thread .fail
    · exact h.enter (c := ⟨thread, false, wait⟩) (Eq.symm hproper)
  | takeRecursive thread wait lock =>
    obtain rfl := Option.some.inj ht
    exact h.takeRecursive hproper.1 hproper.2 thread wait lock
  | give thread lock pick =>
    obtain rfl := Option.some.inj ht
    exact h.give hproper thread lock pick
  | giveRecursive thread lock pick =>
    obtain rfl := Option.some.inj ht
    exact h.giveRecursive hproper thread lock pick
  | wake c =>
    obtain ⟨hc, rfl⟩ := step_wake ht
    exact h.onCond fun x hx => .inr ((CondVar.callers_wake hc).mem_iff.mp hx)
  | resume c =>
    obtain ⟨hc, rfl⟩ := step_resume ht
    have hpair := h.waiting c (List.mem_append_right _ hc)
    exact (h.onCond fun x hx => .inr (CondVar.mem_of_mem_resume hx)).turn hpair
  | expire c late err =>
    obtain ⟨cond, rfl, ⟨-, rfl⟩ | ⟨-, rfl⟩⟩ := step_expire ht
    · exact (h.onCond fun x hx => .inr (CondVar.mem_of_mem_resume hx)).answer c.thread err
    · exact (h.onCond fun x hx => .inr (CondVar.mem_of_mem_leave hx)).answer c.thread err

end

/-- **A mutex excludes.** In every run that uses a mutex through one pair of calls, the takes of a
thread exceed its gives by the depth that the thread has now, so by nothing unless it is the owner.
One thread at most has taken the mutex and not given it back, and the mutex is locked exactly while
there is one. -/
theorem exclusive_of_proper (recursive : Bool)
    (h : Reach (· = createMutex) step (Proper recursive) s) :
    (∀ t, s.taken.count t = s.given.count t + s.depthOf t) ∧
      (∀ t u, s.given.count t < s.taken.count t → s.given.count u < s.taken.count u → t = u) ∧
      (s.mutexLocked = true ↔ ∃ t, s.given.count t < s.taken.count t) := by
  have hused : Used recursive s := by
    refine h.inv (Used recursive) ?_ ?_
    · rintro s rfl
      refine ⟨rfl, fun c hc => absurd hc List.not_mem_nil, rfl, ?_, fun t => rfl⟩
      cases recursive with
      | true => exact fun hlocked => by cases hlocked
      | false => rfl
    · intro s a t hs hproper ht
      exact hs.step hproper ht
  have howner : ∀ t, s.given.count t < s.taken.count t ↔ s.owner = some t := by
    intro t
    rw [hused.books t, Sem.depthOf]
    by_cases hown : s.owner = some t
    · simp only [hown, if_true, iff_true]
      omega
    · simp [hown]
  refine ⟨hused.books, ?_, ?_⟩
  · intro t u ht hu
    have hboth := ((howner t).mp ht).symm.trans ((howner u).mp hu)
    exact Option.some.inj hboth
  · rw [hused.owned, Option.isSome_iff_exists]
    exact exists_congr fun t => (howner t).symm

/-- A thread takes a recursive mutex twice and gives it back once, while another one waits. -/
def nested : List Action :=
  [.takeRecursive 1 .forever true, .takeRecursive 1 .zero true, .takeRecursive 2 .forever true,
    .giveRecursive 1 true 0]

theorem exclusive_of_proper_nested : ∃ s, exec step createMutex nested = some s ∧
    s.depthOf 1 = 1 ∧ s.cond.asleep ≠ [] ∧
    (∀ t, s.taken.count t = s.given.count t + s.depthOf t) ∧
    (∀ t u, s.given.count t < s.taken.count t → s.given.count u < s.taken.count u → t = u) ∧
    (s.mutexLocked = true ↔ ∃ t, s.given.count t < s.taken.count t) :=
  ⟨_, rfl, rfl, by decide,
    exclusive_of_proper true (Reach.exec nested (.start rfl) (by decide) rfl)⟩

/-- With both pairs of calls in one thread, the inner give frees the mutex under the outer take. -/
example : ((exec step createMutex [.takeRecursive 1 .forever true, .takeRecursive 1 .forever true,
      .give 1 true 0, .takeRecursive 2 .zero true]).map fun s =>
    (s.taken.count 1 - s.given.count 1, s.taken.count 2 - s.given.count 2)) = some (1, 1) := by
  decide

/-! ### A count is conserved -/

/-- The counts of a semaphore that is not a mutex. -/
structure Counts (start s : Sem) : Prop where
  kind : s.kind ≠ .mutex
  conserved : s.count + s.taken.length = start.count + s.given.length
  count_le : s.count ≤ s.maxCount
  maxCount : s.maxCount = start.maxCount

variable {start : Sem}

section
variable (h : Counts start s)
include h

theorem Counts.answer (thread : Thread) (err : OsalErr) : Counts start (s.answer thread err) :=
  ⟨h.kind, h.conserved, h.count_le, h.maxCount⟩

theorem Counts.onCond (cond : CondVar Caller) : Counts start { s with cond := cond } :=
  ⟨h.kind, h.conserved, h.count_le, h.maxCount⟩

theorem Counts.acquire (hfree : ¬ s.blocked = true) (c : Caller) : Counts start (s.acquire c) := by
  have hpos : s.count ≠ 0 := by
    rw [s.blocked_iff, s.units_count h.kind] at hfree
    exact hfree
  have hcons := h.conserved
  have hle := h.count_le
  rw [s.acquire_count h.kind]
  refine ⟨h.kind, ?_, ?_, h.maxCount⟩
  · show s.count - 1 + (s.taken.length + 1) = start.count + s.given.length
    omega
  · show s.count - 1 ≤ s.maxCount
    omega

theorem Counts.turn (c : Caller) : Counts start (s.turn c) := by
  rw [Sem.turn]
  split
  · exact h.onCond _
  next hfree => exact h.acquire hfree c

theorem Counts.enter (c : Caller) : Counts start (s.enter c) := by
  rw [Sem.enter]
  split
  · split
    · exact h.answer c.thread .timeout
    next hfree => exact h.acquire hfree c
  · split
    · exact h.answer c.thread .fail
    · exact h.turn c
  · exact h.turn c

theorem Counts.give (thread : Thread) (lock : Bool) (pick : Nat) :
    Counts start (s.give thread lock pick) := by
  have hcons := h.conserved
  rw [Sem.give]
  split
  · exact h.answer thread .fail
  · split
    next hkind => exact absurd hkind h.kind
    all_goals
      split
      next hroom =>
        refine ⟨h.kind, ?_, hroom, h.maxCount⟩
        show s.count + 1 + s.taken.length = start.count + (s.given.length + 1)
        omega
      next => exact h.answer thread .fail

/-- Each step keeps the counts. -/
theorem Counts.step {a : Action} (ht : PosixSemaphore.step s a = some t) : Counts start t := by
  cases a with
  | take thread wait lock =>
    obtain rfl := Option.some.inj ht
    rw [Sem.take]
    split
    · exact h.answer thread .fail
    · exact h.enter _
  | takeRecursive thread wait lock =>
    obtain rfl := Option.some.inj ht
    rw [Sem.takeRecursive, if_pos h.kind]
    exact h.answer thread .fail
  | give thread lock pick =>
    obtain rfl := Option.some.inj ht
    exact h.give thread lock pick
  | giveRecursive thread lock pick =>
    obtain rfl := Option.some.inj ht
    rw [Sem.giveRecursive, if_pos h.kind]
    exact h.answer thread .fail
  | wake c =>
    obtain ⟨-, rfl⟩ := step_wake ht
    exact h.onCond _
  | resume c =>
    obtain ⟨-, rfl⟩ := step_resume ht
    exact (h.onCond _).turn c
  | expire c late err =>
    obtain ⟨cond, rfl, -⟩ := step_expire ht
    exact (h.onCond cond).answer c.thread err

end

/-- **A count is conserved.** In every run of a binary or a counting semaphore, the count and what
was taken make up the initial count and what was given, and the count stays within its maximum.
So the takes never exceed the gives by more than the initial count, and the gives never exceed the
takes by more than there was room for at the start. -/
theorem conserved (hstart : Created start) (hkind : start.kind ≠ .mutex)
    (h : Reach (· = start) step (fun _ _ => True) s) :
    s.count + s.taken.length = start.count + s.given.length ∧ s.count ≤ start.maxCount ∧
      s.taken.length ≤ start.count + s.given.length ∧
      s.given.length + start.count ≤ s.taken.length + start.maxCount := by
  have hcounts : Counts start s := by
    refine h.inv (Counts start) ?_ ?_
    · rintro s rfl
      refine ⟨hkind, ?_, ?_, rfl⟩
      all_goals
        cases hstart with
        | mutex => exact absurd rfl hkind
        | binary => decide
        | counting hcreate =>
          rw [createCounting, Option.ite_none_left_eq_some, not_or] at hcreate
          obtain rfl := Option.some.inj hcreate.2
          first
          | rfl
          | exact Nat.le_of_not_lt hcreate.1.2
    · intro s a t hs _ ht
      exact hs.step ht
  have hcons := hcounts.conserved
  have hle := hcounts.count_le
  rw [hcounts.maxCount] at hle
  refine ⟨hcons, hle, ?_, ?_⟩
  · omega
  · omega

theorem conserved_handOver : ∃ s, exec step createBinary handOver = some s ∧ s.taken = [1] ∧
    s.count + s.taken.length = 0 + s.given.length ∧ s.count ≤ 1 ∧
    s.taken.length ≤ 0 + s.given.length ∧ s.given.length + 0 ≤ s.taken.length + 1 :=
  ⟨_, rfl, rfl,
    conserved .binary (by decide) (Reach.exec_true handOver (.start rfl) rfl)⟩

end RainMakerNeo.Osal.PosixSemaphore
