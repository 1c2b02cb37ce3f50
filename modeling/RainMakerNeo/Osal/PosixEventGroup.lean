import RainMakerNeo.Lib.CondVar
import RainMakerNeo.Lib.Run

/-!
# `RainMakerNeo.Osal.PosixEventGroup`: event bits for any number of threads

An event group is a word of bits behind a mutex, with one condition variable. A call waits until
all bits of its mask are set, or one of them, and it can clear the mask when it passes. A set
broadcasts, so everyone who sleeps looks again. One step is one section under the mutex, as in
`RainMakerNeo.Osal.PosixSemaphore`.

`asleep_unmet` says that nobody sleeps through a set: in every run, no sleeper has what it waits
for. `passed_iff_met` is what a caller needs, because it gets the bits and not the reason of the
return: the bits meet its condition exactly if it has passed, and cleared its mask if it had to.
`passes_le_sets` is the price of clearing under the mutex: a set of a bit lets through one call
that clears the bit. So a rendezvous by `osal_event_group_sync`, where each party sets its bit once
and waits for the bits of all, ends for one party only: it clears the bits before the others look.
-/

set_option autoImplicit false

namespace RainMakerNeo.Osal.PosixEventGroup

open RainMakerNeo.Lib (CondVar Reach exec)

/-! ### The event group -/

/-- `osal_event_group_bits_t`. -/
abbrev Bits := BitVec 32

/-- `ticks_to_wait`: 0, a limit, or `OSAL_MAX_DELAY`. -/
inductive Wait
  | zero
  /-- With the success of `clock_gettime`. -/
  | limited (clock : Bool)
  | forever
  deriving DecidableEq

/-- What a call waits for: `bits_to_wait_for`, `clear_on_exit` and `wait_for_all_bits`. -/
structure Ask where
  mask : Bits
  clear : Bool
  all : Bool
  deriving DecidableEq

/-- The condition of the loops. -/
def Ask.met (ask : Ask) (bits : Bits) : Bool :=
  if ask.all then bits &&& ask.mask == ask.mask else bits &&& ask.mask != 0

/-- A call that waits, with its local `before_bits`. -/
structure Caller where
  id : Nat
  ask : Ask
  wait : Wait
  before : Bits
  deriving DecidableEq

/-- The return of a call that waits. It has `passed` if its condition let it go. -/
structure Returned where
  id : Nat
  ask : Ask
  bits : Bits
  passed : Bool
  deriving DecidableEq

/-- `platform_posix_event_group_t`, and the books. `osal_event_group_create` makes the default. -/
structure Group where
  bits : Bits := 0
  cond : CondVar Caller := {}
  /-- What was set, the last first. -/
  sets : List Bits := []
  /-- The returns, the last first. -/
  answers : List Returned := []
  deriving DecidableEq

namespace Group

variable (g : Group)

/-- A call returns bits. -/
def answer (c : Caller) (bits : Bits) (passed : Bool) : Group :=
  { g with answers := { id := c.id, ask := c.ask, bits, passed } :: g.answers }

/-- The condition is met. -/
def pass (c : Caller) : Group :=
  { g with bits := if c.ask.clear then g.bits &&& ~~~c.ask.mask else g.bits }.answer c g.bits true

/-- One turn of a loop. -/
def turn (c : Caller) : Group :=
  if c.ask.met g.bits then g.pass c else { g with cond := g.cond.sleep c }

/-- What the two calls that wait have in common, under the mutex. -/
def enter (id : Nat) (ask : Ask) (wait : Wait) : Group :=
  let c : Caller := { id, ask, wait, before := g.bits }
  match wait with
  | .zero => if ask.met g.bits then g.pass c else g.answer c g.bits false
  | .limited clock => if !clock then g.answer c c.before false else g.turn c
  | .forever => g.turn c

/-- `eg->bits |= bits_to_set`, with the broadcast. -/
def put (mask : Bits) : Group :=
  { g with bits := g.bits ||| mask, cond := g.cond.broadcast, sets := mask :: g.sets }

/-- `osal_event_group_wait_bits`. `lock` is what `pthread_mutex_lock` returns. -/
def waitBits (id : Nat) (ask : Ask) (wait : Wait) (lock : Bool) : Group :=
  if !lock then g.answer { id, ask, wait, before := 0 } 0 false else g.enter id ask wait

/-- `osal_event_group_set_bits`. -/
def setBits (mask : Bits) (lock : Bool) : Bits × Group :=
  if !lock then (0, g) else ((g.put mask).bits, g.put mask)

/-- `osal_event_group_clear_bits`. -/
def clearBits (mask : Bits) (lock : Bool) : Bits × Group :=
  if !lock then (0, g) else (g.bits, { g with bits := g.bits &&& ~~~mask })

/-- `osal_event_group_sync`. It waits for all bits and clears them. -/
def sync (id : Nat) (bitsToSet mask : Bits) (wait : Wait) (lock : Bool) : Group :=
  let ask : Ask := { mask, clear := true, all := true }
  if !lock then g.answer { id, ask, wait, before := 0 } 0 false
  else (g.put bitsToSet).enter id ask wait

end Group

/-- What happens next. -/
inductive Action
  | waitBits (id : Nat) (ask : Ask) (wait : Wait) (lock : Bool)
  | setBits (mask : Bits) (lock : Bool)
  | clearBits (mask : Bits) (lock : Bool)
  | sync (id : Nat) (bitsToSet mask : Bits) (wait : Wait) (lock : Bool)
  /-- A sleeper wakes without a broadcast. -/
  | wake (c : Caller)
  /-- A woken caller has the mutex back. -/
  | resume (c : Caller)
  /-- `pthread_cond_timedwait` returns `ETIMEDOUT`. A late one has been woken before. -/
  | timeout (c : Caller) (late : Bool)
  /-- The wait on the condition fails. -/
  | fail (c : Caller) (late : Bool)
  deriving DecidableEq

/-- The wait has a time limit. -/
def Wait.isLimited : Wait → Bool
  | .limited _ => true
  | .zero | .forever => false

/-- A caller returns from the condition variable with the mutex and does not look again. -/
def Group.drop (g : Group) (c : Caller) (late : Bool) : Option Group :=
  if late then if c ∈ g.cond.woken then some { g with cond := g.cond.resume c } else none
  else if c ∈ g.cond.asleep then some { g with cond := g.cond.leave c } else none

/-- One step. -/
def step (g : Group) : Action → Option Group
  | .waitBits id ask wait lock => some (g.waitBits id ask wait lock)
  | .setBits mask lock => some (g.setBits mask lock).2
  | .clearBits mask lock => some (g.clearBits mask lock).2
  | .sync id bitsToSet mask wait lock => some (g.sync id bitsToSet mask wait lock)
  | .wake c => if c ∈ g.cond.asleep then some { g with cond := g.cond.wake c } else none
  | .resume c =>
    if c ∈ g.cond.woken then some ({ g with cond := g.cond.resume c }.turn c) else none
  | .timeout c late =>
    if c.wait.isLimited then (g.drop c late).map fun h => h.answer c h.bits false else none
  | .fail c late => (g.drop c late).map fun h => h.answer c c.before false

/-! ### Conditions -/

variable {ask : Ask} {late : Bool} {a : Action}

theorem Ask.met_all (hall : ask.all = true) (bits : Bits) :
    ask.met bits = true ↔ ∀ i, ask.mask.getLsbD i = true → bits.getLsbD i = true := by
  rw [Ask.met, if_pos hall, beq_iff_eq, BitVec.eq_of_getLsbD_eq_iff]
  constructor
  · intro heq i hi
    have hlt : i < 32 := BitVec.lt_of_getLsbD hi
    have hbit := heq i hlt
    rw [BitVec.getLsbD_and, hi, Bool.and_true] at hbit
    exact hbit
  · intro hsub i hlt
    rw [BitVec.getLsbD_and]
    cases hi : ask.mask.getLsbD i with
    | false => rw [Bool.and_false]
    | true => rw [hsub i hi, Bool.and_true]

theorem Ask.met_any (hany : ask.all = false) (bits : Bits) :
    ask.met bits = true ↔ ∃ i, ask.mask.getLsbD i = true ∧ bits.getLsbD i = true := by
  rw [Ask.met, hany, if_neg (by simp), bne_iff_ne, ne_eq, BitVec.eq_of_getLsbD_eq_iff]
  constructor
  · intro hne
    simp only [BitVec.getLsbD_and, not_forall] at hne
    obtain ⟨i, -, hi⟩ := hne
    have hboth : bits.getLsbD i = true ∧ ask.mask.getLsbD i = true := by simpa using hi
    exact ⟨i, hboth.2, hboth.1⟩
  · rintro ⟨i, hmask, hbit⟩ hzero
    have hnone := hzero i (BitVec.lt_of_getLsbD hmask)
    rw [BitVec.getLsbD_and, hmask, hbit] at hnone
    simp at hnone

/-- More bits meet what fewer bits meet. -/
theorem Ask.met_mono {bits bits' : Bits}
    (hsub : ∀ i, bits.getLsbD i = true → bits'.getLsbD i = true) (hmet : ask.met bits = true) :
    ask.met bits' = true := by
  cases hall : ask.all with
  | true =>
    rw [Ask.met_all hall] at hmet ⊢
    exact fun i hi => hsub i (hmet i hi)
  | false =>
    rw [Ask.met_any hall] at hmet ⊢
    obtain ⟨i, hmask, hbit⟩ := hmet
    exact ⟨i, hmask, hsub i hbit⟩

theorem getLsbD_clear (bits mask : Bits) (i : Nat) :
    (bits &&& ~~~mask).getLsbD i = (bits.getLsbD i && !mask.getLsbD i) := by
  rw [BitVec.getLsbD_and, BitVec.getLsbD_not]
  cases hbit : bits.getLsbD i with
  | false => rfl
  | true => rw [decide_eq_true (BitVec.lt_of_getLsbD hbit), Bool.true_and]

/-- A condition that is not met stays so when bits are cleared. -/
theorem Ask.unmet_clear {bits : Bits} (mask : Bits) (hunmet : ask.met bits = false) :
    ask.met (bits &&& ~~~mask) = false := by
  rw [Bool.eq_false_iff] at hunmet ⊢
  refine mt (Ask.met_mono ?_) hunmet
  intro i hi
  rw [getLsbD_clear, Bool.and_eq_true] at hi
  exact hi.1

/-! ### Nobody sleeps through a set -/

/-- No sleeper has what it waits for. -/
def Unmet (g : Group) : Prop := ∀ c ∈ g.cond.asleep, c.ask.met g.bits = false

variable {g t : Group} {c : Caller}

/-- The bits after a pass are some of those before. -/
theorem Unmet.pass (h : Unmet g) (c : Caller) : Unmet (g.pass c) := by
  intro x hx
  show x.ask.met (if c.ask.clear then g.bits &&& ~~~c.ask.mask else g.bits) = false
  split
  · exact Ask.unmet_clear _ (h x hx)
  · exact h x hx

theorem Unmet.turn (h : Unmet g) (c : Caller) : Unmet (g.turn c) := by
  rw [Group.turn]
  split
  · exact h.pass c
  next hunmet =>
    intro x hx
    rcases List.mem_append.mp hx with hx | hx
    · exact h x hx
    · rw [List.mem_singleton.mp hx]
      exact Bool.eq_false_iff.mpr hunmet

theorem Unmet.enter (h : Unmet g) (id : Nat) (ask : Ask) (wait : Wait) :
    Unmet (g.enter id ask wait) := by
  cases wait with
  | zero =>
    show Unmet (if ask.met g.bits then g.pass _ else g.answer _ g.bits false)
    split
    · exact h.pass _
    · exact h
  | limited clock =>
    cases clock with
    | false => exact h
    | true => exact h.turn _
  | forever => exact h.turn _

/-- After a broadcast nobody sleeps. -/
theorem unmet_put (g : Group) (mask : Bits) : Unmet (g.put mask) :=
  fun _ hx => absurd hx List.not_mem_nil

theorem drop_cases (ht : g.drop c late = some t) :
    c ∈ g.cond.callers ∧ (late = false → c ∈ g.cond.asleep) ∧ t.bits = g.bits ∧
      t.sets = g.sets ∧ t.answers = g.answers ∧
      (∀ x ∈ t.cond.asleep, x ∈ g.cond.asleep) ∧ ∀ x ∈ t.cond.callers, x ∈ g.cond.callers := by
  cases late with
  | true =>
    obtain ⟨hc, ht⟩ := Option.ite_none_right_eq_some.mp ht
    obtain rfl := Option.some.inj ht
    exact ⟨List.mem_append_right _ hc, (fun hlate => by cases hlate), rfl, rfl, rfl,
      fun x hx => hx, fun x hx => CondVar.mem_of_mem_resume hx⟩
  | false =>
    obtain ⟨hc, ht⟩ := Option.ite_none_right_eq_some.mp ht
    obtain rfl := Option.some.inj ht
    exact ⟨List.mem_append_left _ hc, fun _ => hc, rfl, rfl, rfl,
      fun x hx => List.mem_of_mem_erase hx, fun x hx => CondVar.mem_of_mem_leave hx⟩

theorem step_wake (ht : step g (.wake c) = some t) :
    c ∈ g.cond.asleep ∧ t = { g with cond := g.cond.wake c } := by
  rw [step, Option.ite_none_right_eq_some] at ht
  exact ⟨ht.1, (Option.some.inj ht.2).symm⟩

theorem step_resume (ht : step g (.resume c) = some t) :
    c ∈ g.cond.woken ∧ t = { g with cond := g.cond.resume c }.turn c := by
  rw [step, Option.ite_none_right_eq_some] at ht
  exact ⟨ht.1, (Option.some.inj ht.2).symm⟩

theorem step_timeout (ht : step g (.timeout c late) = some t) :
    ∃ u, g.drop c late = some u ∧ u.answer c u.bits false = t := by
  rw [step, Option.ite_none_right_eq_some] at ht
  exact Option.map_eq_some_iff.mp ht.2

theorem Unmet.drop (h : Unmet g) (ht : g.drop c late = some t) : Unmet t := by
  obtain ⟨-, -, hbits, -, -, hsub, -⟩ := drop_cases ht
  intro x hx
  rw [hbits]
  exact h x (hsub x hx)

/-- Each step keeps it. -/
theorem Unmet.step (h : Unmet g) (ht : PosixEventGroup.step g a = some t) : Unmet t := by
  cases a with
  | waitBits id ask wait lock =>
    obtain rfl := Option.some.inj ht
    cases lock with
    | false => exact h
    | true => exact h.enter id ask wait
  | setBits mask lock =>
    obtain rfl := Option.some.inj ht
    cases lock with
    | false => exact h
    | true => exact unmet_put g mask
  | clearBits mask lock =>
    obtain rfl := Option.some.inj ht
    cases lock with
    | false => exact h
    | true => exact fun x hx => Ask.unmet_clear mask (h x hx)
  | sync id bitsToSet mask wait lock =>
    obtain rfl := Option.some.inj ht
    cases lock with
    | false => exact h
    | true => exact (unmet_put g bitsToSet).enter id _ wait
  | wake c =>
    obtain ⟨-, rfl⟩ := step_wake ht
    exact fun x hx => h x (List.mem_of_mem_erase hx)
  | resume c =>
    obtain ⟨-, rfl⟩ := step_resume ht
    have hresumed : Unmet { g with cond := g.cond.resume c } := h
    exact hresumed.turn c
  | timeout c late =>
    obtain ⟨u, hu, rfl⟩ := step_timeout ht
    have hdrop : Unmet u := h.drop hu
    exact hdrop
  | fail c late =>
    obtain ⟨u, hu, rfl⟩ := Option.map_eq_some_iff.mp ht
    have hdrop : Unmet u := h.drop hu
    exact hdrop

/-- **Nobody sleeps through a set.** In every run, the bits do not meet the condition of a caller
that sleeps. So when no woken caller is on its way, nobody waits for bits that are there. -/
theorem asleep_unmet (h : Reach (· = {}) step (fun _ _ => True) g) :
    (∀ c ∈ g.cond.asleep, c.ask.met g.bits = false) ∧
      (g.cond.woken = [] → ∀ c ∈ g.cond.callers, c.ask.met g.bits = false) := by
  have hunmet : Unmet g := by
    refine h.inv Unmet ?_ ?_
    · rintro g rfl
      exact fun c hc => absurd hc List.not_mem_nil
    · intro g a t hg _ ht
      exact hg.step ht
  refine ⟨hunmet, ?_⟩
  intro hrest c hc
  rw [CondVar.callers, hrest, List.append_nil] at hc
  exact hunmet c hc

/-- Two parties meet: each sets its bit and waits for both. -/
def rendezvous : List Action :=
  [.sync 1 1 3 .forever true, .sync 2 2 3 .forever true,
    .resume ⟨1, ⟨3, true, true⟩, .forever, 1⟩]

theorem asleep_unmet_rendezvous : ∃ g, exec step {} rendezvous = some g ∧
    g.cond.asleep ≠ [] ∧ (∀ c ∈ g.cond.asleep, c.ask.met g.bits = false) ∧
    (g.cond.woken = [] → ∀ c ∈ g.cond.callers, c.ask.met g.bits = false) :=
  ⟨_, rfl, by decide, asleep_unmet (Reach.exec_true rendezvous (.start rfl) rfl)⟩

/-! ### What the returned bits mean -/

/-- The calls get the mutex and the clock, and no time limit ends on a caller that was woken. -/
def Smooth (_ : Group) : Action → Prop
  | .waitBits _ _ wait lock | .sync _ _ _ wait lock => lock = true ∧ wait ≠ .limited false
  | .timeout _ late => late = false
  | .setBits .. | .clearBits .. | .wake _ | .resume _ | .fail .. => True

instance (g : Group) : ∀ a, Decidable (Smooth g a)
  | .waitBits _ _ wait lock | .sync _ _ _ wait lock =>
    inferInstanceAs (Decidable (lock = true ∧ wait ≠ .limited false))
  | .timeout _ late => inferInstanceAs (Decidable (late = false))
  | .setBits .. | .clearBits .. | .wake _ | .resume _ | .fail .. =>
    inferInstanceAs (Decidable True)

/-- The returns so far tell the truth, and those who wait have nothing to tell yet. -/
structure Honest (g : Group) : Prop where
  unmet : Unmet g
  before : ∀ c ∈ g.cond.callers, c.ask.met c.before = false
  answers : ∀ r ∈ g.answers, r.passed = r.ask.met r.bits

section
variable (h : Honest g)
include h

theorem Honest.answer {bits : Bits} {passed : Bool} (hpassed : passed = c.ask.met bits) :
    Honest (g.answer c bits passed) := by
  refine ⟨h.unmet, h.before, ?_⟩
  intro r hr
  rcases List.mem_cons.mp hr with rfl | hr
  · exact hpassed
  · exact h.answers r hr

theorem Honest.pass (hmet : c.ask.met g.bits = true) : Honest (g.pass c) := by
  refine ⟨h.unmet.pass c, h.before, ?_⟩
  intro r hr
  rcases List.mem_cons.mp hr with rfl | hr
  · exact hmet.symm
  · exact h.answers r hr

theorem Honest.turn (hbefore : c.ask.met g.bits = false → c.ask.met c.before = false) :
    Honest (g.turn c) := by
  have hunmet := h.unmet.turn c
  rw [Group.turn] at hunmet ⊢
  split
  next hmet => exact h.pass hmet
  next hmet =>
    rw [if_neg hmet] at hunmet
    refine ⟨hunmet, ?_, h.answers⟩
    intro x hx
    rcases CondVar.mem_of_mem_sleep hx with rfl | hx
    · exact hbefore (Bool.eq_false_iff.mpr hmet)
    · exact h.before x hx

theorem Honest.enter (id : Nat) (ask : Ask) {wait : Wait} (hclock : wait ≠ .limited false) :
    Honest (g.enter id ask wait) := by
  cases wait with
  | zero =>
    show Honest (if ask.met g.bits then g.pass _ else g.answer _ g.bits false)
    split
    next hmet => exact h.pass hmet
    next hmet => exact h.answer (Bool.eq_false_iff.mpr hmet).symm
  | limited clock =>
    cases clock with
    | false => exact absurd rfl hclock
    | true => exact h.turn fun hunmet => hunmet
  | forever => exact h.turn fun hunmet => hunmet

theorem Honest.put (mask : Bits) : Honest (g.put mask) := by
  refine ⟨unmet_put g mask, ?_, h.answers⟩
  intro x hx
  refine h.before x ?_
  show x ∈ g.cond.asleep ++ g.cond.woken
  have hx : x ∈ g.cond.woken ++ g.cond.asleep := hx
  exact List.perm_append_comm.mem_iff.mp hx

theorem Honest.drop (ht : g.drop c late = some t) : Honest t := by
  obtain ⟨-, -, -, -, hanswers, -, hsub⟩ := drop_cases ht
  refine ⟨h.unmet.drop ht, fun x hx => h.before x (hsub x hx), ?_⟩
  rw [hanswers]
  exact h.answers

/-- Each smooth step keeps it. -/
theorem Honest.step (hsmooth : Smooth g a) (ht : PosixEventGroup.step g a = some t) : Honest t := by
  cases a with
  | waitBits id ask wait lock =>
    obtain rfl := Option.some.inj ht
    obtain ⟨rfl, hclock⟩ := hsmooth
    exact h.enter id ask hclock
  | setBits mask lock =>
    obtain rfl := Option.some.inj ht
    cases lock with
    | false => exact h
    | true => exact h.put mask
  | clearBits mask lock =>
    have hunmet := h.unmet.step ht
    obtain rfl := Option.some.inj ht
    cases lock with
    | false => exact h
    | true => exact ⟨hunmet, h.before, h.answers⟩
  | sync id bitsToSet mask wait lock =>
    obtain rfl := Option.some.inj ht
    obtain ⟨rfl, hclock⟩ := hsmooth
    exact (h.put bitsToSet).enter id _ hclock
  | wake c =>
    have hunmet := h.unmet.step ht
    obtain ⟨hc, rfl⟩ := step_wake ht
    exact ⟨hunmet, fun x hx => h.before x ((CondVar.callers_wake hc).mem_iff.mp hx), h.answers⟩
  | resume c =>
    obtain ⟨hc, rfl⟩ := step_resume ht
    have hbefore := h.before c (List.mem_append_right _ hc)
    have hresumed : Honest { g with cond := g.cond.resume c } :=
      ⟨h.unmet, fun x hx => h.before x (CondVar.mem_of_mem_resume hx), h.answers⟩
    exact hresumed.turn fun _ => hbefore
  | timeout c late =>
    obtain ⟨u, hu, rfl⟩ := step_timeout ht
    -- the caller still slept, so the bits do not meet its condition
    obtain ⟨-, hasleep, hbits, -⟩ := drop_cases hu
    have hunmet := h.unmet c (hasleep hsmooth)
    rw [← hbits] at hunmet
    exact (h.drop hu).answer hunmet.symm
  | fail c late =>
    obtain ⟨u, hu, rfl⟩ := Option.map_eq_some_iff.mp ht
    have hbefore := h.before c (drop_cases hu).1
    exact (h.drop hu).answer hbefore.symm

end

/-- **The returned bits tell who passed.** In every smooth run, a call that waited has passed its
loop exactly if the bits that it returned meet its condition. -/
theorem passed_iff_met (h : Reach (· = {}) step Smooth g) :
    ∀ r ∈ g.answers, r.passed = true ↔ r.ask.met r.bits = true := by
  have hhonest : Honest g := by
    refine h.inv Honest ?_ ?_
    · rintro g rfl
      exact ⟨fun c hc => absurd hc List.not_mem_nil, fun c hc => absurd hc List.not_mem_nil,
        fun r hr => absurd hr List.not_mem_nil⟩
    · intro g a t hg hsmooth ht
      exact hg.step hsmooth ht
  intro r hr
  rw [hhonest.answers r hr]

/-- One party passes, and the other one runs out of time. -/
def halfMet : List Action :=
  [.sync 1 1 3 (.limited true) true, .sync 2 2 3 .forever true,
    .resume ⟨1, ⟨3, true, true⟩, .limited true, 1⟩,
    .timeout ⟨1, ⟨3, true, true⟩, .limited true, 1⟩ false]

theorem passed_iff_met_halfMet : ∃ g, exec step {} halfMet = some g ∧
    g.answers.map (·.passed) = [false, true] ∧
    ∀ r ∈ g.answers, r.passed = true ↔ r.ask.met r.bits = true :=
  ⟨_, rfl, rfl, passed_iff_met (Reach.exec halfMet (.start rfl) (by decide) rfl)⟩

/-- When the clock fails, a call returns bits that meet its condition and does not clear them. -/
example : ((exec step {} [.setBits 1 true, .waitBits 1 ⟨1, true, true⟩ (.limited false) true]).map
    fun g => (g.bits, g.answers.map fun r => (r.passed, r.ask.met r.bits))) =
      some (1, [(false, true)]) := by
  decide

/-! ### A set lets one call through -/

/-- The call has passed and cleared the bit. -/
def Returned.took (r : Returned) (i : Nat) : Bool :=
  r.passed && r.ask.clear && r.ask.mask.getLsbD i && r.bits.getLsbD i

/-- Each set of a bit is there for one call to take. -/
structure Paid (g : Group) : Prop where
  bit : ∀ i, g.answers.countP (·.took i) + (g.bits.getLsbD i).toNat ≤ g.sets.countP (·.getLsbD i)
  met : ∀ r ∈ g.answers, r.passed = true → r.ask.met r.bits = true

section
variable (h : Paid g)
include h

theorem Paid.answer (c : Caller) (bits : Bits) : Paid (g.answer c bits false) := by
  refine ⟨?_, ?_⟩
  · intro i
    have hbit := h.bit i
    show (Returned.mk c.id c.ask bits false :: g.answers).countP (·.took i) + _ ≤ _
    rw [List.countP_cons_of_neg (by simp [Returned.took])]
    exact hbit
  · intro r hr hpassed
    rcases List.mem_cons.mp hr with rfl | hr
    · cases hpassed
    · exact h.met r hr hpassed

/-- A pass that clears a bit uses up the set of the bit. -/
theorem Paid.pass (hmet : c.ask.met g.bits = true) : Paid (g.pass c) := by
  refine ⟨?_, ?_⟩
  · intro i
    have hbit := h.bit i
    show (Returned.mk c.id c.ask g.bits true :: g.answers).countP (·.took i) +
      ((if c.ask.clear then g.bits &&& ~~~c.ask.mask else g.bits).getLsbD i).toNat ≤
        g.sets.countP (·.getLsbD i)
    cases hclear : c.ask.clear with
    | false =>
      rw [List.countP_cons_of_neg (by simp [Returned.took, hclear])]
      exact hbit
    | true =>
      rw [if_pos rfl, getLsbD_clear]
      cases hi : g.bits.getLsbD i && c.ask.mask.getLsbD i with
      | false =>
        rw [List.countP_cons_of_neg]
        · refine Nat.le_trans (Nat.add_le_add_left ?_ _) hbit
          cases g.bits.getLsbD i <;> cases c.ask.mask.getLsbD i <;> decide
        · simp only [Returned.took, Bool.and_eq_true, not_and]
          intro hmask hset
          rw [hset, hmask.2] at hi
          cases hi
      | true =>
        obtain ⟨hset, hmask⟩ := Bool.and_eq_true_iff.mp hi
        rw [List.countP_cons_of_pos (by simp [Returned.took, hclear, hset, hmask]), hset, hmask]
        rw [hset] at hbit
        exact hbit
  · intro r hr hpassed
    rcases List.mem_cons.mp hr with rfl | hr
    · exact hmet
    · exact h.met r hr hpassed

theorem Paid.onCond (cond : CondVar Caller) : Paid { g with cond := cond } :=
  ⟨h.bit, h.met⟩

theorem Paid.turn (c : Caller) : Paid (g.turn c) := by
  rw [Group.turn]
  split
  next hmet => exact h.pass hmet
  next => exact h.onCond _

theorem Paid.enter (id : Nat) (ask : Ask) (wait : Wait) : Paid (g.enter id ask wait) := by
  cases wait with
  | zero =>
    show Paid (if ask.met g.bits then g.pass _ else g.answer _ g.bits false)
    split
    next hmet => exact h.pass hmet
    next => exact h.answer _ g.bits
  | limited clock =>
    cases clock with
    | false => exact h.answer _ _
    | true => exact h.turn _
  | forever => exact h.turn _

/-- A set pays for each of its bits, also for one that is set already. -/
theorem Paid.put (mask : Bits) : Paid (g.put mask) := by
  refine ⟨?_, h.met⟩
  intro i
  have hbit := h.bit i
  show g.answers.countP (·.took i) + ((g.bits ||| mask).getLsbD i).toNat ≤
    (mask :: g.sets).countP (·.getLsbD i)
  rw [List.countP_cons, BitVec.getLsbD_or]
  cases hmask : mask.getLsbD i with
  | false => simpa using hbit
  | true =>
    have hone : (g.bits.getLsbD i || true).toNat = 1 := by rw [Bool.or_true]; rfl
    rw [hone, if_pos rfl]
    omega

theorem Paid.clear (mask : Bits) : Paid { g with bits := g.bits &&& ~~~mask } := by
  refine ⟨?_, h.met⟩
  intro i
  refine Nat.le_trans (Nat.add_le_add_left ?_ _) (h.bit i)
  show ((g.bits &&& ~~~mask).getLsbD i).toNat ≤ (g.bits.getLsbD i).toNat
  rw [getLsbD_clear]
  cases g.bits.getLsbD i <;> cases mask.getLsbD i <;> decide

theorem Paid.drop (ht : g.drop c late = some t) : Paid t := by
  obtain ⟨-, -, hbits, hsets, hanswers, -⟩ := drop_cases ht
  refine ⟨?_, ?_⟩
  · intro i
    rw [hbits, hsets, hanswers]
    exact h.bit i
  · rw [hanswers]
    exact h.met

/-- Each step keeps it. -/
theorem Paid.step (ht : PosixEventGroup.step g a = some t) : Paid t := by
  cases a with
  | waitBits id ask wait lock =>
    obtain rfl := Option.some.inj ht
    cases lock with
    | false => exact h.answer _ 0
    | true => exact h.enter id ask wait
  | setBits mask lock =>
    obtain rfl := Option.some.inj ht
    cases lock with
    | false => exact h
    | true => exact h.put mask
  | clearBits mask lock =>
    obtain rfl := Option.some.inj ht
    cases lock with
    | false => exact h
    | true => exact h.clear mask
  | sync id bitsToSet mask wait lock =>
    obtain rfl := Option.some.inj ht
    cases lock with
    | false => exact h.answer _ 0
    | true => exact (h.put bitsToSet).enter id _ wait
  | wake c =>
    obtain ⟨-, rfl⟩ := step_wake ht
    exact h.onCond _
  | resume c =>
    obtain ⟨-, rfl⟩ := step_resume ht
    exact (h.onCond _).turn c
  | timeout c late =>
    obtain ⟨u, hu, rfl⟩ := step_timeout ht
    exact (h.drop hu).answer c u.bits
  | fail c late =>
    obtain ⟨u, hu, rfl⟩ := Option.map_eq_some_iff.mp ht
    exact (h.drop hu).answer c c.before

end

/-- **A set lets one call through.** In every run and for every bit, the calls that waited for all
of a mask with this bit, passed, and cleared it are at most as many as the sets of the bit. Where
every party of a rendezvous sets its bit once, one party passes. -/
theorem passes_le_sets (h : Reach (· = {}) step (fun _ _ => True) g) (i : Nat) :
    g.answers.countP (fun r => r.passed && r.ask.clear && r.ask.all && r.ask.mask.getLsbD i) ≤
      g.sets.countP (·.getLsbD i) := by
  have hpaid : Paid g := by
    refine h.inv Paid ?_ ?_
    · rintro g rfl
      refine ⟨?_, fun r hr => absurd hr List.not_mem_nil⟩
      intro i
      show 0 + ((0 : Bits).getLsbD i).toNat ≤ 0
      simp
    · intro g a t hg _ ht
      exact hg.step ht
  have htook : g.answers.countP (fun r => r.passed && r.ask.clear && r.ask.all &&
      r.ask.mask.getLsbD i) ≤ g.answers.countP (·.took i) := by
    refine List.countP_mono_left ?_
    intro r hr hpass
    simp only [Bool.and_eq_true] at hpass
    obtain ⟨⟨⟨hpassed, hclear⟩, hall⟩, hmask⟩ := hpass
    -- a call that waits for all finds each bit of its mask
    have hbit := (Ask.met_all hall r.bits).mp (hpaid.met r hr hpassed) i hmask
    simp [Returned.took, hpassed, hclear, hmask, hbit]
  have hbit := hpaid.bit i
  omega

theorem passes_le_sets_rendezvous : ∃ g, exec step {} rendezvous = some g ∧
    g.sets.countP (·.getLsbD 0) = 1 ∧
    g.answers.countP (fun r => r.passed && r.ask.clear && r.ask.all && r.ask.mask.getLsbD 0) ≤
      g.sets.countP (·.getLsbD 0) :=
  ⟨_, rfl, rfl, passes_le_sets (Reach.exec_true rendezvous (.start rfl) rfl) 0⟩

/-- The second party has passed and cleared the bits, and the first one sleeps on. -/
example : ((exec step {} rendezvous).map fun g =>
    (g.bits, g.answers.map (·.id), g.cond.asleep.map (·.id))) = some (0, [2], [1]) := by
  decide

end RainMakerNeo.Osal.PosixEventGroup
