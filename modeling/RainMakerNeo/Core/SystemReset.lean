import RainMakerNeo.Lib.Heap
import RainMakerNeo.Lib.Run
import Mathlib.Data.List.Nodup
import Mathlib.Logic.Function.Basic

/-!
# `RainMakerNeo.Core.SystemReset`: delayed resets and their data

A delayed network, factory or data reset has a block with its reset function and its reboot delay.
The task of the reset gets the block as its argument when it is created, and frees it when it has
run. Each kind of reset has one task handle. `__schedule_task` creates the task for the first
request and only arms the timer again for each later one. So the block of a later request is lost,
and the task runs with the block of the first one, which it may have freed before.

`Good` is the contract. `resets_good_iff` says which steps keep it: a delayed reset must find no
task of its kind, and the scheduler must take it. A reboot needs no block, so it has no such
condition.

`promise` and the data in an `Execution` are what the requests asked for. No function reads them.
-/

set_option autoImplicit false

namespace RainMakerNeo.Core.SystemReset

open RainMakerNeo.Lib

/-! ### The state -/

/-- The resets that have a block. -/
inductive Kind
  | network
  | factory
  | data
  deriving DecidableEq, Repr

/-- `__system_ctrl_reset_data_t`. A function pointer is a number. -/
structure ResetData where
  resetRebootS : Int8
  networkResetFn : Option Nat
  deriving DecidableEq

/-- A task of the scheduler. The handle has the argument of the task. The timer is armed with a
delay in milliseconds. -/
structure Timer (α : Type) where
  handle : Option α := none
  due : Option Nat := none
  deriving DecidableEq

/-- What the requests asked for: the data and the delay of the latest one that returned
`ESP_RMAKER_OK`, and whether it has yet to take effect. -/
structure Promise (β : Type) where
  latest : Option (β × Nat) := none
  owed : Bool := false
  deriving DecidableEq

/-- A reset that runs, in its task or in the call that asked for it. `data` is what it was asked to
run with. -/
structure Execution where
  kind : Kind
  block : Nat
  data : Option ResetData
  deriving DecidableEq

/-- An access to a block. -/
inductive Event
  /-- A reset reads its block, `none` if the block is freed. -/
  | use (k : Kind) (read : Option ResetData) (data : Option ResetData)
  | free (live : Bool)
  deriving DecidableEq

/-- The access is to a live block, and a reset reads the data that it was asked to run with. -/
def Event.Sound : Event → Prop
  | .use _ read data => read.isSome ∧ read = data
  | .free live => live = true

instance : DecidablePred Event.Sound
  | Event.use _ _ _ => inferInstanceAs (Decidable (_ ∧ _))
  | Event.free _ => inferInstanceAs (Decidable (_ = _))

structure State where
  /-- `g_network_reset_fn`. -/
  networkResetFn : Option Nat := none
  heap : Heap ResetData := .empty
  timer : Kind → Timer Nat := fun _ => {}
  promise : Kind → Promise ResetData := fun _ => {}
  rebootTimer : Timer Unit := {}
  rebootPromise : Promise Unit := {}
  running : List Execution := []
  log : List Event := []

/-! ### The functions -/

/-- What the scheduler does in `__schedule_task`. -/
inductive Sched
  | ok
  | initFails
  /-- The call fails. A failed reset may have stopped the timer. -/
  | fails (stops : Bool)
  deriving DecidableEq, Repr

/-- `__schedule_task`. The flag says whether it returns `ESP_RMAKER_OK`. -/
def Timer.scheduleTask {α : Type} (t : Timer α) (timeoutS : UInt8) (arg : α) (env : Sched) :
    Timer α × Bool :=
  let timeoutMs := timeoutS.toNat * 1000
  match env with
  | .initFails => (t, false)
  | .ok =>
    match t.handle with
    -- a task that is there gets a new time, and `arg` is dropped
    | some _ => ({ t with due := some timeoutMs }, true)
    | none => ({ handle := some arg, due := some timeoutMs }, true)
  | .fails stops =>
    match t.handle with
    | some _ => ({ t with due := if stops then none else t.due }, false)
    | none => (t, false)

/-- A request with its outcome. -/
def Promise.request {β : Type} (p : Promise β) (data : β) (timeoutS : UInt8) (ok : Bool) :
    Promise β :=
  if ok then { latest := some (data, timeoutS.toNat * 1000), owed := true }
  else { p with owed := false }

/-- A reboot of the node. -/
def State.restart (s : State) : State := { log := s.log }

/-- `esp_rmaker_system_ctrl_reboot`. The flag says that the node reboots at once. -/
def State.reboot (s : State) (timeoutS : UInt8) (env : Sched) (reboots : Bool) : State × Bool :=
  if 0 < timeoutS then
    let (t, ok) := s.rebootTimer.scheduleTask timeoutS () env
    ({ s with rebootTimer := t, rebootPromise := s.rebootPromise.request () timeoutS ok }, false)
  else if reboots then (s.restart, true)
  else (s, false)

/-- An access to a block. -/
def State.note (s : State) (e : Event) : State := { s with log := s.log ++ [e] }

/-- A reset starts. A network and a factory reset read the reset function from the block. -/
def State.start (s : State) (e : Execution) : State :=
  let s := { s with running := s.running ++ [e] }
  if e.kind = .data then s
  else s.note (.use e.kind (s.heap.load e.block) e.data)

/-- `free(reset_data)`, with which the reset ends. -/
def State.release (s : State) (e : Execution) : State :=
  let s := { s with running := s.running.erase e }
  match s.heap.free e.block with
  | some heap => { s with heap }.note (.free true)
  | none => s.note (.free false)

/-- The rest of `__system_ctrl_network_reset_task`, `__system_ctrl_factory_reset_task` or
`__system_ctrl_data_reset_task`. Only a network reset stops at a failed reset function. -/
def State.finish (s : State) (e : Execution) (fnOk : Bool) (env : Sched) (reboots : Bool) : State :=
  if e.kind = .network ∧ fnOk = false then s.release e
  else
    let read := s.heap.load e.block
    let s := s.note (.use e.kind read e.data)
    match read.filter fun d => 0 ≤ d.resetRebootS with
    | none => s.release e
    | some d =>
      match s.reboot d.resetRebootS.toUInt8 env reboots with
      -- the node is gone before the block is freed
      | (s, true) => s
      | (s, false) => s.release e

/-- A call of `esp_rmaker_system_ctrl_network_reset`, `esp_rmaker_system_ctrl_factory_reset` or
`esp_rmaker_system_ctrl_data_reset`. -/
structure Request where
  kind : Kind
  resetS : UInt8
  resetRebootS : Int8
  networkResetFn : Option Nat := none
  allocates : Bool := true
  env : Sched := .ok
  deriving DecidableEq

/-- The data of the block, `none` if a reset function is missing or there is no memory. -/
def State.createResetData (s : State) (r : Request) : Option ResetData :=
  match r.kind, r.networkResetFn.or s.networkResetFn with
  | .data, _ => if r.allocates then some ⟨r.resetRebootS, none⟩ else none
  | _, none => none
  | _, some fn => if r.allocates then some ⟨r.resetRebootS, some fn⟩ else none

/-- The three request functions. -/
def State.request (s : State) (r : Request) : State :=
  match s.createResetData r with
  | none => s
  | some d =>
    let (heap, p) := s.heap.alloc d
    if 0 < r.resetS then
      let (t, ok) := (s.timer r.kind).scheduleTask r.resetS p r.env
      { s with
        heap
        timer := Function.update s.timer r.kind t
        promise := Function.update s.promise r.kind ((s.promise r.kind).request d r.resetS ok) }
    else { s with heap }.start { kind := r.kind, block := p, data := some d }

/-- What happens on the node. -/
inductive Action
  /-- `esp_rmaker_system_ctrl_register_network_reset_fn`. -/
  | register (fn : Option Nat)
  | request (r : Request)
  | reboot (timeoutS : UInt8) (env : Sched) (reboots : Bool)
  /-- The timer of a reset fires. -/
  | expire (k : Kind)
  /-- The timer of the reboot fires. -/
  | expireReboot (reboots : Bool)
  /-- A running reset comes to its end. -/
  | finish (i : Nat) (fnOk : Bool) (env : Sched) (reboots : Bool)

/-- One step of the node. -/
def step (s : State) : Action → Option State
  | .register fn => some { s with networkResetFn := fn }
  | .request r => some (s.request r)
  | .reboot timeoutS env reboots => some (s.reboot timeoutS env reboots).1
  | .expire k =>
    match s.timer k with
    -- the handle stays, so the task is there for the next request
    | { handle := some p, due := some _ } =>
      some ({ s with
        timer := Function.update s.timer k { handle := some p, due := none }
        promise := Function.update s.promise k { s.promise k with owed := false } }.start
          { kind := k, block := p, data := (s.promise k).latest.map Prod.fst })
    | _ => none
  | .expireReboot reboots =>
    match s.rebootTimer.due with
    | none => none
    | some _ =>
      if reboots then some s.restart
      else some { s with
        rebootTimer := { s.rebootTimer with due := none }
        rebootPromise := { s.rebootPromise with owed := false } }
  | .finish i fnOk env reboots =>
    (s.running[i]?).map fun e => s.finish e fnOk env reboots

/-! ### The contract -/

/-- A task does what the requests asked for. A request that has yet to take effect has its timer
armed, and an armed timer has the delay and the data of the latest request. -/
structure Kept {α β : Type} (t : Timer α) (p : Promise β) (has : α → β → Prop) : Prop where
  armed : p.owed = true → t.due.isSome
  latest : ∀ ms, t.due = some ms → ∃ a d, t.handle = some a ∧ p.latest = some (d, ms) ∧ has a d

theorem Kept_iff {α β : Type} {t : Timer α} {p : Promise β} {has : α → β → Prop} :
    Kept t p has ↔ (p.owed = true → t.due.isSome) ∧
      ∀ ms, t.due = some ms → ∃ a d, t.handle = some a ∧ p.latest = some (d, ms) ∧ has a d :=
  ⟨fun h => ⟨h.armed, h.latest⟩, fun h => ⟨h.1, h.2⟩⟩

/-- The timer of a reset is armed, with a block as the argument of its task. -/
def Armed (timer : Kind → Timer Nat) (k : Kind) (p : Nat) : Prop :=
  (timer k).handle = some p ∧ (timer k).due.isSome

/-- The contract of the delayed requests. -/
structure Good (s : State) : Prop where
  /-- Each reset has read its own data from a live block, and each free was of a live block. -/
  sound : ∀ e ∈ s.log, e.Sound
  reset : ∀ k, Kept (s.timer k) (s.promise k) fun p d => s.heap.load p = some d
  reboot : Kept s.rebootTimer s.rebootPromise fun _ _ => True
  /-- Each block that is not freed belongs to a reset that will run or runs, which will free it. -/
  owned : ∀ p, s.heap.Live p → (∃ k, Armed s.timer k p) ∨ p ∈ s.running.map Execution.block

/-- Each delayed reset that gets its block is the first of its kind, and the scheduler takes it. -/
def Careful (s : State) : Action → Prop
  | .request r =>
    0 < r.resetS → s.createResetData r ≠ none → (s.timer r.kind).handle = none ∧ r.env = .ok
  | _ => True

instance (s : State) (a : Action) : Decidable (Careful s a) := by
  cases a <;> simp only [Careful] <;> infer_instance

/-- The contract, and what it rests on. -/
structure Inv (s : State) : Prop extends Good s where
  known : ∀ k p, (s.timer k).handle = some p → p < s.heap.blocks.length
  running : ∀ e ∈ s.running, e.data.isSome ∧ s.heap.load e.block = e.data
  nodup : (s.running.map Execution.block).Nodup
  apart : ∀ k p, Armed s.timer k p → p ∉ s.running.map Execution.block
  single : ∀ k k' p, Armed s.timer k p → Armed s.timer k' p → k = k'

variable {s : State} {e : Execution}

/-! ### One step -/

theorem Kept.mono {α β : Type} {t : Timer α} {p : Promise β} {has has' : α → β → Prop}
    (h : Kept t p has) (hhas : ∀ a d, t.handle = some a → t.due.isSome → has a d → has' a d) :
    Kept t p has' where
  armed := h.armed
  latest ms hms := by
    obtain ⟨a, d, ha, hd, had⟩ := h.latest ms hms
    exact ⟨a, d, ha, hd, hhas a d ha (by simp [hms]) had⟩

/-- Only the first call that goes well gives the task an argument. -/
theorem Timer.handle_scheduleTask {α : Type} (t : Timer α) (timeoutS : UInt8) (arg : α)
    (env : Sched) : (t.scheduleTask timeoutS arg env).1.handle
      = if t.handle = none ∧ env = .ok then some arg else t.handle := by
  obtain ⟨handle, due⟩ := t
  cases handle <;> cases env <;> simp [Timer.scheduleTask]

/-- A reboot task has no block, so it can be armed again for a later request. -/
theorem Kept.scheduleTask {t : Timer Unit} {p : Promise Unit} (h : Kept t p fun _ _ => True)
    (timeoutS : UInt8) (env : Sched) :
    Kept (t.scheduleTask timeoutS () env).1
      (p.request () timeoutS (t.scheduleTask timeoutS () env).2) fun _ _ => True := by
  -- a failed call owes nothing, and leaves the earlier request or stops it
  have hfailed : Kept t (p.request () timeoutS false) fun _ _ => True :=
    ⟨by simp [Promise.request], h.latest⟩
  obtain ⟨handle, due⟩ := t
  cases env with
  | initFails => exact hfailed
  | ok => cases handle <;> simp [Timer.scheduleTask, Promise.request, Kept_iff]
  | fails stops =>
    cases handle with
    | none => exact hfailed
    | some u =>
      cases stops with
      | true => simp [Timer.scheduleTask, Promise.request, Kept_iff]
      | false => exact hfailed

theorem Inv.note {ev : Event} (h : Inv s) (hev : ev.Sound) : Inv (s.note ev) where
  sound ev' hmem := by
    rcases List.mem_append.mp hmem with hmem | hmem
    · exact h.sound ev' hmem
    · exact List.mem_singleton.mp hmem ▸ hev
  reset := h.reset
  reboot := h.reboot
  owned := h.owned
  known := h.known
  running := h.running
  nodup := h.nodup
  apart := h.apart
  single := h.single

/-- A reset whose block no other one runs with can start. -/
theorem nodup_started {running : List Execution} (h : (running.map Execution.block).Nodup)
    (hnew : e.block ∉ running.map Execution.block) :
    ((running ++ [e]).map Execution.block).Nodup := by
  rw [List.map_append, List.nodup_append]
  refine ⟨h, by simp, fun q hq r hr heq => ?_⟩
  have hre : r = e.block := by simpa using hr
  exact hnew (hre ▸ heq ▸ hq)

/-- A reset that has started runs with the data that it was asked to run with. -/
theorem Inv.started (h : Inv { s with running := s.running ++ [e] }) : Inv (s.start e) := by
  have he : e.data.isSome ∧ s.heap.load e.block = e.data := h.running e (by simp)
  by_cases hk : e.kind = .data
  · simpa [State.start, hk] using h
  · simp only [State.start, hk, if_false]
    exact h.note ⟨he.2 ▸ he.1, he.2⟩

section
variable (h : Inv s)
include h

/-- A running reset frees its own block and no other. -/
theorem Inv.release (he : e ∈ s.running) : Inv (s.release e) := by
  have hdata := h.running e he
  have hlive : s.heap.Live e.block := by simpa [Heap.Live, hdata.2] using hdata.1
  obtain ⟨heap, hfree⟩ := Heap.exists_free hlive
  have hblock : e.block ∈ s.running.map Execution.block := List.mem_map_of_mem he
  have hmem (e' : Execution) : e' ∈ s.running.erase e ↔ e' ≠ e ∧ e' ∈ s.running :=
    (List.Nodup.of_map _ h.nodup).mem_erase_iff
  have hne (e' : Execution) (he' : e' ∈ s.running.erase e) : e'.block ≠ e.block := fun heq =>
    ((hmem e').mp he').1 (List.inj_on_of_nodup_map h.nodup ((hmem e').mp he').2 he heq)
  -- no other running reset and no armed task has this block
  have hsub : ((s.running.erase e).map Execution.block).Sublist (s.running.map Execution.block) :=
    List.erase_sublist.map _
  have hinv : Inv { s with running := s.running.erase e, heap } :=
    { sound := h.sound
      reset := fun k => (h.reset k).mono fun p d hp hdue hload => by
        have hpe : p ≠ e.block := fun heq => h.apart k p ⟨hp, hdue⟩ (heq ▸ hblock)
        rwa [Heap.load_free_of_ne hfree hpe]
      reboot := h.reboot
      owned := fun p hp => by
        have hpe : p ≠ e.block := by
          rintro rfl
          simp [Heap.Live, Heap.load_free_self hfree] at hp
        have hp' : s.heap.Live p := by rwa [Heap.Live, Heap.load_free_of_ne hfree hpe] at hp
        rcases h.owned p hp' with harmed | hrun
        · exact .inl harmed
        · obtain ⟨e', he', rfl⟩ := List.mem_map.mp hrun
          exact .inr (List.mem_map_of_mem ((hmem e').mpr ⟨fun heq => hpe (by rw [heq]), he'⟩))
      known := fun k p hp => by
        rw [Heap.length_free hfree]
        exact h.known k p hp
      running := fun e' he' => by
        rw [Heap.load_free_of_ne hfree (hne e' he')]
        exact h.running e' ((hmem e').mp he').2
      nodup := hsub.nodup h.nodup
      apart := fun k p hp hin => h.apart k p hp (hsub.subset hin)
      single := h.single }
  simp only [State.release, hfree]
  exact hinv.note rfl

theorem Inv.restart : Inv s.restart where
  sound := h.sound
  reset _ := by simp [State.restart, Kept_iff]
  reboot := by simp [State.restart, Kept_iff]
  owned p hp := by simp [State.restart, Heap.Live] at hp
  known k p hp := by simp [State.restart] at hp
  running := by simp [State.restart]
  nodup := by simp [State.restart]
  apart k p hp := by simp [State.restart]
  single k k' p hp := by simp [State.restart, Armed] at hp

theorem Inv.reboots (timeoutS : UInt8) (env : Sched) (reboots : Bool) :
    Inv (s.reboot timeoutS env reboots).1 := by
  unfold State.reboot
  split
  · exact
      { sound := h.sound
        reset := h.reset
        reboot := h.reboot.scheduleTask timeoutS env
        owned := h.owned
        known := h.known
        running := h.running
        nodup := h.nodup
        apart := h.apart
        single := h.single }
  · split
    · exact h.restart
    · exact h

/-- A reset that comes to its end reads its reboot delay before it frees its block. -/
theorem Inv.finish (he : e ∈ s.running) (fnOk : Bool) (env : Sched) (reboots : Bool) :
    Inv (s.finish e fnOk env reboots) := by
  have hdata := h.running e he
  have hnote : Inv (s.note (.use e.kind (s.heap.load e.block) e.data)) :=
    h.note ⟨hdata.2 ▸ hdata.1, hdata.2⟩
  unfold State.finish
  split
  · exact h.release he
  · dsimp only
    split
    · exact hnote.release he
    · next d _ =>
      have hreboot := hnote.reboots d.resetRebootS.toUInt8 env reboots
      split
      · next t heq => rwa [heq] at hreboot
      · next t heq =>
        rw [heq] at hreboot
        refine hreboot.release ?_
        -- a delayed or a failed reboot leaves the running resets
        have hrunning : t.running = s.running := by
          unfold State.reboot at heq
          split at heq
          · exact (congrArg State.running (Prod.mk.inj heq).1).symm
          · split at heq
            · simp at heq
            · exact (congrArg State.running (Prod.mk.inj heq).1).symm
        exact hrunning ▸ he

variable {p : Nat} {heap : Heap ResetData}

/-- The task of a reset starts with the block and the data of the latest request. -/
theorem Inv.expire {k : Kind} (hp : Armed s.timer k p) :
    Inv ({ s with
      timer := Function.update s.timer k { handle := some p, due := none }
      promise := Function.update s.promise k { s.promise k with owed := false } }.start
        { kind := k, block := p, data := (s.promise k).latest.map Prod.fst }) := by
  obtain ⟨hhandle, hdue⟩ := hp
  obtain ⟨ms, hms⟩ := Option.isSome_iff_exists.mp hdue
  obtain ⟨p', d, hp', hd, hload⟩ := (h.reset k).latest ms hms
  obtain rfl : p = p' := by simpa [hhandle] using hp'
  -- the other kinds are as before, and this one is no longer armed
  have hother {k' : Kind} {q : Nat}
      (hq : Armed (Function.update s.timer k { handle := some p, due := none }) k' q) :
      k' ≠ k ∧ Armed s.timer k' q := by
    by_cases hk : k' = k
    · subst hk
      simp [Armed] at hq
    · exact ⟨hk, by simpa [Armed, hk] using hq⟩
  apply Inv.started
  exact
    { sound := h.sound
      reset := fun k' => by
        by_cases hk : k' = k
        · subst hk
          simp [Kept_iff]
        · simpa [hk] using h.reset k'
      reboot := h.reboot
      owned := fun q hq => by
        by_cases hqp : q = p
        · exact .inr (by simp [hqp])
        · rcases h.owned q hq with ⟨k', hk'⟩ | hrun
          · have hne : k' ≠ k := by
              rintro rfl
              exact hqp (Option.some.inj (hk'.1.symm.trans hhandle))
            exact .inl ⟨k', by simpa [Armed, hne] using hk'⟩
          · exact .inr (by simp [List.mem_map.mp hrun])
      known := fun k' q hq => by
        by_cases hk : k' = k
        · subst hk
          exact h.known k' q (by simpa [hhandle] using hq)
        · exact h.known k' q (by simpa [hk] using hq)
      running := fun e he => by
        rcases List.mem_append.mp he with he | he
        · exact h.running e he
        · simp [List.mem_singleton.mp he, hd, hload]
      nodup := nodup_started h.nodup (h.apart k p ⟨hhandle, hdue⟩)
      apart := fun k' q hq hin => by
        obtain ⟨hk, hq⟩ := hother hq
        rcases List.mem_append.mp (List.map_append ▸ hin) with hin | hin
        · exact h.apart k' q hq hin
        · have hqp : q = p := by simpa using hin
          exact hk (h.single k' k q hq ⟨hqp ▸ hhandle, hdue⟩)
      single := fun k' k'' q hq' hq'' => h.single k' k'' q (hother hq').2 (hother hq'').2 }

/-- A new block is that of no armed task and of no running reset. -/
theorem Inv.fresh {d : ResetData} (halloc : s.heap.alloc d = (heap, p)) :
    heap.load p = some d ∧ (∀ q, s.heap.Live q → q ≠ p ∧ heap.load q = s.heap.load q) ∧
      (∀ q, heap.Live q → q ≠ p → s.heap.Live q) ∧ (∀ k q, Armed s.timer k q → s.heap.Live q) ∧
      ∀ e ∈ s.running, s.heap.Live e.block := by
  obtain ⟨rfl, rfl⟩ : (s.heap.alloc d).1 = heap ∧ (s.heap.alloc d).2 = p := by simp [halloc]
  refine ⟨Heap.load_alloc_self, fun q hq => ⟨Heap.ne_alloc_of_live hq, Heap.load_alloc_of_live hq⟩,
    fun q hq hne => ?_, fun k q hq => ?_, fun e he => ?_⟩
  · rwa [Heap.Live, Heap.load_alloc_of_ne hne] at hq
  · obtain ⟨ms, hms⟩ := Option.isSome_iff_exists.mp hq.2
    obtain ⟨p', d', hp', -, hload⟩ := (h.reset k).latest ms hms
    obtain rfl : q = p' := Option.some.inj (hq.1.symm.trans hp')
    exact Heap.live_of_load hload
  · obtain ⟨hsome, hload⟩ := h.running e he
    rwa [Heap.Live, hload]

/-- The first delayed reset of its kind arms its task with its own block. -/
theorem Inv.schedule {k : Kind} (hhandle : (s.timer k).handle = none) (d : ResetData)
    (resetS : UInt8) (halloc : s.heap.alloc d = (heap, p)) :
    Inv { s with
      heap
      timer := Function.update s.timer k
        { handle := some p, due := some (resetS.toNat * 1000) }
      promise := Function.update s.promise k ((s.promise k).request d resetS true) } := by
  obtain ⟨hload, hold, hlive, harmed, hrunning⟩ := h.fresh halloc
  -- the kind had no task, so an armed task is the new one or one of another kind
  have hcases {k' : Kind} {q : Nat}
      (hq : Armed (Function.update s.timer k
        { handle := some p, due := some (resetS.toNat * 1000) }) k' q) :
      (k' = k ∧ q = p) ∨ (k' ≠ k ∧ Armed s.timer k' q) := by
    by_cases hk : k' = k
    · subst hk
      have hqp : p = q := by simpa [Armed] using hq
      exact .inl ⟨rfl, hqp.symm⟩
    · exact .inr ⟨hk, by simpa [Armed, hk] using hq⟩
  have hne {q : Nat} (hq : q ∈ s.running.map Execution.block) : q ≠ p := by
    obtain ⟨e, he, rfl⟩ := List.mem_map.mp hq
    exact (hold _ (hrunning e he)).1
  exact
    { sound := h.sound
      reset := fun k' => by
        by_cases hk : k' = k
        · subst hk
          simp [Kept_iff, Promise.request, hload]
        · simp only [Function.update_of_ne hk]
          refine (h.reset k').mono fun q d' hq hdue hd' => ?_
          rw [(hold q (Heap.live_of_load hd')).2]
          exact hd'
      reboot := h.reboot
      owned := fun q hq => by
        by_cases hqp : q = p
        · exact .inl ⟨k, by simp [Armed, hqp]⟩
        · rcases h.owned q (hlive q hq hqp) with ⟨k', hk'⟩ | hrun
          · have hk : k' ≠ k := by
              rintro rfl
              simp [Armed, hhandle] at hk'
            exact .inl ⟨k', by simpa [Armed, hk] using hk'⟩
          · exact .inr hrun
      known := fun k' q hq => by
        obtain ⟨hp, hlen⟩ := Heap.eq_of_alloc halloc
        show q < heap.blocks.length
        by_cases hk : k' = k
        · subst hk
          have hqp : p = q := by simpa using hq
          omega
        · have hq' := h.known k' q (by simpa [hk] using hq)
          omega
      running := fun e he => by
        rw [(hold _ (hrunning e he)).2]
        exact h.running e he
      nodup := h.nodup
      apart := fun k' q hq hin => by
        rcases hcases hq with ⟨-, hqp⟩ | ⟨-, hq⟩
        · exact hne hin hqp
        · exact h.apart k' q hq hin
      single := fun k' k'' q hq' hq'' => by
        rcases hcases hq' with ⟨rfl, rfl⟩ | ⟨-, hq'⟩
        · rcases hcases hq'' with ⟨rfl, -⟩ | ⟨-, hq''⟩
          · rfl
          · exact absurd rfl (hold _ (harmed k'' _ hq'')).1
        · rcases hcases hq'' with ⟨-, hqp⟩ | ⟨-, hq''⟩
          · exact absurd hqp (hold _ (harmed k' _ hq')).1
          · exact h.single k' k'' q hq' hq'' }

/-- A reset without a delay runs with its own block. -/
theorem Inv.inline (k : Kind) (d : ResetData) (halloc : s.heap.alloc d = (heap, p)) :
    Inv ({ s with heap }.start { kind := k, block := p, data := some d }) := by
  obtain ⟨hload, hold, hlive, harmed, hrunning⟩ := h.fresh halloc
  apply Inv.started
  exact
    { sound := h.sound
      reset := fun k' => (h.reset k').mono fun q d' hq hdue hd' => by
        rw [(hold q (Heap.live_of_load hd')).2]
        exact hd'
      reboot := h.reboot
      owned := fun q hq => by
        by_cases hqp : q = p
        · exact .inr (by simp [hqp])
        · rcases h.owned q (hlive q hq hqp) with harmed | hrun
          · exact .inl harmed
          · exact .inr (by simp [List.mem_map.mp hrun])
      known := fun k' q hq => by
        obtain ⟨-, hlen⟩ := Heap.eq_of_alloc halloc
        have hq' := h.known k' q hq
        show q < heap.blocks.length
        omega
      running := fun e he => by
        rcases List.mem_append.mp he with he | he
        · rw [(hold _ (hrunning e he)).2]
          exact h.running e he
        · simp [List.mem_singleton.mp he, hload]
      nodup := by
        refine nodup_started h.nodup fun hp => ?_
        obtain ⟨e, he, heq⟩ := List.mem_map.mp hp
        exact (hold _ (hrunning e he)).1 heq
      apart := fun k' q hq hin => by
        rcases List.mem_append.mp (List.map_append ▸ hin) with hin | hin
        · exact h.apart k' q hq hin
        · have hqp : q = p := by simpa using hin
          exact (hold q (harmed k' q hq)).1 hqp
      single := h.single }

end

theorem Inv.start : Inv {} where
  sound := by simp
  reset _ := by simp [Kept_iff]
  reboot := by simp [Kept_iff]
  owned p hp := by simp [Heap.Live] at hp
  known k p hp := by simp at hp
  running := by simp
  nodup := by simp
  apart k p hp := by simp
  single k k' p hp := by simp [Armed] at hp

/-- A careful step keeps the contract. -/
theorem Inv.step {a : Action} {t : State} (h : Inv s) (hcareful : Careful s a)
    (ht : step s a = some t) : Inv t := by
  cases a with
  | register fn =>
    obtain rfl := Option.some.inj ht
    exact { h with }
  | request r =>
    obtain rfl := Option.some.inj ht
    unfold State.request
    split
    · exact h
    · next d hd =>
      obtain ⟨⟨heap, p⟩, halloc⟩ : ∃ a, s.heap.alloc d = a := ⟨_, rfl⟩
      rw [halloc]
      by_cases hdelay : 0 < r.resetS
      · -- a careful delayed reset makes its task
        obtain ⟨hhandle, henv⟩ := hcareful hdelay (by simp [hd])
        simp only [hdelay, if_true, Timer.scheduleTask, hhandle, henv]
        exact h.schedule hhandle d r.resetS halloc
      · simp only [hdelay, if_false]
        exact h.inline r.kind d halloc
  | reboot timeoutS env reboots =>
    obtain rfl := Option.some.inj ht
    exact h.reboots timeoutS env reboots
  | expire k =>
    simp only [SystemReset.step] at ht
    split at ht
    · next p ms heq =>
      obtain rfl := Option.some.inj ht
      exact h.expire ⟨by rw [heq], by rw [heq]; rfl⟩
    · cases ht
  | expireReboot reboots =>
    simp only [SystemReset.step] at ht
    split at ht
    · cases ht
    · split at ht
      · obtain rfl := Option.some.inj ht
        exact h.restart
      · obtain rfl := Option.some.inj ht
        exact { h with reboot := by simp [Kept_iff] }
  | finish i fnOk env reboots =>
    obtain ⟨e, he, rfl⟩ := Option.map_eq_some_iff.mp ht
    exact h.finish (List.mem_of_getElem? he) fnOk env reboots

/-- A delayed reset whose task is there, or which the scheduler does not take, leaves a block that
nothing frees. -/
theorem Inv.not_good {a : Action} {t : State} (h : Inv s) (hcareless : ¬ Careful s a)
    (ht : SystemReset.step s a = some t) : ¬ Good t := by
  cases a with
  | request r =>
    obtain rfl := Option.some.inj ht
    simp only [Careful, ne_eq, not_forall] at hcareless
    obtain ⟨hdelay, hsome, hnot⟩ := hcareless
    obtain ⟨d, hd⟩ := Option.ne_none_iff_exists'.mp hsome
    obtain ⟨⟨heap, p⟩, halloc⟩ : ∃ a, s.heap.alloc d = a := ⟨_, rfl⟩
    obtain ⟨hload, hold, -, harmed, hrunning⟩ := h.fresh halloc
    simp only [State.request, hd, halloc, hdelay, if_true]
    intro hgood
    -- the new block would have to belong to an armed task or to a running reset
    rcases hgood.owned p (Heap.live_of_load hload) with ⟨k, hk⟩ | hrun
    · by_cases hkind : k = r.kind
      · -- the task of this kind keeps the block that it has, or there is still none
        subst hkind
        have hhandle : (s.timer r.kind).handle = some p := by
          have hp := hk.1
          simp only [Function.update_self, Timer.handle_scheduleTask, if_neg hnot] at hp
          exact hp
        exact absurd (h.known r.kind p hhandle) (by simp [(Heap.eq_of_alloc halloc).1])
      · have hk' : Armed s.timer k p := by simpa [Armed, hkind] using hk
        exact (hold p (harmed k p hk')).1 rfl
    · obtain ⟨e, he, heq⟩ := List.mem_map.mp hrun
      exact (hold _ (hrunning e he)).1 heq
  | _ => exact absurd trivial hcareless

theorem Inv.of_reach (hs : Reach (· = {}) SystemReset.step Careful s) : Inv s :=
  hs.inv Inv (fun _ hs => by rw [hs]; exact .start) fun _ _ _ hi hc ht => hi.step hc ht

/-- The contract holds in each state that a run with careful requests only comes to. From such a
state, a step keeps it if and only if the step is a careful one. -/
theorem resets_good_iff (s : State) (hs : Reach (· = {}) SystemReset.step Careful s) :
    Good s ∧ ∀ a t, SystemReset.step s a = some t → (Good t ↔ Careful s a) := by
  have hinv := Inv.of_reach hs
  refine ⟨hinv.toGood, fun a t ht => ?_⟩
  constructor
  · intro hgood
    by_contra hcareless
    exact hinv.not_good hcareless ht hgood
  · intro hc
    exact (hinv.step hc ht).toGood

/-- A factory reset after one second, with a reset function and no reboot. -/
def factoryReset (fn : Nat) : Request :=
  { kind := .factory, resetS := 1, resetRebootS := -1, networkResetFn := some fn }

/-- The first factory reset is careful: once it runs, it has read its own data. -/
theorem first_reset_good : ∃ s, exec SystemReset.step {} [.request (factoryReset 1),
    .expire .factory] = some s ∧ s.log = [.use .factory (some ⟨-1, some 1⟩) (some ⟨-1, some 1⟩)] ∧
    Good s := by
  obtain ⟨s, hs, hlog⟩ : ∃ s, exec SystemReset.step {} [.request (factoryReset 1),
      .expire .factory] = some s ∧
      s.log = [.use .factory (some ⟨-1, some 1⟩) (some ⟨-1, some 1⟩)] := ⟨_, rfl, by decide⟩
  have hreach : Reach (· = {}) SystemReset.step Careful s :=
    Reach.exec _ (.start rfl) (by decide) hs
  exact ⟨s, hs, hlog, (resets_good_iff s hreach).1⟩

/-- A second factory reset, after the first one has run, reads the block that the first one has
freed. -/
theorem second_reset_reads_freed :
    ¬ ∀ s, Reach (· = {}) SystemReset.step (fun _ _ => True) s → Good s := by
  intro hall
  obtain ⟨s, hs, hmem⟩ : ∃ s, exec SystemReset.step {} [.request (factoryReset 1), .expire .factory,
      .finish 0 true .ok false, .request (factoryReset 2), .expire .factory] = some s ∧
      Event.use .factory none (some ⟨-1, some 2⟩) ∈ s.log := ⟨_, rfl, by decide⟩
  have hreach : Reach (· = {}) SystemReset.step (fun _ _ => True) s :=
    Reach.exec_true _ (.start rfl) hs
  exact absurd ((hall s hreach).sound _ hmem) (by decide)

end RainMakerNeo.Core.SystemReset
