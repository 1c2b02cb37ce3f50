import Mathlib.Algebra.Group.Nat.Defs
import Mathlib.Data.List.Perm.Basic
import RainMakerNeo.Lib.Run

/-!
# `RainMakerNeo.Common.Backoff`: the retry context and its timer

Any number of retries, fires and resets work on one context at the same time, without a lock. A
call is a list of atomic accesses, and `step` runs one access of one call. The scheduler is the one
of the race test: it can fail to make a timer, it arms each timer that is alive again, and it gives
the address of a cancelled timer to a later one.

A call takes the handle out of the context while it works with the timer. So each timer that is
alive belongs to the context or to one call, and `owned` is this bookkeeping. It gives
`timers_at_rest`: with no call under way, the timer of the context is the only one.

A reset counts up `reset_gen`, and a retry that finds another count than at its start takes its
timer back out of the context. It compares handles, so it cannot tell its own arming from a later
one of the same timer. `Undisturbed` excludes this and the other steps by which an earlier call
undoes a later one, and `settled_of_undisturbed` is what then holds at rest.

The fields from `resets` on record the history, and none of them exists in the code.
-/

set_option autoImplicit false

namespace RainMakerNeo.Common.Backoff

open RainMakerNeo.Lib

/-! ### The model -/

/-- `esp_rmaker_backoff_delay_context_t`, with the default values. -/
structure DelayContext where
  current : Nat := 1000
  max : Nat := 300000
  expFactor : Nat := 2
  maxJitterMs : Nat := 1000
  deriving DecidableEq, Repr

/-- A timer that was scheduled and not cancelled. A timer that fires is not armed any more. -/
structure Timer where
  addr : Nat
  armed : Bool
  delayMs : Nat
  deriving DecidableEq, Repr

/-- Before which access a call is. -/
inductive Access
  /-- `esp_rmaker_backoff_retry` or `esp_rmaker_backoff_fire` before the load of the delay. -/
  | loadDelay (retries : Bool)
  /-- The loop of `backoff_get_next_delay_ms`. -/
  | swapDelay (current : Nat)
  /-- `esp_rmaker_backoff_schedule_task` from here on: the load of `reset_gen`. -/
  | loadGen (delayMs : Nat)
  | exchange (delayMs : Nat)
  /-- `osal_scheduler_reset_timer`, or `osal_scheduler_schedule_task` without a handle. -/
  | arm (delayMs : Nat) (handle : Option Nat)
  | put (handle : Nat)
  | cancel (handle : Nat)
  /-- The second load of `reset_gen`. -/
  | check (handle : Nat)
  | remove (handle : Nat)
  /-- `esp_rmaker_backoff_reset` from here on. -/
  | increment (delayMs : Nat)
  | take (delayMs : Nat)
  | takeCancel (delayMs : Nat) (handle : Nat)
  | storeDelay (delayMs : Nat)
  deriving DecidableEq, Repr

/-- A call that is under way. `gen` and `ok` are its local variables, `seen` is the number of
resets at its load of `reset_gen`, and `fresh` says that the last reset had completed when the call
began. -/
structure Call where
  access : Access
  gen : Nat := 0
  ok : Bool := false
  seen : Nat := 0
  fresh : Bool := false
  deriving DecidableEq, Repr

/-- `esp_rmaker_backoff_retry_context_t`, the timers and the calls. -/
structure Context where
  handle : Option Nat := none
  /-- A `uint32_t`. -/
  resetGen : Nat := 0
  delay : DelayContext := {}
  timers : List Timer := []
  calls : List Call := []
  resets : Nat := 0
  /-- A retry began after the last reset had completed. -/
  begun : Bool := false
  /-- Such a retry succeeded, and its timer was armed when it put the handle back. -/
  answered : Bool := false
  /-- A timer has fired since then. -/
  fired : Bool := false
  deriving DecidableEq, Repr

/-- What the scheduler and the random generator answer. -/
structure Answer where
  /-- The address of a new timer, `none` when it cannot be made. -/
  addr : Option Nat := none
  random : Nat := 0
  deriving DecidableEq, Repr

/-- What happens next. -/
inductive Action
  | retry
  | fire
  | reset (delayMs : Nat)
  | advance (c : Call) (answer : Answer)
  /-- A timer fires. -/
  | expire (addr : Nat)
  deriving DecidableEq, Repr

/-- The call is a reset. -/
def Call.isReset (c : Call) : Bool :=
  match c.access with
  | .increment _ | .take _ | .takeCancel _ _ | .storeDelay _ => true
  | _ => false

/-- The call is a reset that has not taken the handle yet. -/
def Call.willTake (c : Call) : Bool :=
  match c.access with
  | .increment _ | .take _ => true
  | _ => false

/-- The handle that only this call has. -/
def Call.held (c : Call) : Option Nat :=
  match c.access with
  | .arm _ handle => handle
  | .put handle | .cancel handle | .takeCancel _ handle => some handle
  | _ => none

/-- The handle that this call is going to put back. -/
def Call.returns (c : Call) : Option Nat :=
  match c.access with
  | .arm _ handle => handle
  | .put handle => some handle
  | _ => none

namespace Context

/-- The timer is alive. -/
def alive (s : Context) (addr : Nat) : Bool := s.timers.any fun t => t.addr == addr

/-- The timer is alive and armed. -/
def isArmed (s : Context) (addr : Nat) : Bool := s.timers.any fun t => t.addr == addr && t.armed

/-- A reset is under way. -/
def resetting (s : Context) : Bool := s.calls.any Call.isReset

/-- Some reset is going to take the handle. -/
def willTake (s : Context) : Bool := s.calls.any Call.willTake

/-- A retry or a fire begins. -/
def begin (s : Context) (access : Access) : Context :=
  { s with
    calls := { access, fresh := !s.resetting } :: s.calls
    begun := s.begun || !s.resetting }

/-- The call goes on. -/
def proceed (s : Context) (c : Call) (access : Access) : Context :=
  { s with calls := { c with access } :: s.calls.erase c }

/-- The call returns. -/
def leave (s : Context) (c : Call) : Context := { s with calls := s.calls.erase c }

/-- `osal_scheduler_cancel_task`. -/
def cancelTimer (s : Context) (addr : Nat) : Context :=
  { s with timers := s.timers.filter fun t => t.addr != addr }

/-- `osal_scheduler_reset_timer` of a timer that is alive. -/
def rearm (s : Context) (addr delayMs : Nat) : Context :=
  { s with timers := s.timers.map fun t =>
      if t.addr = addr then { t with armed := true, delayMs } else t }

/-- The delay after `current`, in 64 bits. -/
def nextDelay (d : DelayContext) (current : Nat) : Nat :=
  min (current * d.expFactor % 2 ^ 64) d.max

/-- A successful retry that began after the last reset puts its handle back, with the timer still
armed. -/
def notes (s : Context) (c : Call) (handle : Nat) : Bool := c.fresh && c.ok && s.isArmed handle

/-- The calls after a reset has counted up. -/
def outdate (calls : List Call) : List Call := calls.map fun c => { c with fresh := false }

/-- The next access of a call. -/
def advance (s : Context) (c : Call) (answer : Answer) : Option Context :=
  match c.access with
  | .loadDelay retries =>
    some (s.proceed c (if retries then .swapDelay s.delay.current else .loadGen s.delay.current))
  | .swapDelay current =>
    if s.delay.current = current then
      some ({ s with delay := { s.delay with current := nextDelay s.delay current } }.proceed c
        (.loadGen ((current + answer.random % (s.delay.maxJitterMs + 1)) % 2 ^ 64)))
    else some (s.proceed c (.swapDelay s.delay.current))
  | .loadGen delayMs =>
    some { s with
      calls := { c with access := .exchange delayMs, gen := s.resetGen, seen := s.resets } ::
        s.calls.erase c }
  | .exchange delayMs => some ({ s with handle := none }.proceed c (.arm delayMs s.handle))
  | .arm delayMs (some handle) =>
    some { s.rearm handle delayMs with
      calls := { c with access := .put handle, ok := s.alive handle } :: s.calls.erase c }
  | .arm delayMs none =>
    match answer.addr with
    | none => some (s.leave c)
    | some addr =>
      if s.alive addr then none
      else some { s with
        timers := ⟨addr, true, delayMs⟩ :: s.timers
        calls := { c with access := .put addr, ok := true } :: s.calls.erase c }
  | .put handle =>
    let s := { s with
      answered := s.answered || s.notes c handle
      fired := s.fired && !s.notes c handle }
    match s.handle with
    | none => some ({ s with handle := some handle }.proceed c (.check handle))
    | some _ => some (s.proceed c (.cancel handle))
  | .cancel handle => some ((s.cancelTimer handle).leave c)
  | .check handle =>
    if s.resetGen ≠ c.gen then some (s.proceed c (.remove handle)) else some (s.leave c)
  | .remove handle =>
    if s.handle = some handle then some ({ s with handle := none }.proceed c (.cancel handle))
    else some (s.leave c)
  | .increment delayMs =>
    some { s with
      resetGen := (s.resetGen + 1) % 2 ^ 32
      resets := s.resets + 1
      begun := false
      answered := false
      calls := outdate ({ c with access := .take delayMs } :: s.calls.erase c) }
  | .take delayMs =>
    match s.handle with
    | none => some (s.proceed c (.storeDelay delayMs))
    | some handle => some ({ s with handle := none }.proceed c (.takeCancel delayMs handle))
  | .takeCancel delayMs handle =>
    some ((s.cancelTimer handle).proceed c (.storeDelay delayMs))
  | .storeDelay delayMs =>
    some ({ s with delay := { s.delay with current := delayMs } }.leave c)

end Context

open Context

/-- The next access of some call, a new call, or a timer that fires. -/
def step (s : Context) : Action → Option Context
  | .retry => some (s.begin (.loadDelay true))
  | .fire => some (s.begin (.loadDelay false))
  | .reset delayMs => some { s with calls := { access := .increment delayMs } :: s.calls }
  | .advance c answer => if c ∈ s.calls then s.advance c answer else none
  | .expire addr =>
    if s.isArmed addr then
      some { s with
        timers := s.timers.map fun t => if t.addr = addr then { t with armed := false } else t
        fired := true }
    else none

/-- A context at the start, with any delays. -/
def Initial (s : Context) : Prop := ∃ delay, s = { delay }

/-! ### What an access can do -/

/-- The accesses before the load of `reset_gen`. -/
def Access.prepares : Access → Bool
  | .loadDelay _ | .swapDelay _ | .loadGen _ => true
  | _ => false

/-- The history after a call that has armed a timer tries to put its handle back. -/
def Context.noted (s : Context) (c : Call) (handle : Nat) : Context :=
  { s with
    answered := s.answered || s.notes c handle
    fired := s.fired && !s.notes c handle }

/-- The outcomes of an access. -/
inductive Advanced (s : Context) (c : Call) : Context → Prop
  | prepare (delay : DelayContext) {access : Access} (hc : c.access.prepares)
      (haccess : access.prepares) : Advanced s c ({ s with delay }.proceed c access)
  | loadGen {delayMs : Nat} (hc : c.access = .loadGen delayMs) :
      Advanced s c { s with
        calls := { c with access := .exchange delayMs, gen := s.resetGen, seen := s.resets } ::
          s.calls.erase c }
  | exchange {delayMs : Nat} (hc : c.access = .exchange delayMs) :
      Advanced s c ({ s with handle := none }.proceed c (.arm delayMs s.handle))
  | rearm {delayMs handle : Nat} (hc : c.access = .arm delayMs (some handle)) :
      Advanced s c { s.rearm handle delayMs with
        calls := { c with access := .put handle, ok := s.alive handle } :: s.calls.erase c }
  | armFail {delayMs : Nat} (hc : c.access = .arm delayMs none) : Advanced s c (s.leave c)
  | armNew {delayMs addr : Nat} (hc : c.access = .arm delayMs none)
      (hnew : addr ∉ s.timers.map Timer.addr) :
      Advanced s c { s with
        timers := ⟨addr, true, delayMs⟩ :: s.timers
        calls := { c with access := .put addr, ok := true } :: s.calls.erase c }
  | putFirst {handle : Nat} (hc : c.access = .put handle) (hhandle : s.handle = none) :
      Advanced s c ({ s.noted c handle with handle := some handle }.proceed c (.check handle))
  | putLost {handle other : Nat} (hc : c.access = .put handle) (hhandle : s.handle = some other) :
      Advanced s c ((s.noted c handle).proceed c (.cancel handle))
  | cancel {handle : Nat} (hc : c.access = .cancel handle) :
      Advanced s c ((s.cancelTimer handle).leave c)
  | checkStale {handle : Nat} (hc : c.access = .check handle) (hgen : s.resetGen ≠ c.gen) :
      Advanced s c (s.proceed c (.remove handle))
  | checkSame {handle : Nat} (hc : c.access = .check handle) (hgen : s.resetGen = c.gen) :
      Advanced s c (s.leave c)
  | removeOwn {handle : Nat} (hc : c.access = .remove handle) (hhandle : s.handle = some handle) :
      Advanced s c ({ s with handle := none }.proceed c (.cancel handle))
  | removeOther {handle : Nat} (hc : c.access = .remove handle) (hhandle : s.handle ≠ some handle) :
      Advanced s c (s.leave c)
  | increment {delayMs : Nat} (hc : c.access = .increment delayMs) :
      Advanced s c { s with
        resetGen := (s.resetGen + 1) % 2 ^ 32
        resets := s.resets + 1
        begun := false
        answered := false
        calls := outdate ({ c with access := .take delayMs } :: s.calls.erase c) }
  | takeNone {delayMs : Nat} (hc : c.access = .take delayMs) (hhandle : s.handle = none) :
      Advanced s c (s.proceed c (.storeDelay delayMs))
  | takeSome {delayMs handle : Nat} (hc : c.access = .take delayMs)
      (hhandle : s.handle = some handle) :
      Advanced s c ({ s with handle := none }.proceed c (.takeCancel delayMs handle))
  | takeCancel {delayMs handle : Nat} (hc : c.access = .takeCancel delayMs handle) :
      Advanced s c ((s.cancelTimer handle).proceed c (.storeDelay delayMs))
  | storeDelay {delayMs : Nat} (hc : c.access = .storeDelay delayMs) :
      Advanced s c ({ s with delay := { s.delay with current := delayMs } }.leave c)

theorem alive_iff (s : Context) (addr : Nat) :
    s.alive addr = true ↔ addr ∈ s.timers.map Timer.addr := by
  simp [alive]

theorem isArmed_iff (s : Context) (addr : Nat) :
    s.isArmed addr = true ↔ ∃ t ∈ s.timers, t.addr = addr ∧ t.armed = true := by
  simp [isArmed]

variable {s t : Context} {c : Call} {handle addr : Nat} {answer : Answer} {l : List Call}

/-- A call that is not noted leaves the history alone. -/
theorem noted_of_not_notes (h : s.notes c handle = false) : s.noted c handle = s := by
  simp [noted, h]

/-- The outcomes are all outcomes. -/
theorem advance_cases (ht : s.advance c answer = some t) : Advanced s c t := by
  rw [Context.advance] at ht
  split at ht
  · next retries hc =>
    obtain rfl := Option.some.inj ht
    refine .prepare s.delay (by rw [hc]; rfl) ?_
    cases retries <;> rfl
  · next current hc =>
    split at ht
    · obtain rfl := Option.some.inj ht
      exact .prepare _ (by rw [hc]; rfl) rfl
    · obtain rfl := Option.some.inj ht
      exact .prepare s.delay (by rw [hc]; rfl) rfl
  · next delayMs hc =>
    obtain rfl := Option.some.inj ht
    exact .loadGen hc
  · next delayMs hc =>
    obtain rfl := Option.some.inj ht
    exact .exchange hc
  · next delayMs handle hc =>
    obtain rfl := Option.some.inj ht
    exact .rearm hc
  · next delayMs hc =>
    split at ht
    · obtain rfl := Option.some.inj ht
      exact .armFail hc
    · next addr _ =>
      rw [Option.ite_none_left_eq_some] at ht
      obtain rfl := Option.some.inj ht.2
      refine .armNew hc ?_
      rw [← alive_iff]
      exact ht.1
  · next handle hc =>
    cases hhandle : s.handle with
    | none =>
      simp only [hhandle] at ht
      obtain rfl := Option.some.inj ht
      have hfirst := Advanced.putFirst hc hhandle
      simpa only [noted, proceed, hhandle] using hfirst
    | some other =>
      simp only [hhandle] at ht
      obtain rfl := Option.some.inj ht
      have hlost := Advanced.putLost hc hhandle
      simpa only [noted, proceed, hhandle] using hlost
  · next handle hc =>
    obtain rfl := Option.some.inj ht
    exact .cancel hc
  · next handle hc =>
    split at ht
    · next hgen =>
      obtain rfl := Option.some.inj ht
      exact .checkStale hc hgen
    · next hgen =>
      obtain rfl := Option.some.inj ht
      exact .checkSame hc (not_not.mp hgen)
  · next handle hc =>
    split at ht
    · next hhandle =>
      obtain rfl := Option.some.inj ht
      exact .removeOwn hc hhandle
    · next hhandle =>
      obtain rfl := Option.some.inj ht
      exact .removeOther hc hhandle
  · next delayMs hc =>
    obtain rfl := Option.some.inj ht
    exact .increment hc
  · next delayMs hc =>
    split at ht
    · next hhandle =>
      obtain rfl := Option.some.inj ht
      exact .takeNone hc hhandle
    · next handle hhandle =>
      obtain rfl := Option.some.inj ht
      exact .takeSome hc hhandle
  · next delayMs handle hc =>
    obtain rfl := Option.some.inj ht
    exact .takeCancel hc
  · next delayMs hc =>
    obtain rfl := Option.some.inj ht
    exact .storeDelay hc

/-! ### The owners of the timers -/

/-- The handles in the context and in the calls. -/
def owned (s : Context) : List Nat := s.handle.toList ++ s.calls.flatMap fun c => c.held.toList

/-- Each timer that is alive has one owner. -/
structure Owned (s : Context) : Prop where
  perm : (owned s).Perm (s.timers.map Timer.addr)
  nodup : (s.timers.map Timer.addr).Nodup

/-- The owners, with one call apart. -/
theorem owned_perm (hc : c ∈ s.calls) :
    (owned s).Perm (s.handle.toList ++ (c.held.toList ++
      (s.calls.erase c).flatMap fun c => c.held.toList)) :=
  (List.Perm.flatMap_right _ (List.perm_cons_erase hc)).append_left _

/-- A step of one call that moves its handle to or from the context. -/
theorem Owned.move (ho : Owned s) (hc : c ∈ s.calls) (hcalls : t.calls = l ++ s.calls.erase c)
    (hmove : t.handle.toList ++ l.flatMap (fun c => c.held.toList) =
      s.handle.toList ++ c.held.toList)
    (htimers : t.timers.map Timer.addr = s.timers.map Timer.addr) : Owned t := by
  have howned : owned t = s.handle.toList ++ (c.held.toList ++
      (s.calls.erase c).flatMap fun c => c.held.toList) := by
    rw [owned, hcalls, List.flatMap_append, ← List.append_assoc, hmove, List.append_assoc]
  refine ⟨?_, ?_⟩
  · rw [howned, htimers]
    exact (owned_perm hc).symm.trans ho.perm
  · rw [htimers]
    exact ho.nodup

/-- The addresses after a cancel. -/
theorem cancelTimer_addrs (s : Context) (addr : Nat) :
    (s.cancelTimer addr).timers.map Timer.addr =
      (s.timers.map Timer.addr).filter fun a => a != addr := by
  rw [cancelTimer, List.filter_map]
  rfl

/-- A call cancels the timer that it has. -/
theorem Owned.cancel (ho : Owned s) (hc : c ∈ s.calls) (hcalls : t.calls = l ++ s.calls.erase c)
    (hheld : c.held = some addr) (hnext : l.flatMap (fun c => c.held.toList) = [])
    (hhandle : t.handle = s.handle) (htimers : t.timers = (s.cancelTimer addr).timers) :
    Owned t := by
  have howned : owned t = s.handle.toList ++ (s.calls.erase c).flatMap fun c => c.held.toList := by
    rw [owned, hcalls, hhandle, List.flatMap_append, hnext, List.nil_append]
  have haddrs : t.timers.map Timer.addr = (s.timers.map Timer.addr).erase addr := by
    rw [htimers, cancelTimer_addrs, ho.nodup.erase_eq_filter]
  have hperm := (owned_perm hc).symm.trans ho.perm
  rw [hheld, Option.toList_some, List.singleton_append] at hperm
  refine ⟨?_, ?_⟩
  · rw [howned, haddrs]
    have hmiddle : (s.handle.toList ++ addr ::
        (s.calls.erase c).flatMap fun c => c.held.toList).Perm
        (addr :: (s.handle.toList ++ (s.calls.erase c).flatMap fun c => c.held.toList)) :=
      List.perm_middle
    have hfront := hmiddle.symm.trans hperm
    have herase := hfront.erase addr
    rw [List.erase_cons_head] at herase
    exact herase
  · rw [haddrs]
    exact ho.nodup.erase addr

/-- A re-arm keeps the addresses. -/
theorem rearm_addrs (s : Context) (addr delayMs : Nat) :
    (s.rearm addr delayMs).timers.map Timer.addr = s.timers.map Timer.addr := by
  rw [rearm, List.map_map]
  refine List.map_congr_left ?_
  intro t _
  dsimp only [Function.comp]
  split <;> rfl

/-- The step of a call keeps the bookkeeping. -/
theorem Owned.advance (ho : Owned s) (hc : c ∈ s.calls) (hadv : Advanced s c t) : Owned t := by
  cases hadv with
  | prepare delay hprepares haccess =>
    refine ho.move hc (l := [_]) rfl ?_ rfl
    have hheld : ∀ c : Call, c.access.prepares → c.held = none := by
      intro c h
      rw [Call.held]
      split <;> simp_all [Access.prepares]
    simp [proceed, hheld c hprepares, hheld { c with access := _ } haccess]
  | loadGen hc' => exact ho.move hc (l := [_]) rfl (by simp [Call.held, hc']) rfl
  | exchange hc' => exact ho.move hc (l := [_]) rfl (by simp [proceed, Call.held, hc']) rfl
  | @rearm delayMs handle hc' =>
    exact ho.move hc (l := [_]) rfl (by simp [rearm, Call.held, hc'])
      (rearm_addrs s handle delayMs)
  | armFail hc' => exact ho.move hc (l := []) rfl (by simp [leave, Call.held, hc']) rfl
  | @armNew delayMs addr hc' hnew =>
    have hperm := (owned_perm hc).symm.trans ho.perm
    rw [show c.held = none by rw [Call.held, hc']] at hperm
    refine ⟨?_, List.nodup_cons.mpr ⟨hnew, ho.nodup⟩⟩
    exact List.perm_middle.trans (hperm.cons addr)
  | putFirst hc' hhandle =>
    exact ho.move hc (l := [_]) rfl (by simp [proceed, Call.held, hc', hhandle]) rfl
  | putLost hc' hhandle =>
    exact ho.move hc (l := [_]) rfl (by simp [proceed, noted, Call.held, hc']) rfl
  | cancel hc' => exact ho.cancel hc (l := []) rfl (by rw [Call.held, hc']) rfl rfl rfl
  | checkStale hc' hgen => exact ho.move hc (l := [_]) rfl (by simp [proceed, Call.held, hc']) rfl
  | checkSame hc' hgen => exact ho.move hc (l := []) rfl (by simp [leave, Call.held, hc']) rfl
  | removeOwn hc' hhandle =>
    exact ho.move hc (l := [_]) rfl (by simp [proceed, Call.held, hc', hhandle]) rfl
  | removeOther hc' hhandle => exact ho.move hc (l := []) rfl (by simp [leave, Call.held, hc']) rfl
  | increment hc' =>
    have hperm := (owned_perm hc).symm.trans ho.perm
    rw [show c.held = none by rw [Call.held, hc']] at hperm
    refine ⟨?_, ho.nodup⟩
    rw [owned]
    dsimp only
    rw [outdate, List.flatMap_map]
    exact hperm
  | takeNone hc' hhandle => exact ho.move hc (l := [_]) rfl (by simp [proceed, Call.held, hc']) rfl
  | takeSome hc' hhandle =>
    exact ho.move hc (l := [_]) rfl (by simp [proceed, Call.held, hc', hhandle]) rfl
  | takeCancel hc' => exact ho.cancel hc (l := [_]) rfl (by rw [Call.held, hc']) rfl rfl rfl
  | storeDelay hc' => exact ho.move hc (l := []) rfl (by simp [leave, Call.held, hc']) rfl

/-! ### The retries since the last reset -/

/-- The call is a reset that has counted up. -/
def Call.counted (c : Call) : Bool :=
  match c.access with
  | .take _ | .takeCancel _ _ | .storeDelay _ => true
  | _ => false

/-- The fresh retries are those since the last reset. -/
structure Current (s : Context) : Prop where
  fresh : ∀ c ∈ s.calls, c.fresh = true → s.begun = true
  answered : s.answered = true → s.begun = true
  counted : ∀ c ∈ s.calls, c.counted = true → s.begun = false

/-- A step after which the calls are the others and at most one that is no fresher and no more
counted. -/
theorem Current.move (hcur : Current s) (hc : c ∈ s.calls)
    (hcalls : t.calls = l ++ s.calls.erase c) (hfresh : ∀ d ∈ l, d.fresh = c.fresh)
    (hcounted : ∀ d ∈ l, d.counted = true → c.counted) (hbegun : t.begun = s.begun)
    (hanswered : t.answered = true → s.begun = true) : Current t := by
  have hothers : ∀ d ∈ t.calls, d ∈ l ∨ d ∈ s.calls := by
    intro d hd
    rw [hcalls] at hd
    exact (List.mem_append.mp hd).imp id List.mem_of_mem_erase
  refine ⟨?_, ?_, ?_⟩
  · intro d hd h
    rw [hbegun]
    rcases hothers d hd with hd | hd
    · rw [hfresh d hd] at h
      exact hcur.fresh c hc h
    · exact hcur.fresh d hd h
  · rw [hbegun]
    exact hanswered
  · intro d hd h
    rw [hbegun]
    rcases hothers d hd with hd | hd
    · exact hcur.counted c hc (hcounted d hd h)
    · exact hcur.counted d hd h

/-- A retry that puts its handle back and is noted is fresh. -/
theorem Current.noted (hcur : Current s) (hc : c ∈ s.calls)
    (h : (s.noted c handle).answered = true) : s.begun = true := by
  rw [Context.noted] at h
  rcases Bool.or_eq_true_iff.mp h with h | h
  · exact hcur.answered h
  · rw [notes, Bool.and_eq_true, Bool.and_eq_true] at h
    exact hcur.fresh c hc h.1.1

theorem Current.advance (hcur : Current s) (hc : c ∈ s.calls) (hadv : Advanced s c t) :
    Current t := by
  cases hadv with
  | @prepare delay access hprepares haccess =>
    refine hcur.move hc (l := [_]) rfl (List.forall_mem_singleton.mpr rfl) ?_ rfl hcur.answered
    rw [List.forall_mem_singleton]
    intro h
    cases access <;> cases haccess <;> cases h
  | loadGen hc' =>
    exact hcur.move hc (l := [_]) rfl (List.forall_mem_singleton.mpr rfl)
      (by simp [Call.counted]) rfl hcur.answered
  | exchange hc' =>
    exact hcur.move hc (l := [_]) rfl (List.forall_mem_singleton.mpr rfl)
      (by simp [Call.counted]) rfl hcur.answered
  | rearm hc' =>
    exact hcur.move hc (l := [_]) rfl (List.forall_mem_singleton.mpr rfl)
      (by simp [Call.counted]) rfl hcur.answered
  | armFail hc' => exact hcur.move hc (l := []) rfl nofun nofun rfl hcur.answered
  | armNew hc' hnew =>
    exact hcur.move hc (l := [_]) rfl (List.forall_mem_singleton.mpr rfl)
      (by simp [Call.counted]) rfl hcur.answered
  | putFirst hc' hhandle =>
    exact hcur.move hc (l := [_]) rfl (List.forall_mem_singleton.mpr rfl)
      (by simp [Call.counted]) rfl (hcur.noted hc)
  | putLost hc' hhandle =>
    exact hcur.move hc (l := [_]) rfl (List.forall_mem_singleton.mpr rfl)
      (by simp [Call.counted]) rfl (hcur.noted hc)
  | cancel hc' => exact hcur.move hc (l := []) rfl nofun nofun rfl hcur.answered
  | checkStale hc' hgen =>
    exact hcur.move hc (l := [_]) rfl (List.forall_mem_singleton.mpr rfl)
      (by simp [Call.counted]) rfl hcur.answered
  | checkSame hc' hgen => exact hcur.move hc (l := []) rfl nofun nofun rfl hcur.answered
  | removeOwn hc' hhandle =>
    exact hcur.move hc (l := [_]) rfl (List.forall_mem_singleton.mpr rfl)
      (by simp [Call.counted]) rfl hcur.answered
  | removeOther hc' hhandle => exact hcur.move hc (l := []) rfl nofun nofun rfl hcur.answered
  | increment hc' =>
    refine ⟨?_, nofun, fun _ _ _ => rfl⟩
    intro d hd h
    obtain ⟨d', -, rfl⟩ := List.mem_map.mp hd
    cases h
  | takeNone hc' hhandle =>
    exact hcur.move hc (l := [_]) rfl (List.forall_mem_singleton.mpr rfl)
      (by simp [Call.counted, hc']) rfl hcur.answered
  | takeSome hc' hhandle =>
    exact hcur.move hc (l := [_]) rfl (List.forall_mem_singleton.mpr rfl)
      (by simp [Call.counted, hc']) rfl hcur.answered
  | takeCancel hc' =>
    exact hcur.move hc (l := [_]) rfl (List.forall_mem_singleton.mpr rfl)
      (by simp [Call.counted, hc']) rfl hcur.answered
  | storeDelay hc' => exact hcur.move hc (l := []) rfl nofun nofun rfl hcur.answered

/-! ### What an earlier call must not do -/

/-- The next access of a call does not undo a retry that began after the last reset, and does not
let an older one escape the reset.

- `put`: a call that finds another timer in the context cancels its own. The other one is armed,
  if its own is and a fresh retry has been answered with it. And the context takes no timer from a
  retry that began before the end of the last reset but read its count, unless a reset is going to
  take it or a fresh retry has begun.
- `check`: the count has not come round since the call read it.
- `remove`: no fresh retry has been answered when the comparison succeeds. -/
def Harmless (s : Context) (c : Call) : Access → Prop
  | .put handle =>
    (∀ other ∈ s.handle.toList, s.isArmed handle = true →
      (c.fresh && c.ok || s.answered && !s.fired) = true → s.isArmed other = true) ∧
    (s.handle = none → c.fresh = false → c.seen = s.resets → 0 < s.resets →
      (s.willTake || s.begun) = true)
  | .check _ => s.resetGen = c.gen → c.seen = s.resets
  | .remove handle => s.handle = some handle → s.answered = false
  | _ => True

/-- No step is harmful. -/
def Undisturbed (s : Context) : Action → Prop
  | .advance c _ => Harmless s c c.access
  | _ => True

instance (s : Context) (c : Call) : ∀ access, Decidable (Harmless s c access)
  | .put _ => inferInstanceAs (Decidable (_ ∧ _))
  | .check _ => inferInstanceAs (Decidable (_ → _))
  | .remove _ => inferInstanceAs (Decidable (_ → _))
  | .loadDelay _ | .swapDelay _ | .loadGen _ | .exchange _ | .arm _ _ | .cancel _ | .increment _
  | .take _ | .takeCancel _ _ | .storeDelay _ => inferInstanceAs (Decidable True)

instance (s : Context) : ∀ a, Decidable (Undisturbed s a)
  | .advance c _ => inferInstanceAs (Decidable (Harmless s c c.access))
  | .retry | .fire | .reset _ | .expire _ => inferInstanceAs (Decidable True)

/-! ### The timer of an answered retry -/

/-- After a fresh retry was answered, some timer is in the context or on its way back, and it is
armed unless a timer has fired since. -/
def Kept (s : Context) : Prop :=
  s.answered = true → ∃ t ∈ s.timers,
    (s.handle = some t.addr ∨ ∃ c ∈ s.calls, c.returns = some t.addr) ∧
      (t.armed = true ∨ s.fired = true)

/-- A call that stays under way when another one steps. -/
theorem mem_others {d : Call} (hd : d ∈ s.calls) (hne : d ≠ c) (l : List Call) :
    d ∈ l ++ s.calls.erase c :=
  List.mem_append_right _ ((List.mem_erase_of_ne hne).mpr hd)

/-- A handle that another call returns is still on its way. -/
theorem returns_others (hc : c.returns ≠ some addr) (h : ∃ d ∈ s.calls, d.returns = some addr)
    (l : List Call) : ∃ d ∈ l ++ s.calls.erase c, d.returns = some addr := by
  obtain ⟨d, hd, hreturns⟩ := h
  refine ⟨d, mem_others hd ?_ l, hreturns⟩
  rintro rfl
  exact hc hreturns

section
variable (hk : Kept s)
include hk

/-- A step of a call that neither has nor returns a handle. -/
theorem Kept.of_others (hc : c.returns = none) (hcalls : t.calls = l ++ s.calls.erase c)
    (hhandle : t.handle = s.handle) (htimers : t.timers = s.timers)
    (hanswered : t.answered = s.answered) (hfired : t.fired = s.fired) : Kept t := by
  intro h
  rw [hanswered] at h
  obtain ⟨timer, htimer, hwhere, harmed⟩ := hk h
  rw [htimers, hhandle, hcalls, hfired]
  refine ⟨timer, htimer, hwhere.imp_right fun hcall => returns_others ?_ hcall l, harmed⟩
  rw [hc]
  exact nofun

/-- The timer that a call cancels is not the kept one. -/
theorem Kept.cancel (ho : Owned s) (hc : c ∈ s.calls) (hheld : c.held = some addr)
    (hreturns : c.returns = none) (hcalls : t.calls = l ++ s.calls.erase c)
    (hhandle : t.handle = s.handle) (htimers : t.timers = (s.cancelTimer addr).timers)
    (hanswered : t.answered = s.answered) (hfired : t.fired = s.fired) : Kept t := by
  intro h
  rw [hanswered] at h
  obtain ⟨timer, htimer, hwhere, harmed⟩ := hk h
  have hother : ∀ d ∈ s.calls, d.returns = some timer.addr → d ≠ c := by
    intro d _ hd heq
    rw [heq, hreturns] at hd
    cases hd
  -- The owner of the kept timer is not the call that cancels.
  have hne : timer.addr ≠ addr := by
    have hnodup := ((owned_perm hc).symm.trans ho.perm).symm.nodup ho.nodup
    rw [hheld, Option.toList_some, List.singleton_append] at hnodup
    have hdisjoint := List.perm_middle.nodup hnodup
    have hnot := (List.nodup_cons.mp hdisjoint).1
    rintro rfl
    apply hnot
    rcases hwhere with hin | ⟨d, hd, hd'⟩
    · rw [hin]
      exact List.mem_append_left _ (List.mem_singleton_self _)
    · refine List.mem_append_right _ (List.mem_flatMap.mpr ⟨d, ?_, ?_⟩)
      · exact (List.mem_erase_of_ne (hother d hd hd')).mpr hd
      · have hheld' : d.held = some timer.addr := by
          rw [Call.returns] at hd'
          rw [Call.held]
          split at hd' <;> simp_all
        rw [hheld']
        exact List.mem_singleton_self _
  rw [htimers, hhandle, hcalls, hfired]
  refine ⟨timer, List.mem_filter.mpr ⟨htimer, by simpa using hne⟩, ?_, harmed⟩
  refine hwhere.imp id ?_
  intro ⟨d, hd, hd'⟩
  exact ⟨d, mem_others hd (hother d hd hd') l, hd'⟩

variable {delayMs : Nat}

/-- A call takes the handle out of the context. -/
theorem Kept.exchange (hc : c.access = .exchange delayMs) :
    Kept ({ s with handle := none }.proceed c (.arm delayMs s.handle)) := by
  intro h
  obtain ⟨timer, htimer, hwhere, harmed⟩ := hk h
  refine ⟨timer, htimer, .inr ?_, harmed⟩
  rcases hwhere with hin | hcall
  · exact ⟨_, List.mem_cons_self, hin⟩
  · refine returns_others ?_ hcall [_]
    rw [Call.returns, hc]
    exact nofun

/-- A call arms the timer that it has. -/
theorem Kept.rearm (hc : c.access = .arm delayMs (some handle)) (ok : Bool) :
    Kept { s.rearm handle delayMs with
      calls := { c with access := .put handle, ok } :: s.calls.erase c } := by
  intro h
  obtain ⟨timer, htimer, hwhere, harmed⟩ := hk h
  by_cases hsame : timer.addr = handle
  · refine ⟨{ timer with armed := true, delayMs }, ?_, ?_, .inl rfl⟩
    · exact List.mem_map.mpr ⟨timer, htimer, if_pos hsame⟩
    · exact .inr ⟨_, List.mem_cons_self, congrArg some hsame.symm⟩
  · refine ⟨timer, List.mem_map.mpr ⟨timer, htimer, if_neg hsame⟩, ?_, harmed⟩
    refine hwhere.imp_right fun hcall => returns_others ?_ hcall [_]
    rw [Call.returns, hc]
    exact fun heq => hsame (Option.some.inj heq).symm

/-- A call makes a timer of its own. -/
theorem Kept.armNew (hc : c.access = .arm delayMs none) :
    Kept { s with
      timers := ⟨addr, true, delayMs⟩ :: s.timers
      calls := { c with access := .put addr, ok := true } :: s.calls.erase c } := by
  intro h
  obtain ⟨timer, htimer, hwhere, harmed⟩ := hk h
  refine ⟨timer, List.mem_cons_of_mem _ htimer, ?_, harmed⟩
  refine hwhere.imp_right fun hcall => returns_others ?_ hcall [_]
  rw [Call.returns, hc]
  exact nofun

/-- A call puts its handle into the empty context. -/
theorem Kept.putFirst (hc : c.access = .put handle) (hhandle : s.handle = none) :
    Kept ({ s.noted c handle with handle := some handle }.proceed c (.check handle)) := by
  intro h
  show ∃ t ∈ s.timers, _
  cases hnotes : s.notes c handle with
  | true =>
    -- The own timer is armed and goes into the context.
    rw [notes, Bool.and_eq_true] at hnotes
    obtain ⟨timer, htimer, haddr, harmed⟩ := (isArmed_iff s handle).mp hnotes.2
    exact ⟨timer, htimer, .inl (congrArg some haddr.symm), .inl harmed⟩
  | false =>
    rw [noted_of_not_notes hnotes] at h ⊢
    obtain ⟨timer, htimer, hwhere, harmed⟩ := hk h
    refine ⟨timer, htimer, ?_, harmed⟩
    rcases hwhere with hin | hcall
    · rw [hhandle] at hin
      cases hin
    · by_cases hown : c.returns = some timer.addr
      · rw [Call.returns, hc] at hown
        exact .inl hown
      · exact .inr (returns_others hown hcall [_])

/-- A call that finds another timer in the context is going to cancel its own. -/
theorem Kept.putLost (ho : Owned s) {other : Nat} (hc : c.access = .put handle)
    (hhandle : s.handle = some other)
    (hother : s.isArmed handle = true → (c.fresh && c.ok || s.answered && !s.fired) = true →
      s.isArmed other = true) : Kept ((s.noted c handle).proceed c (.cancel handle)) := by
  intro h
  show ∃ t ∈ s.timers, _
  have harmed_other (hother : s.isArmed other = true) :
      ∃ t ∈ s.timers, s.handle = some t.addr ∧ t.armed = true := by
    obtain ⟨timer, htimer, haddr, harmed⟩ := (isArmed_iff s other).mp hother
    exact ⟨timer, htimer, by rw [haddr, hhandle], harmed⟩
  cases hnotes : s.notes c handle with
  | true =>
    rw [notes, Bool.and_eq_true] at hnotes
    obtain ⟨timer, htimer, hin, harmed⟩ :=
      harmed_other (hother hnotes.2 (by rw [hnotes.1, Bool.true_or]))
    exact ⟨timer, htimer, .inl hin, .inl harmed⟩
  | false =>
    rw [noted_of_not_notes hnotes] at h ⊢
    have hanswered : s.answered = true := h
    obtain ⟨timer, htimer, hwhere, harmed⟩ := hk hanswered
    by_cases hown : c.returns = some timer.addr
    · -- The kept timer is the one that is going to be cancelled.
      rw [Call.returns, hc] at hown
      cases hfired : s.fired with
      | true =>
        -- The other timer is alive, since the context has it.
        have halive : other ∈ s.timers.map Timer.addr := by
          refine ho.perm.subset (List.mem_append_left _ ?_)
          rw [hhandle]
          exact List.mem_singleton_self other
        obtain ⟨spare, hspare, haddr⟩ := List.mem_map.mp halive
        exact ⟨spare, hspare, .inl (by rw [haddr]; exact hhandle), .inr hfired⟩
      | false =>
        have harmed' : timer.armed = true := harmed.resolve_right (by simp [hfired])
        have hmine : s.isArmed handle = true :=
          (isArmed_iff s handle).mpr ⟨timer, htimer, (Option.some.inj hown).symm, harmed'⟩
        obtain ⟨timer', htimer', hin, harmed'⟩ :=
          harmed_other (hother hmine (by simp [hanswered, hfired]))
        exact ⟨timer', htimer', .inl hin, .inl harmed'⟩
    · exact ⟨timer, htimer, hwhere.imp_right fun hcall => returns_others hown hcall [_], harmed⟩

/-- The handle and the calls matter only for the kept timer. -/
theorem Kept.advance (ho : Owned s) (hcur : Current s) (hc : c ∈ s.calls)
    (hguard : Undisturbed s (.advance c answer)) (hadv : Advanced s c t) : Kept t := by
  cases hadv with
  | prepare delay hprepares haccess =>
    refine hk.of_others (c := c) ?_ (l := [_]) rfl rfl rfl rfl rfl
    rw [Call.returns]
    split <;> simp_all [Access.prepares]
  | loadGen hc' =>
    exact hk.of_others (by rw [Call.returns, hc']) (l := [_]) rfl rfl rfl rfl rfl
  | exchange hc' => exact hk.exchange hc'
  | rearm hc' => exact hk.rearm hc' _
  | armFail hc' =>
    exact hk.of_others (by rw [Call.returns, hc']) (l := []) rfl rfl rfl rfl rfl
  | armNew hc' hnew => exact hk.armNew hc'
  | putFirst hc' hhandle => exact hk.putFirst hc' hhandle
  | putLost hc' hhandle =>
    rw [Undisturbed, hc', Harmless] at hguard
    refine hk.putLost ho hc' hhandle (hguard.1 _ ?_)
    rw [hhandle]
    exact List.mem_singleton_self _
  | cancel hc' =>
    exact hk.cancel ho hc (by rw [Call.held, hc']) (by rw [Call.returns, hc']) (l := []) rfl rfl
      rfl rfl rfl
  | checkStale hc' hgen =>
    exact hk.of_others (by rw [Call.returns, hc']) (l := [_]) rfl rfl rfl rfl rfl
  | checkSame hc' hgen =>
    exact hk.of_others (by rw [Call.returns, hc']) (l := []) rfl rfl rfl rfl rfl
  | removeOwn hc' hhandle =>
    rw [Undisturbed, hc', Harmless] at hguard
    intro h
    have hnot := hguard hhandle
    rw [show s.answered = true from h] at hnot
    cases hnot
  | removeOther hc' hhandle =>
    exact hk.of_others (by rw [Call.returns, hc']) (l := []) rfl rfl rfl rfl rfl
  | increment hc' =>
    intro h
    cases h
  | takeNone hc' hhandle =>
    exact hk.of_others (by rw [Call.returns, hc']) (l := [_]) rfl rfl rfl rfl rfl
  | @takeSome delayMs handle hc' hhandle =>
    -- While a reset is under way, no retry has begun after the last reset.
    intro h
    have hbegun := hcur.answered h
    rw [hcur.counted c hc (by rw [Call.counted, hc'])] at hbegun
    cases hbegun
  | takeCancel hc' =>
    exact hk.cancel ho hc (by rw [Call.held, hc']) (by rw [Call.returns, hc']) (l := [_]) rfl rfl
      rfl rfl rfl
  | storeDelay hc' =>
    exact hk.of_others (by rw [Call.returns, hc']) (l := []) rfl rfl rfl rfl rfl

end

/-! ### The timer after a reset -/

/-- After a reset has taken the handle and while no fresh retry begins, a timer in the context
belongs to an older retry that is going to take it out. -/
def Cleared (s : Context) : Prop :=
  0 < s.resets → s.begun = false → s.willTake = false → ∀ handle, s.handle = some handle →
    ∃ c ∈ s.calls, c.access = .remove handle ∨ c.access = .check handle ∧ c.seen ≠ s.resets

/-- No reset is going to take the handle when it is none of the calls. -/
theorem willTake_false (hc : c.willTake = false) (hcalls : t.calls = l ++ s.calls.erase c)
    (ht : t.willTake = false) : s.willTake = false := by
  rw [willTake, List.any_eq_false] at *
  intro d hd
  by_cases hsame : d = c
  · rw [hsame, hc]
    exact Bool.false_ne_true
  · refine ht d ?_
    rw [hcalls]
    exact mem_others hd hsame l

/-- A step of a call that is not about to take its own handle out. -/
theorem Cleared.of_others (hcl : Cleared s) (hcalls : t.calls = l ++ s.calls.erase c)
    (hwill : c.willTake = false)
    (hwitness : ∀ handle, s.handle = some handle →
      ¬(c.access = .remove handle ∨ c.access = .check handle ∧ c.seen ≠ s.resets))
    (hhandle : t.handle = s.handle) (hresets : t.resets = s.resets) (hbegun : t.begun = s.begun) :
    Cleared t := by
  intro hpos hnone htake handle hin
  rw [hresets] at hpos
  rw [hbegun] at hnone
  rw [hhandle] at hin
  obtain ⟨d, hd, hd'⟩ := hcl hpos hnone (willTake_false hwill hcalls htake) handle hin
  rw [hcalls, hresets]
  refine ⟨d, mem_others hd ?_ l, hd'⟩
  rintro rfl
  exact hwitness handle hin hd'

/-- An empty context has nothing to clear. -/
theorem Cleared.of_none (hhandle : t.handle = none) : Cleared t := by
  intro _ _ _ handle hin
  rw [hhandle] at hin
  cases hin

theorem Cleared.advance (hcl : Cleared s) (hcur : Current s) (hc : c ∈ s.calls)
    (hguard : Undisturbed s (.advance c answer)) (hadv : Advanced s c t) : Cleared t := by
  cases hadv with
  | prepare delay hprepares haccess =>
    refine hcl.of_others (c := c) (l := [_]) rfl ?_ ?_ rfl rfl rfl
    · rw [Call.willTake]
      split <;> simp_all [Access.prepares]
    · intro handle _ h
      rcases h with h | ⟨h, -⟩ <;> rw [h] at hprepares <;> cases hprepares
  | loadGen hc' =>
    exact hcl.of_others (l := [_]) rfl (by rw [Call.willTake, hc']) (by simp [hc']) rfl rfl rfl
  | exchange hc' => exact .of_none rfl
  | rearm hc' =>
    exact hcl.of_others (l := [_]) rfl (by rw [Call.willTake, hc']) (by simp [hc']) rfl rfl rfl
  | armFail hc' =>
    exact hcl.of_others (l := []) rfl (by rw [Call.willTake, hc']) (by simp [hc']) rfl rfl rfl
  | armNew hc' hnew =>
    exact hcl.of_others (l := [_]) rfl (by rw [Call.willTake, hc']) (by simp [hc']) rfl rfl rfl
  | @putFirst handle hc' hhandle =>
    intro hpos hnone htake handle' hin
    obtain rfl : handle = handle' := Option.some.inj hin
    have htake' :=
      willTake_false (s := s) (c := c) (by rw [Call.willTake, hc']) (l := [_]) rfl htake
    rw [Undisturbed, hc', Harmless] at hguard
    refine ⟨_, List.mem_cons_self, .inr ⟨rfl, ?_⟩⟩
    -- Neither a fresh retry nor one that read the current count puts its handle back now.
    intro hseen
    cases hfresh : c.fresh with
    | true =>
      have hbegun := hcur.fresh c hc hfresh
      rw [show s.begun = false from hnone] at hbegun
      cases hbegun
    | false =>
      rcases Bool.or_eq_true_iff.mp (hguard.2 hhandle hfresh hseen hpos) with h | h
      · rw [htake'] at h
        cases h
      · rw [show s.begun = false from hnone] at h
        cases h
  | putLost hc' hhandle =>
    exact hcl.of_others (l := [_]) rfl (by rw [Call.willTake, hc']) (by simp [hc']) rfl rfl rfl
  | cancel hc' =>
    exact hcl.of_others (l := []) rfl (by rw [Call.willTake, hc']) (by simp [hc']) rfl rfl rfl
  | @checkStale handle hc' hgen =>
    intro hpos hnone htake handle' hin
    have htake' :=
      willTake_false (s := s) (c := c) (by rw [Call.willTake, hc']) (l := [_]) rfl htake
    obtain ⟨d, hd, hd'⟩ := hcl hpos hnone htake' handle' hin
    by_cases hsame : d = c
    · refine ⟨_, List.mem_cons_self, .inl ?_⟩
      rw [hsame, hc'] at hd'
      rcases hd' with h | ⟨h, -⟩
      · cases h
      · cases h
        rfl
    · exact ⟨d, mem_others hd hsame [_], hd'⟩
  | checkSame hc' hgen =>
    rw [Undisturbed, hc', Harmless] at hguard
    refine hcl.of_others (l := []) rfl (by rw [Call.willTake, hc']) ?_ rfl rfl rfl
    intro handle' _ h
    rcases h with h | ⟨_, h⟩
    · rw [hc'] at h
      cases h
    · exact h (hguard hgen)
  | removeOwn hc' hhandle => exact .of_none rfl
  | removeOther hc' hhandle =>
    refine hcl.of_others (l := []) rfl (by rw [Call.willTake, hc']) ?_ rfl rfl rfl
    intro handle' hin h
    rw [hc'] at h
    rcases h with h | ⟨h, -⟩
    · cases h
      exact hhandle hin
    · cases h
  | increment hc' =>
    intro _ _ htake
    cases htake
  | takeNone hc' hhandle => exact .of_none hhandle
  | takeSome hc' hhandle => exact .of_none rfl
  | takeCancel hc' =>
    exact hcl.of_others (l := [_]) rfl (by rw [Call.willTake, hc']) (by simp [hc']) rfl rfl rfl
  | storeDelay hc' =>
    exact hcl.of_others (l := []) rfl (by rw [Call.willTake, hc']) (by simp [hc']) rfl rfl rfl

/-! ### The run -/

/-- What every undisturbed run keeps. -/
structure Inv (s : Context) : Prop where
  owned : Owned s
  current : Current s
  kept : Kept s
  cleared : Cleared s

theorem Inv.initial (h : Initial s) : Inv s := by
  obtain ⟨delay, rfl⟩ := h
  exact ⟨⟨.nil, .nil⟩, ⟨nofun, nofun, nofun⟩, nofun, .of_none rfl⟩

/-- A new call has no handle. -/
theorem Owned.begin (ho : Owned s) (hcalls : t.calls = c :: s.calls) (hheld : c.held = none)
    (hhandle : t.handle = s.handle) (htimers : t.timers = s.timers) : Owned t := by
  have howned : Backoff.owned t = Backoff.owned s := by
    rw [Backoff.owned, hcalls, List.flatMap_cons, hheld, hhandle]
    rfl
  refine ⟨?_, ?_⟩
  · rw [howned, htimers]
    exact ho.perm
  · rw [htimers]
    exact ho.nodup

theorem Kept.begin (hk : Kept s) (hcalls : t.calls = c :: s.calls) (hhandle : t.handle = s.handle)
    (htimers : t.timers = s.timers) (hanswered : t.answered = s.answered)
    (hfired : t.fired = s.fired) : Kept t := by
  intro h
  rw [hanswered] at h
  obtain ⟨timer, htimer, hwhere, harmed⟩ := hk h
  rw [htimers, hhandle, hcalls, hfired]
  refine ⟨timer, htimer, hwhere.imp id ?_, harmed⟩
  intro ⟨d, hd, hd'⟩
  exact ⟨d, List.mem_cons_of_mem c hd, hd'⟩

/-- A retry or a fire begins. -/
theorem Current.begin (hcur : Current s) {access : Access} (hprepares : access.prepares) :
    Current (s.begin access) := by
  refine ⟨?_, ?_, ?_⟩
  · intro d hd h
    show (s.begun || !s.resetting) = true
    rcases List.mem_cons.mp hd with rfl | hd
    · rw [Bool.or_eq_true]
      exact .inr h
    · rw [hcur.fresh d hd h, Bool.true_or]
  · intro h
    show (s.begun || !s.resetting) = true
    rw [hcur.answered h, Bool.true_or]
  · intro d hd h
    show (s.begun || !s.resetting) = false
    rcases List.mem_cons.mp hd with rfl | hd
    · cases access <;> simp_all [Call.counted, Access.prepares]
    · have hreset : s.resetting = true := by
        refine List.any_eq_true.mpr ⟨d, hd, ?_⟩
        rw [Call.counted] at h
        rw [Call.isReset]
        split at h <;> simp_all
      rw [hcur.counted d hd h, hreset]
      rfl

theorem Cleared.begin (hcl : Cleared s) (access : Access) : Cleared (s.begin access) := by
  intro hpos hnone htake handle hin
  have hnone' : s.begun = false := (Bool.or_eq_false_iff.mp hnone).1
  have htake' : s.willTake = false := by
    rw [willTake, List.any_eq_false] at *
    intro d hd
    exact htake d (List.mem_cons_of_mem _ hd)
  obtain ⟨d, hd, hd'⟩ := hcl hpos hnone' htake' handle hin
  exact ⟨d, List.mem_cons_of_mem _ hd, hd'⟩

/-- A timer that fires keeps its address. -/
theorem Owned.step {a : Action} (ho : Owned s) (ht : step s a = some t) : Owned t := by
  cases a with
  | retry =>
    obtain rfl := Option.some.inj ht
    exact ho.begin rfl rfl rfl rfl
  | fire =>
    obtain rfl := Option.some.inj ht
    exact ho.begin rfl rfl rfl rfl
  | reset delayMs =>
    obtain rfl := Option.some.inj ht
    exact ho.begin rfl rfl rfl rfl
  | advance c answer =>
    rw [Backoff.step, Option.ite_none_right_eq_some] at ht
    exact ho.advance ht.1 (advance_cases ht.2)
  | expire addr =>
    rw [Backoff.step, Option.ite_none_right_eq_some] at ht
    obtain rfl := Option.some.inj ht.2
    have haddrs : (s.timers.map fun t => if t.addr = addr then { t with armed := false } else t).map
        Timer.addr = s.timers.map Timer.addr := by
      rw [List.map_map]
      refine List.map_congr_left ?_
      intro t _
      dsimp only [Function.comp]
      split <;> rfl
    exact ⟨haddrs ▸ ho.perm, haddrs ▸ ho.nodup⟩

/-- The step lemma. -/
theorem Inv.step {a : Action} (hi : Inv s) (hguard : Undisturbed s a) (ht : step s a = some t) :
    Inv t := by
  have ⟨ho, hcur, hk, hcl⟩ := hi
  have ho' := ho.step ht
  cases a with
  | retry =>
    obtain rfl := Option.some.inj ht
    exact ⟨ho', hcur.begin rfl, hk.begin rfl rfl rfl rfl rfl, hcl.begin _⟩
  | fire =>
    obtain rfl := Option.some.inj ht
    exact ⟨ho', hcur.begin rfl, hk.begin rfl rfl rfl rfl rfl, hcl.begin _⟩
  | reset delayMs =>
    obtain rfl := Option.some.inj ht
    refine ⟨ho', ⟨?_, hcur.answered, ?_⟩, hk.begin rfl rfl rfl rfl rfl, ?_⟩
    · exact List.forall_mem_cons.mpr ⟨nofun, hcur.fresh⟩
    · exact List.forall_mem_cons.mpr ⟨nofun, hcur.counted⟩
    · intro _ _ htake
      cases htake
  | advance c answer =>
    rw [Backoff.step, Option.ite_none_right_eq_some] at ht
    have hadv := advance_cases ht.2
    exact ⟨ho', hcur.advance ht.1 hadv, hk.advance ho hcur ht.1 hguard hadv,
      hcl.advance hcur ht.1 hguard hadv⟩
  | expire addr =>
    rw [Backoff.step, Option.ite_none_right_eq_some] at ht
    obtain rfl := Option.some.inj ht.2
    refine ⟨ho', ⟨hcur.fresh, hcur.answered, hcur.counted⟩, ?_, hcl⟩
    intro h
    obtain ⟨timer, htimer, hwhere, -⟩ := hk h
    refine ⟨_, List.mem_map_of_mem htimer, ?_, .inr rfl⟩
    split <;> exact hwhere

/-- What holds with no call under way. -/
structure Settled (s : Context) : Prop where
  /-- The timer of the context is the only one that is alive. -/
  single : s.timers.map Timer.addr = s.handle.toList
  /-- A fresh retry that was answered has left a timer in the context, armed unless one has fired
  since. -/
  armed : s.answered = true →
    ∃ t ∈ s.timers, s.handle = some t.addr ∧ (t.armed = true ∨ s.fired = true)
  /-- After a reset and without a fresh retry no timer is left. -/
  cleared : 0 < s.resets → s.begun = false → s.timers = []

/-- At rest the only owner is the context. -/
theorem Owned.single (ho : Owned s) (hrest : s.calls = []) :
    s.timers.map Timer.addr = s.handle.toList := by
  have hperm := ho.perm
  rw [Backoff.owned, hrest, List.flatMap_nil, List.append_nil] at hperm
  cases hhandle : s.handle with
  | none =>
    rw [hhandle] at hperm
    exact hperm.symm.eq_nil
  | some handle =>
    rw [hhandle] at hperm
    exact List.perm_singleton.mp hperm.symm

/-- In every run, the timer of the context is the only one that is alive at rest. -/
theorem timers_at_rest (h : Reach Initial step (fun _ _ => True) s) (hrest : s.calls = []) :
    s.timers.map Timer.addr = s.handle.toList := by
  have ho : Owned s := by
    refine h.inv Owned (fun _ h0 => (Inv.initial h0).owned) ?_
    intro s a t ho _ ht
    exact ho.step ht
  exact ho.single hrest

/-- **The backoff context at rest.** After a run without a harmful step, the context has the only
timer, a fresh retry keeps its timer, and a reset leaves none. -/
theorem settled_of_undisturbed (h : Reach Initial step Undisturbed s) (hrest : s.calls = []) :
    Settled s := by
  have hi : Inv s := h.inv Inv (fun _ h0 => .initial h0) fun _ _ _ hi hguard ht =>
    hi.step hguard ht
  have hsingle := hi.owned.single hrest
  refine ⟨hsingle, ?_, ?_⟩
  · intro hanswered
    obtain ⟨timer, htimer, hwhere, harmed⟩ := hi.kept hanswered
    refine ⟨timer, htimer, hwhere.resolve_right ?_, harmed⟩
    intro ⟨d, hd, _⟩
    rw [hrest] at hd
    cases hd
  · intro hpos hnone
    cases hhandle : s.handle with
    | none =>
      rw [hhandle] at hsingle
      exact List.map_eq_nil_iff.mp hsingle
    | some handle =>
      have htake : s.willTake = false := by
        rw [willTake, hrest]
        rfl
      obtain ⟨d, hd, _⟩ := hi.cleared hpos hnone htake handle hhandle
      rw [hrest] at hd
      cases hd

/-- An access of the call with these variables. -/
def go (access : Access) (gen : Nat) (ok fresh : Bool) (addr : Option Nat) : Action :=
  .advance { access, gen, ok, seen := gen, fresh } { addr }

/-- A reset of a context without a handle. -/
def resetAlone : List Action :=
  [.reset 1000, go (.increment 1000) 0 false false none, go (.take 1000) 0 false false none,
    go (.storeDelay 1000) 0 false false none]

/-- A retry after one reset, up to its arming. -/
def retryToArm : List Action :=
  [.retry, go (.loadDelay true) 0 false true none, go (.swapDelay 1000) 0 false true none,
    go (.loadGen 1000) 0 false true none, go (.exchange 1000) 1 false true none]

/-- A reset, and then a retry. -/
def resetThenRetry : List Action :=
  resetAlone ++ retryToArm ++ [go (.arm 1000 none) 1 false true (some 1),
    go (.put 1) 1 true true none, go (.check 1) 1 true true none]

/-- The retry leaves its timer armed. -/
theorem resetThenRetry_settled : ∃ s, Reach Initial step Undisturbed s ∧ s.answered = true ∧
    s.timers = [⟨1, true, 1000⟩] ∧ Settled s := by
  have hrun : Reach Initial step Undisturbed _ :=
    Reach.exec resetThenRetry (.start ⟨{}, rfl⟩) (by decide) rfl
  exact ⟨_, hrun, rfl, rfl, settled_of_undisturbed hrun rfl⟩

theorem timers_at_rest_resetThenRetry : ∃ s, exec step {} resetThenRetry = some s ∧
    s.timers.map Timer.addr = [1] ∧ s.timers.map Timer.addr = s.handle.toList :=
  ⟨_, rfl, rfl, timers_at_rest (Reach.exec_true resetThenRetry (.start ⟨{}, rfl⟩) rfl) rfl⟩

/-- A fire, a reset in the middle of it, and then a retry that takes over its timer before the
fire compares the counts. -/
def takenOver : List Action :=
  [.fire, go (.loadDelay false) 0 false true none, go (.loadGen 1000) 0 false true none,
    go (.exchange 1000) 0 false true none] ++ resetAlone ++
  [go (.arm 1000 none) 0 false false (some 1), go (.put 1) 0 true false none] ++ retryToArm ++
  [go (.arm 1000 (some 1)) 1 false true none, go (.put 1) 1 true true none,
    go (.check 1) 1 true true none, go (.check 1) 0 true false none,
    go (.remove 1) 0 true false none, go (.cancel 1) 0 true false none]

/-- The fire cancels the timer of the retry. -/
theorem takenOver_not_settled : ∃ s, Reach Initial step (fun _ _ => True) s ∧ s.calls = [] ∧
    s.answered = true ∧ s.timers = [] ∧ ¬ Settled s := by
  refine ⟨_, Reach.exec takenOver (.start ⟨{}, rfl⟩) (by decide) rfl, rfl, rfl, rfl, ?_⟩
  intro hsettled
  obtain ⟨timer, htimer, -⟩ := hsettled.armed rfl
  cases htimer

end RainMakerNeo.Common.Backoff
