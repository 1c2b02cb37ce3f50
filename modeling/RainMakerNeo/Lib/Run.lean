import Mathlib.Order.Basic

/-!
# `RainMakerNeo.Lib.Run`: guarded runs of a step function

A component is a step function `step : σ → α → Option σ`. The action says which event the
component handles next and how the environment answers inside that event. `none` means that
the action does not apply in the state.

`Reach` collects the states of the runs that start in `init` and whose steps all meet a guard.
A guard reads the state before the step and the action. With the guard `fun _ _ => True` the
runs are all runs. An exclusion of one faulty step is a stronger guard.

`Reach.inv` is the invariant rule. `Reach.exec` turns a list of actions into a reachable state,
which is how a concrete run is exhibited.
-/

set_option autoImplicit false

namespace RainMakerNeo.Lib

variable {σ α : Type*}

/-- The states that the runs of `step` from `init` visit, where `guard` holds of every step. -/
inductive Reach (init : σ → Prop) (step : σ → α → Option σ) (guard : σ → α → Prop) : σ → Prop
  | start {s : σ} (h : init s) : Reach init step guard s
  | next {s t : σ} {a : α} (hs : Reach init step guard s) (hg : guard s a)
      (ht : step s a = some t) : Reach init step guard t

namespace Reach

variable {init : σ → Prop} {step : σ → α → Option σ} {guard guard' : σ → α → Prop}

/-- The invariant rule: what holds at the start and survives each guarded step holds of every
state that a guarded run visits. -/
theorem inv (inv : σ → Prop) (h0 : ∀ s, init s → inv s)
    (hstep : ∀ s a t, inv s → guard s a → step s a = some t → inv t) {s : σ}
    (h : Reach init step guard s) : inv s := by
  induction h with
  | start h => exact h0 _ h
  | next _ hg ht ih => exact hstep _ _ _ ih hg ht

end Reach

/-- The state after a list of actions, `none` when one of them does not apply. -/
def exec (step : σ → α → Option σ) (s : σ) : List α → Option σ
  | [] => some s
  | a :: as => (step s a).bind fun t => exec step t as

/-- The guard at each step of the list of actions, run from `s`. -/
def execGuard (step : σ → α → Option σ) (guard : σ → α → Bool) (s : σ) : List α → Bool
  | [] => true
  | a :: as => guard s a && match step s a with
    | some t => execGuard step guard t as
    | none => true

variable {step : σ → α → Option σ}

/-- A list of actions that runs through with the guard at each step ends in a state that the
guarded runs visit. -/
theorem Reach.exec {init : σ → Prop} {guard : σ → α → Prop} [∀ s a, Decidable (guard s a)]
    {s t : σ} (as : List α) (hs : Reach init step guard s)
    (hg : execGuard step (fun s a => decide (guard s a)) s as = true)
    (ht : exec step s as = some t) : Reach init step guard t := by
  induction as generalizing s with
  | nil =>
    obtain rfl : s = t := by simpa [Lib.exec] using ht
    exact hs
  | cons a as ih =>
    rw [Lib.exec] at ht
    rw [execGuard, Bool.and_eq_true, decide_eq_true_eq] at hg
    obtain ⟨u, hu, ht⟩ := Option.bind_eq_some_iff.mp ht
    rw [hu] at hg
    exact ih (.next hs hg.1 hu) hg.2 ht

/-- A list of actions that runs through ends in a state that the runs visit. -/
theorem Reach.exec_true {init : σ → Prop} {s t : σ} (as : List α)
    (hs : Reach init step (fun _ _ => True) s) (ht : RainMakerNeo.Lib.exec step s as = some t) :
    Reach init step (fun _ _ => True) t := by
  induction as generalizing s with
  | nil =>
    obtain rfl : s = t := by simpa [Lib.exec] using ht
    exact hs
  | cons a as ih =>
    rw [Lib.exec] at ht
    obtain ⟨u, hu, ht⟩ := Option.bind_eq_some_iff.mp ht
    exact ih (.next hs trivial hu) ht

end RainMakerNeo.Lib
