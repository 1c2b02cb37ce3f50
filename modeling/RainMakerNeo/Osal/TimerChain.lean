import Mathlib.Algebra.Group.Nat.Defs
import Mathlib.Data.List.Chain
import RainMakerNeo.Lib.Run

/-!
# `RainMakerNeo.Osal.TimerChain`: a delay over several timer periods

`osal_timer_chain.h` decides what an expiry of a split delay does next: run the task, arm another
segment, or both. A `Chain` is a delay beyond the largest period, and `Chain.step` is one expiry of
it. The next segment starts at the time of the expiry, as `__dispatch_one` records it.

`boundaryAfter` is what the boundary of the code is for: the first point of the grid after a tick.
The code agrees with it as long as it stays below `2 ^ 64` (`toNat_boundary`).

A periodic run may come a slack before its boundary. Then the next segment starts before the
boundary as well, its target is the same boundary again, and the task runs twice for it. `InTime`
keeps away from this, and `serves_iff` says that nothing else goes wrong.
-/

set_option autoImplicit false

namespace RainMakerNeo.Osal

open RainMakerNeo.Lib

/-! ### The model -/

/-- `osal_tick_period_clamp`. -/
def tickPeriodClamp (totalTicks maxTicks : UInt64) : UInt64 :=
  let maxTicks := if maxTicks = 0 then 1 else maxTicks
  if totalTicks = 0 then 1
  else if maxTicks < totalTicks then maxTicks
  else totalTicks

/-- `osal_timer_chain_step_t`. -/
structure ChainStep where
  runTask : Bool
  rearm : Bool
  armTicks : UInt64
  deriving DecidableEq, Repr

/-- `osal_timer_chain_boundary`. -/
def chainBoundary (epochTicks periodTicks nowTicks : UInt64) : UInt64 :=
  if periodTicks = 0 ∨ nowTicks < epochTicks then epochTicks
  else epochTicks + ((nowTicks - epochTicks) / periodTicks + 1) * periodTicks

/-- The `target` of `osal_timer_chain_next`. -/
def chainTarget (deadlineTicks totalTicks segmentStart : UInt64) (isPeriodic : Bool) : UInt64 :=
  if isPeriodic then chainBoundary deadlineTicks totalTicks segmentStart else deadlineTicks

/-- `osal_timer_chain_next`. -/
def chainNext (nowTicks deadlineTicks totalTicks segmentStart : UInt64) (isPeriodic : Bool)
    (maxTicks slackTicks : UInt64) : ChainStep :=
  if totalTicks ≤ maxTicks then { runTask := true, rearm := false, armTicks := 0 }
  else
    let target := chainTarget deadlineTicks totalTicks segmentStart isPeriodic
    if nowTicks < target ∧ slackTicks < target - nowTicks then
      { runTask := false, rearm := true, armTicks := tickPeriodClamp (target - nowTicks) maxTicks }
    else if isPeriodic then
      let next := chainBoundary deadlineTicks totalTicks (nowTicks + slackTicks)
      { runTask := true, rearm := true, armTicks := tickPeriodClamp (next - nowTicks) maxTicks }
    else { runTask := true, rearm := false, armTicks := 0 }

/-- A delay that does not fit one timer period, from the tick at which it is scheduled. -/
structure Chain where
  start : UInt64
  total : UInt64
  max : UInt64
  slack : UInt64
  periodic : Bool
  slack_lt : slack < max
  max_lt : max < total
  fits : start.toNat + total.toNat < 2 ^ 64

/-- A run of the task: the boundary that it is for, and when it comes. -/
structure ChainRun where
  target : UInt64
  time : UInt64
  deriving DecidableEq, Repr

/-- Between two expiries. -/
structure ChainState where
  segmentStart : UInt64
  /-- The period of the armed segment, if the timer is armed. -/
  armed : Option UInt64
  /-- The runs, the last one first. This does not exist in the code. -/
  runs : List ChainRun
  deriving DecidableEq, Repr

namespace Chain

variable (c : Chain)

/-- `deadline_ticks`: the first fire of a periodic timer. -/
def epoch : UInt64 := c.start + c.total

/-- The chain is armed for its first segment. -/
def initial : ChainState where
  segmentStart := c.start
  armed := some (tickPeriodClamp c.total c.max)
  runs := []

/-- What the expiry of a segment aims at. -/
def target (segmentStart : UInt64) : UInt64 := chainTarget c.epoch c.total segmentStart c.periodic

/-- An expiry at a tick, which is at most the slack too early and arbitrarily late. -/
def step (s : ChainState) (now : UInt64) : Option ChainState :=
  s.armed.bind fun arm =>
    if s.segmentStart ≤ now ∧ s.segmentStart.toNat + arm.toNat ≤ now.toNat + c.slack.toNat then
      let r := chainNext now c.epoch c.total s.segmentStart c.periodic c.max c.slack
      some {
        segmentStart := if r.rearm then now else s.segmentStart
        armed := if r.rearm then some r.armTicks else none
        runs := if r.runTask then ⟨c.target s.segmentStart, now⟩ :: s.runs else s.runs }
    else none

end Chain

/-! ### The grid of the boundaries -/

/-- The first point after `x` of the grid that starts at `epoch`. -/
def boundaryAfter (epoch period x : Nat) : Nat :=
  if x < epoch then epoch else epoch + ((x - epoch) / period + 1) * period

section Grid

variable {epoch period x y : Nat}

theorem boundaryAfter_of_lt (h : x < epoch) : boundaryAfter epoch period x = epoch := if_pos h

theorem exists_boundaryAfter (epoch period x : Nat) :
    ∃ k, boundaryAfter epoch period x = epoch + k * period := by
  rw [boundaryAfter]
  split
  · exact ⟨0, by omega⟩
  · exact ⟨_, rfl⟩

theorem lt_boundaryAfter (hperiod : 0 < period) (epoch x : Nat) :
    x < boundaryAfter epoch period x := by
  rw [boundaryAfter]
  split
  · assumption
  · have hdiv := Nat.lt_mul_div_succ (x - epoch) hperiod
    rw [Nat.mul_comm] at hdiv
    omega

/-- No point of the grid is between. -/
theorem boundaryAfter_le (k : Nat) (h : x < epoch + k * period) :
    boundaryAfter epoch period x ≤ epoch + k * period := by
  rw [boundaryAfter]
  split
  · omega
  · next hle =>
    have hk : (x - epoch) / period < k := by
      rw [Nat.div_lt_iff_lt_mul]
      · omega
      · refine Nat.pos_of_ne_zero ?_
        rintro rfl
        omega
    have := Nat.mul_le_mul_right period (show (x - epoch) / period + 1 ≤ k from hk)
    omega

/-- The next point is at most a period away, once the grid has begun. -/
theorem boundaryAfter_le_add (h : epoch ≤ x) :
    boundaryAfter epoch period x ≤ x + period := by
  rw [boundaryAfter, if_neg (by omega), Nat.add_mul, Nat.one_mul]
  have := Nat.div_mul_le_self (x - epoch) period
  omega

/-- Up to the next point, the next point stays the same. -/
theorem boundaryAfter_eq (hperiod : 0 < period) (hxy : x ≤ y)
    (hy : y < boundaryAfter epoch period x) :
    boundaryAfter epoch period y = boundaryAfter epoch period x := by
  obtain ⟨k, hk⟩ := exists_boundaryAfter epoch period x
  obtain ⟨j, hj⟩ := exists_boundaryAfter epoch period y
  have hle : boundaryAfter epoch period y ≤ epoch + k * period := boundaryAfter_le k (by omega)
  have hlt := lt_boundaryAfter hperiod epoch y
  have hge : boundaryAfter epoch period x ≤ epoch + j * period := boundaryAfter_le j (by omega)
  omega

end Grid

/-! ### The arithmetic of the code -/

/-- A period that can be armed. -/
theorem tickPeriodClamp_bounds {max : UInt64} (h : 0 < max.toNat) (total : UInt64) :
    1 ≤ (tickPeriodClamp total max).toNat ∧ (tickPeriodClamp total max).toNat ≤ max.toNat := by
  have hmax : max ≠ 0 := by
    rintro rfl
    exact absurd h (Nat.lt_irrefl 0)
  rw [tickPeriodClamp, if_neg hmax]
  split
  · exact ⟨Nat.le_refl 1, h⟩
  · next hzero =>
    split
    · exact ⟨h, Nat.le_refl _⟩
    · next hle =>
      rw [UInt64.not_lt, UInt64.le_iff_toNat_le] at hle
      refine ⟨Nat.pos_of_ne_zero fun heq => hzero ?_, hle⟩
      exact UInt64.toNat_inj.mp heq

/-- A delay beyond the slack is armed beyond the slack. -/
theorem lt_tickPeriodClamp {max total slack : UInt64} (hmax : slack < max) (htotal : slack < total) :
    slack < tickPeriodClamp total max := by
  rw [UInt64.lt_iff_toNat_lt] at hmax htotal
  have hmax0 : max ≠ 0 := by
    rintro rfl
    exact absurd hmax (Nat.not_lt_zero _)
  have htotal0 : total ≠ 0 := by
    rintro rfl
    exact absurd htotal (Nat.not_lt_zero _)
  rw [tickPeriodClamp, if_neg hmax0, if_neg htotal0, UInt64.lt_iff_toNat_lt]
  split
  · exact hmax
  · exact htotal

/-- The boundary of the code is the next point of the grid, up to a wrap. -/
theorem toNat_boundary (epoch : UInt64) {period : UInt64} (hperiod : 0 < period.toNat)
    (now : UInt64) : (chainBoundary epoch period now).toNat
      = boundaryAfter epoch.toNat period.toNat now.toNat % 2 ^ 64 := by
  have hne : period ≠ 0 := by
    rintro rfl
    exact absurd hperiod (Nat.lt_irrefl 0)
  rw [chainBoundary, boundaryAfter]
  by_cases hlt : now < epoch
  · rw [if_pos (.inr hlt), if_pos (UInt64.lt_iff_toNat_lt.mp hlt), Nat.mod_eq_of_lt epoch.toNat_lt]
  · rw [if_neg (by rintro (heq | hlt'); exacts [hne heq, hlt hlt']),
      if_neg (fun h => hlt (UInt64.lt_iff_toNat_lt.mpr h))]
    have hsub : (now - epoch).toNat = now.toNat - epoch.toNat :=
      UInt64.toNat_sub_of_le _ _ (UInt64.not_lt.mp hlt)
    simp [hsub]

namespace Chain

variable {c : Chain} {s t : ChainState} {now : UInt64}

theorem total_pos (c : Chain) : 0 < c.total.toNat := by
  have := UInt64.lt_iff_toNat_lt.mp c.max_lt
  omega

theorem max_pos (c : Chain) : 0 < c.max.toNat := by
  have := UInt64.lt_iff_toNat_lt.mp c.slack_lt
  omega

theorem toNat_epoch (c : Chain) : c.epoch.toNat = c.start.toNat + c.total.toNat := by
  rw [epoch, UInt64.toNat_add, Nat.mod_eq_of_lt c.fits]

/-- The first boundary after a tick. -/
def next (c : Chain) (x : UInt64) : Nat := boundaryAfter c.epoch.toNat c.total.toNat x.toNat

theorem lt_next (c : Chain) (x : UInt64) : x.toNat < c.next x := lt_boundaryAfter c.total_pos _ _

theorem toNat_target (hperiodic : c.periodic = true) (x : UInt64) :
    (c.target x).toNat = c.next x % 2 ^ 64 := by
  rw [target, chainTarget, if_pos hperiodic, toNat_boundary _ c.total_pos, next]

variable {x : UInt64} {nows : List UInt64}

theorem toNat_target_of_lt (hperiodic : c.periodic = true) (h : c.next x < 2 ^ 64) :
    (c.target x).toNat = c.next x := by
  rw [toNat_target hperiodic, Nat.mod_eq_of_lt h]

theorem target_oneShot (hperiodic : c.periodic = false) (x : UInt64) : c.target x = c.epoch := by
  rw [target, chainTarget, hperiodic]
  rfl

/-- An expiry arms the next segment, or it runs the task. -/
theorem step_cases (h : c.step s now = some t) :
    ∃ arm, s.armed = some arm ∧ s.segmentStart.toNat ≤ now.toNat
      ∧ s.segmentStart.toNat + arm.toNat ≤ now.toNat + c.slack.toNat
      ∧ (now.toNat + c.slack.toNat < (c.target s.segmentStart).toNat
          ∧ t = ⟨now, some (tickPeriodClamp (c.target s.segmentStart - now) c.max), s.runs⟩
        ∨ (c.target s.segmentStart).toNat ≤ now.toNat + c.slack.toNat
          ∧ t.runs = ⟨c.target s.segmentStart, now⟩ :: s.runs
          ∧ (c.periodic = true → t.segmentStart = now
            ∧ ∃ ticks, t.armed = some (tickPeriodClamp ticks c.max))
          ∧ (c.periodic = false → t.armed = none)) := by
  rw [step] at h
  obtain ⟨arm, harm, h⟩ := Option.bind_eq_some_iff.mp h
  refine ⟨arm, harm, ?_⟩
  split at h
  · next hexpiry =>
    cases Option.some.inj h
    refine ⟨UInt64.le_iff_toNat_le.mp hexpiry.1, hexpiry.2, ?_⟩
    have hsplit : ¬c.total ≤ c.max := by
      rw [UInt64.not_le]
      exact c.max_lt
    rw [chainNext, if_neg hsplit]
    show (_ ∧ _) ∨ _
    dsimp only
    rw [← target]
    by_cases hshort : now < c.target s.segmentStart ∧ c.slack < c.target s.segmentStart - now
    · have hlt := UInt64.lt_iff_toNat_lt.mp hshort.1
      have hslack := UInt64.lt_iff_toNat_lt.mp hshort.2
      rw [UInt64.toNat_sub_of_le _ _ (UInt64.le_of_lt hshort.1)] at hslack
      rw [if_pos hshort]
      exact .inl ⟨by omega, rfl⟩
    · rw [if_neg hshort]
      refine .inr ⟨?_, ?_⟩
      · by_contra hlate
        have hlt : now < c.target s.segmentStart := UInt64.lt_iff_toNat_lt.mpr (by omega)
        refine hshort ⟨hlt, ?_⟩
        rw [UInt64.lt_iff_toNat_lt, UInt64.toNat_sub_of_le _ _ (UInt64.le_of_lt hlt)]
        omega
      · cases hperiodic : c.periodic with
        | true => exact ⟨rfl, fun _ => ⟨rfl, _, rfl⟩, nofun⟩
        | false => exact ⟨rfl, nofun, fun _ => rfl⟩
  · cases h

/-! ### Service -/

/-- **Service.** Each armed period is a legal one. A one-shot runs once, then it is not armed any
more. A periodic task runs for boundaries that increase, at most the slack too early, and a late run
stands for all boundaries up to its time. -/
structure Serves (c : Chain) (s : ChainState) : Prop where
  armed : ∀ a ∈ s.armed, 1 ≤ a.toNat ∧ a.toNat ≤ c.max.toNat
  once : c.periodic = false → s.runs.length = if s.armed.isSome then 0 else 1
  deadline : c.periodic = false → ∀ r ∈ s.runs, r.target = c.epoch
  boundaries : ∀ r ∈ s.runs, ∃ k, r.target.toNat = c.epoch.toNat + k * c.total.toNat
  early : ∀ r ∈ s.runs, r.target.toNat ≤ r.time.toNat + c.slack.toNat
  increasing : s.runs.Pairwise fun r r' => r'.target < r.target
  coalesced : s.runs.IsChain fun r r' => r'.time < r.target
    ∧ ∀ k, r'.time.toNat < c.epoch.toNat + k * c.total.toNat →
      r.target.toNat ≤ c.epoch.toNat + k * c.total.toNat

/-- The expiries of a periodic chain aim below `2 ^ 64`, and only the last one runs the task before
its boundary. -/
def InTime (c : Chain) : ChainState → List UInt64 → Prop
  | _, [] => True
  | s, now :: nows =>
    (c.periodic = true → c.next s.segmentStart < 2 ^ 64
      ∧ (nows ≠ [] → (c.target s.segmentStart).toNat ≤ now.toNat + c.slack.toNat →
        c.target s.segmentStart ≤ now))
    ∧ ∀ t ∈ c.step s now, InTime c t nows

instance instDecidableInTime (c : Chain) :
    (nows : List UInt64) → (s : ChainState) → Decidable (c.InTime s nows)
  | [], _ => .isTrue trivial
  | now :: nows, s =>
    have (t : ChainState) : Decidable (c.InTime t nows) := instDecidableInTime c nows t
    inferInstanceAs (Decidable ((_ → _ ∧ (_ → _ → _)) ∧ ∀ t ∈ c.step s now, _))

/-- What holds while the runs are in time. -/
structure Good (c : Chain) (s : ChainState) : Prop extends Serves c s where
  passed : c.periodic = true → ∀ r ∈ s.runs, r.target.toNat ≤ s.segmentStart.toNat
  pending : c.periodic = true → ∀ r ∈ s.runs.head?, c.next s.segmentStart = c.next r.time

theorem Good.initial (c : Chain) : c.Good c.initial := by
  refine ⟨⟨?_, fun _ => rfl, nofun, nofun, nofun, .nil, .nil⟩, nofun, nofun⟩
  intro a ha
  cases Option.some.inj ha
  exact tickPeriodClamp_bounds c.max_pos _

/-- An expiry with a boundary below `2 ^ 64`. -/
theorem Good.serves (h : c.Good s)
    (hfits : c.periodic = true → c.next s.segmentStart < 2 ^ 64) (ht : c.step s now = some t) :
    c.Serves t := by
  obtain ⟨arm, harm, -, -, hcases⟩ := step_cases ht
  have hnone : c.periodic = false → s.runs = [] := by
    intro hperiodic
    have hlength := h.once hperiodic
    rw [harm] at hlength
    exact List.length_eq_zero_iff.mp hlength
  rcases hcases with ⟨-, rfl⟩ | ⟨hearly, hruns, hrearm, hdone⟩
  · refine ⟨?_, ?_, h.deadline, h.boundaries, h.early, h.increasing, h.coalesced⟩
    · intro a ha
      cases Option.some.inj ha
      exact tickPeriodClamp_bounds c.max_pos _
    · intro hperiodic
      show s.runs.length = 0
      rw [hnone hperiodic]
      rfl
  · have htarget : c.periodic = true → (c.target s.segmentStart).toNat = c.next s.segmentStart :=
      fun hperiodic => toNat_target_of_lt hperiodic (hfits hperiodic)
    refine ⟨?_, ?_, ?_, ?_, ?_, ?_, ?_⟩
    · intro a ha
      cases hperiodic : c.periodic with
      | true =>
        obtain ⟨-, ticks, harmed⟩ := hrearm hperiodic
        rw [harmed] at ha
        cases Option.some.inj ha
        exact tickPeriodClamp_bounds c.max_pos _
      | false =>
        rw [hdone hperiodic] at ha
        cases ha
    · intro hperiodic
      rw [hruns, hdone hperiodic, hnone hperiodic]
      rfl
    · intro hperiodic r hr
      rw [hruns, hnone hperiodic] at hr
      obtain rfl := List.mem_singleton.mp hr
      exact target_oneShot hperiodic _
    · intro r hr
      rw [hruns] at hr
      rcases List.mem_cons.mp hr with rfl | hr
      · cases hperiodic : c.periodic with
        | true =>
          rw [htarget hperiodic]
          exact exists_boundaryAfter _ _ _
        | false => exact ⟨0, by rw [target_oneShot hperiodic, Nat.zero_mul, Nat.add_zero]⟩
      · exact h.boundaries r hr
    · intro r hr
      rw [hruns] at hr
      rcases List.mem_cons.mp hr with rfl | hr
      · exact hearly
      · exact h.early r hr
    · rw [hruns, List.pairwise_cons]
      refine ⟨?_, h.increasing⟩
      intro r hr
      cases hperiodic : c.periodic with
      | true =>
        -- all earlier boundaries have passed when the segment starts
        rw [UInt64.lt_iff_toNat_lt, htarget hperiodic]
        exact Nat.lt_of_le_of_lt (h.passed hperiodic r hr) (c.lt_next _)
      | false =>
        rw [hnone hperiodic] at hr
        cases hr
    · rw [hruns, List.isChain_cons]
      refine ⟨?_, h.coalesced⟩
      intro r hr
      cases hperiodic : c.periodic with
      | true =>
        have hnext := h.pending hperiodic r hr
        refine ⟨?_, ?_⟩
        · rw [UInt64.lt_iff_toNat_lt, htarget hperiodic, hnext]
          exact c.lt_next _
        · intro k hk
          rw [htarget hperiodic, hnext]
          exact boundaryAfter_le k hk
      | false =>
        rw [hnone hperiodic] at hr
        cases hr

/-- An expiry that does not run the task too early. -/
theorem Good.step (h : c.Good s)
    (hfits : c.periodic = true → c.next s.segmentStart < 2 ^ 64
      ∧ ((c.target s.segmentStart).toNat ≤ now.toNat + c.slack.toNat →
        c.target s.segmentStart ≤ now)) (ht : c.step s now = some t) : c.Good t := by
  refine ⟨h.serves (fun hperiodic => (hfits hperiodic).1) ht, ?_, ?_⟩
  · intro hperiodic r hr
    obtain ⟨arm, -, hle, -, ⟨-, rfl⟩ | ⟨hearly, hruns, hrearm, -⟩⟩ := step_cases ht
    · exact Nat.le_trans (h.passed hperiodic r hr) hle
    · rw [(hrearm hperiodic).1]
      rw [hruns] at hr
      rcases List.mem_cons.mp hr with rfl | hr
      · exact UInt64.le_iff_toNat_le.mp ((hfits hperiodic).2 hearly)
      · exact Nat.le_trans (h.passed hperiodic r hr) hle
  · intro hperiodic r hr
    obtain ⟨arm, -, hle, -, ⟨hshort, rfl⟩ | ⟨-, hruns, hrearm, -⟩⟩ := step_cases ht
    · rw [← h.pending hperiodic r hr]
      rw [toNat_target_of_lt hperiodic (hfits hperiodic).1] at hshort
      have hlt : now.toNat < c.next s.segmentStart := by omega
      exact boundaryAfter_eq c.total_pos hle hlt
    · rw [hruns] at hr
      cases Option.some.inj hr
      rw [(hrearm hperiodic).1]

/-! ### Chains of expiries -/

theorem Good.exec_serves (h : c.Good s) (hin : c.InTime s nows) (ht : exec c.step s nows = some t) :
    c.Serves t := by
  induction nows generalizing s with
  | nil =>
    cases Option.some.inj ht
    exact h.toServes
  | cons now nows ih =>
    obtain ⟨u, hu, ht⟩ := Option.bind_eq_some_iff.mp ht
    obtain ⟨hhead, hrest⟩ := hin
    cases nows with
    | nil =>
      cases Option.some.inj ht
      exact h.serves (fun hperiodic => (hhead hperiodic).1) hu
    | cons now' nows =>
      refine ih (h.step ?_ hu) (hrest u hu) ht
      exact fun hperiodic => ⟨(hhead hperiodic).1, (hhead hperiodic).2 (List.cons_ne_nil _ _)⟩

/-- The runs stay. -/
theorem runs_suffix (ht : exec c.step s nows = some t) : s.runs <:+ t.runs := by
  induction nows generalizing s with
  | nil =>
    cases Option.some.inj ht
    exact List.suffix_rfl
  | cons now nows ih =>
    obtain ⟨u, hu, ht⟩ := Option.bind_eq_some_iff.mp ht
    refine List.IsSuffix.trans ?_ (ih ht)
    obtain ⟨arm, -, -, -, ⟨-, rfl⟩ | ⟨-, hruns, -⟩⟩ := step_cases hu
    · exact List.suffix_rfl
    · rw [hruns]
      exact List.suffix_cons _ _

/-- A boundary that wraps is not on the grid. -/
theorem not_boundary (hperiodic : c.periodic = true) (hwrap : ¬c.next x < 2 ^ 64) (k : Nat) :
    (c.target x).toNat ≠ c.epoch.toNat + k * c.total.toNat
      ∧ (c.target x).toNat ≤ x.toNat := by
  have hx := x.toNat_lt
  have hepoch := c.epoch.toNat_lt
  have htotal := c.total.toNat_lt
  have hstart := c.toNat_epoch
  have hle : c.epoch.toNat ≤ x.toNat := by
    by_contra hlt
    rw [next, boundaryAfter_of_lt (Nat.lt_of_not_le hlt)] at hwrap
    exact hwrap hepoch
  have hnext : c.next x ≤ x.toNat + c.total.toNat := boundaryAfter_le_add hle
  have hmod : c.next x % 2 ^ 64 = c.next x - 2 ^ 64 := by omega
  rw [toNat_target hperiodic, hmod]
  omega

/-- After a run before its boundary, the next expiry runs the task for the same boundary. -/
theorem target_again (hperiodic : c.periodic = true) (hfits : c.next x < 2 ^ 64) (hle : x ≤ now)
    (hlt : now < c.target x) : c.target now = c.target x := by
  rw [UInt64.lt_iff_toNat_lt, toNat_target_of_lt hperiodic hfits] at hlt
  have hsame : c.next now = c.next x :=
    boundaryAfter_eq c.total_pos (UInt64.le_iff_toNat_le.mp hle) hlt
  rw [← UInt64.toNat_inj, toNat_target_of_lt hperiodic hfits,
    toNat_target_of_lt hperiodic (hsame ▸ hfits), hsame]

theorem Good.inTime (h : c.Good s) (ht : exec c.step s nows = some t) (hserves : c.Serves t) :
    c.InTime s nows := by
  induction nows generalizing s with
  | nil => exact trivial
  | cons now nows ih =>
    obtain ⟨u, hu, ht⟩ := Option.bind_eq_some_iff.mp ht
    obtain ⟨arm, -, hle, -, hcases⟩ := step_cases hu
    have hfits : c.periodic = true → c.next s.segmentStart < 2 ^ 64 := by
      intro hperiodic
      by_contra hwrap
      -- the expiry runs the task for a boundary that is none
      rcases hcases with ⟨hshort, -⟩ | ⟨-, hruns, -⟩
      · have := (not_boundary hperiodic hwrap 0).2
        omega
      · have hmem : ⟨c.target s.segmentStart, now⟩ ∈ t.runs :=
          (runs_suffix ht).mem (hruns ▸ List.mem_cons_self)
        obtain ⟨k, hk⟩ := hserves.boundaries _ hmem
        exact (not_boundary hperiodic hwrap k).1 hk
    have htime : c.periodic = true → nows ≠ [] →
        (c.target s.segmentStart).toNat ≤ now.toNat + c.slack.toNat →
        c.target s.segmentStart ≤ now := by
      intro hperiodic hne hearly
      by_contra hlate
      rw [UInt64.not_le] at hlate
      rcases hcases with ⟨hshort, -⟩ | ⟨-, hruns, hrearm, -⟩
      · omega
      · cases nows with
        | nil => exact hne rfl
        | cons now' nows =>
          -- the next expiry runs the task again
          obtain ⟨v, hv, ht⟩ := Option.bind_eq_some_iff.mp ht
          obtain ⟨arm', -, hle', -, hcases'⟩ := step_cases hv
          have hsame := target_again hperiodic (hfits hperiodic)
            (UInt64.le_iff_toNat_le.mpr hle) hlate
          rw [(hrearm hperiodic).1] at hle' hcases'
          rw [hsame] at hcases'
          rcases hcases' with ⟨hshort, -⟩ | ⟨-, hruns', -⟩
          · omega
          · have hsuffix := runs_suffix ht
            rw [hruns', hruns] at hsuffix
            have hpair := hserves.increasing.sublist hsuffix.sublist
            rw [List.pairwise_cons] at hpair
            exact absurd (hpair.1 _ List.mem_cons_self) (UInt64.lt_irrefl _)
    refine ⟨fun hperiodic => ⟨hfits hperiodic, htime hperiodic⟩, ?_⟩
    intro u' hu'
    obtain rfl : u' = u := Option.some.inj (hu'.symm.trans hu)
    cases nows with
    | nil => exact trivial
    | cons now' nows =>
      refine ih (h.step ?_ hu) ht
      exact fun hperiodic => ⟨hfits hperiodic, htime hperiodic (List.cons_ne_nil _ _)⟩

/-- Each segment of a one-shot brings it nearer to its deadline. -/
theorem length_le (hperiodic : c.periodic = false) (harmed : ∀ a ∈ s.armed, c.slack < a)
    (hstart : s.segmentStart < c.epoch) (ht : exec c.step s nows = some t) :
    nows.length ≤ c.epoch.toNat - s.segmentStart.toNat
      ∧ (t.armed.isSome = true → nows.length < c.epoch.toNat - s.segmentStart.toNat) := by
  rw [UInt64.lt_iff_toNat_lt] at hstart
  induction nows generalizing s with
  | nil =>
    rw [List.length_nil]
    omega
  | cons now nows ih =>
    obtain ⟨u, hu, ht⟩ := Option.bind_eq_some_iff.mp ht
    obtain ⟨arm, harm, -, hexpiry, hcases⟩ := step_cases hu
    rw [target_oneShot hperiodic] at hcases
    rcases hcases with ⟨hshort, rfl⟩ | ⟨-, -, -, hdone⟩
    · -- the segment was longer than the slack
      have hlong := UInt64.lt_iff_toNat_lt.mp (harmed arm harm)
      have hnow : now < c.epoch := UInt64.lt_iff_toNat_lt.mpr (by omega)
      have hrest : ∀ a ∈ (some (tickPeriodClamp (c.epoch - now) c.max)), c.slack < a := by
        rintro a ⟨⟩
        refine lt_tickPeriodClamp c.slack_lt ?_
        rw [UInt64.lt_iff_toNat_lt, UInt64.toNat_sub_of_le _ _ (UInt64.le_of_lt hnow)]
        omega
      obtain ⟨hlength, hlt⟩ := ih hrest (UInt64.lt_iff_toNat_lt.mp hnow) ht
      rw [List.length_cons]
      dsimp only at hlength hlt
      refine ⟨by omega, fun hsome => ?_⟩
      have := hlt hsome
      omega
    · -- without a timer there is no further expiry
      cases nows with
      | nil =>
        cases Option.some.inj ht
        refine ⟨?_, ?_⟩
        · rw [List.length_cons, List.length_nil]
          omega
        · rw [hdone hperiodic]
          exact nofun
      | cons now' nows =>
        obtain ⟨v, hv, -⟩ := Option.bind_eq_some_iff.mp ht
        obtain ⟨arm', harm', -⟩ := step_cases hv
        rw [hdone hperiodic] at harm'
        cases harm'

/-- **The chain.** It serves its delay exactly when its expiries are in time. A one-shot has at most
`total` expiries, and fewer while it is armed. -/
theorem serves_iff (c : Chain) (nows : List UInt64) (s : ChainState)
    (h : exec c.step c.initial nows = some s) :
    (c.Serves s ∧ (c.periodic = false → nows.length ≤ c.total.toNat
      ∧ (s.armed.isSome = true → nows.length < c.total.toNat)))
    ↔ c.InTime c.initial nows := by
  constructor
  · exact fun hserves => (Good.initial c).inTime h hserves.1
  · intro hin
    refine ⟨(Good.initial c).exec_serves hin h, ?_⟩
    intro hperiodic
    have htotal : c.epoch.toNat - c.initial.segmentStart.toNat = c.total.toNat := by
      rw [c.toNat_epoch]
      exact Nat.add_sub_cancel_left _ _
    rw [← htotal]
    refine length_le hperiodic ?_ ?_ h
    · rintro a ⟨⟩
      exact lt_tickPeriodClamp c.slack_lt (UInt64.lt_trans c.slack_lt c.max_lt)
    · show c.start < c.epoch
      rw [UInt64.lt_iff_toNat_lt, c.toNat_epoch]
      have := c.total_pos
      omega

end Chain

/-- A period of 250 ticks with segments of up to 100, from tick 750 on. -/
def sampleChain : Chain where
  start := 750
  total := 250
  max := 100
  slack := 1
  periodic := true
  slack_lt := by decide
  max_lt := by decide
  fits := by decide

/-- Two runs, the second one late. -/
theorem serves_sample : ∃ s,
    exec sampleChain.step sampleChain.initial [850, 950, 1000, 1100, 1199, 1600] = some s
      ∧ s.runs = [⟨1250, 1600⟩, ⟨1000, 1000⟩] ∧ sampleChain.Serves s :=
  ⟨_, rfl, rfl, ((sampleChain.serves_iff [850, 950, 1000, 1100, 1199, 1600] _ rfl).2
    (by decide +kernel)).1⟩

/-- The task runs a tick before its boundary, and 99 ticks later it runs for the same boundary. -/
theorem not_serves : ∃ s,
    exec sampleChain.step sampleChain.initial [850, 950, 999, 1098] = some s
      ∧ s.runs = [⟨1000, 1098⟩, ⟨1000, 999⟩] ∧ ¬sampleChain.Serves s :=
  ⟨_, rfl, rfl, fun hserves => absurd hserves.increasing (by decide +kernel)⟩

end RainMakerNeo.Osal
