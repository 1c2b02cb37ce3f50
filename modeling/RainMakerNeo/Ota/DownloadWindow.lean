import RainMakerNeo.Ota.JobDoc

/-!
# `RainMakerNeo.Ota.DownloadWindow`: the delay until a download window

A job can run at the instants of its validity period whose local minute of the day lies in the
daily window. `Runs` says this as `ota_jobs.h` does: a bound of the period that is 0 is not
enforced, and neither is a daily window with a negative time. `DelayCorrect` is the contract of
`get_download_window_delay_time`: 0 says that the job can run now, a positive number says after
how many minutes it can, and a negative number says that it never can.

The code divides the seconds to the start of the period by 60 and drops the rest. It does not look
at the daily window of the start, and it does not check that the next daily window opens before
the period ends. `delay_correct_iff` gives the inputs where none of this matters.
-/

set_option autoImplicit false

namespace RainMakerNeo.Ota.Jobs

/-! ### The contract -/

/-- The minute of the day of an instant, in a time zone that is `offset` seconds ahead. -/
def minuteOfDay (offset t : Int) : Int := (t + offset) / 60 % minutesPerDay

/-- The validity period has the instant. -/
def InValidity (w : DownloadWindow) (t : Int) : Prop :=
  (w.validityStart = 0 ∨ w.validityStart ≤ t) ∧ (w.validityEnd = 0 ∨ t ≤ w.validityEnd)

/-- The daily window has the minute. The window of `22:00` to `06:00` goes over midnight. -/
def InDaily (w : DownloadWindow) (minute : Int) : Prop :=
  w.dailyStart < 0 ∨ w.dailyEnd < 0 ∨
    if w.dailyStart ≤ w.dailyEnd then w.dailyStart ≤ minute ∧ minute ≤ w.dailyEnd
    else w.dailyStart ≤ minute ∨ minute ≤ w.dailyEnd

/-- The job can run at the instant. -/
def Runs (w : DownloadWindow) (offset t : Int) : Prop :=
  InValidity w t ∧ InDaily w (minuteOfDay offset t)

/-- No instant from `t` on lies in the validity period. -/
def Expired (w : DownloadWindow) (t : Int) : Prop := ∀ later, t ≤ later → ¬ InValidity w later

/-- What the result of `get_download_window_delay_time` promises. -/
structure DelayCorrect (w : DownloadWindow) (offset now : Int) : Prop where
  runsNow : getDownloadWindowDelayTime w now (minuteOfDay offset now) = 0 ↔ Runs w offset now
  runsLater : 0 < getDownloadWindowDelayTime w now (minuteOfDay offset now) →
    Runs w offset (now + 60 * getDownloadWindowDelayTime w now (minuteOfDay offset now))
  expired : getDownloadWindowDelayTime w now (minuteOfDay offset now) < 0 ↔ Expired w now

/-! ### When it holds -/

/-- The daily times are values of `int16_t`. -/
def DailyTimesFit (w : DownloadWindow) : Prop :=
  -32768 ≤ w.dailyStart ∧ w.dailyStart < 32768 ∧ -32768 ≤ w.dailyEnd ∧ w.dailyEnd < 32768

/-- A negative time that is not `-1` is used as a minute, and still the minute is let through. -/
def NegativeLetThrough (w : DownloadWindow) (minute : Int) : Prop :=
  minute = w.dailyStart + minutesPerDay ∨ minute = w.dailyStart - minutesPerDay ∨
    if w.dailyStart ≤ w.dailyEnd then minute ≤ w.dailyEnd
    else w.dailyStart ≤ minute ∧ (minute = w.dailyStart ∨ minute ≤ w.dailyEnd + minutesPerDay) ∨
      -- The shifted end does not fit in `int16_t`.
      w.dailyEnd + minutesPerDay - w.dailyStart < -32768 ∧ w.dailyStart - minutesPerDay ≤ minute

/-- The window starts after the last minute of a day, at a minute that no day has. Only a window
over midnight can then be met, by its end: now, or on a later day whose minute is counted back
from the start. -/
def LateStartExact (w : DownloadWindow) (minute now : Int) : Prop :=
  w.dailyStart > w.dailyEnd ∧
    if minute ≤ w.dailyEnd then w.dailyStart - minutesPerDay ≤ minute
    else minute ≠ w.dailyStart - minutesPerDay ∧ w.dailyStart % minutesPerDay ≤ w.dailyEnd ∧
      now + 60 * (if w.dailyStart - minutesPerDay < minute then w.dailyStart - minute
        else w.dailyStart - minutesPerDay - minute) ≤ w.validityEnd

/-- Inside the validity period: the minute lies in the daily window, or the window opens again
before the period ends. -/
def DailyExact (w : DownloadWindow) (offset now : Int) : Prop :=
  w.dailyStart = -1 ∨ w.dailyEnd = -1 ∨
    if w.dailyStart < 0 ∨ w.dailyEnd < 0 then NegativeLetThrough w (minuteOfDay offset now)
    else if w.dailyStart < minutesPerDay then InDaily w (minuteOfDay offset now) ∨
      now + 60 * ((w.dailyStart - minuteOfDay offset now) % minutesPerDay) ≤ w.validityEnd
    else LateStartExact w (minuteOfDay offset now) now

/-- The inputs on which the promise is kept. -/
def DelayExact (w : DownloadWindow) (offset now : Int) : Prop :=
  if w.validityStart = 0 ∨ w.validityEnd = 0 then Runs w offset now
  else if w.validityStart > w.validityEnd ∨ now > w.validityEnd then True
  else if now < w.validityStart then
    (w.validityStart - now) % 60 = 0 ∧ w.validityStart - now < 60 * 2147483648 ∧
      InDaily w (minuteOfDay offset w.validityStart)
  else DailyExact w offset now

/-! ### Minutes of the day -/

theorem minuteOfDay_bounds (offset t : Int) :
    0 ≤ minuteOfDay offset t ∧ minuteOfDay offset t < minutesPerDay := by
  rw [minuteOfDay, minutesPerDay]
  omega

/-- Whole minutes later. -/
theorem minuteOfDay_add (offset t d : Int) :
    minuteOfDay offset (t + 60 * d) = (minuteOfDay offset t + d) % minutesPerDay := by
  rw [minuteOfDay, minuteOfDay, minutesPerDay]
  omega

/-- The minute of the next start of the daily window. -/
theorem minuteOfDay_next (offset t start : Int) (hstart : 0 ≤ start ∧ start < minutesPerDay) :
    minuteOfDay offset (t + 60 * ((start - minuteOfDay offset t) % minutesPerDay)) = start := by
  have hm := minuteOfDay_bounds offset t
  rw [minuteOfDay_add]
  rw [minutesPerDay] at *
  omega

/-- A conversion to `int16_t` by a remainder. -/
theorem int16_eq (x : Int) : int16 x = (x + 32768) % 65536 - 32768 := by
  rw [int16, Int.bmod_def]
  split <;> omega

/-! ### Expiry -/

/-- A job has expired when its period is over or empty. -/
theorem expired_iff (w : DownloadWindow) (now : Int) :
    Expired w now ↔ w.validityEnd ≠ 0 ∧
      (now > w.validityEnd ∨ (w.validityStart ≠ 0 ∧ w.validityStart > w.validityEnd)) := by
  constructor
  · intro h
    have hnow := h now (Int.le_refl now)
    rw [InValidity] at hnow
    -- The later of now and the start of the period is the first candidate.
    by_cases hearly : now ≤ w.validityStart
    · have hstart := h w.validityStart hearly
      rw [InValidity] at hstart
      omega
    · omega
  · intro h later hlater hin
    rw [InValidity] at hin
    omega

/-! ### The result by cases -/

section

variable {w : DownloadWindow} {offset now : Int}

variable {minute : Int}

/-- The shifted bounds of a window that starts at a positive minute, or not long before. -/
theorem dailyBounds_eq (hfit : DailyTimesFit w) (hm : 0 ≤ minute ∧ minute < minutesPerDay)
    (hstart : -28000 ≤ w.dailyStart) (hend : -32768 ≤ w.dailyEnd + minutesPerDay - w.dailyStart) :
    dailyBounds w minute =
      if w.dailyStart > w.dailyEnd then
        (0, w.dailyEnd + (minutesPerDay - w.dailyStart),
          if minute > w.dailyStart then minute - w.dailyStart
          else minute + (minutesPerDay - w.dailyStart))
      else (w.dailyStart, w.dailyEnd, minute) := by
  have ⟨h₁, h₂, h₃, h₄⟩ := hfit
  rw [minutesPerDay] at *
  rw [dailyBounds, minutesPerDay]
  split
  · have hdiff : int16 (1440 - w.dailyStart) = 1440 - w.dailyStart := by
      rw [int16_eq]
      omega
    have hshifted : int16 (minute + (1440 - w.dailyStart)) = minute + (1440 - w.dailyStart) := by
      rw [int16_eq]
      omega
    have hstop : int16 (w.dailyEnd + (1440 - w.dailyStart)) = w.dailyEnd + (1440 - w.dailyStart) := by
      rw [int16_eq]
      omega
    rw [hdiff]
    dsimp only
    rw [hshifted, hstop]
    by_cases hlate : minute > w.dailyStart
    · have hback : int16 (minute + (1440 - w.dailyStart) - 1440) = minute - w.dailyStart := by
        rw [int16_eq]
        omega
      rw [if_pos hlate, if_pos (by omega), hback]
    · rw [if_neg hlate, if_neg (by omega)]
  · rfl

/-- Without both bounds of the period the result is 0. -/
theorem delay_unbounded (h : w.validityStart = 0 ∨ w.validityEnd = 0) (minute : Int) :
    getDownloadWindowDelayTime w now minute = 0 := by
  rw [getDownloadWindowDelayTime, if_pos h]

variable (h : ¬(w.validityStart = 0 ∨ w.validityEnd = 0))
include h

/-- A period that is empty or over. -/
theorem delay_over (hover : w.validityStart > w.validityEnd ∨ now > w.validityEnd) (minute : Int) :
    getDownloadWindowDelayTime w now minute = -1 := by
  rw [getDownloadWindowDelayTime, if_neg h]
  by_cases hempty : w.validityStart > w.validityEnd
  · rw [if_pos hempty]
  · rw [if_neg hempty, if_neg (by omega), if_pos (by omega)]

/-- Before the period the seconds are divided by 60. -/
theorem delay_early (hperiod : w.validityStart ≤ w.validityEnd) (hearly : now < w.validityStart)
    (minute : Int) :
    getDownloadWindowDelayTime w now minute = int32 ((w.validityStart - now) / 60) := by
  rw [getDownloadWindowDelayTime, if_neg h, if_neg (by omega), if_pos hearly,
    Int.tdiv_eq_ediv_of_nonneg (by omega)]

variable (hin : w.validityStart ≤ now ∧ now ≤ w.validityEnd)
include hin

/-- Inside the period without a daily window. -/
theorem delay_anytime (hdaily : w.dailyStart = -1 ∨ w.dailyEnd = -1) (minute : Int) :
    getDownloadWindowDelayTime w now minute = 0 := by
  rw [getDownloadWindowDelayTime, if_neg h, if_neg (by omega), if_neg (by omega), if_neg (by omega),
    if_pos hdaily]

/-- The distance from a minute to the bounds of the daily window. -/
def dailyDelay (start stop minute : Int) : Int :=
  if minute ≥ start ∧ minute ≤ stop then 0
  else if start - minute < 0 then start - minute + minutesPerDay
  else start - minute

/-- Inside the period with a daily window. -/
theorem delay_daily (hdaily : ¬(w.dailyStart = -1 ∨ w.dailyEnd = -1)) (minute : Int) :
    getDownloadWindowDelayTime w now minute =
      dailyDelay (dailyBounds w minute).1 (dailyBounds w minute).2.1 (dailyBounds w minute).2.2 := by
  rw [getDownloadWindowDelayTime, if_neg h, if_neg (by omega), if_neg (by omega), if_neg (by omega),
    if_neg hdaily]
  rfl

/-- With both times in a day, the result is 0 in the window, and the distance to its next start
outside. -/
theorem delay_of_minutes (hfit : DailyTimesFit w) (hpos : 0 ≤ w.dailyStart ∧ 0 ≤ w.dailyEnd)
    (hstart : w.dailyStart < minutesPerDay) (hm : 0 ≤ minute ∧ minute < minutesPerDay) :
    getDownloadWindowDelayTime w now minute =
      if w.dailyStart ≤ w.dailyEnd ∧ w.dailyStart ≤ minute ∧ minute ≤ w.dailyEnd ∨
        w.dailyStart > w.dailyEnd ∧ (w.dailyStart ≤ minute ∨ minute ≤ w.dailyEnd) then 0
      else (w.dailyStart - minute) % minutesPerDay := by
  rw [minutesPerDay] at hstart
  rw [delay_daily h hin (by omega),
    dailyBounds_eq hfit hm (by omega) (by rw [minutesPerDay]; omega)]
  by_cases hwrap : w.dailyStart > w.dailyEnd
  · rw [if_pos hwrap]
    by_cases hlate : minute > w.dailyStart
    · rw [if_pos hlate]
      show dailyDelay 0 (w.dailyEnd + (minutesPerDay - w.dailyStart)) (minute - w.dailyStart) = _
      rw [dailyDelay]
      rw [minutesPerDay] at *
      split_ifs <;> omega
    · rw [if_neg hlate]
      show dailyDelay 0 (w.dailyEnd + (minutesPerDay - w.dailyStart))
        (minute + (minutesPerDay - w.dailyStart)) = _
      rw [dailyDelay]
      rw [minutesPerDay] at *
      split_ifs <;> omega
  · rw [if_neg hwrap]
    show dailyDelay w.dailyStart w.dailyEnd minute = _
    rw [dailyDelay]
    rw [minutesPerDay] at *
    split_ifs <;> omega

/-- A start after the last minute of a day is counted back from. -/
theorem delay_of_lateStart (hfit : DailyTimesFit w) (hpos : 0 ≤ w.dailyEnd)
    (hstart : minutesPerDay ≤ w.dailyStart) (hm : 0 ≤ minute ∧ minute < minutesPerDay) :
    getDownloadWindowDelayTime w now minute =
      if w.dailyStart ≤ w.dailyEnd then w.dailyStart - minute
      else if w.dailyStart - minutesPerDay ≤ minute ∧ minute ≤ w.dailyEnd then 0
      else if w.dailyStart - minutesPerDay < minute then w.dailyStart - minute
      else w.dailyStart - minutesPerDay - minute := by
  have ⟨h₁, h₂, h₃, h₄⟩ := hfit
  rw [minutesPerDay] at hstart
  rw [delay_daily h hin (by omega),
    dailyBounds_eq hfit hm (by omega) (by rw [minutesPerDay]; omega)]
  by_cases hwrap : w.dailyStart > w.dailyEnd
  · rw [if_pos hwrap, if_neg (by rw [minutesPerDay] at hm; omega)]
    show dailyDelay 0 (w.dailyEnd + (minutesPerDay - w.dailyStart))
      (minute + (minutesPerDay - w.dailyStart)) = _
    rw [dailyDelay]
    rw [minutesPerDay] at *
    split_ifs <;> omega
  · rw [if_neg hwrap]
    show dailyDelay w.dailyStart w.dailyEnd minute = _
    rw [dailyDelay]
    rw [minutesPerDay] at *
    split_ifs <;> omega

/-- A negative time that is not `-1` lets some minutes through. -/
theorem delay_of_negative (hfit : DailyTimesFit w)
    (hdaily : ¬(w.dailyStart = -1 ∨ w.dailyEnd = -1)) (hneg : w.dailyStart < 0 ∨ w.dailyEnd < 0)
    (hm : 0 ≤ minute ∧ minute < minutesPerDay) :
    getDownloadWindowDelayTime w now minute = 0 ↔ NegativeLetThrough w minute := by
  have ⟨h₁, h₂, h₃, h₄⟩ := hfit
  rw [delay_daily h hin hdaily, NegativeLetThrough]
  by_cases hwrap : w.dailyStart > w.dailyEnd
  · rw [if_neg (c := w.dailyStart ≤ w.dailyEnd) (by omega), dailyBounds, if_pos hwrap]
    show dailyDelay 0 (int16 (w.dailyEnd + int16 (minutesPerDay - w.dailyStart)))
      (if int16 (minute + int16 (minutesPerDay - w.dailyStart)) > minutesPerDay then
        int16 (int16 (minute + int16 (minutesPerDay - w.dailyStart)) - minutesPerDay)
      else int16 (minute + int16 (minutesPerDay - w.dailyStart))) = 0 ↔ _
    rw [dailyDelay]
    simp only [int16_eq]
    rw [minutesPerDay] at *
    split_ifs <;> omega
  · rw [dailyBounds, if_neg hwrap, if_pos (by omega)]
    show dailyDelay w.dailyStart w.dailyEnd minute = 0 ↔ _
    rw [dailyDelay]
    rw [minutesPerDay] at *
    split_ifs <;> omega

end

/-! ### The promise by cases -/

section

variable {w : DownloadWindow} {offset now : Int}

/-- Without both bounds, the promise is that the job can run now. -/
theorem delayCorrect_unbounded (h : w.validityStart = 0 ∨ w.validityEnd = 0) :
    DelayCorrect w offset now ↔ Runs w offset now := by
  have hzero : getDownloadWindowDelayTime w now (minuteOfDay offset now) = 0 :=
    delay_unbounded h _
  constructor
  · intro hc
    exact hc.runsNow.mp hzero
  · intro hruns
    refine ⟨iff_of_true hzero hruns, ?_, ?_⟩
    · intro hpos
      rw [hzero] at hpos
      exact absurd hpos (by omega)
    · rw [hzero]
      refine iff_of_false (by omega) ?_
      intro hexp
      exact hexp now (Int.le_refl now) hruns.1

/-- Inside the period nothing has expired. -/
theorem not_expired (hperiod : w.validityStart ≤ w.validityEnd) (hnow : now ≤ w.validityEnd) :
    ¬ Expired w now := by
  rw [expired_iff]
  omega

/-- Inside the period, the result 0 is right when the minute lies in the daily window. -/
theorem delayCorrect_of_zero (hin : w.validityStart ≤ now ∧ now ≤ w.validityEnd)
    (hzero : getDownloadWindowDelayTime w now (minuteOfDay offset now) = 0) :
    DelayCorrect w offset now ↔ InDaily w (minuteOfDay offset now) := by
  constructor
  · intro hc
    exact (hc.runsNow.mp hzero).2
  · intro hdaily
    refine ⟨iff_of_true hzero ⟨⟨.inr hin.1, .inr hin.2⟩, hdaily⟩, ?_, ?_⟩
    · intro hpos
      rw [hzero] at hpos
      exact absurd hpos (by omega)
    · rw [hzero]
      exact iff_of_false (by omega) (not_expired (Int.le_trans hin.1 hin.2) hin.2)

/-- Inside the period, a positive result is right when the minute is outside the daily window and
the result leads to an instant at which the job can run. -/
theorem delayCorrect_of_pos (hin : w.validityStart ≤ now ∧ now ≤ w.validityEnd) {d : Int}
    (hdelay : getDownloadWindowDelayTime w now (minuteOfDay offset now) = d) (hpos : 0 < d) :
    DelayCorrect w offset now ↔
      ¬ InDaily w (minuteOfDay offset now) ∧ Runs w offset (now + 60 * d) := by
  constructor
  · intro hc
    have hruns := hc.runsLater (by rw [hdelay]; exact hpos)
    rw [hdelay] at hruns
    refine ⟨?_, hruns⟩
    intro hdaily
    have hzero := hc.runsNow.mpr ⟨⟨.inr hin.1, .inr hin.2⟩, hdaily⟩
    omega
  · intro ⟨hclosed, hruns⟩
    refine ⟨?_, ?_, ?_⟩
    · rw [hdelay]
      exact iff_of_false (by omega) fun hnow => hclosed hnow.2
    · intro _
      rw [hdelay]
      exact hruns
    · rw [hdelay]
      exact iff_of_false (by omega) (not_expired (Int.le_trans hin.1 hin.2) hin.2)

variable (h : ¬(w.validityStart = 0 ∨ w.validityEnd = 0))
include h

/-- An empty period and one that is over are answered right. -/
theorem delayCorrect_over (hover : w.validityStart > w.validityEnd ∨ now > w.validityEnd) :
    DelayCorrect w offset now := by
  have hneg := delay_over h hover (minuteOfDay offset now)
  have hexpired : Expired w now := (expired_iff w now).mpr (by omega)
  refine ⟨?_, ?_, ?_⟩
  · rw [hneg]
    refine iff_of_false (by omega) ?_
    intro hruns
    exact hexpired now (Int.le_refl now) hruns.1
  · rw [hneg]
    intro hpos
    exact absurd hpos (by omega)
  · rw [hneg]
    exact iff_of_true (by omega) hexpired

/-- Before the period, the whole minutes to its start must lead to the start itself, and to a
minute of the daily window. -/
theorem delayCorrect_early (hperiod : w.validityStart ≤ w.validityEnd)
    (hearly : now < w.validityStart) :
    DelayCorrect w offset now ↔
      (w.validityStart - now) % 60 = 0 ∧ w.validityStart - now < 60 * 2147483648 ∧
        InDaily w (minuteOfDay offset w.validityStart) := by
  have hdelay := delay_early h hperiod hearly (minuteOfDay offset now)
  have hnot : ¬ Runs w offset now := by
    intro hruns
    have hstart := hruns.1.1
    omega
  have hlive : ¬ Expired w now := not_expired hperiod (by omega)
  constructor
  · intro hc
    -- The result is neither 0 nor negative, so it leads to an instant of the period.
    have hne : int32 ((w.validityStart - now) / 60) ≠ 0 := fun heq =>
      hnot (hc.runsNow.mp (hdelay.trans heq))
    have hge : ¬ int32 ((w.validityStart - now) / 60) < 0 := fun hlt =>
      hlive (hc.expired.mp (by rw [hdelay]; exact hlt))
    have hruns := hc.runsLater (by rw [hdelay]; omega)
    rw [hdelay] at hruns
    have hstart := hruns.1.1
    have hbound : int32 ((w.validityStart - now) / 60) < 2147483648 :=
      Int.bmod_lt (x := (w.validityStart - now) / 60) (m := 4294967296) (by omega)
    have hle : int32 ((w.validityStart - now) / 60) ≤ (w.validityStart - now) / 60 := by
      by_cases hfits : (w.validityStart - now) / 60 < 2147483648
      · rw [int32, Int.bmod_eq_of_le] <;> omega
      · omega
    have heq : now + 60 * int32 ((w.validityStart - now) / 60) = w.validityStart := by omega
    rw [heq] at hruns
    exact ⟨by omega, by omega, hruns.2⟩
  · rintro ⟨hmod, hfits, hdaily⟩
    have hint : int32 ((w.validityStart - now) / 60) = (w.validityStart - now) / 60 := by
      rw [int32, Int.bmod_eq_of_le] <;> omega
    rw [hint] at hdelay
    have heq : now + 60 * ((w.validityStart - now) / 60) = w.validityStart := by omega
    refine ⟨?_, ?_, ?_⟩
    · rw [hdelay]
      exact iff_of_false (by omega) hnot
    · intro _
      rw [hdelay, heq]
      exact ⟨⟨.inr (Int.le_refl _), .inr hperiod⟩, hdaily⟩
    · rw [hdelay]
      exact iff_of_false (by omega) hlive

variable (hin : w.validityStart ≤ now ∧ now ≤ w.validityEnd)
include hin

/-- The instant after `d` minutes, for a window that no negative time switches off. -/
theorem runs_later_iff {d : Int} (hd : 0 < d) :
    Runs w offset (now + 60 * d) ↔
      now + 60 * d ≤ w.validityEnd ∧ InDaily w ((minuteOfDay offset now + d) % minutesPerDay) := by
  rw [Runs, InValidity, minuteOfDay_add]
  constructor
  · intro ⟨hvalid, hdaily⟩
    exact ⟨by omega, hdaily⟩
  · intro ⟨hend, hdaily⟩
    exact ⟨by omega, hdaily⟩

/-- Inside the period, with a daily window that starts at a minute of a day. -/
theorem delayCorrect_of_minutes (hfit : DailyTimesFit w)
    (hpos : 0 ≤ w.dailyStart ∧ 0 ≤ w.dailyEnd) (hstart : w.dailyStart < minutesPerDay) :
    DelayCorrect w offset now ↔ InDaily w (minuteOfDay offset now) ∨
      now + 60 * ((w.dailyStart - minuteOfDay offset now) % minutesPerDay) ≤ w.validityEnd := by
  have hm := minuteOfDay_bounds offset now
  have hdelay := delay_of_minutes h hin hfit hpos hstart hm
  have hdaily : InDaily w (minuteOfDay offset now) ↔
      (w.dailyStart ≤ w.dailyEnd ∧ w.dailyStart ≤ minuteOfDay offset now ∧
          minuteOfDay offset now ≤ w.dailyEnd ∨
        w.dailyStart > w.dailyEnd ∧ (w.dailyStart ≤ minuteOfDay offset now ∨
          minuteOfDay offset now ≤ w.dailyEnd)) := by
    rw [InDaily]
    split <;> omega
  by_cases hopen : InDaily w (minuteOfDay offset now)
  · rw [if_pos (hdaily.mp hopen)] at hdelay
    rw [delayCorrect_of_zero hin hdelay]
    exact iff_of_true hopen (.inl hopen)
  · rw [if_neg fun hc => hopen (hdaily.mpr hc)] at hdelay
    have hatStart : InDaily w w.dailyStart := by
      rw [InDaily]
      split <;> omega
    have hlater : 0 < (w.dailyStart - minuteOfDay offset now) % minutesPerDay := by
      -- At the start of the window the window would be open.
      have hne : minuteOfDay offset now ≠ w.dailyStart := fun heq => hopen (heq ▸ hatStart)
      rw [minutesPerDay] at *
      omega
    have hnext := minuteOfDay_next offset now w.dailyStart ⟨hpos.1, hstart⟩
    rw [minuteOfDay_add] at hnext
    rw [delayCorrect_of_pos hin hdelay hlater, runs_later_iff h hin hlater, hnext]
    constructor
    · intro ⟨_, hend, _⟩
      exact .inr hend
    · intro hexact
      exact ⟨hopen, hexact.resolve_left hopen, hatStart⟩

/-- Inside the period, with a daily window that starts at a minute that no day has. -/
theorem delayCorrect_of_lateStart (hfit : DailyTimesFit w) (hpos : 0 ≤ w.dailyEnd)
    (hstart : minutesPerDay ≤ w.dailyStart) :
    DelayCorrect w offset now ↔ LateStartExact w (minuteOfDay offset now) now := by
  have hm := minuteOfDay_bounds offset now
  have hdelay := delay_of_lateStart h hin hfit hpos hstart hm
  have hdaily : ∀ minute, 0 ≤ minute ∧ minute < minutesPerDay →
      (InDaily w minute ↔ w.dailyStart > w.dailyEnd ∧ minute ≤ w.dailyEnd) := by
    intro minute hminute
    rw [InDaily]
    split <;> omega
  rw [LateStartExact]
  by_cases hwrap : w.dailyStart ≤ w.dailyEnd
  · -- The window is never open.
    rw [if_pos hwrap] at hdelay
    have hlater : 0 < w.dailyStart - minuteOfDay offset now := by omega
    rw [delayCorrect_of_pos hin hdelay hlater, runs_later_iff h hin hlater,
      hdaily ((minuteOfDay offset now + _) % minutesPerDay) (by rw [minutesPerDay]; omega)]
    omega
  · rw [if_neg hwrap] at hdelay
    by_cases hopen : minuteOfDay offset now ≤ w.dailyEnd
    · rw [if_pos hopen]
      by_cases hback : w.dailyStart - minutesPerDay ≤ minuteOfDay offset now
      · rw [if_pos ⟨hback, hopen⟩] at hdelay
        rw [delayCorrect_of_zero hin hdelay, hdaily _ hm]
        omega
      · rw [if_neg (by omega), if_neg (by omega)] at hdelay
        rw [delayCorrect_of_pos hin hdelay (by omega), hdaily _ hm]
        omega
    · rw [if_neg hopen]
      rw [if_neg (by omega)] at hdelay
      by_cases hsame : minuteOfDay offset now = w.dailyStart - minutesPerDay
      · rw [if_neg (by omega), hsame, Int.sub_self, ← hsame] at hdelay
        rw [delayCorrect_of_zero hin hdelay, hdaily _ hm]
        omega
      · -- Counted from the minute on, the start is the same minute of some day.
        have hlater : 0 < (if w.dailyStart - minutesPerDay < minuteOfDay offset now then
            w.dailyStart - minuteOfDay offset now
            else w.dailyStart - minutesPerDay - minuteOfDay offset now) := by
          split <;> omega
        have hminute : (minuteOfDay offset now +
            (if w.dailyStart - minutesPerDay < minuteOfDay offset now then
              w.dailyStart - minuteOfDay offset now
              else w.dailyStart - minutesPerDay - minuteOfDay offset now)) % minutesPerDay =
            w.dailyStart % minutesPerDay := by
          rw [minutesPerDay]
          split <;> omega
        rw [delayCorrect_of_pos hin hdelay hlater, runs_later_iff h hin hlater, hminute,
          hdaily _ hm, hdaily _ (by rw [minutesPerDay]; omega)]
        omega

/-- Inside the period. -/
theorem delayCorrect_inside (hfit : DailyTimesFit w) :
    DelayCorrect w offset now ↔ DailyExact w offset now := by
  have hm := minuteOfDay_bounds offset now
  have hfree : w.dailyStart < 0 ∨ w.dailyEnd < 0 → InDaily w (minuteOfDay offset now) := by
    intro hneg
    rw [InDaily]
    omega
  rw [DailyExact]
  by_cases hnone : w.dailyStart = -1 ∨ w.dailyEnd = -1
  · refine iff_of_true ?_ (by omega)
    exact (delayCorrect_of_zero hin (delay_anytime h hin hnone _)).mpr (hfree (by omega))
  · rw [← or_assoc, or_iff_right hnone]
    by_cases hneg : w.dailyStart < 0 ∨ w.dailyEnd < 0
    · rw [if_pos hneg, ← delay_of_negative h hin hfit hnone hneg hm]
      have hdaily := hfree hneg
      constructor
      · intro hc
        exact hc.runsNow.mpr ⟨⟨.inr hin.1, .inr hin.2⟩, hdaily⟩
      · intro hzero
        exact (delayCorrect_of_zero hin hzero).mpr hdaily
    · rw [if_neg hneg]
      by_cases hstart : w.dailyStart < minutesPerDay
      · rw [if_pos hstart, delayCorrect_of_minutes h hin hfit (by omega) hstart]
      · rw [if_neg hstart, delayCorrect_of_lateStart h hin hfit (by omega) (by omega)]

end

/-- **The delay until a download window.** The promise is kept exactly on the inputs that
`DelayExact` describes. -/
theorem delay_correct_iff (w : DownloadWindow) (offset now : Int) (hfit : DailyTimesFit w) :
    DelayCorrect w offset now ↔ DelayExact w offset now := by
  rw [DelayExact]
  by_cases h : w.validityStart = 0 ∨ w.validityEnd = 0
  · rw [if_pos h, delayCorrect_unbounded h]
  · rw [if_neg h]
    by_cases hover : w.validityStart > w.validityEnd ∨ now > w.validityEnd
    · rw [if_pos hover]
      exact iff_of_true (delayCorrect_over h hover) trivial
    · rw [if_neg hover]
      by_cases hearly : now < w.validityStart
      · rw [if_pos hearly, delayCorrect_early h (by omega) hearly]
      · rw [if_neg hearly]
        exact delayCorrect_inside h (by omega) hfit

/-- Noon to one, for ten days from the start of the second day. -/
def noonWindow : DownloadWindow where
  dailyStart := 720
  dailyEnd := 780
  validityStart := 86400
  validityEnd := 950400

/-- At eleven the window opens in an hour. -/
theorem noonWindow_atEleven : DelayCorrect noonWindow 0 126000 := by
  refine (delay_correct_iff noonWindow 0 126000 ⟨?_, ?_, ?_, ?_⟩).mpr ?_
  · decide
  · decide
  · decide
  · decide
  · show DailyExact noonWindow 0 126000
    refine .inr (.inr (.inr ?_))
    decide

/-- Thirty seconds before the period starts, at midnight, the result is 0. -/
theorem noonWindow_early :
    getDownloadWindowDelayTime noonWindow 86370 (minuteOfDay 0 86370) = 0 ∧
      ¬ DelayCorrect noonWindow 0 86370 := by
  have hzero : getDownloadWindowDelayTime noonWindow 86370 (minuteOfDay 0 86370) = 0 := by decide
  refine ⟨hzero, ?_⟩
  intro hc
  have hstart := (hc.runsNow.mp hzero).1.1
  exact absurd hstart (by decide)

end RainMakerNeo.Ota.Jobs
