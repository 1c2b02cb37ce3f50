import Mathlib.Data.List.TakeWhile
import Mathlib.Data.Option.Basic
import RainMakerNeo.Lib.FixedWidth
import RainMakerNeo.Lib.Lists
import RainMakerNeo.Schedules.Details

/-!
# `RainMakerNeo.Schedules.RoundTrip`: the details JSON restores the schedules

The header of `schedules.c` calls `serializeNodeSchedules` the inverse of the build. This module
settles how far that goes. `triggerShape_of_parse` collects what the parser can produce.
`parseTriggerObject_emit` then computes the trigger that comes back from the JSON of a live
schedule. Two kinds of field can change on the way:

- the ends of the validity window and the `ts` of a one-shot go through an `int`;
- a solar trigger whose day mask and day of month are both `0` is written without a day arm, and
  the parser reads such an object as every day.

`restores_iff` states the exact condition over a whole details payload.
-/

set_option autoImplicit false

namespace RainMakerNeo.Schedules

open RainMakerNeo.Lib (FitsInt toInt64_toInt32_iff uint16_pos hours_mul_add_minutes
  forall₂_filterMap_iff exists_mem_of_forall₂)

variable {Coord : Type}

/-! ### Getters on emitted objects -/

section Getters

variable (P : Platform Coord) {k k' : Key} (v : Int32) (c : Coord) (date : DateArm)
  (obj : Object Coord)

@[simp] theorem getInt64_nil : getInt64 ([] : Object Coord) k = none := rfl

@[simp] theorem getInt64_setInt_self : getInt64 (setInt k v :: obj) k = some v.toInt64 := by
  simp [getInt64, setInt]

@[simp] theorem getInt64_setInt_ne (h : k' ≠ k) :
    getInt64 (setInt k v :: obj) k' = getInt64 obj k' := by
  simp [getInt64, setInt, List.lookup_cons, beq_false_of_ne h]

@[simp] theorem getInt64_setFloat_ne (h : k' ≠ k) :
    getInt64 (setFloat P k c :: obj) k' = getInt64 obj k' := by
  simp [getInt64, setFloat, List.lookup_cons, beq_false_of_ne h]

@[simp] theorem getInt_nil : getInt P ([] : Object Coord) k = none := rfl

@[simp] theorem getInt_setInt_self : getInt P (setInt k v :: obj) k = some v := by
  simp [getInt, P.readInt_int]

@[simp] theorem getInt_setInt_ne (h : k' ≠ k) :
    getInt P (setInt k v :: obj) k' = getInt P obj k' := by
  simp [getInt, h]

@[simp] theorem getInt_setFloat_ne (h : k' ≠ k) :
    getInt P (setFloat P k c :: obj) k' = getInt P obj k' := by
  simp [getInt, h]

@[simp] theorem getFloat_nil : getFloat P ([] : Object Coord) k = none := rfl

@[simp] theorem getFloat_setInt_ne (h : k' ≠ k) :
    getFloat P (setInt k v :: obj) k' = getFloat P obj k' := by
  simp [getFloat, setInt, List.lookup_cons, beq_false_of_ne h]

@[simp] theorem getFloat_setFloat_ne (h : k' ≠ k) :
    getFloat P (setFloat P k c :: obj) k' = getFloat P obj k' := by
  simp [getFloat, setFloat, List.lookup_cons, beq_false_of_ne h]

@[simp] theorem getInt_emitDate_dd :
    getInt P (emitDate date ++ obj) .dd = some date.day.toUInt32.toInt32 := by
  simp [emitDate]

@[simp] theorem getInt_emitDate_mm :
    getInt P (emitDate date ++ obj) .mm = some date.repeatMonths.toUInt32.toInt32 := by
  simp [emitDate]

@[simp] theorem getInt_emitDate_yy :
    getInt P (emitDate date ++ obj) .yy =
      if date.year = 0 then getInt P obj .yy else some date.year.toUInt32.toInt32 := by
  by_cases hyear : date.year = 0 <;> simp [emitDate, hyear]

@[simp] theorem getInt_emitDate_ne (hdd : k ≠ .dd) (hmm : k ≠ .mm) (hyy : k ≠ .yy) :
    getInt P (emitDate date ++ obj) k = getInt P obj k := by
  by_cases hyear : date.year = 0 <;> simp [emitDate, hyear, hdd, hmm, hyy]

@[simp] theorem getInt64_emitDate_ne (hdd : k ≠ .dd) (hmm : k ≠ .mm) (hyy : k ≠ .yy) :
    getInt64 (emitDate date ++ obj) k = getInt64 obj k := by
  by_cases hyear : date.year = 0 <;> simp [emitDate, hyear, hdd, hmm, hyy]

@[simp] theorem getFloat_emitDate_ne (hdd : k ≠ .dd) (hmm : k ≠ .mm) (hyy : k ≠ .yy) :
    getFloat P (emitDate date ++ obj) k = getFloat P obj k := by
  by_cases hyear : date.year = 0 <;> simp [emitDate, hyear, hdd, hmm, hyy]

end Getters

/-- A date arm as the parser sets it: it recurs every year exactly when no year bounds it and
the month mask is not empty. -/
def DateArm.Coherent (date : DateArm) : Prop :=
  date.repeatEveryYear = (date.year == 0 && date.repeatMonths != 0)

/-- The date arm that comes back from the emitted date fields is the one that was emitted. -/
theorem dateArm_emitDate (P : Platform Coord) {date : DateArm} (h : date.Coherent) :
    dateArm P date.day.toUInt32.toInt32 (some date.repeatMonths.toUInt32.toInt32)
      (if date.year = 0 then none else some date.year.toUInt32.toInt32) = date := by
  obtain ⟨day, months, year, every⟩ := date
  simp only [DateArm.Coherent] at h
  by_cases hyear : year = 0
  · simp [dateArm, hyear, h]
  · simp [dateArm, hyear, h, uint16_pos hyear]

variable [Inhabited Coord]

/-- The coordinate that the getter reads back from an emitted one. -/
def reread (P : Platform Coord) (c : Coord) : Coord :=
  (P.readFloat (.float (P.printFloat c))).getD default

@[simp] theorem getFloat_setFloat_self (P : Platform Coord) (k : Key) (c : Coord)
    (obj : Object Coord) : getFloat P (setFloat P k c :: obj) k = some (reread P c) := by
  obtain ⟨c', hc'⟩ := Option.isSome_iff_exists.mp (P.readFloat_print c)
  simp [getFloat, setFloat, reread, hc']

/-! ### What the parser produces -/

/-- The hour and the minute of a trigger are the split of a minute of the day. -/
def Trigger.HasMinute (t : Trigger Coord) : Prop :=
  ∃ m : Int32, 0 ≤ m.toInt ∧ m.toInt < 1440 ∧
    t.hours = (m / 60).toUInt32.toUInt8 ∧ t.minutes = (m % 60).toUInt32.toUInt8

/-- The fields that only another trigger type sets. -/
structure Trigger.Plain (t : Trigger Coord) : Prop where
  relativeSeconds : t.relativeSeconds = 0
  nextScheduledTimeUtc : t.nextScheduledTimeUtc = 0
  coherent : t.date.Coherent
  exclusive : t.repeatDays ≠ 0 → t.date = {}

/-- The triggers that the parser produces, by type. -/
inductive TriggerShape (P : Platform Coord) (t : Trigger Coord) : Prop
  | relative (rsec : Int32) (ts : Int64)
      (h : t = { type := .relative, relativeSeconds := rsec, nextScheduledTimeUtc := ts })
  | daysOfWeek (htype : t.type = .daysOfWeek) (hplain : t.Plain) (hdate : t.date = {})
      (hoffset : t.offsetMinutes = 0) (hm : t.HasMinute)
  | date (htype : t.type = .date) (hplain : t.Plain) (hdays : t.repeatDays = 0)
      (hoffset : t.offsetMinutes = 0) (hm : t.HasMinute)
  | solar (htype : t.type = .sunrise ∨ t.type = .sunset) (hplain : t.Plain)
      (hdaylight : P.daylight = true) (hhours : t.hours = 0) (hminutes : t.minutes = 0)

/-- A trigger after the two day arms, before the solar arm. -/
structure DayArms (t : Trigger Coord) : Prop where
  plain : t.Plain
  offset : t.offsetMinutes = 0
  hours : t.hours = 0
  minutes : t.minutes = 0
  type : t.type = .invalid ∨ (t.type = .daysOfWeek ∧ t.date = {}) ∨
    (t.type = .date ∧ t.repeatDays = 0)

/-- The day arms of an object leave the trigger in one of three forms. -/
theorem dayArms_parse (P : Platform Coord) (obj : Object Coord) :
    DayArms (parseDate P obj (parseDaysOfWeek P obj {})) := by
  unfold parseDate parseDaysOfWeek
  cases getInt P obj .dd with
  | none =>
    cases getInt P obj .d with
    | none => exact ⟨⟨rfl, rfl, rfl, fun _ => rfl⟩, rfl, rfl, rfl, .inl rfl⟩
    | some d => exact ⟨⟨rfl, rfl, rfl, fun _ => rfl⟩, rfl, rfl, rfl, .inr (.inl ⟨rfl, rfl⟩)⟩
  | some dd =>
    cases getInt P obj .d with
    | none =>
      exact ⟨⟨rfl, rfl, rfl, fun h => absurd rfl h⟩, rfl, rfl, rfl, .inr (.inr ⟨rfl, rfl⟩)⟩
    | some d =>
      exact ⟨⟨rfl, rfl, rfl, fun h => absurd rfl h⟩, rfl, rfl, rfl, .inr (.inr ⟨rfl, rfl⟩)⟩

/-- The fields of a solar trigger, apart from the daylight option. -/
structure SolarArm (t : Trigger Coord) : Prop where
  type : t.type = .sunrise ∨ t.type = .sunset
  plain : t.Plain
  hours : t.hours = 0
  minutes : t.minutes = 0

variable {t : Trigger Coord} {s : Schedule Coord} {P : Platform Coord} {owner : Owner}
  {clock : Clock Coord}

/-- The offset fields keep the day arms, or turn the trigger into a solar one. -/
theorem parseSolarOffset_cases (P : Platform Coord) (obj : Object Coord) (ht : DayArms t) :
    (DayArms (parseSolarOffset P obj t) ∨ SolarArm (parseSolarOffset P obj t)) ∧
      (parseSolarOffset P obj t).date = t.date := by
  have hplain (u : Trigger Coord) (hr : u.relativeSeconds = t.relativeSeconds)
      (hn : u.nextScheduledTimeUtc = t.nextScheduledTimeUtc) (hd : u.date = t.date)
      (hw : u.repeatDays = t.repeatDays) : u.Plain :=
    ⟨hr ▸ ht.plain.relativeSeconds, hn ▸ ht.plain.nextScheduledTimeUtc, hd ▸ ht.plain.coherent,
      by rw [hd, hw]; exact ht.plain.exclusive⟩
  unfold parseSolarOffset
  cases getInt P obj .sr with
  | some offset =>
    exact ⟨.inr ⟨.inl rfl, hplain _ rfl rfl rfl rfl, ht.hours, ht.minutes⟩, rfl⟩
  | none =>
    cases getInt P obj .ss with
    | some offset =>
      exact ⟨.inr ⟨.inr rfl, hplain _ rfl rfl rfl rfl, ht.hours, ht.minutes⟩, rfl⟩
    | none => exact ⟨.inl ht, rfl⟩

/-- The default day mask of a solar trigger stands alone: an object without a day arm has left
the date arm empty. -/
theorem solarArm_defaultSolarDays (P : Platform Coord) (obj : Object Coord) (ht : SolarArm t)
    (hnone : getInt P obj .dd = none → t.date = {}) : SolarArm (defaultSolarDays P obj t) := by
  unfold defaultSolarDays
  split
  · rename_i h
    have hdate := hnone h.2.2
    exact ⟨ht.type, ⟨ht.plain.relativeSeconds, ht.plain.nextScheduledTimeUtc,
      ht.plain.coherent, fun _ => hdate⟩, ht.hours, ht.minutes⟩
  · exact ht

/-- A trigger of a day arm is not solar, so the solar default leaves it alone. -/
theorem defaultSolarDays_of_dayArms (P : Platform Coord) (obj : Object Coord) (ht : DayArms t) :
    defaultSolarDays P obj t = t := by
  unfold defaultSolarDays
  rw [if_neg]
  rintro ⟨h, -⟩
  rcases ht.type with h' | ⟨h', -⟩ | ⟨h', -⟩ <;> simp [h'] at h

/-- The solar arm keeps the day arms, or makes the trigger a solar one. -/
theorem parseSolar_cases (P : Platform Coord) (obj : Object Coord) (ht : DayArms t)
    (hnone : getInt P obj .dd = none → t.date = {}) :
    DayArms (parseSolar P obj t) ∨ SolarArm (parseSolar P obj t) := by
  unfold parseSolar
  cases getFloat P obj .lat with
  | none => exact .inl ht
  | some lat =>
    cases getFloat P obj .lon with
    | none => exact .inl ht
    | some lon =>
      have ht' : DayArms { t with latitude := lat, longitude := lon } :=
        ⟨⟨ht.plain.relativeSeconds, ht.plain.nextScheduledTimeUtc, ht.plain.coherent,
          ht.plain.exclusive⟩, ht.offset, ht.hours, ht.minutes, ht.type⟩
      obtain ⟨hday | hsolar, hdate⟩ := parseSolarOffset_cases P obj ht'
      · dsimp only
        rw [defaultSolarDays_of_dayArms P obj hday]
        exact .inl hday
      · exact .inr (solarArm_defaultSolarDays P obj hsolar fun h => hdate.trans (hnone h))

/-- Without `dd` in the object the date arm stays empty. -/
theorem parseDate_date_of_none (P : Platform Coord) (obj : Object Coord)
    (h : getInt P obj .dd = none) :
    (parseDate P obj (parseDaysOfWeek P obj {})).date = ({} : DateArm) := by
  unfold parseDate parseDaysOfWeek
  rw [h]
  cases getInt P obj .d <;> rfl

/-- The arms of an object are the day arms, or a solar arm where that is compiled in. -/
theorem parseArms_cases (P : Platform Coord) (obj : Object Coord) :
    DayArms (parseArms P obj) ∨ (SolarArm (parseArms P obj) ∧ P.daylight = true) := by
  unfold parseArms
  by_cases hday : P.daylight = true
  · rw [if_pos hday]
    exact (parseSolar_cases P obj (dayArms_parse P obj)
      (parseDate_date_of_none P obj)).imp_right fun h => ⟨h, hday⟩
  · rw [if_neg hday]
    exact .inl (dayArms_parse P obj)

/-- The time of day of a trigger is in range, and setting it changes nothing else. -/
theorem parseMinutes_eq_some (P : Platform Coord) {obj : Object Coord} {u : Trigger Coord}
    (h : parseMinutes P obj t = some u) :
    ∃ m : Int32, 0 ≤ m.toInt ∧ m.toInt < 1440 ∧
      u = { t with
            hours := (m / 60).toUInt32.toUInt8
            minutes := (m % 60).toUInt32.toUInt8 } := by
  unfold parseMinutes at h
  cases hm : getInt P obj .m with
  | none => simp [hm] at h
  | some m =>
    simp only [hm] at h
    split at h
    · simp at h
    · rename_i hrange
      rw [not_or, Int32.not_lt, Int32.not_le, Int32.le_iff_toInt_le,
        Int32.lt_iff_toInt_lt] at hrange
      exact ⟨m, by simpa using hrange.1, by simpa using hrange.2, (Option.some.inj h).symm⟩

/-- Every trigger that the parser accepts has one of the four shapes. -/
theorem triggerShape_of_parse (P : Platform Coord) {obj : Object Coord} {ts : Int64}
    (h : parseTriggerObject P obj = some (t, ts)) : TriggerShape P t := by
  unfold parseTriggerObject at h
  cases hrsec : getInt P obj .rsec with
  | some rsec =>
    simp only [hrsec, Option.some.injEq, Prod.mk.injEq] at h
    exact .relative rsec _ h.1.symm
  | none =>
    simp only [hrsec] at h
    rcases parseArms_cases P obj with hday | ⟨hsolar, hdaylight⟩
    · rcases hday.type with htype | ⟨htype, hdate⟩ | ⟨htype, hdays⟩
      · simp [htype] at h
      · simp only [htype, Option.map_eq_some_iff, Prod.mk.injEq] at h
        obtain ⟨u, hu, rfl, -⟩ := h
        obtain ⟨m, h0, h1, rfl⟩ := parseMinutes_eq_some P hu
        exact .daysOfWeek htype ⟨hday.plain.1, hday.plain.2, hday.plain.3, hday.plain.4⟩ hdate
          hday.offset ⟨m, h0, h1, rfl, rfl⟩
      · simp only [htype, Option.map_eq_some_iff, Prod.mk.injEq] at h
        obtain ⟨u, hu, rfl, -⟩ := h
        obtain ⟨m, h0, h1, rfl⟩ := parseMinutes_eq_some P hu
        exact .date htype ⟨hday.plain.1, hday.plain.2, hday.plain.3, hday.plain.4⟩ hdays
          hday.offset ⟨m, h0, h1, rfl, rfl⟩
    · rcases hsolar.type with htype | htype
      · simp only [htype, Option.some.injEq, Prod.mk.injEq] at h
        rw [← h.1]
        exact .solar (.inl htype) hsolar.plain hdaylight hsolar.hours hsolar.minutes
      · simp only [htype, Option.some.injEq, Prod.mk.injEq] at h
        rw [← h.1]
        exact .solar (.inr htype) hsolar.plain hdaylight hsolar.hours hsolar.minutes

/-! ### What comes back from an emitted trigger -/

section Emitted

variable (P : Platform Coord) {k : Key} (s : Schedule Coord)

@[simp] theorem getInt_emitTs_ne (h : k ≠ .ts) : getInt P (emitTs s) k = none := by
  unfold emitTs
  split
  · exact getInt_setInt_ne P _ [] h
  · rfl

@[simp] theorem getFloat_emitTs_ne (h : k ≠ .ts) : getFloat P (emitTs s) k = none := by
  unfold emitTs
  split
  · exact getFloat_setInt_ne P _ [] h
  · rfl

end Emitted

/-- The minute of the day that is emitted reads back as the hour and the minute. -/
theorem parseMinutes_emit (P : Platform Coord) (obj : Object Coord) {u : Trigger Coord}
    (ht : t.HasMinute) (hobj : getInt P obj .m = some (minutesSinceMidnight t)) :
    parseMinutes P obj u = some { u with hours := t.hours, minutes := t.minutes } := by
  obtain ⟨m, h0, h1, hhours, hminutes⟩ := ht
  have hm : minutesSinceMidnight t = m := by
    rw [minutesSinceMidnight, hhours, hminutes]
    exact hours_mul_add_minutes h0 h1
  have hrange : ¬(m < 0 ∨ 24 * 60 ≤ m) := by
    rw [not_or, Int32.not_lt, Int32.not_le, Int32.le_iff_toInt_le, Int32.lt_iff_toInt_lt]
    exact ⟨by simpa using h0, by simpa using h1⟩
  simp only [parseMinutes, hobj, hm]
  rw [if_neg hrange, hhours, hminutes]

/-- The `ts` field that the JSON of a schedule carries. -/
def storedTs (s : Schedule Coord) : Option Int64 := getInt64 (emitTs s) .ts

/-- The trigger of a schedule as a replay of its JSON arms it: the coordinates are reprinted,
and a relative trigger carries the stored `ts`. -/
def replayTrigger (P : Platform Coord) (s : Schedule Coord) : Trigger Coord :=
  match s.trigger.type with
  | .relative => { s.trigger with nextScheduledTimeUtc := (storedTs s).getD 0 }
  | .sunrise | .sunset =>
    { s.trigger with
      latitude := reread P s.trigger.latitude
      longitude := reread P s.trigger.longitude }
  | _ => { s.trigger with latitude := default, longitude := default }

/-- A solar trigger without a day arm: the serializer writes neither `d` nor `dd` for it. -/
def Trigger.LacksDayArm (t : Trigger Coord) : Prop :=
  (t.type = .sunrise ∨ t.type = .sunset) ∧ t.repeatDays = 0 ∧ t.date.day = 0

instance (t : Trigger Coord) : Decidable t.LacksDayArm := inferInstanceAs (Decidable (_ ∧ _))

/-- The trigger that the parser makes of the JSON of a schedule. -/
def restoredTrigger (P : Platform Coord) (s : Schedule Coord) : Trigger Coord :=
  if s.trigger.LacksDayArm then
    { replayTrigger P s with repeatDays := P.everyday, date := {} }
  else replayTrigger P s

/-- Only a solar trigger can lack a day arm. -/
theorem restoredTrigger_of_not_solar (P : Platform Coord) (hrise : s.trigger.type ≠ .sunrise)
    (hset : s.trigger.type ≠ .sunset) : restoredTrigger P s = replayTrigger P s := by
  rw [restoredTrigger, if_neg]
  rintro ⟨h | h, -⟩
  · exact hrise h
  · exact hset h

section EmittedTrigger

variable (P : Platform Coord) (s : Schedule Coord)

/-- A day-of-week trigger comes back with its mask and its time of day. -/
theorem parseTriggerObject_emit_daysOfWeek (htype : s.trigger.type = .daysOfWeek)
    (hplain : s.trigger.Plain) (hdate : s.trigger.date = {})
    (hoffset : s.trigger.offsetMinutes = 0) (hm : s.trigger.HasMinute) :
    parseTriggerObject P (emitTriggerType P s.trigger ++ emitTs s) =
      some (restoredTrigger P s, reportedTs (storedTs s)) := by
  have harms : parseArms P (emitTriggerType P s.trigger ++ emitTs s) =
      ({ type := .daysOfWeek, repeatDays := s.trigger.repeatDays } : Trigger Coord) := by
    simp [parseArms, parseSolar, parseDate, parseDaysOfWeek, emitTriggerType, htype]
  have hmin := parseMinutes_emit P (emitTriggerType P s.trigger ++ emitTs s)
    (u := { type := .daysOfWeek, repeatDays := s.trigger.repeatDays }) hm
    (by simp [emitTriggerType, htype])
  have hrsec : getInt P (emitTriggerType P s.trigger ++ emitTs s) .rsec = none := by
    simp [emitTriggerType, htype]
  have hts : getInt64 (emitTriggerType P s.trigger ++ emitTs s) .ts = storedTs s := by
    simp [emitTriggerType, htype, storedTs]
  rw [restoredTrigger_of_not_solar P (by simp [htype]) (by simp [htype])]
  simp only [parseTriggerObject, hrsec, hts, harms, hmin, replayTrigger, htype,
    Option.map_some, hdate, hplain.relativeSeconds, hplain.nextScheduledTimeUtc, hoffset]

/-- A date trigger comes back with its date arm and its time of day. -/
theorem parseTriggerObject_emit_date (htype : s.trigger.type = .date)
    (hplain : s.trigger.Plain) (hdays : s.trigger.repeatDays = 0)
    (hoffset : s.trigger.offsetMinutes = 0) (hm : s.trigger.HasMinute) :
    parseTriggerObject P (emitTriggerType P s.trigger ++ emitTs s) =
      some (restoredTrigger P s, reportedTs (storedTs s)) := by
  have harms : parseArms P (emitTriggerType P s.trigger ++ emitTs s) =
      ({ type := .date, date := s.trigger.date } : Trigger Coord) := by
    simp [parseArms, parseSolar, parseDate, parseDaysOfWeek, emitTriggerType, htype,
      dateArm_emitDate P hplain.coherent]
  have hmin := parseMinutes_emit P (emitTriggerType P s.trigger ++ emitTs s)
    (u := { type := .date, date := s.trigger.date }) hm (by simp [emitTriggerType, htype])
  have hrsec : getInt P (emitTriggerType P s.trigger ++ emitTs s) .rsec = none := by
    simp [emitTriggerType, htype]
  have hts : getInt64 (emitTriggerType P s.trigger ++ emitTs s) .ts = storedTs s := by
    simp [emitTriggerType, htype, storedTs]
  rw [restoredTrigger_of_not_solar P (by simp [htype]) (by simp [htype])]
  simp only [parseTriggerObject, hrsec, hts, harms, hmin, replayTrigger, htype,
    Option.map_some, hdays, hplain.relativeSeconds, hplain.nextScheduledTimeUtc, hoffset]

/-- A solar trigger comes back with its kind, its offset and its day arm. Without a day arm to
emit it comes back as an every-day trigger. -/
theorem parseTriggerObject_emit_solar
    (htype : s.trigger.type = .sunrise ∨ s.trigger.type = .sunset)
    (hplain : s.trigger.Plain) (hdaylight : P.daylight = true) (hhours : s.trigger.hours = 0)
    (hminutes : s.trigger.minutes = 0) :
    parseTriggerObject P (emitTriggerType P s.trigger ++ emitTs s) =
      some (restoredTrigger P s, reportedTs (storedTs s)) := by
  obtain ⟨hrel, hnext, hcoherent, hexcl⟩ := hplain
  have hrsec : getInt P (emitTriggerType P s.trigger ++ emitTs s) .rsec = none := by
    rcases htype with htype | htype <;> by_cases hdays : s.trigger.repeatDays = 0 <;>
      by_cases hday : s.trigger.date.day = 0 <;>
      simp [emitTriggerType, htype, hdaylight, hdays, hday]
  have hts : getInt64 (emitTriggerType P s.trigger ++ emitTs s) .ts = storedTs s := by
    rcases htype with htype | htype <;> by_cases hdays : s.trigger.repeatDays = 0 <;>
      by_cases hday : s.trigger.date.day = 0 <;>
      simp [emitTriggerType, htype, hdaylight, hdays, hday, storedTs]
  -- The emitted object carries the weekday arm, the date arm or no day arm.
  have harms : parseArms P (emitTriggerType P s.trigger ++ emitTs s) = restoredTrigger P s := by
    by_cases hdays : s.trigger.repeatDays = 0
    · by_cases hday : s.trigger.date.day = 0
      · rcases htype with htype | htype <;>
          simp [emitTriggerType, htype, hdaylight, hdays, hday, parseArms, parseDate,
            parseDaysOfWeek, parseSolar, parseSolarOffset, defaultSolarDays, restoredTrigger,
            replayTrigger, Trigger.LacksDayArm, hrel, hnext, hhours, hminutes]
      · rcases htype with htype | htype <;>
          simp [emitTriggerType, htype, hdaylight, hdays, hday, parseArms, parseDate,
            parseDaysOfWeek, parseSolar, parseSolarOffset, defaultSolarDays, restoredTrigger,
            replayTrigger, Trigger.LacksDayArm, hrel, hnext, hhours, hminutes,
            dateArm_emitDate P hcoherent]
    · rcases htype with htype | htype <;>
        simp [emitTriggerType, htype, hdaylight, hdays, parseArms, parseDate,
          parseDaysOfWeek, parseSolar, parseSolarOffset, defaultSolarDays, restoredTrigger,
          replayTrigger, Trigger.LacksDayArm, hrel, hnext, hhours, hminutes, hexcl]
  have htype' : (restoredTrigger P s).type = s.trigger.type := by
    rcases htype with htype | htype <;> by_cases hday : s.trigger.LacksDayArm <;>
      simp [restoredTrigger, replayTrigger, htype, hday]
  rcases htype with htype | htype <;>
    simp only [parseTriggerObject, hrsec, hts, harms, htype', htype]

end EmittedTrigger

/-- The parser on the JSON of a live schedule gives the restored trigger and the stored `ts`. -/
theorem parseTriggerObject_emit (P : Platform Coord) (s : Schedule Coord)
    (h : TriggerShape P s.trigger) :
    parseTriggerObject P (emitTriggerType P s.trigger ++ emitTs s) =
      some (restoredTrigger P s, reportedTs (storedTs s)) := by
  cases h with
  | relative rsec ts h =>
    rw [restoredTrigger_of_not_solar P (by simp [h]) (by simp [h])]
    simp [parseTriggerObject, emitTriggerType, replayTrigger, h, storedTs]
  | daysOfWeek htype hplain hdate hoffset hm =>
    exact parseTriggerObject_emit_daysOfWeek P s htype hplain hdate hoffset hm
  | date htype hplain hdays hoffset hm =>
    exact parseTriggerObject_emit_date P s htype hplain hdays hoffset hm
  | solar htype hplain hdaylight hhours hminutes =>
    exact parseTriggerObject_emit_solar P s htype hplain hdaylight hhours hminutes

/-! ### What comes back from the JSON of a schedule -/

/-- The invariant of the handles of a node: each schedule is one that the build read from some
details entry. Arming changes `nextFireTs` only, which the invariant does not mention. -/
structure Installed (P : Platform Coord) (owner : Owner) (s : Schedule Coord) : Prop where
  cloudId : s.cloudId ≠ [] ∧ s.cloudId.length ≤ P.maxScheduleNameLen
  name : P.deriveScheduleName owner.localId s.cloudId = some s.name
  nodeKey : ownerNodeKey P owner = some s.nodeKey
  action : s.action ≠ []
  oneShot : s.oneShot = triggerIsOneShot P s.trigger
  shape : TriggerShape P s.trigger

/-- `live` is `built` some time later: a timestamp callback may have set the armed instant. -/
def ArmedAs (built live : Schedule Coord) : Prop :=
  ∃ ts : UInt32, live = { built with nextFireTs := Int64.ofNat ts.toNat }

theorem Installed.armed {built live : Schedule Coord} (h : Installed P owner built)
    (ha : ArmedAs built live) : Installed P owner live := by
  obtain ⟨ts, rfl⟩ := ha
  exact ⟨h.cloudId, h.name, h.nodeKey, h.action, h.oneShot, h.shape⟩

/-- What the build reads from an entry satisfies the invariant. -/
theorem installed_of_readSchedule {nodeKey : List Char} {obj : ScheduleObject Coord}
    (hkey : ownerNodeKey P owner = some nodeKey)
    (h : readSchedule P clock owner nodeKey obj = some s) : Installed P owner s := by
  simp only [readSchedule, Option.bind_eq_bind, Option.bind_eq_some_iff,
    Option.guard_eq_some'] at h
  obtain ⟨-, -, id, -, -, hid, name, hname, ⟨t, ts⟩, htrigger, -, -, action, haction, h⟩ := h
  obtain rfl := (Option.some.inj h).symm
  obtain ⟨obj', -, hparse⟩ := Option.bind_eq_some_iff.mp htrigger
  have haction' : action ≠ [] := by
    obtain ⟨data, -, hdata⟩ := Option.bind_eq_some_iff.mp haction
    split at hdata
    · simp at hdata
    · rename_i hne
      exact (Option.some.inj hdata) ▸ hne
  exact ⟨hid, hname, hkey, haction', rfl, triggerShape_of_parse P hparse⟩

/-- The clock and `esp_schedule` accept a schedule: the clock is not synced, so nothing is
pruned, or the trigger has an occurrence left. -/
def Clock.Accepts (clock : Clock Coord) (t : Trigger Coord) (v : Validity) : Prop :=
  clock.synced = true → ∃ ts : UInt32, ts ≠ 0 ∧ clock.enable t v = some ts

/-- A timestamp that is not `0` stays so as a `time_t`. -/
theorem ofNat_toNat_ne_zero {ts : UInt32} (h : ts ≠ 0) : Int64.ofNat ts.toNat ≠ 0 := by
  have hlt := ts.toNat_lt
  have hne : ts.toNat ≠ 0 := fun h0 => h (UInt32.toNat_inj.mp (by simpa using h0))
  rw [Ne, ← Int64.toInt_inj, Int64.toInt_ofNat_of_lt (by omega)]
  simp
  omega

/-- A new schedule that is accepted is kept, and only its armed instant changes. -/
theorem armNew_of_accepts (P : Platform Coord) (h : clock.Accepts s.trigger s.validity) :
    ∃ ts, armNew P clock s = some { s with nextFireTs := ts } := by
  unfold armNew armOrDefer
  by_cases hdefer : (P.decoupledFlow && !clock.timeReady && !clock.synced) = true
  · rw [if_pos hdefer]
    exact ⟨s.nextFireTs, rfl⟩
  · rw [if_neg hdefer]
    cases hsync : clock.synced with
    | false =>
      cases clock.enable s.trigger s.validity with
      | none => exact ⟨0, by simp [scheduleIsSpent, hsync]⟩
      | some ts => exact ⟨Int64.ofNat ts.toNat, by simp [scheduleIsSpent, hsync]⟩
    | true =>
      obtain ⟨ts, hne, hts⟩ := h hsync
      exact ⟨Int64.ofNat ts.toNat, by simp [scheduleIsSpent, hts, ofNat_toNat_ne_zero hne]⟩

/-- A new schedule that is not accepted is dropped. -/
theorem armNew_of_not_accepts (P : Platform Coord) (h : ¬clock.Accepts s.trigger s.validity) :
    armNew P clock s = none := by
  unfold Clock.Accepts at h
  push Not at h
  obtain ⟨hsync, hnone⟩ := h
  unfold armNew armOrDefer
  rw [if_neg (by simp [hsync])]
  cases hts : clock.enable s.trigger s.validity with
  | none => simp [scheduleIsSpent, hsync]
  | some ts =>
    have hzero : ts = 0 := by
      by_contra hne
      exact hnone ts hne hts
    simp [scheduleIsSpent, hsync, hzero]

/-- Every schedule that the build loop installs satisfies the invariant. -/
theorem installed_of_buildSchedule {nodeKey : List Char} {obj : ScheduleObject Coord}
    (hkey : ownerNodeKey P owner = some nodeKey)
    (h : buildSchedule P clock owner nodeKey obj = some s) : Installed P owner s := by
  obtain ⟨r, hr, hs⟩ := Option.bind_eq_some_iff.mp h
  have hinst := installed_of_readSchedule hkey hr
  by_cases hacc : clock.Accepts r.trigger r.validity
  · obtain ⟨ts, hts⟩ := armNew_of_accepts P hacc
    rw [hts] at hs
    obtain rfl := Option.some.inj hs
    exact ⟨hinst.cloudId, hinst.name, hinst.nodeKey, hinst.action, hinst.oneShot, hinst.shape⟩
  · rw [armNew_of_not_accepts P hacc] at hs
    simp at hs

/-- The validity window that the parser makes of the JSON of a schedule. -/
def restoredValidity (v : Validity) : Validity where
  startTime := v.startTime.toInt32.toInt64
  endTime := v.endTime.toInt32.toInt64

omit [Inhabited Coord] in
theorem parseValidity_emitValidity (v : Validity) :
    parseValidity (emitValidity v : Option (Object Coord)) = restoredValidity v := by
  unfold emitValidity
  split
  · simp [parseValidity, restoredValidity]
  · rename_i h
    rw [not_or, not_not, not_not] at h
    simp [parseValidity, restoredValidity, h.1, h.2]

/-- The schedule that the parser makes of the JSON of a schedule. -/
def restored (P : Platform Coord) (s : Schedule Coord) : Schedule Coord :=
  { s with
    trigger := restoredTrigger P s
    validity := restoredValidity s.validity
    oneShot := triggerIsOneShot P (restoredTrigger P s)
    nextFireTs := 0 }

/-- Reading the JSON of an installed schedule gives the restored schedule, unless it has come
due. -/
theorem readSchedule_emitSchedule (P : Platform Coord) (clock : Clock Coord)
    (h : Installed P owner s) :
    readSchedule P clock owner s.nodeKey (emitSchedule P s) =
      if cameDue clock (restored P s).oneShot (reportedTs (storedTs s)) then none
      else some (restored P s) := by
  obtain ⟨hid, hlen⟩ := h.cloudId
  have hparse : parseTrigger P (some [some (emitTriggerType P s.trigger ++ emitTs s)]) =
      some (restoredTrigger P s, reportedTs (storedTs s)) := by
    simpa [parseTrigger] using parseTriggerObject_emit P s h.shape
  cases hdue : cameDue clock (restored P s).oneShot (reportedTs (storedTs s)) with
  | true =>
    rw [restored] at hdue
    simp [readSchedule, emitSchedule, hparse, hdue]
  | false =>
    have hdue' := hdue
    rw [restored] at hdue'
    simp [readSchedule, emitSchedule, hid, hlen, h.name, h.action, hparse, hdue', restored,
      parseAction, parseValidity_emitValidity]

/-- The build of the JSON of an installed schedule: nothing when it has come due, else the
restored schedule as far as it is accepted. -/
theorem buildSchedule_emitSchedule (P : Platform Coord) (clock : Clock Coord)
    (h : Installed P owner s) :
    buildSchedule P clock owner s.nodeKey (emitSchedule P s) =
      if cameDue clock (restored P s).oneShot (reportedTs (storedTs s)) then none
      else armNew P clock (restored P s) := by
  rw [buildSchedule, readSchedule_emitSchedule P clock h]
  split <;> rfl

/-! ### The round trip -/

/-- `s'` does what `s` does: the same id, the same trigger, the same recurrence, the same
validity window and the same action, and the `ts` that was read for it is the armed instant of
a one-shot. Repeating schedules carry no `ts`. -/
structure SameSchedule (P : Platform Coord) (s s' : Schedule Coord) : Prop where
  cloudId : s'.cloudId = s.cloudId
  type : s'.trigger.type = s.trigger.type
  repeatDays : s'.trigger.repeatDays = s.trigger.repeatDays
  date : s'.trigger.date = s.trigger.date
  hours : s'.trigger.hours = s.trigger.hours
  minutes : s'.trigger.minutes = s.trigger.minutes
  relativeSeconds : s'.trigger.relativeSeconds = s.trigger.relativeSeconds
  offsetMinutes : s'.trigger.offsetMinutes = s.trigger.offsetMinutes
  oneShot : s'.oneShot = s.oneShot
  validity : s'.validity = s.validity
  action : s'.action = s.action
  ts : (parseTrigger P (emitSchedule P s).triggers).map Prod.snd =
    some (if s.oneShot then s.nextFireTs else 0)

/-- The details JSON of the live schedules builds, and it builds each of them again. -/
def Restores (P : Platform Coord) (clock : Clock Coord) (owner : Owner)
    (live : List (Schedule Coord)) : Prop :=
  ∃ rebuilt, buildScheduleDetails P clock owner live (some (serializeNodeSchedules P live)) =
    (rebuilt, true) ∧ List.Forall₂ (SameSchedule P) live rebuilt

/-- What a schedule needs to survive the round trip: the integers that the serializer casts to
`int` fit, a solar trigger has a day arm to write, and at the time of the rebuild the schedule
has not come due and has an occurrence left. -/
structure Survives (P : Platform Coord) (clock : Clock Coord) (s : Schedule Coord) : Prop where
  startTime : FitsInt s.validity.startTime
  endTime : FitsInt s.validity.endTime
  ts : s.oneShot = true → FitsInt s.nextFireTs
  dayArm : ¬s.trigger.LacksDayArm
  notDue : cameDue clock s.oneShot s.nextFireTs = false
  accepted : clock.Accepts (replayTrigger P s) s.validity

/-- The `ts` read back is the armed instant exactly when a one-shot's instant fits an `int`. -/
theorem reportedTs_storedTs_iff (hts : ∃ ts : UInt32, s.nextFireTs = Int64.ofNat ts.toNat) :
    reportedTs (storedTs s) = (if s.oneShot then s.nextFireTs else 0) ↔
      (s.oneShot = true → FitsInt s.nextFireTs) := by
  obtain ⟨ts, hts⟩ := hts
  cases hone : s.oneShot with
  | false => simp [storedTs, emitTs, hone, reportedTs]
  | true =>
    by_cases hzero : ts = 0
    · simp [storedTs, emitTs, hone, hts, hzero, reportedTs, FitsInt]
    · have hne := ofNat_toNat_ne_zero hzero
      have hpos : 0 < s.nextFireTs := by
        have hlt := ts.toNat_lt
        rw [← hts, Ne, ← Int64.toInt_inj, hts, Int64.toInt_ofNat_of_lt (by omega)] at hne
        rw [hts, Int64.lt_iff_toInt_lt, Int64.toInt_ofNat_of_lt (by omega)]
        simp at hne ⊢
        omega
      have hstored : storedTs s = some s.nextFireTs.toInt32.toInt64 := by
        simp [storedTs, emitTs, hone, hts, hne]
      rw [hstored, if_pos rfl, ← toInt64_toInt32_iff]
      simp only [reportedTs, true_implies]
      constructor
      · intro h
        split at h
        · exact h
        · rw [← h] at hpos
          exact absurd hpos Int64.lt_irrefl
      · intro h
        rw [h, if_pos hpos]

/-- The replayed trigger recurs as the original does. -/
theorem triggerIsOneShot_replayTrigger (P : Platform Coord) (s : Schedule Coord) :
    triggerIsOneShot P (replayTrigger P s) = triggerIsOneShot P s.trigger := by
  cases htype : s.trigger.type <;> simp [triggerIsOneShot, replayTrigger, htype]

/-- The validity window comes back exactly when both ends fit an `int`. -/
theorem restoredValidity_eq_iff (v : Validity) :
    restoredValidity v = v ↔ FitsInt v.startTime ∧ FitsInt v.endTime := by
  rw [← toInt64_toInt32_iff, ← toInt64_toInt32_iff]
  constructor
  · intro h
    exact ⟨congrArg Validity.startTime h, congrArg Validity.endTime h⟩
  · rintro ⟨hstart, hend⟩
    rw [restoredValidity, hstart, hend]

/-- What the restored schedule has in common with the original when a day arm was written and
the window fits: everything but the coordinates and the armed instant. -/
theorem sameSchedule_restored (h : Installed P owner s) (harm : ¬s.trigger.LacksDayArm)
    (hvalid : restoredValidity s.validity = s.validity)
    (hts : reportedTs (storedTs s) = if s.oneShot then s.nextFireTs else 0) (ts : Int64) :
    SameSchedule P s { restored P s with nextFireTs := ts } := by
  have htrigger : restoredTrigger P s = replayTrigger P s := if_neg harm
  have hparse : parseTrigger P (emitSchedule P s).triggers =
      some (restoredTrigger P s, reportedTs (storedTs s)) := by
    simpa [parseTrigger, emitSchedule] using parseTriggerObject_emit P s h.shape
  have hone : triggerIsOneShot P (restoredTrigger P s) = s.oneShot := by
    rw [htrigger, triggerIsOneShot_replayTrigger, h.oneShot]
  refine ⟨rfl, ?_, ?_, ?_, ?_, ?_, ?_, ?_, hone, hvalid, rfl, by rw [hparse, ← hts]; rfl⟩
  all_goals
    simp only [restored, htrigger]
    cases htype : s.trigger.type <;> simp [replayTrigger, htype]

/-- A single installed schedule survives exactly under the condition. -/
theorem survives_iff (h : Installed P owner s)
    (hts : ∃ ts : UInt32, s.nextFireTs = Int64.ofNat ts.toNat) :
    (∃ s', buildSchedule P clock owner s.nodeKey (emitSchedule P s) = some s' ∧
      SameSchedule P s s') ↔ Survives P clock s := by
  rw [buildSchedule_emitSchedule P clock h]
  have hparse : parseTrigger P (emitSchedule P s).triggers =
      some (restoredTrigger P s, reportedTs (storedTs s)) := by
    simpa [parseTrigger, emitSchedule] using parseTriggerObject_emit P s h.shape
  constructor
  · rintro ⟨s', hbuild, hsame⟩
    split at hbuild
    · simp at hbuild
    · rename_i hdue
      by_cases hacc : clock.Accepts (restored P s).trigger (restored P s).validity
      · obtain ⟨ts, hnew⟩ := armNew_of_accepts P hacc
        obtain rfl := Option.some.inj (hnew.symm.trans hbuild)
        have hvalid : restoredValidity s.validity = s.validity := hsame.validity
        have hread : reportedTs (storedTs s) = if s.oneShot then s.nextFireTs else 0 := by
          have := hsame.ts
          rw [hparse] at this
          exact Option.some.inj this
        have hone : (restored P s).oneShot = s.oneShot := hsame.oneShot
        have harm : ¬s.trigger.LacksDayArm := by
          intro hlacks
          have hdays := hsame.repeatDays
          simp only [restored, restoredTrigger, if_pos hlacks] at hdays
          exact P.everyday_ne_zero (hdays.trans hlacks.2.1)
        have htrigger : restoredTrigger P s = replayTrigger P s := if_neg harm
        obtain ⟨hstart, hend⟩ := (restoredValidity_eq_iff _).mp hvalid
        refine ⟨hstart, hend, (reportedTs_storedTs_iff hts).mp hread, harm, ?_, ?_⟩
        · rw [hone, hread] at hdue
          cases hos : s.oneShot with
          | false => simp [cameDue]
          | true => simpa [hos] using hdue
        · simpa only [restored, htrigger, hvalid] using hacc
      · rw [armNew_of_not_accepts P hacc] at hbuild
        simp at hbuild
  · intro hsurv
    have hvalid := (restoredValidity_eq_iff _).mpr ⟨hsurv.startTime, hsurv.endTime⟩
    have hread := (reportedTs_storedTs_iff hts).mpr hsurv.ts
    have htrigger : restoredTrigger P s = replayTrigger P s := if_neg hsurv.dayArm
    have hone : (restored P s).oneShot = s.oneShot := by
      rw [restored, htrigger, triggerIsOneShot_replayTrigger, h.oneShot]
    have hdue : cameDue clock (restored P s).oneShot (reportedTs (storedTs s)) = false := by
      rw [hone, hread]
      cases hos : s.oneShot with
      | false => simp [cameDue]
      | true => simpa [hos] using hsurv.notDue
    have hacc : clock.Accepts (restored P s).trigger (restored P s).validity := by
      simpa only [restored, htrigger, hvalid] using hsurv.accepted
    obtain ⟨ts, hnew⟩ := armNew_of_accepts P hacc
    refine ⟨_, ?_, sameSchedule_restored h hsurv.dayArm hvalid hread ts⟩
    rw [if_neg (by simp [hdue]), hnew]

/-- The build loop visits the JSON of every installed schedule. -/
theorem visitedEntries_serialize {live : List (Schedule Coord)}
    (hinst : ∀ s ∈ live, Installed P owner s) (hlen : live.length ≤ P.maxSchedulesPerNode) :
    visitedEntries P (serializeNodeSchedules P live) = live.map (emitSchedule P) := by
  have hfilter : live.filter (fun s => decide (s.cloudId ≠ [])) = live :=
    List.filter_eq_self.mpr fun s hs => by simpa using (hinst s hs).cloudId.1
  have hsome : (live.map fun s => some (emitSchedule P s)).takeWhile Option.isSome =
      (live.map (emitSchedule P)).map some := by
    rw [List.takeWhile_eq_self_iff.mpr (by simp), List.map_map]
    rfl
  rw [visitedEntries, serializeNodeSchedules, hfilter, hsome, List.reduceOption]
  simp [List.take_of_length_le, hlen]

/-- A build that succeeds installs schedules with the invariant, no more than the limit, and
the owner has its routing token. -/
theorem installed_of_buildScheduleDetails {old built : List (Schedule Coord)}
    {payload : Option (List (Option (ScheduleObject Coord)))}
    (hbuild : buildScheduleDetails P clock owner old payload = (built, true)) :
    ∃ nodeKey, ownerNodeKey P owner = some nodeKey ∧ built.length ≤ P.maxSchedulesPerNode ∧
      ∀ s ∈ built, Installed P owner s := by
  unfold buildScheduleDetails at hbuild
  cases hkey : ownerNodeKey P owner with
  | none => simp [hkey] at hbuild
  | some nodeKey =>
    cases payload with
    | none => simp [hkey] at hbuild
    | some entries =>
      simp only [hkey, Prod.mk.injEq, and_true] at hbuild
      refine ⟨nodeKey, rfl, ?_, ?_⟩
      · rw [← hbuild]
        refine (List.length_filterMap_le _ _).trans ?_
        rw [visitedEntries, List.length_take]
        exact Nat.min_le_left _ _
      · intro s hs
        rw [← hbuild] at hs
        obtain ⟨obj, -, hobj⟩ := List.mem_filterMap.mp hs
        exact installed_of_buildSchedule hkey hobj

/-- **The exact condition of the round trip.** Build any details payload and let timestamp
callbacks set any armed instants. Building again from the JSON of the live schedules restores
every one of them exactly when each of them meets `Survives`. -/
theorem restores_iff (P : Platform Coord) (clock clock' : Clock Coord) (owner : Owner)
    (old built live : List (Schedule Coord))
    (payload : Option (List (Option (ScheduleObject Coord))))
    (hbuild : buildScheduleDetails P clock owner old payload = (built, true))
    (hlive : List.Forall₂ ArmedAs built live) :
    Restores P clock' owner live ↔ ∀ s ∈ live, Survives P clock' s := by
  obtain ⟨nodeKey, hkey, hlen, hbuilt⟩ := installed_of_buildScheduleDetails hbuild
  have harmed : ∀ s ∈ live, Installed P owner s ∧
      ∃ ts : UInt32, s.nextFireTs = Int64.ofNat ts.toNat := by
    intro s hs
    obtain ⟨b, hb, ts, rfl⟩ := exists_mem_of_forall₂ hlive hs
    exact ⟨(hbuilt b hb).armed ⟨ts, rfl⟩, ts, rfl⟩
  have hrebuild : buildScheduleDetails P clock' owner live
      (some (serializeNodeSchedules P live)) =
        (live.filterMap fun s => buildSchedule P clock' owner nodeKey (emitSchedule P s), true) := by
    simp only [buildScheduleDetails, hkey, buildEntries,
      visitedEntries_serialize (fun s hs => (harmed s hs).1) (hlive.length_eq ▸ hlen),
      List.filterMap_map, Function.comp_def]
  have hsurv : ∀ s ∈ live, ((∃ s', buildSchedule P clock' owner nodeKey (emitSchedule P s) =
      some s' ∧ SameSchedule P s s') ↔ Survives P clock' s) := by
    intro s hs
    obtain ⟨hinst, hts⟩ := harmed s hs
    obtain rfl : s.nodeKey = nodeKey := Option.some.inj (hinst.nodeKey.symm.trans hkey)
    exact survives_iff hinst hts
  unfold Restores
  rw [hrebuild]
  simp only [Prod.mk.injEq, and_true, exists_eq_left', forall₂_filterMap_iff]
  exact forall₂_congr hsurv

/-! ### Payloads that do not come back -/

/-- A sunrise trigger with an explicit day mask of `0`: it fires once. -/
def sunriseOnce : ScheduleObject Int where
  id := some ['s']
  triggers := some [some [(.lat, .int 10), (.lon, .int 20), (.sr, .int 0), (.d, .int 0)]]
  action := some ['{', '}']

/-- A daily schedule whose validity window ends in the year 2100. -/
def dailyUntil2100 : ScheduleObject Int where
  id := some ['d']
  triggers := some [some [(.d, .int 127), (.m, .int 480)]]
  validity := some [(.start, .int 1000), (.stop, .int 4102444800)]
  action := some ['{', '}']

/-- The one-shot sunrise schedule builds, and its JSON builds a schedule that repeats every
day. -/
example : (buildScheduleDetails degreePlatform (clockArming 1000 2000) selfOwner []
      (some [some sunriseOnce])).1.map (·.oneShot) = [true] ∧
    (buildScheduleDetails degreePlatform (clockArming 1000 2000) selfOwner []
      (some (serializeNodeSchedules degreePlatform (buildScheduleDetails degreePlatform
        (clockArming 1000 2000) selfOwner [] (some [some sunriseOnce])).1))).1.map (·.oneShot) =
      [false] := by decide

/-- The details JSON does not restore a one-shot sunrise schedule, nor a window that ends after
the year 2038, although both payloads build and neither schedule has come due. -/
theorem details_not_restored :
    (∃ built, buildScheduleDetails degreePlatform (clockArming 1000 2000) selfOwner []
        (some [some sunriseOnce]) = (built, true) ∧
      ¬Restores degreePlatform (clockArming 1000 2000) selfOwner built) ∧
    (∃ built, buildScheduleDetails degreePlatform (clockArming 1000 2000) selfOwner []
        (some [some dailyUntil2100]) = (built, true) ∧
      ¬Restores degreePlatform (clockArming 1000 2000) selfOwner built) := by
  constructor
  · refine ⟨_, rfl, ?_⟩
    rintro ⟨rebuilt, hbuild, hsame⟩
    obtain rfl := congrArg Prod.fst hbuild
    obtain ⟨s, hs, hsame⟩ := exists_mem_of_forall₂ hsame List.mem_cons_self
    obtain rfl := List.mem_singleton.mp hs
    exact absurd hsame.repeatDays (by decide)
  · refine ⟨_, rfl, ?_⟩
    rintro ⟨rebuilt, hbuild, hsame⟩
    obtain rfl := congrArg Prod.fst hbuild
    obtain ⟨s, hs, hsame⟩ := exists_mem_of_forall₂ hsame List.mem_cons_self
    obtain rfl := List.mem_singleton.mp hs
    exact absurd hsame.validity (by decide)

/-- A daily schedule is restored. -/
theorem daily_restored :
    Restores degreePlatform (clockArming 1500 3000) selfOwner
      (buildScheduleDetails degreePlatform (clockArming 1000 2000) selfOwner []
        (some [some daily])).1 := by
  refine (restores_iff degreePlatform (clockArming 1000 2000) (clockArming 1500 3000) selfOwner
    [] _ _ (some [some daily]) rfl (List.Forall₂.cons ⟨2000, rfl⟩ .nil)).mpr ?_
  intro s hs
  obtain rfl := List.mem_singleton.mp hs
  exact ⟨by decide, by decide, by decide, by decide, by decide, fun _ => ⟨3000, by decide, rfl⟩⟩

end RainMakerNeo.Schedules
