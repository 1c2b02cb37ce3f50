import Mathlib.Data.List.ReduceOption
import RainMakerNeo.Lib.FixedWidth

/-!
# `RainMakerNeo.Schedules.Details`: the schedule details of a node

`schedules.c` keeps the schedules of a node twice. The live handles run the timers. The details
JSON is the form that survives a reboot. This module models both forms and the two functions
between them: `buildScheduleDetails` reads the JSON, and `serializeNodeSchedules` writes it.

The JSON text is behind two third-party libraries, a parser and a generator. The model starts at
their getters and setters. An object is a list of keys with values, and a getter reads the first
value of a key. `Platform` holds what the service takes from outside the repository: the two
libraries, the day and month constants of `esp_schedule`, and the configured limits. Its law
fields say that the libraries transport an `int` and keep a float a float.

The widths of the C fields stay: `time_t` is `Int64`, an `int` is `Int32`, the day mask is
`UInt8` and the month mask and the year are `UInt16`.
-/

set_option autoImplicit false

namespace RainMakerNeo.Schedules

open RainMakerNeo.Lib (FitsInt toInt64_toInt32_iff)

/-! ### The JSON objects -/

/-- The keys that the parser reads inside a trigger and inside the validity window. -/
inductive Key
  | rsec | d | m | dd | mm | yy | lat | lon | sr | ss | ts | start | stop
  deriving DecidableEq, Repr

/-- A JSON value under a key. `other` is any value that no numeric getter accepts. -/
inductive Value (Coord : Type)
  | int (v : Int64)
  | float (c : Coord)
  | other
  deriving DecidableEq, Repr

/-- A JSON object with numeric fields: a trigger, or the validity window. -/
abbrev Object (Coord : Type) := List (Key × Value Coord)

/-- One entry of the details array, with the fields that the build reads. A trigger that is not
an object is `none` in `triggers`. `action` is the raw text of the object under that key. -/
structure ScheduleObject (Coord : Type) where
  enabled : Option Bool := none
  id : Option (List Char) := none
  triggers : Option (List (Option (Object Coord))) := none
  validity : Option (Object Coord) := none
  action : Option (List Char) := none
  deriving DecidableEq, Repr

/-- What the service takes from outside: the JSON getters and setters, the constants of
`esp_schedule`, the configured limits and the name derivation. -/
structure Platform (Coord : Type) where
  /-- `CONFIG_ESP_SCHEDULE_ENABLE_DAYLIGHT`. -/
  daylight : Bool
  /-- `TIME_SYNC_DECOUPLED_FLOW`. -/
  decoupledFlow : Bool
  /-- `MAX_SCHEDULES_PER_NODE`. -/
  maxSchedulesPerNode : Nat
  /-- `MAX_SCHEDULE_NAME_LEN`. -/
  maxScheduleNameLen : Nat
  /-- `ESP_SCHEDULE_MONTH_ALL`. -/
  monthAll : UInt16
  /-- `ESP_SCHEDULE_DAY_EVERYDAY`. -/
  everyday : UInt8
  /-- `ESP_SCHEDULE_DAY_ONCE`. -/
  dayOnce : UInt8
  /-- `json_obj_get_int` on an integer literal. -/
  readInt : Int64 → Option Int32
  /-- `json_obj_get_float` on a value. -/
  readFloat : Value Coord → Option Coord
  /-- What `json_gen_obj_set_float` prints of a coordinate. -/
  printFloat : Coord → Coord
  /-- `__derive_schedule_name` for the local id of the owner and the cloud id. -/
  deriveScheduleName : List Char → List Char → Option (List Char)
  /-- `bridge_internal_compute_nvs_key` for the local id of a bridge child. -/
  computeNvsKey : List Char → Option (List Char)
  everyday_ne_zero : everyday ≠ 0
  readInt_int : ∀ v : Int32, readInt v.toInt64 = some v
  readFloat_print : ∀ c : Coord, (readFloat (.float (printFloat c))).isSome = true

variable {Coord : Type}

/-- `json_obj_get_int64`: the integer literal under the key. -/
def getInt64 (obj : Object Coord) (k : Key) : Option Int64 :=
  match obj.lookup k with
  | some (.int v) => some v
  | _ => none

/-- `json_obj_get_int`: the integer literal under the key, as an `int`. -/
def getInt (P : Platform Coord) (obj : Object Coord) (k : Key) : Option Int32 :=
  (getInt64 obj k).bind P.readInt

/-- `json_obj_get_float`. -/
def getFloat (P : Platform Coord) (obj : Object Coord) (k : Key) : Option Coord :=
  (obj.lookup k).bind P.readFloat

/-- `json_gen_obj_set_int`: the setter takes an `int`. -/
def setInt (k : Key) (v : Int32) : Key × Value Coord := (k, .int v.toInt64)

/-- `json_gen_obj_set_float`. -/
def setFloat (P : Platform Coord) (k : Key) (c : Coord) : Key × Value Coord :=
  (k, .float (P.printFloat c))

/-! ### The live schedules -/

variable [Inhabited Coord]

/-- `esp_schedule_type_t`. -/
inductive TriggerType
  | invalid | daysOfWeek | date | relative | sunrise | sunset
  deriving DecidableEq, Repr

/-- The date arm of a trigger. -/
structure DateArm where
  day : UInt8 := 0
  repeatMonths : UInt16 := 0
  year : UInt16 := 0
  repeatEveryYear : Bool := false
  deriving DecidableEq, Repr

/-- `esp_schedule_trigger_t`. The defaults are those of the `memset` in the parser. -/
structure Trigger (Coord : Type) [Inhabited Coord] where
  type : TriggerType := .invalid
  hours : UInt8 := 0
  minutes : UInt8 := 0
  repeatDays : UInt8 := 0
  date : DateArm := {}
  relativeSeconds : Int32 := 0
  latitude : Coord := default
  longitude : Coord := default
  offsetMinutes : Int32 := 0
  nextScheduledTimeUtc : Int64 := 0
  deriving DecidableEq, Repr

/-- `esp_schedule_validity_t`. -/
structure Validity where
  startTime : Int64 := 0
  endTime : Int64 := 0
  deriving DecidableEq, Repr

/-- A live schedule: the configuration in the handle and the `__schedule_priv_data_t` that the
handle carries. -/
structure Schedule (Coord : Type) [Inhabited Coord] where
  name : List Char
  trigger : Trigger Coord
  validity : Validity
  action : List Char
  nodeKey : List Char
  cloudId : List Char
  oneShot : Bool
  nextFireTs : Int64 := 0
  deriving DecidableEq, Repr

/-- The owner of a set of schedules. `localId` is empty for the self node. -/
structure Owner where
  localId : List Char
  deriving DecidableEq, Repr

/-- What the build asks the clock and `esp_schedule` for. `enable` is the arming: the instant
that the timestamp callback reports, or `none` when the trigger has no future occurrence. -/
structure Clock (Coord : Type) [Inhabited Coord] where
  synced : Bool
  timeReady : Bool
  now : Int64
  enable : Trigger Coord → Validity → Option UInt32

/-! ### The parser -/

/-- The day-of-week arm: `d` sets the type and the day mask. -/
def parseDaysOfWeek (P : Platform Coord) (obj : Object Coord) (t : Trigger Coord) :
    Trigger Coord :=
  match getInt P obj .d with
  | some d => { t with type := .daysOfWeek, repeatDays := d.toUInt32.toUInt8 }
  | none => t

/-- The date arm that `dd`, `mm` and `yy` describe. Without `mm` every month counts. A year that
is not positive counts as absent. -/
def dateArm (P : Platform Coord) (day : Int32) (months year : Option Int32) : DateArm :=
  let repeatMonths := match months with
    | some mm => mm.toUInt32.toUInt16
    | none => P.monthAll
  let year := match year with
    | some yy => if 0 < yy then yy.toUInt32.toUInt16 else 0
    | none => 0
  { day := day.toUInt32.toUInt8
    repeatMonths := repeatMonths
    year := year
    repeatEveryYear := year == 0 && repeatMonths != 0 }

/-- The date arm: `dd` overrides the day-of-week arm. -/
def parseDate (P : Platform Coord) (obj : Object Coord) (t : Trigger Coord) : Trigger Coord :=
  match getInt P obj .dd with
  | some dd =>
    { t with
      type := .date
      repeatDays := 0
      date := dateArm P dd (getInt P obj .mm) (getInt P obj .yy) }
  | none => t

/-- The kind and the offset of a solar trigger: `sr`, else `ss`. -/
def parseSolarOffset (P : Platform Coord) (obj : Object Coord) (t : Trigger Coord) :
    Trigger Coord :=
  match getInt P obj .sr with
  | some offset => { t with type := .sunrise, offsetMinutes := offset }
  | none => match getInt P obj .ss with
    | some offset => { t with type := .sunset, offsetMinutes := offset }
    | none => t

/-- A solar trigger whose object carries no day arm at all fires every day. An explicit `d` of
`0` is left alone. -/
def defaultSolarDays (P : Platform Coord) (obj : Object Coord) (t : Trigger Coord) :
    Trigger Coord :=
  if (t.type = .sunrise ∨ t.type = .sunset) ∧ getInt P obj .d = none ∧
      getInt P obj .dd = none then
    { t with repeatDays := P.everyday }
  else t

/-- The solar arm: it needs both coordinates and one of the two offsets. -/
def parseSolar (P : Platform Coord) (obj : Object Coord) (t : Trigger Coord) : Trigger Coord :=
  match getFloat P obj .lat, getFloat P obj .lon with
  | some lat, some lon =>
    defaultSolarDays P obj (parseSolarOffset P obj { t with latitude := lat, longitude := lon })
  | _, _ => t

/-- The arms of a trigger object: the day arms, then the solar arm where it is compiled in. -/
def parseArms (P : Platform Coord) (obj : Object Coord) : Trigger Coord :=
  let t := parseDate P obj (parseDaysOfWeek P obj {})
  if P.daylight then parseSolar P obj t else t

/-- The time of day: `m` must be there and in range. -/
def parseMinutes (P : Platform Coord) (obj : Object Coord) (t : Trigger Coord) :
    Option (Trigger Coord) :=
  match getInt P obj .m with
  | some m =>
    if m < 0 ∨ 24 * 60 ≤ m then none
    else some { t with
                hours := (m / 60).toUInt32.toUInt8
                minutes := (m % 60).toUInt32.toUInt8 }
  | none => none

/-- The persisted `ts` as the parser reports it: `0` unless it is positive. -/
def reportedTs (persistedTs : Option Int64) : Int64 :=
  match persistedTs with
  | some ts => if 0 < ts then ts else 0
  | none => 0

/-- The trigger and the persisted `ts` of a trigger object, as `__parse_trigger` reads them. -/
def parseTriggerObject (P : Platform Coord) (obj : Object Coord) :
    Option (Trigger Coord × Int64) :=
  let outTs := reportedTs (getInt64 obj .ts)
  match getInt P obj .rsec with
  | some rsec =>
    some ({ type := .relative
            relativeSeconds := rsec
            nextScheduledTimeUtc := (getInt64 obj .ts).getD 0 }, outTs)
  | none =>
    let t := parseArms P obj
    match t.type with
    | .daysOfWeek | .date => (parseMinutes P obj t).map fun t => (t, outTs)
    | .invalid => none
    | _ => some (t, outTs)

/-- `__parse_trigger`: only the first entry of the array counts, and it must be an object. -/
def parseTrigger (P : Platform Coord) (triggers : Option (List (Option (Object Coord)))) :
    Option (Trigger Coord × Int64) :=
  (triggers.bind fun entries => entries.head?.join).bind (parseTriggerObject P)

/-- `__trigger_is_one_shot`. -/
def triggerIsOneShot (P : Platform Coord) (t : Trigger Coord) : Bool :=
  match t.type with
  | .relative => true
  | .daysOfWeek => t.repeatDays == P.dayOnce
  | .date => t.date.repeatMonths == 0
  | .sunrise | .sunset =>
    if P.daylight then
      if t.repeatDays != 0 then false else t.date.repeatMonths == 0
    else true
  | .invalid => true

/-- `__parse_validity`. -/
def parseValidity (validity : Option (Object Coord)) : Validity :=
  match validity with
  | some obj =>
    { startTime := (getInt64 obj .start).getD 0
      endTime := (getInt64 obj .stop).getD 0 }
  | none => {}

/-- `__parse_action`: an absent or empty action is an error. -/
def parseAction (action : Option (List Char)) : Option (List Char) :=
  action.bind fun data => if data = [] then none else some data

/-! ### Arming -/

/-- `__arm_or_defer`: `none` when the arm is deferred, else the schedule after
`esp_schedule_enable`. The timestamp callback sets `next_fire_ts` inside that call. -/
def armOrDefer (P : Platform Coord) (clock : Clock Coord) (s : Schedule Coord) :
    Option (Schedule Coord) :=
  if P.decoupledFlow && !clock.timeReady && !clock.synced then none
  else match clock.enable s.trigger s.validity with
    | some ts => some { s with nextFireTs := Int64.ofNat ts.toNat }
    | none => some { s with nextFireTs := 0 }

/-- `__schedule_is_spent`. -/
def scheduleIsSpent (clock : Clock Coord) (s : Schedule Coord) : Bool :=
  clock.synced && s.nextFireTs == 0

/-! ### Build -/

/-- A one-shot whose armed instant is behind a synced clock has come due. -/
def cameDue (clock : Clock Coord) (oneShot : Bool) (persistedTs : Int64) : Bool :=
  oneShot && persistedTs != 0 && clock.synced && decide (persistedTs ≤ clock.now)

/-- The schedule that one entry of the details array describes, before it is armed. -/
def readSchedule (P : Platform Coord) (clock : Clock Coord) (owner : Owner)
    (nodeKey : List Char) (obj : ScheduleObject Coord) : Option (Schedule Coord) := do
  guard (obj.enabled.getD true = true)
  let id ← obj.id
  guard (id ≠ [] ∧ id.length ≤ P.maxScheduleNameLen)
  let name ← P.deriveScheduleName owner.localId id
  let (trigger, persistedTs) ← parseTrigger P obj.triggers
  let oneShot := triggerIsOneShot P trigger
  guard (cameDue clock oneShot persistedTs = false)
  let action ← parseAction obj.action
  some { name, trigger, validity := parseValidity obj.validity, action, nodeKey, cloudId := id,
         oneShot }

/-- Arm a schedule before the node takes it: a schedule without a future occurrence is
dropped. -/
def armNew (P : Platform Coord) (clock : Clock Coord) (s : Schedule Coord) :
    Option (Schedule Coord) :=
  match armOrDefer P clock s with
  | some armed => if scheduleIsSpent clock armed then none else some armed
  | none => some s

/-- One round of the build loop: the schedule of one entry, or nothing when the entry is
skipped. -/
def buildSchedule (P : Platform Coord) (clock : Clock Coord) (owner : Owner)
    (nodeKey : List Char) (obj : ScheduleObject Coord) : Option (Schedule Coord) :=
  (readSchedule P clock owner nodeKey obj).bind (armNew P clock)

/-- The entries that the build loop visits: up to the first entry that is not an object, and at
most `MAX_SCHEDULES_PER_NODE`. -/
def visitedEntries (P : Platform Coord) (payload : List (Option (ScheduleObject Coord))) :
    List (ScheduleObject Coord) :=
  (payload.takeWhile Option.isSome).reduceOption.take P.maxSchedulesPerNode

/-- The loop of `__build_schedule_details_for_node_locked`: the new handle list. -/
def buildEntries (P : Platform Coord) (clock : Clock Coord) (owner : Owner)
    (nodeKey : List Char) (payload : List (Option (ScheduleObject Coord))) :
    List (Schedule Coord) :=
  (visitedEntries P payload).filterMap (buildSchedule P clock owner nodeKey)

/-- The owner routing token: empty for the self node, else the child's NVS key. -/
def ownerNodeKey (P : Platform Coord) (owner : Owner) : Option (List Char) :=
  if owner.localId = [] then some [] else P.computeNvsKey owner.localId

/-- `__build_schedule_details_for_node_locked`. The first component is the handle list that the
node has afterwards, the second says whether the call returned OK. A payload that does not parse
is `none`, and it still drops the old handles. -/
def buildScheduleDetails (P : Platform Coord) (clock : Clock Coord) (owner : Owner)
    (old : List (Schedule Coord)) (payload : Option (List (Option (ScheduleObject Coord)))) :
    List (Schedule Coord) × Bool :=
  match ownerNodeKey P owner with
  | none => (old, false)
  | some nodeKey => match payload with
    | none => ([], false)
    | some entries => (buildEntries P clock owner nodeKey entries, true)

/-! ### Serialization -/

/-- The date fields of an emitted trigger. A year of `0` is spelled by the absence of `yy`. -/
def emitDate (date : DateArm) : Object Coord :=
  [setInt .dd date.day.toUInt32.toInt32, setInt .mm date.repeatMonths.toUInt32.toInt32] ++
    (if date.year ≠ 0 then [setInt .yy date.year.toUInt32.toInt32] else [])

/-- `hours * 60 + minutes`, an `int`. -/
def minutesSinceMidnight (t : Trigger Coord) : Int32 :=
  t.hours.toUInt32.toInt32 * 60 + t.minutes.toUInt32.toInt32

/-- The fields that `__emit_schedule` writes for the trigger type. -/
def emitTriggerType (P : Platform Coord) (t : Trigger Coord) : Object Coord :=
  let solar (k : Key) : Object Coord :=
    if P.daylight then
      [setFloat P .lat t.latitude, setFloat P .lon t.longitude, setInt k t.offsetMinutes] ++
        (if t.repeatDays ≠ 0 then [setInt .d t.repeatDays.toUInt32.toInt32]
         else if t.date.day ≠ 0 then emitDate t.date
         else [])
    else []
  match t.type with
  | .relative => [setInt .rsec t.relativeSeconds]
  | .daysOfWeek =>
    [setInt .d t.repeatDays.toUInt32.toInt32, setInt .m (minutesSinceMidnight t)]
  | .date => emitDate t.date ++ [setInt .m (minutesSinceMidnight t)]
  | .sunrise => solar .sr
  | .sunset => solar .ss
  | .invalid => []

/-- The persisted `ts`: the armed instant of a one-shot, cast to `int`. -/
def emitTs (s : Schedule Coord) : Object Coord :=
  if s.oneShot && s.nextFireTs != 0 then [setInt .ts s.nextFireTs.toInt32] else []

/-- The validity window, both ends cast to `int`. -/
def emitValidity (v : Validity) : Option (Object Coord) :=
  if v.startTime ≠ 0 ∨ v.endTime ≠ 0 then
    some [setInt .start v.startTime.toInt32, setInt .stop v.endTime.toInt32]
  else none

/-- `__emit_schedule`. -/
def emitSchedule (P : Platform Coord) (s : Schedule Coord) : ScheduleObject Coord where
  enabled := some true
  id := some s.cloudId
  triggers := some [some (emitTriggerType P s.trigger ++ emitTs s)]
  validity := emitValidity s.validity
  action := if s.action = [] then none else some s.action

/-- `__serialize_node_schedules_locked`: a schedule without a cloud id is skipped. -/
def serializeNodeSchedules (P : Platform Coord) (handles : List (Schedule Coord)) :
    List (Option (ScheduleObject Coord)) :=
  (handles.filter fun s => s.cloudId ≠ []).map fun s => some (emitSchedule P s)

/-! ### A concrete platform -/

/-- A platform with whole degrees as coordinates. The integer getter refuses what an `int`
cannot hold. The name of a schedule is a fixed one. -/
def degreePlatform : Platform Int where
  daylight := true
  decoupledFlow := true
  maxSchedulesPerNode := 10
  maxScheduleNameLen := 16
  monthAll := 4095
  everyday := 127
  dayOnce := 0
  readInt v := if FitsInt v then some v.toInt32 else none
  readFloat v := match v with
    | .float c => some c
    | .int v => some v.toInt
    | .other => none
  printFloat c := c
  deriveScheduleName _ _ := some (List.replicate 14 '0')
  computeNvsKey _ := some (List.replicate 14 '1')
  everyday_ne_zero := by decide
  readInt_int v := by
    have hv : v.toInt64.toInt32 = v := by simp
    have hfits : FitsInt v.toInt64 := (toInt64_toInt32_iff _).mp (by rw [hv])
    rw [if_pos hfits, hv]
  readFloat_print _ := rfl

/-- A synced clock at which every trigger arms for `ts`. -/
def clockArming (now : Int64) (ts : UInt32) : Clock Int where
  synced := true
  timeReady := true
  now := now
  enable _ _ := some ts

/-- The self node. -/
def selfOwner : Owner where
  localId := []

/-- A schedule for every day at eight o'clock, without a validity window. -/
def daily : ScheduleObject Int where
  id := some ['d']
  triggers := some [some [(.d, .int 127), (.m, .int 480)]]
  action := some ['{', '}']

end RainMakerNeo.Schedules
