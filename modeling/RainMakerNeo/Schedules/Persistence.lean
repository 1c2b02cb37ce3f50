import RainMakerNeo.Schedules.RoundTrip
import RainMakerNeo.Schedules.Service

/-!
# `RainMakerNeo.Schedules.Persistence`: the details of a node in RAM and in flash

`Service` follows the live handles of all nodes through one boot. This module follows one node
through any number of boots. The live handles and the work queue are lost at a reboot, the
details JSON in flash stays, and a replay builds the handles from it again.

The flash is written at three places. The update task writes what it installed. The fire task and
a re-arm write after they removed a schedule. A replay writes when the survivors differ from what
was stored. A write can be lost. `Event` says of each write whether it lands.

The clock of a node is synced or not, and `__time_ready` is a second flag that `arm_all` sets.
`now` is the real time of day, which a synced clock reads. The timer behind a handle belongs to
`esp_schedule`: it goes off once for each arm, not before the instant that the timestamp callback
reported.

Each schedule of each accepted payload gets a number of its own. A handle carries the number, and
so do the fire copies and the entries in flash that come from it. The numbers and the three
histories `oneShots`, `armed` and `ran` are there for the statements only.
-/

set_option autoImplicit false

namespace RainMakerNeo.Schedules.Persistence

variable {Coord : Type} [Inhabited Coord]

/-- `esp_schedule_enable` as the caller sees it: the instant that the timestamp callback
reports, if it runs. -/
abbrev Enable (Coord : Type) [Inhabited Coord] := Trigger Coord → Validity → Option UInt32

/-- One entry of the details JSON in flash. The text is the object, and `number` says which
acceptance it comes from. -/
structure Entry (Coord : Type) where
  number : Nat
  object : ScheduleObject Coord
  deriving DecidableEq, Repr

/-- One node. `wentOff` has the numbers of the handles whose timer went off and was not set
again. `oneShots` has the numbers that were accepted as one-shots, `armed` has the instants that
the numbers were armed for, and `ran` has the numbers whose action ran, newest first. -/
structure NodeState (Coord : Type) [Inhabited Coord] where
  live : List (Handle Coord) := []
  stored : Option (List (Entry Coord)) := none
  queue : List (Task Coord) := []
  wentOff : List Nat := []
  synced : Bool := false
  timeReady : Bool := false
  now : Int64 := 0
  next : Nat := 0
  oneShots : List Nat := []
  armed : List (Nat × Int64) := []
  ran : List Nat := []

namespace NodeState

/-- The clock that a build or a re-arm sees. -/
def clock (s : NodeState Coord) (enable : Enable Coord) : Clock Coord where
  synced := s.synced
  timeReady := s.timeReady
  now := s.now
  enable := enable

/-- Whether `__arm_or_defer` arms. -/
def armsNow (P : Platform Coord) (s : NodeState Coord) : Bool :=
  !(P.decoupledFlow && !s.timeReady && !s.synced)

/-- The entries in flash. -/
def entries (s : NodeState Coord) : List (Entry Coord) := s.stored.getD []

end NodeState

/-! ### The writes -/

/-- `__serialize_node_schedules_locked` with the numbers. -/
def serialize (P : Platform Coord) (live : List (Handle Coord)) : List (Entry Coord) :=
  (live.filter fun h => h.schedule.cloudId ≠ []).map fun h =>
    { number := h.inst, object := emitSchedule P h.schedule }

/-- `__reserialize_and_persist`. -/
def NodeState.persist (P : Platform Coord) (s : NodeState Coord) (written : Bool) :
    NodeState Coord :=
  if written then { s with stored := some (serialize P s.live) } else s

/-! ### The builds -/

/-- Number the entries of a payload. -/
def numberEntries (next : Nat) (objects : List (ScheduleObject Coord)) : List (Entry Coord) :=
  (objects.zipIdx next).map fun (object, number) => { number, object }

/-- The loop of `__build_schedule_details_for_node_locked` with the numbers. -/
def build (P : Platform Coord) (clock : Clock Coord) (owner : Owner) (nodeKey : NodeKey)
    (entries : List (Entry Coord)) : List (Handle Coord) :=
  entries.filterMap fun e => (buildSchedule P clock owner nodeKey e.object).map fun schedule =>
    { inst := e.number, schedule }

/-- The numbers of the one-shots among some handles. -/
def oneShotsOf (live : List (Handle Coord)) : List Nat :=
  (live.filter fun h => h.schedule.oneShot).map Handle.inst

/-- The instants that some handles are armed for. -/
def stamps (live : List (Handle Coord)) : List (Nat × Int64) :=
  (live.filter fun h => h.schedule.nextFireTs ≠ 0).map fun h => (h.inst, h.schedule.nextFireTs)

namespace NodeState

variable [DecidableEq Coord]

/-- `__update_details_work_queue_task`: install the payload of the cloud, then write. -/
def install (P : Platform Coord) (s : NodeState Coord) (owner : Owner)
    (data : Option (List (Option (ScheduleObject Coord)))) (enable : Enable Coord)
    (written : Bool) : NodeState Coord :=
  match ownerNodeKey P owner with
  | none => s
  | some nodeKey => match data with
    | none => { s with live := [], wentOff := [] }
    | some payload =>
      let accepted := visitedEntries P payload
      let live := build P (s.clock enable) owner nodeKey (numberEntries s.next accepted)
      persist P { s with
        live
        wentOff := []
        next := s.next + accepted.length
        oneShots := oneShotsOf live ++ s.oneShots
        armed := stamps live ++ s.armed } written

/-- `__reload_for_node`. The texts are compared first, so a replay that changes nothing does not
write. -/
def reload (P : Platform Coord) (s : NodeState Coord) (owner : Owner) (enable : Enable Coord)
    (written : Bool) : NodeState Coord :=
  match s.stored, ownerNodeKey P owner with
  | some stored, some nodeKey =>
    let live := build P (s.clock enable) owner nodeKey (stored.take P.maxSchedulesPerNode)
    let t := { s with live, wentOff := [], armed := stamps live ++ s.armed }
    if (serialize P live).map Entry.object = stored.map Entry.object then t
    else t.persist P written
  | _, _ => s

/-- `__reschedule_node_visitor`: re-arm each handle, and write if one was removed. -/
def visit (P : Platform Coord) (s : NodeState Coord) (enable : Enable Coord) (written : Bool) :
    NodeState Coord :=
  let r := rescheduleFrom P (s.clock enable) s.live.length s.live
  let t := { s with
    live := r.1
    wentOff := if s.armsNow P then [] else s.wentOff
    armed := stamps r.1 ++ s.armed }
  if r.2.isEmpty then t else t.persist P written

/-- `__schedule_fire_task`: run the action, and remove a one-shot. `resolved` tells whether the
node of the copy is still there. -/
def runFire (P : Platform Coord) (s : NodeState Coord) (copy : FireCopy)
    (doWork resolved written : Bool) : NodeState Coord :=
  if doWork && resolved then
    let t := { s with ran := copy.inst :: s.ran }
    if copy.oneShot && (firstWithId t.live copy.cloudId).isSome then
      persist P { t with live := removeByCloudId t.live copy.cloudId } written
    else t
  else s

/-- The timer behind a handle can go off: it is set, and its instant has come. -/
def due (s : NodeState Coord) (h : Handle Coord) : Bool :=
  h.schedule.nextFireTs != 0 && decide (h.schedule.nextFireTs ≤ s.now) &&
    !s.wentOff.contains h.inst

end NodeState

/-! ### The events -/

/-- What happens next to the node, with what the environment answers. `written` tells whether the
flash takes the write of the event, if there is one. -/
inductive Event (Coord : Type) [Inhabited Coord]
  /-- The cloud sends schedule details, and the work queue takes the task. -/
  | receive (data : Option (List (Option (ScheduleObject Coord))))
  /-- The worker runs the first task. `doWork` is `esp_rmaker_should_do_work`. -/
  | work (doWork resolved : Bool) (enable : Enable Coord) (written : Bool)
  /-- The clock gets synced. -/
  | sync
  /-- The time-sync poll sees the synced clock and calls `arm_all`. -/
  | armAll (enable : Enable Coord) (written : Bool)
  /-- The timezone handler re-arms. -/
  | timezone (enable : Enable Coord) (written : Bool)
  /-- The timer of a handle goes off. `queued` tells whether the work queue took the task. -/
  | trigger (inst : Nat) (queued : Bool)
  /-- A repeating handle re-arms itself in its timer callback. -/
  | timestamp (inst : Nat) (ts : UInt32)
  /-- Time passes. -/
  | tick (now : Int64)
  /-- The node replays its stored details. -/
  | reload (enable : Enable Coord) (written : Bool)
  /-- The service releases the handles of the node. -/
  | unload
  /-- The service stops without a reboot. -/
  | deinit
  /-- The device reboots. `synced` tells whether the clock survives. -/
  | reboot (synced : Bool)

/-- One event at the node of `owner`. An event that cannot happen in the state gives `none`. -/
def step [DecidableEq Coord] (P : Platform Coord) (owner : Owner) (s : NodeState Coord) :
    Event Coord → Option (NodeState Coord)
  | .receive data => some { s with queue := s.queue ++ [.update owner data] }
  | .work doWork resolved enable written => match s.queue with
    | [] => none
    | .fire copy :: queue => some (({ s with queue }).runFire P copy doWork resolved written)
    | .update owner data :: queue => some (({ s with queue }).install P owner data enable written)
  | .sync => some { s with synced := true }
  | .armAll enable written =>
    if P.decoupledFlow && s.synced then
      some (({ s with timeReady := true }).visit P enable written)
    else none
  | .timezone enable written => some (s.visit P enable written)
  | .trigger inst queued => (s.live.find? fun h => h.inst == inst).bind fun h =>
    if s.due h then
      some { s with
        wentOff := inst :: s.wentOff
        queue := if queued then s.queue ++ [.fire h.fireCopy] else s.queue }
    else none
  | .timestamp inst ts => (s.live.find? fun h => h.inst == inst).bind fun h =>
    if h.schedule.oneShot then none
    else some { s with
      live := s.live.map (Handle.timestamp inst ts)
      wentOff := s.wentOff.filter (· ≠ inst) }
  | .tick now => if s.now ≤ now then some { s with now } else none
  | .reload enable written => some (s.reload P owner enable written)
  | .unload => some { s with live := [], wentOff := [] }
  | .deinit => some { s with live := [], wentOff := [], timeReady := false }
  | .reboot synced =>
    some { s with live := [], queue := [], wentOff := [], synced, timeReady := false }

/-- The numbers whose fire is queued. -/
def queuedFires (queue : List (Task Coord)) : List Nat :=
  queue.filterMap fun task => match task with
    | .fire copy => some copy.inst
    | .update _ _ => none

/-- The numbers that fired: a copy is queued, or the action ran. -/
def NodeState.fired (s : NodeState Coord) : List Nat := queuedFires s.queue ++ s.ran

/-- The `ts` that a replay reads from an entry, `0` if it reads none. -/
def armedTs (P : Platform Coord) (object : ScheduleObject Coord) : Int64 :=
  ((parseTrigger P object.triggers).map Prod.snd).getD 0

/-! ### The faithful build and serializer -/

omit [Inhabited Coord] in
/-- The numbers of a payload are fresh, one each, and the objects are those of the payload. -/
theorem map_object_numberEntries (next : Nat) (objects : List (ScheduleObject Coord)) :
    (numberEntries next objects).map Entry.object = objects := by
  rw [numberEntries, List.map_map]
  exact List.zipIdx_map_fst next objects

end RainMakerNeo.Schedules.Persistence
