import RainMakerNeo.Lib.Run
import RainMakerNeo.Schedules.Details

/-!
# `RainMakerNeo.Schedules.Service`: the live handle lists and the work queue

Three activities touch the handle list of a node. The timer thread runs the trigger callback of
a live handle, and the callback queues a copy of the handle's data. The work queue runs the
queued fire and update tasks in order. The time-sync poll and the timezone handler walk the list
and re-arm each handle. An update, a reload and an unload replace the list.

Each critical section under the node lock is one action of `step`, so the runs of `step` are the
interleavings of the three activities. The timezone task and `arm_all` visit the nodes one by
one, and a visit is an action of its own that can happen at any time.

A handle has an instance number that no other handle ever had. The service does not know the
number: it finds a schedule by its cloud id. The state also records every removal together with
the instance that was meant. The numbers and the records are there for the statements only.
-/

set_option autoImplicit false

namespace RainMakerNeo.Schedules

variable {Coord : Type} [Inhabited Coord]

/-- The routing token of a node, empty for the self node. -/
abbrev NodeKey := List Char

/-- A live `esp_schedule` handle: the schedule and the instance number. -/
structure Handle (Coord : Type) [Inhabited Coord] where
  inst : Nat
  schedule : Schedule Coord
  deriving DecidableEq, Repr

/-- The copy of the private data that the trigger callback hands to the fire task. `inst` is the
instance that fired. -/
structure FireCopy where
  action : List Char
  nodeKey : NodeKey
  cloudId : List Char
  oneShot : Bool
  inst : Nat
  deriving DecidableEq, Repr

/-- A queued work item: `__schedule_fire_task` or `__update_details_work_queue_task`. -/
inductive Task (Coord : Type)
  | fire (copy : FireCopy)
  | update (owner : Owner) (data : Option (List (Option (ScheduleObject Coord))))
  deriving DecidableEq, Repr

/-- Why a handle was removed: the fire task ran for an instance, or the re-arm of an instance
found it spent. -/
inductive Cause
  | fired (inst : Nat)
  | spent (inst : Nat)
  deriving DecidableEq, Repr

/-- The instance that the removal was meant for. -/
def Cause.inst : Cause → Nat
  | .fired inst => inst
  | .spent inst => inst

/-- A removal from a handle list, with the handle that was removed. -/
structure Removal (Coord : Type) [Inhabited Coord] where
  removed : Handle Coord
  cause : Cause
  deriving DecidableEq, Repr

/-- The state of the service. `removals` is the history, newest first. -/
structure Service (Coord : Type) [Inhabited Coord] where
  handles : NodeKey → List (Handle Coord)
  registered : NodeKey → Bool
  queue : List (Task Coord)
  nextInst : Nat
  removals : List (Removal Coord)

/-- The service after the init: no schedules, no queued work, only the self node. -/
def Service.initial : Service Coord where
  handles _ := []
  registered key := key = []
  queue := []
  nextInst := 0
  removals := []

/-- What happens next, with what the environment answers. -/
inductive Action (Coord : Type) [Inhabited Coord]
  /-- The timer of a live handle fires. `queued` tells whether the work queue took the task. -/
  | trigger (key : NodeKey) (inst : Nat) (queued : Bool)
  /-- A repeating handle re-arms itself in its timer callback. -/
  | timestamp (key : NodeKey) (inst : Nat) (ts : UInt32)
  /-- The cloud sends schedule details for a node, and the work queue takes the task. -/
  | receive (owner : Owner) (data : Option (List (Option (ScheduleObject Coord))))
  /-- The worker runs the first task of the queue. `doWork` is `esp_rmaker_should_do_work`. -/
  | work (doWork : Bool) (clock : Clock Coord)
  /-- One visit of `__reschedule_node_visitor`. -/
  | visit (key : NodeKey) (clock : Clock Coord)
  /-- `__reload_for_node` with the stored details. -/
  | reload (owner : Owner) (data : Option (List (Option (ScheduleObject Coord))))
      (clock : Clock Coord)
  /-- `esp_rmaker_schedule_service_unload_node`. -/
  | unload (key : NodeKey)
  /-- The bridge registers or removes the child behind a node key. -/
  | register (key : NodeKey) (present : Bool)

/-! ### Critical sections -/

/-- Replace the handle list of a node. -/
def Service.setHandles (s : Service Coord) (key : NodeKey) (hs : List (Handle Coord)) :
    Service Coord :=
  { s with handles := fun k => if k = key then hs else s.handles k }

/-- Give each new schedule an instance number of its own. -/
def number (next : Nat) : List (Schedule Coord) → List (Handle Coord)
  | [] => []
  | schedule :: rest => { inst := next, schedule } :: number (next + 1) rest

/-- `__build_schedule_details_for_node_locked` on the list of the owner's node. -/
def Service.install (P : Platform Coord) (s : Service Coord) (owner : Owner)
    (data : Option (List (Option (ScheduleObject Coord)))) (clock : Clock Coord) :
    Service Coord :=
  match ownerNodeKey P owner with
  | none => s
  | some key =>
    let old := (s.handles key).map Handle.schedule
    let built := (buildScheduleDetails P clock owner old data).1
    { s.setHandles key (number s.nextInst built) with nextInst := s.nextInst + built.length }

/-- The handle that `__node_remove_by_cloud_id_locked` finds: the first one with the id. -/
def firstWithId (hs : List (Handle Coord)) (id : List Char) : Option (Handle Coord) :=
  if id = [] then none else hs.find? fun h => h.schedule.cloudId == id

/-- `__node_remove_by_cloud_id_locked`. -/
def removeByCloudId (hs : List (Handle Coord)) (id : List Char) : List (Handle Coord) :=
  if id = [] then hs else hs.eraseP fun h => h.schedule.cloudId == id

/-- The removal that looking up `id` causes, as a list of at most one record. -/
def removalOf (hs : List (Handle Coord)) (id : List Char) (cause : Cause) :
    List (Removal Coord) :=
  ((firstWithId hs id).map fun h => { removed := h, cause }).toList

/-- The removal section of `__schedule_fire_task`. -/
def Service.runFire (s : Service Coord) (copy : FireCopy) (doWork : Bool) : Service Coord :=
  if doWork && s.registered copy.nodeKey && copy.oneShot then
    let hs := s.handles copy.nodeKey
    { s.setHandles copy.nodeKey (removeByCloudId hs copy.cloudId) with
      removals := removalOf hs copy.cloudId (.fired copy.inst) ++ s.removals }
  else s

/-- The loop of `__reschedule_node_visitor`, downwards from index `i`. It returns the handle
list and the removals, newest first. -/
def rescheduleFrom (P : Platform Coord) (clock : Clock Coord) :
    Nat → List (Handle Coord) → List (Handle Coord) × List (Removal Coord)
  | 0, hs => (hs, [])
  | i + 1, hs =>
    match hs[i]? with
    | none => rescheduleFrom P clock i hs
    | some h => match armOrDefer P clock h.schedule with
      | none => rescheduleFrom P clock i hs
      | some armed =>
        let hs := hs.set i { h with schedule := armed }
        if scheduleIsSpent clock armed then
          let rest := rescheduleFrom P clock i (removeByCloudId hs armed.cloudId)
          (rest.1, rest.2 ++ removalOf hs armed.cloudId (.spent h.inst))
        else rescheduleFrom P clock i hs

/-- `__reschedule_node_visitor` on one node. -/
def Service.reschedule (P : Platform Coord) (s : Service Coord) (key : NodeKey)
    (clock : Clock Coord) : Service Coord :=
  let r := rescheduleFrom P clock (s.handles key).length (s.handles key)
  { s.setHandles key r.1 with removals := r.2 ++ s.removals }

/-- The live handle of a node with an instance number. -/
def Service.live (s : Service Coord) (key : NodeKey) (inst : Nat) : Option (Handle Coord) :=
  (s.handles key).find? fun h => h.inst == inst

/-- `__schedule_trigger_callback`: the copy that the fire task gets. -/
def Handle.fireCopy (h : Handle Coord) : FireCopy where
  action := h.schedule.action
  nodeKey := h.schedule.nodeKey
  cloudId := h.schedule.cloudId
  oneShot := h.schedule.oneShot
  inst := h.inst

/-- `__schedule_timestamp_callback`: the armed instant of one handle. -/
def Handle.timestamp (inst : Nat) (ts : UInt32) (h : Handle Coord) : Handle Coord :=
  if h.inst = inst then
    { h with schedule := { h.schedule with nextFireTs := Int64.ofNat ts.toNat } }
  else h

/-- One critical section of the service. A trigger or a timestamp needs a live handle, and the
worker needs a queued task. -/
def step (P : Platform Coord) (s : Service Coord) : Action Coord → Option (Service Coord)
  | .trigger key inst queued => (s.live key inst).map fun h =>
      if queued then { s with queue := s.queue ++ [.fire h.fireCopy] } else s
  | .timestamp key inst ts => (s.live key inst).map fun _ =>
      s.setHandles key ((s.handles key).map (Handle.timestamp inst ts))
  | .receive owner data => some { s with queue := s.queue ++ [.update owner data] }
  | .work doWork clock => match s.queue with
    | [] => none
    | .fire copy :: queue => some (({ s with queue := queue }).runFire copy doWork)
    | .update owner data :: queue => some (({ s with queue := queue }).install P owner data clock)
  | .visit key clock => some (s.reschedule P key clock)
  | .reload owner data clock => some (s.install P owner data clock)
  | .unload key => some (s.setHandles key [])
  | .register key present =>
      some { s with registered := fun k => if k = key then present else s.registered k }

end RainMakerNeo.Schedules
