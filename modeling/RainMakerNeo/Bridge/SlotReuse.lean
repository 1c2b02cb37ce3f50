import RainMakerNeo.Bridge.ChildRegistry

/-!
# `RainMakerNeo.Bridge.SlotReuse`: what is queued for the children of a bridge

The timeseries queue, the work queue and the drain of the node configs hold pointers into the pool
of children: the ctx, the child or the node of a slot. A removed child leaves its slot to the next
one. The only guard of such a pointer is `valid`, which is the `in_use` flag of the slot, and that
is set again.

The comments rely on the guard to drop what is left of a removed child. It does until the slot is
reused. After that the topic is the one of the new child. `owned_of_cleared` says that each message
is for the child that it was produced for when nothing is left of the earlier children of a slot
that gets a new thing name. `reused_mixes` has a run where a point of one child is published for
another.

Children are numbered. What is queued comes with the number of its child, which does not exist in
the code. The reports of the shadows run with the pool locked, and so do the writes of the app to
the update list here. The tasks of the work queue run one after the other.
-/

set_option autoImplicit false

namespace RainMakerNeo.Bridge.Reuse

open RainMakerNeo.Lib
open RainMakerNeo.Bridge.Registry (Str ChildState childThingName)

/-! ### The model -/

/-- An entry of `node->state_update`. -/
structure Update where
  /-- The parameter is a time series. -/
  timeseries : Bool
  child : Nat
  deriving DecidableEq, Repr

/-- `struct __bridge_child_slot` with the child and the node. A free slot is zeroed. -/
structure Slot where
  inUse : Bool := false
  state : ChildState := .pendingAdd
  childSuffix : Str := []
  thingName : Option Str := none
  devicesCommitted : Bool := false
  updates : List Update := []
  pendingCfg : Bool := false
  inflight : Bool := false
  child : Nat := 0
  deriving DecidableEq, Repr

/-- A pointer into a slot, for a child. -/
structure Held where
  slot : Nat
  child : Nat
  deriving DecidableEq, Repr

/-- What the work queue is at. -/
inductive Worker
  | idle
  /-- `node_config_pending_fire_all` before the next node of `to_fire`. -/
  | drain (toFire : List Nat)
  /-- `esp_rmaker_internal_report_node_config_for_node` with the config. -/
  | report (config : Held) (toFire : List Nat)
  /-- `__report_node_config_cb` after the check for a stale acknowledgement. -/
  | callback (config : Held)
  deriving DecidableEq, Repr

/-- What is published on a topic of a child. -/
structure Message where
  topic : Str
  /-- The child in the slot when the topic was built. -/
  owner : Nat
  /-- The child for which it was produced. -/
  child : Nat
  deriving DecidableEq, Repr

/-- The pool and what points into it. The fields from `nextChild` on do not exist in the code. -/
structure State where
  slots : Nat → Slot := fun _ => {}
  /-- `__timeseries_queue`. -/
  points : List Held := []
  /-- The tasks `bridge_internal_child_on_connect_task` in the work queue. -/
  tasks : List Held := []
  worker : Worker := .idle
  /-- The callback contexts of `setNodeConfig`, by the ctx. -/
  inbox : Nat → Option Nat := fun _ => none
  nextChild : Nat := 0
  /-- The thing name that a child is added for. -/
  names : Nat → Option Str := fun _ => none
  published : List Message := []

/-- How `__timeseries_publish_task` ends, where the topic is built. -/
inductive PointResult
  /-- The point does not convert to JSON. -/
  | bad
  /-- There is no memory, or the message is not published. -/
  | failed
  | sent
  deriving DecidableEq, Repr

/-- What happens next. -/
inductive Action
  /-- `__alloc_child_locked`. -/
  | add (childSuffix : Str)
  /-- `bridge_to_cloud_publish_add_child` sets the thing name. -/
  | name (slot : Nat)
  /-- `bridge_handle_ack_success_add`. -/
  | promote (slot : Nat)
  /-- `esp_rmaker_bridge_remove_child` marks the child. -/
  | remove (slot : Nat)
  /-- `__free_child_locked`. -/
  | free (slot : Nat)
  /-- `esp_rmaker_bridge_child_commit_devices` up to the visitor. -/
  | commit (slot : Nat)
  /-- `__on_connect_visitor`. `queues` says that the work queue has room. -/
  | visit (slot : Nat) (queues : Bool)
  /-- A parameter or the online flag is put on the update list. -/
  | update (slot : Nat) (timeseries : Bool)
  /-- The visit of the state report. -/
  | report (slot : Nat) (sent : Bool)
  /-- `__timeseries_publish_task`. -/
  | publishPoint (result : PointResult)
  /-- `bridge_internal_child_on_connect_task`. -/
  | connectTask (sent : Bool)
  /-- The part of `node_config_pending_fire_all` under the mutex. -/
  | collect
  /-- The drain goes on to the next node. `built` says that there is a config to publish. -/
  | build (built : Bool)
  | send (sent : Bool)
  /-- A response to `setNodeConfig` reaches the slot. `clean` says that the check is passed. -/
  | response (slot : Nat) (clean : Bool)
  /-- `__persist_and_mark_ncfg_ver` and the removal from the list. -/
  | mark
  deriving DecidableEq, Repr

/-- `__format_with_ctx_thing` on the ctx of a slot. -/
def Slot.topic (x : Slot) : Option Str := if x.inUse then x.thingName else none

/-- The visitor of `node_config_pending_fire_all` collects the node. -/
def Slot.fires (x : Slot) : Bool := x.state = .ready && x.pendingCfg && !x.inflight

/-- The points of an update list, as far as the queue has room. -/
def pointsOf (room slot : Nat) (updates : List Update) : List Held :=
  ((updates.filter Update.timeseries).map fun u => ⟨slot, u.child⟩).take room

namespace State

def setSlot (s : State) (i : Nat) (x : Slot) : State :=
  { s with slots := Function.update s.slots i x }

/-- A message with what was produced for some children, on the topic of a slot. -/
def publish (s : State) (i : Nat) (topic : Str) (children : List Nat) : State :=
  { s with published := children.map (⟨topic, (s.slots i).child, ·⟩) ++ s.published }

/-- A slot with a new entry at the end of the update list. -/
def putUpdate (s : State) (i : Nat) (u : Update) : State :=
  s.setSlot i { s.slots i with updates := (s.slots i).updates ++ [u] }

/-- `__alloc_child_locked`. -/
def add (size : Nat) (selfName : Str) (s : State) (childSuffix : Str) : State :=
  match (List.range size).find? fun i => !(s.slots i).inUse with
  | some i =>
    { s.setSlot i { inUse := true, childSuffix, child := s.nextChild } with
      nextChild := s.nextChild + 1
      names := Function.update s.names s.nextChild (some (childThingName selfName childSuffix)) }
  | none => s

/-- `__on_connect_visitor` on a child with its devices. -/
def visit (s : State) (i : Nat) (queues : Bool) : State :=
  let s := s.putUpdate i ⟨false, (s.slots i).child⟩
  if queues then { s with tasks := s.tasks ++ [⟨i, (s.slots i).child⟩] } else s

/-- The visit of the state report on a node with updates. The points go to the queue also where the
shadow is not published. -/
def report (length : Nat) (s : State) (i : Nat) (sent : Bool) : State :=
  let updates := (s.slots i).updates
  let s := { s with points := s.points ++ pointsOf (length - s.points.length) i updates }
  match (s.slots i).topic, sent with
  | some topic, true =>
    (s.publish i topic (updates.map Update.child)).setSlot i { s.slots i with updates := [] }
  | _, _ => s

/-- `__timeseries_publish_task`. A point whose topic cannot be built is dropped. -/
def publishPoint (s : State) (result : PointResult) : Option State :=
  match s.points with
  | [] => none
  | p :: points =>
    match (s.slots p.slot).topic, result with
    | some topic, .sent => some ({ s with points }.publish p.slot topic [p.child])
    | some _, .failed => some s
    | some _, .bad | none, _ => some { s with points }

/-- `bridge_internal_child_on_connect_task`. -/
def connectTask (s : State) (sent : Bool) : Option State :=
  match s.tasks with
  | [] => none
  | p :: tasks =>
    match (s.slots p.slot).topic, sent with
    | some topic, true => some ({ s with tasks }.publish p.slot topic [p.child])
    | _, _ => some { s with tasks }

/-- The part of `node_config_pending_fire_all` under the mutex. -/
def collect (size : Nat) (s : State) : State :=
  { s with
    slots := fun i =>
      if i < size ∧ (s.slots i).fires then { s.slots i with inflight := true } else s.slots i
    worker := .drain ((List.range size).filter fun i => (s.slots i).fires) }

def clearInflight (s : State) (i : Nat) : State :=
  s.setSlot i { s.slots i with inflight := false }

/-- The drain builds the config of what the slot holds now. -/
def build (s : State) (built : Bool) : Option State :=
  match s.worker with
  | .drain [] => some { s with worker := .idle }
  | .drain (i :: toFire) =>
    if built ∧ (s.slots i).inUse then
      some { s with worker := .report ⟨i, (s.slots i).child⟩ toFire }
    else some { s.clearInflight i with worker := .drain toFire }
  | _ => none

/-- `esp_rmaker_cloud_manager_send` in the report of a node config. -/
def send (s : State) (sent : Bool) : Option State :=
  match s.worker with
  | .report p toFire =>
    match (s.slots p.slot).topic, sent with
    | some topic, true =>
      some { s.publish p.slot topic [p.child] with
        worker := .drain toFire, inbox := Function.update s.inbox p.slot (some p.child) }
    | some _, false =>
      some { s.clearInflight p.slot with
        worker := .drain toFire, inbox := Function.update s.inbox p.slot none }
    | none, _ => some { s.clearInflight p.slot with worker := .drain toFire }
  | _ => none

/-- `__set_event_response_payload_handler` and `__report_node_config_cb` up to the check. -/
def response (s : State) (i : Nat) (clean : Bool) : State :=
  match s.inbox i with
  | none => s
  | some c =>
    let s := { s with inbox := Function.update s.inbox i none }
    if clean then { s with worker := .callback ⟨i, c⟩ } else s.clearInflight i

/-- `__persist_and_mark_ncfg_ver` and the removal from the list. -/
def mark (s : State) : Option State :=
  match s.worker with
  | .callback p =>
    let s := s.putUpdate p.slot ⟨false, p.child⟩
    some { s.setSlot p.slot { s.slots p.slot with pendingCfg := false, inflight := false } with
      worker := .idle }
  | _ => none

end State

/-- The next step. The pool has `size` slots, and the timeseries queue has `length` places. -/
def step (size length : Nat) (selfName : Str) (s : State) : Action → Option State
  | .add childSuffix => some (s.add size selfName childSuffix)
  | .name i =>
    if (s.slots i).inUse ∧ (s.slots i).thingName = none then
      some (s.setSlot i
        { s.slots i with thingName := some (childThingName selfName (s.slots i).childSuffix) })
    else none
  | .promote i =>
    if (s.slots i).thingName ≠ none ∧ (s.slots i).state = .pendingAdd then
      some (s.setSlot i { s.slots i with state := .ready })
    else none
  | .remove i =>
    if (s.slots i).state = .ready then some (s.setSlot i { s.slots i with state := .pendingRemove })
    else none
  | .free i => if (s.slots i).inUse then some (s.setSlot i {}) else none
  | .commit i =>
    if (s.slots i).state = .ready then
      some (s.setSlot i
        { s.slots i with devicesCommitted := true, pendingCfg := true, inflight := false })
    else none
  | .visit i queues => if (s.slots i).devicesCommitted then some (s.visit i queues) else none
  | .update i timeseries =>
    if (s.slots i).inUse then some (s.putUpdate i ⟨timeseries, (s.slots i).child⟩) else none
  | .report i sent =>
    if (s.slots i).state = .ready ∧ (s.slots i).updates ≠ [] ∧ s.worker = .idle then
      some (s.report length i sent)
    else none
  | .publishPoint result => if s.worker = .idle then s.publishPoint result else none
  | .connectTask sent => if s.worker = .idle then s.connectTask sent else none
  | .collect => if s.worker = .idle then some (s.collect size) else none
  | .build built => s.build built
  | .send sent => s.send sent
  | .response i clean =>
    if (s.slots i).state = .ready ∧ s.worker = .idle then some (s.response i clean) else none
  | .mark => s.mark

/-- Before the first child. -/
def Initial (s : State) : Prop := s = {}

/-! ### The statement -/

/-- A message is on the topic of the child that it was produced for, and that child has the slot. -/
def Unmixed (s : State) : Prop :=
  ∀ m ∈ s.published, m.owner = m.child ∧ s.names m.child = some m.topic

/-- What the work queue has in hand. -/
def Worker.held : Worker → Option Held
  | .report p _ | .callback p => some p
  | .idle | .drain _ => none

/-- All that points to a slot is for the child that has it. -/
structure State.Own (s : State) (i : Nat) : Prop where
  points : ∀ p ∈ s.points, p.slot = i → p.child = (s.slots i).child
  tasks : ∀ p ∈ s.tasks, p.slot = i → p.child = (s.slots i).child
  worker : ∀ p, s.worker.held = some p → p.slot = i → p.child = (s.slots i).child
  updates : ∀ u ∈ (s.slots i).updates, u.child = (s.slots i).child

/-- A slot gets a thing name when nothing is left of its earlier children, and a response to a node
config finds the callback of the child in the slot. -/
def Cleared (s : State) : Action → Prop
  | .name i => s.Own i
  | .response i _ => ∀ c, s.inbox i = some c → c = (s.slots i).child
  | _ => True

/-! ### The invariant -/

/-- What each step keeps of a slot. -/
structure SlotInv (selfName : Str) (s : State) (i : Nat) : Prop where
  child : (s.slots i).inUse = true → (s.slots i).child < s.nextChild ∧
    s.names (s.slots i).child = some (childThingName selfName (s.slots i).childSuffix)
  idle : (s.slots i).inUse = false → s.slots i = { updates := (s.slots i).updates }
  own : ∀ n, (s.slots i).thingName = some n →
    n = childThingName selfName (s.slots i).childSuffix ∧ s.Own i

/-- What each step keeps. -/
structure Inv (selfName : Str) (s : State) : Prop where
  slots : ∀ i, SlotInv selfName s i
  published : ∀ m ∈ s.published, m.child < s.nextChild
  unmixed : Unmixed s

variable {selfName : Str} {s t : State} {i : Nat}

/-- What points to a slot is what did, or it is for the child of the slot. -/
theorem State.Own.of (h : s.Own i) (hchild : (t.slots i).child = (s.slots i).child)
    (hpoints : ∀ p ∈ t.points, p.slot = i → p ∈ s.points ∨ p.child = (s.slots i).child)
    (htasks : ∀ p ∈ t.tasks, p.slot = i → p ∈ s.tasks ∨ p.child = (s.slots i).child)
    (hworker : ∀ p, t.worker.held = some p → p.slot = i →
      s.worker.held = some p ∨ p.child = (s.slots i).child)
    (hupdates : ∀ u ∈ (t.slots i).updates,
      u ∈ (s.slots i).updates ∨ u.child = (s.slots i).child) : t.Own i where
  points := by
    intro p hp hslot
    rw [hchild]
    exact (hpoints p hp hslot).elim (fun hin => h.points p hin hslot) id
  tasks := by
    intro p hp hslot
    rw [hchild]
    exact (htasks p hp hslot).elim (fun hin => h.tasks p hin hslot) id
  worker := by
    intro p hp hslot
    rw [hchild]
    exact (hworker p hp hslot).elim (fun hin => h.worker p hin hslot) id
  updates := by
    intro u hu
    rw [hchild]
    exact (hupdates u hu).elim (h.updates u) id

/-- A slot keeps its child and its thing name. -/
theorem SlotInv.keep (h : SlotInv selfName s i) (huse : (t.slots i).inUse = (s.slots i).inUse)
    (hsuffix : (t.slots i).childSuffix = (s.slots i).childSuffix)
    (hname : (t.slots i).thingName = (s.slots i).thingName)
    (hchild : (t.slots i).child = (s.slots i).child)
    (hidle : (s.slots i).inUse = false → t.slots i = { updates := (t.slots i).updates })
    (hnext : s.nextChild ≤ t.nextChild) (hnames : ∀ c < s.nextChild, t.names c = s.names c)
    (hown : s.Own i → t.Own i) : SlotInv selfName t i where
  child := by
    rw [huse, hchild, hsuffix]
    intro hused
    obtain ⟨hlt, hnamed⟩ := h.child hused
    exact ⟨hlt.trans_le hnext, (hnames _ hlt).trans hnamed⟩
  idle := by
    rw [huse]
    exact hidle
  own := by
    rw [hname, hsuffix]
    intro n hn
    obtain ⟨heq, hs⟩ := h.own n hn
    exact ⟨heq, hown hs⟩

/-- The step does not touch the slot. -/
theorem SlotInv.frame (h : SlotInv selfName s i) (hslot : t.slots i = s.slots i)
    (hpoints : ∀ p ∈ t.points, p.slot = i → p ∈ s.points)
    (htasks : ∀ p ∈ t.tasks, p.slot = i → p ∈ s.tasks)
    (hworker : ∀ p, t.worker.held = some p → p.slot = i → s.worker.held = some p)
    (hnext : s.nextChild ≤ t.nextChild) (hnames : ∀ c < s.nextChild, t.names c = s.names c) :
    SlotInv selfName t i := by
  refine h.keep (by rw [hslot]) (by rw [hslot]) (by rw [hslot]) (by rw [hslot]) ?_ hnext hnames ?_
  · rw [hslot]
    exact h.idle
  · intro hown
    refine hown.of (by rw [hslot]) (fun p hp hs => .inl (hpoints p hp hs))
      (fun p hp hs => .inl (htasks p hp hs)) (fun p hp hs => .inl (hworker p hp hs)) ?_
    rw [hslot]
    exact fun u hu => .inl hu

@[simp] theorem setSlot_self (s : State) (i : Nat) (x : Slot) : (s.setSlot i x).slots i = x :=
  Function.update_self _ _ _

theorem setSlot_of_ne (s : State) {i j : Nat} (h : j ≠ i) (x : Slot) :
    (s.setSlot i x).slots j = s.slots j :=
  Function.update_of_ne h _ _

section
variable (h : Inv selfName s)
include h

/-- A message for the child in a slot, on its topic. -/
theorem Inv.topic {topic : Str} (htopic : (s.slots i).topic = some topic) :
    s.Own i ∧ (s.slots i).child < s.nextChild ∧ s.names (s.slots i).child = some topic := by
  rw [Slot.topic] at htopic
  split at htopic
  · next huse =>
    obtain ⟨heq, hown⟩ := (h.slots i).own topic htopic
    obtain ⟨hlt, hnamed⟩ := (h.slots i).child huse
    exact ⟨hown, hlt, heq ▸ hnamed⟩
  · cases htopic

/-- What is published for the child in the slot is on its topic. -/
theorem Inv.publish {topic : Str} (children : List Nat) (htopic : (s.slots i).topic = some topic)
    (hchildren : ∀ c ∈ children, c = (s.slots i).child) :
    Inv selfName (s.publish i topic children) := by
  obtain ⟨-, hlt, hnamed⟩ := h.topic htopic
  have hcases : ∀ m ∈ (s.publish i topic children).published,
      m = ⟨topic, (s.slots i).child, (s.slots i).child⟩ ∨ m ∈ s.published := by
    intro m hm
    rcases List.mem_append.mp hm with hm | hm
    · obtain ⟨c, hc, rfl⟩ := List.mem_map.mp hm
      rw [hchildren c hc]
      exact .inl rfl
    · exact .inr hm
  refine ⟨fun j => (h.slots j).frame rfl (fun _ hp _ => hp) (fun _ hp _ => hp) (fun _ hp _ => hp)
    (Nat.le_refl _) fun _ _ => rfl, fun m hm => ?_, fun m hm => ?_⟩
  · rcases hcases m hm with rfl | hm
    · exact hlt
    · exact h.published m hm
  · rcases hcases m hm with rfl | hm
    · exact ⟨rfl, hnamed⟩
    · exact h.unmixed m hm

/-- A step that publishes nothing changes one slot. -/
theorem Inv.of_slot (hpublished : t.published = s.published) (hnext : t.nextChild = s.nextChild)
    (hnames : t.names = s.names) (hslot : SlotInv selfName t i)
    (hothers : ∀ j, j ≠ i → SlotInv selfName s j → SlotInv selfName t j) : Inv selfName t := by
  refine ⟨fun j => ?_, fun m hm => ?_, fun m hm => ?_⟩
  · by_cases hj : j = i
    · rw [hj]
      exact hslot
    · exact hothers j hj (h.slots j)
  · rw [hpublished] at hm
    rw [hnext]
    exact h.published m hm
  · rw [hpublished] at hm
    rw [hnames]
    exact h.unmixed m hm

/-- A slot is written, and all else is the same. -/
theorem Inv.setSlot {x : Slot} (hx : SlotInv selfName (s.setSlot i x) i) :
    Inv selfName (s.setSlot i x) :=
  h.of_slot rfl rfl rfl hx fun _ hj hs => hs.frame (setSlot_of_ne s hj x) (fun _ hp _ => hp)
    (fun _ hp _ => hp) (fun _ hp _ => hp) (Nat.le_refl _) fun _ _ => rfl

/-- The flags of a slot in use are written. -/
theorem Inv.setFlags {x : Slot} (huse : x.inUse = (s.slots i).inUse)
    (hsuffix : x.childSuffix = (s.slots i).childSuffix)
    (hname : x.thingName = (s.slots i).thingName) (hchild : x.child = (s.slots i).child)
    (hidle : (s.slots i).inUse = false → x = { updates := x.updates })
    (hupdates : ∀ u ∈ x.updates, s.Own i → u.child = (s.slots i).child) :
    Inv selfName (s.setSlot i x) := by
  refine h.setSlot ((h.slots i).keep ?_ ?_ ?_ ?_ ?_ (Nat.le_refl _) (fun _ _ => rfl) ?_)
  · rw [setSlot_self, huse]
  · rw [setSlot_self, hsuffix]
  · rw [setSlot_self, hname]
  · rw [setSlot_self, hchild]
  · rw [setSlot_self]
    exact hidle
  · intro hown
    refine hown.of (by rw [setSlot_self, hchild]) (fun _ hp _ => .inl hp) (fun _ hp _ => .inl hp)
      (fun _ hp _ => .inl hp) ?_
    rw [setSlot_self]
    exact fun u hu => .inr (hupdates u hu hown)

/-- A slot that is not in its first state is in use. -/
theorem Inv.inUse (hstate : (s.slots i).state ≠ .pendingAdd) : (s.slots i).inUse = true := by
  by_contra hfree
  have heq := (h.slots i).idle (by simpa using hfree)
  rw [heq] at hstate
  exact hstate rfl

/-- What is new in the queues and in the hands of the work queue is for the child in its slot. -/
theorem Inv.of_held (hslots : t.slots = s.slots) (hpublished : t.published = s.published)
    (hnext : t.nextChild = s.nextChild) (hnames : t.names = s.names)
    (hpoints : ∀ p ∈ t.points, p ∈ s.points ∨ (s.Own p.slot → p.child = (s.slots p.slot).child))
    (htasks : ∀ p ∈ t.tasks, p ∈ s.tasks ∨ (s.Own p.slot → p.child = (s.slots p.slot).child))
    (hworker : ∀ p, t.worker.held = some p →
      s.worker.held = some p ∨ (s.Own p.slot → p.child = (s.slots p.slot).child)) :
    Inv selfName t := by
  refine ⟨fun j => ?_, ?_, ?_⟩
  · refine (h.slots j).keep (by rw [hslots]) (by rw [hslots]) (by rw [hslots]) (by rw [hslots]) ?_
      hnext.ge (fun _ _ => by rw [hnames]) fun hown => ?_
    · rw [hslots]
      exact (h.slots j).idle
    · refine hown.of (by rw [hslots]) (fun p hp hj => ?_) (fun p hp hj => ?_) (fun p hp hj => ?_) ?_
      · subst hj
        exact (hpoints p hp).imp_right fun hnew => hnew hown
      · subst hj
        exact (htasks p hp).imp_right fun hnew => hnew hown
      · subst hj
        exact (hworker p hp).imp_right fun hnew => hnew hown
      · rw [hslots]
        exact fun u hu => .inl hu
  · rw [hpublished, hnext]
    exact h.published
  · rw [Unmixed, hpublished, hnames]
    exact h.unmixed

/-! ### The steps -/

/-- A new child has a number of its own, and nothing points to it. -/
theorem Inv.add (size : Nat) (childSuffix : Str) :
    Inv selfName (s.add size selfName childSuffix) := by
  rw [State.add]
  split
  · next i hfind =>
    have hother : ∀ c < s.nextChild, Function.update s.names s.nextChild
        (some (childThingName selfName childSuffix)) c = s.names c :=
      fun c hc => Function.update_of_ne hc.ne _ _
    refine ⟨fun j => ?_, fun m hm => (h.published m hm).trans (Nat.lt_succ_self _), fun m hm => ?_⟩
    · by_cases hj : j = i
      · subst hj
        refine ⟨?_, ?_, ?_⟩
        · intro _
          show (Function.update s.slots j _ j).child < _ ∧ Function.update s.names _ _
            (Function.update s.slots j _ j).child = _
          rw [Function.update_self, Function.update_self]
          refine ⟨Nat.lt_succ_self _, ?_⟩
          show _ = some (childThingName selfName (Function.update s.slots j _ j).childSuffix)
          rw [Function.update_self]
        · show (Function.update s.slots j _ j).inUse = false → _
          rw [Function.update_self]
          intro hfree
          cases hfree
        · show ∀ n, (Function.update s.slots j _ j).thingName = some n → _
          rw [Function.update_self]
          intro n hn
          cases hn
      · exact (h.slots j).frame (setSlot_of_ne s hj _) (fun _ hp _ => hp) (fun _ hp _ => hp)
          (fun _ hp _ => hp) (Nat.le_succ _) hother
    · obtain ⟨heq, hname⟩ := h.unmixed m hm
      exact ⟨heq, (hother _ (h.published m hm)).trans hname⟩
  · exact h

/-- A slot gets the thing name of its child. -/
theorem Inv.name (huse : (s.slots i).inUse = true) (hown : s.Own i) :
    Inv selfName (s.setSlot i
      { s.slots i with
        thingName := some (childThingName selfName (s.slots i).childSuffix) }) := by
  refine h.setSlot ⟨?_, ?_, ?_⟩
  · rw [setSlot_self]
    exact fun _ => (h.slots i).child huse
  · rw [setSlot_self]
    intro hfree
    rw [huse] at hfree
    cases hfree
  · rw [setSlot_self]
    intro n hn
    refine ⟨(Option.some.inj hn).symm, ?_⟩
    refine hown.of (by rw [setSlot_self]) (fun _ hp _ => .inl hp) (fun _ hp _ => .inl hp)
      (fun _ hp _ => .inl hp) ?_
    rw [setSlot_self]
    exact fun u hu => .inl hu

theorem Inv.free : Inv selfName (s.setSlot i {}) := by
  refine h.setSlot ⟨?_, ?_, ?_⟩
  · rw [setSlot_self]
    intro huse
    cases huse
  · rw [setSlot_self]
    exact fun _ => rfl
  · rw [setSlot_self]
    intro n hn
    cases hn

/-- An update of the child in the slot. A slot without a thing name takes any. -/
theorem Inv.putUpdate {u : Update} (hu : s.Own i → u.child = (s.slots i).child) :
    Inv selfName (s.putUpdate i u) := by
  refine h.setFlags rfl rfl rfl rfl (fun hfree => ?_) fun v hv hown => ?_
  · rw [(h.slots i).idle hfree]
  · rcases List.mem_append.mp hv with hv | hv
    · exact hown.updates v hv
    · rw [List.mem_singleton.mp hv]
      exact hu hown

theorem Inv.clearInflight : Inv selfName (s.clearInflight i) := by
  refine h.setFlags rfl rfl rfl rfl (fun hfree => ?_) fun u hu hown => hown.updates u hu
  rw [(h.slots i).idle hfree]

theorem Inv.visit (queues : Bool) : Inv selfName (s.visit i queues) := by
  have hput : Inv selfName (s.putUpdate i ⟨false, (s.slots i).child⟩) := h.putUpdate fun _ => rfl
  rw [State.visit]
  split
  · refine hput.of_held rfl rfl rfl rfl (fun p hp => .inl hp) (fun p hp => ?_) fun p hp => .inl hp
    rcases List.mem_append.mp hp with hp | hp
    · exact .inl hp
    · rw [List.mem_singleton.mp hp]
      exact .inr fun _ => rfl
  · exact hput

end

theorem mem_pointsOf {room slot : Nat} {updates : List Update} {p : Held}
    (h : p ∈ pointsOf room slot updates) : ∃ u ∈ updates, p = ⟨slot, u.child⟩ := by
  obtain ⟨u, hu, rfl⟩ := List.mem_map.mp (List.mem_of_mem_take h)
  exact ⟨u, (List.mem_filter.mp hu).1, rfl⟩

section
variable (h : Inv selfName s)
include h

/-- The state report publishes the updates of a node and queues the points. -/
theorem Inv.report (length : Nat) (sent : Bool) : Inv selfName (s.report length i sent) := by
  have hpoints : Inv selfName { s with
      points := s.points ++ pointsOf (length - s.points.length) i (s.slots i).updates } := by
    refine h.of_held rfl rfl rfl rfl (fun p hp => ?_) (fun p hp => .inl hp) fun p hp => .inl hp
    rcases List.mem_append.mp hp with hp | hp
    · exact .inl hp
    · obtain ⟨u, hu, rfl⟩ := mem_pointsOf hp
      exact .inr fun hown => hown.updates u hu
  unfold State.report
  dsimp only
  split
  · next topic htopic =>
    have hown := (h.topic htopic).1
    have hpublish := hpoints.publish ((s.slots i).updates.map Update.child) htopic ?_
    · refine hpublish.setFlags rfl rfl rfl rfl (fun hfree => ?_) fun u hu => nomatch hu
      show ({ s.slots i with updates := [] } : Slot) = _
      rw [(h.slots i).idle hfree]
    · intro c hc
      obtain ⟨u, hu, rfl⟩ := List.mem_map.mp hc
      exact hown.updates u hu
  · exact hpoints

/-- What is published for a pointer that is for the child in its slot. -/
theorem Inv.publishOne {p : Held} {topic : Str} (htopic : (s.slots p.slot).topic = some topic)
    (hp : p.child = (s.slots p.slot).child) : Inv selfName (s.publish p.slot topic [p.child]) := by
  refine h.publish _ htopic ?_
  intro c hc
  rw [List.mem_singleton.mp hc]
  exact hp

/-- A point leaves the queue, and it is published for the child in its slot. -/
theorem Inv.publishPoint {result : PointResult} (ht : s.publishPoint result = some t) :
    Inv selfName t := by
  rw [State.publishPoint] at ht
  split at ht
  · cases ht
  · next p points hpoints =>
    have hin : ∀ q, q ∈ points → q ∈ s.points := fun q hq => hpoints ▸ List.mem_cons_of_mem p hq
    have hhead : p ∈ s.points := hpoints ▸ List.mem_cons_self
    have hrest : Inv selfName { s with points } :=
      h.of_held rfl rfl rfl rfl (fun q hq => .inl (hin q hq)) (fun q hq => .inl hq)
        fun q hq => .inl hq
    split at ht
    · next topic htopic =>
      obtain rfl := Option.some.inj ht
      exact hrest.publishOne htopic ((h.topic htopic).1.points p hhead rfl)
    · obtain rfl := Option.some.inj ht
      exact h
    · obtain rfl := Option.some.inj ht
      exact hrest
    · obtain rfl := Option.some.inj ht
      exact hrest

theorem Inv.connectTask {sent : Bool} (ht : s.connectTask sent = some t) : Inv selfName t := by
  rw [State.connectTask] at ht
  split at ht
  · cases ht
  · next p tasks htasks =>
    have hin : ∀ q, q ∈ tasks → q ∈ s.tasks := fun q hq => htasks ▸ List.mem_cons_of_mem p hq
    have hhead : p ∈ s.tasks := htasks ▸ List.mem_cons_self
    have hrest : Inv selfName { s with tasks } :=
      h.of_held rfl rfl rfl rfl (fun q hq => .inl hq) (fun q hq => .inl (hin q hq))
        fun q hq => .inl hq
    split at ht
    · next topic htopic =>
      obtain rfl := Option.some.inj ht
      exact hrest.publishOne htopic ((h.topic htopic).1.tasks p hhead rfl)
    · obtain rfl := Option.some.inj ht
      exact hrest

/-- A drain takes the nodes, and no config yet. -/
theorem Inv.collect (size : Nat) : Inv selfName (s.collect size) := by
  have hslot : ∀ j, (s.collect size).slots j = s.slots j ∨
      ((s.slots j).inUse = true ∧
        (s.collect size).slots j = { s.slots j with inflight := true }) := by
    intro j
    show (if j < size ∧ (s.slots j).fires then _ else _) = _ ∨ _ ∧ (if _ then _ else _) = _
    split
    · next hfires =>
      refine .inr ⟨h.inUse ?_, rfl⟩
      have hready := hfires.2
      rw [Slot.fires, Bool.and_eq_true, Bool.and_eq_true, decide_eq_true_eq] at hready
      rw [hready.1.1]
      decide
    · exact .inl rfl
  refine ⟨fun j => ?_, h.published, h.unmixed⟩
  rcases hslot j with heq | ⟨huse, heq⟩
  · exact (h.slots j).frame heq (fun _ hp _ => hp) (fun _ hp _ => hp) (fun _ hp _ => nomatch hp)
      (Nat.le_refl _) fun _ _ => rfl
  · refine (h.slots j).keep (by rw [heq]) (by rw [heq]) (by rw [heq]) (by rw [heq]) ?_
      (Nat.le_refl _) (fun _ _ => rfl) fun hown => ?_
    · rw [huse]
      exact fun hfree => nomatch hfree
    · refine hown.of (by rw [heq]) (fun _ hp _ => .inl hp) (fun _ hp _ => .inl hp)
        (fun _ hp _ => nomatch hp) ?_
      rw [heq]
      exact fun u hu => .inl hu

/-- A config is built for the child in the slot. -/
theorem Inv.build {built : Bool} (ht : s.build built = some t) : Inv selfName t := by
  rw [State.build] at ht
  split at ht
  · obtain rfl := Option.some.inj ht
    exact h.of_held rfl rfl rfl rfl (fun q hq => .inl hq) (fun q hq => .inl hq)
      fun q hq => nomatch hq
  · next i toFire hwork =>
    split at ht
    · obtain rfl := Option.some.inj ht
      refine h.of_held rfl rfl rfl rfl (fun q hq => .inl hq) (fun q hq => .inl hq) fun q hq => ?_
      obtain rfl := Option.some.inj hq
      exact .inr fun _ => rfl
    · obtain rfl := Option.some.inj ht
      exact (h.clearInflight (i := i)).of_held rfl rfl rfl rfl (fun q hq => .inl hq)
        (fun q hq => .inl hq) fun q hq => nomatch hq
  · cases ht

/-- The config is published for the child in the slot. -/
theorem Inv.send {sent : Bool} (ht : s.send sent = some t) : Inv selfName t := by
  rw [State.send] at ht
  split at ht
  · next p toFire hwork =>
    have hclear : ∀ inbox, Inv selfName
        { s.clearInflight p.slot with worker := .drain toFire, inbox := inbox } := fun inbox =>
      (h.clearInflight (i := p.slot)).of_held rfl rfl rfl rfl (fun q hq => .inl hq)
        (fun q hq => .inl hq) fun q hq => nomatch hq
    split at ht
    · next topic htopic =>
      obtain rfl := Option.some.inj ht
      have hheld : s.worker.held = some p := by rw [hwork]; rfl
      have hpublish : Inv selfName (s.publish p.slot topic [p.child]) :=
        h.publishOne htopic ((h.topic htopic).1.worker p hheld rfl)
      exact hpublish.of_held rfl rfl rfl rfl (fun q hq => .inl hq) (fun q hq => .inl hq)
        fun q hq => nomatch hq
    · obtain rfl := Option.some.inj ht
      exact hclear _
    · obtain rfl := Option.some.inj ht
      exact hclear _
  · cases ht

/-- A callback is called for the child in the slot. -/
theorem Inv.response {clean : Bool} (hg : ∀ c, s.inbox i = some c → c = (s.slots i).child) :
    Inv selfName (s.response i clean) := by
  rw [State.response]
  split
  · exact h
  · next c hinbox =>
    split
    · refine h.of_held rfl rfl rfl rfl (fun q hq => .inl hq) (fun q hq => .inl hq) fun q hq => ?_
      obtain rfl := Option.some.inj hq
      exact .inr fun _ => hg c hinbox
    · have htaken : Inv selfName { s with inbox := Function.update s.inbox i none } :=
        h.of_held rfl rfl rfl rfl (fun q hq => .inl hq) (fun q hq => .inl hq) fun q hq => .inl hq
      exact htaken.clearInflight

/-- The checksum of an accepted config goes to the update list of its child. -/
theorem Inv.mark (ht : s.mark = some t) : Inv selfName t := by
  rw [State.mark] at ht
  split at ht
  · next p hwork =>
    obtain rfl := Option.some.inj ht
    have hheld : s.worker.held = some p := by rw [hwork]; rfl
    have hput : Inv selfName (s.putUpdate p.slot ⟨false, p.child⟩) :=
      h.putUpdate fun hown => hown.worker p hheld rfl
    have hflags : Inv selfName ((s.putUpdate p.slot ⟨false, p.child⟩).setSlot p.slot
        { (s.putUpdate p.slot ⟨false, p.child⟩).slots p.slot with
          pendingCfg := false, inflight := false }) := by
      refine hput.setFlags rfl rfl rfl rfl (fun hfree => ?_) fun u hu hown => hown.updates u hu
      rw [(hput.slots p.slot).idle hfree]
    exact hflags.of_held rfl rfl rfl rfl (fun q hq => .inl hq) (fun q hq => .inl hq)
      fun q hq => nomatch hq
  · cases ht

/-- The flags of a slot that is not in its first state are written. -/
theorem Inv.setState {x : Slot} (hstate : (s.slots i).state ≠ .pendingAdd)
    (huse : x.inUse = (s.slots i).inUse) (hsuffix : x.childSuffix = (s.slots i).childSuffix)
    (hname : x.thingName = (s.slots i).thingName) (hchild : x.child = (s.slots i).child)
    (hupdates : x.updates = (s.slots i).updates) : Inv selfName (s.setSlot i x) := by
  refine h.setFlags huse hsuffix hname hchild (fun hfree => ?_) fun u hu hown => ?_
  · rw [h.inUse hstate] at hfree
    cases hfree
  · rw [hupdates] at hu
    exact hown.updates u hu

end

/-! ### The runs -/

theorem Inv.initial (h : Initial s) : Inv selfName s := by
  subst h
  refine ⟨fun i => ⟨?_, ?_, ?_⟩, ?_, ?_⟩
  · intro huse
    cases huse
  · intro _
    rfl
  · intro n hn
    cases hn
  · intro m hm
    cases hm
  · intro m hm
    cases hm

/-- A step that meets the condition keeps the invariant. -/
theorem Inv.step {size length : Nat} {a : Action} (h : Inv selfName s) (hg : Cleared s a)
    (ht : Reuse.step size length selfName s a = some t) : Inv selfName t := by
  cases a with
  | add childSuffix =>
    obtain rfl := Option.some.inj ht
    exact h.add size childSuffix
  | name i =>
    simp only [Reuse.step] at ht
    split at ht
    · next hnamed =>
      obtain rfl := Option.some.inj ht
      exact h.name hnamed.1 hg
    · cases ht
  | promote i =>
    simp only [Reuse.step] at ht
    split at ht
    · next hnamed =>
      obtain rfl := Option.some.inj ht
      refine h.setFlags rfl rfl rfl rfl (fun hfree => ?_) fun u hu hown => hown.updates u hu
      -- A free slot has no thing name, so it is not promoted.
      rw [(h.slots i).idle hfree] at hnamed
      exact absurd rfl hnamed.1
    · cases ht
  | remove i =>
    simp only [Reuse.step] at ht
    split at ht
    · next hready =>
      obtain rfl := Option.some.inj ht
      exact h.setState (by rw [hready]; decide) rfl rfl rfl rfl rfl
    · cases ht
  | free i =>
    simp only [Reuse.step] at ht
    split at ht
    · obtain rfl := Option.some.inj ht
      exact h.free
    · cases ht
  | commit i =>
    simp only [Reuse.step] at ht
    split at ht
    · next hready =>
      obtain rfl := Option.some.inj ht
      exact h.setState (by rw [hready]; decide) rfl rfl rfl rfl rfl
    · cases ht
  | visit i queues =>
    simp only [Reuse.step] at ht
    split at ht
    · obtain rfl := Option.some.inj ht
      exact h.visit queues
    · cases ht
  | update i timeseries =>
    simp only [Reuse.step] at ht
    split at ht
    · obtain rfl := Option.some.inj ht
      exact h.putUpdate fun _ => rfl
    · cases ht
  | report i sent =>
    simp only [Reuse.step] at ht
    split at ht
    · obtain rfl := Option.some.inj ht
      exact h.report length sent
    · cases ht
  | publishPoint result =>
    simp only [Reuse.step] at ht
    split at ht
    · exact h.publishPoint ht
    · cases ht
  | connectTask sent =>
    simp only [Reuse.step] at ht
    split at ht
    · exact h.connectTask ht
    · cases ht
  | collect =>
    simp only [Reuse.step] at ht
    split at ht
    · obtain rfl := Option.some.inj ht
      exact h.collect size
    · cases ht
  | build built => exact h.build ht
  | send sent => exact h.send ht
  | response i clean =>
    simp only [Reuse.step] at ht
    split at ht
    · obtain rfl := Option.some.inj ht
      exact h.response hg
    · cases ht
  | mark => exact h.mark ht

/-- A slot gets a thing name when nothing is left of its earlier children. Then each message on a
topic of a child is for that child. -/
theorem owned_of_cleared {size length : Nat}
    (h : Reach Initial (step size length selfName) Cleared s) : Unmixed s := by
  have hinv : Inv selfName s :=
    h.inv (Inv selfName) (fun _ hs => Inv.initial hs) fun _ _ _ hi hg ht => hi.step hg ht
  exact hinv.unmixed

local instance decidableForallHeld {α : Type*} (o : Option α) (P : α → Prop) [DecidablePred P] :
    Decidable (∀ x, o = some x → P x) :=
  inferInstanceAs (Decidable (∀ x ∈ o, P x))

instance (s : State) (i : Nat) : Decidable (s.Own i) :=
  decidable_of_iff
    ((∀ p ∈ s.points, p.slot = i → p.child = (s.slots i).child) ∧
      (∀ p ∈ s.tasks, p.slot = i → p.child = (s.slots i).child) ∧
      (∀ p, s.worker.held = some p → p.slot = i → p.child = (s.slots i).child) ∧
      ∀ u ∈ (s.slots i).updates, u.child = (s.slots i).child)
    ⟨fun ⟨hp, ht, hw, hu⟩ => ⟨hp, ht, hw, hu⟩, fun h => ⟨h.points, h.tasks, h.worker, h.updates⟩⟩

instance (s : State) : ∀ a, Decidable (Cleared s a)
  | .name i => inferInstanceAs (Decidable (s.Own i))
  | .response i _ => inferInstanceAs (Decidable (∀ c, s.inbox i = some c → c = (s.slots i).child))
  | .add _ | .promote _ | .remove _ | .free _ | .commit _ | .visit _ _ | .update _ _ | .report _ _
  | .publishPoint _ | .connectTask _ | .collect | .build _ | .send _ | .mark => instDecidableTrue

/-- A child with its devices. -/
def ready (childSuffix : Str) : List Action :=
  [.add childSuffix, .name 0, .promote 0, .commit 0]

/-- Two children have the slot, one after the other. The first one leaves nothing. -/
def drained : List Action :=
  ready ['x'] ++
    [.visit 0 true, .update 0 true, .report 0 true, .publishPoint .sent, .connectTask true,
      .collect, .build true, .send true, .build true, .response 0 true, .mark, .remove 0,
      .free 0] ++
    ready ['y'] ++ [.update 0 true, .report 0 true, .publishPoint .sent]

theorem drained_owned :
    ∃ s, exec (step 1 2 ['b']) {} drained = some s ∧ s.published.length = 7 ∧ Unmixed s := by
  have hrun : Reach Initial (step 1 2 ['b']) Cleared _ :=
    Reach.exec drained (.start rfl) (by decide +kernel) rfl
  exact ⟨_, rfl, rfl, owned_of_cleared hrun⟩

/-- The child leaves, and another one takes the slot before something is published. -/
def reused (before : List Action) (publish : Action) : List Action :=
  ready ['x'] ++ before ++ [.remove 0, .free 0, .add ['y'], .name 0, publish]

/-- A run ends with a message for another child than the one that has the slot. -/
theorem mixed_of_exec {size length : Nat} {as : List Action}
    (h : ((exec (step size length selfName) {} as).any fun s =>
      s.published.any fun m => m.owner ≠ m.child) = true) :
    ∃ s, exec (step size length selfName) {} as = some s ∧
      Reach Initial (step size length selfName) (fun _ _ => True) s ∧ ¬Unmixed s := by
  rw [Option.any_eq_true] at h
  obtain ⟨s, hs, hany⟩ := h
  obtain ⟨m, hm, hne⟩ := List.any_eq_true.mp hany
  refine ⟨s, hs, Reach.exec_true as (.start rfl) hs, ?_⟩
  intro hunmixed
  exact of_decide_eq_true hne (hunmixed m hm).1

/-- A point, an on-connect task and a node config of one child are published for another. -/
theorem reused_mixes :
    (∃ s, exec (step 1 2 ['b']) {}
        (reused [.update 0 true, .report 0 false] (.publishPoint .sent)) = some s ∧
      Reach Initial (step 1 2 ['b']) (fun _ _ => True) s ∧ ¬Unmixed s) ∧
    (∃ s, exec (step 1 2 ['b']) {} (reused [.visit 0 true] (.connectTask true)) = some s ∧
      Reach Initial (step 1 2 ['b']) (fun _ _ => True) s ∧ ¬Unmixed s) ∧
    ∃ s, exec (step 1 2 ['b']) {} (reused [.collect, .build true] (.send true)) = some s ∧
      Reach Initial (step 1 2 ['b']) (fun _ _ => True) s ∧ ¬Unmixed s := by
  refine ⟨mixed_of_exec ?_, mixed_of_exec ?_, mixed_of_exec ?_⟩
  · decide +kernel
  · decide +kernel
  · decide +kernel

end RainMakerNeo.Bridge.Reuse
