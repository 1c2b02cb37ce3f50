import Mathlib.Logic.Function.Basic
import RainMakerNeo.Lib.Run

/-!
# `RainMakerNeo.Node.ConfigDelivery`: the node configs on their way to the cloud

A node whose config changes is put on the pending list, and the drain is kicked. The drain publishes
the config of each pending node that is not in flight. The response of the cloud stores the checksum
of the published config, or it leaves the node on the list for the next drain. One retry timer
brings all the drains that nobody kicks.

The comments rely on the retry to fire again. The timer is stopped by each successful PUBACK though,
and a failed response arms none. A newer publish takes over the callback of an older one, so that
the response to the older one stores the checksum of the newer one. `delivered_of_tended` says when
each changed config is still on its way and each stored checksum is that of an accepted config.
`stranded_and_misattributed` has runs where this is not so.

The app changes configs, and the MQTT events come, at any time inside a drain or a callback, which
are both tasks of the work queue. A checksum stands for its config. The retry timer can always be
armed.
-/

set_option autoImplicit false

namespace RainMakerNeo.Node.Delivery

open RainMakerNeo.Lib

/-! ### The model -/

/-- What is kept for a node. -/
structure NodeState (η : Type*) where
  /-- The checksum of the config, `none` before the node is put on the list for the first time. -/
  config : Option η := none
  /-- The checksum in the storage. -/
  stored : Option η := none
  pending : Bool := false
  inflight : Bool := false
  deriving DecidableEq, Repr

/-- A publish with its `__report_node_config_priv_t`. -/
structure Publish (κ η : Type*) where
  id : Nat
  node : κ
  hash : η
  deriving DecidableEq, Repr

inductive Link
  | down
  /-- Connected, and `esp_rmaker_cloud_setup_work_fn` has not succeeded since. -/
  | up
  | ready
  deriving DecidableEq, Repr

/-- What the work queue is at. -/
inductive Worker (κ η : Type*)
  | idle
  /-- `node_config_pending_fire_all` before the next node of `to_fire`. -/
  | drain (toFire : List κ) (failed : Bool)
  /-- `esp_rmaker_internal_report_node_config_for_node` after the checksum was generated. -/
  | report (k : κ) (hash : η) (toFire : List κ) (failed : Bool)
  /-- `__report_node_config_cb` after the check for a stale acknowledgement. -/
  | clean (p : Publish κ η)
  deriving DecidableEq, Repr

/-- The nodes, the retry context, the inbox and the publishes without a response. The fields from
`nextId` on do not exist in the code. -/
structure State (κ η : Type*) where
  nodes : κ → NodeState η
  link : Link := .down
  /-- The timer of the retry context is armed. -/
  timer : Bool := false
  /-- The drain tasks in the work queue. -/
  queued : Nat := 0
  worker : Worker κ η := .idle
  /-- The callback context of the event `setNodeConfig`. -/
  inbox : κ → Option (Publish κ η) := fun _ => none
  unanswered : List (Publish κ η) := []
  nextId : Nat := 0
  /-- The publishes that were answered with success. -/
  accepted : List (Publish κ η) := []

/-- How the report of a node ends, where the config is not the stored one. -/
inductive Sent
  /-- The stored checksum cannot be read. -/
  | unread
  /-- Before the callback context is registered. -/
  | rejected
  /-- The message is not published. -/
  | failed
  | accepted
  deriving DecidableEq, Repr

/-- What happens next. `queues` says that the work queue has room for a drain task. -/
inductive Action (κ η : Type*)
  /-- `node_config_pending_init`. -/
  | seed (k : κ) (hash : η)
  /-- A config changes, the node is put on the list, and the drain is kicked. -/
  | change (k : κ) (hash : η) (queues : Bool)
  | timer (queues : Bool)
  /-- A drain task begins. -/
  | drain
  /-- The drain goes on to the next node, whose config can be built. -/
  | build (built : Bool)
  | send (sent : Sent)
  | puback (ok : Bool)
  /-- A response is handled up to the check. `built` says that the config can be built. -/
  | response (id : Nat) (success built : Bool)
  /-- The rest of the callback. `stores` says that the checksum is written to the storage. -/
  | settle (stores : Bool)
  | disconnect
  | connect
  /-- `esp_rmaker_cloud_setup_work_fn` succeeds. -/
  | setup (queues : Bool)
  deriving DecidableEq, Repr

variable {κ η : Type*}

/-- `node_config_pending_add`. -/
def NodeState.add (n : NodeState η) : NodeState η := { n with pending := true, inflight := false }

/-- `node_config_pending_remove`. -/
def NodeState.remove (n : NodeState η) : NodeState η := { n with pending := false, inflight := false }

/-- `node_config_pending_clear_inflight`. -/
def NodeState.clearInflight (n : NodeState η) : NodeState η := { n with inflight := false }

/-- The visitor of `node_config_pending_fire_all` collects the node. -/
def NodeState.fires (n : NodeState η) : Bool := n.pending && !n.inflight

variable [DecidableEq κ] [DecidableEq η]

namespace State

def setNode (s : State κ η) (k : κ) (n : NodeState η) : State κ η :=
  { s with nodes := Function.update s.nodes k n }

/-- `__retry_manager_scheduler_task`. -/
def schedule (s : State κ η) (queues : Bool) : State κ η :=
  if queues then { s with queued := s.queued + 1 } else { s with timer := true }

/-- `retry_manager_execute_context`. -/
def kick (s : State κ η) (queues : Bool) : State κ η := { s with timer := false }.schedule queues

/-- The part of `node_config_pending_fire_all` under the mutex. -/
def collect (fleet : List κ) (s : State κ η) : State κ η :=
  { s with
    nodes := fun k =>
      if k ∈ fleet ∧ (s.nodes k).fires then { s.nodes k with inflight := true } else s.nodes k
    worker := .drain (fleet.filter fun k => (s.nodes k).fires) false }

/-- The drain goes on to the next node, or it ends. A drain that has failed arms the timer. -/
def build (s : State κ η) (built : Bool) : Option (State κ η) :=
  match s.worker with
  | .drain [] failed => some { s with worker := .idle, timer := s.timer || failed }
  | .drain (k :: toFire) failed =>
    match built, (s.nodes k).config with
    | true, some hash => some { s with worker := .report k hash toFire failed }
    | _, _ =>
      some { s.setNode k (s.nodes k).clearInflight with worker := .drain toFire true }
  | _ => none

/-- The rest of `esp_rmaker_internal_report_node_config_for_node`. -/
def send (s : State κ η) (sent : Sent) : Option (State κ η) :=
  match s.worker with
  | .report k hash toFire failed =>
    if (s.nodes k).stored = some hash ∧ sent ≠ .unread then
      some { s.setNode k (s.nodes k).remove with worker := .drain toFire failed }
    else
      match sent with
      | .unread | .rejected =>
        some { s.setNode k (s.nodes k).clearInflight with worker := .drain toFire true }
      | .failed =>
        -- `__inbox_release`, also where the context of an older publish was taken over.
        some { s.setNode k (s.nodes k).clearInflight with
          worker := .drain toFire true, inbox := Function.update s.inbox k none }
      | .accepted =>
        let p : Publish κ η := ⟨s.nextId, k, hash⟩
        some { s with
          worker := .drain toFire failed
          inbox := Function.update s.inbox k (some p)
          unanswered := p :: s.unanswered
          nextId := s.nextId + 1 }
  | _ => none

/-- `__set_event_response_payload_handler` and `__report_node_config_cb` up to the check. The
response names the node, and the callback is the one of the last publish. -/
def respond (s : State κ η) (p : Publish κ η) (success built : Bool) : State κ η :=
  let s := { s with
    unanswered := s.unanswered.erase p
    accepted := if success then p :: s.accepted else s.accepted }
  match s.inbox p.node with
  | none => s
  | some c =>
    let s := { s with inbox := Function.update s.inbox p.node none }
    if ¬success ∨ (built ∧ (s.nodes p.node).config ≠ some c.hash) then
      s.setNode p.node (s.nodes p.node).clearInflight
    else { s with worker := .clean c }

/-- `__persist_and_mark_ncfg_ver` and the removal from the list. -/
def settle (s : State κ η) (stores : Bool) : Option (State κ η) :=
  match s.worker with
  | .clean c =>
    let n := s.nodes c.node
    let n := if stores then { n with stored := some c.hash } else n
    some { s.setNode c.node n.remove with worker := .idle }
  | _ => none

end State

/-- The next step. `fleet` is what `esp_rmaker_node_for_each` visits. -/
def step (fleet : List κ) (s : State κ η) : Action κ η → Option (State κ η)
  | .seed k hash =>
    if k ∈ fleet ∧ s.link = .down ∧ s.worker = .idle then
      some (s.setNode k { s.nodes k with config := some hash }.add)
    else none
  | .change k hash queues =>
    if k ∈ fleet then
      some ((s.setNode k { s.nodes k with config := some hash }.add).kick queues)
    else none
  | .timer queues =>
    if s.timer = true then some ({ s with timer := false }.schedule queues) else none
  | .drain =>
    if s.worker = .idle ∧ 0 < s.queued then
      some ({ s with queued := s.queued - 1 }.collect fleet)
    else none
  | .build built => s.build built
  | .send sent => s.send sent
  | .puback ok => some { s with timer := !ok }
  | .response id success built =>
    if s.worker = .idle then
      (s.unanswered.find? fun p => p.id = id).map fun p => s.respond p success built
    else none
  | .settle stores => s.settle stores
  | .disconnect =>
    some { s with link := .down, nodes := fun k => (s.nodes k).clearInflight }
  | .connect => if s.link = .down then some { s with link := .up } else none
  | .setup queues => if s.link = .down then none else some ({ s with link := .ready }.kick queues)

/-- No node is on the list yet. -/
def Initial (s : State κ η) : Prop :=
  s.link = .down ∧ s.worker = .idle ∧ s.unanswered = [] ∧ (∀ k, s.nodes k = {}) ∧
    ∀ k, s.inbox k = none

/-! ### The statement -/

/-- The config of the node is not the stored one. -/
def NodeState.Differs (n : NodeState η) : Prop := n.config ≠ none ∧ n.stored ≠ n.config

/-- A publish with the current config of the node has no response yet. -/
def State.Carried (s : State κ η) (k : κ) : Prop :=
  ∃ p ∈ s.unanswered, p.node = k ∧ (s.nodes k).config = some p.hash

/-- The drain timer is armed, or a drain task is queued. -/
def State.Coming (s : State κ η) : Prop := s.timer = true ∨ 0 < s.queued

/-- A node whose config is not stored is in flight with it, or it waits for a drain. -/
def Delivered (s : State κ η) : Prop :=
  ∀ k, (s.nodes k).Differs →
    ((s.nodes k).inflight = true ∧ s.Carried k) ∨
      ((s.nodes k).pending = true ∧ (s.nodes k).inflight = false ∧ s.Coming)

/-- A stored checksum is that of a config that was accepted in the response to its own publish. -/
def Accepted (s : State κ η) : Prop :=
  ∀ k hash, (s.nodes k).stored = some hash → ∃ p ∈ s.accepted, p.node = k ∧ p.hash = hash

/-- A drain has failed to publish a config, and will arm the timer. -/
def Worker.failed : Worker κ η → Bool
  | .drain _ failed | .report _ _ _ failed => failed
  | _ => false

/-- A response that reaches a callback. -/
def State.Answers (s : State κ η) (p c : Publish κ η) (success built : Bool) : Prop :=
  if success then
    -- A clean acknowledgement is for the publish of the callback, and the config is the current one.
    (built = false → (s.nodes p.node).config = some c.hash) ∧
      ((s.nodes p.node).config = some c.hash → c = p)
  else s.link = .ready → (s.nodes p.node).Differs → s.Coming

/-- The timer is stopped only when no node needs it, a failed response finds the timer armed or a
drain queued, a clean one finds its own callback, and no config changes between the check and the
removal of the node from the list. -/
def Tended (fleet : List κ) (s : State κ η) : Action κ η → Prop
  | .change k hash _ =>
    match s.worker with
    | .report j g _ _ => j = k → (s.nodes k).stored = some g → hash = g
    | .clean c => c.node = k → hash = c.hash
    | _ => True
  | .puback ok => ok = true → s.link = .ready → s.timer = true →
      0 < s.queued ∨ s.worker.failed = true ∨
        ∀ k ∈ fleet, (s.nodes k).Differs → (s.nodes k).inflight = true
  | .response id success built => ∀ p, s.unanswered.find? (fun p => p.id = id) = some p →
      ∀ c, s.inbox p.node = some c → s.Answers p c success built
  | .settle stores => ∀ c, s.worker = .clean c → stores = true ∨ ¬(s.nodes c.node).Differs
  | _ => True

/-! ### The invariant -/

/-- The drain or the callback that runs has the node and its config. -/
def Worker.Has (k : κ) (config : Option η) : Worker κ η → Prop
  | .idle => False
  | .drain toFire _ => k ∈ toFire
  | .report j hash toFire _ => (j = k ∧ config = some hash) ∨ k ∈ toFire
  | .clean p => p.node = k ∧ config = some p.hash

/-- A publish with the current config of the node has no response yet, and its callback waits. -/
def State.Held (s : State κ η) (k : κ) : Prop :=
  ∃ p ∈ s.unanswered, s.inbox k = some p ∧ (s.nodes k).config = some p.hash

/-- A drain is coming, or the one that runs will arm the timer. -/
def State.Soon (s : State κ η) : Prop := s.Coming ∨ s.worker.failed = true

/-- What the drain or the callback that runs has checked. -/
def State.Working (s : State κ η) : Prop :=
  match s.worker with
  | .idle | .drain _ _ => True
  | .report k hash _ _ =>
    ((s.nodes k).stored = some hash → (s.nodes k).config = some hash) ∧
      ((s.nodes k).inflight = true → (s.nodes k).config = some hash)
  | .clean p => (s.nodes p.node).config = some p.hash ∧ p ∈ s.accepted

/-- What each step keeps of a node. -/
structure NodeInv (fleet : List κ) (s : State κ η) (k : κ) : Prop where
  fleet : (s.nodes k).config ≠ none → k ∈ fleet
  accepted : ∀ hash, (s.nodes k).stored = some hash → ∃ p ∈ s.accepted, p.node = k ∧ p.hash = hash
  inbox : ∀ p, s.inbox k = some p → p.node = k
  pending : (s.nodes k).Differs → (s.nodes k).pending = true
  flying : (s.nodes k).Differs → (s.nodes k).inflight = true →
    s.Held k ∨ s.worker.Has k (s.nodes k).config
  waiting : s.link = .ready → (s.nodes k).Differs → (s.nodes k).inflight = false → s.Soon

/-- What each step keeps. -/
structure Inv (fleet : List κ) (s : State κ η) : Prop where
  nodes : ∀ k, NodeInv fleet s k
  working : s.Working

variable {fleet : List κ} {s t : State κ η} {k : κ}

section Frame

omit [DecidableEq κ] [DecidableEq η]

/-- A node that a step does not touch keeps what is said about it. -/
theorem NodeInv.frame (h : NodeInv fleet s k) (hnode : t.nodes k = s.nodes k)
    (hinbox : t.inbox k = s.inbox k)
    (hunanswered : ∀ p ∈ s.unanswered, s.inbox k = some p → p ∈ t.unanswered)
    (haccepted : ∀ p ∈ s.accepted, p ∈ t.accepted)
    (hhas : s.worker.Has k (s.nodes k).config → t.worker.Has k (s.nodes k).config)
    (hsoon : t.link = .ready → t.Soon ∨ (s.link = .ready ∧ (s.Soon → t.Soon))) :
    NodeInv fleet t k := by
  refine ⟨?_, ?_, ?_, ?_, ?_, ?_⟩
  · rw [hnode]
    exact h.fleet
  · rw [hnode]
    intro hash hstored
    obtain ⟨p, hp, hrest⟩ := h.accepted hash hstored
    exact ⟨p, haccepted p hp, hrest⟩
  · rw [hinbox]
    exact h.inbox
  · rw [hnode]
    exact h.pending
  · rw [hnode]
    intro hdiffers hinflight
    rcases h.flying hdiffers hinflight with ⟨p, hp, hin, hconfig⟩ | hwork
    · exact .inl ⟨p, hunanswered p hp hin, hinbox.trans hin, hnode ▸ hconfig⟩
    · exact .inr (hhas hwork)
  · rw [hnode]
    intro hready hdiffers hinflight
    rcases hsoon hready with hsoon | ⟨hlink, hsoon⟩
    · exact hsoon
    · exact hsoon (h.waiting hlink hdiffers hinflight)

/-- A node that is not in flight any more waits for a drain. -/
theorem NodeInv.cleared (h : NodeInv fleet s k) (hnode : t.nodes k = (s.nodes k).clearInflight)
    (hinbox : ∀ p, t.inbox k = some p → s.inbox k = some p)
    (haccepted : ∀ p ∈ s.accepted, p ∈ t.accepted)
    (hsoon : t.link = .ready → (s.nodes k).Differs → t.Soon) : NodeInv fleet t k := by
  refine ⟨?_, ?_, fun p hp => h.inbox p (hinbox p hp), ?_, ?_, ?_⟩
  · rw [hnode]
    exact h.fleet
  · rw [hnode]
    intro hash hstored
    obtain ⟨p, hp, hrest⟩ := h.accepted hash hstored
    exact ⟨p, haccepted p hp, hrest⟩
  · rw [hnode]
    exact h.pending
  · rw [hnode]
    exact fun _ hinflight => nomatch hinflight
  · rw [hnode]
    exact fun hready hdiffers _ => hsoon hready hdiffers

/-- A node whose config is stored can leave the list. -/
theorem NodeInv.settled (hfleet : (t.nodes k).config ≠ none → k ∈ fleet)
    (haccepted : ∀ hash, (t.nodes k).stored = some hash →
      ∃ p ∈ t.accepted, p.node = k ∧ p.hash = hash)
    (hinbox : ∀ p, t.inbox k = some p → p.node = k) (hsame : ¬(t.nodes k).Differs) :
    NodeInv fleet t k :=
  ⟨hfleet, haccepted, hinbox, fun hdiffers => absurd hdiffers hsame,
    fun hdiffers => absurd hdiffers hsame, fun _ hdiffers => absurd hdiffers hsame⟩

theorem schedule_coming (queues : Bool) : (s.schedule queues).Coming := by
  rw [State.schedule]
  split
  · exact .inr (Nat.succ_pos _)
  · exact .inl rfl

/-- A schedule changes the timer and the queue only. -/
theorem schedule_frame (queues : Bool) :
    (s.schedule queues).nodes = s.nodes ∧ (s.schedule queues).link = s.link ∧
      (s.schedule queues).worker = s.worker ∧ (s.schedule queues).inbox = s.inbox ∧
      (s.schedule queues).unanswered = s.unanswered ∧
      (s.schedule queues).accepted = s.accepted := by
  rw [State.schedule]
  split <;> exact ⟨rfl, rfl, rfl, rfl, rfl, rfl⟩

end Frame

/-! ### The steps -/

section Steps

omit [DecidableEq η] in
@[simp] theorem setNode_self (s : State κ η) (k : κ) (n : NodeState η) :
    (s.setNode k n).nodes k = n := Function.update_self _ _ _

omit [DecidableEq η] in
theorem setNode_of_ne {j : κ} (hj : j ≠ k) (s : State κ η) (n : NodeState η) :
    (s.setNode k n).nodes j = s.nodes j := Function.update_of_ne hj _ _

omit [DecidableEq η] in
/-- A node is put on the list with a new config. -/
theorem NodeInv.added (h : ∀ j, NodeInv fleet s j) (hk : k ∈ fleet) (hash : η)
    (hsoon : t.link = .ready → t.Soon)
    (ht : t.nodes = (s.setNode k { s.nodes k with config := some hash }.add).nodes ∧
      t.worker = s.worker ∧ t.inbox = s.inbox ∧ t.unanswered = s.unanswered ∧
      t.accepted = s.accepted) (j : κ) : NodeInv fleet t j := by
  obtain ⟨hnodes, hworker, hinbox, hunanswered, haccepted⟩ := ht
  by_cases hj : j = k
  · subst hj
    have hnode : t.nodes j = { s.nodes j with config := some hash }.add := by
      rw [hnodes, setNode_self]
    refine ⟨fun _ => hk, ?_, ?_, ?_, ?_, fun hready _ _ => hsoon hready⟩
    · rw [hnode, haccepted]
      exact (h j).accepted
    · rw [hinbox]
      exact (h j).inbox
    · rw [hnode]
      exact fun _ => rfl
    · rw [hnode]
      exact fun _ hinflight => nomatch hinflight
  · refine (h j).frame (by rw [hnodes, setNode_of_ne hj]) (by rw [hinbox]) ?_ ?_ ?_
      fun hready => .inl (hsoon hready)
    · rw [hunanswered]
      exact fun p hp _ => hp
    · rw [haccepted]
      exact fun p hp => hp
    · rw [hworker]
      exact id

omit [DecidableEq η] in
/-- What the worker has checked is not undone by a change that the guard admits. -/
theorem working_added {hash : η} (h : s.Working) (hg : match s.worker with
      | .report j g _ _ => j = k → (s.nodes k).stored = some g → hash = g
      | .clean c => c.node = k → hash = c.hash
      | _ => True)
    (ht : t.nodes = (s.setNode k { s.nodes k with config := some hash }.add).nodes ∧
      t.worker = s.worker ∧ t.accepted = s.accepted) : t.Working := by
  obtain ⟨hnodes, hworker, haccepted⟩ := ht
  rw [State.Working] at h ⊢
  rw [hworker, hnodes, haccepted]
  cases hwork : s.worker with
  | idle => trivial
  | drain toFire failed => trivial
  | report j g toFire failed =>
    rw [hwork] at h hg
    show (((s.setNode k _).nodes j).stored = some g → ((s.setNode k _).nodes j).config = some g) ∧
      (((s.setNode k _).nodes j).inflight = true → ((s.setNode k _).nodes j).config = some g)
    by_cases hj : j = k
    · subst hj
      rw [setNode_self]
      exact ⟨fun hstored => congrArg some (hg rfl hstored), fun hinflight => nomatch hinflight⟩
    · rw [setNode_of_ne hj]
      exact h
  | clean c =>
    rw [hwork] at h hg
    show ((s.setNode k _).nodes c.node).config = some c.hash ∧ c ∈ s.accepted
    by_cases hj : c.node = k
    · rw [hj, setNode_self]
      exact ⟨congrArg some (hg hj), h.2⟩
    · rw [setNode_of_ne hj]
      exact h

variable (h : Inv fleet s)
include h

omit [DecidableEq η] in
theorem Inv.seed (hk : k ∈ fleet) (hash : η) (hlink : s.link = .down) (hidle : s.worker = .idle) :
    Inv fleet (s.setNode k { s.nodes k with config := some hash }.add) := by
  refine ⟨NodeInv.added h.nodes hk hash ?_ ⟨rfl, rfl, rfl, rfl, rfl⟩,
    working_added h.working ?_ ⟨rfl, rfl, rfl⟩⟩
  · intro hready
    change s.link = .ready at hready
    rw [hlink] at hready
    cases hready
  · rw [hidle]
    trivial

omit [DecidableEq η] in
theorem Inv.change (hk : k ∈ fleet) {hash : η} (queues : Bool)
    (hg : Tended fleet s (.change k hash queues)) :
    Inv fleet ((s.setNode k { s.nodes k with config := some hash }.add).kick queues) := by
  obtain ⟨hnodes, -, hworker, hinbox, hunanswered, haccepted⟩ := schedule_frame
    (s := { s.setNode k { s.nodes k with config := some hash }.add with timer := false }) queues
  exact ⟨NodeInv.added h.nodes hk hash (fun _ => .inl (schedule_coming queues))
    ⟨hnodes, hworker, hinbox, hunanswered, haccepted⟩,
    working_added h.working hg ⟨hnodes, hworker, haccepted⟩⟩

omit [DecidableEq κ] [DecidableEq η] in
/-- The timer fires, or the drain is kicked. -/
theorem Inv.scheduled {timer : Bool} {link : Link} (queues : Bool) :
    Inv fleet ({ s with timer, link }.schedule queues) := by
  obtain ⟨hnodes, -, hworker, hinbox, hunanswered, haccepted⟩ :=
    schedule_frame (s := { s with timer, link }) queues
  refine ⟨fun k => ?_, ?_⟩
  · refine (h.nodes k).frame (by rw [hnodes]) (by rw [hinbox]) ?_ ?_ ?_
      fun _ => .inl (.inl (schedule_coming queues))
    · rw [hunanswered]
      exact fun p hp _ => hp
    · rw [haccepted]
      exact fun p hp => hp
    · rw [hworker]
      exact id
  · rw [State.Working, hworker, hnodes, haccepted]
    exact h.working

omit [DecidableEq η] in
/-- A drain collects each node that waits. -/
theorem Inv.collect (hidle : s.worker = .idle) (queued : Nat) :
    Inv fleet ({ s with queued }.collect fleet) := by
  refine ⟨fun k => ?_, trivial⟩
  have hk := h.nodes k
  by_cases hfires : k ∈ fleet ∧ (s.nodes k).fires = true
  · have hnode : ({ s with queued }.collect fleet).nodes k = { s.nodes k with inflight := true } :=
      if_pos hfires
    have hmem : k ∈ fleet.filter fun k => (s.nodes k).fires := List.mem_filter.mpr hfires
    refine ⟨?_, ?_, hk.inbox, ?_, fun _ _ => .inr hmem, ?_⟩
    · rw [hnode]
      exact hk.fleet
    · rw [hnode]
      exact hk.accepted
    · rw [hnode]
      exact hk.pending
    · rw [hnode]
      exact fun _ _ hinflight => nomatch hinflight
  · have hnode : ({ s with queued }.collect fleet).nodes k = s.nodes k := if_neg hfires
    refine ⟨?_, ?_, hk.inbox, ?_, ?_, ?_⟩
    · rw [hnode]
      exact hk.fleet
    · rw [hnode]
      exact hk.accepted
    · rw [hnode]
      exact hk.pending
    · rw [hnode]
      intro hdiffers hinflight
      rcases hk.flying hdiffers hinflight with ⟨p, hp, hin, hconfig⟩ | hwork
      · exact .inl ⟨p, hp, hin, hnode ▸ hconfig⟩
      · rw [hidle] at hwork
        exact absurd hwork id
    · rw [hnode]
      intro _ hdiffers hinflight
      -- A node that waits is on the list, so it was collected.
      refine absurd ⟨hk.fleet hdiffers.1, ?_⟩ hfires
      rw [NodeState.fires, hk.pending hdiffers, hinflight]
      rfl

omit [DecidableEq η] in
/-- The report of a node fails. The drain will arm the timer. -/
theorem Inv.unsent {toFire : List κ} (inbox : κ → Option (Publish κ η))
    (hinbox : ∀ j, j ≠ k → inbox j = s.inbox j)
    (hkept : ∀ p, inbox k = some p → s.inbox k = some p)
    (hhas : ∀ j, j ≠ k → s.worker.Has j (s.nodes j).config → j ∈ toFire) :
    Inv fleet { s.setNode k (s.nodes k).clearInflight with
      worker := .drain toFire true, inbox } := by
  refine ⟨fun j => ?_, trivial⟩
  by_cases hj : j = k
  · subst hj
    exact (h.nodes j).cleared (setNode_self _ _ _) hkept (fun p hp => hp) fun _ _ => .inr rfl
  · exact (h.nodes j).frame (setNode_of_ne hj _ _) (hinbox j hj) (fun p hp _ => hp)
      (fun p hp => hp) (hhas j hj) fun _ => .inl (.inr rfl)

omit [DecidableEq η] in
/-- The drain builds the config of the next node, or it ends. -/
theorem Inv.build {built : Bool} (ht : s.build built = some t) : Inv fleet t := by
  rw [State.build] at ht
  split at ht
  · next failed hwork =>
    obtain rfl := Option.some.inj ht
    refine ⟨fun k => (h.nodes k).frame rfl rfl (fun p hp _ => hp) (fun p hp => hp) ?_ ?_, trivial⟩
    · rw [hwork]
      exact fun hmem => nomatch hmem
    · intro hready
      refine .inr ⟨hready, fun hsoon => ?_⟩
      rcases hsoon with (htimer | hqueued) | hfailed
      · exact .inl (.inl (by rw [htimer]; rfl))
      · exact .inl (.inr hqueued)
      · rw [hwork] at hfailed
        change failed = true at hfailed
        exact .inl (.inl (by rw [hfailed, Bool.or_true]))
  · next k toFire failed hwork =>
    have hunsent : Inv fleet { s.setNode k (s.nodes k).clearInflight with
        worker := .drain toFire true } := by
      refine h.unsent s.inbox (fun _ _ => rfl) (fun _ hp => hp) fun j hj hhas => ?_
      rw [hwork] at hhas
      exact (List.mem_cons.mp hhas).resolve_left hj
    split at ht
    · next hash hconfig =>
      obtain rfl := Option.some.inj ht
      refine ⟨fun j => (h.nodes j).frame rfl rfl (fun p hp _ => hp) (fun p hp => hp) ?_ ?_,
        fun _ => hconfig, fun _ => hconfig⟩
      · rw [hwork]
        intro hmem
        rcases List.mem_cons.mp hmem with rfl | hmem
        · exact .inl ⟨rfl, hconfig⟩
        · exact .inr hmem
      · intro hready
        refine .inr ⟨hready, fun hsoon => hsoon.imp_right fun hfailed => ?_⟩
        rw [hwork] at hfailed
        exact hfailed
    · obtain rfl := Option.some.inj ht
      exact hunsent
  · cases ht

/-- The report of a node ends. -/
theorem Inv.send {sent : Sent} (ht : s.send sent = some t) : Inv fleet t := by
  rw [State.send] at ht
  split at ht
  · next k hash toFire failed hwork =>
    have hworking := h.working
    rw [State.Working, hwork] at hworking
    have hhas : ∀ j, j ≠ k → s.worker.Has j (s.nodes j).config → j ∈ toFire := by
      intro j hj hhas
      rw [hwork] at hhas
      exact hhas.resolve_left fun hjk => hj hjk.1.symm
    have hsoon : s.Soon → s.Coming ∨ failed = true := by
      intro hsoon
      rw [State.Soon, hwork] at hsoon
      exact hsoon
    split at ht
    · next hsame =>
      obtain rfl := Option.some.inj ht
      refine ⟨fun j => ?_, trivial⟩
      by_cases hj : j = k
      · subst hj
        refine .settled ?_ ?_ (h.nodes j).inbox ?_
        · show ((s.setNode j _).nodes j).config ≠ none → _
          rw [setNode_self]
          exact (h.nodes j).fleet
        · show ∀ g, ((s.setNode j _).nodes j).stored = some g → _
          rw [setNode_self]
          exact (h.nodes j).accepted
        · show ¬((s.setNode j _).nodes j).Differs
          rw [setNode_self]
          exact fun hdiffers => hdiffers.2 (hsame.1.trans (hworking.1 hsame.1).symm)
      · exact (h.nodes j).frame (setNode_of_ne hj _ _) rfl (fun p hp _ => hp) (fun p hp => hp)
          (hhas j hj) fun hready => .inr ⟨hready, hsoon⟩
    · have hunsent : Inv fleet { s.setNode k (s.nodes k).clearInflight with
          worker := .drain toFire true } := h.unsent s.inbox (fun _ _ => rfl) (fun _ hp => hp) hhas
      cases sent with
      | unread =>
        obtain rfl := Option.some.inj ht
        exact hunsent
      | rejected =>
        obtain rfl := Option.some.inj ht
        exact hunsent
      | failed =>
        obtain rfl := Option.some.inj ht
        refine h.unsent _ (fun j hj => Function.update_of_ne hj _ _) (fun p hp => ?_) hhas
        rw [Function.update_self] at hp
        cases hp
      | accepted =>
        obtain rfl := Option.some.inj ht
        refine ⟨fun j => ?_, trivial⟩
        by_cases hj : j = k
        · subst hj
          have hj := h.nodes j
          refine ⟨hj.fleet, hj.accepted, fun p hp => ?_, hj.pending, fun _ hinflight => ?_,
            fun hready hdiffers hinflight => hsoon (hj.waiting hready hdiffers hinflight)⟩
          · change Function.update s.inbox j _ j = some p at hp
            rw [Function.update_self] at hp
            obtain rfl := Option.some.inj hp
            rfl
          · exact .inl ⟨_, List.mem_cons_self .., Function.update_self _ _ _, hworking.2 hinflight⟩
        · exact (h.nodes j).frame rfl (Function.update_of_ne hj _ _)
            (fun p hp _ => List.mem_cons_of_mem _ hp) (fun p hp => hp) (hhas j hj)
            fun hready => .inr ⟨hready, hsoon⟩
  · cases ht

/-- A response is handled. -/
theorem Inv.respond {success built : Bool} {p : Publish κ η} (hidle : s.worker = .idle)
    (hg : ∀ c, s.inbox p.node = some c → s.Answers p c success built) :
    Inv fleet (s.respond p success built) := by
  have hmono : ∀ q ∈ s.accepted, q ∈ if success = true then p :: s.accepted else s.accepted := by
    intro q hq
    split
    · exact List.mem_cons_of_mem _ hq
    · exact hq
  -- The publish of another callback is not the one that is answered.
  have hother : ∀ q ∈ s.unanswered, q ≠ p → q ∈ s.unanswered.erase p := fun q hq hne =>
    (List.mem_erase_of_ne hne).mpr hq
  have hnone : ∀ {j c}, s.worker.Has j c → False := by
    intro j c hhas
    rw [hidle] at hhas
    exact hhas
  rw [State.respond]
  dsimp only
  split
  · next hinbox =>
    refine ⟨fun j => (h.nodes j).frame rfl rfl (fun q hq hin => hother q hq ?_) hmono id
      fun hready => .inr ⟨hready, id⟩, ?_⟩
    · rintro rfl
      obtain rfl := (h.nodes j).inbox q hin
      rw [hinbox] at hin
      cases hin
    · show State.Working _
      rw [State.Working, hidle]
      trivial
  · next c hinbox =>
    have hcnode := (h.nodes p.node).inbox c hinbox
    have hframe : ∀ {t : State κ η} {j}, j ≠ p.node → t.nodes j = s.nodes j →
        t.inbox = Function.update s.inbox p.node none → t.unanswered = s.unanswered.erase p →
        (∀ q ∈ s.accepted, q ∈ t.accepted) →
        (t.link = .ready → t.Soon ∨ (s.link = .ready ∧ (s.Soon → t.Soon))) →
        NodeInv fleet t j := by
      intro t j hj hnode hin hunanswered haccepted hsoon
      refine (h.nodes j).frame hnode ?_ (fun q hq hqin => ?_) haccepted
        (fun hhas => (hnone hhas).elim) hsoon
      · rw [hin, Function.update_of_ne hj]
      · rw [hunanswered]
        refine hother q hq ?_
        rintro rfl
        exact hj ((h.nodes j).inbox q hqin).symm
    split
    · next hstale =>
      have hsoon : s.link = .ready → (s.nodes p.node).Differs → s.Soon := by
        intro hready hdiffers
        rcases hstale with hfail | ⟨-, hchanged⟩
        · have hanswers := hg c hinbox
          rw [State.Answers, if_neg hfail] at hanswers
          exact .inl (hanswers hready hdiffers)
        · refine (h.nodes p.node).waiting hready hdiffers ?_
          rw [← Bool.not_eq_true]
          intro hinflight
          rcases (h.nodes p.node).flying hdiffers hinflight with ⟨q, -, hin, hconfig⟩ | hhas
          · obtain rfl := Option.some.inj (hinbox.symm.trans hin)
            exact hchanged hconfig
          · exact hnone hhas
      refine ⟨fun j => ?_, ?_⟩
      · by_cases hj : j = p.node
        · subst hj
          refine (h.nodes p.node).cleared (setNode_self _ _ _) (fun q hq => ?_) hmono hsoon
          change Function.update s.inbox p.node none p.node = some q at hq
          rw [Function.update_self] at hq
          cases hq
        · exact hframe hj (setNode_of_ne hj _ _) rfl rfl hmono fun hready => .inr ⟨hready, id⟩
      · show State.Working _
        rw [State.Working]
        show match s.worker with | _ => _
        rw [hidle]
        trivial
    · next hclean =>
      have hsuccess : success = true := by
        by_contra hfail
        exact hclean (.inl hfail)
      have hanswers := hg c hinbox
      rw [State.Answers, if_pos hsuccess] at hanswers
      have hconfig : (s.nodes p.node).config = some c.hash := by
        cases built with
        | false => exact hanswers.1 rfl
        | true =>
          by_contra hchanged
          exact hclean (.inr ⟨rfl, hchanged⟩)
      obtain rfl := hanswers.2 hconfig
      refine ⟨fun j => ?_, hconfig, ?_⟩
      · by_cases hj : j = c.node
        · subst hj
          have hk := h.nodes c.node
          refine ⟨hk.fleet, fun g hstored => ?_, fun q hq => ?_, hk.pending,
            fun _ _ => .inr ⟨rfl, hconfig⟩, fun hready hdiffers hinflight => ?_⟩
          · obtain ⟨q, hq, hrest⟩ := hk.accepted g hstored
            exact ⟨q, hmono q hq, hrest⟩
          · change Function.update s.inbox c.node none c.node = some q at hq
            rw [Function.update_self] at hq
            cases hq
          · have hsoon := hk.waiting hready hdiffers hinflight
            rw [State.Soon, hidle] at hsoon
            exact hsoon
        · refine hframe hj rfl rfl rfl hmono fun hready => .inr ⟨hready, fun hsoon => ?_⟩
          rw [State.Soon, hidle] at hsoon
          exact hsoon
      · rw [if_pos hsuccess]
        exact List.mem_cons_self ..

omit [DecidableEq η] in
/-- The checksum of an accepted config is stored, and the node leaves the list. -/
theorem Inv.settle {stores : Bool}
    (hg : ∀ c, s.worker = .clean c → stores = true ∨ ¬(s.nodes c.node).Differs)
    (ht : s.settle stores = some t) : Inv fleet t := by
  rw [State.settle] at ht
  split at ht
  · next c hwork =>
    obtain rfl := Option.some.inj ht
    have hworking := h.working
    rw [State.Working, hwork] at hworking
    obtain ⟨hconfig, haccepted⟩ := hworking
    refine ⟨fun j => ?_, trivial⟩
    by_cases hj : j = c.node
    · subst hj
      have hk := h.nodes c.node
      cases stores with
      | false =>
        refine .settled ?_ ?_ hk.inbox ?_
        · show ((s.setNode c.node _).nodes c.node).config ≠ none → _
          rw [setNode_self]
          exact hk.fleet
        · show ∀ g, ((s.setNode c.node _).nodes c.node).stored = some g → _
          rw [setNode_self]
          exact hk.accepted
        · show ¬((s.setNode c.node _).nodes c.node).Differs
          rw [setNode_self]
          exact (hg c hwork).resolve_left (by decide)
      | true =>
        refine .settled ?_ ?_ hk.inbox ?_
        · show ((s.setNode c.node _).nodes c.node).config ≠ none → _
          rw [setNode_self]
          exact hk.fleet
        · show ∀ g, ((s.setNode c.node _).nodes c.node).stored = some g → _
          rw [setNode_self]
          intro g hstored
          exact ⟨c, haccepted, rfl, Option.some.inj hstored⟩
        · show ¬((s.setNode c.node _).nodes c.node).Differs
          rw [setNode_self]
          exact fun hdiffers => hdiffers.2 hconfig.symm
    · refine (h.nodes j).frame (setNode_of_ne hj _ _) rfl (fun p hp _ => hp) (fun p hp => hp) ?_
        fun hready => .inr ⟨hready, fun hsoon => ?_⟩
      · rw [hwork]
        exact fun hhas => absurd hhas.1.symm hj
      · rw [State.Soon, hwork] at hsoon
        exact hsoon
  · cases ht

omit [DecidableEq κ] [DecidableEq η] in
/-- A PUBACK arms the timer or stops it. -/
theorem Inv.puback {ok : Bool} (hg : Tended fleet s (.puback ok)) :
    Inv fleet { s with timer := !ok } := by
  refine ⟨fun k => ?_, h.working⟩
  have hk := h.nodes k
  refine ⟨hk.fleet, hk.accepted, hk.inbox, hk.pending, hk.flying, ?_⟩
  intro hready hdiffers hinflight
  cases ok with
  | false => exact .inl (.inl rfl)
  | true =>
    rcases hk.waiting hready hdiffers hinflight with (htimer | hqueued) | hfailed
    · rcases hg rfl hready htimer with hqueued | hfailed | hflying
      · exact .inl (.inr hqueued)
      · exact .inr hfailed
      · rw [hflying k (hk.fleet hdiffers.1) hdiffers] at hinflight
        cases hinflight
    · exact .inl (.inr hqueued)
    · exact .inr hfailed

omit [DecidableEq κ] [DecidableEq η] in
/-- All marks of publishes in flight go. -/
theorem Inv.disconnect :
    Inv fleet { s with link := .down, nodes := fun k => (s.nodes k).clearInflight } := by
  refine ⟨fun k => (h.nodes k).cleared rfl (fun p hp => hp) (fun p hp => hp)
    (fun hready => nomatch hready), ?_⟩
  have hworking := h.working
  rw [State.Working] at hworking ⊢
  dsimp only
  cases hwork : s.worker with
  | idle => trivial
  | drain toFire failed => trivial
  | report k hash toFire failed =>
    rw [hwork] at hworking
    exact ⟨hworking.1, fun hinflight => nomatch hinflight⟩
  | clean p =>
    rw [hwork] at hworking
    exact hworking

/-- Each step keeps the invariant, where the retry is tended. -/
theorem Inv.step {a : Action κ η} (hg : Tended fleet s a) (ht : step fleet s a = some t) :
    Inv fleet t := by
  cases a with
  | seed k hash =>
    rw [Delivery.step] at ht
    split at ht
    · next hseed =>
      obtain rfl := Option.some.inj ht
      exact h.seed hseed.1 hash hseed.2.1 hseed.2.2
    · cases ht
  | change k hash queues =>
    rw [Delivery.step] at ht
    split at ht
    · next hk =>
      obtain rfl := Option.some.inj ht
      exact h.change hk queues hg
    · cases ht
  | timer queues =>
    rw [Delivery.step] at ht
    split at ht
    · obtain rfl := Option.some.inj ht
      exact h.scheduled queues
    · cases ht
  | drain =>
    rw [Delivery.step] at ht
    split at ht
    · next hdrain =>
      obtain rfl := Option.some.inj ht
      exact h.collect hdrain.1 _
    · cases ht
  | build built => exact h.build ht
  | send sent => exact h.send ht
  | puback ok =>
    obtain rfl := Option.some.inj ht
    exact h.puback hg
  | response id success built =>
    rw [Delivery.step] at ht
    split at ht
    · next hidle =>
      obtain ⟨p, hp, rfl⟩ := Option.map_eq_some_iff.mp ht
      exact h.respond hidle (hg p hp)
    · cases ht
  | settle stores => exact h.settle hg ht
  | disconnect =>
    obtain rfl := Option.some.inj ht
    exact h.disconnect
  | connect =>
    rw [Delivery.step] at ht
    split at ht
    · obtain rfl := Option.some.inj ht
      exact ⟨fun k => (h.nodes k).frame rfl rfl (fun p hp _ => hp) (fun p hp => hp) id
        (fun hready => nomatch hready), h.working⟩
    · cases ht
  | setup queues =>
    rw [Delivery.step] at ht
    split at ht
    · cases ht
    · obtain rfl := Option.some.inj ht
      exact h.scheduled queues

end Steps

/-! ### Every run -/

omit [DecidableEq κ] [DecidableEq η] in
theorem Inv.initial (h : Initial s) : Inv fleet s := by
  obtain ⟨-, hidle, -, hnodes, hinbox⟩ := h
  refine ⟨fun k => ?_, ?_⟩
  · refine .settled ?_ ?_ ?_ ?_
    · rw [hnodes k]
      exact fun hconfig => absurd rfl hconfig
    · rw [hnodes k]
      exact fun hash hstored => nomatch hstored
    · rw [hinbox k]
      exact fun p hp => nomatch hp
    · rw [hnodes k]
      exact fun hdiffers => hdiffers.1 rfl
  · rw [State.Working, hidle]
    trivial

omit [DecidableEq κ] [DecidableEq η] in
/-- Between the tasks of the work queue a node that differs is in flight or waits for a drain. -/
theorem Inv.delivered (h : Inv fleet s) (hready : s.link = .ready) (hidle : s.worker = .idle) :
    Delivered s := by
  intro k hdiffers
  have hk := h.nodes k
  cases hinflight : (s.nodes k).inflight with
  | true =>
    rcases hk.flying hdiffers hinflight with ⟨p, hp, hin, hconfig⟩ | hhas
    · exact .inl ⟨rfl, p, hp, hk.inbox p hin, hconfig⟩
    · rw [hidle] at hhas
      exact absurd hhas id
  | false =>
    have hsoon := hk.waiting hready hdiffers hinflight
    rw [State.Soon, hidle] at hsoon
    exact .inr ⟨hk.pending hdiffers, rfl, hsoon.resolve_right fun hfailed => nomatch hfailed⟩

/-- **The delivery of node configs.** While the retry is tended, each config that is not stored is
in flight or waits for a drain, when the connection is set up and no drain or callback is under way,
and each stored checksum is that of an accepted config. -/
theorem delivered_of_tended (h : Reach Initial (step fleet) (Tended fleet) s) :
    Accepted s ∧ (s.link = .ready → s.worker = .idle → Delivered s) := by
  have hinv : Inv fleet s := h.inv (Inv fleet) (fun _ h => Inv.initial h)
    fun _ _ _ hi hg ht => hi.step hg ht
  exact ⟨fun k => (hinv.nodes k).accepted, hinv.delivered⟩

/-! ### Runs -/

instance (n : NodeState η) : Decidable n.Differs := inferInstanceAs (Decidable (_ ∧ _))

instance (s : State κ η) : Decidable s.Coming := inferInstanceAs (Decidable (_ ∨ _))

instance (s : State κ η) (p c : Publish κ η) (success built : Bool) :
    Decidable (s.Answers p c success built) := by
  unfold State.Answers
  infer_instance

instance (fleet : List κ) (s : State κ η) : ∀ a, Decidable (Tended fleet s a)
  | .change k hash _ => by
    unfold Tended
    dsimp only
    split
    · infer_instance
    · infer_instance
    · exact instDecidableTrue
  | .puback ok => inferInstanceAs (Decidable (_ → _ → _ → _))
  | .response id success built =>
    match hp : s.unanswered.find? fun p => p.id = id with
    | none => isTrue fun p heq => by rw [hp] at heq; cases heq
    | some p =>
      match hc : s.inbox p.node with
      | none => isTrue fun q heq c hin => by
          obtain rfl := Option.some.inj (hp.symm.trans heq)
          rw [hc] at hin
          cases hin
      | some c => decidable_of_iff (s.Answers p c success built)
          ⟨fun h q heq d hin => by
            obtain rfl := Option.some.inj (hp.symm.trans heq)
            obtain rfl := Option.some.inj (hc.symm.trans hin)
            exact h,
          fun h => h p hp c hc⟩
  | .settle stores =>
    match h : s.worker with
    | .clean c => decidable_of_iff (stores = true ∨ ¬(s.nodes c.node).Differs)
        ⟨fun hc d hd => by
          obtain rfl := Worker.clean.inj (h.symm.trans hd)
          exact hc,
        fun hall => hall c h⟩
    | .idle | .drain _ _ | .report _ _ _ _ => isTrue fun c hc => by rw [h] at hc; cases hc
  | .seed _ _ | .timer _ | .drain | .build _ | .send _ | .disconnect | .connect | .setup _ =>
    instDecidableTrue

/-- No node is on the list. -/
def off : State Bool Nat := { nodes := fun _ => {} }

theorem off_initial : Initial off := ⟨rfl, rfl, rfl, fun _ => rfl, fun _ => rfl⟩

/-- The node itself is published and stored. A child is published, its PUBACK fails, and the timer
finds nothing to do. Its config changes then, and the newer one waits for a drain. -/
def tended : List (Action Bool Nat) :=
  [.seed true 1, .connect, .setup true, .drain, .build true, .send .accepted, .build true,
    .puback true, .response 0 true true, .settle true, .change false 5 true, .drain, .build true,
    .send .failed, .build true, .timer true, .drain, .build true, .send .accepted, .build true,
    .puback false, .timer true, .drain, .build true, .change false 6 true]

theorem tended_delivered :
    ∃ s : State Bool Nat, exec (step [true, false]) off tended = some s ∧
      (s.nodes true).stored = some 1 ∧ (s.nodes false).Differs ∧ s.queued = 1 ∧
      Accepted s ∧ Delivered s := by
  have hrun : Reach Initial (step [true, false]) (Tended [true, false]) _ :=
    Reach.exec tended (.start off_initial) (by decide +kernel) rfl
  obtain ⟨haccepted, hdelivered⟩ := delivered_of_tended hrun
  exact ⟨_, rfl, rfl, by decide +kernel, rfl, haccepted, hdelivered rfl rfl⟩

/-- The cloud refuses a config. -/
def refused : List (Action Bool Nat) :=
  [.seed true 1, .connect, .setup true, .drain, .build true, .send .accepted, .build true,
    .puback true, .response 0 false true]

/-- A config changes while the one before is in flight, and the response to that one comes. -/
def overtaken : List (Action Bool Nat) :=
  [.seed true 1, .connect, .setup true, .drain, .build true, .send .accepted, .build true,
    .change true 2 true, .drain, .build true, .send .accepted, .build true,
    .response 0 true true, .settle true]

/-- A refused config waits for a drain that nobody brings. The checksum of a config is stored for
the response to an older one. -/
theorem stranded_and_misattributed :
    (∃ s : State Bool Nat, Reach Initial (step [true]) (fun _ _ => True) s ∧ s.link = .ready ∧
      s.worker = .idle ∧ ¬Delivered s) ∧
    ∃ s : State Bool Nat, Reach Initial (step [true]) (fun _ _ => True) s ∧ ¬Accepted s := by
  refine ⟨⟨_, Reach.exec_true refused (.start off_initial) rfl, rfl, rfl, fun hdelivered => ?_⟩,
    ⟨_, Reach.exec_true overtaken (.start off_initial) rfl, fun haccepted => ?_⟩⟩
  · rcases hdelivered true (by decide +kernel) with ⟨hinflight, -⟩ | ⟨-, -, hcoming⟩
    · cases hinflight
    · revert hcoming
      decide +kernel
  · obtain ⟨p, hp, -, hhash⟩ := haccepted true 2 rfl
    obtain rfl := List.mem_singleton.mp hp
    cases hhash

end RainMakerNeo.Node.Delivery
