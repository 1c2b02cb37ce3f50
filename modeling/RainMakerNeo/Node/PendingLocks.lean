import RainMakerNeo.Lib.LockOrder

/-!
# `RainMakerNeo.Node.PendingLocks`: the bridge mutex and the pending mutex

The bridge has a mutex for its pool of children, and the list of pending node configs has one for
its flags. `node_config_pending.c` says that the second one is only ever taken inside the first one.

It is the other way round in `clearAllInflight` and `fireAll`, which walk the nodes with the pending
mutex taken (`Operation.walks`). A child is freed with the bridge mutex taken, and the reset of its
node removes it from the pending list (`Operation.frees`). Two threads can thus wait for each other
(`walk_and_free_crossed`).

No other operation takes one of the two mutexes inside the other one (`keeps_walks`, `keeps_frees`).
So it is enough that a walk and a free do not run into each other (`tasks_not_crossed`). Without the
walks the operations have the order that the comment names (`oneWay_not_crossed`).

Each function is the list of its operations on the two mutexes. The answers of the network, of the
allocator and of the pool are arguments. The mutexes exist from the start. No visitor of
`esp_rmaker_node_for_each` takes one of them.
-/

set_option autoImplicit false

namespace RainMakerNeo.Node.PendingLocks

open RainMakerNeo.Lib RainMakerNeo.Lib.Locks

/-! ### The model -/

inductive Mutex
  /-- `__children_mutex` of `esp_rmaker_bridge.c`. -/
  | bridge
  /-- `__mutex` of `node_config_pending.c`. -/
  | pending
  deriving DecidableEq, Repr

instance : Fintype Mutex := ⟨{.bridge, .pending}, fun m => by cases m <;> decide⟩

abbrev Code := Program Mutex

/-- `node_config_pending_add`. -/
def pendingAdd : Code := locked .pending []

/-- `node_config_pending_remove`. -/
def pendingRemove : Code := locked .pending []

/-- `node_config_pending_clear_inflight`. -/
def clearInflight : Code := locked .pending []

/-- `bridge_internal_for_each_ready_node` with so many children that are ready. -/
def forEachReadyNode (visitor : Code) (ready : Nat) : Code :=
  locked .bridge ((List.replicate ready visitor).flatMap id)

/-- `esp_rmaker_node_for_each`. The node itself comes first. -/
def nodeForEach (visitor : Code) (ready : Nat) : Code := visitor ++ forEachReadyNode visitor ready

/-- `node_config_pending_clear_all_inflight`. -/
def clearAllInflight (ready : Nat) : Code := locked .pending (nodeForEach [] ready)

/-- How `esp_rmaker_internal_report_node_config_for_node` ends. -/
inductive Report
  | unchanged
  | issued
  | failed
  deriving DecidableEq, Repr

/-- `esp_rmaker_internal_report_node_config_for_node`. -/
def reportNodeConfig : Report → Code
  | .unchanged => pendingRemove
  | .issued | .failed => []

/-- `node_config_pending_fire_all`: the nodes are collected, then reported outside the mutex. -/
def fireAll (ready : Nat) (reports : List Report) : Code :=
  locked .pending (nodeForEach [] ready) ++
    reports.flatMap fun r => reportNodeConfig r ++ if r = .failed then clearInflight else []

/-- `_esp_rmaker_node_reset`. -/
def nodeReset : Code := pendingRemove

/-- `__free_child_locked`. -/
def freeChild (inUse : Bool) : Code := if inUse then nodeReset else []

/-- `bridge_to_cloud_publish_add_child`: the strings are copied, and the thing name is set. -/
def publishAddChild (copied named : Bool) : Code :=
  locked .bridge [] ++ if copied && named then locked .bridge [] else []

/-- `esp_rmaker_bridge_add_child`. `fresh` says that a slot was allocated, and `inUse` that the slot
is still in use after a publish that has failed. -/
def addChild (fresh copied named sent inUse : Bool) : Code :=
  locked .bridge [] ++
    if fresh then
      publishAddChild copied named ++
        if copied && named && sent then [] else locked .bridge (freeChild inUse)
    else []

/-- `bridge_handle_ack_success_add`. -/
def ackSuccessAdd : Code := locked .bridge []

/-- `bridge_handle_ack_failure_add`. -/
def ackFailureAdd (isPending : Bool) : Code :=
  locked .bridge (if isPending then freeChild true else [])

/-- `bridge_handle_ack_success_remove_by_local_id`. -/
def ackSuccessRemove (found : Bool) : Code :=
  locked .bridge (if found then freeChild true else []) ++ if found then pendingRemove else []

/-- `esp_rmaker_bridge_remove_child` with `bridge_to_cloud_publish_remove_child`. -/
def removeChild (ready sent found : Bool) : Code :=
  locked .bridge [] ++
    if ready then locked .bridge [] ++ if sent then ackSuccessRemove found else [] else []

/-- `bridge_internal_deinit`, with the flag `in_use` of each slot. -/
def bridgeDeinit (inUse : List Bool) : Code := locked .bridge (inUse.flatMap freeChild)

/-- `esp_rmaker_bridge_child_commit_devices`. -/
def commitDevices (ready : Bool) : Code := locked .bridge [] ++ if ready then pendingAdd else []

/-- What a thread executes. -/
inductive Operation
  | pendingAdd
  | pendingRemove
  | clearInflight
  | clearAllInflight (ready : Nat)
  | fireAll (ready : Nat) (reports : List Report)
  | forEachReadyNode (ready : Nat)
  | addChild (fresh copied named sent inUse : Bool)
  | ackSuccessAdd
  | ackFailureAdd (isPending : Bool)
  | removeChild (ready sent found : Bool)
  | bridgeDeinit (inUse : List Bool)
  | commitDevices (ready : Bool)
  deriving DecidableEq, Repr

namespace Operation

def code : Operation → Code
  | .pendingAdd => PendingLocks.pendingAdd
  | .pendingRemove => PendingLocks.pendingRemove
  | .clearInflight => PendingLocks.clearInflight
  | .clearAllInflight ready => PendingLocks.clearAllInflight ready
  | .fireAll ready reports => PendingLocks.fireAll ready reports
  | .forEachReadyNode ready => PendingLocks.forEachReadyNode [] ready
  | .addChild fresh copied named sent inUse => PendingLocks.addChild fresh copied named sent inUse
  | .ackSuccessAdd => PendingLocks.ackSuccessAdd
  | .ackFailureAdd isPending => PendingLocks.ackFailureAdd isPending
  | .removeChild ready sent found => PendingLocks.removeChild ready sent found
  | .bridgeDeinit inUse => PendingLocks.bridgeDeinit inUse
  | .commitDevices ready => PendingLocks.commitDevices ready

/-- The operation walks the nodes with the pending mutex taken. -/
def walks : Operation → Bool
  | .clearAllInflight _ | .fireAll _ _ => true
  | _ => false

/-- The operation frees a child with the bridge mutex taken. -/
def frees : Operation → Bool
  | .addChild fresh copied named sent inUse => fresh && !(copied && named && sent) && inUse
  | .ackFailureAdd isPending => isPending
  | .removeChild ready sent found => ready && sent && found
  | .bridgeDeinit inUse => inUse.any id
  | _ => false

end Operation

variable {θ : Type*} [DecidableEq θ]

/-- Each thread is at the start of its operations, and no mutex is taken. -/
def Initial (s : Locks θ Operation Mutex) : Prop :=
  (∀ m, s.owner m = none) ∧ ∀ t, ∃ ops, s.rest t = agenda Operation.code ops

/-- The same, where no thread walks the nodes with the pending mutex taken. -/
def InitialWithoutWalks (s : Locks θ Operation Mutex) : Prop :=
  (∀ m, s.owner m = none) ∧ ∀ t, ∃ ops, s.rest t = agenda Operation.code ops ∧
    ∀ op ∈ ops, op.walks = false

/-! ### Which operations take one mutex inside the other one -/

section Keeps

variable {may inside : Bool} {outer inner : Mutex}

/-- A visitor that takes no mutex leaves the bridge mutex alone. -/
theorem forEachReadyNode_nil (ready : Nat) : forEachReadyNode [] ready = locked .bridge [] := by
  have hempty : (List.replicate ready ([] : Code)).flatMap id = [] := by
    rw [List.flatMap_eq_nil_iff]
    exact fun p hp => List.eq_of_mem_replicate hp
  rw [forEachReadyNode, hempty]

/-- One mutex and nothing inside it. -/
theorem keeps_locked_nil {m : Mutex} : Keeps may outer inner false (locked m []) := by
  by_cases hm : m = outer
  · rw [hm]
    exact .locked_outer .nil
  · exact .locked_outside hm .nil

/-- The bridge mutex, around code that keeps the order of the comment. -/
theorem keeps_bridge {body : Code} (h : Keeps may Mutex.pending .bridge false body) :
    Keeps may Mutex.pending .bridge false (locked .bridge body) :=
  .locked_outside (by decide) h

/-- A child is freed outside the pending mutex. -/
theorem keeps_freeChild (inUse : Bool) : Keeps may Mutex.pending .bridge false (freeChild inUse) :=
  .ite (fun _ => keeps_locked_nil) fun _ => .nil

/-- The walk itself, with the pending mutex taken. -/
theorem keeps_walk (ready : Nat) :
    Keeps true Mutex.pending .bridge false (locked .pending (nodeForEach [] ready)) := by
  rw [nodeForEach, forEachReadyNode_nil]
  exact .locked_outer (.append .nil (.locked_of_ne (by decide) (fun _ => .inl rfl) .nil))

/-- What follows a walk takes the pending mutex alone. -/
theorem keeps_report (r : Report) :
    Keeps may outer inner false
      (reportNodeConfig r ++ if r = .failed then clearInflight else []) := by
  refine .append ?_ (.ite (fun _ => keeps_locked_nil) fun _ => .nil)
  cases r with
  | unchanged => exact keeps_locked_nil
  | issued => exact .nil
  | failed => exact .nil

/-- **Only the walks take the bridge mutex inside the pending mutex.** -/
theorem keeps_walks (op : Operation) : Keeps op.walks Mutex.pending .bridge false op.code := by
  have hempty : Keeps false Mutex.pending .bridge false (locked .bridge []) := keeps_bridge .nil
  have hpending : Keeps false Mutex.pending .bridge false (locked .pending []) :=
    .locked_outer .nil
  cases op with
  | pendingAdd => exact hpending
  | pendingRemove => exact hpending
  | clearInflight => exact hpending
  | clearAllInflight ready => exact keeps_walk ready
  | fireAll ready reports =>
    exact (keeps_walk ready).append (.flatMap fun r _ => keeps_report r)
  | forEachReadyNode ready =>
    rw [Operation.code, forEachReadyNode_nil]
    exact hempty
  | addChild fresh copied named sent inUse =>
    refine hempty.append (.ite (fun _ => ?_) fun _ => .nil)
    refine (hempty.append (.ite (fun _ => hempty) fun _ => .nil)).append ?_
    exact .ite (fun _ => .nil) fun _ => keeps_bridge (keeps_freeChild inUse)
  | ackSuccessAdd => exact hempty
  | ackFailureAdd isPending =>
    exact keeps_bridge (.ite (fun _ => keeps_freeChild true) fun _ => .nil)
  | removeChild ready sent found =>
    have hremove : Keeps false Mutex.pending .bridge false (ackSuccessRemove found) :=
      (keeps_bridge (.ite (fun _ => keeps_freeChild true) fun _ => .nil)).append
        (.ite (fun _ => hpending) fun _ => .nil)
    refine hempty.append (.ite (fun _ => ?_) fun _ => .nil)
    exact hempty.append (.ite (fun _ => hremove) fun _ => .nil)
  | bridgeDeinit inUse => exact keeps_bridge (.flatMap fun b _ => keeps_freeChild b)
  | commitDevices ready => exact hempty.append (.ite (fun _ => hpending) fun _ => .nil)

/-- A slot that is not in use, or may be freed. -/
theorem keeps_free {inUse : Bool} (h : inUse = true → may = true) :
    Keeps may Mutex.bridge .pending true (freeChild inUse) :=
  .ite (fun hu => .locked_of_ne (by decide) (fun _ => .inl (h hu)) .nil) fun _ => .nil

/-- **Only a free takes the pending mutex inside the bridge mutex.** -/
theorem keeps_frees (op : Operation) : Keeps op.frees Mutex.bridge .pending false op.code := by
  have hempty : ∀ {may : Bool}, Keeps may Mutex.bridge .pending false (locked .bridge []) :=
    .locked_outer .nil
  have hpending : ∀ {may : Bool}, Keeps may Mutex.bridge .pending false (locked .pending []) :=
    keeps_locked_nil
  have hwalk : ∀ ready : Nat,
      Keeps false Mutex.bridge .pending false (locked .pending (nodeForEach [] ready)) := by
    intro ready
    rw [nodeForEach, forEachReadyNode_nil]
    exact .locked_outside (by decide) (.append .nil hempty)
  cases op with
  | pendingAdd => exact hpending
  | pendingRemove => exact hpending
  | clearInflight => exact hpending
  | clearAllInflight ready => exact hwalk ready
  | fireAll ready reports =>
    exact (hwalk ready).append (.flatMap fun r _ => keeps_report r)
  | forEachReadyNode ready =>
    rw [Operation.code, forEachReadyNode_nil]
    exact hempty
  | addChild fresh copied named sent inUse =>
    refine hempty.append (.ite (fun hfresh => ?_) fun _ => .nil)
    refine (hempty.append (.ite (fun _ => hempty) fun _ => .nil)).append ?_
    refine .ite (fun _ => .nil) fun hunsent => .locked_outer (keeps_free fun hinUse => ?_)
    rw [Operation.frees, hfresh, hinUse, Bool.eq_false_iff.mpr hunsent]
    rfl
  | ackSuccessAdd => exact hempty
  | ackFailureAdd isPending =>
    exact .locked_outer (.ite (fun h => keeps_free fun _ => h) fun _ => .nil)
  | removeChild ready sent found =>
    refine hempty.append (.ite (fun hready => ?_) fun _ => .nil)
    refine hempty.append (.ite (fun hsent => ?_) fun _ => .nil)
    refine .append (.locked_outer (.ite (fun hfound => keeps_free fun _ => ?_) fun _ => .nil))
      (.ite (fun _ => hpending) fun _ => .nil)
    rw [Operation.frees, hready, hsent, hfound]
    rfl
  | bridgeDeinit inUse =>
    refine .locked_outer (.flatMap fun b hb => keeps_free fun h => ?_)
    exact List.any_eq_true.mpr ⟨b, hb, h⟩
  | commitDevices ready => exact hempty.append (.ite (fun _ => hpending) fun _ => .nil)

end Keeps

variable {s : Locks θ Operation Mutex}

/-- At first the threads keep an order that the code of each operation keeps. -/
theorem Initial.oneWay (hs : Initial s) {kind : Operation → Bool} {outer inner : Mutex}
    (h : ∀ op, Keeps (kind op) outer inner false op.code) : s.OneWay kind outer inner := by
  refine oneWay_of_keeps Operation.code (hs.1 outer) fun t => ?_
  obtain ⟨ops, hrest⟩ := hs.2 t
  exact ⟨ops, hrest, fun op _ => h op⟩

/-! ### The order that the comment names -/

/-- Without the walks no two threads wait for each other, whatever they do. -/
theorem oneWay_not_crossed {guard : Locks θ Operation Mutex → θ → Prop}
    (h : Reach InitialWithoutWalks step guard s) : ¬s.Crossed .pending .bridge := by
  refine not_crossed_of_oneWay (fun s hs => ?_) h
  refine oneWay_of_keeps Operation.code (hs.1 .pending) fun t => ?_
  obtain ⟨ops, hrest, hops⟩ := hs.2 t
  refine ⟨ops, hrest, fun op hop => ?_⟩
  have hkeeps := keeps_walks op
  rwa [hops op hop] at hkeeps

/-! ### Walks and frees -/

/-- A walk does not take the pending mutex while another thread frees a child with the bridge mutex
taken, up to the reset of the node, and a free does not take the bridge mutex while another thread
has the pending mutex for a walk and has still to take the bridge mutex. -/
abbrev CarefulWalks : Locks θ Operation Mutex → θ → Prop :=
  Careful Operation.walks Operation.frees .pending .bridge

/-- **The lock order.** While no walk and no free run into each other, no thread holds the bridge
mutex and waits for the pending mutex while another holds the pending mutex and waits for the bridge
mutex. -/
theorem tasks_not_crossed (h : Reach Initial step CarefulWalks s) :
    ¬s.Crossed .bridge .pending := by
  have hnot := not_crossed (fun _ hs => hs.1 .pending) (fun _ hs => hs.oneWay keeps_walks)
    (fun _ hs => hs.oneWay keeps_frees) h
  intro ⟨t, t', hne, hbridge, hpending⟩
  exact hnot ⟨t', t, hne.symm, hpending, hbridge⟩

/-- Two threads, each with one operation. -/
def two (a b : Operation) : Locks Bool Operation Mutex :=
  { rest := fun t => agenda Operation.code [if t then b else a], owner := fun _ => none }

theorem two_initial (a b : Operation) : Initial (two a b) :=
  ⟨fun _ => rfl, fun _ => ⟨_, rfl⟩⟩

/-- The other thread takes the bridge mutex once the walk has had it, and waits for the pending
mutex until the walk is over. -/
def walkThenFree : List Bool :=
  [false, false, false, true, false, true, true, true]

theorem walkThenFree_not_crossed :
    ∃ s, exec step (two (.clearAllInflight 1) (.ackFailureAdd true)) walkThenFree = some s ∧
      s.owner .bridge = none ∧ s.owner .pending = none ∧ ¬s.Crossed .bridge .pending := by
  have hrun : Reach Initial step CarefulWalks _ :=
    Reach.exec walkThenFree (.start (two_initial (.clearAllInflight 1) (.ackFailureAdd true)))
      (by decide +kernel) rfl
  exact ⟨_, rfl, rfl, rfl, tasks_not_crossed hrun⟩

/-- A walk of the nodes and a child that is freed: each thread has taken its first mutex. -/
theorem walk_and_free_crossed :
    ∃ s : Locks Bool Operation Mutex, Reach Initial step (fun _ _ => True) s ∧
      s.Crossed .bridge .pending ∧ s.step false = none ∧ s.step true = none := by
  have hstart := two_initial (.clearAllInflight 1) (.ackFailureAdd true)
  exact ⟨_, Reach.exec_true [false, true] (.start hstart) rfl,
    ⟨true, false, by decide, ⟨rfl, rfl⟩, rfl, rfl⟩, rfl, rfl⟩

end RainMakerNeo.Node.PendingLocks
