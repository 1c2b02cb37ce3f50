import RainMakerNeo.Lib.LockOrder

/-!
# `RainMakerNeo.Mqtt.EspLocks`: the client lock of esp-mqtt

The esp-mqtt client has a recursive lock of its own. The MQTT task holds it while it dispatches an
event, and the publish, subscribe and unsubscribe calls of the client take it.
`osal_mqtt_esp_impl.c` calls the client with the mutex of the channel registry taken, and takes that
mutex in the handler of an acknowledgement. A caller and the MQTT task can thus wait for each other
(`publish_and_ack_crossed`).

Only a call of another thread takes the client lock inside the registry mutex
(`keeps_callsClient`), and only the dispatch of an acknowledgement, or of an event that makes calls
of its own, takes the registry mutex inside the client lock (`keeps_usesRegistry`). So it is enough
that such a call and such an event do not run into each other (`client_not_crossed`). With the mutex
of the subscription table there is no such condition: the client is never called with it taken
(`keeps_table`).

Each function is the list of its operations on the three mutexes. The answers of the client and of
the allocator are arguments. A call from the MQTT task finds the client lock taken by the task
itself, which does not wait for it.
-/

set_option autoImplicit false

namespace RainMakerNeo.Mqtt.EspLocks

open RainMakerNeo.Lib RainMakerNeo.Lib.Locks

/-! ### The model -/

inductive Mutex
  /-- The lock of the esp-mqtt client. -/
  | client
  /-- `xChannelRegistry.mutex`. -/
  | registry
  /-- `xSubscriptionListMutex`. -/
  | table
  deriving DecidableEq, Repr

instance : Fintype Mutex := ⟨{.client, .registry, .table}, fun m => by cases m <;> decide⟩

abbrev Code := Program Mutex

/-- A call of the esp-mqtt client. `inside` says that the MQTT task makes it, from an event. -/
def clientCall (inside : Bool) : Code := if inside then [] else locked .client []

/-- `osal_mqtt_subscription_add`, `_remove` and `_clear`. -/
def tableAccess : Code := locked .table []

/-- A call of the API. `connected` is `xIsConnected`, and `accepted` says that the client has given
a message id and that its channel could be registered. -/
inductive Call
  | publish (connected : Bool)
  | subscribe (connected accepted : Bool)
  | unsubscribe (connected accepted : Bool)
  deriving DecidableEq, Repr

/-- `publish`, `subscribe` and `unsubscribe`. -/
def Call.code (inside : Bool) : Call → Code
  | .publish connected => if connected then locked .registry (clientCall inside) else []
  | .subscribe connected accepted | .unsubscribe connected accepted =>
    if connected then
      locked .registry (clientCall inside ++ if accepted then tableAccess else [])
    else []

/-- What `MQTT_EVENT_CONNECTED` does about the subscriptions. -/
inductive Connected
  /-- The first connection. -/
  | first
  /-- The session is present: `osal_mqtt_subscription_simulate_subacks`. -/
  | simulate
  /-- `osal_mqtt_subscription_attempt_resubscribe_all`, with its calls of `subscribe`. -/
  | resubscribe (calls : List Call)
  /-- `osal_mqtt_subscription_clear`. -/
  | clear
  deriving DecidableEq, Repr

/-- An event that the MQTT task dispatches. -/
inductive Event
  | connected (how : Connected)
  /-- `MQTT_EVENT_PUBLISHED`, `MQTT_EVENT_SUBSCRIBED` or `MQTT_EVENT_UNSUBSCRIBED`. -/
  | acknowledged
  /-- `MQTT_EVENT_DATA`, with the calls that the subscription callbacks make. -/
  | data (calls : List Call)
  /-- `MQTT_EVENT_DISCONNECTED` and the others. -/
  | other
  deriving DecidableEq, Repr

/-- `osal_mqtt_event_handler`. -/
def Event.handler : Event → Code
  | .connected .first => []
  | .connected .simulate => locked .table []
  | .connected (.resubscribe calls) => locked .table [] ++ calls.flatMap (Call.code true)
  | .connected .clear => tableAccess
  | .acknowledged => locked .registry []
  | .data calls => locked .table [] ++ calls.flatMap (Call.code true)
  | .other => []

/-- The MQTT task dispatches the event with the client lock taken. -/
def Event.code (e : Event) : Code := locked .client e.handler

/-- What a thread does: a call of the API, or the dispatch of an event. -/
inductive Task
  | call (c : Call)
  | event (e : Event)
  deriving DecidableEq, Repr

/-- A call that another thread than the MQTT task makes finds the client lock free or waits for
it. -/
def Task.code : Task → Code
  | .call c => c.code false
  | .event e => e.code

/-- `xIsConnected` lets the call through. -/
def Call.connected : Call → Bool
  | .publish connected | .subscribe connected _ | .unsubscribe connected _ => connected

/-- A call that calls the client, with the registry mutex taken. -/
def Task.callsClient : Task → Bool
  | .call c => c.connected
  | .event _ => false

/-- The handler of the event takes the registry mutex. -/
def Event.usesRegistry : Event → Bool
  | .acknowledged => true
  | .connected (.resubscribe calls) | .data calls => calls.any Call.connected
  | _ => false

/-- An event that takes the registry mutex, with the client lock taken. -/
def Task.usesRegistry : Task → Bool
  | .call _ => false
  | .event e => e.usesRegistry

variable {θ : Type*} [DecidableEq θ]

/-- No mutex is taken. The MQTT task is at the start of some events, and every other thread at the
start of some calls. -/
def Initial (mqttTask : θ) (s : Locks θ Task Mutex) : Prop :=
  (∀ m, s.owner m = none)
    ∧ (∃ events : List Event, s.rest mqttTask = agenda Task.code (events.map .event))
    ∧ ∀ t, t ≠ mqttTask → ∃ calls : List Call, s.rest t = agenda Task.code (calls.map .call)

/-! ### Which tasks take one mutex inside the other one -/

section Keeps

variable {may inside inTask : Bool} {outer inner : Mutex}

/-- One mutex and nothing inside it, where it may be taken. -/
theorem keeps_locked_nil {m : Mutex} (hm : m ≠ outer) (h : inside = true → may = true ∨ m ≠ inner) :
    Keeps may outer inner inside (locked m []) :=
  .locked_of_ne hm h .nil

/-- The code of a call, from what it does with the registry mutex taken. -/
theorem keeps_call {c : Call}
    (h : ∀ after : Code, after = [] ∨ after = tableAccess → c.connected = true →
      Keeps may outer inner inside (locked .registry (clientCall inTask ++ after))) :
    Keeps may outer inner inside (c.code inTask) := by
  have haccepted : ∀ accepted : Bool, c.connected = true → Keeps may outer inner inside
      (locked .registry (clientCall inTask ++ if accepted then tableAccess else [])) := by
    intro accepted hc
    refine h _ ?_ hc
    cases accepted with
    | true => exact .inr rfl
    | false => exact .inl rfl
  cases c with
  | publish connected =>
    refine .ite (fun hc => ?_) fun _ => .nil
    rw [← List.append_nil (clientCall inTask)]
    exact h [] (.inl rfl) hc
  | subscribe connected accepted => exact .ite (fun hc => haccepted accepted hc) fun _ => .nil
  | unsubscribe connected accepted => exact .ite (fun hc => haccepted accepted hc) fun _ => .nil

/-- The handler of an event, from what it does with the registry and with the table, and from the
calls that it makes. -/
theorem keeps_handler {e : Event} (htable : Keeps may outer inner inside (locked .table []))
    (hregistry : e.usesRegistry = true → Keeps may outer inner inside (locked .registry []))
    (hcalls : ∀ c : Call, (c.connected = true → e.usesRegistry = true) →
      Keeps may outer inner inside (c.code true)) : Keeps may outer inner inside e.handler := by
  cases e with
  | connected how =>
    cases how with
    | first => exact .nil
    | simulate => exact htable
    | resubscribe calls =>
      refine htable.append (.flatMap fun c hc => hcalls c fun hcon => ?_)
      exact List.any_eq_true.mpr ⟨c, hc, hcon⟩
    | clear => exact htable
  | acknowledged => exact hregistry rfl
  | data calls =>
    refine htable.append (.flatMap fun c hc => hcalls c fun hcon => ?_)
    exact List.any_eq_true.mpr ⟨c, hc, hcon⟩
  | other => exact .nil

/-- The client is never called with the table mutex taken. -/
theorem keeps_table (task : Task) : Keeps false Mutex.table .client false task.code := by
  have hafter : ∀ after : Code, after = [] ∨ after = tableAccess →
      Keeps false Mutex.table .client false after := by
    rintro after (rfl | rfl)
    · exact .nil
    · exact .locked_outer .nil
  have hclient : ∀ inTask : Bool, Keeps false Mutex.table .client false (clientCall inTask) := by
    intro inTask
    exact .ite (fun _ => .nil) fun _ => .locked_outside (by decide) .nil
  have hcall : ∀ (inTask : Bool) (c : Call),
      Keeps false Mutex.table .client false (c.code inTask) := by
    intro inTask c
    exact keeps_call fun after h _ =>
      .locked_outside (by decide) ((hclient inTask).append (hafter after h))
  cases task with
  | call c => exact hcall false c
  | event e =>
    exact .locked_outside (by decide) (keeps_handler (.locked_outer .nil)
      (fun _ => .locked_outside (by decide) .nil) fun c _ => hcall true c)

/-- **Only a call takes the client lock inside the registry mutex.** -/
theorem keeps_callsClient (task : Task) :
    Keeps task.callsClient Mutex.registry .client false task.code := by
  have hafter : ∀ {may : Bool} (after : Code), after = [] ∨ after = tableAccess →
      Keeps may Mutex.registry .client true after := by
    rintro may after (rfl | rfl)
    · exact .nil
    · exact keeps_locked_nil (by decide) fun _ => .inr (by decide)
  cases task with
  | call c =>
    refine keeps_call fun after h hc => .locked_outer (.append ?_ (hafter after h))
    exact keeps_locked_nil (by decide) fun _ => .inl hc
  | event e =>
    -- The task itself has the client lock, so its calls do not take it.
    refine .locked_outside (by decide) (keeps_handler ?_ (fun _ => .locked_outer .nil) ?_)
    · exact .locked_outside (by decide) .nil
    · exact fun c _ => keeps_call fun after h _ => .locked_outer (.append .nil (hafter after h))

/-- **Only an event takes the registry mutex inside the client lock.** -/
theorem keeps_usesRegistry (task : Task) :
    Keeps task.usesRegistry Mutex.client .registry false task.code := by
  have hafter : ∀ {may inside : Bool} (after : Code), after = [] ∨ after = tableAccess →
      Keeps may Mutex.client .registry inside after := by
    rintro may inside after (rfl | rfl)
    · exact .nil
    · exact keeps_locked_nil (by decide) fun _ => .inr (by decide)
  cases task with
  | call c =>
    exact keeps_call fun after h _ => .locked_outside (by decide)
      ((Keeps.locked_outer .nil).append (hafter after h))
  | event e =>
    have htable : Keeps e.usesRegistry Mutex.client .registry true (locked .table []) :=
      keeps_locked_nil (by decide) fun _ => .inr (by decide)
    refine .locked_outer (keeps_handler htable ?_ ?_)
    · exact fun h => keeps_locked_nil (by decide) fun _ => .inl h
    · exact fun c hc => keeps_call fun after h hcon => .locked_of_ne (by decide)
        (fun _ => .inl (hc hcon)) (.append .nil (hafter after h))

end Keeps

/-- At first the threads keep an order that the code of each task keeps. -/
theorem Initial.oneWay {mqttTask : θ} {s : Locks θ Task Mutex} (hs : Initial mqttTask s)
    {kind : Task → Bool} {outer inner : Mutex}
    (h : ∀ task, Keeps (kind task) outer inner false task.code) : s.OneWay kind outer inner := by
  refine oneWay_of_keeps Task.code (hs.1 outer) fun t => ?_
  by_cases ht : t = mqttTask
  · obtain ⟨events, hevents⟩ := hs.2.1
    exact ⟨_, ht ▸ hevents, fun task _ => h task⟩
  · obtain ⟨calls, hcalls⟩ := hs.2.2 t ht
    exact ⟨_, hcalls, fun task _ => h task⟩

/-! ### The order of the mutexes in a run -/

/-- A call does not take the registry mutex, to call the client, while the MQTT task dispatches an
event with the client lock taken in which it has still to take the registry mutex. The MQTT task
begins no such event while another thread has the registry mutex and has still to call the
client. -/
abbrev CarefulCalls : Locks θ Task Mutex → θ → Prop :=
  Careful Task.callsClient Task.usesRegistry .registry .client

/-- **The lock order.** While no call and no event that takes the registry mutex run into each
other, no caller and the MQTT task wait for each other at the registry mutex and the client lock. At
the table mutex and the client lock they never do. -/
theorem client_not_crossed (mqttTask : θ) :
    (∀ s, Reach (Initial mqttTask) step CarefulCalls s → ¬ s.Crossed .registry .client)
    ∧ ∀ s, Reach (Initial mqttTask) step (fun _ _ => True) s → ¬ s.Crossed .table .client := by
  refine ⟨fun s h => ?_, fun s h => ?_⟩
  · exact not_crossed (fun _ hs => hs.1 .registry) (fun _ hs => hs.oneWay keeps_callsClient)
      (fun _ hs => hs.oneWay keeps_usesRegistry) h
  · exact not_crossed_of_oneWay (fun _ hs => hs.oneWay keeps_table) h

/-- A caller with one call, and the MQTT task, which is `true`, with one event. -/
def two (c : Call) (e : Event) : Locks Bool Task Mutex :=
  { rest := fun t => agenda Task.code [if t then .event e else .call c], owner := fun _ => none }

theorem two_initial (c : Call) (e : Event) : Initial true (two c e) := by
  refine ⟨fun _ => rfl, ⟨[e], rfl⟩, fun t ht => ?_⟩
  cases t with
  | false => exact ⟨[c], rfl⟩
  | true => exact absurd rfl ht

/-- The event is dispatched once the publish is through. -/
def publishThenAck : List Bool := [false, false, false, false, true, true, true, true]

theorem publishThenAck_not_crossed :
    ∃ s, exec step (two (.publish true) .acknowledged) publishThenAck = some s
      ∧ s.owner .registry = none ∧ s.owner .client = none ∧ ¬ s.Crossed .registry .client := by
  have hrun : Reach (Initial true) step CarefulCalls _ :=
    Reach.exec publishThenAck (.start (two_initial (.publish true) .acknowledged))
      (by decide +kernel) rfl
  exact ⟨_, rfl, rfl, rfl, (client_not_crossed true).1 _ hrun⟩

/-- A publish and an acknowledgement: each thread has taken its first lock. -/
theorem publish_and_ack_crossed :
    ∃ s : Locks Bool Task Mutex, Reach (Initial true) step (fun _ _ => True) s
      ∧ s.Crossed .registry .client ∧ s.step false = none ∧ s.step true = none := by
  have hstart := two_initial (.publish true) .acknowledged
  exact ⟨_, Reach.exec_true [false, true] (.start hstart) rfl,
    ⟨false, true, by decide, ⟨rfl, rfl⟩, rfl, rfl⟩, rfl, rfl⟩

end RainMakerNeo.Mqtt.EspLocks
