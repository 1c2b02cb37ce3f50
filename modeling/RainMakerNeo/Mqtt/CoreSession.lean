import RainMakerNeo.Lib.PubSub
import RainMakerNeo.Mqtt.SessionTable

/-!
# `RainMakerNeo.Mqtt.CoreSession`: the session of the coreMQTT backend

`osal_mqtt_core_impl.c` runs the MQTT agent in a task of its own. The task connects, runs the command
loop until the connection ends, cancels the commands that are left, and connects again. The callers
put SUBSCRIBE and UNSUBSCRIBE commands into the queue of the agent.

The agent library and the broker are outside the model. A step says what they answer, and the broker
keeps the session as `Lib.Traffic` says.

Three things go wrong. `prvCoreMqttAgentConnect` subscribes again before it sets `xIsConnected`, so
`subscribe` refuses each entry. It acknowledges all entries of a session that goes on, also those
whose SUBSCRIBE has failed. And it takes the clean flag as a parameter of the same name, so its reset
does not reach the flag that `force_reconnect` has set. `Careful` keeps away from the three.
-/

set_option autoImplicit false

namespace RainMakerNeo.Mqtt.CoreSession

open RainMakerNeo.Lib

/-! ### The model -/

/-- `osal_err_t`, as far as the operations return it. -/
inductive Status
  | ok
  | invalidArg
  | notConnected
  | noMem
  | invalidState
  /-- What `mqtt_agent_status_to_os_err` makes of the answer of the agent. -/
  | agent
  deriving DecidableEq, Repr

/-- A connection that was made, and whether a `force_reconnect` came before it and after the last
one. This does not exist in the code. -/
structure Connection where
  clean : Bool
  forced : Bool
  deriving DecidableEq, Repr

structure State where
  /-- The subscription manager. -/
  table : Table
  /-- `xIsConnected`. -/
  isConnected : Bool := false
  /-- The global `xCleanSession`. -/
  cleanSession : Bool := false
  /-- `agent_task_is_alive`. -/
  alive : Bool := false
  /-- `should_keep_agent_task_alive`. -/
  keepAlive : Bool := false
  /-- The task tries to connect again after it could not resume a session. -/
  retrying : Bool := false
  /-- `ulMessageId`. -/
  messageId : Nat := 0
  /-- The queue of the agent, the network and the broker. -/
  traffic : Traffic (List Char) := {}
  /-- There was a `force_reconnect` since the last connection. This does not exist in the code. -/
  forced : Bool := false
  /-- For each simulated acknowledgement, whether the session holds the filter. This does not exist
  in the code. -/
  simulated : List Bool := []
  /-- The connections, the last one first. This does not exist in the code. -/
  connections : List Connection := []

/-- What the allocator and the agent answer inside `subscribe` and `unsubscribe`. -/
structure Answers where
  allocated : Bool := true
  /-- The table can copy the filter. -/
  copied : Bool := true
  /-- The agent takes the command. -/
  enqueued : Bool := true
  deriving DecidableEq, Repr

/-- What happens when the task tries to connect. -/
structure Attempt where
  /-- TLS connects, and the broker accepts the connection. -/
  accepted : Bool := true
  /-- `MQTTAgent_ResumeSession` of a session that is present. -/
  resumed : Bool := true
  /-- The answers when an entry is subscribed again. -/
  resubscribed : Element → Answers := fun _ => {}

namespace State

variable (s : State)

/-- `subscribe`. -/
def subscribe (args : AddArgs) (env : Answers) : Option (Status × State) :=
  if args.chars = [] then some (.invalidArg, s)
  else if !s.isConnected then some (.notConnected, s)
  else
    let s := { s with messageId := s.messageId + 1 }
    if !env.allocated then some (.noMem, s)
    else
      (s.table.add env.copied args).bind fun (r, table) =>
        if !r.status then some (.invalidState, s)
        else if env.enqueued then
          some (.ok,
            { s with table := table, traffic := s.traffic.issue args.chars s.messageId })
        -- an entry that existed before stays
        else if r.added then
          (table.removeEntry args.filter args.callback args.privData).map fun table =>
            (.agent, { s with table := table })
        else some (.agent, { s with table := table })

/-- `unsubscribe`. -/
def unsubscribe (topic : Option Slice) (env : Answers) : Option (Status × State) :=
  match topic with
  | none => some (.invalidArg, s)
  | some slice =>
    if slice.chars = [] then some (.invalidArg, s)
    else if !s.isConnected then some (.notConnected, s)
    else
      let s := { s with messageId := s.messageId + 1 }
      if !env.allocated then some (.noMem, s)
      else if !env.enqueued then some (.agent, s)
      else
        (s.table.remove (some slice)).map fun table =>
          (.ok, { s with table := table, traffic := s.traffic.withdraw slice.chars s.messageId })

/-- The two ways to begin a new session: subscribe to all entries again, or clear the table. -/
def renew (cfg : SessionConfig) (env : Element → Answers) : Option State :=
  if cfg.resubscribe then
    resubscribeAll (fun s args a => (s.subscribe args a).map Prod.snd) s.table.snapshot env s
  else some { s with table := s.table.clear }

/-- `prvCoreMqttAgentConnect` once the broker has accepted the connection, and whether it succeeds.
The assignment to `xCleanSession` at its end changes the parameter. -/
def agentConnect (cfg : SessionConfig) (env : Attempt) : Option (Bool × State) :=
  let clean := s.cleanSession
  let present := s.traffic.present clean
  let s := { s with
    traffic := s.traffic.connect clean
    connections := { clean := clean, forced := s.forced } :: s.connections
    forced := false }
  if present then
    if env.resumed then
      let r := simulateSubacks s.table.simulated s.traffic s.simulated
      some (true, { s with traffic := r.1, simulated := r.2, isConnected := true })
    else some (false, { s with isConnected := true })
  else (s.renew cfg env.resubscribed).map fun s => (true, { s with isConnected := true })

/-- The task ends. -/
def exit : State :=
  if s.keepAlive then s
  else { s with alive := false, retrying := false, traffic := s.traffic.abandon true }

/-- A round of the loop that connects, in `prvCoreMqttAgentTask`. -/
def attempt (cfg : SessionConfig) (env : Attempt) : Option State :=
  if !env.accepted then some s.exit
  else
    (s.agentConnect cfg env).map fun (connected, s) =>
      if connected then { s with retrying := false }.exit
      else { s with retrying := true, traffic := s.traffic.cut }.exit

/-- The task runs the command loop. -/
def serving : Bool := s.alive && s.isConnected && !s.retrying

/-- The command loop ends: the connection is lost, or the agent has handled a disconnect command. -/
def lose : State :=
  { s with isConnected := false, traffic := s.traffic.abandon true }.exit

end State

/-- What happens next. -/
inductive Action
  /-- `connect`, and whether the task can be created. -/
  | connect (created : Bool)
  /-- `disconnect` or `drop`, up to the command that they queue. -/
  | disconnect
  /-- `force_reconnect`, up to the command that it queues. -/
  | forceReconnect
  | attempt (env : Attempt)
  | lose
  | subscribe (args : AddArgs) (env : Answers)
  | unsubscribe (topic : Option Slice) (env : Answers)
  /-- The agent sends the first command. It reports a failure if it cannot keep track of it. -/
  | transmit (tracked : Bool)
  /-- The agent cannot send the first command. -/
  | reject
  /-- The broker serves a packet. -/
  | serve (granted : Bool)
  /-- The agent gets an answer, and posts the completion. -/
  | answered (answer : Packet (List Char) × Bool)
  /-- The broker drops the session. -/
  | forget

/-- A text that a caller passes with its length has no NUL. -/
def nulFree (topic : Option Slice) : Bool := topic.all fun slice => nul ∉ slice.chars

/-- The next step. -/
def step (cfg : SessionConfig) (s : State) : Action → Option State
  | .connect created =>
    if s.alive then some s
    else if created then
      some { s with alive := true, keepAlive := true, cleanSession := cfg.cleanSession }
    else some { s with keepAlive := false }
  | .disconnect => some { s with keepAlive := false }
  | .forceReconnect => some { s with cleanSession := true, forced := true }
  | .attempt env =>
    if s.alive && (!s.isConnected || s.retrying) then s.attempt cfg env else none
  | .lose => if s.serving then some s.lose else none
  | .subscribe args env =>
    if nulFree args.filter then (s.subscribe args env).map Prod.snd else none
  | .unsubscribe topic env =>
    if nulFree topic then (s.unsubscribe topic env).map Prod.snd else none
  | .transmit tracked =>
    if s.serving && s.traffic.linked then
      s.traffic.transmit.map fun traffic =>
        { s with traffic := if tracked then traffic
                            else traffic.fail (s.traffic.queue.take 1) true }
    else none
  | .reject =>
    if s.serving then (s.traffic.reject true).map fun traffic => { s with traffic := traffic }
    else none
  | .serve granted =>
    if s.traffic.linked then
      (s.traffic.serve granted).map fun traffic => { s with traffic := traffic }
    else none
  | .answered answer =>
    if s.serving && s.traffic.linked then
      (s.traffic.answered answer true).map fun traffic => { s with traffic := traffic }
    else none
  | .forget => s.traffic.forget.map fun traffic => { s with traffic := traffic }

/-- After `init`: an empty table, and no task. -/
def Initial (s : State) : Prop :=
  ∃ capacity session, s = { table := (Table.initial capacity).init true
                            traffic := { session := session } }

/-! ### The agreement -/

/-- **Agreement.** While the client is connected, each filter of the table is in the session of the
broker, or its SUBSCRIBE is queued or in flight, or the failure of its last SUBSCRIBE was reported.
A simulated acknowledgement is for a filter of the session. A connection is a clean one exactly if
that is configured, or if it is the first one after a `force_reconnect`. -/
structure Agrees (cfg : SessionConfig) (s : State) : Prop where
  filters : s.isConnected = true → s.traffic.linked = true → ∀ f ∈ s.table.filters,
    s.traffic.Held f ∨ s.traffic.Waits f ∨ f ∈ s.traffic.failed
  simulated : ∀ held ∈ s.simulated, held = true
  connections : ∀ c ∈ s.connections, c.clean = (cfg.cleanSession || c.forced)

/-- Nothing depends on the session: the SUBSCRIBE is queued, or its failure was reported. -/
def Detached (s : State) (f : List Char) : Prop :=
  f ∈ s.traffic.failed ∨ ∃ p ∈ s.traffic.queue, ∃ op, p = .subscribe f op

/-- The client counts as connected while the task connects again, and the agent takes an entry for
the filter. -/
def Retaken (s : State) (entries : List Element) (env : Element → Answers) (f : List Char) : Prop :=
  s.isConnected = true ∧ ∃ e ∈ entries, f ∈ e.filter.map Block.chars
    ∧ (env e).allocated = true ∧ (env e).enqueued = true

instance (s : State) (f : List Char) : Decidable (Detached s f) :=
  inferInstanceAs (Decidable (_ ∨ ∃ p ∈ s.traffic.queue, ∃ op, p = .subscribe f op))

instance (s : State) (entries : List Element) (env : Element → Answers) (f : List Char) :
    Decidable (Retaken s entries env f) := inferInstanceAs (Decidable (_ ∧ ∃ e ∈ entries, _))

/-- The steps that keep the agreement. -/
def Careful (cfg : SessionConfig) (s : State) : Action → Prop
  -- a forced connection does not get lost in a restart of the task
  | .connect _ => s.alive = false → s.forced = true → cfg.cleanSession = true
  | .attempt env => env.accepted = true →
    -- a forced connection has no successor that is clean as well
    (s.cleanSession = true → cfg.cleanSession = true ∨ s.forced = true)
    -- no entry has to be subscribed again, or it can be
    ∧ (s.traffic.present s.cleanSession = false → cfg.resubscribe = true →
      ∀ f ∈ s.table.filters, Detached s f ∨ Retaken s s.table.snapshot env.resubscribed f)
    -- no entry is acknowledged whose SUBSCRIBE has failed or waits
    ∧ (s.traffic.present s.cleanSession = true → env.resumed = true →
      ∀ e ∈ s.table.simulated, ∀ f ∈ e.filter.map Block.chars, ¬Detached s f)
  | .disconnect | .forceReconnect | .lose | .subscribe _ _ | .unsubscribe _ _ | .transmit _
  | .reject | .serve _ | .answered _ | .forget => True

instance (cfg : SessionConfig) (s : State) : (a : Action) → Decidable (Careful cfg s a)
  | .connect _ => inferInstanceAs (Decidable (_ → _ → _))
  | .attempt env => inferInstanceAs (Decidable (env.accepted = true →
      (_ → _ ∨ _) ∧ (_ → _ → ∀ f ∈ s.table.filters, _ ∨ _)
        ∧ (_ → _ → ∀ e ∈ s.table.simulated, ∀ f ∈ e.filter.map Block.chars, ¬_)))
  | .disconnect | .forceReconnect | .lose | .subscribe _ _ | .unsubscribe _ _ | .transmit _
  | .reject | .serve _ | .answered _ | .forget => .isTrue trivial

/-! ### The operations -/

variable {cfg : SessionConfig} {s t : State}

theorem nulFree_chars {args : AddArgs} (h : nulFree args.filter = true) : nul ∉ args.chars := by
  rw [nulFree] at h
  cases hfilter : args.filter with
  | none =>
    rw [AddArgs.chars, hfilter]
    exact List.not_mem_nil
  | some slice =>
    rw [hfilter] at h
    rw [AddArgs.chars, hfilter]
    exact of_decide_eq_true h

/-- What the table, the packets and the session owe each other, as far as the filters in `done`
go. -/
structure BaseOn (done : List Char → Prop) (s : State) : Prop where
  intact : s.table.Intact
  settled : ∀ f ∈ s.table.filters, done f → s.traffic.Settled f
  lost : s.traffic.lost = []
  session : s.traffic.linked = true → s.traffic.session.isSome = true
  sent : s.traffic.linked = false → s.traffic.sent = []

/-- What the table, the packets and the session owe each other. -/
abbrev Base (s : State) : Prop := BaseOn (fun _ => True) s

variable {done : List Char → Prop} {env : Answers} {status : Status}

theorem BaseOn.mono {done' : List Char → Prop} (h : BaseOn done s)
    (hdone : ∀ f ∈ s.table.filters, done' f → done f) : BaseOn done' s :=
  ⟨h.intact, fun f hf hd => h.settled f hf (hdone f hf hd), h.lost, h.session, h.sent⟩

/-- Only the table and the packets matter. -/
theorem BaseOn.of_eq (h : BaseOn done s) (htable : t.table = s.table)
    (htraffic : t.traffic = s.traffic) : BaseOn done t := by
  refine ⟨?_, ?_, ?_, ?_, ?_⟩
  · rw [htable]
    exact h.intact
  · rw [htable, htraffic]
    exact h.settled
  · rw [htraffic]
    exact h.lost
  · rw [htraffic]
    exact h.session
  · rw [htraffic]
    exact h.sent

/-- What the operations of the callers leave alone. -/
structure Frame (s t : State) : Prop where
  isConnected : t.isConnected = s.isConnected
  cleanSession : t.cleanSession = s.cleanSession
  alive : t.alive = s.alive
  keepAlive : t.keepAlive = s.keepAlive
  retrying : t.retrying = s.retrying
  forced : t.forced = s.forced
  simulated : t.simulated = s.simulated
  connections : t.connections = s.connections
  linked : t.traffic.linked = s.traffic.linked

theorem Frame.refl (s : State) : Frame s s := ⟨rfl, rfl, rfl, rfl, rfl, rfl, rfl, rfl, rfl⟩

theorem Frame.trans {u : State} (h : Frame s t) (h' : Frame t u) : Frame s u :=
  ⟨h'.isConnected.trans h.isConnected, h'.cleanSession.trans h.cleanSession,
    h'.alive.trans h.alive, h'.keepAlive.trans h.keepAlive, h'.retrying.trans h.retrying,
    h'.forced.trans h.forced, h'.simulated.trans h.simulated,
    h'.connections.trans h.connections, h'.linked.trans h.linked⟩

/-- Fewer filters, and the same packets. -/
theorem BaseOn.of_table (h : BaseOn done s) {table : Table} (hintact : table.Intact)
    (hfilters : ∀ f ∈ table.filters, f ∈ s.table.filters) (messageId : Nat) :
    BaseOn done { s with table := table, messageId := messageId } :=
  ⟨hintact, fun f hf => h.settled f (hfilters f hf), h.lost, h.session, h.sent⟩

/-- A SUBSCRIBE that is queued settles its filter, and the other filters stay as they are. -/
theorem subscribe_spec (h : BaseOn done s) {args : AddArgs} (hnul : nul ∉ args.chars)
    (hsubscribe : s.subscribe args env = some (status, t)) :
    BaseOn (fun f => done f ∨ status = .ok ∧ f = args.chars) t ∧ Frame s t := by
  have hrefused : ∀ {u}, status ≠ .ok → BaseOn done u →
      BaseOn (fun f => done f ∨ status = .ok ∧ f = args.chars) u :=
    fun hne hu => hu.mono fun f _ hor => hor.resolve_right fun hok => hne hok.1
  rw [State.subscribe] at hsubscribe
  split at hsubscribe
  · cases Option.some.inj hsubscribe
    exact ⟨hrefused Status.noConfusion h, .refl s⟩
  · split at hsubscribe
    · cases Option.some.inj hsubscribe
      exact ⟨hrefused Status.noConfusion h, .refl s⟩
    · dsimp only at hsubscribe
      have hframe : ∀ table, Frame s { s with table := table, messageId := s.messageId + 1 } :=
        fun _ => ⟨rfl, rfl, rfl, rfl, rfl, rfl, rfl, rfl, rfl⟩
      have hnumber := h.of_table h.intact (fun _ hf => hf) (s.messageId + 1)
      split at hsubscribe
      · cases Option.some.inj hsubscribe
        exact ⟨hrefused Status.noConfusion hnumber, hframe s.table⟩
      · obtain ⟨⟨r, table⟩, hadd, hsubscribe⟩ := Option.bind_eq_some_iff.mp hsubscribe
        obtain ⟨hintact, hfilters, hunchanged⟩ := h.intact.add hnul hadd
        dsimp only at hsubscribe
        split at hsubscribe
        · cases Option.some.inj hsubscribe
          exact ⟨hrefused Status.noConfusion hnumber, hframe s.table⟩
        · split at hsubscribe
          · cases Option.some.inj hsubscribe
            refine ⟨⟨hintact, ?_, ?_, h.session, h.sent⟩, ⟨rfl, rfl, rfl, rfl, rfl, rfl, rfl, rfl,
              rfl⟩⟩
            · -- the new filter waits, the others are as before
              intro f hf hdone
              by_cases heq : f = args.chars
              · rw [heq]
                exact .issue_self s.traffic args.chars (s.messageId + 1)
              · refine Traffic.Settled.issue ?_ heq (s.messageId + 1)
                exact h.settled f ((hfilters f hf).resolve_right fun hor => heq hor.2)
                  (hdone.resolve_right fun hor => heq hor.2)
            · show s.traffic.lost.filter _ = []
              rw [h.lost]
              rfl
          · split at hsubscribe
            · next hadded =>
              obtain ⟨table', hremove, heq⟩ := Option.map_eq_some_iff.mp hsubscribe
              cases heq
              obtain ⟨hintact', hfilters'⟩ :=
                h.intact.add_removeEntry hnul hadd hadded hremove
              exact ⟨hrefused Status.noConfusion (h.of_table hintact' hfilters' _), hframe table'⟩
            · next hadded =>
              cases Option.some.inj hsubscribe
              have heq : table = s.table := hunchanged ((Bool.not_eq_true _).mp hadded)
              rw [heq]
              exact ⟨hrefused Status.noConfusion hnumber, hframe s.table⟩

/-- The table has an entry that is subscribed again already, and the agent takes it if it can. -/
theorem subscribe_entry (h : s.table.Intact) {e : Element} (he : e ∈ s.table.entries)
    (hsubscribe : s.subscribe e.args env = some (status, t)) :
    t.table = s.table ∧ (s.isConnected = true → env.allocated = true → env.enqueued = true →
      ∀ f ∈ e.filter.map Block.chars, status = .ok ∧ f = e.args.chars) := by
  have hsnapshot : e ∈ s.table.snapshot := by
    rw [Table.snapshot, if_pos h.mutex]
    exact he
  have hargs := (h.args hsnapshot).2
  rw [State.subscribe] at hsubscribe
  cases hcopy : e.filter with
  | none =>
    have hempty : e.args.chars = [] := by
      rw [AddArgs.chars, Element.args, hcopy]
      rfl
    rw [if_pos hempty] at hsubscribe
    cases Option.some.inj hsubscribe
    exact ⟨rfl, by simp⟩
  | some b =>
    rw [hcopy] at hargs
    have hchars : e.args.chars = b.chars := hargs _ rfl
    have hne : e.args.chars ≠ [] := by
      rw [hchars]
      exact h.nonempty he hcopy
    rw [if_neg hne] at hsubscribe
    split at hsubscribe
    · next hdisconnected =>
      cases Option.some.inj hsubscribe
      rw [Bool.not_eq_true'] at hdisconnected
      exact ⟨rfl, fun hconnected => absurd (hdisconnected.symm.trans hconnected) Bool.noConfusion⟩
    · dsimp only at hsubscribe
      split at hsubscribe
      · next hfull =>
        cases Option.some.inj hsubscribe
        rw [Bool.not_eq_true'] at hfull
        exact ⟨rfl, fun _ hallocated => absurd (hfull.symm.trans hallocated) Bool.noConfusion⟩
      · obtain ⟨⟨r, table⟩, hadd, hsubscribe⟩ := Option.bind_eq_some_iff.mp hsubscribe
        obtain ⟨rfl, rfl⟩ := h.add_self he hcopy hadd
        rw [if_neg Bool.noConfusion] at hsubscribe
        split at hsubscribe
        · cases Option.some.inj hsubscribe
          exact ⟨rfl, fun _ _ _ f hf => ⟨rfl, (hargs f hf).symm⟩⟩
        · next hrefused =>
          cases Option.some.inj hsubscribe
          exact ⟨rfl, fun _ _ henqueued => absurd henqueued hrefused⟩

theorem unsubscribe_spec (h : Base s) {topic : Option Slice}
    (hunsubscribe : s.unsubscribe topic env = some (status, t)) : Base t ∧ Frame s t := by
  unfold State.unsubscribe at hunsubscribe
  split at hunsubscribe
  · cases Option.some.inj hunsubscribe
    exact ⟨h, .refl s⟩
  · next slice =>
    split at hunsubscribe
    · cases Option.some.inj hunsubscribe
      exact ⟨h, .refl s⟩
    · next hne =>
      split at hunsubscribe
      · cases Option.some.inj hunsubscribe
        exact ⟨h, .refl s⟩
      · dsimp only at hunsubscribe
        have hnumber := BaseOn.of_table h h.intact (fun _ hf => hf) (s.messageId + 1)
        split at hunsubscribe
        · cases Option.some.inj hunsubscribe
          exact ⟨hnumber, ⟨rfl, rfl, rfl, rfl, rfl, rfl, rfl, rfl, rfl⟩⟩
        · split at hunsubscribe
          · cases Option.some.inj hunsubscribe
            exact ⟨hnumber, ⟨rfl, rfl, rfl, rfl, rfl, rfl, rfl, rfl, rfl⟩⟩
          · obtain ⟨table, hremove, heq⟩ := Option.map_eq_some_iff.mp hunsubscribe
            cases heq
            obtain ⟨hintact, hfilters⟩ := h.intact.remove hne hremove
            refine ⟨⟨hintact, ?_, h.lost, h.session, h.sent⟩, ⟨rfl, rfl, rfl, rfl, rfl, rfl, rfl,
              rfl, rfl⟩⟩
            intro f hf _
            obtain ⟨hold, hother⟩ := hfilters f hf
            exact (h.settled f hold trivial).withdraw hother (s.messageId + 1)

/-! ### The connections -/

/-- The session of a connection holds what has neither failed nor waits. -/
theorem BaseOn.held {s : State} (h : Base s) (hlinked : s.traffic.linked = true)
    (hsent : s.traffic.sent = []) {f : List Char} (hmem : f ∈ s.table.filters) (hdetached : ¬Detached s f) :
    s.traffic.Held f ∧ f ∉ s.traffic.failed ∧ f ∉ s.traffic.lost := by
  have hfailed : f ∉ s.traffic.failed := fun hfailed => hdetached (.inl hfailed)
  have hlost : f ∉ s.traffic.lost := by
    rw [h.lost]
    exact List.not_mem_nil
  refine ⟨?_, hfailed, hlost⟩
  rcases (h.settled f hmem trivial).spec (h.session hlinked) with hheld | ⟨p, hp, op, rfl⟩ | hf | hf
  · exact hheld
  · rw [hsent, List.nil_append] at hp
    exact absurd (.inr ⟨_, hp, op, rfl⟩) hdetached
  · exact absurd hf hfailed
  · exact absurd hf hlost

/-- The loop settles the filters of the entries that the agent takes. -/
theorem resubscribeAll_spec {entries : List Element} {env : Element → Answers} (h : BaseOn done s)
    (hentries : ∀ e ∈ entries, e ∈ s.table.entries)
    (ht : resubscribeAll (fun s args a => (State.subscribe s args a).map Prod.snd) entries env s
      = some t) : t.table = s.table
      ∧ BaseOn (fun f => done f ∨ Retaken s entries env f) t ∧ Frame s t := by
  induction entries generalizing s done with
  | nil =>
    cases Option.some.inj ht
    refine ⟨rfl, h.mono ?_, .refl _⟩
    rintro f - (hdone | ⟨-, e, he, -⟩)
    · exact hdone
    · cases he
  | cons e entries ih =>
    rw [resubscribeAll] at ht
    obtain ⟨u, hu, ht⟩ := Option.bind_eq_some_iff.mp ht
    obtain ⟨⟨status, u'⟩, hsubscribe, rfl⟩ := Option.map_eq_some_iff.mp hu
    have he : e ∈ s.table.entries := hentries e List.mem_cons_self
    have hsnapshot : e ∈ s.table.snapshot := by
      rw [Table.snapshot, if_pos h.intact.mutex]
      exact he
    obtain ⟨hbase, hframe⟩ := subscribe_spec h (h.intact.args hsnapshot).1 hsubscribe
    obtain ⟨htable, htaken⟩ := subscribe_entry h.intact he hsubscribe
    have hrest : ∀ x ∈ entries, x ∈ u'.table.entries := by
      intro x hx
      rw [htable]
      exact hentries x (List.mem_cons_of_mem e hx)
    obtain ⟨htable', hbase', hframe'⟩ := ih hbase hrest ht
    refine ⟨htable'.trans htable, hbase'.mono ?_, hframe.trans hframe'⟩
    rintro f - (hdone | ⟨hconnected, x, hx, hfilter, hallocated, henqueued⟩)
    · exact .inl (.inl hdone)
    · rcases List.mem_cons.mp hx with rfl | hx
      · exact .inl (.inr (htaken hconnected hallocated henqueued f hfilter))
      · exact .inr ⟨hframe.isConnected.trans hconnected, x, hx, hfilter, hallocated, henqueued⟩

/-- Nothing is forgotten when a new session begins. -/
theorem renew_spec {env : Element → Answers} (h : BaseOn done s)
    (hdone : cfg.resubscribe = true → ∀ f ∈ s.table.filters,
      done f ∨ Retaken s s.table.snapshot env f) (hsession : s.traffic.session.isSome = true)
    (hsent : s.traffic.sent = []) (ht : s.renew cfg env = some t) : Base t ∧ Frame s t := by
  rw [State.renew] at ht
  split at ht
  · next hresubscribe =>
    have hentries : ∀ e ∈ s.table.snapshot, e ∈ s.table.entries := by
      rw [Table.snapshot, if_pos h.intact.mutex]
      exact fun _ he => he
    obtain ⟨htable, hbase, hframe⟩ := resubscribeAll_spec h hentries ht
    refine ⟨hbase.mono ?_, hframe⟩
    intro f hf _
    rw [htable] at hf
    exact hdone hresubscribe f hf
  · cases Option.some.inj ht
    obtain ⟨hintact, hnone⟩ := h.intact.clear
    refine ⟨⟨hintact, ?_, h.lost, fun _ => hsession, fun _ => hsent⟩, ⟨rfl, rfl, rfl, rfl, rfl, rfl,
      rfl, rfl, rfl⟩⟩
    show ∀ f ∈ s.table.clear.filters, _
    rw [hnone]
    simp

/-! ### The invariant -/

/-- What holds between two steps. -/
structure Inv (cfg : SessionConfig) (s : State) : Prop extends BaseOn (fun _ => True) s where
  idle : s.traffic.linked = true → s.isConnected = true ∧ s.retrying = false
  flag : s.alive = true → (cfg.cleanSession || s.forced) = true → s.cleanSession = true
  simulated : ∀ held ∈ s.simulated, held = true
  connections : ∀ c ∈ s.connections, c.clean = (cfg.cleanSession || c.forced)

theorem Inv.agrees (h : Inv cfg s) : Agrees cfg s := by
  refine ⟨?_, h.simulated, h.connections⟩
  intro _ hlinked f hf
  rcases (h.settled f hf trivial).spec (h.session hlinked) with hheld | hwaits | hfailed | hlost
  · exact .inl hheld
  · exact .inr (.inl hwaits)
  · exact .inr (.inr hfailed)
  · rw [h.lost] at hlost
    cases hlost

theorem Inv.initial (h : Initial s) : Inv cfg s := by
  obtain ⟨capacity, session, rfl⟩ := h
  have hentries : ((Table.initial capacity).init true).entries = [] :=
    filter_zeroSlots (Table.initial capacity).slots
  refine ⟨⟨⟨rfl, ?_, ?_⟩, ?_, rfl, by simp, fun _ => rfl⟩, by simp, by simp, by simp, by simp⟩
  · rw [hentries]
    simp
  · rw [hentries]
    simp
  · rw [Table.filters, hentries]
    simp

theorem BaseOn.abandon {s : State} (h : Base s) : Base { s with traffic := s.traffic.abandon true } :=
  ⟨h.intact, fun f hf _ => (h.settled f hf trivial).abandon true, h.lost, nofun, fun _ => rfl⟩

section
variable (h : Inv cfg s)
include h

/-- The commands that are left are cancelled when the task ends. -/
theorem Inv.exit : Inv cfg s.exit := by
  rw [State.exit]
  split
  · exact h
  · exact ⟨h.toBaseOn.abandon.of_eq rfl rfl, nofun, nofun, h.simulated, h.connections⟩

/-- Other packets and answers, on the same connection. -/
theorem Inv.traffic {traffic : Traffic (List Char)} (hquiet : s.traffic.Quiet traffic)
    (hsettled : ∀ f, s.traffic.Settled f → traffic.Settled f)
    (hsent : traffic.linked = false → traffic.sent = []) :
    Inv cfg { s with traffic := traffic } := by
  refine ⟨⟨h.intact, fun f hf _ => hsettled f (h.settled f hf trivial),
    hquiet.lost.trans h.lost, ?_, hsent⟩, ?_, h.flag, h.simulated, h.connections⟩
  · intro hlinked
    rw [hquiet.session]
    exact h.session (hquiet.linked.symm.trans hlinked)
  · exact fun hlinked => h.idle (hquiet.linked.symm.trans hlinked)

/-- A connection that the broker accepts. -/
theorem agentConnect_spec (hidle : s.traffic.linked = false) (halive : s.alive = true)
    {env : Attempt} (hcareful : Careful cfg s (.attempt env)) (haccepted : env.accepted = true)
    {connected : Bool} (ht : s.agentConnect cfg env = some (connected, t)) :
    Base t ∧ t.isConnected = true
      ∧ (connected = false → t.traffic.sent = [])
      ∧ (t.alive = true → (cfg.cleanSession || t.forced) = true → t.cleanSession = true)
      ∧ (∀ held ∈ t.simulated, held = true)
      ∧ ∀ c ∈ t.connections, c.clean = (cfg.cleanSession || c.forced) := by
  obtain ⟨hforced, hrenew, hsimulate⟩ := hcareful haccepted
  have hsent : s.traffic.sent = [] := h.sent hidle
  let u : State := { s with
    traffic := s.traffic.connect s.cleanSession
    connections := { clean := s.cleanSession, forced := s.forced } :: s.connections
    forced := false }
  have hflag : (cfg.cleanSession || false) = true → s.cleanSession = true := by
    intro hclean
    rw [Bool.or_false] at hclean
    exact h.flag halive (by rw [hclean, Bool.true_or])
  have hconnections : ∀ c ∈ u.connections, c.clean = (cfg.cleanSession || c.forced) := by
    intro c hc
    rcases List.mem_cons.mp hc with rfl | hc
    · show s.cleanSession = (cfg.cleanSession || s.forced)
      rw [Bool.eq_iff_iff, Bool.or_eq_true]
      refine ⟨hforced, fun hor => h.flag halive ?_⟩
      rwa [Bool.or_eq_true]
    · exact h.connections c hc
  change (if s.traffic.present s.cleanSession = true then _ else _) = _ at ht
  split at ht
  · next hpresent =>
    have hu : Base u :=
      ⟨h.intact, fun f hf _ => (h.settled f hf trivial).connect hpresent, h.lost,
        fun _ => s.traffic.connect_session s.cleanSession, fun hx => by cases hx⟩
    split at ht
    · next hresumed =>
      cases Option.some.inj ht
      have hentries : ∀ e ∈ u.table.simulated, ∀ f ∈ e.filter.map Block.chars,
          u.traffic.Held f ∧ f ∉ u.traffic.failed ∧ f ∉ u.traffic.lost := by
        intro e he f hf
        have hmem : e ∈ s.table.snapshot := List.mem_of_mem_filter he
        rw [Table.snapshot, if_pos h.intact.mutex] at hmem
        exact hu.held rfl hsent (mem_filters.mpr ⟨e, hmem, hf⟩)
          (hsimulate hpresent hresumed e he f hf)
      obtain ⟨hsame, hheld⟩ := simulateSubacks_eq hentries h.simulated
      exact ⟨hu.of_eq rfl hsame, rfl, by simp, fun _ => hflag, hheld, hconnections⟩
    · cases Option.some.inj ht
      exact ⟨hu.of_eq rfl rfl, rfl, fun _ => hsent, fun _ => hflag, h.simulated, hconnections⟩
  · next hnew =>
    rw [Bool.not_eq_true] at hnew
    obtain ⟨v, hv, heq⟩ := Option.map_eq_some_iff.mp ht
    cases heq
    -- the new session holds nothing yet
    have hbase : BaseOn (Detached s) u := by
      refine ⟨h.intact, ?_, h.lost, fun _ => s.traffic.connect_session s.cleanSession,
        fun hx => by cases hx⟩
      intro f hf hdetached
      refine (h.settled f hf trivial).connect_new ?_ s.cleanSession
      rcases hdetached with hfailed | ⟨p, hp, op, rfl⟩
      · exact .inl hfailed
      · exact .inr ⟨op, hp⟩
    obtain ⟨hv, hframe⟩ := renew_spec hbase (hrenew hnew)
      (s.traffic.connect_session s.cleanSession) hsent hv
    refine ⟨hv.of_eq rfl rfl, rfl, by simp, ?_, ?_, ?_⟩
    · intro _ hor
      change (cfg.cleanSession || v.forced) = true at hor
      rw [hframe.forced] at hor
      exact hframe.cleanSession.trans (hflag hor)
    · show ∀ held ∈ v.simulated, _
      rw [hframe.simulated]
      exact h.simulated
    · show ∀ c ∈ v.connections, _
      rw [hframe.connections]
      exact hconnections

theorem Inv.attempt (hidle : s.traffic.linked = false) (halive : s.alive = true) {env : Attempt}
    (hcareful : Careful cfg s (.attempt env)) (ht : s.attempt cfg env = some t) : Inv cfg t := by
  rw [State.attempt] at ht
  split at ht
  · cases Option.some.inj ht
    exact h.exit
  · next haccepted =>
    rw [Bool.not_eq_true', Bool.not_eq_false] at haccepted
    obtain ⟨⟨connected, u⟩, hu, heq⟩ := Option.map_eq_some_iff.mp ht
    obtain ⟨hbase, hconnected, hsent, hflag, hheld, hlog⟩ :=
      agentConnect_spec h hidle halive hcareful haccepted hu
    cases connected with
    | true =>
      cases heq
      exact Inv.exit ⟨hbase.of_eq rfl rfl, fun _ => ⟨hconnected, rfl⟩, hflag, hheld, hlog⟩
    | false =>
      cases heq
      refine Inv.exit ⟨⟨hbase.intact, ?_, hbase.lost, nofun, fun _ => rfl⟩, nofun, hflag, hheld,
        hlog⟩
      exact fun f hf _ => (hbase.settled f hf trivial).cut (hsent rfl)

/-- The callers do not touch the connection. -/
theorem Inv.framed (hbase : Base t) (hframe : Frame s t) : Inv cfg t := by
  refine ⟨hbase, ?_, ?_, ?_, ?_⟩
  · rw [hframe.linked, hframe.isConnected, hframe.retrying]
    exact h.idle
  · rw [hframe.alive, hframe.forced, hframe.cleanSession]
    exact h.flag
  · rw [hframe.simulated]
    exact h.simulated
  · rw [hframe.connections]
    exact h.connections

/-- Other packets and answers while there is a connection. -/
theorem Inv.serving {traffic : Traffic (List Char)} (hlinked : s.traffic.linked = true)
    (hquiet : s.traffic.Quiet traffic) (hsettled : ∀ f, s.traffic.Settled f → traffic.Settled f) :
    Inv cfg { s with traffic := traffic } := by
  refine h.traffic hquiet hsettled ?_
  intro hnone
  rw [hquiet.linked, hlinked] at hnone
  cases hnone

/-- One careful step. -/
theorem Inv.step {a : Action} (hguard : Careful cfg s a)
    (hstep : CoreSession.step cfg s a = some t) : Inv cfg t := by
  cases a with
  | connect created =>
    rw [CoreSession.step] at hstep
    split at hstep
    · cases Option.some.inj hstep
      exact h
    · next halive =>
      rw [Bool.not_eq_true] at halive
      split at hstep
      · cases Option.some.inj hstep
        refine ⟨h.toBaseOn.of_eq rfl rfl, h.idle, ?_, h.simulated, h.connections⟩
        intro _ hor
        rcases (Bool.or_eq_true _ _).mp hor with hclean | hforced
        · exact hclean
        · exact hguard halive hforced
      · cases Option.some.inj hstep
        exact ⟨h.toBaseOn.of_eq rfl rfl, h.idle, h.flag, h.simulated, h.connections⟩
  | disconnect =>
    cases Option.some.inj hstep
    exact ⟨h.toBaseOn.of_eq rfl rfl, h.idle, h.flag, h.simulated, h.connections⟩
  | forceReconnect =>
    cases Option.some.inj hstep
    exact ⟨h.toBaseOn.of_eq rfl rfl, h.idle, fun _ _ => rfl, h.simulated, h.connections⟩
  | attempt env =>
    rw [CoreSession.step] at hstep
    split at hstep
    · next hready =>
      rw [Bool.and_eq_true, Bool.or_eq_true, Bool.not_eq_true'] at hready
      refine h.attempt ?_ hready.1 hguard hstep
      -- while there is a connection, the task is in the command loop
      by_contra hlinked
      rw [Bool.not_eq_false] at hlinked
      obtain ⟨hconnected, hretrying⟩ := h.idle hlinked
      rw [hconnected, hretrying] at hready
      rcases hready.2 with hor | hor
      · cases hor
      · cases hor
    · cases hstep
  | lose =>
    rw [CoreSession.step] at hstep
    split at hstep
    · cases Option.some.inj hstep
      exact Inv.exit ⟨h.toBaseOn.abandon.of_eq rfl rfl, nofun, h.flag, h.simulated, h.connections⟩
    · cases hstep
  | subscribe args env =>
    rw [CoreSession.step] at hstep
    split at hstep
    · next hnul =>
      obtain ⟨⟨status, u⟩, hu, rfl⟩ := Option.map_eq_some_iff.mp hstep
      obtain ⟨hbase, hframe⟩ := subscribe_spec h.toBaseOn (nulFree_chars hnul) hu
      exact h.framed (hbase.mono fun _ _ _ => .inl trivial) hframe
    · cases hstep
  | unsubscribe topic env =>
    rw [CoreSession.step] at hstep
    split at hstep
    · obtain ⟨⟨status, u⟩, hu, rfl⟩ := Option.map_eq_some_iff.mp hstep
      obtain ⟨hbase, hframe⟩ := unsubscribe_spec h.toBaseOn hu
      exact h.framed hbase hframe
    · cases hstep
  | transmit tracked =>
    rw [CoreSession.step] at hstep
    split at hstep
    · next hserving =>
      obtain ⟨traffic, htraffic, rfl⟩ := Option.map_eq_some_iff.mp hstep
      have hquiet := Traffic.transmit_quiet htraffic
      have hlinked : s.traffic.linked = true := (Bool.and_eq_true_iff.mp hserving).2
      cases tracked with
      | true => exact h.serving hlinked hquiet fun f hf => hf.transmit htraffic
      | false =>
        exact h.serving hlinked (hquiet.fail _) fun f hf => (hf.transmit htraffic).fail _ true
    · cases hstep
  | reject =>
    rw [CoreSession.step] at hstep
    split at hstep
    · obtain ⟨traffic, htraffic, rfl⟩ := Option.map_eq_some_iff.mp hstep
      obtain ⟨hquiet, hsent⟩ := Traffic.reject_quiet htraffic
      refine h.traffic hquiet (fun f hf => hf.reject htraffic) ?_
      intro hnone
      rw [hsent]
      exact h.sent (hquiet.linked.symm.trans hnone)
    · cases hstep
  | serve granted =>
    rw [CoreSession.step] at hstep
    split at hstep
    · next hlinked =>
      obtain ⟨traffic, htraffic, rfl⟩ := Option.map_eq_some_iff.mp hstep
      exact h.serving hlinked (Traffic.serve_quiet htraffic).1 fun f hf => hf.serve htraffic
    · cases hstep
  | answered answer =>
    rw [CoreSession.step] at hstep
    split at hstep
    · next hserving =>
      obtain ⟨traffic, htraffic, rfl⟩ := Option.map_eq_some_iff.mp hstep
      have hlinked : s.traffic.linked = true := (Bool.and_eq_true_iff.mp hserving).2
      exact h.serving hlinked (Traffic.answered_quiet htraffic).1 fun f hf => hf.answered htraffic
    · cases hstep
  | forget =>
    rw [CoreSession.step] at hstep
    obtain ⟨traffic, htraffic, rfl⟩ := Option.map_eq_some_iff.mp hstep
    have hsettled : ∀ f ∈ s.table.filters, True → traffic.Settled f :=
      fun f hf _ => (h.settled f hf trivial).forget htraffic
    obtain ⟨hlinked, rfl⟩ := Traffic.forget_eq_some htraffic
    refine ⟨⟨h.intact, hsettled, h.lost, ?_, h.sent⟩, h.idle, h.flag, h.simulated, h.connections⟩
    exact fun hlink => absurd (hlinked.symm.trans hlink) Bool.false_ne_true

end

theorem agrees_of_careful (hs : Reach Initial (step cfg) (Careful cfg) s) : Agrees cfg s := by
  have hinv : Inv cfg s :=
    hs.inv _ (fun _ => Inv.initial) fun _ _ _ h hguard hstep => h.step hguard hstep
  exact hinv.agrees

end RainMakerNeo.Mqtt.CoreSession
