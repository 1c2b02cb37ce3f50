import RainMakerNeo.Mqtt.CoreSession
import RainMakerNeo.Mqtt.EspChannels

/-!
# `RainMakerNeo.Mqtt.EspSession`: the session of the esp-mqtt backend

The esp-mqtt client runs the connection, and `osal_mqtt_esp_impl.c` reacts to its events. A SUBSCRIBE
is sent at once, and its entry is added to the table. `EspChannels` has the operations and the
handler of the acknowledgements. Here they meet the connections, and the session that the broker
keeps.

The handler of a connection looks after the entries only if the client has reported a disconnect
before, and a stop does not report one. A SUBSCRIBE that was under way when the connection ended is
not reported to anybody, and the next connection acknowledges its entry when the session goes on
(`sessions_disagree`). `Careful` keeps away from both.

`sessions_agree` is the result for this backend and the one of `CoreSession`.
-/

set_option autoImplicit false

namespace RainMakerNeo.Mqtt.EspSession

open RainMakerNeo.Lib

/-! ### The model -/

structure State where
  /-- The registry, `xIsConnected`, the subscription manager and the completions. -/
  chan : EspChannels.State
  /-- `xHasDisconnectOccurred`. -/
  hasDisconnectOccurred : Bool := false
  /-- The client is started. -/
  running : Bool := false
  /-- The network and the broker. -/
  traffic : Traffic (List Char) := {}
  /-- For each simulated acknowledgement, whether the session holds the filter. This does not exist
  in the code. -/
  simulated : List Bool := []

/-- What the client and the allocator answer inside `subscribe` and `unsubscribe`. -/
structure Answers where
  /-- The message id that the client returns. -/
  messageId : Int
  /-- The registry can allocate its entry. -/
  registered : Bool := true
  /-- The table can copy the filter. -/
  copied : Bool := true
  deriving DecidableEq, Repr

namespace State

variable (s : State)

/-- `subscribe`. The client has sent the packet when it gives an id, whatever comes after. -/
def subscribe (args : AddArgs) (env : Answers) : Option (EspChannels.Status × State) :=
  (EspChannels.subscribe s.chan args env.messageId env.registered env.copied).map
    fun (status, chan) =>
      (status, { s with
        chan := chan
        traffic :=
          if status = .ok then
            (s.traffic.note args.chars s.chan.nextOp).send
              (.subscribe args.chars s.chan.nextOp)
          else if chan.nextOp = s.chan.nextOp then s.traffic
          else s.traffic.send (.subscribe args.chars s.chan.nextOp) })

/-- `unsubscribe`. -/
def unsubscribe (channel : Option Channel) (topic : Option Slice) (env : Answers) :
    Option (EspChannels.Status × State) :=
  (EspChannels.unsubscribe s.chan channel topic env.messageId env.registered).map
    fun (status, chan) =>
      (status, { s with
        chan := chan
        traffic :=
          if chan.nextOp = s.chan.nextOp then s.traffic
          else
            s.traffic.send (.unsubscribe ((topic.map Slice.chars).getD []) s.chan.nextOp) })

/-- The two ways to begin a new session. -/
def renew (cfg : SessionConfig) (env : Element → Answers) : Option State :=
  if cfg.resubscribe then
    resubscribeAll (fun s args a => (s.subscribe args a).map Prod.snd) s.chan.table.snapshot env s
  else some { s with chan := { s.chan with table := s.chan.table.clear } }

/-- `MQTT_EVENT_CONNECTED`. -/
def onConnected (cfg : SessionConfig) (env : Element → Answers) : Option State :=
  let present := s.traffic.present cfg.cleanSession
  let s := { s with
    chan := { s.chan with connected := true }
    traffic := s.traffic.connect cfg.cleanSession }
  if s.hasDisconnectOccurred then
    let s := { s with hasDisconnectOccurred := false }
    if present then
      let r := simulateSubacks s.chan.table.simulated s.traffic s.simulated
      some { s with traffic := r.1, simulated := r.2 }
    else s.renew cfg env
  else some s

/-- `MQTT_EVENT_DISCONNECTED`. -/
def onDisconnected : State :=
  { s with chan := { s.chan with connected := false }, hasDisconnectOccurred := true }

/-- `disconnect` and `drop`. `reported` is whether the client raises `MQTT_EVENT_DISCONNECTED` when
it is stopped. -/
def disconnect (reported : Bool) : State :=
  if s.running then
    let s := { s with running := false, traffic := s.traffic.abandon false }
    if reported then s.onDisconnected else s
  else s

/-- `connect`. -/
def connect : State := { s with running := true }

/-- `force_reconnect`. -/
def forceReconnect (reported : Bool) : State :=
  if s.running then (s.disconnect reported).connect else s

/-- The answer to a message comes. The completion reaches the owner if it has its channel. -/
def acknowledge (a : Packet (List Char) × Bool) : Option State :=
  (s.chan.inFlight.find? fun m => m.op = a.1.op).bind fun m =>
    let chan := EspChannels.onAcknowledged
      { s.chan with inFlight := s.chan.inFlight.erase m } m (!a.2)
    (s.traffic.answered a (chan.posted.head?.map EspChannels.Completion.channel = some m.channel)).map
      fun traffic => { s with chan := chan, traffic := traffic }

end State

/-- What happens next. -/
inductive Action
  | connect
  | disconnect (reported : Bool)
  | forceReconnect (reported : Bool)
  /-- The client has connected. -/
  | connected (env : Element → Answers)
  /-- The connection is lost, or an attempt to connect fails. -/
  | lost
  | subscribe (args : AddArgs) (env : Answers)
  | unsubscribe (channel : Option Channel) (topic : Option Slice) (env : Answers)
  /-- The broker serves a packet. -/
  | serve (granted : Bool)
  | acknowledge (answer : Packet (List Char) × Bool)
  /-- The broker drops the session. -/
  | forget

/-- The client gives a message an id only while it is connected. -/
def Sends (s : State) (env : Answers) : Prop :=
  env.messageId = -1 ∨ env.messageId = -2 ∨ s.traffic.linked = true

instance (s : State) (env : Answers) : Decidable (Sends s env) :=
  inferInstanceAs (Decidable (_ ∨ _ ∨ _))

/-- The next step. -/
def step (cfg : SessionConfig) (s : State) : Action → Option State
  | .connect => some s.connect
  | .disconnect reported => some (s.disconnect reported)
  | .forceReconnect reported => some (s.forceReconnect reported)
  | .connected env =>
    if s.running && !s.traffic.linked then s.onConnected cfg env else none
  | .lost =>
    if s.running then some { s with traffic := s.traffic.abandon false }.onDisconnected else none
  | .subscribe args env =>
    if Sends s env ∧ CoreSession.nulFree args.filter then (s.subscribe args env).map Prod.snd
    else none
  | .unsubscribe channel topic env =>
    if Sends s env ∧ CoreSession.nulFree topic then (s.unsubscribe channel topic env).map Prod.snd
    else none
  | .serve granted =>
    if s.traffic.linked then
      (s.traffic.serve granted).map fun traffic => { s with traffic := traffic }
    else none
  | .acknowledge answer => if s.traffic.linked then s.acknowledge answer else none
  | .forget => s.traffic.forget.map fun traffic => { s with traffic := traffic }

/-- After `init`: an empty table, and a client that is not started. -/
def Initial (s : State) : Prop :=
  ∃ capacity session, s = {
    chan := { registry := [], connected := false, table := (Table.initial capacity).init true
              posted := [], inFlight := [], nextOp := 0 }
    traffic := { session := session } }

/-! ### The agreement -/

/-- **Agreement.** While the client is connected, each filter of the table is in the session of the
broker, or its SUBSCRIBE is in flight, or the failure of its last SUBSCRIBE was reported. A simulated
acknowledgement is for a filter of the session. -/
structure Agrees (s : State) : Prop where
  filters : s.chan.connected = true → s.traffic.linked = true → ∀ f ∈ s.chan.table.filters,
    s.traffic.Held f ∨ s.traffic.Waits f ∨ f ∈ s.traffic.failed
  simulated : ∀ held ∈ s.simulated, held = true

/-- The client fails with one of its two numbers, or it gives an id that no message waits for and
whose entry can be allocated. -/
def GoodAnswer (s : State) (env : Answers) : Prop :=
  EspChannels.CarefulAnswer env.messageId env.registered
    ∧ ∀ m ∈ s.chan.inFlight, m.messageId ≠ env.messageId

instance (s : State) (env : Answers) : Decidable (GoodAnswer s env) :=
  inferInstanceAs (Decidable (_ ∧ ∀ m ∈ s.chan.inFlight, m.messageId ≠ env.messageId))

/-- The answers are good when all entries are subscribed again. -/
def GoodAnswers : List Element → (Element → Answers) → State → Prop
  | [], _, _ => True
  | e :: entries, env, s =>
    GoodAnswer s (env e) ∧ ∀ r ∈ s.subscribe e.args (env e), GoodAnswers entries env r.2

instance : (entries : List Element) → (env : Element → Answers) → (s : State) →
    Decidable (GoodAnswers entries env s)
  | [], _, _ => .isTrue trivial
  | e :: entries, env, s =>
    have (r : EspChannels.Status × State) : Decidable (GoodAnswers entries env r.2) :=
      instDecidableGoodAnswers entries env r.2
    inferInstanceAs (Decidable (_ ∧ ∀ r ∈ s.subscribe e.args (env e), _))

/-- The client takes an entry for the filter. -/
def Retaken (entries : List Element) (env : Element → Answers) (f : List Char) : Prop :=
  ∃ e ∈ entries, e.args.chars = f ∧ 0 < (env e).messageId

instance (entries : List Element) (env : Element → Answers) (f : List Char) :
    Decidable (Retaken entries env f) := inferInstanceAs (Decidable (∃ e ∈ entries, _ ∧ _))

/-- The steps that keep the agreement. -/
def Careful (cfg : SessionConfig) (s : State) : Action → Prop
  | .connected env =>
    if s.traffic.present cfg.cleanSession then
      -- a session goes on with no entry whose SUBSCRIBE was under way when the connection ended,
      -- and no entry is acknowledged whose SUBSCRIBE has failed
      (∀ f ∈ s.chan.table.filters, f ∈ s.traffic.lost → f ∈ s.traffic.failed)
        ∧ (s.hasDisconnectOccurred = true → ∀ e ∈ s.chan.table.simulated,
          ∀ f ∈ e.filter.map Block.chars, f ∉ s.traffic.failed)
    else if s.hasDisconnectOccurred then
      -- the client takes each filter again, or its owner knows of a failure
      cfg.resubscribe = true →
        (∀ f ∈ s.chan.table.filters, f ∈ s.traffic.failed ∨ Retaken s.chan.table.snapshot env f)
        ∧ GoodAnswers s.chan.table.snapshot env
          { s with
            chan := { s.chan with connected := true }
            traffic := s.traffic.connect cfg.cleanSession
            hasDisconnectOccurred := false }
    -- a session begins without a look at the table
    else ∀ f ∈ s.chan.table.filters, f ∈ s.traffic.failed
  | .subscribe _ env | .unsubscribe _ _ env => GoodAnswer s env
  | .connect | .disconnect _ | .forceReconnect _ | .lost | .serve _ | .acknowledge _
  | .forget => True

instance (cfg : SessionConfig) (s : State) : (a : Action) → Decidable (Careful cfg s a)
  | .connected env => by
    unfold Careful
    infer_instance
  | .subscribe _ env | .unsubscribe _ _ env => inferInstanceAs (Decidable (GoodAnswer s env))
  | .connect | .disconnect _ | .forceReconnect _ | .lost | .serve _ | .acknowledge _
  | .forget => .isTrue trivial

/-! ### The operations -/

variable {cfg : SessionConfig} {s t : State}

/-- What holds between two steps, as far as the filters in `done` go. -/
structure InvOn (done : List Char → Prop) (s : State) : Prop where
  chan : EspChannels.Inv s.chan
  intact : s.chan.table.Intact
  settled : ∀ f ∈ s.chan.table.filters, done f → s.traffic.Settled f
  lost : s.traffic.linked = true → ∀ f ∈ s.chan.table.filters, done f → f ∈ s.traffic.lost →
    f ∈ s.traffic.failed
  session : s.traffic.linked = true → s.traffic.session.isSome = true
  sent : s.traffic.linked = false → s.traffic.sent = []
  queue : s.traffic.queue = []
  simulated : ∀ held ∈ s.simulated, held = true

/-- What holds between two steps. -/
abbrev Inv (s : State) : Prop := InvOn (fun _ => True) s

variable {kind : EspChannels.Kind} {topic : Option Slice} {channel : Option Channel}
  {messageId : Int} {update : Table → Option Table} {status : EspChannels.Status}
  {done : List Char → Prop} {env : Answers}

/-- An operation that the client has taken, with its entry in the registry. -/
theorem operate_ok {s t : EspChannels.State} {ok : Bool}
    (h : EspChannels.operate s kind topic channel messageId ok update = some (.ok, t)) :
    update s.table = some t.table ∧ t.nextOp = s.nextOp + 1 ∧ t.connected = s.connected
      ∧ (messageId ≠ -1 ∧ messageId ≠ -2) ∧ ∃ slice, topic = some slice ∧ slice.chars ≠ [] := by
  rw [EspChannels.operate] at h
  split at h
  · cases h
  · next htopic =>
    split at h
    · cases h
    · split at h
      · cases h
      · next hfailed =>
        split at h
        · cases h
        · next hfull =>
          cases ok with
          | false => cases h
          | true =>
            obtain ⟨table, htable, heq⟩ := Option.map_eq_some_iff.mp h
            obtain ⟨-, rfl⟩ := Prod.mk.inj heq
            refine ⟨htable, rfl, rfl, ⟨hfailed, hfull⟩, ?_⟩
            cases topic with
            | none => exact absurd rfl htopic
            | some slice => exact ⟨slice, rfl, by simpa using htopic⟩

/-- With a good answer, an operation changes nothing or it is registered. -/
theorem operate_good {s t : EspChannels.State} {ok : Bool} (h : EspChannels.Inv s)
    (hcareful : EspChannels.CarefulAnswer messageId ok)
    (hfresh : ∀ m ∈ s.inFlight, m.messageId ≠ messageId)
    (hop : EspChannels.operate s kind topic channel messageId ok update = some (status, t)) :
    EspChannels.Inv t ∧ (status ≠ .ok ∧ t = s ∨ status = .ok) := by
  cases EspChannels.operate_ends hop with
  | refused hstatus => exact ⟨h, .inl ⟨hstatus, rfl⟩⟩
  | unregistered hno hok =>
    rcases hcareful with heq | heq | hpos
    · exact absurd heq hno.1
    · exact absurd heq hno.2
    · rw [hok] at hpos
      cases hpos.2
  | registered table hno hok =>
    have hpos : 0 < messageId := by
      rcases hcareful with heq | heq | hpos
      · exact absurd heq hno.1
      · exact absurd heq hno.2
      · exact hpos.1
    exact ⟨h.register hpos hfresh table, .inr rfl⟩

/-- While it is connected, the client refuses a text with a good answer only if it is empty. -/
theorem operate_status {s t : EspChannels.State} {slice : Slice} (hslice : slice.chars ≠ [])
    (hconnected : s.connected = true) (hpos : 0 < messageId)
    (hop : EspChannels.operate s kind (some slice) channel messageId true update
      = some (status, t)) : status = .ok := by
  have hid : messageId ≠ -1 ∧ messageId ≠ -2 := by omega
  rw [EspChannels.operate, if_neg (by simpa using hslice), if_neg (by rw [hconnected]; decide),
    if_neg hid.1, if_neg hid.2] at hop
  obtain ⟨table, -, heq⟩ := Option.map_eq_some_iff.mp hop
  exact (Prod.mk.inj heq).1.symm

/-- A SUBSCRIBE that the client takes settles its filter. -/
theorem subscribe_spec (h : InvOn done s) {args : AddArgs} (hnul : nul ∉ args.chars)
    (hgood : GoodAnswer s env) (hsends : Sends s env)
    (hsubscribe : s.subscribe args env = some (status, t)) :
    InvOn (fun f => done f ∨ status = .ok ∧ f = args.chars) t
      ∧ t.chan.connected = s.chan.connected ∧ t.traffic.linked = s.traffic.linked
      ∧ ∀ f ∈ t.chan.table.filters, f ∈ s.chan.table.filters ∨ f = args.chars := by
  obtain ⟨⟨status', chan⟩, hop, heq⟩ := Option.map_eq_some_iff.mp hsubscribe
  cases heq
  obtain ⟨hchan, ⟨hstatus, rfl⟩ | rfl⟩ := operate_good h.chan hgood.1 hgood.2 hop
  · dsimp only
    rw [if_neg hstatus, if_pos rfl]
    refine ⟨⟨h.chan, h.intact, ?_, ?_, h.session, h.sent, h.queue, h.simulated⟩, rfl, rfl,
      fun f hf => .inl hf⟩
    · intro f hf hdone
      exact h.settled f hf (hdone.resolve_right fun hor => hstatus hor.1)
    · intro hlinked f hf hdone
      exact h.lost hlinked f hf (hdone.resolve_right fun hor => hstatus hor.1)
  · obtain ⟨hupdate, -, hconnected, hid, -⟩ := operate_ok hop
    obtain ⟨⟨r, table⟩, hadd, htable⟩ := Option.map_eq_some_iff.mp hupdate
    cases htable
    obtain ⟨hintact, hfilters, -⟩ := h.intact.add hnul hadd
    have hlinked : s.traffic.linked = true := by
      rcases hsends with heq | heq | hlinked
      · exact absurd heq hid.1
      · exact absurd heq hid.2
      · exact hlinked
    have hold : ∀ f ∈ chan.table.filters, f ≠ args.chars → f ∈ s.chan.table.filters :=
      fun f hf hne => (hfilters f hf).resolve_right fun hor => hne hor.2
    dsimp only
    rw [if_pos rfl]
    refine ⟨⟨hchan, hintact, ?_, ?_, h.session, ?_, h.queue, h.simulated⟩, hconnected, rfl, ?_⟩
    · intro f hf hdone
      by_cases heq : f = args.chars
      · rw [heq]
        exact .send_self s.traffic h.queue args.chars s.chan.nextOp
      · have hdone' : done f := hdone.resolve_right fun hor => heq hor.2
        exact (h.settled f (hold f hf heq) hdone').send h.queue heq s.chan.nextOp
    · intro _ f hf hdone hlost
      obtain ⟨hlost, hne⟩ := List.mem_filter.mp hlost
      have heq : f ≠ args.chars := of_decide_eq_true hne
      have hdone' : done f := hdone.resolve_right fun hor => heq hor.2
      exact List.mem_filter.mpr ⟨h.lost hlinked f (hold f hf heq) hdone' hlost, hne⟩
    · intro hnone
      exact absurd (hlinked.symm.trans hnone) Bool.noConfusion
    · intro f hf
      by_cases heq : f = args.chars
      · exact .inr heq
      · exact .inl (hold f hf heq)

theorem unsubscribe_spec (h : Inv s) (hgood : GoodAnswer s env) (hsends : Sends s env)
    (hunsubscribe : s.unsubscribe channel topic env = some (status, t)) : Inv t := by
  obtain ⟨⟨status', chan⟩, hop, heq⟩ := Option.map_eq_some_iff.mp hunsubscribe
  cases heq
  obtain ⟨hchan, ⟨hstatus, rfl⟩ | rfl⟩ := operate_good h.chan hgood.1 hgood.2 hop
  · rw [if_pos rfl]
    exact h
  · obtain ⟨hremove, hnext, -, hid, slice, rfl, hslice⟩ := operate_ok hop
    obtain ⟨hintact, hfilters⟩ := h.intact.remove hslice hremove
    have hlinked : s.traffic.linked = true := by
      rcases hsends with heq | heq | hlinked
      · exact absurd heq hid.1
      · exact absurd heq hid.2
      · exact hlinked
    rw [if_neg (by omega)]
    refine ⟨hchan, hintact, ?_, ?_, h.session, ?_, h.queue, h.simulated⟩
    · intro f hf _
      obtain ⟨hold, hne⟩ := hfilters f hf
      exact (h.settled f hold trivial).send_unsubscribe h.queue hne s.chan.nextOp
    · intro _ f hf _ hlost
      exact h.lost hlinked f (hfilters f hf).1 trivial hlost
    · intro hnone
      exact absurd (hlinked.symm.trans hnone) Bool.noConfusion

theorem InvOn.mono {done' : List Char → Prop} (h : InvOn done s)
    (hdone : ∀ f ∈ s.chan.table.filters, done' f → done f) : InvOn done' s :=
  ⟨h.chan, h.intact, fun f hf hd => h.settled f hf (hdone f hf hd),
    fun hlinked f hf hd => h.lost hlinked f hf (hdone f hf hd), h.session, h.sent, h.queue,
    h.simulated⟩

/-- While it is connected, the client takes a text with a good answer. -/
theorem subscribe_status {args : AddArgs} (hchars : args.chars ≠ [])
    (hconnected : s.chan.connected = true) (hpos : 0 < env.messageId) (hgood : GoodAnswer s env)
    (hsubscribe : s.subscribe args env = some (status, t)) : status = .ok := by
  obtain ⟨⟨status', chan⟩, hop, heq⟩ := Option.map_eq_some_iff.mp hsubscribe
  cases heq
  have hregistered : env.registered = true := by
    rcases hgood.1 with heq | heq | hand
    · omega
    · omega
    · exact hand.2
  rw [EspChannels.subscribe, hregistered] at hop
  cases hfilter : args.filter with
  | none =>
    rw [AddArgs.chars, hfilter] at hchars
    exact absurd rfl hchars
  | some slice =>
    rw [AddArgs.chars, hfilter] at hchars
    rw [hfilter] at hop
    exact operate_status hchars hconnected hpos hop

/-- The loop settles the filters of the entries that the client takes. -/
theorem resubscribeAll_spec {entries : List Element} {env : Element → Answers} (h : InvOn done s)
    (hconnected : s.chan.connected = true) (hlinked : s.traffic.linked = true)
    (hargs : ∀ e ∈ entries, nul ∉ e.args.chars) (hgood : GoodAnswers entries env s)
    (ht : resubscribeAll (fun s args a => (State.subscribe s args a).map Prod.snd) entries env s
      = some t) :
    InvOn (fun f => done f ∨ f ≠ [] ∧ Retaken entries env f) t
      ∧ ∀ f ∈ t.chan.table.filters, f ∈ s.chan.table.filters
        ∨ ∃ e ∈ entries, e.args.chars = f := by
  induction entries generalizing s done with
  | nil =>
    cases Option.some.inj ht
    refine ⟨h.mono ?_, fun f hf => .inl hf⟩
    rintro f - (hdone | ⟨-, e, he, -⟩)
    · exact hdone
    · cases he
  | cons e entries ih =>
    obtain ⟨hanswer, hrest⟩ := hgood
    rw [resubscribeAll] at ht
    obtain ⟨u, hu, ht⟩ := Option.bind_eq_some_iff.mp ht
    obtain ⟨⟨status, u'⟩, hsubscribe, rfl⟩ := Option.map_eq_some_iff.mp hu
    obtain ⟨hinv, hconnected', hlinked', hfilters⟩ :=
      subscribe_spec h (hargs e List.mem_cons_self) hanswer (.inr (.inr hlinked)) hsubscribe
    obtain ⟨hinv', hfilters'⟩ := ih hinv (hconnected'.trans hconnected) (hlinked'.trans hlinked)
      (fun x hx => hargs x (List.mem_cons_of_mem e hx)) (hrest _ hsubscribe) ht
    constructor
    · refine hinv'.mono ?_
      rintro f - (hdone | ⟨hne, x, hx, rfl, hpos⟩)
      · exact .inl (.inl hdone)
      · rcases List.mem_cons.mp hx with rfl | hx
        · exact .inl (.inr ⟨subscribe_status hne hconnected hpos hanswer hsubscribe, rfl⟩)
        · exact .inr ⟨hne, x, hx, rfl, hpos⟩
    · intro f hf
      rcases hfilters' f hf with hf | ⟨x, hx, heq⟩
      · rcases hfilters f hf with hf | rfl
        · exact .inl hf
        · exact .inr ⟨e, List.mem_cons_self, rfl⟩
      · exact .inr ⟨x, List.mem_cons_of_mem e hx, heq⟩

/-! ### The connections -/

theorem chan_connected (h : InvOn done s) : EspChannels.Inv { s.chan with connected := true } :=
  ⟨h.chan.entries, h.chan.ids, h.chan.operations, h.chan.fresh, h.chan.own, h.chan.registered⟩

/-- Only the channels, the packets and the log matter. -/
theorem InvOn.of_eq (h : InvOn done s) (hchan : t.chan = s.chan)
    (htraffic : t.traffic = s.traffic) (hlog : ∀ held ∈ t.simulated, held = true) :
    InvOn done t := by
  refine ⟨?_, ?_, ?_, ?_, ?_, ?_, ?_, hlog⟩
  · rw [hchan]
    exact h.chan
  · rw [hchan]
    exact h.intact
  · rw [hchan, htraffic]
    exact h.settled
  · rw [hchan, htraffic]
    exact h.lost
  · rw [htraffic]
    exact h.session
  · rw [htraffic]
    exact h.sent
  · rw [htraffic]
    exact h.queue

section
variable (h : Inv s)
include h

/-- The session goes on. -/
theorem Inv.resumed (hpresent : s.traffic.present cfg.cleanSession = true)
    (hlost : ∀ f ∈ s.chan.table.filters, f ∈ s.traffic.lost → f ∈ s.traffic.failed) :
    Inv { s with
      chan := { s.chan with connected := true }
      traffic := s.traffic.connect cfg.cleanSession } :=
  ⟨chan_connected h, h.intact, fun f hf _ => (h.settled f hf trivial).connect hpresent,
    fun _ f hf _ => hlost f hf, fun _ => s.traffic.connect_session cfg.cleanSession,
    (fun hx => by cases hx), h.queue, h.simulated⟩

/-- While nothing is sent or queued, the session holds the filters without a failure. -/
theorem Inv.held (hlinked : s.traffic.linked = true) (hsent : s.traffic.sent = []) {f : List Char}
    (hfilter : f ∈ s.chan.table.filters) (hfailed : f ∉ s.traffic.failed) :
    s.traffic.Held f ∧ f ∉ s.traffic.failed ∧ f ∉ s.traffic.lost := by
  have hlost : f ∉ s.traffic.lost :=
    fun hlost => hfailed (h.lost hlinked f hfilter trivial hlost)
  refine ⟨?_, hfailed, hlost⟩
  rcases (h.settled f hfilter trivial).spec (h.session hlinked) with hheld | ⟨p, hp, -⟩ | hf | hf
  · exact hheld
  · rw [hsent, h.queue] at hp
    cases hp
  · exact absurd hf hfailed
  · exact absurd hf hlost

/-- A new session, where the client looks at the table. -/
theorem renew_inv {env : Element → Answers}
    (hcareful : cfg.resubscribe = true →
      (∀ f ∈ s.chan.table.filters, f ∈ s.traffic.failed ∨ Retaken s.chan.table.snapshot env f)
        ∧ GoodAnswers s.chan.table.snapshot env
          { s with
            chan := { s.chan with connected := true }
            traffic := s.traffic.connect cfg.cleanSession
            hasDisconnectOccurred := false })
    (ht : State.renew { s with
      chan := { s.chan with connected := true }
      traffic := s.traffic.connect cfg.cleanSession
      hasDisconnectOccurred := false } cfg env = some t) : Inv t := by
  have hsession := s.traffic.connect_session cfg.cleanSession
  rw [State.renew] at ht
  split at ht
  · next hresubscribe =>
    obtain ⟨hretaken, hgood⟩ := hcareful hresubscribe
    have hv : InvOn (· ∈ s.traffic.failed) { s with
        chan := { s.chan with connected := true }
        traffic := s.traffic.connect cfg.cleanSession
        hasDisconnectOccurred := false } :=
      ⟨chan_connected h, h.intact, fun _ _ hfailed => .failed hfailed,
        fun _ _ _ hfailed _ => hfailed, fun _ => hsession, (fun hx => by cases hx), h.queue,
        h.simulated⟩
    obtain ⟨hinv, hfilters⟩ := resubscribeAll_spec hv rfl rfl
      (fun e he => (h.intact.args he).1) hgood ht
    refine hinv.mono ?_
    intro f hf _
    -- the table has no other filter after the loop
    have hold : f ∈ s.chan.table.filters := by
      rcases hfilters f hf with hf | ⟨e, he, rfl⟩
      · exact hf
      · exact mem_filters_args h.intact he (hinv.intact.exists_snapshot hf).1
    rcases hretaken f hold with hfailed | htaken
    · exact .inl hfailed
    · exact .inr ⟨(h.intact.exists_snapshot hold).1, htaken⟩
  · cases Option.some.inj ht
    obtain ⟨hintact, hnone⟩ := h.intact.clear
    have hempty : ∀ f ∈ s.chan.table.clear.filters, False := by
      rw [hnone]
      simp
    exact ⟨⟨h.chan.entries, h.chan.ids, h.chan.operations, h.chan.fresh, h.chan.own,
      h.chan.registered⟩, hintact, fun f hf => (hempty f hf).elim,
      fun _ f hf => (hempty f hf).elim, fun _ => hsession, (fun hx => by cases hx), h.queue,
      h.simulated⟩

theorem onConnected_inv (hidle : s.traffic.linked = false) {env : Element → Answers}
    (hcareful : Careful cfg s (.connected env)) (ht : s.onConnected cfg env = some t) : Inv t := by
  have hsent : s.traffic.sent = [] := h.sent hidle
  rw [State.onConnected] at ht
  rw [Careful] at hcareful
  by_cases hpresent : s.traffic.present cfg.cleanSession = true
  · rw [if_pos hpresent] at hcareful
    have hu := h.resumed hpresent hcareful.1
    dsimp only at ht
    split at ht
    · next hoccurred =>
      cases Option.some.inj ht
      have hentries : ∀ e ∈ s.chan.table.simulated, ∀ f ∈ e.filter.map Block.chars,
          (s.traffic.connect cfg.cleanSession).Held f
            ∧ f ∉ (s.traffic.connect cfg.cleanSession).failed
            ∧ f ∉ (s.traffic.connect cfg.cleanSession).lost := by
        intro e he f hf
        have hmem : e ∈ s.chan.table.snapshot := List.mem_of_mem_filter he
        rw [Table.snapshot, if_pos h.intact.mutex] at hmem
        exact hu.held rfl hsent (mem_filters.mpr ⟨e, hmem, hf⟩) (hcareful.2 hoccurred e he f hf)
      obtain ⟨hsame, hheld⟩ := simulateSubacks_eq hentries h.simulated
      exact hu.of_eq rfl hsame hheld
    · cases Option.some.inj ht
      exact hu
  · rw [if_neg hpresent] at hcareful
    dsimp only at ht
    split at ht
    · next hoccurred =>
      rw [if_pos hoccurred] at hcareful
      exact renew_inv h hcareful ht
    · next hnone =>
      rw [if_neg hnone] at hcareful
      cases Option.some.inj ht
      exact ⟨chan_connected h, h.intact, fun f hf _ => .failed (hcareful f hf),
        fun _ f hf _ _ => hcareful f hf, fun _ => s.traffic.connect_session cfg.cleanSession,
        (fun hx => by cases hx), h.queue, h.simulated⟩

/-- The connection ends. -/
theorem Inv.abandon : Inv { s with traffic := s.traffic.abandon false } :=
  ⟨h.chan, h.intact, fun f hf _ => (h.settled f hf trivial).abandon false, nofun, nofun,
    fun _ => rfl, rfl, h.simulated⟩

theorem Inv.onDisconnected : Inv s.onDisconnected :=
  ⟨⟨h.chan.entries, h.chan.ids, h.chan.operations, h.chan.fresh, h.chan.own, h.chan.registered⟩,
    h.intact, h.settled, h.lost, h.session, h.sent, h.queue, h.simulated⟩

theorem Inv.disconnect (reported : Bool) : Inv (s.disconnect reported) := by
  rw [State.disconnect]
  split
  · have hend : Inv { s with running := false, traffic := s.traffic.abandon false } := by
      exact h.abandon.of_eq rfl rfl h.simulated
    dsimp only
    split
    · exact hend.onDisconnected
    · exact hend
  · exact h

theorem Inv.connect : Inv s.connect := h.of_eq rfl rfl h.simulated

end

/-- An acknowledgement posts a completion for its message, and leaves the table alone. -/
theorem onAcknowledged_spec (s : EspChannels.State) (m : EspChannels.Message) (failed : Bool) :
    (EspChannels.onAcknowledged s m failed).table = s.table
      ∧ ∃ c, (EspChannels.onAcknowledged s m failed).posted = c :: s.posted ∧ c.message = m := by
  rw [EspChannels.onAcknowledged]
  generalize (if m.kind = .subscribe ∧ failed = true then EspChannels.Status.sendFailed else .ok)
    = status
  cases hfound : EspChannels.getChannel s.registry m.messageId with
  | some found => exact ⟨rfl, _, rfl, rfl⟩
  | none => exact ⟨rfl, _, rfl, rfl⟩

/-- The completion of a registered message reaches its owner. -/
theorem Inv.acknowledge (h : Inv s) (hlinked : s.traffic.linked = true)
    {a : Packet (List Char) × Bool} (ht : s.acknowledge a = some t) : Inv t := by
  rw [State.acknowledge] at ht
  obtain ⟨m, hm, ht⟩ := Option.bind_eq_some_iff.mp ht
  obtain ⟨traffic, htraffic, rfl⟩ := Option.map_eq_some_iff.mp ht
  have hchan := h.chan.acknowledged (List.mem_of_find?_eq_some hm) (!a.2)
  obtain ⟨htable, c, hposted, hmessage⟩ :=
    onAcknowledged_spec { s.chan with inFlight := s.chan.inFlight.erase m } m (!a.2)
  have howner : c.channel = m.channel := by
    have hown := (hchan.own c (by rw [hposted]; exact List.mem_cons_self)).1
    rwa [hmessage] at hown
  rw [hposted, List.head?_cons, Option.map_some, howner, decide_eq_true rfl] at htraffic
  obtain ⟨hquiet, hqueue⟩ := Traffic.answered_quiet htraffic
  refine ⟨hchan, ?_, ?_, ?_, ?_, ?_, hqueue.trans h.queue, h.simulated⟩
  · rw [htable]
    exact h.intact
  · rw [htable]
    exact fun f hf _ => (h.settled f hf trivial).answered htraffic
  · rw [htable]
    intro _ f hf _ hlost
    rw [hquiet.lost] at hlost
    exact hquiet.failed f (h.lost hlinked f hf trivial hlost)
  · intro _
    rw [hquiet.session]
    exact h.session hlinked
  · intro hnone
    rw [hquiet.linked, hlinked] at hnone
    cases hnone

/-- One careful step. -/
theorem Inv.step {a : Action} (h : Inv s) (hguard : Careful cfg s a)
    (hstep : EspSession.step cfg s a = some t) : Inv t := by
  cases a with
  | connect =>
    cases Option.some.inj hstep
    exact h.connect
  | disconnect reported =>
    cases Option.some.inj hstep
    exact h.disconnect reported
  | forceReconnect reported =>
    cases Option.some.inj hstep
    rw [State.forceReconnect]
    split
    · exact (h.disconnect reported).connect
    · exact h
  | connected env =>
    rw [EspSession.step] at hstep
    split at hstep
    · next hready =>
      rw [Bool.and_eq_true, Bool.not_eq_true'] at hready
      exact onConnected_inv h hready.2 hguard hstep
    · cases hstep
  | lost =>
    rw [EspSession.step] at hstep
    split at hstep
    · cases Option.some.inj hstep
      exact h.abandon.onDisconnected
    · cases hstep
  | subscribe args env =>
    rw [EspSession.step] at hstep
    split at hstep
    · next hready =>
      obtain ⟨⟨status, u⟩, hsubscribe, rfl⟩ := Option.map_eq_some_iff.mp hstep
      obtain ⟨hinv, -⟩ := subscribe_spec h (CoreSession.nulFree_chars hready.2) hguard hready.1
        hsubscribe
      exact hinv.mono fun _ _ _ => .inl trivial
    · cases hstep
  | unsubscribe channel topic env =>
    rw [EspSession.step] at hstep
    split at hstep
    · next hready =>
      obtain ⟨⟨status, u⟩, hunsubscribe, rfl⟩ := Option.map_eq_some_iff.mp hstep
      exact unsubscribe_spec h hguard hready.1 hunsubscribe
    · cases hstep
  | serve granted =>
    rw [EspSession.step] at hstep
    split at hstep
    · next hlinked =>
      obtain ⟨traffic, htraffic, rfl⟩ := Option.map_eq_some_iff.mp hstep
      obtain ⟨hquiet, hqueue⟩ := Traffic.serve_quiet htraffic
      refine ⟨h.chan, h.intact, fun f hf _ => (h.settled f hf trivial).serve htraffic, ?_, ?_, ?_,
        hqueue.trans h.queue, h.simulated⟩
      · intro _ f hf _ hlost
        rw [hquiet.lost] at hlost
        exact hquiet.failed f (h.lost hlinked f hf trivial hlost)
      · intro _
        rw [hquiet.session]
        exact h.session hlinked
      · intro hnone
        rw [hquiet.linked, hlinked] at hnone
        cases hnone
    · cases hstep
  | acknowledge answer =>
    rw [EspSession.step] at hstep
    split at hstep
    · next hlinked => exact h.acknowledge hlinked hstep
    · cases hstep
  | forget =>
    rw [EspSession.step] at hstep
    obtain ⟨traffic, htraffic, rfl⟩ := Option.map_eq_some_iff.mp hstep
    have hsettled : ∀ f ∈ s.chan.table.filters, True → traffic.Settled f :=
      fun f hf _ => (h.settled f hf trivial).forget htraffic
    obtain ⟨hlinked, rfl⟩ := Traffic.forget_eq_some htraffic
    refine ⟨h.chan, h.intact, hsettled, h.lost, ?_, h.sent, h.queue, h.simulated⟩
    exact fun hlink => absurd (hlinked.symm.trans hlink) Bool.false_ne_true

theorem Inv.initial (h : Initial s) : Inv s := by
  obtain ⟨capacity, session, rfl⟩ := h
  have hentries : ((Table.initial capacity).init true).entries = [] :=
    filter_zeroSlots (Table.initial capacity).slots
  have hnone : ∀ f ∈ ((Table.initial capacity).init true).filters, False := by
    rw [Table.filters, hentries]
    simp
  refine ⟨.of_initial ⟨rfl, rfl, rfl, rfl⟩, ⟨rfl, ?_, ?_⟩, fun f hf => (hnone f hf).elim, by simp,
    by simp, fun _ => rfl, rfl, by simp⟩
  · rw [hentries]
    simp
  · rw [hentries]
    simp

theorem Inv.agrees (h : Inv s) : Agrees s := by
  refine ⟨?_, h.simulated⟩
  intro _ hlinked f hf
  rcases (h.settled f hf trivial).spec (h.session hlinked) with hheld | hwaits | hfailed | hlost
  · exact .inl hheld
  · exact .inr (.inl hwaits)
  · exact .inr (.inr hfailed)
  · exact .inr (.inr (h.lost hlinked f hf trivial hlost))

/-- **Sessions.** For both backends, the session of the broker and the table agree in every state
of a run whose steps are careful. -/
theorem sessions_agree {core : CoreSession.State} {esp : State}
    (hcore : Reach CoreSession.Initial (CoreSession.step cfg) (CoreSession.Careful cfg) core)
    (hesp : Reach Initial (step cfg) (Careful cfg) esp) :
    CoreSession.Agrees cfg core ∧ Agrees esp := by
  refine ⟨CoreSession.agrees_of_careful hcore, ?_⟩
  have hinv : Inv esp :=
    hesp.inv _ (fun _ => Inv.initial) fun _ _ _ h hguard hstep => h.step hguard hstep
  exact hinv.agrees

/-! ### Samples -/

/-- Sessions survive, or each connection begins a new one. -/
def persistent : SessionConfig := { cleanSession := false, resubscribe := true }
def cleanSessions : SessionConfig := { cleanSession := true, resubscribe := true }

/-- After `init`, with a table of four. -/
def initialCore : CoreSession.State := { table := (Table.initial 4).init true }
def initialEsp : State where
  chan := { registry := [], connected := false, table := (Table.initial 4).init true
            posted := [], inFlight := [], nextOp := 0 }

theorem initialCore_initial : CoreSession.Initial initialCore := ⟨4, none, rfl⟩

theorem initialEsp_initial : Initial initialEsp := ⟨4, none, rfl⟩

/-- A client that gives the same id to each packet. -/
def answerWith (messageId : Int) : Element → Answers := fun _ => { messageId := messageId }

/-- The first connection, and a subscription that the broker answers. -/
def coreSubscribed (granted : Bool) : List CoreSession.Action :=
  [.connect true, .attempt {}, .subscribe sampleArgs {}, .transmit true, .serve granted,
    .answered (.subscribe sampleArgs.chars 1, granted)]
def espSubscribed : List Action :=
  [.connect, .connected (answerWith (-1)), .subscribe sampleArgs { messageId := 5 }]
def espGranted : List Action :=
  espSubscribed ++ [.serve true, .acknowledge (.subscribe sampleArgs.chars 0, true)]

/-- The connection is lost. Over coreMQTT the session goes on, and over esp-mqtt the broker has
dropped it. -/
theorem sessions_agree_sample : ∃ core esp,
    exec (CoreSession.step persistent) initialCore (coreSubscribed true ++ [.lose, .attempt {}])
      = some core
    ∧ exec (step persistent) initialEsp
        (espGranted ++ [.lost, .forget, .connected (answerWith 6)]) = some esp
    ∧ core.simulated = [true] ∧ esp.traffic.Waits sampleArgs.chars
    ∧ CoreSession.Agrees persistent core ∧ Agrees esp := by
  have hcore : Reach CoreSession.Initial (CoreSession.step persistent)
      (CoreSession.Careful persistent) _ :=
    Reach.exec (coreSubscribed true ++ [.lose, .attempt {}]) (.start initialCore_initial)
      (by decide +kernel) rfl
  have hesp : Reach Initial (step persistent) (Careful persistent) _ :=
    Reach.exec (espGranted ++ [.lost, .forget, .connected (answerWith 6)])
      (.start initialEsp_initial) (by decide +kernel) rfl
  exact ⟨_, _, rfl, rfl, rfl, by decide +kernel, sessions_agree hcore hesp⟩

/-- **Disagreement.** Over coreMQTT a clean connection loses the subscriptions, a refused filter is
acknowledged when the session goes on, and a forced connection makes the ones behind it clean. Over
esp-mqtt a connection after a quiet stop loses the subscriptions, and a filter is acknowledged whose
SUBSCRIBE got lost. -/
theorem sessions_disagree :
    (∃ s, Reach CoreSession.Initial (CoreSession.step cleanSessions) (fun _ _ => True) s
      ∧ s.isConnected = true ∧ s.traffic.linked = true ∧ sampleArgs.chars ∈ s.table.filters
      ∧ ¬s.traffic.Held sampleArgs.chars ∧ ¬s.traffic.Waits sampleArgs.chars
      ∧ sampleArgs.chars ∉ s.traffic.failed ∧ ¬CoreSession.Agrees cleanSessions s)
    ∧ (∃ s, Reach CoreSession.Initial (CoreSession.step persistent) (fun _ _ => True) s
      ∧ s.simulated = [false] ∧ ¬CoreSession.Agrees persistent s)
    ∧ (∃ s, Reach CoreSession.Initial (CoreSession.step persistent) (fun _ _ => True) s
      ∧ s.connections = [⟨true, false⟩, ⟨true, true⟩, ⟨false, false⟩]
      ∧ ¬CoreSession.Agrees persistent s)
    ∧ (∃ s, Reach Initial (step cleanSessions) (fun _ _ => True) s
      ∧ s.chan.connected = true ∧ s.traffic.linked = true
      ∧ sampleArgs.chars ∈ s.chan.table.filters ∧ ¬s.traffic.Held sampleArgs.chars
      ∧ ¬s.traffic.Waits sampleArgs.chars ∧ sampleArgs.chars ∉ s.traffic.failed ∧ ¬Agrees s)
    ∧ ∃ s, Reach Initial (step persistent) (fun _ _ => True) s
      ∧ s.simulated = [false] ∧ ¬Agrees s := by
  refine ⟨⟨_, Reach.exec_true (coreSubscribed true ++ [.lose, .attempt {}])
      (.start initialCore_initial) rfl, rfl, rfl, by decide +kernel, by decide +kernel,
      by decide +kernel, by decide +kernel, ?_⟩,
    ⟨_, Reach.exec_true (coreSubscribed false ++ [.lose, .attempt {}])
      (.start initialCore_initial) rfl, rfl, ?_⟩,
    ⟨_, Reach.exec_true [.connect true, .attempt {}, .forceReconnect, .lose, .attempt {}, .lose,
      .attempt {}] (.start initialCore_initial) rfl, rfl, ?_⟩,
    ⟨_, Reach.exec_true (espGranted ++ [.disconnect false, .connect, .connected (answerWith 6)])
      (.start initialEsp_initial) rfl, rfl, rfl, by decide +kernel, by decide +kernel,
      by decide +kernel, by decide +kernel, ?_⟩,
    ⟨_, Reach.exec_true (espSubscribed ++ [.lost, .connected (answerWith 6)])
      (.start initialEsp_initial) rfl, rfl, ?_⟩⟩
  · intro h
    exact absurd (h.filters rfl rfl sampleArgs.chars (by decide +kernel)) (by decide +kernel)
  · intro h
    exact absurd (h.simulated false (by decide +kernel)) Bool.false_ne_true
  · intro h
    exact absurd (h.connections ⟨true, false⟩ (by decide +kernel)) (by decide +kernel)
  · intro h
    exact absurd (h.filters rfl rfl sampleArgs.chars (by decide +kernel)) (by decide +kernel)
  · intro h
    exact absurd (h.simulated false (by decide +kernel)) Bool.false_ne_true

end RainMakerNeo.Mqtt.EspSession
