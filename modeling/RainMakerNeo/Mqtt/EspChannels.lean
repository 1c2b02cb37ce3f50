import Mathlib.Data.List.Sort
import RainMakerNeo.Mqtt.SubscriptionTable

/-!
# `RainMakerNeo.Mqtt.EspChannels`: the channels of the esp-mqtt operations

The esp-mqtt client gives each message an id, and the acknowledgement comes with that id.
`osal_mqtt_esp_impl.c` keeps the channel of the caller in a registry, a list that is sorted by the
id. The handler of the acknowledgement takes the first entry with the id out and posts a completion
with its channel.

The client is outside the model. `inFlight` are the messages whose acknowledgement can still come,
each with the operation that it belongs to, and an id that the client gives is not in flight. An
operation holds the registry mutex from its call of the client to its last change, so it is one
step.

`Settled` is what the completions and the registry owe the operations. `Careful` is what this
takes: an entry is only ever taken out by its acknowledgement.
-/

set_option autoImplicit false

namespace RainMakerNeo.Mqtt.EspChannels

open RainMakerNeo.Lib

/-! ### The model -/

/-- The kind of an operation, and of its acknowledgement. -/
inductive Kind
  | publish
  | subscribe
  | unsubscribe
  deriving DecidableEq, Repr

/-- `osal_err_t`, as far as the operations return it. -/
inductive Status
  | ok
  | invalidArg
  | notConnected
  | sendFailed
  | noMem
  deriving DecidableEq, Repr

/-- `channel_registry_entry_t`. -/
structure Entry where
  messageId : Int
  channel : Channel
  /-- The operation that has registered the entry. This does not exist in the code. -/
  op : Nat
  deriving DecidableEq, Repr

/-- A message that the client has sent. This does not exist in the code. -/
structure Message where
  messageId : Int
  kind : Kind
  op : Nat
  channel : Channel
  deriving DecidableEq, Repr

/-- `osal_mqtt_event_loop_data_on_complete_t`, with the event that it is posted as. -/
structure Completion where
  kind : Kind
  messageId : Int
  status : Status
  channel : Channel
  /-- The id was registered. This does not exist in the code. -/
  registered : Bool
  /-- The message that was acknowledged. This does not exist in the code. -/
  message : Message
  deriving DecidableEq, Repr

structure State where
  /-- `xChannelRegistry.head`. -/
  registry : List Entry
  /-- `xIsConnected`. -/
  connected : Bool
  /-- The subscription manager. -/
  table : Table
  /-- The completions that were posted, the last one first. -/
  posted : List Completion
  /-- What the client waits for. This does not exist in the code. -/
  inFlight : List Message
  /-- The number of the next operation. This does not exist in the code. -/
  nextOp : Nat
  deriving DecidableEq, Repr

/-- `register_channel_locked`. `ok` is whether the entry can be allocated. An entry goes behind
those with the same id. -/
def registerChannel (registry : List Entry) (ok : Bool) (messageId : Int)
    (channel : Option Channel) (op : Nat) : Status × List Entry :=
  if ok then
    (.ok, registry.orderedInsert (fun e e' => e.messageId < e'.messageId)
      { messageId := messageId, channel := channel.getD Channel.none, op := op })
  else (.noMem, registry)

/-- `get_channel_locked`: the first entry with the id, and the registry without it. -/
def getChannel (registry : List Entry) (messageId : Int) : Option (Entry × List Entry) :=
  match registry with
  | [] => none
  | e :: rest =>
    if e.messageId = messageId then some (e, rest)
    else (getChannel rest messageId).map fun r => (r.1, e :: r.2)

/-- What the client does with a message that it accepts. With the id 0 it expects no
acknowledgement. -/
def accept (s : State) (kind : Kind) (channel : Option Channel) (messageId : Int) : State :=
  { s with
    inFlight := if 0 < messageId then
        { messageId := messageId, kind := kind, op := s.nextOp,
          channel := channel.getD Channel.none } :: s.inFlight
      else s.inFlight
    nextOp := s.nextOp + 1 }

/-- What `publish`, `subscribe` and `unsubscribe` have in common. `messageId` is what the client
returns, and `update` is what is done to the subscription table at the end. -/
def operate (s : State) (kind : Kind) (topic : Option Slice) (channel : Option Channel)
    (messageId : Int) (ok : Bool) (update : Table → Option Table) : Option (Status × State) :=
  if topic.all (fun slice => slice.chars = []) then some (.invalidArg, s)
  else if s.connected = false then some (.notConnected, s)
  else if messageId = -1 then some (.sendFailed, s)
  else if messageId = -2 then some (.noMem, s)
  else
    let t := accept s kind channel messageId
    match registerChannel t.registry ok messageId channel s.nextOp with
    | (.ok, registry) => (update t.table).map fun table =>
      (.ok, { t with registry := registry, table := table })
    | (status, _) => some (status, t)

/-- `publish`. -/
def publish (s : State) (channel : Option Channel) (topic : Option Slice) (messageId : Int)
    (ok : Bool) : Option (Status × State) :=
  operate s .publish topic channel messageId ok some

/-- `subscribe`. `copied` is whether the table can copy the filter. What `add` returns is ignored. -/
def subscribe (s : State) (args : AddArgs) (messageId : Int) (ok copied : Bool) :
    Option (Status × State) :=
  operate s .subscribe args.filter args.channel messageId ok fun table =>
    (table.add copied args).map Prod.snd

/-- `unsubscribe`. -/
def unsubscribe (s : State) (channel : Option Channel) (topic : Option Slice) (messageId : Int)
    (ok : Bool) : Option (Status × State) :=
  operate s .unsubscribe topic channel messageId ok fun table => table.remove topic

/-- The handler of `MQTT_EVENT_PUBLISHED`, `_SUBSCRIBED` and `_UNSUBSCRIBED`. `failed` is
`MQTT_ERROR_TYPE_SUBSCRIBE_FAILED`. The completion is posted whether there is an entry or not. -/
def onAcknowledged (s : State) (m : Message) (failed : Bool) : State :=
  let completion : Completion :=
    { kind := m.kind, messageId := m.messageId,
      status := if m.kind = .subscribe ∧ failed then .sendFailed else .ok,
      channel := { main := 0, sub := 0, seq := 0 }, registered := false, message := m }
  match getChannel s.registry m.messageId with
  | some (e, registry) => { s with
      registry := registry
      posted := { completion with channel := e.channel, registered := true } :: s.posted }
  | none => { s with posted := completion :: s.posted }

/-- What happens next, with what the client and the allocator answer. -/
inductive Action
  | publish (qos : QoS) (channel : Option Channel) (topic : Option Slice) (messageId : Int)
    (ok : Bool)
  | subscribe (args : AddArgs) (messageId : Int) (ok copied : Bool)
  | unsubscribe (channel : Option Channel) (topic : Option Slice) (messageId : Int) (ok : Bool)
  /-- The acknowledgement of a message comes. -/
  | acknowledged (m : Message) (failed : Bool)
  /-- The client gives a message up. -/
  | expired (m : Message)
  | connected
  | disconnected
  deriving DecidableEq

/-- What the client returns: a negative number on failure, 0 for a message without
acknowledgement, and otherwise an id that is not in flight. -/
def Answers (s : State) (acknowledges : Bool) (messageId : Int) : Prop :=
  messageId < 0 ∨ (acknowledges = false ∧ messageId = 0)
    ∨ (acknowledges = true ∧ 0 < messageId ∧ ∀ m ∈ s.inFlight, m.messageId ≠ messageId)

instance (s : State) (acknowledges : Bool) (messageId : Int) :
    Decidable (Answers s acknowledges messageId) :=
  inferInstanceAs (Decidable (_ ∨ _ ∨ _))

/-- What an operation returns, and the state after it. -/
def Action.operation (s : State) : Action → Option (Status × State)
  | .publish qos channel topic messageId ok =>
    if Answers s (qos ≠ .qos0) messageId then EspChannels.publish s channel topic messageId ok else none
  | .subscribe args messageId ok copied =>
    if Answers s true messageId then EspChannels.subscribe s args messageId ok copied else none
  | .unsubscribe channel topic messageId ok =>
    if Answers s true messageId then EspChannels.unsubscribe s channel topic messageId ok else none
  | _ => none

def step (s : State) : Action → Option State
  | .acknowledged m failed =>
    if m ∈ s.inFlight then
      some (onAcknowledged { s with inFlight := s.inFlight.erase m } m failed)
    else none
  | .expired m =>
    if m ∈ s.inFlight then some { s with inFlight := s.inFlight.erase m } else none
  | .connected => some { s with connected := true }
  | .disconnected => some { s with connected := false }
  | a => (a.operation s).map Prod.snd

/-- After `init`: nothing is registered, in flight or posted. -/
def Initial (s : State) : Prop :=
  s.registry = [] ∧ s.posted = [] ∧ s.inFlight = [] ∧ s.nextOp = 0

/-- **Completions.** Each completion has the channel and the kind of the operation that it
completes, no operation is completed twice, no completion is for an id without an entry, and the
acknowledgement of each entry can still come. -/
structure Settled (s : State) : Prop where
  own : ∀ c ∈ s.posted, c.channel = c.message.channel ∧ c.kind = c.message.kind
  once : (s.posted.map fun c => c.message.op).Nodup
  registered : ∀ c ∈ s.posted, c.registered = true
  awaited : ∀ e ∈ s.registry, ∃ m ∈ s.inFlight, m.messageId = e.messageId ∧ m.op = e.op

/-- The client answers a failure with one of the two numbers that the code knows, it gives an id,
and the entry for that id can be allocated. -/
def CarefulAnswer (messageId : Int) (ok : Bool) : Prop :=
  messageId = -1 ∨ messageId = -2 ∨ (0 < messageId ∧ ok = true)

/-- The steps that leave the registry with what the client waits for. -/
def Careful (_ : State) : Action → Prop
  | .publish _ _ _ messageId ok => CarefulAnswer messageId ok
  | .subscribe _ messageId ok _ => CarefulAnswer messageId ok
  | .unsubscribe _ _ messageId ok => CarefulAnswer messageId ok
  | .expired _ => False
  | .acknowledged _ _ | .connected | .disconnected => True

instance (messageId : Int) (ok : Bool) : Decidable (CarefulAnswer messageId ok) :=
  inferInstanceAs (Decidable (_ ∨ _ ∨ _))

instance (s : State) : (a : Action) → Decidable (Careful s a)
  | .publish _ _ _ messageId ok => inferInstanceAs (Decidable (CarefulAnswer messageId ok))
  | .subscribe _ messageId ok _ => inferInstanceAs (Decidable (CarefulAnswer messageId ok))
  | .unsubscribe _ _ messageId ok => inferInstanceAs (Decidable (CarefulAnswer messageId ok))
  | .expired _ => inferInstanceAs (Decidable False)
  | .acknowledged _ _ | .connected | .disconnected => inferInstanceAs (Decidable True)

/-! ### What an operation does -/

/-- The ways an operation ends. -/
inductive Ends (s : State) (kind : Kind) (channel : Option Channel) (messageId : Int) (ok : Bool) :
    Status → State → Prop
  /-- The client was not called, or has failed. -/
  | refused {status : Status} (h : status ≠ .ok) : Ends s kind channel messageId ok status s
  /-- The client has the message, but there is no entry for it. -/
  | unregistered (hno : messageId ≠ -1 ∧ messageId ≠ -2) (h : ok = false) :
    Ends s kind channel messageId ok .noMem (accept s kind channel messageId)
  /-- The client has the message, and there is an entry for it. -/
  | registered (table : Table) (hno : messageId ≠ -1 ∧ messageId ≠ -2) (h : ok = true) :
    Ends s kind channel messageId ok .ok
      { accept s kind channel messageId with
        registry := s.registry.orderedInsert (fun e e' => e.messageId < e'.messageId)
          { messageId := messageId, channel := channel.getD Channel.none, op := s.nextOp }
        table := table }

variable {messageId : Int} {status : Status}

variable {channel : Option Channel}

theorem operate_ends {s t : State} {kind : Kind} {topic : Option Slice} {ok : Bool}
    {update : Table → Option Table}
    (h : operate s kind topic channel messageId ok update = some (status, t)) :
    Ends s kind channel messageId ok status t := by
  rw [operate] at h
  split at h
  · obtain ⟨rfl, rfl⟩ := Prod.mk.inj (Option.some.inj h)
    exact .refused (by decide)
  · split at h
    · obtain ⟨rfl, rfl⟩ := Prod.mk.inj (Option.some.inj h)
      exact .refused (by decide)
    · split at h
      · obtain ⟨rfl, rfl⟩ := Prod.mk.inj (Option.some.inj h)
        exact .refused (by decide)
      · next hfailed =>
        split at h
        · obtain ⟨rfl, rfl⟩ := Prod.mk.inj (Option.some.inj h)
          exact .refused (by decide)
        · next hfull =>
          cases ok with
          | false =>
            obtain ⟨rfl, rfl⟩ := Prod.mk.inj (Option.some.inj h)
            exact .unregistered ⟨hfailed, hfull⟩ rfl
          | true =>
            obtain ⟨table, -, heq⟩ := Option.map_eq_some_iff.1 h
            obtain ⟨rfl, rfl⟩ := Prod.mk.inj heq
            exact .registered table ⟨hfailed, hfull⟩ rfl

/-- An operation that returns an error leaves the registry and the table as they were. -/
theorem Ends.unchanged {s t : State} {kind : Kind} {ok : Bool}
    (h : Ends s kind channel messageId ok status t) (herror : status ≠ .ok) :
    t.registry = s.registry ∧ t.table = s.table := by
  cases h with
  | refused h => exact ⟨rfl, rfl⟩
  | unregistered hno h => exact ⟨rfl, rfl⟩
  | registered table hno h => exact absurd rfl herror

/-- Every operation answers, and ends in one of the ways. -/
theorem operation_ends {s t : State} {a : Action} (h : a.operation s = some (status, t)) :
    ∃ kind channel messageId ok acknowledges, Ends s kind channel messageId ok status t
      ∧ Answers s acknowledges messageId ∧ (Careful s a → CarefulAnswer messageId ok) := by
  cases a with
  | publish qos channel topic messageId ok =>
    rw [Action.operation] at h
    split at h
    · next hanswers => exact ⟨_, _, _, _, _, operate_ends h, hanswers, id⟩
    · exact nomatch h
  | subscribe args messageId ok copied =>
    rw [Action.operation] at h
    split at h
    · next hanswers => exact ⟨_, _, _, _, _, operate_ends h, hanswers, id⟩
    · exact nomatch h
  | unsubscribe channel topic messageId ok =>
    rw [Action.operation] at h
    split at h
    · next hanswers => exact ⟨_, _, _, _, _, operate_ends h, hanswers, id⟩
    · exact nomatch h
  | acknowledged m failed => exact nomatch h
  | expired m => exact nomatch h
  | connected => exact nomatch h
  | disconnected => exact nomatch h

/-! ### What the lookup finds -/

/-- The lookup takes one entry with the id out. -/
theorem getChannel_some {registry rest : List Entry} {e : Entry}
    (h : getChannel registry messageId = some (e, rest)) :
    e.messageId = messageId ∧ registry.Perm (e :: rest) := by
  induction registry generalizing rest with
  | nil => exact nomatch h
  | cons x registry ih =>
    rw [getChannel] at h
    split at h
    · next heq =>
      obtain ⟨rfl, rfl⟩ := Prod.mk.inj (Option.some.inj h)
      exact ⟨heq, List.Perm.refl _⟩
    · obtain ⟨⟨e', rest'⟩, hrest, heq⟩ := Option.map_eq_some_iff.1 h
      obtain ⟨rfl, rfl⟩ := Prod.mk.inj heq
      obtain ⟨hid, hperm⟩ := ih hrest
      exact ⟨hid, (hperm.cons x).trans (List.Perm.swap _ _ _)⟩

/-- It finds one if there is one. -/
theorem getChannel_isSome {registry : List Entry} {e : Entry} (h : e ∈ registry) :
    ∃ r, getChannel registry e.messageId = some r := by
  induction registry with
  | nil => exact nomatch h
  | cons x registry ih =>
    rw [getChannel]
    split
    · exact ⟨_, rfl⟩
    · next hne =>
      rcases List.mem_cons.1 h with rfl | h
      · exact absurd rfl hne
      · obtain ⟨r, hr⟩ := ih h
        rw [hr]
        exact ⟨_, rfl⟩

/-! ### The invariant -/

/-- What an entry and a message have in common. -/
def Entry.key (e : Entry) : Int × Nat × Channel := (e.messageId, e.op, e.channel)

def Message.key (m : Message) : Int × Nat × Channel := (m.messageId, m.op, m.channel)

/-- The operations with a completion, and those that wait for one. -/
def State.operations (s : State) : List Nat :=
  s.posted.map (fun c => c.message.op) ++ s.inFlight.map Message.op

/-- The registry has an entry for each message in flight, and no other one. -/
structure Inv (s : State) : Prop where
  entries : (s.registry.map Entry.key).Perm (s.inFlight.map Message.key)
  ids : (s.inFlight.map Message.messageId).Nodup
  operations : s.operations.Nodup
  fresh : ∀ op ∈ s.operations, op < s.nextOp
  own : ∀ c ∈ s.posted, c.channel = c.message.channel ∧ c.kind = c.message.kind
  registered : ∀ c ∈ s.posted, c.registered = true

namespace Inv

variable {s t : State}

theorem settled (h : Inv s) : Settled s where
  own := h.own
  once := (List.nodup_append.1 h.operations).1
  registered := h.registered
  awaited := by
    intro e he
    have hmem : e.key ∈ s.inFlight.map Message.key :=
      h.entries.mem_iff.1 (List.mem_map_of_mem he)
    obtain ⟨m, hm, heq⟩ := List.mem_map.1 hmem
    have hkey : (m.messageId, m.op, m.channel) = (e.messageId, e.op, e.channel) := heq
    exact ⟨m, hm, congrArg Prod.fst hkey, congrArg (fun k => k.2.1) hkey⟩

theorem of_initial (h : Initial s) : Inv s := by
  obtain ⟨hregistry, hposted, hflight, -⟩ := h
  have hops : s.operations = [] := by
    rw [State.operations, hposted, hflight]
    rfl
  refine ⟨?_, ?_, ?_, ?_, ?_, ?_⟩
  · rw [hregistry, hflight]
    exact List.Perm.refl _
  · rw [hflight]
    exact List.nodup_nil
  · rw [hops]
    exact List.nodup_nil
  · rw [hops]
    exact fun _ hop => nomatch hop
  · rw [hposted]
    exact fun _ hc => nomatch hc
  · rw [hposted]
    exact fun _ hc => nomatch hc

/-- A message that the client accepts, with its entry. -/
theorem register {kind : Kind} {channel : Option Channel} {messageId : Int} (h : Inv s)
    (hpos : 0 < messageId) (hnew : ∀ m ∈ s.inFlight, m.messageId ≠ messageId) (table : Table) :
    Inv { accept s kind channel messageId with
      registry := s.registry.orderedInsert (fun e e' => e.messageId < e'.messageId)
        { messageId := messageId, channel := channel.getD Channel.none, op := s.nextOp }
      table := table } := by
  have hnotMem : s.nextOp ∉ s.operations := fun hmem => Nat.lt_irrefl _ (h.fresh _ hmem)
  have hperm : (s.posted.map (fun c => c.message.op)
        ++ s.nextOp :: s.inFlight.map Message.op).Perm (s.nextOp :: s.operations) :=
    List.perm_middle
  rw [accept, if_pos hpos]
  refine ⟨?_, ?_, ?_, ?_, h.own, h.registered⟩
  · exact ((List.perm_orderedInsert _ _ _).map Entry.key).trans (h.entries.cons _)
  · refine List.nodup_cons.2 ⟨?_, h.ids⟩
    intro hmem
    obtain ⟨m, hm, heq⟩ := List.mem_map.1 hmem
    exact hnew m hm heq
  · exact hperm.nodup_iff.2 (List.nodup_cons.2 ⟨hnotMem, h.operations⟩)
  · intro op hop
    show op < s.nextOp + 1
    rcases List.mem_cons.1 (hperm.mem_iff.1 hop) with rfl | hop
    · omega
    · have := h.fresh op hop
      omega

/-- The acknowledgement of a message finds the entry of that message. -/
theorem acknowledged {m : Message} (h : Inv s) (hm : m ∈ s.inFlight) (failed : Bool) :
    Inv (onAcknowledged { s with inFlight := s.inFlight.erase m } m failed) := by
  have hkey : m.key ∈ s.registry.map Entry.key :=
    h.entries.mem_iff.2 (List.mem_map_of_mem hm)
  obtain ⟨e, he, heq⟩ := List.mem_map.1 hkey
  have hid : e.messageId = m.messageId := congrArg Prod.fst heq
  obtain ⟨⟨e', rest⟩, hget⟩ := getChannel_isSome he
  rw [hid] at hget
  obtain ⟨hid', hrest⟩ := getChannel_some hget
  -- the entry with the id is the one of this message, because no other message has the id
  have hsame : e'.key = m.key := by
    have hmem : e'.key ∈ s.inFlight.map Message.key :=
      h.entries.mem_iff.1 (List.mem_map_of_mem (hrest.mem_iff.2 List.mem_cons_self))
    obtain ⟨m', hm', heq'⟩ := List.mem_map.1 hmem
    have hids : m'.messageId = m.messageId := (congrArg Prod.fst heq').trans hid'
    rw [← heq', List.inj_on_of_nodup_map h.ids hm' hm hids]
  have hchannel : e'.channel = m.channel := congrArg (fun k => k.2.2) hsame
  have hflight := List.perm_cons_erase hm
  have hstate : onAcknowledged { s with inFlight := s.inFlight.erase m } m failed
      = { s with
          registry := rest
          inFlight := s.inFlight.erase m
          posted := { kind := m.kind, messageId := m.messageId,
                      status := if m.kind = .subscribe ∧ failed then .sendFailed else .ok,
                      channel := e'.channel, registered := true, message := m } :: s.posted } := by
    simp only [onAcknowledged, hget]
  have hops : (m.op :: (s.posted.map (fun c => c.message.op)
      ++ (s.inFlight.erase m).map Message.op)).Perm s.operations :=
    List.perm_middle.symm.trans ((hflight.symm.map Message.op).append_left _)
  rw [hstate]
  refine ⟨?_, ?_, ?_, ?_, ?_, ?_⟩
  · have hcons := ((hrest.map Entry.key).symm.trans h.entries).trans (hflight.map Message.key)
    rw [List.map_cons, List.map_cons, hsame] at hcons
    exact hcons.cons_inv
  · exact (h.ids.sublist ((List.erase_sublist).map _))
  · exact hops.nodup_iff.2 h.operations
  · intro op hop
    exact h.fresh op (hops.mem_iff.1 hop)
  · intro c hc
    rcases List.mem_cons.1 hc with rfl | hc
    · exact ⟨hchannel, rfl⟩
    · exact h.own c hc
  · intro c hc
    rcases List.mem_cons.1 hc with rfl | hc
    · rfl
    · exact h.registered c hc

theorem step {a : Action} (h : Inv s) (hc : Careful s a)
    (hs : EspChannels.step s a = some t) : Inv t := by
  have hoperation : ∀ status, a.operation s = some (status, t) → Inv t := by
    intro status hop
    obtain ⟨kind, channel, messageId, ok, acknowledges, hends, hanswers, hcareful⟩ :=
      operation_ends hop
    have hpos : messageId ≠ -1 ∧ messageId ≠ -2 → 0 < messageId ∧ ok = true := by
      intro hno
      rcases hcareful hc with heq | heq | hpos
      · exact absurd heq hno.1
      · exact absurd heq hno.2
      · exact hpos
    cases hends with
    | refused hno => exact h
    | unregistered hno hfail =>
      rw [(hpos hno).2] at hfail
      exact nomatch hfail
    | registered table hno hok =>
      have hnew : ∀ m ∈ s.inFlight, m.messageId ≠ messageId := by
        have := (hpos hno).1
        rcases hanswers with hneg | ⟨-, hzero⟩ | ⟨-, -, hnew⟩
        · omega
        · omega
        · exact hnew
      exact h.register (hpos hno).1 hnew table
  have hmap : (a.operation s).map Prod.snd = some t → Inv t := by
    intro heq
    obtain ⟨⟨status, t'⟩, hop, rfl⟩ := Option.map_eq_some_iff.1 heq
    exact hoperation status hop
  cases a with
  | publish qos channel topic messageId ok => exact hmap hs
  | subscribe args messageId ok copied => exact hmap hs
  | unsubscribe channel topic messageId ok => exact hmap hs
  | acknowledged m failed =>
    rw [EspChannels.step] at hs
    split at hs
    · next hm =>
      obtain rfl := Option.some.inj hs
      exact h.acknowledged hm failed
    · exact nomatch hs
  | expired m => exact hc.elim
  | connected =>
    obtain rfl := Option.some.inj hs
    exact ⟨h.entries, h.ids, h.operations, h.fresh, h.own, h.registered⟩
  | disconnected =>
    obtain rfl := Option.some.inj hs
    exact ⟨h.entries, h.ids, h.operations, h.fresh, h.own, h.registered⟩

end Inv

/-! ### The result -/

/-- **Channels.** In every run whose steps are careful, the completions and the registry are
settled in every state. An operation that returns an error has left the registry and the
subscription table as they were, whatever happened before. -/
theorem settled_of_careful (s : State) :
    (Reach Initial step Careful s → Settled s)
    ∧ ∀ (t : State) (a : Action) (status : Status), a.operation s = some (status, t) →
      status ≠ .ok → t.registry = s.registry ∧ t.table = s.table := by
  refine ⟨fun h => ?_, fun t a status h herror => ?_⟩
  · have hinv := h.inv Inv (fun _ hs => .of_initial hs) fun _ _ _ hi hc ht => hi.step hc ht
    exact hinv.settled
  · obtain ⟨_, _, _, _, _, hends, -⟩ := operation_ends h
    exact hends.unchanged herror

section Runs

/-- A subscription manager after its `init`, and a client that is connected. -/
def start : State where
  registry := []
  connected := true
  table := (Table.initial 10).init true
  posted := []
  inFlight := []
  nextOp := 0

/-- The channel of the first and of the second caller. -/
def first : Channel := { main := 1, sub := 1, seq := 1 }

def second : Channel := { main := 2, sub := 2, seq := 2 }

/-- The topic `t`. -/
def topic : Option Slice := some { chars := ['t'], bounded := by decide }

/-- The message of the operation `op`, a publish. -/
def published (messageId : Int) (op : Nat) (channel : Channel) : Message :=
  { messageId := messageId, kind := .publish, op := op, channel := channel }

/-- Two publishes whose acknowledgements come in the other order, and the reuse of an id. -/
theorem settled_sample : ∃ s, exec step start
      [.publish .qos1 (some first) topic 7 true, .publish .qos1 (some second) topic 3 true,
        .acknowledged (published 7 0 first) false, .publish .qos1 (some second) topic 7 true,
        .acknowledged (published 7 2 second) false] = some s
    ∧ s.posted.map Completion.channel = [second, first] ∧ Settled s := by
  have hrun : Reach Initial step Careful _ := Reach.exec
    [.publish .qos1 (some first) topic 7 true, .publish .qos1 (some second) topic 3 true,
      .acknowledged (published 7 0 first) false, .publish .qos1 (some second) topic 7 true,
      .acknowledged (published 7 2 second) false]
    (.start (s := start) ⟨rfl, rfl, rfl, rfl⟩) (by decide +kernel) rfl
  exact ⟨_, rfl, by decide +kernel, (settled_of_careful _).1 hrun⟩

/-- Without care, none of this holds. A QoS 0 publish leaves an entry that nothing takes out.
After a lost acknowledgement, a publish that gets the same id is completed with the channel of the
earlier one. An entry that cannot be allocated lets a completion be posted without one. -/
theorem not_settled :
    (∃ s, Reach Initial step (fun _ _ => True) s ∧ s.registry ≠ [] ∧ s.inFlight = [])
    ∧ (∃ s, Reach Initial step (fun _ _ => True) s
      ∧ ∃ c ∈ s.posted, c.channel = first ∧ c.message.channel = second)
    ∧ ∃ s, Reach Initial step (fun _ _ => True) s ∧ ∃ c ∈ s.posted, c.registered = false := by
  have hstart : Reach Initial step (fun _ _ => True) start := .start ⟨rfl, rfl, rfl, rfl⟩
  refine ⟨?_, ?_, ?_⟩
  · exact ⟨_, Reach.exec_true [.publish .qos0 (some first) topic 0 true] hstart rfl,
      by decide +kernel, by decide +kernel⟩
  · exact ⟨_, Reach.exec_true [.publish .qos1 (some first) topic 7 true,
      .expired (published 7 0 first), .publish .qos1 (some second) topic 7 true,
      .acknowledged (published 7 1 second) false] hstart rfl, by decide +kernel⟩
  · exact ⟨_, Reach.exec_true [.publish .qos1 (some first) topic 7 false,
      .acknowledged (published 7 0 first) false] hstart rfl, by decide +kernel⟩

end Runs

end RainMakerNeo.Mqtt.EspChannels
