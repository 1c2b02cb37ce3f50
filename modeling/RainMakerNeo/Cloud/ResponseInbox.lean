import RainMakerNeo.Lib.Keyed
import RainMakerNeo.Lib.Run
import RainMakerNeo.Lib.Slots

/-!
# `RainMakerNeo.Cloud.ResponseInbox`: the callbacks of the set events

A set event can come with a callback context. `__send_with_topic` registers the contexts in the
inbox under the event's name and the topic ctx, and publishes. The response takes the context out
and calls it. A newer request for the same event takes over the slot of the older one, whose context
is dropped.

The inbox is locked for each event on its own, so the runs of `step` are the interleavings of any
number of sends with responses and a deinit. A context is named by the send that it was handed to
and its place in the list of events. `exact_of_careful` says that each context is consumed exactly
once, that no two entries have the same key, and that a failed send leaves the others alone, unless
it has taken over a slot before. `failed_takeover` shows a run where it has.
-/

set_option autoImplicit false

namespace RainMakerNeo.Cloud.Inbox

open RainMakerNeo.Lib

/-! ### The model -/

/-- `esp_rmaker_cloud_event_set_response_cb_context_t`: the send and the place in its events. -/
abbrev Ctx := Nat × Nat

/-- `esp_rmaker_cloud_event_t`. -/
structure Event (ν : Type*) where
  name : ν
  /-- `p_set_response_cb_context` is not `NULL`. -/
  hasContext : Bool
  deriving DecidableEq, Repr

/-- `esp_rmaker_cloud_inbox_entry_t`. -/
structure Entry (ν κ : Type*) where
  eventName : Option ν := none
  ctx : Option κ := none
  context : Option Ctx := none
  deriving DecidableEq, Repr

/-- Where `__send_with_topic` is. -/
inductive Place
  /-- Before the payload and the topic are built. -/
  | build
  /-- `__inbox_register` before an event. -/
  | register (i : Nat)
  | publish
  /-- `__inbox_release` before an event. The events from `count` on are not registered. -/
  | release (i count : Nat)
  deriving DecidableEq, Repr

/-- A call of `__send_with_topic`. -/
structure Send (ν κ : Type*) where
  id : Nat
  topic : κ
  events : List (Event ν)
  place : Place := .build
  /-- The send has taken over the slot of another one. This does not exist in the code. -/
  displaced : Bool := false
  deriving DecidableEq, Repr

/-- What has consumed a context. -/
inductive Cause
  /-- The callback was called for a response. -/
  | response
  /-- A send has taken over the slot. -/
  | superseded (send : Nat)
  /-- A failed send has dropped it. -/
  | dropped (send : Nat)
  | deinit
  deriving DecidableEq, Repr

/-- The send that has consumed a context. -/
def Cause.sender : Cause → Option Nat
  | .superseded send | .dropped send => some send
  | .response | .deinit => none

/-- The inbox, the sends under way, the responses under way, and the history. The fields from
`nextSend` on do not exist in the code. -/
structure State (ν κ : Type*) where
  entries : List (Entry ν κ) := []
  /-- How far the loop of `esp_rmaker_cloud_manager_deinit` is. -/
  deinit : Option Nat := none
  sends : List (Send ν κ) := []
  /-- The contexts that a response handler has taken out. -/
  taken : List Ctx := []
  nextSend : Nat := 0
  handed : List Ctx := []
  consumed : List (Ctx × Cause) := []
  /-- The sends that have returned an error. -/
  failed : List Nat := []
  deriving DecidableEq, Repr

/-- What happens next. -/
inductive Action (ν κ : Type*)
  | init
  | send (topic : κ) (events : List (Event ν))
  /-- A send goes on. `ok` says whether the payload and the topic are built, or the message is
  published. -/
  | go (send : Nat) (ok : Bool)
  | response (name : ν) (topic : κ)
  | callback (c : Ctx)
  | deinit
  deriving DecidableEq, Repr

variable {ν κ : Type*}

namespace Send

/-- An event comes with a context. -/
def hasContext (x : Send ν κ) (i : Nat) : Bool := x.events[i]?.any Event.hasContext

/-- The contexts from an event on. -/
def contextsFrom (x : Send ν κ) (k : Nat) : List Ctx :=
  ((List.range x.events.length).filter fun i => k ≤ i ∧ x.hasContext i).map fun i => (x.id, i)

/-- The first event whose context is not registered. -/
def heldFrom (x : Send ν κ) : Nat :=
  match x.place with
  | .build => 0
  | .register i => i
  | .publish => x.events.length
  | .release _ count => count

/-- The contexts that are still in the hands of the send. -/
def held (x : Send ν κ) : List Ctx := x.contextsFrom x.heldFrom

end Send

variable [DecidableEq ν] [DecidableEq κ]

namespace Entry

/-- The slot is in use. -/
def live (e : Entry ν κ) : Bool := e.eventName.isSome && e.context.isSome

/-- The slot has the key. -/
def hasKey (name : ν) (topic : κ) (e : Entry ν κ) : Bool :=
  e.eventName = some name && e.ctx = some topic

/-- The slot is cleared. The name stays. -/
def clear (e : Entry ν κ) : Entry ν κ := { e with context := none, ctx := none }

end Entry

/-- `__inbox_register` for one event: the slot with the same key, else the first one that is free.
The context that was there comes back. -/
def register (name : ν) (topic : κ) (c : Ctx) (entries : List (Entry ν κ)) :
    Option (Option Ctx × List (Entry ν κ)) :=
  match updateFirst (fun e => e.live && e.hasKey name topic)
      (fun e => { e with context := some c }) entries with
  | some (old, entries) => some (old.context, entries)
  | none =>
    (updateFirst (fun e => !e.live)
      (fun _ => { eventName := some name, ctx := some topic, context := some c }) entries).map
        fun r => (none, r.2)

/-- `__inbox_release` for one event. -/
def release (name : ν) (topic : κ) (c : Ctx) (entries : List (Entry ν κ)) : List (Entry ν κ) :=
  entries.map fun e => if e.context = some c ∧ e.hasKey name topic then e.clear else e

/-- `__inbox_release` finds the context. -/
def releases (name : ν) (topic : κ) (c : Ctx) (entries : List (Entry ν κ)) : Bool :=
  entries.any fun e => e.context = some c ∧ e.hasKey name topic

namespace State

/-- A send goes on. -/
def goTo (s : State ν κ) (x : Send ν κ) (place : Place) : State ν κ :=
  { s with sends := modifyKey Send.id x.id (fun y => { y with place := place }) s.sends }

/-- A send drops the contexts from an event on and returns an error. -/
def fail (s : State ν κ) (x : Send ν κ) (k : Nat) : State ν κ :=
  { s with
    sends := eraseKey Send.id x.id s.sends
    consumed := (x.contextsFrom k).map (fun c => (c, .dropped x.id)) ++ s.consumed
    failed := x.id :: s.failed }

/-- An event is registered. A context of another request goes. -/
def registered (s : State ν κ) (x : Send ν κ) (i : Nat) (old : Option Ctx)
    (entries : List (Entry ν κ)) : State ν κ :=
  { s with
    entries := entries
    sends := modifyKey Send.id x.id (fun y => { y with
      place := .register (i + 1)
      displaced := y.displaced || old.any fun c => c.1 != x.id }) s.sends
    consumed := if old = some (x.id, i) then s.consumed
      else (old.map fun c => (c, .superseded x.id)).toList ++ s.consumed }

/-- The next step of `__send_with_topic`. A context that has left the inbox is dropped in the same
step, since no one else can see it. -/
def sendStep (s : State ν κ) (x : Send ν κ) (ok : Bool) : State ν κ :=
  match x.place with
  | .build => if ok then s.goTo x (.register 0) else s.fail x 0
  | .register i =>
    match x.events[i]? with
    | none => s.goTo x .publish
    | some event =>
      if event.hasContext then
        match register event.name x.topic (x.id, i) s.entries with
        | some (old, entries) => s.registered x i old entries
        -- The inbox is full.
        | none => s.goTo x (.release 0 i)
      else s.goTo x (.register (i + 1))
  | .publish =>
    if ok then { s with sends := eraseKey Send.id x.id s.sends }
    else s.goTo x (.release 0 x.events.length)
  | .release i count =>
    if i < count then
      match x.events[i]? with
      | none => s.goTo x (.release (i + 1) count)
      | some event =>
        if event.hasContext then
          { s.goTo x (.release (i + 1) count) with
            entries := release event.name x.topic (x.id, i) s.entries
            consumed := if releases event.name x.topic (x.id, i) s.entries then
              ((x.id, i), .dropped x.id) :: s.consumed else s.consumed }
        else s.goTo x (.release (i + 1) count)
    else s.fail x count

/-- `__set_event_response_payload_handler` up to the unlock. -/
def takeOut (s : State ν κ) (name : ν) (topic : κ) : State ν κ :=
  match updateFirst (Entry.hasKey name topic) Entry.clear s.entries with
  | some (old, entries) => { s with entries := entries, taken := old.context.toList ++ s.taken }
  | none => s

/-- The next step of `esp_rmaker_cloud_manager_deinit`, which does not take the lock. -/
def deinitStep (s : State ν κ) : State ν κ :=
  match s.deinit with
  | none => if s.entries = [] then s else { s with deinit := some 0 }
  | some k =>
    match s.entries[k]? with
    | some e =>
      { s with
        deinit := some (k + 1)
        consumed := (e.context.map fun c => (c, .deinit)).toList ++ s.consumed }
    | none => { s with deinit := none, entries := [] }

end State

/-- The next step of one of the tasks. The inbox has `size` slots. -/
def step (size : Nat) (s : State ν κ) : Action ν κ → Option (State ν κ)
  | .init =>
    if s.entries = [] then some { s with entries := List.replicate size {} } else none
  | .send topic events =>
    -- A call without events is refused.
    if events = [] then some s
    else
      let x : Send ν κ := { id := s.nextSend, topic, events }
      some { s with
        sends := x :: s.sends, nextSend := s.nextSend + 1, handed := x.contextsFrom 0 ++ s.handed }
  | .go send ok => (s.sends.find? fun x => x.id = send).map fun x => s.sendStep x ok
  | .response name topic => some (s.takeOut name topic)
  | .callback c =>
    if c ∈ s.taken then
      some { s with taken := s.taken.erase c, consumed := (c, .response) :: s.consumed }
    else none
  | .deinit => some s.deinitStep

/-- Before the first init. -/
def Initial (s : State ν κ) : Prop := s = {}

/-! ### The statement -/

/-- The contexts in the slots that a deinit has not dropped. -/
def State.waiting (s : State ν κ) : List Ctx :=
  heldBy Entry.context (s.entries.drop (s.deinit.getD 0))

/-- How often a context is in the hands of a send, in those of a response handler, or in the
inbox. -/
def State.places (s : State ν κ) (c : Ctx) : Nat :=
  (s.sends.map fun x => x.held.count c).sum + s.taken.count c + s.waiting.count c

/-- How often a context was consumed. -/
def State.consumptions (s : State ν κ) (c : Ctx) : Nat := (s.consumed.map Prod.fst).count c

/-- What the inbox promises. -/
structure Exact (s : State ν κ) : Prop where
  /-- A context is consumed once, or it is in one place and not consumed. -/
  once : ∀ c ∈ s.handed, s.consumptions c + s.places c = 1
  keys : s.entries.Pairwise fun e e' => e.live = true → e'.live = true →
    ¬(e.eventName = e'.eventName ∧ e.ctx = e'.ctx)
  /-- A send that has returned an error has consumed its own contexts only. -/
  others : ∀ n ∈ s.failed, ∀ p ∈ s.consumed, p.2.sender = some n → p.1.1 = n
  /-- A send that has returned an error has no context in the inbox. -/
  gone : ∀ n ∈ s.failed, ∀ e ∈ s.entries, ∀ c, e.context = some c → c.1 ≠ n

/-- A send under way. -/
def Send.Careful (s : State ν κ) (x : Send ν κ) (ok : Bool) : Prop :=
  match x.place with
  | .build => True
  | .register i =>
    s.deinit = none ∧ (∀ event, x.events[i]? = some event → event.hasContext = true →
      register event.name x.topic (x.id, i) s.entries = none → x.displaced = false)
  | .publish => ok = false → x.displaced = false
  | .release _ _ => s.deinit = none

/-- A send fails only when it has not taken over the slot of another one, and the inbox is not used
while it is torn down. -/
def Careful (s : State ν κ) : Action ν κ → Prop
  | .go send ok => ∀ x, s.sends.find? (fun x => x.id = send) = some x → x.Careful s ok
  | .response _ _ => s.deinit = none
  | _ => True

/-! ### The contexts of a send -/

section Contexts

omit [DecidableEq ν] [DecidableEq κ]

variable {x : Send ν κ} {k : Nat} {c : Ctx}

theorem lt_of_hasContext {i : Nat} (h : x.hasContext i = true) : i < x.events.length := by
  by_contra hge
  rw [Send.hasContext, List.getElem?_eq_none (Nat.le_of_not_lt hge)] at h
  cases h

theorem mem_contextsFrom :
    c ∈ x.contextsFrom k ↔ c.1 = x.id ∧ k ≤ c.2 ∧ x.hasContext c.2 = true := by
  rw [Send.contextsFrom, List.mem_map]
  constructor
  · rintro ⟨i, hi, rfl⟩
    rw [List.mem_filter, decide_eq_true_eq] at hi
    exact ⟨rfl, hi.2⟩
  · intro ⟨hid, hk, hc⟩
    refine ⟨c.2, ?_, Prod.ext hid.symm rfl⟩
    rw [List.mem_filter, decide_eq_true_eq]
    exact ⟨List.mem_range.mpr (lt_of_hasContext hc), hk, hc⟩

theorem nodup_contextsFrom : (x.contextsFrom k).Nodup :=
  ((List.nodup_range.filter _).map fun _ _ h => (Prod.mk.inj h).2)

theorem count_contextsFrom : (x.contextsFrom k).count c =
    if c.1 = x.id ∧ k ≤ c.2 ∧ x.hasContext c.2 = true then 1 else 0 := by
  rw [nodup_contextsFrom.count]
  simp only [mem_contextsFrom]

/-- After the last event there are no contexts. -/
theorem contextsFrom_of_le (h : x.events.length ≤ k) : x.contextsFrom k = [] := by
  rw [List.eq_nil_iff_forall_not_mem]
  intro c hc
  obtain ⟨-, hk, hcontext⟩ := mem_contextsFrom.mp hc
  have hlt := lt_of_hasContext hcontext
  omega

/-- An event without a context adds nothing. -/
theorem count_contextsFrom_skip (h : x.hasContext k = false) :
    (x.contextsFrom (k + 1)).count c = (x.contextsFrom k).count c := by
  rw [count_contextsFrom, count_contextsFrom]
  refine if_congr ?_ rfl rfl
  constructor
  · exact fun ⟨hid, hk, hc⟩ => ⟨hid, by omega, hc⟩
  · intro ⟨hid, hk, hc⟩
    refine ⟨hid, ?_, hc⟩
    have hne : k ≠ c.2 := by
      rintro rfl
      rw [h] at hc
      cases hc
    omega

/-- An event with a context adds that one. -/
theorem count_contextsFrom_take (h : x.hasContext k = true) :
    (x.contextsFrom (k + 1)).count c + countOf c (some (x.id, k)) = (x.contextsFrom k).count c := by
  rw [count_contextsFrom, count_contextsFrom, countOf]
  by_cases hc : (x.id, k) = c
  · subst hc
    rw [if_neg (by simp), if_pos BEq.rfl, if_pos ⟨rfl, Nat.le_refl _, h⟩]
  · rw [beq_eq_false_iff_ne.mpr hc, if_neg Bool.false_ne_true, Nat.add_zero]
    refine if_congr ?_ rfl rfl
    constructor
    · rintro ⟨hid, hk, hcontext⟩
      exact ⟨hid, by omega, hcontext⟩
    · rintro ⟨hid, hk, hcontext⟩
      refine ⟨hid, ?_, hcontext⟩
      have hne : k ≠ c.2 := fun heq => hc (Prod.ext hid.symm heq)
      omega

end Contexts

/-! ### The invariant -/

/-- What an entry holds for a send under way: the context of one of its registered events, under the
key of that event. -/
def Send.Owns (x : Send ν κ) (e : Entry ν κ) (i : Nat) : Prop :=
  i < x.heldFrom ∧
    (∃ event, x.events[i]? = some event ∧ event.hasContext = true ∧
      e.hasKey event.name x.topic = true) ∧
    ∀ j count, x.place = .release j count → j ≤ i

/-- The invariant of the inbox. -/
structure Inv (s : State ν κ) : Prop where
  ids : (s.sends.map Send.id).Nodup
  handed : s.handed.Nodup
  balance : ∀ c, s.consumptions c + s.places c = s.handed.count c
  keys : s.entries.Pairwise fun e e' => e.live = true → e'.live = true →
    ¬(e.eventName = e'.eventName ∧ e.ctx = e'.ctx)
  shaped : ∀ e ∈ s.entries, e.context.isSome = true → e.live = true
  owns : ∀ x ∈ s.sends, ∀ e ∈ s.entries, ∀ i, e.context = some (x.id, i) → x.Owns e i
  /-- A send that has not started to register, or that is failing, has not taken over a slot. -/
  modest : ∀ x ∈ s.sends, (x.place = .build ∨ ∃ i count, x.place = .release i count) →
    x.displaced = false
  own : ∀ x ∈ s.sends, x.displaced = false → ∀ p ∈ s.consumed, p.2.sender = some x.id →
    p.1.1 = x.id
  others : ∀ n ∈ s.failed, ∀ p ∈ s.consumed, p.2.sender = some n → p.1.1 = n
  gone : ∀ n ∈ s.failed, ∀ e ∈ s.entries, ∀ c, e.context = some c → c.1 ≠ n
  ended : ∀ n ∈ s.failed, ∀ x ∈ s.sends, x.id ≠ n
  /-- The next send is a new one. -/
  next : (∀ x ∈ s.sends, x.id < s.nextSend) ∧ (∀ c ∈ s.handed, c.1 < s.nextSend) ∧
    (∀ e ∈ s.entries, ∀ c, e.context = some c → c.1 < s.nextSend) ∧
    (∀ p ∈ s.consumed, ∀ n, p.2.sender = some n → n < s.nextSend) ∧
    ∀ n ∈ s.failed, n < s.nextSend

variable {s : State ν κ} {x : Send ν κ} {name : ν} {topic : κ} {c : Ctx}
  {entries : List (Entry ν κ)} {old : Option Ctx} {i : Nat}

theorem Inv.exact (h : Inv s) : Exact s := by
  refine ⟨fun c hc => ?_, h.keys, h.others, h.gone⟩
  rw [h.balance, h.handed.count, if_pos hc]

/-- A context is in one place at most, and then it was not consumed. -/
theorem Inv.le_one (h : Inv s) (c : Ctx) : s.consumptions c + s.places c ≤ 1 := by
  rw [h.balance, h.handed.count]
  split
  · exact Nat.le_refl _
  · exact Nat.zero_le _

/-! ### One step -/

/-- The sum over the sends after one of them goes on. -/
theorem sum_goTo (h : Inv s) (hx : x ∈ s.sends) (f : Send ν κ → Send ν κ) (c : Ctx) :
    ((modifyKey Send.id x.id f s.sends).map fun y => y.held.count c).sum + x.held.count c =
      (s.sends.map fun y => y.held.count c).sum + (f x).held.count c :=
  sum_map_modifyKey (fun y => y.held.count c) h.ids hx

/-- A step in which one send goes on. What it puts into the inbox is its own, and what it consumes
is noted under its name. -/
structure Moved (s : State ν κ) (x : Send ν κ) (f : Send ν κ → Send ν κ) (t : State ν κ) :
    Prop where
  state : t = { s with
    entries := t.entries
    sends := modifyKey Send.id x.id f s.sends
    consumed := t.consumed }
  id : ∀ y, (f y).id = y.id
  balance : ∀ c, t.consumptions c + t.waiting.count c + (f x).held.count c =
    s.consumptions c + s.waiting.count c + x.held.count c
  keys : t.entries.Pairwise fun e e' => e.live = true → e'.live = true →
    ¬(e.eventName = e'.eventName ∧ e.ctx = e'.ctx)
  entries : ∀ e ∈ t.entries, ∀ c, e.context = some c → e ∈ s.entries ∨ c.1 = x.id ∧ e.live = true
  owns : ∀ e ∈ t.entries, ∀ i, e.context = some (x.id, i) → (f x).Owns e i
  modest : ((f x).place = .build ∨ ∃ i count, (f x).place = .release i count) →
    (f x).displaced = false
  past : ∀ p ∈ t.consumed,
    p ∈ s.consumed ∨ p.2.sender = some x.id ∧ ((f x).displaced = false → p.1.1 = x.id)
  displaced : (f x).displaced = false → x.displaced = false

theorem Inv.moved {t : State ν κ} (h : Inv s) (hx : x ∈ s.sends) {f : Send ν κ → Send ν κ}
    (hm : Moved s x f t) : Inv t := by
  have hsends : t.sends = modifyKey Send.id x.id f s.sends := by rw [hm.state]
  have hids : t.sends.map Send.id = s.sends.map Send.id := by
    rw [hsends]
    exact map_modifyKey Send.id hm.id
  have hfailed : t.failed = s.failed := by rw [hm.state]
  have hhanded : t.handed = s.handed := by rw [hm.state]
  have hnext : t.nextSend = s.nextSend := by rw [hm.state]
  have hmem : ∀ y ∈ t.sends, (y ∈ s.sends ∧ y.id ≠ x.id) ∨ y = f x := by
    intro y hy
    rw [hsends] at hy
    obtain ⟨z, hz, rfl⟩ := mem_modifyKey.mp hy
    by_cases heq : z.id = x.id
    · rw [if_pos heq, eq_of_key_eq h.ids hz hx heq]
      exact .inr rfl
    · rw [if_neg heq]
      exact .inl ⟨hz, heq⟩
  have hlt := h.next.1 x hx
  constructor
  case ids =>
    rw [hids]
    exact h.ids
  case handed =>
    rw [hhanded]
    exact h.handed
  case balance =>
    intro c
    have hsum := sum_goTo h hx f c
    have hbalance := h.balance c
    have hmoved := hm.balance c
    have htaken : t.taken = s.taken := by rw [hm.state]
    simp only [State.places, hsends, hhanded, htaken] at hbalance ⊢
    omega
  case keys => exact hm.keys
  case shaped =>
    intro e he hsome
    obtain ⟨c, hc⟩ := Option.isSome_iff_exists.mp hsome
    rcases hm.entries e he c hc with hold | ⟨-, hlive⟩
    · exact h.shaped e hold hsome
    · exact hlive
  case owns =>
    intro y hy e he i hi
    rcases hmem y hy with ⟨hy, hne⟩ | rfl
    · rcases hm.entries e he _ hi with hold | ⟨heq, -⟩
      · exact h.owns y hy e hold i hi
      · exact absurd heq hne
    · rw [hm.id] at hi
      exact hm.owns e he i hi
  case modest =>
    intro y hy hbusy
    rcases hmem y hy with ⟨hy, -⟩ | rfl
    · exact h.modest y hy hbusy
    · exact hm.modest hbusy
  case own =>
    intro y hy hd p hp hsender
    rcases hmem y hy with ⟨hy, hne⟩ | rfl
    · rcases hm.past p hp with hold | ⟨hx', -⟩
      · exact h.own y hy hd p hold hsender
      · rw [hx'] at hsender
        exact absurd (Option.some.inj hsender).symm hne
    · rw [hm.id] at hsender ⊢
      rcases hm.past p hp with hold | ⟨-, hown⟩
      · exact h.own x hx (hm.displaced hd) p hold hsender
      · exact hown hd
  case others =>
    intro n hn p hp hsender
    rw [hfailed] at hn
    rcases hm.past p hp with hold | ⟨hx', -⟩
    · exact h.others n hn p hold hsender
    · rw [hx'] at hsender
      exact absurd (Option.some.inj hsender) (h.ended n hn x hx)
  case gone =>
    intro n hn e he c hc
    rw [hfailed] at hn
    rcases hm.entries e he c hc with hold | ⟨heq, -⟩
    · exact h.gone n hn e hold c hc
    · rw [heq]
      exact h.ended n hn x hx
  case ended =>
    intro n hn y hy
    rw [hfailed] at hn
    rcases hmem y hy with ⟨hy, -⟩ | rfl
    · exact h.ended n hn y hy
    · rw [hm.id]
      exact h.ended n hn x hx
  case next =>
    rw [hnext, hhanded, hfailed]
    refine ⟨?_, h.next.2.1, ?_, ?_, h.next.2.2.2.2⟩
    · intro y hy
      rcases hmem y hy with ⟨hy, -⟩ | rfl
      · exact h.next.1 y hy
      · rw [hm.id]
        exact hlt
    · intro e he c hc
      rcases hm.entries e he c hc with hold | ⟨heq, -⟩
      · exact h.next.2.2.1 e hold c hc
      · rw [heq]
        exact hlt
    · intro p hp n hsender
      rcases hm.past p hp with hold | ⟨hx', -⟩
      · exact h.next.2.2.2.1 p hold n hsender
      · rw [hx'] at hsender
        rw [← Option.some.inj hsender]
        exact hlt

/-- A send goes on, and the inbox and the history stay. -/
theorem Inv.goTo (h : Inv s) (hx : x ∈ s.sends) {place : Place}
    (hheld : ∀ c, (Send.held { x with place := place }).count c = x.held.count c)
    (howns : ∀ e ∈ s.entries, ∀ i, x.Owns e i → Send.Owns { x with place := place } e i)
    (hmodest : (place = .build ∨ ∃ i count, place = .release i count) → x.displaced = false) :
    Inv (s.goTo x place) := by
  refine h.moved hx (f := fun y => { y with place := place }) ?_
  constructor
  case state => rfl
  case id => exact fun _ => rfl
  case balance =>
    intro c
    rw [hheld c]
    rfl
  case keys => exact h.keys
  case entries => exact fun e he _ _ => .inl he
  case owns => exact fun e he i hi => howns e he i (h.owns x hx e he i hi)
  case modest => exact hmodest
  case past => exact fun p hp => .inl hp
  case displaced => exact id

omit [DecidableEq ν] [DecidableEq κ] in
/-- A send returns. -/
theorem mem_erase_send {y : Send ν κ} (hy : y ∈ eraseKey Send.id x.id s.sends) :
    y ∈ s.sends ∧ y.id ≠ x.id := mem_eraseKey.mp hy

/-- A send that has nothing in its hands returns. -/
theorem Inv.succeed (h : Inv s) (hx : x ∈ s.sends) (hheld : x.held = []) :
    Inv { s with sends := eraseKey Send.id x.id s.sends } := by
  refine ⟨nodup_eraseKey Send.id h.ids, h.handed, ?_, h.keys, h.shaped,
    fun y hy => h.owns y (mem_erase_send hy).1, fun y hy => h.modest y (mem_erase_send hy).1,
    fun y hy => h.own y (mem_erase_send hy).1, h.others, h.gone,
    fun n hn y hy => h.ended n hn y (mem_erase_send hy).1,
    fun y hy => h.next.1 y (mem_erase_send hy).1, h.next.2⟩
  intro c
  have hsum := sum_map_eraseKey (fun y => y.held.count c) h.ids hx
  have hbalance := h.balance c
  simp only [hheld, List.count_nil] at hsum
  simp only [State.consumptions, State.places, State.waiting] at hbalance ⊢
  omega

/-- A send drops what it has in its hands and returns an error. -/
theorem Inv.fail (h : Inv s) (hx : x ∈ s.sends) {k : Nat} (hk : x.heldFrom = k)
    (hdisplaced : x.displaced = false) (hnone : ∀ e ∈ s.entries, ∀ i, e.context ≠ some (x.id, i)) :
    Inv (s.fail x k) := by
  have hnew : ∀ p ∈ (s.fail x k).consumed,
      (p.1.1 = x.id ∧ p.2.sender = some x.id) ∨ p ∈ s.consumed := by
    intro p hp
    rcases List.mem_append.mp hp with hp | hp
    · obtain ⟨c, hc, rfl⟩ := List.mem_map.mp hp
      exact .inl ⟨(mem_contextsFrom.mp hc).1, rfl⟩
    · exact .inr hp
  refine ⟨nodup_eraseKey Send.id h.ids, h.handed, ?_, h.keys, h.shaped,
    fun y hy => h.owns y (mem_erase_send hy).1, fun y hy => h.modest y (mem_erase_send hy).1,
    ?_, ?_, ?_, ?_, fun y hy => h.next.1 y (mem_erase_send hy).1, h.next.2.1, h.next.2.2.1, ?_, ?_⟩
  · intro c
    have hsum := sum_map_eraseKey (fun y => y.held.count c) h.ids hx
    have hbalance := h.balance c
    have hheld : x.held = x.contextsFrom k := by rw [Send.held, hk]
    rw [hheld] at hsum
    have hconsumed : (s.fail x k).consumptions c =
        (x.contextsFrom k).count c + s.consumptions c := by
      simp only [State.consumptions, State.fail, List.map_append, List.map_map, List.count_append]
      congr 2
      exact List.map_id _
    rw [hconsumed]
    simp only [State.places, State.fail, State.waiting] at hbalance ⊢
    omega
  · intro y hy hd p hp hsender
    obtain ⟨hy, hne⟩ := mem_erase_send hy
    rcases hnew p hp with ⟨-, hx⟩ | hp
    · rw [hx] at hsender
      exact absurd (Option.some.inj hsender).symm hne
    · exact h.own y hy hd p hp hsender
  · intro n hn p hp hsender
    rcases hnew p hp with ⟨hid, hx⟩ | hp
    · rw [hx] at hsender
      exact hid.trans (Option.some.inj hsender)
    · rcases List.mem_cons.mp hn with rfl | hn
      · exact h.own x hx hdisplaced p hp hsender
      · exact h.others n hn p hp hsender
  · intro n hn e he c hc
    rcases List.mem_cons.mp hn with rfl | hn
    · intro heq
      refine hnone e he c.2 ?_
      rw [hc, ← heq]
    · exact h.gone n hn e he c hc
  · intro n hn y hy
    obtain ⟨hy, hne⟩ := mem_erase_send hy
    rcases List.mem_cons.mp hn with rfl | hn
    · exact hne
    · exact h.ended n hn y hy
  · intro p hp n hsender
    rcases hnew p hp with ⟨-, heq⟩ | hp
    · rw [heq] at hsender
      rw [← Option.some.inj hsender]
      exact h.next.1 x hx
    · exact h.next.2.2.2.1 p hp n hsender
  · intro n hn
    rcases List.mem_cons.mp hn with rfl | hn
    · exact h.next.1 x hx
    · exact h.next.2.2.2.2 n hn

/-- The slot that a registration writes into. No other slot in use has its key. -/
theorem register_some {entries' : List (Entry ν κ)}
    (hshaped : ∀ e ∈ entries, e.context.isSome = true → e.live = true)
    (hr : register name topic c entries = some (old, entries')) :
    ∃ l₁ l₂ e e', entries = l₁ ++ e :: l₂ ∧ entries' = l₁ ++ e' :: l₂ ∧ e.context = old ∧
      e'.context = some c ∧ e'.live = true ∧ e'.hasKey name topic = true ∧
      ((e.live = true ∧ e.hasKey name topic = true) ∨
        ∀ y ∈ entries, y.live = true → y.hasKey name topic = false) := by
  rw [register] at hr
  split at hr
  · next old' entries'' hmatch =>
    obtain ⟨rfl, rfl⟩ := Prod.mk.inj (Option.some.inj hr)
    obtain ⟨l₁, l₂, hl, hl', hp, -⟩ := updateFirst_some hmatch
    rw [Bool.and_eq_true] at hp
    refine ⟨l₁, l₂, old', _, hl, hl', rfl, rfl, ?_, hp.2, .inl hp⟩
    have hname := hp.1
    rw [Entry.live, Bool.and_eq_true] at hname ⊢
    exact ⟨hname.1, rfl⟩
  · next hmatch =>
    obtain ⟨⟨old', entries''⟩, hfree, heq⟩ := Option.map_eq_some_iff.mp hr
    obtain ⟨rfl, rfl⟩ := Prod.mk.inj heq
    obtain ⟨l₁, l₂, hl, hl', hp, -⟩ := updateFirst_some hfree
    have hnone : old'.context = none := by
      cases hcontext : old'.context with
      | none => rfl
      | some c' =>
        have hlive := hshaped old' (by rw [hl]; simp) (by rw [hcontext]; rfl)
        rw [hlive] at hp
        cases hp
    refine ⟨l₁, l₂, old', _, hl, hl', hnone, rfl, rfl, ?_, .inr fun y hy hlive => ?_⟩
    · simp [Entry.hasKey]
    · have hfalse := updateFirst_none.mp hmatch y hy
      rw [hlive, Bool.true_and] at hfalse
      exact hfalse

/-- The key of an entry. -/
theorem hasKey_iff {e : Entry ν κ} :
    e.hasKey name topic = true ↔ e.eventName = some name ∧ e.ctx = some topic := by
  rw [Entry.hasKey, Bool.and_eq_true, decide_eq_true_eq, decide_eq_true_eq]

/-- A registration keeps the keys distinct. -/
theorem pairwise_register {l₁ l₂ : List (Entry ν κ)} {e e' : Entry ν κ}
    (h : (l₁ ++ e :: l₂).Pairwise fun e e' => e.live = true → e'.live = true →
      ¬(e.eventName = e'.eventName ∧ e.ctx = e'.ctx)) (hkey : e'.hasKey name topic = true)
    (hold : (e.live = true ∧ e.hasKey name topic = true) ∨
      ∀ y ∈ l₁ ++ e :: l₂, y.live = true → y.hasKey name topic = false) :
    (l₁ ++ e' :: l₂).Pairwise fun e e' => e.live = true → e'.live = true →
      ¬(e.eventName = e'.eventName ∧ e.ctx = e'.ctx) := by
  rw [List.pairwise_append, List.pairwise_cons] at h ⊢
  obtain ⟨h₁, ⟨hright, h₂⟩, hcross⟩ := h
  obtain ⟨hname, hctx⟩ := hasKey_iff.mp hkey
  -- No other slot has the key of the new entry.
  have hother : ∀ y, y ∈ l₁ ∨ y ∈ l₂ → y.live = true →
      ¬(y.eventName = some name ∧ y.ctx = some topic) := by
    intro y hy hlive hsame
    rcases hold with ⟨helive, hekey⟩ | hnone
    · obtain ⟨hename, hectx⟩ := hasKey_iff.mp hekey
      rcases hy with hy | hy
      · exact hcross y hy e List.mem_cons_self hlive helive
          ⟨hsame.1.trans hename.symm, hsame.2.trans hectx.symm⟩
      · exact hright y hy helive hlive ⟨hename.trans hsame.1.symm, hectx.trans hsame.2.symm⟩
    · have hmem : y ∈ l₁ ++ e :: l₂ := by
        rcases hy with hy | hy
        · exact List.mem_append_left _ hy
        · exact List.mem_append_right _ (List.mem_cons_of_mem e hy)
      have hfalse := hnone y hmem hlive
      rw [hasKey_iff.mpr hsame] at hfalse
      cases hfalse
  refine ⟨h₁, ⟨?_, h₂⟩, ?_⟩
  · intro y hy _ hlive hsame
    exact hother y (.inr hy) hlive ⟨hsame.1 ▸ hname, hsame.2 ▸ hctx⟩
  · intro y hy z hz hlive hlive' hsame
    rcases List.mem_cons.mp hz with rfl | hz
    · exact hother y (.inl hy) hlive ⟨hsame.1.trans hname, hsame.2.trans hctx⟩
    · exact hcross y hy z (List.mem_cons_of_mem e hz) hlive hlive' hsame

omit [DecidableEq ν] [DecidableEq κ] in
/-- A registration consumes the context that was in the slot. -/
theorem consumed_registered (hnew : old ≠ some (x.id, i)) :
    (s.registered x i old entries).consumed =
      (old.map fun c => (c, Cause.superseded x.id)).toList ++ s.consumed := if_neg hnew

omit [DecidableEq ν] [DecidableEq κ] in
theorem consumptions_registered (hnew : old ≠ some (x.id, i)) (c : Ctx) :
    (s.registered x i old entries).consumptions c = countOf c old + s.consumptions c := by
  rw [State.consumptions, consumed_registered hnew]
  cases old with
  | none => simp [State.consumptions, countOf]
  | some d =>
    simp only [State.consumptions, Option.map_some, Option.toList_some, List.singleton_append,
      List.map_cons, List.count_cons, countOf]
    omega

/-- An event is registered. -/
theorem Inv.registered (h : Inv s) (hx : x ∈ s.sends) (hplace : x.place = .register i)
    {event : Event ν} (hevent : x.events[i]? = some event) (hcontext : event.hasContext = true)
    (hdeinit : s.deinit = none)
    (hr : register event.name x.topic (x.id, i) s.entries = some (old, entries)) :
    Inv (s.registered x i old entries) := by
  obtain ⟨l₁, l₂, e, e', hl, hl', he, he', hlive, hkey, hslot⟩ := register_some h.shaped hr
  have hmem : e ∈ s.entries := by
    rw [hl]
    exact List.mem_append_right _ List.mem_cons_self
  have hhas : x.hasContext i = true := by
    rw [Send.hasContext, hevent]
    exact hcontext
  have hheld : x.heldFrom = i := by rw [Send.heldFrom, hplace]
  -- The context itself is not in the inbox yet.
  have hnew : old ≠ some (x.id, i) := by
    intro heq
    have howns := (h.owns x hx e hmem i (he.trans heq)).1
    omega
  have hentries : ∀ y ∈ entries, y = e' ∨ y ∈ s.entries := by
    rw [hl, hl']
    exact fun y => mem_of_mem_update
  refine h.moved hx (f := fun y => { y with
    place := .register (i + 1)
    displaced := y.displaced || old.any fun c => c.1 != x.id }) ?_
  constructor
  case state => rfl
  case id => exact fun _ => rfl
  case balance =>
    intro c
    have htake := count_contextsFrom_take (c := c) hhas
    have hupdate := count_heldBy_update (g := Entry.context) c l₁ l₂ e e'
    rw [he, he'] at hupdate
    have hbefore : x.held.count c = (x.contextsFrom i).count c := by rw [Send.held, hheld]
    have hafter : (Send.held { x with
        place := .register (i + 1)
        displaced := x.displaced || old.any fun c => c.1 != x.id }).count c =
          (x.contextsFrom (i + 1)).count c := rfl
    rw [consumptions_registered hnew, hafter, hbefore]
    simp only [State.waiting, State.registered, hdeinit, Option.getD_none, List.drop_zero, hl, hl']
    omega
  case keys =>
    show entries.Pairwise _
    have hkeys := h.keys
    rw [hl] at hkeys hslot
    rw [hl']
    exact pairwise_register hkeys hkey hslot
  case entries =>
    intro y hy c hc
    rcases hentries y hy with rfl | hy
    · rw [he'] at hc
      rw [← Option.some.inj hc]
      exact .inr ⟨rfl, hlive⟩
    · exact .inl hy
  case owns =>
    intro y hy j hj
    rcases hentries y hy with rfl | hy
    · rw [he'] at hj
      obtain rfl : i = j := (Prod.mk.inj (Option.some.inj hj)).2
      exact ⟨Nat.lt_succ_self i, ⟨event, hevent, hcontext, hkey⟩, fun j count hp => by cases hp⟩
    · obtain ⟨hlt, hown, -⟩ := h.owns x hx y hy j hj
      rw [hheld] at hlt
      exact ⟨Nat.lt_succ_of_lt hlt, hown, fun j count hp => by cases hp⟩
  case modest =>
    intro hbusy
    rcases hbusy with hbusy | ⟨j, count, hbusy⟩ <;> cases hbusy
  case past =>
    intro p hp
    rw [consumed_registered hnew] at hp
    rcases List.mem_append.mp hp with hp | hp
    · obtain ⟨c, hc, rfl⟩ := Option.map_eq_some_iff.mp (Option.mem_toList.mp hp)
      refine .inr ⟨rfl, ?_⟩
      intro hd
      have hany := (Bool.or_eq_false_iff.mp hd).2
      rw [hc, Option.any_some, bne_eq_false_iff_eq] at hany
      exact hany
    · exact .inl hp
  case displaced => exact fun hd => (Bool.or_eq_false_iff.mp hd).1

section
variable (hkeys : ∀ e ∈ entries, e.context = some c → e.hasKey name topic = true)
include hkeys

/-- What a release leaves of an entry. -/
theorem mem_release {e : Entry ν κ} (he : e ∈ release name topic c entries) :
    e.context = none ∨ (e ∈ entries ∧ e.context ≠ some c) := by
  obtain ⟨e₀, he₀, rfl⟩ := List.mem_map.mp he
  split
  · exact .inl rfl
  · next hnot => exact .inr ⟨he₀, fun hc => hnot ⟨hc, hkeys e₀ he₀ hc⟩⟩

/-- A release takes the one context out of the inbox. -/
theorem heldBy_release :
    heldBy Entry.context (release name topic c entries) =
      (heldBy Entry.context entries).filter fun d => d ≠ c := by
  induction entries with
  | nil => rfl
  | cons e entries ih =>
    have htail := ih fun e he => hkeys e (List.mem_cons_of_mem _ he)
    rw [release] at htail ⊢
    rw [heldBy, heldBy] at htail ⊢
    rw [List.map_cons, List.filterMap_cons, List.filterMap_cons, htail]
    by_cases hc : e.context = some c
    · rw [if_pos ⟨hc, hkeys e List.mem_cons_self hc⟩, hc]
      simp [Entry.clear]
    · rw [if_neg fun hboth => hc hboth.1]
      cases hcontext : e.context with
      | none => rfl
      | some d =>
        have hne : d ≠ c := fun heq => hc (by rw [hcontext, heq])
        simp [hne]

/-- A release finds the context where the inbox holds it. -/
theorem releases_iff : releases name topic c entries = true ↔ c ∈ heldBy Entry.context entries := by
  rw [releases, List.any_eq_true, mem_heldBy]
  constructor
  · intro ⟨e, he, hp⟩
    exact ⟨e, he, (decide_eq_true_eq.mp hp).1⟩
  · intro ⟨e, he, hc⟩
    exact ⟨e, he, decide_eq_true_eq.mpr ⟨hc, hkeys e he hc⟩⟩

/-- The other contexts stay. -/
theorem count_release (d : Ctx) :
    (heldBy Entry.context (release name topic c entries)).count d =
      if d = c then 0 else (heldBy Entry.context entries).count d := by
  rw [heldBy_release hkeys]
  split
  · next heq =>
    rw [List.count_eq_zero, List.mem_filter]
    exact fun hmem => absurd heq (by simpa using hmem.2)
  · next hne => exact List.count_filter (by simpa using hne)

end

/-- A release keeps the keys distinct: a cleared slot is not in use. -/
theorem pairwise_release
    (h : entries.Pairwise fun e e' => e.live = true → e'.live = true →
      ¬(e.eventName = e'.eventName ∧ e.ctx = e'.ctx)) :
    (release name topic c entries).Pairwise fun e e' => e.live = true → e'.live = true →
      ¬(e.eventName = e'.eventName ∧ e.ctx = e'.ctx) := by
  have hdead (e : Entry ν κ) : e.clear.live = false := by
    rw [Entry.live, Entry.clear, Option.isSome_none, Bool.and_false]
  refine List.pairwise_map.mpr (h.imp ?_)
  intro e e' hdistinct hlive hlive'
  split at hlive
  · rw [hdead] at hlive
    cases hlive
  · split at hlive'
    · rw [hdead] at hlive'
      cases hlive'
    · next h₁ h₂ =>
      rw [if_neg h₁, if_neg h₂]
      exact hdistinct hlive hlive'

/-- What is released is consumed. -/
theorem balance_release {consumed : List (Ctx × Cause)} {cause : Cause}
    (hkeys : ∀ e ∈ entries, e.context = some c → e.hasKey name topic = true)
    (hone : (heldBy Entry.context entries).count c ≤ 1) (d : Ctx) :
    ((if releases name topic c entries then (c, cause) :: consumed else consumed).map
        Prod.fst).count d + (heldBy Entry.context (release name topic c entries)).count d =
      (consumed.map Prod.fst).count d + (heldBy Entry.context entries).count d := by
  have hfound := releases_iff hkeys
  rw [count_release hkeys]
  by_cases hd : d = c
  · subst hd
    rw [if_pos rfl]
    by_cases hmem : d ∈ heldBy Entry.context entries
    · have hpos := List.count_pos_iff.mpr hmem
      rw [if_pos (hfound.mpr hmem), List.map_cons, List.count_cons_self]
      omega
    · have hzero := List.count_eq_zero.mpr hmem
      rw [if_neg fun hr => hmem (hfound.mp hr)]
      omega
  · rw [if_neg hd]
    split
    · rw [List.map_cons, List.count_cons_of_ne (Ne.symm hd)]
    · rfl

section
variable (h : Inv s)
include h

section
variable (hx : x ∈ s.sends)
include hx

variable {count : Nat}

/-- A failing send takes one of its contexts out of the inbox. -/
theorem Inv.released (hplace : x.place = .release i count) {event : Event ν}
    (hevent : x.events[i]? = some event) (hdeinit : s.deinit = none) :
    Inv { s.goTo x (.release (i + 1) count) with
      entries := release event.name x.topic (x.id, i) s.entries
      consumed := if releases event.name x.topic (x.id, i) s.entries then
        ((x.id, i), .dropped x.id) :: s.consumed else s.consumed } := by
  have hkeys : ∀ e ∈ s.entries, e.context = some (x.id, i) →
      e.hasKey event.name x.topic = true := by
    intro e he hc
    obtain ⟨-, ⟨event', hevent', -, hkey⟩, -⟩ := h.owns x hx e he i hc
    rw [hevent] at hevent'
    obtain rfl := Option.some.inj hevent'
    exact hkey
  have hdisplaced := h.modest x hx (.inr ⟨i, count, hplace⟩)
  have hentries : ∀ e ∈ release event.name x.topic (x.id, i) s.entries, ∀ c,
      e.context = some c → e ∈ s.entries ∧ e.context ≠ some (x.id, i) := by
    intro e he c hc
    rcases mem_release hkeys he with hnone | hold
    · rw [hnone] at hc
      cases hc
    · exact hold
  refine h.moved hx (f := fun y => { y with place := .release (i + 1) count }) ?_
  constructor
  case state => rfl
  case id => exact fun _ => rfl
  case balance =>
    intro c
    have hsame : Send.held { x with place := .release (i + 1) count } = x.held := by
      rw [Send.held, Send.held, Send.heldFrom, Send.heldFrom, hplace]
      rfl
    have hwaiting : s.waiting = heldBy Entry.context s.entries := by
      rw [State.waiting, hdeinit]
      rfl
    have hone := h.le_one (x.id, i)
    rw [State.places, hwaiting] at hone
    have hrelease := @balance_release _ _ _ _ _ _ _ s.entries s.consumed (.dropped x.id) hkeys
      (by omega) c
    rw [hsame, hwaiting]
    simp only [State.consumptions, State.waiting, State.goTo, hdeinit, Option.getD_none,
      List.drop_zero]
    omega
  case keys => exact pairwise_release h.keys
  case entries => exact fun e he c hc => .inl (hentries e he c hc).1
  case owns =>
    intro e he j hj
    obtain ⟨hold, hne⟩ := hentries e he _ hj
    obtain ⟨hlt, hown, hle⟩ := h.owns x hx e hold j hj
    rw [Send.heldFrom, hplace] at hlt
    refine ⟨hlt, hown, ?_⟩
    intro k count' hp
    obtain ⟨rfl, rfl⟩ := Place.release.inj hp
    have hle := hle i _ hplace
    have hij : i ≠ j := by
      rintro rfl
      exact hne hj
    omega
  case modest => exact fun _ => hdisplaced
  case past =>
    intro p hp
    dsimp only at hp
    split at hp
    · rcases List.mem_cons.mp hp with rfl | hp
      · exact .inr ⟨rfl, fun _ => rfl⟩
      · exact .inl hp
    · exact .inl hp
  case displaced => exact id

/-- A send that gives up releases what it has registered. -/
theorem Inv.giveUp (hheld : x.heldFrom = count) (hdisplaced : x.displaced = false) :
    Inv (s.goTo x (.release 0 count)) := by
  refine h.goTo hx ?_ ?_ fun _ => hdisplaced
  · intro c
    rw [Send.held, Send.held, hheld]
    rfl
  · rintro e - j ⟨hlt, hown, -⟩
    rw [hheld] at hlt
    refine ⟨hlt, hown, ?_⟩
    intro k count hp
    obtain ⟨rfl, rfl⟩ := Place.release.inj hp
    exact Nat.zero_le j

/-- A send goes on to register an event, or to publish. -/
theorem Inv.proceed {place : Place} (hplace : (∃ i, place = .register i) ∨ place = .publish)
    (hheld : ∀ c, (Send.held { x with place := place }).count c = x.held.count c)
    (howns : ∀ i, x.hasContext i = true → i < x.heldFrom →
      i < Send.heldFrom { x with place := place }) : Inv (s.goTo x place) := by
  refine h.goTo hx hheld ?_ ?_
  · rintro e - i ⟨hlt, ⟨event, hevent, hcontext, hkey⟩, -⟩
    have hhas : x.hasContext i = true := by
      rw [Send.hasContext, hevent]
      exact hcontext
    refine ⟨howns i hhas hlt, ⟨event, hevent, hcontext, hkey⟩, ?_⟩
    rintro j count rfl
    rcases hplace with ⟨i, hplace⟩ | hplace <;> cases hplace
  · intro hbusy
    rcases hplace with ⟨i, rfl⟩ | rfl <;> rcases hbusy with hbusy | ⟨j, count, hbusy⟩ <;> cases hbusy

/-- A send registers the next event. -/
theorem Inv.registerStep {ok : Bool} (hg : x.Careful s ok) (hplace : x.place = .register i) :
    Inv (s.sendStep x ok) := by
  rw [Send.Careful, hplace] at hg
  obtain ⟨hdeinit, hfull⟩ := hg
  have hheld : x.heldFrom = i := by rw [Send.heldFrom, hplace]
  rw [State.sendStep, hplace]
  dsimp only
  cases hevent : x.events[i]? with
  | none =>
    have hge : x.events.length ≤ i := List.getElem?_eq_none_iff.mp hevent
    refine h.proceed hx (.inr rfl) ?_ fun j hj _ => lt_of_hasContext hj
    intro c
    rw [Send.held, Send.held, hheld, contextsFrom_of_le hge]
    exact congrArg (List.count c) (contextsFrom_of_le (x := { x with place := .publish })
      (Nat.le_refl _))
  | some event =>
    dsimp only
    split
    · next hcontext =>
      cases hr : register event.name x.topic (x.id, i) s.entries with
      | some r =>
        obtain ⟨old, entries⟩ := r
        exact h.registered hx hplace hevent hcontext hdeinit hr
      | none => exact h.giveUp hx hheld (hfull event hevent hcontext hr)
    · next hnone =>
      have hskip : x.hasContext i = false := by
        rw [Send.hasContext, hevent]
        simpa using hnone
      refine h.proceed hx (.inl ⟨i + 1, rfl⟩) ?_ ?_
      · intro c
        rw [Send.held, Send.held, hheld]
        exact count_contextsFrom_skip hskip
      · intro j _ hlt
        rw [hheld] at hlt
        exact Nat.lt_succ_of_lt hlt

/-- A send that fails releases the next event, or drops what it has in its hands. -/
theorem Inv.releaseStep {ok : Bool} (hdeinit : s.deinit = none)
    (hplace : x.place = .release i count) : Inv (s.sendStep x ok) := by
  have hheld : x.heldFrom = count := by rw [Send.heldFrom, hplace]
  have hdisplaced := h.modest x hx (.inr ⟨i, count, hplace⟩)
  -- An event without a context is passed over.
  have hpass : x.hasContext i = false → Inv (s.goTo x (.release (i + 1) count)) := by
    intro hskip
    refine h.goTo hx ?_ ?_ fun _ => hdisplaced
    · intro c
      rw [Send.held, Send.held, hheld]
      rfl
    · rintro e - j ⟨hlt, hown, hle⟩
      rw [hheld] at hlt
      refine ⟨hlt, hown, ?_⟩
      intro k count' hp
      obtain ⟨rfl, rfl⟩ := Place.release.inj hp
      have hle := hle i _ hplace
      have hne : i ≠ j := by
        rintro rfl
        obtain ⟨event, hevent, hcontext, -⟩ := hown
        rw [Send.hasContext, hevent, Option.any_some, hcontext] at hskip
        cases hskip
      omega
  rw [State.sendStep, hplace]
  dsimp only
  split
  · cases hevent : x.events[i]? with
    | none =>
      apply hpass
      rw [Send.hasContext, hevent]
      rfl
    | some event =>
      dsimp only
      split
      · exact h.released hx hplace hevent hdeinit
      · next hnone =>
        apply hpass
        rw [Send.hasContext, hevent]
        simpa using hnone
  · refine h.fail hx hheld hdisplaced ?_
    intro e he j hj
    obtain ⟨hlt, -, hle⟩ := h.owns x hx e he j hj
    have hle := hle i count hplace
    omega

/-- The steps of a send, where it is careful. -/
theorem Inv.sendStep {ok : Bool} (hg : x.Careful s ok) : Inv (s.sendStep x ok) := by
  cases hplace : x.place with
  | build =>
    have hheld : x.heldFrom = 0 := by rw [Send.heldFrom, hplace]
    rw [State.sendStep, hplace]
    dsimp only
    split
    · refine h.proceed hx (.inl ⟨0, rfl⟩) ?_ ?_
      · intro c
        rw [Send.held, Send.held, hheld]
        rfl
      · intro i _ hlt
        omega
    · refine h.fail hx hheld (h.modest x hx (.inl hplace)) ?_
      intro e he i hi
      have hlt := (h.owns x hx e he i hi).1
      omega
  | register i => exact h.registerStep hx hg hplace
  | publish =>
    rw [Send.Careful, hplace] at hg
    have hheld : x.heldFrom = x.events.length := by rw [Send.heldFrom, hplace]
    have hempty : x.held = [] := by rw [Send.held, hheld, contextsFrom_of_le (Nat.le_refl _)]
    rw [State.sendStep, hplace]
    dsimp only
    split
    · exact h.succeed hx hempty
    · next hfailed => exact h.giveUp hx hheld (hg (by simpa using hfailed))
  | release i count =>
    rw [Send.Careful, hplace] at hg
    exact h.releaseStep hx hg hplace

end

/-- A response takes a context out of the inbox. -/
theorem Inv.takeOut (hdeinit : s.deinit = none) (name : ν) (topic : κ) :
    Inv (s.takeOut name topic) := by
  rw [State.takeOut]
  split
  · next old entries hr =>
    obtain ⟨l₁, l₂, hl, hl', -, -⟩ := updateFirst_some hr
    have hkept : ∀ e ∈ entries, ∀ c, e.context = some c → e ∈ s.entries := by
      intro e he c hc
      rw [hl'] at he
      rw [hl]
      rcases mem_of_mem_update he with rfl | he
      · cases hc
      · exact he
    refine ⟨h.ids, h.handed, ?_, ?_, ?_, fun x hx e he i hi => h.owns x hx e (hkept e he _ hi) i hi,
      h.modest, h.own, h.others, fun n hn e he c hc => h.gone n hn e (hkept e he c hc) c hc, h.ended,
      h.next.1, h.next.2.1, fun e he c hc => h.next.2.2.1 e (hkept e he c hc) c hc, h.next.2.2.2⟩
    · intro c
      have hbalance := h.balance c
      have hupdate := count_heldBy_update (g := Entry.context) c l₁ l₂ old old.clear
      have htaken : (old.context.toList ++ s.taken).count c =
          countOf c old.context + s.taken.count c := by
        cases old.context with
        | none => simp [countOf]
        | some d =>
          simp only [Option.toList_some, List.singleton_append, List.count_cons, countOf]
          omega
      have hclear : countOf c old.clear.context = 0 := rfl
      simp only [State.consumptions, State.places, State.waiting, hdeinit, Option.getD_none,
        List.drop_zero, hl, hl', htaken] at hbalance ⊢
      omega
    · have hkeys := h.keys
      rw [hl] at hkeys
      rw [hl']
      rw [List.pairwise_append, List.pairwise_cons] at hkeys ⊢
      have hdead : ¬old.clear.live = true := by
        rw [Entry.live, Entry.clear, Option.isSome_none, Bool.and_false]
        exact Bool.false_ne_true
      refine ⟨hkeys.1, ⟨fun e _ hlive => absurd hlive hdead, hkeys.2.1.2⟩, ?_⟩
      intro e he e' he' hlive hlive'
      rcases List.mem_cons.mp he' with rfl | he'
      · exact absurd hlive' hdead
      · exact hkeys.2.2 e he e' (List.mem_cons_of_mem old he') hlive hlive'
    · intro e he hsome
      obtain ⟨c, hc⟩ := Option.isSome_iff_exists.mp hsome
      exact h.shaped e (hkept e he c hc) hsome
  · exact h

/-- The history grows by a context that no send has consumed. -/
theorem Inv.consume {t : State ν κ} (c : Ctx) (cause : Cause) (hcause : cause.sender = none)
    (hconsumed : t.consumed = (c, cause) :: s.consumed) (hsends : t.sends = s.sends)
    (hentries : t.entries = s.entries) (hfailed : t.failed = s.failed)
    (hhanded : t.handed = s.handed) (hnext : t.nextSend = s.nextSend)
    (hbalance : ∀ d, t.consumptions d + t.places d = s.consumptions d + s.places d) : Inv t := by
  have hpast : ∀ p ∈ t.consumed, ∀ n, p.2.sender = some n → p ∈ s.consumed := by
    intro p hp n hn
    rw [hconsumed] at hp
    rcases List.mem_cons.mp hp with rfl | hp
    · rw [hcause] at hn
      cases hn
    · exact hp
  obtain ⟨h₁, h₂, h₃, h₄, h₅⟩ := h.next
  refine ⟨by rw [hsends]; exact h.ids, by rw [hhanded]; exact h.handed, ?_,
    by rw [hentries]; exact h.keys, by rw [hentries]; exact h.shaped,
    by rw [hsends, hentries]; exact h.owns, by rw [hsends]; exact h.modest, ?_, ?_,
    by rw [hfailed, hentries]; exact h.gone, by rw [hfailed, hsends]; exact h.ended, ?_⟩
  · intro d
    rw [hbalance, hhanded]
    exact h.balance d
  · rw [hsends]
    exact fun x hx hd p hp hs => h.own x hx hd p (hpast p hp _ hs) hs
  · rw [hfailed]
    exact fun n hn p hp hs => h.others n hn p (hpast p hp _ hs) hs
  · rw [hsends, hhanded, hentries, hfailed, hnext]
    exact ⟨h₁, h₂, h₃, fun p hp n hn => h₄ p (hpast p hp n hn) n hn, h₅⟩

/-- The callback of a response is called. -/
theorem Inv.callback (hc : c ∈ s.taken) :
    Inv { s with taken := s.taken.erase c, consumed := (c, .response) :: s.consumed } := by
  refine h.consume c .response rfl rfl rfl rfl rfl rfl rfl fun d => ?_
  have hpos := List.count_pos_iff.mpr hc
  simp only [State.consumptions, State.places, State.waiting, List.map_cons, List.count_cons]
  by_cases hd : c = d
  · subst hd
    rw [List.count_erase_self, beq_self_eq_true, if_pos rfl]
    omega
  · rw [List.count_erase_of_ne (Ne.symm hd), beq_eq_false_iff_ne.mpr hd,
      if_neg Bool.false_ne_true]
    omega

/-- The inbox is torn down. -/
theorem Inv.deinitStep : Inv s.deinitStep := by
  rw [State.deinitStep]
  cases hdeinit : s.deinit with
  | none =>
    dsimp only
    split
    · exact h
    · refine ⟨h.ids, h.handed, ?_, h.keys, h.shaped, h.owns, h.modest, h.own, h.others, h.gone,
        h.ended, h.next⟩
      intro c
      have hbalance := h.balance c
      simp only [State.consumptions, State.places, State.waiting, hdeinit, Option.getD_none,
        Option.getD_some] at hbalance ⊢
      exact hbalance
  | some k =>
    dsimp only
    cases hk : s.entries[k]? with
    | none =>
      have hge := List.getElem?_eq_none_iff.mp hk
      refine ⟨h.ids, h.handed, ?_, List.Pairwise.nil, (fun e he => nomatch he),
        (fun x _ e he => nomatch he), h.modest, h.own, h.others, (fun n _ e he => nomatch he),
        h.ended, h.next.1, h.next.2.1, (fun e he => nomatch he), h.next.2.2.2⟩
      intro c
      have hbalance := h.balance c
      simp only [State.consumptions, State.places, State.waiting, hdeinit, Option.getD_none,
        Option.getD_some, List.drop_of_length_le hge, List.drop_nil] at hbalance ⊢
      exact hbalance
    | some e =>
      obtain ⟨hlt, he⟩ := List.getElem?_eq_some_iff.mp hk
      have hdrop : s.entries.drop k = e :: s.entries.drop (k + 1) := by
        rw [List.drop_eq_getElem_cons hlt, he]
      have hcount : ∀ c, (heldBy Entry.context (s.entries.drop k)).count c =
          countOf c e.context + (heldBy Entry.context (s.entries.drop (k + 1))).count c := by
        intro c
        rw [hdrop]
        exact count_heldBy_cons c e _
      dsimp only
      cases hcontext : e.context with
      | none =>
        refine ⟨h.ids, h.handed, ?_, h.keys, h.shaped, h.owns, h.modest, h.own, h.others, h.gone,
          h.ended, h.next⟩
        intro c
        have hbalance := h.balance c
        have hc := hcount c
        rw [hcontext, countOf] at hc
        simp only [State.consumptions, State.places, State.waiting, hdeinit,
          Option.getD_some, Option.map_none, Option.toList_none, List.nil_append] at hbalance ⊢
        omega
      | some d =>
        refine h.consume d .deinit rfl rfl rfl rfl rfl rfl rfl fun c => ?_
        have hc := hcount c
        rw [hcontext, countOf] at hc
        simp only [State.consumptions, State.places, State.waiting, hdeinit,
          Option.getD_some, Option.map_some, Option.toList_some, List.singleton_append,
          List.map_cons, List.count_cons]
        omega

/-- A send begins. -/
theorem Inv.send (topic : κ) (events : List (Event ν)) :
    Inv { s with
      sends := { id := s.nextSend, topic, events } :: s.sends
      nextSend := s.nextSend + 1
      handed := Send.contextsFrom ({ id := s.nextSend, topic, events } : Send ν κ) 0 ++ s.handed } := by
  obtain ⟨h₁, h₂, h₃, h₄, h₅⟩ := h.next
  have hids : ∀ c ∈ Send.contextsFrom ({ id := s.nextSend, topic, events } : Send ν κ) 0,
      c.1 = s.nextSend := fun c hc => (mem_contextsFrom.mp hc).1
  refine ⟨?_, ?_, ?_, h.keys, h.shaped, ?_, ?_, ?_, h.others, h.gone, ?_, ?_, ?_,
    fun e he c hc => Nat.lt_succ_of_lt (h₃ e he c hc),
    fun p hp n hn => Nat.lt_succ_of_lt (h₄ p hp n hn), fun n hn => Nat.lt_succ_of_lt (h₅ n hn)⟩
  · rw [List.map_cons, List.nodup_cons]
    refine ⟨?_, h.ids⟩
    rw [List.mem_map]
    intro ⟨x, hx, hid⟩
    have hlt := h₁ x hx
    rw [hid] at hlt
    exact Nat.lt_irrefl _ hlt
  · refine List.nodup_append.mpr ⟨nodup_contextsFrom, h.handed, ?_⟩
    rintro c hc d hd rfl
    have hlt := h₂ c hd
    rw [hids c hc] at hlt
    exact Nat.lt_irrefl _ hlt
  · intro c
    have hbalance := h.balance c
    have hheld : Send.held ({ id := s.nextSend, topic, events } : Send ν κ) =
        Send.contextsFrom { id := s.nextSend, topic, events } 0 := rfl
    simp only [State.consumptions, State.places, State.waiting, List.map_cons, List.sum_cons,
      List.count_append, hheld] at hbalance ⊢
    omega
  · intro x hx e he i hi
    rcases List.mem_cons.mp hx with rfl | hx
    · have hlt := h₃ e he _ hi
      exact absurd hlt (Nat.lt_irrefl _)
    · exact h.owns x hx e he i hi
  · intro x hx hbusy
    rcases List.mem_cons.mp hx with rfl | hx
    · rfl
    · exact h.modest x hx hbusy
  · intro x hx hd p hp hs
    rcases List.mem_cons.mp hx with rfl | hx
    · exact absurd (h₄ p hp _ hs) (Nat.lt_irrefl _)
    · exact h.own x hx hd p hp hs
  · intro n hn x hx
    rcases List.mem_cons.mp hx with rfl | hx
    · have hlt := h₅ n hn
      show s.nextSend ≠ n
      omega
    · exact h.ended n hn x hx
  · intro x hx
    rcases List.mem_cons.mp hx with rfl | hx
    · exact Nat.lt_succ_self _
    · exact Nat.lt_succ_of_lt (h₁ x hx)
  · intro c hc
    rcases List.mem_append.mp hc with hc | hc
    · rw [hids c hc]
      exact Nat.lt_succ_self _
    · exact Nat.lt_succ_of_lt (h₂ c hc)

/-- The slots are allocated. -/
theorem Inv.init (hempty : s.entries = []) (size : Nat) :
    Inv { s with entries := List.replicate size {} } := by
  have hnone : ∀ e ∈ List.replicate size ({} : Entry ν κ), e.context = none := by
    intro e he
    rw [List.eq_of_mem_replicate he]
  have hnot : ∀ e ∈ List.replicate size ({} : Entry ν κ), ∀ c, e.context ≠ some c := by
    intro e he c hc
    rw [hnone e he] at hc
    cases hc
  refine ⟨h.ids, h.handed, ?_, ?_, ?_, fun x _ e he i hi => absurd hi (hnot e he _), h.modest, h.own,
    h.others, fun n _ e he c hc => absurd hc (hnot e he c), h.ended, h.next.1, h.next.2.1,
    fun e he c hc => absurd hc (hnot e he c), h.next.2.2.2⟩
  · intro c
    have hbalance := h.balance c
    have hwaiting : heldBy Entry.context
        ((List.replicate size ({} : Entry ν κ)).drop (s.deinit.getD 0)) = [] := by
      rw [List.eq_nil_iff_forall_not_mem]
      intro d hd
      obtain ⟨e, he, hcontext⟩ := mem_heldBy.mp hd
      exact hnot e (List.mem_of_mem_drop he) d hcontext
    simp only [State.consumptions, State.places, State.waiting, hempty, List.drop_nil,
      hwaiting] at hbalance ⊢
    exact hbalance
  · rw [List.pairwise_replicate]
    exact .inr fun hlive => nomatch hlive
  · intro e he hsome
    rw [hnone e he] at hsome
    cases hsome

/-- Each step keeps the invariant, where the sends are careful. -/
theorem Inv.step {size : Nat} {t : State ν κ} {a : Action ν κ} (hg : Careful s a)
    (ht : step size s a = some t) : Inv t := by
  cases a with
  | init =>
    rw [Inbox.step] at ht
    split at ht
    · next hempty =>
      obtain rfl := Option.some.inj ht
      exact h.init hempty size
    · cases ht
  | send topic events =>
    rw [Inbox.step] at ht
    split at ht
    · obtain rfl := Option.some.inj ht
      exact h
    · obtain rfl := Option.some.inj ht
      exact h.send topic events
  | go send ok =>
    obtain ⟨x, hfind, rfl⟩ := Option.map_eq_some_iff.mp ht
    exact h.sendStep (List.mem_of_find?_eq_some hfind) (hg x hfind)
  | response name topic =>
    obtain rfl := Option.some.inj ht
    exact h.takeOut hg name topic
  | callback c =>
    rw [Inbox.step] at ht
    split at ht
    · next hc =>
      obtain rfl := Option.some.inj ht
      exact h.callback hc
    · cases ht
  | deinit =>
    obtain rfl := Option.some.inj ht
    exact h.deinitStep

end

/-! ### Every run -/

theorem Inv.initial (h : Initial s) : Inv s := by
  subst h
  exact ⟨List.nodup_nil, List.nodup_nil, fun _ => rfl, List.Pairwise.nil, (fun _ he => nomatch he),
    (fun _ hx => nomatch hx), (fun _ hx => nomatch hx), (fun _ hx => nomatch hx),
    (fun _ hn => nomatch hn), (fun _ hn => nomatch hn), (fun _ hn => nomatch hn),
    (fun _ hx => nomatch hx), (fun _ hc => nomatch hc), (fun _ he => nomatch he),
    (fun _ hp => nomatch hp), fun _ hn => nomatch hn⟩

/-- **The response inbox.** While a send fails only before it has taken over a slot, each context is
consumed exactly once, the keys are distinct, and a failed send leaves the other requests alone. -/
theorem exact_of_careful {size : Nat} (h : Reach Initial (step size) Careful s) : Exact s :=
  (h.inv Inv (fun _ h => Inv.initial h) fun _ _ _ hi hg ht => hi.step hg ht).exact

/-! ### Two runs -/

instance (s : State ν κ) (x : Send ν κ) (ok : Bool) : Decidable (x.Careful s ok) := by
  unfold Send.Careful
  cases x.place with
  | build => exact instDecidableTrue
  | register i =>
    have h : ∀ o : Option (Event ν), Decidable (∀ event, o = some event →
        event.hasContext = true → register event.name x.topic (x.id, i) s.entries = none →
          x.displaced = false)
      | none => isTrue (fun _ he => nomatch he)
      | some event => decidable_of_iff
          (event.hasContext = true → register event.name x.topic (x.id, i) s.entries = none →
            x.displaced = false)
          ⟨fun h e he => Option.some.inj he ▸ h, fun h => h event rfl⟩
    haveI := h x.events[i]?
    exact inferInstanceAs (Decidable (_ ∧ _))
  | publish => exact inferInstanceAs (Decidable (_ → _))
  | release i count => exact inferInstanceAs (Decidable (_ = _))

instance (s : State ν κ) : ∀ a, Decidable (Careful s a)
  | .go send ok =>
    match h : s.sends.find? fun x => x.id = send with
    | none => isTrue fun x hx => by rw [h] at hx; cases hx
    | some x => decidable_of_iff (x.Careful s ok)
        ⟨fun hc y hy => Option.some.inj (h.symm.trans hy) ▸ hc, fun hc => hc x h⟩
  | .response _ _ => inferInstanceAs (Decidable (_ = _))
  | .init | .send _ _ | .callback _ | .deinit => instDecidableTrue

/-- An event of the one kind, with a context. -/
def request : Event Nat := { name := 0, hasContext := true }

/-- A request is superseded by a newer one, which is answered. A third send fails. -/
def superseding : List (Action Nat Nat) :=
  [.init, .send 0 [request], .go 0 true, .go 0 true, .go 0 true, .go 0 true, .send 0 [request],
    .go 1 true, .go 1 true, .go 1 true, .go 1 true, .response 0 0, .callback (1, 0),
    .send 0 [request], .go 2 true, .go 2 true, .go 2 true, .go 2 false, .go 2 true, .go 2 true,
    .deinit, .deinit, .deinit]

theorem superseding_exact :
    ∃ s : State Nat Nat, exec (step 1) {} superseding = some s ∧
      s.consumed = [((2, 0), .dropped 2), ((1, 0), .response), ((0, 0), .superseded 1)] ∧
        s.failed = [2] ∧ Exact s := by
  have hrun : Reach Initial (step 1) Careful _ :=
    Reach.exec superseding (.start rfl) (by decide +kernel) rfl
  exact ⟨_, rfl, rfl, rfl, exact_of_careful hrun⟩

/-- A request waits. The newer one takes over its slot, and its publish fails. -/
def failingTakeover : List (Action Nat Nat) :=
  [.init, .send 0 [request], .go 0 true, .go 0 true, .go 0 true, .go 0 true, .send 0 [request],
    .go 1 true, .go 1 true, .go 1 true, .go 1 false, .go 1 true, .go 1 true]

/-- The callback of the earlier request is gone, and the inbox is empty. -/
theorem failed_takeover :
    ∃ s : State Nat Nat, Reach Initial (step 1) (fun _ _ => True) s ∧ 1 ∈ s.failed ∧
      ((0, 0), Cause.superseded 1) ∈ s.consumed ∧ s.waiting = [] ∧ ¬Exact s := by
  refine ⟨_, Reach.exec_true failingTakeover (.start rfl) rfl, by decide +kernel,
    by decide +kernel, by decide +kernel, fun hexact => ?_⟩
  have hown := hexact.others 1 (by decide +kernel) ((0, 0), .superseded 1) (by decide +kernel) rfl
  exact absurd hown (by decide)

end RainMakerNeo.Cloud.Inbox
