import RainMakerNeo.Lib.Run

/-!
# `RainMakerNeo.Cloud.NotifySync`: waiting for a notification to be confirmed

`esp_rmaker_notify_send_sync` publishes a notification and waits for a binary semaphore. The
completion handler gives the semaphore for each notify publish, whoever made it and whether it was
acknowledged or failed. `Sound` says that a call returns `ESP_RMAKER_OK` only if its own publish was
acknowledged.

The steps of the calls, the other sends and the completions are interleaved in any way. `Careful`
excludes a completion that finds a call between its first take and its own acknowledgement, and
that is not this acknowledgement. `notifySync_sound` says that no other completion does harm, and
that each of these can make a call return `ESP_RMAKER_OK` for nothing.
-/

set_option autoImplicit false

namespace RainMakerNeo.Cloud.NotifySync

open RainMakerNeo.Lib

/-! ### The model -/

/-- `esp_rmaker_error_t`, as far as it is returned. -/
inductive Error
  | invalidArg
  | invalidState
  | noMem
  | timeout
  | fail
  /-- The error of a payload function. -/
  | payload (code : Nat)
  deriving DecidableEq, Repr

/-- `RMAKER_NOTIFY_PAYLOAD_MIN_SIZE`. -/
def payloadMinSize : Nat := 14

/-- A notification, and what the send of it meets. -/
structure Notification where
  /-- The notification and its payload function are not `NULL`. -/
  given : Bool := true
  /-- The size that `__notify_make_json_payload` reports. -/
  size : Except Error Nat
  allocates : Bool := true
  /-- The second `__notify_make_json_payload`. -/
  made : Except Error Unit := .ok ()
  topicFits : Bool := true
  publishes : Bool := true

/-- A notify publish that the MQTT client has taken. -/
inductive Publish
  | sent
  /-- The client has reported its completion. -/
  | completed (ok : Bool)
  deriving DecidableEq, Repr

/-- A call of `esp_rmaker_notify_send_sync`. A publish is named by its number. -/
inductive Call
  /-- Before the publish. -/
  | cleared
  /-- Before the second take. -/
  | waiting (publish : Nat)
  /-- It has returned `ESP_RMAKER_OK`. -/
  | confirmed (publish : Nat)
  | failed (e : Error)
  deriving DecidableEq, Repr

structure State where
  /-- `__notify_flush_sem`. The flag says that it is given. -/
  flushSem : Option Bool := none
  /-- The completion handler is registered. -/
  registered : Bool := false
  publishes : List Publish := []
  calls : List Call := []
  deriving DecidableEq, Repr

/-- `esp_rmaker_notify_init`. -/
def State.init (s : State) (creates registers : Bool) : State :=
  match s.flushSem with
  | some _ => { s with registered := s.registered || registers }
  | none =>
    if creates then { s with flushSem := some false, registered := s.registered || registers }
    else s

/-- `__notify_mqtt_event_handler` for `MQTT_CHANNEL_SUB_NOTIFY_SEND`. The status is only logged. -/
def State.complete (s : State) (publish : Nat) (ok : Bool) : State :=
  { s with
    publishes := s.publishes.set publish (.completed ok)
    -- given for each completion, since the handler does not know whose publish it is
    flushSem := if s.registered then s.flushSem.map fun _ => true else s.flushSem }

/-- The checks of `__notify_send_with_ctx` before the publish. -/
def Notification.check (n : Notification) : Except Error Unit := do
  if !n.given then throw .invalidArg
  let size ← n.size
  if size ≤ payloadMinSize then throw .invalidArg
  if !n.allocates then throw .noMem
  n.made
  if !n.topicFits then throw .fail
  if !n.publishes then throw .fail

/-- `__notify_send_with_ctx`, with the publish that it makes. -/
def State.send (s : State) (n : Notification) : State × Except Error Nat :=
  match n.check with
  | .ok () => ({ s with publishes := s.publishes ++ [.sent] }, .ok s.publishes.length)
  | .error e => (s, .error e)

/-- `esp_rmaker_notify_send_sync` up to the first take. -/
def State.syncStart (s : State) : State :=
  match s.flushSem with
  | none => { s with calls := s.calls ++ [.failed .invalidState] }
  -- the first take does not wait, and a semaphore that is not given stays so
  | some _ => { s with flushSem := some false, calls := s.calls ++ [.cleared] }

/-- What happens on the node. -/
inductive Action
  | init (creates registers : Bool)
  /-- `esp_rmaker_notify_send`, `esp_rmaker_notify_send_for_node` or
  `esp_rmaker_notify_send_push`. -/
  | send (n : Notification)
  /-- The MQTT client reports the completion of a publish. -/
  | complete (publish : Nat) (ok : Bool)
  | syncStart
  /-- A call sends its notification. -/
  | syncSend (i : Nat) (n : Notification)
  /-- The second take of a call succeeds. -/
  | syncTake (i : Nat)
  /-- The second take of a call times out. -/
  | syncTimeout (i : Nat)

/-- One step of the node. -/
def step (s : State) : Action → Option State
  | .init creates registers => some (s.init creates registers)
  | .send n => some (s.send n).1
  | .complete publish ok =>
    match s.publishes[publish]? with
    | some .sent => some (s.complete publish ok)
    | _ => none
  | .syncStart => some s.syncStart
  | .syncSend i n =>
    match s.calls[i]? with
    | some .cleared =>
      match s.send n with
      | (s, .ok publish) => some { s with calls := s.calls.set i (.waiting publish) }
      | (s, .error e) => some { s with calls := s.calls.set i (.failed e) }
    | _ => none
  | .syncTake i =>
    match s.calls[i]?, s.flushSem with
    | some (.waiting publish), some true =>
      some { s with flushSem := some false, calls := s.calls.set i (.confirmed publish) }
    | _, _ => none
  | .syncTimeout i =>
    match s.calls[i]? with
    | some (.waiting _) => some { s with calls := s.calls.set i (.failed .timeout) }
    | _ => none

/-! ### The contract -/

/-- The publish was acknowledged successfully. -/
def Acked (publishes : List Publish) (publish : Nat) : Prop :=
  publishes[publish]? = some (.completed true)

/-- A call returns `ESP_RMAKER_OK` only if the publish that it made was acknowledged. -/
def Sound (s : State) : Prop :=
  ∀ publish, Call.confirmed publish ∈ s.calls → Acked s.publishes publish

/-- The call has not returned. -/
def Call.IsOpen : Call → Prop
  | .cleared | .waiting _ => True
  | .confirmed _ | .failed _ => False

/-- The own publish of the open call was acknowledged. -/
def Call.AckedIn (c : Call) (publishes : List Publish) : Prop :=
  ∃ publish, c = .waiting publish ∧ Acked publishes publish

instance : DecidablePred Call.IsOpen
  | .cleared | .waiting _ => inferInstanceAs (Decidable True)
  | .confirmed _ | .failed _ => inferInstanceAs (Decidable False)

instance (publishes : List Publish) (publish : Nat) : Decidable (Acked publishes publish) :=
  inferInstanceAs (Decidable (_ = _))

instance (c : Call) (publishes : List Publish) : Decidable (c.AckedIn publishes) :=
  match c with
  | .waiting publish => decidable_of_iff (Acked publishes publish) (by simp [Call.AckedIn])
  | .cleared | .confirmed _ | .failed _ => .isFalse (by simp [Call.AckedIn])

/-- As long as there is an open call without an acknowledgement, the handler is given only that
acknowledgement. -/
def Careful (s : State) : Action → Prop
  | .complete publish ok =>
    s.registered = true → ∀ c ∈ s.calls, c.IsOpen →
      c.AckedIn s.publishes ∨ (c = .waiting publish ∧ ok = true)
  | _ => True

instance (s : State) : DecidablePred (Careful s)
  | .complete _ _ => inferInstanceAs (Decidable (_ → ∀ c ∈ s.calls, c.IsOpen → _))
  | .init _ _ | .send _ | .syncStart | .syncSend _ _ | .syncTake _ | .syncTimeout _ =>
    inferInstanceAs (Decidable True)

/-- A given semaphore stands for the acknowledgement of each open call. -/
structure Inv (s : State) : Prop where
  sound : Sound s
  acked : s.flushSem = some true → ∀ c ∈ s.calls, c.IsOpen → c.AckedIn s.publishes
  created : s.registered = true → s.flushSem.isSome
  started : ∀ c ∈ s.calls, c.IsOpen → s.flushSem.isSome

variable {s t : State}

/-! ### The steps -/

/-- A send adds its publish behind the others, or it changes nothing. -/
theorem send_cases (s : State) (n : Notification) :
    s.send n = ({ s with publishes := s.publishes ++ [.sent] }, .ok s.publishes.length) ∨
      ∃ e, s.send n = (s, .error e) := by
  unfold State.send
  split
  · exact .inl rfl
  · next e _ => exact .inr ⟨e, rfl⟩

theorem Acked.append {publishes : List Publish} {p : Nat} (h : Acked publishes p)
    (q : Publish) : Acked (publishes ++ [q]) p := by
  have hlt : p < publishes.length := (List.getElem?_eq_some_iff.mp h).1
  rw [Acked, List.getElem?_append_left hlt]
  exact h

/-- A publish that was acknowledged is complete, so another one completes. -/
theorem Acked.set {publishes : List Publish} {p q : Nat} {ok : Bool} (h : Acked publishes p)
    (hq : publishes[q]? = some .sent) : Acked (publishes.set q (.completed ok)) p := by
  have hne : q ≠ p := by
    rintro rfl
    simp [Acked, hq] at h
  rw [Acked, List.getElem?_set_ne hne]
  exact h

theorem acked_set_self {publishes : List Publish} {q : Nat}
    (hq : publishes[q]? = some .sent) : Acked (publishes.set q (.completed true)) q := by
  have hlt : q < publishes.length := (List.getElem?_eq_some_iff.mp hq).1
  simp [Acked, hlt]

section
variable (h : Inv s)
include h

/-- The invariant survives what leaves the semaphore and the acknowledgements. -/
theorem Inv.publishes {publishes : List Publish}
    (hkeep : ∀ p, Acked s.publishes p → Acked publishes p) : Inv { s with publishes } where
  sound p hp := hkeep p (h.sound p hp)
  acked hsem c hc hopen := by
    obtain ⟨p, rfl, hp⟩ := h.acked hsem c hc hopen
    exact ⟨p, rfl, hkeep p hp⟩
  created := h.created
  started := h.started

/-- A call that goes on needs no acknowledgement as long as the semaphore is not given. -/
theorem Inv.setCall {i : Nat} {c : Call} (hsound : ∀ p, c = .confirmed p → Acked s.publishes p)
    (hacked : c.IsOpen → s.flushSem = some false) : Inv { s with calls := s.calls.set i c } where
  sound p hp := by
    rcases List.mem_or_eq_of_mem_set hp with hp | hp
    · exact h.sound p hp
    · exact hsound p hp.symm
  acked hsem d hd hopen := by
    rcases List.mem_or_eq_of_mem_set hd with hd | rfl
    · exact h.acked hsem d hd hopen
    · simp [hacked hopen] at hsem
  created := h.created
  started d hd hopen := by
    rcases List.mem_or_eq_of_mem_set hd with hd | rfl
    · exact h.started d hd hopen
    · simp [hacked hopen]

/-- A new semaphore or a cleared one is not given. -/
theorem Inv.clear (registered : Bool) : Inv { s with flushSem := some false, registered } where
  sound := h.sound
  acked hsem := by simp at hsem
  created _ := rfl
  started _ _ _ := rfl

theorem Inv.init (creates registers : Bool) : Inv (s.init creates registers) := by
  cases hsem : s.flushSem with
  | some given =>
    -- the semaphore is there already
    simp only [State.init, hsem]
    exact
      { sound := h.sound
        acked := fun hgiven => h.acked (hsem.trans hgiven)
        created := fun _ => rfl
        started := fun _ _ _ => rfl }
  | none =>
    cases creates with
    | true => simpa [State.init, hsem] using h.clear (s.registered || registers)
    | false => simpa [State.init, hsem] using h

theorem Inv.send (n : Notification) : Inv (s.send n).1 := by
  rcases send_cases s n with heq | ⟨e, heq⟩
  · rw [heq]
    exact h.publishes fun p hp => hp.append .sent
  · rw [heq]
    exact h

/-- A careful completion leaves each open call with its acknowledgement. -/
theorem Inv.complete {publish : Nat} {ok : Bool} (hcareful : Careful s (.complete publish ok))
    (hsent : s.publishes[publish]? = some .sent) : Inv (s.complete publish ok) := by
  have hset : Inv { s with publishes := s.publishes.set publish (.completed ok) } :=
    h.publishes fun p hp => hp.set hsent
  by_cases hreg : s.registered = true
  · obtain ⟨given, hgiven⟩ := Option.isSome_iff_exists.mp (h.created hreg)
    -- the semaphore is given now, so each open call needs its acknowledgement
    simp only [State.complete, hreg, if_true, hgiven, Option.map_some]
    exact
      { sound := hset.sound
        acked := fun _ c hc hopen => by
          rcases hcareful hreg c hc hopen with ⟨p, rfl, hp⟩ | ⟨rfl, rfl⟩
          · exact ⟨p, rfl, hp.set hsent⟩
          · exact ⟨publish, rfl, acked_set_self hsent⟩
        created := fun _ => rfl
        started := fun _ _ _ => rfl }
  · simpa [State.complete, hreg] using hset

theorem Inv.syncStart : Inv s.syncStart := by
  cases hsem : s.flushSem with
  | none =>
    simp only [State.syncStart, hsem]
    exact
      { sound := fun p hp => h.sound p (by simpa using hp)
        acked := by simp
        created := fun hreg => absurd (h.created hreg) (by simp [hsem])
        started := fun c hc hopen => by
          rcases List.mem_append.mp hc with hc | hc
          · exact absurd (h.started c hc hopen) (by simp [hsem])
          · exact absurd hopen (by simp [List.mem_singleton.mp hc, Call.IsOpen]) }
  | some given =>
    simp only [State.syncStart, hsem]
    exact
      { sound := fun p hp => h.sound p (by simpa using hp)
        acked := by simp
        created := fun _ => rfl
        started := fun _ _ _ => rfl }

/-- A careful step keeps the invariant. -/
theorem Inv.step {a : Action} (hcareful : Careful s a) (ht : step s a = some t) : Inv t := by
  cases a with
  | init creates registers =>
    obtain rfl := Option.some.inj ht
    exact h.init creates registers
  | send n =>
    obtain rfl := Option.some.inj ht
    exact h.send n
  | complete publish ok =>
    simp only [NotifySync.step] at ht
    split at ht
    · next hsent =>
      obtain rfl := Option.some.inj ht
      exact h.complete hcareful hsent
    · cases ht
  | syncStart =>
    obtain rfl := Option.some.inj ht
    exact h.syncStart
  | syncSend i n =>
    simp only [NotifySync.step] at ht
    split at ht
    · next hc =>
      have hmem : Call.cleared ∈ s.calls := List.mem_of_getElem? hc
      -- the call has no publish yet, so the semaphore is not given
      have hsem : s.flushSem = some false := by
        obtain ⟨given, hgiven⟩ := Option.isSome_iff_exists.mp (h.started _ hmem trivial)
        cases given with
        | false => exact hgiven
        | true =>
          obtain ⟨p, hp, -⟩ := h.acked hgiven _ hmem trivial
          cases hp
      rcases send_cases s n with heq | ⟨e, heq⟩
      · rw [heq] at ht
        obtain rfl := Option.some.inj ht
        exact (h.publishes fun p hp => hp.append .sent).setCall (by simp) fun _ => hsem
      · rw [heq] at ht
        obtain rfl := Option.some.inj ht
        exact h.setCall (by simp) fun hopen => absurd hopen (by simp [Call.IsOpen])
    · cases ht
  | syncTake i =>
    simp only [NotifySync.step] at ht
    split at ht
    · next publish hc hsem =>
      obtain rfl := Option.some.inj ht
      -- the given semaphore stands for the publish of this call
      have hmem : Call.waiting publish ∈ s.calls := List.mem_of_getElem? hc
      obtain ⟨p, hp, hacked⟩ := h.acked hsem _ hmem trivial
      obtain rfl : publish = p := by simpa using hp
      refine (h.clear s.registered).setCall (fun q hq => ?_) fun hopen => ?_
      · obtain rfl : publish = q := by simpa using hq
        exact hacked
      · rfl
    · cases ht
  | syncTimeout i =>
    simp only [NotifySync.step] at ht
    split at ht
    · obtain rfl := Option.some.inj ht
      exact h.setCall (by simp) fun hopen => absurd hopen (by simp [Call.IsOpen])
    · cases ht

end

theorem Inv.start : Inv {} where
  sound := by simp [Sound]
  acked := by simp
  created := by simp
  started := by simp

/-! ### Careless completions -/

/-- A notification that is published. -/
def Notification.good : Notification := { size := .ok 27 }

/-- An open call without an acknowledgement can return `ESP_RMAKER_OK` if the semaphore is given. -/
theorem exists_unsound {c : Call} (hc : c ∈ s.calls) (hopen : c.IsOpen)
    (hnot : ¬ c.AckedIn s.publishes) (hsem : s.flushSem = some true) :
    ∃ as u, exec step s as = some u ∧ ¬ Sound u := by
  obtain ⟨i, hlt, hi⟩ := List.mem_iff_getElem.mp hc
  have hget : s.calls[i]? = some c := by rw [List.getElem?_eq_getElem hlt, hi]
  cases c with
  | waiting publish =>
    -- the call takes the semaphore that is not its own
    refine ⟨[.syncTake i], _, by simp only [exec, step, hget, hsem]; rfl, fun hsound => hnot ?_⟩
    exact ⟨publish, rfl, hsound publish (List.mem_set hlt _)⟩
  | cleared =>
    -- the call still has to send, and takes the semaphore before any completion
    have hsend : s.send .good
      = ({ s with publishes := s.publishes ++ [.sent] }, .ok s.publishes.length) := rfl
    refine ⟨[.syncSend i .good, .syncTake i],
      { s with
        flushSem := some false
        publishes := s.publishes ++ [.sent]
        calls := (s.calls.set i (.waiting s.publishes.length)).set i
          (.confirmed s.publishes.length) }, ?_, fun hsound => ?_⟩
    · simp only [exec, step, hget, hsend, Option.bind_some, List.getElem?_set_self hlt, hsem]
    · have hacked := hsound s.publishes.length (by simp [hlt, List.mem_set])
      simp [Acked] at hacked
  | confirmed publish => exact hopen.elim
  | failed e => exact hopen.elim

/-- A completion that is not careful lets a call return `ESP_RMAKER_OK` for nothing. -/
theorem Inv.careless {a : Action} (h : Inv s) (hcareless : ¬ Careful s a)
    (ht : NotifySync.step s a = some t) :
    ∃ as u, exec NotifySync.step t as = some u ∧ ¬ Sound u := by
  cases a with
  | complete publish ok =>
    simp only [Careful, not_forall, not_or] at hcareless
    obtain ⟨hreg, c, hc, hopen, hnot, hown⟩ := hcareless
    simp only [NotifySync.step] at ht
    split at ht
    · next hsent =>
      obtain rfl := Option.some.inj ht
      obtain ⟨given, hgiven⟩ := Option.isSome_iff_exists.mp (h.created hreg)
      refine exists_unsound (s := s.complete publish ok) hc hopen ?_ ?_
      · rintro ⟨p, rfl, hp⟩
        by_cases hpub : publish = p
        · subst hpub
          have hlt : publish < s.publishes.length := (List.getElem?_eq_some_iff.mp hsent).1
          have hok : ok = true := by simpa [Acked, State.complete, hlt] using hp
          exact hown ⟨rfl, hok⟩
        · rw [Acked, State.complete, List.getElem?_set_ne hpub] at hp
          exact hnot ⟨p, rfl, hp⟩
      · simp [State.complete, hreg, hgiven]
    · cases ht
  | _ => exact absurd trivial hcareless

theorem Inv.of_reach (hs : Reach (· = {}) NotifySync.step Careful s) : Inv s :=
  hs.inv Inv (fun _ hs => by rw [hs]; exact .start) fun _ _ _ hi hc ht => hi.step hc ht

/-- In a run whose completions are all careful, each `ESP_RMAKER_OK` is for an acknowledged publish.
From a state of such a run, each completion that is not careful can be followed by an
`ESP_RMAKER_OK` for a publish that was not acknowledged. -/
theorem notifySync_sound (s : State) (hs : Reach (· = {}) NotifySync.step Careful s) :
    Sound s ∧ ∀ a t, NotifySync.step s a = some t → ¬ Careful s a →
      ∃ as u, exec NotifySync.step t as = some u ∧ ¬ Sound u := by
  have hinv := Inv.of_reach hs
  exact ⟨hinv.sound, fun a t ht hcareless => hinv.careless hcareless ht⟩

/-- A call whose publish is acknowledged while it waits, after an older push was. -/
theorem acknowledged_sound :
    ∃ s, exec NotifySync.step {} [.init true true, .send .good, .complete 0 false, .syncStart,
      .syncSend 0 .good, .complete 1 true, .syncTake 0] = some s ∧
      s.calls = [.confirmed 1] ∧ Sound s := by
  obtain ⟨s, hs, hcalls⟩ : ∃ s, exec NotifySync.step {} [.init true true, .send .good,
      .complete 0 false, .syncStart, .syncSend 0 .good, .complete 1 true, .syncTake 0] = some s ∧
      s.calls = [.confirmed 1] := ⟨_, rfl, rfl⟩
  have hreach : Reach (· = {}) NotifySync.step Careful s :=
    Reach.exec _ (.start rfl) (by decide) hs
  exact ⟨s, hs, hcalls, (notifySync_sound s hreach).1⟩

/-- The publish of the call fails, and the call returns `ESP_RMAKER_OK`. -/
theorem failed_publish_confirmed :
    ¬ ∀ s, Reach (· = {}) NotifySync.step (fun _ _ => True) s → Sound s := by
  intro hall
  obtain ⟨s, hs, hmem, hnot⟩ : ∃ s, exec NotifySync.step {} [.init true true, .syncStart,
      .syncSend 0 .good, .complete 0 false, .syncTake 0] = some s ∧
      Call.confirmed 0 ∈ s.calls ∧ ¬ Acked s.publishes 0 := ⟨_, rfl, by decide, by decide⟩
  have hreach : Reach (· = {}) NotifySync.step (fun _ _ => True) s :=
    Reach.exec_true _ (.start rfl) hs
  exact hnot (hall s hreach 0 hmem)

end RainMakerNeo.Cloud.NotifySync
