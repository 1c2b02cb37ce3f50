import RainMakerNeo.Claim.Exchange

/-!
# `RainMakerNeo.Credentials.Migration`: the move to another MQTT host

A check puts the target host in force in memory. A start registers the handlers of the events, and
the first connection writes the node ID and then the host to the storage, once the running image
cannot roll back any more. A timeout without a connection rolls the image back, or reports itself.

An event that was posted in an earlier start is delivered to the handlers of a later one. There a
connection of the past lets the host be written, and a timeout of the past rolls back
(`staleAndForgotten`). A check that fails after it took the node ID from the certificate leaves a
flag behind, and the next check succeeds because of it. `safe_of_careful` says which steps do
neither.

A connection, the expiry of the timer, the post of its event and the delivery are steps of their
own. The numbers of the starts, the connections and the logs are history.
-/

set_option autoImplicit false

namespace RainMakerNeo.Credentials.Migration

open RainMakerNeo.Lib
open RainMakerNeo.Claim (Write Err setClientId)

/-! ### The model -/

/-- `osal_ota_img_states_t`. -/
inductive ImageState
  | new | pendingVerify | valid | invalid | aborted | undefined
  deriving DecidableEq, Repr

/-- An event in the queue of the event loop. What the start numbers and the Boolean say does not
exist in the code. -/
inductive Event
  /-- `RMAKER_MQTT_EVENT_CONNECTED`, and the start within which the connection was made. -/
  | connected (start : Option Nat)
  /-- `RMAKER_INTERNAL_EVENT_OTA_APP_VALID`. -/
  | appValid
  /-- `RMAKER_INTERNAL_EVENT_MIGRATION_TIMEOUT`, the start of the timer, and whether a connection
  was made within this start before the timer expired. -/
  | timeout (start : Nat) (connected : Bool)
  deriving DecidableEq, Repr

/-- A change of the stored host: the host, whether a connection was made within the current start,
the image and the stored node ID. -/
structure HostWrite where
  host : List UInt8
  connected : Bool
  image : ImageState
  clientId : Option (List UInt8)
  deriving DecidableEq, Repr

/-- A rollback or a reported timeout: the start it happened in, and the event it came from. -/
structure Outcome where
  rollback : Bool
  start : Nat
  timer : Nat
  connected : Bool
  deriving DecidableEq, Repr

/-- The storage, the providers and the flags. The fields from `startNo` on are history. -/
structure State where
  stored : Claim.Credentials := {}
  image : ImageState := .valid
  /-- `__target_host`. -/
  targetHost : Option (List UInt8) := none
  /-- `__cn_client_id`. -/
  cnClientId : Option (List UInt8) := none
  /-- The provider of the host is `__get_target_mqtt_host`. -/
  hostOverridden : Bool := false
  /-- The provider of the node ID is `__get_cn_client_id`. -/
  idOverridden : Bool := false
  /-- `RMAKER_MIGRATION_WRITE_CLIENT_ID`. -/
  writeClientId : Bool := false
  /-- `RMAKER_MIGRATION_WRITE_MQTT_HOST`. -/
  writeMqttHost : Bool := false
  /-- `RMAKER_MIGRATION_STARTED`. -/
  started : Bool := false
  /-- `RMAKER_MIGRATION_MQTT_CONNECTED`. -/
  connected : Bool := false
  /-- `RMAKER_MIGRATION_IMAGE_VALID`. -/
  imageValid : Bool := false
  /-- `__timeout_task`, and whether it is still armed. -/
  timer : Option Bool := none
  /-- The callbacks of expired timers that have not posted their event yet. -/
  callbacks : List (Nat × Bool) := []
  queue : List Event := []
  startNo : Nat := 0
  /-- The starts within which a connection was made. -/
  connections : List Nat := []
  hostWrites : List HostWrite := []
  outcomes : List Outcome := []
  /-- For each check that succeeded, the host that is in force after it. -/
  checks : List (Option (List UInt8)) := []
  deriving DecidableEq

/-- How the read of a credential goes. -/
inductive Read
  | done
  /-- The value cannot be read, which looks as if there were none. -/
  | missing
  /-- The partition cannot be opened, or there is no memory for a copy. -/
  | failed
  deriving DecidableEq, Repr

/-- What a provider answers. -/
inductive Provided
  | found (value : List UInt8)
  | notFound
  | error
  deriving DecidableEq, Repr

/-- A provider: an override with the value in memory, or the factory partition. -/
def provide (overridden : Bool) (memory stored : Option (List UInt8)) (read : Read) : Provided :=
  if overridden then
    match memory with
    | none => .error
    | some value => if read = .done then .found value else .error
  else
    match read, stored with
    | .failed, _ => .error
    | .missing, _ | .done, none => .notFound
    | .done, some value => .found value

namespace State

variable (s : State)

/-- `esp_rmaker_credentials_get_thing_name`. -/
def getThingName (read : Read) : Provided :=
  provide s.idOverridden s.cnClientId s.stored.clientId read

/-- `esp_rmaker_credentials_get_mqtt_host`. -/
def getMqttHost (read : Read) : Provided :=
  provide s.hostOverridden s.targetHost s.stored.mqttHost read

/-- `RMAKER_MIGRATION_WRITE_ANY`. -/
def writeAny : Bool := s.writeClientId || s.writeMqttHost

/-- The MQTT host that the next connection uses. -/
def inForce : Option (List UInt8) := if s.hostOverridden then s.targetHost else s.stored.mqttHost

end State

/-- What the environment answers inside a call or a delivery. -/
structure Answers where
  idRead : Read := .done
  /-- The certificate and its CN. -/
  cn : Option (List UInt8) := none
  idReadAgain : Read := .done
  hostRead : Read := .done
  /-- `osal_ota_get_state_partition` for the running partition. -/
  stateRead : Bool := true
  /-- The handlers can be registered. -/
  registered : Bool := true
  /-- The timeout can be scheduled. -/
  scheduled : Bool := true
  idWrite : Write := .stored
  hostWrite : Write := .stored
  /-- `osal_ota_mark_app_invalid_rollback_and_reboot` works. -/
  rolledBack : Bool := true
  /-- `RMAKER_EVENT_MQTT_HOST_MIGRATION_TIMEOUT` can be posted. -/
  posted : Bool := true
  /-- The image that runs after a restart. -/
  bootImage : ImageState := .valid
  deriving DecidableEq, Repr

namespace State

variable (s : State)

/-- The device restarts: the storage is kept. -/
def rebooted (image : ImageState) : State where
  stored := s.stored
  image := image
  startNo := s.startNo
  connections := s.connections
  hostWrites := s.hostWrites
  outcomes := s.outcomes
  checks := s.checks

/-- `__image_pending_verify`. -/
def imagePendingVerify (env : Answers) : Bool := env.stateRead && s.image = .pendingVerify

/-- `esp_rmaker_credentials_set_mqtt_host`. -/
def setMqttHost (w : Write) (host : List UInt8) : State × Err :=
  if host = [] then (s, .fail)
  else
    (if w.kept then
      { s with
        stored := { s.stored with mqttHost := some host }
        hostWrites := s.hostWrites ++
          [{ host := host, connected := decide (s.startNo ∈ s.connections), image := s.image
             clientId := s.stored.clientId }] }
    else s, w.err)

/-- The node ID part of `__write_back`. -/
def writeBackId (env : Answers) : State × Err :=
  if s.writeClientId then
    match s.getThingName env.idRead with
    | .found id =>
      match setClientId s.stored env.idWrite id with
      | (stored, .ok) => ({ s with stored := stored, writeClientId := false }, .ok)
      | (stored, e) => ({ s with stored := stored }, e)
    | .notFound | .error => (s, .fail)
  else (s, .ok)

/-- The host part of `__write_back`. -/
def writeBackHost (env : Answers) : State × Err :=
  if s.writeMqttHost then
    match s.setMqttHost env.hostWrite (s.targetHost.getD []) with
    | (s, .ok) => ({ s with writeMqttHost := false }, .ok)
    | r => r
  else (s, .ok)

/-- `__write_back`. -/
def writeBack (env : Answers) : State × Err :=
  match s.writeBackId env with
  | (s, .ok) => s.writeBackHost env
  | r => r

/-- The end of `__on_event`. -/
def maybeWriteBack (env : Answers) : State :=
  if s.connected && s.imageValid && s.writeAny then
    match s.writeBack env with
    | (s, .reboot) => s.rebooted env.bootImage
    | (s, _) => s
  else s

/-- `__on_timeout`. -/
def onTimeout (env : Answers) (start : Nat) (connected : Bool) : State :=
  let s := { s with timer := none }
  if s.connected then s
  else
    let outcome (rollback : Bool) : Outcome :=
      { rollback := rollback, start := s.startNo, timer := start, connected := connected }
    if s.imagePendingVerify env && env.rolledBack then
      { s with outcomes := s.outcomes ++ [outcome true] }.rebooted env.bootImage
    else if env.posted then { s with outcomes := s.outcomes ++ [outcome false] }
    else s

/-- `__on_event`. -/
def onEvent (env : Answers) : Event → State
  | .connected _ =>
    let s := { s with
      connected := true
      timer := none
      imageValid := s.imageValid || !s.imagePendingVerify env }
    s.maybeWriteBack env
  | .appValid => { s with imageValid := true }.maybeWriteBack env
  | .timeout start connected => s.onTimeout env start connected

/-- `__use_cert_cn`. -/
def useCertCn (env : Answers) : Option State :=
  env.cn.map fun cn => { s with cnClientId := some cn, idOverridden := true }

/-- The part of `esp_rmaker_migration_check` about the host. -/
def checkHost (target : List UInt8) (env : Answers) : State × Err :=
  match s.getMqttHost env.hostRead with
  | .error => (s, .fail)
  | .found host =>
    if host = target then (s, .ok)
    else
      ({ s with targetHost := some target, hostOverridden := true, writeMqttHost := true }, .ok)
  | .notFound =>
    ({ s with targetHost := some target, hostOverridden := true, writeMqttHost := true }, .ok)

/-- `esp_rmaker_migration_check`. -/
def check (target : List UInt8) (env : Answers) : State × Err :=
  if target = [] then (s, .fail)
  else if s.writeAny then (s, .ok)
  else
    match s.getThingName env.idRead with
    | .error => (s, .fail)
    | .found _ => s.checkHost target env
    | .notFound =>
      match s.useCertCn env with
      | none => (s, .fail)
      | some s =>
        let s := { s with writeClientId := true }
        match s.getThingName env.idReadAgain with
        | .found _ => s.checkHost target env
        | .notFound | .error => (s, .fail)

/-- `esp_rmaker_migration_stop`. -/
def stop : State :=
  if s.started then
    { s with timer := none, started := false, connected := false, imageValid := false }
  else s

/-- `esp_rmaker_migration_start`. -/
def start (env : Answers) : State × Err :=
  if !s.writeAny || s.started then (s, .ok)
  else
    let s := { s with imageValid := s.imageValid || !s.imagePendingVerify env, started := true }
    if env.registered then ({ s with startNo := s.startNo + 1 }, .ok) else (s.stop, .fail)

/-- `esp_rmaker_migration_on_network_up`. -/
def onNetworkUp (env : Answers) : State :=
  if !s.started || s.timer.isSome then s
  else if env.scheduled then { s with timer := some true }
  else s

/-- `esp_rmaker_migration_reset`, with or without `esp_rmaker_credentials_reset_to_default` after
it. -/
def reset (toDefault : Bool) : State :=
  { s.stop with
    writeClientId := false
    writeMqttHost := false
    targetHost := none
    cnClientId := none
    hostOverridden := s.hostOverridden && !toDefault
    idOverridden := s.idOverridden && !toDefault }

end State

/-- What happens next. -/
inductive Action
  | check (env : Answers)
  | start (env : Answers)
  | stop
  | reset (toDefault : Bool)
  | networkUp (env : Answers)
  /-- The MQTT client connects, and posts its event. -/
  | connect
  /-- The state of the running image changes. The boot loader alone makes an image pending. -/
  | setImage (image : ImageState) (posts : Bool)
  /-- The timer expires. -/
  | elapse
  /-- A callback posts its event. -/
  | postTimeout
  /-- The event loop delivers the first event. -/
  | deliver (env : Answers)
  | reboot (image : ImageState)
  deriving DecidableEq, Repr

/-- The next step. -/
def step (target : List UInt8) (s : State) : Action → Option State
  | .check env =>
    let r := s.check target env
    some (if r.2 = .ok then { r.1 with checks := r.1.checks ++ [r.1.inForce] } else r.1)
  | .start env => some (s.start env).1
  | .stop => some s.stop
  | .reset toDefault => some (s.reset toDefault)
  | .networkUp env => some (s.onNetworkUp env)
  | .connect =>
    if s.started then
      some { s with
        connections := s.startNo :: s.connections
        queue := s.queue ++ [.connected (some s.startNo)] }
    else some { s with queue := s.queue ++ [.connected none] }
  | .setImage image posts =>
    if image = .pendingVerify then none
    else
      some { s with
        image := image
        queue := if posts && image = .valid then s.queue ++ [.appValid] else s.queue }
  | .elapse =>
    if s.timer = some true then
      some { s with
        timer := some false
        callbacks := s.callbacks ++ [(s.startNo, decide (s.startNo ∈ s.connections))] }
    else none
  | .postTimeout =>
    match s.callbacks with
    | [] => none
    | (start, connected) :: rest =>
      some { s with callbacks := rest, queue := s.queue ++ [.timeout start connected] }
  | .deliver env =>
    match s.queue with
    | [] => none
    | e :: rest =>
      let s := { s with queue := rest }
      some (if s.started then s.onEvent env e else s)
  | .reboot image => some (s.rebooted image)

/-! ### Safety -/

/-- **Migration safety.** The stored host changes only to the target, after a connection that was
made within the current start, with an image that is not pending and with a stored node ID. A
rollback or a reported timeout comes from the timer of the current start, before which there was no
connection within it. After a check that succeeded the target is in force. -/
structure Safe (target : List UInt8) (s : State) : Prop where
  writes : ∀ w ∈ s.hostWrites, w.host = target ∧ w.connected = true ∧ w.image ≠ .pendingVerify
    ∧ w.clientId.isSome = true
  outcomes : ∀ o ∈ s.outcomes, o.timer = o.start ∧ o.connected = false
  checks : ∀ h ∈ s.checks, h = some target

/-- The device has just started. -/
def Initial (s : State) : Prop := ∃ stored image, s = { stored := stored, image := image }

/-- The state of a pending image can be read. -/
def SeesPending (s : State) (env : Answers) : Prop :=
  s.image = .pendingVerify → env.stateRead = true

/-- The event was posted in the current start, or a connection was seen in it already. -/
def Fresh (s : State) : Event → Prop
  | .connected start => start = some s.startNo ∨ s.connected = true
  | .appValid => True
  | .timeout start _ => start = s.startNo ∨ s.connected = true

/-- The steps that keep the migration safe. -/
def Careful (s : State) : Action → Prop
  -- a check that takes the node ID from the certificate reads the node ID and the host
  | .check env => s.writeAny = false → s.getThingName env.idRead = .notFound →
    env.cn.isSome = true → env.idReadAgain = .done ∧ s.getMqttHost env.hostRead ≠ .error
  | .start env => SeesPending s env
  | .deliver env => s.started = true → SeesPending s env ∧ ∀ e ∈ s.queue.head?, Fresh s e
  | .stop | .reset _ | .networkUp _ | .connect | .setImage _ _ | .elapse | .postTimeout
  | .reboot _ => True

/-! ### What the flags promise -/

/-- What the flags, the providers and the logs keep. -/
structure Flags (target : List UInt8) (s : State) : Prop extends Safe target s where
  host : s.writeMqttHost = true → s.hostOverridden = true ∧ s.targetHost = some target
  force : s.writeAny = true → s.inForce = some target
  id : s.writeMqttHost = true → s.writeClientId = true ∨ s.stored.clientId.isSome = true
  -- a node ID from the certificate is still to be written, or it is stored
  cn : s.idOverridden = true → s.cnClientId.isSome = true →
    s.writeClientId = true ∨ s.stored.clientId.isSome = true
  valid : s.imageValid = true → s.image ≠ .pendingVerify

/-- What the event queue and the timers keep. -/
structure Posted (s : State) : Prop where
  connected : s.connected = true → s.started = true ∧ s.startNo ∈ s.connections
  past : ∀ n ∈ s.connections, n ≤ s.startNo
  callback : ∀ c ∈ s.callbacks, c.1 ≤ s.startNo ∧ (c.2 = true → c.1 ∈ s.connections)
  timeout : ∀ n b, .timeout n b ∈ s.queue → n ≤ s.startNo
  made : ∀ n, .connected (some n) ∈ s.queue → n ∈ s.connections
  appValid : .appValid ∈ s.queue → s.image ≠ .pendingVerify
  -- a connection of this start is seen, or its event is on the way
  seen : s.started = true → s.startNo ∈ s.connections →
    s.connected = true ∨ .connected (some s.startNo) ∈ s.queue
  -- its event stands before each timeout that came after it
  order : ∀ before after, s.queue = before ++ .timeout s.startNo true :: after →
    s.started = true → s.connected = true ∨ .connected (some s.startNo) ∈ before

/-- What both of them keep. -/
structure Inv (target : List UInt8) (s : State) : Prop extends Flags target s, Posted s

variable {target : List UInt8} {s t : State} {env : Answers}

/-! ### The write-back -/

/-- What the write-back leaves alone. -/
structure Frame (s t : State) : Prop where
  image : t.image = s.image
  started : t.started = s.started
  connected : t.connected = s.connected
  callbacks : t.callbacks = s.callbacks
  queue : t.queue = s.queue
  startNo : t.startNo = s.startNo
  connections : t.connections = s.connections

theorem Frame.refl (s : State) : Frame s s := ⟨rfl, rfl, rfl, rfl, rfl, rfl, rfl⟩

theorem Frame.trans {u : State} (h : Frame s t) (h' : Frame t u) : Frame s u :=
  ⟨h'.image.trans h.image, h'.started.trans h.started, h'.connected.trans h.connected,
    h'.callbacks.trans h.callbacks, h'.queue.trans h.queue, h'.startNo.trans h.startNo,
    h'.connections.trans h.connections⟩

theorem Posted.frame (h : Posted s) (hframe : Frame s t) : Posted t := by
  constructor
  · rw [hframe.connected, hframe.started, hframe.startNo, hframe.connections]
    exact h.connected
  · rw [hframe.connections, hframe.startNo]
    exact h.past
  · rw [hframe.callbacks, hframe.startNo, hframe.connections]
    exact h.callback
  · rw [hframe.queue, hframe.startNo]
    exact h.timeout
  · rw [hframe.queue, hframe.connections]
    exact h.made
  · rw [hframe.queue, hframe.image]
    exact h.appValid
  · rw [hframe.started, hframe.startNo, hframe.connections, hframe.connected, hframe.queue]
    exact h.seen
  · rw [hframe.queue, hframe.startNo, hframe.started, hframe.connected]
    exact h.order

/-- A restart forgets the events and the flags. -/
theorem Inv.rebooted (h : Flags target s) (hpast : ∀ n ∈ s.connections, n ≤ s.startNo)
    (image : ImageState) : Inv target (s.rebooted image) := by
  constructor
  · constructor
    · exact ⟨h.writes, h.outcomes, h.checks⟩
    all_goals exact nofun
  · constructor
    · exact nofun
    · exact hpast
    · exact fun c hc => nomatch hc
    · exact fun n b hmem => nomatch hmem
    · exact fun n hmem => nomatch hmem
    · exact fun hmem => nomatch hmem
    · exact nofun
    · exact fun before after _ hstarted => nomatch hstarted

theorem setClientId_spec (stored : Claim.Credentials) (w : Write) (id : List UInt8) :
    (setClientId stored w id).1.mqttHost = stored.mqttHost
      ∧ (stored.clientId.isSome = true → (setClientId stored w id).1.clientId.isSome = true)
      ∧ ((setClientId stored w id).2 = .ok →
        (setClientId stored w id).1.clientId.isSome = true) := by
  rw [setClientId]
  split
  · exact ⟨rfl, fun hsome => hsome, nofun⟩
  · cases w with
    | stored => exact ⟨rfl, fun _ => rfl, fun _ => rfl⟩
    | failed => exact ⟨rfl, fun h => h, nofun⟩
    | unconfirmed => exact ⟨rfl, fun _ => rfl, nofun⟩
    | reboot kept =>
      cases kept with
      | true => exact ⟨rfl, fun _ => rfl, nofun⟩
      | false => exact ⟨rfl, fun h => h, nofun⟩

/-- Another storage with the same host, and no new flags. -/
theorem Flags.of_stored (h : Flags target s) {stored : Claim.Credentials} {writeClientId : Bool}
    (hhost : stored.mqttHost = s.stored.mqttHost)
    (hid : s.stored.clientId.isSome = true → stored.clientId.isSome = true)
    (hflag : writeClientId = true → s.writeClientId = true)
    (hwritten : s.writeClientId = true → writeClientId = true ∨ stored.clientId.isSome = true) :
    Flags target { s with stored := stored, writeClientId := writeClientId } := by
  have hkeep : s.writeClientId = true ∨ s.stored.clientId.isSome = true →
      writeClientId = true ∨ stored.clientId.isSome = true :=
    fun hor => hor.elim hwritten fun hsome => .inr (hid hsome)
  constructor
  · exact ⟨h.writes, h.outcomes, h.checks⟩
  · exact h.host
  · intro hany
    have hany' : s.writeAny = true := by
      rw [State.writeAny, Bool.or_eq_true] at hany ⊢
      exact hany.imp_left hflag
    show (if s.hostOverridden then s.targetHost else stored.mqttHost) = some target
    rw [hhost]
    exact h.force hany'
  · exact fun hwrite => hkeep (h.id hwrite)
  · exact fun hcn hsome => hkeep (h.cn hcn hsome)
  · exact h.valid

theorem writeBackId_spec (h : Flags target s) (env : Answers) :
    Flags target (s.writeBackId env).1 ∧ Frame s (s.writeBackId env).1
      ∧ (s.writeBackId env).1.imageValid = s.imageValid
      ∧ ((s.writeBackId env).2 = .ok → (s.writeBackId env).1.writeClientId = false) := by
  rw [State.writeBackId]
  split
  · next hwrite =>
    split
    · next id _ =>
      obtain ⟨hhost, hsome, hok⟩ := setClientId_spec s.stored env.idWrite id
      split
      · next stored heq =>
        rw [heq] at hhost hsome hok
        exact ⟨h.of_stored hhost hsome nofun fun _ => .inr (hok rfl), ⟨rfl, rfl, rfl, rfl, rfl,
          rfl, rfl⟩, rfl, fun _ => rfl⟩
      · next stored e hne heq =>
        rw [heq] at hhost hsome
        have hflags : Flags target { s with stored := stored, writeClientId := s.writeClientId } :=
          h.of_stored hhost hsome (fun hflag => hflag) .inl
        exact ⟨hflags, ⟨rfl, rfl, rfl, rfl, rfl, rfl, rfl⟩, rfl, fun he => absurd he hne⟩
    · exact ⟨h, .refl s, rfl, nofun⟩
    · exact ⟨h, .refl s, rfl, nofun⟩
  · next hwrite => exact ⟨h, .refl s, rfl, fun _ => Bool.not_eq_true _ ▸ hwrite⟩

theorem writeBackHost_spec (h : Flags target s) (hwritten : s.writeClientId = false)
    (hconnected : s.startNo ∈ s.connections) (himage : s.image ≠ .pendingVerify)
    (env : Answers) :
    Flags target (s.writeBackHost env).1 ∧ Frame s (s.writeBackHost env).1 := by
  rw [State.writeBackHost]
  split
  · next hwrite =>
    obtain ⟨hoverridden, htarget⟩ := h.host hwrite
    have hid : s.stored.clientId.isSome = true := by
      rcases h.id hwrite with hflag | hid
      · rw [hwritten] at hflag
        cases hflag
      · exact hid
    rw [htarget, Option.getD_some, State.setMqttHost]
    -- what is stored, and what the log says about it
    let u : State := { s with
      stored := { s.stored with mqttHost := some target }
      hostWrites := s.hostWrites ++
        [{ host := target, connected := decide (s.startNo ∈ s.connections), image := s.image
           clientId := s.stored.clientId }] }
    have hu : ∀ flag, (flag = true → s.writeMqttHost = true) →
        Flags target { u with writeMqttHost := flag } := by
      intro flag hflag
      constructor
      · refine ⟨?_, h.outcomes, h.checks⟩
        intro w hw
        rcases List.mem_append.mp hw with hw | hw
        · exact h.writes w hw
        · rw [List.mem_singleton.mp hw]
          exact ⟨rfl, decide_eq_true hconnected, himage, hid⟩
      · exact fun _ => ⟨hoverridden, htarget⟩
      · intro _
        show (if s.hostOverridden then s.targetHost else some target) = some target
        rw [if_pos hoverridden, htarget]
      · exact fun _ => .inr hid
      · exact fun _ _ => .inr hid
      · exact h.valid
    by_cases hempty : target = []
    · rw [if_pos hempty]
      exact ⟨h, .refl s⟩
    · rw [if_neg hempty]
      cases env.hostWrite with
      | stored => exact ⟨hu false nofun, rfl, rfl, rfl, rfl, rfl, rfl, rfl⟩
      | failed => exact ⟨h, .refl s⟩
      | unconfirmed => exact ⟨hu s.writeMqttHost fun h => h, rfl, rfl, rfl, rfl, rfl, rfl, rfl⟩
      | reboot kept =>
        cases kept with
        | true => exact ⟨hu s.writeMqttHost fun h => h, rfl, rfl, rfl, rfl, rfl, rfl, rfl⟩
        | false => exact ⟨h, .refl s⟩
  · exact ⟨h, .refl s⟩

/-- A write-back after a connection of this start, with an image that is not pending. -/
theorem maybeWriteBack_inv (h : Inv target s) : Inv target (s.maybeWriteBack env) := by
  rw [State.maybeWriteBack]
  split
  · next hready =>
    rw [Bool.and_eq_true, Bool.and_eq_true] at hready
    obtain ⟨⟨hconnected, hvalid⟩, -⟩ := hready
    -- the two writes keep the flags, and leave the queue alone
    have hwrite : Flags target (s.writeBack env).1 ∧ Frame s (s.writeBack env).1 := by
      obtain ⟨hflags, hframe, -, hwritten⟩ := writeBackId_spec h.toFlags env
      rw [State.writeBack]
      split
      · next u heq =>
        rw [heq] at hflags hframe hwritten
        have hconnection : u.startNo ∈ u.connections := by
          rw [hframe.startNo, hframe.connections]
          exact (h.connected hconnected).2
        have himage : u.image ≠ .pendingVerify := by
          rw [hframe.image]
          exact h.valid hvalid
        obtain ⟨hflags', hframe'⟩ :=
          writeBackHost_spec hflags (hwritten rfl) hconnection himage env
        exact ⟨hflags', hframe.trans hframe'⟩
      · exact ⟨hflags, hframe⟩
    obtain ⟨hflags, hframe⟩ := hwrite
    split
    · next u heq =>
      rw [heq] at hflags hframe
      refine Inv.rebooted hflags ?_ _
      rw [hframe.connections, hframe.startNo]
      exact h.past
    · next u e hne heq =>
      rw [heq] at hflags hframe
      exact ⟨hflags, h.toPosted.frame hframe⟩
  · exact h

/-! ### The events -/

/-- A connected event of this start, or of an older one after a connection was seen. -/
theorem onEvent_connected (h : Flags target s) {start : Option Nat}
    (hposted : Posted { s with queue := .connected start :: s.queue }) (hstarted : s.started = true)
    (hfresh : Fresh s (.connected start)) (hsees : SeesPending s env) :
    Inv target (s.onEvent env (.connected start)) := by
  have hconnection : s.startNo ∈ s.connections := by
    rcases hfresh with rfl | hconnected
    · exact hposted.made _ List.mem_cons_self
    · exact (hposted.connected hconnected).2
  refine maybeWriteBack_inv ?_
  constructor
  · refine ⟨⟨h.writes, h.outcomes, h.checks⟩, h.host, h.force, h.id, h.cn, ?_⟩
    intro hvalid himage
    change (s.imageValid || !s.imagePendingVerify env) = true at hvalid
    rcases (Bool.or_eq_true _ _).mp hvalid with hvalid | hnone
    · exact h.valid hvalid himage
    · change s.image = .pendingVerify at himage
      rw [State.imagePendingVerify, himage, hsees himage] at hnone
      cases hnone
  · constructor
    · exact fun _ => ⟨hstarted, hconnection⟩
    · exact hposted.past
    · exact hposted.callback
    · exact fun n b hmem => hposted.timeout n b (List.mem_cons_of_mem _ hmem)
    · exact fun n hmem => hposted.made n (List.mem_cons_of_mem _ hmem)
    · exact fun hmem => hposted.appValid (List.mem_cons_of_mem _ hmem)
    · exact fun _ _ => .inl rfl
    · exact fun _ _ _ _ => .inl rfl

variable {e : Event}

/-- The events behind the first one, when the first one is no connection that is still to be
seen. -/
theorem Posted.tail (h : Posted { s with queue := e :: s.queue })
    (hother : e = .connected (some s.startNo) → s.connected = true) : Posted s := by
  constructor
  · exact h.connected
  · exact h.past
  · exact h.callback
  · exact fun n b hmem => h.timeout n b (List.mem_cons_of_mem _ hmem)
  · exact fun n hmem => h.made n (List.mem_cons_of_mem _ hmem)
  · exact fun hmem => h.appValid (List.mem_cons_of_mem _ hmem)
  · intro hstarted hconnection
    rcases h.seen hstarted hconnection with hconnected | hmem
    · exact .inl hconnected
    · rcases List.mem_cons.mp hmem with heq | hmem
      · exact .inl (hother heq.symm)
      · exact .inr hmem
  · intro before after heq hstarted
    rcases h.order (e :: before) after (congrArg (e :: ·) heq) hstarted with hconnected | hmem
    · exact .inl hconnected
    · rcases List.mem_cons.mp hmem with heq | hmem
      · exact .inl (hother heq.symm)
      · exact .inr hmem

/-- A timeout of this start, or of an older one after a connection was seen. -/
theorem onTimeout_inv (h : Inv target s) {n : Nat} {b : Bool}
    (hfirst : n = s.startNo → b = true → s.connected = true)
    (hfresh : Fresh s (.timeout n b)) : Inv target (s.onTimeout env n b) := by
  have hflags : Flags target { s with timer := none } :=
    ⟨⟨h.writes, h.outcomes, h.checks⟩, h.host, h.force, h.id, h.cn, h.valid⟩
  have hposted : Posted { s with timer := none } :=
    h.toPosted.frame ⟨rfl, rfl, rfl, rfl, rfl, rfl, rfl⟩
  rw [State.onTimeout]
  split
  · exact ⟨hflags, hposted⟩
  · next hunseen =>
    have hn := hfresh.resolve_right hunseen
    have hb : b = false := by
      cases b with
      | false => rfl
      | true => exact absurd (hfirst hn rfl) hunseen
    -- the outcome comes from the timer of this start
    have hlogged : ∀ rollback, Flags target { s with
        timer := none
        outcomes := s.outcomes ++
          [{ rollback := rollback, start := s.startNo, timer := n, connected := b }] } := by
      intro rollback
      refine ⟨⟨h.writes, ?_, h.checks⟩, h.host, h.force, h.id, h.cn, h.valid⟩
      intro o ho
      rcases List.mem_append.mp ho with ho | ho
      · exact h.outcomes o ho
      · rw [List.mem_singleton.mp ho]
        exact ⟨hn, hb⟩
    dsimp only
    split
    · exact Inv.rebooted (hlogged true) h.past _
    · split
      · exact ⟨hlogged false, h.toPosted.frame ⟨rfl, rfl, rfl, rfl, rfl, rfl, rfl⟩⟩
      · exact ⟨hflags, hposted⟩

/-- The delivery of the first event. -/
theorem deliver_inv {rest : List Event} (h : Inv target s) (hqueue : s.queue = e :: rest)
    (hstarted : s.started = true) (hfresh : Fresh s e) (hsees : SeesPending s env) :
    Inv target ({ s with queue := rest }.onEvent env e) := by
  have hflags : Flags target { s with queue := rest } :=
    ⟨⟨h.writes, h.outcomes, h.checks⟩, h.host, h.force, h.id, h.cn, h.valid⟩
  have hposted : Posted { s with queue := e :: rest } := by
    rw [← hqueue]
    exact h.toPosted
  cases e with
  | connected start => exact onEvent_connected hflags hposted hstarted hfresh hsees
  | appValid =>
    have himage : s.image ≠ .pendingVerify := hposted.appValid List.mem_cons_self
    have htail : Posted { s with queue := rest } :=
      Posted.tail (s := { s with queue := rest }) hposted nofun
    refine maybeWriteBack_inv ⟨?_, htail.frame ⟨rfl, rfl, rfl, rfl, rfl, rfl, rfl⟩⟩
    exact ⟨⟨h.writes, h.outcomes, h.checks⟩, h.host, h.force, h.id, h.cn, fun _ => himage⟩
  | timeout n b =>
    have htail : Posted { s with queue := rest } :=
      Posted.tail (s := { s with queue := rest }) hposted nofun
    refine onTimeout_inv ⟨hflags, htail⟩ ?_ hfresh
    -- nothing stands before the first event
    rintro rfl rfl
    exact (hposted.order [] rest rfl hstarted).resolve_right List.not_mem_nil

/-- Events that go to other modules, or to nobody. -/
theorem skip_inv {rest : List Event} (h : Inv target s) (hqueue : s.queue = e :: rest)
    (hstopped : s.started = false) : Inv target { s with queue := rest } := by
  have hposted : Posted { s with queue := e :: rest } := by
    rw [← hqueue]
    exact h.toPosted
  refine ⟨⟨⟨h.writes, h.outcomes, h.checks⟩, h.host, h.force, h.id, h.cn, h.valid⟩, ?_⟩
  constructor
  · exact h.connected
  · exact h.past
  · exact h.callback
  · exact fun n b hmem => hposted.timeout n b (List.mem_cons_of_mem _ hmem)
  · exact fun n hmem => hposted.made n (List.mem_cons_of_mem _ hmem)
  · exact fun hmem => hposted.appValid (List.mem_cons_of_mem _ hmem)
  · exact fun hstarted => absurd (hstopped.symm.trans hstarted) Bool.false_ne_true
  · exact fun _ _ _ hstarted => absurd (hstopped.symm.trans hstarted) Bool.false_ne_true

/-! ### The calls -/

theorem provide_found {overridden : Bool} {memory stored : Option (List UInt8)} {read : Read}
    {value : List UInt8} (h : provide overridden memory stored read = .found value) :
    (if overridden then memory else stored) = some value := by
  unfold provide at h
  cases overridden with
  | true =>
    cases memory with
    | none => cases h
    | some v =>
      dsimp only at h
      rw [if_pos rfl] at h
      split at h
      · exact congrArg some (Provided.found.inj h)
      · cases h
  | false =>
    cases read with
    | done =>
      cases stored with
      | none => cases h
      | some v => exact congrArg some (Provided.found.inj h)
    | missing => cases h
    | failed => cases h

/-- The check of the host, with a node ID that is stored or still to be written. -/
theorem checkHost_spec (hsafe : Safe target s) (hnone : s.writeMqttHost = false)
    (hid : s.writeClientId = true ∨ s.stored.clientId.isSome = true)
    (hvalid : s.imageValid = true → s.image ≠ .pendingVerify) (env : Answers) :
    (s.checkHost target env = (s, .fail) ∧ s.getMqttHost env.hostRead = .error)
      ∨ (s.checkHost target env).2 = .ok ∧ Flags target (s.checkHost target env).1
        ∧ (s.checkHost target env).1.inForce = some target
        ∧ Frame s (s.checkHost target env).1 := by
  have hforced : Flags target { s with
      targetHost := some target, hostOverridden := true, writeMqttHost := true } :=
    ⟨⟨hsafe.writes, hsafe.outcomes, hsafe.checks⟩, fun _ => ⟨rfl, rfl⟩, fun _ => rfl, fun _ => hid,
      fun _ _ => hid, hvalid⟩
  rw [State.checkHost]
  split
  · next herror => exact .inl ⟨rfl, herror⟩
  · next host hfound =>
    split
    · next heq =>
      have hforce : s.inForce = some target := by
        rw [← heq]
        exact provide_found hfound
      refine .inr ⟨rfl, ⟨hsafe, ?_, fun _ => hforce, fun _ => hid, fun _ _ => hid, hvalid⟩, hforce,
        .refl s⟩
      exact fun hwrite => absurd (hnone.symm.trans hwrite) Bool.false_ne_true
    · exact .inr ⟨rfl, hforced, rfl, rfl, rfl, rfl, rfl, rfl, rfl, rfl⟩
  · exact .inr ⟨rfl, hforced, rfl, rfl, rfl, rfl, rfl, rfl, rfl, rfl⟩

/-- A check whose flags mean what they say. -/
theorem check_spec (h : Flags target s) (hguard : Careful s (.check env)) :
    Flags target (s.check target env).1 ∧ Frame s (s.check target env).1
      ∧ ((s.check target env).2 = .ok → (s.check target env).1.inForce = some target) := by
  rw [State.check]
  split
  · exact ⟨h, .refl s, nofun⟩
  · split
    · next hany => exact ⟨h, .refl s, fun _ => h.force hany⟩
    · next hnone =>
      rw [Bool.not_eq_true] at hnone
      have hwrite : s.writeMqttHost = false := (Bool.or_eq_false_iff.mp hnone).2
      split
      · exact ⟨h, .refl s, nofun⟩
      · next id hfound =>
        -- the node ID is stored, here or by an earlier write-back
        have hid : s.writeClientId = true ∨ s.stored.clientId.isSome = true := by
          have hvalue := provide_found hfound
          split at hvalue
          · next hoverridden => exact h.cn hoverridden (by rw [hvalue]; rfl)
          · exact .inr (by rw [hvalue]; rfl)
        rcases checkHost_spec h.toSafe hwrite hid h.valid env with
          ⟨heq, -⟩ | ⟨-, hflags, hforce, hframe⟩
        · rw [heq]
          exact ⟨h, .refl s, nofun⟩
        · exact ⟨hflags, hframe, fun _ => hforce⟩
      · next hmissing =>
        cases hcn : env.cn with
        | none =>
          rw [State.useCertCn, hcn]
          exact ⟨h, .refl s, nofun⟩
        | some cn =>
          obtain ⟨hagain, hhost⟩ := hguard hnone hmissing (by rw [hcn]; rfl)
          -- the node ID of the certificate is in force, and still to be written
          let u : State :=
            { s with cnClientId := some cn, idOverridden := true, writeClientId := true }
          have hfound : u.getThingName env.idReadAgain = .found cn := by
            rw [hagain]
            rfl
          have hcheck : (match s.useCertCn env with
              | none => (s, .fail)
              | some s =>
                let s := { s with writeClientId := true }
                match s.getThingName env.idReadAgain with
                | .found _ => s.checkHost target env
                | .notFound | .error => (s, .fail)) = u.checkHost target env := by
            rw [State.useCertCn, hcn]
            show (match u.getThingName env.idReadAgain with
              | .found _ => u.checkHost target env
              | .notFound | .error => (u, .fail)) = _
            rw [hfound]
          rw [hcheck]
          rcases checkHost_spec (s := u) ⟨h.writes, h.outcomes, h.checks⟩ hwrite
              (.inl rfl) h.valid env with
            ⟨-, herror⟩ | ⟨-, hflags, hforce, hframe⟩
          · exact absurd herror hhost
          · exact ⟨hflags, ⟨hframe.image, hframe.started, hframe.connected, hframe.callbacks,
              hframe.queue, hframe.startNo, hframe.connections⟩, fun _ => hforce⟩

theorem stop_inv (h : Inv target s) : Inv target s.stop := by
  rw [State.stop]
  split
  · refine ⟨⟨⟨h.writes, h.outcomes, h.checks⟩, h.host, h.force, h.id, h.cn, nofun⟩, ?_⟩
    exact ⟨nofun, h.past, h.callback, h.timeout, h.made, h.appValid, nofun,
      fun _ _ _ hstarted => nomatch hstarted⟩
  · exact h

theorem start_inv (h : Inv target s) (hsees : SeesPending s env) : Inv target (s.start env).1 := by
  rw [State.start]
  split
  · exact h
  · next hstart =>
    rw [Bool.or_eq_true, not_or, Bool.not_eq_true] at hstart
    have hstopped : s.started = false := by
      rw [← Bool.not_eq_true]
      exact hstart.2
    have hvalid : (s.imageValid || !s.imagePendingVerify env) = true →
        s.image ≠ .pendingVerify := by
      intro hvalid himage
      rcases (Bool.or_eq_true _ _).mp hvalid with hvalid | hnone
      · exact h.valid hvalid himage
      · rw [State.imagePendingVerify, himage, hsees himage] at hnone
        cases hnone
    have hunseen : s.connected ≠ true := by
      intro hconnected
      rw [(h.connected hconnected).1] at hstopped
      cases hstopped
    dsimp only
    split
    · -- the events of earlier starts have smaller numbers
      refine ⟨⟨⟨h.writes, h.outcomes, h.checks⟩, h.host, h.force, h.id, h.cn, hvalid⟩, ?_⟩
      constructor
      · exact fun hconnected => absurd hconnected hunseen
      · exact fun n hn => Nat.le_trans (h.past n hn) (Nat.le_succ _)
      · exact fun c hc => ⟨Nat.le_trans (h.callback c hc).1 (Nat.le_succ _), (h.callback c hc).2⟩
      · exact fun n b hmem => Nat.le_trans (h.timeout n b hmem) (Nat.le_succ _)
      · exact h.made
      · exact h.appValid
      · exact fun _ hconnection => absurd (h.past _ hconnection) (Nat.not_succ_le_self _)
      · intro before after heq _
        have hmem : Event.timeout (s.startNo + 1) true ∈ s.queue := by
          rw [show s.queue = _ from heq]
          simp
        exact absurd (h.timeout _ _ hmem) (Nat.not_succ_le_self _)
    · -- the handlers are taken away again
      refine ⟨⟨⟨h.writes, h.outcomes, h.checks⟩, h.host, h.force, h.id, h.cn, nofun⟩, ?_⟩
      exact ⟨nofun, h.past, h.callback, h.timeout, h.made, h.appValid, nofun,
        fun _ _ _ hstarted => nomatch hstarted⟩

theorem reset_inv (h : Inv target s) (toDefault : Bool) : Inv target (s.reset toDefault) := by
  have hstop := stop_inv h
  refine ⟨⟨⟨hstop.writes, hstop.outcomes, hstop.checks⟩, nofun, nofun, nofun, nofun, hstop.valid⟩,
    ?_⟩
  exact hstop.toPosted.frame ⟨rfl, rfl, rfl, rfl, rfl, rfl, rfl⟩

theorem networkUp_inv (h : Inv target s) : Inv target (s.onNetworkUp env) := by
  rw [State.onNetworkUp]
  split
  · exact h
  · split
    · refine ⟨⟨⟨h.writes, h.outcomes, h.checks⟩, h.host, h.force, h.id, h.cn, h.valid⟩, ?_⟩
      exact h.toPosted.frame ⟨rfl, rfl, rfl, rfl, rfl, rfl, rfl⟩
    · exact h

/-! ### What the environment does -/

/-- A timeout at the end of the queue stands behind the connection it knows of. -/
theorem Posted.order_push (h : Posted s)
    (hlast : e = .timeout s.startNo true → s.startNo ∈ s.connections) (before after : List Event)
    (heq : s.queue ++ [e] = before ++ .timeout s.startNo true :: after)
    (hstarted : s.started = true) : s.connected = true ∨ .connected (some s.startNo) ∈ before := by
  rcases List.eq_nil_or_concat after with rfl | ⟨rest, last, rfl⟩
  · -- the timeout is the new event
    obtain ⟨hqueue, he⟩ := List.append_inj' heq rfl
    rw [← hqueue]
    exact h.seen hstarted (hlast (List.singleton_inj.mp he))
  · have heq' : s.queue ++ [e] = (before ++ .timeout s.startNo true :: rest) ++ [last] := by
      simpa using heq
    exact h.order before rest (List.append_inj' heq' rfl).1 hstarted

/-- A new event at the end of the queue. -/
theorem Posted.push (h : Posted s)
    (htimeout : ∀ n b, e = .timeout n b → n ≤ s.startNo ∧ (b = true → n ∈ s.connections))
    (hmade : ∀ n, e = .connected (some n) → n ∈ s.connections)
    (happValid : e = .appValid → s.image ≠ .pendingVerify) :
    Posted { s with queue := s.queue ++ [e] } := by
  have hmem : ∀ {e'}, e' ∈ s.queue ++ [e] → e' ∈ s.queue ∨ e = e' := by
    intro e' hmem
    rw [List.mem_append, List.mem_singleton] at hmem
    exact hmem.imp_right Eq.symm
  constructor
  · exact h.connected
  · exact h.past
  · exact h.callback
  · intro n b hn
    rcases hmem hn with hn | heq
    · exact h.timeout n b hn
    · exact (htimeout n b heq).1
  · intro n hn
    rcases hmem hn with hn | heq
    · exact h.made n hn
    · exact hmade n heq
  · intro hn
    rcases hmem hn with hn | heq
    · exact h.appValid hn
    · exact happValid heq
  · exact fun hstarted hconnection =>
      (h.seen hstarted hconnection).imp_right (List.mem_append_left _)
  · exact h.order_push fun heq => (htimeout _ _ heq).2 rfl

/-- A connection within the current start. -/
theorem connect_inv (h : Inv target s) (hstarted : s.started = true) :
    Inv target { s with
      connections := s.startNo :: s.connections
      queue := s.queue ++ [.connected (some s.startNo)] } := by
  refine ⟨⟨⟨h.writes, h.outcomes, h.checks⟩, h.host, h.force, h.id, h.cn, h.valid⟩, ?_⟩
  have hmem : ∀ {e : Event}, e ∈ s.queue ++ [.connected (some s.startNo)] →
      e ∈ s.queue ∨ e = .connected (some s.startNo) := by
    intro e hmem
    rwa [List.mem_append, List.mem_singleton] at hmem
  constructor
  · exact fun _ => ⟨hstarted, List.mem_cons_self⟩
  · intro n hn
    rcases List.mem_cons.mp hn with rfl | hn
    · exact Nat.le_refl _
    · exact h.past n hn
  · exact fun c hc => ⟨(h.callback c hc).1, fun hb => List.mem_cons_of_mem _ ((h.callback c hc).2 hb)⟩
  · intro n b hn
    rcases hmem hn with hn | heq
    · exact h.timeout n b hn
    · cases heq
  · intro n hn
    rcases hmem hn with hn | heq
    · exact List.mem_cons_of_mem _ (h.made n hn)
    · cases heq
      exact List.mem_cons_self
  · intro hn
    rcases hmem hn with hn | heq
    · exact h.appValid hn
    · cases heq
  · exact fun _ _ => .inr (List.mem_append_right _ List.mem_cons_self)
  · exact h.order_push nofun

/-- Another state of the running image, which is not pending. -/
theorem setImage_inv (h : Inv target s) {image : ImageState} (himage : image ≠ .pendingVerify)
    (posts : Bool) :
    Inv target { s with
      image := image
      queue := if posts && image = .valid then s.queue ++ [.appValid] else s.queue } := by
  have hflags : Flags target { s with image := image } :=
    ⟨⟨h.writes, h.outcomes, h.checks⟩, h.host, h.force, h.id, h.cn, fun _ => himage⟩
  have hposted : Posted { s with image := image } :=
    ⟨h.connected, h.past, h.callback, h.timeout, h.made, fun _ => himage, h.seen, h.order⟩
  split
  · refine ⟨⟨⟨h.writes, h.outcomes, h.checks⟩, h.host, h.force, h.id, h.cn, fun _ => himage⟩, ?_⟩
    exact hposted.push nofun nofun fun _ => himage
  · exact ⟨hflags, hposted⟩

/-- The timer expires: its callback knows whether there was a connection. -/
theorem elapse_inv (h : Inv target s) :
    Inv target { s with
      timer := some false
      callbacks := s.callbacks ++ [(s.startNo, decide (s.startNo ∈ s.connections))] } := by
  refine ⟨⟨⟨h.writes, h.outcomes, h.checks⟩, h.host, h.force, h.id, h.cn, h.valid⟩, ?_⟩
  refine ⟨h.connected, h.past, ?_, h.timeout, h.made, h.appValid, h.seen, h.order⟩
  intro c hc
  rcases List.mem_append.mp hc with hc | hc
  · exact h.callback c hc
  · rw [List.mem_singleton.mp hc]
    exact ⟨Nat.le_refl _, of_decide_eq_true⟩

/-- A callback posts its event, possibly in a later start. -/
theorem postTimeout_inv (h : Inv target s) {start : Nat} {connected : Bool}
    {rest : List (Nat × Bool)} (heq : s.callbacks = (start, connected) :: rest) :
    Inv target { s with callbacks := rest, queue := s.queue ++ [.timeout start connected] } := by
  have hcallback := h.callback
  rw [heq] at hcallback
  have hposted : Posted { s with callbacks := rest } :=
    ⟨h.connected, h.past, fun c hc => hcallback c (List.mem_cons_of_mem _ hc), h.timeout, h.made,
      h.appValid, h.seen, h.order⟩
  refine ⟨⟨⟨h.writes, h.outcomes, h.checks⟩, h.host, h.force, h.id, h.cn, h.valid⟩, ?_⟩
  refine hposted.push ?_ nofun nofun
  intro n b hn
  cases hn
  exact hcallback _ List.mem_cons_self

/-! ### Runs -/

theorem Inv.initial (h : Initial s) : Inv target s := by
  obtain ⟨stored, image, rfl⟩ := h
  constructor
  · constructor
    · exact ⟨nofun, nofun, nofun⟩
    all_goals exact nofun
  · constructor
    · exact nofun
    · exact nofun
    · exact nofun
    · exact nofun
    · exact nofun
    · exact nofun
    · exact nofun
    · exact fun _ _ _ hstarted => nomatch hstarted

/-- One careful step. -/
theorem Inv.step {a : Action} (h : Inv target s) (hguard : Careful s a)
    (hstep : Migration.step target s a = some t) : Inv target t := by
  cases a with
  | check env =>
    obtain ⟨hflags, hframe, hok⟩ := check_spec h.toFlags hguard
    cases Option.some.inj hstep
    split
    · next hsuccess =>
      -- the check logs the host that is in force
      refine ⟨⟨⟨hflags.writes, hflags.outcomes, ?_⟩, hflags.host, hflags.force, hflags.id, hflags.cn,
        hflags.valid⟩, h.toPosted.frame ⟨hframe.image, hframe.started, hframe.connected,
          hframe.callbacks, hframe.queue, hframe.startNo, hframe.connections⟩⟩
      intro host hmem
      rcases List.mem_append.mp hmem with hmem | hmem
      · exact hflags.checks host hmem
      · rw [List.mem_singleton.mp hmem]
        exact hok hsuccess
    · exact ⟨hflags, h.toPosted.frame hframe⟩
  | start env =>
    cases Option.some.inj hstep
    exact start_inv h hguard
  | stop =>
    cases Option.some.inj hstep
    exact stop_inv h
  | reset toDefault =>
    cases Option.some.inj hstep
    exact reset_inv h toDefault
  | networkUp env =>
    cases Option.some.inj hstep
    exact networkUp_inv h
  | connect =>
    rw [Migration.step] at hstep
    split at hstep
    · next hstarted =>
      cases Option.some.inj hstep
      exact connect_inv h hstarted
    · cases Option.some.inj hstep
      refine ⟨⟨⟨h.writes, h.outcomes, h.checks⟩, h.host, h.force, h.id, h.cn, h.valid⟩, ?_⟩
      exact h.toPosted.push nofun nofun nofun
  | setImage image posts =>
    rw [Migration.step] at hstep
    split at hstep
    · cases hstep
    · next himage =>
      cases Option.some.inj hstep
      exact setImage_inv h himage posts
  | elapse =>
    rw [Migration.step] at hstep
    split at hstep
    · cases Option.some.inj hstep
      exact elapse_inv h
    · cases hstep
  | postTimeout =>
    rw [Migration.step] at hstep
    split at hstep
    · cases hstep
    · next heq =>
      cases Option.some.inj hstep
      exact postTimeout_inv h heq
  | deliver env =>
    rw [Migration.step] at hstep
    split at hstep
    · cases hstep
    · next e rest heq =>
      cases Option.some.inj hstep
      dsimp only
      split
      · next hstarted =>
        obtain ⟨hsees, hfresh⟩ := hguard hstarted
        rw [heq] at hfresh
        exact deliver_inv h heq hstarted (hfresh e rfl) hsees
      · next hstopped => exact skip_inv h heq ((Bool.not_eq_true _).mp hstopped)
  | reboot image =>
    cases Option.some.inj hstep
    exact Inv.rebooted h.toFlags h.past image

/-- **The migration is safe.** A run whose steps are all careful is safe in every state. -/
theorem safe_of_careful (hs : Reach Initial (step target) Careful s) : Safe target s := by
  have hinv : Inv target s :=
    hs.inv _ (fun _ => Inv.initial) fun _ _ _ h hguard hstep => h.step hguard hstep
  exact hinv.toSafe

instance (s : State) (env : Answers) : Decidable (SeesPending s env) :=
  inferInstanceAs (Decidable (_ → _))

instance (s : State) (e : Event) : Decidable (Fresh s e) :=
  match e with
  | .connected start => inferInstanceAs (Decidable (start = some s.startNo ∨ s.connected = true))
  | .appValid => isTrue trivial
  | .timeout start _ => inferInstanceAs (Decidable (start = s.startNo ∨ s.connected = true))

instance (s : State) (a : Action) : Decidable (Careful s a) :=
  match a with
  | .check _ => inferInstanceAs (Decidable (_ → _ → _ → _ ∧ _))
  | .start env => inferInstanceAs (Decidable (SeesPending s env))
  | .deliver env =>
    inferInstanceAs (Decidable (_ → SeesPending s env ∧ ∀ e ∈ s.queue.head?, Fresh s e))
  | .stop | .reset _ | .networkUp _ | .connect | .setImage _ _ | .elapse | .postTimeout
  | .reboot _ => isTrue trivial

/-- A node ID from the certificate and the host are written after the first connection. The image
is pending until then, and a timeout that was posted before does no harm. -/
theorem migrated_safe :
    ∃ s, Reach Initial (step [104]) Careful s ∧ s.stored.clientId = some [110]
      ∧ s.stored.mqttHost = some [104] ∧ Safe [104] s := by
  have hrun : Reach Initial (step [104]) Careful _ :=
    Reach.exec
      [.check { cn := some [110] }, .start {}, .networkUp {}, .connect, .elapse, .postTimeout,
        .deliver {}, .deliver {}, .setImage .valid true, .deliver {}]
      (.start ⟨{}, .pendingVerify, rfl⟩) (by decide +kernel) rfl
  exact ⟨_, hrun, rfl, rfl, safe_of_careful hrun⟩

/-- Three runs that are not safe. A connection of the first start is delivered in the second one,
and the host is stored. The timer of the first start rolls the image back in the second one. A check
fails at the host after it took the node ID from the certificate, and the next one succeeds. -/
theorem staleAndForgotten :
    (∃ s, Reach Initial (step [104]) (fun _ _ => True) s
      ∧ (∃ w ∈ s.hostWrites, w.connected = false) ∧ ¬Safe [104] s)
    ∧ (∃ s, Reach Initial (step [104]) (fun _ _ => True) s
      ∧ (∃ o ∈ s.outcomes, o.rollback = true ∧ o.timer ≠ o.start) ∧ ¬Safe [104] s)
    ∧ ∃ s, Reach Initial (step [104]) (fun _ _ => True) s ∧ none ∈ s.checks ∧ ¬Safe [104] s := by
  refine ⟨⟨_, Reach.exec_true
      [.check {}, .start {}, .connect, .stop, .start {}, .deliver {}]
      (.start ⟨{ clientId := some [110] }, .valid, rfl⟩) rfl, by decide +kernel, ?_⟩,
    ⟨_, Reach.exec_true
      [.check {}, .start {}, .networkUp {}, .elapse, .stop, .start {}, .postTimeout, .deliver {}]
      (.start ⟨{ clientId := some [110] }, .pendingVerify, rfl⟩) rfl, by decide +kernel, ?_⟩,
    ⟨_, Reach.exec_true
      [.check { cn := some [110], hostRead := .failed }, .check {}]
      (.start ⟨{}, .valid, rfl⟩) rfl, by decide +kernel, ?_⟩⟩
  · intro h
    exact absurd (fun w hw => (h.writes w hw).2.1) (by decide +kernel)
  · intro h
    exact absurd (fun o ho => (h.outcomes o ho).1) (by decide +kernel)
  · intro h
    exact absurd h.checks (by decide +kernel)

end RainMakerNeo.Credentials.Migration
