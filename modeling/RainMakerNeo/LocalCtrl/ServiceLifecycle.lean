import RainMakerNeo.Lib.Run
import Mathlib.Data.List.Basic

/-!
# `RainMakerNeo.LocalCtrl.ServiceLifecycle`: two features on one service instance

Local control and challenge-response share an instance of the local service. The first feature that
is enabled starts it and the last one that is disabled stops it. A client can disable
challenge-response through its own endpoint. The endpoint is then removed after a delay, by a work
task or, without a work queue, by the callback of the stop task itself.

`Good` says that instance, endpoints, capabilities and stop tasks fit together. It fails in three
places. A callback that finds no work queue stops an instance with no other feature, and so
cancels its own task, which its comment rules out. With local control active it leaves the handle of
its task, which the next delayed stop overwrites. A refresh returns `ESP_RMAKER_OK` with the old
TXT record if the record could neither be removed nor be replaced. `Careful` excludes these steps.

Calls, callbacks and work tasks run one after the other, in any order. `osal_discovery_deinit`
removes what is still advertised.
-/

set_option autoImplicit false

namespace RainMakerNeo.LocalCtrl.ServiceLifecycle

open RainMakerNeo.Lib

/-! ### The state -/

/-- What shares the instance. -/
inductive Feature
  | localCtrl
  | chalResp
  deriving DecidableEq, Repr

/-- The endpoints of the features. -/
inductive Endpoint
  | getParams
  | setParams
  | getConfig
  | chResp
  deriving DecidableEq, Repr

def Endpoint.feature : Endpoint → Feature
  | .getParams | .setParams | .getConfig => .localCtrl
  | .chResp => .chalResp

/-- `__local_ctrl_service_priv_data_t`, and what protocomm and the discovery hold for it. -/
structure Service where
  /-- The protocomm instance exists and its HTTP server runs. -/
  pc : Bool := false
  endpoints : List Endpoint := []
  /-- The capabilities that the version endpoint reports. -/
  version : Option (List String) := none
  /-- The capabilities in `version_json`. -/
  versionJson : Option (List String) := none
  discoveryInitialized : Bool := false
  advertised : Bool := false
  /-- The `cap` item of the TXT record that the discovery backend shows. -/
  txt : Option (List String) := none
  localCtrlActive : Bool := false
  chalRespActive : Bool := false
  stopScheduled : Bool := false
  /-- A scheduler task is named by its number. -/
  stopTaskHandle : Option Nat := none
  /-- The latest `__core_refresh_advert` returned `ESP_RMAKER_OK`. No function reads it. -/
  refreshed : Bool := false
  deriving DecidableEq, Repr

/-- Where a stop task is. -/
inductive Phase
  | armed
  | inCallback
  | done
  deriving DecidableEq, Repr

/-- A stop task that was scheduled. -/
structure StopTask where
  phase : Phase := .armed
  /-- How often it was cancelled, which is what frees it. -/
  releases : Nat := 0
  /-- It was cancelled from within its own callback. -/
  selfCancelled : Bool := false
  deriving DecidableEq, Repr

structure State where
  /-- Security 1 without PoP is configured. -/
  noPop : Bool := false
  /-- `__priv_data`. -/
  service : Option Service := none
  tasks : List StopTask := []
  /-- The number of queued `__chal_resp_stop_work_task`. -/
  queued : Nat := 0
  /-- `g_chal_resp_disabled`. -/
  disabled : Bool := false
  /-- `__chal_resp_is_persistently_disabled`. -/
  persisted : Bool := false
  deriving DecidableEq, Repr

def Service.active (v : Service) : Feature → Bool
  | .localCtrl => v.localCtrlActive
  | .chalResp => v.chalRespActive

/-- `esp_rmaker_chal_resp_is_disabled`. -/
def State.isDisabled (s : State) : Bool := s.disabled || s.persisted

def State.put (s : State) (v : Service) : State := { s with service := some v }

/-! ### The advertisement -/

/-- The cap list of the version endpoint. -/
def Service.capsJson (v : Service) (noPop : Bool) : List String :=
  (if v.localCtrlActive then ["get_params", "set_params", "get_config"] else [])
    ++ (if v.chalRespActive then ["ch_resp"] else []) ++ if noPop then ["no_pop"] else []

/-- The `cap` item of the TXT record. -/
def Service.capsTxt (v : Service) : List String :=
  (if v.localCtrlActive then ["local_ctrl"] else [])
    ++ if v.chalRespActive then ["ch_resp"] else []

/-- What `__core_refresh_advert` meets. -/
structure RefreshEnv where
  allocates : Bool := true
  setsVersion : Bool := true
  /-- The old version string is accepted again. -/
  restores : Bool := true
  /-- `osal_discovery_remove_service` removes the record. -/
  removes : Bool := true
  /-- `osal_discovery_add_service` returns `OSAL_ERR_OK`. -/
  adds : Bool := true
  deriving DecidableEq, Repr

/-- `protocomm_set_version`, which refuses a second version. -/
def Service.setVersion (v : Service) (json : List String) (ok : Bool) : Option Service :=
  if ok && v.version.isNone then some { v with version := some json } else none

/-- The end of `__core_refresh_advert`, which shows the new TXT record. -/
def Service.advertise (v : Service) (env : RefreshEnv) : Service :=
  -- the result of the removal is ignored, and so is that of the new advertisement
  let v := if v.advertised then
      { v with advertised := false, txt := if env.removes then none else v.txt }
    else v
  if env.adds then { v with advertised := true, txt := some v.capsTxt } else v

/-- `__core_refresh_advert`. -/
def Service.refreshAdvert (v : Service) (noPop : Bool) (env : RefreshEnv) : Service :=
  if !v.pc || !env.allocates then { v with refreshed := false }
  else
    let caps := v.capsJson noPop
    let old := v.versionJson
    -- the old version has to come off first, and is put back if the new one is refused
    let v := if old.isSome then { v with version := none, versionJson := none } else v
    match v.setVersion caps env.setsVersion with
    | some v => { { v with versionJson := some caps }.advertise env with refreshed := true }
    | none =>
      match old.bind fun json => v.setVersion json env.restores with
      | some v => { v with versionJson := old, refreshed := false }
      | none => { v with refreshed := false }

/-! ### The instance -/

/-- `osal_scheduler_cancel_task` on a stop task. `self` is the stop task that runs the code. -/
def cancelTask (tasks : List StopTask) (self : Option Nat) (i : Nat) : List StopTask :=
  tasks.modify i fun t =>
    { phase := if t.phase = .armed then .done else t.phase
      releases := t.releases + 1
      selfCancelled := t.selfCancelled || self == some i }

/-- The release of the stop task in `__chal_resp_service_disable` and `__core_stop_if_idle`. -/
def State.releaseStopTask (s : State) (self : Option Nat) : State :=
  match s.service with
  | none => s
  | some v =>
    match v.stopTaskHandle with
    | none => s
    | some i =>
      { s with
        tasks := cancelTask s.tasks self i
        service := some { v with stopTaskHandle := none } }

/-- `__core_stop_if_idle`. What the instance has goes with it. -/
def State.coreStopIfIdle (s : State) (self : Option Nat) : State :=
  match s.service with
  | none => s
  | some v =>
    if v.localCtrlActive || v.chalRespActive then s
    else { s.releaseStopTask self with service := none }

/-- What `__core_start` meets. -/
structure StartEnv where
  allocates : Bool := true
  hasName : Bool := true
  discoveryInits : Bool := true
  pcCreated : Bool := true
  httpdStarts : Bool := true
  securitySet : Bool := true
  deriving DecidableEq, Repr

/-- `__core_start`. The flag says whether it returns `ESP_RMAKER_OK`. -/
def State.coreStart (s : State) (env : StartEnv) : State × Bool :=
  match s.service with
  | some _ => (s, true)
  | none =>
    if !env.allocates then (s, false)
    -- each later failure tears down what is there so far
    else if !env.hasName || !env.discoveryInits then ((s.put {}).coreStopIfIdle none, false)
    else
      let v : Service := { discoveryInitialized := true }
      if !env.pcCreated || !env.httpdStarts then ((s.put v).coreStopIfIdle none, false)
      else
        let v := { v with pc := true }
        if !env.securitySet then ((s.put v).coreStopIfIdle none, false)
        else (s.put v, true)

/-! ### The features -/

/-- `protocomm_add_endpoint`. -/
def Service.addEndpoint (v : Service) (e : Endpoint) (ok : Bool) : Service × Bool :=
  if ok && v.pc && e ∉ v.endpoints then ({ v with endpoints := e :: v.endpoints }, true)
  else (v, false)

/-- `protocomm_remove_endpoint`. -/
def Service.removeEndpoint (v : Service) (e : Endpoint) : Service :=
  { v with endpoints := v.endpoints.filter (· ≠ e) }

/-- The three endpoints of local control, up to the first failure. -/
def Service.addLocalCtrl (v : Service) (params set config : Bool) : Service × Bool :=
  match v.addEndpoint .getParams params with
  | (v, false) => (v, false)
  | (v, true) =>
    match v.addEndpoint .setParams set with
    | (v, false) => (v, false)
    | (v, true) => v.addEndpoint .getConfig config

/-- The endpoints of local control go, and its flag. -/
def Service.removeLocalCtrl (v : Service) : Service :=
  { ((v.removeEndpoint .getConfig).removeEndpoint .setParams).removeEndpoint .getParams with
    localCtrlActive := false }

/-- `__local_ctrl_service_disable`. -/
def State.localCtrlDisable (s : State) (env : RefreshEnv) : State :=
  match s.service with
  | none => s
  | some v =>
    if !v.localCtrlActive then s
    else
      let v := v.removeLocalCtrl
      if v.chalRespActive then s.put (v.refreshAdvert s.noPop env)
      else (s.put v).coreStopIfIdle none

/-- What `esp_rmaker_local_ctrl_service_enable` meets. -/
structure LocalEnableEnv where
  start : StartEnv := {}
  params : Bool := true
  set : Bool := true
  config : Bool := true
  refresh : RefreshEnv := {}
  addsToNode : Bool := true
  /-- The refresh while a failed enable is undone. -/
  undo : RefreshEnv := {}
  deriving DecidableEq, Repr

/-- `esp_rmaker_local_ctrl_service_enable`. -/
def State.localCtrlEnable (s : State) (env : LocalEnableEnv) : State :=
  if (s.service.map Service.localCtrlActive).getD false then s
  else
    match s.coreStart env.start with
    | (s, false) => s
    | (s, true) =>
      match s.service with
      | none => s
      | some v =>
        match v.addLocalCtrl env.params env.set env.config with
        -- `get_config` is the last one, so it is not there when an endpoint fails
        | (v, false) =>
          (s.put ((v.removeEndpoint .getParams).removeEndpoint .setParams)).coreStopIfIdle none
        | (v, true) =>
          let v := { v with localCtrlActive := true }
          let s := s.put (v.refreshAdvert s.noPop env.refresh)
          if env.addsToNode then s else s.localCtrlDisable env.undo

/-- What `esp_rmaker_chal_resp_service_enable` meets. -/
structure ChalEnableEnv where
  start : StartEnv := {}
  endpoint : Bool := true
  refresh : RefreshEnv := {}
  deriving DecidableEq, Repr

/-- `esp_rmaker_chal_resp_service_enable`. -/
def State.chalRespEnable (s : State) (env : ChalEnableEnv) : State :=
  if (s.service.map Service.chalRespActive).getD false then s
  else if s.persisted then { s with disabled := true }
  else
    match { s with disabled := false }.coreStart env.start with
    | (s, false) => { s with disabled := true }
    | (s, true) =>
      match s.service with
      | none => s
      | some v =>
        match v.addEndpoint .chResp env.endpoint with
        | (v, false) => ({ s with disabled := true }.put v).coreStopIfIdle none
        | (v, true) =>
          let v := { v with chalRespActive := true }
          s.put (v.refreshAdvert s.noPop env.refresh)

/-- The endpoint of challenge-response goes, and its flags. -/
def Service.removeChalResp (v : Service) : Service :=
  { v.removeEndpoint .chResp with chalRespActive := false, stopScheduled := false }

/-- `__chal_resp_service_disable`. -/
def State.chalRespDisable (s : State) (cancelStopTask : Bool) (self : Option Nat)
    (env : RefreshEnv) : State :=
  match s.service with
  | none => s
  | some v =>
    if !v.chalRespActive then s
    else
      let s := { s with disabled := true }.put v.removeChalResp
      -- from its own callback the stop task is not cancelled here
      let s := if cancelStopTask then s.releaseStopTask self else s
      if v.localCtrlActive then
        { s with service := s.service.map fun v => v.refreshAdvert s.noPop env }
      else s.coreStopIfIdle self

/-- What `__local_ctrl_chal_resp_handler` meets when it handles the disable command. -/
structure ClientEnv where
  /-- `__chal_resp_persist_disabled` writes the NVS. -/
  persists : Bool := true
  schedules : Bool := true
  /-- A failed `osal_scheduler_schedule_task` sets the handle to `NULL`. -/
  clears : Bool := false
  deriving DecidableEq, Repr

/-- `__local_ctrl_chal_resp_handler` for the disable command. -/
def State.chalRespHandler (s : State) (v : Service) (env : ClientEnv) : State :=
  if s.isDisabled then s
  else
    let s := { s with disabled := true, persisted := s.persisted || env.persists }
    -- the endpoint is removed after a delay, so that the response gets out
    if v.stopScheduled then s
    else if env.schedules then
      { s with tasks := s.tasks ++ [({} : StopTask)] }.put
        { v with stopTaskHandle := some s.tasks.length, stopScheduled := true }
    else s.put { v with stopTaskHandle := if env.clears then none else v.stopTaskHandle }

/-- A stop task goes on. -/
def setPhase (tasks : List StopTask) (i : Nat) (phase : Phase) : List StopTask :=
  tasks.modify i fun t => { t with phase }

/-- `__chal_resp_delayed_stop_scheduler_cb`. `queues` says whether the work queue takes the task. -/
def State.stopCallback (s : State) (i : Nat) (queues : Bool) (env : RefreshEnv) : State :=
  if queues then { s with queued := s.queued + 1 } else s.chalRespDisable false (some i) env

/-- What happens on the node. -/
inductive Action
  | localCtrlEnable (env : LocalEnableEnv)
  | localCtrlDisable (env : RefreshEnv)
  | chalRespEnable (env : ChalEnableEnv)
  | chalRespDisable (env : RefreshEnv)
  /-- `esp_rmaker_chal_resp_enable` or `esp_rmaker_chal_resp_disable` by someone else. -/
  | setDisabled (disabled : Bool)
  /-- A client sends the disable command to the endpoint. -/
  | client (env : ClientEnv)
  /-- The delay of a stop task expires. -/
  | expire (i : Nat)
  /-- The callback of a stop task runs. -/
  | callback (i : Nat) (queues : Bool) (env : RefreshEnv)
  /-- A queued work task runs. -/
  | work (env : RefreshEnv)
  /-- A queued work task is dropped. -/
  | dropWork
  deriving DecidableEq, Repr

/-- One step of the node. -/
def step (s : State) : Action → Option State
  | .localCtrlEnable env => some (s.localCtrlEnable env)
  | .localCtrlDisable env => some (s.localCtrlDisable env)
  | .chalRespEnable env => some (s.chalRespEnable env)
  | .chalRespDisable env => some (s.chalRespDisable true none env)
  | .setDisabled disabled => some { s with disabled := disabled || s.persisted }
  | .client env =>
    match s.service with
    | some v => if .chResp ∈ v.endpoints then some (s.chalRespHandler v env) else none
    | none => none
  | .expire i =>
    if (s.tasks[i]?).map StopTask.phase = some .armed then
      some { s with tasks := setPhase s.tasks i .inCallback }
    else none
  | .callback i queues env =>
    if (s.tasks[i]?).map StopTask.phase = some .inCallback then
      let s := s.stopCallback i queues env
      some { s with tasks := setPhase s.tasks i .done }
    else none
  | .work env =>
    if 0 < s.queued then
      some ({ s with queued := s.queued - 1 }.chalRespDisable true none env)
    else none
  | .dropWork => if 0 < s.queued then some { s with queued := s.queued - 1 } else none

/-- The first boot, or a later one. -/
def Initial (s : State) : Prop :=
  ∃ noPop persisted, s = { noPop, persisted }

/-! ### The contract -/

/-- The stop task that the instance holds. -/
def State.handle (s : State) : Option Nat := s.service.bind Service.stopTaskHandle

def State.active (s : State) (f : Feature) : Bool := (s.service.map fun v => v.active f).getD false

/-- The endpoint is registered with the protocomm instance. -/
def State.Registered (s : State) (e : Endpoint) : Prop := ∃ v, s.service = some v ∧ e ∈ v.endpoints

/-- The contract of the two features. -/
structure Good (s : State) : Prop where
  /-- The instance exists exactly when a feature is active. -/
  exists_iff : s.service.isSome ↔ ∃ f, s.active f = true
  started : ∀ v, s.service = some v → v.pc = true ∧ v.discoveryInitialized = true
  endpoints : ∀ e, s.Registered e ↔ s.active e.feature = true
  /-- After a successful refresh the version endpoint has the capabilities of the active features,
  and so has the TXT record if there is one. -/
  advertised : ∀ v, s.service = some v → v.refreshed = true →
    v.version = some (v.capsJson s.noPop) ∧ ∀ record ∈ v.txt, record = v.capsTxt
  ownCallback : ∀ t ∈ s.tasks, t.selfCancelled = false
  /-- Each stop task was freed once, but for the one that the instance holds. -/
  released : ∀ i t, s.tasks[i]? = some t → t.releases = if s.handle = some i then 0 else 1

/-- The discovery backend removes the old record or accepts the new one. -/
def RefreshEnv.Replaces (env : RefreshEnv) : Prop := env.removes = true ∨ env.adds = true

instance : DecidablePred RefreshEnv.Replaces := fun _ => inferInstanceAs (Decidable (_ ∨ _))

/-- The steps that treat the stop tasks well. A callback without a work queue does not stop the
instance that holds its task. A client that gets a stop scheduled finds no other stop task held. -/
def StopCareful (s : State) : Action → Prop
  | .callback i queues _ => queues = false → ∀ v ∈ s.service, v.chalRespActive = true →
      v.localCtrlActive = false → v.stopTaskHandle ≠ some i
  | .client env => s.isDisabled = false → (env.schedules || env.clears) = true →
      ∀ v ∈ s.service, v.stopScheduled = false → v.stopTaskHandle = none
  | _ => True

/-- In each refresh the old TXT record is removed or replaced. -/
def AdvertCareful : Action → Prop
  | .localCtrlEnable env => env.refresh.Replaces ∧ env.undo.Replaces
  | .chalRespEnable env => env.refresh.Replaces
  | .localCtrlDisable env | .chalRespDisable env | .callback _ _ env | .work env => env.Replaces
  | _ => True

/-- The careful steps. -/
def Careful (s : State) (a : Action) : Prop := StopCareful s a ∧ AdvertCareful a

instance (s : State) : DecidablePred (StopCareful s)
  | .callback i queues _ => inferInstanceAs (Decidable (queues = false → ∀ v ∈ s.service,
      v.chalRespActive = true → v.localCtrlActive = false → v.stopTaskHandle ≠ some i))
  | .client env => inferInstanceAs (Decidable (s.isDisabled = false →
      (env.schedules || env.clears) = true → ∀ v ∈ s.service, v.stopScheduled = false →
        v.stopTaskHandle = none))
  | .localCtrlEnable _ | .localCtrlDisable _ | .chalRespEnable _ | .chalRespDisable _
  | .setDisabled _ | .expire _ | .work _ | .dropWork => inferInstanceAs (Decidable True)

instance : DecidablePred AdvertCareful
  | .localCtrlEnable env =>
    inferInstanceAs (Decidable (env.refresh.Replaces ∧ env.undo.Replaces))
  | .chalRespEnable env => inferInstanceAs (Decidable env.refresh.Replaces)
  | .localCtrlDisable env | .chalRespDisable env | .callback _ _ env | .work env =>
    inferInstanceAs (Decidable env.Replaces)
  | .setDisabled _ | .client _ | .expire _ | .dropWork => inferInstanceAs (Decidable True)

instance (s : State) (a : Action) : Decidable (Careful s a) :=
  inferInstanceAs (Decidable (_ ∧ _))

/-! ### A refresh -/

/-- The instance fits its active features, but for the advertised capabilities. -/
structure Service.Sane (v : Service) : Prop where
  pc : v.pc = true
  discovery : v.discoveryInitialized = true
  endpoints : ∀ e, e ∈ v.endpoints ↔ v.active e.feature = true
  txt : v.advertised = false → v.txt = none

/-- A successful refresh shows the active features. -/
def Service.Shown (v : Service) (noPop : Bool) : Prop :=
  v.refreshed = true →
    v.version = some (v.capsJson noPop) ∧ ∀ record ∈ v.txt, record = v.capsTxt

/-- What a refresh leaves as it is. -/
structure Service.Frame (v w : Service) : Prop where
  pc : w.pc = v.pc
  discovery : w.discoveryInitialized = v.discoveryInitialized
  endpoints : w.endpoints = v.endpoints
  localCtrl : w.localCtrlActive = v.localCtrlActive
  chalResp : w.chalRespActive = v.chalRespActive
  handle : w.stopTaskHandle = v.stopTaskHandle

variable {v w : Service}

theorem Service.Frame.active (h : v.Frame w) (f : Feature) : w.active f = v.active f := by
  cases f with
  | localCtrl => exact h.localCtrl
  | chalResp => exact h.chalResp

theorem Service.Frame.capsTxt (h : v.Frame w) : w.capsTxt = v.capsTxt := by
  simp [Service.capsTxt, h.localCtrl, h.chalResp]

theorem Service.Frame.capsJson (h : v.Frame w) (noPop : Bool) :
    w.capsJson noPop = v.capsJson noPop := by
  simp [Service.capsJson, h.localCtrl, h.chalResp]

theorem Service.setVersion_eq_some {json : List String} {ok : Bool}
    (h : v.setVersion json ok = some w) : w = { v with version := some json } := by
  unfold Service.setVersion at h
  split at h
  · exact (Option.some.inj h).symm
  · cases h

theorem Service.advertise_frame (v : Service) (env : RefreshEnv) :
    v.Frame (v.advertise env) ∧ (v.advertise env).version = v.version := by
  unfold Service.advertise
  dsimp only
  split <;> split <;> exact ⟨⟨rfl, rfl, rfl, rfl, rfl, rfl⟩, rfl⟩

variable {env : RefreshEnv} {self : Option Nat}

/-- The record is the new one or there is none, unless it could neither be removed nor replaced. -/
theorem Service.advertise_txt (henv : env.Replaces) (htxt : v.advertised = false → v.txt = none) :
    ((v.advertise env).advertised = false → (v.advertise env).txt = none) ∧
      ∀ record ∈ (v.advertise env).txt, record = v.capsTxt := by
  cases hadds : env.adds with
  | true =>
    -- the new record replaces an old one that could not be removed
    have hcaps : ({ v with advertised := false
                           txt := if env.removes then none else v.txt } : Service).capsTxt
        = v.capsTxt := rfl
    cases hadv : v.advertised with
    | true => simp [Service.advertise, hadds, hadv, hcaps]
    | false => simp [Service.advertise, hadds, hadv]
  | false =>
    -- without a new record the old one must go
    have hremoves : env.removes = true := by simpa [RefreshEnv.Replaces, hadds] using henv
    cases hadv : v.advertised with
    | true => simp [Service.advertise, hadds, hadv, hremoves]
    | false => simp [Service.advertise, hadds, hadv, htxt hadv]

/-- A refresh fails and leaves the record, or it succeeds and shows the active features. -/
theorem Service.refreshAdvert_cases (v : Service) (noPop : Bool) (env : RefreshEnv) :
    v.Frame (v.refreshAdvert noPop env) ∧
      (((v.refreshAdvert noPop env).refreshed = false ∧
        (v.refreshAdvert noPop env).advertised = v.advertised ∧
        (v.refreshAdvert noPop env).txt = v.txt) ∨
      ((v.refreshAdvert noPop env).version = some (v.capsJson noPop) ∧
        ∃ u : Service, v.Frame u ∧ u.advertised = v.advertised ∧ u.txt = v.txt ∧
          (v.refreshAdvert noPop env).advertised = (u.advertise env).advertised ∧
          (v.refreshAdvert noPop env).txt = (u.advertise env).txt)) := by
  unfold Service.refreshAdvert
  split
  · exact ⟨⟨rfl, rfl, rfl, rfl, rfl, rfl⟩, .inl ⟨rfl, rfl, rfl⟩⟩
  · -- without its old version the instance is the same otherwise
    dsimp only
    obtain ⟨u, hu⟩ : ∃ u, u = if v.versionJson.isSome then
        { v with version := none, versionJson := none } else v := ⟨_, rfl⟩
    have hframe : v.Frame u ∧ u.advertised = v.advertised ∧ u.txt = v.txt := by
      split at hu <;> subst hu <;> exact ⟨⟨rfl, rfl, rfl, rfl, rfl, rfl⟩, rfl, rfl⟩
    rw [← hu]
    obtain ⟨hf, hadv, htxt⟩ := hframe
    split
    · next w hw =>
      obtain rfl := Service.setVersion_eq_some hw
      obtain ⟨hx, hver⟩ := Service.advertise_frame
        { u with version := some (v.capsJson noPop), versionJson := some (v.capsJson noPop) } env
      exact ⟨⟨hx.pc.trans hf.pc, hx.discovery.trans hf.discovery, hx.endpoints.trans hf.endpoints,
          hx.localCtrl.trans hf.localCtrl, hx.chalResp.trans hf.chalResp,
          hx.handle.trans hf.handle⟩,
        .inr ⟨hver, { u with
            version := some (v.capsJson noPop), versionJson := some (v.capsJson noPop) },
          ⟨hf.pc, hf.discovery, hf.endpoints, hf.localCtrl, hf.chalResp, hf.handle⟩, hadv, htxt,
          rfl, rfl⟩⟩
    · split
      · next w hw =>
        obtain ⟨json, -, hw⟩ := Option.bind_eq_some_iff.mp hw
        obtain rfl := Service.setVersion_eq_some hw
        exact ⟨⟨hf.pc, hf.discovery, hf.endpoints, hf.localCtrl, hf.chalResp, hf.handle⟩,
          .inl ⟨rfl, hadv, htxt⟩⟩
      · exact ⟨⟨hf.pc, hf.discovery, hf.endpoints, hf.localCtrl, hf.chalResp, hf.handle⟩,
          .inl ⟨rfl, hadv, htxt⟩⟩

/-- A refresh of a sane instance keeps it sane, and shows the active features if it succeeds. -/
theorem Service.Sane.refreshAdvert (h : v.Sane) (noPop : Bool) (henv : env.Replaces) :
    (v.refreshAdvert noPop env).Sane ∧ (v.refreshAdvert noPop env).Shown noPop := by
  obtain ⟨hf, hcases⟩ := v.refreshAdvert_cases noPop env
  have hendpoints (e : Endpoint) : e ∈ (v.refreshAdvert noPop env).endpoints ↔
      (v.refreshAdvert noPop env).active e.feature = true := by
    rw [hf.endpoints, hf.active]
    exact h.endpoints e
  rcases hcases with ⟨hfail, hadv, htxt⟩ | ⟨hver, u, hu, huadv, hutxt, hadv, htxt⟩
  · refine ⟨⟨hf.pc.trans h.pc, hf.discovery.trans h.discovery, hendpoints, ?_⟩, ?_⟩
    · rw [hadv, htxt]
      exact h.txt
    · intro hok
      simp [hfail] at hok
  · have hutxt' : u.advertised = false → u.txt = none := by
      rw [huadv, hutxt]
      exact h.txt
    obtain ⟨hnone, hrecord⟩ := Service.advertise_txt henv hutxt'
    refine ⟨⟨hf.pc.trans h.pc, hf.discovery.trans h.discovery, hendpoints, ?_⟩, fun _ => ?_⟩
    · rw [hadv, htxt]
      exact hnone
    · rw [hver, hf.capsJson, htxt, hf.capsTxt, ← hu.capsTxt]
      exact ⟨rfl, hrecord⟩

/-! ### The stop tasks -/

/-- The stop tasks are accounted for, where `handle` is the one that the instance holds. -/
structure Tracked (tasks : List StopTask) (handle : Option Nat) : Prop where
  known : ∀ i, handle = some i → i < tasks.length
  own : ∀ t ∈ tasks, t.selfCancelled = false
  released : ∀ i t, tasks[i]? = some t → t.releases = if handle = some i then 0 else 1

variable {tasks : List StopTask} {handle : Option Nat}

/-- The held task is freed, and not from within its own callback. -/
theorem Tracked.cancelTask {i : Nat} (h : Tracked tasks (some i)) (hself : self ≠ some i) :
    Tracked (cancelTask tasks self i) none where
  known j hj := by cases hj
  own t ht := by
    obtain ⟨j, hj⟩ := List.mem_iff_getElem?.mp ht
    rw [ServiceLifecycle.cancelTask, List.getElem?_modify] at hj
    obtain ⟨u, hu, rfl⟩ := Option.map_eq_some_iff.mp hj
    have hown := h.own u (List.mem_of_getElem? hu)
    split
    · simp [hown, hself]
    · exact hown
  released j t ht := by
    rw [ServiceLifecycle.cancelTask, List.getElem?_modify] at ht
    obtain ⟨u, hu, rfl⟩ := Option.map_eq_some_iff.mp ht
    have hrel := h.released j u hu
    by_cases hij : i = j
    · subst hij
      simpa using hrel
    · simpa [hij] using hrel

theorem Tracked.schedule (h : Tracked tasks none) :
    Tracked (tasks ++ [({} : StopTask)]) (some tasks.length) where
  known i hi := by
    obtain rfl := Option.some.inj hi
    simp
  own t ht := by
    rcases List.mem_append.mp ht with ht | ht
    · exact h.own t ht
    · rw [List.mem_singleton.mp ht]
  released i t ht := by
    by_cases hi : i < tasks.length
    · rw [List.getElem?_append_left hi] at ht
      have hne : tasks.length ≠ i := by omega
      simpa [hne] using h.released i t ht
    · rw [List.getElem?_append_right (by omega)] at ht
      obtain ⟨hlt, rfl⟩ := List.getElem?_eq_some_iff.mp ht
      have hi' : tasks.length = i := by
        have hlt' : i - tasks.length < 1 := by simpa using hlt
        omega
      simp [hi']

theorem Tracked.setPhase (h : Tracked tasks handle) (i : Nat) (phase : Phase) :
    Tracked (setPhase tasks i phase) handle where
  known j hj := by simpa [ServiceLifecycle.setPhase] using h.known j hj
  own t ht := by
    obtain ⟨j, hj⟩ := List.mem_iff_getElem?.mp ht
    rw [ServiceLifecycle.setPhase, List.getElem?_modify] at hj
    obtain ⟨u, hu, rfl⟩ := Option.map_eq_some_iff.mp hj
    have hown := h.own u (List.mem_of_getElem? hu)
    split <;> exact hown
  released j t ht := by
    rw [ServiceLifecycle.setPhase, List.getElem?_modify] at ht
    obtain ⟨u, hu, rfl⟩ := Option.map_eq_some_iff.mp ht
    have hrel := h.released j u hu
    by_cases hij : i = j
    · simpa [hij] using hrel
    · simpa [hij] using hrel

/-! ### The invariant -/

/-- What the steps keep. -/
structure Inv (s : State) : Prop where
  sane : ∀ v, s.service = some v → v.Sane
  shown : ∀ v, s.service = some v → v.Shown s.noPop
  needed : ∀ v, s.service = some v → v.localCtrlActive = true ∨ v.chalRespActive = true
  tracked : Tracked s.tasks s.handle

variable {s t : State}

theorem Inv.good (h : Inv s) : Good s where
  exists_iff := by
    cases hv : s.service with
    | none => simp [State.active, hv]
    | some v =>
      have hactive : ∃ f, s.active f = true := by
        rcases h.needed v hv with hl | hc
        · exact ⟨.localCtrl, by simp [State.active, hv, Service.active, hl]⟩
        · exact ⟨.chalResp, by simp [State.active, hv, Service.active, hc]⟩
      simpa using hactive
  started v hv := ⟨(h.sane v hv).pc, (h.sane v hv).discovery⟩
  endpoints e := by
    cases hv : s.service with
    | none => simp [State.Registered, State.active, hv]
    | some v => simpa [State.Registered, State.active, hv] using (h.sane v hv).endpoints e
  advertised := h.shown
  ownCallback := h.tracked.own
  released := h.tracked.released

theorem Inv.put (hsane : v.Sane) (hshown : v.Shown s.noPop)
    (hneeded : v.localCtrlActive = true ∨ v.chalRespActive = true)
    (ht : Tracked s.tasks v.stopTaskHandle) : Inv (s.put v) where
  sane u hu := by
    obtain rfl := Option.some.inj hu
    exact hsane
  shown u hu := by
    obtain rfl := Option.some.inj hu
    exact hshown
  needed u hu := by
    obtain rfl := Option.some.inj hu
    exact hneeded
  tracked := ht

theorem Inv.refreshed (hsane : v.Sane)
    (hneeded : v.localCtrlActive = true ∨ v.chalRespActive = true)
    (ht : Tracked s.tasks v.stopTaskHandle) (henv : env.Replaces) :
    Inv (s.put (v.refreshAdvert s.noPop env)) := by
  obtain ⟨hsane', hshown⟩ := hsane.refreshAdvert s.noPop henv
  have hf := (v.refreshAdvert_cases s.noPop env).1
  refine .put hsane' hshown ?_ ?_
  · rw [hf.localCtrl, hf.chalResp]
    exact hneeded
  · rw [hf.handle]
    exact ht

/-- An instance with a feature stays. -/
theorem coreStopIfIdle_of_needed (self : Option Nat)
    (hneeded : v.localCtrlActive = true ∨ v.chalRespActive = true) :
    (s.put v).coreStopIfIdle self = s.put v := by
  rcases hneeded with h | h <;> simp [State.coreStopIfIdle, State.put, h]

/-- An instance without a feature is stopped, and its stop task is freed. -/
theorem Inv.stopped (hl : v.localCtrlActive = false) (hc : v.chalRespActive = false)
    (ht : Tracked s.tasks v.stopTaskHandle)
    (hself : ∀ i, v.stopTaskHandle = some i → self ≠ some i) :
    Inv ((s.put v).coreStopIfIdle self) := by
  have hstop : (s.put v).coreStopIfIdle self
      = { (s.put v).releaseStopTask self with service := none } := by
    simp [State.coreStopIfIdle, State.put, hl, hc]
  have htracked : Tracked ((s.put v).releaseStopTask self).tasks none := by
    cases hh : v.stopTaskHandle with
    | none => simpa [State.releaseStopTask, State.put, hh] using hh ▸ ht
    | some i =>
      simpa [State.releaseStopTask, State.put, hh] using (hh ▸ ht).cancelTask (hself i hh)
  rw [hstop]
  exact
    { sane := fun u hu => by cases hu
      shown := fun u hu => by cases hu
      needed := fun u hu => by cases hu
      tracked := htracked }

/-! ### The features -/

/-- The instance after a successful start. -/
def Service.fresh : Service := { pc := true, discoveryInitialized := true }

theorem Service.fresh_sane : Service.fresh.Sane where
  pc := rfl
  discovery := rfl
  endpoints e := by cases e <;> simp [Service.fresh, Endpoint.feature, Service.active]
  txt _ := rfl

/-- A start leaves an instance that is there, makes one, or fails and leaves none. -/
theorem coreStart_cases (s : State) (env : StartEnv) :
    (s.service.isSome ∧ s.coreStart env = (s, true)) ∨
      s.service = none ∧
        (s.coreStart env = (s, false) ∨ s.coreStart env = (s.put .fresh, true)) := by
  cases hv : s.service with
  | some v => exact .inl ⟨rfl, by simp [State.coreStart, hv]⟩
  | none =>
    -- what a failed start has made is torn down, and it has no stop task
    have hundo (v : Service) (hl : v.localCtrlActive = false) (hc : v.chalRespActive = false)
        (hh : v.stopTaskHandle = none) : (s.put v).coreStopIfIdle none = s := by
      obtain ⟨noPop, service, tasks, queued, disabled, persisted⟩ := s
      obtain rfl : service = none := hv
      simp [State.coreStopIfIdle, State.put, State.releaseStopTask, hl, hc, hh]
    refine .inr ⟨rfl, ?_⟩
    simp only [State.coreStart, hv]
    split
    · exact .inl rfl
    · split
      · exact .inl (by rw [hundo _ rfl rfl rfl])
      · split
        · exact .inl (by rw [hundo _ rfl rfl rfl])
        · split
          · exact .inl (by rw [hundo _ rfl rfl rfl])
          · exact .inr rfl

theorem Service.addEndpoint_cases (v : Service) (e : Endpoint) (ok : Bool) :
    v.addEndpoint e ok = (v, false) ∨
      v.addEndpoint e ok = ({ v with endpoints := e :: v.endpoints }, true) := by
  unfold Service.addEndpoint
  split
  · exact .inr rfl
  · exact .inl rfl

/-- The endpoints of local control are all added, or the first ones of them. -/
theorem Service.addLocalCtrl_cases (v : Service) (params set config : Bool) :
    v.addLocalCtrl params set config
        = ({ v with endpoints := .getConfig :: .setParams :: .getParams :: v.endpoints }, true) ∨
      ∃ added, (∀ e ∈ added, e = .getParams ∨ e = .setParams) ∧
        v.addLocalCtrl params set config
          = ({ v with endpoints := added ++ v.endpoints }, false) := by
  unfold Service.addLocalCtrl
  rcases v.addEndpoint_cases .getParams params with h | h
  · exact .inr ⟨[], by simp, by rw [h]; rfl⟩
  · rw [h]
    dsimp only
    rcases Service.addEndpoint_cases { v with endpoints := .getParams :: v.endpoints }
      .setParams set with h | h
    · exact .inr ⟨[.getParams], by simp, by rw [h]; rfl⟩
    · rw [h]
      dsimp only
      rcases Service.addEndpoint_cases
        { v with endpoints := .setParams :: .getParams :: v.endpoints } .getConfig config with h | h
      · exact .inr ⟨[.setParams, .getParams], by simp, by rw [h]; rfl⟩
      · exact .inl h

theorem Service.Sane.removeLocalCtrl (h : v.Sane) : v.removeLocalCtrl.Sane where
  pc := h.pc
  discovery := h.discovery
  endpoints e := by
    have he := h.endpoints e
    cases e <;>
      simp_all [Service.removeLocalCtrl, Service.removeEndpoint, Service.active, Endpoint.feature]
  txt := h.txt

theorem Service.Sane.removeChalResp (h : v.Sane) : v.removeChalResp.Sane where
  pc := h.pc
  discovery := h.discovery
  endpoints e := by
    have he := h.endpoints e
    cases e <;>
      simp_all [Service.removeChalResp, Service.removeEndpoint, Service.active, Endpoint.feature]
  txt := h.txt

theorem Inv.tracked_service (h : Inv s) (hv : s.service = some v) :
    Tracked s.tasks v.stopTaskHandle := by
  simpa [State.handle, hv] using h.tracked

theorem Inv.localCtrlDisable (h : Inv s) (henv : env.Replaces) : Inv (s.localCtrlDisable env) := by
  unfold State.localCtrlDisable
  split
  · exact h
  · next v hv =>
    have hsane := (h.sane v hv).removeLocalCtrl
    have ht : Tracked s.tasks v.stopTaskHandle := h.tracked_service hv
    split
    · exact h
    · dsimp only
      split
      · next hc => exact .refreshed hsane (.inr hc) ht henv
      · next hc => exact .stopped rfl (Bool.eq_false_iff.mpr hc) ht (by simp)

/-- The instance that a feature is added to. -/
structure Startable (s : State) (v : Service) : Prop where
  sane : v.Sane
  shown : v.Shown s.noPop
  tracked : Tracked s.tasks v.stopTaskHandle

/-- After a start there is an instance, and it is as a feature needs it. -/
theorem Inv.coreStart (h : Inv s) (env : StartEnv) :
    (s.coreStart env = (s, false)) ∨
      ∃ v, s.coreStart env = (s.put v, true) ∧ Startable s v ∧
        (s.service = some v ∨ s.service = none ∧ v = .fresh) := by
  rcases coreStart_cases s env with ⟨hsome, heq⟩ | ⟨hnone, heq | heq⟩
  · obtain ⟨v, hv⟩ := Option.isSome_iff_exists.mp hsome
    have hput : s.put v = s := by rw [State.put, ← hv]
    exact .inr ⟨v, by rw [hput]; exact heq,
      ⟨h.sane v hv, h.shown v hv, h.tracked_service hv⟩, .inl hv⟩
  · exact .inl heq
  · have ht : Tracked s.tasks none := by simpa [State.handle, hnone] using h.tracked
    exact .inr ⟨.fresh, heq, ⟨Service.fresh_sane, by simp [Service.Shown, Service.fresh], ht⟩,
      .inr ⟨hnone, rfl⟩⟩

/-- A feature that could not be added leaves the instance to the other one, or stops it. -/
theorem Startable.undo (h : Startable s v) : Inv ((s.put v).coreStopIfIdle none) := by
  by_cases hneeded : v.localCtrlActive = true ∨ v.chalRespActive = true
  · rw [coreStopIfIdle_of_needed none hneeded]
    exact .put h.sane h.shown hneeded h.tracked
  · obtain ⟨hl, hc⟩ := not_or.mp hneeded
    exact .stopped (Bool.eq_false_iff.mpr hl) (Bool.eq_false_iff.mpr hc) h.tracked
      (by simp)

theorem Inv.localCtrlEnable (h : Inv s) {env : LocalEnableEnv} (henv : env.refresh.Replaces)
    (hundo : env.undo.Replaces) : Inv (s.localCtrlEnable env) := by
  unfold State.localCtrlEnable
  split
  · exact h
  · next hinactive =>
    rcases h.coreStart env.start with heq | ⟨v, heq, hstart, hv⟩
    · rw [heq]
      exact h
    · rw [heq]
      -- a fresh instance has no feature, and one that was there does not have this one
      have hl : v.localCtrlActive = false := by
        rcases hv with hv | ⟨-, rfl⟩
        · simpa [hv] using hinactive
        · rfl
      have hnot (e : Endpoint) (he : e.feature = .localCtrl) : e ∉ v.endpoints := by
        rw [hstart.sane.endpoints e, he]
        simp [Service.active, hl]
      dsimp only [State.put]
      rcases v.addLocalCtrl_cases env.params env.set env.config with hadd | ⟨added, hadded, hadd⟩
      · rw [hadd]
        dsimp only
        have hsane : ({ v with
            endpoints := .getConfig :: .setParams :: .getParams :: v.endpoints
            localCtrlActive := true } : Service).Sane := by
          refine ⟨hstart.sane.pc, hstart.sane.discovery, fun e => ?_, hstart.sane.txt⟩
          have he := hstart.sane.endpoints e
          cases e <;> simp_all [Service.active, Endpoint.feature]
        have hinv := Inv.refreshed hsane (.inl rfl) hstart.tracked henv
        split
        · exact hinv
        · exact hinv.localCtrlDisable hundo
      · rw [hadd]
        -- the endpoints that were added are removed again
        have hendpoints : (({ v with endpoints := added ++ v.endpoints }
            : Service).removeEndpoint .getParams).removeEndpoint .setParams = v := by
          have hfilter : ((added ++ v.endpoints).filter (· ≠ .getParams)).filter (· ≠ .setParams)
              = v.endpoints := by
            rw [List.filter_filter, List.filter_append, List.filter_eq_nil_iff.mpr,
              List.filter_eq_self.mpr]
            · rfl
            · intro e he
              have hp : e ≠ .getParams := fun heq => hnot e (by rw [heq]; rfl) he
              have hs : e ≠ .setParams := fun heq => hnot e (by rw [heq]; rfl) he
              simp [hp, hs]
            · intro e he
              rcases hadded e he with rfl | rfl <;> simp
          simp only [Service.removeEndpoint, hfilter]
        dsimp only
        rw [hendpoints]
        exact hstart.undo

/-- The flags of the core and the work queue have no part in the contract. -/
theorem Inv.flags (h : Inv s) (disabled persisted : Bool) (queued : Nat) :
    Inv { s with disabled, persisted, queued } where
  sane := h.sane
  shown := h.shown
  needed := h.needed
  tracked := h.tracked

theorem Inv.chalRespEnable (h : Inv s) {env : ChalEnableEnv} (henv : env.refresh.Replaces) :
    Inv (s.chalRespEnable env) := by
  unfold State.chalRespEnable
  split
  · exact h
  · next hinactive =>
    split
    · exact h.flags true s.persisted s.queued
    · have h' : Inv { s with disabled := false } := h.flags false s.persisted s.queued
      rcases h'.coreStart env.start with heq | ⟨v, heq, hstart, hv⟩
      · rw [heq]
        exact h.flags true s.persisted s.queued
      · rw [heq]
        have hc : v.chalRespActive = false := by
          rcases hv with hv | ⟨-, rfl⟩
          · have hv' : s.service = some v := hv
            simpa [hv'] using hinactive
          · rfl
        dsimp only [State.put]
        rcases v.addEndpoint_cases .chResp env.endpoint with hadd | hadd
        · rw [hadd]
          have hundo : Startable { s with disabled := true } v :=
            ⟨hstart.sane, hstart.shown, hstart.tracked⟩
          exact hundo.undo
        · rw [hadd]
          have hsane : ({ v with
              endpoints := .chResp :: v.endpoints
              chalRespActive := true } : Service).Sane := by
            refine ⟨hstart.sane.pc, hstart.sane.discovery, fun e => ?_, hstart.sane.txt⟩
            have he := hstart.sane.endpoints e
            cases e <;> simp_all [Service.active, Endpoint.feature]
          exact Inv.refreshed (s := { s with disabled := false }) hsane (.inr rfl)
            hstart.tracked henv

/-- The stop task of an instance is freed if it has one, and not by itself. -/
theorem releaseStopTask_put (hsane : v.Sane) (ht : Tracked s.tasks v.stopTaskHandle)
    (hself : ∀ i, v.stopTaskHandle = some i → self ≠ some i) :
    ∃ tasks, (s.put v).releaseStopTask self
        = { s with tasks }.put { v with stopTaskHandle := none } ∧
      ({ v with stopTaskHandle := none } : Service).Sane ∧ Tracked tasks none := by
  have hsane' : ({ v with stopTaskHandle := none } : Service).Sane :=
    ⟨hsane.pc, hsane.discovery, hsane.endpoints, hsane.txt⟩
  cases hh : v.stopTaskHandle with
  | none =>
    have hv : ({ v with stopTaskHandle := none } : Service) = v := by rw [← hh]
    exact ⟨s.tasks, by rw [hv]; simp [State.releaseStopTask, State.put, hh], hsane', hh ▸ ht⟩
  | some i =>
    exact ⟨cancelTask s.tasks self i, by simp [State.releaseStopTask, State.put, hh], hsane',
      (hh ▸ ht).cancelTask (hself i hh)⟩

/-- The end of `__chal_resp_service_disable`. -/
theorem Inv.disabled_put (hsane : v.Sane) (hc : v.chalRespActive = false)
    (ht : Tracked s.tasks v.stopTaskHandle)
    (hself : v.localCtrlActive = false → ∀ i, v.stopTaskHandle = some i → self ≠ some i)
    (henv : env.Replaces) :
    Inv (if v.localCtrlActive = true then s.put (v.refreshAdvert s.noPop env)
      else (s.put v).coreStopIfIdle self) := by
  split
  · next hl => exact .refreshed hsane (.inl hl) ht henv
  · next hl =>
    have hl' : v.localCtrlActive = false := Bool.eq_false_iff.mpr hl
    exact .stopped hl' hc ht (hself hl')

/-- A disable that cancels the stop task does not run in its callback. One that does not cancel it
must leave it alone when it stops the instance. -/
theorem Inv.chalRespDisable (h : Inv s) {cancelStopTask : Bool} (henv : env.Replaces)
    (hself : ∀ v, s.service = some v → v.chalRespActive = true →
      cancelStopTask = true ∨ v.localCtrlActive = false →
      ∀ i, v.stopTaskHandle = some i → self ≠ some i) :
    Inv (s.chalRespDisable cancelStopTask self env) := by
  unfold State.chalRespDisable
  split
  · exact h
  · next v hv =>
    split
    · exact h
    · next hactive =>
      have hc : v.chalRespActive = true := by simpa using hactive
      have hsane := (h.sane v hv).removeChalResp
      have ht : Tracked s.tasks v.stopTaskHandle := h.tracked_service hv
      cases cancelStopTask with
      | false =>
        -- in the callback: the task is only in the way if the instance is stopped
        exact Inv.disabled_put (s := { s with disabled := true }) hsane rfl ht
          (fun hl => hself v hv hc (.inr hl)) henv
      | true =>
        obtain ⟨tasks, heq, hsane', ht'⟩ :=
          releaseStopTask_put (s := { s with disabled := true }) hsane ht
            (hself v hv hc (.inl rfl))
        simp only [if_true]
        rw [heq]
        exact Inv.disabled_put (s := { s with disabled := true, tasks }) hsane' rfl ht'
          (by simp) henv

/-- A client's disable schedules a stop, unless one is scheduled. -/
theorem Inv.chalRespHandler (h : Inv s) (hv : s.service = some v) {env : ClientEnv}
    (hheld : s.isDisabled = false → (env.schedules || env.clears) = true →
      v.stopScheduled = false → v.stopTaskHandle = none) : Inv (s.chalRespHandler v env) := by
  have hsane := h.sane v hv
  have hneeded := h.needed v hv
  have ht : Tracked s.tasks v.stopTaskHandle := h.tracked_service hv
  unfold State.chalRespHandler
  split
  · exact h
  · next hdis =>
    dsimp only
    split
    · exact h.flags true (s.persisted || env.persists) s.queued
    · next hsched =>
      have hheld' (henv : (env.schedules || env.clears) = true) : v.stopTaskHandle = none :=
        hheld (Bool.eq_false_iff.mpr hdis) henv (Bool.eq_false_iff.mpr hsched)
      split
      · next hs =>
        have hnone := hheld' (by simp [hs])
        exact Inv.put (s := { s with
            disabled := true, persisted := s.persisted || env.persists
            tasks := s.tasks ++ [({} : StopTask)] })
          ⟨hsane.pc, hsane.discovery, hsane.endpoints, hsane.txt⟩ (h.shown v hv) hneeded
          (hnone ▸ ht).schedule
      · refine Inv.put (s := { s with disabled := true, persisted := s.persisted || env.persists })
          ⟨hsane.pc, hsane.discovery, hsane.endpoints, hsane.txt⟩ (h.shown v hv) hneeded ?_
        show Tracked s.tasks (if env.clears = true then none else v.stopTaskHandle)
        split
        · next hcl =>
          have hnone := hheld' (by simp [hcl])
          exact hnone ▸ ht
        · exact ht

theorem Inv.setPhase (h : Inv s) (i : Nat) (phase : Phase) :
    Inv { s with tasks := setPhase s.tasks i phase } where
  sane := h.sane
  shown := h.shown
  needed := h.needed
  tracked := h.tracked.setPhase i phase

theorem Inv.initial (h : Initial s) : Inv s := by
  obtain ⟨noPop, persisted, rfl⟩ := h
  exact
    { sane := fun v hv => by cases hv
      shown := fun v hv => by cases hv
      needed := fun v hv => by cases hv
      tracked :=
        { known := fun i hi => by cases hi
          own := by simp
          released := by simp } }

/-- A careful step keeps the invariant. -/
theorem Inv.step {a : Action} (h : Inv s) (hcareful : Careful s a)
    (ht : ServiceLifecycle.step s a = some t) : Inv t := by
  obtain ⟨hstop, hadvert⟩ := hcareful
  cases a with
  | localCtrlEnable env =>
    obtain rfl := Option.some.inj ht
    exact h.localCtrlEnable hadvert.1 hadvert.2
  | localCtrlDisable env =>
    obtain rfl := Option.some.inj ht
    exact h.localCtrlDisable hadvert
  | chalRespEnable env =>
    obtain rfl := Option.some.inj ht
    exact h.chalRespEnable hadvert
  | chalRespDisable env =>
    obtain rfl := Option.some.inj ht
    exact h.chalRespDisable hadvert (by simp)
  | setDisabled disabled =>
    obtain rfl := Option.some.inj ht
    exact h.flags (disabled || s.persisted) s.persisted s.queued
  | client env =>
    simp only [ServiceLifecycle.step] at ht
    split at ht
    · next v hv =>
      split at ht
      · obtain rfl := Option.some.inj ht
        exact h.chalRespHandler hv fun hdis henv => hstop hdis henv v hv
      · cases ht
    · cases ht
  | expire i =>
    simp only [ServiceLifecycle.step] at ht
    split at ht
    · obtain rfl := Option.some.inj ht
      exact h.setPhase i .inCallback
    · cases ht
  | callback i queues env =>
    simp only [ServiceLifecycle.step] at ht
    split at ht
    · obtain rfl := Option.some.inj ht
      -- with a work queue the callback only queues the removal
      have hcb : Inv (s.stopCallback i queues env) := by
        cases queues with
        | true => exact h.flags s.disabled s.persisted (s.queued + 1)
        | false =>
          refine h.chalRespDisable hadvert fun v hv hc hl j hj heq => ?_
          have hlocal : v.localCtrlActive = false := by simpa using hl
          exact hstop rfl v hv hc hlocal (hj.trans heq.symm)
      exact hcb.setPhase i .done
    · cases ht
  | work env =>
    simp only [ServiceLifecycle.step] at ht
    split at ht
    · obtain rfl := Option.some.inj ht
      exact (h.flags s.disabled s.persisted (s.queued - 1)).chalRespDisable hadvert (by simp)
    · cases ht
  | dropWork =>
    simp only [ServiceLifecycle.step] at ht
    split at ht
    · obtain rfl := Option.some.inj ht
      exact h.flags s.disabled s.persisted (s.queued - 1)
    · cases ht

/-! ### Careless stops -/

/-- A callback that stops the instance that holds its task cancels the task itself. A delayed stop
that is scheduled over another one leaves that one to nobody. -/
theorem Inv.not_good {a : Action} (h : Inv s) (hcareless : ¬ StopCareful s a)
    (ht : ServiceLifecycle.step s a = some t) : ¬ Good t := by
  cases a with
  | callback i queues env =>
    simp only [StopCareful, not_forall, ne_eq, not_not] at hcareless
    obtain ⟨hq, v, hv, hc, hl, hh⟩ := hcareless
    subst hq
    have hv' : s.service = some v := hv
    simp only [ServiceLifecycle.step] at ht
    split at ht
    · obtain rfl := Option.some.inj ht
      intro hgood
      have hlt : i < s.tasks.length := (h.tracked_service hv').known i hh
      have hmem : (ServiceLifecycle.setPhase (cancelTask s.tasks (some i) i) i .done)[i]?
          = some { s.tasks[i] with
              phase := .done, releases := s.tasks[i].releases + 1, selfCancelled := true } := by
        simp [ServiceLifecycle.setPhase, cancelTask, hlt]
      have htasks : (s.stopCallback i false env).tasks = cancelTask s.tasks (some i) i := by
        simp [State.stopCallback, State.chalRespDisable, hv', hc, State.put,
          Service.removeChalResp, Service.removeEndpoint, hl, State.coreStopIfIdle,
          State.releaseStopTask, hh]
      have hown := hgood.ownCallback _ (List.mem_of_getElem? (by rw [htasks]; exact hmem))
      simp at hown
    · cases ht
  | client env =>
    simp only [StopCareful, not_forall] at hcareless
    obtain ⟨hdis, henv, v, hv, hsched, hheld⟩ := hcareless
    obtain ⟨i, hi⟩ := Option.ne_none_iff_exists'.mp hheld
    have hv' : s.service = some v := hv
    have htr := h.tracked_service hv'
    have hlt : i < s.tasks.length := htr.known i hi
    have hrel : s.tasks[i].releases = 0 := by
      simpa [hi] using htr.released i _ (List.getElem?_eq_getElem hlt)
    simp only [ServiceLifecycle.step, hv'] at ht
    split at ht
    · obtain rfl := Option.some.inj ht
      intro hgood
      simp only [State.chalRespHandler, hdis, hsched, Bool.false_eq_true, if_false] at hgood
      split at hgood
      · next hs =>
        -- the handle is overwritten, and the earlier task is still not freed
        have hget : (s.tasks ++ [({} : StopTask)])[i]? = some s.tasks[i] := by
          rw [List.getElem?_append_left hlt, List.getElem?_eq_getElem hlt]
        have hone := hgood.released i _ hget
        have hne : s.tasks.length ≠ i := by omega
        simp [State.handle, State.put, hne, hrel] at hone
      · next hs =>
        have hcl : env.clears = true := by simpa [hs] using henv
        have hone := hgood.released i _ (List.getElem?_eq_getElem hlt)
        simp [State.handle, State.put, hcl, hrel] at hone
    · cases ht
  | _ => exact absurd trivial hcareless

theorem Inv.of_reach (hs : Reach Initial ServiceLifecycle.step Careful s) : Inv s :=
  hs.inv Inv (fun _ hs => .initial hs) fun _ _ _ hi hc ht => hi.step hc ht

/-- In a run of careful steps the two features and the instance fit together in each state. From
such a state, a step that does not treat the stop tasks well breaks the contract at once. -/
theorem lifecycle_good (s : State) (hs : Reach Initial ServiceLifecycle.step Careful s) :
    Good s ∧ ∀ a t, ServiceLifecycle.step s a = some t → ¬ StopCareful s a → ¬ Good t := by
  have hinv := Inv.of_reach hs
  exact ⟨hinv.good, fun a t ht hcareless => hinv.not_good hcareless ht⟩

/-- A client disables challenge-response while local control is active, and a work task removes
the endpoint. -/
theorem client_disable_good :
    ∃ s, exec ServiceLifecycle.step {} [.localCtrlEnable {}, .chalRespEnable {}, .client {},
      .expire 0, .callback 0 true {}, .work {}] = some s ∧
      s.active .localCtrl = true ∧ s.active .chalResp = false ∧ Good s := by
  obtain ⟨s, hs, hl, hc⟩ : ∃ s, exec ServiceLifecycle.step {} [.localCtrlEnable {},
      .chalRespEnable {}, .client {}, .expire 0, .callback 0 true {}, .work {}] = some s ∧
      s.active .localCtrl = true ∧ s.active .chalResp = false := ⟨_, rfl, by decide, by decide⟩
  have hreach : Reach Initial ServiceLifecycle.step Careful s :=
    Reach.exec _ (.start ⟨false, false, rfl⟩) (by decide) hs
  exact ⟨s, hs, hl, hc, (lifecycle_good s hreach).1⟩

/-- Without a work queue the callback of the stop task cancels its own task. -/
theorem stop_cancels_itself :
    ¬ ∀ s, Reach Initial ServiceLifecycle.step (fun _ _ => True) s → Good s := by
  intro hall
  obtain ⟨s, hs, t, hmem, hself⟩ : ∃ s, exec ServiceLifecycle.step {} [.chalRespEnable {},
      .client {}, .expire 0, .callback 0 false {}] = some s ∧
      ∃ t ∈ s.tasks, t.selfCancelled = true :=
    ⟨_, rfl, ⟨.done, 1, true⟩, by decide, rfl⟩
  have hreach : Reach Initial ServiceLifecycle.step (fun _ _ => True) s :=
    Reach.exec_true _ (.start ⟨false, false, rfl⟩) hs
  have hown := (hall s hreach).ownCallback t hmem
  rw [hself] at hown
  cases hown

end RainMakerNeo.LocalCtrl.ServiceLifecycle
