import RainMakerNeo.Lib.Run
import RainMakerNeo.Node.StoredParams

/-!
# `RainMakerNeo.Core.FactoryReset`: what a factory reset leaves behind

The SDK keeps the state of its user in many namespaces of the NVS, and some of it also in RAM.
`esp_rmaker_system_ctrl_clear_data_namespaces` clears five namespaces and those of the devices of
the self node, and it drops the live schedules. The namespaces `chal_resp` and `local_ctrl` and
those of the devices of the children are not on its list, though `chal_resp.c` says that its flag is
"cleared only by a factory reset". `forgotten_iff` says when nothing is left.

The NVS of the model has the entries of the user only. The network credentials, which the network
reset function erases, are not among them. An entry is the piece of user state that it holds. The
bridge is enabled.
-/

set_option autoImplicit false

namespace RainMakerNeo.Core.FactoryReset

open RainMakerNeo.Lib
open RainMakerNeo.Node.StoredParams (sdkNamespaces)

/-! ### The state of the user -/

/-- A voice assistant. -/
inductive Assistant
  | alexa | gva | smartThings
  deriving DecidableEq, Repr

/-- A service with versions and details. -/
inductive Service
  | schedules | triggers
  deriving DecidableEq, Repr

/-- A checksum of the self node. -/
inductive Checksum
  | nodeConfig | nodeTags
  deriving DecidableEq, Repr

/-- A piece of user state. The key of a child is made from its local id. -/
inductive Piece
  | groupInfo
  | assistantEnabled (a : Assistant)
  | version (s : Service)
  | details (s : Service)
  | checksum (c : Checksum)
  /-- The record of a child: its name, group info, versions and checksums. -/
  | child (key : String)
  | childDetails (s : Service) (key : String)
  | value (device param : String)
  | chalRespDisabled
  | pop
  | sec2Salt
  | sec2Verifier
  deriving DecidableEq, Repr

/-- The namespace and the key under which a piece is stored. -/
def Piece.location : Piece → String × String
  | groupInfo => ("local_config", "grp_info")
  | assistantEnabled .alexa => ("local_config", "alexa_en")
  | assistantEnabled .gva => ("local_config", "gva_en")
  | assistantEnabled .smartThings => ("local_config", "st_en")
  | version .schedules => ("local_config", "sched_ver")
  | version .triggers => ("local_config", "trg_ver")
  | details .schedules => ("local_config", "sched_det")
  | details .triggers => ("local_config", "trg_det")
  | checksum .nodeConfig => ("chksum", "node_cfg")
  | checksum .nodeTags => ("chksum", "node_tags")
  | child key => ("rmng_bridge", key)
  | childDetails .schedules key => ("bridge_scheds", key)
  | childDetails .triggers key => ("bridge_triggers", key)
  | value device param => (device, param)
  | chalRespDisabled => ("chal_resp", "disabled")
  | pop => ("local_ctrl", "pop")
  | sec2Salt => ("local_ctrl", "sec2_salt")
  | sec2Verifier => ("local_ctrl", "sec2_verifier")

/-- The piece is also kept in RAM: the list of triggers and the schedules of a node, the tags
checksum of a node, the pool of the children, the values of the parameters, the cached flag, and the
secrets of the running service. -/
def Piece.mirrored : Piece → Bool
  | details _ | childDetails _ _ | checksum .nodeTags | child _ | value _ _ | chalRespDisabled | pop
  | sec2Salt | sec2Verifier => true
  | groupInfo | assistantEnabled _ | version _ | checksum .nodeConfig => false

/-- A live schedule of the self node or of a child. -/
def Piece.isSchedule : Piece → Bool
  | details .schedules | childDetails .schedules _ => true
  | _ => false

/-- A secret of the local service. -/
def Piece.isSecret : Piece → Bool
  | pop | sec2Salt | sec2Verifier => true
  | _ => false

/-- The piece belongs to a child, apart from the values of its parameters. -/
def Piece.ofChild (key : String) : Piece → Bool
  | child k | childDetails _ k => k = key
  | _ => false

/-- The partition `RMAKER_NVS_PART_NAME`, as far as it holds user state. -/
abbrev Nvs := NamedStore String String Piece

/-- The node. -/
structure State where
  nvs : Nvs := fun _ => none
  /-- The pieces that RAM holds a copy of. -/
  ram : List Piece := []
  /-- The ids of the devices, with the key of the child that a device belongs to, `none` for the
  self node. -/
  devices : List (Option String × String) := []

/-- The piece is in the NVS. -/
def State.Stored (s : State) (p : Piece) : Prop := s.nvs.get p.location.1 p.location.2 = some p

instance (s : State) (p : Piece) : Decidable (s.Stored p) := inferInstanceAs (Decidable (_ = _))

/-! ### The factory reset -/

/-- The outcome of clearing a namespace. -/
inductive Clearing
  | done
  | notFound
  | failed
  deriving DecidableEq, Repr

/-- What the environment does during a factory reset. -/
structure ResetEnv where
  clearing : String → Clearing
  /-- A reboot follows. -/
  reboots : Bool

/-- `__clear_nvs_namespace`, and `esp_rmaker_device_clear_stored_values`, which does the same. -/
def clearNamespace (env : ResetEnv) (nvs : Nvs) (nameSpace : String) : Nvs :=
  match env.clearing nameSpace with
  | .done => (nvs.create nameSpace).eraseAll nameSpace
  | .notFound | .failed => nvs

/-- The ids of the devices of the self node. -/
def State.selfDevices (s : State) : List String :=
  (s.devices.filter fun d => d.1 = none).map Prod.snd

/-- `esp_rmaker_system_ctrl_clear_data_namespaces`. -/
def State.clearDataNamespaces (s : State) (env : ResetEnv) : State :=
  { s with
    nvs := (sdkNamespaces ++ s.selfDevices).foldl (clearNamespace env) s.nvs
    ram := s.ram.filter fun p => !p.isSchedule }

/-- A reboot. -/
def State.reboot (s : State) : State := { nvs := s.nvs }

/-- `esp_rmaker_system_ctrl_factory_reset`, with the reboot if there is one. -/
def State.factoryReset (s : State) (env : ResetEnv) : State :=
  let s := s.clearDataNamespaces env
  if env.reboots then s.reboot else s

/-! ### The operations of the SDK -/

/-- What happens next. `written` and `erased` say whether the storage does it. -/
inductive Action
  | addDevice (owner : Option String) (device : String)
  | removeDevice (owner : Option String) (device : String)
  | addChild (key : String)
  /-- `__bridge_remove_child` with the erasures that it makes. -/
  | removeChild (key : String) (erased : Piece → Bool)
  /-- A piece is written, and what RAM mirrors of it is set. -/
  | save (p : Piece) (written : Bool)
  /-- A piece is restored into RAM. -/
  | load (p : Piece)
  | clearDevice (device : String) (env : ResetEnv)
  | stopLocalCtrl
  | reboot
  | factoryReset (env : ResetEnv)

/-- A child or a device has to be there before its state is saved. -/
def State.mayKeep (s : State) : Piece → Bool
  | .child key | .childDetails _ key => s.ram.contains (.child key)
  | .value device _ => s.devices.any fun d => d.2 = device
  | _ => true

/-- The copy in RAM. -/
def State.mirror (s : State) (p : Piece) : State :=
  if p.mirrored then { s with ram := p :: s.ram.filter fun q => q ≠ p } else s

/-- Remove the entry of a piece. -/
def erasePiece (nvs : Nvs) (p : Piece) : Nvs := nvs.erase p.location.1 p.location.2

/-- The next step. -/
def step (s : State) : Action → Option State
  | .addDevice owner device =>
    if (owner.all fun key => s.ram.contains (.child key)) && !s.devices.contains (owner, device) then
      some { s with devices := s.devices ++ [(owner, device)] }
    else none
  | .removeDevice owner device =>
    some { s with devices := s.devices.filter fun d => d ≠ (owner, device) }
  | .addChild key => some { s with ram := .child key :: s.ram.filter fun q => q ≠ .child key }
  | .removeChild key erased =>
    some {
      nvs := ([Piece.child key, .childDetails .triggers key, .childDetails .schedules key].filter
        erased).foldl erasePiece s.nvs
      ram := s.ram.filter fun p => !p.ofChild key
      devices := s.devices.filter fun d => d.1 ≠ some key }
  | .save p written =>
    if s.mayKeep p then
      let s := s.mirror p
      some (if written then { s with nvs := s.nvs.set p.location.1 p.location.2 p } else s)
    else none
  | .load p => if s.mayKeep p && s.Stored p then some (s.mirror p) else none
  | .clearDevice device env => some { s with nvs := clearNamespace env s.nvs device }
  | .stopLocalCtrl => some { s with ram := s.ram.filter fun p => !p.isSecret }
  | .reboot => some s.reboot
  | .factoryReset env => some (s.factoryReset env)

/-- A node that has never been owned. -/
def Initial (s : State) : Prop := s = {}

/-- Nothing of the user is left, neither in the NVS nor in RAM. -/
structure Forgotten (s : State) : Prop where
  nvs : ∀ n k, s.nvs.get n k = none
  ram : s.ram = []

/-- Every stored piece is in a namespace that the reset clears, and without a reboot only schedules
are in RAM. -/
structure Forgettable (s : State) (env : ResetEnv) : Prop where
  stored : ∀ p, s.Stored p →
    (p.location.1 ∈ sdkNamespaces ∨ p.location.1 ∈ s.selfDevices) ∧
      env.clearing p.location.1 = .done
  ram : env.reboots = true ∨ ∀ p ∈ s.ram, p.isSchedule = true

/-! ### Every piece is at its place -/

variable {s t : State} {env : ResetEnv} {nvs : Nvs} {n m k : String} {p : Piece}

theorem get_clearNamespace : (clearNamespace env nvs m).get n k =
    if n = m ∧ env.clearing m = .done then none else nvs.get n k := by
  unfold clearNamespace
  cases hc : env.clearing m with
  | done =>
    show ((nvs.create m).eraseAll m).get n k = _
    rw [NamedStore.get_eraseAll, NamedStore.get_create]
    simp only [and_true]
  | notFound => rw [if_neg fun h => nomatch h.2]
  | failed => rw [if_neg fun h => nomatch h.2]

/-- What is left after some namespaces are cleared. -/
theorem get_foldl_clearNamespace (names : List String) :
    (names.foldl (clearNamespace env) nvs).get n k =
      if n ∈ names ∧ env.clearing n = .done then none else nvs.get n k := by
  induction names generalizing nvs with
  | nil => simp only [List.foldl_nil, List.not_mem_nil, false_and, if_false]
  | cons m names ih =>
    rw [List.foldl_cons, ih, get_clearNamespace]
    by_cases hn : n = m
    · subst hn
      by_cases hc : env.clearing n = .done <;> simp [hc]
    · simp [hn]

/-- A piece is stored under its own namespace and key. -/
def Placed (nvs : Nvs) : Prop := ∀ n k p, nvs.get n k = some p → p.location = (n, k)

theorem Placed.stored (h : Placed s.nvs) (hp : s.nvs.get n k = some p) : s.Stored p := by
  have hloc := h n k p hp
  rw [State.Stored, hloc]
  exact hp

/-- What only removes entries keeps the others in their places. -/
theorem Placed.mono {nvs' : Nvs} (h : Placed nvs)
    (hsub : ∀ n k p, nvs'.get n k = some p → nvs.get n k = some p) : Placed nvs' :=
  fun n k p hp => h n k p (hsub n k p hp)

theorem Placed.set (h : Placed nvs) (p : Piece) :
    Placed (nvs.set p.location.1 p.location.2 p) := by
  intro n k q hq
  rcases NamedStore.get_set_eq_some hq with ⟨rfl, rfl, rfl⟩ | hold
  · rfl
  · exact h n k q hold

theorem Placed.erasePieces (ps : List Piece) (h : Placed nvs) :
    Placed (ps.foldl erasePiece nvs) := by
  induction ps generalizing nvs with
  | nil => exact h
  | cons p ps ih => exact ih (h.mono fun _ _ _ hq => NamedStore.get_of_get_erase hq)

theorem get_of_get_foldl_clear {names : List String}
    (h : (names.foldl (clearNamespace env) nvs).get n k = some p) : nvs.get n k = some p := by
  rw [get_foldl_clearNamespace] at h
  split at h
  · cases h
  · exact h

theorem nvs_factoryReset : (s.factoryReset env).nvs =
    (sdkNamespaces ++ s.selfDevices).foldl (clearNamespace env) s.nvs := by
  unfold State.factoryReset
  cases env.reboots <;> rfl

theorem nvs_mirror : (s.mirror p).nvs = s.nvs := by
  unfold State.mirror
  split <;> rfl

/-- One step keeps every piece in its place. -/
theorem Placed.step {a : Action} (h : Placed s.nvs) (ht : FactoryReset.step s a = some t) :
    Placed t.nvs := by
  cases a with
  | addDevice owner device =>
    simp only [FactoryReset.step, Option.ite_none_right_eq_some, Option.some.injEq] at ht
    obtain ⟨_, rfl⟩ := ht
    exact h
  | removeDevice owner device =>
    cases ht
    exact h
  | addChild key =>
    cases ht
    exact h
  | removeChild key erased =>
    cases ht
    exact h.erasePieces _
  | save p written =>
    simp only [FactoryReset.step, Option.ite_none_right_eq_some, Option.some.injEq] at ht
    obtain ⟨_, rfl⟩ := ht
    cases written with
    | false => rwa [if_neg Bool.false_ne_true, nvs_mirror]
    | true =>
      show Placed (((s.mirror p).nvs).set _ _ p)
      rw [nvs_mirror]
      exact h.set p
  | load p =>
    simp only [FactoryReset.step, Option.ite_none_right_eq_some, Option.some.injEq] at ht
    obtain ⟨_, rfl⟩ := ht
    rwa [nvs_mirror]
  | clearDevice device env =>
    cases ht
    exact h.mono fun _ _ _ hq => @get_of_get_foldl_clear _ _ _ _ _ [device] hq
  | stopLocalCtrl =>
    cases ht
    exact h
  | reboot =>
    cases ht
    exact h
  | factoryReset env =>
    cases ht
    rw [nvs_factoryReset]
    exact h.mono fun _ _ _ hq => get_of_get_foldl_clear hq

theorem placed (h : Reach Initial step (fun _ _ => True) s) : Placed s.nvs :=
  h.inv (fun s => Placed s.nvs) (fun s hs => by
    cases hs
    exact fun _ _ _ hp => nomatch hp) fun _ _ _ hp _ ht => hp.step ht

/-! ### What a factory reset forgets -/

/-- What is in RAM after a factory reset. -/
theorem ram_factoryReset_eq_nil : (s.factoryReset env).ram = [] ↔
    env.reboots = true ∨ ∀ p ∈ s.ram, p.isSchedule = true := by
  unfold State.factoryReset
  cases env.reboots with
  | true => exact ⟨fun _ => .inl rfl, fun _ => rfl⟩
  | false =>
    show s.ram.filter (fun p => !p.isSchedule) = [] ↔ _
    simp [List.filter_eq_nil_iff]

/-- The NVS is empty after a factory reset when every stored piece was cleared. -/
theorem nvs_factoryReset_empty (h : Placed s.nvs) :
    (∀ n k, (s.factoryReset env).nvs.get n k = none) ↔
      ∀ p, s.Stored p → (p.location.1 ∈ sdkNamespaces ∨ p.location.1 ∈ s.selfDevices) ∧
        env.clearing p.location.1 = .done := by
  rw [nvs_factoryReset]
  constructor
  · intro hnone p hp
    have hgone := hnone p.location.1 p.location.2
    rw [get_foldl_clearNamespace] at hgone
    split at hgone
    · rename_i hcleared
      exact ⟨List.mem_append.mp hcleared.1, hcleared.2⟩
    · -- the piece would still be there
      rw [hp] at hgone
      cases hgone
  · intro hstored n k
    rw [get_foldl_clearNamespace]
    cases hp : s.nvs.get n k with
    | none => exact ite_self none
    | some p =>
      have hcleared := hstored p (h.stored hp)
      rw [h n k p hp] at hcleared
      exact if_pos ⟨List.mem_append.mpr hcleared.1, hcleared.2⟩

/-- **A factory reset forgets** the user exactly when everything that is stored is in a namespace on
its list, and nothing but schedules stays in RAM. -/
theorem forgotten_iff (s : State) (h : Reach Initial step (fun _ _ => True) s) (env : ResetEnv) :
    Forgotten (s.factoryReset env) ↔ Forgettable s env := by
  constructor
  · rintro ⟨hnvs, hram⟩
    exact ⟨(nvs_factoryReset_empty (placed h)).mp hnvs, ram_factoryReset_eq_nil.mp hram⟩
  · rintro ⟨hstored, hram⟩
    exact ⟨(nvs_factoryReset_empty (placed h)).mpr hstored, ram_factoryReset_eq_nil.mpr hram⟩

/-- Nothing fails, and the node reboots. -/
def cleanReset : ResetEnv := ⟨fun _ => .done, true⟩

/-- A group, a schedule and a value of a switch of the self node are forgotten. -/
theorem forgotten_sample :
    ∃ s : State, s.Stored .groupInfo ∧ s.Stored (.value "Switch" "Power") ∧
      Forgotten (s.factoryReset cleanReset) := by
  have hrun : Reach Initial step (fun _ _ => True) _ :=
    Reach.exec_true [.addDevice none "Switch", .save .groupInfo true,
      .save (.details .schedules) true, .save (.value "Switch" "Power") true] (.start rfl) rfl
  refine ⟨_, ?_, ?_, (forgotten_iff _ hrun cleanReset).mpr ⟨?_, .inl rfl⟩⟩
  · decide +kernel
  · decide +kernel
  · intro p hp
    -- the three writes, the last one first
    rcases NamedStore.get_set_eq_some hp with ⟨_, _, rfl⟩ | hp
    · exact ⟨.inr (by decide +kernel), rfl⟩
    · rcases NamedStore.get_set_eq_some hp with ⟨_, _, rfl⟩ | hp
      · exact ⟨.inl (by decide), rfl⟩
      · rcases NamedStore.get_set_eq_some hp with ⟨_, _, rfl⟩ | hp
        · exact ⟨.inl (by decide), rfl⟩
        · cases hp

/-- The client has disabled the challenge-response, and the flag is still there after a factory reset
in which nothing fails. -/
theorem not_forgotten :
    ∃ s : State, Reach Initial step (fun _ _ => True) s ∧
      ¬Forgotten (s.factoryReset cleanReset) := by
  have hrun : Reach Initial step (fun _ _ => True) _ :=
    Reach.exec_true [.save .chalRespDisabled true] (.start rfl) rfl
  exact ⟨_, hrun, fun h => nomatch h.nvs "chal_resp" "disabled"⟩

end RainMakerNeo.Core.FactoryReset
