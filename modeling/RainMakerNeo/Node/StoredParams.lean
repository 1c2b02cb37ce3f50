import RainMakerNeo.Lib.NamedStore
import RainMakerNeo.Node.ParamValue

/-!
# `RainMakerNeo.Node.StoredParams`: where the stored values of the parameters are

All nodes keep the values of their parameters in one NVS partition. The namespace is the id of the
device and the key is the id of the parameter. The SDK has namespaces of its own in the same
partition.

`esp_rmaker_node_add_device` keeps the ids of the devices of one node distinct. Nothing does so for
the devices of two nodes, or for a device and the SDK, while the schedules of a child are stored
under a key made from the owner. `isolated_iff` says when the values of two devices are apart.

Which names the storage takes is a parameter of the model. No storage has to take the empty name.
-/

set_option autoImplicit false

namespace RainMakerNeo.Node.StoredParams

open RainMakerNeo.Lib
open RainMakerNeo.Node.ParamValue (ParamVal Blob Misread)

/-! ### The data model -/

/-- `RMAKER_NVS_KEY_LEN_MAX`. -/
def nvsKeyLenMax : Nat := 15

/-- `RMAKER_PATH_SEPARATOR_CHAR`. -/
def pathSeparatorChar : Char := '.'

/-- The test of an id in `__esp_rmaker_device_create` and in `esp_rmaker_param_create`. -/
def idAccepted (id : String) : Bool :=
  !id.toList.contains pathSeparatorChar && id.utf8ByteSize ≤ nvsKeyLenMax

/-- A parameter that was created. A value of it has the type of `val`. -/
structure Param where
  id : String
  accepted : idAccepted id = true
  val : ParamVal
  /-- `PROP_FLAG_PERSIST`. -/
  persist : Bool

/-- A device or a service, with the parameters that `esp_rmaker_device_add_param` took. -/
structure Device where
  id : String
  accepted : idAccepted id = true
  params : List Param
  distinct : (params.map Param.id).Nodup

/-- A node, with the devices that `esp_rmaker_node_add_device` took. -/
structure DmNode where
  devices : List Device
  distinct : (devices.map Device.id).Nodup

/-- A device of one of the nodes. -/
structure Owner {ν : Type*} (nodes : ν → DmNode) where
  node : ν
  device : Device
  mem : device ∈ (nodes node).devices

/-! ### The storage -/

/-- The namespaces of `nvs.h`. -/
def sdkNamespaces : List String :=
  ["chksum", "local_config", "rmng_bridge", "bridge_triggers", "bridge_scheds"]

/-- The partition `RMAKER_NVS_PART_NAME`, as far as it holds blobs. -/
abbrev Nvs := NamedStore String String Blob

/-- `esp_rmaker_error_t`. -/
inductive Error
  | ok
  | notFound
  | noMem
  | fail
  deriving DecidableEq, Repr

/-- What the environment does when a value is stored. -/
structure StoreEnv where
  opens : Bool := true
  sets : Bool := true

/-- What the environment does when a namespace is cleared. -/
inductive ClearEnv
  | done
  | notFound
  | failed

/-- What the environment does when a value is read. -/
structure ReadEnv where
  opens : Bool := true
  gets : Bool := true
  allocates : Bool := true
  misread : Misread := {}

variable (takes : String → Bool)

/-- `esp_rmaker_param_store_value` of a parameter that has a device. -/
def storeValue (env : StoreEnv) (device param : String) (val : ParamVal) (nvs : Nvs) :
    Error × Nvs :=
  if takes device && env.opens then
    match val.blob with
    -- nothing is stored for NULL
    | none => (.ok, nvs.create device)
    | some blob =>
      if takes param && env.sets then (.ok, (nvs.create device).set device param blob)
      else (.fail, nvs.create device)
  else (.fail, nvs)

/-- `esp_rmaker_device_clear_stored_values`. -/
def clearStoredValues (env : ClearEnv) (device : String) (nvs : Nvs) : Error × Nvs :=
  if takes device then
    match env with
    | .done => (.ok, (nvs.create device).eraseAll device)
    | .notFound => (.ok, nvs)
    | .failed => (.fail, nvs)
  else (.fail, nvs)

/-- `esp_rmaker_param_get_stored_value` of a parameter that has a device. -/
def getStoredValue (env : ReadEnv) (device : String) (param : Param) (nvs : Nvs) :
    Except Error ParamVal :=
  if takes device && env.opens then
    if (nvs device).isNone then .error .notFound
    else
      match nvs.get device param.id with
      | none => .error .fail
      | some blob =>
        match param.val, blob.read param.val env.misread with
        | .text _ _, some val =>
          if takes param.id && env.gets then
            if env.allocates then .ok val else .error .noMem
          else .error .fail
        | _, some val => if takes param.id && env.gets then .ok val else .error .fail
        | _, none => .error .fail
  else .error .fail

/-- The value that `esp_rmaker_device_add_param` takes from the NVS. -/
def restored (env : ReadEnv) (device : String) (param : Param) (nvs : Nvs) : Option ParamVal :=
  if param.persist then (getStoredValue takes env device param nvs).toOption else none

/-! ### Operations of the devices -/

section Operations

variable {ν : Type*} {nodes : ν → DmNode}

/-- A value of a parameter is stored, or the values of a device are cleared. -/
inductive Op (nodes : ν → DmNode)
  | store (owner : Owner nodes) (param : Param) (mem : param ∈ owner.device.params)
      (val : ParamVal) (env : StoreEnv)
  | clear (owner : Owner nodes) (env : ClearEnv)

/-- The device that an operation is for. -/
def Op.owner : Op nodes → Owner nodes
  | .store owner _ _ _ _ => owner
  | .clear owner _ => owner

/-- The namespace that an operation opens. -/
def Op.nameSpace (op : Op nodes) : String := op.owner.device.id

/-- The NVS after an operation. -/
def apply (nvs : Nvs) : Op nodes → Nvs
  | .store owner param _ val env => (storeValue takes env owner.device.id param.id val nvs).2
  | .clear owner env => (clearStoredValues takes env owner.device.id nvs).2

/-- The NVS after some operations. -/
def run (nvs : Nvs) (ops : List (Op nodes)) : Nvs := ops.foldl (apply takes) nvs

/-- An operation for one device does not change what is restored later for another one, or an
entry of the SDK. -/
structure Isolated (nodes : ν → DmNode) : Prop where
  others : ∀ (nvs : Nvs) (op : Op nodes) (later : List (Op nodes)) (o : Owner nodes),
    o ≠ op.owner → ∀ q ∈ o.device.params, ∀ env : ReadEnv,
      restored takes env o.device.id q (run takes (apply takes nvs op) later) =
        restored takes env o.device.id q (run takes nvs later)
  sdk : ∀ (nvs : Nvs) (op : Op nodes), ∀ n ∈ sdkNamespaces, ∀ key,
    (apply takes nvs op).get n key = nvs.get n key

/-- Of two devices with one id, none has a value to lose, and no device has the id of a namespace of
the SDK. Only ids that the storage takes matter. -/
structure Apart (nodes : ν → DmNode) : Prop where
  devices : ∀ o o' : Owner nodes, o ≠ o' → o.device.id = o'.device.id → takes o.device.id = true →
    ∀ q ∈ o.device.params, q.persist = true → takes q.id = false
  sdk : ∀ o : Owner nodes, takes o.device.id = true → o.device.id ∉ sdkNamespaces

end Operations

/-! ### Every operation works in one namespace -/

variable {takes}

theorem worksAt_storeValue (env : StoreEnv) (device param : String) (val : ParamVal) :
    NamedStore.WorksAt device fun nvs => (storeValue takes env device param val nvs).2 := by
  unfold storeValue
  cases takes device && env.opens with
  | false => exact .id
  | true =>
    cases val.blob with
    | none => exact .create
    | some blob =>
      cases takes param && env.sets with
      | false => exact .create
      | true => exact .comp .set .create

theorem worksAt_clearStoredValues (env : ClearEnv) (device : String) :
    NamedStore.WorksAt device fun nvs => (clearStoredValues takes env device nvs).2 := by
  unfold clearStoredValues
  cases takes device with
  | false => exact .id
  | true =>
    cases env with
    | done => exact .comp .eraseAll .create
    | notFound => exact .id
    | failed => exact .id

variable {env : ReadEnv} {device : String} {nvs : Nvs}

/-- An id that the storage does not take leaves everything as it is. -/
theorem storeValue_of_not_takes {env : StoreEnv} {param : String} {val : ParamVal}
    (h : takes device = false) : (storeValue takes env device param val nvs).2 = nvs := by
  rw [storeValue, h]
  rfl

theorem clearStoredValues_of_not_takes {env : ClearEnv} (h : takes device = false) :
    (clearStoredValues takes env device nvs).2 = nvs := by
  simp only [clearStoredValues, h, Bool.false_eq_true, if_false]

/-- A read looks at the one namespace. -/
theorem restored_congr {q : Param} {nvs' : Nvs} (h : nvs device = nvs' device) :
    restored takes env device q nvs = restored takes env device q nvs' := by
  rw [restored, restored, getStoredValue, getStoredValue, h, NamedStore.get_congr h]

theorem restored_of_not_takes {q : Param} (h : takes device = false) :
    restored takes env device q nvs = none := by
  rw [restored, getStoredValue, h]
  split <;> rfl

/-- Nothing is restored from an entry that the storage does not take. -/
theorem restored_of_not_takes_key {q : Param} (h : takes q.id = false) :
    restored takes env device q nvs = none := by
  unfold restored getStoredValue
  rw [h]
  split
  · split
    · split
      · rfl
      · split
        · rfl
        · split <;> rfl
    · rfl
  · rfl

section Isolation

variable {ν : Type*} {nodes : ν → DmNode}

theorem worksAt_apply (op : Op nodes) :
    NamedStore.WorksAt op.nameSpace fun nvs => apply takes nvs op := by
  cases op with
  | store owner param _ val env => exact worksAt_storeValue env _ _ val
  | clear owner env => exact worksAt_clearStoredValues env _

theorem apply_of_not_takes {op : Op nodes} {nvs : Nvs} (h : takes op.nameSpace = false) :
    apply takes nvs op = nvs := by
  cases op with
  | store owner param _ val env => exact storeValue_of_not_takes h
  | clear owner env => exact clearStoredValues_of_not_takes h

/-- What is restored for a device depends on the operations of the devices with its id only. -/
theorem restored_run (nvs : Nvs) (ops : List (Op nodes)) (o : Owner nodes) (q : Param)
    (env : ReadEnv) :
    restored takes env o.device.id q (run takes nvs ops) =
      restored takes env o.device.id q
        (run takes nvs (ops.filter fun op => op.nameSpace = o.device.id)) :=
  restored_congr (NamedStore.foldl_filter worksAt_apply ops)

theorem Apart.isolated (h : Apart takes nodes) : Isolated takes nodes where
  others nvs op later o ho q hq env := by
    by_cases hid : o.device.id = op.owner.device.id
    · -- the ids clash, so the parameter is not persisted or the storage takes no entry of it
      cases ht : takes o.device.id with
      | false => rw [restored_of_not_takes ht, restored_of_not_takes ht]
      | true =>
        cases hp : q.persist with
        | false => simp only [restored, hp, Bool.false_eq_true, if_false]
        | true =>
          have hk : takes q.id = false := h.devices o op.owner ho hid ht q hq hp
          rw [restored_of_not_takes_key hk, restored_of_not_takes_key hk]
    · have hsame : apply takes nvs op o.device.id = nvs o.device.id :=
        (worksAt_apply op).frame nvs _ hid
      exact restored_congr (NamedStore.foldl_congr worksAt_apply later hsame)
  sdk nvs op n hn key := by
    cases ht : takes op.nameSpace with
    | false => rw [apply_of_not_takes ht]
    | true =>
      have hne : n ≠ op.nameSpace := by
        intro hn'
        subst hn'
        exact h.sdk op.owner ht hn
      exact NamedStore.get_congr ((worksAt_apply op).frame nvs n hne)

/-- A blob that is read back by a parameter with the value `val`. -/
def readable : ParamVal → Blob
  | .text _ _ => .text []
  | val => .raw val

/-- An NVS with one entry. -/
def single (device param : String) (blob : Blob) : Nvs :=
  NamedStore.set (fun _ => none) device param blob

theorem isSome_restored_single {device : String} {q : Param} (hd : takes device = true)
    (hk : takes q.id = true) (hp : q.persist = true) :
    (restored takes {} device q (single device q.id (readable q.val))).isSome = true := by
  have hget : (single device q.id (readable q.val)).get device q.id = some (readable q.val) :=
    NamedStore.get_set_self
  have htable : (single device q.id (readable q.val) device).isNone = false := by
    rw [single, NamedStore.set, Function.update_self]
    rfl
  rw [restored, if_pos hp, getStoredValue, hget, htable, hd, hk]
  cases q.val <;> rfl

theorem restored_clear {device : String} {q : Param} {nvs : Nvs} {env : ReadEnv}
    (hd : takes device = true) :
    restored takes env device q (clearStoredValues takes .done device nvs).2 = none := by
  have hget : ((nvs.create device).eraseAll device).get device q.id = none :=
    NamedStore.get_eraseAll_self
  have hclear : (clearStoredValues takes .done device nvs).2 =
      (nvs.create device).eraseAll device := by
    rw [clearStoredValues, if_pos hd]
  rw [hclear, restored, getStoredValue, hget]
  split
  · split
    · split <;> rfl
    · rfl
  · rfl

theorem Isolated.apart (h : Isolated takes nodes) : Apart takes nodes where
  devices o o' ho hid ht q hq hp := by
    -- otherwise a value that is stored for `o` is gone when `o'` is cleared
    cases hk : takes q.id with
    | false => rfl
    | true =>
      have hkept := h.others (single o.device.id q.id (readable q.val)) (.clear o' .done) [] o ho
        q hq {}
      have hgone : restored takes {} o.device.id q
          (clearStoredValues takes .done o.device.id
            (single o.device.id q.id (readable q.val))).2 = none := restored_clear ht
      have hsome := isSome_restored_single ht hk hp
      rw [show run takes (single o.device.id q.id (readable q.val)) ([] : List (Op nodes)) =
        single o.device.id q.id (readable q.val) from rfl] at hkept
      rw [← hkept, hid] at hsome
      rw [hid] at hgone
      change (restored takes {} o'.device.id q (clearStoredValues takes .done o'.device.id
        (single o'.device.id q.id (readable q.val))).2).isSome = true at hsome
      rw [hgone] at hsome
      cases hsome
  sdk o ht hmem := by
    have hkept := h.sdk (single o.device.id "" (.text [])) (.clear o .done) o.device.id hmem ""
    have hbefore : (single o.device.id "" (.text [])).get o.device.id "" = some (.text []) :=
      NamedStore.get_set_self
    have hafter : (apply takes (single o.device.id "" (.text [])) (.clear o .done)).get
        o.device.id "" = none := by
      rw [apply, clearStoredValues, if_pos ht]
      exact NamedStore.get_eraseAll_self
    rw [hbefore, hafter] at hkept
    cases hkept

/-- The values of the devices are isolated exactly when no ids clash. -/
theorem isolated_iff (nodes : ν → DmNode) : Isolated takes nodes ↔ Apart takes nodes :=
  ⟨Isolated.apart, Apart.isolated⟩

/-- A switch with one persisted parameter. -/
def switch : Device where
  id := "Switch"
  accepted := by decide
  params := [⟨"Power", by decide, .boolean true, true⟩]
  distinct := by decide

/-- A bridge and a child, each with a switch. -/
def bridgeAndChild (_child : Bool) : DmNode where
  devices := [switch]
  distinct := by decide

/-- The two switches have one entry. A value of the bridge is restored for the child. -/
theorem not_isolated : ¬Isolated (fun name => name ≠ "") bridgeAndChild := by
  intro h
  let bridge : Owner bridgeAndChild := ⟨false, switch, List.mem_singleton_self _⟩
  let child : Owner bridgeAndChild := ⟨true, switch, List.mem_singleton_self _⟩
  have hne : child ≠ bridge := fun heq => nomatch congrArg Owner.node heq
  have hpower := h.others (single "Switch" "Power" (.raw (.boolean true)))
    (.store bridge ⟨"Power", by decide, .boolean true, true⟩ (List.mem_singleton_self _)
      (.boolean false) {}) [] child hne _ (List.mem_singleton_self _) {}
  exact absurd hpower (by decide +kernel)

end Isolation

end RainMakerNeo.Node.StoredParams
