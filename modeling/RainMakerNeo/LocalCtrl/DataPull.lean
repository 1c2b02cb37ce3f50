import Mathlib.Algebra.Group.Nat.Defs
import RainMakerNeo.Lib.Heap
import RainMakerNeo.Lib.Memory
import Mathlib.Data.List.Induction

/-!
# `RainMakerNeo.LocalCtrl.DataPull`: fragments of the params and of the config

`get_params` and `get_config` share one handler and one snapshot. A request with offset 0 replaces
the snapshot, each request is answered with the fragment at its offset, and the last fragment
releases the snapshot. Nothing ties a snapshot to a client.

The transports run one handler at a time, so a run is a list of handled requests, with stops of the
service in between. `latest` is the snapshot of the last request with offset 0 that was let in. The
invariant `Holds` says that the cache is that snapshot or nothing.
-/

set_option autoImplicit false

namespace RainMakerNeo.LocalCtrl.DataPull

open RainMakerNeo.Lib

/-! ### Requests and replies -/

/-- `__local_ctrl_ep_data_type_t`, which also says which of the two endpoints is called. -/
inductive DataType
  | params
  | config
  deriving DecidableEq, Repr

/-- `TypeParams` and `TypeConfig` of the protobuf schema. -/
def DataType.expectedType : DataType → Int
  | .params => 0
  | .config => 1

/-- What `data_model_node_get_node_params` and `esp_rmaker_get_node_config` return. The JSON
generator counts the length in an `int`. -/
structure Text where
  bytes : List UInt8
  nulFree : 0 ∉ bytes
  short : bytes.length < 2 ^ 31
  deriving DecidableEq

/-- The unpacked `RMakerLocalCtrlPayload`. -/
inductive Body
  /-- There is no input. -/
  | empty
  | unpackFails
  | cmdGetData (datatype : Int) (offset : UInt32)
  /-- Another payload. -/
  | other
  deriving DecidableEq

/-- A call of a handler, with what the allocations and the generator do in it. -/
structure Request where
  endpoint : DataType
  body : Body
  structAllocates : Bool := true
  /-- The text of the generator, `none` if it fails. -/
  generated : Option Text := none
  respAllocates : Bool := true
  deriving DecidableEq

/-- `RMakerLocalCtrlStatus`, the values that the handler uses. -/
inductive Status
  | success
  | fail
  | invalidParam
  | noMemory
  deriving DecidableEq, Repr

/-- `PayloadBuf` as the client gets it. -/
structure PayloadBuf where
  offset : UInt32 := 0
  totalLen : UInt32 := 0
  payload : List UInt8 := []
  deriving DecidableEq

/-- The error codes that a handler returns without a response. -/
inductive Error
  | invalidArg
  | noMem
  deriving DecidableEq, Repr

/-- What a handler does for the client. -/
inductive Reply
  | error (e : Error)
  | resp (status : Status) (buf : PayloadBuf)
  deriving DecidableEq

/-! ### The handler -/

/-- `LOCAL_CTRL_DATA_FRAGMENT_SIZE`. -/
def fragmentSize : Nat := 200

/-- `__local_ctrl_ep_data_t`. -/
structure EpData where
  data : Option Nat := none
  dataLen : Nat := 0
  dataType : DataType
  deriving DecidableEq

/-- `__ep_data`, and the heap of the texts. -/
structure State where
  epData : Option EpData := none
  heap : Heap (List UInt8) := .empty
  deriving DecidableEq

/-- `esp_rmaker_local_ctrl_endpoints_free_data`. -/
def freeData (s : State) : Option State :=
  match s.epData with
  | none => some s
  | some d =>
    match d.data with
    | none => some { s with epData := none }
    | some p => (s.heap.free p).map fun heap => { epData := none, heap }

/-- `__ep_data_init`. The flag says whether it returns `ESP_RMAKER_OK`. -/
def epDataInit (s : State) (r : Request) : Option (State × Bool) := do
  -- the old cache goes first, also if no new one can be made
  let s ← freeData s
  if !r.structAllocates then
    return (s, false)
  match r.generated with
  | none =>
    let s ← freeData { s with epData := some { dataType := r.endpoint } }
    return (s, false)
  | some text =>
    let block := text.bytes ++ [0]
    let dataLen ← strlen block 0
    let (heap, p) := s.heap.alloc block
    return ({ epData := some { data := some p, dataLen, dataType := r.endpoint }, heap }, true)

/-- The response before it is packed. The payload is a pointer, with a length. -/
structure Pending where
  status : Status
  offset : UInt32 := 0
  totalLen : UInt32 := 0
  payload : Option (Nat × Nat × Nat) := none

/-- `rmaker_local_ctrl__rmaker_local_ctrl_payload__pack` reads the payload. -/
def pack (h : Heap (List UInt8)) (resp : Pending) : Option Reply :=
  match resp.payload with
  | none => some (.resp resp.status { offset := resp.offset, totalLen := resp.totalLen })
  | some (p, i, n) => do
    let block ← h.load p
    let payload ← copyFrom block i n
    return .resp resp.status { offset := resp.offset, totalLen := resp.totalLen, payload }

/-- `__get_data_handler` from `send_response` on. -/
def sendResponse (s : State) (r : Request) (resp : Pending) (isLastFragment : Bool) :
    Option (State × Reply) :=
  if !r.respAllocates then some (s, .error .noMem)
  else do
    -- the payload is packed before the cache is released
    let reply ← pack s.heap resp
    let s ← (if isLastFragment then freeData s else some s)
    return (s, reply)

/-- `__get_data_handler` after the cache was found. -/
def slice (s : State) (r : Request) (requestedOffset : UInt32) (p dataLen : Nat) :
    Option (State × Reply) :=
  if dataLen < requestedOffset.toNat then sendResponse s r { status := .invalidParam } false
  else
    let remaining := dataLen - requestedOffset.toNat
    let n := if fragmentSize < remaining then fragmentSize else remaining
    sendResponse s r
      { status := .success
        offset := requestedOffset
        totalLen := UInt32.ofNat dataLen
        payload := some (p, requestedOffset.toNat, n) }
      (decide (dataLen ≤ requestedOffset.toNat + n))

/-- `__get_data_handler` after `__ep_data_init`. -/
def fromCache (s : State) (r : Request) (requestedOffset : UInt32) : Option (State × Reply) :=
  match s.epData with
  | some { data := some p, dataLen, dataType } =>
    -- the cache of the other endpoint is left alone
    if dataType = r.endpoint then slice s r requestedOffset p dataLen
    else sendResponse s r { status := .fail } false
  | _ => sendResponse s r { status := .fail } false

/-- `__get_data_handler` after the data type was checked. -/
def serve (s : State) (r : Request) (requestedOffset : UInt32) : Option (State × Reply) :=
  if requestedOffset = 0 then do
    let (s, ok) ← epDataInit s r
    if ok then fromCache s r requestedOffset
    else sendResponse s r { status := .noMemory } false
  else fromCache s r requestedOffset

/-- `__get_data_handler`. -/
def getDataHandler (s : State) (r : Request) : Option (State × Reply) :=
  match r.body with
  | .unpackFails => some (s, .error .invalidArg)
  | .cmdGetData datatype offset =>
    if datatype ≠ r.endpoint.expectedType then
      sendResponse s r { status := .invalidParam } false
    else serve s r offset
  | .empty | .other => serve s r 0

/-! ### Runs -/

/-- What happens at the endpoints. -/
inductive Action
  | request (r : Request)
  /-- `__local_ctrl_service_disable` drops the cache. -/
  | disable

/-- A request and its answer. -/
structure Entry where
  request : Request
  reply : Reply
  deriving DecidableEq

/-- The state after the actions, and the answered requests. It is `none` if a read or a release in
between touches memory that the snapshot does not own. -/
def run (s : State) : List Action → Option (State × List Entry)
  | [] => some (s, [])
  | .disable :: as => do
    let s ← freeData s
    run s as
  | .request r :: as => do
    let (s, reply) ← getDataHandler s r
    let (s, log) ← run s as
    return (s, ⟨r, reply⟩ :: log)

/-! ### Snapshots -/

/-- The offset with which the request comes to the cache, `none` if it is rejected before. -/
def Request.offset? (r : Request) : Option UInt32 :=
  match r.body with
  | .unpackFails => none
  | .cmdGetData datatype offset =>
    if datatype = r.endpoint.expectedType then some offset else none
  | .empty | .other => some 0

/-- The request is let in and has offset 0. -/
def Request.Opens (r : Request) : Prop := r.offset? = some 0

instance (r : Request) : Decidable r.Opens := inferInstanceAs (Decidable (_ = _))

/-- The snapshot that a request with offset 0 takes. -/
def Request.snapshot (r : Request) : Option (DataType × Text) :=
  if r.structAllocates then r.generated.map (r.endpoint, ·) else none

/-- The snapshot of the latest request with offset 0 that was let in. -/
def latest (c : Option (DataType × Text)) (r : Request) : Option (DataType × Text) :=
  if r.Opens then r.snapshot else c

/-- The bytes `[offset, min(offset + fragment size, total))` of a text. -/
def Text.fragment (t : Text) (offset : UInt32) : List UInt8 :=
  t.bytes.extract offset.toNat (min (offset.toNat + fragmentSize) t.bytes.length)

/-- The cache is the snapshot `c`, or it is empty. -/
def Holds (s : State) (c : Option (DataType × Text)) : Prop :=
  s.epData = none ∨ ∃ ty t p, c = some (ty, t) ∧
    s.epData = some { data := some p, dataLen := t.bytes.length, dataType := ty } ∧
    s.heap.load p = some (t.bytes ++ [0])

/-- The answer to a request, where `c` is the latest snapshot: a `Success` comes from that snapshot,
and nothing else has data. -/
def Answers (c : Option (DataType × Text)) (r : Request) : Reply → Prop
  | .error _ => True
  | .resp .success buf => ∃ t offset, c = some (r.endpoint, t) ∧ r.offset? = some offset ∧
      offset.toNat ≤ t.bytes.length ∧
      buf = ⟨offset, UInt32.ofNat t.bytes.length, t.fragment offset⟩
  | .resp _ buf => buf = {}

variable {s : State} {c : Option (DataType × Text)} {r : Request}

/-! ### One request -/

theorem Holds.empty (hs : s.epData = none) : Holds s c := .inl hs

theorem freeData_eq (h : Holds s c) : ∃ s', freeData s = some s' ∧ s'.epData = none := by
  rcases h with hnone | ⟨ty, t, p, -, hd, hload⟩
  · exact ⟨s, by simp [freeData, hnone], hnone⟩
  · obtain ⟨heap, hfree⟩ := Heap.exists_free (Heap.live_of_load hload)
    exact ⟨⟨none, heap⟩, by simp [freeData, hd, hfree], rfl⟩

/-- A request with offset 0 leaves its own snapshot, or it fails and leaves none. -/
theorem epDataInit_eq (h : Holds s c) :
    ∃ s' ok, epDataInit s r = some (s', ok) ∧ Holds s' r.snapshot := by
  obtain ⟨s', hfree, hnone⟩ := freeData_eq h
  by_cases hst : r.structAllocates = true
  · cases hg : r.generated with
    | none =>
      have hagain : freeData { s' with epData := some { dataType := r.endpoint } }
          = some { s' with epData := none } := rfl
      refine ⟨{ s' with epData := none }, false, ?_, .empty rfl⟩
      simp [epDataInit, hfree, hst, hg, hagain]
    | some t =>
      -- the new block is behind all others, and `strlen` finds the end of the text in it
      have hlen : strlen (t.bytes ++ [0]) 0 = some t.bytes.length := by
        have hat : strlen (([] : List UInt8) ++ (t.bytes ++ 0 :: [])) 0 = some t.bytes.length :=
          strlen_at t.nulFree rfl
        simpa using hat
      have hsnap : r.snapshot = some (r.endpoint, t) := by simp [Request.snapshot, hst, hg]
      obtain ⟨⟨heap, p⟩, halloc⟩ : ∃ a, s'.heap.alloc (t.bytes ++ [0]) = a := ⟨_, rfl⟩
      have hload := Heap.load_alloc_self (h := s'.heap) (b := t.bytes ++ [0])
      rw [halloc] at hload
      refine ⟨⟨some ⟨some p, t.bytes.length, r.endpoint⟩, heap⟩, true, ?_,
        .inr ⟨_, t, p, hsnap, rfl, hload⟩⟩
      simp [epDataInit, hfree, hst, hg, hlen, halloc]
  · exact ⟨s', false, by simp [epDataInit, hfree, hst], .empty hnone⟩

/-- A response without data leaves the cache as it is. -/
theorem sendResponse_status {status : Status} (hne : status ≠ .success) (h : Holds s c) :
    ∃ s' reply, sendResponse s r { status } false = some (s', reply) ∧ Holds s' c ∧
      Answers c r reply := by
  by_cases hm : r.respAllocates = true
  · refine ⟨s, .resp status {}, by simp [sendResponse, hm, pack], h, ?_⟩
    cases status with
    | success => exact absurd rfl hne
    | fail => rfl
    | invalidParam => rfl
    | noMemory => rfl
  · exact ⟨s, .error .noMem, by simp [sendResponse, hm], h, trivial⟩

variable {offset : UInt32} {t : Text} {ty : DataType}

/-- `memcpy` of a fragment stays in the text. -/
theorem copyFrom_fragment (t : Text) {n : Nat} (hle : offset.toNat ≤ t.bytes.length)
    (hn : n = min fragmentSize (t.bytes.length - offset.toNat)) :
    copyFrom (t.bytes ++ [0]) offset.toNat n = some (t.fragment offset) := by
  have hin : offset.toNat + n ≤ (t.bytes ++ [0]).length := by
    simp
    omega
  have hstop : min (offset.toNat + fragmentSize) t.bytes.length - offset.toNat = n := by omega
  have hdrop : n ≤ (t.bytes.drop offset.toNat).length := by
    rw [List.length_drop]
    omega
  rw [copyFrom, if_pos hin, Text.fragment, List.extract, hstop, List.drop_append_of_le_length hle,
    List.take_append_of_le_length hdrop]

theorem slice_spec {p : Nat} (h : Holds s c) (hc : c = some (r.endpoint, t))
    (hload : s.heap.load p = some (t.bytes ++ [0])) (hoff : r.offset? = some offset) :
    ∃ s' reply, slice s r offset p t.bytes.length = some (s', reply) ∧ Holds s' c ∧
      Answers c r reply := by
  by_cases hlt : t.bytes.length < offset.toNat
  · rw [slice, if_pos hlt]
    exact sendResponse_status (by decide) h
  · have hle : offset.toNat ≤ t.bytes.length := Nat.le_of_not_lt hlt
    obtain ⟨n, hn⟩ : ∃ n, n = if fragmentSize < t.bytes.length - offset.toNat
      then fragmentSize else t.bytes.length - offset.toNat := ⟨_, rfl⟩
    have hmin : n = min fragmentSize (t.bytes.length - offset.toNat) := by
      split at hn <;> omega
    simp only [slice, if_neg hlt, ← hn]
    by_cases hm : r.respAllocates = true
    · -- the payload is read before the last fragment releases the block
      have hcopy := copyFrom_fragment t hle hmin
      obtain ⟨s', hfree, hnone⟩ := freeData_eq h
      have hans : Answers c r (.resp .success
          ⟨offset, UInt32.ofNat t.bytes.length, t.fragment offset⟩) :=
        ⟨t, offset, hc, hoff, hle, rfl⟩
      simp only [sendResponse, hm, pack, hload, hcopy, Option.bind_eq_bind, Option.bind_some,
        Bool.not_true, Bool.false_eq_true, if_false, pure, hfree]
      split
      · exact ⟨s', _, by simp, .empty hnone, hans⟩
      · exact ⟨s, _, by simp, h, hans⟩
    · exact ⟨s, .error .noMem, by simp [sendResponse, hm], h, trivial⟩

theorem fromCache_spec (h : Holds s c) (hoff : r.offset? = some offset) :
    ∃ s' reply, fromCache s r offset = some (s', reply) ∧ Holds s' c ∧ Answers c r reply := by
  have hcases := h
  rcases hcases with hnone | ⟨ty, t, p, hc, hd, hload⟩
  · rw [fromCache, hnone]
    exact sendResponse_status (by decide) h
  · simp only [fromCache, hd]
    by_cases hty : ty = r.endpoint
    · rw [if_pos hty]
      exact slice_spec h (hty ▸ hc) hload hoff
    · rw [if_neg hty]
      exact sendResponse_status (by decide) h

theorem serve_spec (h : Holds s c) (hoff : r.offset? = some offset) :
    ∃ s' reply, serve s r offset = some (s', reply) ∧ Holds s' (latest c r) ∧
      Answers (latest c r) r reply := by
  by_cases hz : offset = 0
  · have hopens : r.Opens := by rw [Request.Opens, hoff, hz]
    obtain ⟨s', ok, hinit, hs'⟩ := epDataInit_eq (r := r) h
    simp only [serve, hz, if_true, hinit, Option.bind_eq_bind, Option.bind_some, latest, hopens]
    cases ok with
    | true => exact fromCache_spec hs' hopens
    | false => exact sendResponse_status (by decide) hs'
  · have hnot : ¬ r.Opens := by
      rw [Request.Opens, hoff]
      simpa using hz
    rw [serve, if_neg hz, latest, if_neg hnot]
    exact fromCache_spec h hoff

/-- A handled request keeps the cache at the latest snapshot, and is answered from it. -/
theorem getDataHandler_spec (h : Holds s c) :
    ∃ s' reply, getDataHandler s r = some (s', reply) ∧ Holds s' (latest c r) ∧
      Answers (latest c r) r reply := by
  -- a rejected request opens no snapshot
  have hrejected (hoff : r.offset? = none) : latest c r = c := by
    simp [latest, Request.Opens, hoff]
  cases hb : r.body with
  | unpackFails =>
    have hoff : r.offset? = none := by simp [Request.offset?, hb]
    exact ⟨s, .error .invalidArg, by simp [getDataHandler, hb], (hrejected hoff).symm ▸ h, trivial⟩
  | cmdGetData datatype offset =>
    by_cases hty : datatype = r.endpoint.expectedType
    · simp only [getDataHandler, hb, ne_eq, hty, not_true_eq_false, if_false]
      exact serve_spec h (by simp [Request.offset?, hb, hty])
    · have hoff : r.offset? = none := by simp [Request.offset?, hb, hty]
      simp only [getDataHandler, hb, ne_eq, hty, not_false_eq_true, if_true, hrejected hoff]
      exact sendResponse_status (by decide) h
  | empty =>
    simp only [getDataHandler, hb]
    exact serve_spec h (by simp [Request.offset?, hb])
  | other =>
    simp only [getDataHandler, hb]
    exact serve_spec h (by simp [Request.offset?, hb])

/-! ### All requests -/

/-- Each entry is answered from the latest snapshot, where `c` is the latest one before. -/
def Answered (c : Option (DataType × Text)) : List Entry → Prop
  | [] => True
  | e :: log => Answers (latest c e.request) e.request e.reply ∧
      Answered (latest c e.request) log

theorem run_spec (as : List Action) (h : Holds s c) :
    ∃ s' log, run s as = some (s', log) ∧ Answered c log := by
  -- the invariant goes from the state before an action to the one behind it
  induction as generalizing s c with
  | nil => exact ⟨s, [], rfl, trivial⟩
  | cons a as ih =>
    cases a with
    | disable =>
      obtain ⟨s', hfree, hnone⟩ := freeData_eq h
      obtain ⟨s'', log, hrun, hlog⟩ := ih (.empty (c := c) hnone)
      exact ⟨s'', log, by simp [run, hfree, hrun], hlog⟩
    | request r =>
      obtain ⟨s', reply, hreq, hs', hans⟩ := getDataHandler_spec (r := r) h
      obtain ⟨s'', log, hrun, hlog⟩ := ih hs'
      exact ⟨s'', ⟨r, reply⟩ :: log, by simp [run, hreq, hrun], hans, hlog⟩

theorem Answered.at_split {pre post : List Entry} {e : Entry}
    (h : Answered c (pre ++ e :: post)) :
    Answers (latest (pre.foldl (fun c e => latest c e.request) c) e.request) e.request e.reply := by
  induction pre generalizing c with
  | nil => exact h.1
  | cons d pre ih => exact ih h.2

theorem Answered.take {pre post : List Entry} (h : Answered c (pre ++ post)) :
    Answered c pre := by
  induction pre generalizing c with
  | nil => trivial
  | cons d pre ih => exact ⟨h.1, ih h.2⟩

theorem Answered.drop {pre post : List Entry} (h : Answered c (pre ++ post)) :
    Answered (pre.foldl (fun c e => latest c e.request) c) post := by
  induction pre generalizing c with
  | nil => exact h
  | cons d pre ih => exact ih h.2

theorem snapshot_eq_some (h : r.snapshot = some (ty, t)) :
    r.endpoint = ty ∧ r.generated = some t := by
  by_cases hst : r.structAllocates = true
  · obtain ⟨t', hg, heq⟩ : ∃ t', r.generated = some t' ∧ (r.endpoint, t') = (ty, t) := by
      simpa [Request.snapshot, hst] using h
    obtain ⟨rfl, rfl⟩ := Prod.mk.inj heq
    exact ⟨rfl, hg⟩
  · simp [Request.snapshot, hst] at h

/-- The latest snapshot is that of an entry, behind which no other one opens a snapshot. -/
theorem exists_opening {log : List Entry}
    (h : log.foldl (fun c e => latest c e.request) none = some (ty, t)) :
    ∃ pre b mid, log = pre ++ b :: mid ∧ b.request.Opens ∧
      (∀ e ∈ mid, ¬ e.request.Opens) ∧ b.request.snapshot = some (ty, t) := by
  -- from the end of the log, to the last entry that opens a snapshot
  induction log using List.reverseRecOn with
  | nil => simp at h
  | append_singleton log e ih =>
    rw [List.foldl_append, List.foldl_cons, List.foldl_nil, latest] at h
    split at h
    · next hopens => exact ⟨log, e, [], by simp, hopens, by simp, h⟩
    · next hnot =>
      obtain ⟨pre, b, mid, rfl, hb, hmid, hsnap⟩ := ih h
      refine ⟨pre, b, mid ++ [e], by simp, hb, ?_, hsnap⟩
      intro d hd
      rcases List.mem_append.mp hd with hd | hd
      · exact hmid d hd
      · exact List.mem_singleton.mp hd ▸ hnot

/-! ### Pulls -/

/-- The entries of one pull from an offset on, and the fragments that it receives one behind the
other. Each request has the offset that the lengths received so far give, and the last one reaches
the declared total. -/
inductive Pull : Nat → List Entry → List UInt8 → Prop
  | last {e : Entry} {offset : UInt32} {buf : PayloadBuf} (hoff : e.request.offset? = some offset)
      (hreply : e.reply = .resp .success buf)
      (htotal : offset.toNat + buf.payload.length = buf.totalLen.toNat) :
      Pull offset.toNat [e] buf.payload
  | more {e : Entry} {offset : UInt32} {buf : PayloadBuf} {es : List Entry} {bytes : List UInt8}
      (hoff : e.request.offset? = some offset) (hreply : e.reply = .resp .success buf)
      (hrest : Pull (offset.toNat + buf.payload.length) es bytes) :
      Pull offset.toNat (e :: es) (buf.payload ++ bytes)

theorem Text.length_fragment (t : Text) (hle : offset.toNat ≤ t.bytes.length) :
    (t.fragment offset).length = min fragmentSize (t.bytes.length - offset.toNat) := by
  rw [Text.fragment, List.extract, List.length_take, List.length_drop]
  omega

/-- A fragment and what the text has behind it. -/
theorem Text.fragment_append (t : Text) (hle : offset.toNat ≤ t.bytes.length) :
    t.fragment offset ++ t.bytes.drop (offset.toNat + (t.fragment offset).length)
      = t.bytes.drop offset.toNat := by
  have hstop : min (offset.toNat + fragmentSize) t.bytes.length - offset.toNat
      = (t.fragment offset).length := by
    rw [t.length_fragment hle]
    omega
  have htake : t.fragment offset = (t.bytes.drop offset.toNat).take (t.fragment offset).length := by
    conv_lhs => rw [Text.fragment, List.extract, hstop]
  rw [← List.drop_drop]
  nth_rewrite 1 [htake]
  exact List.take_append_drop _ _

theorem Text.toNat_length (t : Text) :
    (UInt32.ofNat t.bytes.length).toNat = t.bytes.length := by
  have hshort := t.short
  exact UInt32.toNat_ofNat_of_lt' (by rw [UInt32.size]; omega)

theorem Pull.head {n : Nat} {e : Entry} {es : List Entry} {bytes : List UInt8}
    (h : Pull n (e :: es) bytes) : ∃ offset buf, e.request.offset? = some offset ∧
      offset.toNat = n ∧ e.reply = .resp .success buf := by
  cases h with
  | last hoff hreply _ => exact ⟨_, _, hoff, rfl, hreply⟩
  | more hoff hreply _ => exact ⟨_, _, hoff, rfl, hreply⟩

/-- What a `Success` from a snapshot has in it. -/
theorem Answers.success {buf : PayloadBuf} (h : Answers (some (ty, t)) r (.resp .success buf))
    (hoff : r.offset? = some offset) :
    offset.toNat ≤ t.bytes.length ∧ buf.totalLen.toNat = t.bytes.length ∧
      buf.payload = t.fragment offset := by
  obtain ⟨t', o, hc, ho, hle, rfl⟩ := h
  obtain ⟨-, rfl⟩ : ty = r.endpoint ∧ t = t' := by simpa using hc
  obtain rfl : offset = o := by simpa [hoff] using ho
  exact ⟨hle, t.toNat_length, rfl⟩

/-- A pull whose requests are all answered from one snapshot gets the rest of that snapshot. -/
theorem Pull.bytes_eq {n : Nat} {es : List Entry} {bytes : List UInt8} (h : Pull n es bytes)
    (hans : ∀ e ∈ es, Answers (some (ty, t)) e.request e.reply) : bytes = t.bytes.drop n := by
  induction h with
  | @last e offset buf hoff hreply htotal =>
    have he := hans e List.mem_cons_self
    rw [hreply] at he
    obtain ⟨hle, htotalLen, hpayload⟩ := he.success hoff
    -- the last fragment reaches the end of the text, so nothing is behind it
    have hend := t.fragment_append hle
    rw [htotalLen, hpayload] at htotal
    rw [htotal, List.drop_length, List.append_nil] at hend
    rw [hpayload, hend]
  | @more e offset buf es bytes hoff hreply _ ih =>
    have he := hans e List.mem_cons_self
    rw [hreply] at he
    obtain ⟨hle, -, hpayload⟩ := he.success hoff
    rw [ih fun d hd => hans d (List.mem_cons_of_mem _ hd), hpayload]
    exact t.fragment_append hle

/-- Behind the entry that opened the snapshot, what opens none is answered from it. -/
theorem Answered.forall_mem {log : List Entry} (h : Answered c log)
    (hnot : ∀ e ∈ log, ¬ e.request.Opens) : ∀ e ∈ log, Answers c e.request e.reply := by
  induction log with
  | nil => simp
  | cons d log ih =>
    have hd : latest c d.request = c := if_neg (hnot d List.mem_cons_self)
    obtain ⟨hans, hlog⟩ := h
    rw [hd] at hans hlog
    intro e he
    rcases List.mem_cons.mp he with rfl | he
    · exact hans
    · exact ih hlog (fun e he => hnot e (List.mem_cons_of_mem _ he)) e he

/-- No run touches memory that the snapshot does not own. Each `Success` is the fragment at its
offset of the text that the latest admitted request with offset 0 took, which was a request of the
same type, and no other answer has data. A pull from offset 0 to the declared total, with no
other admitted request with offset 0 up to its end, gets the text that its first request took. -/
theorem pull_spec (as : List Action) :
    ∃ s log, run {} as = some (s, log) ∧
      (∀ pre e post, log = pre ++ e :: post →
        (∀ status buf, status ≠ .success → e.reply = .resp status buf → buf.payload = []) ∧
        ∀ buf, e.reply = .resp .success buf → ∃ pre' b mid offset text,
          pre ++ [e] = pre' ++ b :: mid ∧ b.request.Opens ∧
          (∀ d ∈ mid, ¬ d.request.Opens) ∧
          b.request.endpoint = e.request.endpoint ∧ b.request.generated = some text ∧
          e.request.offset? = some offset ∧ offset.toNat ≤ text.bytes.length ∧
          buf.offset = offset ∧ buf.totalLen.toNat = text.bytes.length ∧
          buf.payload = text.bytes.extract offset.toNat
            (min (offset.toNat + fragmentSize) text.bytes.length)) ∧
      ∀ pre e mid post es bytes, log = pre ++ e :: (mid ++ post) → es.Sublist mid →
        (∀ d ∈ mid, ¬ d.request.Opens) → Pull 0 (e :: es) bytes →
        ∃ text, e.request.generated = some text ∧ bytes = text.bytes := by
  obtain ⟨s, log, hrun, hlog⟩ := run_spec as (Holds.empty (s := {}) (c := none) rfl)
  refine ⟨s, log, hrun, ?_, ?_⟩
  · rintro pre e post rfl
    have hans := hlog.at_split
    refine ⟨?_, ?_⟩
    · intro status buf hne hreply
      rw [hreply] at hans
      cases status with
      | success => exact absurd rfl hne
      | fail => simp [show buf = {} from hans]
      | invalidParam => simp [show buf = {} from hans]
      | noMemory => simp [show buf = {} from hans]
    · intro buf hreply
      rw [hreply] at hans
      obtain ⟨t, offset, hc, hoff, hle, rfl⟩ := hans
      have hfold : (pre ++ [e]).foldl (fun c e => latest c e.request) none
          = some (e.request.endpoint, t) := by simpa using hc
      obtain ⟨pre', b, mid, hsplit, hopens, hmid, hsnap⟩ := exists_opening hfold
      obtain ⟨hty, hgen⟩ := snapshot_eq_some hsnap
      exact ⟨pre', b, mid, offset, t, hsplit, hopens, hmid, hty, hgen, hoff, hle, rfl,
        t.toNat_length, rfl⟩
  · rintro pre e mid post es bytes rfl hsub hmid hpull
    have hrest := hlog.drop.2
    have hfirst := hlog.at_split
    obtain ⟨offset, buf, hoff, hzero, hreply⟩ := hpull.head
    obtain rfl : offset = 0 := UInt32.toNat_inj.mp hzero
    have hopens : e.request.Opens := hoff
    rw [hreply, latest, if_pos hopens] at hfirst
    rw [latest, if_pos hopens] at hrest
    obtain ⟨t, -, hsnap, -⟩ := hfirst
    -- nothing up to the end of the pull takes another snapshot
    rw [hsnap] at hrest
    have hmidans := hrest.take.forall_mem hmid
    have hall : ∀ d ∈ e :: es, Answers (some (e.request.endpoint, t)) d.request d.reply := by
      intro d hd
      rcases List.mem_cons.mp hd with rfl | hd
      · have hans := hlog.at_split
        rwa [latest, if_pos hopens, hsnap] at hans
      · exact hmidans d (hsub.subset hd)
    exact ⟨t, (snapshot_eq_some hsnap).2, hpull.bytes_eq hall⟩

/-- A text of `n` bytes. -/
def Text.ofLength (n : Nat) (hn : n < 2 ^ 31) : Text where
  bytes := List.replicate n 97
  nulFree := by simp [List.mem_replicate]
  short := by simpa using hn

/-- A pull of the config between two requests for the params. The first one is rejected, since the
cache has the config, and so is the rest of the config, since the cache was released. -/
example :
    let cmd (endpoint : DataType) (offset : UInt32) : Request :=
      { endpoint
        body := .cmdGetData endpoint.expectedType offset
        generated := some (Text.ofLength 201 (by decide)) }
    (run {} [.request (cmd .config 0), .request (cmd .params 200), .request (cmd .config 200),
      .request (cmd .config 200)]).map (fun out => out.2.map Entry.reply)
    = some [.resp .success ⟨0, 201, List.replicate 200 97⟩, .resp .fail {},
        .resp .success ⟨200, 201, [97]⟩, .resp .fail {}] := by
  decide +kernel

end RainMakerNeo.LocalCtrl.DataPull
