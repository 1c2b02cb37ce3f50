import RainMakerNeo.Lib.Heap
import RainMakerNeo.Ota.StatusManager

/-!
# `RainMakerNeo.Ota.StatusList`: the entries of the status cache in memory

`ota_status.c` keeps its entries in a linked list with a pointer to the last entry, and counts the
entries that cache a terminal update. `StatusManager` has the entries as a value. Here they are
blocks of a heap, the list is the links between them, and each function follows and writes the
links as the code does.

A function has no result (`none`) where the code follows `NULL` or the address of a freed entry, and
where a loop over the links does not end. `step` is one call of the status manager. Its allocations,
its scheduler and its publish answer as the operation says, so the calls that fail are runs like the
others. A second `init` forgets the old cache without freeing it, and the retry timers of the
forgotten entries go on.

`WellFormed` is what the list should look like. `Fresh` is the condition on the numbers of the
entries: a call that makes an entry does not give it the number of an entry that is in the list.
-/

set_option autoImplicit false

namespace RainMakerNeo.Ota.Status

open RainMakerNeo.Lib

/-! ### Data -/

/-- `ota_status_job_entries_t` in memory. `retryHandle` is `none` for a `NULL` handle, and the
handle of a timer has the delay that the timer runs with, `none` when it has fired. -/
structure EntryNode where
  jobId : CStr
  jobIdInt : UInt32
  version : Int32 := 1
  hasCachedTerminal : Bool := false
  cachedStatus : JobStatus := .queued
  cachedDetails : List Char := []
  cachedExpectedVersion : Int32 := 0
  retryDelayMs : Nat := retryInitialDelayMs
  retryHandle : Option (Option Nat) := none
  next : Option Nat := none
  deriving DecidableEq

/-- The entry without its link. -/
def EntryNode.entry (n : EntryNode) (ptr : Nat) : JobEntries where
  ptr := ptr
  jobId := n.jobId
  jobIdInt := n.jobIdInt
  version := n.version
  hasCachedTerminal := n.hasCachedTerminal
  cachedStatus := n.cachedStatus
  cachedDetails := n.cachedDetails
  cachedExpectedVersion := n.cachedExpectedVersion
  retryDelayMs := n.retryDelayMs
  timer := n.retryHandle.join

/-- The timer of the entry runs. -/
def EntryNode.armed (n : EntryNode) : Bool := n.retryHandle.join.isSome

/-- `ota_status_cache_t` and the memory of the entries. The cache is there unless
`p_ota_status_cache` is `NULL`. -/
structure StatusList where
  nodes : Heap EntryNode := .empty
  present : Bool := false
  head : Option Nat := none
  tail : Option Nat := none
  nextJobIdInt : UInt32 := 1
  count : Nat := 0
  deriving DecidableEq

namespace StatusList

/-! ### Entries -/

/-- A write through the pointer to an entry. -/
def write (s : StatusList) (p : Nat) (f : EntryNode → EntryNode) : Option StatusList := do
  let n ← s.nodes.load p
  let nodes ← s.nodes.store p (f n)
  return { s with nodes }

/-- The loops that look for an entry. -/
def find (s : StatusList) (found : EntryNode → Bool) : Nat → Option Nat → Option (Option Nat)
  | _, none => some none
  | 0, some _ => none
  | steps + 1, some p => do
    let n ← s.nodes.load p
    if found n then return some p else s.find found steps n.next

/-- A loop over the list. A list that ends does so within as many steps as there are blocks. -/
def findEntry (s : StatusList) (found : EntryNode → Bool) : Option (Option Nat) :=
  if s.present then s.find found s.nodes.blocks.length s.head else none

/-- The entry of a job id. -/
def findByJobId (s : StatusList) (jobId : CStr) : Option (Option Nat) :=
  s.findEntry fun n => sameJobId n.jobId jobId

/-- `ota_status_cache_find_job_entries_by_int_locked`. -/
def findByInt (s : StatusList) (jobIdInt : UInt32) : Option (Option Nat) :=
  s.findEntry fun n => n.jobIdInt == jobIdInt

/-- The end of `ota_status_cache_get_or_create_job_entries_locked`: the new entry comes behind the
last one. -/
def append (s : StatusList) (p : Nat) : Option StatusList :=
  match s.head with
  | none => return { s with head := some p, tail := some p }
  | some _ => do
    let last ← s.tail
    let s ← s.write last fun n => { n with next := some p }
    return { s with tail := some p }

/-- The new entry of that function. -/
def addEntry (s : StatusList) (jobId : CStr) : Option (Nat × StatusList) := do
  let (nodes, p) := s.nodes.alloc { jobId, jobIdInt := s.nextJobIdInt }
  let s ← { s with nodes, nextJobIdInt := s.nextJobIdInt + 1 }.append p
  return (p, s)

/-- `ota_status_cache_get_or_create_job_entries_locked`. -/
def getOrCreate (s : StatusList) (jobId : CStr) (allocated : Bool) :
    Option (Except EspError (Nat × StatusList)) :=
  if validJobId jobId then do
    match ← s.findByJobId jobId with
    | some p => return .ok (p, s)
    | none => if allocated then return .ok (← s.addEntry jobId) else return .error .noMem
  else return .error .invalidArg

/-- `ota_status_schedule_or_reset_retry`. -/
def scheduleOrResetRetry (s : StatusList) (p delayMs : Nat) (scheduled : Bool) :
    Option (EspError × StatusList) := do
  let _ ← s.nodes.load p
  -- Scheduling a task for a `NULL` handle and a reset of the timer have the same effect.
  if scheduled then
    let s ← s.write p fun n => { n with retryHandle := some (some delayMs) }
    return (.ok, s)
  else return (.fail, s)

/-- `ota_status_cache_set_cached_terminal_locked`. -/
def setCachedTerminal (s : StatusList) (p : Nat) (u : StatusUpdate) (expectedVersion : Int32)
    (env : StatusEnv) : Option (EspError × StatusList) := do
  let s ← s.write p fun n => { n with cachedDetails := [] }
  if u.details ≠ [] ∧ env.detailsAllocated = false then return (.noMem, s)
  else
    let n ← s.nodes.load p
    let s ← s.write p fun n => { n with
      cachedDetails := u.details
      cachedStatus := u.status
      cachedExpectedVersion := expectedVersion
      hasCachedTerminal := true
      retryDelayMs := retryInitialDelayMs }
    let s := { s with count := if n.hasCachedTerminal then s.count else s.count + 1 }
    s.scheduleOrResetRetry p retryInitialDelayMs env.scheduled

/-- The loop of `ota_status_cache_remove_job_entries_locked`: the entry and the one before it. -/
def locate (s : StatusList) (p : Nat) : Nat → Option Nat → Option Nat →
    Option (Option Nat × Option Nat)
  | _, prev, none => some (prev, none)
  | 0, _, some _ => none
  | steps + 1, prev, some q =>
    if q = p then some (prev, some q)
    else do
      let n ← s.nodes.load q
      s.locate p steps (some q) n.next

/-- The end of `ota_status_cache_remove_job_entries_locked`. The retry timer and the details go with
the entry. -/
def unlink (s : StatusList) (prev : Option Nat) (p : Nat) : Option StatusList := do
  let n ← s.nodes.load p
  let s ← match prev with
    | none => some { s with head := n.next }
    | some q => s.write q fun m => { m with next := n.next }
  let nodes ← s.nodes.free p
  return { s with
    nodes
    tail := if s.tail = some p then prev else s.tail
    count := if n.hasCachedTerminal && decide (0 < s.count) then s.count - 1 else s.count }

/-- `ota_status_cache_remove_job_entries_locked`. -/
def removeEntries (s : StatusList) (p : Nat) : Option StatusList :=
  if s.present then do
    match ← s.locate p s.nodes.blocks.length none s.head with
    | (_, none) => return s
    | (prev, some q) => s.unlink prev q
  else return s

/-- `ota_status_cache_overwrite_version`. -/
def overwriteVersion (s : StatusList) (jobId : CStr) (version : Int32) (allocated : Bool) :
    Option (EspError × StatusList) :=
  if jobId.length = 0 then return (.invalidArg, s)
  else do
    match ← s.getOrCreate jobId allocated with
    | .error err => return (err, s)
    | .ok (p, s) => return (.ok, ← s.write p fun n => { n with version := version })

/-! ### Calls -/

/-- `ota_status_init`. The failures end in `ota_status_deinit`, whose result is the result. -/
def init (s : StatusList) (nameValid cacheAllocated mutexCreated : Bool) : EspError × StatusList :=
  if nameValid = false then (.invalidArg, s)
  else (.ok, { nodes := s.nodes, present := cacheAllocated && mutexCreated })

/-- The loop of `ota_status_cache_deinit`. -/
def freeAll (nodes : Heap EntryNode) : Nat → Option Nat → Option (Heap EntryNode)
  | _, none => some nodes
  | 0, some _ => none
  | steps + 1, some p => do
    let n ← nodes.load p
    let nodes ← nodes.free p
    freeAll nodes steps n.next

/-- `ota_status_deinit`. -/
def deinit (s : StatusList) : Option StatusList :=
  if s.present then do
    return { nodes := ← freeAll s.nodes s.nodes.blocks.length s.head }
  else return s

/-- `ota_status_set_initial_expected_version`. -/
def setInitialExpectedVersion (s : StatusList) (jobId : CStr) (version : Int32)
    (allocated : Bool) : Option (EspError × StatusList) :=
  if validJobId jobId then s.overwriteVersion jobId version allocated
  else return (.invalidArg, s)

/-- The terminal part of the first critical section of `ota_status_send`. -/
def cacheIfTerminal (s : StatusList) (p : Nat) (u : StatusUpdate) (expectedVersion : Int32)
    (env : StatusEnv) : Option (EspError × StatusList) :=
  if isTerminal u.status then s.setCachedTerminal p u expectedVersion env else return (.ok, s)

/-- `ota_status_send`. -/
def otaStatusSend (s : StatusList) (u : StatusUpdate) (env : StatusEnv) :
    Option (EspError × StatusList) :=
  if u.valid env.detailsValid then do
    match ← s.getOrCreate u.jobId env.entryAllocated with
    | .error err => return (err, s)
    | .ok (p, s) =>
      let n ← s.nodes.load p
      let (err, s) ← s.cacheIfTerminal p u n.version env
      if err = .ok then
        let s ← s.write p fun n => { n with version := n.version + 1 }
        if publishUpdate n.version env.published = .ok then return (.ok, s)
        else
          let (_, s) ← s.overwriteVersion u.jobId n.version env.entryAllocated
          return (if isTerminal u.status then .ok else .fail, s)
      else return (err, s)
  else return (.invalidArg, s)

/-- `ota_status_clear_job_entries`. -/
def clearJobEntries (s : StatusList) (jobId : CStr) : Option StatusList :=
  if jobId.length = 0 ∨ s.present = false then return s
  else do
    match ← s.findByJobId jobId with
    | some p => s.removeEntries p
    | none => return s

/-- The loop that takes the snapshot of `ota_status_resend_pending_terminals`. -/
def snapshot (s : StatusList) (copied : Nat → Bool) : Nat → Nat → Option Nat →
    Option (List StatusUpdate)
  | _, _, none => some []
  | 0, _, some _ => none
  | steps + 1, i, some p =>
    if i < s.count then do
      let n ← s.nodes.load p
      if n.hasCachedTerminal then
        let u := (n.entry p).cachedUpdate
        let rest ← s.snapshot copied steps (i + 1) n.next
        return { u with details := if copied i then u.details else [] } :: rest
      else s.snapshot copied steps i n.next
    else return []

/-- The loop that sends the snapshot, with one environment for each send. -/
def resend (s : StatusList) (envs : Nat → StatusEnv) (i : Nat) :
    List StatusUpdate → Option StatusList
  | [] => some s
  | u :: us => do
    let (_, s) ← s.otaStatusSend u (envs i)
    s.resend envs (i + 1) us

/-- `ota_status_resend_pending_terminals`. -/
def resendPendingTerminals (s : StatusList) (snapshotAllocated : Bool) (copied : Nat → Bool)
    (envs : Nat → StatusEnv) : Option StatusList :=
  if s.present = false ∨ s.count = 0 ∨ snapshotAllocated = false then return s
  else do
    let us ← s.snapshot copied s.nodes.blocks.length 0 s.head
    s.resend envs 0 us

/-- The rejections of `ota_status_on_update_response`. `sendEnv` is the environment of the send that
follows a version mismatch. -/
def onReject (s : StatusList) (p : Nat) (payload : ResponsePayload) (env sendEnv : StatusEnv) :
    Option (EspError × StatusList) :=
  if payload.code = [] then return (.invalidArg, s)
  else if payload.code = "VersionMismatch".toList then
    match strToUint32 payload.versionNumber with
    | none => return (.invalidArg, s)
    | some version => do
      let s ← s.write p fun n => { n with version := version.toInt32 }
      let n ← s.nodes.load p
      if n.hasCachedTerminal then
        let u := (n.entry p).cachedUpdate
        let (_, s) ← s.otaStatusSend
          { u with details := if env.detailsAllocated then u.details else [] } sendEnv
        return (.ok, s)
      else return (.ok, s)
  else if rejectIsUnrecoverable payload.code then return (.ok, ← s.removeEntries p)
  else do
    let n ← s.nodes.load p
    if n.hasCachedTerminal then
      let (_, s) ← s.scheduleOrResetRetry p n.retryDelayMs env.scheduled
      return (.ok, s)
    else return (.ok, s)

/-- `ota_status_on_update_response`. -/
def onUpdateResponse (s : StatusList) (payload : ResponsePayload) (accepted : Bool)
    (env sendEnv : StatusEnv) : Option (EspError × StatusList) :=
  match readToken payload.clientToken with
  | none => return (.invalidArg, s)
  | some (terminal, jobIdInt) => do
    match ← s.findByInt jobIdInt with
    | none => return (.invalidArg, s)
    | some p =>
      if accepted then
        if terminal then return (.ok, ← s.removeEntries p) else return (.ok, s)
      else s.onReject p payload env sendEnv

/-- `ota_status_retry_task` on an entry whose timer has fired. -/
def retryTask (s : StatusList) (p : Nat) (env : StatusEnv) : Option StatusList := do
  let n ← s.nodes.load p
  if n.hasCachedTerminal then
    let delayMs := (n.entry p).nextDelay
    let s ← s.write p fun n => { n with version := n.version + 1, retryDelayMs := delayMs }
    if publishUpdate n.version env.published = .ok then
      let (_, s) ← s.scheduleOrResetRetry p delayMs env.scheduled
      return s
    else
      let (_, s) ← s.overwriteVersion n.jobId n.version env.entryAllocated
      let (_, s) ← s.scheduleOrResetRetry p delayMs env.scheduled
      return s
  else return s

/-- The retry timer of an entry fires. -/
def fire (s : StatusList) (p : Nat) (env : StatusEnv) : Option StatusList := do
  let n ← s.nodes.load p
  if n.armed then
    let s ← s.write p fun n => { n with retryHandle := some none }
    s.retryTask p env
  else none

/-! ### Runs -/

/-- The calls of the status manager, with the answers of the environment. -/
inductive Op
  | init (nameValid cacheAllocated mutexCreated : Bool)
  | deinit
  | setVersion (jobId : CStr) (version : Int32) (allocated : Bool)
  | send (u : StatusUpdate) (env : StatusEnv)
  | clear (jobId : CStr)
  | resend (snapshotAllocated : Bool) (copied : Nat → Bool) (envs : Nat → StatusEnv)
  | response (payload : ResponsePayload) (accepted : Bool) (env sendEnv : StatusEnv)
  | timer (p : Nat) (env : StatusEnv)

/-- One call. -/
def step (s : StatusList) : Op → Option StatusList
  | .init nameValid cacheAllocated mutexCreated =>
    some (s.init nameValid cacheAllocated mutexCreated).2
  | .deinit => s.deinit
  | .setVersion jobId version allocated =>
    (s.setInitialExpectedVersion jobId version allocated).map Prod.snd
  | .send u env => (s.otaStatusSend u env).map Prod.snd
  | .clear jobId => s.clearJobEntries jobId
  | .resend snapshotAllocated copied envs => s.resendPendingTerminals snapshotAllocated copied envs
  | .response payload accepted env sendEnv =>
    (s.onUpdateResponse payload accepted env sendEnv).map Prod.snd
  | .timer p env => s.fire p env

/-- Before the first call. -/
def Initial (s : StatusList) : Prop := s = {}

/-- The calls whose caller has initialized the status manager where the code needs it. A timer fires
for an entry in memory. -/
def Ready (s : StatusList) : Op → Prop
  | .setVersion .. | .send .. | .response .. => s.present = true
  | .timer p _ => s.present = true ∧ (s.nodes.load p).any EntryNode.armed = true
  | _ => True

/-! ### The property -/

/-- The entries on the links from an address, with their addresses. -/
def collect (s : StatusList) : Nat → Option Nat → Option (List (Nat × EntryNode))
  | _, none => some []
  | 0, some _ => none
  | steps + 1, some p => do
    let n ← s.nodes.load p
    let rest ← s.collect steps n.next
    return (p, n) :: rest

/-- The entries of the list. -/
def entries (s : StatusList) : Option (List (Nat × EntryNode)) :=
  s.collect s.nodes.blocks.length s.head

/-- The links from `head` visit the live entries `l` and end, `tail` is the last of them, no two
have one job id, and the counter counts those that cache a terminal update. -/
structure Shaped (s : StatusList) (l : List (Nat × EntryNode)) : Prop where
  entries : s.entries = some l
  tail : s.tail = (l.map Prod.fst).getLast?
  jobIds : (l.map fun q => q.2.jobId).Nodup
  counted : s.count = l.countP fun q => q.2.hasCachedTerminal

/-- The entry list is well formed: it has its shape, and no two entries have one number. -/
def WellFormed (s : StatusList) : Prop :=
  ∃ l, s.Shaped l ∧ (l.map fun q => q.2.jobIdInt).Nodup

/-! ### The condition -/

/-- The job that a call with these arguments makes an entry for, if there is none. -/
def wanted (jobId : CStr) (valid allocated : Bool) : Option CStr :=
  if allocated && valid then some jobId else none

/-- The same for each call. The retry task gets so far for an entry that an earlier `init` forgot,
when the publish fails. -/
def wants (s : StatusList) : Op → Option CStr
  | .setVersion jobId _ allocated => wanted jobId (validJobId jobId) allocated
  | .send u env => wanted u.jobId (u.valid env.detailsValid) env.entryAllocated
  | .timer p env => do
    let n ← s.nodes.load p
    if n.hasCachedTerminal && decide (publishUpdate n.version env.published ≠ .ok) then
      wanted n.jobId (validJobId n.jobId) env.entryAllocated
    else none
  | _ => none

/-- A call that makes an entry finds a number that no entry of the list has. The numbers repeat
after `2 ^ 32` entries. -/
def Fresh (s : StatusList) (op : Op) : Prop :=
  ∀ jobId ∈ s.wants op, ∀ l ∈ s.entries, (∀ q ∈ l, q.2.jobId ≠ jobId) →
    ∀ q ∈ l, q.2.jobIdInt ≠ s.nextJobIdInt

instance (s : StatusList) (op : Op) : Decidable (Fresh s op) :=
  inferInstanceAs (Decidable (∀ jobId ∈ s.wants op, ∀ l ∈ s.entries,
    (∀ q ∈ l, q.2.jobId ≠ jobId) → ∀ q ∈ l, q.2.jobIdInt ≠ s.nextJobIdInt))

end StatusList

end RainMakerNeo.Ota.Status
