import RainMakerNeo.Lib.CStr
import RainMakerNeo.Lib.Keyed

/-!
# `RainMakerNeo.Ota.StatusManager`: the cache of job status updates

`ota_status.c` keeps one entry for each job that it has reported on. An entry has the version
of the next update, and it caches the last terminal update until the service answers. The
client token of an update names the entry by a number and tells whether the update is terminal.

The functions here are the critical sections of that file, on the cache as a value. Between two
sections of `ota_status_send` or of the retry task the lock is free, because the publish runs
without it. `StatusInterleaving` lets the sections of several tasks mix. `otaStatusSend` and
`onUpdateResponse` run their sections one after the other.

The allocator, the scheduler, the MQTT client and the JSON library answer through `StatusEnv`,
whose defaults are the success values. `ptr` is the address of an entry; the cache does not read
it, it only follows it.
-/

set_option autoImplicit false

namespace RainMakerNeo.Ota.Status

open RainMakerNeo.Lib

/-! ### Data -/

/-- `JobCurrentStatus_t`. -/
inductive JobStatus
  | queued
  | inProgress
  | failed
  | succeeded
  | rejected
  deriving DecidableEq, Repr

/-- The values of `esp_rmaker_error_t` that the OTA code returns. -/
inductive EspError
  | ok
  | fail
  | noMem
  | invalidArg
  | invalidState
  deriving DecidableEq, Repr

/-- `JOBID_MAX_LENGTH`. -/
def jobIdMaxLength : Nat := 64

/-- `OTA_STATUS_RETRY_INITIAL_DELAY_MS`. -/
def retryInitialDelayMs : Nat := 1000

/-- `OTA_STATUS_RETRY_MAX_DELAY_MS`. -/
def retryMaxDelayMs : Nat := 60 * 1000

/-- `ota_status_update_t`. The details are empty for a `NULL` string. -/
structure StatusUpdate where
  jobId : CStr
  status : JobStatus
  details : List Char
  deriving DecidableEq

/-- `ota_status_job_entries_t`. `timer` is the delay of the running retry timer, `none` when no
retry timer runs. -/
structure JobEntries where
  ptr : Nat
  jobId : CStr
  jobIdInt : UInt32
  version : Int32 := 1
  hasCachedTerminal : Bool := false
  cachedStatus : JobStatus := .queued
  cachedDetails : List Char := []
  cachedExpectedVersion : Int32 := 0
  retryDelayMs : Nat := retryInitialDelayMs
  timer : Option Nat := none
  deriving DecidableEq

/-- The terminal update that an entry caches. -/
def JobEntries.cachedUpdate (e : JobEntries) : StatusUpdate where
  jobId := e.jobId
  status := e.cachedStatus
  details := e.cachedDetails

/-- `ota_status_cache_t`. `nextPtr` is an address that no entry has had. -/
structure Cache where
  entries : List JobEntries := []
  nextJobIdInt : UInt32 := 1
  count : Nat := 0
  nextPtr : Nat := 0
  deriving DecidableEq

/-- What the environment answers inside one call. -/
structure StatusEnv where
  detailsValid : Bool := true
  entryAllocated : Bool := true
  detailsAllocated : Bool := true
  scheduled : Bool := true
  published : Bool := true
  deriving DecidableEq, Repr

/-- A published update message, with the number of the entry in its client token. -/
structure UpdateRequest where
  update : StatusUpdate
  expectedVersion : Int32
  isTerminal : Bool
  jobIdInt : UInt32
  deriving DecidableEq

/-- The client token of a message: the terminal byte, then the number of the entry. -/
def UpdateRequest.clientToken (r : UpdateRequest) : List Char :=
  (if r.isTerminal then '1' else '0') :: Nat.toDigits 10 r.jobIdInt.toNat

/-! ### Helpers of the cache -/

/-- The comparison of job ids in the cache: equal lengths, then `strncmp`. -/
def sameJobId (a b : CStr) : Bool :=
  a.length == b.length && strncmpEq b.length a.chars b.chars

@[simp] theorem sameJobId_iff (a b : CStr) : sameJobId a b = true ↔ a = b := by
  rw [sameJobId, Bool.and_eq_true, beq_iff_eq]
  constructor
  · intro ⟨hlen, hcmp⟩
    rw [← hlen] at hcmp
    exact (strncmpEq_of_length_eq hlen).mp hcmp
  · intro h
    subst h
    exact ⟨rfl, (strncmpEq_of_length_eq rfl).mpr rfl⟩

/-- The entry of a job id. -/
def Cache.findByJobId (c : Cache) (jobId : CStr) : Option JobEntries :=
  c.entries.find? fun e => sameJobId e.jobId jobId

/-- `ota_status_cache_find_job_entries_by_int_locked`. -/
def Cache.findByInt (c : Cache) (jobIdInt : UInt32) : Option JobEntries :=
  c.entries.find? fun e => e.jobIdInt == jobIdInt

/-- A write through the pointer to an entry. -/
def Cache.update (c : Cache) (ptr : Nat) (f : JobEntries → JobEntries) : Cache :=
  { c with entries := modifyKey JobEntries.ptr ptr f c.entries }

/-- The entry that `ota_status_cache_get_or_create_job_entries_locked` appends. -/
def Cache.newEntry (c : Cache) (jobId : CStr) : JobEntries where
  ptr := c.nextPtr
  jobId := jobId
  jobIdInt := c.nextJobIdInt

/-- The cache with that entry. -/
def Cache.addEntry (c : Cache) (jobId : CStr) : Cache :=
  { c with
    entries := c.entries ++ [c.newEntry jobId]
    nextJobIdInt := c.nextJobIdInt + 1
    nextPtr := c.nextPtr + 1 }

/-- A job id that an entry can have. -/
def validJobId (jobId : CStr) : Bool :=
  0 < jobId.length && jobId.length ≤ jobIdMaxLength

/-- `ota_status_cache_get_or_create_job_entries_locked`. -/
def Cache.getOrCreate (c : Cache) (jobId : CStr) (allocated : Bool) :
    Except EspError (JobEntries × Cache) :=
  if validJobId jobId then
    match c.findByJobId jobId with
    | some e => .ok (e, c)
    | none => if allocated then .ok (c.newEntry jobId, c.addEntry jobId) else .error .noMem
  else .error .invalidArg

/-- `ota_status_schedule_or_reset_retry`. -/
def Cache.scheduleOrResetRetry (c : Cache) (ptr delayMs : Nat) (scheduled : Bool) :
    EspError × Cache :=
  if scheduled then (.ok, c.update ptr fun e => { e with timer := some delayMs })
  else (.fail, c)

/-- The fields that caching a terminal update writes. -/
def JobEntries.cacheTerminal (u : StatusUpdate) (expectedVersion : Int32) (e : JobEntries) :
    JobEntries :=
  { e with
    cachedStatus := u.status
    cachedDetails := u.details
    cachedExpectedVersion := expectedVersion
    hasCachedTerminal := true
    retryDelayMs := retryInitialDelayMs }

/-- `ota_status_cache_set_cached_terminal_locked`. -/
def Cache.setCachedTerminal (c : Cache) (e : JobEntries) (u : StatusUpdate)
    (expectedVersion : Int32) (env : StatusEnv) : EspError × Cache :=
  if u.details ≠ [] ∧ env.detailsAllocated = false then
    -- The old details are freed before the copy fails.
    (.noMem, c.update e.ptr fun e => { e with cachedDetails := [] })
  else
    let c := c.update e.ptr (JobEntries.cacheTerminal u expectedVersion)
    let c := { c with count := if e.hasCachedTerminal then c.count else c.count + 1 }
    c.scheduleOrResetRetry e.ptr retryInitialDelayMs env.scheduled

/-- `ota_status_cache_remove_job_entries_locked`. The retry timer goes with the entry. -/
def Cache.removeEntries (c : Cache) (e : JobEntries) : Cache :=
  { c with
    entries := eraseKey JobEntries.ptr e.ptr c.entries
    count := if e.hasCachedTerminal then c.count - 1 else c.count }

/-- `ota_status_is_terminal`. -/
def isTerminal : JobStatus → Bool
  | .failed | .succeeded | .rejected => true
  | .queued | .inProgress => false

/-- The version has to fit the ten bytes of `expected_version_str`, terminator included. -/
def versionFits (version : Int32) : Bool :=
  -100000000 < version.toInt && version.toInt < 1000000000

/-- `ota_status_publish_update`: a client token and a message always fit their buffers. -/
def publishUpdate (expectedVersion : Int32) (published : Bool) : EspError :=
  if versionFits expectedVersion && published then .ok else .fail

/-- `ota_status_cache_overwrite_version`. -/
def Cache.overwriteVersion (c : Cache) (jobId : CStr) (version : Int32) (allocated : Bool) :
    EspError × Cache :=
  if jobId.length = 0 then (.invalidArg, c)
  else match c.getOrCreate jobId allocated with
    | .error err => (err, c)
    | .ok (e, c) => (.ok, c.update e.ptr fun e => { e with version := version })

/-! ### The sender -/

/-- The checks of `ota_status_send` before it takes the lock. -/
def StatusUpdate.valid (u : StatusUpdate) (detailsValid : Bool) : Bool :=
  validJobId u.jobId && u.status != .queued && (u.details.isEmpty || detailsValid)

/-- What the first critical section of `ota_status_send` leaves for the publish. -/
structure Prepared where
  ptr : Nat
  expectedVersion : Int32
  jobIdInt : UInt32
  deriving DecidableEq, Repr

/-- The terminal part of that section: only a terminal update is cached. -/
def Cache.cacheIfTerminal (c : Cache) (e : JobEntries) (u : StatusUpdate) (env : StatusEnv) :
    EspError × Cache :=
  if isTerminal u.status then c.setCachedTerminal e u e.version env else (.ok, c)

/-- The first critical section of `ota_status_send`. -/
def Cache.sendPrepare (c : Cache) (u : StatusUpdate) (env : StatusEnv) :
    EspError × Cache × Prepared :=
  match c.getOrCreate u.jobId env.entryAllocated with
  | .error err => (err, c, ⟨0, 0, 0⟩)
  | .ok (e, c) =>
    let prepared : Prepared := ⟨e.ptr, e.version, e.jobIdInt⟩
    let cached := c.cacheIfTerminal e u env
    if cached.1 = .ok then
      (.ok, cached.2.update e.ptr fun e => { e with version := e.version + 1 }, prepared)
    else (cached.1, cached.2, prepared)

/-- The message that a prepared update is published as. -/
def Prepared.request (p : Prepared) (u : StatusUpdate) : UpdateRequest where
  update := u
  expectedVersion := p.expectedVersion
  isTerminal := isTerminal u.status
  jobIdInt := p.jobIdInt

/-- What a call of the status manager gives back. `request` is the message that went out. -/
structure SendResult where
  err : EspError
  cache : Cache
  request : Option UpdateRequest := none
  nextVersion : Option Int32 := none
  deriving DecidableEq

/-- `ota_status_send`. A terminal update that could not be published is left to the retry
task, so the call succeeds. -/
def Cache.otaStatusSend (c : Cache) (u : StatusUpdate) (env : StatusEnv) : SendResult :=
  if u.valid env.detailsValid then
    match c.sendPrepare u env with
    | (.ok, c, prepared) =>
      if publishUpdate prepared.expectedVersion env.published = .ok then
        { err := .ok, cache := c, request := some (prepared.request u),
          nextVersion := some (prepared.expectedVersion + 1) }
      else
        { err := if isTerminal u.status then .ok else .fail,
          cache := (c.overwriteVersion u.jobId prepared.expectedVersion env.entryAllocated).2,
          nextVersion := some prepared.expectedVersion }
    | (err, c, _) => { err, cache := c }
  else { err := .invalidArg, cache := c }

/-- `ota_status_set_initial_expected_version`. -/
def Cache.setInitialExpectedVersion (c : Cache) (jobId : CStr) (version : Int32)
    (allocated : Bool) : EspError × Cache :=
  if validJobId jobId then c.overwriteVersion jobId version allocated else (.invalidArg, c)

/-- `ota_status_clear_job_entries`. -/
def Cache.clearJobEntries (c : Cache) (jobId : CStr) : Cache :=
  if jobId.length = 0 then c
  else match c.findByJobId jobId with
    | some e => c.removeEntries e
    | none => c

/-- `ota_status_is_cache_empty`. -/
def Cache.isEmpty (c : Cache) : Bool := c.count == 0

/-! ### The retry task -/

/-- What the critical section of the retry task leaves for the publish. -/
structure RetryShot where
  update : StatusUpdate
  expectedVersion : Int32
  nextDelay : Nat
  jobIdInt : UInt32
  deriving DecidableEq

/-- `next_delay` of the retry task. -/
def JobEntries.nextDelay (e : JobEntries) : Nat := min (e.retryDelayMs * 2) retryMaxDelayMs

/-- What the retry task writes into its entry under the lock. -/
def JobEntries.retried (e : JobEntries) : JobEntries :=
  { e with version := e.version + 1, retryDelayMs := e.nextDelay }

/-- The snapshot that the retry task takes of its entry, `none` without a cached terminal. -/
def JobEntries.retryShot (e : JobEntries) : Option RetryShot :=
  if e.hasCachedTerminal then
    some { update := e.cachedUpdate, expectedVersion := e.version, nextDelay := e.nextDelay,
           jobIdInt := e.jobIdInt }
  else none

/-- The message of a retry. -/
def RetryShot.request (shot : RetryShot) : UpdateRequest where
  update := shot.update
  expectedVersion := shot.expectedVersion
  isTerminal := true
  jobIdInt := shot.jobIdInt

/-- The end of the retry task. The timer is one-shot, so it stays off when it cannot be armed
again. -/
def Cache.rearm (c : Cache) (ptr delayMs : Nat) (scheduled : Bool) : Cache :=
  c.update ptr fun e => { e with timer := if scheduled then some delayMs else none }

/-- `ota_status_retry_task` on the entry whose timer fired, without interference. -/
def Cache.retryTask (c : Cache) (e : JobEntries) (env : StatusEnv) :
    Cache × Option UpdateRequest :=
  match e.retryShot with
  | none => (c.update e.ptr fun e => { e with timer := none }, none)
  | some shot =>
    let c := c.update e.ptr JobEntries.retried
    if publishUpdate shot.expectedVersion env.published = .ok then
      (c.rearm e.ptr shot.nextDelay env.scheduled, some shot.request)
    else
      -- The version goes back; the entry is still there, so nothing is allocated.
      let c := (c.overwriteVersion shot.update.jobId shot.expectedVersion env.entryAllocated).2
      (c.rearm e.ptr shot.nextDelay env.scheduled, none)

/-! ### Responses of the service -/

/-- What the JSON library finds in the payload of an accepted or rejected response. A missing
field, or one of the wrong type, is empty. -/
structure ResponsePayload where
  clientToken : List Char
  code : List Char := []
  versionNumber : List Char := []
  deriving DecidableEq, Repr

/-- `ota_status_cache_token_from_payload`: the terminal byte and the number of the entry. -/
def readToken : List Char → Option (Bool × UInt32)
  | '1' :: digits => (strToUint32 digits).map fun n => (true, n)
  | '0' :: digits => (strToUint32 digits).map fun n => (false, n)
  | _ => none

/-- A client token is read back as it was written. -/
@[simp] theorem readToken_clientToken (r : UpdateRequest) :
    readToken r.clientToken = some (r.isTerminal, r.jobIdInt) := by
  cases h : r.isTerminal <;> simp [UpdateRequest.clientToken, h, readToken, strToUint32_toDigits]

/-- `k_unrecoverable_codes`. -/
def unrecoverableCodes : List String :=
  ["ResourceNotFound", "TerminalStateReached", "InvalidStateTransition", "InvalidRequest",
    "InvalidTopic", "InvalidJson"]

/-- `ota_status_reject_is_unrecoverable`. -/
def rejectIsUnrecoverable (code : List Char) : Bool :=
  unrecoverableCodes.any fun known => code == known.toList

/-- `ota_status_update_response_return_t`. -/
structure ResponseReturn where
  jobId : CStr
  isTerminal : Bool
  isUnrecoverableReject : Bool := false
  deriving DecidableEq

/-- What the critical section of `ota_status_on_update_response` leaves behind. `resend` is the
cached update that a version mismatch sends again. -/
structure ResponseResult where
  err : EspError
  cache : Cache
  ret : Option ResponseReturn := none
  resend : Option StatusUpdate := none
  deriving DecidableEq

/-- The rejections: a version mismatch resynchronises the version, an unrecoverable code gives
the update up, and any other code leaves it to the retry timer. -/
def Cache.onReject (c : Cache) (e : JobEntries) (ret : ResponseReturn)
    (payload : ResponsePayload) (env : StatusEnv) : ResponseResult :=
  if payload.code = [] then { err := .invalidArg, cache := c }
  else if payload.code = "VersionMismatch".toList then
    match strToUint32 payload.versionNumber with
    | none => { err := .invalidArg, cache := c }
    | some version =>
      { err := .ok, cache := c.update e.ptr fun e => { e with version := version.toInt32 },
        ret := some ret,
        resend := if e.hasCachedTerminal then
            -- A details copy that fails leaves the resent update without details.
            some { e.cachedUpdate with
              details := if env.detailsAllocated then e.cachedDetails else [] }
          else none }
  else if rejectIsUnrecoverable payload.code then
    { err := .ok, cache := c.removeEntries e,
      ret := some { ret with isUnrecoverableReject := true } }
  else
    { err := .ok, ret := some ret,
      cache := if e.hasCachedTerminal then
          (c.scheduleOrResetRetry e.ptr e.retryDelayMs env.scheduled).2
        else c }

/-- The critical section of `ota_status_on_update_response`. -/
def Cache.onResponseLocked (c : Cache) (payload : ResponsePayload) (accepted : Bool)
    (env : StatusEnv) : ResponseResult :=
  match readToken payload.clientToken with
  | none => { err := .invalidArg, cache := c }
  | some (terminal, jobIdInt) =>
    match c.findByInt jobIdInt with
    | none => { err := .invalidArg, cache := c }
    | some e =>
      let ret : ResponseReturn := { jobId := e.jobId, isTerminal := terminal }
      if accepted then
        { err := .ok, cache := if terminal then c.removeEntries e else c, ret := some ret }
      else c.onReject e ret payload env

/-- `ota_status_on_update_response`, with the send that follows a version mismatch. -/
def Cache.onUpdateResponse (c : Cache) (payload : ResponsePayload) (accepted : Bool)
    (env : StatusEnv) : ResponseResult × Option UpdateRequest :=
  let r := c.onResponseLocked payload accepted env
  match r.resend with
  | none => (r, none)
  | some u =>
    let sent := r.cache.otaStatusSend u env
    ({ r with cache := sent.cache }, sent.request)

/-- The entries that `ota_status_resend_pending_terminals` copies: at most as many as the counter
says. -/
def Cache.pendingEntries (c : Cache) : List JobEntries :=
  (c.entries.filter JobEntries.hasCachedTerminal).take c.count

/-- The snapshot of `ota_status_resend_pending_terminals`. A details copy that fails leaves an
update without details. -/
def Cache.pendingTerminals (c : Cache) (copied : Nat → Bool) : List StatusUpdate :=
  c.pendingEntries.mapIdx fun i e =>
    { e.cachedUpdate with details := if copied i then e.cachedDetails else [] }

/-- The loop of `ota_status_resend_pending_terminals`, with one environment for each send. -/
def Cache.resend (c : Cache) (envs : Nat → StatusEnv) (i : Nat) :
    List StatusUpdate → Cache × List UpdateRequest
  | [] => (c, [])
  | u :: us =>
    let sent := c.otaStatusSend u (envs i)
    let rest := sent.cache.resend envs (i + 1) us
    (rest.1, sent.request.toList ++ rest.2)

/-- `ota_status_resend_pending_terminals`. -/
def Cache.resendPendingTerminals (c : Cache) (snapshotAllocated : Bool) (copied : Nat → Bool)
    (envs : Nat → StatusEnv) : Cache × List UpdateRequest :=
  if snapshotAllocated then c.resend envs 0 (c.pendingTerminals copied) else (c, [])

end RainMakerNeo.Ota.Status
