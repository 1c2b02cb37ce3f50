import RainMakerNeo.Lib.Run
import RainMakerNeo.Ota.StatusSteps

/-!
# `RainMakerNeo.Ota.StatusInterleaving`: the sender, the retry task and the responses

The callers of `ota_status_send`, the retry task and the response callback run in different
tasks, and none of them holds the lock around a publish. The state of a call between two of its
critical sections is a `Task`, and `step` runs one section of one task. So the runs of `step` are
the interleavings. The allocator and the scheduler succeed, and the environment decides about
each publish.

A removal frees the entry, but a task can still hold its address. The memory of a freed entry
stays in `freed` as it was, and a task that follows the address reads and writes that memory.
`late` records what is done for an entry after its removal: a publish, a timer that is armed on
the freed memory, and an entry that comes back. Neither list exists in the code.
-/

set_option autoImplicit false

namespace RainMakerNeo.Ota.Status

open RainMakerNeo.Lib

/-! ### The model -/

/-- A call between two of its sections. -/
inductive Task
  /-- `ota_status_send` before the publish. `rest` is what a resend still has to send. -/
  | sendPublish (u : StatusUpdate) (p : Prepared) (rest : List (Nat × StatusUpdate))
  /-- `ota_status_send` after a failed publish, before the version goes back. -/
  | sendRevert (u : StatusUpdate) (p : Prepared) (rest : List (Nat × StatusUpdate))
  /-- The retry task before its critical section. -/
  | retry (ptr : Nat)
  | retryPublish (ptr : Nat) (shot : RetryShot)
  | retryRevert (ptr : Nat) (shot : RetryShot)
  /-- The retry task before it arms the timer again. -/
  | retryRearm (ptr delayMs : Nat)
  /-- A resend before the first section of its next send. Each update comes with the address of
  the entry that it was copied from. -/
  | resend (snapshot : List (Nat × StatusUpdate))
  deriving DecidableEq

/-- Something that happened for an entry after its removal: a terminal update was published, the
timer was armed, or an entry for the job was made. -/
inductive Late
  | published (jobId : CStr)
  | rearmed (ptr : Nat)
  | recreated (jobId : CStr)
  deriving DecidableEq

/-- The status manager with the calls that are under way. -/
structure Manager where
  cache : Cache := {}
  freed : List JobEntries := []
  tasks : List Task := []
  late : List Late := []
  deriving DecidableEq

/-- What happens next. -/
inductive Action
  /-- A caller enters `ota_status_send`. -/
  | send (u : StatusUpdate)
  /-- `ota_status_set_initial_expected_version`. -/
  | setVersion (jobId : CStr) (version : Int32)
  /-- The retry timer of an entry expires. -/
  | timer (ptr : Nat)
  /-- A task runs its next section, and the MQTT client takes its publish or does not. -/
  | advance (task : Task) (published : Bool)
  /-- `ota_status_on_update_response`, up to the send that a version mismatch asks for. -/
  | response (payload : ResponsePayload) (accepted : Bool)
  /-- The snapshot of `ota_status_resend_pending_terminals`. -/
  | resend
  /-- `ota_status_clear_job_entries`. -/
  | clear (jobId : CStr)

namespace Manager

/-- The entry behind an address is still in the cache. -/
def live (s : Manager) (ptr : Nat) : Bool := s.cache.entries.any fun e => e.ptr == ptr

/-- The memory behind an address. -/
def deref (s : Manager) (ptr : Nat) : Option JobEntries :=
  (s.cache.entries ++ s.freed).find? fun e => e.ptr == ptr

/-- A write through an address, to whatever memory is there. -/
def write (s : Manager) (ptr : Nat) (f : JobEntries → JobEntries) : Manager :=
  { s with cache := s.cache.update ptr f, freed := modifyKey JobEntries.ptr ptr f s.freed }

/-- Record an act for the entry at an address when that entry is gone. -/
def note (s : Manager) (ptr : Nat) (act : Late) : Manager :=
  if s.live ptr then s else { s with late := act :: s.late }

/-- The cache after a removal. The timer of a removed entry is cancelled, the memory stays. -/
def remove (s : Manager) (c : Cache) : Manager :=
  { s with
    cache := c
    freed := s.freed ++ (s.cache.entries.filter fun e => !c.entries.any fun x => x.ptr == e.ptr).map
      fun e => { e with timer := none } }

/-- The version of a failed publish goes back. When the entry is gone, this makes a new one. -/
def revert (s : Manager) (jobId : CStr) (version : Int32) : Manager :=
  { s with
    cache := (s.cache.overwriteVersion jobId version true).2
    late := if (s.cache.findByJobId jobId).isSome then s.late else .recreated jobId :: s.late }

end Manager

/-- The rest of a resend, if there is one. -/
def afterSend (rest : List (Nat × StatusUpdate)) : List Task :=
  if rest.isEmpty then [] else [.resend rest]

/-- The next section of a task, and what is left of the task. -/
def Manager.runTask (s : Manager) (published : Bool) : Task → Manager × List Task
  | .sendPublish u p rest =>
    if publishUpdate p.expectedVersion published = .ok then
      -- A progress update says nothing about the terminal update that was removed.
      (if isTerminal u.status then s.note p.ptr (.published u.jobId) else s, afterSend rest)
    else (s, [.sendRevert u p rest])
  | .sendRevert u p rest => (s.revert u.jobId p.expectedVersion, afterSend rest)
  | .retry ptr =>
    match (s.deref ptr).bind JobEntries.retryShot with
    | none => (s, [])
    | some shot => (s.write ptr JobEntries.retried, [.retryPublish ptr shot])
  | .retryPublish ptr shot =>
    if publishUpdate shot.expectedVersion published = .ok then
      (s.note ptr (.published shot.update.jobId), [.retryRearm ptr shot.nextDelay])
    else (s, [.retryRevert ptr shot])
  | .retryRevert ptr shot =>
    (s.revert shot.update.jobId shot.expectedVersion, [.retryRearm ptr shot.nextDelay])
  | .retryRearm ptr delayMs =>
    ((s.note ptr (.rearmed ptr)).write ptr fun e => { e with timer := some delayMs }, [])
  | .resend [] => (s, [])
  | .resend ((ptr, u) :: rest) =>
    match s.cache.sendPrepare u {} with
    | (.ok, c, p) => ({ s.note ptr (.recreated u.jobId) with cache := c }, [.sendPublish u p rest])
    | _ => (s, afterSend rest)

/-- The entry that a response names by its client token. -/
def Cache.answered (c : Cache) (payload : ResponsePayload) : Option JobEntries :=
  (readToken payload.clientToken).bind fun token => c.findByInt token.2

/-- The send of a response that asks for one, for the entry that the response named. -/
def mismatchResend : Option JobEntries → Option StatusUpdate → List Task
  | some e, some u => [.resend [(e.ptr, u)]]
  | _, _ => []

/-- One section of one task, or one thing that the environment does. -/
def step (s : Manager) : Action → Option Manager
  | .send u =>
    if u.valid true then
      let r := s.cache.sendPrepare u {}
      some { s with cache := r.2.1, tasks := s.tasks ++ [.sendPublish u r.2.2 []] }
    else some s
  | .setVersion jobId version =>
    some { s with cache := (s.cache.setInitialExpectedVersion jobId version true).2 }
  | .timer ptr =>
    match (s.deref ptr).bind JobEntries.timer with
    | none => none
    | some _ =>
      let s := s.write ptr fun e => { e with timer := none }
      some { s with tasks := s.tasks ++ [.retry ptr] }
  | .advance task published =>
    if task ∈ s.tasks then
      let r := ({ s with tasks := s.tasks.erase task } : Manager).runTask published task
      some { r.1 with tasks := r.1.tasks ++ r.2 }
    else none
  | .response payload accepted =>
    let r := s.cache.onResponseLocked payload accepted {}
    let t := s.remove r.cache
    some { t with tasks := t.tasks ++ mismatchResend (s.cache.answered payload) r.resend }
  | .resend =>
    some { s with
      tasks := s.tasks ++ afterSend (s.cache.pendingEntries.map fun e => (e.ptr, e.cachedUpdate)) }
  | .clear jobId => some (s.remove (s.cache.clearJobEntries jobId))

/-! ### What is promised -/

/-- A retry task of the entry at an address is running. -/
def Task.retries (ptr : Nat) : Task → Bool
  | .retry p | .retryPublish p _ | .retryRevert p _ | .retryRearm p _ => p == ptr
  | .sendPublish .. | .sendRevert .. | .resend _ => false

/-- A response to a terminal update that the service accepted, an unrecoverable rejection, or a
clear takes the entry out. -/
def Removes (c : Cache) (a : Action) (e : JobEntries) : Prop :=
  match a with
  | .response payload true =>
    c.answered payload = some e ∧ (readToken payload.clientToken).map Prod.fst = some true
  | .response payload false =>
    c.answered payload = some e ∧ rejectIsUnrecoverable payload.code = true
  | .clear jobId => e.jobId = jobId
  | _ => False

instance (c : Cache) (a : Action) (e : JobEntries) : Decidable (Removes c a e) := by
  unfold Removes
  split <;> infer_instance

/-- The cached terminal update of an entry survives a step, or a newer one takes its place. -/
def Survives (a : Action) (e : JobEntries) (t : Manager) : Prop :=
  ∃ e' ∈ t.cache.entries, e'.ptr = e.ptr ∧ e'.hasCachedTerminal = true ∧
    (e'.cachedUpdate = e.cachedUpdate ∨ a = .send e'.cachedUpdate)

/-- Every cached terminal update has its timer armed or its retry task running. -/
def Held (s : Manager) : Prop :=
  ∀ e ∈ s.cache.entries, e.hasCachedTerminal = true →
    e.timer.isSome = true ∨ ∃ task ∈ s.tasks, task.retries e.ptr = true

/-- The promise of the status manager in one state: the cached terminal updates are held, nothing
was done for a removed entry, and each allowed step keeps a cached terminal update or removes
its entry on an answer or a clear. -/
structure Delivers (allowed : Manager → Action → Prop) (s : Manager) : Prop where
  held : Held s
  nothingLate : s.late = []
  keeps : ∀ a t, allowed s a → step s a = some t → ∀ e ∈ s.cache.entries,
    e.hasCachedTerminal = true → Survives a e t ∨ Removes s.cache a e
  caches : ∀ u t, step s (.send u) = some t → u.valid true = true → isTerminal u.status = true →
    ∃ e ∈ t.cache.entries, e.cachedUpdate = u ∧ e.hasCachedTerminal = true ∧ e.timer.isSome = true

/-! ### When the promise is kept -/

/-- The entries that a task still works for, with the job id where the task has a copy of it. The
publish of a progress update is over with the publish, unless that fails. -/
def Task.targets : Task → List (Nat × Option CStr)
  | .sendPublish u p rest =>
    (if isTerminal u.status then [(p.ptr, some u.jobId)] else [])
      ++ rest.map fun q => (q.1, some q.2.jobId)
  | .sendRevert u p rest => (p.ptr, some u.jobId) :: rest.map fun q => (q.1, some q.2.jobId)
  | .retry ptr | .retryRearm ptr _ => [(ptr, none)]
  | .retryPublish ptr shot | .retryRevert ptr shot => [(ptr, some shot.update.jobId)]
  | .resend snapshot => snapshot.map fun q => (q.1, some q.2.jobId)

/-- A task works for the entry at an address. -/
def Task.worksFor (task : Task) (ptr : Nat) : Bool := task.targets.any fun q => q.1 == ptr

/-- The step does not remove an entry under the hands of a running task. No publish of a progress
update fails after its entry was removed. No resend sends a copy of an update that has been
replaced meanwhile. -/
def Careful (s : Manager) (a : Action) : Prop :=
  (∀ e ∈ s.cache.entries, Removes s.cache a e → ∀ task ∈ s.tasks, task.worksFor e.ptr = false) ∧
    match a with
    | .advance (.sendPublish _ p _) published =>
      publishUpdate p.expectedVersion published = .ok ∨ s.live p.ptr = true
    | .advance (.resend (copy :: _)) _ =>
      ∀ e ∈ s.cache.entries, e.ptr = copy.1 → e.cachedUpdate = copy.2
    | _ => True

instance (s : Manager) (a : Action) : Decidable (Careful s a) := by
  unfold Careful
  split <;> infer_instance

end RainMakerNeo.Ota.Status
