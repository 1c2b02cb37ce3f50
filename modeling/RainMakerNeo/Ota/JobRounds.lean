import RainMakerNeo.Ota.JobsSteps

/-!
# `RainMakerNeo.Ota.JobRounds`: what is known of the current job in a fetch round

A fetch round requests one document after the other and keeps the best job so far in the current
job. It leaves this job alone while it waits, and an error keeps it for the one recovery that leads
back into the round. The same holds of the job that is executed.

A `Watch` is anything one may want to know of the current job there. `Watch.runOnce_kept` and
`Watch.step_kept` carry it through all runs. They ask for what a watch depends on: a new list of
jobs, an id that is taken from the queue, and a document that is examined.
-/

set_option autoImplicit false

namespace RainMakerNeo.Ota.Jobs

open RainMakerNeo.Lib
open RainMakerNeo.Ota.Status (EspError JobStatus StatusEnv UpdateRequest ResponsePayload
  jobIdMaxLength)

/-! ### What stays -/

/-- The states in which something is known of the current job. -/
def JobState.owes : JobState → Bool
  | .fetchingJobDoc | .waitingForJobDoc | .jobDocReceived | .jobExecution
  | .customJobExecution => true
  | _ => false

/-- The fields of the current job that come from a document stay, and so does the round. -/
structure SameJob (s t : Ctx) : Prop where
  jobId : t.currentJob.jobId = s.currentJob.jobId
  pending : t.currentJob.hasPendingJob = s.currentJob.hasPendingJob
  filetype : t.currentJob.filetype = s.currentJob.filetype
  filetypeHandler : t.currentJob.filetypeHandler = s.currentJob.filetypeHandler
  fwVersion : t.currentJob.fwVersion = s.currentJob.fwVersion
  otaData : t.currentJob.otaData = s.currentJob.otaData
  round : t.history.round = s.history.round

namespace SameJob

variable {s t u : Ctx}

/-- The job is its own. -/
theorem refl (s : Ctx) : SameJob s s := ⟨rfl, rfl, rfl, rfl, rfl, rfl, rfl⟩

/-- One step after the other. -/
theorem trans (h : SameJob s t) (h' : SameJob t u) : SameJob s u where
  jobId := h'.jobId.trans h.jobId
  pending := h'.pending.trans h.pending
  filetype := h'.filetype.trans h.filetype
  filetypeHandler := h'.filetypeHandler.trans h.filetypeHandler
  fwVersion := h'.fwVersion.trans h.fwVersion
  otaData := h'.otaData.trans h.otaData
  round := h'.round.trans h.round

/-- The whole current job may stay. -/
theorem of_eq (hjob : t.currentJob = s.currentJob) (hround : t.history.round = s.history.round) :
    SameJob s t := by
  refine ⟨?_, ?_, ?_, ?_, ?_, ?_, hround⟩ <;> rw [hjob]

end SameJob

/-- The ids that are still to be requested stay as well. -/
structure SameRound (s t : Ctx) : Prop extends SameJob s t where
  jobIdQueue : t.jobIdQueue = s.jobIdQueue

namespace SameRound

variable {s t u : Ctx}

/-- The round is its own. -/
theorem refl (s : Ctx) : SameRound s s := ⟨.refl s, rfl⟩

/-- One step after the other. -/
theorem trans (h : SameRound s t) (h' : SameRound t u) : SameRound s u :=
  ⟨h.toSameJob.trans h'.toSameJob, h'.jobIdQueue.trans h.jobIdQueue⟩

/-- The whole current job and the queue of ids may stay. -/
theorem of_eq (hjob : t.currentJob = s.currentJob) (hround : t.history.round = s.history.round)
    (hqueue : t.jobIdQueue = s.jobIdQueue) : SameRound s t :=
  ⟨.of_eq hjob hround, hqueue⟩

/-- Other events and errors do not touch the round. -/
theorem of_core (h : t.core = s.core) : SameRound s t := by
  have hjob : t.core.currentJob = s.core.currentJob := by rw [h]
  have hround : t.core.history.round = s.core.history.round := by rw [h]
  have hqueue : t.core.jobIdQueue = s.core.jobIdQueue := by rw [h]
  exact .of_eq hjob hround hqueue

end SameRound

namespace Ctx

variable (s : Ctx) (env : Env)

/-- A report writes the status of the job, which is no field of a document. -/
theorem otaJobsPublish_sameRound (status : JobStatus) (details : StatusDetails) (encoded : Bool)
    (senv : StatusEnv) : SameRound s (s.otaJobsPublish status details encoded senv).2 :=
  ⟨⟨rfl, rfl, rfl, rfl, rfl, rfl, rfl⟩, rfl⟩

/-- A response belongs to the status manager. -/
theorem onUpdateResponse_sameRound (request : UpdateRequest)
    (payload : ResponsePayload) (accepted : Bool) (senv : StatusEnv) (posted : Bool) :
    SameRound s (s.onUpdateResponse request payload accepted senv posted) := by
  simp only [onUpdateResponse]
  split
  · exact .of_eq rfl rfl rfl
  · simp only [attributeResponse, postEvent]
    split_ifs <;> exact ⟨⟨rfl, rfl, rfl, rfl, rfl, rfl, rfl⟩, rfl⟩

/-- A new list begins a round without a selected document. -/
theorem pendingJobsToJobIdQueue_pending (payload : PendingJobs)
    (h : (s.pendingJobsToJobIdQueue payload).1 = .none) :
    (s.pendingJobsToJobIdQueue payload).2.currentJob.hasPendingJob = false := by
  rw [pendingJobsToJobIdQueue] at h ⊢
  split
  · rfl
  · rename_i hinvalid
    rw [if_neg hinvalid] at h
    cases h

/-- The reset of the backoff does not touch the list that is parsed after it. -/
theorem retryResetBackoff_pendingJobs (payload : PendingJobs) :
    SameRound (s.pendingJobsToJobIdQueue payload).2
      (s.retryResetBackoff.pendingJobsToJobIdQueue payload).2 := by
  rw [pendingJobsToJobIdQueue, pendingJobsToJobIdQueue]
  split
  · exact .of_eq rfl rfl rfl
  · exact .of_eq rfl rfl rfl

/-- Nor the outcome of the parse. -/
theorem retryResetBackoff_pendingJobs_error (payload : PendingJobs) :
    (s.retryResetBackoff.pendingJobsToJobIdQueue payload).1 =
      (s.pendingJobsToJobIdQueue payload).1 := by
  rw [pendingJobsToJobIdQueue, pendingJobsToJobIdQueue]
  split <;> rfl

end Ctx

/-! ### Watches -/

/-- Something to know of the current job: while documents are fetched, while the selected job is
executed, and while a custom job is. It depends on nothing that stays in `SameRound`. -/
structure Watch where
  fetching : Ctx → Prop
  selected : Ctx → Prop
  custom : Ctx → Prop
  fetching_same : ∀ {s t : Ctx}, SameRound s t → fetching s → fetching t
  selected_same : ∀ {s t : Ctx}, SameRound s t → selected s → selected t
  custom_same : ∀ {s t : Ctx}, SameRound s t → custom s → custom t
  /-- A round ends when no id is left. -/
  selected_of_end : ∀ {s : Ctx}, fetching s → s.jobIdQueue = [] →
    s.currentJob.hasPendingJob = true → selected s

namespace Watch

/-- What is known in a state. -/
def Held (k : Watch) (state : JobState) (s : Ctx) : Prop :=
  match state with
  | .fetchingJobDoc | .waitingForJobDoc | .jobDocReceived => k.fetching s
  | .jobExecution => k.selected s
  | .customJobExecution => k.custom s
  | _ => True

/-- What a handler leaves: what is known in the next state, and in the one that a recovery leads
to. A recovery to such a state is only kept in `ERROR`. -/
structure Leaves (k : Watch) (r : Ctx × JobState) : Prop where
  next : k.Held r.2 r.1
  recovery : k.Held r.1.recovery.state r.1
  error : r.1.recovery.state.owes = true → r.2 = .error

/-- What is known between the runs. -/
def Kept (k : Watch) (s : Ctx) : Prop := k.Leaves (s, s.state)

end Watch

/-- What is known in a state stays known. -/
theorem SameRound.held {k : Watch} {state : JobState} {s t : Ctx} (h : SameRound s t)
    (hs : k.Held state s) : k.Held state t := by
  cases state with
  | fetchingJobDoc | waitingForJobDoc | jobDocReceived => exact k.fetching_same h hs
  | jobExecution => exact k.selected_same h hs
  | customJobExecution => exact k.custom_same h hs
  | _ => trivial

namespace Watch

variable {k : Watch} {state : JobState} {s t : Ctx}

/-- In the other states nothing is owed. -/
theorem Held.of_not (h : state.owes = false) : k.Held state s := by
  cases state with
  | fetchingJobDoc | waitingForJobDoc | jobDocReceived | jobExecution | customJobExecution =>
    cases h
  | _ => trivial

/-- What a handler leaves is kept until the next turn. -/
theorem Leaves.kept {r : Ctx × JobState} (h : k.Leaves r) : k.Kept { r.1 with state := r.2 } := by
  have hsame : SameRound r.1 { r.1 with state := r.2 } := .of_eq rfl rfl rfl
  exact ⟨hsame.held h.next, hsame.held h.recovery, h.error⟩

/-- At first nothing is owed. -/
theorem Kept.initial : k.Kept {} := ⟨trivial, trivial, nofun⟩

/-- Outside `ERROR`, no recovery leads back into the round. -/
theorem Kept.quiet (h : k.Kept s) (hne : s.state ≠ .error) : s.recovery.state.owes = false := by
  rw [← Bool.not_eq_true]
  intro howes
  exact hne (h.error howes)

/-- A task that leaves the state and the current job alone. -/
theorem Kept.of_same (h : k.Kept s) (hsame : SameRound s t) (hstate : t.state = s.state)
    (hrecovery : t.recovery = s.recovery ∨ t.recovery.state.owes = false) : k.Kept t where
  next := by
    show k.Held t.state t
    rw [hstate]
    exact hsame.held h.next
  recovery := by
    rcases hrecovery with heq | hnot
    · show k.Held t.recovery.state t
      rw [heq]
      exact hsame.held h.recovery
    · exact Held.of_not hnot
  error := by
    intro howes
    rcases hrecovery with heq | hnot
    · exact hstate.trans (h.error (heq ▸ howes))
    · exact absurd (hnot.symm.trans howes) (by decide)
end Watch

/-! ### The shared helpers -/

/-- No reason recovers into the round or into a job. -/
theorem ErrorReason.recovery_owes (error : ErrorReason) :
    error.recovery.state.owes = false := by
  cases error <;> rfl

namespace Ctx

variable {k : Watch} {s : Ctx} (env : Env)

variable {next : JobState}

/-- Without a recovery into the round, only the next state counts. -/
theorem leaves (hr : s.recovery.state.owes = false) (h : k.Held next s) : k.Leaves (s, next) where
  next := h
  recovery := .of_not hr
  error := fun howes => absurd (hr.symm.trans howes) (by decide)

/-- `enter_error_state` plans a recovery outside the round. -/
theorem enterErrorState_leaves (error : ErrorReason) (h : k.Held next s) :
    k.Leaves (s.enterErrorState env error, next) := by
  refine leaves ?_ ((SameRound.of_core (s.enterErrorState_core env error)).held h)
  rw [enterErrorState_recovery]
  exact error.recovery_owes

/-- A transition takes along what is known. -/
theorem moveTo_leaves (hr : s.recovery.state.owes = false) (e : Event) (h : k.Held next s) :
    k.Leaves (s.moveTo env e next) := by
  rw [moveTo]
  split
  · have henqueued : SameRound s (s.enqueue e) := .of_eq rfl rfl rfl
    exact leaves (s := s.enqueue e) hr (henqueued.held h)
  · exact enterErrorState_leaves env .retryWithBackoff trivial

/-- So does the response timer. -/
theorem startResponseTimer_leaves (hr : s.recovery.state.owes = false) (h : k.Held next s) :
    k.Leaves (s.startResponseTimer env, next) := by
  rw [startResponseTimer]
  split
  · exact leaves hr h
  · exact enterErrorState_leaves env .timeoutHandlerRestartFailed h

/-- The event is kept for a state, and what that state is owed is known. -/
theorem enterErrorStateCustom_leaves (error : ErrorReason) {state : JobState} (e : Event)
    (h : k.Held state s) : k.Leaves (s.enterErrorStateCustom env error state e, .error) where
  next := trivial
  recovery := by
    rw [enterErrorStateCustom_recovery]
    exact (SameRound.of_core (s.enterErrorStateCustom_core env error state e)).held h
  error := fun _ => rfl

/-- A send that is tried again keeps what its state is owed. -/
theorem afterSend_leaves (err : EspError) {recovery : JobState} (e : Event)
    {next : Ctx × JobState} (h : k.Held recovery s) (hnext : k.Leaves next) :
    k.Leaves (s.afterSend env err recovery e next) := by
  rw [afterSend]
  split
  · exact enterErrorState_leaves env .fatalUnexpectedFormat trivial
  · split
    · exact enterErrorStateCustom_leaves env .retryWithBackoff e h
    · exact hnext

variable (hr : s.recovery.state.owes = false)
include hr

/-- A list with jobs begins a round. -/
theorem afterPendingJobs_leaves (error : ErrorReason) (h : error = .none → k.fetching s) :
    k.Leaves (s.afterPendingJobs env error) := by
  unfold afterPendingJobs
  split
  · exact moveTo_leaves env hr _ (h rfl)
  · exact leaves hr trivial
  · exact enterErrorState_leaves env _ trivial

/-- A document without an error goes on with the round. -/
theorem jobDocEnd_leaves (error : ErrorReason) (h : error = .none → k.fetching s) :
    k.Leaves (s.jobDocEnd env error) := by
  rw [jobDocEnd]
  split
  · exact enterErrorState_leaves env error trivial
  · rename_i hnone
    exact moveTo_leaves env hr _ (h (not_not.mp hnone))

/-- A rejected document leaves the selected one. -/
theorem jobDocReject_leaves (e : Event) (jobId : CStr) (version : Int32) (reason : String)
    (h : k.fetching s) : k.Leaves (s.jobDocReject env e jobId version reason) := by
  simp only [jobDocReject]
  split
  · apply jobDocEnd_leaves
    · exact hr
    · simp
  · split
    · apply jobDocEnd_leaves
      · exact hr
      · simp
    · split
      · apply enterErrorStateCustom_leaves
        exact k.fetching_same (s := s) (.of_eq rfl rfl rfl) h
      · apply jobDocEnd_leaves
        · exact hr
        · exact fun _ => k.fetching_same (s := s) (.of_eq rfl rfl rfl) h

/-- Another format is a custom job, or rejected. -/
theorem jobDocInvalidFormat_leaves {cfg : Config} (e : Event) (doc : JobDoc) (version : Int32)
    (reason : String) (hcustom : cfg.customJobCb = true → k.custom (s.startCustomJob doc))
    (hreject : cfg.customJobCb = false → k.fetching s) :
    k.Leaves (s.jobDocInvalidFormat cfg env e doc version reason) := by
  rw [jobDocInvalidFormat]
  split
  · rename_i hcb
    apply moveTo_leaves
    · exact hr
    · exact hcustom hcb
  · rename_i hcb
    exact jobDocReject_leaves env hr e _ _ _ (hreject (Bool.not_eq_true _ ▸ hcb))

end Ctx

/-! ### The handlers -/

section
variable {cfg : Config} {k : Watch} {s : Ctx} (env : Env) (e : Event)

variable (hr : s.recovery.state.owes = false)
include hr

/-- A state that does not lead into the round or to a job leaves nothing owed. -/
theorem handleState_leaves (hne : s.state ≠ .error)
    (h : ∀ next ∈ Events.successors s.state, next.owes = false) :
    k.Leaves (handleState cfg env s e) := by
  obtain ⟨hnext, hrecovery⟩ : (handleState cfg env s e).2.owes = false ∧
      (handleState cfg env s e).1.recovery.state.owes = false :=
    Events.handleState_states (p := fun state => state.owes = false) hne h hr
  exact ⟨.of_not hnext, .of_not hrecovery,
    fun howes => absurd (hrecovery.symm.trans howes) (by decide)⟩

/-- A new list is parsed as in `pending_jobs_to_job_id_queue`. -/
theorem handleStateJobsChanged_leaves
    (hlist : ∀ payload, e = .jobsChanged (some payload) →
      (s.pendingJobsToJobIdQueue payload).1 = .none →
        k.fetching (s.pendingJobsToJobIdQueue payload).2) :
    k.Leaves (handleStateJobsChanged env s e) := by
  unfold handleStateJobsChanged
  split
  · exact Ctx.leaves hr trivial
  · rename_i payload
    have hparsed : (s.pendingJobsToJobIdQueue payload).2.recovery.state.owes = false := by
      rw [Ctx.pendingJobsToJobIdQueue_recovery]
      exact hr
    exact Ctx.afterPendingJobs_leaves env hparsed _ (hlist payload rfl)
  · exact Ctx.leaves hr trivial

/-- A list that comes begins the round. -/
theorem handleStatePendingJobsReceived_leaves
    (hlist : ∀ payload, e = .pendingJobsAccepted (some payload) →
      (s.pendingJobsToJobIdQueue payload).1 = .none →
        k.fetching (s.pendingJobsToJobIdQueue payload).2) :
    k.Leaves (handleStatePendingJobsReceived env s e) := by
  unfold handleStatePendingJobsReceived
  split
  · exact Ctx.enterErrorState_leaves env .getPendingInvalidFormat trivial
  · rename_i payload
    have hparsed : (s.retryResetBackoff.pendingJobsToJobIdQueue payload).2.recovery.state.owes =
        false := by
      rw [Ctx.pendingJobsToJobIdQueue_recovery]
      exact hr
    apply Ctx.afterPendingJobs_leaves env hparsed
    intro (hnone : (s.retryResetBackoff.pendingJobsToJobIdQueue payload).1 = .none)
    rw [Ctx.retryResetBackoff_pendingJobs_error] at hnone
    exact k.fetching_same (s.retryResetBackoff_pendingJobs payload) (hlist payload rfl hnone)
  · exact Ctx.leaves hr trivial

/-- The next id is taken from the queue. A job begins when no id is left. -/
theorem handleStateFetchingJobDoc_leaves (hstay : e ≠ .emptyTransition → k.fetching s)
    (hend : e = .emptyTransition → s.jobIdQueue = [] → k.fetching s)
    (htaken : e = .emptyTransition → ∀ jobId rest, s.jobIdQueue = jobId :: rest →
      k.fetching { s with jobIdQueue := rest }) : k.Leaves (handleStateFetchingJobDoc env s e) := by
  simp only [handleStateFetchingJobDoc]
  split
  · rename_i hne
    exact Ctx.leaves hr (hstay hne)
  · rename_i he
    rw [not_not] at he
    split
    · rename_i hnil
      have hfetching := hend he hnil
      split
      · rename_i hpending
        have hbegun : SameRound s s.beginJob := .of_eq rfl rfl rfl
        apply Ctx.moveTo_leaves
        · exact hr
        · exact k.selected_same hbegun (k.selected_of_end hfetching hnil hpending)
      · exact Ctx.leaves hr trivial
    · rename_i jobId rest hcons
      have hfetching := htaken he jobId rest hcons
      split
      · apply Ctx.startResponseTimer_leaves
        · exact hr
        · exact hfetching
      · apply Ctx.enterErrorState_leaves
        exact hfetching

/-- The wait for a document keeps what is known. -/
theorem handleStateWaitingForJobDoc_leaves (h : k.Held .waitingForJobDoc s) :
    k.Leaves (handleStateWaitingForJobDoc env s e) := by
  unfold handleStateWaitingForJobDoc
  split
  · exact Ctx.moveTo_leaves env hr _ h
  · exact Ctx.enterErrorState_leaves env .describeJobRejected h
  · exact Ctx.enterErrorState_leaves env .retryWithBackoff h
  · exact Ctx.leaves hr h

/-- What a document changes is for the caller to show. -/
theorem handleStateJobDocReceived_leaves {cfg : Config}
    (h : (∀ doc, e ≠ .jobDocAccepted (some doc)) → k.fetching s)
    (hdoc : ∀ doc, e = .jobDocAccepted (some doc) →
      k.Leaves (s.retryResetBackoff.examineJobDoc cfg env e doc)) :
    k.Leaves (handleStateJobDocReceived cfg env s e) := by
  have hreset : SameRound s s.retryResetBackoff := .of_eq rfl rfl rfl
  unfold handleStateJobDocReceived
  split
  · apply Ctx.jobDocEnd_leaves
    · exact hr
    · intro _
      exact k.fetching_same hreset (h fun doc hne => by cases hne)
  · rename_i doc
    exact hdoc doc rfl
  · rename_i hother
    exact Ctx.leaves hr (h fun doc he => hother doc he)

/-- A custom job stays until it ends. -/
theorem handleStateCustomJobExecution_leaves (h : k.Held .customJobExecution s) :
    k.Leaves (handleStateCustomJobExecution env s e) := by
  unfold handleStateCustomJobExecution
  split
  · split
    · exact Ctx.leaves hr h
    · exact Ctx.moveTo_leaves env hr _ h
  · rename_i report details
    have hsame : SameRound s (s.otaJobsPublishWithString report.status details env.send).2 :=
      ⟨⟨rfl, rfl, rfl, rfl, rfl, rfl, rfl⟩, rfl⟩
    have hsent := hsame.held h
    exact Ctx.afterSend_leaves env _ _ hsent (Ctx.leaves (by exact hr) hsent)
  · split
    · exact Ctx.leaves hr h
    · split
      · exact Ctx.leaves hr h
      · apply Ctx.moveTo_leaves
        · exact hr
        · trivial
  · exact Ctx.leaves hr h

/-- A selected job stays until its image is there. -/
theorem handleStateJobExecution_leaves (h : k.Held .jobExecution s) :
    k.Leaves (handleStateJobExecution env s e) := by
  unfold handleStateJobExecution
  split
  · -- The first run publishes, and it writes none of the fields.
    have hsame : SameRound s ((s.setJob fun job => { job with
        hasActiveJob := true, shouldReboot := false, finalStatusReported := false,
        finalStatusQueued := false }).otaJobsPublish .inProgress
          (.inProgress 0 (UInt32.ofNat s.currentJob.otaData.filesize)) env.detailsEncoded
          env.send).2 := ⟨⟨rfl, rfl, rfl, rfl, rfl, rfl, rfl⟩, rfl⟩
    simp only [Ctx.startDownload]
    split
    · exact Ctx.leaves (by exact hr) (hsame.held h)
    · exact Ctx.moveTo_leaves env (by exact hr) _ trivial
  · cases e with
    | imageDownloadProgress downloaded =>
      exact Ctx.leaves (by exact hr) ((s.otaJobsPublish_sameRound _ _ _ _).held h)
    | imageDownloadSucceeded => exact Ctx.moveTo_leaves env (by exact hr) _ trivial
    | timeout => exact Ctx.enterErrorState_leaves env .retryWithBackoff h
    | imageDownloadFailed failure => exact Ctx.moveTo_leaves env hr _ trivial
    | finalStatusReportRequested details =>
      have hsame : SameRound s (s.setJob fun job =>
        { job with currentStatusDetails := details, finalStatusQueued := true }) :=
        ⟨⟨rfl, rfl, rfl, rfl, rfl, rfl, rfl⟩, rfl⟩
      exact Ctx.leaves (by exact hr) (hsame.held h)
    | _ => exact Ctx.leaves hr h

omit hr in
/-- `ERROR` keeps what the recovery is owed, and the recovery leads there. -/
theorem handleStateError_leaves (h : k.Held s.recovery.state s) :
    k.Leaves (handleStateError env s e) := by
  unfold handleStateError
  split
  · have hsame : SameRound s (s.errorOccurred env) := by
      rw [Ctx.errorOccurred]
      split
      · exact ⟨⟨rfl, rfl, rfl, rfl, rfl, rfl, rfl⟩, rfl⟩
      · exact .refl s
    have hrecovery : (s.errorOccurred env).recovery = s.recovery := by
      rw [Ctx.errorOccurred]
      split <;> rfl
    refine ⟨trivial, ?_, fun _ => rfl⟩
    rw [show (s.errorOccurred env, JobState.error).1.recovery = s.recovery from hrecovery]
    exact hsame.held h
  · simp only [Ctx.recoveryRequested]
    split
    · have hleft : SameRound s (({ s with
          recovery := { s.recovery with eventData := none } }.enqueue
            (s.recovery.eventData.getD s.recovery.event)).recoveryResetContext) := .of_eq rfl rfl rfl
      refine ⟨hleft.held h, trivial, ?_⟩
      intro howes
      cases howes
    · have hkept : SameRound s ({ s with
          recovery := { s.recovery with eventData := none } }.backoffRetry env.backoffScheduled) :=
        .of_eq rfl rfl rfl
      exact ⟨trivial, hkept.held h, fun _ => rfl⟩
  · exact ⟨trivial, h, fun _ => rfl⟩

end

/-! ### Rounds -/

/-- The list of pending jobs that a run parses. -/
def Ctx.newList (s : Ctx) (e : Event) : Option PendingJobs :=
  match s.state, e with
  | .jobsChanged, .jobsChanged payload => payload
  | .pendingJobsReceived, .pendingJobsAccepted payload => payload
  | _, _ => none

/-- The document that a run examines. -/
def Ctx.newDoc (s : Ctx) (e : Event) : Option JobDoc :=
  match s.state, e with
  | .jobDocReceived, .jobDocAccepted doc => doc
  | _, _ => none

/-- The document comes with its event, in the state that examines it. -/
theorem Ctx.newDoc_eq_some {s : Ctx} {e : Event} {doc : JobDoc} (h : s.newDoc e = some doc) :
    s.state = .jobDocReceived ∧ e = .jobDocAccepted (some doc) := by
  rw [newDoc.eq_def] at h
  split at h
  · rename_i hstate
    exact ⟨hstate, by rw [h]⟩
  · cases h

/-- A run that asks for the next document. -/
def Ctx.takesId (s : Ctx) (e : Event) : Bool :=
  s.state = .fetchingJobDoc && e = .emptyTransition

/-- What is known under `k` becomes what is known under `k'` in a run. In all other runs, the two
are one. -/
structure Watch.Passes (cfg : Config) (env : Env) (k k' : Watch) (s : Ctx) (e : Event) : Prop where
  same : s.newList e = none → s.newDoc e = none → s.takesId e = false → k' = k
  list : ∀ payload, s.newList e = some payload → (s.pendingJobsToJobIdQueue payload).1 = .none →
    k'.fetching (s.pendingJobsToJobIdQueue payload).2
  ended : s.takesId e = true → k.fetching s → s.jobIdQueue = [] → k'.fetching s
  taken : s.takesId e = true → k.fetching s → ∀ jobId rest, s.jobIdQueue = jobId :: rest →
    k'.fetching { s with jobIdQueue := rest }
  doc : ∀ doc, s.newDoc e = some doc → k.fetching s → s.recovery.state.owes = false →
    k'.Leaves (s.retryResetBackoff.examineJobDoc cfg env e doc)

section
variable {cfg : Config} {env : Env} {k k' : Watch} {s t : Ctx} {e : Event}

/-- One run of the machine. -/
theorem Watch.runOnce_kept (hs : k.Kept s) (h : Passes cfg env k k' s e) :
    k'.Kept (runOnce cfg env s e) := by
  have hnext : k.Held s.state s := hs.next
  simp only [runOnce]
  split
  · rename_i he
    have hsame : k' = k := by
      subst he
      apply h.same
      · rw [Ctx.newList.eq_def]
        split <;> simp_all
      · rw [Ctx.newDoc.eq_def]
        split <;> simp_all
      · simp [Ctx.takesId]
    subst hsame
    have hleft : SameRound s { s with state := .error } := .of_eq rfl rfl rfl
    have herror : k'.Held s.recovery.state { s with state := .error } := hleft.held hs.recovery
    exact (handleStateError_leaves (s := { s with state := .error }) env e herror).kept
  · by_cases haway : s.state ≠ .error ∧ ∀ next ∈ Events.successors s.state, next.owes = false
    · exact (handleState_leaves env e (hs.quiet haway.1) haway.1 haway.2).kept
    simp only [handleState]
    cases hstate : s.state with
    | uninitialized | networkInit | rebootCheck | idle | fetchingPendingJobs
    | waitingForPendingJobs | postDownload =>
      rw [hstate] at haway
      exact absurd (by decide) haway
    | jobsChanged =>
      refine (handleStateJobsChanged_leaves env e (hs.quiet (by rw [hstate]; decide)) ?_).kept
      intro payload he
      exact h.list payload (by simp [Ctx.newList, hstate, he])
    | pendingJobsReceived =>
      refine (handleStatePendingJobsReceived_leaves env e
        (hs.quiet (by rw [hstate]; decide)) ?_).kept
      intro payload he
      exact h.list payload (by simp [Ctx.newList, hstate, he])
    | fetchingJobDoc =>
      have hfetching : k.fetching s := by
        rw [hstate] at hnext
        exact hnext
      refine (handleStateFetchingJobDoc_leaves env e (hs.quiet (by rw [hstate]; decide))
        ?_ ?_ ?_).kept
      · intro hne
        rw [h.same (by simp [Ctx.newList, hstate]) (by simp [Ctx.newDoc, hstate])
          (by simp [Ctx.takesId, hne])]
        exact hfetching
      · intro he
        exact h.ended (by simp [Ctx.takesId, hstate, he]) hfetching
      · intro he
        exact h.taken (by simp [Ctx.takesId, hstate, he]) hfetching
    | waitingForJobDoc =>
      rw [h.same (by simp [Ctx.newList, hstate]) (by simp [Ctx.newDoc, hstate])
        (by simp [Ctx.takesId, hstate])]
      exact (handleStateWaitingForJobDoc_leaves env e (hs.quiet (by rw [hstate]; decide))
        (hstate ▸ hnext)).kept
    | jobDocReceived =>
      have hfetching : k.fetching s := by
        rw [hstate] at hnext
        exact hnext
      have hquiet := hs.quiet (by rw [hstate]; decide)
      refine (handleStateJobDocReceived_leaves env e hquiet ?_ ?_).kept
      · intro hother
        have hnone : s.newDoc e = none := by
          cases hdoc : s.newDoc e with
          | none => rfl
          | some doc => exact absurd (Ctx.newDoc_eq_some hdoc).2 (hother doc)
        rw [h.same (by simp [Ctx.newList, hstate]) hnone (by simp [Ctx.takesId, hstate])]
        exact hfetching
      · intro doc he
        exact h.doc doc (by simp [Ctx.newDoc, hstate, he]) hfetching hquiet
    | jobExecution =>
      rw [h.same (by simp [Ctx.newList, hstate]) (by simp [Ctx.newDoc, hstate])
        (by simp [Ctx.takesId, hstate])]
      exact (handleStateJobExecution_leaves env e (hs.quiet (by rw [hstate]; decide))
        (hstate ▸ hnext)).kept
    | customJobExecution =>
      rw [h.same (by simp [Ctx.newList, hstate]) (by simp [Ctx.newDoc, hstate])
        (by simp [Ctx.takesId, hstate])]
      exact (handleStateCustomJobExecution_leaves env e (hs.quiet (by rw [hstate]; decide))
        (hstate ▸ hnext)).kept
    | error =>
      rw [h.same (by simp [Ctx.newList, hstate]) (by simp [Ctx.newDoc, hstate])
        (by simp [Ctx.takesId, hstate])]
      exact (handleStateError_leaves env e hs.recovery).kept

/-- What another task does between the runs. -/
theorem Watch.other_kept {a : Action} (hs : k.Kept s) (ht : step cfg s a = some t)
    (hother : ∀ env, a ≠ .run env) : k.Kept t := by
  cases a with
  | run env => exact absurd rfl (hother env)
  | post e posted =>
    rw [step] at ht
    split at ht
    · obtain rfl := Option.some.inj ht
      exact hs.of_same (.of_core (s.postEvent_core e posted)) (by simp) (.inl (by simp))
    · cases ht
  | response request accepted code versionNumber env posted =>
    rw [step] at ht
    split at ht
    · obtain rfl := Option.some.inj ht
      exact hs.of_same (s.onUpdateResponse_sameRound request _ accepted env posted) (by simp)
        (.inl (by simp))
    · cases ht
  | retryTimer ptr env =>
    rw [step] at ht
    split at ht
    · cases ht
    · obtain rfl := Option.some.inj ht
      exact hs.of_same (.of_eq rfl rfl rfl) rfl (.inl rfl)
  | backoffTimer posted scheduled =>
    rw [step] at ht
    split at ht
    · obtain rfl := Option.some.inj ht
      have hfired : SameRound s { s with errorRetryArmed := false } := .of_eq rfl rfl rfl
      have hrecovered := hfired.trans (.of_core (Ctx.recover_core _ posted))
      rw [Ctx.retryWithBackoffTask]
      dsimp only
      split
      · exact hs.of_same hrecovered (by simp) (.inl (by simp))
      · have hagain := hrecovered.trans
          (SameRound.of_eq (t := Ctx.backoffRetry _ scheduled) rfl rfl rfl)
        exact hs.of_same hagain (by simp [Ctx.backoffRetry]) (.inl (by simp [Ctx.backoffRetry]))
    · cases ht
  | requestRecovery posted =>
    obtain rfl := Option.some.inj ht
    exact hs.of_same (.of_core (s.recover_core posted)) (by simp) (.inl (by simp))
  | subscribed snapshotAllocated copied envs env =>
    obtain rfl := Option.some.inj ht
    have hresent : SameRound s { s with
        status := (s.status.resendPendingTerminals snapshotAllocated copied envs).1
        requests :=
          s.requests ++ (s.status.resendPendingTerminals snapshotAllocated copied envs).2 } :=
      .of_eq rfl rfl rfl
    simp only [Ctx.onSubscribed]
    split
    · exact hs.of_same (hresent.trans (.of_eq rfl rfl rfl)) rfl (.inl rfl)
    · refine hs.of_same (hresent.trans (.of_core (Ctx.enterErrorState_core _ env _)))
        (by simp) (.inr ?_)
      rw [Ctx.enterErrorState_recovery]
      rfl
  | reportStatus report details encoded env =>
    obtain rfl := Option.some.inj ht
    exact hs.of_same (s.otaJobsPublish_sameRound report.status details encoded env) rfl (.inl rfl)

/-- One step of the system. -/
theorem Watch.step_kept {a : Action} (hs : k.Kept s) (ht : step cfg s a = some t)
    (hrun : ∀ env e rest, a = .run env → s.queue = e :: rest →
      Passes cfg env k k' { s with queue := rest } e)
    (hother : (∀ env, a ≠ .run env) → k' = k) : k'.Kept t := by
  cases a with
  | run env =>
    rw [step] at ht
    split at ht
    · cases ht
    · rename_i e rest hqueue
      obtain rfl := Option.some.inj ht
      have htaken : k.Kept { s with queue := rest } :=
        hs.of_same (.of_eq rfl rfl rfl) rfl (.inl rfl)
      exact runOnce_kept htaken (hrun env e rest rfl hqueue)
  | post | response | retryTimer | backoffTimer | requestRecovery | subscribed | reportStatus =>
    rw [hother (fun _ h => by cases h)]
    exact other_kept hs ht (fun _ h => by cases h)

end

end RainMakerNeo.Ota.Jobs
