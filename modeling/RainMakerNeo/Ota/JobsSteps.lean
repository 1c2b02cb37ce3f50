import RainMakerNeo.Lib.Run
import RainMakerNeo.Ota.EventPaths
import RainMakerNeo.Ota.StatusRequests

/-!
# `RainMakerNeo.Ota.JobsSteps`: what the handlers do to the status manager

Most branches of the state handlers leave the status manager alone. The others send an update,
drop the entries of one job, or take a version over. `Serves` is what all of them have in common:
the entries only follow, and each message that goes out is issued by the status manager. It holds
of each handler, so of `runOnce`, and of each `step`. `traced` is the invariant that comes out of
it.
-/

set_option autoImplicit false

namespace RainMakerNeo.Ota.Jobs

open RainMakerNeo.Lib
open RainMakerNeo.Ota.Status (Cache EspError JobStatus StatusEnv UpdateRequest SendResult
  ResponsePayload Follows jobIdMaxLength)

/-! ### The error helpers -/

namespace Ctx

/-- The context without its events, its errors and the plan of the recovery. -/
def core (s : Ctx) : Ctx :=
  { s with
    lastError := .none, recovery := {}, queue := [], errorRetryArmed := false
    history := { s.history with errors := [] } }

/-- The state is no part of the errors. -/
theorem state_of_core {s t : Ctx} (h : t.core = s.core) : t.state = s.state := by
  have hstate : t.core.state = s.core.state := by rw [h]
  exact hstate

variable (s : Ctx) (env : Env)

/-- An event only goes into the queue. -/
theorem postEvent_core (e : Event) (posted : Bool) : (s.postEvent e posted).core = s.core := by
  rw [postEvent]
  split <;> rfl

/-- The event of an error comes with a timer for the retry. -/
theorem postErrorEvent_core (error : ErrorReason) :
    (s.postErrorEvent env error).core = s.core := by
  have hposted := postEvent_core { s with lastError := error } .errorOccurred env.errorPosted
  simp only [postErrorEvent]
  split
  · exact hposted
  · exact hposted

/-- `enter_error_state` notes the error, plans the recovery and posts the event. -/
theorem enterErrorState_core (error : ErrorReason) :
    (s.enterErrorState env error).core = s.core :=
  postErrorEvent_core _ env error

/-- So does the error whose recovery the caller names. -/
theorem enterErrorStateCustom_core (error : ErrorReason) (state : JobState) (e : Event) :
    (s.enterErrorStateCustom env error state e).core = s.core :=
  postErrorEvent_core _ env error

/-- A transition is an event, or the error that there was no room for it. -/
theorem moveTo_core (e : Event) (next : JobState) : (s.moveTo env e next).1.core = s.core := by
  rw [moveTo]
  split
  · rfl
  · exact s.enterErrorState_core env .retryWithBackoff

/-- A request to recover is an event. -/
theorem recover_core (posted : Bool) : (s.recover posted).2.core = s.core := by
  rw [recover]
  split
  · rfl
  · exact s.postEvent_core .recoveryRequested posted

end Ctx

/-! ### Served updates -/

/-- Between `s` and `t`, the status manager only follows, and what goes out is issued by it. -/
structure Serves (s t : Ctx) : Prop where
  follows : Follows s.status t.status
  requests : s.status.WF → ∀ r ∈ t.requests, r ∈ s.requests ∨ t.status.Issued r

namespace Serves

variable {s t u : Ctx}

/-- A branch that leaves the status manager and the messages alone. -/
theorem of_eq (hstatus : t.status = s.status) (hrequests : t.requests = s.requests) :
    Serves s t where
  follows := hstatus ▸ Follows.refl s.status
  requests := fun _ _ hr => .inl (hrequests ▸ hr)

/-- A branch with other events and errors only. -/
theorem of_core (h : t.core = s.core) : Serves s t := by
  have hstatus : t.core.status = s.core.status := by rw [h]
  have hrequests : t.core.requests = s.core.requests := by rw [h]
  exact of_eq hstatus hrequests

/-- A branch that does nothing serves. -/
theorem refl (s : Ctx) : Serves s s := of_eq rfl rfl

/-- One branch after the other serves. -/
theorem trans (h : Serves s t) (h' : Serves t u) : Serves s u where
  follows := h.follows.trans h'.follows
  requests := by
    intro hwf r hr
    cases h'.requests (h.follows.wf hwf) r hr with
    | inl hold =>
      cases h.requests hwf r hold with
      | inl hold => exact .inl hold
      | inr hissued => exact .inr (hissued.follow h'.follows)
    | inr hissued => exact .inr hissued

/-- A change of the status manager without a message. -/
theorem of_follows (hfollows : Follows s.status t.status) (hrequests : t.requests = s.requests) :
    Serves s t where
  follows := hfollows
  requests := fun _ _ hr => .inl (hrequests ▸ hr)

/-- A change of the status manager with messages that it issues. -/
theorem of_issued {rs : List UpdateRequest} (hfollows : Follows s.status t.status)
    (hrequests : t.requests = s.requests ++ rs)
    (hissued : s.status.WF → ∀ r ∈ rs, t.status.Issued r) : Serves s t where
  follows := hfollows
  requests := by
    intro hwf r hr
    rw [hrequests] at hr
    cases List.mem_append.mp hr with
    | inl hold => exact .inl hold
    | inr hnew => exact .inr (hissued hwf r hnew)

end Serves

namespace Ctx

variable (s : Ctx) (env : Env)

/-! ### The shared helpers -/

/-- An event only goes into the queue. -/
theorem postEvent_serves (e : Event) (posted : Bool) : Serves s (s.postEvent e posted) :=
  .of_core (s.postEvent_core e posted)

/-- `enter_error_state` sends nothing: it plans the recovery and posts the error. -/
theorem enterErrorState_serves (error : ErrorReason) : Serves s (s.enterErrorState env error) :=
  .of_core (s.enterErrorState_core env error)

/-- Nor does an error whose recovery the caller names. -/
theorem enterErrorStateCustom_serves (error : ErrorReason) (state : JobState) (e : Event) :
    Serves s (s.enterErrorStateCustom env error state e) :=
  .of_core (s.enterErrorStateCustom_core env error state e)

/-- A transition sends nothing, with or without room for its event. -/
theorem moveTo_serves (e : Event) (next : JobState) : Serves s (s.moveTo env e next).1 :=
  .of_core (s.moveTo_core env e next)

/-- The response timer sends nothing. -/
theorem startResponseTimer_serves : Serves s (s.startResponseTimer env) := by
  rw [startResponseTimer]
  split
  · exact .refl s
  · exact s.enterErrorState_serves env _

/-- The end of a document sends nothing. -/
theorem jobDocEnd_serves (error : ErrorReason) : Serves s (s.jobDocEnd env error).1 := by
  rw [jobDocEnd]
  split
  · exact s.enterErrorState_serves env error
  · exact s.moveTo_serves env _ _

/-- Nor does the transition after a list of pending jobs. -/
theorem afterPendingJobs_serves (error : ErrorReason) :
    Serves s (s.afterPendingJobs env error).1 := by
  unfold afterPendingJobs
  split
  · exact s.moveTo_serves env _ _
  · exact .refl s
  · exact s.enterErrorState_serves env error

/-- The list of pending jobs only fills the queue of ids. -/
theorem pendingJobsToJobIdQueue_serves (payload : PendingJobs) :
    Serves s (s.pendingJobsToJobIdQueue payload).2 := by
  rw [pendingJobsToJobIdQueue]
  split
  · exact .of_eq rfl rfl
  · exact .refl s

/-- What follows a send keeps what the send and the next branch do. -/
theorem afterSend_serves (err : EspError) (recovery : JobState) (e : Event)
    {next : Ctx × JobState} (hnext : Serves s next.1) :
    Serves s (s.afterSend env err recovery e next).1 := by
  rw [afterSend]
  split
  · exact s.enterErrorState_serves env .fatalUnexpectedFormat
  · split
    · exact s.enterErrorStateCustom_serves env .retryWithBackoff recovery e
    · exact hnext

/-! ### Sends -/

/-- A send of the status manager serves. -/
theorem sent_serves {u : Status.StatusUpdate} {senv : StatusEnv} :
    Serves s (s.sent (s.status.otaStatusSend u senv)) :=
  .of_issued (s.status.otaStatusSend_grows u senv).follows rfl
    fun hwf _ hr => (Cache.otaStatusSend_issued hwf (Option.mem_toList.mp hr)).2.2

/-- A job id that is too long sends nothing. -/
theorem sent_publishUpdateJobStatus_serves (jobId : CStr) (status : JobStatus)
    (details : StatusDetails) (encoded : Bool) (senv : StatusEnv) :
    Serves s (s.sent (s.publishUpdateJobStatus jobId status details encoded senv)) := by
  rw [publishUpdateJobStatus]
  split
  · exact .of_eq rfl (List.append_nil _)
  · exact s.sent_serves

/-- A report is one send, after which the current job has its status. -/
theorem otaJobsPublish_serves (status : JobStatus) (details : StatusDetails) (encoded : Bool)
    (senv : StatusEnv) : Serves s (s.otaJobsPublish status details encoded senv).2 :=
  (s.sent_publishUpdateJobStatus_serves _ status details encoded senv).trans (.of_eq rfl rfl)

/-- The report of a custom job is one send. -/
theorem otaJobsPublishWithString_serves (status : JobStatus) (json : List Char)
    (senv : StatusEnv) : Serves s (s.otaJobsPublishWithString status json senv).2 :=
  s.sent_serves.trans (.of_eq rfl rfl)

/-- Only the details of a final status go out. -/
theorem publishFinalStatus_serves (details : StatusDetails) (encoded : Bool) (senv : StatusEnv) :
    Serves s (s.publishFinalStatus details encoded senv).2 := by
  rw [publishFinalStatus]
  split
  · exact .refl s
  · exact s.otaJobsPublish_serves _ details encoded senv

/-! ### The job before the reboot -/

/-- The fields of the current job are the state machine's own. -/
theorem setJob_serves (f : JobInfo → JobInfo) : Serves s (s.setJob f) := .of_eq rfl rfl

/-- So is the backoff. -/
theorem retryResetBackoff_serves : Serves s s.retryResetBackoff := .of_eq rfl rfl

/-- The job of the last boot brings its version, and no message. -/
theorem restoreLastJob_serves (last : LastJob) : Serves s (s.restoreLastJob env last).2 := by
  have hfollows := (s.status.setInitialExpectedVersion_grows last.jobId last.version
    env.versionAllocated).follows
  simp only [restoreLastJob]
  split
  · exact .refl s
  · split
    · exact .of_eq rfl rfl
    · split
      · exact .of_follows hfollows rfl
      · split
        · exact .of_follows hfollows rfl
        · split
          · exact .of_follows hfollows rfl
          · exact .of_follows hfollows rfl

/-- After the subscription, at most that job is restored. -/
theorem afterSubscribe_serves : Serves s (s.afterSubscribe env).1 := by
  rw [afterSubscribe]
  split
  · exact s.postEvent_serves _ _
  · rename_i last _
    have hrestored := s.restoreLastJob_serves env last
    dsimp only
    split
    · exact hrestored
    · exact hrestored.trans (postEvent_serves _ _ _)

/-- A rebooted job is dropped together with its entries. -/
theorem dropRebootedJob_serves : Serves s s.dropRebootedJob :=
  .of_follows (s.status.clearJobEntries_follows s.currentJob.jobId) rfl

/-! ### Documents and jobs -/

/-- A rejection starts the version of its job and sends one update. -/
theorem jobDocReject_serves (e : Event) (jobId : CStr) (version : Int32) (reason : String) :
    Serves s (s.jobDocReject env e jobId version reason).1 := by
  have hversion : Serves s { s with
      status := (s.status.setInitialExpectedVersion jobId version env.versionAllocated).2 } :=
    .of_follows (s.status.setInitialExpectedVersion_grows _ _ _).follows rfl
  simp only [jobDocReject]
  split
  · exact hversion.trans (jobDocEnd_serves _ env _)
  · have hsent := hversion.trans (sent_publishUpdateJobStatus_serves _ jobId .rejected
      (.rejected reason.toList) env.detailsEncoded env.send)
    split
    · exact hsent.trans (jobDocEnd_serves _ env _)
    · split
      · exact hsent.trans (enterErrorStateCustom_serves _ env .retryWithBackoff .jobDocReceived e)
      · exact hsent.trans (jobDocEnd_serves _ env _)

/-- A document in another format is a custom job, or is rejected. -/
theorem jobDocInvalidFormat_serves (cfg : Config) (e : Event) (doc : JobDoc) (version : Int32)
    (reason : String) : Serves s (s.jobDocInvalidFormat cfg env e doc version reason).1 := by
  have hstarted : Serves s (s.startCustomJob doc) := .of_eq rfl rfl
  rw [jobDocInvalidFormat]
  split
  · exact hstarted.trans (moveTo_serves _ env _ _)
  · exact s.jobDocReject_serves env e doc.jobId version reason

/-- A selected job is kept for later. -/
theorem selectJobDoc_serves (doc : JobDoc) (number : UInt32) (data : JobOtaData) :
    Serves s (s.selectJobDoc doc number data) := .of_eq rfl rfl

/-- Of the verdicts on the fields, only a rejection sends. -/
theorem examineFields_serves (cfg : Config) (e : Event) (doc : JobDoc) (version : Int32)
    (custom : CustomFields) : Serves s (s.examineFields cfg env e doc version custom).1 := by
  have hfiletype : Serves s (s.setJob fun job =>
      { job with filetype := copiedFiletype custom }) := s.setJob_serves _
  simp only [examineFields]
  split
  · exact hfiletype.trans (jobDocReject_serves _ env e _ _ _)
  · rename_i ft _
    have hhandler := hfiletype.trans (setJob_serves _ fun job =>
      { job with filetypeHandler := some ft })
    split
    · exact hhandler.trans (jobDocEnd_serves _ env _)
    · exact hhandler.trans (jobDocReject_serves _ env e _ _ _)
    · exact hhandler.trans (jobDocInvalidFormat_serves _ env cfg e _ _ _)
    · split
      · have hcleared := hhandler.trans (setJob_serves _ fun job => { job with otaData := {} })
        exact hcleared.trans (jobDocEnd_serves _ env _)
      · rename_i number _ _ _ data _
        have hselected := hhandler.trans (selectJobDoc_serves _ doc number data)
        exact hselected.trans (jobDocEnd_serves _ env _)

/-- A document is ignored, taken as another format, or examined. -/
theorem examineJobDoc_serves (cfg : Config) (e : Event) (doc : JobDoc) :
    Serves s (s.examineJobDoc cfg env e doc).1 := by
  have hround : Serves s { s with
      history := { s.history with round := doc :: s.history.round } } := .of_eq rfl rfl
  simp only [examineJobDoc]
  split
  · exact hround.trans (jobDocEnd_serves _ env _)
  · split
    · exact hround.trans (jobDocEnd_serves _ env _)
    · split
      · exact hround.trans (jobDocInvalidFormat_serves _ env cfg e doc _ _)
      · exact hround.trans (examineFields_serves _ env cfg e doc _ _)

/-- A download that starts sends the first progress. -/
theorem startDownload_serves : Serves s (s.startDownload env).1 := by
  simp only [startDownload]
  have hsent := (s.setJob_serves fun job => { job with
    hasActiveJob := true, shouldReboot := false, finalStatusReported := false,
    finalStatusQueued := false }).trans (otaJobsPublish_serves _ .inProgress
      (.inProgress 0 (UInt32.ofNat s.currentJob.otaData.filesize)) env.detailsEncoded env.send)
  split
  · exact hsent
  · exact hsent.trans (moveTo_serves _ env _ _)

/-- A job that ends without a reboot sends nothing more. -/
theorem finishDownload_serves : Serves s (s.finishDownload env).1 := by
  rw [finishDownload]
  split
  · exact .of_eq rfl rfl
  · split
    · have hreset : Serves s (s.setJob fun _ => {}).retryResetBackoff := .of_eq rfl rfl
      exact hreset.trans (moveTo_serves _ env _ _)
    · exact .refl s

/-- After the download, only a requested report is sent. -/
theorem postDownloadEvent_serves (e : Event) : Serves s (s.postDownloadEvent env e).1 := by
  unfold postDownloadEvent
  split
  · rename_i details
    have hsent := s.publishFinalStatus_serves details env.detailsEncoded env.send
    exact hsent.trans (afterSend_serves _ env _ _ _ (.of_eq rfl rfl))
  · exact .of_eq rfl rfl
  · split
    · exact .refl s
    · exact s.finishDownload_serves env
  · exact .refl s

/-- An error sends `failed` for a job that is active. -/
theorem errorOccurred_serves : Serves s (s.errorOccurred env) := by
  rw [errorOccurred]
  split
  · exact (s.otaJobsPublish_serves _ _ _ _).trans (setJob_serves _ _)
  · exact .refl s

/-- A recovery sends nothing. -/
theorem recoveryRequested_serves : Serves s (s.recoveryRequested env).1 := by
  simp only [recoveryRequested]
  split
  · exact .of_eq rfl rfl
  · exact .of_eq rfl rfl

end Ctx

/-! ### The handlers -/

section
variable (cfg : Config) (env : Env) (s : Ctx) (e : Event)

/-- The subscription, and the job of the last boot. -/
theorem handleStateNetworkInit_serves : Serves s (handleStateNetworkInit env s e).1 := by
  have hintended : Serves s { s with subIntended := true } := .of_eq rfl rfl
  simp only [handleStateNetworkInit]
  split
  · exact .refl s
  · split
    · exact s.afterSubscribe_serves env
    · split
      · exact hintended.trans (Ctx.afterSubscribe_serves _ env)
      · exact hintended.trans (Ctx.enterErrorState_serves _ env .subscriptionFailed)

/-- The outcome of the reboot is reported, and a job that is over is dropped. -/
theorem handleStateRebootCheck_serves : Serves s (handleStateRebootCheck env s e).1 := by
  unfold handleStateRebootCheck
  split
  · rename_i details
    have hsent := s.publishFinalStatus_serves details env.detailsEncoded env.send
    exact hsent.trans (Ctx.afterSend_serves _ env _ _ _ (.of_eq rfl rfl))
  · split
    · exact .refl s
    · dsimp only
      split
      · have hreported := s.setJob_serves fun job => { job with
          currentStatus := (rebootCheckReport env (env.statusFlags.getD (true, false)).2).1
          currentStatusDetails :=
            (rebootCheckReport env (env.statusFlags.getD (true, false)).2).2 }
        have hsent := hreported.trans (Ctx.otaJobsPublish_serves _
          (rebootCheckReport env (env.statusFlags.getD (true, false)).2).1
          (rebootCheckReport env (env.statusFlags.getD (true, false)).2).2
          env.detailsEncoded env.send)
        exact hsent.trans (Ctx.afterSend_serves _ env _ _ _ (.refl _))
      · exact .refl s
  · split
    · exact .refl s
    · dsimp only
      split
      · exact s.dropRebootedJob_serves
      · exact s.dropRebootedJob_serves.trans
          (Ctx.enterErrorState_serves _ env .fatalUnexpectedFormat)
  · exact s.dropRebootedJob_serves.trans (.of_eq rfl rfl)
  · exact .refl s

/-- Idle only moves on. -/
theorem handleStateIdle_serves : Serves s (handleStateIdle env s e).1 := by
  unfold handleStateIdle
  split
  · exact s.moveTo_serves env _ _
  · exact s.moveTo_serves env _ _
  · exact .refl s

/-- A notification brings a list of jobs. -/
theorem handleStateJobsChanged_serves : Serves s (handleStateJobsChanged env s e).1 := by
  unfold handleStateJobsChanged
  split
  · exact .refl s
  · exact (s.pendingJobsToJobIdQueue_serves _).trans (Ctx.afterPendingJobs_serves _ env _)
  · exact .refl s

/-- The request for the list is no message of the status manager. -/
theorem handleStateFetchingPendingJobs_serves :
    Serves s (handleStateFetchingPendingJobs env s e).1 := by
  rw [handleStateFetchingPendingJobs]
  split
  · exact .refl s
  · split
    · exact s.startResponseTimer_serves env
    · exact s.enterErrorState_serves env .retryWithBackoff

/-- Its answer, a rejection or a time-out only move on. -/
theorem handleStateWaitingForPendingJobs_serves :
    Serves s (handleStateWaitingForPendingJobs env s e).1 := by
  unfold handleStateWaitingForPendingJobs
  split
  · exact s.moveTo_serves env _ _
  · exact s.enterErrorState_serves env .getPendingRejected
  · exact s.enterErrorState_serves env .retryWithBackoff
  · exact .refl s

/-- The list fills the queue of ids. -/
theorem handleStatePendingJobsReceived_serves :
    Serves s (handleStatePendingJobsReceived env s e).1 := by
  unfold handleStatePendingJobsReceived
  split
  · exact s.enterErrorState_serves env .getPendingInvalidFormat
  · have hparsed := s.retryResetBackoff_serves.trans (Ctx.pendingJobsToJobIdQueue_serves _ ‹_›)
    exact hparsed.trans (Ctx.afterPendingJobs_serves _ env _)
  · exact .refl s

/-- A document is requested, or the selected job begins. -/
theorem handleStateFetchingJobDoc_serves : Serves s (handleStateFetchingJobDoc env s e).1 := by
  simp only [handleStateFetchingJobDoc]
  split
  · exact .refl s
  · split
    · have hbegun : Serves s s.beginJob := .of_eq rfl rfl
      split
      · exact hbegun.trans (Ctx.moveTo_serves _ env _ _)
      · exact .refl s
    · rename_i rest _
      have htaken : Serves s { s with jobIdQueue := rest } := .of_eq rfl rfl
      split
      · exact htaken.trans (Ctx.startResponseTimer_serves _ env)
      · exact htaken.trans (Ctx.enterErrorState_serves _ env .retryWithBackoff)

/-- The answer only moves on. -/
theorem handleStateWaitingForJobDoc_serves :
    Serves s (handleStateWaitingForJobDoc env s e).1 := by
  unfold handleStateWaitingForJobDoc
  split
  · exact s.moveTo_serves env _ _
  · exact s.enterErrorState_serves env .describeJobRejected
  · exact s.enterErrorState_serves env .retryWithBackoff
  · exact .refl s

/-- A document that came is examined. -/
theorem handleStateJobDocReceived_serves :
    Serves s (handleStateJobDocReceived cfg env s e).1 := by
  unfold handleStateJobDocReceived
  split
  · exact s.retryResetBackoff_serves.trans (Ctx.jobDocEnd_serves _ env _)
  · exact s.retryResetBackoff_serves.trans (Ctx.examineJobDoc_serves _ env cfg _ _)
  · exact .refl s

/-- A custom job sends the reports of the application. -/
theorem handleStateCustomJobExecution_serves :
    Serves s (handleStateCustomJobExecution env s e).1 := by
  unfold handleStateCustomJobExecution
  split
  · split
    · exact .refl s
    · exact s.moveTo_serves env _ _
  · rename_i report details
    have hsent := s.otaJobsPublishWithString_serves report.status details env.send
    exact hsent.trans (Ctx.afterSend_serves _ env _ _ _ (.refl _))
  · split
    · exact .refl s
    · split
      · exact .refl s
      · exact s.retryResetBackoff_serves.trans (Ctx.moveTo_serves _ env _ _)
  · exact .refl s

/-- A download sends its progress. -/
theorem handleStateJobExecution_serves : Serves s (handleStateJobExecution env s e).1 := by
  unfold handleStateJobExecution
  split
  · exact s.startDownload_serves env
  · cases e with
    | imageDownloadProgress downloaded => exact s.otaJobsPublish_serves _ _ _ _
    | imageDownloadSucceeded =>
      have hsent := s.retryResetBackoff_serves.trans (Ctx.otaJobsPublish_serves _ .inProgress
        (.inProgress (UInt32.ofNat s.currentJob.otaData.filesize)
          (UInt32.ofNat s.currentJob.otaData.filesize)) env.detailsEncoded env.send)
      exact hsent.trans (Ctx.moveTo_serves _ env _ _)
    | timeout => exact s.enterErrorState_serves env .retryWithBackoff
    | imageDownloadFailed failure => exact s.moveTo_serves env _ _
    | finalStatusReportRequested details => exact .of_eq rfl rfl
    | _ => exact .refl s

/-- After the download, the queued final status goes first. -/
theorem handleStatePostDownload_serves : Serves s (handleStatePostDownload env s e).1 := by
  simp only [handleStatePostDownload]
  split
  · have hsent := s.publishFinalStatus_serves s.currentJob.currentStatusDetails
      env.detailsEncoded env.sendQueued
    refine hsent.trans (Ctx.afterSend_serves _ env _ _ _ ?_)
    exact (Ctx.setJob_serves _ _).trans (Ctx.postDownloadEvent_serves _ env e)
  · exact s.postDownloadEvent_serves env e

/-- An error gives up the active job, and a recovery takes the kept event back. -/
theorem handleStateError_serves : Serves s (handleStateError env s e).1 := by
  unfold handleStateError
  split
  · exact s.errorOccurred_serves env
  · exact s.recoveryRequested_serves env
  · exact .refl s

/-- Each of the handlers serves. -/
theorem handleState_serves : Serves s (handleState cfg env s e).1 := by
  rw [handleState]
  cases s.state with
  | uninitialized => exact .refl s
  | networkInit => exact handleStateNetworkInit_serves env s e
  | rebootCheck => exact handleStateRebootCheck_serves env s e
  | idle => exact handleStateIdle_serves env s e
  | jobsChanged => exact handleStateJobsChanged_serves env s e
  | fetchingPendingJobs => exact handleStateFetchingPendingJobs_serves env s e
  | waitingForPendingJobs => exact handleStateWaitingForPendingJobs_serves env s e
  | pendingJobsReceived => exact handleStatePendingJobsReceived_serves env s e
  | fetchingJobDoc => exact handleStateFetchingJobDoc_serves env s e
  | waitingForJobDoc => exact handleStateWaitingForJobDoc_serves env s e
  | jobDocReceived => exact handleStateJobDocReceived_serves cfg env s e
  | jobExecution => exact handleStateJobExecution_serves env s e
  | customJobExecution => exact handleStateCustomJobExecution_serves env s e
  | postDownload => exact handleStatePostDownload_serves env s e
  | error => exact handleStateError_serves env s e

/-- So does a turn of the task. -/
theorem runOnce_serves : Serves s (runOnce cfg env s e) := by
  simp only [runOnce]
  split
  · have herror : Serves s { s with state := .error } := .of_eq rfl rfl
    exact (herror.trans (handleStateError_serves env _ e)).trans (.of_eq rfl rfl)
  · exact (handleState_serves cfg env s e).trans (.of_eq rfl rfl)

end

/-! ### The other tasks -/

section
variable (s : Ctx)

/-- The answer to an update becomes an event. -/
theorem Ctx.attributeResponse_serves (ret : Status.ResponseReturn) (accepted posted : Bool) :
    Serves s (s.attributeResponse ret accepted posted) := by
  simp only [attributeResponse]
  split
  · exact .refl s
  · split
    · split
      · exact (s.setJob_serves _).trans (postEvent_serves _ .updateAccepted posted)
      · exact s.postEvent_serves .updateAccepted posted
    · exact s.postEvent_serves _ posted

/-- A response takes out the entry that it names, or sends its update again. -/
theorem Ctx.onUpdateResponse_serves (request : UpdateRequest) (payload : ResponsePayload)
    (accepted : Bool) (env : StatusEnv) (posted : Bool) :
    Serves s (s.onUpdateResponse request payload accepted env posted) := by
  have hfollows : Follows s.status (s.status.onUpdateResponse payload accepted env).1.cache :=
    (s.status.onResponseLocked_answered payload accepted env).follows.trans
      (s.status.onUpdateResponse_grows payload accepted env).follows
  have hanswered : Serves s { s with
      status := (s.status.onUpdateResponse payload accepted env).1.cache
      requests := s.requests ++ (s.status.onUpdateResponse payload accepted env).2.toList
      history :=
        { s.history with
          terminalAccepted := s.history.terminalAccepted
            || (accepted && request.isTerminal
              && request.update.jobId == s.currentJob.jobId) } } :=
    .of_issued hfollows rfl fun hwf _ hr =>
      Cache.onUpdateResponse_issued hwf (Option.mem_toList.mp hr)
  simp only [onUpdateResponse]
  split
  · exact hanswered
  · exact hanswered.trans (attributeResponse_serves _ _ accepted posted)

/-- A new connection sends the terminal updates again. -/
theorem Ctx.onSubscribed_serves (snapshotAllocated : Bool) (copied : Nat → Bool)
    (envs : Nat → StatusEnv) (env : Env) :
    Serves s (s.onSubscribed snapshotAllocated copied envs env) := by
  have hissued : s.status.WF → ∀ r ∈ (s.status.resendPendingTerminals snapshotAllocated copied
      envs).2, (s.status.resendPendingTerminals snapshotAllocated copied envs).1.Issued r := by
    rw [Cache.resendPendingTerminals]
    split
    · exact fun hwf => Cache.resend_issued hwf envs 0 _
    · exact fun _ r hr => absurd hr List.not_mem_nil
  have hresent : Serves s { s with
      status := (s.status.resendPendingTerminals snapshotAllocated copied envs).1
      requests :=
        s.requests ++ (s.status.resendPendingTerminals snapshotAllocated copied envs).2 } :=
    .of_issued (s.status.resendPendingTerminals_grows _ _ _).follows rfl hissued
  simp only [onSubscribed]
  split
  · exact hresent.trans (.of_eq rfl rfl)
  · exact hresent.trans (enterErrorState_serves _ env .retryWithBackoff)

/-- So is the end of a backoff. -/
theorem Ctx.retryWithBackoffTask_serves (posted scheduled : Bool) :
    Serves s (s.retryWithBackoffTask posted scheduled) := by
  have hfired : Serves s { s with errorRetryArmed := false } := .of_eq rfl rfl
  have hrecovered := hfired.trans (.of_core (recover_core _ posted))
  simp only [retryWithBackoffTask]
  split
  · exact hrecovered
  · exact hrecovered.trans (.of_eq rfl rfl)

end

variable {cfg : Config}

/-- Each step serves. -/
theorem step_serves {s t : Ctx} {a : Action} (h : step cfg s a = some t) : Serves s t := by
  cases a with
  | run env =>
    rw [step] at h
    split at h
    · cases h
    · obtain rfl := Option.some.inj h
      rename_i e rest _
      have htaken : Serves s { s with queue := rest } := .of_eq rfl rfl
      exact htaken.trans (runOnce_serves cfg env _ e)
  | post e posted =>
    rw [step] at h
    split at h
    · obtain rfl := Option.some.inj h
      exact s.postEvent_serves e posted
    · cases h
  | response request accepted code versionNumber env posted =>
    rw [step] at h
    split at h
    · obtain rfl := Option.some.inj h
      exact s.onUpdateResponse_serves request _ accepted env posted
    · cases h
  | retryTimer ptr env =>
    rw [step] at h
    split at h
    · cases h
    · obtain rfl := Option.some.inj h
      rename_i e hfind
      have he : e ∈ s.status.entries := List.mem_of_find?_eq_some hfind
      exact .of_issued (s.status.retryTask_follows e env) rfl fun hwf _ hr =>
        Cache.retryTask_issued hwf he (Option.mem_toList.mp hr)
  | backoffTimer posted scheduled =>
    rw [step] at h
    split at h
    · obtain rfl := Option.some.inj h
      exact s.retryWithBackoffTask_serves posted scheduled
    · cases h
  | requestRecovery posted =>
    obtain rfl := Option.some.inj h
    exact .of_core (s.recover_core posted)
  | subscribed snapshotAllocated copied envs env =>
    obtain rfl := Option.some.inj h
    exact s.onSubscribed_serves snapshotAllocated copied envs env
  | reportStatus report details encoded env =>
    obtain rfl := Option.some.inj h
    exact s.otaJobsPublish_serves report.status details encoded env

/-! ### Runs that leave no job behind -/

/-- The states in which a job is executed. -/
def JobState.runsJob : JobState → Bool
  | .jobExecution | .customJobExecution | .postDownload => true
  | _ => false

/-- A handler ends in a state without a job, and no job is to be recovered. -/
structure Away (r : Ctx × JobState) : Prop where
  next : r.2.runsJob = false
  recovery : r.1.recovery.state.runsJob = false

/-- No reason recovers into a state that executes a job. -/
theorem ErrorReason.recovery_runsJob (error : ErrorReason) :
    error.recovery.state.runsJob = false := by
  cases error <;> rfl

namespace Ctx

variable (s : Ctx) (env : Env)

/-- Posting leaves the plan of the recovery. -/
@[simp] theorem postEvent_recovery (e : Event) (posted : Bool) :
    (s.postEvent e posted).recovery = s.recovery := by
  rw [postEvent]
  split <;> rfl

/-- So does the event of an error. -/
@[simp] theorem postErrorEvent_recovery (error : ErrorReason) :
    (s.postErrorEvent env error).recovery = s.recovery := by
  simp only [postErrorEvent]
  split <;> simp [backoffRetry]

/-- The plan is the one of the reason. -/
@[simp] theorem enterErrorState_recovery (error : ErrorReason) :
    (s.enterErrorState env error).recovery = error.recovery :=
  postErrorEvent_recovery _ env error

/-- The plan is the state and the event that the caller names. -/
@[simp] theorem enterErrorStateCustom_recovery (error : ErrorReason) (state : JobState)
    (e : Event) : (s.enterErrorStateCustom env error state e).recovery =
      { state := state, eventData := some e, event := .errorOccurred } :=
  postErrorEvent_recovery _ env error

/-- A final status leaves the plan. -/
@[simp] theorem publishFinalStatus_recovery (details : StatusDetails) (encoded : Bool)
    (senv : StatusEnv) : (s.publishFinalStatus details encoded senv).2.recovery = s.recovery := by
  rw [publishFinalStatus]
  split <;> rfl

/-- So does a list of pending jobs. -/
@[simp] theorem pendingJobsToJobIdQueue_recovery (payload : PendingJobs) :
    (s.pendingJobsToJobIdQueue payload).2.recovery = s.recovery := by
  rw [pendingJobsToJobIdQueue]
  split <;> rfl

end Ctx

/-- On a path of a program without the states of a job, no job is left. -/
theorem away_of_follows {s : Ctx} {e : Event} {prog : Events.Prog} {r : Ctx × JobState}
    {states : List JobState} (h : Events.Follows s e prog r) (hprog : prog.Within states)
    (hstates : ∀ state ∈ states, state.runsJob = false) (hs : s.recovery.state.runsJob = false) :
    Away r := by
  obtain ⟨hnext, hrecovery⟩ := h.states hprog hstates hs
  exact ⟨hnext, hrecovery⟩

/-- A state that does not lead to a job leaves no job behind. -/
theorem handleState_away {s : Ctx} (env : Env) (e : Event) (hne : s.state ≠ .error)
    (h : ∀ next ∈ Events.successors s.state, next.runsJob = false)
    (hs : s.recovery.state.runsJob = false) : Away (handleState cfg env s e) :=
  away_of_follows (Events.handleState_takes cfg env s e) (Events.handleState_within hne _) h hs

section
variable {s : Ctx} (env : Env) (e : Event)

/-- `enter_error_state` leaves the job, whatever state is next. -/
theorem Ctx.enterErrorState_away (error : ErrorReason) {next : JobState}
    (h : next.runsJob = false) : Away (s.enterErrorState env error, next) where
  next := h
  recovery := by
    rw [enterErrorState_recovery]
    exact error.recovery_runsJob

variable (hs : s.recovery.state.runsJob = false)
include hs

/-- The response timer plans no recovery to a job, started or not. -/
theorem Ctx.startResponseTimer_away {next : JobState} (h : next.runsJob = false) :
    Away (s.startResponseTimer env, next) := by
  rw [startResponseTimer]
  split
  · exact ⟨h, hs⟩
  · exact enterErrorState_away env .timeoutHandlerRestartFailed h

/-- The end of a document leads to the next one, or to an error. -/
theorem Ctx.jobDocEnd_away (error : ErrorReason) : Away (s.jobDocEnd env error) := by
  have hprog : (Events.jobDocEnd error).Within [.fetchingJobDoc, .networkInit, .idle,
      .uninitialized, .error] := by
    rw [Events.jobDocEnd]
    split
    · cases error <;> simp [Events.Prog.Within, Events.recoveryFor]
    · simp [Events.Prog.Within, Events.enqueueTransition, Events.retryUnless, Events.recoveryFor]
  exact away_of_follows (Events.follows_jobDocEnd (e := .emptyTransition) error) hprog
    (by decide) hs

/-- A rejected document leads to the next one, to an error, or to another try. -/
theorem Ctx.jobDocReject_away (jobId : CStr) (version : Int32) (reason : String) :
    Away (s.jobDocReject env e jobId version reason) := by
  have hprog : Events.jobDocReject.Within [.fetchingJobDoc, .jobDocReceived, .idle,
      .uninitialized, .error] := by
    simp [Events.Prog.Within, Events.jobDocReject, Events.jobDocEnd, Events.forall_espError,
      Events.enqueueTransition, Events.retryUnless, Events.recoveryFor]
  exact away_of_follows Events.follows_jobDocReject hprog (by decide) hs

/-- Only a selected job with no more documents to fetch begins. -/
theorem handleStateFetchingJobDoc_away
    (h : ¬(e = .emptyTransition ∧ s.jobIdQueue = [] ∧ s.currentJob.hasPendingJob = true)) :
    Away (handleStateFetchingJobDoc env s e) := by
  simp only [handleStateFetchingJobDoc]
  split
  · exact ⟨rfl, hs⟩
  · rename_i he
    split
    · rename_i hnil
      split
      · rename_i hpending
        exact absurd ⟨not_not.mp he, hnil, hpending⟩ h
      · exact ⟨rfl, hs⟩
    · split
      · apply Ctx.startResponseTimer_away
        · exact hs
        · rfl
      · exact Ctx.enterErrorState_away env .retryWithBackoff rfl

end

/-- The document has no job for this firmware, and the application has a callback for it. -/
def startsCustomJob (cfg : Config) (env : Env) (job : JobInfo) (doc : JobDoc) : Bool :=
  cfg.customJobCb && 0 < doc.jobId.length && doc.jobId.length ≤ jobIdMaxLength && doc.hasDocument
    && (executionVersionToInt32 doc.executionVersion).isSome
    && match parseCustomFields cfg.timeSupport doc with
      | none => true
      | some custom => match findFiletypeHandler cfg custom with
        | .error _ => false
        | .ok ft => match judgeJobDoc cfg env job ft custom doc.afr with
          | .invalidFormat _ => true
          | .ignore | .reject _ | .select .. => false

namespace Ctx

variable {s : Ctx} (cfg : Config) (env : Env) (e : Event) (doc : JobDoc)

/-- Only a document in another format starts a job at once, and only with a callback. -/
theorem examineFields_away (hs : s.recovery.state.runsJob = false) (version : Int32)
    (custom : CustomFields)
    (h : cfg.customJobCb = false ∨ ∀ ft, findFiletypeHandler cfg custom = .ok ft →
      ∀ reason, judgeJobDoc cfg env s.currentJob ft custom doc.afr ≠ .invalidFormat reason) :
    Away (s.examineFields cfg env e doc version custom) := by
  simp only [examineFields]
  split
  · apply jobDocReject_away
    exact hs
  · rename_i ft hft
    -- The verdict does not depend on the filetype and the handler in the current job.
    have hjudge : judgeJobDoc cfg env ((s.setJob fun job =>
        { job with filetype := copiedFiletype custom }).setJob fun job =>
        { job with filetypeHandler := some ft }).currentJob ft custom doc.afr =
        judgeJobDoc cfg env s.currentJob ft custom doc.afr := rfl
    rw [hjudge]
    split
    · apply jobDocEnd_away
      exact hs
    · apply jobDocReject_away
      exact hs
    · rename_i reason hverdict
      cases h with
      | inl hcb =>
        rw [jobDocInvalidFormat, if_neg (by rw [hcb]; decide)]
        apply jobDocReject_away
        exact hs
      | inr hno => exact absurd hverdict (hno ft hft reason)
    · split
      · apply jobDocEnd_away
        exact hs
      · apply jobDocEnd_away
        exact hs

/-- A document that starts no custom job leaves no job behind. -/
theorem examineJobDoc_away (hs : s.recovery.state.runsJob = false)
    (h : startsCustomJob cfg env s.currentJob doc = false) :
    Away (s.examineJobDoc cfg env e doc) := by
  simp only [examineJobDoc]
  split
  · apply jobDocEnd_away
    exact hs
  · rename_i hvalid
    simp only [not_or, Nat.not_lt, Bool.not_eq_false] at hvalid
    obtain ⟨hpos, hlen, hdocument⟩ := hvalid
    rw [startsCustomJob, hdocument, decide_eq_true (Nat.pos_of_ne_zero hpos),
      decide_eq_true hlen] at h
    split
    · apply jobDocEnd_away
      exact hs
    · rename_i version hversion
      rw [hversion] at h
      split
      · rename_i hnone
        simp only [hnone, Option.isSome_some, Bool.and_true] at h
        rw [jobDocInvalidFormat, if_neg (by rw [h]; decide)]
        apply jobDocReject_away
        exact hs
      · rename_i custom hcustom
        simp only [hcustom, Option.isSome_some, Bool.and_true, Bool.and_eq_false_iff] at h
        refine examineFields_away cfg env e doc (by exact hs) version custom ?_
        cases h with
        | inl hcb => exact .inl hcb
        | inr hno =>
          refine .inr fun ft hft reason hverdict => ?_
          have hverdict' : judgeJobDoc cfg env s.currentJob ft custom doc.afr =
              .invalidFormat reason := hverdict
          rw [hft] at hno
          dsimp only at hno
          rw [hverdict'] at hno
          cases hno

/-- Any other document starts its custom job. Its filetype and handler may be in the current job
by then. -/
theorem examineJobDoc_custom (h : startsCustomJob cfg env s.currentJob doc = true) :
    ∃ filetype handler, s.examineJobDoc cfg env e doc =
      (({ s with history := { s.history with round := doc :: s.history.round } }.setJob fun job =>
        { job with filetype := filetype, filetypeHandler := handler }).startCustomJob doc).moveTo
          env (.customJobExecutionRequested doc) .customJobExecution := by
  rw [startsCustomJob] at h
  simp only [Bool.and_eq_true, decide_eq_true_eq] at h
  obtain ⟨⟨⟨⟨⟨hcb, hpos⟩, hlen⟩, hdocument⟩, hversion⟩, hfields⟩ := h
  have hvalid : ¬(doc.jobId.length = 0 ∨ doc.jobId.length > jobIdMaxLength ∨
      doc.hasDocument = false) := by
    rw [hdocument]
    simp only [Bool.true_eq_false, or_false]
    omega
  obtain ⟨version, hversion⟩ := Option.isSome_iff_exists.mp hversion
  simp only [examineJobDoc, if_neg hvalid, hversion]
  cases hcustom : parseCustomFields cfg.timeSupport doc with
  | none =>
    -- The filetype and the handler of the current job stay.
    refine ⟨s.currentJob.filetype, s.currentJob.filetypeHandler, ?_⟩
    dsimp only
    rw [jobDocInvalidFormat, if_pos hcb]
    rfl
  | some custom =>
    rw [hcustom] at hfields
    dsimp only at hfields ⊢
    cases hft : findFiletypeHandler cfg custom with
    | error reason =>
      rw [hft] at hfields
      cases hfields
    | ok ft =>
      rw [hft] at hfields
      dsimp only at hfields
      refine ⟨copiedFiletype custom, some ft, ?_⟩
      simp only [examineFields, hft]
      cases hjudge : judgeJobDoc cfg env s.currentJob ft custom doc.afr with
      | ignore | reject | select =>
        rw [hjudge] at hfields
        cases hfields
      | invalidFormat reason =>
        have hjudge' : judgeJobDoc cfg env (({ s with
            history := { s.history with round := doc :: s.history.round } }.setJob fun job =>
            { job with filetype := copiedFiletype custom }).setJob fun job =>
            { job with filetypeHandler := some ft }).currentJob ft custom doc.afr =
            .invalidFormat reason := hjudge
        rw [hjudge']
        dsimp only
        rw [jobDocInvalidFormat, if_pos hcb]
        rfl

end Ctx

/-! ### What the other tasks leave alone -/

/-- Posting leaves the state. -/
@[simp] theorem Ctx.postEvent_state (s : Ctx) (e : Event) (posted : Bool) :
    (s.postEvent e posted).state = s.state :=
  state_of_core (s.postEvent_core e posted)

/-- `enter_error_state` leaves the state to the handler. -/
@[simp] theorem Ctx.enterErrorState_state (s : Ctx) (env : Env) (error : ErrorReason) :
    (s.enterErrorState env error).state = s.state :=
  state_of_core (s.enterErrorState_core env error)

/-- A request to recover leaves the state. -/
@[simp] theorem Ctx.recover_state (s : Ctx) (posted : Bool) :
    (s.recover posted).2.state = s.state :=
  state_of_core (s.recover_core posted)

/-- It leaves the plan. -/
@[simp] theorem Ctx.recover_recovery (s : Ctx) (posted : Bool) :
    (s.recover posted).2.recovery = s.recovery := by
  rw [recover]
  split <;> simp

/-- The answer to an update leaves the state. -/
@[simp] theorem Ctx.attributeResponse_state (s : Ctx) (ret : Status.ResponseReturn)
    (accepted posted : Bool) : (s.attributeResponse ret accepted posted).state = s.state := by
  simp only [attributeResponse, postEvent]
  split_ifs <;> rfl

/-- It leaves the plan. -/
@[simp] theorem Ctx.attributeResponse_recovery (s : Ctx) (ret : Status.ResponseReturn)
    (accepted posted : Bool) : (s.attributeResponse ret accepted posted).recovery = s.recovery := by
  simp only [attributeResponse, postEvent]
  split_ifs <;> rfl

/-- So does the response as a whole leave the state. -/
@[simp] theorem Ctx.onUpdateResponse_state (s : Ctx) (request : UpdateRequest)
    (payload : ResponsePayload) (accepted : Bool) (senv : StatusEnv) (posted : Bool) :
    (s.onUpdateResponse request payload accepted senv posted).state = s.state := by
  simp only [onUpdateResponse]
  split
  · rfl
  · rw [attributeResponse_state]

/-- And the plan. -/
@[simp] theorem Ctx.onUpdateResponse_recovery (s : Ctx) (request : UpdateRequest)
    (payload : ResponsePayload) (accepted : Bool) (senv : StatusEnv) (posted : Bool) :
    (s.onUpdateResponse request payload accepted senv posted).recovery = s.recovery := by
  simp only [onUpdateResponse]
  split
  · rfl
  · rw [attributeResponse_recovery]

/-! ### Runs -/

/-- The machine after the init. -/
def Initial (s : Ctx) : Prop := s = {}

/-- The status manager is in shape, and it has issued every message. -/
structure Traced (s : Ctx) : Prop where
  wf : s.status.WF
  issued : ∀ r ∈ s.requests, s.status.Issued r

/-- At first no message is out. -/
theorem Traced.initial : Traced {} where
  wf := Cache.wf_initial
  issued := fun _ hr => absurd hr List.not_mem_nil

/-- What is issued stays issued. -/
theorem Traced.serve {s t : Ctx} (hs : Traced s) (h : Serves s t) : Traced t where
  wf := h.follows.wf hs.wf
  issued := by
    intro r hr
    cases h.requests hs.wf r hr with
    | inl hold => exact (hs.issued r hold).follow h.follows
    | inr hissued => exact hissued

/-- In every run, whatever the environment does, the messages are traced. -/
theorem traced {guard : Ctx → Action → Prop} {s : Ctx} (hs : Reach Initial (step cfg) guard s) :
    Traced s := by
  refine hs.inv Traced ?_ ?_
  · intro s h
    subst h
    exact .initial
  · intro s a t htraced _ ht
    exact htraced.serve (step_serves ht)

end RainMakerNeo.Ota.Jobs
