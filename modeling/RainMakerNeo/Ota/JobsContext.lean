import RainMakerNeo.Ota.JobDoc
import RainMakerNeo.Ota.StatusManager

/-!
# `RainMakerNeo.Ota.JobsContext`: the context of the jobs state machine

The types of `ota_jobs.h` and the helpers of `ota_jobs.c` that the state handlers share: the
event queue, the two functions that enter the error state, the job id queue and the sends for
the current job.

Events run one after the other on the work queue, so the queue is a list of events. The answers
of the environment inside one handler are in `Env`, whose defaults are the success values. The
events that go to the application, the subscription retry, the NVS writes and the timer that
guards a response are left out. A timeout can come at any time.

`History` is not part of the code. It records what the statements speak about.
-/

set_option autoImplicit false

namespace RainMakerNeo.Ota.Jobs

open RainMakerNeo.Lib
open RainMakerNeo.Ota.Status (Cache EspError JobStatus StatusEnv StatusUpdate UpdateRequest
  SendResult ResponsePayload isTerminal jobIdMaxLength)

/-! ### Data -/

/-- `ota_job_state_t`. -/
inductive JobState
  | uninitialized
  | networkInit
  | rebootCheck
  | idle
  | jobsChanged
  | fetchingPendingJobs
  | waitingForPendingJobs
  | pendingJobsReceived
  | fetchingJobDoc
  | waitingForJobDoc
  | jobDocReceived
  | jobExecution
  | customJobExecution
  | postDownload
  | error
  deriving DecidableEq, Repr

/-- `esp_rmaker_ota_error_reason_t`. -/
inductive ErrorReason
  | none
  | noPendingJobs
  | retryWithBackoff
  | fatalInitFailed
  | fatalUnexpectedFormat
  | subscriptionFailed
  | timeoutHandlerRestartFailed
  | getPendingInvalidFormat
  | getPendingRejected
  | describeJobRejected
  | jobDocParseFailed
  deriving DecidableEq, Repr

/-- `esp_rmaker_ota_error_reason_to_string`. -/
def ErrorReason.toText : ErrorReason → String
  | .none => "NONE"
  | .subscriptionFailed => "SUBSCRIPTION_FAILED"
  | .retryWithBackoff => "RETRY_WITH_BACKOFF"
  | .timeoutHandlerRestartFailed => "TIMEOUT_HANDLER_RESTART_FAILED"
  | .noPendingJobs => "NO_PENDING_JOBS"
  | .getPendingInvalidFormat => "GET_PENDING_INVALID_FORMAT"
  | .getPendingRejected => "GET_PENDING_REJECTED"
  | .describeJobRejected => "DESCRIBE_JOB_REJECTED"
  | .jobDocParseFailed => "JOB_DOC_PARSE_FAILED"
  | .fatalInitFailed | .fatalUnexpectedFormat => "UNKNOWN"

/-- `esp_rmaker_ota_status_details_t`, for the details that the state machine fills in. -/
inductive StatusDetails
  | invalid
  | inProgress (downloadedBytes totalBytes : UInt32)
  | succeeded (fwVersion : List Char)
  | failed (reason : List Char)
  | rejected (reason : List Char)
  deriving DecidableEq, Repr

/-- `esp_rmaker_ota_status_details_to_json`. `encoded` tells whether the memory is there. -/
def StatusDetails.toJson (details : StatusDetails) (encoded : Bool) : Option (List Char) :=
  let text (fields : List (List Char)) : Option (List Char) :=
    if encoded then some ("\x7b".toList ++ fields.flatten ++ "\x7d".toList) else none
  match details with
  | .invalid => none
  | .inProgress downloaded total =>
    text ["\"downloaded_bytes\":".toList, Nat.toDigits 10 downloaded.toNat,
      ",\"total_bytes\":".toList, Nat.toDigits 10 total.toNat]
  | .succeeded fwVersion => text ["\"fw_version\":\"".toList, fwVersion, "\"".toList]
  | .failed reason | .rejected reason => text ["\"reason\":\"".toList, reason, "\"".toList]

/-- The events of a download that failed. -/
inductive DownloadFailure
  | setup
  | streamSubscription
  | postDownloadChecks
  | imageHeaderInvalid
  | signatureInvalid
  | md5Invalid
  | unknownError
  deriving DecidableEq, Repr

/-- The reason that is reported for a failed download. -/
def DownloadFailure.reason : DownloadFailure → String
  | .setup => "Image downloader setup failed"
  | .streamSubscription => "MQTT stream subscription failed"
  | .postDownloadChecks => "Post download checks failed"
  | .imageHeaderInvalid => "Image header invalid"
  | .signatureInvalid => "Image signature invalid"
  | .md5Invalid => "Image MD5 mismatch"
  | .unknownError => "Unknown error"

/-- What the JSON library finds in a list of pending jobs: whether the payload is JSON, and the
job ids of the two arrays. An id is empty where an array element has none. -/
structure PendingJobs where
  valid : Bool := true
  inProgress : List CStr := []
  queued : List CStr := []
  deriving DecidableEq

/-- The report of the application on a custom job. -/
inductive CustomReport
  | progress
  | succeeded
  | failed
  | rejected
  deriving DecidableEq, Repr

/-- The job status that is sent for a report. -/
def CustomReport.status : CustomReport → JobStatus
  | .progress => .inProgress
  | .succeeded => .succeeded
  | .failed => .failed
  | .rejected => .rejected

/-- `ota_job_event_t` with the payload of each event. A payload can be missing. -/
inductive Event
  | emptyTransition
  | errorOccurred
  | rebootCheckRequested
  | finalStatusReportRequested (details : StatusDetails)
  | fetchRequested
  | jobsChanged (payload : Option PendingJobs)
  | pendingJobsAccepted (payload : Option PendingJobs)
  | pendingJobsRejected
  | jobDocAccepted (payload : Option JobDoc)
  | jobDocRejected
  | updateAccepted
  | updateRejected (unrecoverable : Bool)
  | timeout
  | imageDownloadProgress (downloadedBytes : UInt32)
  | imageDownloadSucceeded (shouldReboot : Bool)
  | imageDownloadFailed (failure : DownloadFailure)
  | customJobExecutionRequested (doc : JobDoc)
  | customJobReport (report : CustomReport) (details : List Char)
  | recoveryRequested
  deriving DecidableEq

/-- The events that the application, the downloader, the timers and the MQTT callbacks post. The
others come from the state machine and from the update responses. -/
def Event.isExternal : Event → Bool
  | .emptyTransition | .errorOccurred | .updateAccepted | .updateRejected _
  | .customJobExecutionRequested _ | .recoveryRequested => false
  | _ => true

/-- `ota_job_info_t`. -/
structure JobInfo where
  jobId : CStr := .empty
  hasPendingJob : Bool := false
  hasActiveJob : Bool := false
  shouldReboot : Bool := false
  finalStatusReported : Bool := false
  finalStatusQueued : Bool := false
  otaData : JobOtaData := {}
  filetype : List Char := []
  filetypeHandler : Option FtCtx := none
  fwVersion : UInt32 := 0
  expectedVersion : Int32 := 0
  currentStatus : JobStatus := .queued
  currentStatusDetails : StatusDetails := .invalid
  deriving DecidableEq

/-- The recovery information of `ota_job_state_ctx_t`. -/
structure Recovery where
  state : JobState := .uninitialized
  eventData : Option Event := none
  event : Event := .rebootCheckRequested
  deriving DecidableEq

/-- One entry into the error state. -/
structure ErrorEntry where
  reason : ErrorReason
  /-- It came through `enter_error_state_custom`. -/
  custom : Bool
  deriving DecidableEq, Repr

/-- What happened, for the statements. -/
structure History where
  /-- The entries into the error state, the last one first. -/
  errors : List ErrorEntry := []
  /-- The documents that were examined since the last list of pending jobs. -/
  round : List JobDoc := []
  /-- The service accepted a terminal update of the job since the job began. -/
  terminalAccepted : Bool := false
  /-- A terminal update of the job was sent since the job began. -/
  terminalSent : Bool := false
  /-- A reboot was issued since the job began. -/
  rebootIssued : Bool := false
  deriving DecidableEq

/-- `ota_job_state_ctx_t`, with the static variables of `ota_jobs.c` and the status manager. -/
structure Ctx where
  state : JobState := .networkInit
  currentJob : JobInfo := { expectedVersion := 1 }
  subIntended : Bool := false
  lastError : ErrorReason := .none
  recovery : Recovery := {}
  /-- The ids of `g_ota_job_id_queue` from `index.next` on. -/
  jobIdQueue : List CStr := []
  status : Cache := {}
  /-- The runs of the state machine on the work queue. -/
  queue : List Event := [.emptyTransition]
  /-- The timer of `g_error_retry_context` runs. -/
  errorRetryArmed : Bool := false
  /-- The update messages that were published. -/
  requests : List UpdateRequest := []
  history : History := {}
  deriving DecidableEq

/-- What the build and the application configure. -/
structure Config where
  customJobCb : Bool := true
  signatureVerify : Bool := false
  timeSupport : Bool := true
  filetypeHandlerLookup : Option (List Char → Option FtCtx) := none
  validateImageRef : Option (List Char → Bool) := none
  /-- `version_to_uint32` of the handlers of the application. -/
  versionToUint32 : FtCtx → List Char → Option UInt32 := fun _ _ => none

/-- What the NVS says about the job before the reboot. -/
structure LastJob where
  jobId : CStr
  version : Int32 := 1
  filetype : Option (List Char) := none
  deriving DecidableEq

/-- What the environment answers inside one handler. -/
structure Env where
  /-- The work queue takes the next event of the handler. -/
  enqueued : Bool := true
  /-- It takes the error event as well. -/
  errorPosted : Bool := true
  backoffScheduled : Bool := true
  published : Bool := true
  subscribed : Bool := true
  timerRestarted : Bool := true
  detailsEncoded : Bool := true
  versionAllocated : Bool := true
  /-- The send of a queued final status. -/
  sendQueued : StatusEnv := {}
  send : StatusEnv := {}
  downloadStarted : Bool := true
  customJob : EspError := .ok
  /-- The answer of `get_version`. -/
  currentVersion : Option (List Char) := some ['1', '.', '0']
  signatureDecoded : Bool := true
  now : Int := 0
  nowMinutes : Int := 0
  copied : CopyEnv := {}
  lastJob : Option LastJob := none
  /-- The answer of `esp_rmaker_ota_nvs_get_status`: checked, and passed. -/
  statusFlags : Option (Bool × Bool) := none
  rollbackDetected : Bool := false
  fwVersion : List Char := ['1', '.', '0']

/-! ### Events and errors -/

/-- `enqueue_event` where the work queue takes the event. -/
def Ctx.enqueue (s : Ctx) (e : Event) : Ctx := { s with queue := s.queue ++ [e] }

/-- `ota_job_state_post_event` from outside. -/
def Ctx.postEvent (s : Ctx) (e : Event) (posted : Bool) : Ctx :=
  if posted then s.enqueue e else s

/-- `esp_rmaker_backoff_retry` for the error retry. -/
def Ctx.backoffRetry (s : Ctx) (scheduled : Bool) : Ctx :=
  { s with errorRetryArmed := scheduled || s.errorRetryArmed }

/-- `retry_reset_backoff`. -/
def Ctx.retryResetBackoff (s : Ctx) : Ctx := { s with errorRetryArmed := false }

/-- `post_error_event`. -/
def Ctx.postErrorEvent (s : Ctx) (env : Env) (error : ErrorReason) : Ctx :=
  let s := { s with lastError := error }.postEvent .errorOccurred env.errorPosted
  if error = .retryWithBackoff then s.backoffRetry env.backoffScheduled else s

/-- The recovery that `enter_error_state` records for a reason. -/
def ErrorReason.recovery : ErrorReason → Recovery
  | .subscriptionFailed => { state := .networkInit, event := .emptyTransition }
  | .retryWithBackoff | .timeoutHandlerRestartFailed | .getPendingInvalidFormat
  | .getPendingRejected | .describeJobRejected | .jobDocParseFailed =>
    { state := .idle, event := .fetchRequested }
  | .none | .noPendingJobs | .fatalInitFailed | .fatalUnexpectedFormat =>
    { state := .uninitialized, event := .errorOccurred }

/-- An entry into the error state goes to the history. -/
def Ctx.recordError (s : Ctx) (error : ErrorReason) (custom : Bool) : Ctx :=
  { s with history := { s.history with errors := ⟨error, custom⟩ :: s.history.errors } }

/-- `enter_error_state`. -/
def Ctx.enterErrorState (s : Ctx) (env : Env) (error : ErrorReason) : Ctx :=
  { s.recordError error false with recovery := error.recovery }.postErrorEvent env error

/-- `enter_error_state_custom`. It keeps the event, but it names no recovery event. -/
def Ctx.enterErrorStateCustom (s : Ctx) (env : Env) (error : ErrorReason) (state : JobState)
    (event : Event) : Ctx :=
  { s.recordError error true with
    recovery := { state := state, eventData := some event, event := .errorOccurred }
  }.postErrorEvent env error

/-- The way out of most handlers: the next event is enqueued for the next state. Without memory
for it, the state machine retries with backoff. -/
def Ctx.moveTo (s : Ctx) (env : Env) (e : Event) (next : JobState) : Ctx × JobState :=
  if env.enqueued then (s.enqueue e, next)
  else (s.enterErrorState env .retryWithBackoff, .error)

/-- `recovery_reset_context`. -/
def Ctx.recoveryResetContext (s : Ctx) : Ctx :=
  { s with
    lastError := .none
    recovery := { state := .uninitialized, eventData := none, event := .errorOccurred } }

/-! ### The job id queue -/

/-- `OTA_JOB_ID_QUEUE_SIZE`. -/
def otaJobIdQueueSize : Nat := 50

/-- The copy loop of `pending_jobs_to_job_id_queue` over one array. A full queue ends it. -/
def copyJobIds (queue : List CStr) : List CStr → List CStr
  | [] => queue
  | jobId :: rest =>
    if jobId.length = 0 then copyJobIds queue rest
    else if queue.length ≥ otaJobIdQueueSize then queue
    else if jobId.length > jobIdMaxLength then copyJobIds queue rest
    else copyJobIds (queue ++ [jobId]) rest

/-- `pending_jobs_to_job_id_queue`. A new round begins with the new list. -/
def Ctx.pendingJobsToJobIdQueue (s : Ctx) (payload : PendingJobs) : ErrorReason × Ctx :=
  if payload.valid then
    let jobIds := copyJobIds (copyJobIds [] payload.inProgress) payload.queued
    (if jobIds = [] then .noPendingJobs else .none,
      { s with
        currentJob := { s.currentJob with hasPendingJob := false }
        jobIdQueue := jobIds
        history := { s.history with round := [] } })
  else (.getPendingInvalidFormat, s)

/-! ### Sends -/

/-- The result of a send goes to the status manager and to the broker. -/
def Ctx.sent (s : Ctx) (r : SendResult) : Ctx :=
  { s with status := r.cache, requests := s.requests ++ r.request.toList }

/-- `mqtt_publish_update_job_status_with_string`. -/
def Ctx.publishWithString (s : Ctx) (jobId : CStr) (status : JobStatus) (json : List Char)
    (env : StatusEnv) : SendResult :=
  s.status.otaStatusSend { jobId := jobId, status := status, details := json } env

/-- `mqtt_publish_update_job_status`. Details that have no JSON are an invalid argument. -/
def Ctx.publishUpdateJobStatus (s : Ctx) (jobId : CStr) (status : JobStatus)
    (details : StatusDetails) (encoded : Bool) (env : StatusEnv) : SendResult :=
  match details.toJson encoded with
  | none => { err := .invalidArg, cache := s.status }
  | some json => s.publishWithString jobId status json env

/-- What a send for the current job leaves in it: the next version, and the status where the
send succeeds. -/
def Ctx.sentForCurrentJob (s : Ctx) (status : JobStatus) (r : SendResult) : Ctx :=
  let s := s.sent r
  { s with
    currentJob :=
      { s.currentJob with
        expectedVersion := r.nextVersion.getD s.currentJob.expectedVersion
        currentStatus := if r.err = .ok then status else s.currentJob.currentStatus }
    history :=
      { s.history with
        terminalSent := s.history.terminalSent || (r.err = .ok && isTerminal status) } }

/-- `ota_jobs_mqtt_publish_update_job_status_with_string`. -/
def Ctx.otaJobsPublishWithString (s : Ctx) (status : JobStatus) (json : List Char)
    (env : StatusEnv) : EspError × Ctx :=
  let r := s.publishWithString s.currentJob.jobId status json env
  (r.err, s.sentForCurrentJob status r)

/-- `ota_jobs_mqtt_publish_update_job_status`. -/
def Ctx.otaJobsPublish (s : Ctx) (status : JobStatus) (details : StatusDetails)
    (encoded : Bool) (env : StatusEnv) : EspError × Ctx :=
  let r := s.publishUpdateJobStatus s.currentJob.jobId status details encoded env
  (r.err, s.sentForCurrentJob status r)

/-- The job status of the final status details, `none` for details that are not final. -/
def StatusDetails.finalStatus : StatusDetails → Option JobStatus
  | .succeeded _ => some .succeeded
  | .failed _ => some .failed
  | .invalid | .inProgress .. | .rejected _ => none

/-- `mqtt_publish_final_status`. The status timer always stops. -/
def Ctx.publishFinalStatus (s : Ctx) (details : StatusDetails) (encoded : Bool)
    (env : StatusEnv) : EspError × Ctx :=
  match details.finalStatus with
  | none => (.invalidArg, s)
  | some status => s.otaJobsPublish status details encoded env

/-- A write to the current job. -/
def Ctx.setJob (s : Ctx) (f : JobInfo → JobInfo) : Ctx := { s with currentJob := f s.currentJob }

/-- A job begins, for the history. -/
def Ctx.beginJob (s : Ctx) : Ctx :=
  { s with
    history :=
      { s.history with terminalAccepted := false, terminalSent := false, rebootIssued := false } }

end RainMakerNeo.Ota.Jobs
