import RainMakerNeo.Ota.JobsContext

/-!
# `RainMakerNeo.Ota.JobsMachine`: the jobs state machine

The state handlers of `ota_jobs.c`, the callbacks that post to the machine, and `step`. A
handler takes an event and gives back the context and the next state. `runOnce` is one run on
the work queue. The actions of `step` are these runs and everything that other tasks do between
them: posts, update responses, retry timers of the status manager, the backoff task, a new
subscription, and a report of the application.
-/

set_option autoImplicit false

namespace RainMakerNeo.Ota.Jobs

open RainMakerNeo.Lib
open RainMakerNeo.Ota.Status (Cache EspError JobStatus StatusEnv UpdateRequest ResponsePayload
  isTerminal jobIdMaxLength)

/-! ### From the network to the list of jobs -/

/-- The checks of `handle_state_network_init` on the job before the reboot. Where they fail, the
job id may be gone. -/
def Ctx.restoreLastJob (s : Ctx) (env : Env) (last : LastJob) : Bool × Ctx :=
  if last.jobId.length > jobIdMaxLength then (false, s)
  else
    let cleared (s : Ctx) := (false, s.setJob fun job => { job with jobId := .empty })
    if last.version < 0 then cleared s
    else
      let (err, status) :=
        s.status.setInitialExpectedVersion last.jobId last.version env.versionAllocated
      let s := { s with status := status }
      if err ≠ .ok then cleared s
      else match last.filetype with
        | none => (true, s.setJob fun job => { job with jobId := last.jobId })
        | some filetype =>
          if filetype.length > otaFiletypeMaxLength then cleared s
          else (true, s.setJob fun job => { job with jobId := last.jobId, filetype := filetype })

/-- The end of `handle_state_network_init`: without a job to check, the machine is primed at
`IDLE`. -/
def Ctx.afterSubscribe (s : Ctx) (env : Env) : Ctx × JobState :=
  match env.lastJob with
  | none => (s.postEvent .emptyTransition env.enqueued, .idle)
  | some last =>
    let (restored, s) := s.restoreLastJob env last
    if restored then (s, .rebootCheck) else (s.postEvent .emptyTransition env.enqueued, .idle)

/-- `handle_state_network_init`. The intent to subscribe is set before the call. -/
def handleStateNetworkInit (env : Env) (s : Ctx) (e : Event) : Ctx × JobState :=
  if e ≠ .emptyTransition then (s, .networkInit)
  else if s.subIntended then s.afterSubscribe env
  else
    let s := { s with subIntended := true }
    if env.subscribed then s.afterSubscribe env
    else (s.enterErrorState env .subscriptionFailed, .error)

/-- The job before the reboot is done with: its entries, its id and its flag are reset. -/
def Ctx.dropRebootedJob (s : Ctx) : Ctx :=
  let status := s.status.clearJobEntries s.currentJob.jobId
  { s.retryResetBackoff with status := status }.setJob fun job =>
    { job with jobId := .empty, filetype := [], finalStatusReported := false }

/-- The status and the details that `REBOOT_CHECK` reports for the flags of the NVS. -/
def rebootCheckReport (env : Env) (passed : Bool) : JobStatus × StatusDetails :=
  if passed then (.succeeded, .succeeded env.fwVersion)
  else (.failed, .failed
    (if env.rollbackDetected then "New firmware rolled back after reboot"
      else "Reboot check failed").toList)

/-- The acceptance in `REBOOT_CHECK` must be for a final status with matching details. -/
def finalReported (job : JobInfo) : Bool :=
  match job.currentStatus, job.currentStatusDetails with
  | .succeeded, .succeeded _ => true
  | .failed, .failed _ => true
  | _, _ => false

/-- What follows a send that the state needs: an invalid argument is fatal, and after any other
error the event is kept for a retry in the state `recovery`. -/
def Ctx.afterSend (s : Ctx) (env : Env) (err : EspError) (recovery : JobState) (e : Event)
    (next : Ctx × JobState) : Ctx × JobState :=
  if err = .invalidArg then (s.enterErrorState env .fatalUnexpectedFormat, .error)
  else if err ≠ .ok then (s.enterErrorStateCustom env .retryWithBackoff recovery e, .error)
  else next

/-- `handle_state_reboot_check`. -/
def handleStateRebootCheck (env : Env) (s : Ctx) (e : Event) : Ctx × JobState :=
  match e with
  | .finalStatusReportRequested details =>
    let (err, s) := s.publishFinalStatus details env.detailsEncoded env.send
    s.afterSend env err .rebootCheck e
      (s.setJob (fun job => { job with currentStatusDetails := details }), .rebootCheck)
  | .rebootCheckRequested =>
    if s.currentJob.filetype ≠ [] then (s, .rebootCheck)
    else
      -- Flags that cannot be read count as a failed check.
      let (isChecked, isPassed) := env.statusFlags.getD (true, false)
      if isChecked then
        let (status, details) := rebootCheckReport env isPassed
        let s := s.setJob fun job =>
          { job with currentStatus := status, currentStatusDetails := details }
        let (err, s) := s.otaJobsPublish status details env.detailsEncoded env.send
        s.afterSend env err .rebootCheck e (s, .rebootCheck)
      else (s, .rebootCheck)
  | .updateAccepted =>
    if s.currentJob.filetype ≠ [] ∧ s.currentJob.finalStatusReported = false then (s, .rebootCheck)
    else
      let reported := finalReported s.currentJob
      let s := s.dropRebootedJob
      if reported then (s, .idle) else (s.enterErrorState env .fatalUnexpectedFormat, .error)
  | .updateRejected true =>
    let details := .rejected "Job execution no longer accepts updates".toList
    (s.dropRebootedJob.setJob fun job => { job with currentStatusDetails := details }, .idle)
  | _ => (s, .rebootCheck)

/-- `handle_state_idle`. -/
def handleStateIdle (env : Env) (s : Ctx) (e : Event) : Ctx × JobState :=
  match e with
  | .fetchRequested => s.moveTo env .emptyTransition .fetchingPendingJobs
  | .jobsChanged _ => s.moveTo env e .jobsChanged
  | _ => (s, .idle)

/-- What follows the parse of a list of pending jobs. -/
def Ctx.afterPendingJobs (s : Ctx) (env : Env) (error : ErrorReason) : Ctx × JobState :=
  match error with
  | .none => s.moveTo env .emptyTransition .fetchingJobDoc
  | .noPendingJobs => (s, .idle)
  | error => (s.enterErrorState env error, .error)

/-- `handle_state_jobs_changed`. -/
def handleStateJobsChanged (env : Env) (s : Ctx) (e : Event) : Ctx × JobState :=
  match e with
  | .jobsChanged none => (s, .idle)
  | .jobsChanged (some payload) =>
    let (error, s) := s.pendingJobsToJobIdQueue payload
    s.afterPendingJobs env error
  | _ => (s, .jobsChanged)

/-- `start_response_timer`. A timer that does not start is an error, but the caller goes on. -/
def Ctx.startResponseTimer (s : Ctx) (env : Env) : Ctx :=
  if env.timerRestarted then s else s.enterErrorState env .timeoutHandlerRestartFailed

/-- `handle_state_fetching_pending_jobs`. A failed publish leaves the state to the error event. -/
def handleStateFetchingPendingJobs (env : Env) (s : Ctx) (e : Event) : Ctx × JobState :=
  if e ≠ .emptyTransition then (s, .fetchingPendingJobs)
  else if env.published then (s.startResponseTimer env, .waitingForPendingJobs)
  else (s.enterErrorState env .retryWithBackoff, .fetchingPendingJobs)

/-- `handle_state_waiting_for_pending_jobs`. -/
def handleStateWaitingForPendingJobs (env : Env) (s : Ctx) (e : Event) : Ctx × JobState :=
  match e with
  | .pendingJobsAccepted _ => s.moveTo env e .pendingJobsReceived
  | .pendingJobsRejected => (s.enterErrorState env .getPendingRejected, .waitingForPendingJobs)
  | .timeout => (s.enterErrorState env .retryWithBackoff, .waitingForPendingJobs)
  | _ => (s, .waitingForPendingJobs)

/-- `handle_state_pending_jobs_received`. -/
def handleStatePendingJobsReceived (env : Env) (s : Ctx) (e : Event) : Ctx × JobState :=
  match e with
  | .pendingJobsAccepted none =>
    (s.enterErrorState env .getPendingInvalidFormat, .pendingJobsReceived)
  | .pendingJobsAccepted (some payload) =>
    let (error, s) := s.retryResetBackoff.pendingJobsToJobIdQueue payload
    s.afterPendingJobs env error
  | _ => (s, .pendingJobsReceived)

/-! ### Job documents -/

/-- `handle_state_fetching_job_doc`. The queue of ids is used up before a job is executed. -/
def handleStateFetchingJobDoc (env : Env) (s : Ctx) (e : Event) : Ctx × JobState :=
  if e ≠ .emptyTransition then (s, .fetchingJobDoc)
  else match s.jobIdQueue with
    | [] =>
      if s.currentJob.hasPendingJob then s.beginJob.moveTo env .emptyTransition .jobExecution
      else (s, .idle)
    | _ :: rest =>
      let s := { s with jobIdQueue := rest }
      if env.published then (s.startResponseTimer env, .waitingForJobDoc)
      else (s.enterErrorState env .retryWithBackoff, .fetchingJobDoc)

/-- `handle_state_waiting_for_job_doc`. -/
def handleStateWaitingForJobDoc (env : Env) (s : Ctx) (e : Event) : Ctx × JobState :=
  match e with
  | .jobDocAccepted _ => s.moveTo env e .jobDocReceived
  | .jobDocRejected => (s.enterErrorState env .describeJobRejected, .waitingForJobDoc)
  | .timeout => (s.enterErrorState env .retryWithBackoff, .waitingForJobDoc)
  | _ => (s, .waitingForJobDoc)

/-- The label `handle_state_job_doc_received_end`. -/
def Ctx.jobDocEnd (s : Ctx) (env : Env) (error : ErrorReason) : Ctx × JobState :=
  if error ≠ .none then (s.enterErrorState env error, .error)
  else s.moveTo env .emptyTransition .fetchingJobDoc

/-- The label `handle_state_job_doc_received_reject`: the rejection is sent for the job of the
document, which need not be the current job. -/
def Ctx.jobDocReject (s : Ctx) (env : Env) (e : Event) (jobId : CStr) (version : Int32)
    (reason : String) : Ctx × JobState :=
  let (err, status) := s.status.setInitialExpectedVersion jobId version env.versionAllocated
  let s := { s with status := status }
  if err ≠ .ok then s.jobDocEnd env .fatalUnexpectedFormat
  else
    let r := s.publishUpdateJobStatus jobId .rejected (.rejected reason.toList)
      env.detailsEncoded env.send
    let s := s.sent r
    if r.err = .invalidArg then s.jobDocEnd env .fatalUnexpectedFormat
    else if r.err ≠ .ok then
      (s.enterErrorStateCustom env .retryWithBackoff .jobDocReceived e, .error)
    else s.jobDocEnd env .none

/-- The start of a custom job. Of the current job it sets the id only. -/
def Ctx.startCustomJob (s : Ctx) (doc : JobDoc) : Ctx :=
  ({ s with jobIdQueue := [] }.setJob fun job => { job with jobId := doc.jobId }).beginJob

/-- The label `handle_state_job_doc_received_invalid_format`. -/
def Ctx.jobDocInvalidFormat (cfg : Config) (s : Ctx) (env : Env) (e : Event) (doc : JobDoc)
    (version : Int32) (reason : String) : Ctx × JobState :=
  if cfg.customJobCb then
    (s.startCustomJob doc).moveTo env (.customJobExecutionRequested doc) .customJobExecution
  else s.jobDocReject env e doc.jobId version reason

/-- The filetype that is copied to the current job, before the handler is looked up. -/
def copiedFiletype (custom : CustomFields) : List Char :=
  if custom.filetype.length > otaFiletypeMaxLength then [] else custom.filetype

/-- The filetype handler of a document, or the reason to reject it. -/
def findFiletypeHandler (cfg : Config) (custom : CustomFields) : Except String FtCtx :=
  if custom.filetype = [] then .ok defaultFtCtx
  else if custom.filetype.length > otaFiletypeMaxLength then .error "Filetype too long"
  else match cfg.filetypeHandlerLookup with
    | none => .error "No custom filetype implementation"
    | some lookup => match lookup custom.filetype with
      | none => .error "Filetype not supported"
      | some ft => if ft.isValid then .ok ft else .error "Filetype handler is invalid"

/-- `version_to_uint32` of a handler. -/
def Config.versionNumber (cfg : Config) (ft : FtCtx) (version : List Char) : Option UInt32 :=
  if ft = defaultFtCtx then defaultVersionToUint32 version else cfg.versionToUint32 ft version

/-- What becomes of a document whose handler was found. -/
inductive Verdict
  | ignore
  | reject (reason : String)
  | invalidFormat (reason : String)
  | select (fwVersion : UInt32) (afr : AfrFields)

/-- The version of a document compares with the current one, if its handler has versions. -/
def compareVersions (cfg : Config) (env : Env) (ft : FtCtx) (custom : CustomFields) :
    Except Verdict UInt32 :=
  if ft.hasGetVersion = false then .ok 0
  else if custom.fwVersion = [] then .error (.reject "Firmware version is required for filetype")
  else
    match env.currentVersion.bind (cfg.versionNumber ft), cfg.versionNumber ft custom.fwVersion with
    | some current, some number =>
      if number ≤ current then .error (.reject "Firmware version too low")
      else if custom.minFwVersion = [] then .ok number
      else match cfg.versionNumber ft custom.minFwVersion with
        | none => .error .ignore
        | some minimum => if minimum > current then .error .ignore else .ok number
    | _, _ => .error (.reject "Unsupported firmware version")

/-- The download window of a document lets the job run now. -/
def windowOpen (cfg : Config) (env : Env) (custom : CustomFields) : Bool :=
  !cfg.timeSupport || !hasDownloadWindow custom.downloadWindow
    || getDownloadWindowDelayTime custom.downloadWindow env.now env.nowMinutes == 0

/-- The checks of the AFR fields. -/
def checkAfrFields (cfg : Config) (env : Env) (number : UInt32) : Option AfrFields → Verdict
  | none => .invalidFormat "Missing AFR-OTA-specific fields in job document"
  | some afr =>
    if cfg.validateImageRef.any fun validate => !validate afr.imageRef then
      .reject "Image reference is invalid"
    else if cfg.signatureVerify ∧ afr.signature = [] then
      .reject "Missing signature in job document"
    else if cfg.signatureVerify ∧ env.signatureDecoded = false then
      .reject "Invalid base64 signature in job document"
    else .select number afr

/-- The checks of `handle_state_job_doc_received` behind the handler lookup. -/
def judgeJobDoc (cfg : Config) (env : Env) (job : JobInfo) (ft : FtCtx) (custom : CustomFields)
    (afr : Option AfrFields) : Verdict :=
  match compareVersions cfg env ft custom with
  | .error verdict => verdict
  | .ok number =>
    if windowOpen cfg env custom = false then .ignore
    -- A better candidate was found before.
    else if job.hasPendingJob ∧ number < job.fwVersion then .ignore
    else checkAfrFields cfg env number afr

/-- The document is the best one so far. -/
def Ctx.selectJobDoc (s : Ctx) (doc : JobDoc) (number : UInt32) (data : JobOtaData) : Ctx :=
  s.setJob fun job =>
    { job with otaData := data, hasPendingJob := true, fwVersion := number, jobId := doc.jobId }

/-- A document whose custom fields were parsed. -/
def Ctx.examineFields (cfg : Config) (s : Ctx) (env : Env) (e : Event) (doc : JobDoc)
    (version : Int32) (custom : CustomFields) : Ctx × JobState :=
  let s := s.setJob fun job => { job with filetype := copiedFiletype custom }
  match findFiletypeHandler cfg custom with
  | .error reason => s.jobDocReject env e doc.jobId version reason
  | .ok ft =>
    let s := s.setJob fun job => { job with filetypeHandler := some ft }
    match judgeJobDoc cfg env s.currentJob ft custom doc.afr with
    | .ignore => s.jobDocEnd env .none
    | .reject reason => s.jobDocReject env e doc.jobId version reason
    | .invalidFormat reason => s.jobDocInvalidFormat cfg env e doc version reason
    | .select number afr =>
      match setOtaData s.currentJob.otaData afr custom env.copied with
      | none => (s.setJob fun job => { job with otaData := {} }).jobDocEnd env .jobDocParseFailed
      | some data => (s.selectJobDoc doc number data).jobDocEnd env .none

/-- A document with a payload. -/
def Ctx.examineJobDoc (cfg : Config) (s : Ctx) (env : Env) (e : Event) (doc : JobDoc) :
    Ctx × JobState :=
  let s := { s with history := { s.history with round := doc :: s.history.round } }
  if doc.jobId.length = 0 ∨ doc.jobId.length > jobIdMaxLength ∨ doc.hasDocument = false then
    s.jobDocEnd env .none
  else match executionVersionToInt32 doc.executionVersion with
    | none => s.jobDocEnd env .none
    | some version =>
      match parseCustomFields cfg.timeSupport doc with
      | none => s.jobDocInvalidFormat cfg env e doc version
          "Missing RMNG-specific fields in job document"
      | some custom => s.examineFields cfg env e doc version custom

/-- `handle_state_job_doc_received`. -/
def handleStateJobDocReceived (cfg : Config) (env : Env) (s : Ctx) (e : Event) :
    Ctx × JobState :=
  match e with
  | .jobDocAccepted none => s.retryResetBackoff.jobDocEnd env .none
  | .jobDocAccepted (some doc) => s.retryResetBackoff.examineJobDoc cfg env e doc
  | _ => (s, .jobDocReceived)

/-! ### Jobs -/

/-- The report of the machine on a custom job that its callback refused. -/
def refusedReport (err : EspError) : CustomReport × String :=
  if err = .invalidArg then
    (.rejected, "\x7b\"reason\":\"Invalid custom job document\"\x7d")
  else (.failed, "\x7b\"reason\":\"Failed to process custom job document\"\x7d")

/-- `handle_state_custom_job_execution`. -/
def handleStateCustomJobExecution (env : Env) (s : Ctx) (e : Event) : Ctx × JobState :=
  match e with
  | .customJobExecutionRequested _ =>
    if env.customJob = .ok then (s, .customJobExecution)
    else
      let (report, details) := refusedReport env.customJob
      s.moveTo env (.customJobReport report details.toList) .customJobExecution
  | .customJobReport report details =>
    let (err, s) := s.otaJobsPublishWithString report.status details env.send
    s.afterSend env err .customJobExecution e (s, .customJobExecution)
  | .updateAccepted =>
    if s.status.isEmpty = false then (s, .customJobExecution)
    else if s.currentJob.finalStatusReported = false then (s, .customJobExecution)
    else s.retryResetBackoff.moveTo env .fetchRequested .idle
  | _ => (s, .customJobExecution)

/-- The first run in `JOB_EXECUTION`, whatever the event is. -/
def Ctx.startDownload (s : Ctx) (env : Env) : Ctx × JobState :=
  let s := s.setJob fun job =>
    { job with
      hasActiveJob := true
      shouldReboot := false
      finalStatusReported := false
      finalStatusQueued := false }
  let total := UInt32.ofNat s.currentJob.otaData.filesize
  let (_, s) := s.otaJobsPublish .inProgress (.inProgress 0 total) env.detailsEncoded env.send
  if env.downloadStarted then (s, .jobExecution)
  else s.moveTo env
    (.finalStatusReportRequested (.failed "Image downloader setup failed".toList)) .postDownload

/-- `handle_state_job_execution`. -/
def handleStateJobExecution (env : Env) (s : Ctx) (e : Event) : Ctx × JobState :=
  if s.currentJob.hasActiveJob = false then s.startDownload env
  else
    let total := UInt32.ofNat s.currentJob.otaData.filesize
    match e with
    | .imageDownloadProgress downloaded =>
      ((s.otaJobsPublish .inProgress (.inProgress downloaded total) env.detailsEncoded
        env.send).2, .jobExecution)
    | .imageDownloadSucceeded _ =>
      -- The 100 percent progress. Nothing looks at the result of the send.
      let (_, s) := s.retryResetBackoff.otaJobsPublish .inProgress (.inProgress total total)
        env.detailsEncoded env.send
      s.moveTo env e .postDownload
    | .timeout => (s.enterErrorState env .retryWithBackoff, .jobExecution)
    | .imageDownloadFailed failure =>
      s.moveTo env (.finalStatusReportRequested (.failed failure.reason.toList)) .postDownload
    | .finalStatusReportRequested details =>
      (s.setJob (fun job =>
        { job with currentStatusDetails := details, finalStatusQueued := true }), .jobExecution)
    | _ => (s, .jobExecution)

/-- An accepted update in `POST_DOWNLOAD`, with nothing left in the status manager. -/
def Ctx.finishDownload (s : Ctx) (env : Env) : Ctx × JobState :=
  if s.currentJob.shouldReboot then
    ({ s with history := { s.history with rebootIssued := true } }, .postDownload)
  else if s.currentJob.finalStatusReported then
    (s.setJob fun _ => {}).retryResetBackoff.moveTo env .fetchRequested .idle
  else (s, .postDownload)

/-- The events of `POST_DOWNLOAD`, after a queued final status. -/
def Ctx.postDownloadEvent (s : Ctx) (env : Env) (e : Event) : Ctx × JobState :=
  match e with
  | .finalStatusReportRequested details =>
    let (err, s) := s.publishFinalStatus details env.detailsEncoded env.send
    s.afterSend env err .idle e
      (s.setJob (fun job => { job with finalStatusReported := true }), .postDownload)
  | .imageDownloadSucceeded shouldReboot =>
    (s.setJob (fun job => { job with shouldReboot := shouldReboot }), .postDownload)
  | .updateAccepted =>
    if s.status.isEmpty = false then (s, .postDownload) else s.finishDownload env
  | _ => (s, .postDownload)

/-- `handle_state_post_download`. Any event makes it send a final status that is queued. -/
def handleStatePostDownload (env : Env) (s : Ctx) (e : Event) : Ctx × JobState :=
  if s.currentJob.finalStatusQueued then
    let (err, s) :=
      s.publishFinalStatus s.currentJob.currentStatusDetails env.detailsEncoded env.sendQueued
    s.afterSend env err .postDownload e
      ((s.setJob fun job => { job with finalStatusQueued := false }).postDownloadEvent env e)
  else s.postDownloadEvent env e

/-! ### Errors and recovery -/

/-- `handle_state_error` for the error event: an active job is reported as failed. -/
def Ctx.errorOccurred (s : Ctx) (env : Env) : Ctx :=
  if s.currentJob.hasActiveJob then
    (s.otaJobsPublish .failed (.failed s.lastError.toText.toList) env.detailsEncoded
      env.send).2.setJob fun job => { job with hasActiveJob := false }
  else s

/-- `handle_state_error` for a requested recovery. The kept event goes first; when it cannot be
enqueued it is gone, and the backoff comes again. -/
def Ctx.recoveryRequested (s : Ctx) (env : Env) : Ctx × JobState :=
  let e := s.recovery.eventData.getD s.recovery.event
  let next := s.recovery.state
  let s := { s with recovery := { s.recovery with eventData := none } }
  if env.enqueued then ((s.enqueue e).recoveryResetContext, next)
  else (s.backoffRetry env.backoffScheduled, .error)

/-- `handle_state_error`. -/
def handleStateError (env : Env) (s : Ctx) (e : Event) : Ctx × JobState :=
  match e with
  | .errorOccurred => (s.errorOccurred env, .error)
  | .recoveryRequested => s.recoveryRequested env
  | _ => (s, .error)

/-- `ota_job_state_recover`. -/
def Ctx.recover (s : Ctx) (posted : Bool) : EspError × Ctx :=
  if s.recovery.state = .uninitialized ∨ s.recovery.event = .errorOccurred then (.invalidState, s)
  else (if posted then .ok else .fail, s.postEvent .recoveryRequested posted)

/-- `retry_with_backoff_task`. Its timer is one-shot. -/
def Ctx.retryWithBackoffTask (s : Ctx) (posted scheduled : Bool) : Ctx :=
  let (err, s) := { s with errorRetryArmed := false }.recover posted
  if err = .ok then s else s.backoffRetry scheduled

/-! ### One run -/

/-- The handler of a state. -/
def handleState (cfg : Config) (env : Env) (s : Ctx) (e : Event) : Ctx × JobState :=
  match s.state with
  | .uninitialized => (s, .uninitialized)
  | .networkInit => handleStateNetworkInit env s e
  | .rebootCheck => handleStateRebootCheck env s e
  | .idle => handleStateIdle env s e
  | .jobsChanged => handleStateJobsChanged env s e
  | .fetchingPendingJobs => handleStateFetchingPendingJobs env s e
  | .waitingForPendingJobs => handleStateWaitingForPendingJobs env s e
  | .pendingJobsReceived => handleStatePendingJobsReceived env s e
  | .fetchingJobDoc => handleStateFetchingJobDoc env s e
  | .waitingForJobDoc => handleStateWaitingForJobDoc env s e
  | .jobDocReceived => handleStateJobDocReceived cfg env s e
  | .customJobExecution => handleStateCustomJobExecution env s e
  | .jobExecution => handleStateJobExecution env s e
  | .postDownload => handleStatePostDownload env s e
  | .error => handleStateError env s e

/-- `ota_job_state_run_once` on one event. An error event takes any state to `ERROR`. -/
def runOnce (cfg : Config) (env : Env) (s : Ctx) (e : Event) : Ctx :=
  let (t, next) :=
    if e = .errorOccurred then handleStateError env { s with state := .error } e
    else handleState cfg env s e
  { t with state := next }

/-! ### The other tasks -/

/-- What `mqtt_on_update_accepted` and `mqtt_on_update_rejected` do with what the status manager
gives back: only the length of that job id bounds the comparison with the current one. -/
def Ctx.attributeResponse (s : Ctx) (ret : Status.ResponseReturn) (accepted posted : Bool) : Ctx :=
  if strncmpEq ret.jobId.length ret.jobId.chars s.currentJob.jobId.chars = false then s
  else if accepted then
    let s := if ret.isTerminal then s.setJob fun job => { job with finalStatusReported := true }
      else s
    s.postEvent .updateAccepted posted
  else s.postEvent (.updateRejected ret.isUnrecoverableReject) posted

/-- `mqtt_on_update_accepted` and `mqtt_on_update_rejected` on the answer to a request. -/
def Ctx.onUpdateResponse (s : Ctx) (request : UpdateRequest) (payload : ResponsePayload)
    (accepted : Bool) (env : StatusEnv) (posted : Bool) : Ctx :=
  let (r, resent) := s.status.onUpdateResponse payload accepted env
  let s :=
    { s with
      status := r.cache
      requests := s.requests ++ resent.toList
      history :=
        { s.history with
          terminalAccepted := s.history.terminalAccepted
            || (accepted && request.isTerminal && request.update.jobId == s.currentJob.jobId) } }
  match r.ret with
  | none => s
  | some ret => s.attributeResponse ret accepted posted

/-- The successful branch of `RMAKER_MQTT_EVENT_SUBSCRIBED`: the terminal updates are sent again,
and the jobs are fetched. -/
def Ctx.onSubscribed (s : Ctx) (snapshotAllocated : Bool) (copied : Nat → Bool)
    (envs : Nat → StatusEnv) (env : Env) : Ctx :=
  let (status, resent) := s.status.resendPendingTerminals snapshotAllocated copied envs
  let s := { s with status := status, requests := s.requests ++ resent }
  if env.enqueued then s.enqueue .fetchRequested else s.enterErrorState env .retryWithBackoff

/-- What happens next. -/
inductive Action
  /-- The work queue runs the machine on its next event. -/
  | run (env : Env)
  /-- An event is posted from outside. -/
  | post (e : Event) (posted : Bool)
  /-- The service answers a published request. -/
  | response (request : UpdateRequest) (accepted : Bool) (code versionNumber : List Char)
      (env : StatusEnv) (posted : Bool)
  /-- The retry timer of a status entry fires. -/
  | retryTimer (ptr : Nat) (env : StatusEnv)
  /-- The timer of the error backoff fires. -/
  | backoffTimer (posted scheduled : Bool)
  /-- `esp_rmaker_ota_request_recovery`. -/
  | requestRecovery (posted : Bool)
  /-- The jobs subscription is acknowledged. -/
  | subscribed (snapshotAllocated : Bool) (copied : Nat → Bool) (envs : Nat → StatusEnv)
      (env : Env)
  /-- `esp_rmaker_ota_report_status`, for the statuses that go to the service. -/
  | reportStatus (report : CustomReport) (details : StatusDetails) (encoded : Bool)
      (env : StatusEnv)

/-- The payload of the answer to a request. -/
def answerPayload (request : UpdateRequest) (code versionNumber : List Char) : ResponsePayload where
  clientToken := request.clientToken
  code := code
  versionNumber := versionNumber

/-- One run of the machine, or one thing that another task does. -/
def step (cfg : Config) (s : Ctx) : Action → Option Ctx
  | .run env =>
    match s.queue with
    | [] => none
    | e :: rest => some (runOnce cfg env { s with queue := rest } e)
  | .post e posted => if e.isExternal then some (s.postEvent e posted) else none
  | .response request accepted code versionNumber env posted =>
    if request ∈ s.requests then
      some (s.onUpdateResponse request (answerPayload request code versionNumber) accepted env
        posted)
    else none
  | .retryTimer ptr env =>
    match s.status.entries.find? fun e => e.ptr == ptr && e.timer.isSome with
    | none => none
    | some e =>
      let (status, sent) := s.status.retryTask e env
      some { s with status := status, requests := s.requests ++ sent.toList }
  | .backoffTimer posted scheduled =>
    if s.errorRetryArmed then some (s.retryWithBackoffTask posted scheduled) else none
  | .requestRecovery posted => some (s.recover posted).2
  | .subscribed snapshotAllocated copied envs env =>
    some (s.onSubscribed snapshotAllocated copied envs env)
  | .reportStatus report details encoded env =>
    some (s.otaJobsPublish report.status details encoded env).2

end RainMakerNeo.Ota.Jobs
