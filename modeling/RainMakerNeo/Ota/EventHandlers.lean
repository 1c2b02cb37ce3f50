import RainMakerNeo.Ota.EventMemory

/-!
# `RainMakerNeo.Ota.EventHandlers`: what a handler does with its event

`run_once` hands an event to the handler of the state and ends it behind the handler, unless the
handler has cleared `should_free_event`. `Prog` is a handler as far as events are concerned: the
events it enqueues, its own event that it enqueues again or keeps for a recovery, the errors it
enters, and the next state. A condition on other data is a `choose`, and the result of
`ota_status_send` is a `send`. So a program has a path for each way through the source function.

`Disciplined` is the rule for `should_free_event`: a handler gives its event away only once.
`handleState_disciplined` says that all handlers follow the rule.
-/

set_option autoImplicit false

namespace RainMakerNeo.Ota.Events

open RainMakerNeo.Ota.Jobs (JobState ErrorReason CustomReport)
open RainMakerNeo.Ota.Status (EspError)

/-! ### Programs -/

/-- The body of a handler. -/
inductive Prog
  /-- `return next_state`. -/
  | done (next : JobState)
  | choose (k : Bool → Prog)
  | send (k : EspError → Prog)
  /-- `enqueue_event` of a copy. `payload` tells whether the event has one. -/
  | enqueue (event : JobEvent) (payload : Bool) (k : Bool → Prog)
  /-- `ota_job_state_post_event`. -/
  | postEvent (event : JobEvent) (k : Bool → Prog)
  /-- `should_free_event` is cleared, and `enqueue_event` gets the event itself. -/
  | repost (k : Bool → Prog)
  /-- `enter_error_state`. -/
  | error (reason : ErrorReason) (k : Prog)
  /-- `should_free_event` is cleared, and `enter_error_state_custom` gets the event. -/
  | keep (reason : ErrorReason) (recovery : JobState) (k : Prog)
  /-- The kept event of the recovery is enqueued, or a copy of its recovery event. -/
  | postRecovery (k : Bool → Prog)
  /-- `recovery_reset_context`, behind the read of the recovery state. -/
  | recoveryReset (k : JobState → Prog)

/-- The recovery state and event that `enter_error_state` records. -/
def recoveryFor : ErrorReason → JobState × JobEvent
  | .subscriptionFailed => (.networkInit, .emptyTransition)
  | .retryWithBackoff | .timeoutHandlerRestartFailed | .getPendingInvalidFormat
  | .getPendingRejected | .describeJobRejected | .jobDocParseFailed => (.idle, .fetchRequested)
  | .none | .noPendingJobs | .fatalInitFailed | .fatalUnexpectedFormat =>
    (.uninitialized, .errorOccurred)

/-- An event that cannot be enqueued is an error with backoff. -/
def retryUnless (next : JobState) (queued : Bool) : Prog :=
  if queued then .done next else .error .retryWithBackoff (.done .error)

/-- `enqueue_transition_event`, on the way to the next state. -/
def enqueueTransition (next : JobState) : Prog :=
  .enqueue .emptyTransition false (retryUnless next)

/-- What follows a send that the state needs. -/
def afterSend (recovery : JobState) (k : Prog) : Prog :=
  .send fun err =>
    if err = .invalidArg then .error .fatalUnexpectedFormat (.done .error)
    else if err ≠ .ok then .keep .retryWithBackoff recovery (.done .error)
    else k

/-! ### The handlers -/

/-- `handle_state_network_init`. -/
def handleStateNetworkInit (e : EventData) : Prog :=
  if e.event ≠ .emptyTransition then .done .networkInit
  else .choose fun subscribed =>
    if subscribed then
      .choose fun rebootCheck =>
        if rebootCheck then .done .rebootCheck
        else .postEvent .emptyTransition fun _ => .done .idle
    else .error .subscriptionFailed (.done .error)

/-- `handle_state_reboot_check`. -/
def handleStateRebootCheck (e : EventData) : Prog :=
  match e.event with
  | .finalStatusReportRequested =>
    .choose fun hasDetails =>
      if hasDetails then afterSend .rebootCheck (.done .rebootCheck)
      else .error .fatalUnexpectedFormat (.done .error)
  | .rebootCheckRequested =>
    .choose fun checked =>
      if checked then afterSend .rebootCheck (.done .rebootCheck) else .done .rebootCheck
  | .updateAccepted =>
    .choose fun delayed =>
      if delayed then .done .rebootCheck
      else .choose fun expected =>
        if expected then .done .idle else .error .fatalUnexpectedFormat (.done .error)
  | .updateRejected => if e.fixedData = 0 then .done .rebootCheck else .done .idle
  | _ => .done .rebootCheck

/-- `handle_state_idle`. -/
def handleStateIdle (e : EventData) : Prog :=
  match e.event with
  | .fetchRequested => enqueueTransition .fetchingPendingJobs
  | .jobsChanged => .repost (retryUnless .jobsChanged)
  | _ => .done .idle

/-- What follows the parse of a list of pending jobs. -/
def afterPendingJobs : Prog :=
  .choose fun found =>
    if found then enqueueTransition .fetchingJobDoc
    else .choose fun noPendingJobs =>
      if noPendingJobs then .done .idle else .error .getPendingInvalidFormat (.done .error)

/-- `handle_state_jobs_changed`. -/
def handleStateJobsChanged (e : EventData) : Prog :=
  if e.event ≠ .jobsChanged then .done .jobsChanged
  else if e.payload.isNone then .done .idle
  else .choose fun hasData => if hasData then afterPendingJobs else .done .idle

/-- `start_response_timer`, on the way to the next state. -/
def startResponseTimer (next : JobState) : Prog :=
  .choose fun started =>
    if started then .done next else .error .timeoutHandlerRestartFailed (.done next)

/-- `handle_state_fetching_pending_jobs`. -/
def handleStateFetchingPendingJobs (e : EventData) : Prog :=
  if e.event ≠ .emptyTransition then .done .fetchingPendingJobs
  else .choose fun published =>
    if published then startResponseTimer .waitingForPendingJobs
    else .error .retryWithBackoff (.done .fetchingPendingJobs)

/-- `handle_state_waiting_for_pending_jobs`. -/
def handleStateWaitingForPendingJobs (e : EventData) : Prog :=
  match e.event with
  | .pendingJobsAccepted => .repost (retryUnless .pendingJobsReceived)
  | .pendingJobsRejected => .error .getPendingRejected (.done .waitingForPendingJobs)
  | .timeout => .error .retryWithBackoff (.done .waitingForPendingJobs)
  | _ => .done .waitingForPendingJobs

/-- `handle_state_pending_jobs_received`. -/
def handleStatePendingJobsReceived (e : EventData) : Prog :=
  if e.event ≠ .pendingJobsAccepted then .done .pendingJobsReceived
  else if e.payload.isNone then .error .getPendingInvalidFormat (.done .pendingJobsReceived)
  else .choose fun hasData =>
    if hasData then afterPendingJobs
    else .error .getPendingInvalidFormat (.done .pendingJobsReceived)

/-- `handle_state_fetching_job_doc`. -/
def handleStateFetchingJobDoc (e : EventData) : Prog :=
  if e.event ≠ .emptyTransition then .done .fetchingJobDoc
  else .choose fun hasJobId =>
    if hasJobId then
      .choose fun published =>
        if published then startResponseTimer .waitingForJobDoc
        else .error .retryWithBackoff (.done .fetchingJobDoc)
    else .choose fun hasPendingJob =>
      if hasPendingJob then enqueueTransition .jobExecution else .done .idle

/-- `handle_state_waiting_for_job_doc`. -/
def handleStateWaitingForJobDoc (e : EventData) : Prog :=
  match e.event with
  | .jobDocAccepted => .repost (retryUnless .jobDocReceived)
  | .jobDocRejected => .error .describeJobRejected (.done .waitingForJobDoc)
  | .timeout => .error .retryWithBackoff (.done .waitingForJobDoc)
  | _ => .done .waitingForJobDoc

/-- The label `handle_state_job_doc_received_end`. -/
def jobDocEnd (error : ErrorReason) : Prog :=
  if error ≠ .none then .error error (.done .error) else enqueueTransition .fetchingJobDoc

/-- The label `handle_state_job_doc_received_reject`. -/
def jobDocReject : Prog :=
  .choose fun versionSet =>
    if versionSet then
      .send fun err =>
        if err = .invalidArg then jobDocEnd .fatalUnexpectedFormat
        else if err ≠ .ok then .keep .retryWithBackoff .jobDocReceived (.done .error)
        else jobDocEnd .none
    else jobDocEnd .fatalUnexpectedFormat

/-- `handle_state_job_doc_received`. The document is ignored or selected, it is rejected, it is the
document of a custom job, or its data cannot be set. -/
def handleStateJobDocReceived (e : EventData) : Prog :=
  if e.event ≠ .jobDocAccepted then .done .jobDocReceived
  else if e.payload.isNone then jobDocEnd .none
  else .choose fun accepted =>
    if accepted then jobDocEnd .none
    else .choose fun rejected =>
      if rejected then jobDocReject
      else .choose fun customJob =>
        if customJob then
          .enqueue .customJobExecutionRequested true (retryUnless .customJobExecution)
        else jobDocEnd .jobDocParseFailed

/-- `handle_state_custom_job_execution`. -/
def handleStateCustomJobExecution (e : EventData) : Prog :=
  match e.event with
  | .customJobExecutionRequested =>
    .choose fun executed =>
      if executed then .done .customJobExecution
      else .choose fun invalid =>
        .enqueue (.customJobReport (if invalid then .rejected else .failed)) true
          (retryUnless .customJobExecution)
  | .customJobReport _ => afterSend .customJobExecution (.done .customJobExecution)
  | .updateAccepted =>
    .choose fun finished =>
      if finished then .postEvent .fetchRequested (retryUnless .idle)
      else .done .customJobExecution
  | _ => .done .customJobExecution

/-- The final status of a download that failed is enqueued as an event. -/
def enqueueFailed : Prog := .enqueue .finalStatusReportRequested true (retryUnless .postDownload)

/-- `handle_state_job_execution`. The first run starts the download, whatever its event is. -/
def handleStateJobExecution (e : EventData) : Prog :=
  .choose fun active =>
    if active then
      match e.event with
      | .imageDownloadSucceeded => .repost (retryUnless .postDownload)
      | .timeout => .error .retryWithBackoff (.done .jobExecution)
      | .imageDownloadFailed _ => enqueueFailed
      | _ => .done .jobExecution
    else .choose fun started => if started then .done .jobExecution else enqueueFailed

/-- The events of `handle_state_post_download`, behind a queued final status. -/
def postDownloadEvent (e : EventData) : Prog :=
  match e.event with
  | .finalStatusReportRequested =>
    .choose fun hasDetails =>
      if hasDetails then afterSend .idle (.done .postDownload)
      else .error .fatalUnexpectedFormat (.done .error)
  | .updateAccepted =>
    .choose fun finished =>
      if finished then .postEvent .fetchRequested (retryUnless .idle) else .done .postDownload
  | _ => .done .postDownload

/-- `handle_state_post_download`. -/
def handleStatePostDownload (e : EventData) : Prog :=
  .choose fun finalStatusQueued =>
    if finalStatusQueued then afterSend .postDownload (postDownloadEvent e)
    else postDownloadEvent e

/-- `handle_state_error`. -/
def handleStateError (e : EventData) : Prog :=
  match e.event with
  | .recoveryRequested =>
    .postRecovery fun queued => if queued then .recoveryReset .done else .done .error
  | _ => .done .error

/-- The handler of a state. -/
def handleState (state : JobState) (e : EventData) : Prog :=
  match state with
  | .uninitialized => .done .uninitialized
  | .networkInit => handleStateNetworkInit e
  | .rebootCheck => handleStateRebootCheck e
  | .idle => handleStateIdle e
  | .jobsChanged => handleStateJobsChanged e
  | .fetchingPendingJobs => handleStateFetchingPendingJobs e
  | .waitingForPendingJobs => handleStateWaitingForPendingJobs e
  | .pendingJobsReceived => handleStatePendingJobsReceived e
  | .fetchingJobDoc => handleStateFetchingJobDoc e
  | .waitingForJobDoc => handleStateWaitingForJobDoc e
  | .jobDocReceived => handleStateJobDocReceived e
  | .customJobExecution => handleStateCustomJobExecution e
  | .jobExecution => handleStateJobExecution e
  | .postDownload => handleStatePostDownload e
  | .error => handleStateError e

/-! ### The event is given away once -/

/-- A program gives its event away at most once. `holds` tells that it still has it. -/
def Prog.Disciplined (holds : Bool) : Prog → Prop
  | .done _ => True
  | .choose k => ∀ b, (k b).Disciplined holds
  | .send k => ∀ err, (k err).Disciplined holds
  | .enqueue _ _ k => ∀ b, (k b).Disciplined holds
  | .postEvent _ k => ∀ b, (k b).Disciplined holds
  | .repost k => holds = true ∧ ∀ b, (k b).Disciplined false
  | .error _ k => k.Disciplined holds
  | .keep _ _ k => holds = true ∧ k.Disciplined false
  | .postRecovery k => ∀ b, (k b).Disciplined holds
  | .recoveryReset k => ∀ state, (k state).Disciplined holds

section
variable {holds : Bool} {e : EventData}

/-- An error after a failed enqueue has no event to give away. -/
theorem retryUnless_disciplined (next : JobState) (queued : Bool) :
    (retryUnless next queued).Disciplined holds := by
  cases queued <;> trivial

/-- A transition takes a new event. -/
theorem enqueueTransition_disciplined (next : JobState) :
    (enqueueTransition next).Disciplined holds := retryUnless_disciplined next

/-- A refused send gives the event away, and the handler ends. -/
theorem afterSend_disciplined (recovery : JobState) {k : Prog} (hk : k.Disciplined true) :
    (afterSend recovery k).Disciplined true := by
  intro err
  dsimp only
  split
  · trivial
  · split
    · exact ⟨rfl, trivial⟩
    · exact hk

/-- Each outcome of the parser leaves the event. -/
theorem afterPendingJobs_disciplined : afterPendingJobs.Disciplined holds := by
  intro found
  cases found with
  | true => exact enqueueTransition_disciplined _
  | false =>
    intro noPendingJobs
    cases noPendingJobs <;> trivial

/-- The response timer leaves the event. -/
theorem startResponseTimer_disciplined (next : JobState) :
    (startResponseTimer next).Disciplined holds := by
  intro started
  cases started <;> trivial

/-- So does the end of a document. -/
theorem jobDocEnd_disciplined (error : ErrorReason) : (jobDocEnd error).Disciplined holds := by
  rw [jobDocEnd]
  split
  · trivial
  · exact enqueueTransition_disciplined _

/-- A rejection that is refused gives the document away. -/
theorem jobDocReject_disciplined : jobDocReject.Disciplined true := by
  intro versionSet
  cases versionSet with
  | true =>
    intro err
    dsimp only
    split
    · exact jobDocEnd_disciplined _
    · split
      · exact ⟨rfl, trivial⟩
      · exact jobDocEnd_disciplined _
  | false => exact jobDocEnd_disciplined .fatalUnexpectedFormat

/-- `handle_state_network_init` keeps its event. -/
theorem handleStateNetworkInit_disciplined : (handleStateNetworkInit e).Disciplined holds := by
  rw [handleStateNetworkInit]
  split
  · trivial
  · intro subscribed
    cases subscribed with
    | true =>
      intro rebootCheck
      cases rebootCheck
      · exact fun _ => trivial
      · trivial
    | false => trivial

/-- A refused report is the only way to give the event away. -/
theorem handleStateRebootCheck_disciplined : (handleStateRebootCheck e).Disciplined true := by
  rw [handleStateRebootCheck]
  split
  · intro hasDetails
    cases hasDetails
    · trivial
    · exact afterSend_disciplined _ trivial
  · intro checked
    cases checked
    · trivial
    · exact afterSend_disciplined _ trivial
  · intro delayed
    cases delayed
    · intro expected
      cases expected <;> trivial
    · trivial
  · split <;> trivial
  · trivial

/-- A notification is enqueued again. -/
theorem handleStateIdle_disciplined : (handleStateIdle e).Disciplined true := by
  rw [handleStateIdle]
  split
  · exact enqueueTransition_disciplined _
  · exact ⟨rfl, retryUnless_disciplined _⟩
  · trivial

/-- `handle_state_jobs_changed` keeps its event. -/
theorem handleStateJobsChanged_disciplined : (handleStateJobsChanged e).Disciplined holds := by
  rw [handleStateJobsChanged]
  split_ifs
  · trivial
  · trivial
  · intro hasData
    cases hasData
    · trivial
    · exact afterPendingJobs_disciplined

/-- So does the request for the list. -/
theorem handleStateFetchingPendingJobs_disciplined :
    (handleStateFetchingPendingJobs e).Disciplined holds := by
  rw [handleStateFetchingPendingJobs]
  split
  · trivial
  · intro published
    cases published
    · trivial
    · exact startResponseTimer_disciplined _

/-- The list is enqueued again. -/
theorem handleStateWaitingForPendingJobs_disciplined :
    (handleStateWaitingForPendingJobs e).Disciplined true := by
  rw [handleStateWaitingForPendingJobs]
  split
  · exact ⟨rfl, retryUnless_disciplined _⟩
  all_goals trivial

/-- The parser only reads the list. -/
theorem handleStatePendingJobsReceived_disciplined :
    (handleStatePendingJobsReceived e).Disciplined holds := by
  rw [handleStatePendingJobsReceived]
  split_ifs
  · trivial
  · trivial
  · intro hasData
    cases hasData
    · trivial
    · exact afterPendingJobs_disciplined

/-- The request for a document keeps the event. -/
theorem handleStateFetchingJobDoc_disciplined :
    (handleStateFetchingJobDoc e).Disciplined holds := by
  rw [handleStateFetchingJobDoc]
  split
  · trivial
  · intro hasJobId
    cases hasJobId with
    | true =>
      intro published
      cases published
      · trivial
      · exact startResponseTimer_disciplined _
    | false =>
      intro hasPendingJob
      cases hasPendingJob
      · trivial
      · exact enqueueTransition_disciplined _

/-- The document is enqueued again. -/
theorem handleStateWaitingForJobDoc_disciplined :
    (handleStateWaitingForJobDoc e).Disciplined true := by
  rw [handleStateWaitingForJobDoc]
  split
  · exact ⟨rfl, retryUnless_disciplined _⟩
  all_goals trivial

/-- A document is given away with its rejection only. -/
theorem handleStateJobDocReceived_disciplined :
    (handleStateJobDocReceived e).Disciplined true := by
  rw [handleStateJobDocReceived]
  split_ifs
  · trivial
  · exact jobDocEnd_disciplined _
  · intro accepted
    cases accepted with
    | true => exact jobDocEnd_disciplined .none
    | false =>
      intro rejected
      cases rejected with
      | true => exact jobDocReject_disciplined
      | false =>
        intro customJob
        cases customJob
        · exact jobDocEnd_disciplined .jobDocParseFailed
        · exact retryUnless_disciplined _

/-- A report is given away where it is refused. -/
theorem handleStateCustomJobExecution_disciplined :
    (handleStateCustomJobExecution e).Disciplined true := by
  rw [handleStateCustomJobExecution]
  split
  · intro executed
    cases executed
    · exact fun _ => retryUnless_disciplined _
    · trivial
  · exact afterSend_disciplined _ trivial
  · intro finished
    cases finished
    · trivial
    · exact retryUnless_disciplined _
  · trivial

/-- An image that is there enqueues its event again. -/
theorem handleStateJobExecution_disciplined : (handleStateJobExecution e).Disciplined true := by
  intro active
  cases active with
  | true =>
    simp only [if_true]
    split
    · exact ⟨rfl, retryUnless_disciplined _⟩
    · trivial
    · exact retryUnless_disciplined _
    · trivial
  | false =>
    intro started
    cases started
    · exact retryUnless_disciplined _
    · trivial

/-- A final status is given away where it is refused. -/
theorem postDownloadEvent_disciplined : (postDownloadEvent e).Disciplined true := by
  rw [postDownloadEvent]
  split
  · intro hasDetails
    cases hasDetails
    · trivial
    · exact afterSend_disciplined _ trivial
  · intro finished
    cases finished
    · trivial
    · exact retryUnless_disciplined _
  · trivial

/-- So is the event behind a queued status. -/
theorem handleStatePostDownload_disciplined : (handleStatePostDownload e).Disciplined true := by
  intro finalStatusQueued
  cases finalStatusQueued
  · exact postDownloadEvent_disciplined
  · exact afterSend_disciplined _ postDownloadEvent_disciplined

/-- `handle_state_error` enqueues the kept event, not its own. -/
theorem handleStateError_disciplined : (handleStateError e).Disciplined holds := by
  rw [handleStateError]
  split
  · intro queued
    cases queued
    · trivial
    · exact fun _ => trivial
  · trivial

end

/-- Each handler gives its event away at most once. -/
theorem handleState_disciplined (state : JobState) (e : EventData) :
    (handleState state e).Disciplined true := by
  cases state with
  | uninitialized => trivial
  | networkInit => exact handleStateNetworkInit_disciplined
  | rebootCheck => exact handleStateRebootCheck_disciplined
  | idle => exact handleStateIdle_disciplined
  | jobsChanged => exact handleStateJobsChanged_disciplined
  | fetchingPendingJobs => exact handleStateFetchingPendingJobs_disciplined
  | waitingForPendingJobs => exact handleStateWaitingForPendingJobs_disciplined
  | pendingJobsReceived => exact handleStatePendingJobsReceived_disciplined
  | fetchingJobDoc => exact handleStateFetchingJobDoc_disciplined
  | waitingForJobDoc => exact handleStateWaitingForJobDoc_disciplined
  | jobDocReceived => exact handleStateJobDocReceived_disciplined
  | customJobExecution => exact handleStateCustomJobExecution_disciplined
  | jobExecution => exact handleStateJobExecution_disciplined
  | postDownload => exact handleStatePostDownload_disciplined
  | error => exact handleStateError_disciplined

end RainMakerNeo.Ota.Events
