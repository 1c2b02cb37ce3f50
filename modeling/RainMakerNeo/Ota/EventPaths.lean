import RainMakerNeo.Ota.EventHandlers
import RainMakerNeo.Ota.JobsMachine

/-!
# `RainMakerNeo.Ota.EventPaths`: the state machine takes the paths of the programs

The programs of `EventHandlers` leave most conditions open. The handlers of `JobsMachine` decide
them from the data of the job. `Takes` is a path through a program, with its effect on the queue and
on the recovery record. `runOnce_takes` says that each run of the state machine takes a path of the
program for its state and its event. So what holds on all paths of the programs holds of the state
machine. `handleState_states` is an instance of that: the `successors` of a state are all that its
handler can lead to.
-/

set_option autoImplicit false

namespace RainMakerNeo.Ota.Events

open RainMakerNeo.Lib
open RainMakerNeo.Ota.Jobs (JobState ErrorReason Config Env Ctx Event JobDoc CustomFields
  PendingJobs LastJob StatusDetails)
open RainMakerNeo.Ota.Status (EspError StatusEnv)

/-! ### Paths -/

/-- `ota_job_event_t` of an event of the state machine. -/
def kind : Event → JobEvent
  | .emptyTransition => .emptyTransition
  | .errorOccurred => .errorOccurred
  | .rebootCheckRequested => .rebootCheckRequested
  | .finalStatusReportRequested _ => .finalStatusReportRequested
  | .fetchRequested => .fetchRequested
  | .jobsChanged _ => .jobsChanged
  | .pendingJobsAccepted _ => .pendingJobsAccepted
  | .pendingJobsRejected => .pendingJobsRejected
  | .jobDocAccepted _ => .jobDocAccepted
  | .jobDocRejected => .jobDocRejected
  | .updateAccepted => .updateAccepted
  | .updateRejected _ => .updateRejected
  | .timeout => .timeout
  | .imageDownloadProgress _ => .imageDownloadProgress
  | .imageDownloadSucceeded _ => .imageDownloadSucceeded
  | .imageDownloadFailed failure => .imageDownloadFailed failure
  | .customJobExecutionRequested _ => .customJobExecutionRequested
  | .customJobReport report _ => .customJobReport report
  | .recoveryRequested => .recoveryRequested

/-- The event data that a program gets for an event: whether there is a payload, and the scalar. -/
def eventData (e : Event) : EventData where
  event := kind e
  payload := match e with
    | .jobsChanged none | .pendingJobsAccepted none | .jobDocAccepted none => none
    | _ => some 0
  fixedData := match e with
    | .updateRejected true | .imageDownloadSucceeded true => 1
    | _ => 0

/-- What a program changes: the events of the queue, and the recovery record. -/
structure Flow where
  queue : List JobEvent
  state : JobState
  kept : Option JobEvent
  event : JobEvent

/-- The events and the record of the state machine. -/
def flow (s : Ctx) : Flow where
  queue := s.queue.map kind
  state := s.recovery.state
  kept := s.recovery.eventData.map kind
  event := kind s.recovery.event

/-- An event that is queued, or not. -/
def Flow.push (f : Flow) (queued : Bool) (event : JobEvent) : Flow :=
  if queued then { f with queue := f.queue ++ [event] } else f

/-- A way through a program for the event `own`. -/
inductive Takes (own : JobEvent) : Prog → Flow → Flow → JobState → Prop
  | done {f : Flow} {next : JobState} : Takes own (.done next) f f next
  | choose {k : Bool → Prog} {f g : Flow} {next : JobState} (b : Bool)
      (h : Takes own (k b) f g next) : Takes own (.choose k) f g next
  | send {k : EspError → Prog} {f g : Flow} {next : JobState} (err : EspError)
      (h : Takes own (k err) f g next) : Takes own (.send k) f g next
  | enqueue {event : JobEvent} {payload : Bool} {k : Bool → Prog} {f g : Flow} {next : JobState}
      (queued : Bool) (h : Takes own (k queued) (f.push queued event) g next) :
      Takes own (.enqueue event payload k) f g next
  | postEvent {event : JobEvent} {k : Bool → Prog} {f g : Flow} {next : JobState} (posted : Bool)
      (h : Takes own (k posted) (f.push posted event) g next) :
      Takes own (.postEvent event k) f g next
  | repost {k : Bool → Prog} {f g : Flow} {next : JobState} (queued : Bool)
      (h : Takes own (k queued) (f.push queued own) g next) : Takes own (.repost k) f g next
  | error {reason : ErrorReason} {k : Prog} {f g : Flow} {next : JobState} (posted : Bool)
      (h : Takes own k
        ({ f with
            state := (recoveryFor reason).1, kept := none, event := (recoveryFor reason).2 }.push
          posted .errorOccurred) g next) : Takes own (.error reason k) f g next
  | keep {reason : ErrorReason} {recovery : JobState} {k : Prog} {f g : Flow} {next : JobState}
      (posted : Bool)
      (h : Takes own k
        ({ f with state := recovery, kept := some own, event := .errorOccurred }.push
          posted .errorOccurred) g next) : Takes own (.keep reason recovery k) f g next
  | postRecovery {k : Bool → Prog} {f g : Flow} {next : JobState} (queued : Bool)
      (h : Takes own (k queued)
        ({ f with kept := none }.push queued (f.kept.getD f.event)) g next) :
      Takes own (.postRecovery k) f g next
  | recoveryReset {k : JobState → Prog} {f g : Flow} {next : JobState}
      (h : Takes own (k f.state)
        { f with state := .uninitialized, kept := none, event := .errorOccurred } g next) :
      Takes own (.recoveryReset k) f g next

/-- The result of a handler of the state machine is that of a path. -/
def Follows (s : Ctx) (e : Event) (prog : Prog) (r : Ctx × JobState) : Prop :=
  Takes (kind e) prog (flow s) (flow r.1) r.2

section
variable {env : Env} {s t : Ctx} {e e' : Event} {k prog : Prog} {r : Ctx × JobState}
  {next : JobState}

/-! ### The shared parts -/

/-- A program that is over leaves the queue and the record. -/
theorem follows_done (hflow : flow t = flow s) : Follows s e (.done next) (t, next) := by
  rw [Follows, hflow]
  exact .done

/-- What a handler does to other data does not matter. -/
theorem Follows.of_flow (h : Follows t e prog r) (hflow : flow t = flow s) :
    Follows s e prog r := by
  rw [Follows, ← hflow]
  exact h

/-- A posted event is in the queue if there was room. -/
theorem flow_postEvent (posted : Bool) :
    flow (s.postEvent e posted) = (flow s).push posted (kind e) := by
  cases posted with
  | true => simp [Ctx.postEvent, Ctx.enqueue, flow, Flow.push]
  | false => rfl

/-- So is the event of an error. -/
theorem flow_postErrorEvent (reason : ErrorReason) :
    flow (s.postErrorEvent env reason) = (flow s).push env.errorPosted .errorOccurred := by
  have hposted := flow_postEvent (s := { s with lastError := reason }) (e := .errorOccurred)
    env.errorPosted
  rw [Ctx.postErrorEvent]
  split
  · exact hposted
  · exact hposted

/-- `enter_error_state` and the rest of the program. -/
theorem follows_error (reason : ErrorReason)
    (h : Follows (s.enterErrorState env reason) e k r) : Follows s e (.error reason k) r := by
  have hrecovery : flow ({ s.recordError reason false with recovery := reason.recovery }) =
      { flow s with
        state := (recoveryFor reason).1, kept := none, event := (recoveryFor reason).2 } := by
    cases reason <;> rfl
  refine .error env.errorPosted ?_
  rw [← hrecovery, ← flow_postErrorEvent reason]
  exact h

/-- Most handlers return after `enter_error_state`. -/
theorem follows_errorDone (reason : ErrorReason) :
    Follows s e (.error reason (.done next)) (s.enterErrorState env reason, next) :=
  follows_error reason (follows_done rfl)

/-- The custom error keeps the event of the handler. -/
theorem follows_keepDone (reason : ErrorReason) (recovery : JobState) :
    Follows s e (.keep reason recovery (.done next))
      (s.enterErrorStateCustom env reason recovery e, next) := by
  have hrecovery : flow ({ s.recordError reason true with
      recovery := { state := recovery, eventData := some e, event := .errorOccurred } }) =
      { flow s with state := recovery, kept := some (kind e), event := .errorOccurred } := rfl
  refine .keep env.errorPosted ?_
  rw [← hrecovery, ← flow_postErrorEvent reason]
  exact .done

/-- Behind an event that was queued or not. -/
theorem takes_retryUnless {queued : Bool} {event : JobEvent}
    (hqueued : queued = env.enqueued) (hevent : event = kind e') :
    Takes (kind e) (retryUnless next queued) ((flow s).push queued event)
      (flow (s.moveTo env e' next).1) (s.moveTo env e' next).2 := by
  subst hqueued hevent
  rw [Ctx.moveTo, retryUnless, ← flow_postEvent]
  cases hcase : env.enqueued with
  | true => exact .done
  | false => exact follows_errorDone .retryWithBackoff

/-- A transition takes an event with it. -/
theorem follows_enqueue (e' : Event) {payload : Bool} :
    Follows s e (.enqueue (kind e') payload (retryUnless next)) (s.moveTo env e' next) :=
  .enqueue env.enqueued (takes_retryUnless rfl rfl)

/-- Mostly the empty one. -/
theorem follows_enqueueTransition :
    Follows s e (enqueueTransition next) (s.moveTo env .emptyTransition next) := by
  exact follows_enqueue .emptyTransition

/-- The event may be another one, without a payload. -/
theorem follows_postEvent (e' : Event) :
    Follows s e (.postEvent (kind e') (retryUnless next)) (s.moveTo env e' next) :=
  .postEvent env.enqueued (takes_retryUnless rfl rfl)

/-- It may be the event that the handler got. -/
theorem follows_repost : Follows s e (.repost (retryUnless next)) (s.moveTo env e next) :=
  .repost env.enqueued (takes_retryUnless rfl rfl)

/-- After a send, the handler goes on or keeps its event. -/
theorem follows_afterSend (err : EspError) (recovery : JobState)
    (h : err = .ok → Follows s e k r) :
    Follows s e (afterSend recovery k) (s.afterSend env err recovery e r) := by
  refine .send err ?_
  rw [Ctx.afterSend]
  split
  · exact follows_errorDone .fatalUnexpectedFormat
  · split
    · exact follows_keepDone .retryWithBackoff recovery
    · rename_i hok
      exact h (not_not.mp hok)

/-- The parser of a list has three outcomes. -/
theorem follows_afterPendingJobs (error : ErrorReason) (herror : error = .none ∨
    error = .noPendingJobs ∨ error = .getPendingInvalidFormat) :
    Follows s e afterPendingJobs (s.afterPendingJobs env error) := by
  rcases herror with rfl | rfl | rfl
  · exact .choose true follows_enqueueTransition
  · exact .choose false (.choose true (follows_done rfl))
  · exact .choose false (.choose false (follows_errorDone .getPendingInvalidFormat))

/-- A response timer that does not start is an error, and the next state stays. -/
theorem follows_startResponseTimer :
    Follows s e (startResponseTimer next) (s.startResponseTimer env, next) := by
  rw [Ctx.startResponseTimer]
  split
  · exact .choose true (follows_done rfl)
  · exact .choose false (follows_errorDone .timeoutHandlerRestartFailed)

/-! ### From the network to the list of jobs -/

/-- The job of the last boot posts nothing. -/
theorem flow_restoreLastJob (last : LastJob) : flow (s.restoreLastJob env last).2 = flow s := by
  simp only [Ctx.restoreLastJob]
  split_ifs
  · rfl
  · rfl
  · rfl
  · split
    · rfl
    · split <;> rfl

/-- After the subscription: the check of the reboot, or idle. -/
theorem follows_afterSubscribe :
    Follows s e (.choose fun rebootCheck =>
      if rebootCheck then .done .rebootCheck
      else .postEvent .emptyTransition fun _ => .done .idle) (s.afterSubscribe env) := by
  have hidle (t : Ctx) (hflow : flow t = flow s) : Takes (kind e)
      (.postEvent .emptyTransition fun _ => .done .idle) (flow s)
      (flow (t.postEvent .emptyTransition env.enqueued)) .idle := by
    refine .postEvent env.enqueued ?_
    rw [flow_postEvent, hflow]
    exact .done
  rw [Ctx.afterSubscribe]
  split
  · exact .choose false (hidle s rfl)
  · rename_i last _
    dsimp only
    split
    · exact .choose true (follows_done (flow_restoreLastJob last))
    · exact .choose false (hidle _ (flow_restoreLastJob last))

/-- `handle_state_network_init`. -/
theorem follows_networkInit :
    Follows s e (handleStateNetworkInit (eventData e)) (Jobs.handleStateNetworkInit env s e) := by
  have hevent : (eventData e).event ≠ .emptyTransition ↔ e ≠ .emptyTransition := by
    cases e <;> simp [eventData, kind]
  simp only [handleStateNetworkInit, Jobs.handleStateNetworkInit, hevent]
  split
  · exact follows_done rfl
  · split
    · exact .choose true follows_afterSubscribe
    · split
      · exact .choose true (follows_afterSubscribe.of_flow rfl)
      · exact .choose false ((follows_errorDone .subscriptionFailed).of_flow rfl)

/-- A final status posts nothing. -/
theorem flow_publishFinalStatus (details : StatusDetails) (encoded : Bool) (senv : StatusEnv) :
    flow (s.publishFinalStatus details encoded senv).2 = flow s := by
  rw [Ctx.publishFinalStatus]
  split <;> rfl

/-- `handle_state_reboot_check`. -/
theorem follows_rebootCheck :
    Follows s e (handleStateRebootCheck (eventData e)) (Jobs.handleStateRebootCheck env s e) := by
  cases e with
  | finalStatusReportRequested details =>
    have hflow := flow_publishFinalStatus (s := s) details env.detailsEncoded env.send
    refine .choose true (Follows.of_flow ?_ hflow)
    exact follows_afterSend _ _ fun _ => follows_done rfl
  | rebootCheckRequested =>
    simp only [Jobs.handleStateRebootCheck]
    split
    · exact .choose false (follows_done rfl)
    · split
      · refine .choose true (Follows.of_flow (follows_afterSend _ _ fun _ => ?_) rfl)
        exact follows_done rfl
      · exact .choose false (follows_done rfl)
  | updateAccepted =>
    simp only [Jobs.handleStateRebootCheck]
    split
    · exact .choose true (follows_done rfl)
    · split
      · exact .choose false (.choose true (follows_done rfl))
      · refine .choose false (.choose false (Follows.of_flow (t := s.dropRebootedJob) ?_ rfl))
        exact follows_errorDone .fatalUnexpectedFormat
  | updateRejected unrecoverable => cases unrecoverable <;> exact follows_done rfl
  | _ => exact follows_done rfl

/-- `handle_state_idle`. -/
theorem follows_idle :
    Follows s e (handleStateIdle (eventData e)) (Jobs.handleStateIdle env s e) := by
  cases e with
  | fetchRequested => exact follows_enqueueTransition
  | jobsChanged payload => exact follows_repost
  | _ => exact follows_done rfl

/-- These are the outcomes of the parser. -/
theorem pendingJobsToJobIdQueue_error (payload : PendingJobs) :
    (s.pendingJobsToJobIdQueue payload).1 = .none ∨
      (s.pendingJobsToJobIdQueue payload).1 = .noPendingJobs ∨
      (s.pendingJobsToJobIdQueue payload).1 = .getPendingInvalidFormat := by
  rw [Ctx.pendingJobsToJobIdQueue]
  split
  · dsimp only
    split <;> simp
  · simp

/-- The parse of a list, and what follows it. -/
theorem follows_pendingJobs (payload : PendingJobs) :
    Follows s e afterPendingJobs ((s.pendingJobsToJobIdQueue payload).2.afterPendingJobs env
      (s.pendingJobsToJobIdQueue payload).1) := by
  have hflow : flow (s.pendingJobsToJobIdQueue payload).2 = flow s := by
    rw [Ctx.pendingJobsToJobIdQueue]
    split <;> rfl
  exact (follows_afterPendingJobs _ (pendingJobsToJobIdQueue_error payload)).of_flow hflow

/-- `handle_state_jobs_changed`. -/
theorem follows_jobsChanged :
    Follows s e (handleStateJobsChanged (eventData e)) (Jobs.handleStateJobsChanged env s e) := by
  cases e with
  | jobsChanged payload =>
    cases payload with
    | none => exact follows_done rfl
    | some payload => exact .choose true (follows_pendingJobs payload)
  | _ => exact follows_done rfl

/-- `handle_state_fetching_pending_jobs`. -/
theorem follows_fetchingPendingJobs :
    Follows s e (handleStateFetchingPendingJobs (eventData e))
      (Jobs.handleStateFetchingPendingJobs env s e) := by
  have hevent : (eventData e).event ≠ .emptyTransition ↔ e ≠ .emptyTransition := by
    cases e <;> simp [eventData, kind]
  simp only [handleStateFetchingPendingJobs, Jobs.handleStateFetchingPendingJobs, hevent]
  split
  · exact follows_done rfl
  · split
    · exact .choose true follows_startResponseTimer
    · exact .choose false (follows_errorDone .retryWithBackoff)

/-- `handle_state_waiting_for_pending_jobs`. -/
theorem follows_waitingForPendingJobs :
    Follows s e (handleStateWaitingForPendingJobs (eventData e))
      (Jobs.handleStateWaitingForPendingJobs env s e) := by
  cases e with
  | pendingJobsAccepted payload => exact follows_repost
  | pendingJobsRejected => exact follows_errorDone .getPendingRejected
  | timeout => exact follows_errorDone .retryWithBackoff
  | _ => exact follows_done rfl

/-- `handle_state_pending_jobs_received`. -/
theorem follows_pendingJobsReceived :
    Follows s e (handleStatePendingJobsReceived (eventData e))
      (Jobs.handleStatePendingJobsReceived env s e) := by
  cases e with
  | pendingJobsAccepted payload =>
    cases payload with
    | none => exact follows_errorDone .getPendingInvalidFormat
    | some payload => exact .choose true ((follows_pendingJobs payload).of_flow rfl)
  | _ => exact follows_done rfl

/-! ### Job documents -/

/-- `handle_state_fetching_job_doc`. -/
theorem follows_fetchingJobDoc :
    Follows s e (handleStateFetchingJobDoc (eventData e))
      (Jobs.handleStateFetchingJobDoc env s e) := by
  have hevent : (eventData e).event ≠ .emptyTransition ↔ e ≠ .emptyTransition := by
    cases e <;> simp [eventData, kind]
  simp only [handleStateFetchingJobDoc, Jobs.handleStateFetchingJobDoc, hevent]
  split
  · exact follows_done rfl
  · split
    · split
      · exact .choose false (.choose true (follows_enqueueTransition.of_flow rfl))
      · exact .choose false (.choose false (follows_done rfl))
    · rename_i rest _
      have hflow : flow { s with jobIdQueue := rest } = flow s := rfl
      split
      · exact .choose true (.choose true (follows_startResponseTimer.of_flow hflow))
      · exact .choose true (.choose false ((follows_errorDone .retryWithBackoff).of_flow hflow))

/-- `handle_state_waiting_for_job_doc`. -/
theorem follows_waitingForJobDoc :
    Follows s e (handleStateWaitingForJobDoc (eventData e))
      (Jobs.handleStateWaitingForJobDoc env s e) := by
  cases e with
  | jobDocAccepted doc => exact follows_repost
  | jobDocRejected => exact follows_errorDone .describeJobRejected
  | timeout => exact follows_errorDone .retryWithBackoff
  | _ => exact follows_done rfl

/-- The end of a document: an error, or the next one. -/
theorem follows_jobDocEnd (error : ErrorReason) :
    Follows s e (jobDocEnd error) (s.jobDocEnd env error) := by
  rw [jobDocEnd, Ctx.jobDocEnd]
  split
  · exact follows_errorDone error
  · exact follows_enqueueTransition

variable {version : Int32} {cfg : Config}

/-- A rejection that cannot be sent keeps the document. -/
theorem follows_jobDocReject {jobId : CStr} {reason : String} :
    Follows s e jobDocReject (s.jobDocReject env e jobId version reason) := by
  simp only [Ctx.jobDocReject]
  split
  · refine .choose false (Follows.of_flow (t := { s with
      status := (s.status.setInitialExpectedVersion jobId version env.versionAllocated).2 }) ?_ rfl)
    exact follows_jobDocEnd .fatalUnexpectedFormat
  · generalize Ctx.publishUpdateJobStatus _ jobId .rejected _ _ _ = sent
    have hflow (status : Status.Cache) :
        flow ({ s with status := status }.sent sent) = flow s := rfl
    refine .choose true (.send sent.err ?_)
    split
    · exact (follows_jobDocEnd .fatalUnexpectedFormat).of_flow (hflow _)
    · split
      · exact (follows_keepDone .retryWithBackoff .jobDocReceived).of_flow (hflow _)
      · exact (follows_jobDocEnd .none).of_flow (hflow _)

/-- Another format is rejected, or starts a custom job. -/
theorem follows_jobDocInvalidFormat {doc : JobDoc} {reason : String} :
    Follows s e (.choose fun rejected =>
      if rejected then jobDocReject
      else .choose fun customJob =>
        if customJob then
          .enqueue .customJobExecutionRequested true (retryUnless .customJobExecution)
        else jobDocEnd .jobDocParseFailed)
      (s.jobDocInvalidFormat cfg env e doc version reason) := by
  rw [Ctx.jobDocInvalidFormat]
  split
  · refine .choose false (.choose true (Follows.of_flow (t := s.startCustomJob doc) ?_ rfl))
    exact follows_enqueue (.customJobExecutionRequested doc)
  · exact .choose true follows_jobDocReject

/-- What the rest of the document decides. -/
theorem follows_examineFields {doc : JobDoc} {custom : CustomFields} {payload : Nat} :
    Follows s e (handleStateJobDocReceived { event := .jobDocAccepted, payload := some payload })
      (s.examineFields cfg env e doc version custom) := by
  simp only [Ctx.examineFields]
  split
  · have hflow (f : Jobs.JobInfo → Jobs.JobInfo) : flow (s.setJob f) = flow s := rfl
    exact .choose false (.choose true (follows_jobDocReject.of_flow (hflow _)))
  · rename_i ft _
    have hflow (f g : Jobs.JobInfo → Jobs.JobInfo) : flow ((s.setJob f).setJob g) = flow s := rfl
    split
    · exact .choose true ((follows_jobDocEnd .none).of_flow (hflow _ _))
    · exact .choose false (.choose true (follows_jobDocReject.of_flow (hflow _ _)))
    · exact .choose false (follows_jobDocInvalidFormat.of_flow (hflow _ _))
    · split
      · refine .choose false (.choose false (.choose false ?_))
        exact (follows_jobDocEnd .jobDocParseFailed).of_flow rfl
      · exact .choose true ((follows_jobDocEnd .none).of_flow rfl)

/-- `handle_state_job_doc_received`. -/
theorem follows_jobDocReceived :
    Follows s e (handleStateJobDocReceived (eventData e))
      (Jobs.handleStateJobDocReceived cfg env s e) := by
  cases e with
  | jobDocAccepted doc =>
    cases doc with
    | none => exact (follows_jobDocEnd .none).of_flow rfl
    | some doc =>
      have hflow : flow { s.retryResetBackoff with
          history := { s.retryResetBackoff.history with
            round := doc :: s.retryResetBackoff.history.round } } = flow s := rfl
      simp only [Jobs.handleStateJobDocReceived, Ctx.examineJobDoc]
      split
      · exact .choose true ((follows_jobDocEnd .none).of_flow hflow)
      · split
        · exact .choose true ((follows_jobDocEnd .none).of_flow hflow)
        · split
          · exact .choose false (follows_jobDocInvalidFormat.of_flow hflow)
          · exact follows_examineFields.of_flow hflow
  | _ => exact follows_done rfl

/-! ### Jobs -/

/-- `handle_state_custom_job_execution`. -/
theorem follows_customJobExecution :
    Follows s e (handleStateCustomJobExecution (eventData e))
      (Jobs.handleStateCustomJobExecution env s e) := by
  cases e with
  | customJobExecutionRequested doc =>
    simp only [Jobs.handleStateCustomJobExecution]
    split
    · exact .choose true (follows_done rfl)
    · by_cases hinvalid : env.customJob = .invalidArg
      · refine .choose false (.choose true ?_)
        rw [Jobs.refusedReport, if_pos hinvalid]
        exact follows_enqueue (.customJobReport .rejected _)
      · refine .choose false (.choose false ?_)
        rw [Jobs.refusedReport, if_neg hinvalid]
        exact follows_enqueue (.customJobReport .failed _)
  | customJobReport report details =>
    refine Follows.of_flow (t := (s.otaJobsPublishWithString report.status details env.send).2)
      (follows_afterSend _ _ fun _ => follows_done rfl) rfl
  | updateAccepted =>
    simp only [Jobs.handleStateCustomJobExecution]
    split
    · exact .choose false (follows_done rfl)
    · split
      · exact .choose false (follows_done rfl)
      · refine .choose true (Follows.of_flow (t := s.retryResetBackoff) ?_ rfl)
        exact follows_postEvent .fetchRequested
  | _ => exact follows_done rfl

/-- A failed download takes its details along. -/
theorem follows_enqueueFailed {details : StatusDetails} :
    Follows s e enqueueFailed
      (s.moveTo env (.finalStatusReportRequested details) .postDownload) :=
  follows_enqueue (.finalStatusReportRequested details)

/-- `handle_state_job_execution`. -/
theorem follows_jobExecution :
    Follows s e (handleStateJobExecution (eventData e))
      (Jobs.handleStateJobExecution env s e) := by
  by_cases hactive : s.currentJob.hasActiveJob = false
  · rw [show Jobs.handleStateJobExecution env s e = s.startDownload env from if_pos hactive]
    simp only [Ctx.startDownload]
    split
    · exact .choose false (.choose true (follows_done rfl))
    · exact .choose false (.choose false (follows_enqueueFailed.of_flow rfl))
  · rw [show Jobs.handleStateJobExecution env s e = _ from if_neg hactive]
    refine .choose true ?_
    cases e with
    | imageDownloadSucceeded shouldReboot => exact follows_repost.of_flow rfl
    | timeout => exact follows_errorDone .retryWithBackoff
    | imageDownloadFailed failure => exact follows_enqueueFailed
    | _ => exact follows_done rfl

/-- The events after the download. -/
theorem follows_postDownloadEvent :
    Follows s e (postDownloadEvent (eventData e)) (s.postDownloadEvent env e) := by
  cases e with
  | finalStatusReportRequested details =>
    have hflow := flow_publishFinalStatus (s := s) details env.detailsEncoded env.send
    refine .choose true (Follows.of_flow ?_ hflow)
    exact follows_afterSend _ _ fun _ => follows_done rfl
  | updateAccepted =>
    simp only [Ctx.postDownloadEvent]
    split
    · exact .choose false (follows_done rfl)
    · rw [Ctx.finishDownload]
      split
      · exact .choose false (follows_done rfl)
      · split
        · refine .choose true (Follows.of_flow
            (t := (s.setJob fun _ => {}).retryResetBackoff) ?_ rfl)
          exact follows_postEvent .fetchRequested
        · exact .choose false (follows_done rfl)
  | _ => exact follows_done rfl

/-- `handle_state_post_download`, with a queued final status first. -/
theorem follows_postDownload :
    Follows s e (handleStatePostDownload (eventData e))
      (Jobs.handleStatePostDownload env s e) := by
  simp only [Jobs.handleStatePostDownload]
  split
  · have hflow := flow_publishFinalStatus (s := s) s.currentJob.currentStatusDetails
      env.detailsEncoded env.sendQueued
    refine .choose true (Follows.of_flow ?_ hflow)
    exact follows_afterSend _ _ fun _ => follows_postDownloadEvent.of_flow rfl
  · exact .choose false follows_postDownloadEvent

/-! ### One run -/

/-- The report of a failed job posts nothing. -/
theorem flow_errorOccurred : flow (s.errorOccurred env) = flow s := by
  rw [Ctx.errorOccurred]
  split <;> rfl

/-- `handle_state_error`. -/
theorem follows_stateError :
    Follows s e (handleStateError (eventData e)) (Jobs.handleStateError env s e) := by
  cases e with
  | errorOccurred => exact follows_done flow_errorOccurred
  | recoveryRequested =>
    refine .postRecovery env.enqueued ?_
    show Takes _ _ _ (flow (s.recoveryRequested env).1) (s.recoveryRequested env).2
    have hevent : (s.recovery.eventData.map kind).getD (kind s.recovery.event) =
        kind (s.recovery.eventData.getD s.recovery.event) := by
      cases s.recovery.eventData <;> rfl
    simp only [Ctx.recoveryRequested]
    cases hqueued : env.enqueued with
    | true =>
      refine .recoveryReset ?_
      simp only [flow, Flow.push, if_true, hevent, Ctx.enqueue, Ctx.recoveryResetContext]
      simp only [List.map_append, List.map_cons, List.map_nil, Option.map_none]
      exact .done
    | false => exact .done
  | _ => exact follows_done rfl

end

/-- The program that the worker starts for an event. -/
def program (state : JobState) (e : EventData) : Prog :=
  if e.event = .errorOccurred then handleStateError e else handleState state e

/-- Each handler of the state machine takes a path of the program for its state and its event. -/
theorem handleState_takes (cfg : Config) (env : Env) (s : Ctx) (e : Event) :
    Follows s e (handleState s.state (eventData e)) (Jobs.handleState cfg env s e) := by
  rw [Jobs.handleState]
  cases hstate : s.state with
  | uninitialized => exact .done
  | networkInit => exact follows_networkInit
  | rebootCheck => exact follows_rebootCheck
  | idle => exact follows_idle
  | jobsChanged => exact follows_jobsChanged
  | fetchingPendingJobs => exact follows_fetchingPendingJobs
  | waitingForPendingJobs => exact follows_waitingForPendingJobs
  | pendingJobsReceived => exact follows_pendingJobsReceived
  | fetchingJobDoc => exact follows_fetchingJobDoc
  | waitingForJobDoc => exact follows_waitingForJobDoc
  | jobDocReceived => exact follows_jobDocReceived
  | customJobExecution => exact follows_customJobExecution
  | jobExecution => exact follows_jobExecution
  | postDownload => exact follows_postDownload
  | error => exact follows_stateError

/-- So does each run. -/
theorem runOnce_takes (cfg : Config) (env : Env) (s : Ctx) (e : Event) :
    Takes (kind e) (program s.state (eventData e)) (flow s) (flow (Jobs.runOnce cfg env s e))
      (Jobs.runOnce cfg env s e).state := by
  have hevent : (eventData e).event = .errorOccurred ↔ e = .errorOccurred := by
    cases e <;> simp [eventData, kind]
  simp only [program, Jobs.runOnce, hevent]
  split
  · exact follows_stateError.of_flow rfl
  · exact handleState_takes cfg env s e

/-! ### The transitions -/

/-- Each path of a program ends in one of the states, and it plans recoveries only to them. -/
def Prog.Within (states : List JobState) : Prog → Prop
  | .done next => next ∈ states
  | .choose k => ∀ b, (k b).Within states
  | .send k => ∀ err, (k err).Within states
  | .enqueue _ _ k => ∀ b, (k b).Within states
  | .postEvent _ k => ∀ b, (k b).Within states
  | .repost k => ∀ b, (k b).Within states
  | .error reason k => (recoveryFor reason).1 ∈ states ∧ k.Within states
  | .keep _ recovery k => recovery ∈ states ∧ k.Within states
  | .postRecovery k => ∀ b, (k b).Within states
  | .recoveryReset k => .uninitialized ∈ states ∧ ∀ state, (k state).Within states

/-- An event in the queue does not change the plan. -/
@[simp] theorem Flow.push_state (f : Flow) (queued : Bool) (event : JobEvent) :
    (f.push queued event).state = f.state := by
  rw [push]
  split <;> rfl

/-- A path stays within the states of its program, or it leaves the plan as it is. -/
theorem Takes.within {own : JobEvent} {prog : Prog} {f g : Flow} {next : JobState}
    {states : List JobState} (h : Takes own prog f g next) (hprog : prog.Within states) :
    next ∈ states ∧ (g.state ∈ states ∨ g.state = f.state) := by
  induction h with
  | done => exact ⟨hprog, .inr rfl⟩
  | choose b _ ih => exact ih (hprog b)
  | send err _ ih => exact ih (hprog err)
  | enqueue queued _ ih | postEvent queued _ ih | repost queued _ ih | postRecovery queued _ ih =>
    obtain ⟨hnext, hstate⟩ := ih (hprog queued)
    rw [Flow.push_state] at hstate
    exact ⟨hnext, hstate⟩
  | error posted _ ih | keep posted _ ih =>
    obtain ⟨hnext, hstate⟩ := ih hprog.2
    rw [Flow.push_state] at hstate
    exact ⟨hnext, .inl (hstate.elim id fun heq => heq ▸ hprog.1)⟩
  | recoveryReset _ ih =>
    obtain ⟨hnext, hstate⟩ := ih (hprog.2 _)
    exact ⟨hnext, .inl (hstate.elim id fun heq => heq ▸ hprog.1)⟩

/-- What holds of the states of the program and of the plan holds of the next state and its plan. -/
theorem Follows.states {s : Ctx} {e : Event} {prog : Prog} {r : Ctx × JobState}
    {states : List JobState} {p : JobState → Prop} (h : Follows s e prog r)
    (hprog : prog.Within states) (hstates : ∀ state ∈ states, p state)
    (hs : p s.recovery.state) : p r.2 ∧ p r.1.recovery.state := by
  obtain ⟨hnext, hplan⟩ := Takes.within h hprog
  refine ⟨hstates _ hnext, ?_⟩
  cases hplan with
  | inl hmem => exact hstates _ hmem
  | inr hsame =>
    rw [show r.1.recovery.state = s.recovery.state from hsame]
    exact hs

/-- Where the handler of a state leads: the next states, and those of its planned recoveries. The
handler of `ERROR` leads where the plan says. -/
def successors : JobState → List JobState
  | .uninitialized => [.uninitialized]
  | .networkInit => [.networkInit, .rebootCheck, .idle, .error]
  | .rebootCheck => [.rebootCheck, .idle, .error, .uninitialized]
  | .idle => [.idle, .fetchingPendingJobs, .jobsChanged, .error]
  | .jobsChanged => [.jobsChanged, .fetchingJobDoc, .idle, .error]
  | .fetchingPendingJobs => [.fetchingPendingJobs, .waitingForPendingJobs, .idle]
  | .waitingForPendingJobs => [.waitingForPendingJobs, .pendingJobsReceived, .idle, .error]
  | .pendingJobsReceived => [.pendingJobsReceived, .fetchingJobDoc, .idle, .error]
  | .fetchingJobDoc => [.fetchingJobDoc, .waitingForJobDoc, .jobExecution, .idle, .error]
  | .waitingForJobDoc => [.waitingForJobDoc, .jobDocReceived, .idle, .error]
  | .jobDocReceived =>
    [.jobDocReceived, .fetchingJobDoc, .customJobExecution, .idle, .error, .uninitialized]
  | .customJobExecution => [.customJobExecution, .idle, .error, .uninitialized]
  | .jobExecution => [.jobExecution, .postDownload, .idle, .error]
  | .postDownload => [.postDownload, .idle, .error, .uninitialized]
  | .error => []

/-- A send has five outcomes. -/
theorem forall_espError {p : EspError → Prop} :
    (∀ err, p err) ↔ p .ok ∧ p .fail ∧ p .noMem ∧ p .invalidArg ∧ p .invalidState := by
  constructor
  · intro h
    exact ⟨h _, h _, h _, h _, h _⟩
  · rintro ⟨_, _, _, _, _⟩ err
    cases err <;> assumption

/-- The programs keep to the diagram. -/
theorem handleState_within {state : JobState} (hne : state ≠ .error) (e : EventData) :
    (handleState state e).Within (successors state) := by
  cases state with
  | error => exact absurd rfl hne
  | uninitialized => exact List.mem_cons_self
  | networkInit =>
    simp only [handleState, handleStateNetworkInit]
    split <;> simp [Prog.Within, recoveryFor, successors]
  | rebootCheck =>
    simp only [handleState, handleStateRebootCheck]
    cases e.event with
    | updateRejected => split_ifs <;> simp [Prog.Within, successors]
    | _ => simp [Prog.Within, forall_espError, afterSend, recoveryFor, successors]
  | idle =>
    simp only [handleState, handleStateIdle]
    split <;> simp [Prog.Within, enqueueTransition, retryUnless, recoveryFor, successors]
  | jobsChanged =>
    simp only [handleState, handleStateJobsChanged]
    split_ifs <;>
      simp [Prog.Within, afterPendingJobs, enqueueTransition, retryUnless, recoveryFor, successors]
  | fetchingPendingJobs =>
    simp only [handleState, handleStateFetchingPendingJobs]
    split <;> simp [Prog.Within, startResponseTimer, recoveryFor, successors]
  | waitingForPendingJobs =>
    simp only [handleState, handleStateWaitingForPendingJobs]
    split <;> simp [Prog.Within, retryUnless, recoveryFor, successors]
  | pendingJobsReceived =>
    simp only [handleState, handleStatePendingJobsReceived]
    split_ifs <;>
      simp [Prog.Within, afterPendingJobs, enqueueTransition, retryUnless, recoveryFor, successors]
  | fetchingJobDoc =>
    simp only [handleState, handleStateFetchingJobDoc]
    split <;>
      simp [Prog.Within, startResponseTimer, enqueueTransition, retryUnless, recoveryFor,
        successors]
  | waitingForJobDoc =>
    simp only [handleState, handleStateWaitingForJobDoc]
    split <;> simp [Prog.Within, retryUnless, recoveryFor, successors]
  | jobDocReceived =>
    simp only [handleState, handleStateJobDocReceived]
    split_ifs <;>
      simp [Prog.Within, forall_espError, jobDocEnd, jobDocReject, enqueueTransition, retryUnless,
        recoveryFor, successors]
  | customJobExecution =>
    simp only [handleState, handleStateCustomJobExecution]
    split <;> simp [Prog.Within, forall_espError, afterSend, retryUnless, recoveryFor, successors]
  | jobExecution =>
    simp only [handleState, handleStateJobExecution]
    cases e.event <;> simp [Prog.Within, enqueueFailed, retryUnless, recoveryFor, successors]
  | postDownload =>
    simp only [handleState, handleStatePostDownload, postDownloadEvent]
    cases e.event <;>
      simp [Prog.Within, forall_espError, afterSend, retryUnless, recoveryFor, successors]

/-- What holds of the successors of a state holds behind its handler. -/
theorem handleState_states {p : JobState → Prop} {cfg : Config} {env : Env} {s : Ctx} {e : Event}
    (hne : s.state ≠ .error) (h : ∀ state ∈ successors s.state, p state)
    (hs : p s.recovery.state) : p (Jobs.handleState cfg env s e).2 ∧
      p (Jobs.handleState cfg env s e).1.recovery.state :=
  (handleState_takes cfg env s e).states (handleState_within hne _) h hs

end RainMakerNeo.Ota.Events
