import RainMakerNeo.Ota.JobsSteps

/-!
# `RainMakerNeo.Ota.ErrorRecovery`: the way out of `ERROR` with backoff

An entry into the error state records the state and the event to recover with, posts the error event
and, with `RETRY_WITH_BACKOFF`, starts the backoff timer. When the timer fires, its task posts a
recovery request, and the handler of `ERROR` follows the record. `enter_error_state_custom` keeps
the event that was being handled, but it names `ERROR_OCCURRED` as the recovery event, which
`ota_job_state_recover` takes for no record at all. So the request is never posted, and the backoff
comes again and again.

`recovers_of_steady` says when `ERROR` is left: no send is refused where the handler keeps the
event, the backoff gets its timer, and nothing takes the timer or the record away while an error
event is still in the queue. `stuck_in_error` is a run with a refused send.
-/

set_option autoImplicit false

namespace RainMakerNeo.Ota.Jobs

open RainMakerNeo.Lib
open RainMakerNeo.Ota.Status (Cache EspError JobStatus StatusEnv UpdateRequest ResponsePayload
  jobIdMaxLength)

/-! ### The way out -/

/-- The last entry into the error state is one with backoff. -/
def Ctx.retries (s : Ctx) : Bool :=
  s.history.errors.head?.any fun entry => entry.reason = .retryWithBackoff

/-- A state does not ignore an event. -/
def Handles (state : JobState) (e : Event) : Prop :=
  ∀ (cfg : Config) (env : Env) (s : Ctx), s.state = state → handleState cfg env s e ≠ (s, state)

/-- The machine in `ERROR` is on its way out. -/
structure Recovers (s : Ctx) : Prop where
  /-- The backoff task posts the request. -/
  posts : s.recover true = (.ok, s.enqueue .recoveryRequested)
  /-- The request leads to the recorded state, with an event that this state handles. Where there is
  no memory for the event, the backoff comes again. -/
  moves : ∃ e, Handles s.recovery.state e ∧ ∀ env : Env,
    if env.enqueued then
      (handleStateError env s .recoveryRequested).2 = s.recovery.state ∧
        (handleStateError env s .recoveryRequested).1.queue = s.queue ++ [e]
    else
      handleStateError env s .recoveryRequested = (s.backoffRetry env.backoffScheduled, .error)
  /-- The timer of the task runs, or the request is in the queue. -/
  left : s.errorRetryArmed = true ∨ .recoveryRequested ∈ s.queue

/-! ### The condition -/

/-- A send is refused, other than for its arguments. -/
def refused (err : EspError) : Bool := err ≠ .ok && err ≠ .invalidArg

/-- The reason for which a document is rejected whose custom fields were parsed. -/
def rejectionOfFields (cfg : Config) (env : Env) (job : JobInfo) (doc : JobDoc)
    (custom : CustomFields) : Option String :=
  match findFiletypeHandler cfg custom with
  | .error reason => some reason
  | .ok ft => match judgeJobDoc cfg env job ft custom doc.afr with
    | .reject reason => some reason
    | .invalidFormat reason => if cfg.customJobCb then none else some reason
    | .ignore | .select .. => none

/-- The version and the reason with which a document is rejected. -/
def rejection (cfg : Config) (env : Env) (job : JobInfo) (doc : JobDoc) :
    Option (Int32 × String) :=
  if doc.jobId.length = 0 ∨ doc.jobId.length > jobIdMaxLength ∨ doc.hasDocument = false then none
  else match executionVersionToInt32 doc.executionVersion with
    | none => none
    | some version => match parseCustomFields cfg.timeSupport doc with
      | none =>
        if cfg.customJobCb then none
        else some (version, "Missing RMNG-specific fields in job document")
      | some custom => (rejectionOfFields cfg env job doc custom).map fun reason =>
        (version, reason)

/-- The rejection of a document is refused. -/
def Ctx.refusesRejection (s : Ctx) (env : Env) (jobId : CStr) (version : Int32)
    (reason : String) : Bool :=
  let (err, status) := s.status.setInitialExpectedVersion jobId version env.versionAllocated
  err = .ok && refused ({ s with status := status }.publishUpdateJobStatus jobId .rejected
    (.rejected reason.toList) env.detailsEncoded env.send).err

/-- The event makes `POST_DOWNLOAD` send a status that is refused. -/
def Ctx.refusesFinal (s : Ctx) (env : Env) : Event → Bool
  | .finalStatusReportRequested details =>
    refused (s.publishFinalStatus details env.detailsEncoded env.send).1
  | _ => false

/-- The context in which `POST_DOWNLOAD` looks at the event. -/
def Ctx.afterQueued (s : Ctx) (env : Env) : Ctx :=
  if s.currentJob.finalStatusQueued then
    (s.publishFinalStatus s.currentJob.currentStatusDetails env.detailsEncoded
      env.sendQueued).2.setJob fun job => { job with finalStatusQueued := false }
  else s

/-- The event makes a state send an update that is refused, and keep the event for a retry. -/
def Ctx.refuses (cfg : Config) (s : Ctx) (env : Env) (e : Event) : Bool :=
  match s.state, e with
  | .rebootCheck, .finalStatusReportRequested details =>
    refused (s.publishFinalStatus details env.detailsEncoded env.send).1
  | .rebootCheck, .rebootCheckRequested =>
    let (status, details) := rebootCheckReport env (env.statusFlags.getD (true, false)).2
    s.currentJob.filetype = [] && (env.statusFlags.getD (true, false)).1
      && refused ((s.setJob fun job =>
          { job with currentStatus := status, currentStatusDetails := details }).otaJobsPublish
            status details env.detailsEncoded env.send).1
  | .jobDocReceived, .jobDocAccepted (some doc) =>
    (rejection cfg env s.currentJob doc).any fun (version, reason) =>
      s.refusesRejection env doc.jobId version reason
  | .customJobExecution, .customJobReport report details =>
    refused (s.otaJobsPublishWithString report.status details env.send).1
  | .postDownload, e =>
    (s.currentJob.finalStatusQueued && refused (s.publishFinalStatus
        s.currentJob.currentStatusDetails env.detailsEncoded env.sendQueued).1)
      || (s.afterQueued env).refusesFinal env e
  | _, _ => false

/-- An accepted update ends the download without a reboot. -/
def Ctx.finishes (s : Ctx) : Bool :=
  s.status.isEmpty && !s.currentJob.shouldReboot && s.currentJob.finalStatusReported

/-- The event makes a state call `retry_reset_backoff`. -/
def Ctx.resets (s : Ctx) (env : Env) (e : Event) : Bool :=
  match s.state, e with
  | .rebootCheck, .updateAccepted => s.currentJob.filetype = [] || s.currentJob.finalStatusReported
  | .rebootCheck, .updateRejected unrecoverable => unrecoverable
  | .pendingJobsReceived, .pendingJobsAccepted payload => payload.isSome
  | .jobDocReceived, .jobDocAccepted _ => true
  | .customJobExecution, .updateAccepted =>
    s.status.isEmpty && s.currentJob.finalStatusReported
  | .jobExecution, .imageDownloadSucceeded _ => s.currentJob.hasActiveJob
  | .postDownload, .updateAccepted => (s.afterQueued env).finishes
  | _, _ => false

/-- A recovery request is in the queue behind the last error event. -/
def asked (queue : List Event) (before : Bool) : Bool :=
  queue.foldl (fun found e =>
    if e = .errorOccurred then false else found || e = .recoveryRequested) before

/-- What one run of the machine must meet, in the context from which the event was taken. -/
structure SteadyRun (cfg : Config) (env : Env) (s : Ctx) (e : Event) : Prop where
  /-- No send is refused whose event the handler keeps. -/
  sent : e ≠ .errorOccurred → s.refuses cfg env e = false
  /-- The backoff gets its timer. -/
  scheduled : env.backoffScheduled = true
  /-- Before an error event, the timer is stopped only if its request is in the queue. -/
  resets : s.resets env e = true → s.retries = true → .errorOccurred ∈ s.queue →
    asked s.queue false = true
  /-- Before an error event, the record is not used up. -/
  requested : s.state = .error → e = .recoveryRequested → env.enqueued = true →
    s.retries = true → .errorOccurred ∉ s.queue

/-- The steps after which the machine in `ERROR` has a way out. -/
def Steady (cfg : Config) (s : Ctx) : Action → Prop
  | .run env => ∀ e ∈ s.queue.head?, SteadyRun cfg env { s with queue := s.queue.tail } e
  | .backoffTimer posted scheduled => posted = true ∨ scheduled = true
  | .subscribed _ _ _ env => env.enqueued = true ∨ env.backoffScheduled = true
  | _ => True

/-! ### What a handler does to the record -/

/-- The record, the timer and the error events stay. -/
structure Calm (s t : Ctx) : Prop where
  errors : t.history.errors = s.history.errors
  recovery : t.recovery = s.recovery
  armed : t.errorRetryArmed = s.errorRetryArmed
  queue : ∃ news, t.queue = s.queue ++ news ∧ .errorOccurred ∉ news

/-- A handler enters the error state through `enter_error_state`. The backoff has its timer. -/
structure Enters (t : Ctx) (error : ErrorReason) : Prop where
  errors : t.history.errors.head? = some ⟨error, false⟩
  recovery : t.recovery = error.recovery
  armed : error = .retryWithBackoff → t.errorRetryArmed = true

/-- A handler goes on, or it enters the error state. -/
def Proceeds (s : Ctx) (r : Ctx × JobState) : Prop :=
  (r.2 ≠ .error ∧ Calm s r.1) ∨ ∃ error, Enters r.1 error

namespace Calm

variable {s t u : Ctx}

/-- Nothing of this changes. -/
theorem of_eq (herrors : t.history.errors = s.history.errors) (hrecovery : t.recovery = s.recovery)
    (harmed : t.errorRetryArmed = s.errorRetryArmed) (hqueue : t.queue = s.queue) : Calm s t :=
  ⟨herrors, hrecovery, harmed, [], by rw [hqueue, List.append_nil], List.not_mem_nil⟩

/-- A handler may do nothing. -/
theorem refl (s : Ctx) : Calm s s := of_eq rfl rfl rfl rfl

/-- One part of a handler after the other. -/
theorem trans (h : Calm s t) (h' : Calm t u) : Calm s u where
  errors := h'.errors.trans h.errors
  recovery := h'.recovery.trans h.recovery
  armed := h'.armed.trans h.armed
  queue := by
    obtain ⟨news, hqueue, hnews⟩ := h.queue
    obtain ⟨news', hqueue', hnews'⟩ := h'.queue
    refine ⟨news ++ news', by rw [hqueue', hqueue, List.append_assoc], ?_⟩
    rw [List.mem_append]
    exact fun hmem => hmem.elim hnews hnews'

/-- A reset of the timer before both keeps them alike. -/
theorem reset (h : Calm s t) : Calm s.retryResetBackoff t.retryResetBackoff :=
  ⟨h.errors, h.recovery, rfl, h.queue⟩

/-- What is calm may come first. -/
theorem proceeds {r : Ctx × JobState} (h : Calm s t) (hr : Proceeds t r) : Proceeds s r := by
  rcases hr with ⟨hnext, hcalm⟩ | herror
  · exact .inl ⟨hnext, h.trans hcalm⟩
  · exact .inr herror

/-- A calm handler goes on to its next state. -/
theorem goes (h : Calm s t) {next : JobState} (hnext : next ≠ .error) : Proceeds s (t, next) :=
  .inl ⟨hnext, h⟩

end Calm

namespace Ctx

variable (s : Ctx) {env : Env}

/-! ### The shared helpers -/

variable {e : Event} {next : JobState}

/-- Only an error event counts. -/
theorem enqueue_calm (he : e ≠ .errorOccurred) : Calm s (s.enqueue e) :=
  ⟨rfl, rfl, rfl, [e], rfl, by simpa using he.symm⟩

/-- The same, with or without room. -/
theorem postEvent_calm (he : e ≠ .errorOccurred) (posted : Bool) :
    Calm s (s.postEvent e posted) := by
  rw [postEvent]
  split
  · exact s.enqueue_calm he
  · exact .refl s

/-- The current job is no part of the record. -/
theorem setJob_calm (f : JobInfo → JobInfo) : Calm s (s.setJob f) := .of_eq rfl rfl rfl rfl

/-- Nor is the report of a job. -/
theorem otaJobsPublish_calm (status : JobStatus) (details : StatusDetails) (encoded : Bool)
    (senv : StatusEnv) : Calm s (s.otaJobsPublish status details encoded senv).2 :=
  .of_eq rfl rfl rfl rfl

/-- Nor is a final status. -/
theorem publishFinalStatus_calm (details : StatusDetails) (encoded : Bool) (senv : StatusEnv) :
    Calm s (s.publishFinalStatus details encoded senv).2 := by
  rw [publishFinalStatus]
  split
  · exact .refl s
  · exact s.otaJobsPublish_calm _ details encoded senv

/-- Nor is the job of the last boot. -/
theorem restoreLastJob_calm (env : Env) (last : LastJob) :
    Calm s (s.restoreLastJob env last).2 := by
  simp only [restoreLastJob]
  split_ifs
  · exact .of_eq rfl rfl rfl rfl
  · exact .of_eq rfl rfl rfl rfl
  · exact .of_eq rfl rfl rfl rfl
  · split
    · exact .of_eq rfl rfl rfl rfl
    · split <;> exact .of_eq rfl rfl rfl rfl

/-- Nor is a list of pending jobs. -/
theorem pendingJobsToJobIdQueue_calm (payload : PendingJobs) :
    Calm s (s.pendingJobsToJobIdQueue payload).2 := by
  rw [pendingJobsToJobIdQueue]
  split
  · exact .of_eq rfl rfl rfl rfl
  · exact .refl s

variable (hscheduled : env.backoffScheduled = true)
include hscheduled

/-- `enter_error_state` writes the record of its reason. -/
theorem enterErrorState_enters (error : ErrorReason) :
    Enters (s.enterErrorState env error) error where
  errors := by
    simp only [enterErrorState, postErrorEvent, postEvent, recordError]
    split <;> split <;> rfl
  recovery := s.enterErrorState_recovery env error
  armed := by
    intro hretry
    simp only [enterErrorState, postErrorEvent]
    rw [if_pos hretry, backoffRetry, hscheduled]
    rfl

variable {s}

omit hscheduled in
/-- To stay is to go on. -/
theorem proceeds (hnext : next ≠ .error) : Proceeds s (s, next) :=
  (Calm.refl s).goes hnext

/-- An error is one of the two ways. -/
theorem enterErrorState_proceeds {t : Ctx} (error : ErrorReason) (next : JobState) :
    Proceeds t (s.enterErrorState env error, next) :=
  .inr ⟨error, s.enterErrorState_enters hscheduled error⟩

/-- A transition goes on, or it is an error with backoff. -/
theorem moveTo_proceeds (he : e ≠ .errorOccurred) (hnext : next ≠ .error) :
    Proceeds s (s.moveTo env e next) := by
  rw [moveTo]
  split
  · exact (s.enqueue_calm he).goes hnext
  · exact enterErrorState_proceeds hscheduled _ _

/-- So does the response timer. -/
theorem startResponseTimer_proceeds (hnext : next ≠ .error) :
    Proceeds s (s.startResponseTimer env, next) := by
  rw [startResponseTimer]
  split
  · exact proceeds hnext
  · exact enterErrorState_proceeds hscheduled _ _

omit hscheduled in
/-- A send that is not refused keeps no event. -/
theorem afterSend_eq (s : Ctx) (env : Env) {err : EspError} (hsent : refused err = false)
    (recovery : JobState) (e : Event) (next : Ctx × JobState) :
    s.afterSend env err recovery e next = (s.enterErrorState env .fatalUnexpectedFormat, .error) ∨
      s.afterSend env err recovery e next = next := by
  rw [afterSend]
  split
  · exact .inl rfl
  · rename_i harg
    split
    · rename_i hfailed
      rw [refused, decide_eq_true hfailed, decide_eq_true harg] at hsent
      cases hsent
    · exact .inr rfl

/-- So does what follows a send that is not refused. -/
theorem afterSend_proceeds {t : Ctx} {err : EspError} (hsent : refused err = false)
    {recovery : JobState} {next : Ctx × JobState} (hnext : Proceeds t next) :
    Proceeds t (s.afterSend env err recovery e next) := by
  cases s.afterSend_eq env hsent recovery e next with
  | inl hfatal =>
    rw [hfatal]
    exact enterErrorState_proceeds hscheduled _ _
  | inr hok =>
    rw [hok]
    exact hnext

/-- So does what follows a list of pending jobs. -/
theorem afterPendingJobs_proceeds (error : ErrorReason) :
    Proceeds s (s.afterPendingJobs env error) := by
  unfold afterPendingJobs
  split
  · exact moveTo_proceeds hscheduled (by decide) (by decide)
  · exact proceeds (by decide)
  · exact enterErrorState_proceeds hscheduled _ _

/-- So does the end of a document. -/
theorem jobDocEnd_proceeds (error : ErrorReason) : Proceeds s (s.jobDocEnd env error) := by
  rw [jobDocEnd]
  split
  · exact enterErrorState_proceeds hscheduled _ _
  · exact moveTo_proceeds hscheduled (by simp) (by simp)

omit hscheduled in
/-- After the subscription there is no error. -/
theorem afterSubscribe_proceeds : Proceeds s (s.afterSubscribe env) := by
  rw [afterSubscribe]
  split
  · exact (s.postEvent_calm (by simp) _).goes (by simp)
  · rename_i last _
    have hrestored := s.restoreLastJob_calm env last
    dsimp only
    split
    · exact hrestored.goes (by simp)
    · exact (hrestored.trans (postEvent_calm _ (by simp) _)).goes (by simp)

/-- A rejection that is not refused keeps no event. -/
theorem jobDocReject_proceeds {jobId : CStr} {version : Int32} {reason : String}
    (hsent : s.refusesRejection env jobId version reason = false) :
    Proceeds s (s.jobDocReject env e jobId version reason) := by
  have hversion (t : Ctx) (status : Cache) (ht : t = { s with status := status }) : Calm s t := by
    subst ht
    exact .of_eq rfl rfl rfl rfl
  simp only [refusesRejection] at hsent
  simp only [jobDocReject]
  split
  · exact (hversion _ _ rfl).proceeds (jobDocEnd_proceeds hscheduled _)
  · rename_i hok
    rw [decide_eq_true (not_not.mp hok), Bool.true_and] at hsent
    have hcalm (r : Status.SendResult) (status : Cache) :
        Calm s ({ s with status := status }.sent r) := .of_eq rfl rfl rfl rfl
    split
    · exact (hcalm _ _).proceeds (jobDocEnd_proceeds hscheduled _)
    · rename_i harg
      split
      · rename_i hfailed
        rw [refused, decide_eq_true hfailed, decide_eq_true harg] at hsent
        cases hsent
      · exact (hcalm _ _).proceeds (jobDocEnd_proceeds hscheduled _)

/-! ### Job documents -/

variable {cfg : Config} {doc : JobDoc} {version : Int32}

/-- The format of the document leads to its custom job, or to a rejection. -/
theorem jobDocInvalidFormat_proceeds {reason : String}
    (hsent : cfg.customJobCb = false → s.refusesRejection env doc.jobId version reason = false) :
    Proceeds s (s.jobDocInvalidFormat cfg env e doc version reason) := by
  rw [jobDocInvalidFormat]
  split
  · have hstarted : Calm s (s.startCustomJob doc) := .of_eq rfl rfl rfl rfl
    exact hstarted.proceeds (moveTo_proceeds hscheduled (by simp) (by simp))
  · rename_i hcb
    exact jobDocReject_proceeds hscheduled (hsent (Bool.not_eq_true _ ▸ hcb))

/-- A document is judged, and its rejection is not refused. -/
theorem examineFields_proceeds {custom : CustomFields}
    (hsent : ∀ reason,
      rejectionOfFields cfg env s.currentJob doc custom = some reason →
        s.refusesRejection env doc.jobId version reason = false) :
    Proceeds s (s.examineFields cfg env e doc version custom) := by
  -- The filetype and the handler in the current job change neither the verdict nor the send.
  rw [rejectionOfFields] at hsent
  simp only [examineFields]
  split
  · rename_i reason hft
    rw [hft] at hsent
    exact (s.setJob_calm _).proceeds (jobDocReject_proceeds hscheduled (hsent reason rfl))
  · rename_i ft hft
    rw [hft] at hsent
    dsimp only at hsent
    have hjudge : judgeJobDoc cfg env ((s.setJob fun job =>
        { job with filetype := copiedFiletype custom }).setJob fun job =>
        { job with filetypeHandler := some ft }).currentJob ft custom doc.afr =
        judgeJobDoc cfg env s.currentJob ft custom doc.afr := rfl
    have hcalm : Calm s ((s.setJob fun job =>
        { job with filetype := copiedFiletype custom }).setJob fun job =>
        { job with filetypeHandler := some ft }) := (s.setJob_calm _).trans (setJob_calm _ _)
    rw [hjudge]
    split
    · exact hcalm.proceeds (jobDocEnd_proceeds hscheduled _)
    · rename_i reason hverdict
      rw [hverdict] at hsent
      exact hcalm.proceeds (jobDocReject_proceeds hscheduled (hsent reason rfl))
    · rename_i reason hverdict
      rw [hverdict] at hsent
      refine hcalm.proceeds (jobDocInvalidFormat_proceeds hscheduled ?_)
      intro hcb
      exact hsent reason (if_neg (by simp [hcb]))
    · split
      · exact (hcalm.trans (setJob_calm _ _)).proceeds (jobDocEnd_proceeds hscheduled _)
      · exact (hcalm.trans (setJob_calm _ _)).proceeds (jobDocEnd_proceeds hscheduled _)

/-- A document is examined without an event that is kept. -/
theorem examineJobDoc_proceeds
    (hsent : ((rejection cfg env s.currentJob doc).any fun (version, reason) =>
      s.refusesRejection env doc.jobId version reason) = false) :
    Proceeds s (s.examineJobDoc cfg env e doc) := by
  have hnoted : Calm s { s with history := { s.history with round := doc :: s.history.round } } :=
    .of_eq rfl rfl rfl rfl
  rw [rejection] at hsent
  simp only [examineJobDoc]
  split
  · exact hnoted.proceeds (jobDocEnd_proceeds hscheduled _)
  · rename_i hvalid
    rw [if_neg hvalid] at hsent
    split
    · exact hnoted.proceeds (jobDocEnd_proceeds hscheduled _)
    · rename_i version hversion
      rw [hversion] at hsent
      dsimp only at hsent
      split
      · rename_i hnone
        rw [hnone] at hsent
        refine hnoted.proceeds (jobDocInvalidFormat_proceeds hscheduled ?_)
        intro hcb
        show s.refusesRejection env doc.jobId version _ = false
        simpa [hcb] using hsent
      · rename_i custom hcustom
        rw [hcustom] at hsent
        refine hnoted.proceeds (examineFields_proceeds hscheduled ?_)
        intro reason hreason
        have hreason' : rejectionOfFields cfg env s.currentJob doc custom = some reason := hreason
        dsimp only at hsent
        rw [hreason'] at hsent
        exact hsent

end Ctx

/-! ### The handlers -/

/-- A handler goes on or enters the error state, where the timer may have been stopped first. -/
def Passes (s : Ctx) (env : Env) (e : Event) (r : Ctx × JobState) : Prop :=
  Proceeds s r ∨ (s.resets env e = true ∧ Proceeds s.retryResetBackoff r)

section
variable {cfg : Config} {env : Env} {s : Ctx} {e : Event}

variable (hscheduled : env.backoffScheduled = true)
include hscheduled

/-- The subscription may fail. -/
theorem handleStateNetworkInit_proceeds : Proceeds s (handleStateNetworkInit env s e) := by
  simp only [handleStateNetworkInit]
  split
  · exact Ctx.proceeds (by simp)
  · split
    · exact Ctx.afterSubscribe_proceeds
    · have hintended : Calm s { s with subIntended := true } := .of_eq rfl rfl rfl rfl
      split
      · exact hintended.proceeds Ctx.afterSubscribe_proceeds
      · exact Ctx.enterErrorState_proceeds hscheduled _ _

omit hscheduled in
/-- A rebooted job is dropped after the reset of the timer. -/
theorem dropRebootedJob_calm : Calm s.retryResetBackoff s.dropRebootedJob :=
  .of_eq rfl rfl rfl rfl

/-- The check of the reboot resets the timer where it drops the job. -/
theorem handleStateRebootCheck_passes (hstate : s.state = .rebootCheck)
    (hsent : s.refuses cfg env e = false) : Passes s env e (handleStateRebootCheck env s e) := by
  simp only [Passes, Ctx.resets, hstate]
  simp only [Ctx.refuses, hstate] at hsent
  cases e with
  | finalStatusReportRequested details =>
    have hcalm := s.publishFinalStatus_calm details env.detailsEncoded env.send
    refine .inl (Ctx.afterSend_proceeds hscheduled hsent ?_)
    exact (hcalm.trans (Ctx.setJob_calm _ _)).goes (by decide)
  | rebootCheckRequested =>
    simp only [handleStateRebootCheck]
    split
    · exact .inl (Ctx.proceeds (by decide))
    · rename_i hfiletype
      split
      · rename_i hchecked
        simp only [not_not.mp hfiletype, hchecked, Bool.true_and, decide_true] at hsent
        refine .inl (Ctx.afterSend_proceeds hscheduled hsent ?_)
        exact ((s.setJob_calm _).trans (Ctx.otaJobsPublish_calm _ _ _ _ _)).goes (by decide)
      · exact .inl (Ctx.proceeds (by decide))
  | updateAccepted =>
    simp only [handleStateRebootCheck]
    split
    · exact .inl (Ctx.proceeds (by decide))
    · rename_i hdropped
      have hreset : (decide (s.currentJob.filetype = []) ||
          s.currentJob.finalStatusReported) = true := by
        rw [Bool.or_eq_true, decide_eq_true_eq]
        by_contra hno
        exact hdropped ⟨fun h => hno (.inl h), by simpa using fun h => hno (.inr h)⟩
      split
      · exact .inr ⟨hreset, dropRebootedJob_calm.goes (by decide)⟩
      · exact .inl (Ctx.enterErrorState_proceeds hscheduled _ _)
  | updateRejected unrecoverable =>
    cases unrecoverable with
    | true =>
      exact .inr ⟨rfl, (dropRebootedJob_calm.trans (Ctx.setJob_calm _ _)).goes (by decide)⟩
    | false => exact .inl (Ctx.proceeds (by decide))
  | _ => exact .inl (Ctx.proceeds (by decide))

/-- Idle moves on. -/
theorem handleStateIdle_proceeds : Proceeds s (handleStateIdle env s e) := by
  unfold handleStateIdle
  split
  · exact Ctx.moveTo_proceeds hscheduled (by decide) (by decide)
  · exact Ctx.moveTo_proceeds hscheduled (by simp) (by decide)
  · exact Ctx.proceeds (by decide)

/-- A notification brings a list. -/
theorem handleStateJobsChanged_proceeds : Proceeds s (handleStateJobsChanged env s e) := by
  unfold handleStateJobsChanged
  split
  · exact Ctx.proceeds (by decide)
  · rename_i payload
    exact (s.pendingJobsToJobIdQueue_calm payload).proceeds
      (Ctx.afterPendingJobs_proceeds hscheduled _)
  · exact Ctx.proceeds (by decide)

/-- The request for the list may fail. -/
theorem handleStateFetchingPendingJobs_proceeds :
    Proceeds s (handleStateFetchingPendingJobs env s e) := by
  rw [handleStateFetchingPendingJobs]
  split
  · exact Ctx.proceeds (by simp)
  · split
    · exact Ctx.startResponseTimer_proceeds hscheduled (by simp)
    · exact Ctx.enterErrorState_proceeds hscheduled _ _

/-- The answer may be a rejection or a time-out. -/
theorem handleStateWaitingForPendingJobs_proceeds :
    Proceeds s (handleStateWaitingForPendingJobs env s e) := by
  unfold handleStateWaitingForPendingJobs
  split
  · exact Ctx.moveTo_proceeds hscheduled (by simp) (by decide)
  · exact Ctx.enterErrorState_proceeds hscheduled _ _
  · exact Ctx.enterErrorState_proceeds hscheduled _ _
  · exact Ctx.proceeds (by decide)

/-- A list resets the timer before it is parsed. -/
theorem handleStatePendingJobsReceived_passes (hstate : s.state = .pendingJobsReceived) :
    Passes s env e (handleStatePendingJobsReceived env s e) := by
  simp only [Passes, Ctx.resets, hstate]
  unfold handleStatePendingJobsReceived
  split
  · exact .inl (Ctx.enterErrorState_proceeds hscheduled _ _)
  · rename_i payload
    exact .inr ⟨rfl, (Ctx.pendingJobsToJobIdQueue_calm _ payload).proceeds
      (Ctx.afterPendingJobs_proceeds hscheduled _)⟩
  · exact .inl (Ctx.proceeds (by decide))

/-- A document is requested, or a job begins. -/
theorem handleStateFetchingJobDoc_proceeds : Proceeds s (handleStateFetchingJobDoc env s e) := by
  rw [handleStateFetchingJobDoc]
  split
  · exact Ctx.proceeds (by simp)
  · split
    · split
      · have hbegun : Calm s s.beginJob := .of_eq rfl rfl rfl rfl
        exact hbegun.proceeds (Ctx.moveTo_proceeds hscheduled (by simp) (by simp))
      · exact Ctx.proceeds (by simp)
    · rename_i rest _
      have hnext : Calm s { s with jobIdQueue := rest } := .of_eq rfl rfl rfl rfl
      dsimp only
      split
      · exact hnext.proceeds (Ctx.startResponseTimer_proceeds hscheduled (by simp))
      · exact Ctx.enterErrorState_proceeds hscheduled _ _

/-- The answer may be a rejection or a time-out. -/
theorem handleStateWaitingForJobDoc_proceeds :
    Proceeds s (handleStateWaitingForJobDoc env s e) := by
  unfold handleStateWaitingForJobDoc
  split
  · exact Ctx.moveTo_proceeds hscheduled (by simp) (by decide)
  · exact Ctx.enterErrorState_proceeds hscheduled _ _
  · exact Ctx.enterErrorState_proceeds hscheduled _ _
  · exact Ctx.proceeds (by decide)

/-- A document resets the timer before it is examined. -/
theorem handleStateJobDocReceived_passes (hstate : s.state = .jobDocReceived)
    (hsent : s.refuses cfg env e = false) :
    Passes s env e (handleStateJobDocReceived cfg env s e) := by
  simp only [Passes, Ctx.resets, hstate]
  unfold handleStateJobDocReceived
  split
  · exact .inr ⟨rfl, Ctx.jobDocEnd_proceeds hscheduled _⟩
  · rename_i doc
    simp only [Ctx.refuses, hstate] at hsent
    exact .inr ⟨rfl, Ctx.examineJobDoc_proceeds hscheduled hsent⟩
  · exact .inl (Ctx.proceeds (by decide))

/-- The end of a custom job resets the timer. -/
theorem handleStateCustomJobExecution_passes (hstate : s.state = .customJobExecution)
    (hsent : s.refuses cfg env e = false) :
    Passes s env e (handleStateCustomJobExecution env s e) := by
  simp only [Passes, Ctx.resets, hstate]
  unfold handleStateCustomJobExecution
  split
  · split
    · exact .inl (Ctx.proceeds (by decide))
    · exact .inl (Ctx.moveTo_proceeds hscheduled (by simp) (by decide))
  · rename_i report details
    simp only [Ctx.refuses, hstate] at hsent
    refine .inl (Ctx.afterSend_proceeds hscheduled hsent ?_)
    have hreported : Calm s
        (s.otaJobsPublishWithString report.status details env.send).2 := .of_eq rfl rfl rfl rfl
    exact hreported.goes (by decide)
  · split
    · exact .inl (Ctx.proceeds (by decide))
    · rename_i hempty
      split
      · exact .inl (Ctx.proceeds (by decide))
      · rename_i hreported
        refine .inr ⟨?_, Ctx.moveTo_proceeds hscheduled (by decide) (by decide)⟩
        simp [hempty, hreported]
  · exact .inl (Ctx.proceeds (by decide))

/-- A download that does not start is reported as failed. -/
theorem startDownload_proceeds : Proceeds s (s.startDownload env) := by
  simp only [Ctx.startDownload]
  have hsent (f : JobInfo → JobInfo) (details : StatusDetails) :
      Calm s ((s.setJob f).otaJobsPublish .inProgress details env.detailsEncoded env.send).2 :=
    .of_eq rfl rfl rfl rfl
  split
  · exact (hsent _ _).goes (by simp)
  · exact (hsent _ _).proceeds (Ctx.moveTo_proceeds hscheduled (by simp) (by simp))

/-- An image that is there resets the timer. -/
theorem handleStateJobExecution_passes (hstate : s.state = .jobExecution) :
    Passes s env e (handleStateJobExecution env s e) := by
  by_cases hactive : s.currentJob.hasActiveJob = false
  · rw [show handleStateJobExecution env s e = s.startDownload env from if_pos hactive]
    exact .inl (startDownload_proceeds hscheduled)
  · rw [show handleStateJobExecution env s e = _ from if_neg hactive]
    cases e with
    | imageDownloadProgress downloaded =>
      exact .inl ((s.otaJobsPublish_calm _ _ _ _).goes (by decide))
    | imageDownloadSucceeded shouldReboot =>
      have hreset : s.resets env (.imageDownloadSucceeded shouldReboot) = true := by
        simp only [Ctx.resets, hstate]
        exact Bool.not_eq_false _ ▸ hactive
      refine .inr ⟨hreset, ?_⟩
      exact (Ctx.otaJobsPublish_calm _ _ _ _ _).proceeds
        (Ctx.moveTo_proceeds hscheduled (by simp) (by decide))
    | timeout => exact .inl (Ctx.enterErrorState_proceeds hscheduled _ _)
    | imageDownloadFailed failure =>
      exact .inl (Ctx.moveTo_proceeds hscheduled (by simp) (by decide))
    | finalStatusReportRequested details => exact .inl ((s.setJob_calm _).goes (by decide))
    | _ => exact .inl (Ctx.proceeds (by decide))

/-- The end of a job resets the timer. -/
theorem finishDownload_passes (hempty : s.status.isEmpty = true) :
    Proceeds s (s.finishDownload env) ∨
      (s.finishes = true ∧ Proceeds s.retryResetBackoff (s.finishDownload env)) := by
  rw [Ctx.finishDownload]
  split
  · have hissued : Calm s { s with history := { s.history with rebootIssued := true } } :=
      .of_eq rfl rfl rfl rfl
    exact .inl (hissued.goes (by simp))
  · rename_i hreboot
    split
    · rename_i hreported
      refine .inr ⟨by simp [Ctx.finishes, hempty, hreboot, hreported], ?_⟩
      exact (s.setJob_calm _).reset.proceeds
        (Ctx.moveTo_proceeds hscheduled (by simp) (by simp))
    · exact .inl (Ctx.proceeds (by simp))

/-- Only an accepted update can end the job. -/
theorem postDownloadEvent_passes (hsent : s.refusesFinal env e = false) :
    Proceeds s (s.postDownloadEvent env e) ∨ (e = .updateAccepted ∧ s.finishes = true ∧
      Proceeds s.retryResetBackoff (s.postDownloadEvent env e)) := by
  cases e with
  | finalStatusReportRequested details =>
    have hcalm := s.publishFinalStatus_calm details env.detailsEncoded env.send
    refine .inl (Ctx.afterSend_proceeds hscheduled hsent ?_)
    exact (hcalm.trans (Ctx.setJob_calm _ _)).goes (by decide)
  | imageDownloadSucceeded shouldReboot => exact .inl ((s.setJob_calm _).goes (by decide))
  | updateAccepted =>
    simp only [Ctx.postDownloadEvent]
    split
    · exact .inl (Ctx.proceeds (by decide))
    · rename_i hempty
      cases finishDownload_passes hscheduled (Bool.not_eq_false _ ▸ hempty) with
      | inl hgoes => exact .inl hgoes
      | inr hfinishes => exact .inr ⟨trivial, hfinishes⟩
  | _ => exact .inl (Ctx.proceeds (by decide))

/-- What follows a send that is not refused may reset the timer. -/
theorem afterSend_passes {t : Ctx} {err : EspError} (hsent : refused err = false)
    {recovery : JobState} {next : Ctx × JobState} (hnext : Passes s env e next) :
    Passes s env e (t.afterSend env err recovery e next) := by
  cases t.afterSend_eq env hsent recovery e next with
  | inl hfatal =>
    rw [hfatal]
    exact .inl (Ctx.enterErrorState_proceeds hscheduled _ _)
  | inr hok =>
    rw [hok]
    exact hnext

omit hscheduled in
/-- The queued status is no part of the record. -/
theorem afterQueued_calm : Calm s (s.afterQueued env) := by
  rw [Ctx.afterQueued]
  split
  · exact (s.publishFinalStatus_calm _ _ _).trans (Ctx.setJob_calm _ _)
  · exact .refl s

/-- The queued status first, and then the event. -/
theorem handleStatePostDownload_passes (hstate : s.state = .postDownload)
    (hsent : s.refuses cfg env e = false) : Passes s env e (handleStatePostDownload env s e) := by
  simp only [Ctx.refuses, hstate, Bool.or_eq_false_iff] at hsent
  obtain ⟨hqueued, hfinal⟩ := hsent
  -- The event is looked at in the context behind the queued status.
  have hpasses : Passes s env e ((s.afterQueued env).postDownloadEvent env e) := by
    cases postDownloadEvent_passes hscheduled hfinal with
    | inl hgoes => exact .inl (afterQueued_calm.proceeds hgoes)
    | inr hfinishes =>
      obtain ⟨rfl, hfinishes, hgoes⟩ := hfinishes
      refine .inr ⟨?_, afterQueued_calm.reset.proceeds hgoes⟩
      simpa only [Ctx.resets, hstate] using hfinishes
  rw [handleStatePostDownload]
  rw [Ctx.afterQueued] at hpasses
  split
  · rename_i hflag
    rw [if_pos hflag] at hpasses
    rw [hflag, Bool.true_and] at hqueued
    exact afterSend_passes hscheduled hqueued hpasses
  · rename_i hflag
    rw [if_neg hflag] at hpasses
    exact hpasses

/-- No handler but the one of `ERROR` makes the record worse. -/
theorem handleState_passes (hstate : s.state ≠ .error) (hsent : s.refuses cfg env e = false) :
    Passes s env e (handleState cfg env s e) := by
  rw [handleState]
  cases h : s.state with
  | uninitialized => exact .inl (Ctx.proceeds (by simp))
  | networkInit => exact .inl (handleStateNetworkInit_proceeds hscheduled)
  | rebootCheck => exact handleStateRebootCheck_passes hscheduled h hsent
  | idle => exact .inl (handleStateIdle_proceeds hscheduled)
  | jobsChanged => exact .inl (handleStateJobsChanged_proceeds hscheduled)
  | fetchingPendingJobs => exact .inl (handleStateFetchingPendingJobs_proceeds hscheduled)
  | waitingForPendingJobs => exact .inl (handleStateWaitingForPendingJobs_proceeds hscheduled)
  | pendingJobsReceived => exact handleStatePendingJobsReceived_passes hscheduled h
  | fetchingJobDoc => exact .inl (handleStateFetchingJobDoc_proceeds hscheduled)
  | waitingForJobDoc => exact .inl (handleStateWaitingForJobDoc_proceeds hscheduled)
  | jobDocReceived => exact handleStateJobDocReceived_passes hscheduled h hsent
  | customJobExecution => exact handleStateCustomJobExecution_passes hscheduled h hsent
  | jobExecution => exact handleStateJobExecution_passes hscheduled h
  | postDownload => exact handleStatePostDownload_passes hscheduled h hsent
  | error => exact absurd h hstate

end

/-! ### The requests in the queue -/

/-- One event more in front. -/
theorem asked_cons (e : Event) (rest : List Event) (before : Bool) :
    asked (e :: rest) before = asked rest
      (if e = .errorOccurred then false else before || decide (e = .recoveryRequested)) := rfl

variable {queue : List Event} {s : Ctx}

/-- A request stays until the next error event. -/
theorem asked_of_true (h : .errorOccurred ∉ queue) : asked queue true = true := by
  induction queue with
  | nil => rfl
  | cons e rest ih =>
    rw [List.mem_cons, not_or] at h
    rw [asked_cons, if_neg (Ne.symm h.1), Bool.true_or]
    exact ih h.2

/-- Events behind a request leave it, unless an error event is among them. -/
theorem asked_append {news : List Event} {before : Bool} (h : asked queue before = true)
    (hnews : .errorOccurred ∉ news) : asked (queue ++ news) before = true := by
  rw [asked, List.foldl_append]
  rw [asked] at h
  rw [h]
  exact asked_of_true hnews

/-- Nothing before an error event counts. -/
theorem asked_reset (h : .errorOccurred ∈ queue) (before : Bool) :
    asked queue before = asked queue false := by
  induction queue generalizing before with
  | nil => cases h
  | cons e rest ih =>
    rw [asked_cons, asked_cons]
    by_cases he : e = .errorOccurred
    · rw [if_pos he, if_pos he]
    · have hrest : .errorOccurred ∈ rest := (List.mem_cons.mp h).resolve_left (Ne.symm he)
      rw [ih hrest, ih hrest (if e = .errorOccurred then _ else _)]

/-- Another event in front does not matter. -/
theorem asked_cons_of_ne {e : Event} (he : e ≠ .recoveryRequested) (rest : List Event) :
    asked (e :: rest) false = asked rest false := by
  rw [asked_cons, decide_eq_false he, Bool.or_false, ite_self]

/-- A request was there before, or it is in the queue. -/
theorem mem_of_asked {before : Bool} (h : asked queue before = true) :
    before = true ∨ .recoveryRequested ∈ queue := by
  induction queue generalizing before with
  | nil => exact .inl h
  | cons e rest ih =>
    rcases @ih (if e = .errorOccurred then false else before || _) h with hhead | hrest
    · split at hhead
      · cases hhead
      · rw [Bool.or_eq_true, decide_eq_true_eq] at hhead
        exact hhead.imp_right fun he => List.mem_cons.mpr (.inl he.symm)
    · exact .inr (List.mem_cons_of_mem e hrest)

/-! ### The invariant -/

/-- The record of the backoff is complete, and its timer or its request is there. -/
structure Ready (s : Ctx) : Prop where
  recovery : s.recovery = ErrorReason.retryWithBackoff.recovery
  left : s.errorRetryArmed = true ∨ asked s.queue false = true

/-- In `ERROR`, and before an error event is handled, a backoff is complete. -/
def Recoverable (s : Ctx) : Prop :=
  s.retries = true → s.state = .error ∨ .errorOccurred ∈ s.queue → Ready s

variable {t : Ctx}

/-- The last error stays the last one. -/
theorem Calm.retries (h : Calm s t) : t.retries = s.retries := by
  rw [Ctx.retries, Ctx.retries, h.errors]

/-- A calm handler posts no error event. -/
theorem Calm.mem_queue (h : Calm s t) (hmem : .errorOccurred ∈ t.queue) :
    .errorOccurred ∈ s.queue := by
  obtain ⟨news, hqueue, hnews⟩ := h.queue
  rw [hqueue, List.mem_append] at hmem
  exact hmem.resolve_right hnews

/-- A calm handler leaves the record complete. -/
theorem Calm.ready (h : Calm s t) (hs : Ready s) : Ready t where
  recovery := h.recovery.trans hs.recovery
  left := by
    obtain ⟨news, hqueue, hnews⟩ := h.queue
    rw [h.armed, hqueue]
    exact hs.left.imp_right fun hasked => asked_append hasked hnews

/-- What leaves the record and the state leaves the invariant. -/
theorem Calm.recoverable (h : Calm s t) (hstate : t.state = s.state) (hs : Recoverable s) :
    Recoverable t := by
  intro hretries herror
  rw [h.retries] at hretries
  rw [hstate] at herror
  exact h.ready (hs hretries (herror.imp_right h.mem_queue))

/-- An entry with the record of `enter_error_state` is complete. -/
theorem Enters.recoverable {error : ErrorReason} (h : Enters t error) (next : JobState) :
    Recoverable { t with state := next } := by
  intro hretries _
  have herror : error = .retryWithBackoff := by
    simpa [Ctx.retries, h.errors] using hretries
  subst herror
  exact ⟨h.recovery, .inl (h.armed rfl)⟩

/-- A handler that proceeds leaves a way out. -/
theorem Proceeds.recoverable {r : Ctx × JobState} (hr : Proceeds s r)
    (hs : s.retries = true → .errorOccurred ∈ s.queue → Ready s) :
    Recoverable { r.1 with state := r.2 } := by
  rcases hr with ⟨hnext, hcalm⟩ | ⟨error, henters⟩
  · intro hretries herror
    have hmem : .errorOccurred ∈ r.1.queue := herror.resolve_left hnext
    have hready := hcalm.ready (hs (hcalm.retries ▸ hretries) (hcalm.mem_queue hmem))
    exact ⟨hready.recovery, hready.left⟩
  · exact henters.recoverable r.2

/-! ### One step -/

section
variable {cfg : Config} {env : Env} {s : Ctx} {e : Event}

/-- The report of a failed job is no part of the record. -/
theorem errorOccurred_calm : Calm s (s.errorOccurred env) := by
  rw [Ctx.errorOccurred]
  split
  · exact (s.otaJobsPublish_calm _ _ _ _).trans (Ctx.setJob_calm _ _)
  · exact .refl s

/-- The event that is handled leaves the rest of the queue. -/
theorem Ready.popped (h : Ready { s with queue := e :: s.queue }) (he : e ≠ .recoveryRequested) :
    Ready s where
  recovery := h.recovery
  left := h.left.imp_right fun hasked => asked_cons_of_ne he s.queue ▸ hasked

/-- The run on an error event. -/
theorem errorEvent_recoverable (hs : s.retries = true → Ready s) :
    Recoverable { s.errorOccurred env with state := .error } := by
  intro hretries _
  have hcalm : Calm s { s.errorOccurred env with state := .error } :=
    errorOccurred_calm.trans (.of_eq rfl rfl rfl rfl)
  rw [hcalm.retries] at hretries
  exact hcalm.ready (hs hretries)

/-- The request of a backoff leads to `IDLE`, where the jobs are fetched again. -/
theorem recoveryRequested_eq (h : s.recovery = ErrorReason.retryWithBackoff.recovery) :
    s.recoveryRequested env =
      if env.enqueued then ((s.enqueue .fetchRequested).recoveryResetContext, .idle)
      else (s.backoffRetry env.backoffScheduled, .error) := by
  have hkept : { s with recovery := { s.recovery with eventData := none } } = s := by
    cases s
    subst h
    rfl
  simp only [Ctx.recoveryRequested, hkept]
  rw [h]
  rfl

/-- The handler of `ERROR`. -/
theorem handleStateError_recoverable (hstate : s.state = .error)
    (hs : Recoverable { s with queue := e :: s.queue }) (hsteady : SteadyRun cfg env s e)
    (he : e ≠ .errorOccurred) :
    Recoverable { (handleStateError env s e).1 with state := (handleStateError env s e).2 } := by
  have hready : s.retries = true → Ready { s with queue := e :: s.queue } :=
    fun hretries => hs hretries (.inl hstate)
  cases e with
  | errorOccurred => exact absurd rfl he
  | recoveryRequested =>
    by_cases hretries : s.retries = true
    · have hrecovery : s.recovery = ErrorReason.retryWithBackoff.recovery :=
        (hready hretries).recovery
      rw [show handleStateError env s .recoveryRequested = s.recoveryRequested env from rfl,
        recoveryRequested_eq hrecovery]
      by_cases henqueued : env.enqueued = true
      · rw [if_pos henqueued]
        -- No error event waits behind the request.
        have hno := hsteady.requested hstate rfl henqueued hretries
        intro _ herror
        have hmem : .errorOccurred ∈ s.queue ++ [.fetchRequested] := herror.resolve_left (by simp)
        exact absurd (List.mem_append.mp hmem) (by simpa using hno)
      · rw [if_neg henqueued, hsteady.scheduled]
        intro _ _
        exact ⟨hrecovery, .inl rfl⟩
    · intro hretries'
      have hkept : s.retries = true := by
        rw [← hretries']
        show _ = Ctx.retries { (s.recoveryRequested env).1 with state := _ }
        rw [Ctx.recoveryRequested]
        dsimp only
        split <;> rfl
      exact absurd hkept hretries
  | _ =>
    intro hretries _
    have hleft : Ready s := (hready hretries).popped (by simp)
    exact ⟨hleft.recovery, hleft.left⟩

/-- One run of the machine. -/
theorem runOnce_recoverable (hs : Recoverable { s with queue := e :: s.queue })
    (hsteady : SteadyRun cfg env s e) : Recoverable (runOnce cfg env s e) := by
  simp only [runOnce]
  by_cases he : e = .errorOccurred
  · subst he
    rw [if_pos rfl]
    have hready (hretries : s.retries = true) : Ready s :=
      (hs hretries (.inr (List.mem_cons.mpr (.inl rfl)))).popped (by simp)
    exact errorEvent_recoverable (s := { s with state := .error }) fun hretries =>
      ⟨(hready hretries).recovery, (hready hretries).left⟩
  · rw [if_neg he]
    by_cases hstate : s.state = .error
    · rw [show handleState cfg env s e = handleStateError env s e by rw [handleState, hstate]]
      exact handleStateError_recoverable hstate hs hsteady he
    · have hready (hretries : s.retries = true) (hmem : .errorOccurred ∈ s.queue) :
          Ready { s with queue := e :: s.queue } :=
        hs hretries (.inr (List.mem_cons_of_mem e hmem))
      cases handleState_passes hsteady.scheduled hstate (hsteady.sent he) with
      | inl hgoes =>
        refine hgoes.recoverable ?_
        intro hretries hmem
        have h := hready hretries hmem
        have hreset : asked (e :: s.queue) false = asked s.queue false := by
          rw [asked_cons, asked_reset hmem]
        exact ⟨h.recovery, h.left.imp_right fun hasked => hreset ▸ hasked⟩
      | inr hreset =>
        obtain ⟨hresets, hgoes⟩ := hreset
        refine hgoes.recoverable ?_
        intro hretries hmem
        exact ⟨(hready hretries hmem).recovery, .inr (hsteady.resets hresets hretries hmem)⟩

end

/-! ### The other tasks -/

namespace Ctx

variable (s : Ctx)

/-- Nor is the answer to an update. -/
theorem attributeResponse_calm (ret : Status.ResponseReturn) (accepted posted : Bool) :
    Calm s (s.attributeResponse ret accepted posted) := by
  simp only [attributeResponse]
  split
  · exact .refl s
  · split
    · split
      · exact (s.setJob_calm _).trans (postEvent_calm _ (by simp) posted)
      · exact s.postEvent_calm (by simp) posted
    · exact s.postEvent_calm (by simp) posted

/-- Nor is a response. -/
theorem onUpdateResponse_calm (request : UpdateRequest) (payload : ResponsePayload)
    (accepted : Bool) (env : StatusEnv) (posted : Bool) :
    Calm s (s.onUpdateResponse request payload accepted env posted) := by
  simp only [onUpdateResponse]
  split
  · exact .of_eq rfl rfl rfl rfl
  · refine Calm.trans ?_ (attributeResponse_calm _ _ accepted posted)
    exact .of_eq rfl rfl rfl rfl

/-- A request to recover is no error event. -/
theorem recover_calm (posted : Bool) : Calm s (s.recover posted).2 := by
  rw [recover]
  split
  · exact .refl s
  · exact s.postEvent_calm (by simp) posted

/-- Apart from the timer, the backoff task leaves the record. -/
theorem retryWithBackoffTask_calm (posted scheduled : Bool) :
    ∃ armed, Calm { s with errorRetryArmed := armed }
      (s.retryWithBackoffTask posted scheduled) := by
  have hfired := recover_calm { s with errorRetryArmed := false } posted
  simp only [retryWithBackoffTask]
  split
  · exact ⟨false, hfired⟩
  · exact ⟨(backoffRetry _ scheduled).errorRetryArmed, hfired.errors, hfired.recovery, rfl,
      hfired.queue⟩

/-- The task of a complete backoff posts the request, or it starts the timer again. -/
theorem retryWithBackoffTask_ready {posted scheduled : Bool}
    (h : s.recovery = ErrorReason.retryWithBackoff.recovery)
    (hsteady : posted = true ∨ scheduled = true) :
    Ready (s.retryWithBackoffTask posted scheduled) := by
  have hrecover : recover { s with errorRetryArmed := false } posted =
      (if posted then .ok else .fail,
        postEvent { s with errorRetryArmed := false } .recoveryRequested posted) := by
    rw [recover, if_neg]
    rw [h]
    decide
  simp only [retryWithBackoffTask, hrecover]
  cases posted with
  | true =>
    refine ⟨h, .inr ?_⟩
    show asked (s.queue ++ [.recoveryRequested]) false = true
    rw [asked, List.foldl_append]
    simp
  | false =>
    have hscheduled : scheduled = true := hsteady.resolve_left (by simp)
    exact ⟨h, .inl (by simp [backoffRetry, hscheduled])⟩

end Ctx

/-- The other tasks post no error event, but the one of a subscription. -/
theorem step_recoverable {cfg : Config} {a : Action} (hs : Recoverable s)
    (hsteady : Steady cfg s a) (h : step cfg s a = some t) : Recoverable t := by
  cases a with
  | run env =>
    simp only [step] at h
    cases hqueue : s.queue with
    | nil =>
      rw [hqueue] at h
      cases h
    | cons e rest =>
      rw [hqueue] at h
      simp only [Steady, hqueue] at hsteady
      obtain rfl := Option.some.inj h
      refine runOnce_recoverable (s := { s with queue := rest }) ?_ (hsteady e rfl)
      rw [← hqueue]
      exact hs
  | post e posted =>
    simp only [step] at h
    split at h
    · rename_i hexternal
      obtain rfl := Option.some.inj h
      have he : e ≠ .errorOccurred := by
        rintro rfl
        cases hexternal
      exact (s.postEvent_calm he posted).recoverable (s.postEvent_state e posted) hs
    · cases h
  | response request accepted code versionNumber env posted =>
    simp only [step] at h
    split at h
    · obtain rfl := Option.some.inj h
      exact (s.onUpdateResponse_calm request _ accepted env posted).recoverable
        (s.onUpdateResponse_state request _ accepted env posted) hs
    · cases h
  | retryTimer ptr env =>
    simp only [step] at h
    split at h
    · cases h
    · obtain rfl := Option.some.inj h
      exact Calm.recoverable (s := s) (.of_eq rfl rfl rfl rfl) rfl hs
  | backoffTimer posted scheduled =>
    simp only [step] at h
    split at h
    · obtain rfl := Option.some.inj h
      intro hretries herror
      obtain ⟨armed, hcalm⟩ := s.retryWithBackoffTask_calm posted scheduled
      rw [hcalm.retries] at hretries
      have hstate : (s.retryWithBackoffTask posted scheduled).state = s.state := by
        simp only [Ctx.retryWithBackoffTask]
        split
        · exact Ctx.recover_state _ posted
        · exact Ctx.recover_state _ posted
      rw [hstate] at herror
      have hready := hs hretries (herror.imp_right hcalm.mem_queue)
      exact s.retryWithBackoffTask_ready hready.recovery hsteady
    · cases h
  | requestRecovery posted =>
    obtain rfl := Option.some.inj h
    exact (s.recover_calm posted).recoverable (s.recover_state posted) hs
  | subscribed snapshotAllocated copied envs env =>
    obtain rfl := Option.some.inj h
    simp only [Ctx.onSubscribed]
    split
    · have hresent (status : Cache) (rs : List UpdateRequest) :
          Calm s { s with status := status, requests := rs } := .of_eq rfl rfl rfl rfl
      exact ((hresent _ _).trans (Ctx.enqueue_calm _ (by simp))).recoverable rfl hs
    · rename_i hfailed
      have hscheduled : env.backoffScheduled = true := hsteady.resolve_left hfailed
      exact (Ctx.enterErrorState_enters _ hscheduled .retryWithBackoff).recoverable _
  | reportStatus report details encoded env =>
    obtain rfl := Option.some.inj h
    exact (s.otaJobsPublish_calm _ _ _ _).recoverable rfl hs

/-! ### The runs -/

/-- At first there is no error. -/
theorem Initial.recoverable (h : Initial s) : Recoverable s := by
  subst h
  intro hretries _
  cases hretries

/-- `IDLE` fetches the jobs again. -/
theorem idle_handles_fetch : Handles .idle .fetchRequested := by
  intro cfg env s hstate h
  have hnext : (handleState cfg env s .fetchRequested).2 = .idle := by rw [h]
  rw [handleState, hstate] at hnext
  simp only [handleStateIdle, Ctx.moveTo] at hnext
  split at hnext <;> cases hnext

/-- A complete record is a way out. -/
theorem Ready.recovers (h : Ready s) : Recovers s where
  posts := by
    rw [Ctx.recover, if_neg]
    · rfl
    · rw [h.recovery]
      decide
  moves := by
    refine ⟨.fetchRequested, by rw [h.recovery]; exact idle_handles_fetch, ?_⟩
    intro env
    show if _ then (s.recoveryRequested env).2 = _ ∧ (s.recoveryRequested env).1.queue = _
      else s.recoveryRequested env = _
    rw [recoveryRequested_eq h.recovery, h.recovery]
    split
    · exact ⟨rfl, rfl⟩
    · rfl
  left := h.left.imp_right fun hasked => (mem_of_asked hasked).resolve_left Bool.false_ne_true

/-- In a run that keeps no event and loses no timer, the machine in `ERROR` finds the way out of
each backoff. -/
theorem recovers_of_steady {cfg : Config} (hs : Reach Initial (step cfg) (Steady cfg) s)
    (herror : s.state = .error) (hretries : s.retries = true) : Recovers s := by
  have hinv : Recoverable s :=
    hs.inv Recoverable (fun _ h => h.recoverable) fun _ _ _ hinv hsteady h =>
      step_recoverable hinv hsteady h
  exact (hinv hretries (.inl herror)).recovers

instance (cfg : Config) (env : Env) (s : Ctx) (e : Event) : Decidable (SteadyRun cfg env s e) :=
  decidable_of_iff ((e ≠ .errorOccurred → s.refuses cfg env e = false) ∧
    env.backoffScheduled = true ∧
    (s.resets env e = true ∧ s.retries = true ∧ Event.errorOccurred ∈ s.queue →
      asked s.queue false = true) ∧
    ¬(s.state = .error ∧ e = .recoveryRequested ∧ env.enqueued = true ∧ s.retries = true ∧
      Event.errorOccurred ∈ s.queue))
    ⟨fun ⟨hsent, hscheduled, hresets, hrequested⟩ =>
      ⟨hsent, hscheduled, fun h hretries hmem => hresets ⟨h, hretries, hmem⟩,
        fun h he henqueued hretries hmem => hrequested ⟨h, he, henqueued, hretries, hmem⟩⟩,
      fun h => ⟨h.sent, h.scheduled, fun ⟨hr, hretries, hmem⟩ => h.resets hr hretries hmem,
        fun ⟨hs, he, henqueued, hretries, hmem⟩ => h.requested hs he henqueued hretries hmem⟩⟩

instance (cfg : Config) (s : Ctx) : ∀ a, Decidable (Steady cfg s a)
  | .run env => inferInstanceAs (Decidable (∀ e ∈ s.queue.head?,
      SteadyRun cfg env { s with queue := s.queue.tail } e))
  | .backoffTimer posted scheduled =>
    inferInstanceAs (Decidable (posted = true ∨ scheduled = true))
  | .subscribed _ _ _ env =>
    inferInstanceAs (Decidable (env.enqueued = true ∨ env.backoffScheduled = true))
  | .post _ _ | .response _ _ _ _ _ _ | .retryTimer _ _ | .requestRecovery _
  | .reportStatus _ _ _ _ => .isTrue trivial

/-- There is no memory for the event with which `IDLE` fetches the jobs. -/
def fetchWithoutMemory : List Action :=
  [.run {}, .run {}, .post .fetchRequested true, .run { enqueued := false }, .run {}]

/-- A list is fetched without memory, and the backoff leads out. -/
theorem fetchWithoutMemory_recovers : ∃ s : Ctx, Reach Initial (step {}) (Steady {}) s ∧
    s.state = .error ∧ s.retries = true ∧ Recovers s := by
  have hrun : Reach Initial (step {}) (Steady {}) _ :=
    Reach.exec fetchWithoutMemory (.start rfl) (by decide +kernel) rfl
  exact ⟨_, hrun, by decide +kernel, by decide +kernel,
    recovers_of_steady hrun (by decide +kernel) (by decide +kernel)⟩

/-! ### An event that is kept -/

/-- A record without a recovery event refuses each request. -/
theorem Ctx.recover_errorOccurred (h : s.recovery.event = .errorOccurred) (posted : Bool) :
    s.recover posted = (.invalidState, s) :=
  if_pos (.inr h)

/-- The id of the job before a reboot. -/
def rebootedJob : CStr := ⟨['j', 'o', 'b'], by decide⟩

/-- The status manager has no memory for the status that `REBOOT_CHECK` reports. -/
def reportWithoutMemory : List Action :=
  [.run { lastJob := some { jobId := rebootedJob } }, .post .rebootCheckRequested true,
    .run { statusFlags := some (true, true), send := { detailsAllocated := false } }, .run {}]

/-- The backoff task posts nothing: the machine stays in `ERROR`. -/
theorem stuck_in_error : ∃ s : Ctx, Reach Initial (step {}) (fun _ _ => True) s ∧
    s.state = .error ∧ s.retries = true ∧ (∀ posted, s.recover posted = (.invalidState, s)) ∧
      ¬Recovers s := by
  have hrun : Reach Initial (step {}) (fun _ _ => True) _ :=
    Reach.exec reportWithoutMemory (.start rfl) (by decide +kernel) rfl
  refine ⟨_, hrun, by decide +kernel, by decide +kernel, Ctx.recover_errorOccurred rfl, ?_⟩
  intro h
  have hposts := h.posts
  rw [Ctx.recover_errorOccurred rfl] at hposts
  cases hposts

end RainMakerNeo.Ota.Jobs
