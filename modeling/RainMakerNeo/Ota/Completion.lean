import RainMakerNeo.Ota.Attribution

/-!
# `RainMakerNeo.Ota.Completion`: a job ends after its terminal status was accepted

`CUSTOM_JOB_EXECUTION` and `POST_DOWNLOAD` end a job on an accepted update when the status manager
caches nothing and `final_status_reported` is set. The flag stands for two things: a terminal
status was accepted, or `POST_DOWNLOAD` has sent one. `Backed` is what the flag has to mean: the
service accepted a terminal status of the job, or the status manager still has it.

`accepted_before_idle` covers the runs of `Sound` steps. A job does not begin with the flag of the
job before, an answer is not `Misread`, and no terminal status of a job is given up while the flag
stands for it. `custom_job_ends_early` is a run of two custom jobs: the start of a custom job
leaves the flag, so an accepted progress update ends the second one.
-/

set_option autoImplicit false

namespace RainMakerNeo.Ota.Jobs

open RainMakerNeo.Lib
open RainMakerNeo.Ota.Status (Cache EspError JobEntries JobStatus StatusEnv StatusUpdate
  UpdateRequest SendResult ResponsePayload Grows isTerminal readToken rejectIsUnrecoverable)

/-! ### What the flag stands for -/

/-- The status manager has a terminal update of the current job. -/
def Ctx.HoldsTerminal (s : Ctx) : Prop :=
  ∃ e ∈ s.status.entries, e.jobId = s.currentJob.jobId ∧ e.hasCachedTerminal = true

/-- Where the flag is set, a terminal status was accepted, or it is still cached. -/
def Backed (s : Ctx) : Prop :=
  s.currentJob.finalStatusReported = true → s.history.terminalAccepted = true ∨ s.HoldsTerminal

/-- The flag of the current job can still be looked at: the job is executed, or a recovery leads
back to it. Before its first run, `JOB_EXECUTION` clears the flag. -/
def Relevant (s : Ctx) : Prop :=
  (s.state = .jobExecution ∧ s.currentJob.hasActiveJob = true) ∨
    s.state = .customJobExecution ∨ s.state = .postDownload ∨ s.recovery.state.runsJob = true

/-- The invariant of the runs. A recovery to a job is only kept in `ERROR`. -/
structure Ends (s : Ctx) : Prop where
  recovery : s.recovery.state.runsJob = true → s.state = .error
  backed : Relevant s → Backed s

/-- The current job, its flag and its terminal updates stay. With `timers`, the retry timers of
the updates stay as well. -/
structure Carries (timers : Bool) (s t : Ctx) : Prop where
  jobId : t.currentJob.jobId = s.currentJob.jobId
  flag : t.currentJob.finalStatusReported = s.currentJob.finalStatusReported
  active : t.currentJob.hasActiveJob = true → s.currentJob.hasActiveJob = true
  accepted : s.history.terminalAccepted = true → t.history.terminalAccepted = true
  grows : Grows timers s.status t.status

namespace Carries

variable {timers : Bool} {s t u : Ctx}

/-- Nothing may change at all. -/
theorem refl (s : Ctx) : Carries timers s s := ⟨rfl, rfl, id, id, .refl timers s.status⟩

/-- One step after the other. -/
theorem trans (h : Carries timers s t) (h' : Carries timers t u) : Carries timers s u where
  jobId := h'.jobId.trans h.jobId
  flag := h'.flag.trans h.flag
  active := fun ha => h.active (h'.active ha)
  accepted := fun ha => h'.accepted (h.accepted ha)
  grows := h.grows.trans h'.grows

/-- A step that leaves the current job, the history and the status manager alone. -/
theorem of_eq (hjob : t.currentJob = s.currentJob)
    (haccepted : t.history.terminalAccepted = s.history.terminalAccepted)
    (hstatus : t.status = s.status) : Carries timers s t where
  jobId := by rw [hjob]
  flag := by rw [hjob]
  active := by rw [hjob]; exact id
  accepted := by rw [haccepted]; exact id
  grows := by rw [hstatus]; exact .refl timers s.status

/-- A step with other events and errors only. -/
theorem of_core (h : t.core = s.core) : Carries true s t := by
  have hjob : t.core.currentJob = s.core.currentJob := by rw [h]
  have haccepted : t.core.history.terminalAccepted = s.core.history.terminalAccepted := by rw [h]
  have hstatus : t.core.status = s.core.status := by rw [h]
  exact .of_eq hjob haccepted hstatus

/-- A cached terminal update is carried along. -/
theorem holdsTerminal (h : Carries timers s t) (hs : s.HoldsTerminal) : t.HoldsTerminal := by
  obtain ⟨e, he, hid, hcached⟩ := hs
  obtain ⟨e', he', hcont⟩ := h.grows.fwd e he
  exact ⟨e', he', (hcont.jobId.trans hid).trans h.jobId.symm, hcont.cached hcached⟩

/-- So is what the flag stands for. -/
theorem backed (h : Carries timers s t) (hs : Backed s) : Backed t := by
  intro hflag
  rw [h.flag] at hflag
  cases hs hflag with
  | inl haccepted => exact .inl (h.accepted haccepted)
  | inr hholds => exact .inr (h.holdsTerminal hholds)

end Carries

/-! ### The shared helpers -/

namespace Ctx

variable (s : Ctx) (env : Env)

/-- A send for the current job only adds to the status manager. -/
theorem sentForCurrentJob_carries (status : JobStatus) {r : SendResult}
    (h : Grows true s.status r.cache) : Carries true s (s.sentForCurrentJob status r) :=
  ⟨rfl, rfl, id, id, h⟩

/-- A report is a send for the current job. -/
theorem otaJobsPublish_carries (status : JobStatus) (details : StatusDetails) (encoded : Bool)
    (senv : StatusEnv) : Carries true s (s.otaJobsPublish status details encoded senv).2 := by
  refine s.sentForCurrentJob_carries status ?_
  rw [publishUpdateJobStatus]
  split
  · exact .refl true s.status
  · exact s.status.otaStatusSend_grows _ senv

/-- So is the report of a custom job. -/
theorem otaJobsPublishWithString_carries (status : JobStatus) (json : List Char)
    (senv : StatusEnv) : Carries true s (s.otaJobsPublishWithString status json senv).2 :=
  s.sentForCurrentJob_carries status (s.status.otaStatusSend_grows _ senv)

/-- So is a final status. -/
theorem publishFinalStatus_carries (details : StatusDetails) (encoded : Bool) (senv : StatusEnv) :
    Carries true s (s.publishFinalStatus details encoded senv).2 := by
  rw [publishFinalStatus]
  split
  · exact .refl s
  · exact s.otaJobsPublish_carries _ details encoded senv

/-- A job that is given up is no longer active. -/
theorem errorOccurred_carries : Carries true s (s.errorOccurred env) := by
  rw [errorOccurred]
  split
  · refine (s.otaJobsPublish_carries _ _ _ _).trans ⟨rfl, rfl, ?_, id, .refl true _⟩
    intro hx
    cases hx
  · exact .refl s

/-- A final status that is sent is cached. -/
theorem publishFinalStatus_holds {s : Ctx} {details : StatusDetails} {encoded : Bool}
    {senv : StatusEnv} (hok : (s.publishFinalStatus details encoded senv).1 = .ok) :
    (s.publishFinalStatus details encoded senv).2.HoldsTerminal := by
  rw [publishFinalStatus] at hok ⊢
  cases hfinal : details.finalStatus with
  | none =>
    rw [hfinal] at hok
    cases hok
  | some status =>
    have hterminal : isTerminal status = true := by
      cases details with
      | succeeded | failed =>
        obtain rfl := Option.some.inj hfinal
        rfl
      | invalid | inProgress | rejected => cases hfinal
    rw [hfinal] at hok
    simp only [otaJobsPublish, publishUpdateJobStatus] at hok ⊢
    cases hjson : details.toJson encoded with
    | none =>
      rw [hjson] at hok
      cases hok
    | some json =>
      rw [hjson] at hok
      obtain ⟨e, he, hid, hcached, -⟩ := Cache.otaStatusSend_caches
        (u := { jobId := s.currentJob.jobId, status := status, details := json }) hterminal hok
      exact ⟨e, he, hid, hcached⟩

end Ctx

/-! ### The handlers of the job states -/

/-- A handler ends with the flag backed, and with a recovery to a job only in `ERROR`. -/
structure Lands (r : Ctx × JobState) : Prop where
  recovery : r.1.recovery.state.runsJob = true → r.2 = .error
  backed : Backed r.1

/-- Behind such a handler the invariant holds. -/
theorem Lands.ends {r : Ctx × JobState} (h : Lands r) : Ends { r.1 with state := r.2 } where
  recovery := h.recovery
  backed := fun _ => h.backed

/-- Away from the jobs, the flag does not matter. -/
theorem Away.ends {r : Ctx × JobState} (h : Away r) : Ends { r.1 with state := r.2 } where
  recovery := fun hr => absurd (h.recovery.symm.trans hr) (by decide)
  backed := by
    intro hrelevant
    have hnext := h.next
    obtain ⟨hstate, -⟩ | hstate | hstate | hr := hrelevant
    · rw [show r.2 = _ from hstate] at hnext
      cases hnext
    · rw [show r.2 = _ from hstate] at hnext
      cases hnext
    · rw [show r.2 = _ from hstate] at hnext
      cases hnext
    · exact absurd (h.recovery.symm.trans hr) (by decide)

namespace Ctx

variable {s : Ctx} (env : Env)

/-- Without a new plan the flag stays backed. -/
theorem lands (hs : Backed s) (hr : s.recovery.state.runsJob = false) (next : JobState) :
    Lands (s, next) where
  recovery := fun hrun => absurd (hr.symm.trans hrun) (by decide)
  backed := hs

/-- No reason plans a recovery to a job. -/
theorem enterErrorState_lands (hs : Backed s) (error : ErrorReason) (next : JobState) :
    Lands (s.enterErrorState env error, next) where
  recovery := by
    intro hrun
    rw [enterErrorState_recovery, error.recovery_runsJob] at hrun
    cases hrun
  backed := (Carries.of_core (s.enterErrorState_core env error)).backed hs

/-- A transition leaves the flag. -/
theorem moveTo_lands (hs : Backed s) (hr : s.recovery.state.runsJob = false) (e : Event)
    (next : JobState) : Lands (s.moveTo env e next) := by
  have hbacked := (Carries.of_core (s.moveTo_core env e next)).backed hs
  rw [moveTo] at hbacked ⊢
  split
  · rename_i henqueued
    rw [if_pos henqueued] at hbacked
    exact lands hbacked hr next
  · exact enterErrorState_lands env hs .retryWithBackoff .error

/-- A send that is tried again plans the recovery in `ERROR`. -/
theorem afterSend_lands (hs : Backed s) (err : EspError) (recovery : JobState) (e : Event)
    {next : Ctx × JobState} (hnext : err = .ok → Lands next) :
    Lands (s.afterSend env err recovery e next) := by
  rw [afterSend]
  split
  · exact enterErrorState_lands env hs .fatalUnexpectedFormat .error
  · split
    · exact ⟨fun _ => rfl, (Carries.of_core (s.enterErrorStateCustom_core env _ _ _)).backed hs⟩
    · rename_i hok
      exact hnext (not_not.mp hok)

/-- The first run of a download clears the flag. -/
theorem startDownload_lands (hr : s.recovery.state.runsJob = false) :
    Lands (s.startDownload env) := by
  have hsent := otaJobsPublish_carries (s.setJob fun job => { job with
    hasActiveJob := true, shouldReboot := false, finalStatusReported := false,
    finalStatusQueued := false }) .inProgress
      (.inProgress 0 (UInt32.ofNat s.currentJob.otaData.filesize)) env.detailsEncoded env.send
  have hbacked := hsent.backed nofun
  simp only [startDownload]
  split
  · exact lands hbacked hr .jobExecution
  · exact moveTo_lands env hbacked hr _ .postDownload

/-- A job that ends takes its flag with it. -/
theorem finishDownload_lands (hs : Backed s) (hr : s.recovery.state.runsJob = false) :
    Lands (s.finishDownload env) := by
  rw [finishDownload]
  split
  · exact lands (s := { s with history := { s.history with rebootIssued := true } }) hs hr _
  · split
    · exact moveTo_lands env (s := (s.setJob fun _ => {}).retryResetBackoff)
        (fun hx => by cases hx) hr _ .idle
    · exact lands hs hr _

/-- The flag is set behind a final status that was sent. -/
theorem postDownloadEvent_lands (hs : Backed s) (hr : s.recovery.state.runsJob = false)
    (e : Event) : Lands (s.postDownloadEvent env e) := by
  unfold postDownloadEvent
  split
  · rename_i details
    have hsent := (s.publishFinalStatus_carries details env.detailsEncoded env.send).backed hs
    have hrsent : (s.publishFinalStatus details env.detailsEncoded env.send).2.recovery.state.runsJob
        = false := by
      rw [publishFinalStatus_recovery]
      exact hr
    -- The flag is set, and what it stands for is in the status manager.
    have hreported : (s.publishFinalStatus details env.detailsEncoded env.send).1 = .ok →
        Backed ((s.publishFinalStatus details env.detailsEncoded env.send).2.setJob fun job =>
          { job with finalStatusReported := true }) :=
      fun hok _ => .inr (publishFinalStatus_holds hok)
    exact afterSend_lands env hsent _ _ _ fun hok => lands (hreported hok) hrsent _
  · rename_i shouldReboot
    have hs' : Backed (s.setJob fun job => { job with shouldReboot := shouldReboot }) := hs
    exact lands hs' hr _
  · split
    · exact lands hs hr _
    · exact finishDownload_lands env hs hr
  · exact lands hs hr _

end Ctx

section
variable {s : Ctx} (env : Env) (e : Event)

/-- A custom job leaves the flag. -/
theorem handleStateCustomJobExecution_lands (hs : Backed s)
    (hr : s.recovery.state.runsJob = false) :
    Lands (handleStateCustomJobExecution env s e) := by
  unfold handleStateCustomJobExecution
  split
  · split
    · exact Ctx.lands hs hr _
    · exact Ctx.moveTo_lands env hs hr _ _
  · rename_i report details
    have hsent := (s.otaJobsPublishWithString_carries report.status details env.send).backed hs
    exact Ctx.afterSend_lands env hsent _ _ _ fun _ => Ctx.lands hsent hr _
  · split
    · exact Ctx.lands hs hr _
    · split
      · exact Ctx.lands hs hr _
      · exact Ctx.moveTo_lands env (s := s.retryResetBackoff) hs hr _ _
  · exact Ctx.lands hs hr _

/-- The first run clears the flag, and the others leave it. -/
theorem handleStateJobExecution_lands (hs : s.currentJob.hasActiveJob = true → Backed s)
    (hr : s.recovery.state.runsJob = false) : Lands (handleStateJobExecution env s e) := by
  unfold handleStateJobExecution
  split
  · exact Ctx.startDownload_lands env hr
  · rename_i hactive
    have hs := hs (Bool.not_eq_false _ ▸ hactive)
    cases e with
    | imageDownloadProgress downloaded =>
      exact Ctx.lands ((s.otaJobsPublish_carries _ _ _ _).backed hs) hr _
    | imageDownloadSucceeded =>
      have hsent := (s.retryResetBackoff.otaJobsPublish_carries .inProgress
        (.inProgress (UInt32.ofNat s.currentJob.otaData.filesize)
          (UInt32.ofNat s.currentJob.otaData.filesize)) env.detailsEncoded env.send).backed hs
      exact Ctx.moveTo_lands env hsent hr _ _
    | timeout => exact Ctx.enterErrorState_lands env hs .retryWithBackoff .jobExecution
    | imageDownloadFailed failure => exact Ctx.moveTo_lands env hs hr _ _
    | finalStatusReportRequested details =>
      have hs' : Backed (s.setJob fun job =>
        { job with currentStatusDetails := details, finalStatusQueued := true }) := hs
      exact Ctx.lands hs' hr _
    | _ => exact Ctx.lands hs hr _

/-- The queued final status sets the flag first. -/
theorem handleStatePostDownload_lands (hs : Backed s) (hr : s.recovery.state.runsJob = false) :
    Lands (handleStatePostDownload env s e) := by
  simp only [handleStatePostDownload]
  split
  · have hsent := (s.publishFinalStatus_carries s.currentJob.currentStatusDetails
      env.detailsEncoded env.sendQueued).backed hs
    have hrsent : (s.publishFinalStatus s.currentJob.currentStatusDetails env.detailsEncoded
        env.sendQueued).2.recovery.state.runsJob = false := by
      rw [Ctx.publishFinalStatus_recovery]
      exact hr
    have hunqueued : Backed ((s.publishFinalStatus s.currentJob.currentStatusDetails
        env.detailsEncoded env.sendQueued).2.setJob fun job =>
          { job with finalStatusQueued := false }) := hsent
    exact Ctx.afterSend_lands env hsent _ _ _ fun _ =>
      Ctx.postDownloadEvent_lands env hunqueued hrsent e
  · exact Ctx.postDownloadEvent_lands env hs hr e

/-- In `ERROR`, only a recovery to a job needs the flag backed. -/
theorem Ends.of_error {t : Ctx} (hstate : t.state = .error)
    (h : t.recovery.state.runsJob = true → Backed t) : Ends t where
  recovery := fun _ => hstate
  backed := by
    intro hrelevant
    rw [Relevant, hstate] at hrelevant
    obtain ⟨hne, -⟩ | hne | hne | hrun := hrelevant
    · cases hne
    · cases hne
    · cases hne
    · exact h hrun

/-- The report of a failed job leaves the plan. -/
@[simp] theorem Ctx.errorOccurred_recovery : (s.errorOccurred env).recovery = s.recovery := by
  rw [errorOccurred]
  split <;> rfl

/-- The handler of `ERROR` keeps the recovery, or it goes where the recovery leads. -/
theorem handleStateError_ends (hs : s.recovery.state.runsJob = true → Backed s) :
    Ends { (handleStateError env s e).1 with state := (handleStateError env s e).2 } := by
  unfold handleStateError
  split
  · refine .of_error rfl fun hrun => ?_
    have hcarries := s.errorOccurred_carries env
    rw [show Ctx.recovery _ = (s.errorOccurred env).recovery from rfl,
      s.errorOccurred_recovery] at hrun
    exact hcarries.backed (hs hrun)
  · simp only [Ctx.recoveryRequested]
    split
    · refine ⟨(fun hx => by cases hx), fun hrelevant => ?_⟩
      have hrun : s.recovery.state.runsJob = true := by
        obtain ⟨hstate, -⟩ | hstate | hstate | hr := hrelevant
        · rw [show s.recovery.state = _ from hstate]
          rfl
        · rw [show s.recovery.state = _ from hstate]
          rfl
        · rw [show s.recovery.state = _ from hstate]
          rfl
        · cases hr
      exact hs hrun
    · exact .of_error rfl hs
  · exact .of_error rfl hs

/-! ### One step -/

/-- The runs of the machine in which no job begins with the flag of the job before. `JOB_EXECUTION`
clears the flag if no job is active. -/
def SoundRun (cfg : Config) (env : Env) (s : Ctx) (e : Event) : Prop :=
  match s.state, e with
  | .fetchingJobDoc, .emptyTransition =>
    s.jobIdQueue = [] → s.currentJob.hasPendingJob = true → s.currentJob.hasActiveJob = true →
      s.currentJob.finalStatusReported = false
  | .jobDocReceived, .jobDocAccepted (some doc) =>
    startsCustomJob cfg env s.currentJob doc = true → s.currentJob.finalStatusReported = false
  | _, _ => True

/-- The rejection gives up the terminal update of the current job that the flag stands for. -/
def GivesUp (s : Ctx) (request : UpdateRequest) (code : List Char) : Prop :=
  rejectIsUnrecoverable code = true ∧ s.currentJob.finalStatusReported = true ∧
    s.history.terminalAccepted = false ∧
    ∃ e, s.status.findByInt request.jobIdInt = some e ∧ e.jobId = s.currentJob.jobId ∧
      e.hasCachedTerminal = true

/-- The steps that keep the flag and the job together. -/
def Sound (cfg : Config) (s : Ctx) : Action → Prop
  | .run env => ∀ e rest, s.queue = e :: rest → SoundRun cfg env s e
  | .response request accepted code _ _ _ =>
    ¬Misread s request ∧ (accepted = false → ¬GivesUp s request code)
  | _ => True

/-- The document handler ends away from the jobs, or it starts a custom job. -/
theorem handleStateJobDocReceived_ends {cfg : Config} (hr : s.recovery.state.runsJob = false)
    (hsound : ∀ doc, e = .jobDocAccepted (some doc) →
      startsCustomJob cfg env s.currentJob doc = true → s.currentJob.finalStatusReported = false) :
    Ends { (handleStateJobDocReceived cfg env s e).1 with
      state := (handleStateJobDocReceived cfg env s e).2 } := by
  unfold handleStateJobDocReceived
  split
  · exact (Ctx.jobDocEnd_away env (s := s.retryResetBackoff) hr .none).ends
  · rename_i doc
    cases hstart : startsCustomJob cfg env s.currentJob doc with
    | false =>
      exact (Ctx.examineJobDoc_away cfg env _ doc (s := s.retryResetBackoff) hr hstart).ends
    | true =>
      obtain ⟨filetype, handler, heq⟩ :=
        Ctx.examineJobDoc_custom cfg env (.jobDocAccepted (some doc)) doc (s := s.retryResetBackoff)
          hstart
      rw [heq]
      -- A custom job that begins without the flag has nothing to back.
      have hclear := hsound doc rfl hstart
      apply Lands.ends
      apply Ctx.moveTo_lands
      · intro hflag
        exact absurd (hclear.symm.trans hflag) (by decide)
      · exact hr
  · exact Away.ends (r := (s, .jobDocReceived)) ⟨rfl, hr⟩

/-- A job begins without the flag, or it is not active yet. -/
theorem handleStateFetchingJobDoc_ends (hr : s.recovery.state.runsJob = false)
    (hsound : e = .emptyTransition → s.jobIdQueue = [] → s.currentJob.hasPendingJob = true →
      s.currentJob.hasActiveJob = true → s.currentJob.finalStatusReported = false) :
    Ends { (handleStateFetchingJobDoc env s e).1 with
      state := (handleStateFetchingJobDoc env s e).2 } := by
  by_cases hbegin : e = .emptyTransition ∧ s.jobIdQueue = [] ∧ s.currentJob.hasPendingJob = true
  · obtain ⟨rfl, hnil, hpending⟩ := hbegin
    have heq : handleStateFetchingJobDoc env s .emptyTransition =
        s.beginJob.moveTo env .emptyTransition .jobExecution := by
      simp only [handleStateFetchingJobDoc, hnil, hpending, ne_eq, not_true_eq_false, if_false,
        if_true]
    rw [heq, Ctx.moveTo]
    split
    · -- An active job has the flag clear, and any other job is not looked at yet.
      refine ⟨fun hrun => absurd (hr.symm.trans hrun) (by decide), fun hrelevant hflag => ?_⟩
      obtain ⟨-, hactive⟩ | hstate | hstate | hrun := hrelevant
      · exact absurd ((hsound rfl hnil hpending hactive).symm.trans hflag) (by decide)
      · cases hstate
      · cases hstate
      · exact absurd (hr.symm.trans hrun) (by decide)
    · exact (Ctx.enterErrorState_away (s := s.beginJob) env .retryWithBackoff rfl).ends
  · exact (handleStateFetchingJobDoc_away env e hr hbegin).ends

/-- A sound run keeps the invariant. -/
theorem runOnce_ends {cfg : Config} (hs : Ends s) (hsound : SoundRun cfg env s e) :
    Ends (runOnce cfg env s e) := by
  simp only [runOnce]
  split
  · refine handleStateError_ends env e fun hrun => ?_
    exact hs.backed (.inr (.inr (.inr hrun)))
  · have haway : s.state ≠ .error → s.recovery.state.runsJob = false := by
      intro hne
      rw [← Bool.not_eq_true]
      exact fun hrun => hne (hs.recovery hrun)
    have hbacked := hs.backed
    by_cases hleads : s.state ≠ .error ∧ ∀ next ∈ Events.successors s.state, next.runsJob = false
    · exact (handleState_away env e hleads.1 hleads.2 (haway hleads.1)).ends
    simp only [handleState]
    cases hstate : s.state with
    | uninitialized | networkInit | rebootCheck | idle | jobsChanged | fetchingPendingJobs
    | waitingForPendingJobs | pendingJobsReceived | waitingForJobDoc =>
      rw [hstate] at hleads
      exact absurd (by decide) hleads
    | fetchingJobDoc =>
      refine handleStateFetchingJobDoc_ends env e (haway (by rw [hstate]; decide)) ?_
      intro he
      simp only [SoundRun, hstate, he] at hsound
      exact hsound
    | jobDocReceived =>
      refine handleStateJobDocReceived_ends env e (haway (by rw [hstate]; decide)) ?_
      intro doc he
      simp only [SoundRun, hstate, he] at hsound
      exact hsound
    | jobExecution =>
      refine (handleStateJobExecution_lands env e ?_ (haway (by rw [hstate]; decide))).ends
      exact fun hactive => hbacked (.inl ⟨hstate, hactive⟩)
    | customJobExecution =>
      exact (handleStateCustomJobExecution_lands env e (hbacked (.inr (.inl hstate)))
        (haway (by rw [hstate]; decide))).ends
    | postDownload =>
      exact (handleStatePostDownload_lands env e (hbacked (.inr (.inr (.inl hstate))))
        (haway (by rw [hstate]; decide))).ends
    | error => exact handleStateError_ends env e fun hrun => hbacked (.inr (.inr (.inr hrun)))

end

variable {s : Ctx} {request : UpdateRequest} {env : Env} {cfg : Config} {e : Event}

/-- A task that leaves the state and the recovery alone and carries the job. -/
theorem Carries.ends {timers : Bool} {t : Ctx} (h : Carries timers s t)
    (hstate : t.state = s.state)
    (hrecovery : t.recovery.state.runsJob = true → s.recovery.state.runsJob = true) (hs : Ends s) :
    Ends t where
  recovery := fun hrun => hstate.trans (hs.recovery (hrecovery hrun))
  backed := by
    intro hrelevant
    refine h.backed (hs.backed ?_)
    rw [Relevant, hstate] at hrelevant
    obtain ⟨hjob, hactive⟩ | hjob | hjob | hrun := hrelevant
    · exact .inl ⟨hjob, h.active hactive⟩
    · exact .inr (.inl hjob)
    · exact .inr (.inr (.inl hjob))
    · exact .inr (.inr (.inr (hrecovery hrun)))

/-- What a response leaves of the terminal updates of the current job: they stay, or a terminal
status was accepted. -/
theorem Ctx.answered_backed (hwf : s.status.WF) (hs : Backed s) {code versionNumber : List Char}
    {accepted : Bool} {env : StatusEnv} (hread : ¬Misread s request)
    (hkept : accepted = false → ¬GivesUp s request code) :
    Backed (s.answered request (answerPayload request code versionNumber) accepted env) := by
  intro hflag
  cases haccepted : s.history.terminalAccepted with
  | true =>
    refine .inl ?_
    rw [answered, haccepted]
    rfl
  | false =>
    have hholds : s.HoldsTerminal := by
      cases hs hflag with
      | inl h => exact absurd (haccepted.symm.trans h) (by decide)
      | inr h => exact h
    have hresent := s.status.onUpdateResponse_grows (answerPayload request code versionNumber)
      accepted env
    -- An entry that the critical section keeps is there in the end.
    have hkeep : ∀ e ∈ (s.status.onResponseLocked (answerPayload request code versionNumber)
        accepted env).cache.entries, e.jobId = s.currentJob.jobId → e.hasCachedTerminal = true →
        (s.answered request (answerPayload request code versionNumber) accepted
          env).HoldsTerminal := by
      intro e he hid hcached
      obtain ⟨e', he', hcont⟩ := hresent.fwd e he
      exact ⟨e', he', hcont.jobId.trans hid, hcont.cached hcached⟩
    obtain ⟨e₀, he₀, hid, hcached⟩ := hholds
    cases s.status.onResponseLocked_answered (answerPayload request code versionNumber) accepted
        env with
    | grows hgrows =>
      obtain ⟨e, he, hcont⟩ := hgrows.fwd e₀ he₀
      exact .inr (hkeep e he (hcont.jobId.trans hid) (hcont.cached hcached))
    | removed e he terminal htoken hfind hwhy hc =>
      by_cases hptr : e₀.ptr = e.ptr
      · obtain rfl : e₀ = e := eq_of_key_eq hwf.ptrs he₀ he hptr
        have htoken' : readToken request.clientToken = some (terminal, e₀.jobIdInt) := htoken
        rw [Status.readToken_clientToken] at htoken'
        obtain ⟨hterminal, hint⟩ := Prod.mk.inj (Option.some.inj htoken')
        rw [← hint] at hfind
        cases hwhy with
        | inl hwhy =>
          -- The acceptance of the terminal update is the one of the current job.
          have hcurrent : request.update.jobId = s.currentJob.jobId := by
            by_contra hne
            exact hread ⟨e₀, hfind, by rw [hid], hne⟩
          refine .inl ?_
          rw [answered, hwhy.1, hterminal, hwhy.2, hcurrent]
          simp
        | inr hwhy =>
          exact absurd ⟨hwhy.2, hflag, haccepted, e₀, hfind, hid, hcached⟩ (hkept hwhy.1)
      · refine .inr (hkeep e₀ ?_ hid hcached)
        rw [hc]
        exact Cache.mem_removeEntries.mpr ⟨he₀, hptr⟩

/-- An answer that sets the flag is the acceptance of a terminal status. -/
theorem Ctx.onUpdateResponse_backed (hwf : s.status.WF) (hs : Backed s)
    {code versionNumber : List Char} {accepted : Bool} {env : StatusEnv} {posted : Bool}
    (hread : ¬Misread s request) (hkept : accepted = false → ¬GivesUp s request code) :
    Backed (s.onUpdateResponse request (answerPayload request code versionNumber) accepted env
      posted) := by
  have hanswered : Backed (s.answered request (answerPayload request code versionNumber) accepted
      env) := answered_backed hwf hs hread hkept
  rw [onUpdateResponse_eq]
  cases hret : (s.status.onUpdateResponse (answerPayload request code versionNumber) accepted
      env).1.ret with
  | none => exact hanswered
  | some ret =>
    dsimp only
    by_cases hstarts : ret.jobId.chars <+: s.currentJob.jobId.chars
    · rw [attributeResponse_current (s.answered request _ accepted env) hstarts]
      rw [Cache.onUpdateResponse_ret] at hret
      obtain ⟨terminal, jobIdInt, e, htoken, hfind, hid, hterminal⟩ :=
        Cache.onResponseLocked_ret hret
      have htoken' : readToken request.clientToken = some (terminal, jobIdInt) := htoken
      rw [Status.readToken_clientToken] at htoken'
      obtain ⟨rfl, rfl⟩ := Prod.mk.inj (Option.some.inj htoken')
      have hcurrent : request.update.jobId = s.currentJob.jobId := by
        by_contra hne
        exact hread ⟨e, hfind, hid ▸ hstarts, hne⟩
      refine (Carries.of_core (postEvent_core _ _ posted)).backed ?_
      intro hflag
      rw [show JobInfo.finalStatusReported _ = (s.currentJob.finalStatusReported
        || (accepted && ret.isTerminal)) from rfl, Bool.or_eq_true, Bool.and_eq_true] at hflag
      cases hflag with
      | inl hflag => exact hanswered hflag
      | inr hset =>
        refine .inl ?_
        show (s.history.terminalAccepted || (accepted && request.isTerminal
          && request.update.jobId == s.currentJob.jobId)) = true
        rw [hset.1, ← hterminal, hset.2, hcurrent]
        simp
    · rw [attributeResponse_other (s.answered request _ accepted env) hstarts]
      exact hanswered

/-- The answer to an update leaves the job active. -/
@[simp] theorem Ctx.attributeResponse_active (s : Ctx) (ret : Status.ResponseReturn)
    (accepted posted : Bool) : (s.attributeResponse ret accepted posted).currentJob.hasActiveJob =
      s.currentJob.hasActiveJob := by
  simp only [attributeResponse, postEvent]
  split_ifs <;> rfl

/-- A response leaves the state, the recovery and the activity of the job alone. -/
theorem Ctx.onUpdateResponse_relevant {payload : ResponsePayload} {accepted : Bool}
    {env : StatusEnv} {posted : Bool} :
    (s.onUpdateResponse request payload accepted env posted).state = s.state ∧
    (s.onUpdateResponse request payload accepted env posted).recovery = s.recovery ∧
    (s.onUpdateResponse request payload accepted env posted).currentJob.hasActiveJob =
      s.currentJob.hasActiveJob := by
  refine ⟨onUpdateResponse_state s request payload accepted env posted,
    onUpdateResponse_recovery s request payload accepted env posted, ?_⟩
  rw [onUpdateResponse_eq]
  split
  · rfl
  · exact attributeResponse_active _ _ _ _

/-- The invariant after one sound step. -/
theorem step_ends {t : Ctx} {a : Action} (hwf : s.status.WF) (hs : Ends s)
    (hsound : Sound cfg s a) (ht : step cfg s a = some t) : Ends t := by
  cases a with
  | run env =>
    rw [step] at ht
    cases hqueue : s.queue with
    | nil =>
      rw [hqueue] at ht
      cases ht
    | cons e rest =>
      rw [hqueue] at ht
      obtain rfl := Option.some.inj ht
      have htaken : Ends { s with queue := rest } := ⟨hs.recovery, hs.backed⟩
      exact runOnce_ends env e htaken (hsound e rest hqueue)
  | post e posted =>
    rw [step] at ht
    split at ht
    · obtain rfl := Option.some.inj ht
      exact (Carries.of_core (s.postEvent_core e posted)).ends (by simp) (by simp) hs
    · cases ht
  | response request accepted code versionNumber env posted =>
    rw [step] at ht
    split at ht
    · obtain rfl := Option.some.inj ht
      obtain ⟨hstate, hrecovery, hactive⟩ := @Ctx.onUpdateResponse_relevant s
        request (answerPayload request code versionNumber) accepted env posted
      refine ⟨fun hrun => ?_, fun hrelevant => ?_⟩
      · rw [hrecovery] at hrun
        exact hstate.trans (hs.recovery hrun)
      · rw [Relevant, hstate, hrecovery, hactive] at hrelevant
        exact Ctx.onUpdateResponse_backed hwf (hs.backed hrelevant) hsound.1 hsound.2
    · cases ht
  | retryTimer ptr env =>
    rw [step] at ht
    split at ht
    · cases ht
    · obtain rfl := Option.some.inj ht
      rename_i e _
      obtain ⟨timers, hgrows⟩ := s.status.retryTask_keeps e env
      have hcarries : Carries timers s { s with
          status := (s.status.retryTask e env).1
          requests := s.requests ++ (s.status.retryTask e env).2.toList } :=
        ⟨rfl, rfl, id, id, hgrows⟩
      exact hcarries.ends rfl id hs
  | backoffTimer posted scheduled =>
    rw [step] at ht
    split at ht
    · obtain rfl := Option.some.inj ht
      have hfired : Carries true s { s with errorRetryArmed := false } := .of_eq rfl rfl rfl
      have hrecovered := hfired.trans (.of_core (Ctx.recover_core _ posted))
      rw [Ctx.retryWithBackoffTask]
      dsimp only
      split
      · exact hrecovered.ends (by simp) (by simp) hs
      · have hagain := hrecovered.trans
          (Carries.of_eq (t := Ctx.backoffRetry _ scheduled) rfl rfl rfl)
        exact hagain.ends (by simp [Ctx.backoffRetry]) (by simp [Ctx.backoffRetry]) hs
    · cases ht
  | requestRecovery posted =>
    obtain rfl := Option.some.inj ht
    exact (Carries.of_core (s.recover_core posted)).ends (by simp) (by simp) hs
  | subscribed snapshotAllocated copied envs env =>
    obtain rfl := Option.some.inj ht
    have hresent : Carries true s { s with
        status := (s.status.resendPendingTerminals snapshotAllocated copied envs).1
        requests :=
          s.requests ++ (s.status.resendPendingTerminals snapshotAllocated copied envs).2 } :=
      ⟨rfl, rfl, id, id, s.status.resendPendingTerminals_grows _ _ _⟩
    simp only [Ctx.onSubscribed]
    split
    · exact Carries.ends (hresent.trans (.of_core rfl)) rfl id hs
    · refine Carries.ends (hresent.trans (.of_core (Ctx.enterErrorState_core _ env _)))
        (by simp) ?_ hs
      intro hrun
      rw [Ctx.enterErrorState_recovery] at hrun
      cases hrun
  | reportStatus report details encoded env =>
    obtain rfl := Option.some.inj ht
    exact (s.otaJobsPublish_carries report.status details encoded env).ends rfl id hs

/-! ### The step to `IDLE` -/

/-- Where a handler ends a job, the status manager caches nothing and the flag is set, after a
queued final status at most. -/
def Closes (s : Ctx) : Prop :=
  ∃ u : Ctx, Carries true s u ∧ u.history.terminalAccepted = s.history.terminalAccepted ∧
    u.status.isEmpty = true ∧ u.currentJob.finalStatusReported = true

/-- With the flag backed, a terminal status was accepted. -/
theorem Closes.accepted (h : Closes s) (hwf : s.status.WF) (hs : Backed s) :
    s.history.terminalAccepted = true := by
  obtain ⟨u, hcarries, haccepted, hempty, hflag⟩ := h
  cases hcarries.backed hs hflag with
  | inl h => exact haccepted.symm.trans h
  | inr h =>
    obtain ⟨e, he, -, hcached⟩ := h
    have hnone := (hcarries.grows.wf hwf).not_cached_of_isEmpty hempty he
    exact absurd (hnone.symm.trans hcached) (by decide)

/-- Only the branch behind the send can end in `IDLE`. -/
theorem Ctx.afterSend_idle {err : EspError} {recovery : JobState} {next : Ctx × JobState}
    (h : (s.afterSend env err recovery e next).2 = .idle) : next.2 = .idle := by
  rw [afterSend] at h
  split at h
  · cases h
  · split at h
    · cases h
    · exact h

/-- A transition ends in its state, or in `ERROR`. -/
theorem Ctx.moveTo_next {next state : JobState} (h : (s.moveTo env e next).2 = state)
    (hne : state ≠ .error) : next = state := by
  rw [moveTo] at h
  split at h
  · exact h
  · exact absurd h.symm hne

/-- A custom job ends where the flag is set and nothing is cached. -/
theorem handleStateCustomJobExecution_idle (h : (handleStateCustomJobExecution env s e).2 = .idle) :
    Closes s := by
  unfold handleStateCustomJobExecution at h
  split at h
  · split at h
    · cases h
    · cases Ctx.moveTo_next h (by decide)
  · cases Ctx.afterSend_idle h
  · split at h
    · cases h
    · rename_i hempty
      split at h
      · cases h
      · rename_i hflag
        exact ⟨s, .refl s, rfl, Bool.not_eq_false _ ▸ hempty, Bool.not_eq_false _ ▸ hflag⟩
  · cases h

/-- So does a download. -/
theorem Ctx.postDownloadEvent_idle (h : (s.postDownloadEvent env e).2 = .idle) : Closes s := by
  unfold postDownloadEvent at h
  split at h
  · cases afterSend_idle h
  · cases h
  · split at h
    · cases h
    · rename_i hempty
      rw [finishDownload] at h
      split at h
      · cases h
      · split at h
        · rename_i hflag
          exact ⟨s, .refl s, rfl, Bool.not_eq_false _ ▸ hempty, hflag⟩
        · cases h
  · cases h

/-- What was accepted before a final status stays so. -/
@[simp] theorem Ctx.publishFinalStatus_accepted (s : Ctx) (details : StatusDetails)
    (encoded : Bool) (senv : StatusEnv) :
    (s.publishFinalStatus details encoded senv).2.history.terminalAccepted =
      s.history.terminalAccepted := by
  rw [publishFinalStatus]
  split <;> rfl

/-- A queued status in front does not change that. -/
theorem handleStatePostDownload_idle (h : (handleStatePostDownload env s e).2 = .idle) :
    Closes s := by
  simp only [handleStatePostDownload] at h
  split at h
  · have hclosed := Ctx.postDownloadEvent_idle (Ctx.afterSend_idle h)
    obtain ⟨u, hcarries, haccepted, hclosed⟩ := hclosed
    have hsent := s.publishFinalStatus_carries s.currentJob.currentStatusDetails
      env.detailsEncoded env.sendQueued
    have hunqueued : Carries true s ((s.publishFinalStatus s.currentJob.currentStatusDetails
        env.detailsEncoded env.sendQueued).2.setJob fun job =>
          { job with finalStatusQueued := false }) :=
      hsent.trans ⟨rfl, rfl, id, id, .refl true _⟩
    refine ⟨u, hunqueued.trans hcarries, haccepted.trans ?_, hclosed⟩
    exact s.publishFinalStatus_accepted s.currentJob.currentStatusDetails env.detailsEncoded
      env.sendQueued
  · exact Ctx.postDownloadEvent_idle h

/-- A run that ends a job closes it. -/
theorem runOnce_idle (hstate : s.state = .customJobExecution ∨ s.state = .postDownload)
    (h : (runOnce cfg env s e).state = .idle) : Closes s := by
  simp only [runOnce] at h
  split at h
  · rename_i he
    subst he
    cases h
  · rw [handleState] at h
    cases hstate with
    | inl hcustom =>
      rw [hcustom] at h
      exact handleStateCustomJobExecution_idle h
    | inr hpost =>
      rw [hpost] at h
      exact handleStatePostDownload_idle h

/-! ### All runs -/

/-- At first no job is executed. -/
theorem Ends.initial : Ends {} where
  recovery := nofun
  backed := fun _ => nofun

/-- In each run of sound steps, the machine leaves `CUSTOM_JOB_EXECUTION` or `POST_DOWNLOAD` for
`IDLE` only after the service accepted a terminal status of the job. -/
theorem accepted_before_idle {t : Ctx} (hs : Reach Initial (step cfg) (Sound cfg) s)
    (hstate : s.state = .customJobExecution ∨ s.state = .postDownload)
    (ht : step cfg s (.run env) = some t) (hidle : t.state = .idle) :
    s.history.terminalAccepted = true := by
  have hends : s.status.WF ∧ Ends s := by
    refine hs.inv (fun s => s.status.WF ∧ Ends s) ?_ ?_
    · intro s h
      subst h
      exact ⟨Cache.wf_initial, .initial⟩
    · intro s a t h hsound ht
      exact ⟨(step_serves ht).follows.wf h.1, step_ends h.1 h.2 hsound ht⟩
  have hrelevant : Relevant s := by
    cases hstate with
    | inl hcustom => exact .inr (.inl hcustom)
    | inr hpost => exact .inr (.inr (.inl hpost))
  rw [step] at ht
  split at ht
  · cases ht
  · obtain rfl := Option.some.inj ht
    rename_i e rest _
    have hcloses : Closes { s with queue := rest } := runOnce_idle hstate hidle
    exact hcloses.accepted hends.1 (hends.2.backed hrelevant)

/-! ### The conditions on concrete runs -/

instance (s : Ctx) (request : UpdateRequest) : Decidable (Misread s request) :=
  haveI : Decidable (∃ e ∈ s.status.findByInt request.jobIdInt,
      e.jobId.chars <+: s.currentJob.jobId.chars ∧ request.update.jobId ≠ s.currentJob.jobId) :=
    Option.decidableExistsMem _
  inferInstanceAs (Decidable (∃ e ∈ s.status.findByInt request.jobIdInt,
    e.jobId.chars <+: s.currentJob.jobId.chars ∧ request.update.jobId ≠ s.currentJob.jobId))

instance (s : Ctx) (request : UpdateRequest) (code : List Char) :
    Decidable (GivesUp s request code) :=
  haveI : Decidable (∃ e ∈ s.status.findByInt request.jobIdInt,
      e.jobId = s.currentJob.jobId ∧ e.hasCachedTerminal = true) := Option.decidableExistsMem _
  inferInstanceAs (Decidable (rejectIsUnrecoverable code = true ∧
    s.currentJob.finalStatusReported = true ∧ s.history.terminalAccepted = false ∧
    ∃ e ∈ s.status.findByInt request.jobIdInt,
      e.jobId = s.currentJob.jobId ∧ e.hasCachedTerminal = true))

instance (cfg : Config) (env : Env) (s : Ctx) (e : Event) : Decidable (SoundRun cfg env s e) := by
  unfold SoundRun
  split <;> infer_instance

instance (cfg : Config) (s : Ctx) : ∀ a, Decidable (Sound cfg s a)
  | .run env => match hqueue : s.queue with
    | [] => .isTrue (by simp [Sound, hqueue])
    | e :: _ => decidable_of_iff (SoundRun cfg env s e) (by simp [Sound, hqueue])
  | .response request accepted code _ _ _ =>
    inferInstanceAs (Decidable (¬Misread s request ∧ (accepted = false → ¬GivesUp s request code)))
  | .post _ _ | .retryTimer _ _ | .backoffTimer _ _ | .requestRecovery _ | .subscribed _ _ _ _
  | .reportStatus _ _ _ _ => .isTrue trivial

/-! ### Two custom jobs -/

/-- The update of a custom job `jobId` with the status `status`, in its first message. -/
def customUpdate (jobId : CStr) (status : JobStatus) (jobIdInt : UInt32) : UpdateRequest where
  update := { jobId := jobId, status := status, details := [] }
  expectedVersion := 1
  isTerminal := isTerminal status
  jobIdInt := jobIdInt

/-- The custom job `a` is fetched, executed and reported as succeeded, the service accepts that,
and the acceptance is in the queue. -/
def firstCustomJob : List Action :=
  [.run {}, .run {}, .post .fetchRequested true, .run {}, .run {},
    .post (.pendingJobsAccepted (some { queued := [jobA] })) true, .run {}, .run {}, .run {},
    .post (.jobDocAccepted (some { jobId := jobA })) true, .run {}, .run {}, .run {},
    .post (.customJobReport .succeeded []) true, .run {},
    .response (customUpdate jobA .succeeded 1) true [] [] {} true]

/-- Then the custom job `ab` is executed, it reports progress, and the service accepts that. -/
def secondCustomJob : List Action :=
  firstCustomJob ++
  [.run {}, .run {}, .run {},
    .post (.pendingJobsAccepted (some { queued := [jobAb] })) true, .run {}, .run {}, .run {},
    .post (.jobDocAccepted (some { jobId := jobAb })) true, .run {}, .run {}, .run {},
    .post (.customJobReport .progress []) true, .run {},
    .response (customUpdate jobAb .inProgress 2) true [] [] {} true]

/-- The first job ends after the acceptance of its terminal status. -/
theorem firstCustomJob_accepted : ∃ s t : Ctx, Reach Initial (step {}) (Sound {}) s ∧
    s.state = .customJobExecution ∧ step {} s (.run {}) = some t ∧ t.state = .idle ∧
      s.history.terminalAccepted = true := by
  have hrun : Reach Initial (step {}) (Sound {}) _ :=
    Reach.exec firstCustomJob (.start rfl) (by decide +kernel) rfl
  have hstate : JobState.customJobExecution = .customJobExecution := rfl
  refine ⟨_, _, hrun, by decide +kernel, rfl, by decide +kernel, ?_⟩
  exact @accepted_before_idle _ {} {} _ hrun (.inl hstate) rfl (by decide +kernel)

/-- The second job ends on the acceptance of its progress: the flag of the first job is set. -/
theorem custom_job_ends_early : ∃ s t : Ctx, Reach Initial (step {}) (fun _ _ => True) s ∧
    s.state = .customJobExecution ∧ step {} s (.run {}) = some t ∧ t.state = .idle ∧
      s.history.terminalAccepted = false := by
  have hrun : Reach Initial (step {}) (fun _ _ => True) _ :=
    Reach.exec secondCustomJob (.start rfl) (by decide +kernel) rfl
  exact ⟨_, _, hrun, by decide +kernel, rfl, by decide +kernel, by decide +kernel⟩

end RainMakerNeo.Ota.Jobs
