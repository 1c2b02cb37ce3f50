import RainMakerNeo.Ota.JobsSteps

/-!
# `RainMakerNeo.Ota.Attribution`: which job an update response is for

A response names an entry of the status manager by the number in its client token.
`mqtt_on_update_accepted` and `mqtt_on_update_rejected` compare the job id of that entry with the
current one, but only up to the length of the entry's id. So an id that the current one starts
with counts as the current one. `responses_attributed` says that this is all that goes wrong:
an answer marks the current job wrongly if and only if it is `Misread`. While the numbers of the
entries have not wrapped, an answer is misread if and only if its entry is still there and its job
id is a proper prefix of the current one.

`prefix_misattributed` is a run with the job ids `a` and `ab`: the answer to the rejection of the
document of `a` sets `final_status_reported` for the job `ab`.

The write of `final_status_reported` in `POST_DOWNLOAD`, after the send of a final status, belongs
to no response and is not meant here.
-/

set_option autoImplicit false

namespace RainMakerNeo.Ota.Jobs

open RainMakerNeo.Lib
open RainMakerNeo.Ota.Status (Cache JobEntries StatusEnv UpdateRequest ResponsePayload
  ResponseReturn)

/-- An event that an update response posts. -/
def Event.isUpdate : Event → Bool
  | .updateAccepted | .updateRejected _ => true
  | _ => false

/-- An update event is posted, or `final_status_reported` is set. -/
def Marks (s t : Ctx) : Prop :=
  s.queue.countP Event.isUpdate < t.queue.countP Event.isUpdate ∨
    (s.currentJob.finalStatusReported = false ∧ t.currentJob.finalStatusReported = true)

/-- Whatever the service answers to a request, the answer marks the current job only if the
request is for that job. -/
def Attributed (cfg : Config) (s : Ctx) (request : UpdateRequest) : Prop :=
  ∀ (accepted : Bool) (code versionNumber : List Char) (env : StatusEnv) (posted : Bool) (t : Ctx),
    step cfg s (.response request accepted code versionNumber env posted) = some t → Marks s t →
      request.update.jobId = s.currentJob.jobId

/-- The number of the request finds an entry whose job id the current one starts with, and the
request is not for the current job. -/
def Misread (s : Ctx) (request : UpdateRequest) : Prop :=
  ∃ e, s.status.findByInt request.jobIdInt = some e ∧
    e.jobId.chars <+: s.currentJob.jobId.chars ∧ request.update.jobId ≠ s.currentJob.jobId

/-! ### One response -/

/-- The state after the status manager took an answer, before it is attributed. -/
def Ctx.answered (s : Ctx) (request : UpdateRequest) (payload : ResponsePayload) (accepted : Bool)
    (env : StatusEnv) : Ctx :=
  { s with
    status := (s.status.onUpdateResponse payload accepted env).1.cache
    requests := s.requests ++ (s.status.onUpdateResponse payload accepted env).2.toList
    history :=
      { s.history with
        terminalAccepted := s.history.terminalAccepted
          || (accepted && request.isTerminal && request.update.jobId == s.currentJob.jobId) } }

theorem Ctx.onUpdateResponse_eq (s : Ctx) (request : UpdateRequest) (payload : ResponsePayload)
    (accepted : Bool) (env : StatusEnv) (posted : Bool) :
    s.onUpdateResponse request payload accepted env posted =
      match (s.status.onUpdateResponse payload accepted env).1.ret with
      | none => s.answered request payload accepted env
      | some ret => (s.answered request payload accepted env).attributeResponse ret accepted
          posted := rfl

/-- The event that an attributed answer posts. -/
def ResponseReturn.event (ret : ResponseReturn) (accepted : Bool) : Event :=
  if accepted then .updateAccepted else .updateRejected ret.isUnrecoverableReject

/-- An answer for another job changes nothing. -/
theorem Ctx.attributeResponse_other (s : Ctx) {ret : ResponseReturn}
    (h : ¬ret.jobId.chars <+: s.currentJob.jobId.chars) (accepted posted : Bool) :
    s.attributeResponse ret accepted posted = s := by
  rw [← strncmpEq_length_iff, Bool.not_eq_true] at h
  rw [attributeResponse, if_pos h]

/-- An answer for the current job posts its event, and a terminal acceptance sets the flag. -/
theorem Ctx.attributeResponse_current (s : Ctx) {ret : ResponseReturn}
    (h : ret.jobId.chars <+: s.currentJob.jobId.chars) (accepted posted : Bool) :
    s.attributeResponse ret accepted posted =
      (s.setJob fun job => { job with
        finalStatusReported := job.finalStatusReported || (accepted && ret.isTerminal) }).postEvent
          (ResponseReturn.event ret accepted) posted := by
  have hcmp : ¬strncmpEq ret.jobId.length ret.jobId.chars s.currentJob.jobId.chars = false := by
    rw [(strncmpEq_length_iff ret.jobId s.currentJob.jobId).mpr h]
    decide
  have hkept : (s.setJob fun job => { job with
      finalStatusReported := job.finalStatusReported || false }) = s := by
    simp [setJob]
  simp only [attributeResponse, if_neg hcmp, ResponseReturn.event]
  cases accepted with
  | true =>
    cases ret.isTerminal with
    | true => simp
    | false => simp only [if_true, Bool.and_false, hkept, Bool.false_eq_true, if_false]
  | false => simp only [Bool.false_and, hkept, Bool.false_eq_true, if_false]

variable {s : Ctx} {request : UpdateRequest}

/-- Without a change of the queue and of the current job, nothing is marked. -/
theorem not_marks_of_eq {t : Ctx} (hqueue : t.queue = s.queue)
    (hjob : t.currentJob = s.currentJob) : ¬Marks s t := by
  intro h
  cases h with
  | inl hposted =>
    rw [hqueue] at hposted
    exact lt_irrefl _ hposted
  | inr hset =>
    rw [hjob, hset.1] at hset
    exact absurd hset.2 (by decide)

/-- A response that marks the current job found an entry whose id the current one starts with. -/
theorem prefix_of_marks {accepted : Bool} {code versionNumber : List Char} {env : StatusEnv}
    {posted : Bool}
    (h : Marks s (s.onUpdateResponse request (answerPayload request code versionNumber) accepted
      env posted)) :
    ∃ e, s.status.findByInt request.jobIdInt = some e ∧
      e.jobId.chars <+: s.currentJob.jobId.chars := by
  rw [Ctx.onUpdateResponse_eq] at h
  cases hret : (s.status.onUpdateResponse (answerPayload request code versionNumber) accepted
      env).1.ret with
  | none =>
    rw [hret] at h
    exact absurd h (not_marks_of_eq rfl rfl)
  | some ret =>
    rw [hret] at h
    rw [Cache.onUpdateResponse_ret] at hret
    obtain ⟨terminal, jobIdInt, e, htoken, hfind, hid, -⟩ := Cache.onResponseLocked_ret hret
    rw [show (answerPayload request code versionNumber).clientToken = request.clientToken from rfl,
      Status.readToken_clientToken] at htoken
    obtain ⟨-, rfl⟩ := Prod.mk.inj (Option.some.inj htoken)
    refine ⟨e, hfind, hid ▸ ?_⟩
    by_contra hother
    dsimp only at h
    rw [Ctx.attributeResponse_other (s.answered request _ accepted env) hother] at h
    exact not_marks_of_eq rfl rfl h

/-- An acceptance that finds such an entry marks the current job. -/
theorem marks_of_starts {e : JobEntries} (hfind : s.status.findByInt request.jobIdInt = some e)
    (hstarts : e.jobId.chars <+: s.currentJob.jobId.chars) :
    Marks s (s.onUpdateResponse request (answerPayload request [] []) true {} true) := by
  have hret : (s.status.onUpdateResponse (answerPayload request [] []) true {}).1.ret =
      some { jobId := e.jobId, isTerminal := request.isTerminal } :=
    (Cache.onUpdateResponse_ret _ _ _ _).trans (Cache.onResponseLocked_accepted hfind)
  rw [Ctx.onUpdateResponse_eq, hret]
  dsimp only
  rw [Ctx.attributeResponse_current _ hstarts]
  refine .inl ?_
  show s.queue.countP Event.isUpdate < (s.queue ++ [Event.updateAccepted]).countP Event.isUpdate
  rw [List.countP_append]
  exact Nat.lt_succ_self _

/-- The answers to a request are attributed right if and only if the request is not misread. -/
theorem attributed_iff {cfg : Config} (hr : request ∈ s.requests) :
    Attributed cfg s request ↔ ¬Misread s request := by
  constructor
  · intro hattributed ⟨e, hfind, hstarts, hne⟩
    exact hne (hattributed true [] [] {} true _ (if_pos hr) (marks_of_starts hfind hstarts))
  · intro hread accepted code versionNumber env posted t ht hmarks
    rw [step, if_pos hr] at ht
    obtain rfl := Option.some.inj ht
    obtain ⟨e, hfind, hstarts⟩ := prefix_of_marks hmarks
    by_contra hne
    exact hread ⟨e, hfind, hstarts, hne⟩

/-! ### All runs -/

/-- In every reachable state, each answer to a request is attributed right unless the request is
misread. While fewer than `2 ^ 32` entries were made, the misread requests are those whose entry
is still there and whose job id is a proper prefix of the current one. -/
theorem responses_attributed {cfg : Config} (hs : Reach Initial (step cfg) (fun _ _ => True) s)
    (hr : request ∈ s.requests) :
    (Attributed cfg s request ↔ ¬Misread s request) ∧
      (s.status.nextPtr < 2 ^ 32 →
        (Misread s request ↔ s.status.findByInt request.jobIdInt ≠ none ∧
          request.update.jobId.chars <+: s.currentJob.jobId.chars ∧
          request.update.jobId ≠ s.currentJob.jobId)) := by
  refine ⟨attributed_iff hr, fun hwrap => ?_⟩
  have htraced := traced hs
  constructor
  · intro ⟨e, hfind, hstarts, hne⟩
    have hid := (htraced.issued request hr).jobId_eq htraced.wf hwrap hfind
    exact ⟨by rw [hfind]; exact Option.some_ne_none e, hid ▸ hstarts, hne⟩
  · intro ⟨hfound, hstarts, hne⟩
    obtain ⟨e, hfind⟩ := Option.ne_none_iff_exists'.mp hfound
    have hid := (htraced.issued request hr).jobId_eq htraced.wf hwrap hfind
    exact ⟨e, hfind, hid ▸ hstarts, hne⟩

/-! ### Two ids, one a prefix of the other -/

/-- The id `a`. -/
def jobA : CStr := .ofChars ['a']

/-- The id `ab`. -/
def jobAb : CStr := ⟨['a', 'b'], by decide⟩

/-- The pending jobs are `a` and `ab`. The document of `a` names no firmware version, so it
is rejected. The document of `ab` is selected, and its download begins. -/
def rejectThenExecute : List Action :=
  [.run {}, .run {}, .post .fetchRequested true, .run {}, .run {},
    .post (.pendingJobsAccepted (some { queued := [jobA, jobAb] })) true, .run {}, .run {}, .run {},
    .post (.jobDocAccepted (some { jobId := jobA, rmngOta := some {} })) true, .run {}, .run {},
    .run {},
    .post (.jobDocAccepted (some
      { jobId := jobAb
        rmngOta := some { fwVersion := ['2', '.', '0'] }
        afr := some { fileSize := 10, imageRef := ['s'] } })) true,
    .run {}, .run {}, .run {}, .run {}]

/-- The rejection of the document of `a`, as it was sent. -/
def rejectionOfA : UpdateRequest where
  update :=
    { jobId := jobA
      status := .rejected
      details := "\x7b\"reason\":\"Firmware version is required for filetype\"\x7d".toList }
  expectedVersion := 1
  isTerminal := true
  jobIdInt := 1

/-- The answer to that rejection is misread while `ab` is executed. -/
theorem rejectionOfA_attributed : ∃ s : Ctx,
    Reach Initial (step { customJobCb := false }) (fun _ _ => True) s ∧
      rejectionOfA ∈ s.requests ∧
      (Attributed { customJobCb := false } s rejectionOfA ↔ ¬Misread s rejectionOfA) ∧
      (s.status.nextPtr < 2 ^ 32 →
        (Misread s rejectionOfA ↔ s.status.findByInt rejectionOfA.jobIdInt ≠ none ∧
          rejectionOfA.update.jobId.chars <+: s.currentJob.jobId.chars ∧
          rejectionOfA.update.jobId ≠ s.currentJob.jobId)) := by
  have hrun : Reach Initial (step { customJobCb := false }) (fun _ _ => True) _ :=
    Reach.exec rejectThenExecute (.start rfl) (by decide +kernel) rfl
  refine ⟨_, hrun, ?_, ?_⟩
  · decide +kernel
  · exact responses_attributed hrun (by decide +kernel)

/-- The answer to the rejection of `a` sets `final_status_reported` for the job `ab`, and it posts
an event to the machine that executes `ab`. -/
theorem prefix_misattributed : ∃ s t : Ctx,
    Reach Initial (step { customJobCb := false }) (fun _ _ => True) s ∧
      rejectionOfA ∈ s.requests ∧ s.state = .jobExecution ∧ s.currentJob.jobId = jobAb ∧
      step { customJobCb := false } s (.response rejectionOfA true [] [] {} true) = some t ∧
      s.currentJob.finalStatusReported = false ∧ t.currentJob.finalStatusReported = true ∧
      t.queue = s.queue ++ [.updateAccepted] := by
  have hrun : Reach Initial (step { customJobCb := false }) (fun _ _ => True) _ :=
    Reach.exec rejectThenExecute (.start rfl) (by decide +kernel) rfl
  exact ⟨_, _, hrun, by decide +kernel, by decide +kernel, by decide +kernel, rfl,
    by decide +kernel, by decide +kernel, by decide +kernel⟩

end RainMakerNeo.Ota.Jobs
