import RainMakerNeo.Lib.LastBest
import RainMakerNeo.Ota.Selection

/-!
# `RainMakerNeo.Ota.JobChoice`: the best document of a fetch round is executed

The ids of a new list go to the queue of job ids, those in progress first, as long as the queue has
room. Each id is requested, and what comes back is examined. The machine keeps one job as the best
so far, and it executes it when no id is left.

`Rounds` is the machine with the history of its current round. `best_document_executed` says that
the executed job is the last of the best documents of the round. One kind of document is outside
this choice: a document without the fields of a firmware job is executed at once as a custom job.
`custom_before_best` is a run in which such a document comes after an eligible one.
-/

set_option autoImplicit false

namespace RainMakerNeo.Ota.Jobs

open RainMakerNeo.Lib
open RainMakerNeo.Ota.Status (jobIdMaxLength)

/-! ### The queue of job ids -/

/-- An id that has a place in the queue. -/
def fitsBuffer (jobId : CStr) : Bool := jobId.length != 0 && jobId.length ≤ jobIdMaxLength

/-- The copy loop appends the ids that fit, as far as the queue has room. -/
theorem copyJobIds_eq (queue jobIds : List CStr) (h : queue.length ≤ otaJobIdQueueSize) :
    copyJobIds queue jobIds = (queue ++ jobIds.filter fitsBuffer).take otaJobIdQueueSize := by
  induction jobIds generalizing queue with
  | nil => simp [copyJobIds, List.take_of_length_le h]
  | cons jobId rest ih =>
    rw [copyJobIds]
    split
    · rename_i hempty
      rw [ih queue h, List.filter_cons_of_neg (by simp [fitsBuffer, hempty])]
    · rename_i hne
      split
      · rename_i hfull
        -- A full queue takes nothing more.
        have hlength : queue.length = otaJobIdQueueSize := by omega
        rw [← hlength, List.take_left]
      · rename_i hroom
        split
        · rename_i hlong
          rw [ih queue h, List.filter_cons_of_neg (by simp [fitsBuffer]; omega)]
        · rename_i hshort
          have hfits : fitsBuffer jobId = true := by
            simp only [fitsBuffer, Bool.and_eq_true, bne_iff_ne, decide_eq_true_eq]
            omega
          have hlength : (queue ++ [jobId]).length ≤ otaJobIdQueueSize := by
            simp only [List.length_append, List.length_singleton]
            omega
          rw [ih _ hlength, List.filter_cons_of_pos hfits, List.append_assoc]
          rfl

/-- The ids of both arrays, those in progress first. -/
theorem copyJobIds_both (payload : PendingJobs) :
    copyJobIds (copyJobIds [] payload.inProgress) payload.queued =
      ((payload.inProgress ++ payload.queued).filter fitsBuffer).take otaJobIdQueueSize := by
  have hfirst := copyJobIds_eq [] payload.inProgress (Nat.zero_le _)
  rw [List.nil_append] at hfirst
  have hlength : (copyJobIds [] payload.inProgress).length ≤ otaJobIdQueueSize := by
    rw [hfirst, List.length_take]
    omega
  rw [copyJobIds_eq _ _ hlength, hfirst, List.filter_append, List.take_append, List.take_append,
    List.take_take, Nat.min_self, List.length_take]
  congr 2
  omega

/-! ### The history of a round -/

/-- A document with the environment in which it was examined. -/
structure Examined where
  env : Env
  doc : JobDoc

/-- What happened since the last list of pending jobs. -/
structure Round where
  pending : PendingJobs := {}
  /-- The ids that were taken from the queue. -/
  taken : List CStr := []
  examined : List Examined := []

/-- The ids to request: in the order of the list, limited to the ids that fit the buffer and to the
first ones that fit the queue. -/
def Round.listed (r : Round) : List CStr :=
  ((r.pending.inProgress ++ r.pending.queued).filter fitsBuffer).take otaJobIdQueueSize

/-- The history after a run. -/
def Round.after (r : Round) (env : Env) (s : Ctx) (e : Event) : Round :=
  match s.newList e, s.newDoc e with
  | some payload, _ => if payload.valid then { pending := payload } else r
  | none, some doc => { r with examined := r.examined ++ [⟨env, doc⟩] }
  | none, none =>
    if s.takesId e then { r with taken := r.taken ++ s.jobIdQueue.head?.toList } else r

/-- A run that asks for the next document takes its id. -/
theorem Round.after_takes (r : Round) {env : Env} {s : Ctx} {e : Event}
    (h : s.takesId e = true) :
    r.after env s e = { r with taken := r.taken ++ s.jobIdQueue.head?.toList } := by
  have hstate : s.state = .fetchingJobDoc := by
    rw [Ctx.takesId, Bool.and_eq_true, decide_eq_true_eq] at h
    exact h.1
  rw [after, show s.newList e = none by simp [Ctx.newList, hstate],
    show s.newDoc e = none by simp [Ctx.newDoc, hstate]]
  exact if_pos h

/-- The machine with the history of its round. -/
structure Rounds where
  ctx : Ctx := {}
  round : Round := {}

namespace Rounds

/-- After the init. -/
def Initial (w : Rounds) : Prop := w = {}

/-- What an action adds to the history. Only the runs of the machine do. -/
def recorded (w : Rounds) : Action → Round
  | .run env => match w.ctx.queue with
    | [] => w.round
    | e :: rest => w.round.after env { w.ctx with queue := rest } e
  | _ => w.round

/-- A step of the machine. -/
def step (cfg : Config) (w : Rounds) (a : Action) : Option Rounds :=
  (Jobs.step cfg w.ctx a).map fun t => { ctx := t, round := w.recorded a }

end Rounds

/-! ### Eligible documents -/

/-- The version of an eligible document: it passes all checks, whatever the current job is. -/
def Examined.grade (cfg : Config) (x : Examined) : Option UInt32 :=
  if x.doc.wellFormed = false then none
  else match parseCustomFields cfg.timeSupport x.doc with
    | none => none
    | some custom => match findFiletypeHandler cfg custom with
      | .error _ => none
      | .ok ft => match judgeJobDoc cfg x.env {} ft custom x.doc.afr with
        | .select number afr =>
          if (setOtaData {} afr custom x.env.copied).isSome then some number else none
        | _ => none

/-- A document of a custom job: it lacks the fields of a firmware job, and the application takes
such jobs. -/
structure Examined.IsCustom (cfg : Config) (x : Examined) : Prop where
  callback : cfg.customJobCb = true
  wellFormed : x.doc.wellFormed = true
  lacks : parseCustomFields cfg.timeSupport x.doc = none ∨ x.doc.afr = none

/-- The current job is the firmware job of a document. -/
structure JobOf (job : JobInfo) (doc : JobDoc) (number : UInt32) : Prop where
  jobId : job.jobId = doc.jobId
  fwVersion : job.fwVersion = number
  filesize : job.otaData.filesize = doc.otaData.filesize
  fileId : job.otaData.fileId = doc.otaData.fileId
  streamId : job.otaData.streamId = doc.otaData.streamId

/-- The current job is the best one so far. -/
def Tracks (cfg : Config) (examined : List Examined) (job : JobInfo) : Prop :=
  match lastBest (Examined.grade cfg) examined with
  | none => job.hasPendingJob = false
  | some (x, number) => job.hasPendingJob = true ∧ JobOf job x.doc number

section
variable {cfg : Config} {env : Env} {job job' : JobInfo} {doc : JobDoc} {custom : CustomFields}
  {ft : FtCtx} {number : UInt32} {afr : AfrFields}

theorem JobOf.of_eq (h : JobOf job doc number) (hid : job'.jobId = job.jobId)
    (hversion : job'.fwVersion = job.fwVersion) (hdata : job'.otaData = job.otaData) :
    JobOf job' doc number where
  jobId := hid.trans h.jobId
  fwVersion := hversion.trans h.fwVersion
  filesize := by rw [hdata]; exact h.filesize
  fileId := by rw [hdata]; exact h.fileId
  streamId := by rw [hdata]; exact h.streamId

variable {examined : List Examined}

section
variable (h : Tracks cfg examined job)
include h

theorem Tracks.of_eq (hid : job'.jobId = job.jobId)
    (hpending : job'.hasPendingJob = job.hasPendingJob)
    (hversion : job'.fwVersion = job.fwVersion) (hdata : job'.otaData = job.otaData) :
    Tracks cfg examined job' := by
  rw [Tracks] at h ⊢
  split
  · rename_i hnone
    rw [hnone] at h
    exact hpending.trans h
  · rename_i x number hbest
    rw [hbest] at h
    exact ⟨hpending.trans h.1, h.2.of_eq hid hversion hdata⟩

/-- The job that is kept is that of the last of the best documents. -/
theorem Tracks.best (hpending : job.hasPendingJob = true) :
    ∃ x number, LastBest (Examined.grade cfg) examined x number ∧ JobOf job x.doc number := by
  rw [Tracks] at h
  split at h
  · rw [hpending] at h
    cases h
  · rename_i x number hbest
    exact ⟨x, number, lastBest_eq_some hbest, h.2⟩

/-- A document that is not eligible, or worse than the best one so far, changes nothing. -/
theorem Tracks.keep {x : Examined}
    (hx : ∀ number, x.grade cfg = some number → job.hasPendingJob = true ∧ number < job.fwVersion) :
    Tracks cfg (examined ++ [x]) job := by
  rw [Tracks] at h ⊢
  rw [lastBest_push]
  cases hgrade : x.grade cfg with
  | none =>
    rw [better_of_none hgrade]
    exact h
  | some number =>
    obtain ⟨hpending, hlt⟩ := hx number hgrade
    cases hbest : lastBest (Examined.grade cfg) examined with
    | none =>
      rw [hbest] at h
      exact absurd (hpending.symm.trans h) (by decide)
    | some kept =>
      rw [hbest] at h
      have hkept : better (Examined.grade cfg) (some kept) x = some kept := by
        simp only [better, hgrade]
        rw [if_pos (h.2.fwVersion ▸ hlt)]
      rw [hkept]
      exact h

/-- An eligible document that is not worse is the best one. -/
theorem Tracks.select {x : Examined} (hgrade : x.grade cfg = some number)
    (hnot : ¬(job.hasPendingJob = true ∧ number < job.fwVersion))
    (hpending : job'.hasPendingJob = true) (hjob : JobOf job' x.doc number) :
    Tracks cfg (examined ++ [x]) job' := by
  rw [Tracks] at h ⊢
  have hbetter : lastBest (Examined.grade cfg) (examined ++ [x]) = some (x, number) := by
    rw [lastBest_push]
    cases hbest : lastBest (Examined.grade cfg) examined with
    | none => simp only [better, hgrade]
    | some kept =>
      rw [hbest] at h
      have hge : ¬number < kept.2 := by
        intro hlt
        exact hnot ⟨h.1, h.2.fwVersion.symm ▸ hlt⟩
      simp only [better, hgrade]
      rw [if_neg hge]
  rw [hbetter]
  exact ⟨hpending, hjob⟩

end

/-! ### The verdicts -/

variable {afrs : Option AfrFields}

/-- A document that would be selected as the first one is selected unless a better one was. -/
theorem judgeJobDoc_of_first (h : judgeJobDoc cfg env {} ft custom afrs = .select number afr) :
    judgeJobDoc cfg env job ft custom afrs =
      if job.hasPendingJob = true ∧ number < job.fwVersion then .ignore
      else .select number afr := by
  rw [judgeJobDoc] at h ⊢
  split at h
  · rename_i verdict hverdict
    subst h
    exact absurd hverdict compareVersions_ne_select
  · rename_i number' hnumber
    split at h
    · cases h
    · rename_i hopen
      rw [if_neg (fun hpending => by cases hpending.1)] at h
      have hsame : number' = number := by
        cases afrs with
        | none => cases h
        | some fields =>
          rw [checkAfrFields] at h
          split_ifs at h
          exact (Verdict.select.inj h).1
      subst hsame
      rw [if_neg hopen, h]

/-- What is selected would be selected as the first one, and no better one was found. -/
theorem judgeJobDoc_first (h : judgeJobDoc cfg env job ft custom afrs = .select number afr) :
    judgeJobDoc cfg env {} ft custom afrs = .select number afr ∧
      ¬(job.hasPendingJob = true ∧ number < job.fwVersion) := by
  have hfirst : judgeJobDoc cfg env {} ft custom afrs = .select number afr := by
    rw [judgeJobDoc] at h ⊢
    split at h
    · rename_i verdict hverdict
      subst h
      exact absurd hverdict compareVersions_ne_select
    · split at h
      · cases h
      · rename_i hopen
        split at h
        · cases h
        · rw [if_neg hopen, if_neg (fun hpending => by cases hpending.1)]
          exact h
  refine ⟨hfirst, fun hbetter => ?_⟩
  rw [judgeJobDoc_of_first hfirst, if_pos hbetter] at h
  cases h

/-- A document with custom fields and AFR fields is not of an invalid format. -/
theorem judgeJobDoc_invalidFormat {reason : String}
    (h : judgeJobDoc cfg env job ft custom doc.afr = .invalidFormat reason) : doc.afr = none := by
  cases hafr : doc.afr with
  | none => rfl
  | some fields =>
    rw [judgeJobDoc, hafr] at h
    split at h
    · rename_i verdict hverdict
      subst h
      rcases compareVersions_error hverdict with hignore | ⟨reason, hreject⟩
      · cases hignore
      · cases hreject
    · rw [checkAfrFields] at h
      split_ifs at h

/-- Whether the data can be set does not depend on what they were. -/
theorem setOtaData_isSome (old : JobOtaData) (copied : CopyEnv) :
    (setOtaData old afr custom copied).isSome = (setOtaData {} afr custom copied).isSome := by
  simp only [setOtaData]
  split_ifs <;> rfl

/-- The image of the job is that of the document. -/
theorem setOtaData_image {old data : JobOtaData} {copied : CopyEnv} (hafr : doc.afr = some afr)
    (h : setOtaData old afr custom copied = some data) :
    data.filesize = doc.otaData.filesize ∧ data.fileId = doc.otaData.fileId ∧
      data.streamId = doc.otaData.streamId := by
  simp only [setOtaData] at h
  split_ifs at h
  obtain rfl := Option.some.inj h
  simp [JobDoc.otaData, hafr]

/-- The grade of a document whose handler was found. -/
theorem Examined.grade_of_handler (hwell : doc.wellFormed = true)
    (hcustom : parseCustomFields cfg.timeSupport doc = some custom)
    (hft : findFiletypeHandler cfg custom = .ok ft) :
    Examined.grade cfg ⟨env, doc⟩ = match judgeJobDoc cfg env {} ft custom doc.afr with
      | .select number afr =>
        if (setOtaData {} afr custom env.copied).isSome then some number else none
      | _ => none := by
  rw [grade, if_neg (by rw [hwell]; decide)]
  simp only [hcustom, hft]

/-- A document that was judged and not selected is worse than the best one so far, or it is not
eligible. -/
theorem Examined.grade_of_not_select (hwell : doc.wellFormed = true)
    (hcustom : parseCustomFields cfg.timeSupport doc = some custom)
    (hft : findFiletypeHandler cfg custom = .ok ft)
    (hnot : ∀ number afr, judgeJobDoc cfg env job ft custom doc.afr ≠ .select number afr)
    {c : UInt32} (h : Examined.grade cfg ⟨env, doc⟩ = some c) :
    job.hasPendingJob = true ∧ c < job.fwVersion := by
  rw [grade_of_handler hwell hcustom hft] at h
  split at h
  · rename_i number afr hfirst
    split at h
    · obtain rfl := Option.some.inj h
      by_contra hbetter
      apply hnot number afr
      rw [judgeJobDoc_of_first hfirst, if_neg hbetter]
    · cases h
  · cases h

end

/-! ### What the machine knows of its round -/

/-- The current job and the queue of ids, against the history of the round. -/
def choiceWatch (cfg : Config) (r : Round) : Watch where
  fetching s := r.taken ++ s.jobIdQueue = r.listed ∧ Tracks cfg r.examined s.currentJob
  selected s := r.taken = r.listed ∧ ∃ x number,
    LastBest (Examined.grade cfg) r.examined x number ∧ JobOf s.currentJob x.doc number
  custom s := r.taken <+: r.listed ∧ ∃ before x, r.examined = before ++ [x] ∧ x.IsCustom cfg ∧
    s.currentJob.jobId = x.doc.jobId
  fetching_same h hs := by
    rw [h.jobIdQueue]
    exact ⟨hs.1, hs.2.of_eq h.jobId h.pending h.fwVersion h.otaData⟩
  selected_same h hs := by
    obtain ⟨htaken, x, number, hbest, hjob⟩ := hs
    exact ⟨htaken, x, number, hbest, hjob.of_eq h.jobId h.fwVersion h.otaData⟩
  custom_same h hs := by
    rw [h.jobId]
    exact hs
  selected_of_end h hnil hpending := by
    rw [hnil, List.append_nil] at h
    exact ⟨h.1, h.2.best hpending⟩

namespace Ctx

variable {cfg : Config} {env : Env} {r : Round} {s : Ctx} {doc : JobDoc}

/-- A document that is not a firmware job. -/
theorem jobDocInvalidFormat_choice (e : Event) (version : Int32) (reason : String)
    (hr : s.recovery.state.owes = false) (hwell : doc.wellFormed = true)
    (hlacks : parseCustomFields cfg.timeSupport doc = none ∨ doc.afr = none)
    (h : (choiceWatch cfg { r with examined := r.examined ++ [⟨env, doc⟩] }).fetching s) :
    (choiceWatch cfg { r with examined := r.examined ++ [⟨env, doc⟩] }).Leaves
      (s.jobDocInvalidFormat cfg env e doc version reason) := by
  apply jobDocInvalidFormat_leaves env hr
  · intro hcb
    have htaken : r.taken <+: r.listed := ⟨s.jobIdQueue, h.1⟩
    exact ⟨htaken, r.examined, ⟨env, doc⟩, rfl, ⟨hcb, hwell, hlacks⟩, rfl⟩
  · exact fun _ => h

/-- A document with its custom fields. -/
theorem examineFields_choice (e : Event) (version : Int32) {custom : CustomFields}
    (hr : s.recovery.state.owes = false) (hwell : doc.wellFormed = true)
    (hcustom : parseCustomFields cfg.timeSupport doc = some custom)
    (h : (choiceWatch cfg r).fetching s) :
    (choiceWatch cfg { r with examined := r.examined ++ [⟨env, doc⟩] }).Leaves
      (s.examineFields cfg env e doc version custom) := by
  obtain ⟨hqueue, htracks⟩ := h
  simp only [examineFields]
  split
  · rename_i reason herror
    have hgrade : Examined.grade cfg ⟨env, doc⟩ = none := by
      rw [Examined.grade, if_neg (by rw [hwell]; decide)]
      simp only [hcustom, herror]
    have hkept : Tracks cfg (r.examined ++ [⟨env, doc⟩]) s.currentJob :=
      htracks.keep fun number hnumber => by rw [hgrade] at hnumber; cases hnumber
    exact jobDocReject_leaves env (by exact hr) e _ _ _ ⟨hqueue, hkept.of_eq rfl rfl rfl rfl⟩
  · rename_i ft hft
    -- The verdict does not depend on the filetype and the handler in the current job.
    have hjudge : judgeJobDoc cfg env ((s.setJob fun job =>
        { job with filetype := copiedFiletype custom }).setJob fun job =>
        { job with filetypeHandler := some ft }).currentJob ft custom doc.afr =
        judgeJobDoc cfg env s.currentJob ft custom doc.afr := rfl
    have hkept : (∀ number afr, judgeJobDoc cfg env s.currentJob ft custom doc.afr ≠
        .select number afr) → Tracks cfg (r.examined ++ [⟨env, doc⟩]) s.currentJob := by
      intro hnot
      exact htracks.keep fun number hnumber =>
        Examined.grade_of_not_select hwell hcustom hft hnot hnumber
    rw [hjudge]
    cases hverdict : judgeJobDoc cfg env s.currentJob ft custom doc.afr with
    | ignore =>
      have htracks' := hkept (by rw [hverdict]; simp)
      exact jobDocEnd_leaves env (by exact hr) _ fun _ =>
        ⟨hqueue, htracks'.of_eq rfl rfl rfl rfl⟩
    | reject reason =>
      have htracks' := hkept (by rw [hverdict]; simp)
      exact jobDocReject_leaves env (by exact hr) e _ _ _
        ⟨hqueue, htracks'.of_eq rfl rfl rfl rfl⟩
    | invalidFormat reason =>
      have htracks' := hkept (by rw [hverdict]; simp)
      exact jobDocInvalidFormat_choice e _ _ (by exact hr) hwell
        (.inr (judgeJobDoc_invalidFormat hverdict)) ⟨hqueue, htracks'.of_eq rfl rfl rfl rfl⟩
    | select number afr =>
      dsimp only
      split
      · exact jobDocEnd_leaves env (by exact hr) _ (by simp)
      · rename_i data hdata
        obtain ⟨hfirst, hnot⟩ := judgeJobDoc_first hverdict
        have hset : (setOtaData {} afr custom env.copied).isSome = true := by
          rw [← setOtaData_isSome s.currentJob.otaData]
          exact Option.isSome_iff_exists.mpr ⟨data, hdata⟩
        have hgrade : Examined.grade cfg ⟨env, doc⟩ = some number := by
          rw [Examined.grade_of_handler hwell hcustom hft, hfirst]
          exact if_pos hset
        obtain ⟨hsize, hfile, hstream⟩ := setOtaData_image (judgeJobDoc_select hverdict).1 hdata
        exact jobDocEnd_leaves env (by exact hr) _ fun _ =>
          ⟨hqueue, htracks.select hgrade hnot rfl ⟨rfl, rfl, hsize, hfile, hstream⟩⟩

/-- A document goes to the history. -/
theorem examineJobDoc_choice (e : Event) (hr : s.recovery.state.owes = false)
    (h : (choiceWatch cfg r).fetching s) :
    (choiceWatch cfg { r with examined := r.examined ++ [⟨env, doc⟩] }).Leaves
      (s.examineJobDoc cfg env e doc) := by
  have hkept : Examined.grade cfg ⟨env, doc⟩ = none →
      Tracks cfg (r.examined ++ [⟨env, doc⟩]) s.currentJob := by
    intro hnone
    exact h.2.keep fun number hnumber => by rw [hnone] at hnumber; cases hnumber
  have hmalformed : doc.wellFormed = false → Examined.grade cfg ⟨env, doc⟩ = none := by
    intro hnot
    rw [Examined.grade, if_pos hnot]
  simp only [examineJobDoc]
  split
  · rename_i hinvalid
    have hnot : doc.wellFormed = false := by
      rw [JobDoc.wellFormed]
      rcases hinvalid with hempty | hlong | hmissing
      · simp [hempty]
      · rw [decide_eq_false (Nat.not_le.mpr hlong)]
        simp
      · simp [hmissing]
    exact jobDocEnd_leaves env (by exact hr) _ fun _ => ⟨h.1, hkept (hmalformed hnot)⟩
  · rename_i hvalid
    simp only [not_or, Nat.not_lt, Bool.not_eq_false] at hvalid
    split
    · rename_i hversion
      have hnot : doc.wellFormed = false := by
        simp [JobDoc.wellFormed, hversion]
      exact jobDocEnd_leaves env (by exact hr) _ fun _ => ⟨h.1, hkept (hmalformed hnot)⟩
    · rename_i version hversion
      have hwell : doc.wellFormed = true := by
        rw [JobDoc.wellFormed, hversion, hvalid.2.2, decide_eq_true hvalid.2.1,
          decide_eq_true (Nat.pos_of_ne_zero hvalid.1)]
        rfl
      split
      · rename_i hnone
        have hgrade : Examined.grade cfg ⟨env, doc⟩ = none := by
          rw [Examined.grade, if_neg (by rw [hwell]; decide)]
          simp only [hnone]
        exact jobDocInvalidFormat_choice e _ _ (by exact hr) hwell (.inl hnone)
          ⟨h.1, hkept hgrade⟩
      · rename_i custom hcustom
        exact examineFields_choice e version (by exact hr) hwell hcustom h

end Ctx

/-! ### All runs -/

section
variable {cfg : Config} {env : Env} {r : Round} {s : Ctx} {e : Event} {w w' : Rounds}

/-- A new list starts the round. -/
theorem pendingJobsToJobIdQueue_choice {payload : PendingJobs} (hvalid : payload.valid = true) :
    (choiceWatch cfg { pending := payload }).fetching (s.pendingJobsToJobIdQueue payload).2 := by
  rw [Ctx.pendingJobsToJobIdQueue, if_pos hvalid]
  exact ⟨copyJobIds_both payload, rfl⟩

/-- One run, with what it adds to the history. -/
theorem choiceWatch_passes :
    (choiceWatch cfg r).Passes cfg env (choiceWatch cfg (r.after env s e)) s e where
  same hlist hdoc htaken := by
    have hsame : r.after env s e = r := by
      rw [Round.after, hlist, hdoc, htaken]
      rfl
    rw [hsame]
  list payload hlist hnone := by
    have hvalid : payload.valid = true := by
      rw [Ctx.pendingJobsToJobIdQueue] at hnone
      split at hnone
      · rename_i hvalid
        exact hvalid
      · cases hnone
    have hafter : r.after env s e = { pending := payload } := by
      rw [Round.after, hlist]
      exact if_pos hvalid
    rw [hafter]
    exact pendingJobsToJobIdQueue_choice hvalid
  ended htakes h hnil := by
    rw [r.after_takes htakes, hnil, List.head?_nil, Option.toList_none, List.append_nil]
    exact h
  taken htakes h jobId rest hcons := by
    rw [r.after_takes htakes, hcons, List.head?_cons, Option.toList_some]
    refine ⟨?_, h.2⟩
    show (r.taken ++ [jobId]) ++ rest = r.listed
    rw [List.append_assoc, ← h.1, hcons]
    rfl
  doc doc hdoc h hr := by
    have hreset : SameRound s s.retryResetBackoff := .of_eq rfl rfl rfl
    have hlist : s.newList e = none := by
      obtain ⟨hstate, rfl⟩ := Ctx.newDoc_eq_some hdoc
      rw [Ctx.newList.eq_def, hstate]
    have hafter : r.after env s e = { r with examined := r.examined ++ [⟨env, doc⟩] } := by
      rw [Round.after, hlist, hdoc]
    rw [hafter]
    apply Ctx.examineJobDoc_choice
    · exact hr
    · exact (choiceWatch cfg r).fetching_same hreset h

/-- The invariant of the runs. -/
def Rounds.Tracked (cfg : Config) (w : Rounds) : Prop := (choiceWatch cfg w.round).Kept w.ctx

theorem Rounds.step_tracked {a : Action} (hw : w.Tracked cfg) (hstep : step cfg w a = some w') :
    w'.Tracked cfg := by
  rw [step, Option.map_eq_some_iff] at hstep
  obtain ⟨t, ht, rfl⟩ := hstep
  apply Watch.step_kept hw ht
  · intro env e rest ha hqueue
    subst ha
    have hrecorded : w.recorded (.run env) =
        w.round.after env { w.ctx with queue := rest } e := by
      simp only [recorded, hqueue]
    show Watch.Passes cfg env _ (choiceWatch cfg (w.recorded (.run env))) _ _
    rw [hrecorded]
    exact choiceWatch_passes
  · intro hother
    cases a with
    | run env => exact absurd rfl (hother env)
    | post | response | retryTimer | backoffTimer | requestRecovery | subscribed
    | reportStatus => rfl

/-- The states in which a round goes on. -/
def JobState.fetches : JobState → Bool
  | .fetchingJobDoc | .waitingForJobDoc | .jobDocReceived => true
  | _ => false

/-- **The best document is executed.** -/
theorem best_document_executed
    (hw : Reach Rounds.Initial (Rounds.step cfg) (fun _ _ => True) w) :
    (w.ctx.state = .jobExecution → w.round.taken = w.round.listed ∧
      ∃ x number, LastBest (Examined.grade cfg) w.round.examined x number ∧
        JobOf w.ctx.currentJob x.doc number) ∧
    (w.ctx.state = .customJobExecution → w.round.taken <+: w.round.listed ∧
      ∃ before x, w.round.examined = before ++ [x] ∧ x.IsCustom cfg ∧
        w.ctx.currentJob.jobId = x.doc.jobId) ∧
    (w.ctx.state.fetches = true → w.round.taken ++ w.ctx.jobIdQueue = w.round.listed) := by
  have htracked : w.Tracked cfg := by
    refine hw.inv (Rounds.Tracked cfg) ?_ ?_
    · intro w h
      subst h
      exact .initial
    · intro w a w' h _ hstep
      exact Rounds.step_tracked h hstep
  have hheld : (choiceWatch cfg w.round).Held w.ctx.state w.ctx := htracked.next
  refine ⟨?_, ?_, ?_⟩
  · intro hstate
    rw [hstate] at hheld
    exact hheld
  · intro hstate
    rw [hstate] at hheld
    exact hheld
  · intro hfetches
    cases hstate : w.ctx.state with
    | fetchingJobDoc | waitingForJobDoc | jobDocReceived =>
      rw [hstate] at hheld
      exact hheld.1
    | _ =>
      rw [hstate] at hfetches
      cases hfetches

end

/-- The first of two documents has the greater version. -/
theorem best_document_sample : ∃ w : Rounds,
    exec (Rounds.step {}) {} (fetchRound (imageDoc firstJob { fwVersion := "2.1".toList })
      (imageDoc secondJob { fwVersion := "2.0".toList })) = some w ∧
      w.round.taken = [firstJob, secondJob] ∧
      ∃ x number, LastBest (Examined.grade {}) w.round.examined x number ∧
        JobOf w.ctx.currentJob x.doc number := by
  have hrun : Reach Rounds.Initial (Rounds.step {}) (fun _ _ => True) _ :=
    Reach.exec_true (fetchRound (imageDoc firstJob { fwVersion := "2.1".toList })
      (imageDoc secondJob { fwVersion := "2.0".toList })) (.start rfl) rfl
  have hstate : JobState.jobExecution = .jobExecution := rfl
  exact ⟨_, rfl, rfl, ((best_document_executed hrun).1 hstate).2⟩

/-- A custom job that comes after an eligible document is executed in its place. -/
theorem custom_before_best : ¬∀ w : Rounds,
    Reach Rounds.Initial (Rounds.step {}) (fun _ _ => True) w →
      w.ctx.state = .jobExecution ∨ w.ctx.state = .customJobExecution →
      ∃ x number, LastBest (Examined.grade {}) w.round.examined x number ∧
        w.ctx.currentJob.jobId = x.doc.jobId := by
  intro h
  have hrun : ∃ w : Rounds,
      exec (Rounds.step {}) {} (fetchRound (imageDoc firstJob { fwVersion := "2.0".toList })
        { jobId := secondJob }) = some w ∧
        w.ctx.state = .customJobExecution ∧ w.ctx.currentJob.jobId = secondJob ∧
        w.round.examined = [⟨{}, imageDoc firstJob { fwVersion := "2.0".toList }⟩,
          ⟨{}, { jobId := secondJob }⟩] := ⟨_, rfl, rfl, rfl, rfl⟩
  obtain ⟨w, hexec, hstate, hjobId, hexamined⟩ := hrun
  obtain ⟨x, number, hbest, hid⟩ := h w (Reach.exec_true _ (.start rfl) hexec) (.inr hstate)
  -- Only the first document has a grade, and the id is that of the second one.
  have hgraded := hbest.graded
  have hmem := hbest.mem
  rw [hexamined] at hmem
  rw [hjobId] at hid
  rcases List.mem_cons.mp hmem with rfl | hmem
  · exact absurd hid (by decide)
  · rw [List.mem_singleton.mp hmem] at hgraded
    cases hgraded

end RainMakerNeo.Ota.Jobs
