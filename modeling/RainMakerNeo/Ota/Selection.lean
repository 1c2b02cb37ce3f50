import RainMakerNeo.Ota.JobRounds

/-!
# `RainMakerNeo.Ota.Selection`: the current job comes from one document

A fetch round examines one job document after the other, and writes the current job piece by piece:
the filetype and its handler as soon as they are known, the rest when the document is selected. A
document that is ignored or rejected after that leaves its filetype and its handler behind. The
strings of a selected document that has no value for an optional field stay as they were, and the
start of a custom job writes nothing but the id.

`one_document_of_careful` says when all fields are nevertheless those of the document whose job is
executed: a selected document is followed by those with its filetype only, and what a document does
not write is not left from another one. `mixed_documents` has a run for each of the three defects.
-/

set_option autoImplicit false

namespace RainMakerNeo.Ota.Jobs

open RainMakerNeo.Lib
open RainMakerNeo.Ota.Status (EspError JobStatus StatusEnv UpdateRequest ResponsePayload
  jobIdMaxLength)

/-! ### What a document says -/

/-- The custom fields of a document. -/
def JobDoc.rmng (doc : JobDoc) : RmngFields := doc.rmngOta.getD {}

/-- An optional string of a document. -/
def optionalField (src : List Char) : Option (List Char) := if src = [] then none else some src

/-- The OTA data of a document. -/
def JobDoc.otaData (doc : JobDoc) : JobOtaData where
  filesize := (doc.afr.map fun afr => afr.fileSize.toNat).getD 0
  fileId := (doc.afr.map AfrFields.fileId).getD 0
  streamId := doc.afr.map AfrFields.imageRef
  fileSignature := doc.afr.bind fun afr => optionalField afr.signature
  fwVersion := optionalField doc.rmng.fwVersion
  fileMd5 := optionalField doc.rmng.fileMd5
  metadata := optionalField doc.rmng.metadata

/-- The filetype handler of a document. -/
def Config.handlerOf (cfg : Config) (doc : JobDoc) : Option FtCtx :=
  (findFiletypeHandler cfg { filetype := doc.rmng.filetype }).toOption

/-- The number of the firmware version of a document. -/
def Config.versionOf (cfg : Config) (doc : JobDoc) : Option UInt32 :=
  (cfg.handlerOf doc).bind fun ft =>
    if ft.hasGetVersion then cfg.versionNumber ft doc.rmng.fwVersion else some 0

/-- All fields of the current job are those of a document. -/
structure Selected (cfg : Config) (job : JobInfo) (doc : JobDoc) : Prop where
  jobId : job.jobId = doc.jobId
  filetype : job.filetype = doc.rmng.filetype
  filetypeHandler : job.filetypeHandler.isSome = true ∧ job.filetypeHandler = cfg.handlerOf doc
  fwVersion : cfg.versionOf doc = some job.fwVersion
  otaData : job.otaData = doc.otaData

/-- The filetype and the handler are absent or those of a document. -/
structure TypeOf (cfg : Config) (job : JobInfo) (doc : JobDoc) : Prop where
  filetype : job.filetype = [] ∨ job.filetype = doc.rmng.filetype
  filetypeHandler : job.filetypeHandler = none ∨ job.filetypeHandler = cfg.handlerOf doc

/-- The firmware version and the OTA data are absent or those of a document. -/
structure DataOf (cfg : Config) (job : JobInfo) (doc : JobDoc) : Prop where
  version : job.fwVersion = 0 ∨ cfg.versionOf doc = some job.fwVersion
  filesize : job.otaData.filesize = 0 ∨ job.otaData.filesize = doc.otaData.filesize
  fileId : job.otaData.fileId = 0 ∨ job.otaData.fileId = doc.otaData.fileId
  streamId : job.otaData.streamId = none ∨ job.otaData.streamId = doc.otaData.streamId
  fileSignature :
    job.otaData.fileSignature = none ∨ job.otaData.fileSignature = doc.otaData.fileSignature
  fwVersion : job.otaData.fwVersion = none ∨ job.otaData.fwVersion = doc.otaData.fwVersion
  fileMd5 : job.otaData.fileMd5 = none ∨ job.otaData.fileMd5 = doc.otaData.fileMd5
  metadata : job.otaData.metadata = none ∨ job.otaData.metadata = doc.otaData.metadata

variable {cfg : Config} {doc : JobDoc}

theorem DataOf.of_eq {job job' : JobInfo} (h : DataOf cfg job doc)
    (hversion : job'.fwVersion = job.fwVersion) (hdata : job'.otaData = job.otaData) :
    DataOf cfg job' doc where
  version := by rw [hversion]; exact h.version
  filesize := by rw [hdata]; exact h.filesize
  fileId := by rw [hdata]; exact h.fileId
  streamId := by rw [hdata]; exact h.streamId
  fileSignature := by rw [hdata]; exact h.fileSignature
  fwVersion := by rw [hdata]; exact h.fwVersion
  fileMd5 := by rw [hdata]; exact h.fileMd5
  metadata := by rw [hdata]; exact h.metadata

/-- The current job is the one of a document of the round. -/
def HasSelected (cfg : Config) (s : Ctx) : Prop :=
  ∃ doc ∈ s.history.round, Selected cfg s.currentJob doc

/-- The current job is the custom job of a document of the round. No field is of another one. -/
def HasCustom (cfg : Config) (s : Ctx) : Prop :=
  ∃ doc ∈ s.history.round, s.currentJob.jobId = doc.jobId ∧ TypeOf cfg s.currentJob doc ∧
    DataOf cfg s.currentJob doc

/-! ### The condition -/

/-- A document that is not selected has the filetype of the one that is. -/
def KeepsType (job : JobInfo) (custom : CustomFields) (handler : Option FtCtx) : Prop :=
  job.hasPendingJob = true →
    copiedFiletype custom = job.filetype ∧ handler = job.filetypeHandler

/-- The current job has no string for an optional field that a document lacks. -/
structure NoLeftover (old : JobOtaData) (afr : AfrFields) (custom : CustomFields) : Prop where
  fileSignature : afr.signature = [] → old.fileSignature = none
  fwVersion : custom.fwVersion = [] → old.fwVersion = none
  fileMd5 : custom.fileMd5 = [] → old.fileMd5 = none
  metadata : custom.metadata = [] → old.metadata = none

/-- What becomes of a document with custom fields does not mix it with another one. -/
def CarefulFields (cfg : Config) (env : Env) (job : JobInfo) (doc : JobDoc)
    (custom : CustomFields) : Prop :=
  match findFiletypeHandler cfg custom with
  | .error _ => KeepsType job custom job.filetypeHandler
  | .ok ft =>
    match judgeJobDoc cfg env job ft custom doc.afr with
    | .ignore | .reject _ => KeepsType job custom (some ft)
    | .invalidFormat _ =>
      if cfg.customJobCb then DataOf cfg job doc else KeepsType job custom (some ft)
    | .select _ afr =>
      (setOtaData job.otaData afr custom env.copied).isSome = true →
        NoLeftover job.otaData afr custom

/-- What becomes of a document does not mix it with another one. Where it starts a custom job, each
field that the earlier documents of the round have left in the current job is one of its own. -/
def CarefulDoc (cfg : Config) (env : Env) (job : JobInfo) (doc : JobDoc) : Prop :=
  match parseCustomFields cfg.timeSupport doc with
  | none => cfg.customJobCb = true → TypeOf cfg job doc ∧ DataOf cfg job doc
  | some custom => CarefulFields cfg env job doc custom

/-- The checks on a document before its custom fields are parsed. -/
def JobDoc.wellFormed (doc : JobDoc) : Bool :=
  0 < doc.jobId.length && doc.jobId.length ≤ jobIdMaxLength && doc.hasDocument
    && (executionVersionToInt32 doc.executionVersion).isSome

/-- The runs of the machine that do not mix a document with another one. -/
def CarefulRun (cfg : Config) (env : Env) (s : Ctx) (e : Event) : Prop :=
  match s.state, e with
  | .jobDocReceived, .jobDocAccepted (some doc) =>
    doc.wellFormed = true → CarefulDoc cfg env s.currentJob doc
  | _, _ => True

/-- A selected document is followed by documents of its filetype until another one is selected. A
field that a selected document or the document of a custom job does not write is not left from
another one. -/
def Careful (cfg : Config) (s : Ctx) : Action → Prop
  | .run env => ∀ e rest, s.queue = e :: rest → CarefulRun cfg env s e
  | _ => True

/-! ### The invariant -/

/-- What is known of the current job in a state. -/
def Owed (cfg : Config) (state : JobState) (s : Ctx) : Prop :=
  match state with
  | .fetchingJobDoc | .waitingForJobDoc | .jobDocReceived =>
    s.currentJob.hasPendingJob = true → HasSelected cfg s
  | .jobExecution => HasSelected cfg s
  | .customJobExecution => HasCustom cfg s
  | _ => True

/-- What a handler leaves: what is known in the next state, and in the one that a recovery leads
to. A recovery to such a state is only kept in `ERROR`. -/
structure Settles (cfg : Config) (r : Ctx × JobState) : Prop where
  next : Owed cfg r.2 r.1
  recovery : Owed cfg r.1.recovery.state r.1
  error : r.1.recovery.state.owes = true → r.2 = .error

namespace SameJob

variable {cfg : Config} {s t : Ctx}

theorem selected (h : SameJob s t) (hs : HasSelected cfg s) : HasSelected cfg t := by
  obtain ⟨doc, hdoc, hselected⟩ := hs
  refine ⟨doc, h.round.symm ▸ hdoc, ?_, ?_, ?_, ?_, ?_⟩
  · rw [h.jobId, hselected.jobId]
  · rw [h.filetype, hselected.filetype]
  · rw [h.filetypeHandler]
    exact hselected.filetypeHandler
  · rw [h.fwVersion, hselected.fwVersion]
  · rw [h.otaData, hselected.otaData]

theorem custom (h : SameJob s t) (hs : HasCustom cfg s) : HasCustom cfg t := by
  obtain ⟨doc, hdoc, hid, htype, hdata⟩ := hs
  refine ⟨doc, h.round.symm ▸ hdoc, h.jobId.trans hid, ⟨?_, ?_⟩, ?_⟩
  · rw [h.filetype]
    exact htype.filetype
  · rw [h.filetypeHandler]
    exact htype.filetypeHandler
  · exact hdata.of_eq h.fwVersion h.otaData

end SameJob

/-- The current job and the documents of the round, as a watch. -/
def documentWatch (cfg : Config) : Watch where
  fetching s := s.currentJob.hasPendingJob = true → HasSelected cfg s
  selected := HasSelected cfg
  custom := HasCustom cfg
  fetching_same h hs hpending := h.selected (hs (h.pending.symm.trans hpending))
  selected_same h := h.selected
  custom_same h := h.custom
  selected_of_end h _ hpending := h hpending

theorem owed_iff {state : JobState} {s : Ctx} :
    Owed cfg state s ↔ (documentWatch cfg).Held state s := by
  cases state <;> exact Iff.rfl

theorem settles_iff {r : Ctx × JobState} : Settles cfg r ↔ (documentWatch cfg).Leaves r := by
  constructor
  · intro h
    exact ⟨owed_iff.mp h.next, owed_iff.mp h.recovery, h.error⟩
  · intro h
    exact ⟨owed_iff.mpr h.next, owed_iff.mpr h.recovery, h.error⟩

/-! ### The documents -/

/-- The custom fields are those of the document. -/
structure Parsed (doc : JobDoc) (custom : CustomFields) : Prop where
  fwVersion : custom.fwVersion = doc.rmng.fwVersion
  fileMd5 : custom.fileMd5 = doc.rmng.fileMd5
  filetype : custom.filetype = doc.rmng.filetype
  metadata : custom.metadata = doc.rmng.metadata

theorem Parsed.of_parse {timeSupport : Bool} {custom : CustomFields}
    (h : parseCustomFields timeSupport doc = some custom) : Parsed doc custom := by
  rw [parseCustomFields] at h
  split at h
  · cases h
  · rename_i f hf
    split at h
    · cases h
    · obtain rfl := Option.some.inj h
      have hrmng : doc.rmng = f := by rw [JobDoc.rmng, hf]; rfl
      rw [← hrmng]
      exact ⟨rfl, rfl, rfl, rfl⟩

section
variable {cfg : Config} {env : Env} {job : JobInfo} {doc : JobDoc} {custom : CustomFields}
  {ft : FtCtx}

/-- The handler lookup reads the filetype only. -/
theorem Parsed.handlerOf (h : Parsed doc custom) (hft : findFiletypeHandler cfg custom = .ok ft) :
    cfg.handlerOf doc = some ft := by
  have hsame : findFiletypeHandler cfg { filetype := custom.filetype } =
      findFiletypeHandler cfg custom := rfl
  rw [Config.handlerOf, ← h.filetype, hsame, hft]
  rfl

/-- A filetype with a handler is copied as a whole. -/
theorem copiedFiletype_of_handler (hft : findFiletypeHandler cfg custom = .ok ft) :
    copiedFiletype custom = custom.filetype := by
  rw [copiedFiletype, if_neg]
  intro hlong
  have hne : custom.filetype ≠ [] := by
    intro hnil
    rw [hnil] at hlong
    cases hlong
  rw [findFiletypeHandler, if_neg hne, if_pos hlong] at hft
  cases hft

variable {number : UInt32} {afr : AfrFields}

/-- The version that was compared is that of the document. -/
theorem Parsed.versionOf (h : Parsed doc custom) (hft : findFiletypeHandler cfg custom = .ok ft)
    (hnumber : compareVersions cfg env ft custom = .ok number) :
    cfg.versionOf doc = some number := by
  rw [Config.versionOf, h.handlerOf hft, Option.bind_some, ← h.fwVersion]
  rw [compareVersions] at hnumber
  split at hnumber
  · rename_i hno
    rw [hno, if_neg (by decide), Except.ok.inj hnumber]
  · rename_i hget
    rw [if_pos (Bool.not_eq_false _ ▸ hget)]
    split at hnumber
    · cases hnumber
    · split at hnumber
      · rename_i current number' _ hversion
        have hok : number' = number := by
          split at hnumber
          · cases hnumber
          · split at hnumber
            · exact Except.ok.inj hnumber
            · split at hnumber
              · cases hnumber
              · split at hnumber
                · cases hnumber
                · exact Except.ok.inj hnumber
        rw [hversion, hok]
      · cases hnumber

/-- The comparison of the versions can only ignore or reject a document. -/
theorem compareVersions_error {verdict : Verdict}
    (h : compareVersions cfg env ft custom = .error verdict) :
    verdict = .ignore ∨ ∃ reason, verdict = .reject reason := by
  rw [compareVersions] at h
  split at h
  · cases h
  · split at h
    · cases h
      exact .inr ⟨_, rfl⟩
    · split at h
      · split at h
        · cases h
          exact .inr ⟨_, rfl⟩
        · split at h
          · cases h
          · split at h
            · cases h
              exact .inl rfl
            · split at h
              · cases h
                exact .inl rfl
              · cases h
      · cases h
        exact .inr ⟨_, rfl⟩

/-- The comparison of the versions selects nothing by itself. -/
theorem compareVersions_ne_select :
    compareVersions cfg env ft custom ≠ .error (.select number afr) := by
  intro h
  rcases compareVersions_error h with hignore | ⟨reason, hreject⟩
  · cases hignore
  · cases hreject

/-- A selected document has AFR fields, and its version was compared. -/
theorem judgeJobDoc_select (h : judgeJobDoc cfg env job ft custom doc.afr = .select number afr) :
    doc.afr = some afr ∧ compareVersions cfg env ft custom = .ok number := by
  rw [judgeJobDoc] at h
  split at h
  · rename_i verdict hverdict
    subst h
    exact absurd hverdict compareVersions_ne_select
  · rename_i number' hnumber
    split at h
    · cases h
    · split at h
      · cases h
      · cases hafr : doc.afr with
        | none =>
          rw [hafr] at h
          cases h
        | some afr' =>
          rw [hafr, checkAfrFields] at h
          split at h
          · cases h
          · split at h
            · cases h
            · split at h
              · cases h
              · obtain ⟨rfl, rfl⟩ := Verdict.select.inj h
                exact ⟨rfl, hnumber⟩

theorem copyOptional_of_none {src : List Char} {old : Option (List Char)}
    (h : src = [] → old = none) : copyOptional src old = optionalField src := by
  rw [copyOptional, optionalField]
  split
  · rename_i hnil
    exact h hnil
  · rfl

/-- Without a leftover, the OTA data are those of the document. -/
theorem Parsed.otaData (h : Parsed doc custom) {old data : JobOtaData} {copied : CopyEnv}
    (hafr : doc.afr = some afr) (hdata : setOtaData old afr custom copied = some data)
    (hleft : NoLeftover old afr custom) : data = doc.otaData := by
  simp only [setOtaData] at hdata
  split_ifs at hdata
  rw [copyOptional_of_none hleft.fileSignature, copyOptional_of_none hleft.fwVersion,
    copyOptional_of_none hleft.fileMd5, copyOptional_of_none hleft.metadata] at hdata
  obtain rfl := Option.some.inj hdata
  rw [JobDoc.otaData, hafr, h.fwVersion, h.fileMd5, h.metadata]
  rfl

end

namespace Ctx

variable {cfg : Config} {s : Ctx} (env : Env) (e : Event)

variable {custom : CustomFields}

/-- The filetype and the handler are those of the selected document. -/
theorem keepsType_owed {handler : Option FtCtx} (h : Owed cfg .fetchingJobDoc s)
    (hkeep : KeepsType s.currentJob custom handler) :
    Owed cfg .fetchingJobDoc (s.setJob fun job =>
      { job with filetype := copiedFiletype custom, filetypeHandler := handler }) := by
  intro hpending
  obtain ⟨htype, hhandler⟩ := hkeep hpending
  have hsame : SameJob s (s.setJob fun job =>
      { job with filetype := copiedFiletype custom, filetypeHandler := handler }) :=
    ⟨rfl, rfl, htype, hhandler, rfl, rfl, rfl⟩
  exact hsame.selected (h hpending)

/-- A document that is selected is the one of the job. -/
theorem selectJobDoc_selected {doc : JobDoc} {ft : FtCtx} {number : UInt32} {afr : AfrFields}
    {data : JobOtaData} (hparsed : Parsed doc custom)
    (hft : findFiletypeHandler cfg custom = .ok ft)
    (hverdict : judgeJobDoc cfg env s.currentJob ft custom doc.afr = .select number afr)
    (hdata : setOtaData s.currentJob.otaData afr custom env.copied = some data)
    (hleft : NoLeftover s.currentJob.otaData afr custom) (hround : doc ∈ s.history.round) :
    HasSelected cfg ((s.setJob fun job =>
      { job with filetype := copiedFiletype custom, filetypeHandler := some ft }).selectJobDoc doc
        number data) := by
  obtain ⟨hafr, hnumber⟩ := judgeJobDoc_select hverdict
  refine ⟨doc, hround, rfl, ?_, ⟨rfl, (hparsed.handlerOf hft).symm⟩, ?_, ?_⟩
  · show copiedFiletype custom = _
    rw [copiedFiletype_of_handler hft, hparsed.filetype]
  · exact hparsed.versionOf hft hnumber
  · exact hparsed.otaData hafr hdata hleft

/-- A custom job begins with the id of its document. -/
theorem startCustomJob_custom {doc : JobDoc} (hround : doc ∈ s.history.round)
    (htype : TypeOf cfg s.currentJob doc) (hdata : DataOf cfg s.currentJob doc) :
    HasCustom cfg (s.startCustomJob doc) :=
  ⟨doc, hround, rfl, ⟨htype.filetype, htype.filetypeHandler⟩, hdata.of_eq rfl rfl⟩

/-- A document with its custom fields. -/
theorem examineFields_settles (hr : s.recovery.state.owes = false) (doc : JobDoc)
    (version : Int32) (hparsed : Parsed doc custom) (hround : doc ∈ s.history.round)
    (h : Owed cfg .fetchingJobDoc s) (hcareful : CarefulFields cfg env s.currentJob doc custom) :
    Settles cfg (s.examineFields cfg env e doc version custom) := by
  rw [CarefulFields] at hcareful
  simp only [examineFields]
  split
  · rename_i reason herror
    rw [herror] at hcareful
    have hkept := keepsType_owed h hcareful
    exact settles_iff.mpr (jobDocReject_leaves env (by exact hr) e _ _ _ hkept)
  · rename_i ft hft
    rw [hft] at hcareful
    -- The verdict does not depend on the filetype and the handler in the current job.
    have hjudge : judgeJobDoc cfg env ((s.setJob fun job =>
        { job with filetype := copiedFiletype custom }).setJob fun job =>
        { job with filetypeHandler := some ft }).currentJob ft custom doc.afr =
        judgeJobDoc cfg env s.currentJob ft custom doc.afr := rfl
    rw [hjudge]
    dsimp only at hcareful
    cases hverdict : judgeJobDoc cfg env s.currentJob ft custom doc.afr with
    | ignore =>
      rw [hverdict] at hcareful
      have hkept := keepsType_owed h hcareful
      exact settles_iff.mpr (jobDocEnd_leaves env (by exact hr) _ fun _ => hkept)
    | reject reason =>
      rw [hverdict] at hcareful
      have hkept := keepsType_owed h hcareful
      exact settles_iff.mpr (jobDocReject_leaves env (by exact hr) e _ _ _ hkept)
    | invalidFormat reason =>
      rw [hverdict] at hcareful
      dsimp only at hcareful
      apply settles_iff.mpr
      apply jobDocInvalidFormat_leaves
      · exact hr
      · intro hcb
        rw [if_pos hcb] at hcareful
        refine startCustomJob_custom hround ⟨.inr ?_, .inr ?_⟩ (hcareful.of_eq rfl rfl)
        · show copiedFiletype custom = _
          rw [copiedFiletype_of_handler hft, hparsed.filetype]
        · exact (hparsed.handlerOf hft).symm
      · intro hcb
        rw [if_neg (by rw [hcb]; decide)] at hcareful
        have hkept := keepsType_owed h hcareful
        exact hkept
    | select number afr =>
      rw [hverdict] at hcareful
      dsimp only
      split
      · exact settles_iff.mpr (jobDocEnd_leaves env (by exact hr) _ (by simp))
      · rename_i data hdata
        have hleft := hcareful (Option.isSome_iff_exists.mpr ⟨data, hdata⟩)
        exact settles_iff.mpr (jobDocEnd_leaves env (by exact hr) _ fun _ _ =>
          selectJobDoc_selected env hparsed hft hverdict hdata hleft hround)

/-- A document goes to the round, and it does not mix with another one. -/
theorem examineJobDoc_settles (hr : s.recovery.state.owes = false) (doc : JobDoc)
    (h : Owed cfg .fetchingJobDoc s)
    (hcareful : doc.wellFormed = true → CarefulDoc cfg env s.currentJob doc) :
    Settles cfg (s.examineJobDoc cfg env e doc) := by
  have hlonger : Owed cfg .fetchingJobDoc
      { s with history := { s.history with round := doc :: s.history.round } } := by
    intro hpending
    obtain ⟨d, hd, hselected⟩ := h hpending
    exact ⟨d, List.mem_cons_of_mem doc hd, hselected⟩
  simp only [examineJobDoc]
  split
  · exact settles_iff.mpr (jobDocEnd_leaves env (by exact hr) _ fun _ => hlonger)
  · rename_i hvalid
    simp only [not_or, Nat.not_lt, Bool.not_eq_false] at hvalid
    split
    · exact settles_iff.mpr (jobDocEnd_leaves env (by exact hr) _ fun _ => hlonger)
    · rename_i version hversion
      have hwell : doc.wellFormed = true := by
        rw [JobDoc.wellFormed, hversion, hvalid.2.2, decide_eq_true hvalid.2.1,
          decide_eq_true (Nat.pos_of_ne_zero hvalid.1)]
        rfl
      have hdoc := hcareful hwell
      rw [CarefulDoc] at hdoc
      split
      · rename_i hnone
        rw [hnone] at hdoc
        apply settles_iff.mpr
        apply jobDocInvalidFormat_leaves
        · exact hr
        · exact fun hcb => startCustomJob_custom List.mem_cons_self (hdoc hcb).1 (hdoc hcb).2
        · exact fun _ => hlonger
      · rename_i custom hcustom
        rw [hcustom] at hdoc
        exact examineFields_settles env e (by exact hr) doc version (.of_parse hcustom)
          List.mem_cons_self hlonger hdoc

end Ctx

/-! ### All runs -/

/-- The invariant of the runs. -/
def Chosen (cfg : Config) (s : Ctx) : Prop := Settles cfg (s, s.state)

theorem chosen_iff {s : Ctx} : Chosen cfg s ↔ (documentWatch cfg).Kept s :=
  settles_iff

section
variable {cfg : Config} {s t : Ctx}

/-- The round depends on the documents that are examined only, and the careful ones do not mix. -/
theorem documentWatch_passes {env : Env} {e : Event} (hcareful : CarefulRun cfg env s e) :
    (documentWatch cfg).Passes cfg env (documentWatch cfg) s e where
  same _ _ _ := rfl
  list payload _ hnone := by
    intro hpending
    rw [Ctx.pendingJobsToJobIdQueue_pending _ payload hnone] at hpending
    cases hpending
  ended _ h _ := h
  taken _ h _ rest _ := h
  doc d hdoc h hr := by
    have hreset : SameRound s s.retryResetBackoff := .of_eq rfl rfl rfl
    apply settles_iff.mp
    apply Ctx.examineJobDoc_settles
    · exact hr
    · exact (documentWatch cfg).fetching_same hreset h
    · obtain ⟨hstate, he⟩ := Ctx.newDoc_eq_some hdoc
      simp only [CarefulRun, hstate, he] at hcareful
      exact hcareful

/-- The invariant after one careful step. -/
theorem step_chosen {a : Action} (hs : Chosen cfg s) (hcareful : Careful cfg s a)
    (ht : step cfg s a = some t) : Chosen cfg t := by
  rw [chosen_iff] at hs ⊢
  apply Watch.step_kept hs ht
  · intro env e rest ha hqueue
    subst ha
    exact documentWatch_passes (hcareful e rest hqueue)
  · exact fun _ => rfl

theorem Chosen.initial : Chosen cfg {} := chosen_iff.mpr .initial

/-- **The job of one document.** While a selected document is followed by those of its filetype and
no field is left from another document, the job that is executed has all its fields from one
document of the round, and a custom job has no field of another document. -/
theorem one_document_of_careful (hs : Reach Initial (step cfg) (Careful cfg) s) :
    (s.state = .jobExecution → HasSelected cfg s) ∧
      (s.state = .customJobExecution → HasCustom cfg s) := by
  have hchosen : Chosen cfg s := by
    refine hs.inv (Chosen cfg) ?_ ?_
    · intro s h
      subst h
      exact .initial
    · intro s a t h hcareful ht
      exact step_chosen h hcareful ht
  have hnext : Owed cfg s.state s := hchosen.next
  constructor
  · intro hstate
    rw [hstate] at hnext
    exact hnext
  · intro hstate
    rw [hstate] at hnext
    exact hnext

end

/-! ### Rounds with two documents -/

instance (cfg : Config) (job : JobInfo) (doc : JobDoc) : Decidable (Selected cfg job doc) :=
  decidable_of_iff _
    ⟨fun h : _ ∧ _ ∧ (_ ∧ _) ∧ _ ∧ _ => ⟨h.1, h.2.1, h.2.2.1, h.2.2.2.1, h.2.2.2.2⟩,
    fun h => ⟨h.jobId, h.filetype, h.filetypeHandler, h.fwVersion, h.otaData⟩⟩

instance (cfg : Config) (job : JobInfo) (doc : JobDoc) : Decidable (TypeOf cfg job doc) :=
  decidable_of_iff _ ⟨fun h : _ ∧ _ => ⟨h.1, h.2⟩, fun h => ⟨h.filetype, h.filetypeHandler⟩⟩

instance (cfg : Config) (job : JobInfo) (doc : JobDoc) : Decidable (DataOf cfg job doc) :=
  decidable_of_iff _
    ⟨fun h : _ ∧ _ ∧ _ ∧ _ ∧ _ ∧ _ ∧ _ ∧ _ =>
      ⟨h.1, h.2.1, h.2.2.1, h.2.2.2.1, h.2.2.2.2.1, h.2.2.2.2.2.1, h.2.2.2.2.2.2.1,
        h.2.2.2.2.2.2.2⟩,
    fun h => ⟨h.version, h.filesize, h.fileId, h.streamId, h.fileSignature, h.fwVersion,
      h.fileMd5, h.metadata⟩⟩

instance (cfg : Config) (s : Ctx) : Decidable (HasSelected cfg s) := by
  unfold HasSelected
  infer_instance

instance (cfg : Config) (s : Ctx) : Decidable (HasCustom cfg s) := by
  unfold HasCustom
  infer_instance

instance (old : JobOtaData) (afr : AfrFields) (custom : CustomFields) :
    Decidable (NoLeftover old afr custom) :=
  decidable_of_iff _
    ⟨fun h : _ ∧ _ ∧ _ ∧ _ => ⟨h.1, h.2.1, h.2.2.1, h.2.2.2⟩,
    fun h => ⟨h.fileSignature, h.fwVersion, h.fileMd5, h.metadata⟩⟩

instance (job : JobInfo) (custom : CustomFields) (handler : Option FtCtx) :
    Decidable (KeepsType job custom handler) := inferInstanceAs (Decidable (_ → _ ∧ _))

instance (cfg : Config) (env : Env) (job : JobInfo) (doc : JobDoc) (custom : CustomFields) :
    Decidable (CarefulFields cfg env job doc custom) :=
  match hfind : findFiletypeHandler cfg custom with
  | .error _ => decidable_of_iff (KeepsType job custom job.filetypeHandler) (by
      rw [CarefulFields, hfind])
  | .ok ft =>
    match hjudge : judgeJobDoc cfg env job ft custom doc.afr with
    | .ignore | .reject _ => decidable_of_iff (KeepsType job custom (some ft)) (by
        simp only [CarefulFields, hfind, hjudge])
    | .invalidFormat _ =>
      decidable_of_iff (if cfg.customJobCb then DataOf cfg job doc
        else KeepsType job custom (some ft)) (by simp only [CarefulFields, hfind, hjudge])
    | .select _ afr =>
      decidable_of_iff ((setOtaData job.otaData afr custom env.copied).isSome = true →
        NoLeftover job.otaData afr custom) (by simp only [CarefulFields, hfind, hjudge])

instance (cfg : Config) (env : Env) (job : JobInfo) (doc : JobDoc) :
    Decidable (CarefulDoc cfg env job doc) :=
  match hparse : parseCustomFields cfg.timeSupport doc with
  | none => decidable_of_iff (cfg.customJobCb = true → TypeOf cfg job doc ∧ DataOf cfg job doc) (by
      rw [CarefulDoc, hparse])
  | some custom => decidable_of_iff (CarefulFields cfg env job doc custom) (by
      rw [CarefulDoc, hparse])

/-- The document that an event brings. -/
def document : Event → Option JobDoc
  | .jobDocAccepted doc => doc
  | _ => none

theorem eq_of_document {e : Event} (h : doc ∈ document e) : e = .jobDocAccepted (some doc) := by
  cases e with
  | jobDocAccepted accepted =>
    obtain rfl : accepted = some doc := h
    rfl
  | _ => cases h

theorem carefulRun_iff {env : Env} {s : Ctx} {e : Event} :
    CarefulRun cfg env s e ↔ (s.state = .jobDocReceived →
      ∀ doc ∈ document e, doc.wellFormed = true → CarefulDoc cfg env s.currentJob doc) := by
  unfold CarefulRun
  split
  · rename_i doc hstate
    simp [hstate, document]
  · rename_i hother
    refine iff_of_true trivial ?_
    intro hstate doc hdoc
    exact (hother doc hstate (eq_of_document hdoc)).elim

instance (cfg : Config) (env : Env) (s : Ctx) (e : Event) :
    Decidable (CarefulRun cfg env s e) := decidable_of_iff _ carefulRun_iff.symm

instance (cfg : Config) (s : Ctx) : ∀ a, Decidable (Careful cfg s a)
  | .run env => match hqueue : s.queue with
    | [] => .isTrue (by simp [Careful, hqueue])
    | e :: _ => decidable_of_iff (CarefulRun cfg env s e) (by simp [Careful, hqueue])
  | .post _ _ | .response .. | .retryTimer _ _ | .backoffTimer _ _ | .requestRecovery _
  | .subscribed _ _ _ _ | .reportStatus _ _ _ _ => .isTrue trivial

/-- The ids of the two documents of a round. -/
def firstJob : CStr := .ofChars ['a']
def secondJob : CStr := .ofChars ['b']

/-- A document with a firmware image. -/
def imageDoc (jobId : CStr) (fields : RmngFields) : JobDoc where
  jobId := jobId
  rmngOta := some fields
  afr := some { fileSize := 10, imageRef := ['s'] }

/-- A round with two documents up to the first run after it. -/
def fetchRound (first second : JobDoc) : List Action :=
  [.run {}, .run {}, .post .fetchRequested true, .run {}, .run {},
    .post (.pendingJobsAccepted (some { queued := [first.jobId, second.jobId] })) true, .run {},
    .run {}, .run {}, .post (.jobDocAccepted (some first)) true, .run {}, .run {}, .run {},
    .post (.jobDocAccepted (some second)) true, .run {}, .run {}, .run {}]

/-- The second document has a lower version, so the first one is executed. -/
theorem fetchRound_one_document : ∃ s : Ctx,
    exec (step {}) {} (fetchRound (imageDoc firstJob { fwVersion := "2.1".toList })
      (imageDoc secondJob { fwVersion := "2.0".toList })) = some s ∧
      s.state = .jobExecution ∧ HasSelected {} s := by
  have hrun : Reach Initial (step {}) (Careful {}) _ :=
    Reach.exec (fetchRound (imageDoc firstJob { fwVersion := "2.1".toList })
      (imageDoc secondJob { fwVersion := "2.0".toList })) (.start rfl) (by decide +kernel) rfl
  have hstate : JobState.jobExecution = .jobExecution := rfl
  exact ⟨_, rfl, rfl, (one_document_of_careful hrun).1 hstate⟩

/-- The application has a handler for each filetype, whose versions are all 0. -/
def typeConfig : Config where
  filetypeHandlerLookup := some fun _ => some { id := 1 }
  versionToUint32 := fun _ _ => some 0

/-- A rejected document leaves its filetype and its handler to the selected one. A selected document
without an MD5 has that of the one before. A custom job has the image of a selected document. -/
theorem mixed_documents :
    (∃ s : Ctx, Reach Initial (step typeConfig) (fun _ _ => True) s ∧
      s.state = .jobExecution ∧ ¬HasSelected typeConfig s) ∧
    (∃ s : Ctx, Reach Initial (step {}) (fun _ _ => True) s ∧
      s.state = .jobExecution ∧ ¬HasSelected {} s) ∧
    ∃ s : Ctx, Reach Initial (step {}) (fun _ _ => True) s ∧
      s.state = .customJobExecution ∧ ¬HasCustom {} s := by
  refine ⟨⟨_, Reach.exec_true (fetchRound (imageDoc firstJob { fwVersion := "2.0".toList })
      (imageDoc secondJob { fwVersion := ['1'], filetype := ['x'] })) (.start rfl) rfl, rfl, ?_⟩,
    ⟨_, Reach.exec_true (fetchRound (imageDoc firstJob
        { fwVersion := "2.0".toList, fileMd5 := ['m'] })
      (imageDoc secondJob { fwVersion := "3.0".toList })) (.start rfl) rfl, rfl, ?_⟩,
    ⟨_, Reach.exec_true (fetchRound (imageDoc firstJob { fwVersion := "2.0".toList })
      { jobId := secondJob }) (.start rfl) rfl, rfl, ?_⟩⟩
  · decide +kernel
  · decide +kernel
  · decide +kernel

end RainMakerNeo.Ota.Jobs
