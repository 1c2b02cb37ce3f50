import RainMakerNeo.Ota.Downloader

/-!
# `RainMakerNeo.Ota.DownloaderSteps`: what one task of the downloader can do

The block requests, the retries and the timers do not touch the blocks. `Downloader.Keeps`
collects the fields that they leave alone, and `TaskOutcome` says what a task does to the rest:
it refuses the message, or it opens the target and the write does not happen, or it writes and
marks one block. `run_outcome` is the one place where the functions of the downloader are
unfolded.
-/

set_option autoImplicit false

namespace RainMakerNeo.Ota

open RainMakerNeo.Lib (Cells cellCount)

/-- The fields that the block requests leave alone. -/
structure Downloader.Keeps (d d' : Downloader) : Prop where
  otaData : d'.otaData = d.otaData
  imageHandler : d'.imageHandler = d.imageHandler
  bitmap : d'.bitmap = d.bitmap
  resumeEnabled : d'.resumeEnabled = d.resumeEnabled
  resumePending : d'.resumePending = d.resumePending
  resumeDesc : d'.resumeDesc = d.resumeDesc

theorem Downloader.Keeps.refl (d : Downloader) : d.Keeps d := ⟨rfl, rfl, rfl, rfl, rfl, rfl⟩

variable {d : Downloader} {r : TaskResult}

theorem Downloader.Keeps.trans {d' d'' : Downloader} (h : d.Keeps d') (h' : d'.Keeps d'') :
    d.Keeps d'' where
  otaData := h'.otaData.trans h.otaData
  imageHandler := h'.imageHandler.trans h.imageHandler
  bitmap := h'.bitmap.trans h.bitmap
  resumeEnabled := h'.resumeEnabled.trans h.resumeEnabled
  resumePending := h'.resumePending.trans h.resumePending
  resumeDesc := h'.resumeDesc.trans h.resumeDesc

/-- A block message passes the checks: it is for the file of the job, its length is the one it
declares, and its block is in range and missing. -/
def Downloader.Admits (d : Downloader) (block : DataBlock) : Prop :=
  (0 ≤ block.fileId ∧ block.fileId.toUInt32 = d.otaData.fileId) ∧
    UInt32.ofNat block.dataLength = block.blockSize.toUInt32 ∧
      (0 ≤ block.blockId ∧ block.blockId.toInt.toNat < d.bitmap.blockCount) ∧
        d.bitmap.isProcessed block.blockId.toInt.toNat = false

instance (d : Downloader) (block : DataBlock) : Decidable (d.Admits block) := by
  rw [Downloader.Admits]
  infer_instance

/-- What `Downloader.openTarget` can do. -/
inductive Downloader.OpensTarget (cfg : DownloaderConfig) (d : Downloader) (env : OpenEnv) :
    Bool × ImageHandlerCtx × List Effect → Prop
  | already (h : d.imageHandler.handle = true) :
      d.OpensTarget cfg env (true, d.imageHandler, [])
  | opens (h : d.imageHandler.handle = false) {result : Bool × ImageHandlerCtx × List Effect}
      (hopens : Opens cfg.signatureVerify d.otaData d.resumePending env result) :
      d.OpensTarget cfg env result

theorem Downloader.openTarget_opens (cfg : DownloaderConfig) (d : Downloader) (env : OpenEnv) :
    d.OpensTarget cfg env (d.openTarget cfg env) := by
  rw [openTarget]
  split
  · rename_i h
    exact .already h
  · rename_i h
    have hfalse := Bool.eq_false_iff.mpr h
    exact .opens hfalse (imageHandlerBegin_opens _ _ _ _ hfalse)

/-- The context after the target was opened and block `blockId` was written and marked. -/
def Downloader.mark (d : Downloader) (handler : ImageHandlerCtx) (blockId : Nat) : Downloader :=
  { d with imageHandler := handler, bitmap := d.bitmap.setProcessed blockId }

/-- A task that reports no success leaves a context that keeps the fields of `d`. -/
structure TaskResult.Leaves (r : TaskResult) (d : Downloader) (effects : List Effect) :
    Prop where
  effects : r.effects = effects
  report : r.report ≠ some .success
  keeps : ∀ d', r.downloader = some d' → d.Keeps d'

/-- What a task of an active download can do. -/
inductive TaskOutcome (cfg : DownloaderConfig) (d : Downloader) : DownloadTask → TaskResult → Prop
  /-- The task is an expired block request or a message that is refused. -/
  | refused {task : DownloadTask} {r : TaskResult}
      (hrefused : ∀ block env, task = .block (some block) env → ¬d.Admits block)
      (hleaves : r.Leaves d []) : TaskOutcome cfg d task r
  /-- The target could not be opened, or the write did not happen. -/
  | unwritten {block : DataBlock} {env : BlockEnv} {r : TaskResult} (hadmits : d.Admits block)
      (opened : Bool) (handler : ImageHandlerCtx) (effects : List Effect)
      (hopens : d.OpensTarget cfg env.opening (opened, handler, effects))
      (hunwritten : opened = true → ¬(handler.handle = true ∧ 0 < block.dataLength ∧
        block.blockId.toInt.toNat * cfg.blockSize + block.dataLength ≤ handler.imageSize ∧
          env.written = true))
      (hleaves : r.Leaves { d with imageHandler := handler } effects) :
      TaskOutcome cfg d (.block (some block) env) r
  /-- The block was written, and blocks are still missing. -/
  | written {block : DataBlock} {env : BlockEnv} {r : TaskResult} (hadmits : d.Admits block)
      (handler : ImageHandlerCtx) (effects saved : List Effect)
      (hopens : d.OpensTarget cfg env.opening (true, handler, effects))
      (hwritten : handler.handle = true ∧ 0 < block.dataLength ∧
        block.blockId.toInt.toNat * cfg.blockSize + block.dataLength ≤ handler.imageSize ∧
          env.written = true)
      (hsaved : saved = [] ∨
        saved = resumePersist (d.mark handler block.blockId.toInt.toNat) env.success.save)
      (hleaves : r.Leaves (d.mark handler block.blockId.toInt.toNat)
        (effects ++ [.wrote (block.blockId.toInt.toNat * cfg.blockSize) block.dataLength] ++
          saved)) :
      TaskOutcome cfg d (.block (some block) env) r
  /-- The last missing block was written. -/
  | complete {block : DataBlock} {env : BlockEnv} {r : TaskResult} (hadmits : d.Admits block)
      (handler : ImageHandlerCtx) (effects cleared : List Effect)
      (hopens : d.OpensTarget cfg env.opening (true, handler, effects))
      (hwritten : handler.handle = true ∧ 0 < block.dataLength ∧
        block.blockId.toInt.toNat * cfg.blockSize + block.dataLength ≤ handler.imageSize ∧
          env.written = true)
      (hcomplete :
        (d.mark handler block.blockId.toInt.toNat).bitmap.unprocessedBlockCount = 0)
      (hcleared : cleared = [] ∨ cleared = [.erasedDesc, .erasedData])
      (heffects : r.effects =
        effects ++ [.wrote (block.blockId.toInt.toNat * cfg.blockSize) block.dataLength] ++
          cleared)
      (hdone : r.downloader = none) : TaskOutcome cfg d (.block (some block) env) r

/-! ### The block requests -/

/-- A task that keeps the context. -/
theorem leaves_self (d : Downloader) (effects : List Effect) :
    TaskResult.Leaves { downloader := some d, effects } d effects :=
  ⟨rfl, by simp, fun _ h => Option.some.inj h ▸ .refl d⟩

theorem blockRequestSendNext_keeps (d : Downloader) (env : SendEnv) :
    d.Keeps (blockRequestSendNext d env).2 := by
  rw [blockRequestSendNext]
  split
  · exact .refl d
  · cases env.encoded <;> exact ⟨rfl, rfl, rfl, rfl, rfl, rfl⟩

theorem blockRequestOnFailure_leaves (cfg : DownloaderConfig) (d : Downloader) (env : SendEnv) :
    (blockRequestOnFailure cfg d env).Leaves d [] := by
  simp only [blockRequestOnFailure]
  split
  · exact leaves_self d []
  · split
    · exact leaves_self d []
    · split
      · exact ⟨rfl, by simp [reportAndCleanup], fun d' h => by cases h⟩
      · refine ⟨rfl, by simp, ?_⟩
        intro d' h
        rw [← Option.some.inj h]
        -- The flags and the retry count are not among the fields.
        refine .trans ?_ (blockRequestSendNext_keeps _ env)
        exact ⟨rfl, rfl, rfl, rfl, rfl, rfl⟩

/-- The failure task after a step of the block task adds no effect. -/
theorem thenFailure_leaves (cfg : DownloaderConfig) (env : SendEnv) {effects : List Effect}
    (h : r.Leaves d effects) : (r.thenFailure cfg env).Leaves d effects := by
  rw [TaskResult.thenFailure]
  cases hd : r.downloader with
  | none => exact h
  | some d' =>
    have hfailure := blockRequestOnFailure_leaves cfg d' env
    refine ⟨?_, hfailure.report, ?_⟩
    · show r.effects ++ (blockRequestOnFailure cfg d' env).effects = effects
      rw [hfailure.effects, List.append_nil]
      exact h.effects
    · intro d'' hd''
      exact (h.keeps d' hd).trans (hfailure.keeps d'' hd'')

/-- While blocks are missing, the success handler at most saves the tracker. -/
theorem blockRequestOnSuccess_leaves (cfg : DownloaderConfig) (env : SuccessEnv)
    (h : d.bitmap.unprocessedBlockCount ≠ 0) :
    ∃ saved, (saved = [] ∨ saved = resumePersist d env.save) ∧
      (blockRequestOnSuccess cfg d env).2.Leaves d saved := by
  simp only [blockRequestOnSuccess, if_neg h]
  generalize hcount : (if d.request.blockCount = 0 then 2 ^ 32 - 1
    else d.request.blockCount - 1) = blockCount
  have hkeep : TaskResult.Leaves
      { downloader := some { d with request := { d.request with blockCount } } } d [] := by
    refine ⟨rfl, by simp, ?_⟩
    intro d' hd'
    rw [← Option.some.inj hd']
    exact ⟨rfl, rfl, rfl, rfl, rfl, rfl⟩
  split
  · exact ⟨[], .inl rfl, hkeep⟩
  · split
    · exact ⟨[], .inl rfl, hkeep⟩
    · refine ⟨if cfg.resume then resumePersist d env.save else [], ?_, ?_, by simp, ?_⟩
      · cases cfg.resume with
        | true => exact .inr rfl
        | false => exact .inl rfl
      · rfl
      · intro d' hd'
        rw [← Option.some.inj hd']
        refine .trans ?_ (blockRequestSendNext_keeps _ env.send)
        exact ⟨rfl, rfl, rfl, rfl, rfl, rfl⟩

/-! ### The block task -/

/-- Effects put in front. -/
theorem TaskResult.Leaves.prepend {effects : List Effect} (h : r.Leaves d effects)
    (before : List Effect) :
    TaskResult.Leaves { r with effects := before ++ r.effects } d (before ++ effects) :=
  ⟨congrArg (before ++ ·) h.effects, h.report, h.keeps⟩

theorem acceptBlock_outcome (cfg : DownloaderConfig) {block : DataBlock} (env : BlockEnv)
    (hadmits : d.Admits block) :
    TaskOutcome cfg d (.block (some block) env)
      (acceptBlock cfg d block.blockId.toInt.toNat block.dataLength env) := by
  have hopens := d.openTarget_opens cfg env.opening
  simp only [acceptBlock]
  generalize hopening : d.openTarget cfg env.opening = opening at hopens ⊢
  obtain ⟨opened, handler, effects⟩ := opening
  cases opened with
  | false =>
    refine .unwritten hadmits false handler effects hopens (fun h => by cases h) ?_
    exact thenFailure_leaves cfg env.failure (leaves_self _ effects)
  | true =>
    rcases imageHandlerWriteChunk_cases handler block.dataLength
      (block.blockId.toInt.toNat * cfg.blockSize) env.written with ⟨hchunk, hwritten⟩ | ⟨hchunk, hno⟩
    · simp only [hchunk, if_true]
      -- The write happened. The counter decides between the end and the next request.
      by_cases hcomplete :
          (d.mark handler block.blockId.toInt.toNat).bitmap.unprocessedBlockCount = 0
      · have hsuccess : blockRequestOnSuccess cfg (d.mark handler block.blockId.toInt.toNat)
            env.success = (true, reportAndCleanup cfg .success env.success.cleared) := by
          rw [blockRequestOnSuccess, if_pos hcomplete]
        rw [Downloader.mark] at hsuccess
        simp only [hsuccess, if_true]
        refine .complete hadmits handler effects _ hopens hwritten hcomplete ?_ rfl rfl
        simp only [reportAndCleanup, nvsResumeClear]
        split
        · split
          · exact .inr rfl
          · exact .inl rfl
        · exact .inl rfl
      · obtain ⟨saved, hsaved, hleaves⟩ := blockRequestOnSuccess_leaves cfg env.success hcomplete
        refine .written hadmits handler effects saved hopens hwritten hsaved ?_
        have hprepended := hleaves.prepend
          (effects ++ [.wrote (block.blockId.toInt.toNat * cfg.blockSize) block.dataLength])
        split
        · exact hprepended
        · exact thenFailure_leaves cfg env.failure hprepended
    · simp only [hchunk, if_true, Bool.false_eq_true, if_false, List.append_nil]
      refine .unwritten hadmits true handler effects hopens (fun _ => hno) ?_
      exact thenFailure_leaves cfg env.failure (leaves_self _ effects)

/-- **One task.** Each task of an active download has one of the four outcomes. -/
theorem run_outcome (cfg : DownloaderConfig) (d : Downloader) (task : DownloadTask) :
    TaskOutcome cfg d task (d.run cfg task) := by
  cases task with
  | requestTimeout env =>
    exact .refused (fun block env h => by cases h) (blockRequestOnFailure_leaves cfg d env)
  | block message env =>
    have hfailure := thenFailure_leaves cfg env.failure (leaves_self d [])
    simp only [Downloader.run, writeChunk]
    cases message with
    | none => exact .refused (fun block env h => by cases h) hfailure
    | some block =>
      -- A check that fails contradicts its part of `Admits`.
      have hrefused (hno : ¬d.Admits block) : ∀ block' env',
          DownloadTask.block (some block) env = .block (some block') env' → ¬d.Admits block' := by
        intro block' env' h
        cases h
        exact hno
      simp only
      split
      · rename_i hfile
        refine .refused (hrefused ?_) (leaves_self d [])
        rintro ⟨⟨hge, heq⟩, -⟩
        rcases hfile with hlt | hne
        · exact Int32.not_lt.mpr hge hlt
        · exact hne heq
      · rename_i hfile
        split
        · rename_i hlength
          exact .refused (hrefused fun h => hlength h.2.1) hfailure
        · rename_i hlength
          split
          · rename_i hrange
            refine .refused (hrefused ?_) hfailure
            rintro ⟨-, -, ⟨hge, hlt⟩, -⟩
            rcases hrange with hneg | hle
            · exact Int32.not_lt.mpr hge hneg
            · omega
          · rename_i hrange
            split
            · rename_i hprocessed
              refine .refused (hrefused ?_) (leaves_self d [])
              intro h
              rw [h.2.2.2] at hprocessed
              cases hprocessed
            · rename_i hprocessed
              push Not at hlength
              rw [not_or, Int32.not_lt, not_not] at hfile
              rw [not_or, Int32.not_lt, Nat.not_le] at hrange
              exact acceptBlock_outcome cfg env
                ⟨hfile, hlength, hrange, Bool.eq_false_iff.mpr hprocessed⟩

/-! ### Full blocks -/

/-- The number of bytes of block `id`. Only the last block can be short. -/
def blockLength (cfg : DownloaderConfig) (filesize id : Nat) : Nat :=
  min cfg.blockSize (filesize - id * cfg.blockSize)

/-- The target has a handle once the block task has opened it. -/
def Downloader.HandleSet (cfg : DownloaderConfig) (d : Downloader) (env : OpenEnv) : Prop :=
  d.imageHandler.handle = true ∨
    (env.Prepared cfg.signatureVerify d.otaData ∧
      if d.resumePending && env.resumes then env.resume.any OpenAnswer.handle = true
      else env.fresh.ok = true ∧ env.fresh.handle = true)

/-- A block that is written has the length of its block in the file. -/
def Downloader.WritesFullBlock (cfg : DownloaderConfig) (d : Downloader) (block : DataBlock)
    (env : BlockEnv) : Prop :=
  d.HandleSet cfg env.opening → 0 < block.dataLength →
    block.blockId.toInt.toNat * cfg.blockSize + block.dataLength ≤ d.otaData.filesize →
      env.written = true →
        block.dataLength = blockLength cfg d.otaData.filesize block.blockId.toInt.toNat

instance (cfg : DownloaderConfig) (d : Downloader) (env : OpenEnv) :
    Decidable (d.HandleSet cfg env) := by
  rw [Downloader.HandleSet]
  infer_instance

instance (cfg : DownloaderConfig) (d : Downloader) (block : DataBlock) (env : BlockEnv) :
    Decidable (d.WritesFullBlock cfg block env) := by
  rw [Downloader.WritesFullBlock]
  infer_instance

variable {cfg : DownloaderConfig}

/-- A target that was opened has a handle exactly when the predicate says so. -/
theorem Downloader.OpensTarget.handleSet_iff {env : OpenEnv} {opened : Bool}
    {handler : ImageHandlerCtx} {opening : List Effect}
    (h : d.OpensTarget cfg env (opened, handler, opening)) :
    d.HandleSet cfg env ↔ opened = true ∧ handler.handle = true := by
  cases h with
  | already hhandle => simp [HandleSet, hhandle]
  | opens hclosed hopens =>
    cases hopens with
    | resumed _ hprepared _ hresume hresumes hhandle =>
      simp [HandleSet, hclosed, hprepared, hresume, hresumes, hhandle]
    | begun _ hprepared _ hresume hok hhandle =>
      cases hpending : d.resumePending with
      | false => simp [HandleSet, hclosed, hprepared, hpending, hok, hhandle]
      | true => simp [HandleSet, hclosed, hprepared, hpending, hresume hpending, hok, hhandle]
    | erased _ hprepared hhandle hresume hok =>
      cases hpending : d.resumePending with
      | false => simp [HandleSet, hclosed, hpending, hok]
      | true => simp [HandleSet, hclosed, hpending, hresume hpending, hok]
    | unopened _ hprepared hhandle hresume hok =>
      cases hpending : d.resumePending with
      | false => simp [HandleSet, hclosed, hpending, hok]
      | true => simp [HandleSet, hclosed, hpending, hresume hpending, hok]
    | unprepared _ hprepared => simp [HandleSet, hclosed, hprepared]

/-! ### The start -/

/-- What the resume attempt at the start can do to the fresh context `d`. -/
inductive ResumeOutcome (cfg : DownloaderConfig) (store : ResumeStore) (d : Downloader) :
    Downloader × List Effect → Prop
  | disabled : ResumeOutcome cfg store d (d, [])
  | fresh {fileMd5 : List Char} (hmd5 : nonEmpty d.otaData.fileMd5 = some fileMd5)
      {effects : List Effect} (heffects : effects = [] ∨ effects = [.erasedDesc, .erasedData]) :
      ResumeOutcome cfg store d
        ({ d with
            resumeEnabled := true
            resumeDesc := some (resumeBuildDesc cfg d.otaData.filesize fileMd5) }, effects)
  | overlaid {fileMd5 : List Char} (hmd5 : nonEmpty d.otaData.fileMd5 = some fileMd5)
      {tracker : Cells}
      (hdesc : store.desc = some (resumeBuildDesc cfg d.otaData.filesize fileMd5))
      (hdata : store.data = some tracker) (hlength : tracker.length = cellCount d.bitmap.blockCount)
      (huseful : (d.bitmap.overlay tracker hlength).unprocessedBlockCount ≠ d.bitmap.blockCount) :
      ResumeOutcome cfg store d
        ({ d with
            resumeEnabled := true
            resumeDesc := some (resumeBuildDesc cfg d.otaData.filesize fileMd5)
            bitmap := d.bitmap.overlay tracker hlength
            resumePending := true }, [])

theorem resumeAttempt_outcome (cfg : DownloaderConfig) (store : ResumeStore) (env : AttemptEnv)
    (d : Downloader) : ResumeOutcome cfg store d (resumeAttempt cfg store env d) := by
  have hclear : nvsResumeClear env.cleared = [] ∨
      nvsResumeClear env.cleared = [.erasedDesc, .erasedData] := by
    cases env.cleared with
    | true => exact .inr rfl
    | false => exact .inl rfl
  rw [resumeAttempt]
  split
  · exact .disabled
  · rename_i fileMd5 hmd5
    simp only
    split
    · exact .fresh hmd5 (.inl rfl)
    · rename_i loaded tracker hload
      split
      · rename_i hmatch
        split
        · exact .fresh hmd5 hclear
        · rename_i huseful
          -- The loaded descriptor is the one of the job, and both keys were there.
          have hloaded := (nvsResumeMatches_iff rfl).mp hmatch.1
          have hstore : store.desc = some loaded ∧ store.data = some tracker := by
            rw [nvsResumeLoad] at hload
            split at hload
            · split at hload
              · rename_i hdesc hdata
                cases hload
                exact ⟨hdesc, hdata⟩
              · cases hload
            · cases hload
          exact .overlaid hmd5 (hloaded ▸ hstore.1) hstore.2 hmatch.2
            (fun hcount => huseful (.inr hcount))
      · exact .fresh hmd5 hclear

/-- What comes after the resume attempt adds no effect. -/
theorem startDownload_outcome (cfg : DownloaderConfig) (attempt : Downloader × List Effect)
    (env : StartEnv) : (startDownload cfg attempt env).effects = attempt.2 ∧
      ∀ d, (startDownload cfg attempt env).downloader = some d →
        attempt.1.Keeps d ∧ (startDownload cfg attempt env).report = none := by
  rw [startDownload]
  split
  · exact ⟨rfl, fun d hd => by cases hd⟩
  · split
    · exact ⟨rfl, fun d hd => by cases hd⟩
    · refine ⟨rfl, ?_⟩
      intro d hd
      simp only at hd
      split at hd
      · rw [← Option.some.inj hd]
        exact ⟨blockRequestSendNext_keeps attempt.1 env.send, rfl⟩
      · cases hd

/-- What `esp_rmaker_ota_mqtt_cb` can do: nothing, or the resume attempt on a fresh context. A
download that has started keeps what the attempt left. -/
theorem otaMqttCb_outcome {store : ResumeStore} {otaData : OtaData} {env : StartEnv}
    (hstart : otaMqttCb cfg store otaData env = some r) :
    (r.downloader = none ∧ r.effects = []) ∨
      ∃ bitmap attempt,
        DownloaderBitmap.init ((otaData.filesize + cfg.blockSize - 1) / cfg.blockSize) =
            some bitmap ∧
          ResumeOutcome cfg store (freshDownloader cfg otaData bitmap) attempt ∧
            r.effects = attempt.2 ∧
              ∀ d, r.downloader = some d → attempt.1.Keeps d ∧ r.report = none := by
  obtain ⟨blocks, hblocks, rfl⟩ := Option.map_eq_some_iff.mp hstart
  have hcount : blocks = (otaData.filesize + cfg.blockSize - 1) / cfg.blockSize := by
    rw [totalBlocks] at hblocks
    split at hblocks
    · exact (Option.some.inj hblocks).symm
    · cases hblocks
  cases hinit : DownloaderBitmap.init blocks with
  | none => exact .inl ⟨rfl, rfl⟩
  | some bitmap =>
    simp only
    split
    · refine .inr ⟨bitmap, _, hcount ▸ hinit, ?_, startDownload_outcome cfg _ env⟩
      cases cfg.resume with
      | true => exact resumeAttempt_outcome cfg store env.attempt _
      | false => exact .disabled
    · exact .inl ⟨rfl, rfl⟩

end RainMakerNeo.Ota
