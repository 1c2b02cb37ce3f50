import RainMakerNeo.Lib.Run
import RainMakerNeo.Ota.DownloaderSteps

/-!
# `RainMakerNeo.Ota.Coverage`: what a successful download has written

The downloader reports `success` when its counter of missing blocks is zero. The counter knows
neither how long the written blocks were nor whether the target was erased after the stored
tracker was laid over the bitmap. `success_covers_iff` says when a success means that every byte
of the file is on the target.

The proof separates what always holds of a download from what can go wrong. `Trace` ties the
bitmap to the effects on the target and holds after any tasks. `Intact` says that each write had
the full length and that no retained block was erased. Nothing repairs an effect that is not
intact, so at a success the blocks are covered exactly when every task kept the coverage.
-/

set_option autoImplicit false

namespace RainMakerNeo.Ota

open RainMakerNeo.Lib (exec execGuard)

/-! ### Covered blocks -/

/-- `size` bytes were written at `offset`, and the target was not erased after that. -/
def WrittenSinceBegin (effects : List Effect) (offset size : Nat) : Prop :=
  ∃ before after, effects = before ++ .wrote offset size :: after ∧ .begun ∉ after

/-- A resume retained what was on the target at the start, and the target was not erased. -/
def Retained (effects : List Effect) : Prop := .resumed ∈ effects ∧ .begun ∉ effects

/-- Block `id` of a download that started with the context `d₀` is on the target after the
effects: it was written in full, or the stored tracker had it and a resume retained it. -/
def Covered (cfg : DownloaderConfig) (d₀ : Downloader) (effects : List Effect) (id : Nat) : Prop :=
  WrittenSinceBegin effects (id * cfg.blockSize) (blockLength cfg d₀.otaData.filesize id) ∨
    (d₀.bitmap.isProcessed id = true ∧ Retained effects)

/-- One more task of a running download, with the effects since the start. -/
def TaskResult.step (cfg : DownloaderConfig) (r : TaskResult) (task : DownloadTask) :
    Option TaskResult :=
  r.downloader.map fun d =>
    let next := d.run cfg task
    { next with effects := r.effects ++ next.effects }

/-! ### The condition -/

/-- The block task does not lose what a stored tracker stands for: when it opens the target of a
resumed download, the resume callback succeeds, or the fresh begin neither succeeds nor erases
the target. -/
def Downloader.ReopensRetained (cfg : DownloaderConfig) (d : Downloader) (env : OpenEnv) : Prop :=
  d.imageHandler.handle = false → d.resumePending = true →
    env.Prepared cfg.signatureVerify d.otaData →
      env.resumes = true ∨ (env.fresh.ok = false ∧ env.fresh.erased = false)

/-- The condition of one task. It is about messages that pass the checks only. -/
def Downloader.KeepsCoverage (cfg : DownloaderConfig) (d : Downloader) : DownloadTask → Prop
  | .block (some block) env =>
    d.Admits block → d.ReopensRetained cfg env.opening ∧ d.WritesFullBlock cfg block env
  | .block none _ => True
  | .requestTimeout _ => True

/-- The condition of one task of a running download. -/
def TaskResult.KeepsCoverage (cfg : DownloaderConfig) (r : TaskResult) (task : DownloadTask) :
    Prop :=
  match r.downloader with
  | none => True
  | some d => d.KeepsCoverage cfg task

instance (cfg : DownloaderConfig) (d : Downloader) (env : OpenEnv) :
    Decidable (d.ReopensRetained cfg env) := by
  rw [Downloader.ReopensRetained]
  infer_instance

instance (cfg : DownloaderConfig) (r : TaskResult) (task : DownloadTask) :
    Decidable (r.KeepsCoverage cfg task) :=
  match hr : r.downloader, task with
  | none, _ => isTrue (by rw [TaskResult.KeepsCoverage, hr]; trivial)
  | some d, .block (some block) env =>
    decidable_of_iff
      (d.Admits block → d.ReopensRetained cfg env.opening ∧ d.WritesFullBlock cfg block env)
      (by rw [TaskResult.KeepsCoverage, hr]; rfl)
  | some _, .block none _ => isTrue (by rw [TaskResult.KeepsCoverage, hr]; trivial)
  | some _, .requestTimeout _ => isTrue (by rw [TaskResult.KeepsCoverage, hr]; trivial)

/-! ### What the bitmap says about the effects -/

/-- An effect on the stored tracker only. -/
def Effect.OnStore : Effect → Prop
  | .savedData _ | .savedDesc _ | .erasedDesc | .erasedData => True
  | .begun | .resumed | .wrote .. => False

/-- What holds of a download that started with `d₀`, now has the context `d` and had the effects
on the storage. -/
structure Trace (cfg : DownloaderConfig) (d₀ d : Downloader) (effects : List Effect) : Prop where
  otaData : d.otaData = d₀.otaData
  blockCount : d.bitmap.blockCount = d₀.bitmap.blockCount
  resumePending : d.resumePending = d₀.resumePending
  size : d.imageHandler.handle = true → d.imageHandler.imageSize = d₀.otaData.filesize
  opened : d.imageHandler.handle = true → .begun ∈ effects ∨ .resumed ∈ effects
  closed : d.imageHandler.handle = false → ∀ offset size, .wrote offset size ∉ effects
  order : ∃ before after, effects = before ++ after ∧
    (∀ offset size, .wrote offset size ∉ before) ∧ .begun ∉ after
  processed : ∀ id, d.bitmap.isProcessed id = true ↔
    d₀.bitmap.isProcessed id = true ∨ ∃ size, .wrote (id * cfg.blockSize) size ∈ effects
  writes : ∀ offset size, .wrote offset size ∈ effects →
    ∃ id, offset = id * cfg.blockSize ∧ d₀.bitmap.isProcessed id = false
  single : ∀ offset size size', .wrote offset size ∈ effects → .wrote offset size' ∈ effects →
    size = size'

/-- Each write had the length of its block, and what a tracker stands for was not erased. -/
def Intact (cfg : DownloaderConfig) (d₀ : Downloader) (effects : List Effect) : Prop :=
  (∀ id size, .wrote (id * cfg.blockSize) size ∈ effects →
    size = blockLength cfg d₀.otaData.filesize id) ∧
    (d₀.resumePending = true → .begun ∉ effects)

section Trace

variable {cfg : DownloaderConfig} {d₀ d : Downloader} {effects : List Effect}

/-- Different blocks have different offsets. -/
theorem blockSize_mul_inj (cfg : DownloaderConfig) {i j : Nat}
    (h : i * cfg.blockSize = j * cfg.blockSize) : i = j := by
  have hpos := cfg.blockSize_ge
  exact Nat.eq_of_mul_eq_mul_right (by omega) h

theorem Trace.keeps (h : Trace cfg d₀ d effects) {d' : Downloader} (hk : d.Keeps d') :
    Trace cfg d₀ d' effects where
  otaData := hk.otaData.trans h.otaData
  blockCount := by rw [hk.bitmap, h.blockCount]
  resumePending := hk.resumePending.trans h.resumePending
  size := by rw [hk.imageHandler]; exact h.size
  opened := by rw [hk.imageHandler]; exact h.opened
  closed := by rw [hk.imageHandler]; exact h.closed
  order := h.order
  processed := by rw [hk.bitmap]; exact h.processed
  writes := h.writes
  single := h.single

/-- Effects on the stored tracker change nothing about the blocks. -/
theorem Trace.store (h : Trace cfg d₀ d effects) {saved : List Effect}
    (hs : ∀ effect ∈ saved, effect.OnStore) : Trace cfg d₀ d (effects ++ saved) := by
  have hno (effect : Effect) (hoff : ¬effect.OnStore) :
      effect ∈ effects ++ saved ↔ effect ∈ effects := by
    rw [List.mem_append]
    exact or_iff_left fun hmem => hoff (hs effect hmem)
  have hwrote (offset size : Nat) :
      Effect.wrote offset size ∈ effects ++ saved ↔ .wrote offset size ∈ effects :=
    hno _ fun hoff => hoff
  obtain ⟨before, after, heffects, hbefore, hafter⟩ := h.order
  refine ⟨h.otaData, h.blockCount, h.resumePending, h.size, ?_, ?_, ?_, ?_, ?_, ?_⟩
  · rw [hno .begun (fun hoff => hoff), hno .resumed (fun hoff => hoff)]
    exact h.opened
  · simp only [hwrote]
    exact h.closed
  · refine ⟨before, after ++ saved, by rw [heffects, List.append_assoc], hbefore, ?_⟩
    intro hmem
    rcases List.mem_append.mp hmem with hafter' | hsaved
    · exact hafter hafter'
    · exact hs _ hsaved
  · simp only [hwrote]
    exact h.processed
  · simp only [hwrote]
    exact h.writes
  · simp only [hwrote]
    exact h.single

theorem intact_store {saved : List Effect} (hs : ∀ effect ∈ saved, effect.OnStore) :
    Intact cfg d₀ (effects ++ saved) ↔ Intact cfg d₀ effects := by
  have hno (effect : Effect) (hoff : ¬effect.OnStore) :
      effect ∈ effects ++ saved ↔ effect ∈ effects := by
    rw [List.mem_append]
    exact or_iff_left fun hmem => hoff (hs effect hmem)
  rw [Intact, Intact, hno .begun (fun hoff => hoff)]
  have hwrote (id size : Nat) : Effect.wrote (id * cfg.blockSize) size ∈ effects ++ saved ↔
      .wrote (id * cfg.blockSize) size ∈ effects := hno _ fun hoff => hoff
  simp only [hwrote]

variable {handler : ImageHandlerCtx}

/-- Opening a target that has no handle, by a begin or a resume. -/
theorem Trace.open (h : Trace cfg d₀ d effects) (hclosed : d.imageHandler.handle = false)
    {opening : List Effect} (hwrote : ∀ offset size, .wrote offset size ∉ opening)
    (hsize : handler.handle = true → handler.imageSize = d₀.otaData.filesize)
    (hopened : handler.handle = true → .begun ∈ opening ∨ .resumed ∈ opening) :
    Trace cfg d₀ { d with imageHandler := handler } (effects ++ opening) := by
  -- No block was written before, and none is now.
  have hnone (offset size : Nat) : .wrote offset size ∉ effects ++ opening := by
    intro hmem
    rcases List.mem_append.mp hmem with hold | hnew
    · exact h.closed hclosed offset size hold
    · exact hwrote offset size hnew
  refine ⟨h.otaData, h.blockCount, h.resumePending, hsize, ?_, fun _ => hnone, ?_, ?_, ?_, ?_⟩
  · intro hhandle
    rcases hopened hhandle with hbegun | hresumed
    · exact .inl (List.mem_append_right _ hbegun)
    · exact .inr (List.mem_append_right _ hresumed)
  · exact ⟨effects ++ opening, [], (List.append_nil _).symm, hnone, List.not_mem_nil⟩
  · intro id
    rw [h.processed id]
    have hold (size : Nat) : .wrote (id * cfg.blockSize) size ∉ effects :=
      h.closed hclosed _ size
    simp [hold, hwrote]
  · exact fun offset size hmem => absurd hmem (hnone offset size)
  · exact fun offset size size' hmem => absurd hmem (hnone offset size)

/-- Whatever opening the target does, the trace holds on, and the effects stay intact exactly
when the opening retains what the tracker stands for. -/
theorem Trace.openTarget (h : Trace cfg d₀ d effects) {env : OpenEnv} {opened : Bool}
    {opening : List Effect} (hopens : d.OpensTarget cfg env (opened, handler, opening)) :
    Trace cfg d₀ { d with imageHandler := handler } (effects ++ opening) ∧
      (Intact cfg d₀ (effects ++ opening) ↔
        Intact cfg d₀ effects ∧ d.ReopensRetained cfg env) := by
  cases hopens with
  | already hhandle =>
    rw [List.append_nil]
    refine ⟨h, (and_iff_left ?_).symm⟩
    intro hfalse
    rw [hhandle] at hfalse
    cases hfalse
  | opens hclosed hopens =>
    have hwrote {offset size : Nat} {effect : Effect} (hne : effect ≠ .wrote offset size) :
        .wrote offset size ∉ [effect] := by
      intro hmem
      exact hne (List.mem_singleton.mp hmem).symm
    have hintact {opening : List Effect} (hno : ∀ offset size, .wrote offset size ∉ opening) :
        Intact cfg d₀ (effects ++ opening) ↔
          Intact cfg d₀ effects ∧ (d₀.resumePending = true → .begun ∉ opening) := by
      simp only [Intact, List.mem_append, hno, or_false, not_or]
      tauto
    -- Without a handle the image size and the opening of the target do not matter.
    have hnoHandle {handler : ImageHandlerCtx} {p : Prop} (hfalse : handler.handle = false)
        (htrue : handler.handle = true) : p := by
      rw [hfalse] at htrue
      cases htrue
    cases hopens with
    | resumed _ hprepared hsize hresume hresumes hhandle =>
      refine ⟨h.open hclosed (fun _ _ => hwrote (by simp)) (fun _ => hsize.trans (by rw [h.otaData]))
        (fun _ => .inr (by simp)), ?_⟩
      rw [hintact fun _ _ => hwrote (by simp)]
      simp [Downloader.ReopensRetained, hresumes]
    | begun _ hprepared hsize hresume hok hhandle =>
      refine ⟨h.open hclosed (fun _ _ => hwrote (by simp)) (fun _ => hsize.trans (by rw [h.otaData]))
        (fun _ => .inl (by simp)), ?_⟩
      rw [hintact fun _ _ => hwrote (by simp), ← h.resumePending]
      cases hpending : d.resumePending with
      | false => simp [Downloader.ReopensRetained, hpending]
      | true =>
        simp [Downloader.ReopensRetained, hpending, hclosed, hprepared, hresume hpending, hok]
    | erased _ hprepared hhandle hresume hok herased =>
      refine ⟨h.open hclosed (fun _ _ => hwrote (by simp)) (hnoHandle hhandle)
        (fun _ => .inl (by simp)), ?_⟩
      rw [hintact fun _ _ => hwrote (by simp), ← h.resumePending]
      cases hpending : d.resumePending with
      | false => simp [Downloader.ReopensRetained, hpending]
      | true =>
        simp [Downloader.ReopensRetained, hpending, hclosed, hprepared, hresume hpending, herased]
    | unopened _ hprepared hhandle hresume hok herased =>
      refine ⟨h.open hclosed (by simp) (hnoHandle hhandle) (hnoHandle hhandle), ?_⟩
      rw [hintact (by simp)]
      simp [Downloader.ReopensRetained, hok, herased]
    | unprepared _ hprepared hhandle =>
      refine ⟨h.open hclosed (by simp) (hnoHandle hhandle) (hnoHandle hhandle), ?_⟩
      rw [hintact (by simp)]
      simp [Downloader.ReopensRetained, hprepared]

/-- Writing and marking a missing block. -/
theorem Trace.mark (h : Trace cfg d₀ d effects) (hhandle : d.imageHandler.handle = true)
    {id : Nat} (hid : id < d.bitmap.blockCount) (hmissing : d.bitmap.isProcessed id = false)
    (size : Nat) :
    Trace cfg d₀ (d.mark d.imageHandler id) (effects ++ [.wrote (id * cfg.blockSize) size]) ∧
      (Intact cfg d₀ (effects ++ [.wrote (id * cfg.blockSize) size]) ↔
        Intact cfg d₀ effects ∧ size = blockLength cfg d₀.otaData.filesize id) := by
  -- A missing block was neither in the tracker nor written.
  have hnew : d₀.bitmap.isProcessed id = false ∧
      ∀ size', .wrote (id * cfg.blockSize) size' ∉ effects := by
    have hiff := h.processed id
    rw [hmissing] at hiff
    refine ⟨?_, ?_⟩
    · cases hstart : d₀.bitmap.isProcessed id with
      | false => rfl
      | true => exact absurd (hiff.mpr (.inl hstart)) (by simp)
    · intro size' hmem
      exact absurd (hiff.mpr (.inr ⟨size', hmem⟩)) (by simp)
  have hmem (offset size' : Nat) :
      .wrote offset size' ∈ effects ++ [.wrote (id * cfg.blockSize) size] ↔
        .wrote offset size' ∈ effects ∨ (offset = id * cfg.blockSize ∧ size' = size) := by
    simp
  obtain ⟨before, after, heffects, hbefore, hafter⟩ := h.order
  refine ⟨⟨h.otaData, ?_, h.resumePending, h.size, ?_, ?_, ?_, ?_, ?_, ?_⟩, ?_⟩
  · show (d.bitmap.setProcessed id).blockCount = d₀.bitmap.blockCount
    rw [DownloaderBitmap.setProcessed_blockCount, h.blockCount]
  · intro hset
    rcases h.opened hset with hbegun | hresumed
    · exact .inl (List.mem_append_left _ hbegun)
    · exact .inr (List.mem_append_left _ hresumed)
  · intro hfalse
    have hcontra : d.imageHandler.handle = false := hfalse
    rw [hhandle] at hcontra
    cases hcontra
  · refine ⟨before, after ++ [.wrote (id * cfg.blockSize) size],
      by rw [heffects, List.append_assoc], hbefore, ?_⟩
    simpa using hafter
  · intro j
    show (d.bitmap.setProcessed id).isProcessed j = true ↔ _
    rw [d.bitmap.isProcessed_setProcessed hid j, h.processed j]
    simp only [hmem]
    constructor
    · rintro ((hstart | ⟨size', hold⟩) | rfl)
      · exact .inl hstart
      · exact .inr ⟨size', .inl hold⟩
      · exact .inr ⟨size, .inr ⟨rfl, rfl⟩⟩
    · rintro (hstart | ⟨size', hold | ⟨heq, -⟩⟩)
      · exact .inl (.inl hstart)
      · exact .inl (.inr ⟨size', hold⟩)
      · exact .inr (blockSize_mul_inj cfg heq)
  · intro offset size'
    rw [hmem]
    rintro (hold | ⟨rfl, -⟩)
    · exact h.writes offset size' hold
    · exact ⟨id, rfl, hnew.1⟩
  · intro offset size₁ size₂
    rw [hmem, hmem]
    rintro (hold₁ | ⟨rfl, rfl⟩) (hold₂ | ⟨heq, rfl⟩)
    · exact h.single offset size₁ size₂ hold₁ hold₂
    · exact absurd (heq ▸ hold₁) (hnew.2 size₁)
    · exact absurd hold₂ (hnew.2 size₂)
    · rfl
  · simp only [Intact, hmem, List.mem_append, List.mem_singleton, reduceCtorEq, or_false]
    constructor
    · rintro ⟨hfull, hbegun⟩
      exact ⟨⟨fun j size' hold => hfull j size' (.inl hold), hbegun⟩,
        hfull id size (.inr ⟨rfl, rfl⟩)⟩
    · rintro ⟨⟨hfull, hbegun⟩, hsize⟩
      refine ⟨?_, hbegun⟩
      rintro j size' (hold | ⟨heq, rfl⟩)
      · exact hfull j size' hold
      · rw [blockSize_mul_inj cfg heq]
        exact hsize

end Trace

/-! ### Tasks and runs -/

/-- Effects of a save or a clear are on the stored tracker only. -/
theorem onStore_resumePersist (d : Downloader) (env : SaveEnv) :
    ∀ effect ∈ resumePersist d env, effect.OnStore := by
  rw [resumePersist]
  split
  · rw [nvsResumeSave]
    split_ifs <;> simp [Effect.OnStore]
  · simp

/-- A task result belongs to the download that started with `d₀`. A reported success means that
no block is missing. -/
def Tracked (cfg : DownloaderConfig) (d₀ : Downloader) (r : TaskResult) : Prop :=
  ∃ d, Trace cfg d₀ d r.effects ∧ (∀ d', r.downloader = some d' → d.Keeps d') ∧
    (r.report = some .success →
      d.bitmap.unprocessedBlockCount = 0 ∧ d.imageHandler.handle = true)

variable {cfg : DownloaderConfig} {d₀ : Downloader} {effects : List Effect} {otaData : OtaData}

variable {d : Downloader}

/-- Where a block is written, the condition of the task is that the opening retains the target
and that the block has its full length. -/
theorem keepsCoverage_of_written {effects' : List Effect} (h : Trace cfg d₀ d effects)
    {block : DataBlock} {env : BlockEnv} (hadmits : d.Admits block) {handler : ImageHandlerCtx}
    (htrace : Trace cfg d₀ { d with imageHandler := handler } effects') {opening : List Effect}
    (hopens : d.OpensTarget cfg env.opening (true, handler, opening))
    (hwritten : handler.handle = true ∧ 0 < block.dataLength ∧
      block.blockId.toInt.toNat * cfg.blockSize + block.dataLength ≤ handler.imageSize ∧
        env.written = true) :
    d.KeepsCoverage cfg (.block (some block) env) ↔
      d.ReopensRetained cfg env.opening ∧
        block.dataLength = blockLength cfg d₀.otaData.filesize block.blockId.toInt.toNat := by
  have hsize : handler.imageSize = d₀.otaData.filesize := htrace.size hwritten.1
  rw [Downloader.KeepsCoverage, Downloader.WritesFullBlock, h.otaData, ← hsize]
  constructor
  · intro hkeeps
    exact ⟨(hkeeps hadmits).1,
      (hkeeps hadmits).2 (hopens.handleSet_iff.mpr ⟨rfl, hwritten.1⟩) hwritten.2.1
        hwritten.2.2.1 hwritten.2.2.2⟩
  · intro hkeeps _
    exact ⟨hkeeps.1, fun _ _ _ _ => hkeeps.2⟩

/-- One task keeps the trace. It keeps the effects intact exactly when it meets the condition. -/
theorem Trace.run (h : Trace cfg d₀ d effects) (task : DownloadTask) :
    Tracked cfg d₀ { d.run cfg task with effects := effects ++ (d.run cfg task).effects } ∧
      (Intact cfg d₀ (effects ++ (d.run cfg task).effects) ↔
        Intact cfg d₀ effects ∧ d.KeepsCoverage cfg task) := by
  have houtcome := run_outcome cfg d task
  generalize d.run cfg task = r at houtcome ⊢
  cases houtcome with
  | refused hrefused hleaves =>
    rw [hleaves.effects, List.append_nil]
    refine ⟨⟨d, h, hleaves.keeps, fun hs => absurd hs hleaves.report⟩, (and_iff_left ?_).symm⟩
    cases task with
    | requestTimeout env => trivial
    | block message env =>
      cases message with
      | none => trivial
      | some block => exact fun hadmits => absurd hadmits (hrefused block env rfl)
  | unwritten hadmits opened handler opening hopens hunwritten hleaves =>
    obtain ⟨htrace, hintact⟩ := h.openTarget hopens
    rw [hleaves.effects]
    refine ⟨⟨_, htrace, hleaves.keeps, fun hs => absurd hs hleaves.report⟩, ?_⟩
    rw [hintact]
    refine and_congr_right fun _ => ?_
    -- Nothing was written, so the length of the block does not matter.
    refine ⟨fun hreopens _ => ⟨hreopens, ?_⟩, fun hkeeps => (hkeeps hadmits).1⟩
    intro hhandle hpos hrange hwritten
    obtain ⟨hopened, hhandle'⟩ := hopens.handleSet_iff.mp hhandle
    refine absurd ⟨hhandle', hpos, ?_, hwritten⟩ (hunwritten hopened)
    rw [htrace.size hhandle', ← h.otaData]
    exact hrange
  | @written block env _ hadmits handler opening saved hopens hwritten hsaved hleaves =>
    obtain ⟨htrace, hintact⟩ := h.openTarget hopens
    obtain ⟨hmark, hfull⟩ :=
      htrace.mark hwritten.1 hadmits.2.2.1.2 hadmits.2.2.2 block.dataLength
    have hstore : ∀ effect ∈ saved, effect.OnStore := by
      rcases hsaved with rfl | rfl
      · simp
      · exact onStore_resumePersist _ _
    rw [hleaves.effects, ← List.append_assoc, ← List.append_assoc]
    refine ⟨⟨_, hmark.store hstore, hleaves.keeps, fun hs => absurd hs hleaves.report⟩, ?_⟩
    rw [intact_store hstore, hfull, hintact, and_assoc]
    refine and_congr_right fun _ => ?_
    rw [keepsCoverage_of_written h hadmits htrace hopens hwritten]
  | @complete block env _ hadmits handler opening cleared hopens hwritten hcomplete hcleared
      heffects hdone =>
    obtain ⟨htrace, hintact⟩ := h.openTarget hopens
    obtain ⟨hmark, hfull⟩ :=
      htrace.mark hwritten.1 hadmits.2.2.1.2 hadmits.2.2.2 block.dataLength
    have hstore : ∀ effect ∈ cleared, effect.OnStore := by
      rcases hcleared with rfl | rfl <;> simp [Effect.OnStore]
    rw [heffects, ← List.append_assoc, ← List.append_assoc]
    refine ⟨⟨_, hmark.store hstore, ?_, fun _ => ⟨hcomplete, hwritten.1⟩⟩, ?_⟩
    · intro d' hd'
      simp only [hdone] at hd'
      cases hd'
    · rw [intact_store hstore, hfull, hintact, and_assoc]
      refine and_congr_right fun _ => ?_
      rw [keepsCoverage_of_written h hadmits htrace hopens hwritten]

/-- The same for one step of a run. -/
theorem Tracked.step {r t : TaskResult} (h : Tracked cfg d₀ r) {task : DownloadTask}
    (ht : r.step cfg task = some t) :
    Tracked cfg d₀ t ∧
      (Intact cfg d₀ t.effects ↔ Intact cfg d₀ r.effects ∧ r.KeepsCoverage cfg task) := by
  obtain ⟨d, htrace, hkeeps, -⟩ := h
  obtain ⟨d', hd', rfl⟩ := Option.map_eq_some_iff.mp ht
  rw [TaskResult.KeepsCoverage, hd']
  exact (htrace.keeps (hkeeps d' hd')).run task

/-- A run from a tracked result leaves the effects intact exactly when every task of it meets the
condition. -/
theorem Tracked.exec (tasks : List DownloadTask) :
    ∀ {r t : TaskResult}, Tracked cfg d₀ r → exec (TaskResult.step cfg) r tasks = some t →
      Tracked cfg d₀ t ∧
        (Intact cfg d₀ t.effects ↔ Intact cfg d₀ r.effects ∧
          execGuard (TaskResult.step cfg) (fun r task => decide (r.KeepsCoverage cfg task))
            r tasks = true) := by
  induction tasks with
  | nil =>
    intro r t h ht
    obtain rfl := Option.some.inj ht
    exact ⟨h, by simp [execGuard]⟩
  | cons task tasks ih =>
    intro r t h ht
    obtain ⟨next, hnext, hrest⟩ := Option.bind_eq_some_iff.mp ht
    obtain ⟨htracked, hstep⟩ := h.step hnext
    obtain ⟨ht', hrun⟩ := ih htracked hrest
    refine ⟨ht', ?_⟩
    rw [hrun, hstep, execGuard, hnext, Bool.and_eq_true, decide_eq_true_eq, and_assoc]

/-! ### The start and the end of a download -/

/-- What a download starts with: no handle, a bitmap of the blocks of the file, and processed
blocks exactly when a tracker was laid over it. -/
structure Started (cfg : DownloaderConfig) (otaData : OtaData) (d : Downloader) : Prop where
  job : d.otaData = otaData
  handle : d.imageHandler.handle = false
  blockCount : d.bitmap.blockCount = (otaData.filesize + cfg.blockSize - 1) / cfg.blockSize
  fresh : d.resumePending = false → ∀ id, d.bitmap.isProcessed id = false
  overlaid : d.resumePending = true →
    ∃ id, id < d.bitmap.blockCount ∧ d.bitmap.isProcessed id = true

theorem Started.keeps {d' : Downloader} (h : Started cfg otaData d) (hk : d.Keeps d') :
    Started cfg otaData d' where
  job := hk.otaData.trans h.job
  handle := by rw [hk.imageHandler]; exact h.handle
  blockCount := by rw [hk.bitmap]; exact h.blockCount
  fresh := by rw [hk.resumePending, hk.bitmap]; exact h.fresh
  overlaid := by rw [hk.resumePending, hk.bitmap]; exact h.overlaid

theorem otaMqttCb_started {store : ResumeStore} {env : StartEnv} {r : TaskResult}
    (hstart : otaMqttCb cfg store otaData env = some r) (hd : r.downloader = some d₀) :
    Started cfg otaData d₀ ∧ r.report = none ∧ ∀ effect ∈ r.effects, effect.OnStore := by
  rcases otaMqttCb_outcome hstart with
    ⟨hnone, -⟩ | ⟨bitmap, attempt, hinit, hattempt, heffects, hkeeps⟩
  · rw [hnone] at hd
    cases hd
  · obtain ⟨hkeeps, hreport⟩ := hkeeps d₀ hd
    have hcount := DownloaderBitmap.init_blockCount hinit
    have hfresh := DownloaderBitmap.isProcessed_init hinit
    suffices hattempt : Started cfg otaData attempt.1 ∧ ∀ effect ∈ attempt.2, effect.OnStore from
      ⟨hattempt.1.keeps hkeeps, hreport, heffects ▸ hattempt.2⟩
    cases hattempt with
    | disabled => exact ⟨⟨rfl, rfl, hcount, fun _ => hfresh, fun h => by cases h⟩, by simp⟩
    | fresh hmd5 hstore =>
      refine ⟨⟨rfl, rfl, hcount, fun _ => hfresh, fun h => by cases h⟩, ?_⟩
      rcases hstore with rfl | rfl <;> simp [Effect.OnStore]
    | overlaid hmd5 hdesc hdata hlength huseful =>
      -- The counter of the overlay is below the number of the blocks.
      exact ⟨⟨rfl, rfl, hcount, fun h => (by cases h),
        fun _ => DownloaderBitmap.exists_isProcessed huseful⟩, by simp⟩

/-- The trace at the start. -/
theorem Started.tracked {r : TaskResult} (h : Started cfg otaData d₀)
    (hd : r.downloader = some d₀) (hreport : r.report = none)
    (hstore : ∀ effect ∈ r.effects, effect.OnStore) :
    Tracked cfg d₀ r ∧ Intact cfg d₀ r.effects := by
  have hopen : Trace cfg d₀ d₀ [] := by
    refine ⟨rfl, rfl, rfl, ?_, ?_, by simp, ⟨[], [], rfl, by simp, by simp⟩, by simp, by simp,
      by simp⟩
    · intro hhandle
      rw [h.handle] at hhandle
      cases hhandle
    · intro hhandle
      rw [h.handle] at hhandle
      cases hhandle
  have htrace := hopen.store hstore
  rw [List.nil_append] at htrace
  refine ⟨⟨d₀, htrace, ?_, ?_⟩, ?_⟩
  · intro d' hd'
    rw [hd] at hd'
    rw [← Option.some.inj hd']
    exact .refl d₀
  · intro hsuccess
    rw [hreport] at hsuccess
    cases hsuccess
  · refine ⟨?_, ?_⟩
    · exact fun id size hmem => absurd hmem (fun hmem => hstore _ hmem)
    · exact fun _ hmem => hstore _ hmem

/-- With the target open and no block missing, the blocks are covered exactly when the effects
are intact. -/
theorem covered_iff_intact (hstarted : Started cfg otaData d₀) (h : Trace cfg d₀ d effects)
    (hcomplete : d.bitmap.unprocessedBlockCount = 0) (hhandle : d.imageHandler.handle = true) :
    (∀ id, id < d₀.bitmap.blockCount → Covered cfg d₀ effects id) ↔ Intact cfg d₀ effects := by
  obtain ⟨before, after, heffects, hbefore, hafter⟩ := h.order
  -- All writes come after the last begin.
  have hsince {offset size : Nat} (hmem : .wrote offset size ∈ effects) :
      WrittenSinceBegin effects offset size := by
    rw [heffects] at hmem
    rcases List.mem_append.mp hmem with hold | hnew
    · exact absurd hold (hbefore offset size)
    · obtain ⟨pre, post, rfl⟩ := List.append_of_mem hnew
      refine ⟨before ++ pre, post, by rw [heffects, List.append_assoc], ?_⟩
      exact fun hpost => hafter (by simp [hpost])
  have hmem {offset size : Nat} (hwritten : WrittenSinceBegin effects offset size) :
      .wrote offset size ∈ effects := by
    obtain ⟨pre, post, rfl, -⟩ := hwritten
    simp
  have hall (id : Nat) (hid : id < d₀.bitmap.blockCount) :
      d₀.bitmap.isProcessed id = true ∨ ∃ size, .wrote (id * cfg.blockSize) size ∈ effects :=
    (h.processed id).mp
      (DownloaderBitmap.isProcessed_of_complete hcomplete (h.blockCount ▸ hid))
  constructor
  · intro hcovered
    refine ⟨?_, ?_⟩
    · intro id size hwrote
      obtain ⟨id', heq, hmissing⟩ := h.writes _ _ hwrote
      obtain rfl := blockSize_mul_inj cfg heq
      have hid : id < d₀.bitmap.blockCount := by
        have hprocessed := (h.processed id).mpr (.inr ⟨size, hwrote⟩)
        rw [DownloaderBitmap.isProcessed, Bool.and_eq_true, decide_eq_true_eq] at hprocessed
        rw [← h.blockCount]
        exact hprocessed.1
      rcases hcovered id hid with hwritten | ⟨hstart, -⟩
      · exact h.single _ _ _ hwrote (hmem hwritten)
      · rw [hmissing] at hstart
        cases hstart
    · intro hpending hbegun
      -- An overlaid block is never written, so only a resume can cover it.
      obtain ⟨id, hid, hstart⟩ := hstarted.overlaid hpending
      rcases hcovered id hid with hwritten | ⟨-, -, hno⟩
      · obtain ⟨id', heq, hmissing⟩ := h.writes _ _ (hmem hwritten)
        rw [blockSize_mul_inj cfg heq, hmissing] at hstart
        cases hstart
      · exact hno hbegun
  · intro hintact id hid
    rcases hall id hid with hstart | ⟨size, hwrote⟩
    · have hpending : d₀.resumePending = true := by
        cases hp : d₀.resumePending with
        | true => rfl
        | false =>
          rw [hstarted.fresh hp id] at hstart
          cases hstart
      have hno := hintact.2 hpending
      exact .inr ⟨hstart, (h.opened hhandle).resolve_left hno, hno⟩
    · have hsize := hintact.1 id size hwrote
      rw [hsize] at hwrote
      exact .inl (hsince hwrote)

/-- **Coverage.** A download that reports `success` has covered every block of the file exactly
when every task of its run met the condition: the target of a resumed download was not begun
afresh, and each written block had its full length. -/
theorem success_covers_iff (cfg : DownloaderConfig) (store : ResumeStore) (otaData : OtaData)
    (env : StartEnv) {r t : TaskResult} (hstart : otaMqttCb cfg store otaData env = some r)
    (hd : r.downloader = some d₀) (tasks : List DownloadTask)
    (hrun : exec (TaskResult.step cfg) r tasks = some t) (hsuccess : t.report = some .success) :
    (∀ id, id * cfg.blockSize < otaData.filesize → Covered cfg d₀ t.effects id) ↔
      execGuard (TaskResult.step cfg) (fun r task => decide (r.KeepsCoverage cfg task)) r tasks =
        true := by
  obtain ⟨hstarted, hreport, hstore⟩ := otaMqttCb_started hstart hd
  obtain ⟨htracked, hintact⟩ := hstarted.tracked hd hreport hstore
  obtain ⟨⟨d, htrace, -, hcomplete⟩, hiff⟩ := htracked.exec tasks hrun
  obtain ⟨hcount, hhandle⟩ := hcomplete hsuccess
  have hblocks (id : Nat) : id * cfg.blockSize < otaData.filesize ↔ id < d₀.bitmap.blockCount := by
    have hpos := cfg.blockSize_ge
    rw [hstarted.blockCount, Nat.lt_div_iff_mul_lt (by omega)]
    omega
  simp only [hblocks]
  rw [covered_iff_intact hstarted htrace hcount hhandle, hiff, and_iff_right hintact]

/-! ### A resume that falls back -/

/-- The tracker of an interrupted download of `twoBlocks` that has block `0`. -/
def firstBlockDone : ResumeStore where
  desc := some (resumeBuildDesc defaultDownloader 3100 (List.replicate 32 'a'))
  data := some [0xFE#8]

/-- The filetype handler has no resume callback, so the first block message of the resumed
download begins afresh. It is the last missing block, and the download reports `success` without
block `0`. -/
theorem fallback_success_not_covered :
    ∃ r t d₀, otaMqttCb defaultDownloader firstBlockDone twoBlocks {} = some r ∧
      r.downloader = some d₀ ∧
        exec (TaskResult.step defaultDownloader) r
          [.block (some secondBlock) { opening := { resume := none } }] = some t ∧
          t.report = some .success ∧
            ¬∀ id, id * defaultDownloader.blockSize < twoBlocks.filesize →
              Covered defaultDownloader d₀ t.effects id := by
  refine ⟨_, _, _, rfl, rfl, rfl, rfl, ?_⟩
  intro hcovered
  rcases hcovered 0 (by decide) with ⟨before, after, heffects, -⟩ | ⟨-, -, hno⟩
  · -- The only write is that of block `1`.
    have hmem : Effect.wrote 0 3042 ∈
        [Effect.begun, .wrote 3042 58, .erasedDesc, .erasedData] := by
      rw [show [Effect.begun, .wrote 3042 58, .erasedDesc, .erasedData] = _ from heffects]
      exact List.mem_append_right _ List.mem_cons_self
    simp at hmem
  · exact hno (by decide)

/-- The blocks of `twoBlocks` in reverse order, with a block of another file in between. -/
def reversedBlocks : List DownloadTask :=
  [.block (some secondBlock) {}, .block (some { secondBlock with fileId := 7 }) {},
    .block (some firstBlock) {}]

/-- A fresh download of `twoBlocks` whose blocks arrive in reverse order covers the file. -/
theorem freshDownload_covered :
    ∃ r t d₀, otaMqttCb defaultDownloader {} twoBlocks {} = some r ∧ r.downloader = some d₀ ∧
      exec (TaskResult.step defaultDownloader) r reversedBlocks = some t ∧
        t.report = some .success ∧
          ∀ id, id * defaultDownloader.blockSize < twoBlocks.filesize →
            Covered defaultDownloader d₀ t.effects id := by
  have hrun : ∃ r t d₀, otaMqttCb defaultDownloader {} twoBlocks {} = some r ∧
      r.downloader = some d₀ ∧
        exec (TaskResult.step defaultDownloader) r reversedBlocks = some t ∧
          t.report = some .success ∧
            execGuard (TaskResult.step defaultDownloader)
              (fun r task => decide (r.KeepsCoverage defaultDownloader task)) r reversedBlocks =
                true :=
    ⟨_, _, _, rfl, rfl, rfl, rfl, rfl⟩
  obtain ⟨r, t, d₀, hstart, hd, hexec, hsuccess, hkeeps⟩ := hrun
  exact ⟨r, t, d₀, hstart, hd, hexec, hsuccess,
    (success_covers_iff _ _ _ _ hstart hd _ hexec hsuccess).mpr hkeeps⟩

end RainMakerNeo.Ota
