import RainMakerNeo.Lib.Run
import RainMakerNeo.Ota.DownloaderSteps

/-!
# `RainMakerNeo.Ota.ResumeTracker`: the stored tracker and the target partition

The tracker in the NVS and the bytes on the target partition are two stores that change
independently. A `Device` has both, and at most one download. A step is one task of the
download, the start of a download, a power loss that keeps a prefix of the effects of a step, or
a reboot. After a reboot another slot can be the target, because the boot partition was switched
or rolled back.

The bytes of the stream are taken to be those of the file that the job names. So a byte of the
target is described by the file whose byte it is, and a file by the first 32 characters of its
md5, which is what the stored descriptor compares.

`Stored` is the invariant of the stored tracker and `Active` that of a running download. Each
effect of a step is shown safe where it happens, so the invariant survives a power loss between
any two effects.
-/

set_option autoImplicit false

namespace RainMakerNeo.Ota

open RainMakerNeo.Lib (Cells Reach getBit)

/-! ### The device -/

/-- A file by its md5, `none` for a job without one. -/
abbrev FileId := Option (List Char)

/-- The file that a job downloads. -/
def fileOf (otaData : OtaData) : FileId := (nonEmpty otaData.fileMd5).map (·.take md5HexLen)

/-- The storage, the slot that is the next update partition, and the download. `media` tells for
each slot and each byte offset whose byte is there, `none` for an erased byte. -/
structure Device where
  store : ResumeStore
  media : Nat → Nat → Option FileId
  slot : Nat
  downloader : Option Downloader

/-- An effect of a download of `file`. -/
def Device.apply (file : FileId) (s : Device) (effect : Effect) : Device :=
  match effect with
  | .begun => { s with media := fun slot n => if slot = s.slot then none else s.media slot n }
  | .resumed => s
  | .wrote offset size =>
    { s with media := fun slot n =>
        if slot = s.slot ∧ offset ≤ n ∧ n < offset + size then some file else s.media slot n }
  | .savedData _ | .savedDesc _ | .erasedDesc | .erasedData =>
    { s with store := s.store.apply effect }

/-- The effects in order. -/
def Device.applyAll (file : FileId) (s : Device) (effects : List Effect) : Device :=
  effects.foldl (Device.apply file) s

/-- What the work queue runs: the start of a job or a task of the download. -/
inductive Work
  | start (otaData : OtaData) (env : StartEnv)
  | task (task : DownloadTask)
  deriving DecidableEq, Repr

/-- Run it. A job that starts while a download is active is refused. -/
def Device.perform (cfg : DownloaderConfig) (s : Device) : Work → Option (FileId × TaskResult)
  | .start otaData env =>
    if s.downloader.isSome then none
    else (otaMqttCb cfg s.store otaData env).map fun r => (fileOf otaData, r)
  | .task task => s.downloader.map fun d => (fileOf d.otaData, d.run cfg task)

/-- What happens to the device. -/
inductive DeviceAction
  | run (work : Work)
  /-- The power fails after the first `kept` effects. -/
  | powerLoss (work : Work) (kept : Nat)
  /-- A reboot between two tasks. `slot` is the next update partition afterwards. -/
  | reboot (slot : Nat)
  deriving DecidableEq, Repr

/-- One action. -/
def Device.step (cfg : DownloaderConfig) (s : Device) : DeviceAction → Option Device
  | .run work => (s.perform cfg work).map fun r =>
    { s.applyAll r.1 r.2.effects with downloader := r.2.downloader }
  | .powerLoss work kept => (s.perform cfg work).map fun r =>
    { s.applyAll r.1 (r.2.effects.take kept) with downloader := none }
  | .reboot slot => some { s with downloader := none, slot }

/-- At first there is neither a tracker nor a download. The target can hold anything. -/
def Device.Initial (s : Device) : Prop := s.store = {} ∧ s.downloader = none

/-! ### What a tracker promises -/

/-- Every byte of block `id` of a file of `filesize` bytes is on the target. -/
def Device.Present (cfg : DownloaderConfig) (s : Device) (file : FileId) (filesize id : Nat) :
    Prop :=
  ∀ n, id * cfg.blockSize ≤ n → n < id * cfg.blockSize + blockLength cfg filesize id →
    s.media s.slot n = some file

/-- Whatever job comes next, if its resume attempt accepts the stored tracker, then the blocks
that it takes for processed are on the target, with the content of the job's file. -/
def Device.Sound (cfg : DownloaderConfig) (s : Device) : Prop :=
  ∀ otaData env r d, otaMqttCb cfg s.store otaData env = some r → r.downloader = some d →
    d.resumePending = true → ∀ id, d.bitmap.isProcessed id = true →
      s.Present cfg (fileOf otaData) otaData.filesize id

/-! ### The condition -/

/-- The block task erases the target: it has no handle, it does not resume, and the begin
succeeds or erases in spite of a failure. -/
def Downloader.ErasesTarget (cfg : DownloaderConfig) (d : Downloader) (env : OpenEnv) : Prop :=
  d.imageHandler.handle = false ∧ env.Prepared cfg.signatureVerify d.otaData ∧
    ¬(d.resumePending = true ∧ env.resumes = true) ∧
      (env.fresh.ok = true ∨ env.fresh.erased = true)

instance (cfg : DownloaderConfig) (d : Downloader) (env : OpenEnv) :
    Decidable (d.ErasesTarget cfg env) := by
  rw [Downloader.ErasesTarget]
  infer_instance

/-- The condition of one task of the download `d`: it erases the target only when no descriptor
is stored, and a job that keeps a tracker writes full blocks. -/
def Device.TaskKeepsTracker (cfg : DownloaderConfig) (s : Device) (d : Downloader) :
    DownloadTask → Prop
  | .block (some block) env => d.Admits block →
    (d.ErasesTarget cfg env.opening → s.store.desc = none) ∧
      (d.resumeEnabled = true → d.WritesFullBlock cfg block env)
  | .block none _ => True
  | .requestTimeout _ => True

/-- The condition of one action: that of the task, and the target slot does not change while a
descriptor is stored. -/
def Device.KeepsTracker (cfg : DownloaderConfig) (s : Device) : DeviceAction → Prop
  | .run (.task task) | .powerLoss (.task task) _ =>
    ∀ d ∈ s.downloader, s.TaskKeepsTracker cfg d task
  | .run (.start ..) | .powerLoss (.start ..) _ => True
  | .reboot slot => slot = s.slot ∨ s.store.desc = none

/-! ### The invariants -/

/-- The blocks that the cells mark as processed are on the target. -/
def Device.Good (cfg : DownloaderConfig) (s : Device) (desc : ResumeDesc) (tracker : Cells) :
    Prop :=
  ∀ id, id * cfg.blockSize < desc.filesize → getBit tracker id = false →
    s.Present cfg (some desc.md5Hex) desc.filesize id

/-- A stored descriptor comes with a good tracker. -/
def Device.Stored (cfg : DownloaderConfig) (s : Device) : Prop :=
  ∀ desc, s.store.desc = some desc →
    ∃ tracker, s.store.data = some tracker ∧ s.Good cfg desc tracker

/-- What holds of the running download `d`. -/
structure Device.Active (cfg : DownloaderConfig) (s : Device) (d : Downloader) : Prop where
  size : d.imageHandler.handle = true → d.imageHandler.imageSize = d.otaData.filesize
  blockCount : d.bitmap.blockCount = (d.otaData.filesize + cfg.blockSize - 1) / cfg.blockSize
  desc : d.resumeEnabled = true → ∃ fileMd5, nonEmpty d.otaData.fileMd5 = some fileMd5 ∧
    d.resumeDesc = some (resumeBuildDesc cfg d.otaData.filesize fileMd5)
  pending : d.resumePending = true → d.resumeEnabled = true ∧ s.store.desc = d.resumeDesc
  fresh : d.imageHandler.handle = false → d.resumePending = false →
    ∀ id, d.bitmap.isProcessed id = false
  present : d.resumeEnabled = true → ∀ id, d.bitmap.isProcessed id = true →
    s.Present cfg (fileOf d.otaData) d.otaData.filesize id
  own : d.imageHandler.handle = true →
    s.store.desc = none ∨ (d.resumeEnabled = true ∧ s.store.desc = d.resumeDesc)

section Invariants

variable {cfg : DownloaderConfig} {s : Device} {d : Downloader}

theorem Device.Active.keeps (h : s.Active cfg d) {d' : Downloader} (hk : d.Keeps d') :
    s.Active cfg d' where
  size := by rw [hk.imageHandler, hk.otaData]; exact h.size
  blockCount := by rw [hk.bitmap, hk.otaData]; exact h.blockCount
  desc := by rw [hk.resumeEnabled, hk.otaData, hk.resumeDesc]; exact h.desc
  pending := by rw [hk.resumePending, hk.resumeEnabled, hk.resumeDesc]; exact h.pending
  fresh := by rw [hk.imageHandler, hk.resumePending, hk.bitmap]; exact h.fresh
  present := by rw [hk.resumeEnabled, hk.bitmap, hk.otaData]; exact h.present
  own := by rw [hk.imageHandler, hk.resumeEnabled, hk.resumeDesc]; exact h.own

/-- The blocks of a file are those that start inside it. -/
theorem lt_blocks_iff (cfg : DownloaderConfig) (filesize id : Nat) :
    id < (filesize + cfg.blockSize - 1) / cfg.blockSize ↔ id * cfg.blockSize < filesize := by
  have hpos := cfg.blockSize_ge
  rw [Nat.lt_div_iff_mul_lt (by omega)]
  omega

/-- The cells of an active download are good for its own descriptor. -/
theorem Device.Active.good (h : s.Active cfg d) (henabled : d.resumeEnabled = true)
    {desc : ResumeDesc} (hdesc : d.resumeDesc = some desc) : s.Good cfg desc d.bitmap.cells := by
  obtain ⟨fileMd5, hmd5, hown⟩ := h.desc henabled
  obtain rfl := Option.some.inj (hdesc.symm.trans hown)
  intro id hid hbit
  have hprocessed : d.bitmap.isProcessed id = true := by
    have hlt := (lt_blocks_iff cfg d.otaData.filesize id).mpr hid
    rw [← h.blockCount] at hlt
    simp [DownloaderBitmap.isProcessed, hlt, hbit]
  have hpresent := h.present henabled id hprocessed
  rwa [fileOf, hmd5] at hpresent

/-! ### Safe effects -/

/-- An effect that keeps the stored tracker good. -/
def Device.SafeEffect (cfg : DownloaderConfig) (file : FileId) (s : Device) : Effect → Prop
  | .begun | .erasedData => s.store.desc = none
  | .wrote .. => ∀ desc, s.store.desc = some desc → file = some desc.md5Hex
  | .savedData tracker => ∀ desc, s.store.desc = some desc → s.Good cfg desc tracker
  | .savedDesc desc => ∃ tracker, s.store.data = some tracker ∧ s.Good cfg desc tracker
  | .resumed | .erasedDesc => True

/-- Effects that are safe one after the other. -/
def Device.SafeEffects (cfg : DownloaderConfig) (file : FileId) (s : Device) :
    List Effect → Prop
  | [] => True
  | effect :: effects =>
    s.SafeEffect cfg file effect ∧ (s.apply file effect).SafeEffects cfg file effects

variable {file : FileId}

/-- Writing a byte of the same file keeps what is present. -/
theorem Device.Present.wrote {filesize id : Nat} (h : s.Present cfg file filesize id)
    (offset size : Nat) : (s.apply file (.wrote offset size)).Present cfg file filesize id := by
  intro n hlow hhigh
  show (if s.slot = s.slot ∧ offset ≤ n ∧ n < offset + size then some file else s.media s.slot n) =
    some file
  split
  · rfl
  · exact h n hlow hhigh

theorem Device.Stored.apply (h : s.Stored cfg) {effect : Effect}
    (hsafe : s.SafeEffect cfg file effect) : (s.apply file effect).Stored cfg := by
  cases effect with
  | begun =>
    intro desc hdesc
    have hnone : s.store.desc = none := hsafe
    rw [show (s.apply file .begun).store.desc = s.store.desc from rfl, hnone] at hdesc
    cases hdesc
  | resumed => exact h
  | wrote offset size =>
    intro desc hdesc
    obtain ⟨tracker, htracker, hgood⟩ := h desc hdesc
    refine ⟨tracker, htracker, ?_⟩
    intro id hid hbit
    have hfile : file = some desc.md5Hex := hsafe desc hdesc
    rw [← hfile]
    exact (hfile ▸ hgood id hid hbit).wrote offset size
  | savedData tracker => exact fun desc hdesc => ⟨tracker, rfl, hsafe desc hdesc⟩
  | savedDesc desc =>
    intro desc' hdesc
    obtain rfl := Option.some.inj hdesc
    exact hsafe
  | erasedDesc => exact fun desc hdesc => by cases hdesc
  | erasedData =>
    intro desc hdesc
    have hnone : s.store.desc = none := hsafe
    rw [show (s.apply file .erasedData).store.desc = s.store.desc from rfl, hnone] at hdesc
    cases hdesc

/-- A power loss after any number of safe effects keeps the stored tracker good. -/
theorem Device.Stored.applyAll_take (effects : List Effect) :
    ∀ {s : Device}, s.Stored cfg → s.SafeEffects cfg file effects → ∀ kept,
      (s.applyAll file (effects.take kept)).Stored cfg := by
  induction effects with
  | nil =>
    intro s h _ kept
    rw [List.take_nil]
    exact h
  | cons effect effects ih =>
    intro s h hsafe kept
    cases kept with
    | zero => exact h
    | succ kept => exact ih (h.apply hsafe.1) hsafe.2 kept

theorem Device.safeEffects_append (before after : List Effect) :
    ∀ {s : Device}, s.SafeEffects cfg file (before ++ after) ↔
      s.SafeEffects cfg file before ∧ (s.applyAll file before).SafeEffects cfg file after := by
  induction before with
  | nil =>
    intro s
    exact (and_iff_right trivial).symm
  | cons effect before ih =>
    intro s
    rw [List.cons_append, SafeEffects, SafeEffects, ih, and_assoc]
    rfl

theorem Device.applyAll_append (file : FileId) (s : Device) (before after : List Effect) :
    s.applyAll file (before ++ after) = (s.applyAll file before).applyAll file after :=
  List.foldl_append ..

/-! ### One task -/

variable {handler : ImageHandlerCtx}

/-- Opening the target is safe when it does not erase under a stored descriptor. -/
theorem Device.Active.openTarget (h : s.Active cfg d) {env : OpenEnv} {opened : Bool}
    {opening : List Effect} (hopens : d.OpensTarget cfg env (opened, handler, opening))
    (herases : d.ErasesTarget cfg env → s.store.desc = none) :
    s.SafeEffects cfg (fileOf d.otaData) opening ∧
      (s.applyAll (fileOf d.otaData) opening).Active cfg { d with imageHandler := handler } := by
  cases hopens with
  | already hhandle => exact ⟨trivial, h⟩
  | opens hclosed hopens =>
    -- Opening without an erase leaves the target as it is.
    have hkeep {handler : ImageHandlerCtx}
        (hsize : handler.handle = true → handler.imageSize = d.otaData.filesize)
        (hpending : handler.handle = true → d.resumePending = true) :
        s.Active cfg { d with imageHandler := handler } :=
      { size := hsize
        blockCount := h.blockCount
        desc := h.desc
        pending := h.pending
        fresh := fun _ => h.fresh hclosed
        present := h.present
        own := fun hhandle => .inr (h.pending (hpending hhandle)) }
    have hnoHandle {handler : ImageHandlerCtx} {p : Prop} (hfalse : handler.handle = false)
        (htrue : handler.handle = true) : p := by
      rw [hfalse] at htrue
      cases htrue
    -- An erase comes with no descriptor and therefore with no overlay.
    have herase {handler : ImageHandlerCtx} (hnone : s.store.desc = none)
        (hsize : handler.handle = true → handler.imageSize = d.otaData.filesize) :
        (s.apply (fileOf d.otaData) .begun).Active cfg { d with imageHandler := handler } := by
      have hpending : d.resumePending = false := by
        cases hp : d.resumePending with
        | false => rfl
        | true =>
          obtain ⟨henabled, hdesc⟩ := h.pending hp
          obtain ⟨fileMd5, -, hown⟩ := h.desc henabled
          rw [hnone, hown] at hdesc
          cases hdesc
      have hmissing := h.fresh hclosed hpending
      refine ⟨hsize, h.blockCount, h.desc, ?_, fun _ _ => hmissing, ?_, fun _ => .inl hnone⟩
      · intro hp
        rw [show d.resumePending = true from hp] at hpending
        cases hpending
      · intro _ id hid
        have hfalse : d.bitmap.isProcessed id = false := hmissing id
        rw [show d.bitmap.isProcessed id = true from hid] at hfalse
        cases hfalse
    have hfresh (hresume : d.resumePending = true → env.resumes = false) :
        ¬(d.resumePending = true ∧ env.resumes = true) := by
      rintro ⟨hpending, hresumes⟩
      rw [hresume hpending] at hresumes
      cases hresumes
    cases hopens with
    | resumed _ hprepared hsize hresume =>
      exact ⟨⟨trivial, trivial⟩, hkeep (fun _ => hsize) (fun _ => hresume)⟩
    | begun _ hprepared hsize hresume hok =>
      have hnone := herases ⟨hclosed, hprepared, hfresh hresume, .inl hok⟩
      exact ⟨⟨hnone, trivial⟩, herase hnone (fun _ => hsize)⟩
    | erased _ hprepared hhandle hresume hok herased =>
      have hnone := herases ⟨hclosed, hprepared, hfresh hresume, .inr herased⟩
      exact ⟨⟨hnone, trivial⟩, herase hnone (hnoHandle hhandle)⟩
    | unopened _ hprepared hhandle => exact ⟨trivial, hkeep (hnoHandle hhandle) (hnoHandle hhandle)⟩
    | unprepared _ hprepared hhandle =>
      exact ⟨trivial, hkeep (hnoHandle hhandle) (hnoHandle hhandle)⟩

/-- Writing and marking a block. A download that keeps a tracker writes the full block. -/
theorem Device.Active.mark (h : s.Active cfg d) (hhandle : d.imageHandler.handle = true)
    {id : Nat} (hid : id < d.bitmap.blockCount) {size : Nat}
    (hfull : d.resumeEnabled = true → size = blockLength cfg d.otaData.filesize id) :
    s.SafeEffect cfg (fileOf d.otaData) (.wrote (id * cfg.blockSize) size) ∧
      (s.apply (fileOf d.otaData) (.wrote (id * cfg.blockSize) size)).Active cfg
        (d.mark d.imageHandler id) := by
  refine ⟨?_, h.size, ?_, h.desc, h.pending, ?_, ?_, h.own⟩
  · intro desc hdesc
    rcases h.own hhandle with hnone | ⟨henabled, hown⟩
    · rw [hnone] at hdesc
      cases hdesc
    · obtain ⟨fileMd5, hmd5, hbuild⟩ := h.desc henabled
      rw [hown, hbuild] at hdesc
      rw [← Option.some.inj hdesc, fileOf, hmd5]
      rfl
  · show (d.bitmap.setProcessed id).blockCount = _
    rw [DownloaderBitmap.setProcessed_blockCount]
    exact h.blockCount
  · intro hfalse
    rw [show d.imageHandler.handle = false from hfalse] at hhandle
    cases hhandle
  · intro henabled j hj
    rcases (d.bitmap.isProcessed_setProcessed hid j).mp hj with hold | rfl
    · exact (h.present henabled j hold).wrote _ _
    · -- The new block is what was just written.
      intro n hlow hhigh
      show (if s.slot = s.slot ∧ j * cfg.blockSize ≤ n ∧ n < j * cfg.blockSize + size then
        some (fileOf d.otaData) else s.media s.slot n) = some (fileOf d.otaData)
      rw [if_pos ⟨rfl, hlow, by rw [hfull henabled]; exact hhigh⟩]

/-- Saving the tracker, whole or in part. -/
theorem Device.Active.resumePersist (h : s.Active cfg d) (hhandle : d.imageHandler.handle = true)
    (file : FileId) (env : SaveEnv) :
    s.SafeEffects cfg file (resumePersist d env) ∧
      (s.applyAll file (resumePersist d env)).Active cfg d := by
  have hnothing : s.SafeEffects cfg file [] ∧ (s.applyAll file []).Active cfg d := ⟨trivial, h⟩
  rw [Ota.resumePersist]
  cases hdesc : d.resumeDesc with
  | none => exact hnothing
  | some desc =>
    cases henabled : d.resumeEnabled with
    | false => exact hnothing
    | true =>
      have hgood := h.good henabled hdesc
      -- A descriptor that is stored already is the same one.
      have hdata : s.SafeEffect cfg file (.savedData d.bitmap.cells) := by
        intro desc' hdesc'
        rcases h.own hhandle with hnone | ⟨-, hown⟩
        · rw [hnone] at hdesc'
          cases hdesc'
        · rw [hown, hdesc] at hdesc'
          exact Option.some.inj hdesc' ▸ hgood
      have hactive : (s.apply file (.savedData d.bitmap.cells)).Active cfg d :=
        ⟨h.size, h.blockCount, h.desc, h.pending, h.fresh, h.present, h.own⟩
      simp only [if_true, nvsResumeSave]
      split
      · split
        · refine ⟨⟨hdata, ⟨d.bitmap.cells, rfl, hgood⟩, trivial⟩, ?_⟩
          exact ⟨h.size, h.blockCount, h.desc, fun _ => ⟨henabled, hdesc.symm⟩, h.fresh, h.present,
            fun _ => .inr ⟨henabled, hdesc.symm⟩⟩
        · exact ⟨⟨hdata, trivial⟩, hactive⟩
      · exact hnothing

/-- A block that is written by a job that keeps a tracker has its full length. -/
theorem fullBlock_of_written {block : DataBlock} {env : BlockEnv} (hadmits : d.Admits block)
    (hkeeps : s.TaskKeepsTracker cfg d (.block (some block) env)) {s' : Device}
    {opening : List Effect} (hactive : s'.Active cfg { d with imageHandler := handler })
    (hopens : d.OpensTarget cfg env.opening (true, handler, opening))
    (hwritten : handler.handle = true ∧ 0 < block.dataLength ∧
      block.blockId.toInt.toNat * cfg.blockSize + block.dataLength ≤ handler.imageSize ∧
        env.written = true) (henabled : d.resumeEnabled = true) :
    block.dataLength = blockLength cfg d.otaData.filesize block.blockId.toInt.toNat := by
  have hsize : handler.imageSize = d.otaData.filesize := hactive.size hwritten.1
  rw [hsize] at hwritten
  exact (hkeeps hadmits).2 henabled (hopens.handleSet_iff.mpr ⟨rfl, hwritten.1⟩) hwritten.2.1
    hwritten.2.2.1 hwritten.2.2.2

/-- **One task.** It has safe effects only, and what it leaves of the download is active. -/
theorem Device.Active.run (h : s.Active cfg d) (task : DownloadTask)
    (hkeeps : s.TaskKeepsTracker cfg d task) :
    s.SafeEffects cfg (fileOf d.otaData) (d.run cfg task).effects ∧
      ∀ d', (d.run cfg task).downloader = some d' →
        (s.applyAll (fileOf d.otaData) (d.run cfg task).effects).Active cfg d' := by
  have houtcome := run_outcome cfg d task
  generalize d.run cfg task = r at houtcome ⊢
  cases houtcome with
  | refused hrefused hleaves =>
    rw [hleaves.effects]
    exact ⟨trivial, fun d' hd' => h.keeps (hleaves.keeps d' hd')⟩
  | unwritten hadmits opened handler opening hopens hunwritten hleaves =>
    obtain ⟨hsafe, hactive⟩ := h.openTarget hopens (hkeeps hadmits).1
    rw [hleaves.effects]
    exact ⟨hsafe, fun d' hd' => hactive.keeps (hleaves.keeps d' hd')⟩
  | @written block env _ hadmits handler opening saved hopens hwritten hsaved hleaves =>
    obtain ⟨hsafe, hactive⟩ := h.openTarget hopens (hkeeps hadmits).1
    have hfull := fullBlock_of_written hadmits hkeeps hactive hopens hwritten
    obtain ⟨hwrite, hmark⟩ := hactive.mark hwritten.1 hadmits.2.2.1.2 hfull
    have hsave {s' : Device} (h' : s'.Active cfg (d.mark handler block.blockId.toInt.toNat)) :
        s'.SafeEffects cfg (fileOf d.otaData) saved ∧
          (s'.applyAll (fileOf d.otaData) saved).Active cfg
            (d.mark handler block.blockId.toInt.toNat) := by
      rcases hsaved with rfl | rfl
      · exact ⟨trivial, h'⟩
      · exact h'.resumePersist hwritten.1 _ _
    rw [hleaves.effects, safeEffects_append, safeEffects_append, applyAll_append, applyAll_append,
      applyAll_append]
    exact ⟨⟨⟨hsafe, hwrite, trivial⟩, (hsave hmark).1⟩,
      fun d' hd' => (hsave hmark).2.keeps (hleaves.keeps d' hd')⟩
  | @complete block env _ hadmits handler opening cleared hopens hwritten hcomplete hcleared
      heffects hdone =>
    obtain ⟨hsafe, hactive⟩ := h.openTarget hopens (hkeeps hadmits).1
    have hfull := fullBlock_of_written hadmits hkeeps hactive hopens hwritten
    obtain ⟨hwrite, hmark⟩ := hactive.mark hwritten.1 hadmits.2.2.1.2 hfull
    rw [heffects, safeEffects_append, safeEffects_append]
    refine ⟨⟨⟨hsafe, hwrite, trivial⟩, ?_⟩, ?_⟩
    · -- The descriptor goes first, so the data are never erased under it.
      rcases hcleared with rfl | rfl
      · exact trivial
      · exact ⟨trivial, rfl, trivial⟩
    · intro d' hd'
      rw [hdone] at hd'
      cases hd'

/-- The start of a job. Its only effect is to clear a tracker that it does not accept. -/
theorem Device.Stored.start (h : s.Stored cfg) {otaData : OtaData} {env : StartEnv}
    {r : TaskResult} (hstart : otaMqttCb cfg s.store otaData env = some r) :
    s.SafeEffects cfg (fileOf otaData) r.effects ∧
      ∀ d, r.downloader = some d → d.otaData = otaData ∧
        (s.applyAll (fileOf otaData) r.effects).Active cfg d ∧
          (d.resumePending = true → r.effects = []) := by
  rcases otaMqttCb_outcome hstart with
    ⟨hnone, heffects⟩ | ⟨bitmap, attempt, hinit, hattempt, heffects, hkeeps⟩
  · rw [heffects, hnone]
    exact ⟨trivial, fun d hd => by cases hd⟩
  · have hcount := DownloaderBitmap.init_blockCount hinit
    have hmissing := DownloaderBitmap.isProcessed_init hinit
    have hfalse {d : Downloader} {p : Prop} (hbitmap : d.bitmap = bitmap) {id : Nat}
        (hid : d.bitmap.isProcessed id = true) : p := by
      rw [hbitmap, hmissing id] at hid
      cases hid
    suffices hattempt : s.SafeEffects cfg (fileOf otaData) attempt.2 ∧
        attempt.1.otaData = otaData ∧ (s.applyAll (fileOf otaData) attempt.2).Active cfg attempt.1 ∧
          (attempt.1.resumePending = true → attempt.2 = []) by
      rw [heffects]
      refine ⟨hattempt.1, ?_⟩
      intro d hd
      obtain ⟨hkeep, -⟩ := hkeeps d hd
      refine ⟨hkeep.otaData.trans hattempt.2.1, hattempt.2.2.1.keeps hkeep, ?_⟩
      rw [hkeep.resumePending]
      exact hattempt.2.2.2
    cases hattempt with
    | disabled =>
      refine ⟨trivial, rfl, ?_, fun _ => rfl⟩
      exact ⟨fun hh => (by cases hh), hcount, fun he => (by cases he), fun hp => (by cases hp),
        fun _ _ => hmissing, fun he => (by cases he), fun hh => by cases hh⟩
    | fresh hmd5 hcleared =>
      refine ⟨?_, rfl, ?_, fun hp => by cases hp⟩
      · rcases hcleared with rfl | rfl
        · exact trivial
        · exact ⟨trivial, rfl, trivial⟩
      · exact ⟨fun hh => (by cases hh), hcount, fun _ => ⟨_, hmd5, rfl⟩, fun hp => (by cases hp),
          fun _ _ => hmissing, fun _ id hid => hfalse rfl hid, fun hh => by cases hh⟩
    | @overlaid fileMd5 hmd5 tracker hdesc hdata hlength huseful =>
      refine ⟨trivial, rfl, ?_, fun _ => rfl⟩
      refine ⟨fun hh => (by cases hh), hcount, fun _ => ⟨_, hmd5, rfl⟩, fun _ => ⟨rfl, hdesc⟩,
        fun _ hp => (by cases hp), ?_, fun hh => by cases hh⟩
      -- The overlay is the stored tracker, which is good.
      intro _ id hid
      obtain ⟨tracker', hdata', hgood⟩ := h _ hdesc
      obtain rfl := Option.some.inj (hdata.symm.trans hdata')
      simp only [DownloaderBitmap.isProcessed, DownloaderBitmap.overlay, Bool.and_eq_true,
        Bool.not_eq_true'] at hid
      have hlt : id < (otaData.filesize + cfg.blockSize - 1) / cfg.blockSize :=
        hcount ▸ of_decide_eq_true hid.1
      have hpresent := hgood id ((lt_blocks_iff cfg otaData.filesize id).mp hlt) hid.2
      have hmd5' : nonEmpty otaData.fileMd5 = some fileMd5 := hmd5
      show s.Present cfg (fileOf otaData) otaData.filesize id
      rw [fileOf, hmd5']
      exact hpresent

/-- A good stored tracker is sound: a job that accepts it finds its blocks. -/
theorem Device.Stored.sound (h : s.Stored cfg) : s.Sound cfg := by
  intro otaData env r d hstart hd hpending id hid
  obtain ⟨-, hactive⟩ := h.start hstart
  obtain ⟨hjob, hactive, heffects⟩ := hactive d hd
  rw [heffects hpending] at hactive
  have hpresent := hactive.present (hactive.pending hpending).1 id hid
  rwa [hjob] at hpresent

/-- The invariant of the device. -/
def Device.Inv (cfg : DownloaderConfig) (s : Device) : Prop :=
  s.Stored cfg ∧ ∀ d, s.downloader = some d → s.Active cfg d

/-- What a work item does to a device that meets the condition. -/
theorem Device.Inv.perform (h : s.Inv cfg) {work : Work} {r : FileId × TaskResult}
    (hr : s.perform cfg work = some r) (hkeeps : s.KeepsTracker cfg (.run work)) :
    s.SafeEffects cfg r.1 r.2.effects ∧
      ∀ d, r.2.downloader = some d → (s.applyAll r.1 r.2.effects).Active cfg d := by
  cases work with
  | start otaData env =>
    rw [Device.perform] at hr
    split at hr
    · cases hr
    · obtain ⟨result, hstart, rfl⟩ := Option.map_eq_some_iff.mp hr
      obtain ⟨hsafe, hactive⟩ := h.1.start hstart
      exact ⟨hsafe, fun d hd => (hactive d hd).2.1⟩
  | task task =>
    obtain ⟨d, hd, rfl⟩ := Option.map_eq_some_iff.mp hr
    exact (h.2 d hd).run task (hkeeps d hd)

/-- **One action.** The condition keeps the invariant. -/
theorem Device.Inv.step (h : s.Inv cfg) {t : Device} {action : DeviceAction}
    (hkeeps : s.KeepsTracker cfg action) (ht : s.step cfg action = some t) : t.Inv cfg := by
  cases action with
  | run work =>
    obtain ⟨r, hr, rfl⟩ := Option.map_eq_some_iff.mp ht
    obtain ⟨hsafe, hactive⟩ := h.perform hr hkeeps
    have hstored := h.1.applyAll_take r.2.effects hsafe r.2.effects.length
    rw [List.take_length] at hstored
    refine ⟨hstored, ?_⟩
    intro d hd
    -- The context is not part of what the invariants of the storage read.
    have hd' := hactive d hd
    exact ⟨hd'.size, hd'.blockCount, hd'.desc, hd'.pending, hd'.fresh, hd'.present, hd'.own⟩
  | powerLoss work kept =>
    obtain ⟨r, hr, rfl⟩ := Option.map_eq_some_iff.mp ht
    have hkeeps' : s.KeepsTracker cfg (.run work) := by
      cases work <;> exact hkeeps
    obtain ⟨hsafe, -⟩ := h.perform hr hkeeps'
    exact ⟨h.1.applyAll_take r.2.effects hsafe kept, fun d hd => by cases hd⟩
  | reboot slot =>
    obtain rfl := Option.some.inj ht
    refine ⟨?_, fun d hd => by cases hd⟩
    rcases hkeeps with rfl | hnone
    · exact h.1
    · intro desc hdesc
      rw [show s.store.desc = some desc from hdesc] at hnone
      cases hnone

end Invariants

instance (cfg : DownloaderConfig) (s : Device) (d : Downloader) :
    (task : DownloadTask) → Decidable (s.TaskKeepsTracker cfg d task)
  | .block (some block) env => inferInstanceAs (Decidable (d.Admits block →
      (d.ErasesTarget cfg env.opening → s.store.desc = none) ∧
        (d.resumeEnabled = true → d.WritesFullBlock cfg block env)))
  | .block none _ => isTrue trivial
  | .requestTimeout _ => isTrue trivial

instance (cfg : DownloaderConfig) (s : Device) :
    (action : DeviceAction) → Decidable (s.KeepsTracker cfg action)
  | .run (.task task) =>
    inferInstanceAs (Decidable (∀ d ∈ s.downloader, s.TaskKeepsTracker cfg d task))
  | .powerLoss (.task task) _ =>
    inferInstanceAs (Decidable (∀ d ∈ s.downloader, s.TaskKeepsTracker cfg d task))
  | .run (.start ..) => isTrue trivial
  | .powerLoss (.start ..) _ => isTrue trivial
  | .reboot slot => inferInstanceAs (Decidable (slot = s.slot ∨ s.store.desc = none))

end RainMakerNeo.Ota
