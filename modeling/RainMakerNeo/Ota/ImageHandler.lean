import RainMakerNeo.Lib.BitCells

/-!
# `RainMakerNeo.Ota.ImageHandler`: opening the target and writing to it

The first part of `ota_image_handler.c` and the resume functions of `ota_nvs.c`. Both act on
storage that outlives the download: the target of the filetype handler and two keys of the OTA
namespace. Their functions return the list of `Effect`s that they had on this storage, in order.
A power loss keeps a prefix of that list.

The callbacks of the filetype handler, the allocator and the NVS are the environment. Their
answers come in as records whose defaults are the success values.
-/

set_option autoImplicit false

namespace RainMakerNeo.Ota

open RainMakerNeo.Lib (Cells)

/-! ### Storage that outlives the download -/

/-- `esp_rmaker_ota_transport_t`. -/
inductive Transport
  | none
  | mqtt
  deriving DecidableEq, Repr

/-- `esp_rmaker_ota_resume_desc_t`. -/
structure ResumeDesc where
  md5Hex : List Char
  filesize : Nat
  transport : Transport
  blockSize : Nat
  deriving DecidableEq, Repr

/-- One change of the target or of the stored tracker. -/
inductive Effect
  /-- `on_download_begin` erased the target. -/
  | begun
  /-- `on_download_resume` reopened the target with its bytes retained. -/
  | resumed
  /-- `on_download_chunk` wrote `size` bytes at `offset`. -/
  | wrote (offset size : Nat)
  | savedData (tracker : Cells)
  | savedDesc (desc : ResumeDesc)
  | erasedDesc
  | erasedData
  deriving DecidableEq, Repr

/-- The two resume keys of the OTA namespace. -/
structure ResumeStore where
  desc : Option ResumeDesc := none
  data : Option Cells := none
  deriving DecidableEq, Repr

/-- An effect on the two keys. -/
def ResumeStore.apply (store : ResumeStore) : Effect → ResumeStore
  | .savedData tracker => { store with data := some tracker }
  | .savedDesc desc => { store with desc := some desc }
  | .erasedDesc => { store with desc := none }
  | .erasedData => { store with data := none }
  | .begun | .resumed | .wrote .. => store

/-- How the NVS answers a save: the namespace opens, and each of the two writes succeeds. -/
structure SaveEnv where
  opened : Bool := true
  data : Bool := true
  desc : Bool := true
  deriving DecidableEq, Repr

/-- `esp_rmaker_ota_nvs_resume_save`: the tracker first, then the descriptor. -/
def nvsResumeSave (desc : ResumeDesc) (tracker : Cells) (env : SaveEnv) : List Effect :=
  if env.opened && env.data then
    if env.desc then [.savedData tracker, .savedDesc desc] else [.savedData tracker]
  else []

/-- `esp_rmaker_ota_nvs_resume_load`. It needs both keys. -/
def nvsResumeLoad (store : ResumeStore) (opened : Bool) : Option (ResumeDesc × Cells) :=
  if opened then
    match store.desc, store.data with
    | some desc, some tracker => some (desc, tracker)
    | _, _ => none
  else none

/-- `esp_rmaker_ota_nvs_resume_clear`. -/
def nvsResumeClear (opened : Bool) : List Effect :=
  if opened then [.erasedDesc, .erasedData] else []

/-- `esp_rmaker_ota_nvs_resume_matches`. -/
def nvsResumeMatches (loaded current : ResumeDesc) : Bool :=
  if loaded.transport = .none ∨ loaded.transport ≠ current.transport then false
  else if loaded.filesize ≠ current.filesize then false
  else if loaded.md5Hex ≠ current.md5Hex then false
  else if loaded.transport = .mqtt ∧ loaded.blockSize ≠ current.blockSize then false
  else true

/-- A descriptor of an MQTT download matches only itself. -/
theorem nvsResumeMatches_iff {loaded current : ResumeDesc} (h : current.transport = .mqtt) :
    nvsResumeMatches loaded current = true ↔ loaded = current := by
  obtain ⟨md5Hex, filesize, transport, blockSize⟩ := loaded
  obtain ⟨md5Hex', filesize', transport', blockSize'⟩ := current
  obtain rfl : transport' = .mqtt := h
  cases transport <;> simp [nvsResumeMatches]
  tauto

/-! ### The image handler -/

/-- The fields of `esp_rmaker_ota_data_t` that a download reads. `filesize` is not negative:
`set_ota_data_from_job_doc` refuses what does not fit an `int`. -/
structure OtaData where
  filesize : Nat
  fileId : UInt32 := 0
  fwVersion : Option (List Char) := none
  fileMd5 : Option (List Char) := none
  fileSignature : Option (List Char) := none
  deriving DecidableEq, Repr

/-- `image_handler_ctx_t`. `handle` tells whether the handle is set, `opened` whether
`ft_handler` is. -/
structure ImageHandlerCtx where
  handle : Bool := false
  signature : Option (List Char) := none
  imageSize : Nat := 0
  opened : Bool := false
  expectedFwVersion : Option (List Char) := none
  expectedMd5 : Option (List Char) := none
  deriving DecidableEq, Repr

/-- What a callback that opens the target answers: whether it succeeds, whether it sets the
handle, and whether it erased the target in spite of a failure. -/
structure OpenAnswer where
  ok : Bool := true
  handle : Bool := true
  erased : Bool := false
  deriving DecidableEq, Repr

/-- The answers inside `image_handler_begin`. `resume` is `none` for a filetype handler without
`on_download_resume`. -/
structure OpenEnv where
  fwVersionCopied : Bool := true
  md5Copied : Bool := true
  signatureDecoded : Bool := true
  resume : Option OpenAnswer := some {}
  fresh : OpenAnswer := {}
  deriving DecidableEq, Repr

/-- A string field of the job, `none` for `NULL` and for the empty string. -/
def nonEmpty (field : Option (List Char)) : Option (List Char) :=
  field.filter fun chars => !chars.isEmpty

/-- The label `image_handler_begin_fail`. -/
def imageHandlerBeginFail (ctx : ImageHandlerCtx) : ImageHandlerCtx :=
  { ctx with signature := none, expectedFwVersion := none, expectedMd5 := none, handle := false }

/-- The second half of `image_handler_begin`: resume when asked to, else or on a failure of the
resume begin afresh. -/
def imageHandlerOpen (imageSize : Nat) (resume : Bool) (env : OpenEnv) (ctx : ImageHandlerCtx) :
    Bool × ImageHandlerCtx × List Effect :=
  let resumed := if resume then env.resume.filter OpenAnswer.ok else none
  match resumed with
  | some answer =>
    (true, { ctx with handle := answer.handle, imageSize, opened := true }, [.resumed])
  | none =>
    if env.fresh.ok then
      (true, { ctx with handle := env.fresh.handle, imageSize, opened := true }, [.begun])
    else
      (false, imageHandlerBeginFail ctx, if env.fresh.erased then [.begun] else [])

/-- `image_handler_begin`. It is called with no handle set. -/
def imageHandlerBegin (signatureVerify : Bool) (otaData : OtaData) (resume : Bool) (env : OpenEnv)
    (ctx : ImageHandlerCtx) : Bool × ImageHandlerCtx × List Effect :=
  let ctx := { ctx with signature := none, expectedFwVersion := none, expectedMd5 := none }
  let fwVersion := nonEmpty otaData.fwVersion
  let fileMd5 := nonEmpty otaData.fileMd5
  if fwVersion.isSome && !env.fwVersionCopied then (false, ctx, [])
  else
    let ctx := { ctx with expectedFwVersion := fwVersion }
    if fileMd5.isSome && !env.md5Copied then (false, imageHandlerBeginFail ctx, [])
    else
      let ctx := { ctx with expectedMd5 := fileMd5 }
      if signatureVerify then
        match nonEmpty otaData.fileSignature with
        | none => (false, ctx, [])
        | some signature =>
          if env.signatureDecoded then
            imageHandlerOpen otaData.filesize resume env { ctx with signature := some signature }
          else (false, imageHandlerBeginFail ctx, [])
      else imageHandlerOpen otaData.filesize resume env ctx

/-- `image_handler_write_chunk`. `written` is the answer of `on_download_chunk`. -/
def imageHandlerWriteChunk (ctx : ImageHandlerCtx) (size offset : Nat) (written : Bool) :
    Bool × List Effect :=
  if !ctx.handle || size = 0 then (false, [])
  else if ctx.imageSize < offset ∨ ctx.imageSize - offset < size then (false, [])
  else if written then (true, [.wrote offset size]) else (false, [])

/-! ### What the image handler can do -/

/-- `image_handler_begin` gets to the callbacks: the copies could be made, and where signatures
are verified there is one that decodes. -/
def OpenEnv.Prepared (signatureVerify : Bool) (otaData : OtaData) (env : OpenEnv) : Prop :=
  ((nonEmpty otaData.fwVersion).isSome = true → env.fwVersionCopied = true) ∧
    ((nonEmpty otaData.fileMd5).isSome = true → env.md5Copied = true) ∧
      (signatureVerify = true →
        (nonEmpty otaData.fileSignature).isSome = true ∧ env.signatureDecoded = true)

instance (signatureVerify : Bool) (otaData : OtaData) (env : OpenEnv) :
    Decidable (env.Prepared signatureVerify otaData) := by
  rw [OpenEnv.Prepared]
  infer_instance

/-- The resume callback exists and succeeds. -/
def OpenEnv.resumes (env : OpenEnv) : Bool := env.resume.any OpenAnswer.ok

/-- What `image_handler_begin` can do to the target. It resumes only when it is asked to and the
callback succeeds, and else it begins afresh. A failure leaves no handle. -/
inductive Opens (signatureVerify : Bool) (otaData : OtaData) (resume : Bool) (env : OpenEnv) :
    Bool × ImageHandlerCtx × List Effect → Prop
  | resumed (ctx : ImageHandlerCtx) (hprepared : env.Prepared signatureVerify otaData)
      (hsize : ctx.imageSize = otaData.filesize) (hresume : resume = true)
      (hresumes : env.resumes = true) (hhandle : env.resume.any OpenAnswer.handle = ctx.handle) :
      Opens signatureVerify otaData resume env (true, ctx, [.resumed])
  | begun (ctx : ImageHandlerCtx) (hprepared : env.Prepared signatureVerify otaData)
      (hsize : ctx.imageSize = otaData.filesize)
      (hresume : resume = true → env.resumes = false) (hok : env.fresh.ok = true)
      (hhandle : env.fresh.handle = ctx.handle) :
      Opens signatureVerify otaData resume env (true, ctx, [.begun])
  | erased (ctx : ImageHandlerCtx) (hprepared : env.Prepared signatureVerify otaData)
      (hhandle : ctx.handle = false) (hresume : resume = true → env.resumes = false)
      (hok : env.fresh.ok = false) (herased : env.fresh.erased = true) :
      Opens signatureVerify otaData resume env (false, ctx, [.begun])
  | unopened (ctx : ImageHandlerCtx) (hprepared : env.Prepared signatureVerify otaData)
      (hhandle : ctx.handle = false) (hresume : resume = true → env.resumes = false)
      (hok : env.fresh.ok = false) (herased : env.fresh.erased = false) :
      Opens signatureVerify otaData resume env (false, ctx, [])
  | unprepared (ctx : ImageHandlerCtx) (hprepared : ¬env.Prepared signatureVerify otaData)
      (hhandle : ctx.handle = false) : Opens signatureVerify otaData resume env (false, ctx, [])

theorem imageHandlerOpen_opens {signatureVerify : Bool} {otaData : OtaData} {env : OpenEnv}
    (hprepared : env.Prepared signatureVerify otaData) (resume : Bool) (ctx : ImageHandlerCtx) :
    Opens signatureVerify otaData resume env
      (imageHandlerOpen otaData.filesize resume env ctx) := by
  rw [imageHandlerOpen]
  cases hresumed : (if resume then env.resume.filter OpenAnswer.ok else none) with
  | some answer =>
    have hresume : resume = true := by
      cases resume with
      | true => rfl
      | false => cases hresumed
    rw [if_pos hresume] at hresumed
    have hanswer := Option.filter_eq_some_iff.mp hresumed
    refine .resumed _ hprepared rfl hresume ?_ ?_
    · show env.resume.any OpenAnswer.ok = true
      rw [hanswer.1]
      exact hanswer.2
    · rw [hanswer.1]
      rfl
  | none =>
    have hno : resume = true → env.resumes = false := by
      intro hresume
      rw [if_pos hresume] at hresumed
      cases hanswer : env.resume with
      | none => simp [OpenEnv.resumes, hanswer]
      | some answer => simpa [OpenEnv.resumes, hanswer, Option.filter] using hresumed
    cases hok : env.fresh.ok with
    | true => exact .begun _ hprepared rfl hno hok rfl
    | false =>
      cases herased : env.fresh.erased with
      | true => exact .erased _ hprepared rfl hno hok herased
      | false => exact .unopened _ hprepared rfl hno hok herased

theorem imageHandlerBegin_opens (signatureVerify : Bool) (otaData : OtaData) (resume : Bool)
    (env : OpenEnv) {ctx : ImageHandlerCtx} (h : ctx.handle = false) :
    Opens signatureVerify otaData resume env
      (imageHandlerBegin signatureVerify otaData resume env ctx) := by
  simp only [imageHandlerBegin]
  split
  · rename_i hfw
    refine .unprepared _ ?_ h
    intro hprepared
    simp only [Bool.and_eq_true, Bool.not_eq_true'] at hfw
    simp [hprepared.1 hfw.1] at hfw
  · rename_i hfw
    split
    · rename_i hmd5
      refine .unprepared _ ?_ rfl
      intro hprepared
      simp only [Bool.and_eq_true, Bool.not_eq_true'] at hmd5
      simp [hprepared.2.1 hmd5.1] at hmd5
    · rename_i hmd5
      -- Both copies were made. What is left is the signature.
      have hcopies : ((nonEmpty otaData.fwVersion).isSome = true → env.fwVersionCopied = true) ∧
          ((nonEmpty otaData.fileMd5).isSome = true → env.md5Copied = true) := by
        constructor
        · intro hsome
          simpa [hsome] using hfw
        · intro hsome
          simpa [hsome] using hmd5
      split
      · rename_i hverify
        split
        · rename_i hnone
          refine .unprepared _ ?_ h
          intro hprepared
          have hsome := (hprepared.2.2 hverify).1
          simp [hnone] at hsome
        · rename_i signature hsome
          split
          · rename_i hdecoded
            exact imageHandlerOpen_opens
              ⟨hcopies.1, hcopies.2, fun _ => ⟨by rw [hsome]; rfl, hdecoded⟩⟩ resume _
          · rename_i hdecoded
            refine .unprepared _ ?_ rfl
            intro hprepared
            exact hdecoded (hprepared.2.2 hverify).2
      · rename_i hverify
        exact imageHandlerOpen_opens
          ⟨hcopies.1, hcopies.2, fun hv => absurd hv hverify⟩ resume _

/-- A chunk is written when there is a handle, it is inside the declared image, and the callback
succeeds. Else nothing happens. -/
theorem imageHandlerWriteChunk_cases (ctx : ImageHandlerCtx) (size offset : Nat) (written : Bool) :
    (imageHandlerWriteChunk ctx size offset written = (true, [.wrote offset size]) ∧
        ctx.handle = true ∧ 0 < size ∧ offset + size ≤ ctx.imageSize ∧ written = true) ∨
      (imageHandlerWriteChunk ctx size offset written = (false, []) ∧
        ¬(ctx.handle = true ∧ 0 < size ∧ offset + size ≤ ctx.imageSize ∧ written = true)) := by
  rw [imageHandlerWriteChunk]
  split
  · rename_i hargs
    refine .inr ⟨rfl, ?_⟩
    intro h
    rcases Bool.or_eq_true_iff.mp hargs with hhandle | hsize
    · simp [h.1] at hhandle
    · exact absurd (of_decide_eq_true hsize) (by omega)
  · rename_i hargs
    simp only [Bool.or_eq_true, Bool.not_eq_true', decide_eq_true_eq, not_or,
      Bool.not_eq_false] at hargs
    split
    · rename_i hrange
      exact .inr ⟨rfl, fun h => by omega⟩
    · cases written with
      | true => exact .inl ⟨rfl, hargs.1, by omega, by omega, rfl⟩
      | false => exact .inr ⟨rfl, fun h => by simp at h⟩

end RainMakerNeo.Ota
