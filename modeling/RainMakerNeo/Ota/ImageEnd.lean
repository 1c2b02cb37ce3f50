import RainMakerNeo.Lib.CStr
import RainMakerNeo.Ota.Downloader

/-!
# `RainMakerNeo.Ota.ImageEnd`: the checks of a downloaded image

The second part of `ota_image_handler.c`, with the callbacks of the default filetype handler. The
download context is allocated when the download begins, and two of the callbacks free it.
`Download` counts these calls and keeps what else the callbacks did.

`endsWell_iff` says when the end is as it should be. The context is freed once if the download
succeeded, every check passed and the boot partition was set. An aborted download frees it twice,
and the other failures either report a reboot or leave the context allocated.
-/

set_option autoImplicit false

namespace RainMakerNeo.Ota

open RainMakerNeo.Lib (CStr strncmpEq)

/-! ### The default filetype handler -/

/-- The fields of `osal_ota_app_desc_t` that are read. -/
structure AppDesc where
  version : List Char
  projectName : List Char
  deriving DecidableEq, Repr

/-- What the calls of the OTA layer answer. -/
structure EndEnv where
  /-- `osal_ota_end` succeeds. -/
  ended : Bool := true
  /-- `osal_ota_abort` succeeds. -/
  aborted : Bool := true
  /-- The description of the partition that was written. -/
  downloaded : Option AppDesc
  /-- The running partition, and its description. -/
  running : Option (Option AppDesc)
  /-- The last invalid partition, and its description. -/
  lastInvalid : Option (Option AppDesc) := none
  /-- `osal_ota_get_partition_hash`. -/
  md5 : Option (List UInt8) := none
  sha256 : Option (List UInt8) := none
  /-- `rmaker_ota_signature_verify_context`, for the hash. -/
  signatureVerified : List UInt8 → Bool := fun _ => true
  /-- `osal_ota_set_boot_partition` succeeds. -/
  bootSet : Bool := true

/-- What the callbacks did. `released` counts the calls of `free` for the download context. -/
structure Download where
  released : Nat := 0
  bootSwitched : Bool := false
  shouldReboot : Bool := false
  /-- The status timer runs. -/
  statusTimer : Bool := false
  deriving DecidableEq, Repr

/-- `__default_on_download_complete`. -/
def defaultOnDownloadComplete (handle success : Bool) (env : EndEnv) (d : Download) :
    Bool × Download :=
  if handle = false then (false, d)
  else if (if success then env.ended else env.aborted) = false then (false, d)
  else if success then (true, d)
  else (true, { d with released := d.released + 1 })

/-- `__default_verify_image_header`. -/
def defaultVerifyImageHeader (handle : Bool) (expectedFwVersion : Option (List Char))
    (env : EndEnv) : Bool :=
  if handle = false then false
  else
    match nonEmpty expectedFwVersion with
    | none => false
    | some expected =>
      match env.downloaded, env.running with
      | some downloaded, some (some running) =>
        strncmpEq 32 downloaded.projectName running.projectName
          && strncmpEq 32 downloaded.version expected
      | _, _ => false

/-- `__default_get_md5_hash`. -/
def defaultGetMd5Hash (handle : Bool) (env : EndEnv) : Option (List UInt8) :=
  if handle = false then none else env.md5

/-- `__default_get_sha256_hash`. -/
def defaultGetSha256Hash (handle : Bool) (env : EndEnv) : Option (List UInt8) :=
  if handle = false then none else env.sha256

/-- `__default_perform_integration_check`: not the version that failed last. -/
def defaultPerformIntegrationCheck (handle : Bool) (env : EndEnv) : Bool :=
  if handle = false then false
  else
    match env.lastInvalid with
    | none => true
    | some none => false
    | some (some lastInvalid) =>
      match env.downloaded with
      | none => false
      | some current => current.version != lastInvalid.version

/-- `__default_on_post_download_checks_complete`. -/
def defaultOnPostDownloadChecksComplete (handle success : Bool) (env : EndEnv) (d : Download) :
    Bool × Download :=
  if handle = false then (false, d)
  else if success ∧ env.bootSet = false then (false, d)
  else
    (true, { d with
      bootSwitched := d.bootSwitched || success
      released := d.released + 1
      shouldReboot := true })

/-! ### The image handler -/

/-- The event that a failed check leaves, `OTA_JOB_EVENT_IMAGE_DOWNLOAD_FAILED_...`. -/
inductive FailureEvent
  | postDownloadChecks
  | imageHeaderInvalid
  | md5Invalid
  | signatureInvalid
  deriving DecidableEq, Repr

/-- `esp_rmaker_convert_bytes_to_hex`. -/
def bytesToHex (bytes : List UInt8) : List Char :=
  bytes.flatMap fun b => [Nat.digitChar (b.toNat / 16), Nat.digitChar (b.toNat % 16)]

/-- `strcasecmp(a, b) == 0`. -/
def strcasecmpEq (a b : List Char) : Bool := a.map Char.toLower == b.map Char.toLower

/-- The MD5 check. It is made if the job has an MD5. -/
def md5Matches (ctx : ImageHandlerCtx) (env : EndEnv) : Bool :=
  match ctx.expectedMd5 with
  | none => true
  | some expected =>
    match defaultGetMd5Hash ctx.handle env with
    | none => false
    | some md5 => strcasecmpEq (bytesToHex md5) expected

/-- Where the checks end. -/
inductive Checked
  /-- `goto image_handler_end_end`, with an error. -/
  | stopped
  /-- `goto image_handler_end_post_download_checks_complete`, with an error. -/
  | failed (event : FailureEvent)
  | passed
  deriving DecidableEq, Repr

/-- The signature check, `none` without a hash. It is made if it is configured. -/
def signatureCheck (signatureVerify : Bool) (ctx : ImageHandlerCtx) (env : EndEnv) : Option Bool :=
  if signatureVerify = false then some true
  else (defaultGetSha256Hash ctx.handle env).map env.signatureVerified

/-- The checks of `image_handler_end`, in their order. -/
def imageHandlerChecks (signatureVerify : Bool) (ctx : ImageHandlerCtx) (env : EndEnv) : Checked :=
  if defaultVerifyImageHeader ctx.handle ctx.expectedFwVersion env = false then
    .failed .imageHeaderInvalid
  else if md5Matches ctx env = false then .failed .md5Invalid
  else
    match signatureCheck signatureVerify ctx env with
    | none => .stopped
    | some false => .failed .signatureInvalid
    | some true =>
      if defaultPerformIntegrationCheck ctx.handle env = false then .failed .postDownloadChecks
      else .passed

/-- The result of `image_handler_end`: whether it is `ESP_RMAKER_OK`, and the failure event. -/
structure Ended where
  ok : Bool
  failure : FailureEvent
  download : Download
  deriving DecidableEq, Repr

/-- The label `image_handler_end_post_download_checks_complete`. `ok` is the error so far. -/
def postDownloadChecksComplete (ctx : ImageHandlerCtx) (env : EndEnv) (passed ok : Bool)
    (failure : FailureEvent) (d : Download) : Ended :=
  let d := { d with statusTimer := d.statusTimer || passed }
  match defaultOnPostDownloadChecksComplete ctx.handle passed env d with
  | (false, d) => ⟨false, failure, { d with statusTimer := false }⟩
  | (true, d) => ⟨ok, failure, { d with statusTimer := d.statusTimer && !d.shouldReboot }⟩

/-- The part of `image_handler_end` behind `on_download_complete`, for a complete download. -/
def imageHandlerEndChecked (signatureVerify : Bool) (ctx : ImageHandlerCtx) (env : EndEnv)
    (d : Download) : Ended :=
  match imageHandlerChecks signatureVerify ctx env with
  | .stopped => ⟨false, .postDownloadChecks, d⟩
  | .failed event => postDownloadChecksComplete ctx env false false event d
  | .passed => postDownloadChecksComplete ctx env true true .postDownloadChecks d

/-- `image_handler_end` with the default filetype handler. -/
def imageHandlerEnd (signatureVerify : Bool) (ctx : ImageHandlerCtx) (success : Bool)
    (env : EndEnv) (d : Download) : Ended :=
  -- `image_handler_begin` was not called.
  if ctx.opened = false then ⟨true, .postDownloadChecks, d⟩
  else
    match defaultOnDownloadComplete ctx.handle success env d with
    | (false, d) => ⟨false, .postDownloadChecks, d⟩
    | (true, d) =>
      if success then imageHandlerEndChecked signatureVerify ctx env d
      else postDownloadChecksComplete ctx env false true .postDownloadChecks d

/-! ### The event -/

/-- The event for the state machine. -/
inductive DownloadEvent
  | succeeded
  | ended (status : ImageStatus)
  | checkFailed (event : FailureEvent)
  deriving DecidableEq, Repr

/-- `image_handler_end_and_cleanup`: the event, whether it tells to reboot, and what the callbacks
did. -/
def imageHandlerEndAndCleanup (signatureVerify : Bool) (ctx : ImageHandlerCtx)
    (status : ImageStatus) (env : EndEnv) : DownloadEvent × Bool × Download :=
  let ended := imageHandlerEnd signatureVerify ctx (status == .success) env {}
  if ended.ok then
    (if status = .success then .succeeded else .ended status, ended.download.shouldReboot,
      ended.download)
  else (.checkFailed ended.failure, false, ended.download)

/-! ### What passes -/

section

variable {signatureVerify : Bool} {ctx : ImageHandlerCtx} {success : Bool} {env : EndEnv}

/-- Every check of a complete download passed. -/
structure ChecksPass (signatureVerify : Bool) (ctx : ImageHandlerCtx) (env : EndEnv) : Prop where
  ended : env.ended = true
  header : defaultVerifyImageHeader ctx.handle ctx.expectedFwVersion env = true
  md5 : md5Matches ctx env = true
  signature : signatureCheck signatureVerify ctx env = some true
  integration : defaultPerformIntegrationCheck ctx.handle env = true

/-- There is a download context: `image_handler_begin` set the handler and the handle. -/
def ImageHandlerCtx.HasDownload (ctx : ImageHandlerCtx) : Prop :=
  ctx.opened = true ∧ ctx.handle = true

instance (ctx : ImageHandlerCtx) : Decidable ctx.HasDownload :=
  inferInstanceAs (Decidable (ctx.opened = true ∧ ctx.handle = true))

/-- The checks go through if each of them passes. -/
theorem imageHandlerChecks_passed (hended : env.ended = true) :
    imageHandlerChecks signatureVerify ctx env = .passed ↔
      ChecksPass signatureVerify ctx env := by
  constructor
  · intro h
    rw [imageHandlerChecks] at h
    -- The first check that fails decides, so passing means that none did.
    by_cases hheader : defaultVerifyImageHeader ctx.handle ctx.expectedFwVersion env = false
    · exact absurd ((if_pos hheader).symm.trans h) (by nofun)
    rw [if_neg hheader] at h
    by_cases hmd5 : md5Matches ctx env = false
    · exact absurd ((if_pos hmd5).symm.trans h) (by nofun)
    rw [if_neg hmd5] at h
    cases hsignature : signatureCheck signatureVerify ctx env with
    | none =>
      rw [hsignature] at h
      exact absurd h (by nofun)
    | some verified =>
      rw [hsignature] at h
      cases verified with
      | false => exact absurd h (by nofun)
      | true =>
        by_cases hintegration : defaultPerformIntegrationCheck ctx.handle env = false
        · exact absurd ((if_pos hintegration).symm.trans h) (by nofun)
        exact ⟨hended, by simpa using hheader, by simpa using hmd5, hsignature,
          by simpa using hintegration⟩
  · intro h
    rw [imageHandlerChecks, if_neg (by simp [h.header]), if_neg (by simp [h.md5]), h.signature]
    exact if_neg (by simp [h.integration])

/-! ### How it ends -/

/-- After the checks, with a handle: the context is freed, unless the boot partition could not be
set. -/
theorem postDownloadChecksComplete_eq (hhandle : ctx.handle = true) (passed ok : Bool)
    (failure : FailureEvent) (d : Download) :
    postDownloadChecksComplete ctx env passed ok failure d =
      if passed = true ∧ env.bootSet = false then ⟨false, failure, { d with statusTimer := false }⟩
      else ⟨ok, failure,
        { released := d.released + 1
          bootSwitched := d.bootSwitched || passed
          shouldReboot := true
          statusTimer := false }⟩ := by
  rw [postDownloadChecksComplete, defaultOnPostDownloadChecksComplete, hhandle,
    if_neg (show ¬ (true = false) by simp)]
  by_cases hset : passed = true ∧ env.bootSet = false
  · rw [if_pos hset, if_pos hset]
  · rw [if_neg hset, if_neg hset]
    simp

/-- How the end of a download with a context can go: whether the download succeeded, whether the
end did, and what the callbacks did. -/
inductive Finishes (signatureVerify : Bool) (ctx : ImageHandlerCtx) (env : EndEnv) :
    Bool → Bool → Download → Prop
  /-- An abort frees the context and goes on to the callback that frees it again. -/
  | aborted (haborted : env.aborted = true) :
      Finishes signatureVerify ctx env false true { released := 2, shouldReboot := true }
  | notAborted (haborted : env.aborted = false) :
      Finishes signatureVerify ctx env false false {}
  | notEnded (hended : env.ended = false) : Finishes signatureVerify ctx env true false {}
  /-- Without a hash the callback is not reached. -/
  | stopped (h : ¬ ChecksPass signatureVerify ctx env) :
      Finishes signatureVerify ctx env true false {}
  | failed (h : ¬ ChecksPass signatureVerify ctx env) :
      Finishes signatureVerify ctx env true false { released := 1, shouldReboot := true }
  | notSet (h : ChecksPass signatureVerify ctx env) (hset : env.bootSet = false) :
      Finishes signatureVerify ctx env true false {}
  | switched (h : ChecksPass signatureVerify ctx env) (hset : env.bootSet = true) :
      Finishes signatureVerify ctx env true true
        { released := 1, bootSwitched := true, shouldReboot := true }

/-- The end of a download with a context goes in one of these ways. -/
theorem imageHandlerEnd_finishes (h : ctx.HasDownload) (success : Bool) :
    Finishes signatureVerify ctx env success
      (imageHandlerEnd signatureVerify ctx success env {}).ok
      (imageHandlerEnd signatureVerify ctx success env {}).download := by
  obtain ⟨hopened, hhandle⟩ := h
  rw [imageHandlerEnd, if_neg (by simp [hopened]), defaultOnDownloadComplete,
    if_neg (by simp [hhandle])]
  cases success with
  | false =>
    cases haborted : env.aborted with
    | false => exact .notAborted haborted
    | true =>
      -- An abort has already released the context when the callback runs.
      have heq : postDownloadChecksComplete ctx env false true .postDownloadChecks
        { released := 1 } = _ := postDownloadChecksComplete_eq hhandle false true _ _
      rw [if_neg (by simp)] at heq
      show Finishes signatureVerify ctx env false
        (postDownloadChecksComplete ctx env false true .postDownloadChecks { released := 1 }).ok
        (postDownloadChecksComplete ctx env false true .postDownloadChecks
          { released := 1 }).download
      rw [heq]
      exact .aborted haborted
  | true =>
    cases hended : env.ended with
    | false => exact .notEnded hended
    | true =>
      have hpassed : imageHandlerChecks signatureVerify ctx env = .passed ↔ _ :=
        imageHandlerChecks_passed hended
      show Finishes signatureVerify ctx env true
        (imageHandlerEndChecked signatureVerify ctx env {}).ok
        (imageHandlerEndChecked signatureVerify ctx env {}).download
      rw [imageHandlerEndChecked]
      cases hchecks : imageHandlerChecks signatureVerify ctx env with
      | stopped => exact .stopped fun h => absurd (hpassed.mpr h) (by simp [hchecks])
      | failed event =>
        simp only [postDownloadChecksComplete_eq hhandle]
        exact .failed fun h => absurd (hpassed.mpr h) (by simp [hchecks])
      | passed =>
        simp only [postDownloadChecksComplete_eq hhandle]
        cases hset : env.bootSet with
        | false => exact .notSet (hpassed.mp hchecks) hset
        | true => exact .switched (hpassed.mp hchecks) hset

/-- The end of a download is as it should be: the boot partition and the reboot only with every
check of a complete download passed, and the context freed once if there is one. -/
structure EndsWell (signatureVerify : Bool) (ctx : ImageHandlerCtx) (success : Bool)
    (env : EndEnv) (d : Download) : Prop where
  boot : d.bootSwitched = true → success = true ∧ ChecksPass signatureVerify ctx env
  reboot : d.shouldReboot = true → success = true ∧ ChecksPass signatureVerify ctx env
  released : d.released = if ctx.HasDownload then 1 else 0

/-- Without a context nothing is done. -/
theorem imageHandlerEnd_none (h : ¬ ctx.HasDownload) (success : Bool) :
    (imageHandlerEnd signatureVerify ctx success env {}).download = {} := by
  rw [imageHandlerEnd]
  by_cases hopened : ctx.opened = false
  · rw [if_pos hopened]
  · have hhandle : ctx.handle = false := by
      by_contra hhandle
      exact h ⟨by simpa using hopened, by simpa using hhandle⟩
    rw [if_neg hopened, defaultOnDownloadComplete, if_pos hhandle]

end

/-- The end of a download is as it should be exactly if there is no download context, or the
download succeeded, every check passed and the boot partition was set. -/
theorem endsWell_iff (signatureVerify : Bool) (ctx : ImageHandlerCtx) (success : Bool)
    (env : EndEnv) :
    EndsWell signatureVerify ctx success env
        (imageHandlerEnd signatureVerify ctx success env {}).download ↔
      (ctx.HasDownload →
        success = true ∧ ChecksPass signatureVerify ctx env ∧ env.bootSet = true) := by
  by_cases h : ctx.HasDownload
  · have hfinish : Finishes signatureVerify ctx env success
      (imageHandlerEnd signatureVerify ctx success env {}).ok
      (imageHandlerEnd signatureVerify ctx success env {}).download :=
      imageHandlerEnd_finishes h success
    generalize (imageHandlerEnd signatureVerify ctx success env {}).download = d at hfinish
    generalize (imageHandlerEnd signatureVerify ctx success env {}).ok = ok at hfinish
    have hone : (if ctx.HasDownload then 1 else 0) = 1 := if_pos h
    constructor
    · intro hwell _
      -- Each other way releases the context twice or never, or it asks for a reboot with a failed
      -- check.
      have hreleased : d.released = 1 := hwell.released.trans hone
      cases hfinish with
      | aborted _ => exact absurd hreleased (by simp)
      | notAborted _ => exact absurd hreleased (by simp)
      | notEnded _ => exact absurd hreleased (by simp)
      | stopped _ => exact absurd hreleased (by simp)
      | failed hfail => exact absurd (hwell.reboot rfl).2 hfail
      | notSet _ _ => exact absurd hreleased (by simp)
      | switched hpass hset => exact ⟨rfl, hpass, hset⟩
    · intro hcond
      obtain ⟨rfl, hpass, hset⟩ := hcond h
      cases hfinish with
      | notEnded hended => exact absurd hpass.ended (by simp [hended])
      | stopped hfail => exact absurd hpass hfail
      | failed hfail => exact absurd hpass hfail
      | notSet _ hno => exact absurd hset (by simp [hno])
      | switched _ _ => exact ⟨fun _ => ⟨rfl, hpass⟩, fun _ => ⟨rfl, hpass⟩, hone.symm⟩
  · rw [imageHandlerEnd_none h]
    refine ⟨fun _ hno => absurd hno h, fun _ => ?_⟩
    exact ⟨nofun, nofun, (if_neg h).symm⟩

/-- A download with a handle that is timed out and aborted. -/
theorem aborted_twice : ∃ (ctx : ImageHandlerCtx) (env : EndEnv), ctx.HasDownload ∧
    (imageHandlerEnd false ctx false env {}).download = { released := 2, shouldReboot := true } ∧
    ¬ EndsWell false ctx false env (imageHandlerEnd false ctx false env {}).download := by
  refine ⟨{ handle := true, opened := true }, { downloaded := none, running := none }, by decide,
    by decide, ?_⟩
  intro h
  exact absurd h.released (by decide)

/-- An event tells to reboot after a download that was checked and switched to, and after one that
was aborted. The event of a failed check does not. -/
theorem event_reboot_iff (signatureVerify : Bool) (ctx : ImageHandlerCtx) (status : ImageStatus)
    (env : EndEnv) :
    (imageHandlerEndAndCleanup signatureVerify ctx status env).2.1 = true ↔
      ctx.HasDownload ∧ (status ≠ .success ∧ env.aborted = true ∨
        status = .success ∧ ChecksPass signatureVerify ctx env ∧ env.bootSet = true) := by
  -- The event of a failed check is built without the request.
  have hreboot : (imageHandlerEndAndCleanup signatureVerify ctx status env).2.1
      = ((imageHandlerEnd signatureVerify ctx (status == .success) env {}).ok &&
        (imageHandlerEnd signatureVerify ctx (status == .success) env
          {}).download.shouldReboot) := by
    rw [imageHandlerEndAndCleanup]
    cases (imageHandlerEnd signatureVerify ctx (status == .success) env {}).ok with
    | false => rfl
    | true => rfl
  rw [hreboot]
  by_cases h : ctx.HasDownload
  · have hfinish : Finishes signatureVerify ctx env (status == .success) _ _ :=
      imageHandlerEnd_finishes h (status == .success)
    by_cases hstatus : status = .success
    · rw [show (status == .success) = true by simp [hstatus]] at hfinish ⊢
      generalize (imageHandlerEnd signatureVerify ctx true env {}).download = d at hfinish
      generalize (imageHandlerEnd signatureVerify ctx true env {}).ok = ok at hfinish
      cases hfinish with
      | notEnded hended =>
        have hno : ¬ ChecksPass signatureVerify ctx env := fun hp => by simp [hp.ended] at hended
        simp [hno, hstatus]
      | stopped hfail => simp [hfail, hstatus]
      | failed hfail => simp [hfail, hstatus]
      | notSet _ hset => simp [hset, hstatus]
      | switched hpass hset => simp [h, hpass, hset, hstatus]
    · rw [show (status == .success) = false by simp [hstatus]] at hfinish ⊢
      generalize (imageHandlerEnd signatureVerify ctx false env {}).download = d at hfinish
      generalize (imageHandlerEnd signatureVerify ctx false env {}).ok = ok at hfinish
      cases hfinish with
      | aborted haborted => simp [h, haborted, hstatus]
      | notAborted haborted => simp [haborted, hstatus]
  · rw [imageHandlerEnd_none h]
    simp [h]

end RainMakerNeo.Ota
