import RainMakerNeo.Ota.DownloaderBitmap
import RainMakerNeo.Ota.ImageHandler

/-!
# `RainMakerNeo.Ota.Downloader`: the MQTT downloader

`ota_mqtt_downloader.c`. A download starts in `esp_rmaker_ota_mqtt_cb`. From then on the work
queue runs one task for each received block and one for each expired block request, and a task
ends the download when it reports to the image handler. The tasks run one at a time, so each is
one function from the downloader context to a `TaskResult`.

The context exists while a download is active, so an idle downloader is `none`. The queue itself
is not modelled: any message can be handled at any time while the download is active.
Subscriptions and the progress checkpoints have no effect on the blocks and are left out.
-/

set_option autoImplicit false

namespace RainMakerNeo.Ota

open RainMakerNeo.Lib (Cells cellCount getBit setBit maskedPopcount)

/-! ### Configuration and context -/

/-- The configuration of the downloader. The block size has a lower bound that the build
enforces. -/
structure DownloaderConfig where
  blockSize : Nat
  blocksPerRequest : Nat
  maxRetriesDivideFactor : Nat
  signatureVerify : Bool
  resume : Bool
  blockSize_ge : 256 ≤ blockSize

/-- `INT_MAX`. -/
def intMax : Nat := 2 ^ 31 - 1

/-- `mqtt_downloader_request_t`. -/
structure Request where
  fileId : UInt32 := 0
  blockOffset : Nat := 0
  blockCount : Nat := 0
  bitmap : Cells := []
  deriving DecidableEq, Repr

/-- `mqtt_downloader_block_request_ctx_t`. `timerArmed` is the state of its timeout handler. -/
structure BlockRequestCtx where
  successFlag : Bool := false
  failureFlag : Bool := false
  blocksPerRequest : Nat
  retryCount : Nat := 0
  maxRetries : Nat
  timerArmed : Bool := false
  deriving DecidableEq, Repr

/-- `mqtt_downloader_ctx_t` of an active download. -/
structure Downloader where
  otaData : OtaData
  imageHandler : ImageHandlerCtx := {}
  bitmap : DownloaderBitmap
  request : Request := {}
  blockRequest : BlockRequestCtx
  resumeEnabled : Bool := false
  resumePending : Bool := false
  resumeDesc : Option ResumeDesc := none

/-- `image_handler_status_t`. -/
inductive ImageStatus
  | success
  | timeout
  | failedSetup
  | failedStreamSubscription
  | failedUnknownError
  deriving DecidableEq, Repr

/-- What a task leaves behind: the context, `none` after the cleanup, the status that was
reported to the image handler, and the effects on the storage. -/
structure TaskResult where
  downloader : Option Downloader
  report : Option ImageStatus := none
  effects : List Effect := []

/-! ### Block requests -/

/-- The first loop of `request_get_next` over the ids of the blocks: the first and the last
unprocessed block and how many were seen. It stops after `count` of them. -/
def scanUnprocessed (cells : Cells) (count : Nat) :
    List Nat → Nat → Nat → Nat → Nat × Nat × Nat
  | [], first, last, seen => (first, last, seen)
  | id :: ids, first, last, seen =>
    if getBit cells id then
      let first := if id < first then id else first
      let last := if last < id then id else last
      if seen + 1 = count then (first, last, seen + 1)
      else scanUnprocessed cells count ids first last (seen + 1)
    else scanUnprocessed cells count ids first last seen

/-- The second loop of `request_get_next`: bit `id - first` of the compact bitmap for each
unprocessed block up to `last`. -/
def compactBitmap (cells : Cells) (first last : Nat) : Cells :=
  (List.range' (first / 8 * 8) (last + 1 - first / 8 * 8)).foldl
    (fun compact id => if getBit cells id then setBit compact (id - first) else compact)
    (List.replicate (cellCount (last - first + 1)) 0)

/-- `request_get_next`, `none` when the compact bitmap cannot be allocated. -/
def requestGetNext (fileId : UInt32) (blockCount : Nat) (bitmap : DownloaderBitmap)
    (allocated : Bool) : Option Request :=
  if bitmap.unprocessedBlockCount = 0 then some {}
  else
    let scan := scanUnprocessed bitmap.cells blockCount (List.range bitmap.blockCount)
      (2 ^ 32 - 1) 0 0
    if allocated then
      some
        { fileId
          blockOffset := scan.1
          blockCount := scan.2.2
          bitmap := compactBitmap bitmap.cells scan.1 scan.2.1 }
    else none

/-- The answers inside `block_request_send_next`. -/
structure SendEnv where
  allocated : Bool := true
  encoded : Bool := true
  timerRestarted : Bool := true
  published : Bool := true
  deriving DecidableEq, Repr

/-- `block_request_begin_context`. Its result is not looked at. -/
def blockRequestBeginContext (ctx : BlockRequestCtx) (restarted : Bool) : BlockRequestCtx :=
  { ctx with
    successFlag := false
    failureFlag := false
    timerArmed := restarted || ctx.timerArmed }

/-- `block_request_send_next`. -/
def blockRequestSendNext (d : Downloader) (env : SendEnv) : Bool × Downloader :=
  match requestGetNext d.otaData.fileId d.blockRequest.blocksPerRequest d.bitmap env.allocated with
  | none => (false, d)
  | some request =>
    let d := { d with request }
    if env.encoded then
      (env.published,
        { d with blockRequest := blockRequestBeginContext d.blockRequest env.timerRestarted })
    else (false, d)

/-! ### The end of a download -/

/-- `report_and_cleanup`. A complete download clears the stored tracker. -/
def reportAndCleanup (cfg : DownloaderConfig) (status : ImageStatus) (cleared : Bool) :
    TaskResult where
  downloader := none
  report := some status
  effects := if status = .success ∧ cfg.resume = true then nvsResumeClear cleared else []

/-- `block_request_on_failure_work_queue_task`. -/
def blockRequestOnFailure (cfg : DownloaderConfig) (d : Downloader) (env : SendEnv) :
    TaskResult :=
  if d.blockRequest.successFlag then { downloader := some d }
  else if d.blockRequest.failureFlag then { downloader := some d }
  else
    let retryCount := (d.blockRequest.retryCount + 1) % 2 ^ 32
    let d := { d with blockRequest :=
      { d.blockRequest with failureFlag := true, retryCount, blocksPerRequest := 1 } }
    if d.blockRequest.maxRetries < retryCount then reportAndCleanup cfg .timeout true
    else { downloader := some (blockRequestSendNext d env).2 }

/-! ### Processing a block -/

/-- `resume_persist`. -/
def resumePersist (d : Downloader) (env : SaveEnv) : List Effect :=
  match d.resumeDesc with
  | some desc => if d.resumeEnabled then nvsResumeSave desc d.bitmap.cells env else []
  | none => []

/-- The answers inside `block_request_on_success`. -/
structure SuccessEnv where
  cleared : Bool := true
  timerStopped : Bool := true
  save : SaveEnv := {}
  send : SendEnv := {}
  deriving DecidableEq, Repr

/-- `block_request_on_success`. `false` sends the caller to the failure task. -/
def blockRequestOnSuccess (cfg : DownloaderConfig) (d : Downloader) (env : SuccessEnv) :
    Bool × TaskResult :=
  if d.bitmap.unprocessedBlockCount = 0 then (true, reportAndCleanup cfg .success env.cleared)
  else
    -- The decrement of a `size_t` wraps at zero.
    let blockCount :=
      if d.request.blockCount = 0 then 2 ^ 32 - 1 else d.request.blockCount - 1
    let d := { d with request := { d.request with blockCount } }
    if 0 < blockCount then (true, { downloader := some d })
    else if d.blockRequest.failureFlag then (false, { downloader := some d })
    else
      let blocksPerRequest :=
        if d.blockRequest.blocksPerRequest < cfg.blocksPerRequest then
          d.blockRequest.blocksPerRequest + 1
        else d.blockRequest.blocksPerRequest
      let d := { d with blockRequest :=
        { d.blockRequest with
          timerArmed := d.blockRequest.timerArmed && !env.timerStopped
          successFlag := true
          retryCount := 0
          blocksPerRequest } }
      let effects := if cfg.resume then resumePersist d env.save else []
      let sent := blockRequestSendNext { d with request := {} } env.send
      (sent.1, { downloader := some sent.2, effects })

/-- A decoded block message: what `mqttDownloader_processReceivedDataBlock` hands back. -/
structure DataBlock where
  fileId : Int32 := 0
  blockId : Int32
  blockSize : Int32
  dataLength : Nat
  deriving DecidableEq, Repr

/-- The answers while a block is processed. -/
structure BlockEnv where
  opening : OpenEnv := {}
  written : Bool := true
  success : SuccessEnv := {}
  failure : SendEnv := {}
  deriving DecidableEq, Repr

/-- Run the failure task after a step of the block task went wrong. -/
def TaskResult.thenFailure (cfg : DownloaderConfig) (env : SendEnv) (result : TaskResult) :
    TaskResult :=
  match result.downloader with
  | none => result
  | some d =>
    let failure := blockRequestOnFailure cfg d env
    { failure with effects := result.effects ++ failure.effects }

/-- Open the target unless its handle is set. -/
def Downloader.openTarget (cfg : DownloaderConfig) (d : Downloader) (env : OpenEnv) :
    Bool × ImageHandlerCtx × List Effect :=
  if d.imageHandler.handle then (true, d.imageHandler, [])
  else imageHandlerBegin cfg.signatureVerify d.otaData d.resumePending env d.imageHandler

/-- A block that passed the checks: open the target if it is not open, write the block, mark it
and count it. -/
def acceptBlock (cfg : DownloaderConfig) (d : Downloader) (blockId dataLength : Nat)
    (env : BlockEnv) : TaskResult :=
  let opening := d.openTarget cfg env.opening
  let d := { d with imageHandler := opening.2.1 }
  if opening.1 then
    let chunk := imageHandlerWriteChunk d.imageHandler dataLength (blockId * cfg.blockSize)
      env.written
    let effects := opening.2.2 ++ chunk.2
    if chunk.1 then
      let d := { d with bitmap := d.bitmap.setProcessed blockId }
      let success := blockRequestOnSuccess cfg d env.success
      let result := { success.2 with effects := effects ++ success.2.effects }
      if success.1 then result else result.thenFailure cfg env.failure
    else TaskResult.thenFailure cfg env.failure { downloader := some d, effects }
  else TaskResult.thenFailure cfg env.failure { downloader := some d, effects := opening.2.2 }

/-- `write_chunk_to_image_handler_work_queue_task`. The message is `none` when it cannot be
decoded. -/
def writeChunk (cfg : DownloaderConfig) (d : Downloader) (message : Option DataBlock)
    (env : BlockEnv) : TaskResult :=
  let failure := TaskResult.thenFailure cfg env.failure { downloader := some d }
  match message with
  | none => failure
  | some block =>
    -- Blocks of other files of the stream are dropped without burning a retry.
    if block.fileId < 0 ∨ block.fileId.toUInt32 ≠ d.otaData.fileId then { downloader := some d }
    else if UInt32.ofNat block.dataLength ≠ block.blockSize.toUInt32 then failure
    else if block.blockId < 0 ∨ d.bitmap.blockCount ≤ block.blockId.toInt.toNat then failure
    else if d.bitmap.isProcessed block.blockId.toInt.toNat then { downloader := some d }
    else acceptBlock cfg d block.blockId.toInt.toNat block.dataLength env

/-- A task of an active download. -/
inductive DownloadTask
  | block (message : Option DataBlock) (env : BlockEnv)
  | requestTimeout (env : SendEnv)
  deriving DecidableEq, Repr

/-- One task of the work queue. -/
def Downloader.run (cfg : DownloaderConfig) (d : Downloader) : DownloadTask → TaskResult
  | .block message env => writeChunk cfg d message env
  | .requestTimeout env => blockRequestOnFailure cfg d env

/-! ### The start of a download -/

/-- The number of blocks of a file. It is `none` where `filesize + blockSize - 1` overflows an
`int`, which C leaves undefined. -/
def totalBlocks (cfg : DownloaderConfig) (filesize : Nat) : Option Nat :=
  if filesize + cfg.blockSize - 1 ≤ intMax then
    some ((filesize + cfg.blockSize - 1) / cfg.blockSize)
  else none

/-- `ESP_RMAKER_OTA_MD5_HEX_LEN`. -/
def md5HexLen : Nat := 32

/-- `resume_build_desc`. `strncpy` keeps the first `md5HexLen` characters. -/
def resumeBuildDesc (cfg : DownloaderConfig) (filesize : Nat) (fileMd5 : List Char) :
    ResumeDesc where
  md5Hex := fileMd5.take md5HexLen
  filesize
  transport := .mqtt
  blockSize := cfg.blockSize

/-- How the NVS answers `resume_attempt`. -/
structure AttemptEnv where
  loaded : Bool := true
  cleared : Bool := true
  deriving DecidableEq, Repr

/-- `resume_attempt` on a context with a fresh bitmap. -/
def resumeAttempt (cfg : DownloaderConfig) (store : ResumeStore) (env : AttemptEnv)
    (d : Downloader) : Downloader × List Effect :=
  match nonEmpty d.otaData.fileMd5 with
  | none => (d, [])
  | some fileMd5 =>
    let desc := resumeBuildDesc cfg d.otaData.filesize fileMd5
    let d := { d with resumeEnabled := true, resumeDesc := some desc }
    match nvsResumeLoad store env.loaded with
    | none => (d, [])
    | some (loaded, tracker) =>
      if h : nvsResumeMatches loaded desc = true ∧
          tracker.length = cellCount d.bitmap.blockCount then
        let unprocessed := maskedPopcount tracker d.bitmap.blockCount
        if unprocessed = 0 ∨ unprocessed = d.bitmap.blockCount then
          (d, nvsResumeClear env.cleared)
        else ({ d with bitmap := d.bitmap.overlay tracker h.2, resumePending := true }, [])
      else (d, nvsResumeClear env.cleared)

/-- The answers inside `esp_rmaker_ota_mqtt_cb`. `setup` covers what comes before the bitmap:
the chunk buffer, the thing name, the file downloader and the block request context. -/
structure StartEnv where
  setup : Bool := true
  bitmapAllocated : Bool := true
  attempt : AttemptEnv := {}
  handlersRegistered : Bool := true
  subscribed : Bool := true
  send : SendEnv := {}
  deriving DecidableEq, Repr

/-- The context that `esp_rmaker_ota_mqtt_cb` sets up before the resume attempt. -/
def freshDownloader (cfg : DownloaderConfig) (otaData : OtaData) (bitmap : DownloaderBitmap) :
    Downloader where
  otaData
  bitmap
  blockRequest :=
    { blocksPerRequest := cfg.blocksPerRequest
      maxRetries := bitmap.blockCount / cfg.maxRetriesDivideFactor }

/-- `esp_rmaker_ota_mqtt_cb` from the resume attempt on: the handlers, the subscription and the
first request. -/
def startDownload (cfg : DownloaderConfig) (attempt : Downloader × List Effect) (env : StartEnv) :
    TaskResult :=
  if !env.handlersRegistered then { downloader := none, effects := attempt.2 }
  else if !env.subscribed then
    { reportAndCleanup cfg .failedStreamSubscription true with effects := attempt.2 }
  else
    let sent := blockRequestSendNext attempt.1 env.send
    { downloader := if sent.1 then some sent.2 else none, effects := attempt.2 }

/-- `esp_rmaker_ota_mqtt_cb` while no download is active. It is `none` where the number of
blocks is undefined. -/
def otaMqttCb (cfg : DownloaderConfig) (store : ResumeStore) (otaData : OtaData)
    (env : StartEnv) : Option TaskResult :=
  (totalBlocks cfg otaData.filesize).map fun blocks =>
    match DownloaderBitmap.init blocks with
    | none => { downloader := none }
    | some bitmap =>
      if env.setup && env.bitmapAllocated then
        let d := freshDownloader cfg otaData bitmap
        startDownload cfg (if cfg.resume then resumeAttempt cfg store env.attempt d else (d, [])) env
      else { downloader := none }

/-! ### A small image -/

/-- The default configuration: CBOR blocks of 3042 bytes and resume enabled. -/
def defaultDownloader : DownloaderConfig where
  blockSize := 3042
  blocksPerRequest := 40
  maxRetriesDivideFactor := 10
  signatureVerify := false
  resume := true
  blockSize_ge := by decide

/-- An image of two blocks, the second one of 58 bytes. -/
def twoBlocks : OtaData where
  filesize := 3100
  fileMd5 := some (List.replicate 32 'a')

/-- Block `0` of `twoBlocks`. -/
def firstBlock : DataBlock where
  blockId := 0
  blockSize := 3042
  dataLength := 3042

/-- Block `1` of `twoBlocks`. -/
def secondBlock : DataBlock where
  blockId := 1
  blockSize := 58
  dataLength := 58

end RainMakerNeo.Ota
