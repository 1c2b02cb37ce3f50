import RainMakerNeo.Lib.CStr
import RainMakerNeo.Ota.ImageHandler

/-!
# `RainMakerNeo.Ota.JobDoc`: job documents and what the jobs task reads from them

The parsers of `ota_jobs.c` and the two functions of `ota_filetype_handler_internal.c` that
judge a document. The JSON library, the jobs library and the parser of the AFR fields are not
part of the repository. So a `JobDoc` is what their searches find in a response: a slice of
characters for each field, empty where nothing was found.
-/

set_option autoImplicit false

namespace RainMakerNeo.Ota.Jobs

open RainMakerNeo.Lib

/-! ### Data -/

/-- `OTA_FILETYPE_MAX_LENGTH`. -/
def otaFiletypeMaxLength : Nat := 32

/-- `MINUTES_PER_DAY`. -/
def minutesPerDay : Int := 1440

/-- What the search in `download_window` finds: the numbers that `strtol` reads. -/
structure WindowFields where
  validityStart : Option Int := none
  validityEnd : Option Int := none
  dailyStart : Option Int := none
  dailyEnd : Option Int := none
  deriving DecidableEq, Repr

/-- What the searches in `rmng_ota` find. -/
structure RmngFields where
  fwVersion : List Char := []
  minFwVersion : List Char := []
  fileMd5 : List Char := []
  filetype : List Char := []
  metadata : List Char := []
  downloadWindow : Option WindowFields := none
  deriving DecidableEq, Repr

/-- `AfrOtaJobDocumentFields_t`, as `otaParser_parseJobDocFile` fills it in. -/
structure AfrFields where
  fileSize : UInt32
  fileId : UInt32 := 0
  imageRef : List Char
  signature : List Char := []
  deriving DecidableEq, Repr

/-- The payload of an accepted describe response. `hasDocument` tells whether the job document
was found, `rmngOta` and `afr` are its two parts. -/
structure JobDoc where
  jobId : CStr
  hasDocument : Bool := true
  executionVersion : List Char := ['1']
  rmngOta : Option RmngFields := none
  afr : Option AfrFields := none
  deriving DecidableEq

/-- `ota_job_download_window_t`. The daily times are `int16_t`. -/
structure DownloadWindow where
  dailyStart : Int := -1
  dailyEnd : Int := -1
  validityStart : Int := 0
  validityEnd : Int := 0
  deriving DecidableEq, Repr

/-- `ota_job_info_custom_fields_t`. A field is empty where its pointer is `NULL`. -/
structure CustomFields where
  fwVersion : List Char := []
  minFwVersion : List Char := []
  fileMd5 : List Char := []
  filetype : List Char := []
  metadata : List Char := []
  downloadWindow : DownloadWindow := {}
  deriving DecidableEq, Repr

/-- `esp_rmaker_ota_data_t` in the current job. -/
structure JobOtaData extends OtaData where
  filesize := 0
  streamId : Option (List Char) := none
  metadata : Option (List Char) := none
  deriving DecidableEq, Repr

/-! ### The parsers -/

/-- A conversion to `int16_t`. -/
def int16 (x : Int) : Int := Int.bmod x 65536

/-- A conversion to `int32_t`. -/
def int32 (x : Int) : Int := Int.bmod x 4294967296

/-- The download window of the custom fields. -/
def parseDownloadWindow (timeSupport : Bool) : Option WindowFields → DownloadWindow
  | none => {}
  | some w =>
    if timeSupport then
      { dailyStart := (w.dailyStart.map int16).getD (-1)
        dailyEnd := (w.dailyEnd.map int16).getD (-1)
        validityStart := w.validityStart.getD 0
        validityEnd := w.validityEnd.getD 0 }
    else {}

/-- `parse_custom_fields_from_job_doc`. -/
def parseCustomFields (timeSupport : Bool) (doc : JobDoc) : Option CustomFields :=
  match doc.rmngOta with
  | none => none
  | some f =>
    -- A minimum version needs a version to compare with.
    if f.minFwVersion ≠ [] ∧ f.fwVersion = [] then none
    else
      some
        { fwVersion := f.fwVersion
          minFwVersion := f.minFwVersion
          fileMd5 := f.fileMd5
          filetype := f.filetype
          metadata := f.metadata
          downloadWindow := parseDownloadWindow timeSupport f.downloadWindow }

/-- `execution_version_to_int32`. An empty slice is version 0. -/
def executionVersionToInt32 (digits : List Char) : Option Int32 :=
  if digits.all fun c => '0' ≤ c && c ≤ '9' then
    some (digits.foldl (fun n c => n * 10 + Int32.ofNat (c.toNat - '0'.toNat)) 0)
  else none

/-- `has_download_window`. -/
def hasDownloadWindow (w : DownloadWindow) : Bool :=
  w.validityStart != 0 && w.validityEnd != 0

/-- The daily window as the code compares it: start, end and current minute. A window over
midnight is moved so that it starts at 0. -/
def dailyBounds (w : DownloadWindow) (nowMinutes : Int) : Int × Int × Int :=
  if w.dailyStart > w.dailyEnd then
    let diffMin := int16 (minutesPerDay - w.dailyStart)
    let shifted := int16 (nowMinutes + diffMin)
    (0, int16 (w.dailyEnd + diffMin),
      if shifted > minutesPerDay then int16 (shifted - minutesPerDay) else shifted)
  else (w.dailyStart, w.dailyEnd, nowMinutes)

/-- `get_download_window_delay_time`, at the time `now` whose local minute of the day is
`nowMinutes`. -/
def getDownloadWindowDelayTime (w : DownloadWindow) (now nowMinutes : Int) : Int :=
  if w.validityStart = 0 ∨ w.validityEnd = 0 then 0
  else if w.validityStart > w.validityEnd then -1
  else if now < w.validityStart then int32 ((w.validityStart - now).tdiv 60)
  else if now > w.validityEnd then -1
  else if w.dailyStart = -1 ∨ w.dailyEnd = -1 then 0
  else
    let (start, stop, minutes) := dailyBounds w nowMinutes
    if minutes ≥ start ∧ minutes ≤ stop then 0
    else if start - minutes < 0 then start - minutes + minutesPerDay
    else start - minutes

/-! ### Firmware versions -/

/-- The variables of the loop of `__default_version_to_uint32`. -/
structure VersionScan where
  major : Nat := 0
  minor : Nat := 0
  patch : Nat := 0
  fieldIdx : Nat := 0
  fieldHasDigit : Bool := false
  deriving DecidableEq, Repr

/-- The field that the loop is in. -/
def VersionScan.field (scan : VersionScan) : Nat :=
  match scan.fieldIdx with
  | 0 => scan.major
  | 1 => scan.minor
  | _ => scan.patch

/-- A digit goes to the end of that field. -/
def VersionScan.digit (scan : VersionScan) (d : Nat) : VersionScan :=
  let scan := { scan with fieldHasDigit := true }
  match scan.fieldIdx with
  | 0 => { scan with major := scan.major * 10 + d }
  | 1 => { scan with minor := scan.minor * 10 + d }
  | _ => { scan with patch := scan.patch * 10 + d }

/-- The loop of `__default_version_to_uint32`. A dot after the patch ends it. -/
def scanVersion : List Char → VersionScan → Option VersionScan
  | [], scan => some scan
  | c :: rest, scan =>
    if c = '.' then
      if scan.fieldHasDigit = false then none
      else if scan.fieldIdx = 2 then some scan
      else scanVersion rest { scan with fieldIdx := scan.fieldIdx + 1, fieldHasDigit := false }
    else if '0' ≤ c ∧ c ≤ '9' then
      let scan := scan.digit (c.toNat - '0'.toNat)
      if scan.field > 1023 then none else scanVersion rest scan
    else none

/-- `__default_version_to_uint32`: ten bits for each of the three fields. -/
def defaultVersionToUint32 (version : List Char) : Option UInt32 :=
  match scanVersion version {} with
  | none => none
  | some scan =>
    if scan.fieldIdx < 1 ∨ scan.fieldHasDigit = false then none
    else some (UInt32.ofNat scan.major <<< 20 ||| UInt32.ofNat scan.minor <<< 10
      ||| UInt32.ofNat scan.patch)

/-! ### Filetype handlers -/

/-- `esp_rmaker_ota_ft_ctx_t`: which of its callbacks are set. `id` is its address. -/
structure FtCtx where
  id : Nat
  hasGetVersion : Bool := true
  hasVersionToUint32 : Bool := true
  hasSetVersion : Bool := false
  hasOnDownloadBegin : Bool := true
  hasOnDownloadChunk : Bool := true
  hasOnDownloadComplete : Bool := true
  hasGetSha256Hash : Bool := true
  hasPerformIntegrationCheck : Bool := true
  hasOnPostDownloadChecksComplete : Bool := true
  deriving DecidableEq, Repr

/-- `filetype_handler_get_default_ctx`. -/
def defaultFtCtx : FtCtx where
  id := 0

/-- `filetype_handler_is_valid_ctx`. -/
def FtCtx.isValid (ft : FtCtx) : Bool :=
  ft.hasOnDownloadBegin && ft.hasOnDownloadChunk && ft.hasOnDownloadComplete
    && ft.hasGetSha256Hash && ft.hasPerformIntegrationCheck
    && ft.hasOnPostDownloadChecksComplete && ft.hasGetVersion == ft.hasVersionToUint32

/-! ### The OTA data of a job -/

/-- Which string copies of `set_ota_data_from_job_doc` the allocator serves. -/
structure CopyEnv where
  streamId : Bool := true
  signature : Bool := true
  fwVersion : Bool := true
  fileMd5 : Bool := true
  metadata : Bool := true
  deriving DecidableEq, Repr

/-- `__make_string_copy` for an optional field. A field that is absent is left as it was. -/
def copyOptional (src : List Char) (old : Option (List Char)) : Option (List Char) :=
  if src = [] then old else some src

/-- `set_ota_data_from_job_doc`, `none` where it fails. The caller then has cleared data, as
`clear_ota_data` leaves them. -/
def setOtaData (old : JobOtaData) (afr : AfrFields) (custom : CustomFields) (copied : CopyEnv) :
    Option JobOtaData :=
  if afr.fileSize.toNat > 2147483647 then none
  else if afr.imageRef = [] ∨ copied.streamId = false then none
  else if afr.signature ≠ [] ∧ copied.signature = false then none
  else if custom.fwVersion ≠ [] ∧ copied.fwVersion = false then none
  else if custom.fileMd5 ≠ [] ∧ copied.fileMd5 = false then none
  else if custom.metadata ≠ [] ∧ copied.metadata = false then none
  else
    some
      { filesize := afr.fileSize.toNat
        fileId := afr.fileId
        streamId := some afr.imageRef
        fileSignature := copyOptional afr.signature old.fileSignature
        fwVersion := copyOptional custom.fwVersion old.fwVersion
        fileMd5 := copyOptional custom.fileMd5 old.fileMd5
        metadata := copyOptional custom.metadata old.metadata }

end RainMakerNeo.Ota.Jobs
