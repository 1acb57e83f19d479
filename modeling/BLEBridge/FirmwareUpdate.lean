import BLEBridge.Lib.Staging
import BLEBridge.Manifest
/-!
# The OTA writer

`app_firmware_update.c`: the upload's static state and its calls `begin`,
`write`, `finish` and `abort`, over the flash as a device that logs every
operation. `fault` says which flash operations fail: `flash_safe_execute` then
does nothing and does not return `PICO_OK`.

Counters are `uint32_t` in C. Only `received` can be taken past `2 ^ 32` (a
piece may be longer than the rest of the upload), so only it wraps here: the
others never exceed the sizes that `begin` and the header check let through.
-/
open Lib

namespace BLEBridge

inductive AppFirmwareUpdateResult where
  | ok
  | invalidSize
  | invalidHeader
  | imageTooLarge
  | incomplete
  | notActive
  | invalidOffset
  | flashError
  deriving DecidableEq, Repr

/-- `app_firmware_update_state_t`. The page buffer is never overfilled. -/
structure AppFirmwareUpdateState where
  active : Bool
  headerValid : Bool
  result : AppFirmwareUpdateResult
  contentLen : Nat
  received : Nat
  imageReceived : Nat
  imageSize : Nat
  pageFill : Nat
  erasedUpTo : Nat
  header : Bytes
  page : Bytes
  fill_le : pageFill ≤ FLASH_PAGE_SIZE

/-- The state after `memset(&app_firmware_update, 0, ...)`, as at program start. -/
def AppFirmwareUpdateState.zero : AppFirmwareUpdateState where
  active := false
  headerValid := false
  result := .ok
  contentLen := 0
  received := 0
  imageReceived := 0
  imageSize := 0
  pageFill := 0
  erasedUpTo := 0
  header := List.replicate APP_FIRMWARE_UPDATE_HEADER_SIZE 0
  page := List.replicate FLASH_PAGE_SIZE 0
  fill_le := Nat.zero_le _

/-- The writer and the flash it writes to. -/
structure Ota where
  upd : AppFirmwareUpdateState
  flash : Flash

def copyStart : Nat := FIRMWARE_COPY.offset
def metadataStart : Nat := UPDATE_METADATA.offset

/-- Keeps the first failure of its kind (and logs it). -/
def appFirmwareUpdateFail (result : AppFirmwareUpdateResult) (s : AppFirmwareUpdateState) :
    AppFirmwareUpdateState :=
  if s.result = result then s else { s with result := result }

@[simp] theorem fail_result (r : AppFirmwareUpdateResult) (s : AppFirmwareUpdateState) :
    (appFirmwareUpdateFail r s).result = r := by
  unfold appFirmwareUpdateFail
  split <;> simp_all

@[simp] theorem fail_active (r : AppFirmwareUpdateResult) (s : AppFirmwareUpdateState) :
    (appFirmwareUpdateFail r s).active = s.active := by
  unfold appFirmwareUpdateFail
  split <;> rfl

section Flash
variable (fault : Nat → Bool)

def appFirmwareUpdateFlashProgramPage (off : Nat) (page : Bytes) (d : Flash) : Bool × Flash :=
  d.exec fault (.program off page)

def appFirmwareUpdateFlashEraseSector (off : Nat) (d : Flash) : Bool × Flash :=
  d.exec fault (.erase off FLASH_SECTOR_SIZE)

/-- `while (erased_up_to <= page_offset)`: erase the sectors up to the page's. -/
def eraseUpTo (pageOffset : Nat) (w : Ota) : Bool × Ota :=
  if w.upd.erasedUpTo ≤ pageOffset then
    let r := appFirmwareUpdateFlashEraseSector fault (copyStart + w.upd.erasedUpTo) w.flash
    if r.1 then
      eraseUpTo pageOffset ⟨{ w.upd with erasedUpTo := w.upd.erasedUpTo + FLASH_SECTOR_SIZE }, r.2⟩
    else (false, ⟨w.upd, r.2⟩)
  else (true, w)
termination_by pageOffset + 1 - w.upd.erasedUpTo
decreasing_by simp only [FLASH_SECTOR_SIZE]; omega

/-- Erase up to the page at `pageOffset` and program it from the page buffer. -/
def flushPage (pageOffset : Nat) (w : Ota) : Bool × Ota :=
  let e := eraseUpTo fault pageOffset w
  if e.1 then
    let r := appFirmwareUpdateFlashProgramPage fault (copyStart + pageOffset) e.2.upd.page e.2.flash
    (r.1, ⟨e.2.upd, r.2⟩)
  else e

/-- Copy a chunk of the image into the page buffer. -/
def AppFirmwareUpdateState.takeChunk (s : AppFirmwareUpdateState) (chunk : Bytes)
    (h : s.pageFill + chunk.length ≤ FLASH_PAGE_SIZE) : AppFirmwareUpdateState :=
  { s with
    page := memcpy s.page s.pageFill chunk
    pageFill := s.pageFill + chunk.length
    imageReceived := s.imageReceived + chunk.length
    fill_le := h }

/-- An empty page buffer: `page_fill = 0` and `memset(page, 0xff, ...)`. -/
def AppFirmwareUpdateState.emptyPage (s : AppFirmwareUpdateState) : AppFirmwareUpdateState :=
  { s with pageFill := 0, page := List.replicate FLASH_PAGE_SIZE 0xff, fill_le := Nat.zero_le _ }

theorem chunk_le {s : AppFirmwareUpdateState} {data : Bytes} :
    s.pageFill + (data.take (min data.length (FLASH_PAGE_SIZE - s.pageFill))).length ≤ FLASH_PAGE_SIZE := by
  have := s.fill_le
  rw [List.length_take]
  omega

def appFirmwareUpdateWriteImageData (data : Bytes) (w : Ota) : Bool × Ota :=
  if data.length = 0 then (true, w)
  else
    let chunk := min data.length (FLASH_PAGE_SIZE - w.upd.pageFill)
    let s := w.upd.takeChunk (data.take chunk) chunk_le
    if s.imageReceived > s.imageSize then (false, ⟨appFirmwareUpdateFail .imageTooLarge s, w.flash⟩)
    else if s.pageFill = FLASH_PAGE_SIZE then
      let r := flushPage fault (s.imageReceived - FLASH_PAGE_SIZE) ⟨s, w.flash⟩
      if r.1 then appFirmwareUpdateWriteImageData (data.drop chunk) ⟨r.2.upd.emptyPage, r.2.flash⟩
      else (false, ⟨appFirmwareUpdateFail .flashError r.2.upd, r.2.flash⟩)
    else appFirmwareUpdateWriteImageData (data.drop chunk) ⟨s, w.flash⟩
termination_by (data.length, w.upd.pageFill)
decreasing_by
  -- a chunk is only empty when the page buffer is full, and that page is then flushed
  all_goals
    have := w.upd.fill_le
    simp +zetaDelta only [FLASH_PAGE_SIZE, List.length_drop, List.length_take, Prod.lex_def,
      AppFirmwareUpdateState.takeChunk, AppFirmwareUpdateState.emptyPage] at *
    omega

/-- The loop that programs the metadata sector, over the page offsets left. -/
def programHeader (header : Bytes) : List Nat → Flash → Bool × Flash
  | [], d => (true, d)
  | off :: offs, d =>
    let r := appFirmwareUpdateFlashProgramPage fault (metadataStart + off) (slice header off FLASH_PAGE_SIZE) d
    if r.1 then programHeader header offs r.2 else r

def appFirmwareUpdateFinishWrite (w : Ota) : Bool × Ota :=
  let p : Bool × Ota :=
    if w.upd.pageFill > 0 then
      let pageOffset := w.upd.imageReceived - w.upd.pageFill
      let r := flushPage fault pageOffset { w with upd := { w.upd with
        page := memcpy w.upd.page w.upd.pageFill (List.replicate (FLASH_PAGE_SIZE - w.upd.pageFill) 0xff) } }
      if r.1 then (true, { r.2 with upd := { r.2.upd with pageFill := 0, fill_le := Nat.zero_le _ } }) else r
    else (true, w)
  if p.1 then
    let e := appFirmwareUpdateFlashEraseSector fault metadataStart p.2.flash
    if e.1 then
      let r := programHeader fault p.2.upd.header (strided APP_FIRMWARE_UPDATE_HEADER_SIZE FLASH_PAGE_SIZE) e.2
      (r.1, ⟨p.2.upd, r.2⟩)
    else (false, ⟨p.2.upd, e.2⟩)
  else p

/-! ## The calls -/

def appFirmwareUpdateBegin (contentLen : Nat) (w : Ota) : AppFirmwareUpdateResult × Ota :=
  let s : AppFirmwareUpdateState := .zero
  if contentLen < APP_FIRMWARE_UPDATE_HEADER_SIZE ∨
      contentLen > APP_FIRMWARE_UPDATE_HEADER_SIZE + appFirmwareUpdateImageMaxSize then
    let s := appFirmwareUpdateFail .invalidSize s
    (s.result, { w with upd := s })
  else (.ok, { w with upd := { s with active := true, contentLen := contentLen } })

/-- The `while` loop of `app_firmware_update_write`. -/
def writeLoop (data : Bytes) (w : Ota) : Ota :=
  if data.length > 0 ∧ w.upd.result = .ok then
    if w.upd.received < APP_FIRMWARE_UPDATE_HEADER_SIZE then
      let headerRemaining := APP_FIRMWARE_UPDATE_HEADER_SIZE - w.upd.received
      let chunk := min data.length headerRemaining
      let s := { w.upd with
        header := memcpy w.upd.header w.upd.received (data.take chunk)
        received := w.upd.received + chunk }
      if s.received = APP_FIRMWARE_UPDATE_HEADER_SIZE then
        if appFirmwareUpdateManifestIsValid s.header s.contentLen then
          writeLoop (data.drop chunk) { w with upd := { s with
            headerValid := true
            imageSize := (manifestOf s.header).imageSize
            page := List.replicate FLASH_PAGE_SIZE 0xff } }
        else { w with upd := appFirmwareUpdateFail .invalidHeader s }
      else writeLoop (data.drop chunk) { w with upd := s }
    else
      let s := { w.upd with received := (w.upd.received + data.length) % 2 ^ 32 }
      (appFirmwareUpdateWriteImageData fault data { w with upd := s }).2
  else w
termination_by data.length
decreasing_by all_goals simp only [List.length_drop]; omega

def appFirmwareUpdateWrite (data : Bytes) (w : Ota) : AppFirmwareUpdateResult × Ota :=
  if w.upd.active = false then (.notActive, w)
  else
    let w := writeLoop fault data w
    (w.upd.result, w)

def appFirmwareUpdateFinish (w : Ota) : AppFirmwareUpdateResult × Ota :=
  if w.upd.active = false then (.notActive, w)
  else
    let w :=
      if w.upd.result = .ok then
        if w.upd.headerValid = false ∨ w.upd.received ≠ w.upd.contentLen ∨
            w.upd.imageReceived ≠ w.upd.imageSize then
          { w with upd := appFirmwareUpdateFail .incomplete w.upd }
        else
          let r := appFirmwareUpdateFinishWrite fault w
          if r.1 then r.2 else { r.2 with upd := appFirmwareUpdateFail .flashError r.2.upd }
      else w
    (w.upd.result, { w with upd := { w.upd with active := false } })

def appFirmwareUpdateAbort (result : AppFirmwareUpdateResult) (w : Ota) : Ota :=
  let result := if result = .ok then .incomplete else result
  { w with upd := { appFirmwareUpdateFail result w.upd with active := false } }

end Flash

/-! ## Runs -/

/-- A call into the writer. -/
inductive Call where
  | begin (contentLen : Nat)
  | write (data : Bytes)
  | finish
  | abort (result : AppFirmwareUpdateResult)

def Call.run (fault : Nat → Bool) (w : Ota) : Call → Ota
  | .begin n => (appFirmwareUpdateBegin n w).2
  | .write data => (appFirmwareUpdateWrite fault data w).2
  | .finish => (appFirmwareUpdateFinish fault w).2
  | .abort r => appFirmwareUpdateAbort r w

/-- Any calls in any order. -/
def runCalls (fault : Nat → Bool) (calls : List Call) (w : Ota) : Ota := calls.foldl (Call.run fault) w

/-- Pieces passed in order to `app_firmware_update_write`. -/
def writeAll (fault : Nat → Bool) (pieces : List Bytes) (w : Ota) : Ota :=
  pieces.foldl (fun w data => (appFirmwareUpdateWrite fault data w).2) w

end BLEBridge
