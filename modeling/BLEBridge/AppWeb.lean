import BLEBridge.FirmwareUpdate
import BLEBridge.Lib.Runs
import BLEBridge.Lib.Text
/-!
# Uploads over HTTP

The part of `app_web.c` that takes an OTA file: the callbacks of the HTTP server
for a POST, one request record shared by all connections, and the writer behind
it. The calls on the writer are kept in order. URIs are C strings without their
NUL.
-/
open Lib

namespace BLEBridge

def APP_WEB_SAVE_STATUS_MAX_LEN : Nat := 96
def APP_WEB_OTA_URI : Bytes := ascii "/update"
def APP_WEB_OTA_CHUNK_SIZE : Nat := 4096

/-- `app_web_update_request_t` -/
structure AppWebUpdateRequest where
  valid : Bool
  offset : Nat
  size : Nat
  received : Nat
  deriving DecidableEq

def AppWebUpdateRequest.zero : AppWebUpdateRequest := ⟨false, 0, 0, 0⟩

/-- The static variables an upload uses, the writer and its flash, and the calls
made on the writer so far. -/
structure AppWeb where
  request : AppWebUpdateRequest
  saveStatus : Option (CString APP_WEB_SAVE_STATUS_MAX_LEN)
  ota : Ota
  calls : List Call

/-- After `app_web_init`, with no upload begun. -/
def AppWeb.init (flash : Flash) : AppWeb := ⟨.zero, none, ⟨.zero, flash⟩, []⟩

def appFirmwareUpdateResultText : AppFirmwareUpdateResult → Bytes
  | .ok => ascii "Update uploaded. Reboot to apply firmware."
  | .invalidSize => ascii "Update failed: invalid OTA file size"
  | .invalidHeader => ascii "Update failed: invalid OTA header"
  | .imageTooLarge => ascii "Update failed: OTA image is larger than manifest size"
  | .incomplete => ascii "Update failed: incomplete OTA upload"
  | .invalidOffset => ascii "Update failed: unexpected OTA chunk offset"
  | .flashError => ascii "Update failed: flash write error"
  | .notActive => ascii "Update failed: OTA upload is not active"

/-! ## Queries -/

def appWebUriPathEquals (uri path : Bytes) : Bool :=
  path.isPrefixOf uri && ((uri.drop path.length).head? = none || (uri.drop path.length).head? = some 63)

/-- `strtoul(s, &end, 10)` with 32-bit `unsigned long`, when it takes all of `s`. -/
def strtoul10 (s : Bytes) : Option Nat :=
  let digits := (signed s).2
  if digits = [] ∨ ¬digits.all isdigit then none
  else
    let n := digitsValue 10 digits
    some (if n ≥ 2 ^ 32 then 2 ^ 32 - 1 else if (signed s).1 then (2 ^ 32 - n) % 2 ^ 32 else n)

/-- The items after the question mark are separated by `&`, which no number goes
past. The first one of the given name counts. -/
def appWebQueryU32 (uri name : Bytes) : Option Nat :=
  match uri.dropWhile (· ≠ 63) with
  | [] => none
  | _ :: query =>
    match (query.splitOn 38).find? fun item => (name ++ [61]).isPrefixOf item with
    | none => none
    | some item => strtoul10 (item.drop (name.length + 1))

def queryOffset (uri : Bytes) : Option Nat := appWebQueryU32 uri (ascii "offset")

def queryTotal (uri : Bytes) : Option Nat := appWebQueryU32 uri (ascii "total")

/-! ## The callbacks -/

def appWebSetSaveStatus (message : Bytes) (s : AppWeb) : AppWeb :=
  { s with saveStatus := some (.copy APP_WEB_SAVE_STATUS_MAX_LEN message) }

def appWebUpdateRequestFail (result : AppFirmwareUpdateResult) (s : AppWeb) : AppWeb :=
  let s := appWebSetSaveStatus (appFirmwareUpdateResultText result)
    { s with request := { s.request with valid := false } }
  if s.ota.upd.active then
    { s with ota := appFirmwareUpdateAbort result s.ota, calls := s.calls ++ [.abort result] }
  else s

/-- Whether the server goes on with the body, that is `ERR_OK` and not
`ERR_ARG`. -/
def httpdPostBegin (uri : Bytes) (contentLen : Int) (s : AppWeb) : Bool × AppWeb :=
  let s := { s with request := .zero }
  if appWebUriPathEquals uri APP_WEB_OTA_URI = false then (false, s)
  else
    match queryOffset uri, queryTotal uri with
    | some offset, some total =>
      if contentLen < 0 ∨ offset ≥ total then (true, appWebUpdateRequestFail .invalidSize s)
      else
        let expectedSize := min (total - offset) APP_WEB_OTA_CHUNK_SIZE
        let accepted := { s with request := ⟨true, offset, contentLen.toNat, 0⟩ }
        if contentLen.toNat ≠ expectedSize then (true, appWebUpdateRequestFail .invalidSize s)
        else if offset = 0 then
          let (result, ota) := appFirmwareUpdateBegin total s.ota
          let calls := s.calls ++ [.begin total]
          if result ≠ .ok then
            (true, appWebSetSaveStatus (appFirmwareUpdateResultText result) { s with ota := ota, calls := calls })
          else
            (true, appWebSetSaveStatus (ascii "Update upload started")
              { accepted with ota := ota, calls := calls })
        else if s.ota.upd.active = false ∨ total ≠ s.ota.upd.contentLen ∨ offset ≠ s.ota.upd.received then
          (true, appWebUpdateRequestFail .invalidOffset s)
        else (true, accepted)
    | _, _ => (true, appWebUpdateRequestFail .invalidSize s)

section
variable (fault : Nat → Bool)

/-- The loop of `httpd_post_receive_data`, over the parts of the data left. -/
def receiveLoop : List Bytes → AppWeb → AppWeb
  | [], s => s
  | data :: rest, s =>
    if s.request.valid = false ∨ s.ota.upd.active = false then s
    else
      let (result, ota) := appFirmwareUpdateWrite fault data s.ota
      let s := { s with
        request := { s.request with received := (s.request.received + data.length) % 2 ^ 32 }
        ota := ota
        calls := s.calls ++ [.write data] }
      if result ≠ .ok then appWebUpdateRequestFail result s else receiveLoop rest s

/-- The parts that fit the buffer of 256 bytes. -/
def bufferParts (data : Bytes) : List Bytes := (strided data.length 256).map fun offset => slice data offset 256

def httpdPostReceiveData (data : Bytes) (s : AppWeb) : AppWeb := receiveLoop fault (bufferParts data) s

/-- With the result it reports when the upload is complete. -/
def httpdPostFinished (s : AppWeb) : Option AppFirmwareUpdateResult × AppWeb :=
  if s.request.valid = false then (none, s)
  else if s.request.received ≠ s.request.size ∨
    s.ota.upd.received ≠ (s.request.offset + s.request.size) % 2 ^ 32 then
    (none, appWebUpdateRequestFail .incomplete s)
  else
    let (report, s) :=
      if s.ota.upd.active ∧ s.ota.upd.received = s.ota.upd.contentLen then
        let (result, ota) := appFirmwareUpdateFinish fault s.ota
        (some result, appWebSetSaveStatus (appFirmwareUpdateResultText result)
          { s with ota := ota, calls := s.calls ++ [.finish] })
      else (none, appWebSetSaveStatus (ascii "Update upload in progress") s)
    (report, { s with request := { s.request with valid := false } })

end

/-- A callback of the HTTP server for a POST. -/
inductive PostCallback where
  | begin (uri : Bytes) (contentLen : Int)
  | data (data : Bytes)
  | finished
  deriving DecidableEq

def AppWeb.callback (fault : Nat → Bool) (s : AppWeb) : PostCallback → AppWeb
  | .begin uri contentLen => (httpdPostBegin uri contentLen s).2
  | .data data => httpdPostReceiveData fault data s
  | .finished => (httpdPostFinished fault s).2

/-! ## Exchanges -/

/-- A POST to the update URI, with as much of its body as arrives. -/
structure Exchange where
  uri : Bytes
  contentLen : Int
  pieces : List Bytes
  path : appWebUriPathEquals uri APP_WEB_OTA_URI = true
  body_le : pieces.flatten.length ≤ contentLen.toNat

def Exchange.body (e : Exchange) : Bytes := e.pieces.flatten

/-- The callbacks of an exchange. -/
def runExchange (fault : Nat → Bool) (e : Exchange) (s : AppWeb) : Option AppFirmwareUpdateResult × AppWeb :=
  let (_, s) := httpdPostBegin e.uri e.contentLen s
  httpdPostFinished fault (e.pieces.foldl (fun s data => httpdPostReceiveData fault data s) s)

end BLEBridge
