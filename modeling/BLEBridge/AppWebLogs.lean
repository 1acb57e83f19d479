import BLEBridge.AppLog
/-!
# The download of the log

`app_web_logs.c`: the two files of the log as one file of the web server. A file
open for reading has what it held when it was opened.
-/
open Lib

namespace BLEBridge

def APP_WEB_LOGS_URI : Bytes := ascii "/logs.txt"
def APP_WEB_LOG_READ_CHUNK : UInt32 := 1024
def FS_READ_EOF : Int := -1
def FS_FILE_FLAGS_HEADER_PERSISTENT : Nat := 2

/-- A `FIL` open for reading. -/
structure ReadFil where
  content : Bytes
  position : Nat

/-- `app_web_log_stream_t`; a file that is not open is `none`. -/
structure AppWebLogStream where
  previousFile : Option ReadFil
  currentFile : Option ReadFil
  previousSize : Nat
  previousRead : Nat
  inUse : Bool

def AppWebLogStream.zero : AppWebLogStream := ⟨none, none, 0, 0, false⟩

/-- The fields of `struct fs_file` that are used; `pextension` is the stream or `NULL`. -/
structure FsFile where
  len : Int
  index : Int
  flags : Nat
  pextension : Bool

/-- `f_open` of a file that is there can fail. -/
def openFil (opens : Bool) (file : Option Bytes) : Option ReadFil :=
  if opens then file.map (⟨·, 0⟩) else none

/-- `int` of an unsigned value -/
def toInt (n : Nat) : Int := (BitVec.ofNat 32 n).toInt

/-- The file when 1 is returned, and the stream. -/
def fsOpenCustom (opens : Bool) (volume : LogVolume) (name : Bytes) (stream : AppWebLogStream) :
    Option FsFile × AppWebLogStream :=
  if name ≠ APP_WEB_LOGS_URI ∨ stream.inUse then (none, stream)
  else
    let previous := openFil opens volume.log1
    let current := openFil opens volume.log
    let previousSize := (previous.map (·.content.length)).getD 0
    let totalSize := previousSize + (current.map (·.content.length)).getD 0
    (some ⟨toInt totalSize, 0, FS_FILE_FLAGS_HEADER_PERSISTENT, true⟩, ⟨previous, current, previousSize, 0, true⟩)

def fsCloseCustom (file : FsFile) (stream : AppWebLogStream) : FsFile × AppWebLogStream :=
  if !file.pextension then (file, stream) else ({ file with pextension := false }, .zero)

/-- What was read, `none` for an error of `f_read`. -/
def appWebLogReadFile (reads : Bool) (source : ReadFil) (count : UInt32) : Option Bytes × ReadFil :=
  if !reads then (none, source)
  else
    let bytes := (source.content.drop source.position).take count.toNat
    (some bytes, { source with position := source.position + bytes.length })

/-- The end of `fs_read_custom`, which reads the current file. -/
def readCurrent (reads : Bool) (readCount : UInt32) (file : FsFile) (stream : AppWebLogStream) :
    Option Bytes × FsFile × AppWebLogStream :=
  match stream.currentFile with
  | none => (none, file, stream)
  | some current =>
    let (result, current) := appWebLogReadFile reads current readCount
    let stream := { stream with currentFile := some current }
    match result with
    | some (b :: bytes) => (some (b :: bytes), { file with index := file.index + (b :: bytes).length }, stream)
    | _ => (none, file, stream)

/-- The bytes whose number is returned, `none` for `FS_READ_EOF`. -/
def fsReadCustom (reads : Bool) (count : Int) (file : FsFile) (stream : AppWebLogStream) :
    Option Bytes × FsFile × AppWebLogStream :=
  if count ≤ 0 ∨ !file.pextension then (none, file, stream)
  else
    let readCount := toUInt32 count
    let readCount := if readCount > APP_WEB_LOG_READ_CHUNK then APP_WEB_LOG_READ_CHUNK else readCount
    match stream.previousFile with
    | none => readCurrent reads readCount file stream
    | some previous =>
      if stream.previousRead < stream.previousSize then
        let remaining := stream.previousSize - stream.previousRead
        let readCount := if readCount.toNat > remaining then UInt32.ofNat remaining else readCount
        let (result, previous) := appWebLogReadFile reads previous readCount
        let stream := { stream with previousFile := some previous }
        match result with
        | some (b :: bytes) => (some (b :: bytes), { file with index := file.index + (b :: bytes).length },
            { stream with previousRead := stream.previousRead + (b :: bytes).length })
        | _ => readCurrent reads readCount file { stream with previousRead := stream.previousSize }
      else readCurrent reads readCount file stream

end BLEBridge
