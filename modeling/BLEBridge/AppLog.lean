import BLEBridge.ConfigFile
import BLEBridge.Lib.Fixed
/-!
# The log

`app_log.c`. The volume has `log.txt` and `log1.txt`; a file that is not there is
`none`. What FatFs does is an argument of each call.
-/
open Lib

namespace BLEBridge

def APP_LOG_MAX_SIZE_BYTES : Nat := 48 * 1024

/-- `sizeof(line)` -/
def SIZEOF_LOG_LINE : Nat := 256

/-- The files of the log. -/
structure LogVolume where
  log : Option Bytes
  log1 : Option Bytes

/-- `log_file` is open or not, and has the size that `f_size` reads. It is
positioned at its end. -/
structure LogFil where
  isOpen : Bool
  size : Nat

/-- The static variables and the volume. -/
structure AppLog where
  volume : LogVolume
  logFile : LogFil
  logReady : Bool

/-- Which of the calls of FatFs succeed. `f_unlink` also succeeds when there is no file. -/
structure LogResults where
  mounts : Bool
  opens : Bool
  seeks : Bool
  unlinks : Bool
  renames : Bool
  write : Option WriteFailure

/-- All of them. -/
def LogResults.healthy : LogResults := ⟨true, true, true, true, true, none⟩

/-- What a file holds, or nothing when it is not there. -/
def fileText (file : Option Bytes) : Bytes := file.getD []

@[simp] theorem fileText_some (content : Bytes) : fileText (some content) = content := rfl

def appLogOpenCurrentFile (r : LogResults) (s : AppLog) : Bool × AppLog :=
  if !r.opens then (false, { s with logFile := { s.logFile with isOpen := false } })
  else
    let content := fileText s.volume.log
    let s := { s with volume := { s.volume with log := some content } }
    if !r.seeks then (false, { s with logFile := ⟨false, content.length⟩ })
    else (true, { s with logFile := ⟨true, content.length⟩ })

def appLogRotateIfNeeded (r : LogResults) (incomingLen : Nat) (s : AppLog) : Bool × AppLog :=
  if s.logFile.size + incomingLen ≤ APP_LOG_MAX_SIZE_BYTES then (true, s)
  else
    let s := { s with logFile := { s.logFile with isOpen := false } }
    if !r.unlinks then appLogOpenCurrentFile r s
    else
      let s := { s with volume := { s.volume with log1 := none } }
      if !r.renames then appLogOpenCurrentFile r s
      else appLogOpenCurrentFile r { s with volume := ⟨none, s.volume.log⟩ }

def appLogInit (r : LogResults) (s : AppLog) : Bool × AppLog :=
  if !r.mounts then (false, s)
  else
    let (opened, s) := appLogOpenCurrentFile r s
    if !opened then (false, s) else (true, { s with logReady := true })

def appLogClose (s : AppLog) : AppLog :=
  if !s.logReady then s else { s with logFile := { s.logFile with isOpen := false }, logReady := false }

/-- `"[%lu.%03lu] "` -/
def logPrefix (uptimeMs : UInt32) : Bytes :=
  ascii "[" ++ decimal (uptimeMs / 1000).toNat ++ ascii "." ++ padded 3 (uptimeMs % 1000).toNat ++ ascii "] "

/-- The line that `app_log` makes of the formatted message. -/
def logLine (uptimeMs : UInt32) (message : Bytes) : Bytes :=
  let linePrefix := logPrefix uptimeMs
  let messageOffset := if 0 < linePrefix.length ∧ linePrefix.length < SIZEOF_LOG_LINE then
    linePrefix.length else 0
  let line := cstr (linePrefix.take messageOffset ++ message.take (SIZEOF_LOG_LINE - messageOffset - 1))
  let len := if line.length ≥ SIZEOF_LOG_LINE - 2 then SIZEOF_LOG_LINE - 2 else line.length
  line.take len ++ [10]

/-- `f_write` on the log, which appends to it. -/
def logWrite (r : LogResults) (line : Bytes) (s : AppLog) : AppLog :=
  if !s.logFile.isOpen then s
  else
    let content := (fWrite r.write line (fileText s.volume.log)).2.2
    { s with
      volume := { s.volume with log := some content }
      logFile := { s.logFile with size := content.length } }

def appLog (r : LogResults) (uptimeMs : UInt32) (message : Bytes) (s : AppLog) : AppLog :=
  if !s.logReady then s
  else
    let line := logLine uptimeMs message
    let (rotated, s) := appLogRotateIfNeeded r line.length s
    if !rotated then s else logWrite r line s

end BLEBridge
