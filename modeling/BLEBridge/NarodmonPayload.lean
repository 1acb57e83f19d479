import BLEBridge.Lib.Fixed
import BLEBridge.Lib.Hex
import BLEBridge.MeasurementStore
/-!
# The narodmon payload

`app_narodmon_build_payload` with `measurement_store_build_narodmon_payload`. The
text in the buffer is the list of its bytes before the terminator; a line that
`snprintf` cannot store whole is not part of it. `fixed` prints a value as `%.*f`.
-/
open Lib

namespace BLEBridge

def APP_NARODMON_PAYLOAD_MAX_LEN : Nat := 4096
def APP_NARODMON_DEVICE_ID_LEN : Nat := 17
def NARODMON_LINE_TEMP_MAX_LEN : Nat := 20
def NARODMON_LINE_RH_MAX_LEN : Nat := 17
def NARODMON_LINE_BATTERY_MAX_LEN : Nat := 21
def NARODMON_LINE_SIGNAL_MAX_LEN : Nat := 20
def NARODMON_LINE_UPTIME_MAX_LEN : Nat := 19
def NARODMON_HEADER_AND_TRAILER_MAX_LEN : Nat := 20

def NARODMON_MAX_DEVICES : Nat :=
  (APP_NARODMON_PAYLOAD_MAX_LEN - NARODMON_HEADER_AND_TRAILER_MAX_LEN - NARODMON_LINE_UPTIME_MAX_LEN) /
    (NARODMON_LINE_TEMP_MAX_LEN + NARODMON_LINE_RH_MAX_LEN + NARODMON_LINE_BATTERY_MAX_LEN +
      NARODMON_LINE_SIGNAL_MAX_LEN) - 1

example : NARODMON_MAX_DEVICES = 51 := rfl

/-- `narodmon_signal_entry_t` -/
structure NarodmonSignalEntry where
  inUse : Bool
  deviceId : UInt32
  maxSamples : UInt16

/-- `narodmon_signal_entries` has a place for each entry of the view. -/
abbrev NarodmonSignals := Fin MEASUREMENT_STORE_VIEW_SIZE → NarodmonSignalEntry

/-- `snprintf(insert + written, insert_len - written, ...)` after the text written. -/
def appendLine (insertLen : Nat) (text line : Bytes) : Option Bytes :=
  if line.length ≥ insertLen - text.length then none else some (text ++ line)

def measurementDeviceIdToDisplay (deviceId : UInt32) : Nat := deviceId.toNat % 1000000

/-- The index, or `none`, and the entries. -/
def narodmonFindOrAddSignalEntry (entries : NarodmonSignals) (currentDeviceCount : Nat) (deviceId : UInt32) :
    Option (Fin MEASUREMENT_STORE_VIEW_SIZE) × NarodmonSignals :=
  let slots := List.finRange MEASUREMENT_STORE_VIEW_SIZE
  match slots.find? fun i => (entries i).inUse && (entries i).deviceId = deviceId with
  | some i => (some i, entries)
  | none =>
    match slots.find? fun i => !(entries i).inUse with
    | none => (none, entries)
    | some firstFree =>
      if currentDeviceCount ≥ NARODMON_MAX_DEVICES then (none, entries)
      else (some firstFree, Function.update entries firstFree ⟨true, deviceId, 0⟩)

/-- `none` for the `default` case. -/
def metricPrefix : MeasurementField → Option Bytes
  | .temperature | .oneWireTemperature => some (ascii "TEMP")
  | .humidity => some (ascii "RH")
  | .battery => some (ascii "MB2BAT")
  | .none => none

def uptimeLine (uptimeSeconds : UInt32) : Bytes := ascii "#UPTIME#" ++ decimal uptimeSeconds.toNat ++ ascii "\n"

def signalLine (deviceId : UInt32) (maxSamples : UInt16) : Bytes :=
  ascii "#SIGNAL" ++ padded 6 (measurementDeviceIdToDisplay deviceId) ++ ascii "#" ++
    decimal maxSamples.toNat ++ ascii "\n"

section
variable {V : Type} (fixed : Nat → V → Bytes)

def metricLine (metricPrefix : Bytes) (entry : MeasurementViewEntry V) : Bytes :=
  ascii "#" ++ metricPrefix ++ padded 6 (measurementDeviceIdToDisplay entry.deviceId) ++ ascii "#" ++
    fixed 2 entry.averageValue ++ ascii "\n"

/-- The variables of the loop over the view. -/
structure NarodmonMetrics where
  text : Bytes
  signals : NarodmonSignals
  exportedSignalDevices : Nat
  hasSensorMetrics : Bool

/-- The loop over the view. -/
def narodmonMetricLoop (insertLen : Nat) : List (MeasurementViewEntry V) → NarodmonMetrics → NarodmonMetrics
  | [], m => m
  | entry :: view, m =>
    if !entry.inUse then narodmonMetricLoop insertLen view m
    else
      match narodmonFindOrAddSignalEntry m.signals m.exportedSignalDevices entry.deviceId with
      | (none, signals) => narodmonMetricLoop insertLen view { m with signals := signals }
      | (some signalIndex, signals) =>
        let exported := if (signals signalIndex).maxSamples = 0 then m.exportedSignalDevices + 1
          else m.exportedSignalDevices
        match metricPrefix entry.fieldType with
        | none =>
          narodmonMetricLoop insertLen view { m with signals := signals, exportedSignalDevices := exported }
        | some metricPrefix =>
          match appendLine insertLen m.text (metricLine fixed metricPrefix entry) with
          | none => { m with signals := signals, exportedSignalDevices := exported }
          | some text => narodmonMetricLoop insertLen view {
              text := text
              signals := if entry.sampleCount > (signals signalIndex).maxSamples then
                Function.update signals signalIndex { signals signalIndex with maxSamples :=
                  entry.sampleCount } else signals
              exportedSignalDevices := exported
              hasSensorMetrics := true }

/-- The loop over the signal entries. -/
def narodmonSignalLoop (insertLen : Nat) : List NarodmonSignalEntry → Bytes → Bytes
  | [], text => text
  | entry :: entries, text =>
    if !entry.inUse then narodmonSignalLoop insertLen entries text
    else
      match appendLine insertLen text (signalLine entry.deviceId entry.maxSamples) with
      | none => text
      | some text => narodmonSignalLoop insertLen entries text

/-- The text whose length is returned; nothing for 0. -/
def measurementStoreBuildNarodmonPayload (view : MeasurementView V) (insertLen : Nat)
    (uptimeSeconds : UInt32) : Bytes :=
  match appendLine insertLen [] (uptimeLine uptimeSeconds) with
  | none => []
  | some text =>
    let slots := List.finRange MEASUREMENT_STORE_VIEW_SIZE
    let m := narodmonMetricLoop fixed insertLen (slots.map view) ⟨text, fun _ => ⟨false, 0, 0⟩, 0, false⟩
    if !m.hasSensorMetrics then []
    else narodmonSignalLoop insertLen (slots.map m.signals) m.text

/-- The Wi-Fi MAC is `none` when `cyw43_wifi_get_mac` fails. -/
def appNarodmonGetDeviceId (mac : Option (Vector UInt8 6)) (bufferLen : Nat) : Option Bytes :=
  match mac with
  | none => none
  | some mac =>
    let deviceId := ascii "BLEB" ++ hexText mac.toList
    if bufferLen < APP_NARODMON_DEVICE_ID_LEN ∨ deviceId.length ≠ APP_NARODMON_DEVICE_ID_LEN - 1 then none
    else some deviceId

def headerLine (deviceId : Bytes) : Bytes := ascii "#" ++ deviceId ++ ascii "\n"

def appNarodmonWriteHeader (mac : Option (Vector UInt8 6)) (payloadSize : Nat) : Option Bytes :=
  match appNarodmonGetDeviceId mac APP_NARODMON_DEVICE_ID_LEN with
  | none => none
  | some deviceId => appendLine payloadSize [] (headerLine deviceId)

/-- The text whose length is returned, nothing for 0, and `none` for -1. -/
def appNarodmonBuildPayload (mac : Option (Vector UInt8 6)) (bufferLen : Nat) (nowMs : UInt32)
    (view : MeasurementView V) : Option Bytes :=
  let uptimeSeconds := (nowMs + 500) / 1000
  if bufferLen = 0 then none
  else
    match appNarodmonWriteHeader mac bufferLen with
    | none => none
    | some header =>
      let metrics := measurementStoreBuildNarodmonPayload fixed view (bufferLen - header.length) uptimeSeconds
      if metrics = [] then some []
      else if (header ++ metrics).length + 3 > bufferLen then none
      else some (header ++ metrics ++ ascii "##")
end

end BLEBridge
