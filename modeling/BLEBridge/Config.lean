import BLEBridge.Lib.Text
/-!
# The configuration

`app_config.h`, and the part of `app_config.c` that works on a configuration in
memory. Text fields are C strings in their arrays; the two arrays with a count
are lists of their entries in use.
-/
open Lib

namespace BLEBridge

def APP_CONFIG_SSID_MAX_LEN : Nat := 33
def APP_CONFIG_PASSWORD_MAX_LEN : Nat := 65
def APP_CONFIG_HOSTNAME_MAX_LEN : Nat := 64
def APP_CONFIG_ALLOWED_MAC_MAX_COUNT : Nat := 128
def APP_CONFIG_ALLOWED_MAC_LEN : Nat := 13
def APP_CONFIG_DEVICE_NAME_MAX_COUNT : Nat := 128
def APP_CONFIG_DEVICE_NAME_MAX_BYTES : Nat := 64
def APP_CONFIG_DEVICE_NAME_LEN : Nat := APP_CONFIG_DEVICE_NAME_MAX_BYTES + 1
def APP_CONFIG_MEASUREMENT_RETENTION_MIN_SECONDS : UInt32 := 5
def APP_CONFIG_MEASUREMENT_RETENTION_MAX_SECONDS : UInt32 := 600
def APP_CONFIG_MEASUREMENT_RETENTION_DEFAULT_SECONDS : UInt32 := 300
def APP_CONFIG_MEASUREMENT_MAX_COUNT_MAX : UInt16 := 1000
def APP_CONFIG_MEASUREMENT_MAX_COUNT_DEFAULT : UInt16 := 0
def APP_CONFIG_ONEWIRE_POLL_INTERVAL_MIN_SECONDS : UInt32 := 5
def APP_CONFIG_ONEWIRE_POLL_INTERVAL_MAX_SECONDS : UInt32 := 300
def APP_CONFIG_ONEWIRE_POLL_INTERVAL_DEFAULT_SECONDS : UInt32 := 30
def APP_CONFIG_MQTT_HOST_MAX_LEN : Nat := 254
def APP_CONFIG_MQTT_CREDENTIAL_MAX_LEN : Nat := 65
def APP_CONFIG_MQTT_INTERVAL_MIN_SECONDS : UInt32 := 5
def APP_CONFIG_MQTT_INTERVAL_MAX_SECONDS : UInt32 := 86400
def APP_CONFIG_MQTT_INTERVAL_DEFAULT_SECONDS : UInt32 := 60

structure AppMqttConfig where
  enabled : Bool
  host : CString APP_CONFIG_MQTT_HOST_MAX_LEN
  port : UInt16
  intervalSeconds : UInt32
  username : CString APP_CONFIG_MQTT_CREDENTIAL_MAX_LEN
  password : CString APP_CONFIG_MQTT_CREDENTIAL_MAX_LEN
  deriving DecidableEq

structure AppConfigDeviceName where
  deviceId : UInt32
  name : CString APP_CONFIG_DEVICE_NAME_LEN
  deriving DecidableEq

inductive AppWifiMode where
  | modeAp
  | modeClient
  deriving DecidableEq

inductive AppWifiSecurity where
  | securityOpen
  | securityWpa2
  deriving DecidableEq

structure AppConfig where
  mode : AppWifiMode
  ssid : CString APP_CONFIG_SSID_MAX_LEN
  hostname : CString APP_CONFIG_HOSTNAME_MAX_LEN
  channel : UInt32
  security : AppWifiSecurity
  password : CString APP_CONFIG_PASSWORD_MAX_LEN
  sendNarodmon : Bool
  mqtt : AppMqttConfig
  measurementRetentionSeconds : UInt32
  measurementMaxCount : UInt16
  onewirePollIntervalSeconds : UInt32
  onewireGpio2Enabled : Bool
  onewireGpio3Enabled : Bool
  allowedMacs : List (CString APP_CONFIG_ALLOWED_MAC_LEN)
  deviceNames : List AppConfigDeviceName
  deriving DecidableEq

def appConfigDefaults : AppConfig where
  mode := .modeAp
  ssid := .copy _ (ascii "BLEBridge")
  hostname := .copy _ (ascii "blebridge")
  channel := 3
  security := .securityOpen
  password := .copy _ []
  sendNarodmon := false
  mqtt := {
    enabled := false
    host := .copy _ []
    port := 1883
    intervalSeconds := APP_CONFIG_MQTT_INTERVAL_DEFAULT_SECONDS
    username := .copy _ []
    password := .copy _ [] }
  measurementRetentionSeconds := APP_CONFIG_MEASUREMENT_RETENTION_DEFAULT_SECONDS
  measurementMaxCount := APP_CONFIG_MEASUREMENT_MAX_COUNT_DEFAULT
  onewirePollIntervalSeconds := APP_CONFIG_ONEWIRE_POLL_INTERVAL_DEFAULT_SECONDS
  onewireGpio2Enabled := true
  onewireGpio3Enabled := true
  allowedMacs := []
  deviceNames := []

/-! ## Texts -/

/-- The loop of `app_config_normalize_mac`, with the digits written so far. -/
def normalizeMacLoop (written : Bytes) : Bytes → Option Bytes
  | [] => if written.length ≠ APP_CONFIG_ALLOWED_MAC_LEN - 1 then none else some written
  | ch :: input =>
    if ch = 58 ∨ ch = 45 ∨ ch = 32 then normalizeMacLoop written input
    else if isxdigit ch = false ∨ written.length ≥ APP_CONFIG_ALLOWED_MAC_LEN - 1 then none
    else normalizeMacLoop (written ++ [toupper ch]) input

/-- `none` when the text is refused. -/
def appConfigNormalizeMac (normalizedMacSize : Nat) (input : Bytes) : Option (CString normalizedMacSize) :=
  if normalizedMacSize < APP_CONFIG_ALLOWED_MAC_LEN then none
  else (normalizeMacLoop [] input).map (.copy normalizedMacSize)

def appConfigTrim {cap : Nat} (text : CString cap) : CString cap := .copy cap (trimRight (trimLeft text.bytes))

/-- The length of a character by its first byte; `none` if none starts so. -/
def charLen (ch : UInt8) : Option Nat :=
  if ch < 0x80 then some 1
  else if 0xC2 ≤ ch ∧ ch ≤ 0xDF then some 2
  else if 0xE0 ≤ ch ∧ ch ≤ 0xEF then some 3
  else if 0xF0 ≤ ch ∧ ch ≤ 0xF4 then some 4
  else none

/-- The bytes after the first one of a character are continuation bytes; the
check stops at the terminator. -/
def continues (tail : Bytes) (n : Nat) : Bool := (List.range n).all fun i => tail.getD i 0 &&& 0xC0 = 0x80

/-- The loop of `app_config_copy_device_name`, with the bytes written so far. -/
def copyNameLoop (maxBytes : Nat) (written : Bytes) (cursor : Bytes) : Bytes :=
  match cursor with
  | [] => written
  | ch :: rest =>
    if written.length ≥ maxBytes then written
    else if ch < 0x20 ∨ ch = 0x7F then copyNameLoop maxBytes written rest
    else
      match charLen ch with
      | none => copyNameLoop maxBytes written rest
      | some len =>
        if written.length + len > maxBytes then written
        else if continues rest (len - 1) = false then copyNameLoop maxBytes written rest
        else copyNameLoop maxBytes (written ++ ch :: rest.take (len - 1)) (rest.drop (len - 1))
termination_by cursor.length
decreasing_by all_goals simp only [List.length_cons, List.length_drop]; omega

/-- It never writes past where it reads, so `dst` and `src` may be one buffer. -/
def appConfigCopyDeviceName (dstSize : Nat) (src : Bytes) : CString dstSize :=
  .copy dstSize (copyNameLoop (min (dstSize - 1) APP_CONFIG_DEVICE_NAME_MAX_BYTES) [] src)

def appConfigParseMode (value : Bytes) : AppWifiMode := if value = ascii "client" then .modeClient else .modeAp

def appConfigParseSecurity (value : Bytes) : AppWifiSecurity :=
  if value = ascii "wpa2" then .securityWpa2 else .securityOpen

def appConfigModeName (mode : AppWifiMode) : Bytes := if mode = .modeClient then ascii "client" else ascii "ap"

def appConfigSecurityName (security : AppWifiSecurity) : Bytes :=
  if security = .securityWpa2 then ascii "wpa2" else ascii "open"

/-! ## The two lists -/

def appConfigSetAllowedMac (config : AppConfig) (normalizedMac : Bytes) (enabled : Bool) : Bool × AppConfig :=
  match appConfigNormalizeMac APP_CONFIG_ALLOWED_MAC_LEN normalizedMac with
  | none => (false, config)
  | some canonical =>
    let index := config.allowedMacs.findIdx (· = canonical)
    if enabled then
      if index < config.allowedMacs.length then (true, config)
      else if config.allowedMacs.length ≥ APP_CONFIG_ALLOWED_MAC_MAX_COUNT then (false, config)
      else (true, { config with allowedMacs := config.allowedMacs ++ [canonical] })
    else if index ≥ config.allowedMacs.length then (true, config)
    else (true, { config with allowedMacs := config.allowedMacs.eraseIdx index })

def appConfigSetDeviceName (config : AppConfig) (deviceId : UInt32) (name : Bytes) : Bool × AppConfig :=
  let normalizedName := appConfigTrim (appConfigCopyDeviceName APP_CONFIG_DEVICE_NAME_LEN name)
  let index := config.deviceNames.findIdx (·.deviceId = deviceId)
  if normalizedName.bytes = [] then
    if index ≥ config.deviceNames.length then (true, config)
    else (true, { config with deviceNames := config.deviceNames.eraseIdx index })
  else
    let entry : AppConfigDeviceName :=
      ⟨deviceId, appConfigCopyDeviceName APP_CONFIG_DEVICE_NAME_LEN normalizedName.bytes⟩
    if index ≥ config.deviceNames.length then
      if config.deviceNames.length ≥ APP_CONFIG_DEVICE_NAME_MAX_COUNT then (false, config)
      else (true, { config with deviceNames := config.deviceNames ++ [entry] })
    else (true, { config with deviceNames := config.deviceNames.set index entry })

def appConfigGetSensorName (config : AppConfig) (deviceId : UInt32) : Bytes :=
  match config.deviceNames.find? (·.deviceId = deviceId) with
  | some entry => entry.name.bytes
  | none => []

/-! ## Normalizing -/

def AppMqttConfig.normalize (mqtt : AppMqttConfig) : AppMqttConfig :=
  { mqtt with
    host := appConfigTrim mqtt.host
    port := if mqtt.port = 0 then 1883 else mqtt.port
    intervalSeconds :=
      let interval := if mqtt.intervalSeconds < APP_CONFIG_MQTT_INTERVAL_MIN_SECONDS then
        APP_CONFIG_MQTT_INTERVAL_MIN_SECONDS else mqtt.intervalSeconds
      if interval > APP_CONFIG_MQTT_INTERVAL_MAX_SECONDS then APP_CONFIG_MQTT_INTERVAL_MAX_SECONDS else interval }

/-- `if (text[0] == '\0') snprintf(text, ...)` -/
def orDefault {cap : Nat} (text : CString cap) (value : Bytes) : CString cap :=
  if text.bytes = [] then .copy cap value else text

def appConfigNormalize (config : AppConfig) : AppConfig :=
  { config with
    mqtt := config.mqtt.normalize
    ssid := orDefault (appConfigTrim config.ssid) (ascii "BLEBridge")
    hostname := orDefault (appConfigTrim config.hostname) (ascii "blebridge")
    channel := if config.channel < 1 ∨ config.channel > 13 then 3 else config.channel
    password := if config.security = .securityOpen then .copy _ [] else appConfigTrim config.password
    measurementRetentionSeconds :=
      let retention := if config.measurementRetentionSeconds < APP_CONFIG_MEASUREMENT_RETENTION_MIN_SECONDS then
        APP_CONFIG_MEASUREMENT_RETENTION_MIN_SECONDS else config.measurementRetentionSeconds
      if retention > APP_CONFIG_MEASUREMENT_RETENTION_MAX_SECONDS then
        APP_CONFIG_MEASUREMENT_RETENTION_MAX_SECONDS else retention
    measurementMaxCount := if config.measurementMaxCount > APP_CONFIG_MEASUREMENT_MAX_COUNT_MAX then
      APP_CONFIG_MEASUREMENT_MAX_COUNT_MAX else config.measurementMaxCount
    onewirePollIntervalSeconds :=
      let interval := if config.onewirePollIntervalSeconds < APP_CONFIG_ONEWIRE_POLL_INTERVAL_MIN_SECONDS then
        APP_CONFIG_ONEWIRE_POLL_INTERVAL_MIN_SECONDS else config.onewirePollIntervalSeconds
      if interval > APP_CONFIG_ONEWIRE_POLL_INTERVAL_MAX_SECONDS then
        APP_CONFIG_ONEWIRE_POLL_INTERVAL_MAX_SECONDS else interval
    allowedMacs := config.allowedMacs.take APP_CONFIG_ALLOWED_MAC_MAX_COUNT
    deviceNames := (config.deviceNames.take APP_CONFIG_DEVICE_NAME_MAX_COUNT).map fun entry =>
      { entry with name := appConfigTrim (appConfigCopyDeviceName APP_CONFIG_DEVICE_NAME_LEN entry.name.bytes) } }

end BLEBridge
