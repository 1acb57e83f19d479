import BLEBridge.Config
import BLEBridge.MiniIni
/-!
# The configuration file

`app_config_save` and `app_config_load`. The volume is the content of
`config.ini`, or `none` without such a file. A save truncates the file and
writes it line group by line group, one `f_write` each; a load looks up every
key with `ini_gets`.
-/
open Lib

namespace BLEBridge

/-- An `f_write` that fails: how many bytes it wrote, and whether it returned an
error (otherwise it was a short write). -/
structure WriteFailure where
  written : Nat
  error : Bool

/-- What FatFs does: whether the volume can be mounted, whether `f_open` can
create the file, and which calls of `f_write` on it fail. -/
structure FatFs where
  mounts : Bool
  creates : Bool
  failure : Nat → Option WriteFailure

/-- FatFs on a healthy volume with enough room. -/
def FatFs.healthy : FatFs := ⟨true, true, fun _ => none⟩

/-- `f_write`: whether it returned `FR_OK`, the bytes written, and the file. -/
def fWrite (failure : Option WriteFailure) (data content : Bytes) : Bool × Nat × Bytes :=
  match failure with
  | none => (true, data.length, content ++ data)
  | some f => (!f.error, min f.written data.length, content ++ data.take f.written)

def SIZEOF_WRITE_LINE : Nat := 1024

/-- `line` is the formatted text, which has to fit in the buffer. -/
def appConfigWriteLine (failure : Option WriteFailure) (line content : Bytes) : Bool × Bytes :=
  if line.length ≥ SIZEOF_WRITE_LINE then (false, content)
  else
    let r := fWrite failure line content
    (r.1 ∧ r.2.1 = line.length, r.2.2)

/-! ## What is written -/

def flag (b : Bool) : Bytes := decimal (if b then 1 else 0)

/-- The comments at the head of the file, and the blank line after them. -/
def networkComments : List Bytes := [
  ascii "; BLEBridge configuration file",
  ascii "; mode: ap | client",
  ascii "; ssid: Wi-Fi network name",
  ascii "; hostname: DHCP/NetBIOS style host name reported by the interface",
  ascii "; channel: 1..13, used only in ap mode",
  ascii "; security: open | wpa2",
  ascii "; password: empty for open, at least 8 characters for wpa2",
  ascii "; send_narodmon: 0 | 1",
  ascii "; retention_seconds: measurement storage time, 5..600",
  ascii "; max_count: max measurements per device/field pair, 0..1000; 0 means unlimited",
  ascii "; poll_interval_seconds: 1-Wire DS18B20 polling interval, 5..300",
  ascii "; gpio2_enabled/gpio3_enabled: 0 | 1, enable the corresponding 1-Wire bus",
  ascii "; macN: BLE MAC address without separators, enables device processing",
  ascii "; [names] stores idN/nameN pairs for user-visible sensor names.",
  ascii "; In client mode, the device connects to an existing Wi-Fi network.",
  ascii "; In ap mode, the device creates its own Wi-Fi access point.",
  ascii "; Changes are applied after reboot.",
  ascii ""]

def networkLines (config : AppConfig) : Bytes :=
  unlines (networkComments ++ [
    ascii "[network]",
    ascii "mode=" ++ appConfigModeName config.mode,
    ascii "ssid=" ++ config.ssid.bytes,
    ascii "hostname=" ++ config.hostname.bytes,
    ascii "channel=" ++ decimal config.channel.toNat,
    ascii "security=" ++ appConfigSecurityName config.security,
    ascii "password=" ++ config.password.bytes,
    ascii "send_narodmon=" ++ flag config.sendNarodmon])

def macLines (p : CString APP_CONFIG_ALLOWED_MAC_LEN × Nat) : Bytes :=
  unlines [ascii "mac" ++ decimal (p.2 + 1) ++ ascii "=" ++ p.1.bytes]

def measurementsLines (config : AppConfig) : Bytes :=
  unlines [
    ascii "",
    ascii "[measurements]",
    ascii "retention_seconds=" ++ decimal config.measurementRetentionSeconds.toNat,
    ascii "max_count=" ++ decimal config.measurementMaxCount.toNat]

def onewireLines (config : AppConfig) : Bytes :=
  unlines [
    ascii "",
    ascii "[onewire]",
    ascii "poll_interval_seconds=" ++ decimal config.onewirePollIntervalSeconds.toNat,
    ascii "gpio2_enabled=" ++ flag config.onewireGpio2Enabled,
    ascii "gpio3_enabled=" ++ flag config.onewireGpio3Enabled]

def mqttLines (config : AppConfig) : Bytes :=
  unlines [
    ascii "",
    ascii "[mqtt]",
    ascii "enabled=" ++ flag config.mqtt.enabled,
    ascii "host=" ++ config.mqtt.host.bytes,
    ascii "port=" ++ decimal config.mqtt.port.toNat,
    ascii "interval_seconds=" ++ decimal config.mqtt.intervalSeconds.toNat,
    ascii "username=" ++ config.mqtt.username.bytes,
    ascii "password=" ++ config.mqtt.password.bytes]

def namesLines : Bytes := unlines [ascii "", ascii "[names]"]

def nameLines (p : AppConfigDeviceName × Nat) : Bytes :=
  unlines [
    ascii "id" ++ decimal (p.2 + 1) ++ ascii "=" ++ decimal p.1.deviceId.toNat,
    ascii "name" ++ decimal (p.2 + 1) ++ ascii "=" ++ p.1.name.bytes]

/-- The texts that `app_config_save` passes to `app_config_write_line`, in order. -/
def appConfigLines (config : AppConfig) : List Bytes :=
  networkLines config :: config.allowedMacs.zipIdx.map macLines ++
    measurementsLines config :: onewireLines config :: mqttLines config :: namesLines ::
      config.deviceNames.zipIdx.map nameLines

/-- Write line groups until one fails; `n` writes came before. -/
def writeLines (failure : Nat → Option WriteFailure) : Nat → List Bytes → Bytes → Bool × Bytes
  | _, [], content => (true, content)
  | n, line :: lines, content =>
    let r := appConfigWriteLine (failure n) line content
    if r.1 then writeLines failure (n + 1) lines r.2 else r

/-- Whether it returned true, and the volume. -/
def appConfigSave (fs : FatFs) (config : AppConfig) (volume : Option Bytes) : Bool × Option Bytes :=
  if fs.creates = false then (false, volume)
  else
    let r := writeLines fs.failure 0 (appConfigLines config) []
    (r.1, some r.2)

/-! ## What is read -/

def toUInt32 (n : Int) : UInt32 := UInt32.ofNat (n % 2 ^ 32).toNat

def toUInt16 (n : Int) : UInt16 := UInt16.ofNat (n % 2 ^ 16).toNat

section
variable (file : Option Bytes)

/-- An allowed MAC of the file, the `i`-th from 0. -/
def loadMac (config : AppConfig) (i : Nat) : AppConfig :=
  let valueMac := appConfigTrim (iniGet (ascii "network") (ascii "mac" ++ decimal (i + 1)) []
    (APP_CONFIG_ALLOWED_MAC_LEN + 8) file)
  if valueMac.bytes = [] then config
  else
    match appConfigNormalizeMac APP_CONFIG_ALLOWED_MAC_LEN valueMac.bytes with
    | some canonical => (appConfigSetAllowedMac config canonical.bytes true).2
    | none => config

/-- A device name of the file, the `i`-th from 0. -/
def loadName (config : AppConfig) (i : Nat) : AppConfig :=
  let valueId := appConfigTrim (iniGet (ascii "names") (ascii "id" ++ decimal (i + 1)) [] 16 file)
  if valueId.bytes = [] then config
  else
    let deviceId := UInt32.ofNat (strtoul0 valueId.bytes)
    let valueName := appConfigTrim (iniGet (ascii "names") (ascii "name" ++ decimal (i + 1)) []
      APP_CONFIG_DEVICE_NAME_LEN file)
    (appConfigSetDeviceName config deviceId valueName.bytes).2

def loadMqtt (mqtt : AppMqttConfig) : AppMqttConfig :=
  let port := iniGetl (ascii "mqtt") (ascii "port") 1883 file
  let interval := iniGetl (ascii "mqtt") (ascii "interval_seconds")
    APP_CONFIG_MQTT_INTERVAL_DEFAULT_SECONDS.toNat file
  { mqtt with
    enabled := iniGetl (ascii "mqtt") (ascii "enabled") 0 file ≠ 0
    host := iniGet (ascii "mqtt") (ascii "host") [] _ file
    username := iniGet (ascii "mqtt") (ascii "username") [] _ file
    password := iniGet (ascii "mqtt") (ascii "password") [] _ file
    port := if port > 0 ∧ port ≤ 65535 then toUInt16 port else 1883
    intervalSeconds := if interval > 0 then toUInt32 interval else APP_CONFIG_MQTT_INTERVAL_DEFAULT_SECONDS }

/-- Everything that has one key of its own. -/
def loadFields (config : AppConfig) : AppConfig :=
  let mode :=
    appConfigTrim (iniGet (ascii "network") (ascii "mode") (ascii "ap") APP_CONFIG_PASSWORD_MAX_LEN file)
  let security := appConfigTrim
    (iniGet (ascii "network") (ascii "security") (ascii "open") APP_CONFIG_PASSWORD_MAX_LEN file)
  let retention := iniGetl (ascii "measurements") (ascii "retention_seconds")
    config.measurementRetentionSeconds.toNat file
  let maxCount := iniGetl (ascii "measurements") (ascii "max_count") config.measurementMaxCount.toNat file
  let poll := iniGetl (ascii "onewire") (ascii "poll_interval_seconds")
    config.onewirePollIntervalSeconds.toNat file
  { config with
    mode := appConfigParseMode mode.bytes
    ssid := iniGet (ascii "network") (ascii "ssid") config.ssid.bytes _ file
    hostname := iniGet (ascii "network") (ascii "hostname") config.hostname.bytes _ file
    channel := toUInt32 (iniGetl (ascii "network") (ascii "channel") config.channel.toNat file)
    security := appConfigParseSecurity security.bytes
    password := iniGet (ascii "network") (ascii "password") [] _ file
    sendNarodmon := iniGetl (ascii "network") (ascii "send_narodmon") 0 file ≠ 0
    mqtt := loadMqtt file config.mqtt
    measurementRetentionSeconds := if retention > 0 then toUInt32 retention else 0
    measurementMaxCount :=
      if maxCount > APP_CONFIG_MEASUREMENT_MAX_COUNT_MAX.toNat then APP_CONFIG_MEASUREMENT_MAX_COUNT_MAX
      else if maxCount > 0 then toUInt16 maxCount else 0
    onewirePollIntervalSeconds := if poll > 0 then toUInt32 poll else 0
    onewireGpio2Enabled := iniGetl (ascii "onewire") (ascii "gpio2_enabled") 1 file ≠ 0
    onewireGpio3Enabled := iniGetl (ascii "onewire") (ascii "gpio3_enabled") 1 file ≠ 0 }

/-- The configuration in the file, once there is one. -/
def appConfigRead : AppConfig :=
  let config := loadFields file appConfigDefaults
  let config := (List.range APP_CONFIG_ALLOWED_MAC_MAX_COUNT).foldl (loadMac file)
    { config with allowedMacs := [] }
  let config := (List.range APP_CONFIG_DEVICE_NAME_MAX_COUNT).foldl (loadName file)
    { config with deviceNames := [] }
  appConfigNormalize config

end

/-- `app_config_ensure_file` -/
def appConfigEnsureFile (fs : FatFs) (volume : Option Bytes) : Bool × Option Bytes :=
  if volume.isSome then (true, volume) else appConfigSave fs appConfigDefaults volume

/-- Whether it returned true, the configuration, and the volume. -/
def appConfigLoad (fs : FatFs) (config : AppConfig) (volume : Option Bytes) : Bool × AppConfig × Option Bytes :=
  if fs.mounts = false then (false, config, volume)
  else
    let r := appConfigEnsureFile fs volume
    if r.1 then (true, appConfigRead r.2, r.2) else (false, appConfigDefaults, r.2)

end BLEBridge
