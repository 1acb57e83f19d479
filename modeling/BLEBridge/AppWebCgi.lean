import BLEBridge.AppWeb
import BLEBridge.ConfigFile
/-!
# Requests that change the configuration

`app_text_url_decode`, and the CGI handlers of `app_web.c` for `/apply.cgi`,
`/select.cgi` and `/name.cgi`. Parameters are C strings without their NUL, a value
is `none` for `NULL`. The lines written to the log are left out.
-/
open Lib

namespace BLEBridge

def APP_WEB_REBOOT_DELAY_MS : UInt32 := 1000

/-! ## Texts of a request -/

def appTextHexValue (ch : UInt8) : Option UInt8 :=
  if 48 ≤ ch ∧ ch ≤ 57 then some (ch - 48)
  else if 97 ≤ ch ∧ ch ≤ 102 then some (10 + (ch - 97))
  else if 65 ≤ ch ∧ ch ≤ 70 then some (10 + (ch - 65))
  else none

/-- The loop of `app_text_url_decode`, with every byte it writes. -/
def urlDecodeLoop : Bytes → Bytes
  | [] => []
  | 43 :: src => 32 :: urlDecodeLoop src
  | 37 :: a :: b :: src =>
    match appTextHexValue a, appTextHexValue b with
    | some hi, some lo => (hi <<< 4 ||| lo) :: urlDecodeLoop src
    | _, _ => 37 :: urlDecodeLoop (a :: b :: src)
  | ch :: src => ch :: urlDecodeLoop src

/-- It never writes past where it reads; `%00` ends the text. -/
def appTextUrlDecode {cap : Nat} (text : CString cap) : CString cap := .copy cap (urlDecodeLoop text.bytes)

example : (appTextUrlDecode (.copy 33 (ascii "Caf%c3%A9+%0"))).bytes = ascii "Caf" ++ [0xC3, 0xA9] ++
    ascii " %0" := by
  decide +kernel

/-- A parameter of a request. -/
abbrev CgiParam := Bytes × Option Bytes

def appWebFindParamValue (params : List CgiParam) (name : Bytes) : Option Bytes :=
  (params.find? fun p => p.1 = name).map fun p => p.2.getD []

/-- `snprintf` into a buffer of this size, and `app_text_url_decode`. -/
def readText (cap : Nat) (value : Bytes) : CString cap := appTextUrlDecode (.copy cap value)

/-- `sizeof` of the buffers `mode_value`, `channel_value` and so on. -/
def SIZEOF_VALUE : Nat := 16

/-- A text field of the form, or what it was. -/
def textParam (params : List CgiParam) (name : Bytes) {cap : Nat} (current : CString cap) : CString cap :=
  match appWebFindParamValue params name with
  | none => current
  | some value => readText cap value

/-- A number of the form, or what it was; no more than `maximum`. -/
def numberParam (params : List CgiParam) (name : Bytes) (maximum current : Nat) : Nat :=
  match appWebFindParamValue params name with
  | none => current
  | some value => min (strtoulDec (readText SIZEOF_VALUE value).bytes) maximum

/-! ## What a handler answers -/

/-- The messages of the handlers. -/
inductive CgiStatus where
  | mqttText | mqttNumber | mqttHost | mqttPassword | wpa2Password | settingsWrite | savedRebooting | saved
  | selectMissing | selectInvalid | selectStore | selectWrite | selected
  | nameMissing | nameStore | nameWrite | named
  deriving DecidableEq, Repr

def CgiStatus.message : CgiStatus → Bytes
  | .mqttText => ascii "Save failed: MQTT text is too long or contains control characters"
  | .mqttNumber => ascii "Save failed: MQTT port must be 1..65535 and interval 5..86400 seconds"
  | .mqttHost => ascii "Save failed: MQTT host is required"
  | .mqttPassword => ascii "Save failed: MQTT password requires a username"
  | .wpa2Password => ascii "Save failed: WPA2 password must be at least 8 characters"
  | .settingsWrite => ascii "Save failed: unable to write config.ini"
  | .savedRebooting => ascii "Saved to config.ini. Rebooting..."
  | .saved => ascii "Saved to config.ini. Reboot required to apply changes."
  | .selectMissing => ascii "Selection update failed: missing parameters"
  | .selectInvalid => ascii "Selection update failed: invalid MAC"
  | .selectStore => ascii "Selection update failed: unable to store MAC"
  | .selectWrite => ascii "Selection update failed: unable to write config.ini"
  | .selected => ascii "Device selection saved to config.ini"
  | .nameMissing => ascii "Name update failed: missing parameters"
  | .nameStore => ascii "Name update failed: unable to store name"
  | .nameWrite => ascii "Name update failed: unable to write config.ini"
  | .named => ascii "Device name saved to config.ini"

/-- The messages that report no failure. -/
def CgiStatus.success : CgiStatus → Bool
  | .savedRebooting | .saved | .selected | .named => true
  | _ => false

/-- The static variables the handlers use, with the runtime configuration and the
volume. -/
structure WebConfig where
  runtime : AppConfig
  volume : Option Bytes
  saveStatus : Option (CString APP_WEB_SAVE_STATUS_MAX_LEN)
  rebootPending : Bool
  rebootDeadlineMs : UInt32

/-- The status of a handler is its message, which the next page shows. -/
def WebConfig.answer (s : WebConfig) (status : CgiStatus) : CgiStatus × WebConfig :=
  (status, { s with saveStatus := some (.copy _ status.message) })

/-! ## The settings -/

/-- `sizeof(decoded)` -/
def SIZEOF_DECODED : Nat := APP_CONFIG_MQTT_HOST_MAX_LEN * 3

/-- `none` when the value is refused. -/
def appWebReadMqttString (value : Option Bytes) {cap : Nat} (destination : CString cap) : Option (CString cap) :=
  match value with
  | none => some destination
  | some value =>
    if value.length ≥ SIZEOF_DECODED ∨ ascii "%00" <:+: value then none
    else
      let decoded := readText SIZEOF_DECODED value
      if decoded.bytes.length ≥ cap then none
      else if decoded.bytes.any fun p => p < 0x20 || p = 0x7f then none
      else some (.copy cap decoded.bytes)

/-- `none` when the value is refused. -/
def appWebReadMqttNumber (value : Option Bytes) (minimum maximum number : UInt32) : Option UInt32 :=
  match value with
  | none => some number
  | some value =>
    if value = [] ∨ value.length > 5 then none
    else if value.all isdigit = false then none
    else
      let parsed := UInt32.ofNat (strtoulDec value)
      if parsed < minimum ∨ parsed > maximum then none else some parsed

def appWebReadMqttConfig (params : List CgiParam) (mqtt : AppMqttConfig) : Except CgiStatus AppMqttConfig :=
  let find := appWebFindParamValue params
  match appWebReadMqttString (find (ascii "mqtt_host")) mqtt.host,
    appWebReadMqttString (find (ascii "mqtt_username")) mqtt.username,
    appWebReadMqttString (find (ascii "mqtt_password")) mqtt.password with
  | some host, some username, some password =>
    match appWebReadMqttNumber (find (ascii "mqtt_port")) 1 65535 mqtt.port.toUInt32,
      appWebReadMqttNumber (find (ascii "mqtt_interval_seconds")) APP_CONFIG_MQTT_INTERVAL_MIN_SECONDS
        APP_CONFIG_MQTT_INTERVAL_MAX_SECONDS mqtt.intervalSeconds with
    | some port, some intervalSeconds =>
      .ok ⟨(find (ascii "mqtt_enabled")).isSome, host, port.toUInt16, intervalSeconds, username, password⟩
    | _, _ => .error .mqttNumber
  | _, _, _ => .error .mqttText

/-- The fields outside the MQTT settings. -/
def settingsFields (params : List CgiParam) (config : AppConfig) : AppConfig :=
  let find := appWebFindParamValue params
  { config with
    mode := match find (ascii "mode") with
      | none => config.mode
      | some value => if (readText SIZEOF_VALUE value).bytes = ascii "client" then .modeClient else .modeAp
    ssid := textParam params (ascii "ssid") config.ssid
    hostname := textParam params (ascii "hostname") config.hostname
    channel := match find (ascii "channel") with
      | none => config.channel
      | some value => UInt32.ofNat (strtoulDec (readText SIZEOF_VALUE value).bytes)
    security := match find (ascii "security") with
      | none => config.security
      | some value => if (readText SIZEOF_VALUE value).bytes = ascii "wpa2" then .securityWpa2 else .securityOpen
    password := textParam params (ascii "password") config.password
    sendNarodmon := (find (ascii "send_narodmon")).isSome
    measurementRetentionSeconds := UInt32.ofNat (numberParam params (ascii "measurement_retention_seconds")
      APP_CONFIG_MEASUREMENT_RETENTION_MAX_SECONDS.toNat config.measurementRetentionSeconds.toNat)
    measurementMaxCount := UInt16.ofNat (numberParam params (ascii "measurement_max_count")
      APP_CONFIG_MEASUREMENT_MAX_COUNT_MAX.toNat config.measurementMaxCount.toNat)
    onewirePollIntervalSeconds := UInt32.ofNat (numberParam params (ascii "onewire_poll_interval_seconds")
      APP_CONFIG_ONEWIRE_POLL_INTERVAL_MAX_SECONDS.toNat config.onewirePollIntervalSeconds.toNat)
    onewireGpio2Enabled := (find (ascii "onewire_gpio2_enabled")).isSome
    onewireGpio3Enabled := (find (ascii "onewire_gpio3_enabled")).isSome }

/-- Save the next configuration and make it the current one; `failed` is answered
when it cannot be written, `done` else. -/
def saveAndApply (fs : FatFs) (next : AppConfig) (failed done : CgiStatus) (s : WebConfig) :
    CgiStatus × WebConfig :=
  let (saved, volume) := appConfigSave fs next s.volume
  let s := { s with volume := volume }
  if !saved then s.answer failed else { s with runtime := next }.answer done

def appWebCgiSettingsHandler (fs : FatFs) (nowMs : UInt32) (params : List CgiParam) (s : WebConfig) :
    CgiStatus × WebConfig :=
  let rebootRequested := appWebFindParamValue params (ascii "reboot") = some (ascii "1")
  let next := settingsFields params s.runtime
  match appWebReadMqttConfig params next.mqtt with
  | .error status => s.answer status
  | .ok mqtt =>
    let next := appConfigNormalize { next with mqtt := mqtt }
    if next.mqtt.enabled ∧ next.mqtt.host.bytes = [] then s.answer .mqttHost
    else if next.mqtt.enabled ∧ next.mqtt.password.bytes ≠ [] ∧ next.mqtt.username.bytes = [] then
      s.answer .mqttPassword
    else if next.security = .securityWpa2 ∧ next.password.bytes.length < 8 then s.answer .wpa2Password
    else if rebootRequested then
      let (status, s) := saveAndApply fs next .settingsWrite .savedRebooting s
      if status = .settingsWrite then (status, s)
      else (status, { s with rebootPending := true, rebootDeadlineMs := nowMs + APP_WEB_REBOOT_DELAY_MS })
    else saveAndApply fs next .settingsWrite .saved s

/-! ## Devices and names -/

def appWebCgiSelectHandler (fs : FatFs) (params : List CgiParam) (s : WebConfig) : CgiStatus × WebConfig :=
  match appWebFindParamValue params (ascii "mac"), appWebFindParamValue params (ascii "enabled") with
  | some macValue, some enabledValue =>
    match appConfigNormalizeMac APP_CONFIG_ALLOWED_MAC_LEN
      (readText APP_CONFIG_ALLOWED_MAC_LEN macValue).bytes with
    | none => s.answer .selectInvalid
    | some normalizedMac =>
      let (stored, next) := appConfigSetAllowedMac s.runtime normalizedMac.bytes (enabledValue = ascii "1")
      if !stored then s.answer .selectStore else saveAndApply fs next .selectWrite .selected s
  | _, _ => s.answer .selectMissing

/-- `sizeof(encoded_name)` -/
def SIZEOF_ENCODED_NAME : Nat := APP_CONFIG_DEVICE_NAME_MAX_BYTES * 3 + 1

def appWebCgiNameHandler (fs : FatFs) (params : List CgiParam) (s : WebConfig) : CgiStatus × WebConfig :=
  match appWebFindParamValue params (ascii "device_id"), appWebFindParamValue params (ascii "name") with
  | some deviceIdValue, some nameValue =>
    let (stored, next) := appConfigSetDeviceName s.runtime (UInt32.ofNat (strtoulDec deviceIdValue))
      (readText SIZEOF_ENCODED_NAME nameValue).bytes
    if !stored then s.answer .nameStore else saveAndApply fs next .nameWrite .named s
  | _, _ => s.answer .nameMissing

end BLEBridge
