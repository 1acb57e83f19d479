import BLEBridge.AppWeb
import BLEBridge.MqttRun
import BLEBridge.TableListings
import BLEBridge.MeasurementView
/-!
# The pages of the web server

The tags of the pages in `html/`, and what `app_web_ssi_handler` inserts for each.
Every page that a script reads is one JSON text, whatever the tables, the
configuration and the MQTT client have come to (`pages_json`).
-/
open Lib

namespace BLEBridge

def LWIP_HTTPD_MAX_TAG_INSERT_LEN : Nat := 16384

/-! ## What is inserted -/

/-- `APP_BUILD_NUMBER` and `APP_BUILD_DATETIME`, which the build generates: a number,
and a date and time or `not built`, of no more than 31 characters. -/
structure AppBuildInfo where
  buildNumber : UInt32
  buildDatetime : CString 32

/-- What the inserts are made of; `space` is `none` when `f_getfree` fails, `mac` when
`cyw43_wifi_get_mac` does. -/
structure WebState (V : Type) where
  nowMs : UInt32
  mac : Option (Vector UInt8 6)
  build : AppBuildInfo
  config : AppConfig
  saveStatus : Option (CString APP_WEB_SAVE_STATUS_MAX_LEN)
  cpuLoadPercent : UInt8
  narodmonSecondsRemaining : UInt32
  space : Option (UInt64 × UInt64)
  mqtt : AppMqtt V
  devices : BleDeviceTable BLE_DEVICE_TABLE_SIZE
  measurements : MeasurementTable V MEASUREMENT_STORE_TABLE_SIZE
  view : MeasurementView V
  onewire : OneWireDevices V

variable {V : Type}

/-- The end of the functions that print an insert: the length returned and the text in
the buffer. -/
def insertText (insertLen : Nat) (text : Bytes) : UInt16 × Bytes :=
  let written := text.take (insertLen - 1)
  (UInt16.ofNat written.length, written)

def appConfigGetDeviceName (config : AppConfig) : Bytes :=
  if config.hostname.bytes = [] then ascii "blebridge" else config.hostname.bytes

def appMqttStatus (s : AppMqtt V) : Bytes :=
  match s.state with
  | .waiting => ascii "Waiting to connect"
  | .resolving => ascii "Resolving host"
  | .connecting => ascii "Connecting"
  | .connected => ascii "Connected"
  | .disabled => ascii "Disabled"

def bleScannerDeviceCount {n : Nat} (table : BleDeviceTable n) : Nat :=
  (List.finRange n).countP fun i => (table i).inUse

def measurementStoreViewUsed (view : MeasurementView V) : Nat :=
  (List.finRange MEASUREMENT_STORE_VIEW_SIZE).countP fun i => (view i).inUse

def onewireSourceDeviceTableUsed (devices : OneWireDevices V) : Nat :=
  (List.finRange ONEWIRE_DEVICE_TABLE_SIZE).countP fun i => (devices i).inUse

def statusJson (s : WebState V) : Bytes :=
  let (totalBytes, freeBytes) := s.space.getD (0, 0)
  let deviceName := appTextJsonEscape (APP_CONFIG_HOSTNAME_MAX_LEN * 2) (appConfigGetDeviceName s.config)
  ascii "\x7b\"flash_total_bytes\":" ++ decimal totalBytes.toNat ++
    ascii ",\"flash_free_bytes\":" ++ decimal freeBytes.toNat ++
    ascii ",\"cpu_load_percent\":" ++ decimal s.cpuLoadPercent.toNat ++
    ascii ",\"device_name\":\"" ++ deviceName ++
    ascii "\",\"narodmon_device_name\":\"" ++ deviceName ++
    ascii "\",\"narodmon_seconds_remaining\":" ++ decimal s.narodmonSecondsRemaining.toNat ++
    ascii ",\"mqtt_status\":\"" ++ appMqttStatus s.mqtt ++
    ascii "\",\"mqtt_last_error\":\"" ++ s.mqtt.lastError.bytes ++
    ascii "\",\"mqtt_last_send_seconds\":" ++ decimal s.mqtt.lastSendSeconds.toNat ++
    ascii ",\"device_table_used\":" ++ decimal (bleScannerDeviceCount s.devices) ++
    ascii ",\"device_table_capacity\":" ++ decimal BLE_DEVICE_TABLE_SIZE ++
    ascii ",\"measurement_table_used\":" ++ decimal (measurementStoreTableUsed s.measurements) ++
    ascii ",\"measurement_table_capacity\":" ++ decimal MEASUREMENT_STORE_TABLE_SIZE ++
    ascii ",\"measurement_view_used\":" ++ decimal (measurementStoreViewUsed s.view) ++
    ascii ",\"measurement_view_capacity\":" ++ decimal MEASUREMENT_STORE_VIEW_SIZE ++
    ascii ",\"onewire_device_table_used\":" ++ decimal (onewireSourceDeviceTableUsed s.onewire) ++
    ascii ",\"onewire_device_table_capacity\":" ++ decimal ONEWIRE_DEVICE_TABLE_SIZE ++ ascii "\x7d"

def appWebWriteStatusJson (s : WebState V) (insertLen : Nat) : UInt16 × Bytes :=
  insertText insertLen (statusJson s)

/-- `sizeof(build_datetime)` -/
def SIZEOF_BUILD_DATETIME : Nat := 64

def configJson (s : WebState V) : Bytes :=
  let config := s.config
  let ssid := appTextJsonEscape (APP_CONFIG_SSID_MAX_LEN * 2) config.ssid.bytes
  let hostname := appTextJsonEscape (APP_CONFIG_HOSTNAME_MAX_LEN * 2) config.hostname.bytes
  let password := appTextJsonEscape (APP_CONFIG_PASSWORD_MAX_LEN * 2) config.password.bytes
  let mqttHost := appTextJsonEscape (APP_CONFIG_MQTT_HOST_MAX_LEN * 2) config.mqtt.host.bytes
  let mqttUsername := appTextJsonEscape (APP_CONFIG_MQTT_CREDENTIAL_MAX_LEN * 2) config.mqtt.username.bytes
  let mqttPassword := appTextJsonEscape (APP_CONFIG_MQTT_CREDENTIAL_MAX_LEN * 2) config.mqtt.password.bytes
  let saveStatus := appTextJsonEscape (APP_WEB_SAVE_STATUS_MAX_LEN * 2) (s.saveStatus.elim [] (·.bytes))
  let buildDatetime := appTextJsonEscape SIZEOF_BUILD_DATETIME s.build.buildDatetime.bytes
  let narodmonDeviceId := (appNarodmonGetDeviceId s.mac APP_NARODMON_DEVICE_ID_LEN).getD []
  ascii "\x7b\"mode\":\"" ++ appConfigModeName config.mode ++
    ascii "\",\"ssid\":\"" ++ ssid ++
    ascii "\",\"hostname\":\"" ++ hostname ++
    ascii "\",\"channel\":" ++ decimal config.channel.toNat ++
    ascii ",\"security\":\"" ++ appConfigSecurityName config.security ++
    ascii "\",\"password\":\"" ++ password ++
    ascii "\",\"send_narodmon\":" ++ Json.boolText config.sendNarodmon ++
    ascii ",\"mqtt_enabled\":" ++ Json.boolText config.mqtt.enabled ++
    ascii ",\"mqtt_host\":\"" ++ mqttHost ++
    ascii "\",\"mqtt_port\":" ++ decimal config.mqtt.port.toNat ++
    ascii ",\"mqtt_interval_seconds\":" ++ decimal config.mqtt.intervalSeconds.toNat ++
    ascii ",\"mqtt_username\":\"" ++ mqttUsername ++
    ascii "\",\"mqtt_password\":\"" ++ mqttPassword ++
    ascii "\",\"narodmon_device_id\":\"" ++ narodmonDeviceId ++
    ascii "\",\"measurement_retention_seconds\":" ++ decimal config.measurementRetentionSeconds.toNat ++
    ascii ",\"measurement_max_count\":" ++ decimal config.measurementMaxCount.toNat ++
    ascii ",\"onewire_poll_interval_seconds\":" ++ decimal config.onewirePollIntervalSeconds.toNat ++
    ascii ",\"onewire_gpio2_enabled\":" ++ Json.boolText config.onewireGpio2Enabled ++
    ascii ",\"onewire_gpio3_enabled\":" ++ Json.boolText config.onewireGpio3Enabled ++
    ascii ",\"build_number\":" ++ decimal s.build.buildNumber.toNat ++
    ascii ",\"build_datetime\":\"" ++ buildDatetime ++
    ascii "\",\"save_status_valid\":" ++ Json.boolText s.saveStatus.isSome ++
    ascii ",\"save_status\":\"" ++ saveStatus ++ ascii "\"\x7d"

def appWebWriteConfigJson (s : WebState V) (insertLen : Nat) : UInt16 × Bytes :=
  insertText insertLen (configJson s)

section
variable (fixed : Nat → V → Bytes)

def appWebWriteNarodmonText (s : WebState V) (insertLen : Nat) : UInt16 × Bytes :=
  match appNarodmonBuildPayload fixed s.mac insertLen s.nowMs s.view with
  | none => (0, [])
  | some text => (UInt16.ofNat text.length, text)

def appWebSsiHandler (s : WebState V) (index insertLen : Nat) : UInt16 × Bytes :=
  match index with
  | 0 => bleScannerWriteDevicesJson s.config s.nowMs s.devices insertLen
  | 1 => measurementStoreWriteJson fixed s.config s.view insertLen
  | 2 => appWebWriteStatusJson s insertLen
  | 3 => appWebWriteConfigJson s insertLen
  | 4 => appWebWriteNarodmonText fixed s insertLen
  | 5 => onewireSourceWriteDevicesJson fixed s.config s.nowMs s.onewire insertLen
  | _ => (0, [])

/-! ## The pages -/

def appWebSsiTags : List Bytes :=
  [ascii "devices", ascii "meas", ascii "stat", ascii "cfg", ascii "nmon", ascii "owire"]

/-- The text that stands for the tag with this name. -/
def insertOf (s : WebState V) (tag : Bytes) : Bytes :=
  let r := appWebSsiHandler fixed s (appWebSsiTags.idxOf tag) LWIP_HTTPD_MAX_TAG_INSERT_LEN
  r.2.take r.1.toNat

/-- `/config.json`, without the line feed at its end, as the others. -/
def configPage (s : WebState V) : Bytes := insertOf fixed s (ascii "cfg")

def statusPage (s : WebState V) : Bytes := insertOf fixed s (ascii "stat")

def devicesPage (s : WebState V) : Bytes :=
  ascii "\x7b\"devices\":[" ++ insertOf fixed s (ascii "devices") ++
    ascii "],\"measurements\":[" ++ insertOf fixed s (ascii "meas") ++ ascii "]\x7d"

def onewirePage (s : WebState V) : Bytes :=
  ascii "\x7b\"devices\":[" ++ insertOf fixed s (ascii "owire") ++ ascii "]\x7d"

end

/-! ## The errors of the MQTT client -/

/-- A text that needs no escapes, as the last error is not escaped. -/
def PlainError (s : AppMqtt V) : Prop := ∀ b ∈ s.lastError.bytes, 0x20 ≤ b ∧ Json.special b = false

theorem plainError_copy {s : AppMqtt V} {text : Bytes} (h : ∀ b ∈ text, 0x20 ≤ b ∧ Json.special b = false)
    (hs : s.lastError = .copy 64 text) : PlainError s := by
  intro b hb
  rw [hs] at hb
  exact h b ((copy_sublist 64 text).subset hb)

theorem PlainError.same {s s' : AppMqtt V} (h : PlainError s) (hs : s'.lastError = s.lastError) :
    PlainError s' := by
  unfold PlainError
  rw [hs]
  exact h

theorem plain_signedDecimal (i : Int) : ∀ b ∈ signedDecimal i, 0x20 ≤ b ∧ Json.special b = false := by
  intro b hb
  unfold signedDecimal at hb
  split at hb
  · rcases List.mem_cons.1 hb with rfl | hb
    · decide
    · exact Json.plain_of_isdigit b (isdigit_decimal _ b hb)
  · exact Json.plain_of_isdigit b (isdigit_decimal _ b hb)

theorem retryLater_plain (nowMs : UInt32) {message : String}
    (h : ∀ b ∈ ascii message, 0x20 ≤ b ∧ Json.special b = false) (code : ErrT) (s : AppMqtt V) :
    PlainError (retryLater nowMs message code s).state := by
  refine plainError_copy ?_ rfl
  simp only [List.forall_mem_append]
  exact ⟨⟨⟨h, by simp [ascii, Json.special]⟩, plain_signedDecimal code⟩, by simp [ascii, Json.special]⟩

section
variable {s : AppMqtt V} (env : PollEnv V)

theorem pollConfig_plain (h : PlainError s) : PlainError (pollConfig env s).state := by
  unfold pollConfig
  split
  · refine plainError_copy ?_ rfl
    split
    · simp [ascii, Json.special]
    · intro b hb
      cases hb
  · exact h

theorem pollDisabled_plain (h : PlainError s) : PlainError (pollDisabled s).state := by
  unfold pollDisabled
  split <;> exact h

theorem pollConnection_plain (h : PlainError s) : PlainError (pollConnection env s).state := by
  unfold pollConnection
  split
  · dsimp only
    split
    · exact retryLater_plain _ (by simp [ascii, Json.special]) _ _
    · exact h
  · exact h

theorem resolve_plain (h : PlainError s) : PlainError (resolve env s).state := by
  unfold resolve
  dsimp only [Outcome.after]
  split
  · exact h
  split
  · exact retryLater_plain _ (by simp [ascii, Json.special]) _ _
  · exact h

theorem pollWaiting_plain (h : PlainError s) : PlainError (pollWaiting env s).state := by
  unfold pollWaiting
  split
  · split
    · exact h
    · dsimp only
      split
      · exact retryLater_plain _ (by simp [ascii, Json.special]) _ _
      split
      · exact retryLater_plain _ (by simp [ascii, Json.special]) _ _
      · exact resolve_plain env h
  · exact h

theorem pollResolved_plain (h : PlainError s) : PlainError (pollResolved env s).state := by
  unfold pollResolved
  split
  · dsimp only
    split
    · exact retryLater_plain _ (by simp [ascii, Json.special]) _ _
    · dsimp only [Outcome.after]
      split
      · exact retryLater_plain _ (by simp [ascii, Json.special]) _ _
      · exact h
  · exact h

theorem pollTimeout_plain (h : PlainError s) : PlainError (pollTimeout env s).state := by
  unfold pollTimeout
  split
  · split
    · exact retryLater_plain _ (by simp [ascii, Json.special]) _ _
    · exact h
  · split <;> exact h

theorem pollPublished_plain (h : PlainError s) : PlainError (pollPublished env s).state := by
  unfold pollPublished
  split
  · dsimp only
    split
    · exact retryLater_plain _ (by simp [ascii, Json.special]) _ _
    split
    · intro b hb
      cases hb
    · dsimp only [Outcome.next]
      exact h.same rfl
  · exact h

theorem pollPublish_plain (h : PlainError s) : PlainError (pollPublish env s).state := by
  unfold pollPublish
  split
  · exact retryLater_plain _ (by simp [ascii, Json.special]) _ _
  split
  · dsimp only
    split
    · exact retryLater_plain _ (by simp [ascii, Json.special]) _ _
    · dsimp only [Outcome.after]
      split
      · exact h
      split
      · exact retryLater_plain _ (by simp [ascii, Json.special]) _ _
      · exact h
  · exact h

variable [Zero V] [Add V] [Div V] [NatCast V]

theorem pollSnapshot_plain (h : PlainError s) : PlainError (pollSnapshot env s).state := by
  unfold pollSnapshot
  split
  · split
    · exact h
    · dsimp only [Outcome.after]
      split
      · dsimp only [Outcome.return]
        exact h.same rfl
      · dsimp only [Outcome.next]
        exact h.same rfl
  · exact h

theorem poll_plain (h : PlainError s) : PlainError (appMqttPoll env s).state := by
  unfold appMqttPoll
  refine Outcome.andThen_keeps ?_ fun _ => pollPublish_plain env
  refine Outcome.andThen_keeps ?_ fun _ => pollSnapshot_plain env
  refine Outcome.andThen_keeps ?_ fun _ => pollPublished_plain env
  refine Outcome.andThen_keeps ?_ fun _ => pollTimeout_plain env
  refine Outcome.andThen_keeps ?_ fun _ => pollResolved_plain env
  refine Outcome.andThen_keeps ?_ fun _ => pollWaiting_plain env
  refine Outcome.andThen_keeps ?_ fun _ => pollConnection_plain env
  refine Outcome.andThen_keeps ?_ fun _ => pollDisabled_plain
  exact pollConfig_plain env h

end

theorem step_plain [Zero V] [Add V] [Div V] [NatCast V] {w : MqttWorld V} (h : PlainError w.app)
    (e : MqttEvent V) : PlainError (w.step e).app := by
  cases e with
  | applyConfig config =>
    unfold MqttWorld.step appMqttApplyConfig
    dsimp only
    split <;> exact h
  | poll env => exact poll_plain env h
  | dnsAnswer request address =>
    unfold MqttWorld.step
    dsimp only
    split
    · exact h
    · dsimp only [dnsFound]
      split <;> exact h
  | connection result =>
    unfold MqttWorld.step
    dsimp only
    split <;> exact h
  | published result =>
    unfold MqttWorld.step
    dsimp only
    split <;> exact h

/-- In every run of the MQTT client its last error needs no escapes. -/
theorem run_plain [Zero V] [Add V] [Div V] [NatCast V] (events : List (MqttEvent V)) :
    PlainError (run MqttWorld.step (.init : MqttWorld V) events).app := by
  have hinit : PlainError (.init : MqttWorld V).app := by
    intro b hb
    cases hb
  exact (everyStep_true _ _ events).inv (I := fun w : MqttWorld V => PlainError w.app) hinit
    fun _ e h _ => step_plain h e

/-! ## What the pages denote -/

/-- A text that is escaped. -/
def textMember (key text : Bytes) : Json.Member := .string key (Json.escape text) (Json.kept text)

/-- A text that needs no escapes. -/
def plainMember (key text : Bytes) : Json.Member := .string key text text

def statusMembers (s : WebState V) : List Json.Member := [
  .number (ascii "flash_total_bytes") (decimal (s.space.getD (0, 0)).1.toNat),
  .number (ascii "flash_free_bytes") (decimal (s.space.getD (0, 0)).2.toNat),
  .number (ascii "cpu_load_percent") (decimal s.cpuLoadPercent.toNat),
  textMember (ascii "device_name") (appConfigGetDeviceName s.config),
  textMember (ascii "narodmon_device_name") (appConfigGetDeviceName s.config),
  .number (ascii "narodmon_seconds_remaining") (decimal s.narodmonSecondsRemaining.toNat),
  plainMember (ascii "mqtt_status") (appMqttStatus s.mqtt),
  plainMember (ascii "mqtt_last_error") s.mqtt.lastError.bytes,
  .number (ascii "mqtt_last_send_seconds") (decimal s.mqtt.lastSendSeconds.toNat),
  .number (ascii "device_table_used") (decimal (bleScannerDeviceCount s.devices)),
  .number (ascii "device_table_capacity") (decimal BLE_DEVICE_TABLE_SIZE),
  .number (ascii "measurement_table_used") (decimal (measurementStoreTableUsed s.measurements)),
  .number (ascii "measurement_table_capacity") (decimal MEASUREMENT_STORE_TABLE_SIZE),
  .number (ascii "measurement_view_used") (decimal (measurementStoreViewUsed s.view)),
  .number (ascii "measurement_view_capacity") (decimal MEASUREMENT_STORE_VIEW_SIZE),
  .number (ascii "onewire_device_table_used") (decimal (onewireSourceDeviceTableUsed s.onewire)),
  .number (ascii "onewire_device_table_capacity") (decimal ONEWIRE_DEVICE_TABLE_SIZE)]

def configMembers (s : WebState V) : List Json.Member := [
  plainMember (ascii "mode") (appConfigModeName s.config.mode),
  textMember (ascii "ssid") s.config.ssid.bytes,
  textMember (ascii "hostname") s.config.hostname.bytes,
  .number (ascii "channel") (decimal s.config.channel.toNat),
  plainMember (ascii "security") (appConfigSecurityName s.config.security),
  textMember (ascii "password") s.config.password.bytes,
  .bool (ascii "send_narodmon") s.config.sendNarodmon,
  .bool (ascii "mqtt_enabled") s.config.mqtt.enabled,
  textMember (ascii "mqtt_host") s.config.mqtt.host.bytes,
  .number (ascii "mqtt_port") (decimal s.config.mqtt.port.toNat),
  .number (ascii "mqtt_interval_seconds") (decimal s.config.mqtt.intervalSeconds.toNat),
  textMember (ascii "mqtt_username") s.config.mqtt.username.bytes,
  textMember (ascii "mqtt_password") s.config.mqtt.password.bytes,
  plainMember (ascii "narodmon_device_id") ((appNarodmonGetDeviceId s.mac APP_NARODMON_DEVICE_ID_LEN).getD []),
  .number (ascii "measurement_retention_seconds") (decimal s.config.measurementRetentionSeconds.toNat),
  .number (ascii "measurement_max_count") (decimal s.config.measurementMaxCount.toNat),
  .number (ascii "onewire_poll_interval_seconds") (decimal s.config.onewirePollIntervalSeconds.toNat),
  .bool (ascii "onewire_gpio2_enabled") s.config.onewireGpio2Enabled,
  .bool (ascii "onewire_gpio3_enabled") s.config.onewireGpio3Enabled,
  .number (ascii "build_number") (decimal s.build.buildNumber.toNat),
  textMember (ascii "build_datetime") s.build.buildDatetime.bytes,
  .bool (ascii "save_status_valid") s.saveStatus.isSome,
  textMember (ascii "save_status") (s.saveStatus.elim [] (·.bytes))]

/-- The value of a member denotes what it should, and is not long. -/
structure PageMember (m : Json.Member) : Prop where
  denotes : Json.Denotes m.text m.value
  short : m.text.length ≤ 512

theorem PageMember.ofString {key body text : Bytes} (h : Json.unescape body = some text)
    (hlen : body.length ≤ 510) :
    PageMember (.string key body text) := by
  refine ⟨.string h, ?_⟩
  simp only [Json.Member.string, Json.quoted, List.length_append, List.length_cons, List.length_nil]
  omega

/-- A text of up to 255 characters. -/
theorem PageMember.ofText {key text : Bytes} (h : text.length ≤ 255) : PageMember (textMember key text) := by
  refine .ofString (Json.unescape_escape text) ?_
  rw [Json.length_escape]
  have hle := Json.escapedLength_le text
  omega

theorem PageMember.ofCString {key : Bytes} {cap : Nat} (text : CString cap) (h : cap ≤ 256) :
    PageMember (textMember key text.bytes) := by
  have hfits := text.fits
  exact .ofText (by omega)

theorem PageMember.ofPlain {key text : Bytes} (h : ∀ b ∈ text, 0x20 ≤ b ∧ Json.special b = false)
    (hlen : text.length ≤ 255) : PageMember (plainMember key text) :=
  .ofString (Json.unescape_self h) (hlen.trans (by decide))

theorem PageMember.ofNumber {key : Bytes} {n : Nat} (h : n < 2 ^ 64) : PageMember (.number key (decimal n)) := by
  refine ⟨.number (Json.isNumber_decimal n), ?_⟩
  have hlen := decimal_length_le (k := 20) (by decide) (h.trans (by decide))
  simp only [Json.Member.number]
  omega

theorem PageMember.ofUInt8 {key : Bytes} (n : UInt8) : PageMember (.number key (decimal n.toNat)) :=
  .ofNumber (n.toNat_lt.trans (by decide))

theorem PageMember.ofUInt16 {key : Bytes} (n : UInt16) : PageMember (.number key (decimal n.toNat)) :=
  .ofNumber (n.toNat_lt.trans (by decide))

theorem PageMember.ofUInt32 {key : Bytes} (n : UInt32) : PageMember (.number key (decimal n.toNat)) :=
  .ofNumber (n.toNat_lt.trans (by decide))

/-- How many slots of a table are in use. -/
theorem PageMember.ofCount {key : Bytes} {n : Nat} (p : Fin n → Bool) (h : n < 2 ^ 64) :
    PageMember (.number key (decimal ((List.finRange n).countP p))) :=
  .ofNumber ((List.countP_le_length.trans_eq List.length_finRange).trans_lt h)

theorem PageMember.ofBool {key : Bytes} (b : Bool) : PageMember (.bool key b) := by
  refine ⟨.bool b, ?_⟩
  cases b <;> exact Nat.le_of_ble_eq_true rfl

theorem deviceName_length (config : AppConfig) : (appConfigGetDeviceName config).length ≤ 63 := by
  unfold appConfigGetDeviceName
  split
  · decide
  · exact config.hostname.fits

theorem saveStatus_length (s : WebState V) : (s.saveStatus.elim [] (·.bytes)).length ≤ 95 := by
  cases s.saveStatus with
  | none => exact Nat.zero_le _
  | some text => exact text.fits

/-- The buffer has two bytes for each byte of the text. -/
theorem jsonEscape_text {cap : Nat} (text : CString cap) (hcap : 0 < cap) :
    appTextJsonEscape (cap * 2) text.bytes = Json.escape text.bytes := by
  have hfits := text.fits
  exact jsonEscape_roomy (by omega)

set_option maxRecDepth 8000 in
theorem statusJson_eq (s : WebState V) : statusJson s = Json.objectText (statusMembers s) := by
  have hname : 2 * (appConfigGetDeviceName s.config).length < APP_CONFIG_HOSTNAME_MAX_LEN * 2 := by
    have hle := deviceName_length s.config
    have hlen : APP_CONFIG_HOSTNAME_MAX_LEN = 64 := rfl
    omega
  unfold statusJson
  dsimp only
  rw [jsonEscape_roomy hname]
  simp [statusMembers, textMember, plainMember, ascii]

set_option maxRecDepth 8000 in
theorem configJson_eq (s : WebState V) : configJson s = Json.objectText (configMembers s) := by
  have hstatus : 2 * (s.saveStatus.elim [] (·.bytes)).length < APP_WEB_SAVE_STATUS_MAX_LEN * 2 := by
    have hle := saveStatus_length s
    have hlen : APP_WEB_SAVE_STATUS_MAX_LEN = 96 := rfl
    omega
  unfold configJson
  dsimp only
  rw [jsonEscape_roomy hstatus, jsonEscape_text _ (by decide), jsonEscape_text _ (by decide),
    jsonEscape_text _ (by decide), jsonEscape_text _ (by decide), jsonEscape_text _ (by decide),
    jsonEscape_text _ (by decide), show SIZEOF_BUILD_DATETIME = 32 * 2 from rfl,
    jsonEscape_text s.build.buildDatetime (by decide)]
  simp [configMembers, textMember, plainMember, ascii]

/-! ## Every page is one JSON text -/

theorem noEscapes_mqttStatus (s : AppMqtt V) : (∀ b ∈ appMqttStatus s, 0x20 ≤ b ∧ Json.special b = false) ∧
    (appMqttStatus s).length ≤ 255 := by
  unfold appMqttStatus
  cases s.state <;> simp [ascii, Json.special]

theorem noEscapes_modeName (mode : AppWifiMode) :
    (∀ b ∈ appConfigModeName mode, 0x20 ≤ b ∧ Json.special b = false) ∧
      (appConfigModeName mode).length ≤ 255 := by
  cases mode <;> simp [appConfigModeName, ascii, Json.special]

theorem noEscapes_securityName (security : AppWifiSecurity) :
    (∀ b ∈ appConfigSecurityName security, 0x20 ≤ b ∧ Json.special b = false) ∧
      (appConfigSecurityName security).length ≤ 255 := by
  cases security <;> simp [appConfigSecurityName, ascii, Json.special]

theorem noEscapes_narodmonDeviceId (mac : Option (Vector UInt8 6)) (bufferLen : Nat) :
    (∀ b ∈ (appNarodmonGetDeviceId mac bufferLen).getD [], 0x20 ≤ b ∧ Json.special b = false) ∧
      ((appNarodmonGetDeviceId mac bufferLen).getD []).length ≤ 255 := by
  cases mac with
  | none => exact ⟨fun b hb => (by cases hb), Nat.zero_le _⟩
  | some mac =>
    simp only [appNarodmonGetDeviceId]
    split
    · exact ⟨fun b hb => (by cases hb), Nat.zero_le _⟩
    rename_i hlen
    rw [not_or, not_not] at hlen
    refine ⟨fun b hb => ?_, hlen.2.le.trans (by decide)⟩
    rcases List.mem_append.1 hb with hb | hb
    · exact (by simp [ascii, Json.special] : ∀ b ∈ ascii "BLEB", 0x20 ≤ b ∧ Json.special b = false) b hb
    · exact Json.plain_of_isxdigit b (hexUpper_hexText b hb).1

theorem statusMembers_page {s : WebState V} (h : PlainError s.mqtt) : ∀ m ∈ statusMembers s, PageMember m := by
  have hname := (deviceName_length s.config).trans (by decide : 63 ≤ 255)
  have hstatus := noEscapes_mqttStatus s.mqtt
  have herror := s.mqtt.lastError.fits.trans (by decide : 63 ≤ 255)
  simp only [statusMembers, List.forall_mem_cons]
  refine ⟨.ofNumber (UInt64.toNat_lt _), .ofNumber (UInt64.toNat_lt _), .ofUInt8 _, .ofText hname, .ofText hname,
    .ofUInt32 _, .ofPlain hstatus.1 hstatus.2, .ofPlain h herror, .ofUInt32 _, .ofCount _ (by decide),
    .ofNumber (by decide), .ofCount _ (by decide), .ofNumber (by decide), .ofCount _ (by decide),
    .ofNumber (by decide), .ofCount _ (by decide), .ofNumber (by decide), ?_⟩
  intro m hm
  cases hm

theorem configMembers_page (s : WebState V) : ∀ m ∈ configMembers s, PageMember m := by
  have hmode := noEscapes_modeName s.config.mode
  have hsecurity := noEscapes_securityName s.config.security
  have hid := noEscapes_narodmonDeviceId s.mac APP_NARODMON_DEVICE_ID_LEN
  have hstatus := (saveStatus_length s).trans (by decide : 95 ≤ 255)
  simp only [configMembers, List.forall_mem_cons]
  refine ⟨.ofPlain hmode.1 hmode.2, .ofCString _ (by decide), .ofCString _ (by decide), .ofUInt32 _,
    .ofPlain hsecurity.1 hsecurity.2, .ofCString _ (by decide), .ofBool _, .ofBool _, .ofCString _ (by decide),
    .ofUInt16 _, .ofUInt32 _, .ofCString _ (by decide), .ofCString _ (by decide), .ofPlain hid.1 hid.2,
    .ofUInt32 _, .ofUInt16 _, .ofUInt32 _, .ofBool _, .ofBool _, .ofUInt32 _, .ofCString _ (by decide), .ofBool _,
    .ofText hstatus, ?_⟩
  intro m hm
  cases hm

/-- The keys, which stand for themselves. -/
def statusKeys : List Bytes := List.map ascii ["flash_total_bytes", "flash_free_bytes", "cpu_load_percent",
  "device_name", "narodmon_device_name", "narodmon_seconds_remaining", "mqtt_status", "mqtt_last_error",
  "mqtt_last_send_seconds", "device_table_used", "device_table_capacity", "measurement_table_used",
  "measurement_table_capacity", "measurement_view_used", "measurement_view_capacity", "onewire_device_table_used",
  "onewire_device_table_capacity"]

def configKeys : List Bytes := List.map ascii ["mode", "ssid", "hostname", "channel", "security", "password",
  "send_narodmon", "mqtt_enabled", "mqtt_host", "mqtt_port", "mqtt_interval_seconds", "mqtt_username",
  "mqtt_password", "narodmon_device_id", "measurement_retention_seconds", "measurement_max_count",
  "onewire_poll_interval_seconds", "onewire_gpio2_enabled", "onewire_gpio3_enabled", "build_number",
  "build_datetime", "save_status_valid", "save_status"]

theorem statusMembers_keys (s : WebState V) : (statusMembers s).map (·.key) = statusKeys := rfl

theorem configMembers_keys (s : WebState V) : (configMembers s).map (·.key) = configKeys := rfl

theorem statusKeys_plain : ∀ key ∈ statusKeys, Json.unescape key = some key ∧ key.length ≤ 40 := by decide +kernel

theorem configKeys_plain : ∀ key ∈ configKeys, Json.unescape key = some key ∧ key.length ≤ 40 := by decide +kernel

/-- An insert that fits is inserted whole. -/
theorem insertText_whole {text : Bytes} (h : text.length < LWIP_HTTPD_MAX_TAG_INSERT_LEN) :
    (insertText LWIP_HTTPD_MAX_TAG_INSERT_LEN text).2.take
      (insertText LWIP_HTTPD_MAX_TAG_INSERT_LEN text).1.toNat = text := by
  have hwhole : text.take (LWIP_HTTPD_MAX_TAG_INSERT_LEN - 1) = text :=
    List.take_of_length_le (Nat.le_pred_of_lt h)
  have hmax : LWIP_HTTPD_MAX_TAG_INSERT_LEN < 2 ^ 16 := by decide
  simp only [insertText, hwhole]
  rw [UInt16.toNat_ofNat', Nat.mod_eq_of_lt (h.trans hmax), List.take_length]

/-- A page of at most 24 members is one JSON text, as it is inserted. -/
theorem page_denotes {members : List Json.Member} {keys : List Bytes} (hmap : members.map (·.key) = keys)
    (hkeys : ∀ key ∈ keys, Json.unescape key = some key ∧ key.length ≤ 40) (h : ∀ m ∈ members, PageMember m)
    (hlen : keys.length ≤ 24) :
    Json.Denotes ((insertText LWIP_HTTPD_MAX_TAG_INSERT_LEN (Json.objectText members)).2.take
      (insertText LWIP_HTTPD_MAX_TAG_INSERT_LEN (Json.objectText members)).1.toNat)
      (Json.objectValue members) := by
  have hkey : ∀ m ∈ members, Json.unescape m.key = some m.key ∧ m.key.length ≤ 40 := by
    intro m hm
    refine hkeys m.key ?_
    rw [← hmap]
    exact List.mem_map_of_mem hm
  have hcount : members.length ≤ 24 := by rwa [← hmap, List.length_map] at hlen
  -- a member takes 556 bytes at most, with its comma
  have hsize := Json.length_objectText_le (k := 556) fun m hm => by
    have hk := (hkey m hm).2
    have hshort := (h m hm).short
    omega
  have hfits : (Json.objectText members).length < LWIP_HTTPD_MAX_TAG_INSERT_LEN :=
    calc (Json.objectText members).length
      _ ≤ members.length * 556 + 2 := hsize
      _ ≤ 24 * 556 + 2 := Nat.add_le_add_right (Nat.mul_le_mul_right _ hcount) 2
      _ < LWIP_HTTPD_MAX_TAG_INSERT_LEN := by decide
  rw [insertText_whole hfits]
  exact Json.denotes_objectText fun m hm => ⟨(hkey m hm).1, (h m hm).denotes⟩

/-! ## The listings -/

/-- The entries in use. -/
def listedDevices (s : WebState V) : List BleDeviceEntry :=
  ((List.finRange BLE_DEVICE_TABLE_SIZE).map s.devices).filter (·.inUse)

def listedMeasurements (s : WebState V) : List (MeasurementViewEntry V) :=
  ((List.finRange MEASUREMENT_STORE_VIEW_SIZE).map s.view).filter (·.inUse)

def listedOneWire (s : WebState V) : List (OneWireDevice V) :=
  ((List.finRange ONEWIRE_DEVICE_TABLE_SIZE).map s.onewire).filter (·.inUse)

/-- A listing in brackets as the member of a page. -/
def listingMember (key : Bytes) (r : UInt16 × Bytes) (values : List Json.Value) : Json.Member :=
  ⟨key, 91 :: r.2.take r.1.toNat ++ [93], .array values⟩

theorem listingMember_sound {key : Bytes} {r : UInt16 × Bytes} {values : List Json.Value}
    (hkey : Json.unescape key = some key) (h : Json.Denotes (91 :: r.2.take r.1.toNat ++ [93]) (.array values)) :
    (listingMember key r values).Sound := ⟨hkey, h⟩

section
variable (fixed : Nat → V → Bytes)

theorem devicesPage_eq (s : WebState V) (devices measurements : List Json.Value) :
    devicesPage fixed s = Json.objectText [
      listingMember (ascii "devices")
        (bleScannerWriteDevicesJson s.config s.nowMs s.devices LWIP_HTTPD_MAX_TAG_INSERT_LEN) devices,
      listingMember (ascii "measurements")
        (measurementStoreWriteJson fixed s.config s.view LWIP_HTTPD_MAX_TAG_INSERT_LEN) measurements] := by
  have hdevices : appWebSsiTags.idxOf (ascii "devices") = 0 := by simp [appWebSsiTags, ascii]
  have hmeasurements : appWebSsiTags.idxOf (ascii "meas") = 1 := by simp [appWebSsiTags, ascii]
  unfold devicesPage insertOf
  rw [hdevices, hmeasurements]
  simp [appWebSsiHandler, listingMember, ascii]

theorem onewirePage_eq (s : WebState V) (devices : List Json.Value) :
    onewirePage fixed s = Json.objectText [
      listingMember (ascii "devices")
        (onewireSourceWriteDevicesJson fixed s.config s.nowMs s.onewire LWIP_HTTPD_MAX_TAG_INSERT_LEN)
        devices] := by
  have hdevices : appWebSsiTags.idxOf (ascii "owire") = 5 := by simp [appWebSsiTags, ascii]
  unfold onewirePage insertOf
  rw [hdevices]
  simp [appWebSsiHandler, listingMember, ascii]

/-- What the pages should be: JSON texts of what the bridge knows, in which a table is
listed up to its first entry that does not fit. -/
structure PagesJson (s : WebState V) : Prop where
  config : Json.Denotes (configPage fixed s) (Json.objectValue (configMembers s))
  status : Json.Denotes (statusPage fixed s) (Json.objectValue (statusMembers s))
  devices : ∃ k j,
    ListsFirst LWIP_HTTPD_MAX_TAG_INSERT_LEN ((listedDevices s).map (bleDeviceJson s.config s.nowMs)) k
      (bleScannerWriteDevicesJson s.config s.nowMs s.devices LWIP_HTTPD_MAX_TAG_INSERT_LEN) ∧
    ListsFirst LWIP_HTTPD_MAX_TAG_INSERT_LEN ((listedMeasurements s).map (measurementJson fixed s.config)) j
      (measurementStoreWriteJson fixed s.config s.view LWIP_HTTPD_MAX_TAG_INSERT_LEN) ∧
    Json.Denotes (devicesPage fixed s) (.object [
      (ascii "devices", .array (((listedDevices s).take k).map fun e =>
        Json.objectValue (bleDeviceMembers s.config s.nowMs e))),
      (ascii "measurements", .array (((listedMeasurements s).take j).map fun e =>
        Json.objectValue (measurementMembers fixed s.config e)))])
  onewire : ∃ k,
    ListsFirst LWIP_HTTPD_MAX_TAG_INSERT_LEN ((listedOneWire s).map (onewireDeviceJson fixed s.config s.nowMs)) k
      (onewireSourceWriteDevicesJson fixed s.config s.nowMs s.onewire LWIP_HTTPD_MAX_TAG_INSERT_LEN) ∧
    Json.Denotes (onewirePage fixed s) (.object [
      (ascii "devices", .array (((listedOneWire s).take k).map fun e =>
        Json.objectValue (onewireDeviceMembers fixed s.config s.nowMs e)))])

end

section
variable {fixed : Nat → V → Bytes}

theorem devices_listing (s : WebState V) :
    JsonListing LWIP_HTTPD_MAX_TAG_INSERT_LEN (listedDevices s) (bleDeviceJson s.config s.nowMs)
      (fun e => Json.objectValue (bleDeviceMembers s.config s.nowMs e))
      (bleScannerWriteDevicesJson s.config s.nowMs s.devices LWIP_HTTPD_MAX_TAG_INSERT_LEN) :=
  writeObjects_listing (by decide) (by decide) _ fun e _ => bleDevice_denotes s.config s.nowMs e

theorem measurements_listing {s : WebState V}
    (h : ∀ i, (s.view i).inUse = true → Json.IsNumber (fixed 3 (s.view i).averageValue)) :
    JsonListing LWIP_HTTPD_MAX_TAG_INSERT_LEN (listedMeasurements s) (measurementJson fixed s.config)
      (fun e => Json.objectValue (measurementMembers fixed s.config e))
      (measurementStoreWriteJson fixed s.config s.view LWIP_HTTPD_MAX_TAG_INSERT_LEN) := by
  refine writeObjects_listing (by decide) (by decide) _ fun e he => ?_
  obtain ⟨hmem, hu⟩ := List.mem_filter.1 he
  obtain ⟨i, -, rfl⟩ := List.mem_map.1 hmem
  exact measurement_denotes s.config (h i hu)

theorem onewire_listing {s : WebState V}
    (h : ∀ i, (s.onewire i).inUse = true → Json.IsNumber (fixed 3 (s.onewire i).temperatureC)) :
    JsonListing LWIP_HTTPD_MAX_TAG_INSERT_LEN (listedOneWire s) (onewireDeviceJson fixed s.config s.nowMs)
      (fun e => Json.objectValue (onewireDeviceMembers fixed s.config s.nowMs e))
      (onewireSourceWriteDevicesJson fixed s.config s.nowMs s.onewire LWIP_HTTPD_MAX_TAG_INSERT_LEN) := by
  refine writeObjects_listing (by decide) (by decide) _ fun e he => ?_
  obtain ⟨hmem, hu⟩ := List.mem_filter.1 he
  obtain ⟨i, -, rfl⟩ := List.mem_map.1 hmem
  exact onewireDevice_denotes s.config s.nowMs (h i hu)

theorem configPage_denotes (s : WebState V) :
    Json.Denotes (configPage fixed s) (Json.objectValue (configMembers s)) := by
  have hindex : appWebSsiTags.idxOf (ascii "cfg") = 3 := by simp [appWebSsiTags, ascii]
  unfold configPage insertOf
  rw [hindex]
  dsimp only [appWebSsiHandler, appWebWriteConfigJson]
  rw [configJson_eq]
  exact page_denotes (configMembers_keys s) configKeys_plain (configMembers_page s) (by decide)

theorem statusPage_denotes {s : WebState V} (h : PlainError s.mqtt) :
    Json.Denotes (statusPage fixed s) (Json.objectValue (statusMembers s)) := by
  have hindex : appWebSsiTags.idxOf (ascii "stat") = 2 := by simp [appWebSsiTags, ascii]
  unfold statusPage insertOf
  rw [hindex]
  dsimp only [appWebSsiHandler, appWebWriteStatusJson]
  rw [statusJson_eq]
  exact page_denotes (statusMembers_keys s) statusKeys_plain (statusMembers_page h) (by decide)

/-- **The pages**: whatever the tables, the configuration and the last saving are, and
after any run of the MQTT client, every page that a script reads is one JSON text. -/
theorem pages_json [Zero V] [Add V] [Div V] [NatCast V] (events : List (MqttEvent V)) (s : WebState V)
    (hmqtt : s.mqtt = (run MqttWorld.step .init events).app)
    (hview : ∀ i, (s.view i).inUse = true → Json.IsNumber (fixed 3 (s.view i).averageValue))
    (hdevices : ∀ i, (s.onewire i).inUse = true → Json.IsNumber (fixed 3 (s.onewire i).temperatureC)) :
    PagesJson fixed s := by
  have hdevicesKey : Json.unescape (ascii "devices") = some (ascii "devices") :=
    Json.unescape_self (by simp [ascii, Json.special])
  have hmeasurementsKey : Json.unescape (ascii "measurements") = some (ascii "measurements") :=
    Json.unescape_self (by simp [ascii, Json.special])
  -- the last error of MQTT is the one text that is printed as it is
  refine ⟨configPage_denotes s, statusPage_denotes (hmqtt ▸ run_plain events), ?_, ?_⟩
  · obtain ⟨k, hk, hkd⟩ := devices_listing s
    obtain ⟨j, hj, hjd⟩ := measurements_listing hview
    refine ⟨k, j, hk, hj, ?_⟩
    rw [devicesPage_eq]
    refine Json.denotes_objectText fun m hm => ?_
    rcases List.mem_pair.1 hm with rfl | rfl
    · exact listingMember_sound hdevicesKey hkd
    · exact listingMember_sound hmeasurementsKey hjd
  · obtain ⟨k, hk, hkd⟩ := onewire_listing hdevices
    refine ⟨k, hk, ?_⟩
    rw [onewirePage_eq]
    refine Json.denotes_objectText fun m hm => ?_
    obtain rfl := List.mem_singleton.1 hm
    exact listingMember_sound hdevicesKey hkd

end

/-- A poll while the name of the broker is being resolved. -/
def resolvingEnv (nowMs : UInt32) : PollEnv ℚ :=
  ⟨nowMs, true, some [2, 0, 0, 0, 0, 1], ERR_INPROGRESS, 0, ERR_OK, measurementStoreInit 0, fun _ => none, ERR_OK⟩

/-- A broker whose name is not resolved in time. -/
def resolvingRun : List (MqttEvent ℚ) :=
  [.applyConfig ⟨true, .copy _ (ascii "broker"), 1883, 60, .copy _ [], .copy _ []⟩, .poll (resolvingEnv 9000),
    .poll (resolvingEnv 24000)]

/-- One BLE device, one measurement and one 1-Wire device, with a quote in their name. -/
def barPages : WebState ℚ where
  nowMs := 25000
  mac := some #v[2, 0, 0, 0, 0, 1]
  build := ⟨41, .copy _ (ascii "not built")⟩
  config := barConfig
  saveStatus := some (.copy _ (ascii "Device name saved to config.ini"))
  cpuLoadPercent := 3
  narodmonSecondsRemaining := 300
  space := some (126976, 118784)
  mqtt := (run MqttWorld.step .init resolvingRun).app
  devices i := { BleDeviceEntry.zero with inUse := i.val = 0, deviceId := 7, lastSeenMs := 24000 }
  measurements := (measurementStoreInit 0).table
  view := barView
  onewire := barDevices

theorem pages_json_bar : PagesJson fixedText barPages ∧
    barPages.mqtt.lastError.bytes = ascii "Connect timeout (-3)" ∧ (listedDevices barPages).length = 1 := by
  have hmqtt : barPages.mqtt = (run MqttWorld.step .init resolvingRun).app := by rw [barPages]
  refine ⟨pages_json resolvingRun barPages hmqtt (fun i _ => ?_) fun i _ => ?_, ?_, ?_⟩
  · exact Json.isNumber_fixedText 3 (barView i).averageValue
  · exact Json.isNumber_fixedText 3 (barDevices i).temperatureC
  · decide +kernel
  · decide +kernel

end BLEBridge
