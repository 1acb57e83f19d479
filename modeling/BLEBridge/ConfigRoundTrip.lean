import BLEBridge.ConfigDocument
import BLEBridge.ConfigSave
/-!
# Saving and loading

What a canonical configuration's file says is read back field by field
(`loadFields_saved`), and the two lists entry by entry, so a load returns the
configuration that was saved (`save_load`).
-/
open Lib

namespace BLEBridge

theorem toUInt32_toNat (n : UInt32) : toUInt32 (n.toNat : Int) = n := by
  have h := n.toNat_lt
  have hmod : ((n.toNat : Int) % 2 ^ 32).toNat = n.toNat := by omega
  rw [toUInt32, hmod, UInt32.ofNat_toNat]

theorem toUInt16_toNat (n : UInt16) : toUInt16 (n.toNat : Int) = n := by
  have h := n.toNat_lt
  have hmod : ((n.toNat : Int) % 2 ^ 16).toNat = n.toNat := by omega
  rw [toUInt16, hmod, UInt16.ofNat_toNat]

/-- A number read back is only taken if positive, which loses nothing. -/
theorem ite_pos_uint32 (n : UInt32) : (if (n.toNat : Int) > 0 then n else 0) = n := by
  split
  · rfl
  · exact UInt32.toNat_inj.1 (show 0 = n.toNat by omega)

theorem ite_pos_uint16 (n : UInt16) : (if (n.toNat : Int) > 0 then n else 0) = n := by
  split
  · rfl
  · exact UInt16.toNat_inj.1 (show 0 = n.toNat by omega)

theorem toNat_lt_of_le {n max : UInt32} (h : n ≤ max) (hmax : max.toNat < 2 ^ 31) : n.toNat < 2 ^ 31 :=
  (UInt32.le_iff_toNat_le.1 h).trans_lt hmax

/-- The volume after a save. -/
def savedFile (config : AppConfig) : Option Bytes := some (render (configItems config))

section
variable {config : AppConfig} (h : Storable config) {s : IniSection} (hs : s ∈ configSections config)
include h hs

/-! ## Values -/

theorem read_text {cap : Nat} {key : Bytes} {value : CString cap}
    (hl : lookup s.name key true s.body = some value.bytes) (defValue : Bytes) :
    iniGet s.name key defValue cap (savedFile config) = appConfigTrim value := by
  rw [savedFile, iniGet_section h hs, hl, Option.map_some, Option.getD_some]
  rfl

theorem read_bytes {cap : Nat} {key value : Bytes} (hl : lookup s.name key true s.body = some value)
    (hv : PlainText value) (hc : value.length ≤ cap - 1) (defValue : Bytes) :
    (iniGet s.name key defValue cap (savedFile config)).bytes = value := by
  rw [savedFile, iniGet_section h hs, hl, Option.map_some, Option.getD_some, hv.trimmed.trim]
  exact copy_bytes (fun h0 => absurd (hv.printable 0 h0) (by decide)) hc

theorem read_trimmed {cap : Nat} {key value : Bytes} (hl : lookup s.name key true s.body = some value)
    (hv : PlainText value) (hc : value.length ≤ cap - 1) (defValue : Bytes) :
    (appConfigTrim (iniGet s.name key defValue cap (savedFile config))).bytes = value := by
  rw [trim_bytes, read_bytes h hs hl hv hc, hv.trimmed.trim]

theorem read_absent {cap : Nat} {key : Bytes} (hl : lookup s.name key true s.body = none) :
    (appConfigTrim (iniGet s.name key [] cap (savedFile config))).bytes = [] := by
  have hempty : (CString.copy cap []).bytes = [] := copy_bytes (by simp) (Nat.zero_le _)
  rw [trim_bytes, savedFile, iniGet_section h hs, hl, Option.map_none, Option.getD_none, hempty]
  rfl

theorem read_number {key : Bytes} {n : Nat} (hl : lookup s.name key true s.body = some (decimal n))
    (hn : n < 2 ^ 31) (defValue : Int) : iniGetl s.name key defValue (savedFile config) = n := by
  have hlen : (decimal n).length ≤ 10 := decimal_length_le (by omega) (by omega)
  have hb : (iniGet s.name key [] 32 (savedFile config)).bytes = decimal n :=
    read_bytes h hs hl (plain_decimal n) (by omega) []
  rw [iniGetl, hb, if_neg (decimal_ne_nil n), strtol10_decimal hn, Option.getD_some]

theorem read_flag {key : Bytes} {b : Bool} (hl : lookup s.name key true s.body = some (flag b)) (defValue : Int) :
    decide (iniGetl s.name key defValue (savedFile config) ≠ 0) = b := by
  rw [read_number h hs hl (by split <;> omega)]
  cases b <;> rfl

end

/-! ## The fields -/

/-- A user name and a password come back without the white space around them. -/
def AppMqttConfig.reread (mqtt : AppMqttConfig) : AppMqttConfig :=
  { mqtt with username := appConfigTrim mqtt.username, password := appConfigTrim mqtt.password }

def AppConfig.reread (config : AppConfig) : AppConfig := { config with mqtt := config.mqtt.reread }

theorem parseMode_modeName (mode : AppWifiMode) : appConfigParseMode (appConfigModeName mode) = mode := by
  cases mode <;> rfl

theorem parseSecurity_securityName (security : AppWifiSecurity) :
    appConfigParseSecurity (appConfigSecurityName security) = security := by
  cases security <;> rfl

section
variable {config : AppConfig} (h : Storable config)
include h

theorem loadMqtt_saved (mqtt : AppMqttConfig) : loadMqtt (savedFile config) mqtt = config.mqtt.reread := by
  have hs : mqttSection config ∈ configSections config := by simp [configSections]
  have henabled : decide (iniGetl (ascii "mqtt") (ascii "enabled") 0 (savedFile config) ≠ 0) =
      config.mqtt.enabled :=
    read_flag h hs rfl _
  have hhost : iniGet (ascii "mqtt") (ascii "host") [] _ (savedFile config) = config.mqtt.host :=
    (read_text h hs rfl _).trans h.mqttHost_trim
  have huser : iniGet (ascii "mqtt") (ascii "username") [] _ (savedFile config) =
      appConfigTrim config.mqtt.username :=
    read_text h hs rfl _
  have hpass : iniGet (ascii "mqtt") (ascii "password") [] _ (savedFile config) =
      appConfigTrim config.mqtt.password :=
    read_text h hs rfl _
  have hp : ∀ d, iniGetl (ascii "mqtt") (ascii "port") d (savedFile config) = config.mqtt.port.toNat :=
    read_number h hs rfl (by have := config.mqtt.port.toNat_lt; omega)
  have hi : ∀ d, iniGetl (ascii "mqtt") (ascii "interval_seconds") d (savedFile config) =
      config.mqtt.intervalSeconds.toNat :=
    read_number h hs rfl (toNat_lt_of_le h.interval_bounds.2 (by decide))
  have hport : (config.mqtt.port.toNat : Int) > 0 ∧ (config.mqtt.port.toNat : Int) ≤ 65535 := by
    have hne : config.mqtt.port.toNat ≠ 0 := fun h0 => h.port_ne_zero (UInt16.toNat_inj.1 h0)
    have hlt := config.mqtt.port.toNat_lt
    omega
  have hinterval : (config.mqtt.intervalSeconds.toNat : Int) > 0 := by
    have hle : 5 ≤ config.mqtt.intervalSeconds.toNat := UInt32.le_iff_toNat_le.1 h.interval_bounds.1
    omega
  unfold loadMqtt
  simp only [henabled, hhost, huser, hpass, hp, hi]
  rw [if_pos hport, if_pos hinterval, toUInt16_toNat, toUInt32_toNat]
  rfl

/-- Everything but the lists. -/
theorem loadFields_saved (d : AppConfig) : loadFields (savedFile config) d =
    { config.reread with allowedMacs := d.allowedMacs, deviceNames := d.deviceNames } := by
  have hs : networkSection config ∈ configSections config := by simp [configSections]
  have hm : measurementsSection config ∈ configSections config := by simp [configSections]
  have ho : onewireSection config ∈ configSections config := by simp [configSections]
  have hmode : ∀ def', (appConfigTrim (iniGet (ascii "network") (ascii "mode") def' APP_CONFIG_PASSWORD_MAX_LEN
      (savedFile config))).bytes = appConfigModeName config.mode :=
    read_trimmed h hs rfl (plain_modeName _) (by cases config.mode <;> exact of_decide_eq_true rfl)
  have hsecurity : ∀ def',
    (appConfigTrim (iniGet (ascii "network") (ascii "security") def' APP_CONFIG_PASSWORD_MAX_LEN
      (savedFile config))).bytes = appConfigSecurityName config.security :=
    read_trimmed h hs rfl (plain_securityName _) (by cases config.security <;> exact of_decide_eq_true rfl)
  have hssid : ∀ def', iniGet (ascii "network") (ascii "ssid") def' _ (savedFile config) = config.ssid :=
    fun d => (read_text h hs rfl d).trans h.ssid_trim
  have hhostname : ∀ def', iniGet (ascii "network") (ascii "hostname") def' _ (savedFile config) =
      config.hostname :=
    fun d => (read_text h hs rfl d).trans h.hostname_trim
  have hpassword : ∀ def', iniGet (ascii "network") (ascii "password") def' _ (savedFile config) =
      config.password :=
    fun d => (read_text h hs rfl d).trans h.password_trim
  have hchannel : ∀ def', iniGetl (ascii "network") (ascii "channel") def' (savedFile config) =
      config.channel.toNat :=
    read_number h hs rfl (toNat_lt_of_le h.channel_le (by decide))
  have hnarodmon : ∀ def',
    decide (iniGetl (ascii "network") (ascii "send_narodmon") def' (savedFile config) ≠ 0) =
      config.sendNarodmon := read_flag h hs rfl
  have hretention : ∀ def', iniGetl (ascii "measurements") (ascii "retention_seconds") def' (savedFile config) =
      config.measurementRetentionSeconds.toNat := read_number h hm rfl (toNat_lt_of_le h.retention_le (by decide))
  have hcount : ∀ def', iniGetl (ascii "measurements") (ascii "max_count") def' (savedFile config) =
      config.measurementMaxCount.toNat :=
    read_number h hm rfl (by have := config.measurementMaxCount.toNat_lt; omega)
  have hpoll : ∀ def', iniGetl (ascii "onewire") (ascii "poll_interval_seconds") def' (savedFile config) =
      config.onewirePollIntervalSeconds.toNat := read_number h ho rfl (toNat_lt_of_le h.poll_le (by decide))
  have hgpio2 : ∀ def', decide (iniGetl (ascii "onewire") (ascii "gpio2_enabled") def' (savedFile config) ≠ 0) =
      config.onewireGpio2Enabled := read_flag h ho rfl
  have hgpio3 : ∀ def', decide (iniGetl (ascii "onewire") (ascii "gpio3_enabled") def' (savedFile config) ≠ 0) =
      config.onewireGpio3Enabled := read_flag h ho rfl
  unfold loadFields
  simp only [hmode, hsecurity, hssid, hhostname, hpassword, hchannel, hnarodmon, hretention, hcount, hpoll,
    hgpio2, hgpio3,
    loadMqtt_saved h, parseMode_modeName, parseSecurity_securityName, toUInt32_toNat, toUInt16_toNat,
    ite_pos_uint32, ite_pos_uint16]
  have hmax : ¬((config.measurementMaxCount.toNat : Int) > APP_CONFIG_MEASUREMENT_MAX_COUNT_MAX.toNat) := by
    have hle := UInt16.le_iff_toNat_le.1 h.maxCount_le
    omega
  rw [if_neg hmax]
  rfl

/-! ## The lists -/

theorem loadMac_saved (c : AppConfig) (i : Nat) : loadMac (savedFile config) c i =
    match config.allowedMacs[i]? with
    | none => c
    | some mac => (appConfigSetAllowedMac c mac.bytes true).2 := by
  have hs : networkSection config ∈ configSections config := by simp [configSections]
  have hl := lookup_mac config i
  unfold loadMac
  cases hx : config.allowedMacs[i]? with
  | none =>
    rw [hx] at hl
    exact if_pos (read_absent h hs hl)
  | some mac =>
    rw [hx] at hl
    have hmac := h.macs mac (List.mem_of_getElem? hx)
    have hvalue : (appConfigTrim (iniGet (ascii "network") (ascii "mac" ++ decimal (i + 1)) []
        (APP_CONFIG_ALLOWED_MAC_LEN + 8) (savedFile config))).bytes = mac.bytes :=
      read_trimmed h hs hl hmac.plain (mac.fits.trans (by decide)) []
    have hne : mac.bytes ≠ [] := fun h0 => by
      have h12 := hmac.length
      rw [h0] at h12
      cases h12
    dsimp only
    rw [hvalue, if_neg hne, normalizeMac_canonical hmac]

theorem foldl_loadMac (c : AppConfig) (n : Nat) :
    (List.range n).foldl (loadMac (savedFile config)) { c with allowedMacs := [] } =
      { c with allowedMacs := config.allowedMacs.take n } := by
  refine foldl_range_take (fun macs => { c with allowedMacs := macs }) (fun i hi c => ?_) (fun i mac hi => ?_) n
  · rw [loadMac_saved h, hi]
  · have htake : config.allowedMacs.take (i + 1) = config.allowedMacs.take i ++ [mac] := by
      rw [List.take_add_one, hi]
      rfl
    have hnodup : (config.allowedMacs.take i ++ [mac]).Nodup :=
      htake ▸ h.macs_nodup.sublist (List.take_sublist _ _)
    have hnew : mac ∉ config.allowedMacs.take i := fun hm =>
      (List.nodup_append.1 hnodup).2.2 mac hm mac List.mem_cons_self rfl
    have hroom : (config.allowedMacs.take i).length < APP_CONFIG_ALLOWED_MAC_MAX_COUNT := by
      have hlt := (List.getElem?_eq_some_iff.1 hi).1
      have hmax := h.macs_length
      rw [List.length_take]
      omega
    rw [loadMac_saved h, hi, htake]
    exact congrArg Prod.snd (setAllowedMac_canonical (h.macs mac (List.mem_of_getElem? hi)) hnew hroom)

theorem loadName_saved (c : AppConfig) (i : Nat) : loadName (savedFile config) c i =
    match config.deviceNames[i]? with
    | none => c
    | some entry => (appConfigSetDeviceName c entry.deviceId entry.name.bytes).2 := by
  have hs : namesSection config ∈ configSections config := by simp [configSections]
  have hid := lookup_id config i
  have hname := lookup_name config i
  unfold loadName
  cases hx : config.deviceNames[i]? with
  | none =>
    rw [hx] at hid
    exact if_pos (read_absent h hs hid)
  | some entry =>
    rw [hx] at hid hname
    have hplain := (name_of_normalized (h.name entry (List.mem_of_getElem? hx))).2
    have hdec := decimal_uint32 entry.deviceId
    have hvalueId : (appConfigTrim
      (iniGet (ascii "names") (ascii "id" ++ decimal (i + 1)) [] 16 (savedFile config))).bytes =
        decimal entry.deviceId.toNat := read_trimmed h hs hid (plain_decimal _) (hdec.trans (by decide)) []
    have hvalueName :
      (appConfigTrim (iniGet (ascii "names") (ascii "name" ++ decimal (i + 1)) [] APP_CONFIG_DEVICE_NAME_LEN
        (savedFile config))).bytes = entry.name.bytes := read_trimmed h hs hname hplain entry.name.fits []
    dsimp only
    rw [hvalueId, hvalueName, if_neg (decimal_ne_nil _), strtoul0_decimal entry.deviceId.toNat_lt,
      UInt32.ofNat_toNat]

theorem foldl_loadName (c : AppConfig) (n : Nat) :
    (List.range n).foldl (loadName (savedFile config)) { c with deviceNames := [] } =
      { c with deviceNames := config.deviceNames.take n } := by
  refine foldl_range_take (fun names => { c with deviceNames := names }) (fun i hi c => ?_)
    (fun i entry hi => ?_) n
  · rw [loadName_saved h, hi]
  · have htake : config.deviceNames.take (i + 1) = config.deviceNames.take i ++ [entry] := by
      rw [List.take_add_one, hi]
      rfl
    have hmem := List.mem_of_getElem? hi
    have hnodup : ((config.deviceNames.take i).map AppConfigDeviceName.deviceId ++ [entry.deviceId]).Nodup := by
      have hsub :=
        h.ids_nodup.sublist ((List.take_sublist (i + 1) config.deviceNames).map AppConfigDeviceName.deviceId)
      rwa [htake, List.map_append] at hsub
    have hnew : entry.deviceId ∉ (config.deviceNames.take i).map AppConfigDeviceName.deviceId := fun hm =>
      (List.nodup_append.1 hnodup).2.2 _ hm _ List.mem_cons_self rfl
    have hroom : (config.deviceNames.take i).length < APP_CONFIG_DEVICE_NAME_MAX_COUNT := by
      have hlt := (List.getElem?_eq_some_iff.1 hi).1
      have hmax := h.names_length
      rw [List.length_take]
      omega
    rw [loadName_saved h, hi, htake]
    exact congrArg Prod.snd (setDeviceName_canonical (h.names_ne_nil entry hmem) (h.name entry hmem) hnew hroom)

/-- Reading the file back gives the configuration, with the credentials trimmed. -/
theorem read_saved : appConfigRead (savedFile config) = config.reread := by
  have hmacs : (List.range APP_CONFIG_ALLOWED_MAC_MAX_COUNT).foldl (loadMac (savedFile config))
      { loadFields (savedFile config) appConfigDefaults with allowedMacs := [] } =
        { config.reread with deviceNames := [] } := by
    rw [foldl_loadMac h (loadFields (savedFile config) appConfigDefaults), loadFields_saved h,
      List.take_of_length_le h.macs_length]
    rfl
  have hnames : (List.range APP_CONFIG_DEVICE_NAME_MAX_COUNT).foldl (loadName (savedFile config))
      { config.reread with deviceNames := [] } = config.reread := by
    rw [foldl_loadName h config.reread, List.take_of_length_le h.names_length]
    rfl
  unfold appConfigRead
  dsimp only
  rw [hmacs]
  dsimp only
  rw [hnames]
  exact congrArg AppConfig.reread h.normalized

end

theorem save_volume {fs : FatFs} {config : AppConfig} {volume : Option Bytes}
    (h : (appConfigSave fs config volume).1 = true) :
    (appConfigSave fs config volume).2 = savedFile config := by
  rw [savedFile, ← lines_flatten]
  exact save_content h

theorem load_saved {fs : FatFs} (hm : fs.mounts = true) (config config' : AppConfig) :
    appConfigLoad fs config' (savedFile config) = (true, appConfigRead (savedFile config), savedFile config) :=
  load_some hm config' _

theorem appConfigTrim_eq {cap : Nat} {text : CString cap} (h : Trimmed text.bytes) : appConfigTrim text = text :=
  CString.ext ((trim_bytes text).trans h.trim)

theorem Canonical.reread_eq {config : AppConfig} (h : Canonical config) : config.reread = config := by
  unfold AppConfig.reread AppMqttConfig.reread
  rw [appConfigTrim_eq h.mqttUsername.trimmed, appConfigTrim_eq h.mqttPassword.trimmed]

/-- **A configuration survives saving and loading.** If a save of a canonical
configuration returns true, a load of what it wrote returns that configuration. -/
theorem save_load {config : AppConfig} (h : Canonical config) (fs : FatFs) (volume : Option Bytes)
    (hsave : (appConfigSave fs config volume).1 = true) (fs' : FatFs) (config' : AppConfig)
    (hm : fs'.mounts = true) :
    let volume' := (appConfigSave fs config volume).2
    appConfigLoad fs' config' volume' = (true, config, volume') := by
  intro volume'
  have hv : volume' = savedFile config := save_volume hsave
  rw [hv, load_saved hm, read_saved h.storable, h.reread_eq]

/-- A configuration with one allowed MAC address and one device name. -/
def kitchen : AppConfig :=
  { appConfigDefaults with
    ssid := .copy _ (ascii "Home")
    allowedMacs := [.copy _ (ascii "A4C138000001")]
    deviceNames := [⟨7, .copy _ (ascii "Kitchen")⟩] }

theorem kitchen_canonical : Canonical kitchen where
  normalized := by decide +kernel
  ssid := plain_literal rfl
  hostname := plain_literal rfl
  password := plain_literal rfl
  mqttHost := plain_literal rfl
  mqttUsername := plain_literal rfl
  mqttPassword := plain_literal rfl
  macs := List.forall_mem_singleton.2 ⟨rfl, by decide +kernel⟩
  macs_nodup := List.nodup_singleton _
  names_ne_nil := List.forall_mem_singleton.2 (by decide +kernel)
  ids_nodup := List.nodup_singleton _

theorem kitchen_fits : (networkLines kitchen).length < SIZEOF_WRITE_LINE := by
  rw [networkLines_length]
  decide +kernel

theorem save_load_kitchen :
    (appConfigLoad .healthy appConfigDefaults (appConfigSave .healthy kitchen none).2).2.1 = kitchen := by
  have hsave : (appConfigSave .healthy kitchen none).1 = true :=
    (save_healthy_iff kitchen none).2 ((lines_fit kitchen (by decide) (by decide)).2 kitchen_fits)
  rw [save_load kitchen_canonical .healthy none hsave .healthy appConfigDefaults rfl]

end BLEBridge
