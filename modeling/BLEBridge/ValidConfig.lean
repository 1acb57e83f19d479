import BLEBridge.Canonical
import BLEBridge.ConfigFile
import BLEBridge.Lib.Ordered
/-!
# What every configuration in use satisfies

`ValidConfig` is what `app_config_normalize` establishes when the two lists are
good (`normalize_valid`). The functions that change the lists keep them good from
any text, so a load gives a valid configuration whatever the file holds
(`load_valid`).
-/
open Lib

namespace BLEBridge

/-- Allowed MAC addresses as they are kept. -/
structure ValidMacs (macs : List (CString APP_CONFIG_ALLOWED_MAC_LEN)) : Prop where
  count : macs.length ≤ APP_CONFIG_ALLOWED_MAC_MAX_COUNT
  canonical : ∀ mac ∈ macs, CanonicalMac mac.bytes
  nodup : macs.Nodup

/-- Device names as they are kept. -/
structure ValidNames (names : List AppConfigDeviceName) : Prop where
  count : names.length ≤ APP_CONFIG_DEVICE_NAME_MAX_COUNT
  ids_nodup : (names.map AppConfigDeviceName.deviceId).Nodup
  stored : ∀ entry ∈ names, StoredName entry.name.bytes

structure ValidConfig (config : AppConfig) : Prop where
  channel : 1 ≤ config.channel ∧ config.channel ≤ 13
  retention : APP_CONFIG_MEASUREMENT_RETENTION_MIN_SECONDS ≤ config.measurementRetentionSeconds ∧
    config.measurementRetentionSeconds ≤ APP_CONFIG_MEASUREMENT_RETENTION_MAX_SECONDS
  maxCount : config.measurementMaxCount ≤ APP_CONFIG_MEASUREMENT_MAX_COUNT_MAX
  poll : APP_CONFIG_ONEWIRE_POLL_INTERVAL_MIN_SECONDS ≤ config.onewirePollIntervalSeconds ∧
    config.onewirePollIntervalSeconds ≤ APP_CONFIG_ONEWIRE_POLL_INTERVAL_MAX_SECONDS
  port : 1 ≤ config.mqtt.port
  interval : APP_CONFIG_MQTT_INTERVAL_MIN_SECONDS ≤ config.mqtt.intervalSeconds ∧
    config.mqtt.intervalSeconds ≤ APP_CONFIG_MQTT_INTERVAL_MAX_SECONDS
  ssid : config.ssid.bytes ≠ [] ∧ Trimmed config.ssid.bytes
  hostname : config.hostname.bytes ≠ [] ∧ Trimmed config.hostname.bytes
  password : config.security = .securityOpen → config.password.bytes = []
  macs : ValidMacs config.allowedMacs
  names : ValidNames config.deviceNames

/-! ## Normalizing -/

theorem orDefault_valid {cap : Nat} (text : CString cap) {value : Bytes}
    (hne : (CString.copy cap value).bytes ≠ []) (ht : Trimmed (CString.copy cap value).bytes) :
    (orDefault (appConfigTrim text) value).bytes ≠ [] ∧ Trimmed (orDefault (appConfigTrim text) value).bytes := by
  unfold orDefault
  split
  · exact ⟨hne, ht⟩
  · rename_i h
    refine ⟨h, ?_⟩
    rw [trim_bytes]
    exact trimmed_trim _

/-- Normalizing leaves good names as they are. -/
theorem ValidNames.normalize {names : List AppConfigDeviceName} (h : ValidNames names) :
    (names.take APP_CONFIG_DEVICE_NAME_MAX_COUNT).map (fun entry => { entry with
      name := appConfigTrim (appConfigCopyDeviceName APP_CONFIG_DEVICE_NAME_LEN entry.name.bytes) }) =
        names := by
  rw [List.take_of_length_le h.count]
  refine (List.map_congr_left fun entry he => ?_).trans (List.map_id names)
  rw [(h.stored entry he).normalize]
  rfl

theorem normalize_valid {config : AppConfig} (hmacs : ValidMacs config.allowedMacs)
    (hnames : ValidNames config.deviceNames) : ValidConfig (appConfigNormalize config) where
  channel := by
    have hchannel : (appConfigNormalize config).channel = if config.channel < 1 ∨ config.channel > 13 then 3
        else config.channel := rfl
    rw [hchannel]
    split
    · exact ⟨by decide, by decide⟩
    · rename_i h
      rw [not_or] at h
      exact ⟨UInt32.not_lt.1 h.1, UInt32.not_lt.1 h.2⟩
  retention := clamp_mem (by decide) _
  maxCount := by
    have hcount : (appConfigNormalize config).measurementMaxCount =
      if config.measurementMaxCount > APP_CONFIG_MEASUREMENT_MAX_COUNT_MAX then
        APP_CONFIG_MEASUREMENT_MAX_COUNT_MAX
      else config.measurementMaxCount := rfl
    rw [hcount]
    split
    · exact UInt16.le_refl _
    · rename_i h
      exact UInt16.not_lt.1 h
  poll := clamp_mem (by decide) _
  port := by
    have hport : (appConfigNormalize config).mqtt.port = if config.mqtt.port = 0 then 1883
        else config.mqtt.port := rfl
    rw [hport]
    split
    · decide
    · rename_i h
      exact UInt16.le_iff_toNat_le.2 (Nat.one_le_iff_ne_zero.2 fun h0 => h (UInt16.toNat_inj.1 h0))
  interval := clamp_mem (by decide) _
  ssid := orDefault_valid config.ssid (by decide +kernel) (trimmed_of_trim (by decide +kernel))
  hostname := orDefault_valid config.hostname (by decide +kernel) (trimmed_of_trim (by decide +kernel))
  password hopen := by
    have hpassword : (appConfigNormalize config).password =
      if config.security = .securityOpen then .copy _ [] else appConfigTrim config.password := rfl
    rw [hpassword, if_pos (show config.security = .securityOpen from hopen)]
    rfl
  macs := by
    have htake : (appConfigNormalize config).allowedMacs = config.allowedMacs :=
      List.take_of_length_le hmacs.count
    rw [htake]
    exact hmacs
  names := by
    have hsame : (appConfigNormalize config).deviceNames = config.deviceNames := hnames.normalize
    rw [hsame]
    exact hnames

/-! ## The two lists -/

theorem toupper_xdigit {b : UInt8} (h : isxdigit b = true) :
    isxdigit (toupper b) = true ∧ toupper (toupper b) = toupper b := by
  revert b
  decide +kernel

theorem canonical_macDigits {s : Bytes} (h : MacText s) : CanonicalMac (macDigits s) where
  length := by rw [macDigits, List.length_map, h.digits]
  digits b hb := by
    obtain ⟨c, hc, rfl⟩ := List.mem_map.1 hb
    exact toupper_xdigit (List.mem_filter.1 hc).2

theorem normalizeMac_spec {input : Bytes} {mac : CString APP_CONFIG_ALLOWED_MAC_LEN}
    (h : appConfigNormalizeMac APP_CONFIG_ALLOWED_MAC_LEN input = some mac) : CanonicalMac mac.bytes := by
  rw [appConfigNormalizeMac, if_neg (lt_irrefl _)] at h
  obtain ⟨out, hout, rfl⟩ := Option.map_eq_some_iff.1 h
  obtain ⟨htext, rfl⟩ := normalizeMac_iff.1 hout
  have hmac := canonical_macDigits htext
  have h0 : (0 : UInt8) ∉ macDigits input := fun h0 => absurd (hmac.plain.printable 0 h0) (by decide)
  rw [copy_bytes h0 hmac.length.le]
  exact hmac

section
variable {config : AppConfig}

theorem setAllowedMac_none {mac : Bytes} (h : appConfigNormalizeMac APP_CONFIG_ALLOWED_MAC_LEN mac = none)
    (enabled : Bool) : appConfigSetAllowedMac config mac enabled = (false, config) := by
  unfold appConfigSetAllowedMac
  rw [h]

/-- Enabling puts a new address at the end, if there is room. -/
theorem setAllowedMac_enable {mac : Bytes} {canonical : CString APP_CONFIG_ALLOWED_MAC_LEN}
    (h : appConfigNormalizeMac APP_CONFIG_ALLOWED_MAC_LEN mac = some canonical) :
    appConfigSetAllowedMac config mac true =
      if canonical ∈ config.allowedMacs then (true, config)
      else if config.allowedMacs.length ≥ APP_CONFIG_ALLOWED_MAC_MAX_COUNT then (false, config)
      else (true, { config with allowedMacs := config.allowedMacs ++ [canonical] }) := by
  have hindex : config.allowedMacs.findIdx (· = canonical) < config.allowedMacs.length ↔
      canonical ∈ config.allowedMacs := by
    rw [← List.map_id config.allowedMacs, ← findIdx_lt_iff, List.map_id]
    rfl
  unfold appConfigSetAllowedMac
  rw [h]
  dsimp only
  rw [if_pos rfl]
  by_cases hm : canonical ∈ config.allowedMacs
  · rw [if_pos (hindex.2 hm), if_pos hm]
  · rw [if_neg fun hlt => hm (hindex.1 hlt), if_neg hm]

/-- Disabling removes the address, and keeps the order of the others. -/
theorem setAllowedMac_disable (hn : config.allowedMacs.Nodup) {mac : Bytes}
    {canonical : CString APP_CONFIG_ALLOWED_MAC_LEN}
    (h : appConfigNormalizeMac APP_CONFIG_ALLOWED_MAC_LEN mac = some canonical) :
    appConfigSetAllowedMac config mac false =
      (true, { config with allowedMacs := config.allowedMacs.filter (· ≠ canonical) }) := by
  have herase : config.allowedMacs.eraseIdx (config.allowedMacs.findIdx (· = canonical)) =
      config.allowedMacs.filter (· ≠ canonical) :=
    eraseIdx_findIdx (by rwa [List.map_id] : (config.allowedMacs.map id).Nodup)
  unfold appConfigSetAllowedMac
  rw [h]
  dsimp only
  rw [if_neg Bool.false_ne_true]
  split
  · rename_i hge
    rw [← herase, List.eraseIdx_of_length_le hge]
  · rw [herase]

/-- The name as it is stored. -/
def sanitizedName (name : Bytes) : CString APP_CONFIG_DEVICE_NAME_LEN :=
  appConfigTrim (appConfigCopyDeviceName APP_CONFIG_DEVICE_NAME_LEN name)

theorem setDeviceName_empty (hn : (config.deviceNames.map AppConfigDeviceName.deviceId).Nodup)
    (deviceId : UInt32) {name : Bytes} (h : (sanitizedName name).bytes = []) :
    appConfigSetDeviceName config deviceId name =
      (true, { config with deviceNames := config.deviceNames.filter (·.deviceId ≠ deviceId) }) := by
  have herase := eraseIdx_findIdx hn (k := deviceId)
  have hname : appConfigTrim (appConfigCopyDeviceName APP_CONFIG_DEVICE_NAME_LEN name) = sanitizedName name := rfl
  unfold appConfigSetDeviceName
  dsimp only
  rw [hname, if_pos h]
  split
  · rename_i hge
    rw [← herase, List.eraseIdx_of_length_le hge]
  · rw [herase]

theorem setDeviceName_name (hn : (config.deviceNames.map AppConfigDeviceName.deviceId).Nodup)
    (deviceId : UInt32) {name : Bytes} (h : (sanitizedName name).bytes ≠ []) :
    appConfigSetDeviceName config deviceId name =
      if deviceId ∈ config.deviceNames.map AppConfigDeviceName.deviceId then
        (true, { config with deviceNames :=
          config.deviceNames.map fun e => if e.deviceId = deviceId then ⟨deviceId, sanitizedName name⟩ else e })
      else if config.deviceNames.length ≥ APP_CONFIG_DEVICE_NAME_MAX_COUNT then (false, config)
      else (true, { config with deviceNames := config.deviceNames ++ [⟨deviceId, sanitizedName name⟩] }) := by
  have hindex : config.deviceNames.findIdx (·.deviceId = deviceId) < config.deviceNames.length ↔
      deviceId ∈ config.deviceNames.map AppConfigDeviceName.deviceId := findIdx_lt_iff
  -- the name is copied once more
  have hcopy : appConfigCopyDeviceName APP_CONFIG_DEVICE_NAME_LEN (sanitizedName name).bytes =
      sanitizedName name :=
    copyDeviceName_self (storedName_of_copy h).text
  have hname : appConfigTrim (appConfigCopyDeviceName APP_CONFIG_DEVICE_NAME_LEN name) = sanitizedName name := rfl
  unfold appConfigSetDeviceName
  dsimp only
  rw [hname, if_neg h, hcopy]
  by_cases hm : deviceId ∈ config.deviceNames.map AppConfigDeviceName.deviceId
  · rw [if_neg (not_le.2 (hindex.2 hm)), if_pos hm, set_findIdx hn]
  · rw [if_pos (not_lt.1 fun hlt => hm (hindex.1 hlt)), if_neg hm]

/-- From any text, the list stays good and nothing else changes. -/
theorem setAllowedMac_valid (h : ValidMacs config.allowedMacs) (mac : Bytes) (enabled : Bool) :
    ∃ macs, (appConfigSetAllowedMac config mac enabled).2 = { config with allowedMacs := macs } ∧
      ValidMacs macs := by
  cases hc : appConfigNormalizeMac APP_CONFIG_ALLOWED_MAC_LEN mac with
  | none =>
    rw [setAllowedMac_none hc]
    exact ⟨config.allowedMacs, rfl, h⟩
  | some canonical =>
    cases enabled with
    | false =>
      rw [setAllowedMac_disable h.nodup hc]
      have hsub : List.Sublist (config.allowedMacs.filter (· ≠ canonical)) config.allowedMacs :=
        List.filter_sublist
      exact ⟨_, rfl, hsub.length_le.trans h.count, fun m hm => h.canonical m (hsub.subset hm),
        h.nodup.sublist hsub⟩
    | true =>
      rw [setAllowedMac_enable hc]
      split
      · exact ⟨config.allowedMacs, rfl, h⟩
      rename_i hnew
      split
      · exact ⟨config.allowedMacs, rfl, h⟩
      · -- a new one, with room for it
        refine ⟨config.allowedMacs ++ [canonical], rfl, ?_, fun m hm => ?_, nodup_concat h.nodup hnew⟩
        · rw [List.length_append, List.length_singleton]
          omega
        · rcases List.mem_append.1 hm with hm | hm
          · exact h.canonical m hm
          · rw [List.mem_singleton.1 hm]
            exact normalizeMac_spec hc

theorem setDeviceName_valid (h : ValidNames config.deviceNames) (deviceId : UInt32) (name : Bytes) :
    ∃ names, (appConfigSetDeviceName config deviceId name).2 = { config with deviceNames := names } ∧
      ValidNames names := by
  by_cases hne : (sanitizedName name).bytes = []
  · rw [setDeviceName_empty h.ids_nodup deviceId hne]
    have hsub : List.Sublist (config.deviceNames.filter (·.deviceId ≠ deviceId)) config.deviceNames :=
      List.filter_sublist
    exact ⟨_, rfl, hsub.length_le.trans h.count, h.ids_nodup.sublist (hsub.map _),
      fun e he => h.stored e (hsub.subset he)⟩
  have hstored := storedName_of_copy hne
  rw [setDeviceName_name h.ids_nodup deviceId hne]
  split
  · -- the id keeps its place
    refine ⟨_, rfl, by rw [List.length_map]; exact h.count, ?_, fun e he => ?_⟩
    · have hkeys := map_overwrite AppConfigDeviceName.deviceId config.deviceNames
        (x := ⟨deviceId, sanitizedName name⟩) (k := deviceId) rfl
      rw [hkeys]
      exact h.ids_nodup
    · obtain ⟨e', he', rfl⟩ := List.mem_map.1 he
      split
      · exact hstored
      · exact h.stored e' he'
  rename_i hnew
  split
  · exact ⟨config.deviceNames, rfl, h⟩
  · refine ⟨_, rfl, ?_, ?_, fun e he => ?_⟩
    · rw [List.length_append, List.length_singleton]
      omega
    · rw [List.map_append]
      exact nodup_concat h.ids_nodup hnew
    · rcases List.mem_append.1 he with he | he
      · exact h.stored e he
      · rw [List.mem_singleton.1 he]
        exact hstored

end

/-! ## Loading -/

/-- Both lists are good. -/
def ValidLists (config : AppConfig) : Prop := ValidMacs config.allowedMacs ∧ ValidNames config.deviceNames

theorem validMacs_nil : ValidMacs [] := ⟨Nat.zero_le _, by simp, List.nodup_nil⟩

theorem validNames_nil : ValidNames [] := ⟨Nat.zero_le _, List.nodup_nil, by simp⟩

section
variable (file : Option Bytes)

theorem loadMac_valid {config : AppConfig} (h : ValidLists config) (i : Nat) :
    ValidLists (loadMac file config i) := by
  unfold loadMac
  dsimp only
  split
  · exact h
  split
  · rename_i canonical _
    obtain ⟨macs, heq, hmacs⟩ := setAllowedMac_valid h.1 canonical.bytes true
    rw [heq]
    exact ⟨hmacs, h.2⟩
  · exact h

theorem loadName_valid {config : AppConfig} (h : ValidLists config) (i : Nat) :
    ValidLists (loadName file config i) := by
  unfold loadName
  dsimp only
  split
  · exact h
  · obtain ⟨names, heq, hnames⟩ := setDeviceName_valid h.2 _ _
    rw [heq]
    exact ⟨h.1, hnames⟩

theorem foldl_valid {load : AppConfig → Nat → AppConfig}
    (hload : ∀ config i, ValidLists config → ValidLists (load config i)) {config : AppConfig}
    (h : ValidLists config) (l : List Nat) : ValidLists (l.foldl load config) :=
  List.foldlRecOn l load h fun config h i _ => hload config i h

/-- Whatever the file holds. -/
theorem read_valid : ValidConfig (appConfigRead file) := by
  have hmacs := foldl_valid (fun _ i h => loadMac_valid file h i)
    (show ValidLists { loadFields file appConfigDefaults with allowedMacs :=
      [] } from ⟨validMacs_nil, validNames_nil⟩)
    (List.range APP_CONFIG_ALLOWED_MAC_MAX_COUNT)
  obtain ⟨h1, h2⟩ := foldl_valid (fun _ i h => loadName_valid file h i)
    (show ValidLists { (List.range APP_CONFIG_ALLOWED_MAC_MAX_COUNT).foldl (loadMac file)
      { loadFields file appConfigDefaults with allowedMacs := [] } with deviceNames :=
        [] } from ⟨hmacs.1, validNames_nil⟩)
    (List.range APP_CONFIG_DEVICE_NAME_MAX_COUNT)
  exact normalize_valid h1 h2

end

/-- A load that returns true has read a file. -/
theorem load_read {fs : FatFs} {config : AppConfig} {volume : Option Bytes}
    (h : (appConfigLoad fs config volume).1 = true) :
    ∃ file, appConfigLoad fs config volume = (true, appConfigRead file, file) := by
  unfold appConfigLoad at h ⊢
  split at h
  · cases h
  rename_i hm
  rw [if_neg hm]
  dsimp only at h ⊢
  split at h
  · rename_i hfile
    rw [if_pos hfile]
    exact ⟨_, rfl⟩
  · cases h

end BLEBridge
