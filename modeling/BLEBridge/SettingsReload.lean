import BLEBridge.ConfigRoundTrip
import BLEBridge.RuntimeConfig
/-!
# Saved settings after the next start

A text with a line break is saved as two lines, and the user name and the password
of the broker are read back without the white space around them. Nothing else is
lost: what a settings request puts in use is what the next start loads exactly if
the texts asked for have neither (`settings_reload_iff`).
-/
open Lib

namespace BLEBridge

/-! ## Which configurations are read back -/

/-- The texts of the broker have no line breaks, which the web form checks. -/
def MqttOneLine (mqtt : AppMqttConfig) : Prop :=
  OneLine mqtt.host.bytes ∧ OneLine mqtt.username.bytes ∧ OneLine mqtt.password.bytes

theorem trim_oneLine {cap : Nat} {text : CString cap} (h : OneLine text.bytes) :
    OneLine (appConfigTrim text).bytes := by
  rw [trim_bytes]
  exact h.of_subset (trim_sublist _).subset

theorem oneLine_nil : OneLine [] := ⟨by simp, by simp⟩

theorem orDefault_oneLine_iff {cap : Nat} (text : CString cap) {value : Bytes} (hv : OneLine value) :
    OneLine (orDefault text value).bytes ↔ OneLine text.bytes := by
  unfold orDefault
  split
  · rename_i h
    rw [h]
    exact ⟨fun _ => oneLine_nil, fun _ => hv.of_subset (copy_sublist cap value).subset⟩
  · rfl

theorem oneLine_ssid : OneLine (ascii "BLEBridge") := oneLine_of_printable (by decide +kernel)

theorem oneLine_hostname : OneLine (ascii "blebridge") := oneLine_of_printable (by decide +kernel)

/-- Nothing that is read has a line break. -/
theorem read_oneLine (file : Option Bytes) :
    OneLine (appConfigRead file).ssid.bytes ∧ OneLine (appConfigRead file).hostname.bytes ∧
    OneLine (appConfigRead file).password.bytes ∧ MqttOneLine (appConfigRead file).mqtt := by
  obtain ⟨macs, names, h⟩ := read_fields file
  rw [h]
  refine ⟨?_, ?_, ?_, ?_, ?_, ?_⟩
  · exact (orDefault_oneLine_iff _ oneLine_ssid).2
      (trim_oneLine (iniGet_oneLine _ _ (oneLine_ssid.of_subset (copy_sublist _ _).subset) _ _))
  · exact (orDefault_oneLine_iff _ oneLine_hostname).2
      (trim_oneLine (iniGet_oneLine _ _ (oneLine_hostname.of_subset (copy_sublist _ _).subset) _ _))
  · unfold appConfigNormalize
    dsimp only
    split
    · exact oneLine_nil
    · exact trim_oneLine (iniGet_oneLine _ _ oneLine_nil _ _)
  · exact trim_oneLine (iniGet_oneLine _ _ oneLine_nil _ _)
  · exact iniGet_oneLine _ _ oneLine_nil _ _
  · exact iniGet_oneLine _ _ oneLine_nil _ _

theorem clamp_self {lo hi x : UInt32} (h : lo ≤ x ∧ x ≤ hi) :
    (if (if x < lo then lo else x) > hi then hi else if x < lo then lo else x) = x := by
  rw [if_neg (UInt32.not_lt.2 h.1), if_neg (UInt32.not_lt.2 h.2)]

theorem orDefault_self {cap : Nat} {text : CString cap} (h : text.bytes ≠ [] ∧ Trimmed text.bytes)
    (value : Bytes) : orDefault (appConfigTrim text) value = text := by
  rw [appConfigTrim_eq h.2, orDefault, if_neg h.1]

/-- Normalizing leaves a valid configuration as it is, but for the white space that
a valid one may still have. -/
theorem ValidConfig.normalize_eq {config : AppConfig} (h : ValidConfig config)
    (hhost : Trimmed config.mqtt.host.bytes) (hpassword : Trimmed config.password.bytes) :
    appConfigNormalize config = config := by
  have hmqtt : config.mqtt.normalize = config.mqtt := by
    have hport : config.mqtt.port ≠ 0 := fun h0 => absurd (h0 ▸ h.port) (by decide)
    unfold AppMqttConfig.normalize
    rw [appConfigTrim_eq hhost, if_neg hport, clamp_self h.interval]
  have hchannel : ¬(config.channel < 1 ∨ config.channel > 13) :=
    not_or.2 ⟨UInt32.not_lt.2 h.channel.1, UInt32.not_lt.2 h.channel.2⟩
  have hpass : (if config.security = .securityOpen then .copy _ [] else appConfigTrim config.password) =
      config.password := by
    split
    · rename_i hopen
      exact CString.ext (h.password hopen).symm
    · exact appConfigTrim_eq hpassword
  unfold appConfigNormalize
  rw [hmqtt, orDefault_self h.ssid, orDefault_self h.hostname, if_neg hchannel, hpass, clamp_self h.retention,
    if_neg (UInt16.not_lt.2 h.maxCount), clamp_self h.poll, List.take_of_length_le h.macs.count,
      h.names.normalize]

theorem trim_trimmed {cap : Nat} (text : CString cap) : Trimmed (appConfigTrim text).bytes := by
  rw [trim_bytes]
  exact trimmed_trim _

theorem normalize_idem {config : AppConfig} (hmacs : ValidMacs config.allowedMacs)
    (hnames : ValidNames config.deviceNames) :
    appConfigNormalize (appConfigNormalize config) = appConfigNormalize config := by
  refine (normalize_valid hmacs hnames).normalize_eq (trim_trimmed _) ?_
  unfold appConfigNormalize
  dsimp only
  split
  · exact ⟨rfl, rfl⟩
  · exact trim_trimmed _

/-- The body of the loop over the names. -/
def normalizeEntry (entry : AppConfigDeviceName) : AppConfigDeviceName :=
  { entry with name := appConfigTrim (appConfigCopyDeviceName APP_CONFIG_DEVICE_NAME_LEN entry.name.bytes) }

/-- What trimming leaves of whole characters are whole characters, so the second
pass finds nothing to leave out and nothing to trim. -/
theorem normalizeEntry_idem (entry : AppConfigDeviceName) :
    normalizeEntry (normalizeEntry entry) = normalizeEntry entry := by
  have htext : NameText (normalizeEntry entry).name.bytes := by
    unfold normalizeEntry
    rw [trim_bytes]
    exact (copyDeviceName_text _ _).1.trimLeft.trimRight
  have hname : appConfigTrim
    (appConfigCopyDeviceName APP_CONFIG_DEVICE_NAME_LEN (normalizeEntry entry).name.bytes) =
      (normalizeEntry entry).name := by
    rw [copyDeviceName_self htext]
    exact appConfigTrim_eq (trim_trimmed _)
  rw [normalizeEntry, hname]

theorem normalize_lists (config : AppConfig) (macs : List (CString APP_CONFIG_ALLOWED_MAC_LEN))
    (names : List AppConfigDeviceName) :
    appConfigNormalize { config with allowedMacs := macs, deviceNames := names } =
      { appConfigNormalize config with
        allowedMacs := macs.take APP_CONFIG_ALLOWED_MAC_MAX_COUNT
        deviceNames := (names.take APP_CONFIG_DEVICE_NAME_MAX_COUNT).map normalizeEntry } := rfl

/-- Normalizing once is enough, whatever the lists hold. -/
theorem normalize_normalize (config : AppConfig) :
    appConfigNormalize (appConfigNormalize config) = appConfigNormalize config := by
  -- Without its lists the configuration has valid ones.
  let bare := { config with allowedMacs := [], deviceNames := [] }
  let macs := config.allowedMacs.take APP_CONFIG_ALLOWED_MAC_MAX_COUNT
  let names := (config.deviceNames.take APP_CONFIG_DEVICE_NAME_MAX_COUNT).map normalizeEntry
  have hmacs : macs.take APP_CONFIG_ALLOWED_MAC_MAX_COUNT = macs :=
    List.take_of_length_le (List.length_take_le _ _)
  have hnames : (names.take APP_CONFIG_DEVICE_NAME_MAX_COUNT).map normalizeEntry = names := by
    rw [List.take_of_length_le (by rw [List.length_map]; exact List.length_take_le _ _), List.map_map]
    apply List.map_congr_left
    intro entry _
    exact normalizeEntry_idem entry
  have hbare : appConfigNormalize (appConfigNormalize bare) = appConfigNormalize bare :=
    normalize_idem validMacs_nil validNames_nil
  calc appConfigNormalize (appConfigNormalize config)
      = appConfigNormalize { appConfigNormalize bare with allowedMacs := macs, deviceNames := names } := rfl
    _ = { appConfigNormalize bare with allowedMacs := macs, deviceNames := names } := by
      rw [normalize_lists, hmacs, hnames, hbare]
    _ = appConfigNormalize config := rfl

theorem trimmed_of_trim_eq {cap : Nat} {text : CString cap} (h : appConfigTrim text = text) :
    Trimmed text.bytes :=
  trimmed_of_trim ((trim_bytes text).symm.trans (congrArg CString.bytes h))

/-- What is read back of a configuration whose texts have no line breaks. -/
theorem read_saved_lines {config : AppConfig} (hn : appConfigNormalize config = config) (hv : ValidConfig config)
    (hm : MqttOneLine config.mqtt)
    (hlines : OneLine config.ssid.bytes ∧ OneLine config.hostname.bytes ∧ OneLine config.password.bytes) :
    appConfigRead (savedFile config) = config.reread := by
  obtain ⟨hssid, hhostname, hpassword⟩ := hlines
  exact read_saved ⟨hn, hssid, hhostname, hpassword, hm.1, hm.2.1, hm.2.2, hv.macs.canonical, hv.macs.nodup,
    fun entry he => List.ne_nil_of_length_pos (hv.names.stored entry he).length.1, hv.names.ids_nodup⟩

/-- **Which configurations are read back** as they were saved. -/
theorem read_saved_iff {config : AppConfig} (hn : appConfigNormalize config = config) (hv : ValidConfig config)
    (hm : MqttOneLine config.mqtt) : appConfigRead (savedFile config) = config ↔
      (OneLine config.ssid.bytes ∧ OneLine config.hostname.bytes ∧ OneLine config.password.bytes) ∧
        Trimmed config.mqtt.username.bytes ∧ Trimmed config.mqtt.password.bytes := by
  constructor
  · intro h
    obtain ⟨hssid, hhostname, hpassword, -⟩ := read_oneLine (savedFile config)
    rw [h] at hssid hhostname hpassword
    have hlines := And.intro hssid (And.intro hhostname hpassword)
    rw [read_saved_lines hn hv hm hlines] at h
    exact ⟨hlines, trimmed_of_trim_eq (congrArg (fun c => c.mqtt.username) h),
      trimmed_of_trim_eq (congrArg (fun c => c.mqtt.password) h)⟩
  · rintro ⟨hlines, huser, hpass⟩
    rw [read_saved_lines hn hv hm hlines]
    unfold AppConfig.reread AppMqttConfig.reread
    rw [appConfigTrim_eq huser, appConfigTrim_eq hpass]

/-! ## A configuration that nobody touches -/

theorem ValidConfig.reread {config : AppConfig} (h : ValidConfig config) : ValidConfig config.reread :=
  ⟨h.channel, h.retention, h.maxCount, h.poll, h.port, h.interval, h.ssid, h.hostname, h.password, h.macs,
    h.names⟩

theorem reread_reread (config : AppConfig) : config.reread.reread = config.reread := by
  have huser := appConfigTrim_eq (trim_trimmed config.mqtt.username)
  have hpassword := appConfigTrim_eq (trim_trimmed config.mqtt.password)
  unfold AppConfig.reread AppMqttConfig.reread
  dsimp only
  rw [huser, hpassword]

/-- What was read back once is read back unchanged. -/
theorem read_reread {config : AppConfig} (hn : appConfigNormalize config = config) (hv : ValidConfig config)
    (hm : MqttOneLine config.mqtt)
    (hlines : OneLine config.ssid.bytes ∧ OneLine config.hostname.bytes ∧ OneLine config.password.bytes) :
    appConfigRead (savedFile config.reread) = config.reread := by
  have hn' : appConfigNormalize config.reread = config.reread := by
    have hreread : appConfigNormalize config.reread = (appConfigNormalize config).reread := rfl
    rw [hreread, hn]
  have hm' : MqttOneLine config.reread.mqtt := ⟨hm.1, trim_oneLine hm.2.1, trim_oneLine hm.2.2⟩
  rw [read_saved_lines hn' hv.reread hm' hlines, reread_reread]

theorem read_normalized (file : Option Bytes) : appConfigNormalize (appConfigRead file) = appConfigRead file := by
  obtain ⟨macs, names, h⟩ := read_fields file
  rw [h, normalize_normalize]

/-- **Normalizing is idempotent**, on any configuration. So what is loaded from any
file is left as it is when it is normalized again; and once saved and loaded it
stays the same, after the first time except for white space at the ends of the
broker's user name and password, which normalizing does not touch. -/
theorem normalization_settles :
    (∀ config, appConfigNormalize (appConfigNormalize config) = appConfigNormalize config) ∧
      ∀ file, appConfigNormalize (appConfigRead file) = appConfigRead file ∧
        appConfigRead (savedFile (appConfigRead file)) = (appConfigRead file).reread ∧
        appConfigRead (savedFile (appConfigRead file).reread) = (appConfigRead file).reread := by
  refine ⟨normalize_normalize, ?_⟩
  intro file
  have hn := read_normalized file
  have hv := read_valid file
  obtain ⟨hssid, hhostname, hpassword, hm⟩ := read_oneLine file
  have hlines := And.intro hssid (And.intro hhostname hpassword)
  exact ⟨hn, read_saved_lines hn hv hm hlines, read_reread hn hv hm hlines⟩

/-! ## What a settings request asks for -/

/-- The text of a field that a request asks for: what it gives, decoded, or what is
in use. -/
def requestedText (cap : Nat) (params : List CgiParam) (name current : Bytes) : Bytes :=
  match appWebFindParamValue params name with
  | none => current
  | some value => (readText cap value).bytes

def requestedSecurity (params : List CgiParam) (current : AppWifiSecurity) : AppWifiSecurity :=
  match appWebFindParamValue params (ascii "security") with
  | none => current
  | some value => if (readText SIZEOF_VALUE value).bytes = ascii "wpa2" then .securityWpa2 else .securityOpen

/-- The texts asked for can be told apart in the file: without the white space
around them they have no line breaks, and the user name and the password of the
broker have no white space around them. -/
structure KeptBySaving (params : List CgiParam) (config : AppConfig) : Prop where
  ssid : OneLine
    (trimRight (trimLeft (requestedText APP_CONFIG_SSID_MAX_LEN params (ascii "ssid") config.ssid.bytes)))
  hostname : OneLine (trimRight
    (trimLeft (requestedText APP_CONFIG_HOSTNAME_MAX_LEN params (ascii "hostname") config.hostname.bytes)))
  password : requestedSecurity params config.security = .securityWpa2 →
    OneLine (trimRight
      (trimLeft (requestedText APP_CONFIG_PASSWORD_MAX_LEN params (ascii "password") config.password.bytes)))
  username : Trimmed (requestedText SIZEOF_DECODED params (ascii "mqtt_username") config.mqtt.username.bytes)
  mqttPassword : Trimmed (requestedText SIZEOF_DECODED params (ascii "mqtt_password") config.mqtt.password.bytes)

theorem textParam_bytes (params : List CgiParam) (name : Bytes) {cap : Nat} (current : CString cap) :
    (textParam params name current).bytes = requestedText cap params name current.bytes := by
  unfold textParam requestedText
  cases appWebFindParamValue params name <;> rfl

theorem readMqttString_spec {params : List CgiParam} {name : Bytes} {cap : Nat} {current text : CString cap}
    (h : appWebReadMqttString (appWebFindParamValue params name) current = some text) :
    text.bytes = requestedText SIZEOF_DECODED params name current.bytes ∧
      (OneLine current.bytes → OneLine text.bytes) := by
  unfold appWebReadMqttString at h
  unfold requestedText
  generalize appWebFindParamValue params name = found at h ⊢
  cases found with
  | none =>
    cases h
    exact ⟨rfl, id⟩
  | some value =>
    dsimp only at h ⊢
    split at h
    · cases h
    split at h
    · cases h
    rename_i hfits
    split at h
    · cases h
    rename_i hcontrol
    cases h
    have hbytes : (CString.copy cap (readText SIZEOF_DECODED value).bytes).bytes =
        (readText SIZEOF_DECODED value).bytes :=
      copy_bytes (CString.noNul _) (by omega)
    rw [hbytes]
    refine ⟨rfl, fun _ => oneLine_of_printable fun b hb => ?_⟩
    simp only [List.any_eq_true, not_exists, not_and, Bool.or_eq_true, decide_eq_true_eq, not_or] at hcontrol
    exact UInt8.not_lt.1 (hcontrol b hb).1

theorem readMqttConfig_spec {params : List CgiParam} {current mqtt : AppMqttConfig}
    (h : appWebReadMqttConfig params current = .ok mqtt) :
    mqtt.username.bytes = requestedText SIZEOF_DECODED params (ascii "mqtt_username") current.username.bytes ∧
      mqtt.password.bytes = requestedText SIZEOF_DECODED params (ascii "mqtt_password") current.password.bytes ∧
      (MqttOneLine current → MqttOneLine mqtt) := by
  unfold appWebReadMqttConfig at h
  dsimp only at h
  split at h
  · rename_i host username password hhost husername hpassword
    split at h
    · cases h
      have hh := readMqttString_spec hhost
      have hu := readMqttString_spec husername
      have hp := readMqttString_spec hpassword
      exact ⟨hu.1, hp.1, fun ⟨h1, h2, h3⟩ => ⟨hh.2 h1, hu.2 h2, hp.2 h3⟩⟩
    · cases h
  · cases h

/-! ## What is in use -/

/-- What holds of every configuration in use, for saving it. -/
def Savable (config : AppConfig) : Prop := ValidConfig config ∧ MqttOneLine config.mqtt

theorem settingsNext_savable {params : List CgiParam} {config next : AppConfig} (h : Savable config)
    (hnext : SettingsNext params config next) : Savable next := by
  refine ⟨h.1.settingsNext hnext, ?_⟩
  obtain ⟨mqtt, hmqtt, rfl⟩ := hnext
  obtain ⟨hhost, huser, hpass⟩ := (readMqttConfig_spec hmqtt).2.2 h.2
  exact ⟨trim_oneLine hhost, huser, hpass⟩

theorem serveCgi_savable {s : WebConfig} (h : Savable s.runtime) (request : CgiRequest) :
    CgiAnswer Savable s (serveCgi s request) := by
  cases request with
  | apply fs nowMs params =>
    exact (settings_answered fs nowMs params s).mono fun _ hnext => settingsNext_savable h hnext
  | select fs params =>
    refine (select_answered fs params s).mono ?_
    rintro _ ⟨mac, enabled, rfl⟩
    obtain ⟨macs, heq, -⟩ := setAllowedMac_valid h.1.macs mac enabled
    exact ⟨h.1.setAllowedMac mac enabled, heq ▸ h.2⟩
  | name fs params =>
    refine (name_answered fs params s).mono ?_
    rintro _ ⟨deviceId, name, rfl⟩
    obtain ⟨names, heq, -⟩ := setDeviceName_valid h.1.names deviceId name
    exact ⟨h.1.setDeviceName deviceId name, heq ▸ h.2⟩

theorem startMain_savable {fs : FatFs} {config : AppConfig} {volume : Option Bytes} {s : WebConfig}
    (h : startMain fs config volume = some s) : Savable s.runtime := by
  obtain ⟨file, rfl⟩ := startMain_read h
  exact ⟨read_valid file, (read_oneLine file).2.2.2⟩

theorem afterCgi_savable {fs : FatFs} {config : AppConfig} {volume : Option Bytes}
    {s : WebConfig} (hstart : startMain fs config volume = some s) (requests : List CgiRequest) :
    Savable (afterCgi s requests).runtime :=
  (everyStep_true _ s requests).inv (I := fun s => Savable s.runtime) (startMain_savable hstart)
    fun _ request h _ => (serveCgi_savable h request).keeps h fun _ hnext => hnext

/-- The texts that a settings request puts in use. -/
theorem settingsNext_kept {params : List CgiParam} {config next : AppConfig}
    (hnext : SettingsNext params config next) :
    ((OneLine next.ssid.bytes ∧ OneLine next.hostname.bytes ∧ OneLine next.password.bytes) ∧
      Trimmed next.mqtt.username.bytes ∧ Trimmed next.mqtt.password.bytes) ↔ KeptBySaving params config := by
  obtain ⟨mqtt, hmqtt, rfl⟩ := hnext
  obtain ⟨huser, hpass, -⟩ := readMqttConfig_spec hmqtt
  have hssid := orDefault_oneLine_iff (appConfigTrim (textParam params (ascii "ssid") config.ssid)) oneLine_ssid
  have hhostname := orDefault_oneLine_iff
    (appConfigTrim (textParam params (ascii "hostname") config.hostname)) oneLine_hostname
  rw [trim_bytes, textParam_bytes] at hssid hhostname
  have hsecurity : (settingsFields params config).security = requestedSecurity params config.security := rfl
  have hpassword : OneLine (if (settingsFields params config).security = .securityOpen then
    .copy APP_CONFIG_PASSWORD_MAX_LEN []
      else appConfigTrim (textParam params (ascii "password") config.password)).bytes ↔
        (requestedSecurity params config.security = .securityWpa2 →
          OneLine (trimRight (trimLeft (requestedText APP_CONFIG_PASSWORD_MAX_LEN params (ascii "password")
            config.password.bytes)))) := by
    rw [hsecurity, ← textParam_bytes, ← trim_bytes]
    cases requestedSecurity params config.security with
    | securityOpen => exact ⟨fun _ h => (by cases h), fun _ => oneLine_nil⟩
    | securityWpa2 => exact ⟨fun h _ => h, fun h => h rfl⟩
  constructor
  · rintro ⟨⟨h1, h2, h3⟩, h4, h5⟩
    exact ⟨hssid.1 h1, hhostname.1 h2, hpassword.1 h3, huser ▸ h4, hpass ▸ h5⟩
  · rintro ⟨h1, h2, h3, h4, h5⟩
    exact ⟨⟨hssid.2 h1, hhostname.2 h2, hpassword.2 h3⟩, huser.symm ▸ h4, hpass.symm ▸ h5⟩

/-- **When what runs is what is stored.** In any state reached, a settings request
that is answered as saved puts in use what the next start loads from the written
file exactly if the texts it asks for are kept by saving. -/
theorem settings_reload_iff {fs₀ : FatFs} {config₀ : AppConfig} {volume₀ : Option Bytes} {s₀ : WebConfig}
    (hstart : startMain fs₀ config₀ volume₀ = some s₀)
    (requests : List CgiRequest) (fs : FatFs) (nowMs : UInt32) (params : List CgiParam)
    (hsaved : (serveCgi (afterCgi s₀ requests) (.apply fs nowMs params)).1.success = true) (fs' : FatFs)
    (config' : AppConfig) (hm : fs'.mounts = true) :
    let s := afterCgi s₀ requests
    let s' := (serveCgi s (.apply fs nowMs params)).2
    appConfigLoad fs' config' s'.volume = (true, s'.runtime, s'.volume) ↔ KeptBySaving params s.runtime := by
  intro s s'
  have hsavable : Savable s.runtime := afterCgi_savable hstart requests
  obtain ⟨_, next, hnext, hsave, hruntime, hvolume⟩ := (settings_answered fs nowMs params s).of_success hsaved
  have hnorm : appConfigNormalize next = next := by
    obtain ⟨mqtt, -, rfl⟩ := hnext
    exact normalize_normalize _
  have hruntime' : s'.runtime = next := hruntime
  have hvolume' : s'.volume = savedFile next := hvolume.trans (save_volume hsave)
  obtain ⟨hvalid, hmqtt⟩ := settingsNext_savable hsavable hnext
  rw [hruntime', hvolume', load_saved hm, ← settingsNext_kept hnext, ← read_saved_iff hnorm hvalid hmqtt]
  constructor
  · intro h
    exact congrArg (fun r => r.2.1) h
  · intro h
    rw [h]

/-! The first start writes the default file, and loads it. -/

theorem defaults_canonical : Canonical appConfigDefaults where
  normalized := by decide +kernel
  ssid := plain_literal rfl
  hostname := plain_literal rfl
  password := plain_literal rfl
  mqttHost := plain_literal rfl
  mqttUsername := plain_literal rfl
  mqttPassword := plain_literal rfl
  macs := by simp [appConfigDefaults]
  macs_nodup := List.nodup_nil
  names_ne_nil := by simp [appConfigDefaults]
  ids_nodup := List.nodup_nil

/-- The state after the first start. -/
def firstStart : WebConfig := ⟨appConfigDefaults, savedFile appConfigDefaults, none, false, 0⟩

theorem load_firstStart : appConfigLoad .healthy appConfigDefaults none =
    (true, appConfigDefaults, savedFile appConfigDefaults) := by
  have hmounts : FatFs.healthy.mounts ≠ false := by decide
  have hfile : appConfigEnsureFile .healthy none = (true, savedFile appConfigDefaults) := by
    unfold appConfigEnsureFile
    rw [if_neg (show ¬(none : Option Bytes).isSome = true by decide)]
    exact Prod.ext defaults_saved (save_volume defaults_saved)
  unfold appConfigLoad
  rw [if_neg hmounts, hfile]
  dsimp only
  rw [if_pos rfl, read_saved defaults_canonical.storable, defaults_canonical.reread_eq]

theorem startMain_firstStart : startMain .healthy appConfigDefaults none = some firstStart := by
  unfold startMain
  rw [load_firstStart]
  rfl

/-- A settings request without the broker and without a reboot, where nothing is
refused and the next configuration can be written. -/
theorem settings_saves {fs : FatFs} {nowMs : UInt32}
    {params : List CgiParam} {s : WebConfig} {mqtt : AppMqttConfig} {config next : AppConfig}
    (hruntime : s.runtime = config) (hmqtt : appWebReadMqttConfig params config.mqtt = .ok mqtt)
    (hnext : appConfigNormalize { settingsFields params config with mqtt := mqtt } = next)
    (henabled : next.mqtt.enabled = false)
    (hpassword : ¬(next.security = .securityWpa2 ∧ next.password.bytes.length < 8))
    (hreboot : appWebFindParamValue params (ascii "reboot") ≠ some (ascii "1"))
    (hsave : (appConfigSave fs next s.volume).1 = true) :
    appWebCgiSettingsHandler fs nowMs params s =
      { s with runtime := next, volume := savedFile next }.answer .saved := by
  have hmqtt' : appWebReadMqttConfig params (settingsFields params config).mqtt = .ok mqtt := hmqtt
  subst hruntime
  unfold appWebCgiSettingsHandler
  dsimp only
  rw [hmqtt']
  dsimp only at hnext ⊢
  rw [hnext, henabled, if_neg (by simp), if_neg (by simp), if_neg hpassword, if_neg hreboot]
  unfold saveAndApply
  dsimp only
  rw [hsave, save_volume hsave]
  rfl

/-- On the first start there is room for another network with a short password. -/
theorem firstStart_saves {params : List CgiParam} {ssid : CString APP_CONFIG_SSID_MAX_LEN}
    {security : AppWifiSecurity}
    {password : CString APP_CONFIG_PASSWORD_MAX_LEN}
    (hmqtt : appWebReadMqttConfig params appConfigDefaults.mqtt = .ok appConfigDefaults.mqtt)
    (hnext : appConfigNormalize { settingsFields params appConfigDefaults with mqtt := appConfigDefaults.mqtt } =
      { appConfigDefaults with
        ssid := ssid
        security := security
        password := password
        onewireGpio2Enabled := false
        onewireGpio3Enabled := false })
    (hlong : ¬(security = .securityWpa2 ∧ password.bytes.length < 8)) (hshort : password.bytes.length ≤ 8)
    (hreboot : appWebFindParamValue params (ascii "reboot") ≠ some (ascii "1")) : let next : AppConfig :=
      { appConfigDefaults with
        ssid := ssid
        security := security
        password := password
        onewireGpio2Enabled := false
        onewireGpio3Enabled := false }
    appWebCgiSettingsHandler .healthy 0 params firstStart =
      { firstStart with runtime := next, volume := savedFile next }.answer .saved := by
  intro next
  have hssid : next.ssid.bytes.length ≤ 32 := CString.fits _
  have hmode : (appConfigModeName next.mode).length = 2 := rfl
  have hhostname : next.hostname.bytes.length = 9 := by
    show (CString.copy APP_CONFIG_HOSTNAME_MAX_LEN (ascii "blebridge")).bytes.length = 9
    decide +kernel
  have hchannel : (decimal next.channel.toNat).length = 1 := by
    show (decimal (3 : UInt32).toNat).length = 1
    decide +kernel
  have hpassword : next.password.bytes.length ≤ 8 := hshort
  have hsave : (appConfigSave .healthy next firstStart.volume).1 = true :=
    (save_healthy_fits next (Nat.zero_le _) (Nat.zero_le _) firstStart.volume).2
      (by unfold networkValuesLength; omega)
  have hruntime : firstStart.runtime = appConfigDefaults := rfl
  have henabled : next.mqtt.enabled = false := rfl
  exact settings_saves hruntime hmqtt hnext henabled hlong hreboot hsave

/-- What a request for this network name asks for on the first start. -/
def namedConfig (ssid : Bytes) : AppConfig :=
  { appConfigDefaults with ssid := .copy _ ssid, onewireGpio2Enabled := false, onewireGpio3Enabled := false }

theorem namedConfig_saves {params : List CgiParam} {ssid : Bytes}
    (hmqtt : appWebReadMqttConfig params appConfigDefaults.mqtt = .ok appConfigDefaults.mqtt)
    (hnext : appConfigNormalize
      { settingsFields params appConfigDefaults with mqtt := appConfigDefaults.mqtt } = namedConfig ssid)
    (hreboot : appWebFindParamValue params (ascii "reboot") ≠ some (ascii "1")) :
    serveCgi firstStart (.apply .healthy 0 params) =
      { firstStart with runtime := namedConfig ssid, volume := savedFile (namedConfig ssid) }.answer .saved := by
  have hpassword : (namedConfig ssid).password.bytes.length = 0 := rfl
  have hsecurity : ¬((namedConfig ssid).security = .securityWpa2 ∧
      (namedConfig ssid).password.bytes.length < 8) :=
    fun h => by cases h.1
  exact firstStart_saves hmqtt hnext hsecurity (hpassword.le.trans (Nat.zero_le 8)) hreboot

/-- A plain network name. -/
def plainName : List CgiParam := [(ascii "ssid", some (ascii "Home+Net"))]

theorem plainName_saves : serveCgi firstStart (.apply .healthy 0 plainName) =
    { firstStart with
      runtime := namedConfig (ascii "Home Net")
      volume := savedFile (namedConfig (ascii "Home Net")) }.answer .saved :=
  namedConfig_saves (by rfl) (by decide +kernel) (by decide +kernel)

theorem plainName_kept : KeptBySaving plainName appConfigDefaults :=
  ⟨oneLine_of_printable (by decide +kernel), oneLine_of_printable (by decide +kernel), fun h => (by cases h),
    ⟨rfl, rfl⟩, ⟨rfl, rfl⟩⟩

theorem settings_reload_plainName :
    let s' := (serveCgi (afterCgi firstStart []) (.apply .healthy 0 plainName)).2
    appConfigLoad .healthy appConfigDefaults s'.volume = (true, s'.runtime, s'.volume) := by
  have hsaved : (serveCgi (afterCgi firstStart []) (.apply .healthy 0 plainName)).1.success = true := by
    rw [show afterCgi firstStart [] = firstStart from rfl, plainName_saves]
    rfl
  exact (settings_reload_iff startMain_firstStart [] .healthy 0 plainName hsaved .healthy appConfigDefaults
    rfl).2 plainName_kept

/-- A network name with a line break sets any key of its section that comes later. -/
theorem iniGet_lineBreak {config : AppConfig} (h : Storable config) {ssid : CString APP_CONFIG_SSID_MAX_LEN}
    {key value : Bytes} (hssid : ssid.bytes = config.ssid.bytes ++ 10 :: (key ++ 61 :: value))
    (hitem : CleanItem (.pair key value)) (hmode : ascii "mode" ≠ key) (hname : ascii "ssid" ≠ key)
    (defValue : Bytes) (cap : Nat) :
    iniGet (ascii "network") key defValue cap (savedFile { config with ssid := ssid }) = .copy cap value := by
  obtain ⟨hk, hv⟩ : PlainKey key ∧ Trimmed value := hitem.plain
  obtain ⟨back, hitems⟩ : ∃ back, ∀ text : CString APP_CONFIG_SSID_MAX_LEN,
    configItems { config with ssid := text } =
      networkComments.map .comment ++ .header (ascii "network") ::
        .pair (ascii "mode") (appConfigModeName config.mode) ::
        .pair (ascii "ssid") text.bytes :: back :=
    ⟨(networkFields config).drop 2 ++ config.allowedMacs.zipIdx.flatMap macItems ++ [blank] ++
      [measurementsSection config, onewireSection config, mqttSection config, namesSection config].flatMap
        IniSection.items,
      fun _ => by
        simp [configItems, configSections, IniSection.items, networkSection, networkFields, measurementsSection,
          measurementsFields, onewireSection, onewireFields, mqttSection, mqttFields, namesSection]⟩
  -- the text of the file is that of a document with one line more
  have hrender : savedFile { config with ssid := ssid } =
    some (render (networkComments.map .comment ++ .header (ascii "network") ::
      .pair (ascii "mode") (appConfigModeName config.mode) :: .pair (ascii "ssid") config.ssid.bytes ::
        .pair key value :: back)) := by
    rw [savedFile, hitems, hssid]
    simp only [render_append, render_cons, IniItem.line, List.append_assoc, List.cons_append]
  have hconfig : ∀ item ∈ configItems config, ReadsBack item := configItems_readBack h
  have hsame : configItems config = _ := hitems config.ssid
  rw [hsame] at hconfig
  simp only [List.forall_mem_append, List.forall_mem_cons] at hconfig
  obtain ⟨hcomments, hheader, hmodeItem, hssidItem, hback⟩ := hconfig
  have hnetwork : ascii "network" ≠ [] := by decide
  have hno : NoHeader (networkComments.map IniItem.comment) := by simp [NoHeader]
  rw [hrender, iniGet_items _ _ _ _ hnetwork]
  · rw [lookup_append, lookup_noHeader hno, inSection_noHeader hno, Option.none_or]
    simp only [lookup, decide_true, true_and]
    rw [if_neg hmode, if_neg hname, if_pos trivial, Option.map_some, hv.trim, Option.getD_some]
  · simp only [List.forall_mem_append, List.forall_mem_cons]
    exact ⟨hcomments, hheader, hmodeItem, hssidItem, hitem.readsBack, hback⟩

/-- A network name that goes on in a line of its own. -/
def lineBreak : List CgiParam := [(ascii "ssid", some (ascii "x%0Achannel=7"))]

theorem lineBreak_saves : serveCgi firstStart (.apply .healthy 0 lineBreak) =
    { firstStart with
      runtime := namedConfig (ascii "x\nchannel=7")
      volume := savedFile (namedConfig (ascii "x\nchannel=7")) }.answer .saved :=
  namedConfig_saves (by rfl) (by decide +kernel) (by decide +kernel)

theorem namedConfig_storable : Storable (namedConfig (ascii "x")) where
  normalized := by decide +kernel
  ssid := oneLine_of_printable (by decide +kernel)
  hostname := defaults_canonical.storable.hostname
  password := oneLine_nil
  mqttHost := oneLine_nil
  mqttUsername := oneLine_nil
  mqttPassword := oneLine_nil
  macs := by simp [namedConfig, appConfigDefaults]
  macs_nodup := List.nodup_nil
  names_ne_nil := by simp [namedConfig, appConfigDefaults]
  ids_nodup := List.nodup_nil

/-- The channel comes back as the network name said. -/
theorem lineBreak_reload : startMain .healthy appConfigDefaults none = some firstStart ∧
    let r := serveCgi firstStart (.apply .healthy 0 lineBreak)
    let reloaded := (appConfigLoad .healthy appConfigDefaults r.2.volume).2.1
    r.1 = .saved ∧ reloaded ≠ r.2.runtime ∧ r.2.runtime.channel = 3 ∧ reloaded.channel = 7 := by
  refine ⟨startMain_firstStart, ?_⟩
  rw [lineBreak_saves]
  have hchannel :
      (loadFields (savedFile (namedConfig (ascii "x\nchannel=7"))) appConfigDefaults).channel = 7 := by
    have hvalue : iniGet (ascii "network") (ascii "channel") [] 32
      (savedFile (namedConfig (ascii "x\nchannel=7"))) =
        .copy 32 (ascii "7") := iniGet_lineBreak namedConfig_storable (by decide +kernel)
      (cleanItem_pair rfl (plain_literal rfl) (by decide)) (by decide) (by decide) [] 32
    unfold loadFields iniGetl
    dsimp only
    rw [hvalue]
    rfl
  have hread : (appConfigRead (savedFile (namedConfig (ascii "x\nchannel=7")))).channel = 7 := by
    obtain ⟨macs, names, hfields⟩ := read_fields (savedFile (namedConfig (ascii "x\nchannel=7")))
    rw [hfields]
    unfold appConfigNormalize
    dsimp only
    rw [hchannel]
    rfl
  have hload := @load_saved .healthy rfl (namedConfig (ascii "x\nchannel=7")) appConfigDefaults
  dsimp only [WebConfig.answer]
  rw [hload]
  refine ⟨rfl, fun h => ?_, rfl, hread⟩
  have h37 := congrArg AppConfig.channel h
  rw [hread] at h37
  exact absurd h37 (by decide)

end BLEBridge
