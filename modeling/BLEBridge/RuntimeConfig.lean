import BLEBridge.AppWebCgi
import BLEBridge.ConfigSave
import BLEBridge.ValidConfig
import BLEBridge.Lib.Runs
/-!
# The configuration in use

The configuration is loaded at start and then changed by requests. A request is
answered with a failure and leaves it alone, or saves the next one and makes it
current (`CgiAnswer`). Every one ever in use is valid (`runtime_config_valid`).
-/
open Lib

namespace BLEBridge

/-- A request that may change the configuration, and what FatFs does meanwhile. -/
inductive CgiRequest where
  | apply (fs : FatFs) (nowMs : UInt32) (params : List CgiParam)
  | select (fs : FatFs) (params : List CgiParam)
  | name (fs : FatFs) (params : List CgiParam)

def serveCgi (s : WebConfig) : CgiRequest → CgiStatus × WebConfig
  | .apply fs nowMs params => appWebCgiSettingsHandler fs nowMs params s
  | .select fs params => appWebCgiSelectHandler fs params s
  | .name fs params => appWebCgiNameHandler fs params s

/-- The start of `run_main_application_mode`, which halts when the configuration
cannot be loaded; `config` is what the variable holds before. -/
def startMain (fs : FatFs) (config : AppConfig) (volume : Option Bytes) : Option WebConfig :=
  let r := appConfigLoad fs config volume
  if r.1 then some ⟨r.2.1, r.2.2, none, false, 0⟩ else none

/-- The state after these requests. -/
def afterCgi (s : WebConfig) (requests : List CgiRequest) : WebConfig :=
  run (fun s request => (serveCgi s request).2) s requests

/-! ## What a handler does -/

/-- What is answered in the state `s`, where `Next` are the configurations that the
request may ask for. -/
inductive CgiAnswer (Next : AppConfig → Prop) (s : WebConfig) : CgiStatus × WebConfig → Prop
  | failed {status : CgiStatus} {s' : WebConfig} (hstatus : status.success = false)
      (hruntime : s'.runtime = s.runtime) :
      CgiAnswer Next s (status, s')
  | saved {fs : FatFs} {status : CgiStatus} {s' : WebConfig} {next : AppConfig} (hnext : Next next)
      (hstatus : status.success = true)
      (hsave : (appConfigSave fs next s.volume).1 = true) (hruntime : s'.runtime = next)
      (hvolume : s'.volume = (appConfigSave fs next s.volume).2) : CgiAnswer Next s (status, s')

section
variable {Next : AppConfig → Prop} {s : WebConfig}

theorem answered_fail {status : CgiStatus} (h : status.success = false) :
    CgiAnswer Next s (s.answer status) := .failed h rfl

theorem saveAndApply_answered (fs : FatFs) {next : AppConfig} (hnext : Next next)
    {failed done : CgiStatus} (hfailed : failed.success = false) (hdone : done.success = true) :
    CgiAnswer Next s (saveAndApply fs next failed done s) := by
  unfold saveAndApply
  cases hsave : (appConfigSave fs next s.volume).1 with
  | false =>
    dsimp only
    rw [hsave]
    exact .failed hfailed rfl
  | true =>
    dsimp only
    rw [hsave]
    exact .saved hnext hdone hsave rfl rfl

/-- Whether there is a reboot to come does not bear on the rest. -/
theorem CgiAnswer.reboot {r : CgiStatus × WebConfig} (h : CgiAnswer Next s r) (pending : Bool)
    (deadline : UInt32) :
    CgiAnswer Next s (r.1, { r.2 with rebootPending := pending, rebootDeadlineMs := deadline }) := by
  cases h with
  | failed hstatus hruntime => exact .failed hstatus hruntime
  | saved hnext hstatus hsave hruntime hvolume => exact .saved hnext hstatus hsave hruntime hvolume

theorem CgiAnswer.mono {Next' : AppConfig → Prop} {r : CgiStatus × WebConfig} (h : CgiAnswer Next s r)
    (hn : ∀ next, Next next → Next' next) : CgiAnswer Next' s r := by
  cases h with
  | failed hstatus hruntime => exact .failed hstatus hruntime
  | saved hnext hstatus hsave hruntime hvolume => exact .saved (hn _ hnext) hstatus hsave hruntime hvolume

/-- A failure is answered only where nothing was changed. -/
theorem CgiAnswer.unchanged {r : CgiStatus × WebConfig} (h : CgiAnswer Next s r) (hfail : r.1.success = false) :
    r.2.runtime = s.runtime := by
  cases h with
  | failed _ hruntime => exact hruntime
  | saved _ hstatus => exact absurd (hstatus.symm.trans hfail) (by decide)

/-- A success is answered only where the next configuration was saved. -/
theorem CgiAnswer.of_success {r : CgiStatus × WebConfig} (h : CgiAnswer Next s r) (hs : r.1.success = true) :
    ∃ fs next,
    Next next ∧ (appConfigSave fs next s.volume).1 = true ∧ r.2.runtime = next ∧
      r.2.volume = (appConfigSave fs next s.volume).2 := by
  cases h with
  | failed hstatus => exact absurd (hstatus.symm.trans hs) (by decide)
  | saved hnext _ hsave hruntime hvolume => exact ⟨_, _, hnext, hsave, hruntime, hvolume⟩

/-- What holds of the current configuration and of any that is asked for. -/
theorem CgiAnswer.keeps {P : AppConfig → Prop} {r : CgiStatus × WebConfig} (h : CgiAnswer Next s r)
    (hs : P s.runtime) (hn : ∀ next, Next next → P next) : P r.2.runtime := by
  cases h with
  | failed _ hruntime => rwa [hruntime]
  | saved hnext _ _ hruntime => exact hruntime ▸ hn _ hnext

end

/-- What a settings request asks for. -/
def SettingsNext (params : List CgiParam) (config next : AppConfig) : Prop :=
  ∃ mqtt, appWebReadMqttConfig params config.mqtt = .ok mqtt ∧
    next = appConfigNormalize { settingsFields params config with mqtt := mqtt }

theorem settings_answered (fs : FatFs) (nowMs : UInt32) (params : List CgiParam) (s : WebConfig) :
    CgiAnswer (SettingsNext params s.runtime) s (appWebCgiSettingsHandler fs nowMs params s) := by
  unfold appWebCgiSettingsHandler
  dsimp only
  split
  · rename_i status hmqtt
    refine answered_fail ?_
    -- it refuses a text or a number
    unfold appWebReadMqttConfig at hmqtt
    dsimp only at hmqtt
    split at hmqtt
    · split at hmqtt
      · cases hmqtt
      · rw [← Except.error.inj hmqtt]
        rfl
    · rw [← Except.error.inj hmqtt]
      rfl
  rename_i mqtt hmqtt
  have hnext : SettingsNext params s.runtime
      (appConfigNormalize { settingsFields params s.runtime with mqtt := mqtt }) :=
    ⟨mqtt, hmqtt, rfl⟩
  split
  · exact answered_fail rfl
  split
  · exact answered_fail rfl
  split
  · exact answered_fail rfl
  split
  · have h : CgiAnswer (SettingsNext params s.runtime) s (saveAndApply fs _ .settingsWrite .savedRebooting s) :=
      saveAndApply_answered fs hnext rfl rfl
    split
    · exact h
    · exact h.reboot _ _
  · exact saveAndApply_answered fs hnext rfl rfl

theorem select_answered (fs : FatFs) (params : List CgiParam) (s : WebConfig) :
    CgiAnswer (fun next => ∃ mac enabled, next = (appConfigSetAllowedMac s.runtime mac enabled).2) s
      (appWebCgiSelectHandler fs params s) := by
  unfold appWebCgiSelectHandler
  split
  · split
    · exact answered_fail rfl
    · dsimp only
      split
      · exact answered_fail rfl
      · exact saveAndApply_answered fs ⟨_, _, rfl⟩ rfl rfl
  · exact answered_fail rfl

theorem afterCgi_select (s : WebConfig) (fs : FatFs) (params : List CgiParam) :
    afterCgi s [.select fs params] = (appWebCgiSelectHandler fs params s).2 := rfl

/-- An address that is stored and saved is allowed from then on. -/
theorem select_saved {fs : FatFs} {params : List CgiParam} {s : WebConfig} {mac : Bytes}
    {normalizedMac : CString APP_CONFIG_ALLOWED_MAC_LEN}
    (hmac : appWebFindParamValue params (ascii "mac") = some mac)
    (henabled : appWebFindParamValue params (ascii "enabled") = some (ascii "1"))
    (hnormal : appConfigNormalizeMac APP_CONFIG_ALLOWED_MAC_LEN (readText APP_CONFIG_ALLOWED_MAC_LEN mac).bytes =
      some normalizedMac)
    (hstored : (appConfigSetAllowedMac s.runtime normalizedMac.bytes true).1 = true)
    (hsave : (appConfigSave fs (appConfigSetAllowedMac s.runtime normalizedMac.bytes true).2 s.volume).1 = true) :
    (appWebCgiSelectHandler fs params s).2.runtime =
      (appConfigSetAllowedMac s.runtime normalizedMac.bytes true).2 := by
  unfold appWebCgiSelectHandler saveAndApply
  simp only [hmac, henabled, hnormal, decide_true, hstored, hsave]
  rfl

theorem name_answered (fs : FatFs) (params : List CgiParam) (s : WebConfig) :
    CgiAnswer (fun next => ∃ deviceId name, next = (appConfigSetDeviceName s.runtime deviceId name).2) s
      (appWebCgiNameHandler fs params s) := by
  unfold appWebCgiNameHandler
  split
  · dsimp only
    split
    · exact answered_fail rfl
    · exact saveAndApply_answered fs ⟨_, _, rfl⟩ rfl rfl
  · exact answered_fail rfl

/-! ## What every configuration in use satisfies -/

theorem ValidConfig.setAllowedMac {config : AppConfig} (h : ValidConfig config) (mac : Bytes) (enabled : Bool) :
    ValidConfig (appConfigSetAllowedMac config mac enabled).2 := by
  obtain ⟨macs, heq, hmacs⟩ := setAllowedMac_valid h.macs mac enabled
  rw [heq]
  exact ⟨h.channel, h.retention, h.maxCount, h.poll, h.port, h.interval, h.ssid, h.hostname, h.password,
    hmacs, h.names⟩

theorem ValidConfig.setDeviceName {config : AppConfig} (h : ValidConfig config) (deviceId : UInt32)
    (name : Bytes) : ValidConfig (appConfigSetDeviceName config deviceId name).2 := by
  obtain ⟨names, heq, hnames⟩ := setDeviceName_valid h.names deviceId name
  rw [heq]
  exact ⟨h.channel, h.retention, h.maxCount, h.poll, h.port, h.interval, h.ssid, h.hostname, h.password,
    h.macs, hnames⟩

/-- The settings form has no lists, so normalizing makes the rest valid. -/
theorem ValidConfig.settingsNext {params : List CgiParam} {config next : AppConfig} (h : ValidConfig config)
    (hnext : SettingsNext params config next) : ValidConfig next := by
  obtain ⟨mqtt, -, rfl⟩ := hnext
  exact normalize_valid h.macs h.names

theorem serveCgi_valid {s : WebConfig} (h : ValidConfig s.runtime) (request : CgiRequest) :
    CgiAnswer ValidConfig s (serveCgi s request) := by
  cases request with
  | apply fs nowMs params => exact (settings_answered fs nowMs params s).mono fun _ hnext => h.settingsNext hnext
  | select fs params =>
    refine (select_answered fs params s).mono ?_
    rintro _ ⟨mac, enabled, rfl⟩
    exact h.setAllowedMac mac enabled
  | name fs params =>
    refine (name_answered fs params s).mono ?_
    rintro _ ⟨deviceId, name, rfl⟩
    exact h.setDeviceName deviceId name

theorem startMain_read {fs : FatFs} {config : AppConfig} {volume : Option Bytes} {s : WebConfig}
    (h : startMain fs config volume = some s) : ∃ file, s = ⟨appConfigRead file, file, none, false, 0⟩ := by
  unfold startMain at h
  dsimp only at h
  split at h
  · rename_i hload
    obtain ⟨file, hfile⟩ := load_read hload
    rw [hfile] at h
    exact ⟨file, (Option.some.inj h).symm⟩
  · cases h

theorem startMain_valid {fs : FatFs} {config : AppConfig} {volume : Option Bytes} {s : WebConfig}
    (h : startMain fs config volume = some s) : ValidConfig s.runtime := by
  obtain ⟨file, rfl⟩ := startMain_read h
  exact read_valid file

/-- **Every configuration in use is valid**, whatever the file held at start and
whatever was requested, and a request that fails leaves the one in use alone. -/
theorem runtime_config_valid {fs : FatFs} {config : AppConfig} {volume : Option Bytes} {s : WebConfig}
    (hstart : startMain fs config volume = some s) (requests : List CgiRequest) :
    ValidConfig (afterCgi s requests).runtime ∧
      ∀ request, (serveCgi (afterCgi s requests) request).1.success = false →
        (serveCgi (afterCgi s requests) request).2.runtime = (afterCgi s requests).runtime := by
  have hvalid : ValidConfig (afterCgi s requests).runtime :=
    (everyStep_true _ s requests).inv (I := fun s => ValidConfig s.runtime) (startMain_valid hstart)
      fun s request h _ => (serveCgi_valid h request).keeps h fun _ hnext => hnext
  exact ⟨hvalid, fun request hfail => (serveCgi_valid hvalid request).unchanged hfail⟩

/-- A file that names the network and allows one device. -/
def homeFile : Bytes := ascii "[network]\nssid=home\nmac1=a4c138000002\n"

/-- The request that allows another one. -/
def allowSecond : List CgiParam :=
  [(ascii "mac", some (ascii "a4c138000001")), (ascii "enabled", some (ascii "1"))]

/-- With separators the address is longer than the buffer and is refused. -/
def allowSeparated : List CgiParam :=
  [(ascii "mac", some (ascii "a4:c1:38:00:00:01")), (ascii "enabled", some (ascii "1"))]

theorem allowSeparated_fails (s : WebConfig) :
    (serveCgi s (.select .healthy allowSeparated)).1.success = false := by
  have hmac : appWebFindParamValue allowSeparated (ascii "mac") = some (ascii "a4:c1:38:00:00:01") := by
    decide +kernel
  have henabled : appWebFindParamValue allowSeparated (ascii "enabled") = some (ascii "1") := by decide +kernel
  have hnormal : appConfigNormalizeMac APP_CONFIG_ALLOWED_MAC_LEN
      (readText APP_CONFIG_ALLOWED_MAC_LEN (ascii "a4:c1:38:00:00:01")).bytes = none := by decide +kernel
  unfold serveCgi appWebCgiSelectHandler
  simp only [hmac, henabled, hnormal]
  rfl

/-- The state it is started in. -/
def homeState : WebConfig := ⟨appConfigRead (some homeFile), some homeFile, none, false, 0⟩

/-- Both devices are allowed then, and the network is still the one of the file. -/
theorem runtime_config_valid_home : startMain .healthy appConfigDefaults (some homeFile) = some homeState ∧
    let s := afterCgi homeState [.select .healthy allowSecond]
    ValidConfig s.runtime ∧ (serveCgi s (.select .healthy allowSeparated)).2.runtime = s.runtime ∧
      s.runtime.ssid.bytes = ascii "home" ∧
      s.runtime.allowedMacs.map CString.bytes = [ascii "A4C138000002", ascii "A4C138000001"] := by
  have hstart : startMain .healthy appConfigDefaults (some homeFile) = some homeState := by
    unfold startMain
    rw [load_some rfl]
    rfl
  have h := runtime_config_valid hstart [.select .healthy allowSecond]
  refine ⟨hstart, h.1, h.2 _ (allowSeparated_fails _), ?_⟩
  let mac : CString APP_CONFIG_ALLOWED_MAC_LEN := .copy _ (ascii "A4C138000001")
  let next := (appConfigSetAllowedMac homeState.runtime mac.bytes true).2
  have hmac : appWebFindParamValue allowSecond (ascii "mac") = some (ascii "a4c138000001") := by decide +kernel
  have hnormal : appConfigNormalizeMac APP_CONFIG_ALLOWED_MAC_LEN
      (readText APP_CONFIG_ALLOWED_MAC_LEN (ascii "a4c138000001")).bytes = some mac := by decide +kernel
  have hstored : (appConfigSetAllowedMac homeState.runtime mac.bytes true).1 = true := by decide +kernel
  have hsave : (appConfigSave .healthy next homeState.volume).1 = true :=
    (save_healthy_fits next (by decide +kernel) (by decide +kernel) _).2 (by decide +kernel)
  rw [afterCgi_select, select_saved hmac (by decide +kernel) hnormal hstored hsave]
  decide +kernel

end BLEBridge
