import BLEBridge.DeviceName
/-!
# Canonical configurations

The configurations that normalizing leaves as they are, with no duplicates in the
two lists, and plain texts or at least none with line breaks. A list entry is left
as it is by the function that adds it (`normalizeMac_canonical`, `Storable.name`).
-/
open Lib

namespace BLEBridge

/-- Twelve upper-case hexadecimal digits. -/
structure CanonicalMac (s : Bytes) : Prop where
  length : s.length = 12
  digits : ∀ b ∈ s, isxdigit b = true ∧ toupper b = b

/-- A normalized configuration whose texts are plain and whose lists have no
duplicates. -/
structure Canonical (config : AppConfig) : Prop where
  normalized : appConfigNormalize config = config
  ssid : PlainText config.ssid.bytes
  hostname : PlainText config.hostname.bytes
  password : PlainText config.password.bytes
  mqttHost : PlainText config.mqtt.host.bytes
  mqttUsername : PlainText config.mqtt.username.bytes
  mqttPassword : PlainText config.mqtt.password.bytes
  macs : ∀ mac ∈ config.allowedMacs, CanonicalMac mac.bytes
  macs_nodup : config.allowedMacs.Nodup
  names_ne_nil : ∀ entry ∈ config.deviceNames, entry.name.bytes ≠ []
  ids_nodup : (config.deviceNames.map AppConfigDeviceName.deviceId).Nodup

/-- A normalized configuration whose texts have no line breaks and whose lists have
no duplicates. -/
structure Storable (config : AppConfig) : Prop where
  normalized : appConfigNormalize config = config
  ssid : OneLine config.ssid.bytes
  hostname : OneLine config.hostname.bytes
  password : OneLine config.password.bytes
  mqttHost : OneLine config.mqtt.host.bytes
  mqttUsername : OneLine config.mqtt.username.bytes
  mqttPassword : OneLine config.mqtt.password.bytes
  macs : ∀ mac ∈ config.allowedMacs, CanonicalMac mac.bytes
  macs_nodup : config.allowedMacs.Nodup
  names_ne_nil : ∀ entry ∈ config.deviceNames, entry.name.bytes ≠ []
  ids_nodup : (config.deviceNames.map AppConfigDeviceName.deviceId).Nodup

theorem oneLine_of_printable {s : Bytes} (h : ∀ b ∈ s, 0x20 ≤ b) : OneLine s :=
  ⟨fun h10 => absurd (h 10 h10) (by decide), fun h13 => absurd (h 13 h13) (by decide)⟩

theorem Canonical.storable {config : AppConfig} (h : Canonical config) : Storable config where
  normalized := h.normalized
  ssid := oneLine_of_printable h.ssid.printable
  hostname := oneLine_of_printable h.hostname.printable
  password := oneLine_of_printable h.password.printable
  mqttHost := oneLine_of_printable h.mqttHost.printable
  mqttUsername := oneLine_of_printable h.mqttUsername.printable
  mqttPassword := oneLine_of_printable h.mqttPassword.printable
  macs := h.macs
  macs_nodup := h.macs_nodup
  names_ne_nil := h.names_ne_nil
  ids_nodup := h.ids_nodup

/-! ## Names -/

theorem copyDeviceName_spec (dstSize : Nat) (src : Bytes) :
    (appConfigCopyDeviceName dstSize src).bytes.length ≤ src.length ∧
      ∀ b ∈ (appConfigCopyDeviceName dstSize src).bytes, 0x20 ≤ b := by
  obtain ⟨ht, hl⟩ := copyDeviceName_text dstSize src
  exact ⟨hl, fun b hb => UInt8.not_lt.1 fun hlt => ht.no_control b hb (.inl hlt)⟩

/-- Neither step of normalizing a name changes one that both leave as it is. -/
theorem name_of_normalized {name : CString APP_CONFIG_DEVICE_NAME_LEN}
    (h : appConfigTrim (appConfigCopyDeviceName APP_CONFIG_DEVICE_NAME_LEN name.bytes) = name) :
    appConfigCopyDeviceName APP_CONFIG_DEVICE_NAME_LEN name.bytes = name ∧ PlainText name.bytes := by
  obtain ⟨hl, hb⟩ := copyDeviceName_spec APP_CONFIG_DEVICE_NAME_LEN name.bytes
  generalize appConfigCopyDeviceName APP_CONFIG_DEVICE_NAME_LEN name.bytes = copied at h hl hb
  have htrim : trimRight (trimLeft copied.bytes) = name.bytes := by rw [← trim_bytes, h]
  have heq : name.bytes = copied.bytes := by
    have hs := trim_sublist copied.bytes
    rw [htrim] at hs
    exact hs.eq_of_length_le hl
  rw [← heq] at htrim hb
  exact ⟨CString.ext heq.symm, trimmed_of_trim htrim, hb⟩

/-! ## MAC addresses -/

theorem not_separator_of_isxdigit {b : UInt8} (h : isxdigit b = true) : ¬(b = 58 ∨ b = 45 ∨ b = 32) := by
  rintro (rfl | rfl | rfl) <;> exact absurd h (by decide)

/-- The digits of a text, in upper case. -/
def macDigits (s : Bytes) : Bytes := (s.filter isxdigit).map toupper

/-- Digits and separators, and as many digits as an address has. -/
structure MacText (s : Bytes) : Prop where
  chars : ∀ b ∈ s, isxdigit b = true ∨ b = 58 ∨ b = 45 ∨ b = 32
  digits : (s.filter isxdigit).length = 12

theorem normalizeMacLoop_iff {written input out : Bytes} : normalizeMacLoop written input = some out ↔
    (∀ b ∈ input, isxdigit b = true ∨ b = 58 ∨ b = 45 ∨ b = 32) ∧
      written.length + (input.filter isxdigit).length = 12 ∧ out = written ++ macDigits input := by
  have h12 : APP_CONFIG_ALLOWED_MAC_LEN - 1 = 12 := rfl
  induction input generalizing written with
  | nil =>
    have hdigits : macDigits [] = [] := rfl
    rw [normalizeMacLoop, List.filter_nil, List.length_nil, Nat.add_zero, hdigits, List.append_nil]
    split
    · exact iff_of_false (fun h => by cases h) fun h => absurd h.2.1 ‹_›
    · rw [Option.some.injEq]
      exact ⟨fun h => ⟨fun _ hb => absurd hb List.not_mem_nil, not_not.1 ‹_›, h.symm⟩, fun h => h.2.2.symm⟩
  | cons ch input ih =>
    rw [normalizeMacLoop, List.forall_mem_cons]
    by_cases hsep : ch = 58 ∨ ch = 45 ∨ ch = 32
    · -- a separator is skipped
      have hno : ¬ isxdigit ch = true := fun hx => not_separator_of_isxdigit hx hsep
      have hdigits : macDigits (ch :: input) = macDigits input := by
        rw [macDigits, List.filter_cons_of_neg hno, macDigits]
      rw [if_pos hsep, hdigits, List.filter_cons_of_neg hno]
      exact ih.trans (and_congr_left' ⟨fun h => ⟨.inr hsep, h⟩, And.right⟩)
    rw [if_neg hsep]
    by_cases hx : isxdigit ch = true
    · have hdigits : macDigits (ch :: input) = toupper ch :: macDigits input := by
        rw [macDigits, List.filter_cons_of_pos hx, List.map_cons, macDigits]
      rw [hdigits, List.filter_cons_of_pos hx, List.length_cons]
      split
      · rename_i hstop
        have hfull : written.length ≥ APP_CONFIG_ALLOWED_MAC_LEN - 1 := hstop.resolve_left fun hf => by
          rw [hx] at hf; cases hf
        exact iff_of_false (fun h => by cases h) fun h => by omega
      · refine ih.trans ?_
        rw [List.length_append, List.length_singleton, List.append_assoc, List.singleton_append,
          Nat.add_assoc, Nat.add_comm 1]
        exact and_congr_left' ⟨fun h => ⟨.inl hx, h⟩, And.right⟩
    · rw [if_pos (.inl (by rwa [Bool.not_eq_true] at hx))]
      exact iff_of_false (fun h => by cases h) fun h => h.1.1.elim hx hsep

/-- A text is accepted as its digits in upper case. -/
theorem normalizeMac_iff {input : Bytes} {out : Bytes} :
    normalizeMacLoop [] input = some out ↔ MacText input ∧ out = macDigits input := by
  rw [normalizeMacLoop_iff, List.length_nil, Nat.zero_add, List.nil_append, ← and_assoc]
  exact and_congr_left' ⟨fun h => ⟨h.1, h.2⟩, fun h => ⟨h.chars, h.digits⟩⟩

theorem normalizeMac_canonical {mac : CString APP_CONFIG_ALLOWED_MAC_LEN} (h : CanonicalMac mac.bytes) :
    appConfigNormalizeMac APP_CONFIG_ALLOWED_MAC_LEN mac.bytes = some mac := by
  have hfilter : mac.bytes.filter isxdigit = mac.bytes := List.filter_eq_self.2 fun b hb => (h.digits b hb).1
  have hdigits : macDigits mac.bytes = mac.bytes := by
    rw [macDigits, hfilter]
    conv_rhs => rw [← List.map_id mac.bytes]
    exact List.map_congr_left fun b hb => (h.digits b hb).2
  have hloop : normalizeMacLoop [] mac.bytes = some mac.bytes :=
    normalizeMac_iff.2 ⟨⟨fun b hb => .inl (h.digits b hb).1, by rw [hfilter, h.length]⟩, hdigits.symm⟩
  rw [appConfigNormalizeMac, if_neg (lt_irrefl _), hloop, Option.map_some, copy_self]

theorem isspace_of_isxdigit {b : UInt8} (h : isxdigit b = true) : 0x20 ≤ b ∧ isspace b = false := by
  simp only [isxdigit, isdigit, isspace, decide_eq_true_eq, decide_eq_false_iff_not] at h ⊢
  simp only [UInt8.le_iff_toNat_le, ← UInt8.toNat_inj] at h ⊢
  simp at h ⊢
  omega

theorem CanonicalMac.plain {s : Bytes} (h : CanonicalMac s) : PlainText s where
  trimmed := ⟨
    (trimLeft_eq_self_iff s).2 fun b hb => (isspace_of_isxdigit (h.digits b (List.mem_of_mem_head? hb)).1).2,
    (trimRight_eq_self_iff s).2 fun b hb => (isspace_of_isxdigit (h.digits b (List.mem_of_mem_getLast? hb)).1).2⟩
  printable b hb := (isspace_of_isxdigit (h.digits b hb).1).1

/-! ## Adding to the lists -/

theorem setAllowedMac_canonical {config : AppConfig} {mac : CString APP_CONFIG_ALLOWED_MAC_LEN}
    (h : CanonicalMac mac.bytes) (hnew : mac ∉ config.allowedMacs)
    (hroom : config.allowedMacs.length < APP_CONFIG_ALLOWED_MAC_MAX_COUNT) :
    appConfigSetAllowedMac config mac.bytes true =
      (true, { config with allowedMacs := config.allowedMacs ++ [mac] }) := by
  have hindex : config.allowedMacs.findIdx (· = mac) = config.allowedMacs.length :=
    List.findIdx_eq_length_of_false fun m hm => decide_eq_false fun he => hnew (he ▸ hm)
  unfold appConfigSetAllowedMac
  rw [normalizeMac_canonical h]
  simp only [hindex, if_true]
  rw [if_neg (lt_irrefl _), if_neg (not_le.2 hroom)]

theorem setDeviceName_canonical {config : AppConfig} {entry : AppConfigDeviceName} (hne : entry.name.bytes ≠ [])
    (hname : appConfigTrim (appConfigCopyDeviceName APP_CONFIG_DEVICE_NAME_LEN entry.name.bytes) = entry.name)
    (hnew : entry.deviceId ∉ config.deviceNames.map AppConfigDeviceName.deviceId)
    (hroom : config.deviceNames.length < APP_CONFIG_DEVICE_NAME_MAX_COUNT) :
    appConfigSetDeviceName config entry.deviceId entry.name.bytes =
      (true, { config with deviceNames := config.deviceNames ++ [entry] }) := by
  have hindex : config.deviceNames.findIdx (·.deviceId = entry.deviceId) = config.deviceNames.length :=
    List.findIdx_eq_length_of_false fun e he => decide_eq_false fun hid => hnew (hid ▸ List.mem_map_of_mem he)
  have hcopy := (name_of_normalized hname).1
  have htrim : appConfigTrim entry.name = entry.name := by rwa [hcopy] at hname
  unfold appConfigSetDeviceName
  simp only [hindex, hcopy, htrim]
  rw [if_neg hne, if_pos (le_refl _), if_neg (not_le.2 hroom)]

/-! ## What normalizing bounds -/

/-- A text that normalizing leaves is trimmed. -/
theorem trim_orDefault {cap : Nat} {text : CString cap}
    {value : Bytes} (h : orDefault (appConfigTrim text) value = text)
    (hv : appConfigTrim (.copy cap value) = .copy cap value) : appConfigTrim text = text := by
  unfold orDefault at h
  split at h
  · rw [← h]
    exact hv
  · exact h

theorem clamp_mem {lo hi : UInt32} (hlo : lo ≤ hi) (x : UInt32) :
    lo ≤ (if (if x < lo then lo else x) > hi then hi else if x < lo then lo else x) ∧
      (if (if x < lo then lo else x) > hi then hi else if x < lo then lo else x) ≤ hi := by
  by_cases hx : x < lo
  · rw [if_pos hx, if_neg (UInt32.not_lt.2 hlo)]
    exact ⟨UInt32.le_refl _, hlo⟩
  · rw [if_neg hx]
    split
    · exact ⟨hlo, UInt32.le_refl _⟩
    · rename_i h
      exact ⟨UInt32.not_lt.1 hx, UInt32.not_lt.1 h⟩

theorem clamp_bounds {x lo hi : UInt32} (hlo : lo ≤ hi)
    (h : (if (if x < lo then lo else x) > hi then hi else if x < lo then lo else x) = x) : lo ≤ x ∧ x ≤ hi :=
  h ▸ clamp_mem hlo x

namespace Storable
variable {config : AppConfig} (h : Storable config)
include h

theorem mqttHost_trim : appConfigTrim config.mqtt.host = config.mqtt.host :=
  congrArg (fun c => c.mqtt.host) h.normalized

theorem ssid_trim : appConfigTrim config.ssid = config.ssid :=
  trim_orDefault (congrArg AppConfig.ssid h.normalized) (by decide +kernel)

theorem hostname_trim : appConfigTrim config.hostname = config.hostname :=
  trim_orDefault (congrArg AppConfig.hostname h.normalized) (by decide +kernel)

theorem password_trim : appConfigTrim config.password = config.password := by
  have hp : (if config.security = .securityOpen then .copy _ [] else appConfigTrim config.password) =
      config.password :=
    congrArg AppConfig.password h.normalized
  split at hp
  · rw [← hp]
    rfl
  · exact hp

theorem channel_le : config.channel ≤ 13 := by
  have hc : (if config.channel < 1 ∨ config.channel > 13 then 3 else config.channel) = config.channel :=
    congrArg AppConfig.channel h.normalized
  rw [← hc]
  split
  · decide
  · rename_i hle
    exact UInt32.not_lt.1 fun hgt => hle (.inr hgt)

theorem retention_le : config.measurementRetentionSeconds ≤ APP_CONFIG_MEASUREMENT_RETENTION_MAX_SECONDS :=
  (clamp_bounds (by decide) (congrArg AppConfig.measurementRetentionSeconds h.normalized)).2

theorem maxCount_le : config.measurementMaxCount ≤ APP_CONFIG_MEASUREMENT_MAX_COUNT_MAX := by
  have hc : (if config.measurementMaxCount > APP_CONFIG_MEASUREMENT_MAX_COUNT_MAX then
      APP_CONFIG_MEASUREMENT_MAX_COUNT_MAX else config.measurementMaxCount) = config.measurementMaxCount :=
    congrArg AppConfig.measurementMaxCount h.normalized
  rw [← hc]
  split
  · exact UInt16.le_refl _
  · rename_i hle
    exact UInt16.not_lt.1 hle

theorem poll_le : config.onewirePollIntervalSeconds ≤ APP_CONFIG_ONEWIRE_POLL_INTERVAL_MAX_SECONDS :=
  (clamp_bounds (by decide) (congrArg AppConfig.onewirePollIntervalSeconds h.normalized)).2

theorem interval_bounds : APP_CONFIG_MQTT_INTERVAL_MIN_SECONDS ≤ config.mqtt.intervalSeconds ∧
    config.mqtt.intervalSeconds ≤ APP_CONFIG_MQTT_INTERVAL_MAX_SECONDS :=
  clamp_bounds (by decide) (congrArg (fun c => c.mqtt.intervalSeconds) h.normalized)

theorem port_ne_zero : config.mqtt.port ≠ 0 := by
  have hp : (if config.mqtt.port = 0 then 1883 else config.mqtt.port) = config.mqtt.port :=
    congrArg (fun c => c.mqtt.port) h.normalized
  intro h0
  rw [if_pos h0, h0] at hp
  exact absurd hp (by decide)

theorem macs_length : config.allowedMacs.length ≤ APP_CONFIG_ALLOWED_MAC_MAX_COUNT := by
  have hm : config.allowedMacs.take APP_CONFIG_ALLOWED_MAC_MAX_COUNT = config.allowedMacs :=
    congrArg AppConfig.allowedMacs h.normalized
  rw [← hm]
  exact List.length_take_le _ _

theorem names_length : config.deviceNames.length ≤ APP_CONFIG_DEVICE_NAME_MAX_COUNT := by
  have hn := congrArg (fun c => c.deviceNames.length) h.normalized
  simp only [appConfigNormalize, List.length_map, List.length_take] at hn
  omega

theorem name : ∀ entry ∈ config.deviceNames,
    appConfigTrim (appConfigCopyDeviceName APP_CONFIG_DEVICE_NAME_LEN entry.name.bytes) = entry.name := by
  have hn := congrArg AppConfig.deviceNames h.normalized
  simp only [appConfigNormalize, List.take_of_length_le h.names_length] at hn
  intro entry he
  exact congrArg AppConfigDeviceName.name (List.map_eq_map_iff.1 (hn.trans (List.map_id _).symm) entry he)

end Storable

end BLEBridge
