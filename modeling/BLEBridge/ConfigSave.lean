import BLEBridge.ConfigFile
/-!
# Saving

What a save leaves when it fails (`failed_save`), and which configurations can
be saved at all (`save_ok_iff`): the first line group carries all the comments
and seven values in one 1024-byte buffer.
-/
open Lib

namespace BLEBridge

/-! ## Writing line groups -/

theorem writeLine_ok {f : Option WriteFailure} {line content : Bytes}
    (h : (appConfigWriteLine f line content).1 = true) :
    (appConfigWriteLine f line content).2 = content ++ line := by
  unfold appConfigWriteLine at h ⊢
  split at h
  · cases h
  · rename_i hlen
    rw [if_neg hlen]
    cases f with
    | none => rfl
    | some f =>
      obtain ⟨-, hw⟩ := of_decide_eq_true h
      simp only [fWrite] at hw ⊢
      rw [List.take_of_length_le (by omega)]

theorem writeLine_content (f : Option WriteFailure) (line content : Bytes) :
    ∃ k, (appConfigWriteLine f line content).2 = content ++ line.take k := by
  unfold appConfigWriteLine
  split
  · exact ⟨0, by simp⟩
  · cases f with
    | none => exact ⟨line.length, by simp [fWrite]⟩
    | some f => exact ⟨f.written, rfl⟩

/-- A run of writes gets through, or stops part-way into one of them. -/
theorem writeLines_content (failure : Nat → Option WriteFailure) (lines : List Bytes) (n : Nat)
    (content : Bytes) :
    ((writeLines failure n lines content).1 = true ∧
        (writeLines failure n lines content).2 = content ++ lines.flatten) ∨
      (writeLines failure n lines content).1 = false ∧ ∃ done line rest k, lines = done ++ line :: rest ∧
        (writeLines failure n lines content).2 = content ++ done.flatten ++ line.take k := by
  induction lines generalizing n content with
  | nil => exact .inl ⟨rfl, by simp [writeLines]⟩
  | cons line lines ih =>
    cases hw : (appConfigWriteLine (failure n) line content).1 with
    | false =>
      obtain ⟨k, hk⟩ := writeLine_content (failure n) line content
      refine .inr ⟨by simp [writeLines, hw], [], line, lines, k, rfl, ?_⟩
      simp [writeLines, hw, hk]
    | true =>
      have hstep : writeLines failure n (line :: lines) content =
          writeLines failure (n + 1) lines (content ++ line) := by
        simp only [writeLines, hw, if_true, writeLine_ok hw]
      rw [hstep]
      rcases ih (n + 1) (content ++ line) with ⟨h1, h2⟩ | ⟨h1, done, l, rest, k, rfl, h2⟩
      · exact .inl ⟨h1, by rw [h2, List.flatten_cons, List.append_assoc]⟩
      · exact .inr ⟨h1, line :: done, l, rest, k, rfl, by
          rw [h2]
          simp only [List.flatten_cons, List.append_assoc]⟩

/-- Either the file could not be opened, or it was written anew. -/
theorem save_cases (fs : FatFs) (config : AppConfig) (volume : Option Bytes) :
    fs.creates = false ∧ appConfigSave fs config volume = (false, volume) ∨
      fs.creates = true ∧ appConfigSave fs config volume =
        (writeLines fs.failure 0 (appConfigLines config) []).map id some := by
  have hpair : ∀ r : Bool × Bytes, (r.1, some r.2) = r.map id some := fun _ => rfl
  unfold appConfigSave
  by_cases hc : fs.creates = false
  · exact .inl ⟨hc, if_pos hc⟩
  · rw [if_neg hc]
    exact .inr ⟨by simpa using hc, hpair _⟩

/-- A save that returned true wrote every line group. -/
theorem save_content {fs : FatFs} {config : AppConfig} {volume : Option Bytes}
    (h : (appConfigSave fs config volume).1 = true) :
    (appConfigSave fs config volume).2 = some (appConfigLines config).flatten := by
  rcases save_cases fs config volume with ⟨-, hs⟩ | ⟨-, hs⟩
  · rw [hs] at h
    cases h
  · rw [hs] at h ⊢
    rcases writeLines_content fs.failure (appConfigLines config) 0 [] with ⟨-, hcontent⟩ | ⟨hfail, -⟩
    · rw [Prod.map_snd, hcontent, List.nil_append]
    · rw [Prod.map_fst, id, hfail] at h
      cases h

theorem load_some {fs : FatFs} (hm : fs.mounts = true) (config : AppConfig) (content : Bytes) :
    appConfigLoad fs config (some content) = (true, appConfigRead (some content), some content) := by
  unfold appConfigLoad appConfigEnsureFile
  rw [if_neg (by simp [hm])]
  rfl

/-- **What a failed save leaves.** If the file could not be opened, all is as it
was. Otherwise its old content is gone: it holds the line groups before the one
that failed and some of that one, and a load takes the configuration from these. -/
theorem failed_save (fs : FatFs) (config : AppConfig) (volume : Option Bytes)
    (h : (appConfigSave fs config volume).1 = false) :
    let volume' := (appConfigSave fs config volume).2
    (fs.creates = false ∧ ∀ fs' config', appConfigLoad fs' config' volume' = appConfigLoad fs' config' volume) ∨
      fs.creates = true ∧ ∃ done line rest k, appConfigLines config = done ++ line :: rest ∧
        volume' = some (done.flatten ++ line.take k) ∧
        ∀ fs' config', fs'.mounts = true →
          appConfigLoad fs' config' volume' =
            (true, appConfigRead (some (done.flatten ++ line.take k)), volume') := by
  intro volume'
  rcases save_cases fs config volume with ⟨hc, hs⟩ | ⟨hc, hs⟩
  · have hv : volume' = volume := congrArg Prod.snd hs
    exact .inl ⟨hc, fun _ _ => by rw [hv]⟩
  · rw [hs, Prod.map_fst, id] at h
    rcases writeLines_content fs.failure (appConfigLines config) 0
      [] with ⟨hok, -⟩ | ⟨-, done, line, rest, k, hl, hcontent⟩
    · rw [hok] at h
      cases h
    · have hv : volume' = some (done.flatten ++ line.take k) := by
        simp only [volume']
        rw [hs, Prod.map_snd, hcontent, List.nil_append]
      exact .inr ⟨hc, done, line, rest, k, hl, hv, fun fs' config' hm => by rw [hv, load_some hm]⟩

/-- Writing to a file that holds nothing yet fails at the first write. -/
def firstWriteFails : FatFs := ⟨true, true, fun _ => some ⟨0, true⟩⟩

theorem save_firstWriteFails (config : AppConfig) (volume : Option Bytes) :
    appConfigSave firstWriteFails config volume = (false, some []) := by
  unfold appConfigSave
  rw [if_neg (by decide)]
  have hw : appConfigWriteLine (some ⟨0, true⟩) (networkLines config) [] = (false, []) := by
    unfold appConfigWriteLine
    split <;> simp [fWrite]
  simp [appConfigLines, writeLines, firstWriteFails, hw]

theorem failed_save_firstWriteFails :
    let volume' := (appConfigSave firstWriteFails appConfigDefaults (some (ascii "[network]"))).2
    ∃ done line rest k, appConfigLines appConfigDefaults = done ++ line :: rest ∧
      volume' = some (done.flatten ++ line.take k) := by
  have h := failed_save firstWriteFails appConfigDefaults (some (ascii "[network]"))
    (by rw [save_firstWriteFails])
  rcases h with ⟨hc, -⟩ | ⟨-, done, line, rest, k, hl, hv, -⟩
  · cases hc
  · exact ⟨done, line, rest, k, hl, hv⟩

/-! The lists of a file do not bear on the other fields. -/

theorem loadMac_frame (file : Option Bytes) (config : AppConfig) (i : Nat) :
    ∃ macs, loadMac file config i = { config with allowedMacs := macs } := by
  unfold loadMac appConfigSetAllowedMac
  dsimp only
  repeat' split
  all_goals exact ⟨_, rfl⟩

theorem loadName_frame (file : Option Bytes) (config : AppConfig) (i : Nat) :
    ∃ names, loadName file config i = { config with deviceNames := names } := by
  unfold loadName appConfigSetDeviceName
  dsimp only
  repeat' split
  all_goals exact ⟨_, rfl⟩

/-- Steps that change one part only. -/
theorem foldl_frame {β : Type} (put : β → AppConfig) {step : AppConfig → Nat → AppConfig}
    (hstep : ∀ x i, ∃ y, step (put x) i = put y) (l : List Nat) (x : β) : ∃ y, l.foldl step (put x) = put y := by
  induction l generalizing x with
  | nil => exact ⟨x, rfl⟩
  | cons i l ih =>
    obtain ⟨y, hy⟩ := hstep x i
    rw [List.foldl_cons, hy]
    exact ih y

/-- What is read is the fields, and some lists. -/
theorem read_fields (file : Option Bytes) : ∃ macs names, appConfigRead file =
    appConfigNormalize { loadFields file appConfigDefaults with allowedMacs := macs, deviceNames := names } := by
  obtain ⟨macs, hmacs⟩ := foldl_frame (fun macs => { loadFields file appConfigDefaults with allowedMacs := macs })
    (fun _ i => loadMac_frame file _ i) (List.range APP_CONFIG_ALLOWED_MAC_MAX_COUNT) []
  obtain ⟨names, hnames⟩ := foldl_frame
    (fun names => { loadFields file appConfigDefaults with allowedMacs := macs, deviceNames := names })
    (fun _ i => loadName_frame file _ i) (List.range APP_CONFIG_DEVICE_NAME_MAX_COUNT) []
  refine ⟨macs, names, ?_⟩
  unfold appConfigRead
  dsimp only
  rw [hmacs]
  dsimp only
  rw [hnames]

theorem read_ssid (file : Option Bytes) :
    (appConfigRead file).ssid = orDefault (appConfigTrim (loadFields file appConfigDefaults).ssid)
    (ascii "BLEBridge") := by
  obtain ⟨macs, names, h⟩ := read_fields file
  rw [h]
  rfl

/-- A save whose first write fails, over a file with a network name, loses it. -/
theorem failed_save_loses_ssid :
    let volume := some (ascii "[network]\nssid=Home\n")
    let r := appConfigSave firstWriteFails appConfigDefaults volume
    r.1 = false ∧ (appConfigLoad .healthy appConfigDefaults r.2).2.1 ≠
      (appConfigLoad .healthy appConfigDefaults volume).2.1 := by
  intro volume r
  have hr : r = (false, some []) := save_firstWriteFails _ _
  refine ⟨by rw [hr], fun h => ?_⟩
  rw [hr, load_some rfl, load_some rfl] at h
  have hs := congrArg AppConfig.ssid h
  rw [read_ssid, read_ssid] at hs
  exact absurd (congrArg CString.bytes hs) (by decide +kernel)

/-! ## Which configurations can be saved -/

theorem writeLine_healthy (line content : Bytes) :
    (appConfigWriteLine none line content).1 = true ↔ line.length < SIZEOF_WRITE_LINE := by
  unfold appConfigWriteLine
  split
  · rename_i h
    exact ⟨fun h' => (by cases h'), fun h' => by omega⟩
  · rename_i h
    exact ⟨fun _ => by omega, fun _ => decide_eq_true ⟨rfl, rfl⟩⟩

theorem writeLines_healthy (lines : List Bytes) (n : Nat) (content : Bytes) :
    (writeLines FatFs.healthy.failure n lines content).1 = true ↔
      ∀ line ∈ lines, line.length < SIZEOF_WRITE_LINE := by
  induction lines generalizing n content with
  | nil => simp [writeLines]
  | cons line lines ih =>
    have hw : (appConfigWriteLine (FatFs.healthy.failure n) line content).1 = true ↔ _ :=
      writeLine_healthy line content
    simp only [writeLines, List.forall_mem_cons]
    by_cases h : (appConfigWriteLine (FatFs.healthy.failure n) line content).1 = true
    · rw [if_pos h, ih]
      exact ⟨fun h' => ⟨hw.1 h, h'⟩, fun h' => h'.2⟩
    · rw [if_neg h]
      exact ⟨fun h' => absurd h' h, fun h' => absurd (hw.2 h'.1) h⟩

/-- When nothing fails, a save succeeds if every line group fits its buffer. -/
theorem save_healthy_iff (config : AppConfig) (volume : Option Bytes) :
    (appConfigSave .healthy config volume).1 = true ↔
      ∀ line ∈ appConfigLines config, line.length < SIZEOF_WRITE_LINE := by
  rcases save_cases .healthy config volume with ⟨hc, -⟩ | ⟨-, hs⟩
  · cases hc
  · rw [hs, Prod.map_fst, id]
    exact writeLines_healthy (appConfigLines config) 0 []

/-- The bytes of the five values in the first line group whose length varies. -/
def networkValuesLength (config : AppConfig) : Nat :=
  (appConfigModeName config.mode).length + config.ssid.bytes.length + config.hostname.bytes.length +
    (decimal config.channel.toNat).length + config.password.bytes.length

theorem flag_length (b : Bool) : (flag b).length = 1 := by cases b <;> rfl

theorem securityName_length (s : AppWifiSecurity) : (appConfigSecurityName s).length = 4 := by cases s <;> rfl

theorem unlines_length (ls : List Bytes) : (unlines ls).length = (ls.map List.length).sum + ls.length := by
  induction ls with
  | nil => rfl
  | cons l ls ih =>
    have hcons : unlines (l :: ls) = l ++ 10 :: unlines ls := List.append_assoc l [10] _
    rw [hcons, List.length_append, List.length_cons, ih, List.map_cons, List.sum_cons, List.length_cons]
    omega

theorem networkComments_length : (unlines networkComments).length = 863 := by
  have hlengths : networkComments.map List.length =
      [30, 19, 26, 66, 38, 23, 58, 22, 53, 79, 64, 73, 69, 63, 67, 60, 35, 0] := by
    unfold networkComments
    repeat rw [ascii_ofList]
    rfl
  have hcount : networkComments.length = 18 := rfl
  rw [unlines_length, hlengths, hcount]
  rfl

theorem networkLines_length (config : AppConfig) :
    (networkLines config).length = 944 + networkValuesLength config := by
  rw [networkLines, unlines_append, List.length_append, networkComments_length]
  simp [unlines, flag_length, securityName_length, networkValuesLength]
  omega

theorem decimal_uint32 (n : UInt32) : (decimal n.toNat).length ≤ 10 :=
  decimal_length_le (by omega) (by have := n.toNat_lt; omega)

theorem decimal_uint16 (n : UInt16) : (decimal n.toNat).length ≤ 5 :=
  decimal_length_le (by omega) (by have := n.toNat_lt; omega)

theorem macLines_length (mac : CString APP_CONFIG_ALLOWED_MAC_LEN) {i : Nat} (hi : i < 128) :
    (macLines (mac, i)).length < SIZEOF_WRITE_LINE := by
  have hm : mac.bytes.length ≤ 12 := mac.fits
  have hd : (decimal (i + 1)).length ≤ 3 := decimal_length_le (by omega) (by omega)
  have hs : SIZEOF_WRITE_LINE = 1024 := rfl
  simp [macLines, unlines]
  omega

theorem measurementsLines_length (config : AppConfig) :
    (measurementsLines config).length < SIZEOF_WRITE_LINE := by
  have h1 := decimal_uint32 config.measurementRetentionSeconds
  have h2 := decimal_uint16 config.measurementMaxCount
  have hs : SIZEOF_WRITE_LINE = 1024 := rfl
  simp [measurementsLines, unlines]
  omega

theorem onewireLines_length (config : AppConfig) : (onewireLines config).length < SIZEOF_WRITE_LINE := by
  have h1 := decimal_uint32 config.onewirePollIntervalSeconds
  have hs : SIZEOF_WRITE_LINE = 1024 := rfl
  simp [onewireLines, unlines, flag_length]
  omega

theorem mqttLines_length (config : AppConfig) : (mqttLines config).length < SIZEOF_WRITE_LINE := by
  have h1 := decimal_uint32 config.mqtt.intervalSeconds
  have h2 := decimal_uint16 config.mqtt.port
  have h3 : config.mqtt.host.bytes.length ≤ 253 := config.mqtt.host.fits
  have h4 : config.mqtt.username.bytes.length ≤ 64 := config.mqtt.username.fits
  have h5 : config.mqtt.password.bytes.length ≤ 64 := config.mqtt.password.fits
  have hs : SIZEOF_WRITE_LINE = 1024 := rfl
  simp [mqttLines, unlines, flag_length]
  omega

theorem nameLines_length (entry : AppConfigDeviceName) {i : Nat} (hi : i < 128) :
    (nameLines (entry, i)).length < SIZEOF_WRITE_LINE := by
  have h1 := decimal_uint32 entry.deviceId
  have h2 : entry.name.bytes.length ≤ 64 := entry.name.fits
  have hd : (decimal (i + 1)).length ≤ 3 := decimal_length_le (by omega) (by omega)
  have hs : SIZEOF_WRITE_LINE = 1024 := rfl
  simp [nameLines, unlines]
  omega

/-- Only the first line group can be too long. -/
theorem lines_fit (config : AppConfig) (hm : config.allowedMacs.length ≤ 128)
    (hn : config.deviceNames.length ≤ 128) :
    (∀ line ∈ appConfigLines config, line.length < SIZEOF_WRITE_LINE) ↔
      (networkLines config).length < SIZEOF_WRITE_LINE := by
  refine ⟨fun h => h _ (by simp [appConfigLines]), fun h line hl => ?_⟩
  simp only [appConfigLines, List.cons_append, List.mem_cons, List.mem_append, List.mem_map, Prod.exists] at hl
  rcases hl with rfl | ⟨mac, i, hi, rfl⟩ | rfl | rfl | rfl | rfl | ⟨entry, i, hi, rfl⟩
  · exact h
  · have := List.mem_zipIdx hi
    exact macLines_length mac (by omega)
  · exact measurementsLines_length config
  · exact onewireLines_length config
  · exact mqttLines_length config
  · decide
  · have := List.mem_zipIdx hi
    exact nameLines_length entry (by omega)

theorem save_healthy_fits (config : AppConfig) (hm : config.allowedMacs.length ≤ APP_CONFIG_ALLOWED_MAC_MAX_COUNT)
    (hn : config.deviceNames.length ≤ APP_CONFIG_DEVICE_NAME_MAX_COUNT) (volume : Option Bytes) :
    (appConfigSave .healthy config volume).1 = true ↔ networkValuesLength config ≤ 79 := by
  have hs : SIZEOF_WRITE_LINE = 1024 := rfl
  rw [save_healthy_iff, lines_fit config hm hn, networkLines_length]
  omega

/-- **Which configurations can be saved** on a healthy volume: those whose mode,
names, channel and password take at most 79 bytes together. -/
theorem save_ok_iff (config : AppConfig) (hm : config.allowedMacs.length ≤ APP_CONFIG_ALLOWED_MAC_MAX_COUNT)
    (hn : config.deviceNames.length ≤ APP_CONFIG_DEVICE_NAME_MAX_COUNT) (volume : Option Bytes) :
    (appConfigSave .healthy config volume).1 = true ↔
      (appConfigModeName config.mode).length + config.ssid.bytes.length + config.hostname.bytes.length +
        (decimal config.channel.toNat).length + config.password.bytes.length ≤ 79 :=
  save_healthy_fits config hm hn volume

theorem defaults_saved : (appConfigSave .healthy appConfigDefaults none).1 = true :=
  (save_healthy_fits appConfigDefaults (by decide) (by decide) none).2 (by decide +kernel)

/-- A client with two sensors, whose network name, host name and password leave no
byte free. -/
def nearBound : AppConfig :=
  { appConfigDefaults with
    mode := .modeClient
    ssid := .copy _ (ascii "A network name of thirty-two by.")
    hostname := .copy _ (ascii "blebridge-kitchen-01")
    channel := 13
    security := .securityWpa2
    password := .copy _ (ascii "nineteen-characters")
    allowedMacs := [.copy _ (ascii "A4C138000001"), .copy _ (ascii "A4C138000002")]
    deviceNames := [⟨0x38000001, .copy _ (ascii "Kitchen")⟩, ⟨0x38000002, .copy _ (ascii "Balcony")⟩] }

theorem save_ok_nearBound : networkValuesLength nearBound = 79 ∧
    (appConfigSave .healthy nearBound none).1 = true :=
  ⟨by decide +kernel, (save_ok_iff nearBound (by decide) (by decide) none).2 (by decide +kernel)⟩

/-- A configuration with the longest network and host name. -/
def longNames : AppConfig :=
  { appConfigDefaults with
    ssid := .copy _ (List.replicate 32 65)
    hostname := .copy _ (List.replicate 63 65) }

theorem longNames_not_saved :
    appConfigNormalize longNames = longNames ∧ (appConfigSave .healthy longNames none).1 = false := by
  refine ⟨by decide +kernel, ?_⟩
  rw [Bool.eq_false_iff, ne_eq, save_healthy_fits longNames (by decide) (by decide)]
  decide +kernel

end BLEBridge
