import BLEBridge.ValidConfig
import BLEBridge.Lib.Ordered
import BLEBridge.Lib.Runs
/-!
# The two lists as a set and a map

`app_config_set_allowed_mac` and `app_config_set_device_name` keep an ordered set of
MAC addresses and an ordered map from device ids to names (`ConfigLists`), as far as
the arrays go; `app_config_get_sensor_name` looks up the name.
-/
open Lib

namespace BLEBridge

/-- The allow list as a set, and the names as a map. -/
structure ConfigLists where
  macs : OrderedSet (CString APP_CONFIG_ALLOWED_MAC_LEN)
  names : OrderedMap UInt32 (CString APP_CONFIG_DEVICE_NAME_LEN)

inductive ListCall where
  | setAllowedMac (mac : Bytes) (enabled : Bool)
  | setDeviceName (deviceId : UInt32) (name : Bytes)

def ListCall.exec (call : ListCall) (config : AppConfig) : Bool × AppConfig :=
  match call with
  | .setAllowedMac mac enabled => appConfigSetAllowedMac config mac enabled
  | .setDeviceName deviceId name => appConfigSetDeviceName config deviceId name

/-- The calls that are refused: the address is invalid, or there is no room for a new
entry. -/
def ListCall.Refused (call : ListCall) (s : ConfigLists) : Prop :=
  match call with
  | .setAllowedMac mac enabled =>
    match appConfigNormalizeMac APP_CONFIG_ALLOWED_MAC_LEN mac with
    | none => True
    | some canonical =>
      enabled = true ∧ canonical ∉ s.macs.members ∧ s.macs.members.length = APP_CONFIG_ALLOWED_MAC_MAX_COUNT
  | .setDeviceName deviceId name =>
    (sanitizedName name).bytes ≠ [] ∧ deviceId ∉ s.names.keys ∧
      s.names.keys.length = APP_CONFIG_DEVICE_NAME_MAX_COUNT

instance (call : ListCall) (s : ConfigLists) : Decidable (call.Refused s) := by
  unfold ListCall.Refused
  cases call with
  | setAllowedMac mac enabled =>
    dsimp only
    cases appConfigNormalizeMac APP_CONFIG_ALLOWED_MAC_LEN mac with
    | none => exact inferInstanceAs (Decidable True)
    | some canonical => exact inferInstanceAs (Decidable (_ ∧ _))
  | setDeviceName deviceId name => exact inferInstanceAs (Decidable (_ ∧ _))

/-- What a call that is not refused does to the set and the map. -/
def ListCall.apply (call : ListCall) (s : ConfigLists) : ConfigLists :=
  match call with
  | .setAllowedMac mac enabled =>
    match appConfigNormalizeMac APP_CONFIG_ALLOWED_MAC_LEN mac with
    | none => s
    | some canonical => { s with macs := if enabled then s.macs.insert canonical else s.macs.erase canonical }
  | .setDeviceName deviceId name =>
    { s with names :=
        if (sanitizedName name).bytes = [] then s.names.erase deviceId
          else s.names.insert deviceId (sanitizedName name) }

def ListCall.step (call : ListCall) (s : ConfigLists) : Bool × ConfigLists :=
  if call.Refused s then (false, s) else (true, call.apply s)

/-- The results of calls one after the other, and the state after them. -/
def runListCalls {σ : Type} (step : ListCall → σ → Bool × σ) : List ListCall → σ → List Bool × σ
  | [], s => ([], s)
  | call :: calls, s =>
    let r := step call s
    let later := runListCalls step calls r.2
    (r.1 :: later.1, later.2)

/-- The lists of `config` are `s`, and within their bounds. -/
structure Represents (config : AppConfig) (s : ConfigLists) : Prop where
  macs : config.allowedMacs = s.macs.members
  names : config.deviceNames.map (fun e => (e.deviceId, e.name)) = s.names.entries
  macs_count : config.allowedMacs.length ≤ APP_CONFIG_ALLOWED_MAC_MAX_COUNT
  names_count : config.deviceNames.length ≤ APP_CONFIG_DEVICE_NAME_MAX_COUNT
  canonical : ∀ mac ∈ config.allowedMacs, CanonicalMac mac.bytes

namespace Represents
variable {config : AppConfig} {s : ConfigLists}

theorem ids (h : Represents config s) : config.deviceNames.map AppConfigDeviceName.deviceId = s.names.keys := by
  rw [OrderedMap.keys, ← h.names, List.map_map]
  rfl

theorem sensorName (h : Represents config s) (deviceId : UInt32) :
    appConfigGetSensorName config deviceId = ((s.names.lookup deviceId).map CString.bytes).getD [] := by
  unfold appConfigGetSensorName OrderedMap.lookup
  rw [← h.names, List.find?_map, Option.map_map]
  have hfind : (fun e : AppConfigDeviceName => decide (e.deviceId = deviceId)) =
    (fun e : UInt32 × CString APP_CONFIG_DEVICE_NAME_LEN => decide (e.1 = deviceId)) ∘
      fun e => (e.deviceId, e.name) := rfl
  rw [← hfind]
  cases config.deviceNames.find? fun e => decide (e.deviceId = deviceId) <;> rfl

end Represents

/-! ## One call -/

section
variable {config : AppConfig}

/-- A call does to the lists what it should, and nothing else. -/
structure Refines (call : ListCall) (config : AppConfig) (s : ConfigLists) (r : Bool × AppConfig) : Prop where
  result : r.1 = (call.step s).1
  lists : Represents r.2 (call.step s).2
  refused : call.Refused s → r.2 = config
  frame : ∃ macs names, r.2 = { config with allowedMacs := macs, deviceNames := names }

variable {s : ConfigLists} {call : ListCall}

theorem Refines.of_refused (h : Represents config s) (hr : call.Refused s) :
    Refines call config s (false, config) := by
  have hstep : call.step s = (false, s) := if_pos hr
  refine ⟨by rw [hstep], by rw [hstep]; exact h, fun _ => rfl, config.allowedMacs, config.deviceNames, rfl⟩

theorem Refines.of_apply (macs : List (CString APP_CONFIG_ALLOWED_MAC_LEN))
    (names : List AppConfigDeviceName) (hr : ¬ call.Refused s)
    (h : Represents { config with allowedMacs := macs, deviceNames := names } (call.apply s)) :
    Refines call config s (true, { config with allowedMacs := macs, deviceNames := names }) := by
  have hstep : call.step s = (true, call.apply s) := if_neg hr
  refine ⟨by rw [hstep], by rw [hstep]; exact h, fun h0 => absurd h0 hr, macs, names, rfl⟩

theorem setAllowedMac_refines (h : Represents config s) (mac : Bytes) (enabled : Bool) :
    Refines (.setAllowedMac mac enabled) config s (appConfigSetAllowedMac config mac enabled) := by
  have hmacs := h.macs
  cases hc : appConfigNormalizeMac APP_CONFIG_ALLOWED_MAC_LEN mac with
  | none =>
    -- Not an address: nothing to look up.
    have hrefused : (ListCall.setAllowedMac mac enabled).Refused s := by
      rw [ListCall.Refused, hc]
      trivial
    rw [setAllowedMac_none hc]
    exact .of_refused h hrefused
  | some canonical =>
    have hrefused : (ListCall.setAllowedMac mac enabled).Refused s ↔
        enabled = true ∧ canonical ∉ s.macs.members ∧
          s.macs.members.length = APP_CONFIG_ALLOWED_MAC_MAX_COUNT := by
      rw [ListCall.Refused, hc]
    have happly : (ListCall.setAllowedMac mac enabled).apply s =
        { s with macs := if enabled then s.macs.insert canonical else s.macs.erase canonical } := by
      rw [ListCall.apply, hc]
    cases enabled with
    | false =>
      rw [setAllowedMac_disable (hmacs ▸ s.macs.nodup) hc]
      refine .of_apply _ config.deviceNames (fun h0 => Bool.false_ne_true (hrefused.1 h0).1) ?_
      rw [happly]
      refine ⟨?_, h.names, (List.length_filter_le _ _).trans h.macs_count, h.names_count,
        fun m hm => h.canonical m (List.mem_of_mem_filter hm)⟩
      change config.allowedMacs.filter _ = s.macs.members.filter _
      rw [hmacs]
    | true =>
      rw [setAllowedMac_enable hc]
      by_cases hm : canonical ∈ config.allowedMacs
      · rw [if_pos hm]
        refine .of_apply config.allowedMacs config.deviceNames (fun h0 => (hrefused.1 h0).2.1 (hmacs ▸ hm)) ?_
        have hinsert : s.macs.insert canonical = s.macs := dif_pos (hmacs ▸ hm)
        rw [happly, if_pos rfl, hinsert]
        exact h
      -- A new address is added at the end, if there is room.
      rw [if_neg hm]
      split
      · rename_i hfull
        exact .of_refused h (hrefused.2 ⟨rfl, hmacs ▸ hm, hmacs ▸ Nat.le_antisymm h.macs_count hfull⟩)
      · rename_i hroom
        refine .of_apply _ config.deviceNames (fun h0 => hroom (by rw [hmacs, (hrefused.1 h0).2.2])) ?_
        have hinsert := s.macs.members_insert canonical
        rw [if_neg (hmacs ▸ hm)] at hinsert
        rw [happly, if_pos rfl]
        refine ⟨?_, h.names, ?_, h.names_count, fun m hm => ?_⟩
        · rw [hinsert, ← hmacs]
        · rw [List.length_append, List.length_singleton]
          omega
        · rcases List.mem_append.1 hm with hm | hm
          · exact h.canonical m hm
          · rw [List.mem_singleton.1 hm]
            exact normalizeMac_spec hc

theorem setDeviceName_refines (h : Represents config s) (deviceId : UInt32) (name : Bytes) :
    Refines (.setDeviceName deviceId name) config s (appConfigSetDeviceName config deviceId name) := by
  have hids := h.ids
  have hn : (config.deviceNames.map AppConfigDeviceName.deviceId).Nodup := hids ▸ s.names.nodup
  have hcount : config.deviceNames.length = s.names.keys.length := by rw [← hids, List.length_map]
  by_cases hne : (sanitizedName name).bytes = []
  -- An empty name takes the device off the list.
  · have happly : (ListCall.setDeviceName deviceId name).apply s =
      { s with names := s.names.erase deviceId } := by
      rw [ListCall.apply, if_pos hne]
    rw [setDeviceName_empty hn deviceId hne]
    refine .of_apply config.allowedMacs _ (fun h0 => h0.1 hne) ?_
    rw [happly]
    refine ⟨h.macs, ?_, h.macs_count, (List.length_filter_le _ _).trans h.names_count, h.canonical⟩
    change (config.deviceNames.filter _).map _ = s.names.entries.filter _
    rw [← h.names, List.filter_map]
    rfl
  have happly : (ListCall.setDeviceName deviceId name).apply s =
      { s with names := s.names.insert deviceId (sanitizedName name) } := by
    rw [ListCall.apply, if_neg hne]
  rw [setDeviceName_name hn deviceId hne]
  by_cases hm : deviceId ∈ config.deviceNames.map AppConfigDeviceName.deviceId
  · rw [if_pos hm]
    refine .of_apply config.allowedMacs _ (fun h0 => h0.2.1 (hids ▸ hm)) ?_
    rw [happly]
    refine ⟨h.macs, ?_, h.macs_count, by rw [List.length_map]; exact h.names_count, h.canonical⟩
    have hinsert := s.names.entries_insert deviceId (sanitizedName name)
    rw [if_pos (hids ▸ hm), ← h.names, List.map_map] at hinsert
    rw [hinsert, List.map_map]
    refine List.map_congr_left fun e _ => ?_
    simp only [Function.comp_apply]
    split <;> rfl
  rw [if_neg hm]
  split
  · rename_i hfull
    exact .of_refused h ⟨hne, hids ▸ hm, hcount ▸ Nat.le_antisymm h.names_count hfull⟩
  · rename_i hroom
    refine .of_apply config.allowedMacs _ (fun h0 => hroom (by rw [hcount, h0.2.2])) ?_
    rw [happly]
    refine ⟨h.macs, ?_, h.macs_count, ?_, h.canonical⟩
    · have hinsert := s.names.entries_insert deviceId (sanitizedName name)
      rw [if_neg (hids ▸ hm), ← h.names] at hinsert
      rw [hinsert, List.map_append]
      rfl
    · rw [List.length_append, List.length_singleton]
      omega

theorem exec_refines (h : Represents config s) (call : ListCall) : Refines call config s (call.exec config) := by
  cases call with
  | setAllowedMac mac enabled => exact setAllowedMac_refines h mac enabled
  | setDeviceName deviceId name => exact setDeviceName_refines h deviceId name

/-- The names of the other ids stay; `[]` is the name of an id without one. -/
theorem getSensorName_setDeviceName (h : Represents config s) {deviceId : UInt32} {name : Bytes}
    (hr : ¬ (ListCall.setDeviceName deviceId name).Refused s) (j : UInt32) :
    appConfigGetSensorName (appConfigSetDeviceName config deviceId name).2 j =
      if j = deviceId then (sanitizedName name).bytes else appConfigGetSensorName config j := by
  have hlists := (setDeviceName_refines h deviceId name).lists
  have hstep : (ListCall.setDeviceName deviceId name).step s =
      (true, (ListCall.setDeviceName deviceId name).apply s) := if_neg hr
  rw [hstep] at hlists
  rw [hlists.sensorName, h.sensorName, ListCall.apply]
  split
  · rename_i hne
    rw [OrderedMap.lookup_erase]
    split
    · exact hne.symm
    · rfl
  · rw [OrderedMap.lookup_insert]
    split
    · rfl
    · rfl

/-- The other addresses stay on the list. -/
theorem mem_setAllowedMac (h : Represents config s)
    {mac : Bytes} {canonical : CString APP_CONFIG_ALLOWED_MAC_LEN} {enabled : Bool}
    (hc : appConfigNormalizeMac APP_CONFIG_ALLOWED_MAC_LEN mac = some canonical)
    (hr : ¬ (ListCall.setAllowedMac mac enabled).Refused s) (m : CString APP_CONFIG_ALLOWED_MAC_LEN) :
    m ∈ (appConfigSetAllowedMac config mac enabled).2.allowedMacs ↔
      if m = canonical then enabled = true else m ∈ config.allowedMacs := by
  have hlists := (setAllowedMac_refines h mac enabled).lists
  have hstep : (ListCall.setAllowedMac mac enabled).step s =
      (true, (ListCall.setAllowedMac mac enabled).apply s) := if_neg hr
  rw [hstep] at hlists
  rw [hlists.macs, h.macs, ListCall.apply, hc]
  dsimp only
  cases enabled with
  | false =>
    rw [if_neg Bool.false_ne_true, OrderedSet.mem_erase]
    split
    · exact iff_of_false (fun hm => hm.2 ‹_›) Bool.false_ne_true
    · exact and_iff_left ‹_›
  | true =>
    rw [if_pos rfl, OrderedSet.mem_insert]
    split
    · exact iff_of_true (.inl ‹_›) rfl
    · exact or_iff_right ‹_›

/-! ## All calls -/

theorem runListCalls_eq {σ : Type} (step : ListCall → σ → Bool × σ) (calls : List ListCall) (s : σ) :
    runListCalls step calls s = results step calls s := by
  induction calls generalizing s with
  | nil => rfl
  | cons call calls ih => rw [runListCalls, results, ih]

theorem runListCalls_represents (h : Represents config s) (calls : List ListCall) :
    (runListCalls ListCall.exec calls config).1 = (runListCalls ListCall.step calls s).1 ∧
      Represents (runListCalls ListCall.exec calls config).2 (runListCalls ListCall.step calls s).2 := by
  rw [runListCalls_eq, runListCalls_eq]
  refine results_simulates Represents ?_ calls h
  intro call config s hlists
  have hcall := exec_refines hlists call
  exact ⟨hcall.result, hcall.lists⟩

end

/-- The lists of a configuration as a set and a map. -/
def configLists (config : AppConfig) (hmacs : config.allowedMacs.Nodup)
    (hids : (config.deviceNames.map AppConfigDeviceName.deviceId).Nodup) : ConfigLists where
  macs := ⟨config.allowedMacs, hmacs⟩
  names := ⟨config.deviceNames.map fun e => (e.deviceId, e.name), by rw [List.map_map]; exact hids⟩

/-- **The two lists are a set and a map**: any calls give the results and leave the lists
that they do on the set and the map, every name is the one in the map, and a call that
is refused changes nothing. -/
theorem config_lists_refine (config : AppConfig) (hmacs : ValidMacs config.allowedMacs)
    (hids : (config.deviceNames.map AppConfigDeviceName.deviceId).Nodup)
    (hcount : config.deviceNames.length ≤ APP_CONFIG_DEVICE_NAME_MAX_COUNT) (calls : List ListCall) :
    let r := runListCalls ListCall.exec calls config
    let s := runListCalls ListCall.step calls (configLists config hmacs.nodup hids)
    r.1 = s.1 ∧ Represents r.2 s.2 ∧
      (∀ deviceId, appConfigGetSensorName r.2 deviceId =
        ((s.2.names.lookup deviceId).map CString.bytes).getD []) ∧
      ∀ call : ListCall, ((call.exec r.2).1 = false ↔ call.Refused s.2) ∧
        ((call.exec r.2).1 = false → (call.exec r.2).2 = r.2) := by
  have hstart : Represents config (configLists config hmacs.nodup hids) :=
    ⟨rfl, rfl, hmacs.count, hcount, hmacs.canonical⟩
  obtain ⟨hresults, hlists⟩ := runListCalls_represents hstart calls
  refine ⟨hresults, hlists, hlists.sensorName, fun call => ?_⟩
  have hcall := exec_refines hlists call
  have hiff : (call.exec (runListCalls ListCall.exec calls config).2).1 = false ↔
      call.Refused (runListCalls ListCall.step calls (configLists config hmacs.nodup hids)).2 := by
    rw [hcall.result, ListCall.step]
    split
    · exact iff_of_true rfl ‹_›
    · exact iff_of_false (fun h => by cases h) ‹_›
  exact ⟨hiff, fun hfalse => hcall.refused (hiff.1 hfalse)⟩

/-- A list with an address and a name. -/
def listedConfig : AppConfig := { appConfigDefaults with
  allowedMacs := [.copy _ (ascii "A4C138000001")]
  deviceNames := [⟨7, .copy _ (ascii "Room")⟩] }

def listedCalls : List ListCall :=
  [.setAllowedMac (ascii "a4-c1-38 00:00:02") true, .setAllowedMac (ascii "A4C138000001") false,
    .setAllowedMac (ascii "A4C1") true,
    .setDeviceName 7 (ascii " \t"), .setDeviceName 9 (ascii " Hall ")]

theorem listedConfig_macs : ValidMacs listedConfig.allowedMacs where
  count := by decide
  canonical m hm := by
    rw [List.mem_singleton.1 hm]
    exact ⟨by decide +kernel, by decide +kernel⟩
  nodup := List.nodup_singleton _

theorem config_lists_refine_listed :
    (runListCalls ListCall.exec listedCalls listedConfig).1 = [true, true, false, true, true] ∧
      Represents (runListCalls ListCall.exec listedCalls listedConfig).2
        (runListCalls ListCall.step listedCalls
          (configLists listedConfig listedConfig_macs.nodup (by decide))).2 := by
  obtain ⟨hresults, hlists, -⟩ :=
    config_lists_refine listedConfig listedConfig_macs (by decide) (by decide) listedCalls
  rw [hresults]
  exact ⟨by decide +kernel, hlists⟩

end BLEBridge
