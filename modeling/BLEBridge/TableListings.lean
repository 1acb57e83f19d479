import BLEBridge.BleScanner
import BLEBridge.JsonEscape
import BLEBridge.MeasurementStore
import BLEBridge.NarodmonPayload
import BLEBridge.OneWireSource
/-!
# The table listings

`ble_scanner_write_devices_json`, `measurement_store_write_json` and
`onewire_source_write_devices_json`: the objects of the entries in use, in table
order, up to the first that does not fit.
-/
open Lib

namespace BLEBridge

section
variable {E : Type} (inUse : E → Bool) (object : E → Bytes) (insertLen : Nat)

/-- The loop over a table, from the text written so far: the length returned, and the
text in the buffer, where the object that does not fit is cut. -/
def writeObjects : List E → Bool → Bytes → UInt16 × Bytes
  | [], _, text => (UInt16.ofNat text.length, text)
  | entry :: entries, first, text =>
    if !inUse entry then writeObjects entries first text
    else
      let print := (if first then [] else ascii ",") ++ object entry
      if print.length ≥ insertLen - text.length then
        (UInt16.ofNat text.length, text ++ print.take (insertLen - text.length - 1))
      else writeObjects entries false (text ++ print)

end

/-! ## The BLE devices -/

def bleDeviceIdToDisplay (deviceId : UInt32) : Nat := deviceId.toNat % 1000000

def formatBleAddress (bufferSize : Nat) (address : BdAddr) : CString bufferSize :=
  .copy _ (List.intercalate (ascii ":") (address.toList.map hex2))

/-- `age_ms` of an entry. -/
def entryAgeMs (nowMs lastSeenMs : UInt32) : UInt32 := if nowMs ≥ lastSeenMs then nowMs - lastSeenMs else 0

def bleDeviceJson (config : AppConfig) (nowMs : UInt32) (entry : BleDeviceEntry) : Bytes :=
  let mac := formatBleAddress 18 entry.address
  let name := appConfigGetSensorName config entry.deviceId
  let escapedName := appTextJsonEscape (APP_CONFIG_DEVICE_NAME_LEN * 2) name
  let escapedBthomeData := appTextJsonEscape (BLE_DEVICE_BTHOME_DATA_MAX_LEN * 2) entry.bthomeData.bytes
  ascii "\x7b\"id\":\"" ++ padded 6 (bleDeviceIdToDisplay entry.deviceId) ++
    ascii "\",\"device_id\":" ++ decimal entry.deviceId.toNat ++
    ascii ",\"name\":\"" ++ escapedName ++
    ascii "\",\"mac\":\"" ++ mac.bytes ++
    ascii "\",\"bthome_data\":\"" ++ escapedBthomeData ++
    ascii "\",\"rssi\":" ++ signedDecimal entry.rssi.toInt ++
    ascii ",\"age_ms\":" ++ decimal (entryAgeMs nowMs entry.lastSeenMs).toNat ++
    ascii ",\"selected\":" ++ (if entry.selected then ascii "true" else ascii "false") ++ ascii "\x7d"

def bleScannerWriteDevicesJson {n : Nat} (config : AppConfig) (nowMs : UInt32) (table : BleDeviceTable n)
    (insertLen : Nat) : UInt16 × Bytes :=
  writeObjects (·.inUse) (bleDeviceJson config nowMs) insertLen ((List.finRange n).map table) true []

/-! ## The measurements -/

section
variable {V : Type} (fixed : Nat → V → Bytes)

def measurementJson (config : AppConfig) (entry : MeasurementViewEntry V) : Bytes :=
  let name := appConfigGetSensorName config entry.deviceId
  let escapedName := appTextJsonEscape (APP_CONFIG_DEVICE_NAME_LEN * 2) name
  ascii "\x7b\"id\":\"" ++ padded 6 (measurementDeviceIdToDisplay entry.deviceId) ++
    ascii "\",\"name\":\"" ++ escapedName ++
    ascii "\",\"field_type\":\"" ++ measurementFieldName entry.fieldType ++
    ascii "\",\"average_value\":" ++ fixed 3 entry.averageValue ++
    ascii ",\"sample_count\":" ++ decimal entry.sampleCount.toNat ++ ascii "\x7d"

def measurementStoreWriteJson (config : AppConfig) (view : MeasurementView V) (insertLen : Nat) :
    UInt16 × Bytes :=
  writeObjects (·.inUse) (measurementJson fixed config) insertLen
    ((List.finRange MEASUREMENT_STORE_VIEW_SIZE).map view) true []

/-! ## The 1-Wire devices -/

def onewireFormatRom (bufferSize : Nat) (rom : Rom) : CString bufferSize :=
  .copy _ (hexText [rom 7, rom 6, rom 5, rom 4, rom 3, rom 2, rom 1, rom 0])

def onewireDeviceJson (config : AppConfig) (nowMs : UInt32) (entry : OneWireDevice V) : Bytes :=
  let rom := onewireFormatRom 17 entry.rom
  let name := appConfigGetSensorName config entry.deviceId
  let escapedName := appTextJsonEscape (APP_CONFIG_DEVICE_NAME_LEN * 2) name
  ascii "\x7b\"id\":\"" ++ padded 6 (entry.deviceId.toNat % 1000000) ++
    ascii "\",\"device_id\":" ++ decimal entry.deviceId.toNat ++
    ascii ",\"name\":\"" ++ escapedName ++
    ascii "\",\"gpio\":" ++ decimal entry.gpio.toNat ++
    ascii ",\"rom\":\"" ++ rom.bytes ++
    ascii "\",\"temperature\":" ++ fixed 3 entry.temperatureC ++
    ascii ",\"temperature_valid\":" ++ (if entry.validTemperature then ascii "true" else ascii "false") ++
    ascii ",\"present\":" ++ (if entry.present then ascii "true" else ascii "false") ++
    ascii ",\"age_ms\":" ++ decimal (entryAgeMs nowMs entry.lastSeenMs).toNat ++
    ascii ",\"error_count\":" ++ decimal entry.errorCount.toNat ++ ascii "\x7d"

def onewireSourceWriteDevicesJson (config : AppConfig) (nowMs : UInt32) (devices : OneWireDevices V)
    (insertLen : Nat) : UInt16 × Bytes :=
  writeObjects (·.inUse) (onewireDeviceJson fixed config nowMs) insertLen
    ((List.finRange ONEWIRE_DEVICE_TABLE_SIZE).map devices) true []

end

/-! ## The loop -/

/-- The first `k` objects are listed, up to the first one that does not fit. -/
structure ListsFirst (insertLen : Nat) (objects : List Bytes) (k : Nat) (r : UInt16 × Bytes) : Prop where
  le : k ≤ objects.length
  length : r.1.toNat = (Json.joined (objects.take k)).length
  fits : r.1.toNat < insertLen
  text : r.2.take r.1.toNat = Json.joined (objects.take k)
  next : k < objects.length → insertLen ≤ (Json.joined (objects.take (k + 1))).length

section
variable {E : Type} {inUse : E → Bool} {object : E → Bytes} {insertLen : Nat}

theorem joined_print (done : List Bytes) (text : Bytes) :
    Json.joined done ++ ((if done.isEmpty then [] else ascii ",") ++ text) = Json.joined (done ++ [text]) := by
  by_cases h : done = []
  · rw [h]
    simp
  · rw [Json.joined_concat h, List.isEmpty_eq_false_iff.2 h]
    rfl

/-- The loop ends here: `objects` are those of the whole table, `done` those written. -/
theorem listsFirst_done {objects done : List Bytes}
    (rest : List Bytes) (residue : Bytes) (hobjects : objects = done ++ rest)
    (hfits : (Json.joined done).length < insertLen) (hmax : insertLen ≤ 65535)
    (hnext : ∀ text later, rest = text :: later → insertLen ≤ (Json.joined (done ++ [text])).length) :
    ListsFirst insertLen objects done.length
      (UInt16.ofNat (Json.joined done).length, Json.joined done ++ residue) := by
  have hlen : (UInt16.ofNat (Json.joined done).length).toNat = (Json.joined done).length := by
    rw [UInt16.toNat_ofNat']
    omega
  have htake : objects.take done.length = done := by rw [hobjects, List.take_left]
  refine ⟨?_, ?_, ?_, ?_, fun hlt => ?_⟩
  · rw [hobjects, List.length_append]
    exact Nat.le_add_right _ _
  · rw [htake, hlen]
  · rwa [hlen]
  · rw [hlen, List.take_left, htake]
  · cases rest with
    | nil =>
      rw [hobjects, List.append_nil] at hlt
      exact absurd hlt (lt_irrefl _)
    | cons text later =>
      have hsucc : objects.take (done.length + 1) = done ++ [text] := by
        rw [hobjects, List.take_length_add_append]
        rfl
      rw [hsucc]
      exact hnext text later rfl

theorem writeObjects_lists (hmax : insertLen ≤ 65535) (entries : List E) (done : List Bytes)
    (hfits : (Json.joined done).length < insertLen) :
    ∃ k, ListsFirst insertLen (done ++ (entries.filter inUse).map object) k
      (writeObjects inUse object insertLen entries done.isEmpty (Json.joined done)) := by
  induction entries generalizing done with
  | nil =>
    rw [List.filter_nil, List.map_nil]
    refine ⟨done.length, ?_⟩
    have hlists := listsFirst_done [] [] rfl hfits hmax fun _ _ h => by cases h
    rw [List.append_nil (Json.joined done)] at hlists
    exact hlists
  | cons entry entries ih =>
    rw [writeObjects]
    cases hu : inUse entry with
    | false =>
      rw [List.filter_cons_of_neg (by rw [hu]; exact Bool.false_ne_true)]
      exact ih done hfits
    | true =>
      rw [List.filter_cons_of_pos hu, List.map_cons]
      dsimp only
      rw [if_neg (by simp)]
      have hprint := joined_print done (object entry)
      generalize (if done.isEmpty then [] else ascii ",") ++ object entry = print at hprint ⊢
      have hlength := congrArg List.length hprint
      rw [List.length_append] at hlength
      split
      · -- the object does not fit, and ends the loop
        rename_i hfull
        refine ⟨done.length, listsFirst_done _ _ rfl hfits hmax fun text later hrest => ?_⟩
        injection hrest with htext
        rw [← htext, ← hlength]
        omega
      · rename_i hroom
        have hisEmpty : (done ++ [object entry]).isEmpty = false := by simp
        rw [hprint, ← hisEmpty, List.append_cons]
        exact ih (done ++ [object entry]) (by omega)

end

/-- What a listing should be: the text of the length returned lists the first objects, as
far as they fit, and is an array of what they denote when put in brackets. -/
def JsonListing {E : Type} (insertLen : Nat) (entries : List E) (object : E → Bytes) (value : E → Json.Value)
    (r : UInt16 × Bytes) : Prop :=
  ∃ k, ListsFirst insertLen (entries.map object) k r ∧
    Json.Denotes (91 :: r.2.take r.1.toNat ++ [93]) (.array ((entries.take k).map value))

theorem writeObjects_listing {E : Type} {inUse : E → Bool} {object : E → Bytes} {value : E → Json.Value}
    {insertLen : Nat} (hpos : 0 < insertLen) (hmax : insertLen ≤ 65535) (entries : List E)
    (h : ∀ e ∈ entries.filter inUse, Json.Denotes (object e) (value e)) :
    JsonListing insertLen (entries.filter inUse) object value
      (writeObjects inUse object insertLen entries true []) := by
  obtain ⟨k, hk⟩ := @writeObjects_lists E inUse object insertLen hmax entries [] hpos
  change ListsFirst insertLen ((entries.filter inUse).map object) k
    (writeObjects inUse object insertLen entries true []) at hk
  refine ⟨k, hk, ?_⟩
  rw [hk.text, ← List.map_take]
  exact Json.denotes_joined fun e he => h e (List.mem_of_mem_take he)

/-! ## What the objects denote -/

section
variable {V : Type} (fixed : Nat → V → Bytes)

def bleDeviceMembers (config : AppConfig) (nowMs : UInt32) (entry : BleDeviceEntry) : List Json.Member := [
  .string (ascii "id") (padded 6 (bleDeviceIdToDisplay entry.deviceId))
    (padded 6 (bleDeviceIdToDisplay entry.deviceId)),
  .number (ascii "device_id") (decimal entry.deviceId.toNat),
  .string (ascii "name") (Json.escape (appConfigGetSensorName config entry.deviceId))
    (Json.kept (appConfigGetSensorName config entry.deviceId)),
  .string (ascii "mac") (formatBleAddress 18 entry.address).bytes (formatBleAddress 18 entry.address).bytes,
  .string (ascii "bthome_data") (Json.escape entry.bthomeData.bytes) (Json.kept entry.bthomeData.bytes),
  .number (ascii "rssi") (signedDecimal entry.rssi.toInt),
  .number (ascii "age_ms") (decimal (entryAgeMs nowMs entry.lastSeenMs).toNat),
  .bool (ascii "selected") entry.selected]

def measurementMembers (config : AppConfig) (entry : MeasurementViewEntry V) : List Json.Member := [
  .string (ascii "id") (padded 6 (measurementDeviceIdToDisplay entry.deviceId))
    (padded 6 (measurementDeviceIdToDisplay entry.deviceId)),
  .string (ascii "name") (Json.escape (appConfigGetSensorName config entry.deviceId))
    (Json.kept (appConfigGetSensorName config entry.deviceId)),
  .string (ascii "field_type") (measurementFieldName entry.fieldType) (measurementFieldName entry.fieldType),
  .number (ascii "average_value") (fixed 3 entry.averageValue),
  .number (ascii "sample_count") (decimal entry.sampleCount.toNat)]

def onewireDeviceMembers (config : AppConfig) (nowMs : UInt32) (entry : OneWireDevice V) : List Json.Member := [
  .string (ascii "id") (padded 6 (entry.deviceId.toNat % 1000000)) (padded 6 (entry.deviceId.toNat % 1000000)),
  .number (ascii "device_id") (decimal entry.deviceId.toNat),
  .string (ascii "name") (Json.escape (appConfigGetSensorName config entry.deviceId))
    (Json.kept (appConfigGetSensorName config entry.deviceId)),
  .number (ascii "gpio") (decimal entry.gpio.toNat),
  .string (ascii "rom") (onewireFormatRom 17 entry.rom).bytes (onewireFormatRom 17 entry.rom).bytes,
  .number (ascii "temperature") (fixed 3 entry.temperatureC),
  .bool (ascii "temperature_valid") entry.validTemperature,
  .bool (ascii "present") entry.present,
  .number (ascii "age_ms") (decimal (entryAgeMs nowMs entry.lastSeenMs).toNat),
  .number (ascii "error_count") (decimal entry.errorCount.toNat)]

/-- The buffer has two bytes for each byte of a name. -/
theorem name_roomy (config : AppConfig) (deviceId : UInt32) :
    2 * (appConfigGetSensorName config deviceId).length < APP_CONFIG_DEVICE_NAME_LEN * 2 := by
  have hlen : APP_CONFIG_DEVICE_NAME_LEN = 65 := rfl
  unfold appConfigGetSensorName
  split
  · rename_i entry _
    have hfits := entry.name.fits
    omega
  · rw [List.length_nil]
    omega

theorem bleDeviceJson_eq (config : AppConfig) (nowMs : UInt32) (entry : BleDeviceEntry) :
    bleDeviceJson config nowMs entry = Json.objectText (bleDeviceMembers config nowMs entry) := by
  have hdata : 2 * entry.bthomeData.bytes.length < BLE_DEVICE_BTHOME_DATA_MAX_LEN * 2 := by
    have hfits := entry.bthomeData.fits
    have hlen : BLE_DEVICE_BTHOME_DATA_MAX_LEN = 128 := rfl
    omega
  unfold bleDeviceJson
  dsimp only
  rw [jsonEscape_roomy (name_roomy _ _), jsonEscape_roomy hdata]
  simp [bleDeviceMembers, ascii]

theorem measurementJson_eq (config : AppConfig) (entry : MeasurementViewEntry V) :
    measurementJson fixed config entry = Json.objectText (measurementMembers fixed config entry) := by
  unfold measurementJson
  dsimp only
  rw [jsonEscape_roomy (name_roomy _ _)]
  simp [measurementMembers, ascii]

theorem onewireDeviceJson_eq (config : AppConfig) (nowMs : UInt32) (entry : OneWireDevice V) :
    onewireDeviceJson fixed config nowMs entry =
      Json.objectText (onewireDeviceMembers fixed config nowMs entry) := by
  unfold onewireDeviceJson
  dsimp only
  rw [jsonEscape_roomy (name_roomy _ _)]
  simp [onewireDeviceMembers, ascii]

end

/-! ## Every object denotes one -/

theorem plain_fieldName (fieldType : MeasurementField) :
    ∀ b ∈ measurementFieldName fieldType, 0x20 ≤ b ∧ Json.special b = false := by
  cases fieldType <;> decide +kernel

theorem plain_copy_hex {cap : Nat} {s : Bytes} (h : ∀ b ∈ s, b = 58 ∨ isxdigit b = true) :
    ∀ b ∈ (CString.copy cap s).bytes, 0x20 ≤ b ∧ Json.special b = false := by
  intro b hb
  rcases h b ((copy_sublist cap s).subset hb) with rfl | hx
  · decide
  · exact Json.plain_of_isxdigit b hx

theorem mem_intercalate {sep : Bytes} {texts : List Bytes} {b : UInt8} (h : b ∈ List.intercalate sep texts) :
    b ∈ sep ∨ ∃ t ∈ texts, b ∈ t := by
  induction texts with
  | nil => cases h
  | cons text texts ih =>
    cases texts with
    | nil =>
      rw [List.intercalate_singleton] at h
      exact .inr ⟨text, List.mem_cons_self, h⟩
    | cons next texts =>
      rw [List.intercalate_cons_cons] at h
      rcases List.mem_append.1 h with h | h
      · rcases List.mem_append.1 h with h | h
        · exact .inr ⟨text, List.mem_cons_self, h⟩
        · exact .inl h
      · rcases ih h with hsep | ⟨t, ht, hbt⟩
        · exact .inl hsep
        · exact .inr ⟨t, List.mem_cons_of_mem _ ht, hbt⟩

theorem plain_address (bufferSize : Nat) (address : BdAddr) :
    ∀ b ∈ (formatBleAddress bufferSize address).bytes, 0x20 ≤ b ∧ Json.special b = false := by
  refine plain_copy_hex fun b hb => ?_
  rcases mem_intercalate hb with hsep | ⟨t, ht, hbt⟩
  · exact .inl (List.mem_singleton.1 hsep)
  · obtain ⟨a, -, rfl⟩ := List.mem_map.1 ht
    have hhex : b ∈ hexText [a] := by rwa [hexText, List.flatMap_singleton]
    exact .inr (hexUpper_hexText b hhex).1

theorem plain_rom (bufferSize : Nat) (rom : Rom) :
    ∀ b ∈ (onewireFormatRom bufferSize rom).bytes, 0x20 ≤ b ∧ Json.special b = false :=
  plain_copy_hex fun b hb => .inr (hexUpper_hexText b hb).1

theorem unescape_padded (width n : Nat) : Json.unescape (padded width n) = some (padded width n) :=
  Json.unescape_self fun b hb => Json.plain_of_isdigit b (Json.isdigit_padded width n b hb)

theorem bleDevice_denotes (config : AppConfig) (nowMs : UInt32) (entry : BleDeviceEntry) :
    Json.Denotes (bleDeviceJson config nowMs entry) (Json.objectValue (bleDeviceMembers config nowMs entry)) := by
  rw [bleDeviceJson_eq]
  apply Json.denotes_objectText
  simp only [bleDeviceMembers, List.forall_mem_cons]
  refine ⟨.ofString (by decide +kernel) (unescape_padded _ _),
    .ofNumber (by decide +kernel) (Json.isNumber_decimal _),
    .ofString (by decide +kernel) (Json.unescape_escape _),
    .ofString (by decide +kernel) (Json.unescape_self (plain_address _ _)),
    .ofString (by decide +kernel) (Json.unescape_escape _),
    .ofNumber (by decide +kernel) (Json.isNumber_signedDecimal _),
    .ofNumber (by decide +kernel) (Json.isNumber_decimal _), .ofBool (by decide +kernel) _, ?_⟩
  intro m hm
  cases hm

section
variable {V : Type} {fixed : Nat → V → Bytes}

theorem measurement_denotes (config : AppConfig) {entry : MeasurementViewEntry V}
    (h : Json.IsNumber (fixed 3 entry.averageValue)) :
    Json.Denotes (measurementJson fixed config entry)
      (Json.objectValue (measurementMembers fixed config entry)) := by
  rw [measurementJson_eq]
  apply Json.denotes_objectText
  simp only [measurementMembers, List.forall_mem_cons]
  refine ⟨.ofString (by decide +kernel) (unescape_padded _ _),
    .ofString (by decide +kernel) (Json.unescape_escape _),
    .ofString (by decide +kernel) (Json.unescape_self (plain_fieldName _)), .ofNumber (by decide +kernel) h,
    .ofNumber (by decide +kernel) (Json.isNumber_decimal _), ?_⟩
  intro m hm
  cases hm

theorem onewireDevice_denotes (config : AppConfig) (nowMs : UInt32) {entry : OneWireDevice V}
    (h : Json.IsNumber (fixed 3 entry.temperatureC)) :
    Json.Denotes (onewireDeviceJson fixed config nowMs entry)
      (Json.objectValue (onewireDeviceMembers fixed config nowMs entry)) := by
  rw [onewireDeviceJson_eq]
  apply Json.denotes_objectText
  simp only [onewireDeviceMembers, List.forall_mem_cons]
  refine ⟨.ofString (by decide +kernel) (unescape_padded _ _),
    .ofNumber (by decide +kernel) (Json.isNumber_decimal _),
    .ofString (by decide +kernel) (Json.unescape_escape _),
    .ofNumber (by decide +kernel) (Json.isNumber_decimal _),
    .ofString (by decide +kernel) (Json.unescape_self (plain_rom _ _)), .ofNumber (by decide +kernel) h,
    .ofBool (by decide +kernel) _, .ofBool (by decide +kernel) _,
    .ofNumber (by decide +kernel) (Json.isNumber_decimal _),
    .ofNumber (by decide +kernel) (Json.isNumber_decimal _), ?_⟩
  intro m hm
  cases hm

/-- Each of the three listings is a JSON array of the first entries in use, as far as
they fit; `fixed` prints the values that are listed as finite decimals. -/
theorem table_listings_json {n insertLen : Nat}
    (config : AppConfig) (nowMs : UInt32) (table : BleDeviceTable n)
    (view : MeasurementView V) (devices : OneWireDevices V) (hpos : 0 < insertLen) (hmax : insertLen ≤ 65535)
    (hview : ∀ i, (view i).inUse = true → Json.IsNumber (fixed 3 (view i).averageValue))
    (hdevices : ∀ i, (devices i).inUse = true → Json.IsNumber (fixed 3 (devices i).temperatureC)) :
    JsonListing insertLen (((List.finRange n).map table).filter (·.inUse)) (bleDeviceJson config nowMs)
        (fun e => Json.objectValue (bleDeviceMembers config nowMs e))
        (bleScannerWriteDevicesJson config nowMs table insertLen) ∧
      JsonListing insertLen (((List.finRange MEASUREMENT_STORE_VIEW_SIZE).map view).filter (·.inUse))
        (measurementJson fixed config)
        (fun e => Json.objectValue (measurementMembers fixed config e))
        (measurementStoreWriteJson fixed config view insertLen) ∧
      JsonListing insertLen (((List.finRange ONEWIRE_DEVICE_TABLE_SIZE).map devices).filter (·.inUse))
        (onewireDeviceJson fixed config nowMs)
        (fun e => Json.objectValue (onewireDeviceMembers fixed config nowMs e))
        (onewireSourceWriteDevicesJson fixed config nowMs devices insertLen) := by
  refine ⟨writeObjects_listing hpos hmax _ fun e _ => bleDevice_denotes config nowMs e,
    writeObjects_listing hpos hmax _ fun e he => ?_,
    writeObjects_listing hpos hmax _ fun e he => ?_⟩
  · obtain ⟨hmem, hu⟩ := List.mem_filter.1 he
    obtain ⟨i, -, rfl⟩ := List.mem_map.1 hmem
    exact measurement_denotes config (hview i hu)
  · obtain ⟨hmem, hu⟩ := List.mem_filter.1 he
    obtain ⟨i, -, rfl⟩ := List.mem_map.1 hmem
    exact onewireDevice_denotes config nowMs (hdevices i hu)

end

/-- A sensor with a quote in its name, and one measurement of it. -/
def barConfig : AppConfig := { appConfigDefaults with deviceNames := [⟨7, .copy _ (ascii "12\" bar")⟩] }

def barView : MeasurementView ℚ := fun i => ⟨i.val = 0, 7, .temperature, 43 / 2, 2⟩

def barDevices : OneWireDevices ℚ := fun i => ⟨i.val = 0, true, true, 2, fun _ => 0x28, 7, -1 / 2, 1000, 0⟩

theorem table_listings_json_bar :
    JsonListing 600 (((List.finRange MEASUREMENT_STORE_VIEW_SIZE).map barView).filter (·.inUse))
      (measurementJson fixedText barConfig)
      (fun e => Json.objectValue (measurementMembers fixedText barConfig e))
      (measurementStoreWriteJson fixedText barConfig barView 600) ∧
    JsonListing 600 (((List.finRange ONEWIRE_DEVICE_TABLE_SIZE).map barDevices).filter (·.inUse))
      (onewireDeviceJson fixedText barConfig 5000)
      (fun e => Json.objectValue (onewireDeviceMembers fixedText barConfig 5000 e))
      (onewireSourceWriteDevicesJson fixedText barConfig 5000 barDevices 600) :=
  (table_listings_json barConfig 5000 (fun _ : Fin 1 => .zero) barView barDevices (by decide) (by decide)
    (fun i _ => Json.isNumber_fixedText 3 (barView i).averageValue) fun i _ =>
      Json.isNumber_fixedText 3 (barDevices i).temperatureC).2

end BLEBridge
