import BLEBridge.BleScanner
import BLEBridge.MeasurementStore
/-!
# BTHome advertisements

The parsing of an advertisement in `ble_scanner.c`. The payload is a list of
bytes; a function that reads outside it returns `none`. The offsets are bytes in
the source, so they are computed modulo 256. `fixed` prints a value as `%.*f`.
-/
open Lib

namespace BLEBridge

/-- The constant of the Bluetooth stack. -/
def BLUETOOTH_DATA_TYPE_SERVICE_DATA : UInt8 := 0x16

structure BleParseContext where
  hasMeasurements : Bool
  parsedAny : Bool
  allowMeasurements : Bool

/-- What the parser writes: its context, the entry, and the measurement store. -/
structure BleParse (V : Type) where
  context : BleParseContext
  entry : BleDeviceEntry
  store : MeasurementStore V

/-- `little_endian_read_16` -/
def littleEndian16 (lo hi : UInt8) : UInt16 := UInt16.ofNat (lo.toNat + 256 * hi.toNat)

def littleEndianRead16 (data : Bytes) (position : Nat) : Option UInt16 := do
  let lo ← data[position]?
  let hi ← data[position + 1]?
  return littleEndian16 lo hi

variable {V : Type} [NatCast V] [IntCast V] [Div V] (fixed : Nat → V → Bytes)

def bleDeviceAppendBthomeValue (entry : BleDeviceEntry) (label value : Bytes) : BleDeviceEntry :=
  let currentLen := entry.bthomeData.bytes.length
  if currentLen ≥ BLE_DEVICE_BTHOME_DATA_MAX_LEN - 1 then entry
  else { entry with
    bthomeData := .copy _ (entry.bthomeData.bytes ++
      ((if currentLen = 0 then [] else ascii ", ") ++ label ++ ascii "=" ++ value)) }

def bleMeasurementAppendString (entry : BleDeviceEntry) (fieldType : MeasurementField) (value : V) :
    BleDeviceEntry :=
  match fieldType with
  | .battery =>
    bleDeviceAppendBthomeValue entry (ascii "bat") (CString.copy 24 (fixed 0 value ++ ascii " %")).bytes
  | .temperature =>
    bleDeviceAppendBthomeValue entry (ascii "T") (CString.copy 24 (fixed 2 value ++ ascii " C")).bytes
  | .humidity =>
    bleDeviceAppendBthomeValue entry (ascii "H") (CString.copy 24 (fixed 2 value ++ ascii " %")).bytes
  | _ => entry

def bleBthomeStoreMeasurement (fieldType : MeasurementField) (value : V) (timestampMs : UInt32) (p : BleParse V) :
    Bool × BleParse V :=
  let p := { p with
    entry := bleMeasurementAppendString fixed p.entry fieldType value
    context := { p.context with parsedAny := true } }
  if !p.context.allowMeasurements then (true, p)
  else
    let (added, store) := measurementStoreAdd p.entry.deviceId fieldType value timestampMs p.store
    if !added then (false, { p with store := store })
    else (true, { p with store := store, context := { p.context with hasMeasurements := true } })

/-- The values of the objects as the source computes them. -/
def batteryValue (b : UInt8) : V := (b.toNat : V)

def temperatureValue (raw : UInt16) : V := (raw.toInt16.toInt : V) / ((100 : Nat) : V)

def humidityValue (raw : UInt16) : V := (raw.toNat : V) / ((100 : Nat) : V)

/-- The loop of `ble_parse_bthome_v2`; `field_data` starts at `base`. -/
def bthomeLoop (data : Bytes) (base : Nat) (fieldDataLen : UInt8) (timestampMs : UInt32) (offset : Nat)
    (p : BleParse V) : Option (Bool × BleParse V) :=
  if _h : offset < fieldDataLen.toNat then do
    let objectId ← data[base + offset]?
    let start := (offset + 1) % 256
    if objectId = 0x00 then
      if start + 1 > fieldDataLen.toNat then some (p.context.parsedAny, p)
      else bthomeLoop data base fieldDataLen timestampMs ((start + 1) % 256) p
    else if objectId = 0x01 then
      if start + 1 > fieldDataLen.toNat then some (p.context.parsedAny, p)
      else do
        let b ← data[base + start]?
        let (stored, p) := bleBthomeStoreMeasurement fixed .battery (batteryValue b) timestampMs p
        if !stored then some (p.context.parsedAny, p)
        else bthomeLoop data base fieldDataLen timestampMs ((start + 1) % 256) p
    else if objectId = 0x02 then
      if start + 2 > fieldDataLen.toNat then some (p.context.parsedAny, p)
      else do
        let raw ← littleEndianRead16 data (base + start)
        let (stored, p) := bleBthomeStoreMeasurement fixed .temperature (temperatureValue raw) timestampMs p
        if !stored then some (p.context.parsedAny, p)
        else bthomeLoop data base fieldDataLen timestampMs ((start + 2) % 256) p
    else if objectId = 0x03 then
      if start + 2 > fieldDataLen.toNat then some (p.context.parsedAny, p)
      else do
        let raw ← littleEndianRead16 data (base + start)
        let (stored, p) := bleBthomeStoreMeasurement fixed .humidity (humidityValue raw) timestampMs p
        if !stored then some (p.context.parsedAny, p)
        else bthomeLoop data base fieldDataLen timestampMs ((start + 2) % 256) p
    else some (p.context.parsedAny, p)
  else some (p.context.parsedAny, p)
termination_by fieldDataLen.toNat - offset
decreasing_by all_goals have := fieldDataLen.toNat_lt; omega

def bleParseBthomeV2 (data : Bytes) (base : Nat) (fieldDataLen : UInt8) (timestampMs : UInt32) (p : BleParse V) :
    Option (Bool × BleParse V) :=
  if fieldDataLen < 3 then some (false, p)
  else do
    let info ← data[base + 2]?
    if info &&& 0xE0 ≠ 0x40 then some (false, p)
    else if info &&& 0x01 ≠ 0 then some (false, p)
    else
      bthomeLoop fixed data base fieldDataLen timestampMs 3
        { p with entry := { p.entry with bthomeData := .copy _ [] } }

/-- The two tests on a field whose data starts at `base`. -/
def hasBthomeUuid (data : Bytes) (base : Nat) (fieldType fieldDataLen : UInt8) : Option Bool :=
  if fieldType = BLUETOOTH_DATA_TYPE_SERVICE_DATA ∧ fieldDataLen ≥ 2 then
    (littleEndianRead16 data base).map fun uuid16 => uuid16 = 0xFCD2
  else some false

/-- The loop of `ble_parse_bthome_advertising_data`. -/
def advertisingLoop (address : BdAddr) (data : Bytes) (length : UInt8) (timestampMs : UInt32) (offset : Nat)
    (p : BleParse V) : Option (Bool × BleParse V) :=
  if _h : offset < length.toNat then do
    let fieldLen ← data[offset]?
    if fieldLen = 0 then some (false, p)
    else if _hlen : offset + 1 + fieldLen.toNat > length.toNat then some (false, p)
    else do
      let fieldType ← data[offset + 1]?
      let fieldDataLen := fieldLen - 1
      let isBthome ← hasBthomeUuid data (offset + 2) fieldType fieldDataLen
      if isBthome then
        bleParseBthomeV2 fixed data (offset + 2) fieldDataLen timestampMs
          { p with entry := { p.entry with deviceId := bleAddressToDeviceId address } }
      else advertisingLoop address data length timestampMs ((offset + fieldLen.toNat + 1) % 256) p
  else some (false, p)
termination_by length.toNat - offset
decreasing_by all_goals have := length.toNat_lt; omega

def bleParseBthomeAdvertisingData (allowedMacs : List (CString APP_CONFIG_ALLOWED_MAC_LEN))
    (entry : BleDeviceEntry) (address : BdAddr) (data : Bytes) (length : UInt8) (timestampMs : UInt32)
    (store : MeasurementStore V) :
    Option (Bool × BleDeviceEntry × MeasurementStore V) := do
  let context : BleParseContext := ⟨false, false, bleMacIsAllowed allowedMacs address⟩
  let (returned, p) ← advertisingLoop fixed address data length timestampMs 0
    ⟨context, { entry with bthomeData := .copy _ [] }, store⟩
  return (returned, p.entry, p.store)

/-! ## The packet handler -/

/-- What `GAP_EVENT_ADVERTISING_REPORT` carries; the length of the data is a byte. -/
structure AdvertisingReport where
  address : BdAddr
  addressType : UInt8
  rssi : Int8
  data : Bytes
  fits : data.length < 256

structure BleState (V : Type) where
  scanner : BleScanner
  store : MeasurementStore V

/-- `ble_packet_handler` for an advertising report. -/
def blePacketHandler (report : AdvertisingReport) (nowMs : UInt32) (s : BleState V) :
    Option (BleState V) := do
  let (parsed, scratch, store) ← bleParseBthomeAdvertisingData fixed s.scanner.allowedMacs .zero
    report.address report.data
    (UInt8.ofNat report.data.length) nowMs s.store
  if !parsed then return { s with store := store }
  else
    let table := bleDeviceTableUpdate s.scanner.allowedMacs report.address report.addressType report.rssi
      nowMs s.scanner.table
    let table := match bleDeviceTableFind table report.address report.addressType with
      | some i => Function.update table i { table i with bthomeData := .copy _ scratch.bthomeData.bytes }
      | none => table
    return ⟨{ s.scanner with table := table }, store⟩

end BLEBridge
