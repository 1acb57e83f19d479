import Mathlib.Data.List.FinRange
import BLEBridge.Config
import BLEBridge.Lib.Hex
/-!
# The BLE device table

`ble_scanner.c`: the table of the devices heard lately and of those on the allow
list, which stay in it. The table functions are stated for any number `n` of
slots.
-/
open Lib

namespace BLEBridge

def BLE_DEVICE_TABLE_SIZE : Nat := 128
def BLE_DEVICE_EXPIRY_MS : UInt32 := 60000
def BLE_DEVICE_BTHOME_DATA_MAX_LEN : Nat := 128

/-- `bd_addr_t` -/
abbrev BdAddr := Vector UInt8 6

structure BleDeviceEntry where
  inUse : Bool
  selected : Bool
  address : BdAddr
  deviceId : UInt32
  addressType : UInt8
  rssi : Int8
  bthomeData : CString BLE_DEVICE_BTHOME_DATA_MAX_LEN
  lastSeenMs : UInt32
  deriving DecidableEq

abbrev BleDeviceTable (n : Nat) := Fin n → BleDeviceEntry

/-- What `memset` leaves. -/
def BleDeviceEntry.zero : BleDeviceEntry := ⟨false, false, .replicate 6 0, 0, 0, 0, .copy _ [], 0⟩

/-- The static variables of the module; the allow list is what is in use of its
array. -/
structure BleScanner where
  table : BleDeviceTable BLE_DEVICE_TABLE_SIZE
  allowedMacs : List (CString APP_CONFIG_ALLOWED_MAC_LEN)

theorem ble_table_size_ne_zero : BLE_DEVICE_TABLE_SIZE ≠ 0 := by decide

instance bleDeviceTableNeZero : NeZero BLE_DEVICE_TABLE_SIZE := ⟨ble_table_size_ne_zero⟩

variable {n : Nat}

/-! ## Addresses -/

/-- `none` when the text is not of the length it should have. -/
def bleAddressToNormalizedMac (address : BdAddr) : Option (CString APP_CONFIG_ALLOWED_MAC_LEN) :=
  let text := hexText address.toList
  if text.length = APP_CONFIG_ALLOWED_MAC_LEN - 1 then some (.copy _ text) else none

def bleAddressToDeviceId (address : BdAddr) : UInt32 :=
  address[2].toUInt32 <<< 24 ||| address[3].toUInt32 <<< 16 ||| address[4].toUInt32 <<< 8 ||| address[5].toUInt32

def bleNormalizedMacToAddress (normalizedMac : Bytes) : Option BdAddr :=
  match scanHexBytes 6 normalizedMac with
  | some [b0, b1, b2, b3, b4, b5] => some #v[b0, b1, b2, b3, b4, b5]
  | _ => none

def bleMacIsAllowed (allowedMacs : List (CString APP_CONFIG_ALLOWED_MAC_LEN)) (address : BdAddr) : Bool :=
  match bleAddressToNormalizedMac address with
  | none => false
  | some normalizedMac => allowedMacs.any fun mac => mac = normalizedMac

/-! ## The table -/

def BleDeviceEntry.isDevice (e : BleDeviceEntry) (address : BdAddr) (addressType : UInt8) : Bool :=
  e.inUse && (e.addressType = addressType && e.address = address)

def bleDeviceTableFind (table : BleDeviceTable n) (address : BdAddr) (addressType : UInt8) : Option (Fin n) :=
  (List.finRange n).find? fun i => (table i).isDevice address addressType

def bleDeviceTableFindByMacString (table : BleDeviceTable n)
    (normalizedMac : CString APP_CONFIG_ALLOWED_MAC_LEN) : Option (Fin n) :=
  (List.finRange n).find? fun i => (table i).inUse && bleAddressToNormalizedMac (table i).address =
    some normalizedMac

/-- `free_index` -/
def bleFreeIndex (table : BleDeviceTable n) : Option (Fin n) := (List.finRange n).find? fun i => !(table i).inUse

/-- `oldest_index`, which starts at the first slot. -/
def bleOldestIndex [NeZero n] (table : BleDeviceTable n) : Fin n :=
  (List.finRange n).foldl (fun oldest i =>
    if (table i).inUse && (table i).lastSeenMs < (table oldest).lastSeenMs then i else oldest) 0

def bleDeviceTableUpdate [NeZero n] (allowedMacs : List (CString APP_CONFIG_ALLOWED_MAC_LEN)) (address : BdAddr)
    (addressType : UInt8) (rssi : Int8) (lastSeenMs : UInt32) (table : BleDeviceTable n) : BleDeviceTable n :=
  match bleDeviceTableFind table address addressType with
  | some i => Function.update table i { table i with
      deviceId := bleAddressToDeviceId address
      rssi := rssi
      lastSeenMs := lastSeenMs
      selected := bleMacIsAllowed allowedMacs address }
  | none => Function.update table ((bleFreeIndex table).getD (bleOldestIndex table)) { BleDeviceEntry.zero with
      inUse := true
      address := address
      deviceId := bleAddressToDeviceId address
      addressType := addressType
      rssi := rssi
      lastSeenMs := lastSeenMs
      selected := bleMacIsAllowed allowedMacs address }

/-- The entry for a MAC no report has come from. -/
def placeholder (normalizedMac : CString APP_CONFIG_ALLOWED_MAC_LEN) : BleDeviceEntry :=
  let address := (bleNormalizedMacToAddress normalizedMac.bytes).getD BleDeviceEntry.zero.address
  { BleDeviceEntry.zero with
    inUse := true
    selected := true
    address := address
    deviceId := bleAddressToDeviceId address }

/-- The last loop of `ble_scanner_apply_config`, for one MAC. -/
def trackMac (table : BleDeviceTable n) (normalizedMac : CString APP_CONFIG_ALLOWED_MAC_LEN) : BleDeviceTable n :=
  match bleDeviceTableFindByMacString table normalizedMac with
  | some i => Function.update table i { table i with selected := true }
  | none =>
    match bleFreeIndex table with
    | some slot => Function.update table slot (placeholder normalizedMac)
    | none => table

/-- The second loop of `ble_scanner_apply_config`. -/
def selectAllowed (allowedMacs : List (CString APP_CONFIG_ALLOWED_MAC_LEN)) (table : BleDeviceTable n) :
    BleDeviceTable n :=
  fun i => if (table i).inUse then { table i with selected := bleMacIsAllowed allowedMacs (table i).address }
    else table i

/-- `none` for a null pointer. -/
def bleScannerApplyConfig (config : Option AppConfig) (s : BleScanner) : BleScanner :=
  let allowedMacs := match config with
    | none => []
    | some config => (config.allowedMacs.take APP_CONFIG_ALLOWED_MAC_MAX_COUNT).map fun mac => .copy _ mac.bytes
  ⟨allowedMacs.foldl trackMac (selectAllowed allowedMacs s.table), allowedMacs⟩

/-- One round of the first loop of `ble_scanner_periodic`; the entry is read from
the table that is being compacted. -/
def compactStep (nowMs : UInt32) (state : BleDeviceTable n × Nat) (i : Fin n) : BleDeviceTable n × Nat :=
  let (table, writeIndex) := state
  let entry := table i
  if !entry.inUse then state
  else
    let ageMs := if nowMs ≥ entry.lastSeenMs then nowMs - entry.lastSeenMs else 0
    if entry.selected || ageMs ≤ BLE_DEVICE_EXPIRY_MS then
      (if writeIndex ≠ i.val then fun j => if j.val = writeIndex then entry else table j
        else table, writeIndex + 1)
    else state

def bleTablePeriodic (nowMs : UInt32) (table : BleDeviceTable n) : BleDeviceTable n :=
  let (table, writeIndex) := (List.finRange n).foldl (compactStep nowMs) (table, 0)
  fun j => if writeIndex ≤ j.val then .zero else table j

def bleScannerPeriodic (nowMs : UInt32) (s : BleScanner) : BleScanner :=
  { s with table := bleTablePeriodic nowMs s.table }

def bleScannerInit : BleScanner := ⟨fun _ => .zero, []⟩

end BLEBridge
