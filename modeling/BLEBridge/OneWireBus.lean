import Mathlib.Data.Finset.Filter
import Mathlib.Data.Fintype.Pi
import Mathlib.Logic.Function.Iterate
import BLEBridge.Lib.Bytes
/-!
# The 1-Wire bus

`onewire_bus.c`: the search for devices, over a bus that is the wired AND of its
devices. A device answers a reset, takes the next eight bits as a command, and
after a search command answers each step with its current bit and then its
complement, and drops out when the master writes the other bit.
-/
open Lib

namespace BLEBridge

abbrev ONEWIRE_ROM_SIZE : Nat := 8

instance : NeZero ONEWIRE_ROM_SIZE := ⟨Nat.succ_ne_zero 7⟩

/-- The eight bytes of a ROM code. -/
abbrev Rom := Fin ONEWIRE_ROM_SIZE → UInt8

def DS18B20_FAMILY_CODE : UInt8 := 0x28
def DS18B20_CMD_SEARCH_ROM : UInt8 := 0xF0

/-- Bit `i` of a ROM code as it is sent, each byte from its lowest bit. -/
def romBit (rom : Rom) (i : Nat) : Bool := (rom (Fin.ofNat 8 (i / 8))).toNat.testBit (i % 8)

/-! ## The devices -/

/-- Where the devices are: receiving a command, in one of the three parts of a
search step, or waiting for a reset. -/
inductive BusPhase where
  | command (received : List Bool)
  | bit (i : Nat)
  | complement (i : Nat)
  | direction (i : Nat)
  | silent

/-- `active` are the devices that take part in the search. -/
structure OneWireBus where
  devices : Finset Rom
  active : Finset Rom
  phase : BusPhase

def OneWireBus.of (devices : Finset Rom) : OneWireBus := ⟨devices, ∅, .silent⟩

/-- Whether a device is present. -/
def onewireReset (bus : OneWireBus) : Bool × OneWireBus :=
  (decide (bus.devices ≠ ∅), { bus with active := bus.devices, phase := .command [] })

/-- The line is one when nobody pulls it down. A device sends a zero, or the
complement of a one, by pulling it down. -/
def onewireReadBit (bus : OneWireBus) : Bool × OneWireBus :=
  match bus.phase with
  | .bit i =>
    (decide ((bus.active.filter fun rom => romBit rom i = false) = ∅), { bus with phase := .complement i })
  | .complement i =>
    (decide ((bus.active.filter fun rom => romBit rom i = true) = ∅), { bus with phase := .direction i })
  | _ => (true, bus)

/-- The byte whose bits were received, the lowest first. -/
def bitsToByte (bits : List Bool) : UInt8 := bits.foldr (fun bit byte => 2 * byte + if bit then 1 else 0) 0

def onewireWriteBit (bit : Bool) (bus : OneWireBus) : OneWireBus :=
  match bus.phase with
  | .command received =>
    let received := received ++ [bit]
    { bus with phase :=
        if received.length < 8 then .command received
        else if bitsToByte received = DS18B20_CMD_SEARCH_ROM then .bit 0
        else .silent }
  | .direction i => { bus with
      active := bus.active.filter fun rom => romBit rom i = bit
      phase := .bit (i + 1) }
  | _ => { bus with phase := .silent }

def onewireWriteByte (value : UInt8) (bus : OneWireBus) : OneWireBus :=
  (List.range 8).foldl (fun bus i => onewireWriteBit (value &&& ((1 : UInt8) <<< UInt8.ofNat i) ≠ 0) bus) bus

/-! ## The search -/

/-- One bit of `onewire_crc8`, on `crc` and `inbyte`. -/
def crc8Bit (state : UInt8 × UInt8) : UInt8 × UInt8 :=
  let mix := (state.1 ^^^ state.2) &&& 1
  let crc := state.1 >>> 1
  (if mix ≠ 0 then crc ^^^ 0x8C else crc, state.2 >>> 1)

def crc8Byte (crc inbyte : UInt8) : UInt8 := (crc8Bit^[8] (crc, inbyte)).1

def onewireCrc8 (data : Bytes) : UInt8 := data.foldl crc8Byte 0

/-- The variables of the loop of `onewire_search_next`. -/
structure SearchLoop where
  rom : Rom
  romByteNumber : Nat
  romByteMask : UInt8
  idBitNumber : Nat
  lastZero : Nat
  bus : OneWireBus

/-- The body of the loop; `none` when no device answers. -/
def searchStep (lastDiscrepancy : Nat) (s : SearchLoop) : Option SearchLoop :=
  let (idBit, bus) := onewireReadBit s.bus
  let (cmpIdBit, bus) := onewireReadBit bus
  if idBit && cmpIdBit then none
  else
    let byte := s.rom (Fin.ofNat 8 s.romByteNumber)
    let searchDirection :=
      if idBit ≠ cmpIdBit then idBit
      else if s.idBitNumber < lastDiscrepancy then decide (byte &&& s.romByteMask ≠ 0)
      else decide (s.idBitNumber = lastDiscrepancy)
    let lastZero := if idBit = cmpIdBit ∧ searchDirection = false then s.idBitNumber else s.lastZero
    let rom := Function.update s.rom (Fin.ofNat 8 s.romByteNumber)
      (if searchDirection then byte ||| s.romByteMask else byte &&& ~~~s.romByteMask)
    let mask := s.romByteMask <<< 1
    some {
      rom := rom
      romByteNumber := if mask = 0 then s.romByteNumber + 1 else s.romByteNumber
      romByteMask := if mask = 0 then 1 else mask
      idBitNumber := s.idBitNumber + 1
      lastZero := lastZero
      bus := onewireWriteBit searchDirection bus }

/-- The loop, in at most `fuel` rounds: `none` when they do not suffice, else
whether it ran to its end. -/
def searchLoop (lastDiscrepancy : Nat) : Nat → SearchLoop → Option (Bool × SearchLoop)
  | 0, _ => none
  | fuel + 1, s =>
    match searchStep lastDiscrepancy s with
    | none => some (false, s)
    | some s' =>
      if s'.romByteNumber < ONEWIRE_ROM_SIZE then searchLoop lastDiscrepancy fuel s' else some (true, s')

/-- What `onewire_search_next` keeps from one call to the next. -/
structure SearchState where
  rom : Rom
  lastDiscrepancy : Nat
  lastDevice : Bool
  bus : OneWireBus

/-- A code the search returns. -/
def romAccepted (rom : Rom) : Bool := onewireCrc8 (List.ofFn rom) = 0 && rom 0 = DS18B20_FAMILY_CODE

def onewireSearchNext (s : SearchState) : Option (Bool × SearchState) :=
  if s.lastDevice then some (false, s)
  else
    let (present, bus) := onewireReset s.bus
    if present = false then some (false, { s with bus := bus })
    else
      let bus := onewireWriteByte DS18B20_CMD_SEARCH_ROM bus
      match searchLoop s.lastDiscrepancy 64 ⟨s.rom, 0, 1, 1, 0, bus⟩ with
      | none => none
      | some (false, loop) => some (false, { s with rom := loop.rom, bus := loop.bus })
      | some (true, loop) =>
        some (romAccepted loop.rom, ⟨loop.rom, loop.lastZero, decide (loop.lastZero = 0), loop.bus⟩)

/-- The loop of `onewire_bus_search` with room for `capacity` more codes. -/
def busSearchLoop : Nat → SearchState → Option (List Rom)
  | 0, _ => some []
  | capacity + 1, s =>
    match onewireSearchNext s with
    | none => none
    | some (false, _) => some []
    | some (true, s') => (busSearchLoop capacity s').map (s'.rom :: ·)

/-- The codes found, in order; the count returned is their number. -/
def onewireBusSearch (bus : OneWireBus) (capacity : Nat) : Option (List Rom) :=
  busSearchLoop capacity ⟨fun _ => 0, 0, false, bus⟩

/-- `onewire_bus_device_id` -/
def onewireBusDeviceId (rom : Rom) : UInt32 :=
  (rom 3).toUInt32 <<< 24 ||| (rom 4).toUInt32 <<< 16 ||| (rom 5).toUInt32 <<< 8 ||| (rom 6).toUInt32

end BLEBridge
