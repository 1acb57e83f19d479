import BLEBridge.Lib.Ring
import BLEBridge.OneWireBus
/-!
# The 1-Wire worker

`onewire_worker.c`: core 1 takes one command at a time, works on the bus and
answers. What the bus does during a command is an argument. Temperatures are of
any type with a zero.
-/
open Lib

namespace BLEBridge

def ONEWIRE_GPIO2 : UInt8 := 2
def ONEWIRE_GPIO3 : UInt8 := 3
def ONEWIRE_WORKER_DEVICE_LIMIT : Nat := 16
abbrev ONEWIRE_QUEUE_SLOT_COUNT : Nat := 4

/-- `onewire_command_type_t` -/
inductive OneWireCommandType where
  | start | readnext
  deriving DecidableEq, Repr

/-- `onewire_command_t` -/
structure OneWireCommand where
  type : OneWireCommandType
  gpio : UInt8
  deriving DecidableEq, Repr

/-- `onewire_temperature_event_t` -/
structure OneWireTemperatureEvent (V : Type) where
  gpio : UInt8
  rom : Rom
  deviceId : UInt32
  timestampMs : UInt32
  temperatureC : V
  valid : Bool

/-- `onewire_response_t`; only a temperature has an event. -/
inductive OneWireResponse (V : Type) where
  | startOk
  | startError
  | temperature (event : OneWireTemperatureEvent V)
  | readnextNone

/-- Where the loop of `onewire_worker_main` is: waiting for a command, handling
one, or waiting for room for the response. -/
inductive WorkerPhase (V : Type) where
  | waiting
  | handling (command : OneWireCommand)
  | responding (response : OneWireResponse V)

/-- The static variables of the worker, and its place in the loop. -/
structure OneWireWorker (V : Type) where
  gpio : UInt8
  roms : List Rom
  deviceCount : Nat
  deviceIndex : Nat
  phase : WorkerPhase V

/-- What the bus and the clock give during a command: the codes found by
`onewire_bus_search`, whether `onewire_bus_start_conversion` sees a device, and
what `onewire_bus_read_temperature` reads. -/
structure BusOutcome (V : Type) where
  found : List Rom
  found_le : found.length ≤ ONEWIRE_WORKER_DEVICE_LIMIT
  conversionStarted : Bool
  temperature : Option V
  nowMs : UInt32

variable {V : Type}

def onewireWorkerHandleStart (command : OneWireCommand) (outcome : BusOutcome V) (w : OneWireWorker V) :
    OneWireResponse V × OneWireWorker V :=
  if command.gpio ≠ ONEWIRE_GPIO2 ∧ command.gpio ≠ ONEWIRE_GPIO3 then (.startError, w)
  else
    let w := { w with
      gpio := command.gpio
      deviceIndex := 0
      roms := outcome.found
      deviceCount := outcome.found.length }
    if 0 < w.deviceCount ∧ outcome.conversionStarted = false then (.startError, { w with deviceCount := 0 })
    else (.startOk, w)

def onewireWorkerHandleReadnext [Zero V] (outcome : BusOutcome V) (w : OneWireWorker V) :
    OneWireResponse V × OneWireWorker V :=
  if w.deviceCount ≤ w.deviceIndex then (.readnextNone, w)
  else
    let rom := w.roms.getD w.deviceIndex fun _ => 0
    (.temperature {
      gpio := w.gpio
      rom := rom
      deviceId := onewireBusDeviceId rom
      timestampMs := outcome.nowMs
      temperatureC := outcome.temperature.getD 0
      valid := outcome.temperature.isSome }, { w with deviceIndex := w.deviceIndex + 1 })

end BLEBridge
