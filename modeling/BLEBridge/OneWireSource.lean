import BLEBridge.Config
import BLEBridge.OneWireWorker
/-!
# The 1-Wire source

`onewire_source.c` on core 0, with the queues between it and the worker. The
calls and messages are kept in a log, in order. `onewire_source_periodic` is
taken in pieces, so that the worker can act between them.
-/
open Lib

namespace BLEBridge

abbrev ONEWIRE_BUS_COUNT : Nat := 2
abbrev ONEWIRE_DEVICE_TABLE_SIZE : Nat := 32

/-- `onewire_device_entry_t` -/
structure OneWireDevice (V : Type) where
  inUse : Bool
  present : Bool
  validTemperature : Bool
  gpio : UInt8
  rom : Rom
  deviceId : UInt32
  temperatureC : V
  lastSeenMs : UInt32
  errorCount : UInt32

abbrev OneWireDevices (V : Type) := Fin ONEWIRE_DEVICE_TABLE_SIZE → OneWireDevice V

/-- `onewire_source_state_t` -/
inductive OneWireSourceState where
  | idle | waitStart | waitReadnext
  deriving DecidableEq, Repr

def onewireGpios : Fin ONEWIRE_BUS_COUNT → UInt8 := fun bus => if bus = 0 then ONEWIRE_GPIO2 else ONEWIRE_GPIO3

/-- Where `onewire_source_periodic` is: not running, about to look for a response,
handling one, or past its loop. -/
inductive PeriodicPhase (V : Type) where
  | outside
  | polling (nowMs : UInt32)
  | handling (nowMs : UInt32) (response : OneWireResponse V)
  | finishing (nowMs : UInt32)

/-- A call or message: a command sent by core 0 with the result of the queue, taken
by core 1, the codes a search found, a response sent by core 1 with the result of
the queue, received by core 0, and a temperature handled. -/
inductive OneWireEvent (V : Type) where
  | send (command : OneWireCommand) (ok : Bool)
  | take (command : OneWireCommand)
  | search (gpio : UInt8) (found : List Rom)
  | respond (response : OneWireResponse V) (ok : Bool)
  | receive (response : OneWireResponse V)
  | temperature (event : OneWireTemperatureEvent V)

/-- The static variables of the source, the arguments of its calls of
`measurement_store_add`, the queues, the worker and the log. -/
structure OneWireSystem (V : Type) where
  devices : OneWireDevices V
  busEnabled : Fin ONEWIRE_BUS_COUNT → Bool
  pollIntervalMs : UInt32
  nextPollMs : UInt32
  currentBus : Nat
  state : OneWireSourceState
  measurements : List (UInt32 × V × UInt32)
  commandQueue : Ring OneWireCommand ONEWIRE_QUEUE_SLOT_COUNT
  responseQueue : Ring (OneWireResponse V) ONEWIRE_QUEUE_SLOT_COUNT
  periodic : PeriodicPhase V
  worker : OneWireWorker V
  log : List (OneWireEvent V)

variable {V : Type}

/-! ## The device table -/

def OneWireDevice.zero [Zero V] : OneWireDevice V := ⟨false, false, false, 0, fun _ => 0, 0, 0, 0, 0⟩

/-- Whether the entry is that of the device the event is from. -/
def OneWireDevice.isFrom (entry : OneWireDevice V) (event : OneWireTemperatureEvent V) : Bool :=
  entry.inUse && entry.gpio = event.gpio && entry.rom = event.rom

/-- The loop of `onewire_find_or_alloc_device` over the entries left: the entry
found, or the free and the oldest one. -/
def onewireFindLoop (devices : OneWireDevices V) (event : OneWireTemperatureEvent V) :
    List (Fin ONEWIRE_DEVICE_TABLE_SIZE) → Option (Fin ONEWIRE_DEVICE_TABLE_SIZE) →
      Fin ONEWIRE_DEVICE_TABLE_SIZE →
      Fin ONEWIRE_DEVICE_TABLE_SIZE ⊕ Option (Fin ONEWIRE_DEVICE_TABLE_SIZE) × Fin ONEWIRE_DEVICE_TABLE_SIZE
  | [], freeIndex, oldestIndex => .inr (freeIndex, oldestIndex)
  | i :: rest, freeIndex, oldestIndex =>
    if (devices i).isFrom event then .inl i
    else if (devices i).inUse = false ∧ freeIndex = none then
      onewireFindLoop devices event rest (some i) oldestIndex
    else if (devices i).inUse ∧ (devices i).lastSeenMs < (devices oldestIndex).lastSeenMs then
      onewireFindLoop devices event rest freeIndex i
    else onewireFindLoop devices event rest freeIndex oldestIndex

/-- The entry for the event's device, and the table with it. -/
def onewireFindOrAllocDevice [Zero V] (devices : OneWireDevices V) (event : OneWireTemperatureEvent V) :
    Fin ONEWIRE_DEVICE_TABLE_SIZE × OneWireDevices V :=
  match onewireFindLoop devices event (List.finRange ONEWIRE_DEVICE_TABLE_SIZE) none 0 with
  | .inl i => (i, devices)
  | .inr (freeIndex, oldestIndex) =>
    let i := freeIndex.getD oldestIndex
    (i, Function.update devices i
      { OneWireDevice.zero with inUse := true, gpio := event.gpio, rom := event.rom, deviceId := event.deviceId })

/-! ## The source -/

section
variable [Zero V]

def onewireWorkerSend (command : OneWireCommand) (s : OneWireSystem V) : Bool × OneWireSystem V :=
  match s.commandQueue.tryAdd command with
  | none => (false, { s with log := s.log ++ [.send command false] })
  | some queue => (true, { s with commandQueue := queue, log := s.log ++ [.send command true] })

def onewireWorkerSendStart (gpio : UInt8) (s : OneWireSystem V) : Bool × OneWireSystem V :=
  onewireWorkerSend ⟨.start, gpio⟩ s

def onewireWorkerSendReadnext (s : OneWireSystem V) : Bool × OneWireSystem V := onewireWorkerSend ⟨.readnext, 0⟩ s

def onewireFinishCycle (nowMs : UInt32) (s : OneWireSystem V) : OneWireSystem V :=
  { s with state := .idle, nextPollMs := nowMs + s.pollIntervalMs }

/-- The loop of `onewire_start_next_bus`, over the buses left. -/
def skipDisabled (busEnabled : Fin ONEWIRE_BUS_COUNT → Bool) : Nat → Nat → Nat
  | 0, bus => bus
  | fuel + 1, bus =>
    if bus < ONEWIRE_BUS_COUNT ∧ busEnabled (Fin.ofNat 2 bus) = false then
      skipDisabled busEnabled fuel (bus + 1) else bus

def onewireStartNextBus (nowMs : UInt32) (s : OneWireSystem V) : OneWireSystem V :=
  let s := { s with currentBus := skipDisabled s.busEnabled ONEWIRE_BUS_COUNT s.currentBus }
  if ONEWIRE_BUS_COUNT ≤ s.currentBus then onewireFinishCycle nowMs s
  else
    match onewireWorkerSendStart (onewireGpios (Fin.ofNat 2 s.currentBus)) s with
    | (true, s) => { s with state := .waitStart }
    | (false, s) => { s with state := .idle, nextPollMs := nowMs + 100 }

def onewireFinishBus (nowMs : UInt32) (s : OneWireSystem V) : OneWireSystem V :=
  onewireStartNextBus nowMs { s with currentBus := s.currentBus + 1 }

def onewireHandleTemperature (event : OneWireTemperatureEvent V) (s : OneWireSystem V) : OneWireSystem V :=
  let (i, devices) := onewireFindOrAllocDevice s.devices event
  let entry := { devices i with
    present := true
    lastSeenMs := event.timestampMs
    validTemperature := event.valid }
  let s := { s with log := s.log ++ [OneWireEvent.temperature event] }
  if event.valid then { s with
    devices := Function.update devices i { entry with temperatureC := event.temperatureC }
    measurements := s.measurements ++ [(event.deviceId, event.temperatureC, event.timestampMs)] }
  else { s with devices := Function.update devices i { entry with errorCount := entry.errorCount + 1 } }

def onewireHandleResponse (response : OneWireResponse V) (nowMs : UInt32) (s : OneWireSystem V) :
    OneWireSystem V :=
  match s.state with
  | .waitStart =>
    match response with
    | .startOk =>
      match onewireWorkerSendReadnext s with
      | (true, s) => { s with state := .waitReadnext }
      | (false, s) => onewireFinishBus nowMs s
    | _ => onewireFinishBus nowMs s
  | .waitReadnext =>
    match response with
    | .temperature event =>
      match onewireWorkerSendReadnext (onewireHandleTemperature event s) with
      | (true, s) => s
      | (false, s) => onewireFinishBus nowMs s
    | _ => onewireFinishBus nowMs s
  | .idle => s

/-- The worker starts waiting for commands, with its other variables as they
were. -/
def onewireSourceInit (s : OneWireSystem V) : OneWireSystem V := { s with
  devices := fun _ => .zero
  state := .idle
  nextPollMs := 0xFFFFFFFF
  commandQueue := ⟨fun _ => ⟨.start, 0⟩, 0, 0⟩
  responseQueue := ⟨fun _ => .startOk, 0, 0⟩
  periodic := .outside
  worker := { s.worker with phase := .waiting }
  log := [] }

/-- `bootMs` is the time since boot. -/
def onewireSourceApplyConfig (config : Option AppConfig) (bootMs : UInt32) (s : OneWireSystem V) :
    OneWireSystem V :=
  let seconds := (config.map AppConfig.onewirePollIntervalSeconds).getD
    APP_CONFIG_ONEWIRE_POLL_INTERVAL_DEFAULT_SECONDS
  let busEnabled := match config with
    | some config => fun bus => if bus = 0 then config.onewireGpio2Enabled else config.onewireGpio3Enabled
    | none => s.busEnabled
  let seconds := if seconds < APP_CONFIG_ONEWIRE_POLL_INTERVAL_MIN_SECONDS then
    APP_CONFIG_ONEWIRE_POLL_INTERVAL_MIN_SECONDS else seconds
  let seconds := if seconds > APP_CONFIG_ONEWIRE_POLL_INTERVAL_MAX_SECONDS then
    APP_CONFIG_ONEWIRE_POLL_INTERVAL_MAX_SECONDS else seconds
  { s with
    busEnabled := busEnabled
    pollIntervalMs := seconds * 1000
    nextPollMs := if s.state = .idle then bootMs else s.nextPollMs
    devices := fun i =>
      if (s.devices i).inUse ∧ ((s.devices i).gpio = onewireGpios 0 ∧ busEnabled 0 = false ∨
          (s.devices i).gpio = onewireGpios 1 ∧ busEnabled 1 = false) then
        { s.devices i with present := false }
      else s.devices i }

/-- The part of `onewire_source_periodic` after its loop. -/
def onewireSourceStartCycle (nowMs : UInt32) (s : OneWireSystem V) : OneWireSystem V :=
  if s.state ≠ .idle ∨ 2 ^ 31 ≤ (nowMs - s.nextPollMs).toNat then s
  else
    onewireStartNextBus nowMs { s with
      devices := fun i => if (s.devices i).inUse then { s.devices i with present := false } else s.devices i
      currentBus := 0 }

/-! ## Steps of the cores -/

/-- The next piece of `onewire_source_periodic`. -/
def periodicStep (s : OneWireSystem V) : OneWireSystem V :=
  match s.periodic with
  | .outside => s
  | .polling nowMs =>
    match s.responseQueue.tryRemove with
    | none => { s with periodic := .finishing nowMs }
    | some (response, queue) => { s with
      responseQueue := queue
      periodic := .handling nowMs response
      log := s.log ++ [.receive response] }
  | .handling nowMs response => onewireHandleResponse response nowMs { s with periodic := .polling nowMs }
  | .finishing nowMs => onewireSourceStartCycle nowMs { s with periodic := .outside }

/-- The next piece of the loop of `onewire_worker_main`. -/
def workerStep (outcome : BusOutcome V) (s : OneWireSystem V) : OneWireSystem V :=
  match s.worker.phase with
  | .waiting =>
    match s.commandQueue.tryRemove with
    | none => s
    | some (command, queue) => { s with
      commandQueue := queue
      worker := { s.worker with phase := .handling command }
      log := s.log ++ [.take command] }
  | .handling command =>
    match command.type with
    | .start =>
      let (response, worker) := onewireWorkerHandleStart command outcome s.worker
      let searched := command.gpio = ONEWIRE_GPIO2 ∨ command.gpio = ONEWIRE_GPIO3
      { s with
        worker := { worker with phase := .responding response }
        log := s.log ++ if searched then [.search command.gpio outcome.found] else [] }
    | .readnext =>
      let (response, worker) := onewireWorkerHandleReadnext outcome s.worker
      { s with worker := { worker with phase := .responding response } }
  | .responding response =>
    match s.responseQueue.tryAdd response with
    | none => { s with log := s.log ++ [.respond response false] }
    | some queue => { s with
      responseQueue := queue
      worker := { s.worker with phase := .waiting }
      log := s.log ++ [.respond response true] }

inductive OneWireAction (V : Type) where
  | periodic (nowMs : UInt32)
  | core0
  | applyConfig (config : Option AppConfig) (bootMs : UInt32)
  | core1 (outcome : BusOutcome V)

/-- A call of `onewire_source_periodic` ends before the next begins. The other
steps come in any order. -/
def OneWireSystem.step (s : OneWireSystem V) : OneWireAction V → OneWireSystem V
  | .periodic nowMs =>
    match s.periodic with
    | .outside => { s with periodic := .polling nowMs }
    | _ => s
  | .core0 => periodicStep s
  | .applyConfig config bootMs => onewireSourceApplyConfig config bootMs s
  | .core1 outcome => workerStep outcome s

end

end BLEBridge
