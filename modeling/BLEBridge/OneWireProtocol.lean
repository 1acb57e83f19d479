import BLEBridge.Lib.Runs
import BLEBridge.OneWireSource
/-!
# The protocol between the cores

There is at most one request at a time: a command queued, a command the worker
handles, a response, or none. It says where every run is in the reading of a
bus, and so what the log looks like.
-/
open Lib

namespace BLEBridge

variable {V : Type}

/-! ## What the log says -/

def startCommand (gpio : UInt8) : OneWireCommand := ⟨.start, gpio⟩

def readnextCommand : OneWireCommand := ⟨.readnext, 0⟩

/-- A request from its command to its response. -/
def exchangeEvents (command : OneWireCommand) (search : List (OneWireEvent V))
    (response : OneWireResponse V) : List (OneWireEvent V) :=
  [.send command true, .take command] ++ search ++ [.respond response true, .receive response]

def readingEvents (event : OneWireTemperatureEvent V) : List (OneWireEvent V) :=
  exchangeEvents readnextCommand [] (.temperature event) ++ [.temperature event]

/-- The temperatures read from a bus. -/
structure BusReadings (V : Type) where
  gpio : UInt8
  events : List (OneWireTemperatureEvent V)
  gpio_eq : ∀ event ∈ events, event.gpio = gpio

/-- What is done with one bus: a START that failed, or one that found the devices
whose temperatures are then read, one after the other until none is left. -/
inductive BusSession (V : Type) where
  | failed (gpio : UInt8) (found : List Rom)
  | completed (readings : BusReadings V)

def BusSession.events : BusSession V → List (OneWireEvent V)
  | .failed gpio found => exchangeEvents (startCommand gpio) [.search gpio found] .startError
  | .completed readings =>
    exchangeEvents (startCommand readings.gpio)
      [.search readings.gpio (readings.events.map OneWireTemperatureEvent.rom)] .startOk ++
      readings.events.flatMap readingEvents ++ exchangeEvents readnextCommand [] .readnextNone

/-- The log of buses that are done. -/
def Sessions (log : List (OneWireEvent V)) : Prop :=
  ∃ sessions : List (BusSession V), log = sessions.flatMap BusSession.events

theorem Sessions.concat {log : List (OneWireEvent V)} (h : Sessions log) (session : BusSession V) :
    Sessions (log ++ session.events) := by
  obtain ⟨sessions, rfl⟩ := h
  refine ⟨sessions ++ [session], ?_⟩
  rw [List.flatMap_append, List.flatMap_singleton]

/-! ## Where the request is -/

/-- The response in the hands of `onewire_handle_response`. -/
def PeriodicPhase.handled : PeriodicPhase V → Option (OneWireResponse V)
  | .handling _ response => some response
  | _ => none

/-- What the queues and the two cores hold. -/
structure Places (V : Type) where
  commands : List OneWireCommand
  phase : WorkerPhase V
  responses : List (OneWireResponse V)
  handled : Option (OneWireResponse V)

def Places.free : Places V := ⟨[], .waiting, [], none⟩

def OneWireSystem.places (s : OneWireSystem V) : Places V :=
  ⟨s.commandQueue.items, s.worker.phase, s.responseQueue.items, s.periodic.handled⟩

theorem OneWireSystem.places_eq {s : OneWireSystem V}
    {p : Places V} (hcommands : s.commandQueue.items = p.commands) (hphase : s.worker.phase = p.phase)
    (hresponses : s.responseQueue.items = p.responses) (hhandled : s.periodic.handled = p.handled) :
    s.places = p := by
  unfold places
  rw [hcommands, hphase, hresponses, hhandled]

/-- How far a request is, with what the worker searched and answered. -/
inductive RequestStage (V : Type) where
  | queued
  | handling
  | responding (search : List (OneWireEvent V)) (response : OneWireResponse V)
  | responded (search : List (OneWireEvent V)) (response : OneWireResponse V)
  | received (search : List (OneWireEvent V)) (response : OneWireResponse V)

def RequestStage.places (command : OneWireCommand) : RequestStage V → Places V
  | .queued => { Places.free with commands := [command] }
  | .handling => { Places.free with phase := .handling command }
  | .responding _ response => { Places.free with phase := .responding response }
  | .responded _ response => { Places.free with responses := [response] }
  | .received _ response => { Places.free with handled := some response }

def RequestStage.events (command : OneWireCommand) : RequestStage V → List (OneWireEvent V)
  | .queued => [.send command true]
  | .handling => [.send command true, .take command]
  | .responding search _ => [.send command true, .take command] ++ search
  | .responded search response => [.send command true, .take command] ++ search ++ [.respond response true]
  | .received search response => exchangeEvents command search response

/-! ## How far the bus is -/

/-- The bus being started, or being read with `left` still to come. -/
inductive BusPart (V : Type) where
  | starting (gpio : UInt8)
  | reading (gpio : UInt8) (readings : List (OneWireTemperatureEvent V)) (left : List Rom)

namespace BusPart

def command : BusPart V → OneWireCommand
  | starting gpio => startCommand gpio
  | reading .. => readnextCommand

def state : BusPart V → OneWireSourceState
  | starting _ => .waitStart
  | reading .. => .waitReadnext

def found (readings : List (OneWireTemperatureEvent V)) (left : List Rom) : List Rom :=
  readings.map OneWireTemperatureEvent.rom ++ left

/-- The log before the request. -/
def past : BusPart V → List (OneWireEvent V)
  | starting _ => []
  | reading gpio readings left =>
    exchangeEvents (startCommand gpio) [.search gpio (found readings left)] .startOk ++
      readings.flatMap readingEvents

def Valid : BusPart V → Prop
  | starting gpio => gpio = ONEWIRE_GPIO2 ∨ gpio = ONEWIRE_GPIO3
  | reading gpio readings _ => ∀ event ∈ readings, event.gpio = gpio

end BusPart

/-- The worker has `found` on the bus and reads entry `index` next. -/
def OneWireWorker.Ready (w : OneWireWorker V) (gpio : UInt8) (found : List Rom) (index : Nat) : Prop :=
  w.gpio = gpio ∧ w.roms = found ∧ w.deviceCount = found.length ∧ w.deviceIndex = index

def BusPart.Ready (w : OneWireWorker V) : BusPart V → Prop
  | .starting _ => True
  | .reading gpio readings left => w.Ready gpio (BusPart.found readings left) readings.length

/-- What the worker may answer. -/
inductive Answers : BusPart V → OneWireWorker V → List (OneWireEvent V) → OneWireResponse V → Prop where
  | started {gpio : UInt8} {found : List Rom} {w : OneWireWorker V} (h : w.Ready gpio found 0) :
    Answers (.starting gpio) w [.search gpio found] .startOk
  | failed (gpio : UInt8) (found : List Rom) (w : OneWireWorker V) :
      Answers (.starting gpio) w [.search gpio found] .startError
  | temperature {gpio : UInt8} {readings : List (OneWireTemperatureEvent V)}
      {event : OneWireTemperatureEvent V} {rom : Rom}
    {left : List Rom} {w : OneWireWorker V} (hgpio : event.gpio = gpio) (hrom : event.rom = rom)
    (h : w.Ready gpio (BusPart.found readings (rom :: left)) (readings.length + 1)) :
    Answers (.reading gpio readings (rom :: left)) w [] (.temperature event)
  | none (gpio : UInt8) (readings : List (OneWireTemperatureEvent V)) (w : OneWireWorker V) :
    Answers (.reading gpio readings []) w [] .readnextNone

def RequestStage.Fits (part : BusPart V) (w : OneWireWorker V) : RequestStage V → Prop
  | .queued => part.Ready w
  | .handling => part.Ready w
  | .responding search response => Answers part w search response
  | .responded search response => Answers part w search response
  | .received search response => Answers part w search response

/-- A request of a bus whose earlier buses are `done`. -/
structure Request (s : OneWireSystem V) (done : List (OneWireEvent V)) (part : BusPart V)
    (stage : RequestStage V) : Prop where
  valid : part.Valid
  state : s.state = part.state
  places : s.places = stage.places part.command
  fits : stage.Fits part s.worker
  log : s.log = done ++ part.past ++ stage.events part.command

/-- The invariant: no request while the source is idle, and one while it is
not. -/
inductive Protocol (s : OneWireSystem V) : Prop where
  | idle (hlog : Sessions s.log) (hstate : s.state = .idle) (hplaces : s.places = .free)
  | busy {done : List (OneWireEvent V)} {part : BusPart V} {stage : RequestStage V} (hdone : Sessions done)
    (h : Request s done part stage)

theorem Request.not_idle {s : OneWireSystem V} {done : List (OneWireEvent V)} {part : BusPart V}
    {stage : RequestStage V} (h : Request s done part stage) : s.state ≠ .idle := by
  rw [h.state]
  intro he
  cases part <;> cases he

/-- The number of commands queued, commands being executed and responses
queued. -/
def OneWireSystem.outstanding (s : OneWireSystem V) : Nat :=
  s.commandQueue.items.length + (match s.worker.phase with | .waiting => 0 | _ => 1) +
    s.responseQueue.items.length

theorem Protocol.outstanding {s : OneWireSystem V} (h : Protocol s) :
    (s.periodic.handled = none → s.outstanding = if s.state = .idle then 0 else 1) ∧
      (s.periodic.handled ≠ none → s.outstanding = 0 ∧ s.state ≠ .idle) := by
  cases h with
  | idle hsessions hidle hfree =>
    obtain ⟨hcommands, hphase, hresponses, hhandled⟩ := Places.mk.inj hfree
    unfold OneWireSystem.outstanding
    rw [hcommands, hphase, hresponses, if_pos hidle]
    exact ⟨fun _ => rfl, fun h => absurd hhandled h⟩
  | @busy done part stage hdone h =>
    obtain ⟨hcommands, hphase, hresponses, hhandled⟩ := Places.mk.inj h.places
    unfold OneWireSystem.outstanding
    rw [hcommands, hphase, hresponses, if_neg h.not_idle]
    cases stage with
    | received search response =>
      exact ⟨fun hn => (by rw [hn] at hhandled; cases hhandled), fun _ => ⟨rfl, h.not_idle⟩⟩
    | _ => exact ⟨fun _ => rfl, fun hn => absurd hhandled hn⟩

/-! ## The worker -/

theorem Answers.of_phase {part : BusPart V} {w : OneWireWorker V} {search : List (OneWireEvent V)}
    {response : OneWireResponse V} (h : Answers part w search response) (phase : WorkerPhase V) :
    Answers part { w with phase := phase } search response := by
  cases h with
  | started h => exact .started h
  | failed gpio found w => exact .failed gpio found _
  | temperature hgpio hrom h => exact .temperature hgpio hrom h
  | none gpio readings w => exact .none gpio readings _

/-- The worker's answer to a START. -/
theorem handleStart_answers {gpio : UInt8} (hvalid : gpio = ONEWIRE_GPIO2 ∨ gpio = ONEWIRE_GPIO3)
    (outcome : BusOutcome V) (w : OneWireWorker V) :
    Answers (.starting gpio) (onewireWorkerHandleStart (startCommand gpio) outcome w).2
      [.search gpio outcome.found] (onewireWorkerHandleStart (startCommand gpio) outcome w).1 := by
  have hgpio : ¬((startCommand gpio).gpio ≠ ONEWIRE_GPIO2 ∧ (startCommand gpio).gpio ≠ ONEWIRE_GPIO3) := by
    rintro ⟨h2, h3⟩
    exact hvalid.elim h2 h3
  unfold onewireWorkerHandleStart
  rw [if_neg hgpio]
  dsimp only
  split_ifs
  · exact .failed gpio _ _
  · exact .started ⟨rfl, rfl, rfl, rfl⟩

section
variable [Zero V]

/-- The worker's answer to a READNEXT: the next device, or that none is left. -/
theorem handleReadnext_answers {gpio : UInt8} {readings : List (OneWireTemperatureEvent V)}
    {left : List Rom} {w : OneWireWorker V} (h : w.Ready gpio (BusPart.found readings left) readings.length)
    (outcome : BusOutcome V) :
    Answers (.reading gpio readings left) (onewireWorkerHandleReadnext outcome w).2 []
      (onewireWorkerHandleReadnext outcome w).1 := by
  obtain ⟨hgpio, hroms, hcount, hindex⟩ := h
  have hlength : (BusPart.found readings left).length = readings.length + left.length := by
    unfold BusPart.found
    rw [List.length_append, List.length_map]
  unfold onewireWorkerHandleReadnext
  cases left with
  | nil =>
    rw [if_pos (by rw [hcount, hindex, hlength]; exact le_refl _)]
    exact .none gpio readings w
  | cons rom left =>
    have hrom : w.roms.getD w.deviceIndex (fun _ => 0) = rom := by
      rw [hroms, hindex]
      unfold BusPart.found
      rw [List.getD_append_right _ _ _ _ (by rw [List.length_map]), List.length_map, Nat.sub_self]
      rfl
    rw [if_neg (by rw [hcount, hindex, hlength, List.length_cons]; omega), hrom]
    exact .temperature hgpio rfl ⟨hgpio, hroms, hcount, congrArg Nat.succ hindex⟩

theorem Request.workerStep_handling {s : OneWireSystem V} {done : List (OneWireEvent V)} {part : BusPart V}
    (h : Request s done part .handling) (outcome : BusOutcome V) :
    ∃ search response, Request (workerStep outcome s) done part (.responding search response) := by
  obtain ⟨hcommands, hphase, hresponses, hhandled⟩ := Places.mk.inj h.places
  have hfits := h.fits
  unfold workerStep
  simp only [hphase]
  cases part with
  | starting gpio =>
    have hvalid : gpio = ONEWIRE_GPIO2 ∨ gpio = ONEWIRE_GPIO3 := h.valid
    refine ⟨_, _, h.valid, h.state, OneWireSystem.places_eq hcommands rfl hresponses hhandled,
      (handleStart_answers hvalid outcome s.worker).of_phase _, ?_⟩
    show s.log ++ (if gpio = ONEWIRE_GPIO2 ∨ gpio = ONEWIRE_GPIO3 then _ else _) = _
    rw [if_pos hvalid, h.log, List.append_assoc]
    rfl
  | reading gpio readings left =>
    refine ⟨_, _, h.valid, h.state, OneWireSystem.places_eq hcommands rfl hresponses hhandled,
      (handleReadnext_answers hfits outcome).of_phase _, ?_⟩
    exact h.log

theorem Request.workerStep {s : OneWireSystem V} {done : List (OneWireEvent V)}
    {part : BusPart V} {stage : RequestStage V} (h : Request s done part stage) (outcome : BusOutcome V) :
    ∃ stage', Request (workerStep outcome s) done part stage' := by
  obtain ⟨hcommands, hphase, hresponses, hhandled⟩ := Places.mk.inj h.places
  have hfits := h.fits
  have hlog := h.log
  cases stage with
  | queued =>
    obtain ⟨queue, hremove, hempty⟩ := Ring.tryRemove_of_singleton hcommands
    unfold BLEBridge.workerStep
    simp only [hphase, hremove]
    refine ⟨.handling, h.valid, h.state, OneWireSystem.places_eq hempty rfl hresponses hhandled, ?_, ?_⟩
    · cases part with
      | starting gpio => trivial
      | reading gpio readings left => exact hfits
    · show s.log ++ _ = _
      rw [hlog, List.append_assoc]
      rfl
  | handling =>
    obtain ⟨search, response, h'⟩ := h.workerStep_handling outcome
    exact ⟨_, h'⟩
  | responding search response =>
    obtain ⟨queue, hadd, hitems⟩ := Ring.tryAdd_of_empty hresponses (by decide) response
    unfold BLEBridge.workerStep
    simp only [hphase, hadd]
    refine ⟨.responded search response, h.valid, h.state,
      OneWireSystem.places_eq hcommands rfl hitems hhandled, hfits.of_phase _, ?_⟩
    show s.log ++ _ = _
    rw [hlog, List.append_assoc, List.append_assoc, List.append_assoc]
    rfl
  | responded search response =>
    have hremove := (Ring.tryRemove_none_iff s.commandQueue).2 hcommands
    unfold BLEBridge.workerStep
    simp only [hphase, hremove]
    exact ⟨_, h⟩
  | received search response =>
    have hremove := (Ring.tryRemove_none_iff s.commandQueue).2 hcommands
    unfold BLEBridge.workerStep
    simp only [hphase, hremove]
    exact ⟨_, h⟩

end

/-! ## The source -/

theorem send_of_empty {s : OneWireSystem V} (h : s.commandQueue.items = []) (command : OneWireCommand) :
    ∃ queue : Ring OneWireCommand ONEWIRE_QUEUE_SLOT_COUNT, queue.items = [command] ∧
      onewireWorkerSend command s =
        (true, { s with commandQueue := queue, log := s.log ++ [.send command true] }) := by
  obtain ⟨queue, hadd, hitems⟩ := Ring.tryAdd_of_empty h (by decide) command
  refine ⟨queue, hitems, ?_⟩
  unfold onewireWorkerSend
  rw [hadd]

theorem onewireGpios_valid (bus : Fin ONEWIRE_BUS_COUNT) :
    onewireGpios bus = ONEWIRE_GPIO2 ∨ onewireGpios bus = ONEWIRE_GPIO3 := by
  unfold onewireGpios
  split_ifs
  · exact .inl rfl
  · exact .inr rfl

/-- With no request pending the next bus is started, or the cycle ends. -/
theorem Protocol.startNextBus {s : OneWireSystem V} (hlog : Sessions s.log) (hplaces : s.places = .free)
    (nowMs : UInt32) : Protocol (onewireStartNextBus nowMs s) := by
  obtain ⟨hcommands, hphase, hresponses, hhandled⟩ := Places.mk.inj hplaces
  unfold onewireStartNextBus
  generalize skipDisabled s.busEnabled ONEWIRE_BUS_COUNT s.currentBus = bus
  dsimp only
  split_ifs with hend
  · exact .idle hlog rfl hplaces
  · have hvalid := onewireGpios_valid (Fin.ofNat 2 bus)
    generalize onewireGpios (Fin.ofNat 2 bus) = gpio at hvalid ⊢
    unfold onewireWorkerSendStart
    obtain ⟨queue, hitems, hsend⟩ := send_of_empty (s := { s with currentBus := bus }) hcommands ⟨.start, gpio⟩
    rw [hsend]
    refine .busy hlog (?_ : Request _ _ (.starting gpio) .queued)
    refine ⟨hvalid, rfl, OneWireSystem.places_eq hitems hphase hresponses hhandled, trivial, ?_⟩
    unfold BusPart.past
    rw [List.append_nil]
    rfl

theorem Protocol.finishBus {s : OneWireSystem V} (hlog : Sessions s.log) (hplaces : s.places = .free)
    (nowMs : UInt32) : Protocol (onewireFinishBus nowMs s) := by
  unfold onewireFinishBus
  exact startNextBus (s := { s with currentBus := s.currentBus + 1 }) hlog hplaces nowMs

/-- What the protocol is about. -/
theorem Protocol.congr {s s' : OneWireSystem V} (h : Protocol s) (hstate : s'.state = s.state)
    (hplaces : s'.places = s.places) (hworker : s'.worker = s.worker) (hlog : s'.log = s.log) :
    Protocol s' := by
  cases h with
  | idle hsessions hidle hfree => exact .idle (hlog ▸ hsessions) (hstate.trans hidle) (hplaces.trans hfree)
  | busy hdone h =>
    exact .busy hdone ⟨h.valid, hstate.trans h.state, hplaces.trans h.places, hworker ▸ h.fits, hlog.trans h.log⟩

/-- `onewire_source_periodic` gets on without a response in its hands. -/
theorem Protocol.of_phase {s : OneWireSystem V} (h : Protocol s) {phase : PeriodicPhase V}
    (hhandled : phase.handled = s.periodic.handled) : Protocol { s with periodic := phase } :=
  h.congr rfl (OneWireSystem.places_eq rfl rfl rfl hhandled) rfl rfl

theorem Protocol.receive {s : OneWireSystem V} (h : Protocol s) (nowMs : UInt32)
    {response : OneWireResponse V} {queue : Ring (OneWireResponse V) ONEWIRE_QUEUE_SLOT_COUNT}
    (hremove : s.responseQueue.tryRemove = some (response, queue)) :
    Protocol { s with
      responseQueue := queue
      periodic := .handling nowMs response
      log := s.log ++ [.receive response] } := by
  have hitems := Ring.items_of_tryRemove hremove
  cases h with
  | idle hsessions hidle hfree =>
    obtain ⟨-, -, hresponses, -⟩ := Places.mk.inj hfree
    rw [hitems] at hresponses
    cases hresponses
  | @busy done part stage hdone h =>
    obtain ⟨hcommands, hphase, hresponses, -⟩ := Places.mk.inj h.places
    rw [hitems] at hresponses
    cases stage with
    | responded search answer =>
      obtain ⟨rfl, hempty⟩ := List.cons.inj hresponses
      refine .busy hdone (?_ : Request _ done part (.received search response))
      refine ⟨h.valid, h.state, OneWireSystem.places_eq hcommands hphase hempty rfl, h.fits, ?_⟩
      show s.log ++ _ = _
      rw [h.log, List.append_assoc]
      simp only [RequestStage.events, exchangeEvents, List.append_assoc]
      rfl
    | _ => cases hresponses

theorem Protocol.startCycle {s : OneWireSystem V} (h : Protocol s) (nowMs : UInt32) :
    Protocol (onewireSourceStartCycle nowMs s) := by
  unfold onewireSourceStartCycle
  split_ifs with hwait
  · exact h
  · cases h with
    | idle hsessions hidle hfree =>
      apply startNextBus
      · exact hsessions
      · exact hfree
    | busy hdone h => exact absurd (.inl h.not_idle) hwait

section
variable [Zero V]

theorem handleTemperature_frame (event : OneWireTemperatureEvent V) (s : OneWireSystem V) :
    (onewireHandleTemperature event s).places = s.places ∧ (onewireHandleTemperature event s).worker = s.worker ∧
      (onewireHandleTemperature event s).state = s.state ∧
      (onewireHandleTemperature event s).log = s.log ++ [.temperature event] := by
  unfold onewireHandleTemperature
  dsimp only
  split_ifs <;> exact ⟨rfl, rfl, rfl, rfl⟩

/-- The source takes the response to its request, and goes on. -/
theorem Protocol.handleResponse {s : OneWireSystem V} {done : List (OneWireEvent V)}
    {part : BusPart V} {search : List (OneWireEvent V)} {response : OneWireResponse V}
    (hdone : Sessions done) (hvalid : part.Valid) (hstate : s.state = part.state)
    (hplaces : s.places = .free) (hanswers : Answers part s.worker search response)
    (hlog : s.log = done ++ part.past ++ exchangeEvents part.command search response) (nowMs : UInt32) :
    Protocol (onewireHandleResponse response nowMs s) := by
  obtain ⟨hcommands, hphase, hresponses, hhandled⟩ := Places.mk.inj hplaces
  unfold onewireHandleResponse
  cases hanswers with
  | @started gpio found w hready =>
    -- The search is done: the first sensor is asked for.
    obtain ⟨queue, hitems, hsend⟩ := send_of_empty hcommands readnextCommand
    unfold readnextCommand at hsend
    simp only [hstate, BusPart.state, onewireWorkerSendReadnext, hsend]
    refine .busy hdone (?_ : Request _ done (.reading gpio [] found) .queued)
    refine ⟨fun _ h => absurd h List.not_mem_nil, rfl,
      OneWireSystem.places_eq hitems hphase hresponses hhandled, hready, ?_⟩
    show s.log ++ _ = _
    rw [hlog]
    simp only [BusPart.past, BusPart.command, BusPart.found, List.append_nil, List.flatMap_nil, List.map_nil,
      List.nil_append]
    rfl
  | failed gpio found w =>
    -- The bus gives up, and its part becomes a session.
    simp only [hstate, BusPart.state]
    apply finishBus _ hplaces nowMs
    rw [hlog]
    simp only [BusPart.past, List.append_nil]
    exact hdone.concat (.failed gpio found)
  | @temperature gpio readings event rom left w hgpio hrom hready =>
    obtain ⟨hplaces', hworker, hstate', hlog'⟩ := handleTemperature_frame event s
    rw [hplaces] at hplaces'
    obtain ⟨hcommands, hphase, hresponses, hhandled⟩ := Places.mk.inj hplaces'
    obtain ⟨queue, hitems, hsend⟩ := send_of_empty hcommands readnextCommand
    unfold readnextCommand at hsend
    simp only [hstate, BusPart.state, onewireWorkerSendReadnext, hsend]
    refine .busy hdone (?_ : Request _ done (.reading gpio (readings ++ [event]) left) .queued)
    -- The sensor read moves from those left to the readings.
    have hfound : BusPart.found (readings ++ [event]) left = BusPart.found readings (rom :: left) := by
      unfold BusPart.found
      rw [List.map_append, List.append_assoc, ← hrom]
      rfl
    refine ⟨?_, hstate'.trans hstate, OneWireSystem.places_eq hitems hphase hresponses hhandled, ?_, ?_⟩
    · intro e he
      rcases List.mem_append.1 he with he | he
      · exact hvalid e he
      · rw [List.mem_singleton.1 he]
        exact hgpio
    · show OneWireWorker.Ready _ gpio (BusPart.found (readings ++ [event]) left) (readings ++ [event]).length
      rw [hfound, List.length_append]
      dsimp only
      rw [hworker]
      exact hready
    · show (onewireHandleTemperature event s).log ++ _ = _
      rw [hlog', hlog]
      simp only [BusPart.past, BusPart.command, hfound, List.flatMap_append, List.flatMap_singleton,
        readingEvents, List.append_assoc]
      rfl
  | none gpio readings w =>
    simp only [hstate, BusPart.state]
    apply finishBus _ hplaces nowMs
    rw [hlog]
    have := hdone.concat (.completed ⟨gpio, readings, hvalid⟩)
    simp only [BusSession.events] at this
    simp only [BusPart.past, BusPart.command, BusPart.found, List.append_nil, List.append_assoc] at this ⊢
    exact this

/-! ## Runs -/

theorem Protocol.workerStep {s : OneWireSystem V} (h : Protocol s) (outcome : BusOutcome V) :
    Protocol (workerStep outcome s) := by
  cases h with
  | idle hsessions hidle hfree =>
    obtain ⟨hcommands, hphase, -, -⟩ := Places.mk.inj hfree
    have hremove := (Ring.tryRemove_none_iff s.commandQueue).2 hcommands
    unfold BLEBridge.workerStep
    simp only [hphase, hremove]
    exact .idle hsessions hidle hfree
  | busy hdone h =>
    obtain ⟨stage', h'⟩ := h.workerStep outcome
    exact .busy hdone h'

theorem Protocol.handle {s : OneWireSystem V} (h : Protocol s) {nowMs : UInt32} {response : OneWireResponse V}
    (hperiodic : s.periodic = .handling nowMs response) :
    Protocol (onewireHandleResponse response nowMs { s with periodic := .polling nowMs }) := by
  cases h with
  | idle hsessions hidle hfree =>
    obtain ⟨-, -, -, hhandled⟩ := Places.mk.inj hfree
    rw [hperiodic] at hhandled
    cases hhandled
  | @busy done part stage hdone h =>
    obtain ⟨hcommands, hphase, hresponses, hhandled⟩ := Places.mk.inj h.places
    rw [hperiodic] at hhandled
    cases stage with
    | received search answer =>
      cases hhandled
      exact .handleResponse (s := { s with periodic := .polling nowMs }) hdone h.valid h.state
        (OneWireSystem.places_eq hcommands hphase hresponses rfl) h.fits h.log nowMs
    | _ => cases hhandled

theorem Protocol.periodicStep {s : OneWireSystem V} (h : Protocol s) : Protocol (periodicStep s) := by
  unfold BLEBridge.periodicStep
  cases hperiodic : s.periodic with
  | outside => exact h
  | polling nowMs =>
    dsimp only
    cases hremove : s.responseQueue.tryRemove with
    | none =>
      exact h.of_phase (congrArg PeriodicPhase.handled hperiodic).symm
    | some next =>
      obtain ⟨response, queue⟩ := next
      exact h.receive nowMs hremove
  | handling nowMs response => exact h.handle hperiodic
  | finishing nowMs =>
    apply startCycle
    exact h.of_phase (congrArg PeriodicPhase.handled hperiodic).symm

theorem Protocol.step {s : OneWireSystem V} (h : Protocol s) (action : OneWireAction V) :
    Protocol (s.step action) := by
  unfold OneWireSystem.step
  cases action with
  | periodic nowMs =>
    cases hperiodic : s.periodic with
    | outside => exact h.of_phase (congrArg PeriodicPhase.handled hperiodic).symm
    | _ => exact h
  | core0 => exact h.periodicStep
  | applyConfig config bootMs => exact h.congr rfl rfl rfl rfl
  | core1 outcome => exact h.workerStep outcome

theorem Protocol.init (s : OneWireSystem V) : Protocol (onewireSourceInit s) := by
  have hcommands : (onewireSourceInit s).commandQueue.items = [] := (Ring.tryRemove_none_iff _).1 rfl
  have hresponses : (onewireSourceInit s).responseQueue.items = [] := (Ring.tryRemove_none_iff _).1 rfl
  exact .idle ⟨[], rfl⟩ rfl (OneWireSystem.places_eq hcommands rfl hresponses rfl)

/-- Every run keeps the protocol. -/
theorem protocol_run (s : OneWireSystem V) (actions : List (OneWireAction V)) :
    Protocol (run OneWireSystem.step (onewireSourceInit s) actions) :=
  EveryStep.inv (everyStep_true _ _ actions) (.init s) fun _ action h _ => h.step action

/-! ## One request at a time -/

/-- A temperature still to come. -/
def pendingEvent (gpio : UInt8) (rom : Rom) : OneWireTemperatureEvent V := ⟨gpio, rom, 0, 0, 0, false⟩

theorem map_rom_pendingEvent (gpio : UInt8) (roms : List Rom) :
    (roms.map (pendingEvent (V := V) gpio)).map OneWireTemperatureEvent.rom = roms := by
  rw [List.map_map]
  exact List.map_id roms

theorem gpio_pendingEvent {gpio : UInt8} {roms : List Rom} :
    ∀ event ∈ roms.map (pendingEvent (V := V) gpio), event.gpio = gpio := by
  intro event h
  obtain ⟨rom, -, rfl⟩ := List.mem_map.1 h
  rfl

/-- Whatever the stage of a request, there is an answer it may come to. -/
theorem RequestStage.Fits.answer {part : BusPart V} {w : OneWireWorker V} {stage : RequestStage V}
    (h : stage.Fits part w) :
    ∃ w' search response, Answers part w' search response ∧
      stage.events part.command <+: exchangeEvents part.command search response := by
  have hany : ∃ w' search response, Answers part w' search response := by
    cases part with
    | starting gpio => exact ⟨w, _, _, .failed gpio [] w⟩
    | reading gpio readings left =>
      cases left with
      | nil => exact ⟨w, _, _, .none gpio readings w⟩
      | cons rom left =>
        have hready : (OneWireWorker.mk gpio (BusPart.found readings (rom :: left))
          (BusPart.found readings (rom :: left)).length
          (readings.length + 1) (.waiting : WorkerPhase V)).Ready gpio (BusPart.found readings (rom :: left))
            (readings.length + 1) :=
          ⟨rfl, rfl, rfl, rfl⟩
        exact ⟨_, _, _, (.temperature rfl rfl hready : Answers _ _ _ (.temperature (pendingEvent gpio rom)))⟩
  cases stage with
  | queued =>
    obtain ⟨w', search, response, ha⟩ := hany
    exact ⟨w', search, response, ha, List.prefix_append [_] _⟩
  | handling =>
    obtain ⟨w', search, response, ha⟩ := hany
    refine ⟨w', search, response, ha, ?_⟩
    unfold exchangeEvents
    rw [List.append_assoc]
    exact List.prefix_append _ _
  | responding search response => exact ⟨w, search, response, h, List.prefix_append _ _⟩
  | responded search response =>
    refine ⟨w, search, response, h, [.receive response], ?_⟩
    simp only [events, exchangeEvents, List.append_assoc]
    rfl
  | received search response => exact ⟨w, search, response, h, List.prefix_rfl⟩

/-- An answered request belongs to a session. -/
theorem Answers.session {part : BusPart V} {w : OneWireWorker V} {search : List (OneWireEvent V)}
    {response : OneWireResponse V} (h : Answers part w search response) (hvalid : part.Valid) :
    ∃ session : BusSession V, part.past ++ exchangeEvents part.command search response <+: session.events := by
  cases h with
  | @started gpio found w hready =>
    refine ⟨.completed ⟨gpio, found.map (pendingEvent gpio), gpio_pendingEvent⟩, ?_⟩
    unfold BusSession.events
    dsimp only
    rw [map_rom_pendingEvent, List.append_assoc]
    exact List.prefix_append _ _
  | failed gpio found w => exact ⟨.failed gpio found, List.prefix_rfl⟩
  | @temperature gpio readings event rom left w hgpio hrom hready =>
    have hall : ∀ e ∈ readings ++ event :: left.map (pendingEvent gpio), e.gpio = gpio := by
      intro e he
      rcases List.mem_append.1 he with he | he
      · exact hvalid e he
      · rcases List.mem_cons.1 he with rfl | he
        · exact hgpio
        · exact gpio_pendingEvent e he
    have hroms : (readings ++ event :: left.map (pendingEvent gpio)).map OneWireTemperatureEvent.rom =
        BusPart.found readings (rom :: left) := by
      rw [List.map_append, List.map_cons, map_rom_pendingEvent, hrom]
      rfl
    refine ⟨.completed ⟨gpio, _, hall⟩, ?_⟩
    unfold BusSession.events
    dsimp only
    have hreading : readingEvents event = exchangeEvents readnextCommand [] (.temperature event) ++
        [.temperature event] := rfl
    rw [hroms, List.flatMap_append, List.flatMap_cons, hreading]
    simp only [BusPart.past, BusPart.command, List.append_assoc, List.prefix_append_right_inj]
    exact List.prefix_append _ _
  | none gpio readings w =>
    refine ⟨.completed ⟨gpio, readings, hvalid⟩, ?_⟩
    simp only [BusSession.events, BusPart.past, BusPart.command, BusPart.found, List.append_nil]
    exact List.prefix_rfl

/-- The request every part of a bus is at belongs to a session of that bus. -/
theorem Request.session {s : OneWireSystem V} {done : List (OneWireEvent V)}
    {part : BusPart V} {stage : RequestStage V} (h : Request s done part stage) :
    ∃ session : BusSession V, part.past ++ stage.events part.command <+: session.events := by
  obtain ⟨w', search, response, hanswers, hsent⟩ := h.fits.answer
  obtain ⟨session, hsession⟩ := hanswers.session h.valid
  exact ⟨session, ((List.prefix_append_right_inj _).2 hsent).trans hsession⟩

end

/-- A command or a response a queue had no room for. -/
def OneWireEvent.refused : OneWireEvent V → Bool
  | .send _ ok => !ok
  | .respond _ ok => !ok
  | _ => false

theorem exchange_not_refused {command : OneWireCommand} {search : List (OneWireEvent V)}
    {response : OneWireResponse V} (h : ∀ event ∈ search, event.refused = false) :
    ∀ event ∈ exchangeEvents command search response, event.refused = false := by
  unfold exchangeEvents
  simp only [List.mem_append, List.mem_cons, List.not_mem_nil, or_false]
  rintro event (((rfl | rfl) | hs) | rfl | rfl)
  · rfl
  · rfl
  · exact h event hs
  · rfl
  · rfl

theorem reading_not_refused (event : OneWireTemperatureEvent V) :
    ∀ e ∈ readingEvents event, e.refused = false := by
  unfold readingEvents
  intro e he
  rcases List.mem_append.1 he with he | he
  · exact exchange_not_refused (fun _ h => absurd h List.not_mem_nil) e he
  · rw [List.mem_singleton.1 he]
    rfl

theorem session_not_refused (session : BusSession V) : ∀ event ∈ session.events, event.refused = false := by
  have hsearch (gpio : UInt8) (found : List Rom) : ∀ event ∈ [OneWireEvent.search (V := V) gpio found],
      event.refused = false := by
    intro event h
    rw [List.mem_singleton.1 h]
    rfl
  intro event h
  cases session with
  | failed gpio found => exact exchange_not_refused (hsearch gpio found) event h
  | completed readings =>
    rcases List.mem_append.1 h with h | h
    · rcases List.mem_append.1 h with h | h
      · exact exchange_not_refused (hsearch _ _) event h
      · obtain ⟨reading, -, h⟩ := List.mem_flatMap.1 h
        exact reading_not_refused reading event h
    · exact exchange_not_refused (fun _ h => absurd h List.not_mem_nil) event h

section
variable [Zero V]

/-- The log is that of buses done one after the other, and of a part of one more. -/
theorem Protocol.log {s : OneWireSystem V} (h : Protocol s) :
    ∃ (sessions : List (BusSession V)) (current : BusSession V) (part : List (OneWireEvent V)),
      s.log = sessions.flatMap BusSession.events ++ part ∧ part <+: current.events := by
  cases h with
  | idle hsessions hidle hfree =>
    obtain ⟨sessions, hlog⟩ := hsessions
    exact ⟨sessions, .failed 0 [], [], hlog.trans (List.append_nil _).symm, List.nil_prefix⟩
  | @busy done part stage hdone h =>
    obtain ⟨sessions, hsessions⟩ := hdone
    obtain ⟨session, hsent⟩ := h.session
    refine ⟨sessions, session, _, ?_, hsent⟩
    rw [← hsessions, ← List.append_assoc]
    exact h.log

theorem one_request (s : OneWireSystem V) (actions : List (OneWireAction V)) :
    let s' := run OneWireSystem.step (onewireSourceInit s) actions
    (s'.periodic.handled = none → s'.outstanding = if s'.state = .idle then 0 else 1) ∧
      (s'.periodic.handled ≠ none → s'.outstanding = 0 ∧ s'.state ≠ .idle) ∧
      (∀ event ∈ s'.log, event.refused = false) ∧
      ∃ (sessions : List (BusSession V)) (current : BusSession V) (part : List (OneWireEvent V)),
        s'.log = sessions.flatMap BusSession.events ++ part ∧ part <+: current.events := by
  intro s'
  have h : Protocol s' := protocol_run s actions
  refine ⟨h.outstanding.1, h.outstanding.2, ?_, h.log⟩
  obtain ⟨sessions, current, part, hlog, hsent⟩ := h.log
  intro event hevent
  rw [hlog, List.mem_append] at hevent
  rcases hevent with hevent | hevent
  · obtain ⟨session, -, hevent⟩ := List.mem_flatMap.1 hevent
    exact session_not_refused session event hevent
  · exact session_not_refused current event (hsent.subset hevent)

end

/-! ## A bus with one sensor -/

def sensorRom : Rom := ![0x28, 1, 2, 3, 4, 5, 6, 0]

/-- The search finds the sensor, and it is read at 21 degrees. -/
def sensorOutcome : BusOutcome Nat := ⟨[sensorRom], by decide, true, some 21, 1000⟩

def sensorReadings : BusReadings Nat :=
  ⟨ONEWIRE_GPIO2, [⟨ONEWIRE_GPIO2, sensorRom, onewireBusDeviceId sensorRom, 1000, 21, true⟩], by simp⟩

/-- A command is taken, handled and responded to. -/
def answered : List (OneWireAction Nat) := [.core1 sensorOutcome, .core1 sensorOutcome, .core1 sensorOutcome]

/-- A call of `onewire_source_periodic` that finds a response. -/
def receives (nowMs : UInt32) : List (OneWireAction Nat) := [.periodic nowMs, .core0, .core0, .core0, .core0]

/-- Only the first bus is enabled. -/
def sensorActions : List (OneWireAction Nat) :=
  [.applyConfig (some { appConfigDefaults with onewireGpio3Enabled := false }) 0, .periodic 0, .core0,
    .core0] ++ answered ++
    receives 900 ++ answered ++ receives 1100 ++ answered ++ receives 1200

theorem queue_slots : 0 < ONEWIRE_QUEUE_SLOT_COUNT := by decide

def sensorSystem : OneWireSystem Nat where
  devices _ := .zero
  busEnabled _ := true
  pollIntervalMs := 0
  nextPollMs := 0
  currentBus := 0
  state := .idle
  measurements := []
  commandQueue := ⟨fun _ => ⟨.start, 0⟩, ⟨0, queue_slots⟩, ⟨0, queue_slots⟩⟩
  responseQueue := ⟨fun _ => .startOk, ⟨0, queue_slots⟩, ⟨0, queue_slots⟩⟩
  periodic := .outside
  worker := ⟨0, [], 0, 0, .waiting⟩
  log := []

/-- The log is the session of that bus, after which no request is left. -/
theorem one_request_sensor :
    let s' := run OneWireSystem.step (onewireSourceInit sensorSystem) sensorActions
    s'.log = (BusSession.completed sensorReadings).events ∧ s'.outstanding = 0 ∧
      ∀ event ∈ s'.log, event.refused = false := by
  obtain ⟨hrequests, -, hsent, -⟩ := one_request sensorSystem sensorActions
  exact ⟨rfl, hrequests rfl, hsent⟩

end BLEBridge
