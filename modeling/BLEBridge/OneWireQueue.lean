import Mathlib.Data.Fintype.Basic
import BLEBridge.OneWireWorker
/-!
# The queues between the cores

The command queue and the response queue of `onewire_worker.c`, load by load and
store by store. The core that adds and the core that removes take turns in any
order, and a message is copied word by word. Still every message is received as
it was added and in order (`queues_fifo`), as if each call took one step
(`QueueStep.atomic`).
-/
open Lib

namespace BLEBridge

/-- A message of `m` words. -/
abbrev QueueMessage (m : Nat) (W : Type) : Type := Fin m → W

variable {m : Nat} {W : Type}

/-- How far a call of `onewire_command_queue_try_add` or
`onewire_response_queue_try_add` is, with its local variables and the words that
are copied. -/
inductive TryAdd (m : Nat) (W : Type) where
  | idle
  | called (message : QueueMessage m W)
  | writeIndexRead (message : QueueMessage m W) (writeIndex : Fin ONEWIRE_QUEUE_SLOT_COUNT)
  | copying (message : QueueMessage m W) (writeIndex : Fin ONEWIRE_QUEUE_SLOT_COUNT) (copied : Finset (Fin m))

/-- How far a call of `onewire_command_queue_try_remove` or
`onewire_worker_try_get_response` is, with what is at its pointer. -/
inductive TryRemove (m : Nat) (W : Type) where
  | idle
  | called (message : QueueMessage m W)
  | readIndexRead (message : QueueMessage m W) (readIndex : Fin ONEWIRE_QUEUE_SLOT_COUNT)
  | copying (message : QueueMessage m W) (readIndex : Fin ONEWIRE_QUEUE_SLOT_COUNT) (copied : Finset (Fin m))

/-- A queue in memory and the two cores. -/
structure OneWireQueue (m : Nat) (W : Type) where
  ring : Ring (QueueMessage m W) ONEWIRE_QUEUE_SLOT_COUNT
  producer : TryAdd m W
  consumer : TryRemove m W

/-- What a step completes: a call, with what it returned. -/
inductive QueueEvent (m : Nat) (W : Type) where
  | silent
  | added (message : QueueMessage m W)
  | addFailed
  | removed (message : QueueMessage m W)
  | removeFailed

def onewireQueueNextIndex (index : Fin ONEWIRE_QUEUE_SLOT_COUNT) : Fin ONEWIRE_QUEUE_SLOT_COUNT := Ring.next index

/-- One access to the queue's memory, or the start of a call. -/
inductive QueueStep : OneWireQueue m W → QueueEvent m W → OneWireQueue m W → Prop where
  | addCall {ring consumer} (message : QueueMessage m W) :
    QueueStep ⟨ring, .idle, consumer⟩ .silent ⟨ring, .called message, consumer⟩
  | addReadWriteIndex {ring consumer message} :
    QueueStep ⟨ring, .called message, consumer⟩ .silent ⟨ring, .writeIndexRead message ring.writeIndex, consumer⟩
  | addFull {ring consumer message writeIndex} (h : onewireQueueNextIndex writeIndex = ring.readIndex) :
    QueueStep ⟨ring, .writeIndexRead message writeIndex, consumer⟩ .addFailed ⟨ring, .idle, consumer⟩
  | addRoom {ring consumer message writeIndex} (h : onewireQueueNextIndex writeIndex ≠ ring.readIndex) :
    QueueStep ⟨ring, .writeIndexRead message writeIndex, consumer⟩ .silent
      ⟨ring, .copying message writeIndex ∅, consumer⟩
  | addCopy {ring consumer message writeIndex copied} (word : Fin m) :
    QueueStep ⟨ring, .copying message writeIndex copied, consumer⟩ .silent
      ⟨{ ring with
        entries := Function.update ring.entries writeIndex
          (Function.update (ring.entries writeIndex) word (message word)) },
        .copying message writeIndex (insert word copied), consumer⟩
  | addPublish {ring consumer message writeIndex copied} (h : ∀ word, word ∈ copied) :
    QueueStep ⟨ring, .copying message writeIndex copied, consumer⟩ (.added message)
      ⟨{ ring with writeIndex := onewireQueueNextIndex writeIndex }, .idle, consumer⟩
  | removeCall {ring producer} (message : QueueMessage m W) :
    QueueStep ⟨ring, producer, .idle⟩ .silent ⟨ring, producer, .called message⟩
  | removeReadReadIndex {ring producer message} :
    QueueStep ⟨ring, producer, .called message⟩ .silent ⟨ring, producer, .readIndexRead message ring.readIndex⟩
  | removeEmpty {ring producer message readIndex} (h : readIndex = ring.writeIndex) :
    QueueStep ⟨ring, producer, .readIndexRead message readIndex⟩ .removeFailed ⟨ring, producer, .idle⟩
  | removeReady {ring producer message readIndex} (h : readIndex ≠ ring.writeIndex) :
    QueueStep ⟨ring, producer, .readIndexRead message readIndex⟩ .silent
      ⟨ring, producer, .copying message readIndex ∅⟩
  | removeCopy {ring producer message readIndex copied} (word : Fin m) :
    QueueStep ⟨ring, producer, .copying message readIndex copied⟩ .silent
      ⟨ring, producer, .copying (Function.update message word (ring.entries readIndex word)) readIndex
        (insert word copied)⟩
  | removeAdvance {ring producer message readIndex copied} (h : ∀ word, word ∈ copied) :
    QueueStep ⟨ring, producer, .copying message readIndex copied⟩ (.removed message)
      ⟨{ ring with readIndex := onewireQueueNextIndex readIndex }, producer, .idle⟩

/-! ## What the cores can rely on -/

/-- The index that the adding core read is still the index; while it copies, the
next slot is not being read, and the words copied are those of the message. -/
def TryAdd.Sound (producer : TryAdd m W) (ring : Ring (QueueMessage m W) ONEWIRE_QUEUE_SLOT_COUNT) : Prop :=
  match producer with
  | .idle => True
  | .called _ => True
  | .writeIndexRead _ writeIndex => writeIndex = ring.writeIndex
  | .copying message writeIndex copied =>
    writeIndex = ring.writeIndex ∧ onewireQueueNextIndex writeIndex ≠ ring.readIndex ∧
      ∀ word ∈ copied, ring.entries writeIndex word = message word

/-- The same for the removing core, whose slot is not free. -/
def TryRemove.Sound (consumer : TryRemove m W) (ring : Ring (QueueMessage m W) ONEWIRE_QUEUE_SLOT_COUNT) : Prop :=
  match consumer with
  | .idle => True
  | .called _ => True
  | .readIndexRead _ readIndex => readIndex = ring.readIndex
  | .copying message readIndex copied => readIndex = ring.readIndex ∧ readIndex ≠ ring.writeIndex ∧
      ∀ word ∈ copied, message word = ring.entries readIndex word

structure OneWireQueue.Sound (s : OneWireQueue m W) : Prop where
  producer : s.producer.Sound s.ring
  consumer : s.consumer.Sound s.ring

theorem nextIndex_injective {i j : Fin ONEWIRE_QUEUE_SLOT_COUNT}
    (h : onewireQueueNextIndex i = onewireQueueNextIndex j) : i = j := by
  revert i j
  decide

variable {ring : Ring (QueueMessage m W) ONEWIRE_QUEUE_SLOT_COUNT}

/-- The removing core does not look at the slot that is being written. -/
theorem TryRemove.Sound.write {consumer : TryRemove m W} (h : consumer.Sound ring) (message : QueueMessage m W) :
    consumer.Sound { ring with entries := Function.update ring.entries ring.writeIndex message } := by
  cases consumer with
  | idle => trivial
  | called _ => trivial
  | readIndexRead _ _ => exact h
  | copying buffer readIndex copied =>
    obtain ⟨hindex, hne, hcopied⟩ := h
    refine ⟨hindex, hne, ?_⟩
    intro word hword
    dsimp only
    rw [Function.update_of_ne hne]
    exact hcopied word hword

/-- It stays sure of its message when one more is published. -/
theorem TryRemove.Sound.publish {consumer : TryRemove m W} (h : consumer.Sound ring)
    (hroom : onewireQueueNextIndex ring.writeIndex ≠ ring.readIndex) :
    consumer.Sound { ring with writeIndex := onewireQueueNextIndex ring.writeIndex } := by
  cases consumer with
  | idle => trivial
  | called _ => trivial
  | readIndexRead _ _ => exact h
  | copying buffer readIndex copied =>
    obtain ⟨rfl, -, hcopied⟩ := h
    exact ⟨rfl, hroom.symm, hcopied⟩

/-- The adding core stays sure of its room when a message is taken. -/
theorem TryAdd.Sound.advance {producer : TryAdd m W} (h : producer.Sound ring)
    (hready : ring.readIndex ≠ ring.writeIndex) :
    producer.Sound { ring with readIndex := onewireQueueNextIndex ring.readIndex } := by
  cases producer with
  | idle => trivial
  | called _ => trivial
  | writeIndexRead _ _ => exact h
  | copying message writeIndex copied =>
    obtain ⟨rfl, -, hcopied⟩ := h
    exact ⟨rfl, fun heq => hready (nextIndex_injective heq).symm, hcopied⟩

theorem QueueStep.sound {s s' : OneWireQueue m W} {event : QueueEvent m W} (h : QueueStep s event s')
    (hs : s.Sound) : s'.Sound := by
  obtain ⟨hproducer, hconsumer⟩ := hs
  cases h with
  | addCall _ => exact ⟨trivial, hconsumer⟩
  | addReadWriteIndex => exact ⟨rfl, hconsumer⟩
  | addFull _ => exact ⟨trivial, hconsumer⟩
  | addRoom hroom => exact ⟨⟨hproducer, hroom, by simp⟩, hconsumer⟩
  | @addCopy ring consumer message writeIndex copied word =>
    dsimp only at hproducer
    obtain ⟨rfl, hroom, hcopied⟩ := hproducer
    -- The slot written is the free one, so the consumer's copy stays valid.
    refine ⟨⟨rfl, hroom, ?_⟩, hconsumer.write _⟩
    intro word' hword'
    dsimp only
    rw [Function.update_self]
    rcases eq_or_ne word' word with rfl | hne
    · rw [Function.update_self]
    · rw [Function.update_of_ne hne]
      exact hcopied word' (Finset.mem_of_mem_insert_of_ne hword' hne)
  | addPublish _ =>
    dsimp only at hproducer
    obtain ⟨rfl, hroom, -⟩ := hproducer
    exact ⟨trivial, hconsumer.publish hroom⟩
  | removeCall _ => exact ⟨hproducer, trivial⟩
  | removeReadReadIndex => exact ⟨hproducer, rfl⟩
  | removeEmpty _ => exact ⟨hproducer, trivial⟩
  | removeReady hready => exact ⟨hproducer, ⟨hconsumer, hready, by simp⟩⟩
  | @removeCopy ring producer message readIndex copied word =>
    dsimp only at hconsumer
    obtain ⟨rfl, hready, hcopied⟩ := hconsumer
    refine ⟨hproducer, rfl, hready, ?_⟩
    intro word' hword'
    rcases eq_or_ne word' word with rfl | hne
    · rw [Function.update_self]
    · rw [Function.update_of_ne hne]
      exact hcopied word' (Finset.mem_of_mem_insert_of_ne hword' hne)
  | removeAdvance _ =>
    dsimp only at hconsumer
    obtain ⟨rfl, hready, -⟩ := hconsumer
    exact ⟨hproducer.advance hready, trivial⟩

/-! ## As if in one step -/

/-- What the call does that a step completes, on the queue as a whole. -/
def QueueEvent.Atomic (event : QueueEvent m W)
    (ring ring' : Ring (QueueMessage m W) ONEWIRE_QUEUE_SLOT_COUNT) : Prop :=
  match event with
  | .silent => ring'.items = ring.items
  | .added message => ring.tryAdd message = some ring'
  | .addFailed => (∀ message, ring.tryAdd message = none) ∧ ring' = ring
  | .removed message => ring.tryRemove = some (message, ring')
  | .removeFailed => ring.tryRemove = none ∧ ring' = ring

theorem QueueStep.atomic {s s' : OneWireQueue m W} {event : QueueEvent m W} (h : QueueStep s event s')
    (hs : s.Sound) : event.Atomic s.ring s'.ring := by
  obtain ⟨hproducer, hconsumer⟩ := hs
  cases h with
  | addFull hfull =>
    dsimp only at hproducer
    obtain rfl := hproducer
    exact ⟨fun _ => if_pos hfull, rfl⟩
  | addCopy _ =>
    -- The items do not reach the slot being filled.
    dsimp only at hproducer
    obtain ⟨rfl, -, -⟩ := hproducer
    exact Ring.items_write _ _
  | @addPublish ring consumer message writeIndex copied hall =>
    dsimp only at hproducer
    obtain ⟨rfl, hroom, hcopied⟩ := hproducer
    -- Every word is copied: the slot already holds the message.
    have hmessage : Function.update ring.entries ring.writeIndex message = ring.entries := by
      have hslot : ring.entries ring.writeIndex = message := funext fun word => hcopied word (hall word)
      rw [← hslot, Function.update_eq_self]
    have hadd : ring.tryAdd message =
        some { ring with
          entries := Function.update ring.entries ring.writeIndex message
          writeIndex := Ring.next ring.writeIndex } :=
      if_neg hroom
    rw [hmessage] at hadd
    exact hadd
  | removeEmpty hempty =>
    dsimp only at hconsumer
    obtain rfl := hconsumer
    exact ⟨if_pos hempty, rfl⟩
  | @removeAdvance ring producer message readIndex copied hall =>
    dsimp only at hconsumer
    obtain ⟨rfl, hready, hcopied⟩ := hconsumer
    have hmessage : message = ring.entries ring.readIndex := funext fun word => hcopied word (hall word)
    rw [hmessage]
    exact if_neg hready
  | _ => rfl

/-! ## Runs -/

theorem slotCount_pos : 0 < ONEWIRE_QUEUE_SLOT_COUNT := Nat.succ_pos 3

/-- The zeroed queue. -/
def OneWireQueue.zero [Zero W] : OneWireQueue m W :=
  ⟨⟨fun _ _ => 0, ⟨0, slotCount_pos⟩, ⟨0, slotCount_pos⟩⟩, .idle, .idle⟩

def QueueEvent.addedMessage : QueueEvent m W → Option (QueueMessage m W)
  | .added message => some message
  | _ => none

def QueueEvent.removedMessage : QueueEvent m W → Option (QueueMessage m W)
  | .removed message => some message
  | _ => none

/-- The messages successfully added in a run. -/
def addedMessages (trace : List (QueueEvent m W)) : List (QueueMessage m W) :=
  trace.filterMap QueueEvent.addedMessage

/-- The messages received in a run. -/
def removedMessages (trace : List (QueueEvent m W)) : List (QueueMessage m W) :=
  trace.filterMap QueueEvent.removedMessage

theorem addedMessages_concat (trace : List (QueueEvent m W)) (event : QueueEvent m W) :
    addedMessages (trace ++ [event]) = addedMessages trace ++ event.addedMessage.toList := by
  unfold addedMessages
  rw [List.filterMap_append]
  cases event <;> rfl

theorem removedMessages_concat (trace : List (QueueEvent m W)) (event : QueueEvent m W) :
    removedMessages (trace ++ [event]) = removedMessages trace ++ event.removedMessage.toList := by
  unfold removedMessages
  rw [List.filterMap_append]
  cases event <;> rfl

/-- What is added comes last, what is received came first. -/
theorem QueueEvent.Atomic.items {event : QueueEvent m W}
    {ring ring' : Ring (QueueMessage m W) ONEWIRE_QUEUE_SLOT_COUNT} (h : event.Atomic ring ring') :
    ring.items ++ event.addedMessage.toList = event.removedMessage.toList ++ ring'.items := by
  cases event with
  | silent =>
    have hsame : ring'.items = ring.items := h
    rw [hsame]
    exact List.append_nil _
  | added message => exact (Ring.items_of_tryAdd h).symm
  | addFailed =>
    rw [h.2]
    exact List.append_nil _
  | removed message =>
    rw [Ring.items_of_tryRemove h]
    exact List.append_nil _
  | removeFailed =>
    rw [h.2]
    exact List.append_nil _

/-- The cores are sure of what they rely on, and what was added and not received is
in the queue. -/
structure QueueInv (trace : List (QueueEvent m W)) (s : OneWireQueue m W) : Prop where
  sound : s.Sound
  items : addedMessages trace = removedMessages trace ++ s.ring.items

variable {trace : List (QueueEvent m W)} {s s' : OneWireQueue m W} {event : QueueEvent m W}

theorem QueueInv.zero [Zero W] : QueueInv [] (OneWireQueue.zero : OneWireQueue m W) where
  sound := ⟨trivial, trivial⟩
  items := by
    have hempty : (OneWireQueue.zero : OneWireQueue m W).ring.items = [] := (Ring.tryRemove_none_iff _).1 rfl
    rw [hempty]
    rfl

theorem QueueInv.step (h : QueueInv trace s) (hstep : QueueStep s event s') : QueueInv (trace ++ [event]) s' where
  sound := hstep.sound h.sound
  items := by
    have hitems := (hstep.atomic h.sound).items
    rw [addedMessages_concat, removedMessages_concat, h.items, List.append_assoc, hitems, List.append_assoc]

/-- Steps of both queues in any order, from the zeroed ones. -/
inductive QueuesRun [Zero W] {mc mr : Nat} :
    List (QueueEvent mc W) → OneWireQueue mc W → List (QueueEvent mr W) → OneWireQueue mr W → Prop where
  | zero : QueuesRun [] .zero [] .zero
  | command {commands commandQueue responses responseQueue event commandQueue'}
      (h : QueuesRun commands commandQueue responses responseQueue)
        (hstep : QueueStep commandQueue event commandQueue') :
      QueuesRun (commands ++ [event]) commandQueue' responses responseQueue
  | response {commands commandQueue responses responseQueue event responseQueue'}
      (h : QueuesRun commands commandQueue responses responseQueue)
        (hstep : QueueStep responseQueue event responseQueue') :
      QueuesRun commands commandQueue (responses ++ [event]) responseQueue'

theorem QueuesRun.inv [Zero W] {mc mr : Nat} {commands : List (QueueEvent mc W)}
    {commandQueue : OneWireQueue mc W} {responses : List (QueueEvent mr W)}
    {responseQueue : OneWireQueue mr W} (h : QueuesRun commands commandQueue responses responseQueue) :
    QueueInv commands commandQueue ∧ QueueInv responses responseQueue := by
  induction h with
  | zero => exact ⟨.zero, .zero⟩
  | command _ hstep ih => exact ⟨ih.1.step hstep, ih.2⟩
  | response _ hstep ih => exact ⟨ih.1, ih.2.step hstep⟩

/-! ## First in, first out -/

/-- What holds of a queue after the events of a run. -/
structure QueueFifo (trace : List (QueueEvent m W)) (s : OneWireQueue m W) : Prop where
  /-- The messages received are the first ones added, whole and in order. -/
  received : removedMessages trace <+: addedMessages trace
  /-- No slot is read while it is written. -/
  apart : ∀ {message writeIndex copied buffer readIndex copied'},
    s.producer = .copying message writeIndex copied →
    s.consumer = .copying buffer readIndex copied' → readIndex ≠ writeIndex
  /-- Adding fails only when three messages are not received. -/
  full : ∀ {s'}, QueueStep s .addFailed s' → (addedMessages trace).length = (removedMessages trace).length + 3
  /-- Removing fails only when all messages are received. -/
  empty : ∀ {s'}, QueueStep s .removeFailed s' → removedMessages trace = addedMessages trace

theorem QueueInv.fifo (h : QueueInv trace s) : QueueFifo trace s where
  received := ⟨s.ring.items, h.items.symm⟩
  apart hproducer hconsumer := by
    obtain ⟨hp, hc⟩ := h.sound
    rw [hproducer] at hp
    rw [hconsumer] at hc
    intro heq
    exact hc.2.1 (heq.trans hp.1)
  full hstep := by
    have hfull := (hstep.atomic h.sound).1
    rw [h.items, List.length_append]
    cases hstep with
    | @addFull ring consumer message writeIndex hindex =>
      have hlength : ring.items.length + 1 = 4 := (Ring.tryAdd_none_iff _ _).1 (hfull message)
      dsimp only
      omega
  empty hstep := by
    have hempty := (Ring.tryRemove_none_iff _).1 (hstep.atomic h.sound).1
    rw [h.items, hempty, List.append_nil]

/-- **The queues are first in, first out**, whatever the order of the two cores'
loads and stores. -/
theorem queues_fifo [Zero W] {mc mr : Nat} {commands : List (QueueEvent mc W)}
    {commandQueue : OneWireQueue mc W} {responses : List (QueueEvent mr W)}
    {responseQueue : OneWireQueue mr W} (h : QueuesRun commands commandQueue responses responseQueue) :
    QueueFifo commands commandQueue ∧ QueueFifo responses responseQueue :=
  ⟨h.inv.1.fifo, h.inv.2.fifo⟩

/-- Two commands of two words are added and received; the second is copied in while
the first is copied out. -/
theorem queues_fifo_twice : ∃ (commands : List (QueueEvent 2 Nat)) (commandQueue : OneWireQueue 2 Nat),
    QueuesRun commands commandQueue [] (.zero : OneWireQueue 2 Nat) ∧
      removedMessages commands = [![7, 8], ![9, 10]] ∧
      QueueFifo commands commandQueue := by
  have h0 : QueuesRun [] (.zero : OneWireQueue 2 Nat) [] (.zero : OneWireQueue 2 Nat) := .zero
  have h1 := ((h0.command (.addCall ![7, 8])).command .addReadWriteIndex).command (.addRoom (by decide))
  have h2 := ((h1.command (.addCopy 0)).command (.addCopy 1)).command (.addPublish (by decide))
  have h3 := ((h2.command (.removeCall ![0, 0])).command .removeReadReadIndex).command (.removeReady (by decide))
  have h4 := ((h3.command (.addCall ![9, 10])).command .addReadWriteIndex).command (.addRoom (by decide))
  -- both copy, the words in the opposite order
  have h5 := ((h4.command (.addCopy 0)).command (.removeCopy 1)).command (.removeCopy 0)
  have h6 := ((h5.command (.removeAdvance (by decide))).command (.addCopy 1)).command (.addPublish (by decide))
  have h7 := ((h6.command (.removeCall ![0, 0])).command .removeReadReadIndex).command (.removeReady (by decide))
  have h8 := ((h7.command (.removeCopy 0)).command (.removeCopy 1)).command (.removeAdvance (by decide))
  refine ⟨_, _, h8, ?_, (queues_fifo h8).1⟩
  decide

end BLEBridge
