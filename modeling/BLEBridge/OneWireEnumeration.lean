import Mathlib.Data.Finset.Card
import Mathlib.Data.Fin.VecNotation
import Mathlib.Data.Finset.Union
import BLEBridge.OneWireCrc
import BLEBridge.OneWireSearch
/-!
# What a search returns

The passes list the devices in the order of `Before`. `onewire_bus_search` keeps
them up to the first code it does not accept, and stops there.
-/
open Lib

namespace BLEBridge

/-- The loop of `onewire_bus_search` returns a prefix of the devices still to be
found, in order. -/
theorem busSearchLoop_eq {devices : Finset Rom} :
    ∀ (n : Nat) {rest : Finset Rom} {s : SearchState}, rest.card = n →
    Searching devices s rest → ∃ order : List Rom, order.Pairwise (Before romBit 64) ∧
      (∀ d, d ∈ order ↔ d ∈ rest) ∧
      ∀ capacity, busSearchLoop capacity s = some ((order.takeWhile romAccepted).take capacity) := by
  intro n
  induction n with
  | zero =>
    intro rest s hn h
    rw [Finset.card_eq_zero] at hn
    subst hn
    obtain ⟨s', hnext⟩ := searchNext_empty h
    refine ⟨[], List.Pairwise.nil, fun d => by simp, fun capacity => ?_⟩
    cases capacity with
    | zero => rfl
    | succ capacity =>
      unfold busSearchLoop
      rw [hnext]
      rfl
  | succ n ih =>
    intro rest s hn h
    have hrest : rest.Nonempty := by
      rw [← Finset.card_pos]
      omega
    obtain ⟨s', hnext, hmem, hbefore, hs'⟩ := searchNext_some h hrest
    have hcard : (rest.erase s'.rom).card = n := by
      rw [Finset.card_erase_of_mem hmem]
      omega
    obtain ⟨order, hsorted, horder, hloop⟩ := ih hcard hs'
    refine ⟨s'.rom :: order, ?_, fun d => ?_, fun capacity => ?_⟩
    · rw [List.pairwise_cons]
      refine ⟨fun d hd => ?_, hsorted⟩
      obtain ⟨hne, hd⟩ := Finset.mem_erase.1 ((horder d).1 hd)
      exact hbefore d hd hne
    · rw [List.mem_cons, horder, Finset.mem_erase]
      by_cases hd : d = s'.rom
      · simp [hd, hmem]
      · simp [hd]
    · cases capacity with
      | zero => rfl
      | succ capacity =>
        unfold busSearchLoop
        rw [hnext]
        cases hacc : romAccepted s'.rom with
        | false => simp [hacc]
        | true => simp [hacc, hloop]

/-- The devices in the order the passes meet them. -/
structure InOrder (devices : Finset Rom) (order : List Rom) : Prop where
  sorted : order.Pairwise (Before romBit 64)
  mem_iff : ∀ d, d ∈ order ↔ d ∈ devices

theorem busSearch_eq (bus : OneWireBus) : ∃ order, InOrder bus.devices order ∧
    ∀ capacity, onewireBusSearch bus capacity = some ((order.takeWhile romAccepted).take capacity) := by
  have hstart : Searching bus.devices ⟨fun _ => 0, 0, false, bus⟩ bus.devices :=
    ⟨rfl, fun _ d => ⟨fun hd => ⟨hd, .inl rfl⟩, fun hd => hd.1⟩, .inl rfl, fun h => (by cases h)⟩
  obtain ⟨order, hsorted, hmem, hloop⟩ := busSearchLoop_eq _ rfl hstart
  exact ⟨order, ⟨hsorted, hmem⟩, hloop⟩

section
variable {devices : Finset Rom} {order : List Rom} (h : InOrder devices order)
include h

theorem InOrder.nodup : order.Nodup := h.sorted.imp fun hb he => by
  rw [he] at hb
  exact Before.irrefl _ hb

theorem InOrder.toFinset : order.toFinset = devices := by
  ext d
  rw [List.mem_toFinset, h.mem_iff]

theorem InOrder.length : order.length = devices.card := by
  rw [← h.toFinset, List.toFinset_card_of_nodup h.nodup]

/-- A bus of accepted codes only is kept whole. -/
theorem InOrder.takeWhile (hacc : ∀ rom ∈ devices, romAccepted rom = true) :
    order.takeWhile romAccepted = order := by
  rw [List.takeWhile_eq_self_iff]
  intro rom hrom
  exact hacc rom ((h.mem_iff rom).1 hrom)

end

/-- A valid code of a DS18B20. -/
def IsDs18b20 (rom : Rom) : Prop := ValidRom rom ∧ rom 0 = DS18B20_FAMILY_CODE

theorem search_enumerates (bus : OneWireBus) (hbus : ∀ rom ∈ bus.devices, IsDs18b20 rom) (capacity : Nat) :
    ∃ roms, onewireBusSearch bus capacity = some roms ∧ roms.Nodup ∧ (∀ rom ∈ roms, rom ∈ bus.devices) ∧
      roms.length = min capacity bus.devices.card ∧
      (bus.devices.card ≤ capacity → ∀ rom ∈ bus.devices, roms.count rom = 1) ∧
      (bus.devices = ∅ → roms = []) := by
  obtain ⟨order, h, hsearch⟩ := busSearch_eq bus
  have hall := h.takeWhile fun rom hrom => (romAccepted_iff rom).2 (hbus rom hrom)
  have hlen := h.length
  refine ⟨order.take capacity, ?_, (List.take_sublist _ _).nodup h.nodup, ?_, ?_, ?_, ?_⟩
  · rw [hsearch, hall]
  · intro rom hrom
    exact (h.mem_iff rom).1 (List.mem_of_mem_take hrom)
  · rw [List.length_take, hlen]
  · intro hcap rom hrom
    rw [List.take_of_length_le (hlen.trans_le hcap)]
    exact List.count_eq_one_of_mem h.nodup ((h.mem_iff rom).2 hrom)
  · intro hempty
    rw [hempty, Finset.card_empty] at hlen
    rw [List.eq_nil_of_length_eq_zero hlen, List.take_nil]

def sensor1 : Rom := ![0x28, 0xFF, 0x64, 0x1E, 0x83, 0x16, 0x03, 0x49]

def sensor2 : Rom := ![0x28, 0xFF, 0x12, 0x4A, 0x83, 0x16, 0x04, 0xED]

theorem sensors_valid : ∀ rom ∈ ({sensor1, sensor2} : Finset Rom), IsDs18b20 rom := by
  intro rom hrom
  rw [Finset.mem_insert, Finset.mem_singleton] at hrom
  rcases hrom with rfl | rfl
  · exact ⟨by unfold ValidRom; decide +kernel, rfl⟩
  · exact ⟨by unfold ValidRom; decide +kernel, rfl⟩

theorem search_enumerates_twoSensors : ∃ roms, onewireBusSearch (.of {sensor1, sensor2}) 16 = some roms ∧
    roms.length = 2 := by
  obtain ⟨roms, hsearch, -, -, hlen, -⟩ := search_enumerates (.of {sensor1, sensor2}) sensors_valid 16
  exact ⟨roms, hsearch, hlen⟩

/-! ## Foreign devices -/

/-- Bit `i` of a family code. -/
def familyBit (family : UInt8) (i : Nat) : Bool := family.toNat.testBit i

/-- The search meets family `a` before family `b`. -/
def FamilyBefore (a b : UInt8) : Prop := Before familyBit 8 a b

theorem romBit_family (rom : Rom) {i : Nat} (hi : i < 8) : romBit rom i = familyBit (rom 0) i := by
  unfold romBit familyBit
  rw [Nat.div_eq_of_lt hi, Nat.mod_eq_of_lt hi]
  rfl

theorem FamilyBefore.before {a b : Rom} (h : FamilyBefore (a 0) (b 0)) : Before romBit 64 a b := by
  obtain ⟨k, hk, ha, h0, h1⟩ := h
  refine ⟨k, by omega, fun i hi => ?_, ?_, ?_⟩
  · rw [romBit_family a (by omega), romBit_family b (by omega)]
    exact ha i hi
  · rw [romBit_family a hk, h0]
  · rw [romBit_family b hk, h1]

theorem familyBefore_or {a b : UInt8} (h : a ≠ b) : FamilyBefore a b ∨ FamilyBefore b a :=
  before_or_before fun hagree => h (byte_ext hagree)

theorem InOrder.mem_takeWhile {devices : Finset Rom} {order : List Rom} (h : InOrder devices order) {d : Rom} :
    d ∈ order.takeWhile romAccepted ↔ d ∈ devices ∧ romAccepted d = true ∧
      ∀ e ∈ devices, Before romBit 64 e d → romAccepted e = true := by
  rw [mem_takeWhile_iff Before.asymm h.sorted, h.mem_iff]
  simp only [h.mem_iff]

section
variable {sensors foreign : Finset Rom} (hs : ∀ rom ∈ sensors, IsDs18b20 rom)
  (hf : ∀ rom ∈ foreign, ValidRom rom ∧ rom 0 ≠ DS18B20_FAMILY_CODE)
include hs hf

theorem accepted_beside_iff {rom : Rom} (hrom : rom ∈ sensors ∪ foreign) :
    romAccepted rom = true ↔ rom ∈ sensors := by
  rw [romAccepted_iff]
  constructor
  · rintro ⟨-, hfamily⟩
    rcases Finset.mem_union.1 hrom with h | h
    · exact h
    · exact absurd hfamily (hf rom h).2
  · exact hs rom

/-- A sensor is met before the search stops just when no foreign device comes
before it. -/
theorem mem_takeWhile_beside {order : List Rom} (h : InOrder (sensors ∪ foreign) order) {d : Rom} :
    d ∈ order.takeWhile romAccepted ↔ d ∈ sensors ∧
      ∀ rom ∈ foreign, FamilyBefore DS18B20_FAMILY_CODE (rom 0) := by
  rw [h.mem_takeWhile]
  constructor
  · rintro ⟨hd, hacc, hall⟩
    have hd' := (accepted_beside_iff hs hf hd).1 hacc
    refine ⟨hd', fun rom hrom => ?_⟩
    have hfamily := (hs d hd').2
    rcases familyBefore_or (hf rom hrom).2 with hb | hb
    · -- the search stops at this device, before it gets to the sensor
      rw [← hfamily] at hb
      have hmem : rom ∈ sensors ∪ foreign := Finset.mem_union_right _ hrom
      have := (accepted_beside_iff hs hf hmem).1 (hall rom hmem hb.before)
      exact absurd (hs rom this).2 (hf rom hrom).2
    · exact hb
  · rintro ⟨hd, hafter⟩
    have hmem : d ∈ sensors ∪ foreign := Finset.mem_union_left _ hd
    refine ⟨hmem, (accepted_beside_iff hs hf hmem).2 hd, fun e he hb => (accepted_beside_iff hs hf he).2 ?_⟩
    rcases Finset.mem_union.1 he with h' | h'
    · exact h'
    · have hfamily := hafter e h'
      rw [← (hs d hd).2] at hfamily
      exact absurd hfamily.before hb.asymm

theorem search_beside_foreign (capacity : Nat) (hcap : sensors.card ≤ capacity) :
    ∃ roms alone, onewireBusSearch (.of (sensors ∪ foreign)) capacity = some roms ∧
      onewireBusSearch (.of sensors) capacity = some alone ∧
      (roms.toFinset = alone.toFinset ↔ sensors = ∅ ∨
        ∀ rom ∈ foreign, FamilyBefore DS18B20_FAMILY_CODE (rom 0)) := by
  obtain ⟨order, h, hsearch⟩ := busSearch_eq (.of (sensors ∪ foreign))
  obtain ⟨order', h', hsearch'⟩ := busSearch_eq (.of sensors)
  have hkept {d : Rom} := mem_takeWhile_beside hs hf h (d := d)
  have hall := h'.takeWhile fun rom hrom => (romAccepted_iff rom).2 (hs rom hrom)
  refine ⟨_, _, hsearch capacity, hsearch' capacity, ?_⟩
  rw [hall, List.take_of_length_le (h'.length.trans_le hcap), h'.toFinset]
  show _ = sensors ↔ _
  by_cases hafter : ∀ rom ∈ foreign, FamilyBefore DS18B20_FAMILY_CODE (rom 0)
  · have hset : (order.takeWhile romAccepted).toFinset = sensors := by
      ext d
      rw [List.mem_toFinset, hkept]
      exact and_iff_left hafter
    have hlen : (order.takeWhile romAccepted).length = sensors.card := by
      rw [← hset, List.toFinset_card_of_nodup ((List.takeWhile_sublist _).nodup h.nodup)]
    rw [List.take_of_length_le (hlen.trans_le hcap)]
    exact iff_of_true hset (.inr hafter)
  · have hnone : order.takeWhile romAccepted = [] := by
      rw [List.eq_nil_iff_forall_not_mem]
      intro d hd
      exact hafter (hkept.1 hd).2
    rw [hnone, List.take_nil, List.toFinset_nil]
    constructor
    · intro hempty
      exact .inl hempty.symm
    · intro hempty
      exact (hempty.resolve_right hafter).symm

end

def thermometer : Rom := ![0x10, 0x50, 0x05, 0xA5, 0x01, 0x08, 0x00, 0xF2]

theorem thermometer_valid : ∀ rom ∈ ({thermometer} : Finset Rom), ValidRom rom ∧ rom 0 ≠ DS18B20_FAMILY_CODE := by
  intro rom hrom
  rw [Finset.mem_singleton.1 hrom]
  exact ⟨by unfold ValidRom; decide +kernel, by decide⟩

theorem search_beside_foreign_thermometer : ∃ roms alone,
    onewireBusSearch (.of ({sensor1, sensor2} ∪ {thermometer})) 16 = some roms ∧
      onewireBusSearch (.of {sensor1, sensor2}) 16 = some alone ∧ (roms.toFinset = alone.toFinset ↔
        ({sensor1, sensor2} : Finset Rom) = ∅ ∨ ∀ rom ∈ ({thermometer} : Finset Rom),
        FamilyBefore DS18B20_FAMILY_CODE (rom 0)) :=
  search_beside_foreign sensors_valid thermometer_valid 16 (by decide +kernel)

/-- A sensor beside a thermometer of family 0x10 is not found. -/
theorem hidden_by_thermometer : IsDs18b20 sensor1 ∧ ValidRom thermometer ∧ thermometer 0 ≠ DS18B20_FAMILY_CODE ∧
    onewireBusSearch (.of ({sensor1} ∪ {thermometer})) 16 = some [] ∧
      onewireBusSearch (.of {sensor1}) 16 = some [sensor1] :=
  ⟨sensors_valid sensor1 (by decide +kernel), (thermometer_valid thermometer (by decide +kernel)).1,
    by decide, by decide +kernel,
    by decide +kernel⟩

end BLEBridge
