import BLEBridge.Lib.Burst
import BLEBridge.OneWireCrc
/-!
# What the 1-Wire CRC rejects

`onewire_bus_read_temperature`, on a line that answers in any way, and the
residue law that it and the search rely on: a string that ends in its own CRC
has the CRC zero, and no longer has it after a burst of up to eight wrong bits.
-/
open Lib

namespace BLEBridge

def ONEWIRE_CRC_POLY : UInt8 := 0x8C

/-! ## The residue -/

theorem crc8Shift_toBitVec (c : UInt8) :
    (crc8Shift c).toBitVec = crcBit ONEWIRE_CRC_POLY.toBitVec c.toBitVec := by
  have h : ∀ c : UInt8, crc8Shift c = ⟨crcBit ONEWIRE_CRC_POLY.toBitVec c.toBitVec⟩ := by decide +kernel
  rw [h]

theorem crc8Byte_toBitVec (crc inbyte : UInt8) :
    (crc8Byte crc inbyte).toBitVec = crcByte ONEWIRE_CRC_POLY.toBitVec crc.toBitVec inbyte := by
  have hshift : Function.Semiconj UInt8.toBitVec crc8Shift (crcBit ONEWIRE_CRC_POLY.toBitVec) :=
    crc8Shift_toBitVec
  rw [crc8Byte_eq, (hshift.iterate_right 8).eq, UInt8.toBitVec_xor, crcByte, BitVec.setWidth_eq]

/-- `onewire_crc8` is a register of eight bits that starts at zero. -/
theorem onewireCrc8_toBitVec (data : Bytes) :
    (onewireCrc8 data).toBitVec = crcUpdate ONEWIRE_CRC_POLY.toBitVec 0#8 data := by
  have hfold : ∀ crc : UInt8, (data.foldl crc8Byte crc).toBitVec =
      crcUpdate ONEWIRE_CRC_POLY.toBitVec crc.toBitVec data := by
    induction data with
    | nil =>
      intro crc
      rfl
    | cons b data ih =>
      intro crc
      rw [List.foldl_cons, ih, crc8Byte_toBitVec]
      rfl
  exact hfold 0

theorem onewireCrc8_burst {data data' : Bytes} (h : Burst 8 data data') :
    onewireCrc8 data ≠ onewireCrc8 data' := by
  intro heq
  have hregister := congrArg UInt8.toBitVec heq
  rw [onewireCrc8_toBitVec, onewireCrc8_toBitVec] at hregister
  exact crcUpdate_burst (by decide) (by decide) h hregister

/-! ## Reading a temperature -/

def DS18B20_CMD_MATCH_ROM : UInt8 := 0x55
def DS18B20_CMD_READ_SCRATCHPAD : UInt8 := 0xBE

/-- What the master does on the line; the answers are up to what hangs on it. -/
structure OneWireLine (σ : Type) where
  reset : σ → Bool × σ
  readBit : σ → Bool × σ
  writeBit : Bool → σ → σ

variable {σ : Type} (line : OneWireLine σ)

def OneWireLine.writeByte (value : UInt8) (s : σ) : σ :=
  (List.range 8).foldl (fun s i => line.writeBit (value &&& ((1 : UInt8) <<< UInt8.ofNat i) ≠ 0) s) s

def OneWireLine.readByte (s : σ) : UInt8 × σ :=
  (List.range 8).foldl (fun (value, s) i =>
    let (bit, s) := line.readBit s
    (if bit then value ||| ((1 : UInt8) <<< UInt8.ofNat i) else value, s)) (0, s)

/-- The next `n` bytes read. -/
def OneWireLine.readBytes : Nat → σ → Bytes × σ
  | 0, s => ([], s)
  | n + 1, s =>
    let (b, s) := line.readByte s
    let (rest, s) := OneWireLine.readBytes n s
    (b :: rest, s)

/-- The nine bytes that a present device answers with. -/
def OneWireLine.readScratchpad (rom : Rom) (s : σ) : Bytes × σ :=
  let s := line.writeByte DS18B20_CMD_MATCH_ROM s
  let s := (List.ofFn rom).foldl (fun s b => line.writeByte b s) s
  let s := line.writeByte DS18B20_CMD_READ_SCRATCHPAD s
  line.readBytes 9 s

/-- The temperature in sixteenths of a degree. -/
def onewireBusReadTemperature (rom : Rom) (s : σ) : Option Int16 × σ :=
  let (present, s) := line.reset s
  if present = false then (none, s)
  else
    let (scratchpad, s) := line.readScratchpad rom s
    if onewireCrc8 scratchpad ≠ 0 then (none, s)
    else (some ((scratchpad.getD 0 0).toUInt16 ||| (scratchpad.getD 1 0).toUInt16 <<< 8).toInt16, s)

/-! ## What is rejected -/

/-- A reading that succeeds had the CRC zero. -/
theorem readTemperature_crc {rom : Rom} {s : σ} {temperature : Int16}
    (h : (onewireBusReadTemperature line rom s).1 = some temperature) :
    onewireCrc8 (line.readScratchpad rom (line.reset s).2).1 = 0 := by
  unfold onewireBusReadTemperature at h
  obtain ⟨⟨present, s'⟩, hreset⟩ : ∃ reset, line.reset s = reset := ⟨_, rfl⟩
  simp only [hreset] at h ⊢
  split at h
  · cases h
  · split at h
    · cases h
    · rename_i hcrc
      exact not_not.1 hcrc

theorem readTemperature_burst {rom : Rom} {s : σ} {scratchpad : Bytes} (hcrc : onewireCrc8 scratchpad = 0)
    (hburst : Burst 8 scratchpad (line.readScratchpad rom (line.reset s).2).1) :
    (onewireBusReadTemperature line rom s).1 = none := by
  rw [Option.eq_none_iff_forall_ne_some]
  intro temperature h
  exact onewireCrc8_burst hburst (hcrc.trans (readTemperature_crc line h).symm)

theorem rom_burst {rom rom' : Rom} (hcrc : onewireCrc8 (List.ofFn rom) = 0)
    (hburst : Burst 8 (List.ofFn rom) (List.ofFn rom')) : romAccepted rom' = false := by
  rw [Bool.eq_false_iff]
  intro haccepted
  obtain ⟨hvalid, -⟩ := (romAccepted_iff rom').1 haccepted
  exact onewireCrc8_burst hburst (hcrc.trans ((validRom_iff rom').1 hvalid).symm)

/-- A search that succeeds accepts the code it found. -/
theorem searchNext_accepted {s s' : SearchState} (h : onewireSearchNext s = some (true, s')) :
    romAccepted s'.rom = true := by
  unfold onewireSearchNext at h
  split at h
  · cases h
  · dsimp only at h
    split at h
    · cases h
    · split at h
      · cases h
      · cases h
      · obtain ⟨haccepted, rfl⟩ := Prod.mk.inj (Option.some.inj h)
        exact haccepted

/-- **The residue law.** A string followed by a byte has the CRC zero just when
the byte is its CRC. After a burst of up to eight wrong bits the CRC is no
longer zero, and the search and the reading of a temperature reject the code or
the scratchpad. -/
theorem onewire_residue :
    (∀ (d : Bytes) (c : UInt8), onewireCrc8 (d ++ [c]) = 0 ↔ c = onewireCrc8 d) ∧
      (∀ data data', onewireCrc8 data = 0 → Burst 8 data data' → onewireCrc8 data' ≠ 0) ∧
      (∀ rom rom' : Rom, onewireCrc8 (List.ofFn rom) = 0 → Burst 8 (List.ofFn rom) (List.ofFn rom') →
        romAccepted rom' = false) ∧
      (∀ s found s' (rom : Rom), onewireSearchNext s = some (found, s') → onewireCrc8 (List.ofFn rom) = 0 →
        Burst 8 (List.ofFn rom) (List.ofFn s'.rom) → found = false) ∧
      ∀ (σ : Type) (line : OneWireLine σ) (rom : Rom) (s : σ) (scratchpad : Bytes), onewireCrc8 scratchpad = 0 →
        Burst 8 scratchpad (line.readScratchpad rom (line.reset s).2).1 →
          (onewireBusReadTemperature line rom s).1 = none := by
  refine ⟨?_, ?_, ?_, ?_, ?_⟩
  · intro d c
    exact onewireCrc8_concat
  · intro data data' hcrc hburst hcrc'
    exact onewireCrc8_burst hburst (hcrc.trans hcrc'.symm)
  · intro rom rom' hcrc hburst
    exact rom_burst hcrc hburst
  · intro s found s' rom hnext hcrc hburst
    cases found with
    | false => rfl
    | true =>
      have hfalse := rom_burst hcrc hburst
      rw [searchNext_accepted hnext] at hfalse
      cases hfalse
  · intro σ line rom s scratchpad hcrc hburst
    exact readTemperature_burst line hcrc hburst

/-- Eight wrong bits across two bytes of a sensor's code. -/
theorem onewire_residue_sensor : romAccepted ![0x28, 1, 2, 3, 0xF4, 0x0A, 6, 158] = false := by
  have hburst : Burst 8 [0x28, 1, 2, 3, 4, 5, 6, 158] [0x28, 1, 2, 3, 0xF4, 0x0A, 6, 158] := by
    refine ⟨rfl, by decide, 36, ?_⟩
    intro i
    by_cases hi : i < 64
    · revert i
      decide +kernel
    · intro hdiffer
      rw [List.getElem?_eq_none (by rw [bits_length]; simpa using hi),
        List.getElem?_eq_none (by rw [bits_length]; simpa using hi)] at hdiffer
      exact absurd rfl hdiffer
  have hcrc : onewireCrc8 [0x28, 1, 2, 3, 4, 5, 6, 158] = 0 := by decide +kernel
  exact onewire_residue.2.2.1 ![0x28, 1, 2, 3, 4, 5, 6, 158] _ hcrc hburst

end BLEBridge
