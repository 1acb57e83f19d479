import BLEBridge.OneWireBus
/-!
# The CRC of a ROM code

The remainder and the byte being taken in only ever matter through their
exclusive or. So a string ends in its own CRC just when its CRC is zero.
-/
open Lib

namespace BLEBridge

/-- One shift of the remainder. -/
def crc8Shift (c : UInt8) : UInt8 := if c &&& 1 ≠ 0 then (c >>> 1) ^^^ 0x8C else c >>> 1

theorem crc8Bit_xor (state : UInt8 × UInt8) :
    (crc8Bit state).1 ^^^ (crc8Bit state).2 = crc8Shift (state.1 ^^^ state.2) := by
  obtain ⟨crc, inbyte⟩ := state
  have hshift : (crc ^^^ inbyte) >>> 1 = crc >>> 1 ^^^ inbyte >>> 1 := UInt8.shiftRight_xor
  by_cases hmix : (crc ^^^ inbyte) &&& 1 ≠ 0
  · simp only [crc8Bit, crc8Shift, if_pos hmix, hshift]
    ac_rfl
  · simp only [crc8Bit, crc8Shift, if_neg hmix, hshift]

theorem crc8Bits_xor (n : Nat) (state : UInt8 × UInt8) :
    (crc8Bit^[n] state).1 ^^^ (crc8Bit^[n] state).2 = crc8Shift^[n] (state.1 ^^^ state.2) := by
  induction n generalizing state with
  | zero => rfl
  | succ n ih => rw [Function.iterate_succ_apply, Function.iterate_succ_apply, ih, crc8Bit_xor]

/-- After eight shifts nothing is left of the byte taken in. -/
theorem crc8Bits_inbyte (state : UInt8 × UInt8) : (crc8Bit^[8] state).2 = 0 := by
  have h : ∀ b : UInt8, b >>> 1 >>> 1 >>> 1 >>> 1 >>> 1 >>> 1 >>> 1 >>> 1 = 0 := by decide +kernel
  exact h state.2

theorem crc8Byte_eq (crc inbyte : UInt8) : crc8Byte crc inbyte = crc8Shift^[8] (crc ^^^ inbyte) := by
  have h := crc8Bits_xor 8 (crc, inbyte)
  rw [crc8Bits_inbyte, UInt8.xor_zero] at h
  exact h

theorem crc8Byte_eq_zero {crc inbyte : UInt8} : crc8Byte crc inbyte = 0 ↔ inbyte = crc := by
  have h : ∀ c : UInt8, crc8Shift^[8] c = 0 ↔ c = 0 := by decide +kernel
  rw [crc8Byte_eq, h, UInt8.xor_eq_zero_iff]
  exact eq_comm

/-- The CRC of a string followed by a byte is zero just when the byte is the
string's CRC. -/
theorem onewireCrc8_concat {data : Bytes} {c : UInt8} : onewireCrc8 (data ++ [c]) = 0 ↔ c = onewireCrc8 data := by
  unfold onewireCrc8
  rw [List.foldl_append]
  exact crc8Byte_eq_zero

/-- A ROM code of any family: its last byte is the CRC of the others. -/
def ValidRom (rom : Rom) : Prop := rom 7 = onewireCrc8 (List.ofFn fun i : Fin 7 => rom i.castSucc)

theorem validRom_iff (rom : Rom) : ValidRom rom ↔ onewireCrc8 (List.ofFn rom) = 0 := by
  rw [List.ofFn_succ_last, onewireCrc8_concat]
  rfl

/-- The search returns the valid codes of the DS18B20 family. -/
theorem romAccepted_iff (rom : Rom) : romAccepted rom = true ↔ ValidRom rom ∧ rom 0 = DS18B20_FAMILY_CODE := by
  unfold romAccepted
  rw [Bool.and_eq_true, decide_eq_true_iff, decide_eq_true_iff, validRom_iff]

end BLEBridge
