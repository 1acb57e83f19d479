import BLEBridge.Lib.NorFlash
/-!
# The flash layout

The regions of `memmap_storage.ld` (`bootloader_memmap.ld` has the same ones).
Addresses are those of the memory-mapped flash, which starts at `XIP_BASE`; the
flash itself is addressed by the offset from there.
-/
open Lib

namespace BLEBridge

def XIP_BASE : Nat := 0x10000000

/-- A line of the linker script's `MEMORY` block. -/
structure Region where
  origin : Nat
  length : Nat

def BOOTLOADER : Region := ⟨0x10000000, 124 * 1024⟩
def UPDATE_METADATA : Region := ⟨0x1001f000, 4 * 1024⟩
def FLASH : Region := ⟨0x10020000, 896 * 1024⟩
def FIRMWARE_COPY : Region := ⟨0x10100000, 896 * 1024⟩
def STORAGE : Region := ⟨0x101e0000, 128 * 1024⟩

/-- Where the region starts in the flash. -/
def Region.offset (r : Region) : Nat := r.origin - XIP_BASE

/-- The flash offset lies in the region. -/
def Region.Has (r : Region) (i : Nat) : Prop := r.offset ≤ i ∧ i < r.offset + r.length

@[simp] theorem metadata_offset : UPDATE_METADATA.offset = 126976 := rfl
@[simp] theorem metadata_length : UPDATE_METADATA.length = 4096 := rfl
@[simp] theorem flash_offset : FLASH.offset = 131072 := rfl
@[simp] theorem flash_length : FLASH.length = 917504 := rfl
@[simp] theorem copy_offset : FIRMWARE_COPY.offset = 1048576 := rfl
@[simp] theorem copy_length : FIRMWARE_COPY.length = 917504 := rfl

/-- The metadata sector's bytes. -/
def metadataSector (m : Mem) : Bytes := read m UPDATE_METADATA.offset FLASH_SECTOR_SIZE

/-- The first `n` bytes of the firmware copy. -/
def firmwareCopy (m : Mem) (n : Nat) : Bytes := read m FIRMWARE_COPY.offset n

/-- The first `n` bytes of the active firmware. -/
def activeFirmware (m : Mem) (n : Nat) : Bytes := read m FLASH.offset n

end BLEBridge
