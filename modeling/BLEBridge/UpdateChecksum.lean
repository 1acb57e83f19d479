import BLEBridge.Lib.Burst
import BLEBridge.Bootloader
/-!
# The checksum of an update

Both programs check an image by the same CRC. An image with a burst of wrong
bits has a different one, so the bootloader neither takes such a staged image
nor clears the update after such a copy.
-/
open Lib

namespace BLEBridge

/-- The end of `bootloader_try_apply_update`, on the flash as the copy left it. -/
def bootloaderCheckCopy (manifest : FirmwareUpdateManifest) (d : Flash) : Option BootEnd × Flash :=
  if bootloaderCrc32 (xip d.mem APP_IMAGE_BASE manifest.imageSize) ≠ manifest.imageCrc32 then (some .reboot, d)
  else (some .reboot, bootloaderClearUpdateMetadata d)

theorem tryApply_checkCopy (d : Flash) :
    bootloaderTryApplyUpdate d =
      let manifest := manifestOf (xip d.mem UPDATE_METADATA_BASE UPDATE_METADATA_SIZE)
      if bootloaderManifestIsValid (xip d.mem UPDATE_METADATA_BASE UPDATE_METADATA_SIZE) = false then (none, d)
      else if bootloaderStagedImageIsValid d.mem manifest = false then (none, d)
      else bootloaderCheckCopy manifest (bootloaderCopyStagedImage manifest.imageSize d) := rfl

theorem crc32Update_flatten (crc : BitVec 32) (pieces : List Bytes) :
    appFirmwareUpdateCrc32Update crc pieces.flatten = pieces.foldl appFirmwareUpdateCrc32Update crc :=
  crcUpdate_flatten _ crc pieces

/-- A burst changes the CRC: the last exclusive or does not undo it. -/
theorem crc32_burst {data data' : Bytes} (h : Burst 32 data data') :
    bootloaderCrc32 data ≠ bootloaderCrc32 data' := by
  intro heq
  have hregister := BitVec.eq_of_toNat_eq heq
  rw [BitVec.xor_left_inj] at hregister
  exact crcUpdate_burst (by decide) (by decide) h hregister

variable {m : Mem} {manifest : FirmwareUpdateManifest} {image : Bytes}

theorem staged_burst (hcrc : manifest.imageCrc32 = bootloaderCrc32 image)
    (hburst : Burst 32 image (firmwareCopy m manifest.imageSize)) :
    bootloaderStagedImageIsValid m manifest = false := by
  rw [Bool.eq_false_iff]
  intro hvalid
  obtain ⟨-, -, hstaged⟩ := (stagedValid_iff m manifest).1 hvalid
  exact crc32_burst hburst (hcrc.symm.trans hstaged.symm)

theorem copy_burst {d : Flash} (hcrc : manifest.imageCrc32 = bootloaderCrc32 image)
    (hburst : Burst 32 image (activeFirmware d.mem manifest.imageSize)) :
    bootloaderCheckCopy manifest d = (some .reboot, d) := by
  unfold bootloaderCheckCopy
  rw [if_pos]
  intro hcopy
  exact crc32_burst hburst (hcrc.symm.trans hcopy.symm)

/-- **The checksum catches bursts.** The two programs compute the same CRC, in
any pieces; a burst of up to 32 bits changes it; so a boot on a staged image with
such a burst leaves the flash alone and goes on to the application, and after a
copy with such a burst the update stays pending. -/
theorem update_checksum :
    appFirmwareUpdateCrc32 = bootloaderCrc32 ∧
      (∀ (crc : BitVec 32) (pieces : List Bytes),
        pieces.foldl appFirmwareUpdateCrc32Update crc = appFirmwareUpdateCrc32Update crc pieces.flatten) ∧
      (∀ data data', Burst 32 data data' → bootloaderCrc32 data ≠ bootloaderCrc32 data') ∧
      (∀ m manifest image, manifest.imageCrc32 = bootloaderCrc32 image →
        Burst 32 image (xip m APP_COPY_BASE manifest.imageSize) →
          bootloaderStagedImageIsValid m manifest = false) ∧
      (∀ m image, (manifestOf (metadataSector m)).imageCrc32 = bootloaderCrc32 image →
        Burst 32 image (xip m APP_COPY_BASE (pendingSize m)) → (bootloaderMain m).2 = .start m ∧ ReachesJump m) ∧
      ∀ d manifest image, manifest.imageCrc32 = bootloaderCrc32 image →
        Burst 32 image (xip d.mem APP_IMAGE_BASE manifest.imageSize) →
        bootloaderCheckCopy manifest d = (some .reboot, d) := by
  refine ⟨crc32_eq, ?_, ?_, ?_, ?_, ?_⟩
  · intro crc pieces
    exact (crc32Update_flatten crc pieces).symm
  · intro data data' h
    exact crc32_burst h
  · intro m manifest image hcrc hburst
    exact staged_burst hcrc hburst
  · intro m image hcrc hburst
    have hnot : ¬Applicable m := by
      intro happ
      have hfalse := staged_burst hcrc hburst
      rw [happ.staged] at hfalse
      cases hfalse
    exact ⟨by rw [main_not_applicable hnot], (reachesJump_iff m).2 hnot⟩
  · intro d manifest image hcrc hburst
    exact copy_burst hcrc hburst

/-- A burst over the first 32 bits of five bytes, found in the active firmware
of a blank flash. -/
theorem update_checksum_five :
    let manifest := { manifestOf [] with imageSize := 5, imageCrc32 := bootloaderCrc32 [1, 0, 0, 0x80, 0] }
    bootloaderCheckCopy manifest (Device.start fun _ => 0) = (some .reboot, Device.start fun _ => 0) := by
  have hburst : Burst 32 [1, 0, 0, 0x80, 0] [0, 0, 0, 0, 0] := by
    refine ⟨rfl, by decide, 0, ?_⟩
    intro i hi
    refine ⟨Nat.zero_le i, ?_⟩
    by_contra hlast
    apply hi
    change ((bits [1, 0, 0, 0x80] ++ bits [0])[i]?) = (bits [0, 0, 0, 0] ++ bits [0])[i]?
    have hlength : (bits [1, 0, 0, 0x80]).length = 32 ∧ (bits [0, 0, 0, 0]).length = 32 := ⟨rfl, rfl⟩
    rw [List.getElem?_append_right (by omega), List.getElem?_append_right (by omega), hlength.1, hlength.2]
  exact update_checksum.2.2.2.2.2 _ _ _ rfl hburst

end BLEBridge
