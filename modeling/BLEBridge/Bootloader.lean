import BLEBridge.Manifest
/-!
# The bootloader

`bootloader_stub.c`. A boot checks the metadata sector and the staged copy,
copies the image over the active firmware, checks it and erases the metadata
sector; otherwise it jumps to the application. It is modelled over a device
that logs each flash operation, so that a power cut after `k` operations leaves
the replay of the first `k` log entries.
-/
open Lib

namespace BLEBridge

def APP_IMAGE_BASE : Nat := 0x10020000
def APP_SRAM_BASE : Nat := 0x20000000
def APP_SRAM_END : Nat := 0x20042000
def APP_XIP_BASE : Nat := 0x10000000
def APP_COPY_BASE : Nat := 0x10100000
def UPDATE_METADATA_BASE : Nat := 0x1001f000
def UPDATE_METADATA_SIZE : Nat := FLASH_SECTOR_SIZE

def bootloaderFlashOffset (xipAddress : Nat) : Nat := xipAddress - APP_XIP_BASE

/-- `n` bytes at a memory-mapped address. -/
def xip (m : Mem) (address n : Nat) : Bytes := read m (bootloaderFlashOffset address) n

def bootloaderRoundUp (value alignment : Nat) : Nat :=
  (value + alignment - 1) % 2 ^ 32 &&& (2 ^ 32 - 1 - (alignment - 1))

def bootloaderAppVectorIsValid (stackPointer resetHandler expectedImageBase maxImageSize : Nat) : Bool :=
  if stackPointer < APP_SRAM_BASE ∨ stackPointer > APP_SRAM_END ∨ stackPointer &&& 0x3 ≠ 0 then false
  else if resetHandler &&& 0x1 = 0 then false
  else
    let resetAddress := resetHandler &&& (2 ^ 32 - 1 - 0x1)
    if resetAddress < expectedImageBase ∨ resetAddress ≥ expectedImageBase + maxImageSize then false
    else true

def bootloaderImageVectorsAreValid (m : Mem) (imageBase expectedImageBase imageSize : Nat) : Bool :=
  if imageSize < 8 ∨ imageSize > APP_IMAGE_SIZE then false
  else
    let vectors := xip m imageBase 8
    bootloaderAppVectorIsValid (le32 vectors 0) (le32 vectors 4) expectedImageBase imageSize

def bootloaderStagedImageIsValid (m : Mem) (manifest : FirmwareUpdateManifest) : Bool :=
  if bootloaderImageVectorsAreValid m APP_COPY_BASE APP_IMAGE_BASE manifest.imageSize = false then false
  else bootloaderCrc32 (xip m APP_COPY_BASE manifest.imageSize) = manifest.imageCrc32

/-- The loop body: one sector, through `sector_buffer`. -/
def bootloaderCopySector (d : Flash) (offset : Nat) : Flash :=
  let sectorBuffer := xip d.mem (APP_COPY_BASE + offset) FLASH_SECTOR_SIZE
  let d := d.perform (.erase (bootloaderFlashOffset (APP_IMAGE_BASE + offset)) FLASH_SECTOR_SIZE)
  (strided FLASH_SECTOR_SIZE FLASH_PAGE_SIZE).foldl (fun d pageOffset =>
    d.perform (.program (bootloaderFlashOffset (APP_IMAGE_BASE + offset + pageOffset))
      (slice sectorBuffer pageOffset FLASH_PAGE_SIZE))) d

def bootloaderCopyStagedImage (imageSize : Nat) (d : Flash) : Flash :=
  (strided (bootloaderRoundUp imageSize FLASH_SECTOR_SIZE) FLASH_SECTOR_SIZE).foldl bootloaderCopySector d

def bootloaderClearUpdateMetadata (d : Flash) : Flash :=
  d.perform (.erase (bootloaderFlashOffset UPDATE_METADATA_BASE) UPDATE_METADATA_SIZE)

/-- How a boot ends. -/
inductive BootEnd where
  | reboot
  | usbBoot
  | app (stackPointer resetHandler : Nat)
  deriving DecidableEq, Repr

/-- `none` when it returns to `main`. -/
def bootloaderTryApplyUpdate (d : Flash) : Option BootEnd × Flash :=
  let sector := xip d.mem UPDATE_METADATA_BASE UPDATE_METADATA_SIZE
  let manifest := manifestOf sector
  if bootloaderManifestIsValid sector = false then (none, d)
  else if bootloaderStagedImageIsValid d.mem manifest = false then (none, d)
  else
    let d := bootloaderCopyStagedImage manifest.imageSize d
    if bootloaderCrc32 (xip d.mem APP_IMAGE_BASE manifest.imageSize) ≠ manifest.imageCrc32 then (some .reboot, d)
    else (some .reboot, bootloaderClearUpdateMetadata d)

def bootloaderJumpToApp (m : Mem) (appBase : Nat) : BootEnd :=
  let vectors := xip m appBase 8
  let stackPointer := le32 vectors 0
  let resetHandler := le32 vectors 4
  if bootloaderAppVectorIsValid stackPointer resetHandler appBase APP_IMAGE_SIZE = false then .usbBoot
  else .app stackPointer resetHandler

/-- `main`, from power-up on the flash contents `m`. -/
def bootloaderMain (m : Mem) : BootEnd × Flash :=
  let r := bootloaderTryApplyUpdate (Device.start m)
  match r.1 with
  | some e => (e, r.2)
  | none => (bootloaderJumpToApp r.2.mem APP_IMAGE_BASE, r.2)

/-- `main` gets as far as `bootloader_jump_to_app`. -/
def ReachesJump (m : Mem) : Prop := (bootloaderTryApplyUpdate (Device.start m)).1 = none

/-- The flash when the power is cut after the boot's first `k` operations. -/
def powerCut (k : Nat) (m : Mem) : Mem := replay ((bootloaderMain m).2.log.take k) m

/-! ## When an update is applied -/

/-- The two checks that a boot makes before it writes anything. -/
structure Applicable (m : Mem) : Prop where
  manifest : bootloaderManifestIsValid (metadataSector m) = true
  staged : bootloaderStagedImageIsValid m (manifestOf (metadataSector m)) = true

instance (m : Mem) : Decidable (Applicable m) :=
  decidable_of_iff (bootloaderManifestIsValid (metadataSector m) = true ∧
    bootloaderStagedImageIsValid m (manifestOf (metadataSector m)) = true)
    ⟨fun h => ⟨h.1, h.2⟩, fun h => ⟨h.1, h.2⟩⟩

/-- The image size in the metadata sector. -/
def pendingSize (m : Mem) : Nat := (manifestOf (metadataSector m)).imageSize

/-- The number of sectors the image takes. -/
def pendingSectors (m : Mem) : Nat := (pendingSize m + 4095) / 4096

/-- What a boot does when the update is applicable. -/
def applyPlan (m : Mem) : List FlashOp :=
  copySectors FIRMWARE_COPY.offset FLASH.offset m (pendingSectors m) ++ [.erase UPDATE_METADATA.offset 4096]

theorem pendingSize_le {m : Mem} (h : Applicable m) : pendingSize m ≤ 917504 :=
  ((bootValid_iff _).1 h.manifest).size_le

theorem and_not_4095 (x : Nat) (h : x < 2 ^ 32) : x &&& (2 ^ 32 - 1 - 4095) = x / 4096 * 4096 := by
  have hb : (2 : Nat) ^ 32 - 1 - 4095 = 2 ^ 12 * (2 ^ 20 - 1) := by decide
  rw [hb, show x / 4096 * 4096 = 2 ^ 12 * (x / 2 ^ 12) by omega]
  apply Nat.eq_of_testBit_eq
  intro i
  rw [Nat.testBit_and, Nat.testBit_two_pow_mul, Nat.testBit_two_pow_mul, Nat.testBit_two_pow_sub_one,
    Nat.testBit_div_two_pow]
  by_cases h12 : 12 ≤ i
  · rw [show i - 12 + 12 = i by omega]
    by_cases h32 : i < 32
    · simp [h12, show i - 12 < 20 by omega]
    · have : x.testBit i = false :=
        Nat.testBit_lt_two_pow (lt_of_lt_of_le h (Nat.pow_le_pow_right (by omega) (by omega)))
      simp [this]
  · simp [h12]

theorem roundUp_sector {n : Nat} (h : n ≤ 917504) :
    bootloaderRoundUp n FLASH_SECTOR_SIZE = 4096 * ((n + 4095) / 4096) := by
  have hs : FLASH_SECTOR_SIZE = 4096 := rfl
  rw [bootloaderRoundUp, hs, Nat.mod_eq_of_lt (by omega), and_not_4095 _ (by omega)]
  omega

theorem pageOffsets : strided FLASH_SECTOR_SIZE FLASH_PAGE_SIZE = (List.range 16).map (256 * ·) := by
  decide

theorem xip_metadata (m : Mem) : xip m UPDATE_METADATA_BASE UPDATE_METADATA_SIZE = metadataSector m := rfl

theorem xip_image (m : Mem) (n : Nat) : xip m APP_IMAGE_BASE n = activeFirmware m n := rfl

theorem xip_copy (m : Mem) (n : Nat) : xip m APP_COPY_BASE n = firmwareCopy m n := rfl

theorem copySector_eq (d : Flash) (i : Nat) :
    bootloaderCopySector d (4096 * i) =
      (rewriteSector (FLASH.offset + 4096 * i) (read d.mem (FIRMWARE_COPY.offset + 4096 * i) 4096)).foldl
        (fun d o => d.perform o) d := by
  have h1 : bootloaderFlashOffset (APP_IMAGE_BASE + 4096 * i) = FLASH.offset + 4096 * i := by
    simp only [bootloaderFlashOffset, APP_IMAGE_BASE, APP_XIP_BASE, flash_offset]; omega
  have h2 : bootloaderFlashOffset (APP_COPY_BASE + 4096 * i) = FIRMWARE_COPY.offset + 4096 * i := by
    simp only [bootloaderFlashOffset, APP_COPY_BASE, APP_XIP_BASE, copy_offset]; omega
  have h3 : ∀ p, bootloaderFlashOffset (APP_IMAGE_BASE + 4096 * i + p) = FLASH.offset + 4096 * i + p :=
    fun p => by
    simp only [bootloaderFlashOffset, APP_IMAGE_BASE, APP_XIP_BASE, flash_offset]; omega
  simp only [bootloaderCopySector, xip, h1, h2, h3, rewriteSector, List.foldl_cons, List.foldl_map, pageOffsets]
  simp only [FLASH_SECTOR_SIZE, FLASH_PAGE_SIZE]

/-- The copy loop reads only the staged copy, which it does not write. -/
theorem copyLoop_eq (d : Flash) (n : Nat) (hn : n ≤ 224) :
    ((List.range n).map (4096 * ·)).foldl bootloaderCopySector d =
      ⟨actAll (copySectors FIRMWARE_COPY.offset FLASH.offset d.mem n) d.mem,
        d.log ++ (copySectors FIRMWARE_COPY.offset FLASH.offset d.mem n).map (·, true)⟩ := by
  induction n with
  | zero => simp [copySectors]
  | succ n ih =>
    have hsrc : read (actAll (copySectors FIRMWARE_COPY.offset FLASH.offset d.mem n) d.mem)
        (FIRMWARE_COPY.offset + 4096 * n) 4096 = read d.mem (FIRMWARE_COPY.offset + 4096 * n) 4096 :=
      read_actAll_outside (copySectors_within _ _ _ _) _ (.inr (by simp only [flash_offset, copy_offset]; omega))
    rw [List.range_succ, List.map_append, List.foldl_append, ih (by omega), List.map_singleton, List.foldl_cons,
      List.foldl_nil, copySector_eq, foldl_perform]
    simp only [hsrc, copySectors_succ, actAll_append, List.map_append, List.append_assoc]

theorem copyStagedImage_eq (d : Flash) {n : Nat} (h : n ≤ 917504) :
    bootloaderCopyStagedImage n d =
      ⟨actAll (copySectors FIRMWARE_COPY.offset FLASH.offset d.mem ((n + 4095) / 4096)) d.mem,
        d.log ++ (copySectors FIRMWARE_COPY.offset FLASH.offset d.mem ((n + 4095) / 4096)).map (·, true)⟩ := by
  rw [bootloaderCopyStagedImage, roundUp_sector h, strided, ← copyLoop_eq d _ (by omega)]
  congr 3
  simp only [FLASH_SECTOR_SIZE]
  omega

/-- After the copy the active firmware is the staged image, so the check before
the metadata is cleared passes. -/
theorem copied_eq (m : Mem) {n k : Nat} (hk : k ≤ 4096 * n) :
    activeFirmware (actAll (copySectors FIRMWARE_COPY.offset FLASH.offset m n) m) k = firmwareCopy m k := by
  refine (read_eq_iff _ _ _ _ _).2 fun i hi => ?_
  rw [copySectors_mem, if_pos (by omega), show FLASH.offset + i - FLASH.offset = i by omega]

/-- The staged image's own checks, in terms of its bytes. -/
theorem stagedValid_iff (m : Mem) (manifest : FirmwareUpdateManifest) :
    bootloaderStagedImageIsValid m manifest = true ↔
      (8 ≤ manifest.imageSize ∧ manifest.imageSize ≤ APP_IMAGE_SIZE) ∧
        bootloaderAppVectorIsValid (le32 (firmwareCopy m 8) 0) (le32 (firmwareCopy m 8) 4) APP_IMAGE_BASE
          manifest.imageSize = true ∧
        bootloaderCrc32 (firmwareCopy m manifest.imageSize) = manifest.imageCrc32 := by
  rw [bootloaderStagedImageIsValid, bootloaderImageVectorsAreValid, xip_copy, xip_copy]
  by_cases hs : manifest.imageSize < 8 ∨ manifest.imageSize > APP_IMAGE_SIZE
  · rw [if_pos hs, if_pos rfl]
    exact ⟨fun h => (by cases h), fun h => absurd h.1 (by omega)⟩
  · rw [if_neg hs]
    by_cases hv : bootloaderAppVectorIsValid (le32 (firmwareCopy m 8) 0) (le32 (firmwareCopy m 8) 4)
      APP_IMAGE_BASE
        manifest.imageSize = true
    · rw [hv, if_neg (by decide), decide_eq_true_iff]
      exact ⟨fun h => ⟨by omega, rfl, h⟩, fun h => h.2.2⟩
    · rw [if_pos (Bool.eq_false_iff.2 hv)]
      exact ⟨fun h => (by cases h), fun h => absurd h.2.1 hv⟩

/-- What is good for an image size is good for any larger one. -/
theorem appVector_mono {sp reset base n n' : Nat} (h : bootloaderAppVectorIsValid sp reset base n = true)
    (hn : n ≤ n') : bootloaderAppVectorIsValid sp reset base n' = true := by
  simp only [bootloaderAppVectorIsValid] at h ⊢
  split at h
  · cases h
  · rename_i h1
    rw [if_neg h1]
    split at h
    · cases h
    · rename_i h2
      rw [if_neg h2]
      split at h
      · cases h
      · rw [if_neg (by omega)]

theorem stagedCrc {m : Mem} (h : Applicable m) :
    bootloaderCrc32 (firmwareCopy m (pendingSize m)) = (manifestOf (metadataSector m)).imageCrc32 :=
  ((stagedValid_iff _ _).1 h.staged).2.2

/-- **What a boot does**: an applicable update is copied, found good and
cleared; anything else is left alone. -/
theorem tryApply_eq (m : Mem) :
    bootloaderTryApplyUpdate (Device.start m) =
      if Applicable m then (some .reboot, ⟨actAll (applyPlan m) m, (applyPlan m).map (·, true)⟩)
      else (none, Device.start m) := by
  have hmem : (Device.start m : Flash).mem = m := rfl
  rw [bootloaderTryApplyUpdate]
  simp only [hmem, xip_metadata, xip_image]
  by_cases h : Applicable m
  · have hsz := pendingSize_le h
    have hsz' : (manifestOf (metadataSector m)).imageSize = pendingSize m := rfl
    have hcrc : bootloaderCrc32 (activeFirmware (actAll (copySectors FIRMWARE_COPY.offset FLASH.offset m
        ((pendingSize m + 4095) / 4096)) m) (pendingSize m)) = (manifestOf (metadataSector m)).imageCrc32 := by
      rw [copied_eq m (by omega), stagedCrc h]
    rw [if_neg (by simp [h.manifest]), if_neg (by simp [h.staged]), if_pos h, hsz', copyStagedImage_eq _ hsz]
    simp only [hmem]
    rw [if_neg (not_not.2 hcrc), bootloaderClearUpdateMetadata, Device.perform, applyPlan, actAll_append,
      pendingSectors,
      List.map_append]
    rfl
  · rw [if_neg h]
    cases h1 : bootloaderManifestIsValid (metadataSector m) with
    | false => rw [if_pos rfl]
    | true =>
      have h2 : bootloaderStagedImageIsValid m (manifestOf (metadataSector m)) = false :=
        Bool.eq_false_iff.2 fun h2 => h ⟨h1, h2⟩
      rw [if_neg (by decide), if_pos h2]

theorem main_applicable {m : Mem} (h : Applicable m) :
    bootloaderMain m = (.reboot, ⟨actAll (applyPlan m) m, (applyPlan m).map (·, true)⟩) := by
  have ht := tryApply_eq m
  rw [if_pos h] at ht
  unfold bootloaderMain
  rw [ht]

theorem main_not_applicable {m : Mem} (h : ¬Applicable m) :
    bootloaderMain m = (bootloaderJumpToApp m APP_IMAGE_BASE, Device.start m) := by
  have ht := tryApply_eq m
  rw [if_neg h] at ht
  unfold bootloaderMain
  rw [ht]
  rfl

theorem reachesJump_iff (m : Mem) : ReachesJump m ↔ ¬Applicable m := by
  rw [ReachesJump, tryApply_eq]
  by_cases h : Applicable m <;> simp [h]

end BLEBridge
