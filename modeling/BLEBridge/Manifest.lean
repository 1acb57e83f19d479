import BLEBridge.Lib.Crc
import BLEBridge.Memmap
/-!
# The update manifest

`firmware_update.h`, and the two programs' checks of it: the application checks
the header of an upload (`app_firmware_update.c`), the bootloader the metadata
sector (`bootloader_stub.c`). Both read the manifest from the first 64 bytes;
`appValid_iff_bootValid` says they accept the same ones.
-/
open Lib

namespace BLEBridge

def FIRMWARE_UPDATE_MAGIC : Nat := 0x55424250
def FIRMWARE_UPDATE_MANIFEST_VERSION : Nat := 1
def FIRMWARE_UPDATE_FLAG_PENDING : Nat := 1

/-- `sizeof(firmware_update_manifest_t)` -/
def SIZEOF_MANIFEST : Nat := 64

/-- `offsetof(firmware_update_manifest_t, header_crc32)` -/
def OFFSETOF_HEADER_CRC32 : Nat := 60

/-- The little-endian `uint32_t` at index `off`. -/
def le32 (b : Bytes) (off : Nat) : Nat :=
  (b.getD off 0).toNat + 2 ^ 8 * (b.getD (off + 1) 0).toNat + 2 ^ 16 * (b.getD (off + 2) 0).toNat +
    2 ^ 24 * (b.getD (off + 3) 0).toNat

/-- `firmware_update_manifest_t`, less `sequence` and `reserved`, which nothing reads. -/
structure FirmwareUpdateManifest where
  magic : Nat
  version : Nat
  headerSize : Nat
  flags : Nat
  imageSize : Nat
  imageCrc32 : Nat
  headerCrc32 : Nat
  deriving DecidableEq, Repr

/-- The manifest that a byte string starts with. -/
def manifestOf (b : Bytes) : FirmwareUpdateManifest where
  magic := le32 b 0
  version := le32 b 4
  headerSize := le32 b 8
  flags := le32 b 12
  imageSize := le32 b 16
  imageCrc32 := le32 b 20
  headerCrc32 := le32 b 60

/-! ## `app_firmware_update.c` -/

def APP_FIRMWARE_UPDATE_HEADER_SIZE : Nat := FLASH_SECTOR_SIZE
def APP_FIRMWARE_UPDATE_CRC32_POLY : BitVec 32 := 0xedb88320

def appFirmwareUpdateCrc32Update (crc : BitVec 32) (data : Bytes) : BitVec 32 :=
  crcUpdate APP_FIRMWARE_UPDATE_CRC32_POLY crc data

def appFirmwareUpdateCrc32 (data : Bytes) : Nat :=
  (appFirmwareUpdateCrc32Update 0xffffffff data ^^^ 0xffffffff).toNat

def appFirmwareUpdateImageMaxSize : Nat := FIRMWARE_COPY.length

/-- The manifest it hands back is `manifestOf header`. -/
def appFirmwareUpdateManifestIsValid (header : Bytes) (contentLen : Nat) : Bool :=
  let manifest := manifestOf header
  if contentLen < APP_FIRMWARE_UPDATE_HEADER_SIZE then false
  else if manifest.magic ≠ FIRMWARE_UPDATE_MAGIC ∨
      manifest.version ≠ FIRMWARE_UPDATE_MANIFEST_VERSION ∨
      manifest.headerSize ≠ SIZEOF_MANIFEST ∨
      manifest.flags &&& FIRMWARE_UPDATE_FLAG_PENDING = 0 ∨
      manifest.imageSize = 0 ∨
      manifest.imageSize > appFirmwareUpdateImageMaxSize ∨
      contentLen ≠ APP_FIRMWARE_UPDATE_HEADER_SIZE + manifest.imageSize then false
  else appFirmwareUpdateCrc32 (header.take OFFSETOF_HEADER_CRC32) = manifest.headerCrc32

/-! ## `bootloader_stub.c` -/

def CRC32_POLY : BitVec 32 := 0xedb88320
def APP_IMAGE_SIZE : Nat := 896 * 1024

def bootloaderCrc32Update (crc : BitVec 32) (data : Bytes) : BitVec 32 := crcUpdate CRC32_POLY crc data

def bootloaderCrc32 (data : Bytes) : Nat := (bootloaderCrc32Update 0xffffffff data ^^^ 0xffffffff).toNat

/-- Every byte of the metadata sector is `0xff` or `0x00`. -/
def bootloaderManifestIsBlank (sector : Bytes) : Bool := sector.all fun b => b = 0xff ∨ b = 0x00

def bootloaderManifestIsValid (sector : Bytes) : Bool :=
  let manifest := manifestOf sector
  if bootloaderManifestIsBlank sector then false
  else if manifest.magic ≠ FIRMWARE_UPDATE_MAGIC ∨
      manifest.version ≠ FIRMWARE_UPDATE_MANIFEST_VERSION ∨
      manifest.headerSize ≠ SIZEOF_MANIFEST ∨
      manifest.flags &&& FIRMWARE_UPDATE_FLAG_PENDING = 0 ∨
      manifest.imageSize = 0 ∨
      manifest.imageSize > APP_IMAGE_SIZE then false
  else bootloaderCrc32 (sector.take OFFSETOF_HEADER_CRC32) = manifest.headerCrc32

/-! ## One notion of a valid manifest -/

/-- What both checks ask of the manifest. -/
structure ManifestOk (b : Bytes) : Prop where
  magic : (manifestOf b).magic = FIRMWARE_UPDATE_MAGIC
  version : (manifestOf b).version = FIRMWARE_UPDATE_MANIFEST_VERSION
  header_size : (manifestOf b).headerSize = SIZEOF_MANIFEST
  pending : (manifestOf b).flags &&& FIRMWARE_UPDATE_FLAG_PENDING ≠ 0
  size_pos : 0 < (manifestOf b).imageSize
  size_le : (manifestOf b).imageSize ≤ APP_IMAGE_SIZE
  crc : bootloaderCrc32 (b.take OFFSETOF_HEADER_CRC32) = (manifestOf b).headerCrc32

theorem crc32_eq : appFirmwareUpdateCrc32 = bootloaderCrc32 := rfl

/-- The magic number's own bytes are neither `0xff` nor `0x00`. -/
theorem not_blank_of_magic {b : Bytes} (h : (manifestOf b).magic = FIRMWARE_UPDATE_MAGIC) :
    bootloaderManifestIsBlank b = false := by
  rw [Bool.eq_false_iff]
  intro hb
  have hall : ∀ x ∈ b, x = 0xff ∨ x = 0x00 := by simpa [bootloaderManifestIsBlank] using hb
  have hbyte : ∀ i, (b.getD i 0).toNat = 255 ∨ (b.getD i 0).toNat = 0 := by
    intro i
    by_cases hi : i < b.length
    · rw [getD_of_lt _ _ _ hi]
      rcases hall _ (List.getElem_mem hi) with h | h <;> rw [h]
      · exact .inl rfl
      · exact .inr rfl
    · rw [List.getD_eq_default _ _ (by omega)]
      exact .inr rfl
  simp only [manifestOf, le32, FIRMWARE_UPDATE_MAGIC] at h
  have h0 := hbyte 0
  have h1 := hbyte 1
  have h2 := hbyte 2
  have h3 := hbyte 3
  simp only [Nat.zero_add] at h
  omega

theorem bootValid_iff (b : Bytes) : bootloaderManifestIsValid b = true ↔ ManifestOk b := by
  constructor
  · intro h
    simp only [bootloaderManifestIsValid] at h
    split at h
    · cases h
    · split at h
      · cases h
      · rename_i hf
        simp only [not_or, not_not, gt_iff_lt, not_lt] at hf
        obtain ⟨h1, h2, h3, h4, h5, h6⟩ := hf
        exact ⟨h1, h2, h3, h4, by omega, h6, by simpa using h⟩
  · intro h
    obtain ⟨h1, h2, h3, h4, h5, h6, h7⟩ := h
    simp only [bootloaderManifestIsValid, not_blank_of_magic h1, Bool.false_eq_true, if_false]
    rw [if_neg]
    · simpa using h7
    · simp only [not_or, not_not, gt_iff_lt, not_lt]
      exact ⟨h1, h2, h3, h4, by omega, h6⟩

theorem appValid_iff (b : Bytes) (n : Nat) :
    appFirmwareUpdateManifestIsValid b n = true ↔ ManifestOk b ∧ n = 4096 + (manifestOf b).imageSize := by
  have hmax : appFirmwareUpdateImageMaxSize = APP_IMAGE_SIZE := rfl
  have hhdr : APP_FIRMWARE_UPDATE_HEADER_SIZE = 4096 := rfl
  constructor
  · intro h
    simp only [appFirmwareUpdateManifestIsValid] at h
    split at h
    · cases h
    · split at h
      · cases h
      · rename_i hf
        simp only [not_or, not_not, gt_iff_lt, not_lt] at hf
        obtain ⟨h1, h2, h3, h4, h5, h6, h7⟩ := hf
        exact ⟨⟨h1, h2, h3, h4, by omega, hmax ▸ h6, crc32_eq ▸ of_decide_eq_true h⟩, h7⟩
  · rintro ⟨⟨h1, h2, h3, h4, h5, h6, h7⟩, rfl⟩
    simp only [appFirmwareUpdateManifestIsValid]
    rw [if_neg (by omega), if_neg]
    · exact decide_eq_true (crc32_eq ▸ h7)
    · simp only [not_or, not_not, gt_iff_lt, not_lt]
      exact ⟨h1, h2, h3, h4, by omega, hmax ▸ h6, by rw [hhdr]⟩

theorem getD_take (b : Bytes) (n i : Nat) (h : i < n) : (b.take n).getD i 0 = b.getD i 0 := by
  simp [List.getD, h]

/-- Only the first 64 bytes matter. -/
theorem manifestOf_congr {b b' : Bytes} (h : b.take 64 = b'.take 64) : manifestOf b = manifestOf b' := by
  have hg : ∀ i < 64, b.getD i 0 = b'.getD i 0 := fun i hi => by
    rw [← getD_take b 64 i hi, h, getD_take b' 64 i hi]
  simp only [manifestOf, le32]
  simp (disch := omega) only [hg]

theorem manifestOk_congr {b b' : Bytes} (h : b.take 64 = b'.take 64) : ManifestOk b ↔ ManifestOk b' := by
  have hm := manifestOf_congr h
  have ht : b.take OFFSETOF_HEADER_CRC32 = b'.take OFFSETOF_HEADER_CRC32 := by
    have := congrArg (List.take 60) h
    simpa [List.take_take, OFFSETOF_HEADER_CRC32] using this
  constructor <;> rintro ⟨h1, h2, h3, h4, h5, h6, h7⟩
  · rw [hm] at h1 h2 h3 h4 h5 h6 h7
    exact ⟨h1, h2, h3, h4, h5, h6, ht ▸ h7⟩
  · rw [← hm] at h1 h2 h3 h4 h5 h6 h7
    exact ⟨h1, h2, h3, h4, h5, h6, ht ▸ h7⟩

theorem crc32_lt (data : Bytes) : bootloaderCrc32 data < 2 ^ 32 := BitVec.isLt _

/-! ## A header for an image -/

/-- The bytes of a little-endian `uint32_t`. -/
def bytes32 (n : Nat) : Bytes :=
  [UInt8.ofNat n, UInt8.ofNat (n / 2 ^ 8), UInt8.ofNat (n / 2 ^ 16), UInt8.ofNat (n / 2 ^ 24)]

/-- The manifest's fields up to its own CRC. -/
def headerFields (img : Bytes) : Bytes :=
  bytes32 FIRMWARE_UPDATE_MAGIC ++ bytes32 FIRMWARE_UPDATE_MANIFEST_VERSION ++ bytes32 SIZEOF_MANIFEST ++
    bytes32 FIRMWARE_UPDATE_FLAG_PENDING ++ bytes32 img.length ++ bytes32 (bootloaderCrc32 img) ++
      List.replicate 36 0

/-- A 4096-byte header that describes `img`. -/
def headerFor (img : Bytes) : Bytes :=
  headerFields img ++ bytes32 (bootloaderCrc32 (headerFields img)) ++ List.replicate 4032 0

/-- The smallest image that boots: a stack pointer and a reset handler. -/
def vectorsOnly : Bytes := bytes32 0x20042000 ++ bytes32 0x10020001

@[simp] theorem bytes32_length (n : Nat) : (bytes32 n).length = 4 := rfl

@[simp] theorem headerFields_length (img : Bytes) : (headerFields img).length = 60 := by simp [headerFields]

@[simp] theorem headerFor_length (img : Bytes) : (headerFor img).length = 4096 := by
  rw [headerFor, List.length_append, List.length_append, headerFields_length, bytes32_length,
    List.length_replicate]

theorem le32_append_left (a b : Bytes) {off : Nat} (h : off + 4 ≤ a.length) : le32 (a ++ b) off = le32 a off := by
  have hg : ∀ i < a.length, (a ++ b).getD i 0 = a.getD i 0 := fun i hi => List.getD_append _ _ _ _ hi
  simp only [le32]
  simp (disch := omega) only [hg]

theorem le32_append_right (a b : Bytes) (off : Nat) : le32 (a ++ b) (a.length + off) = le32 b off := by
  have hg : ∀ i, (a ++ b).getD (a.length + i) 0 = b.getD i 0 := fun i => by
    rw [List.getD_append_right _ _ _ _ (by omega), Nat.add_sub_cancel_left]
  simp only [le32, Nat.add_assoc, hg]

theorem le32_bytes32 {n : Nat} (h : n < 2 ^ 32) : le32 (bytes32 n) 0 = n := by
  simp only [le32, bytes32, List.getD_cons_zero, Nat.zero_add, List.getD_cons_succ, UInt8.toNat_ofNat']
  omega

/-- A field of a header: four bytes after `a`. -/
theorem le32_field (a b : Bytes) {n : Nat} (h : n < 2 ^ 32) : le32 (a ++ bytes32 n ++ b) a.length = n := by
  rw [le32_append_left _ _ (by simp)]
  exact (le32_append_right a (bytes32 n) 0).trans (le32_bytes32 h)

theorem manifestOf_headerFor {img : Bytes} (h : img.length < 2 ^ 32) :
    manifestOf (headerFor img) = ⟨FIRMWARE_UPDATE_MAGIC, FIRMWARE_UPDATE_MANIFEST_VERSION, SIZEOF_MANIFEST,
      FIRMWARE_UPDATE_FLAG_PENDING, img.length, bootloaderCrc32 img, bootloaderCrc32 (headerFields img)⟩ := by
  have hin : ∀ off, off + 4 ≤ 60 → le32 (headerFor img) off = le32 (headerFields img) off := fun off ho => by
    rw [headerFor, List.append_assoc, le32_append_left _ _ (by simpa using ho)]
  have hcrc : le32 (headerFor img) 60 = bootloaderCrc32 (headerFields img) := by
    have := le32_field (headerFields img) (List.replicate 4032 0) (crc32_lt (headerFields img))
    rwa [headerFields_length] at this
  have hmagic := le32_field [] (bytes32 FIRMWARE_UPDATE_MANIFEST_VERSION ++ (bytes32 SIZEOF_MANIFEST ++
    (bytes32 FIRMWARE_UPDATE_FLAG_PENDING ++ (bytes32 img.length ++ (bytes32 (bootloaderCrc32 img) ++
      List.replicate 36 0))))) (show FIRMWARE_UPDATE_MAGIC < 2 ^ 32 by decide)
  have hver := le32_field (bytes32 FIRMWARE_UPDATE_MAGIC) (bytes32 SIZEOF_MANIFEST ++
    (bytes32 FIRMWARE_UPDATE_FLAG_PENDING ++ (bytes32 img.length ++ (bytes32 (bootloaderCrc32 img) ++
      List.replicate 36 0)))) (show FIRMWARE_UPDATE_MANIFEST_VERSION < 2 ^ 32 by decide)
  have hhdr := le32_field (bytes32 FIRMWARE_UPDATE_MAGIC ++ bytes32 FIRMWARE_UPDATE_MANIFEST_VERSION)
    (bytes32 FIRMWARE_UPDATE_FLAG_PENDING ++ (bytes32 img.length ++ (bytes32 (bootloaderCrc32 img) ++
      List.replicate 36 0))) (show SIZEOF_MANIFEST < 2 ^ 32 by decide)
  have hflags := le32_field (bytes32 FIRMWARE_UPDATE_MAGIC ++ bytes32 FIRMWARE_UPDATE_MANIFEST_VERSION ++
    bytes32 SIZEOF_MANIFEST) (bytes32 img.length ++ (bytes32 (bootloaderCrc32 img) ++ List.replicate 36 0))
    (show FIRMWARE_UPDATE_FLAG_PENDING < 2 ^ 32 by decide)
  have hsize := le32_field (bytes32 FIRMWARE_UPDATE_MAGIC ++ bytes32 FIRMWARE_UPDATE_MANIFEST_VERSION ++
    bytes32 SIZEOF_MANIFEST ++ bytes32 FIRMWARE_UPDATE_FLAG_PENDING)
    (bytes32 (bootloaderCrc32 img) ++ List.replicate 36 0) h
  have himg := le32_field (bytes32 FIRMWARE_UPDATE_MAGIC ++ bytes32 FIRMWARE_UPDATE_MANIFEST_VERSION ++
    bytes32 SIZEOF_MANIFEST ++ bytes32 FIRMWARE_UPDATE_FLAG_PENDING ++ bytes32 img.length)
    (List.replicate 36 0) (crc32_lt img)
  simp only [List.nil_append, List.append_assoc, List.length_append, List.length_nil, bytes32_length,
    Nat.reduceAdd] at hmagic hver hhdr hflags hsize himg
  simp only [manifestOf, hcrc, hin, Nat.reduceAdd, Nat.reduceLeDiff, headerFields, List.append_assoc,
    hmagic, hver,
    hhdr, hflags, hsize, himg]

/-- Every image of a legal size has a header that is accepted for it. -/
theorem headerFor_ok {img : Bytes} (h0 : 0 < img.length) (h : img.length ≤ APP_IMAGE_SIZE) :
    ManifestOk (headerFor img) := by
  have hmax : APP_IMAGE_SIZE = 917504 := rfl
  have hm := manifestOf_headerFor (show img.length < 2 ^ 32 by omega)
  have ht : (headerFor img).take OFFSETOF_HEADER_CRC32 = headerFields img := by
    rw [headerFor, List.append_assoc, List.take_append_of_le_length (by simp [OFFSETOF_HEADER_CRC32])]
    exact List.take_of_length_le (by simp [OFFSETOF_HEADER_CRC32])
  constructor <;> rw [hm]
  · exact show FIRMWARE_UPDATE_FLAG_PENDING &&& FIRMWARE_UPDATE_FLAG_PENDING ≠ 0 by decide
  · exact h0
  · exact h
  · rw [ht]

/-- An erased sector holds no manifest. -/
theorem not_manifestOk_erased {b : Bytes} (h : ∀ i < 4, b.getD i 0 = 0xff) : ¬ManifestOk b := by
  intro hb
  have := hb.magic
  simp only [manifestOf, le32, Nat.zero_add, h 0 (by omega), h 1 (by omega), h 2 (by omega),
    h 3 (by omega)] at this
  exact absurd this (by decide)

end BLEBridge
