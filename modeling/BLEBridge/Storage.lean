import BLEBridge.Memmap
/-!
# The storage volume

`storage_backend.c`, which keeps the USB disk in the last region of the flash,
and its two users: the block device of FatFs (`fatfs_diskio.c`) and the USB mass
storage callbacks (`usb_msc_storage.c`). A caller's buffer is the memory it
points to. `fault n` says that the `n`-th `flash_safe_execute` of a write fails,
which then does nothing.
-/
open Lib

namespace BLEBridge

def STORAGE_BLOCK_SIZE : UInt32 := 512

def storageBackendOffsetBytes : UInt32 := UInt32.ofNat STORAGE.offset

def storageBackendSizeBytes : UInt32 := UInt32.ofNat STORAGE.length

def storageBackendBoundsCheck (byteOffset size : UInt32) : Bool :=
  let totalSize := storageBackendSizeBytes
  if byteOffset > totalSize then false
  else if size > totalSize - byteOffset then false
  else true

/-- What is copied to the buffer, or `none` when it returns false. -/
def storageBackendRead (m : Mem) (byteOffset size : UInt32) : Option Bytes :=
  if storageBackendBoundsCheck byteOffset size = false then none
  else some (read m (storageBackendOffsetBytes.toNat + byteOffset.toNat) size.toNat)

def storageBackendProgramSector (flashOffset : Nat) (sectorBuffer : Bytes) (m : Mem) : Mem :=
  actAll (rewriteSector flashOffset sectorBuffer) m

/-- The loop of `storage_backend_write`: a sector at a time is read, changed in
the buffer and written back. `n` calls of `flash_safe_execute` came before, and
`pos` bytes of the data have been written. -/
def storageWriteLoop (fault : Nat → Bool) (data : Mem) (n byteOffset size pos : Nat) (m : Mem) : Bool × Mem :=
  if size = 0 then (true, m)
  else
    let sectorIndex := byteOffset / FLASH_SECTOR_SIZE
    let sectorOffset := byteOffset % FLASH_SECTOR_SIZE
    let sectorFlashOffset := storageBackendOffsetBytes.toNat + sectorIndex * FLASH_SECTOR_SIZE
    let chunkSize := min (FLASH_SECTOR_SIZE - sectorOffset) size
    let sectorBuffer := memcpy (read m sectorFlashOffset FLASH_SECTOR_SIZE) sectorOffset (read data pos chunkSize)
    if fault n then (false, m)
    else storageWriteLoop fault data (n + 1) (byteOffset + chunkSize) (size - chunkSize) (pos + chunkSize)
      (storageBackendProgramSector sectorFlashOffset sectorBuffer m)
termination_by size
decreasing_by
  have := Nat.mod_lt byteOffset (show 0 < FLASH_SECTOR_SIZE by decide)
  omega

/-- Whether it returned true, and the flash. -/
def storageBackendWrite (fault : Nat → Bool) (byteOffset size : UInt32) (data : Mem) (m : Mem) : Bool × Mem :=
  if storageBackendBoundsCheck byteOffset size = false then (false, m)
  else storageWriteLoop fault data 0 byteOffset.toNat size.toNat 0 m

/-! ## FatFs -/

inductive DResult where
  | resOk
  | resError
  | resParerr
  deriving DecidableEq

/-- The result, and what is copied to the buffer. -/
def diskRead (m : Mem) (pdrv : UInt8) (sector count : UInt32) : DResult × Option Bytes :=
  let offset := sector * STORAGE_BLOCK_SIZE
  let size := count * STORAGE_BLOCK_SIZE
  if pdrv ≠ 0 then (.resParerr, none)
  else
    match storageBackendRead m offset size with
    | some data => (.resOk, some data)
    | none => (.resError, none)

/-- The result, and the flash. -/
def diskWrite (fault : Nat → Bool) (m : Mem) (pdrv : UInt8) (data : Mem) (sector count : UInt32) :
    DResult × Mem :=
  let offset := sector * STORAGE_BLOCK_SIZE
  let size := count * STORAGE_BLOCK_SIZE
  if pdrv ≠ 0 then (.resParerr, m)
  else
    let r := storageBackendWrite fault offset size data m
    (if r.1 then .resOk else .resError, r.2)

/-! ## USB mass storage -/

/-- The sense key and its additional codes, as `tud_msc_set_sense` takes them. -/
structure Sense where
  key : UInt8
  asc : UInt8
  ascq : UInt8

def SCSI_SENSE_ILLEGAL_REQUEST : UInt8 := 0x05
def SCSI_SENSE_HARDWARE_ERROR : UInt8 := 0x04

/-- What a callback returns, and the sense data it sets. -/
structure MscReply where
  ret : Int32
  sense : Option Sense

/-- The reply, and what is copied to the buffer. -/
def tudMscRead10Cb (m : Mem) (lba offset bufsize : UInt32) : MscReply × Option Bytes :=
  let byteOffset := lba * STORAGE_BLOCK_SIZE + offset
  match storageBackendRead m byteOffset bufsize with
  | none => (⟨-1, some ⟨SCSI_SENSE_ILLEGAL_REQUEST, 0x21, 0x00⟩⟩, none)
  | some data => (⟨bufsize.toInt32, none⟩, some data)

/-- The reply, and the flash. -/
def tudMscWrite10Cb (fault : Nat → Bool) (m : Mem) (lba offset : UInt32) (buffer : Mem) (bufsize : UInt32) :
    MscReply × Mem :=
  let byteOffset := lba * STORAGE_BLOCK_SIZE + offset
  let r := storageBackendWrite fault byteOffset bufsize buffer m
  (if r.1 then ⟨bufsize.toInt32, none⟩ else ⟨-1, some ⟨SCSI_SENSE_HARDWARE_ERROR, 0x44, 0x00⟩⟩, r.2)

/-! ## The bounds check -/

@[simp] theorem storage_offset : STORAGE.offset = 1966080 := rfl
@[simp] theorem storage_length : STORAGE.length = 131072 := rfl
@[simp] theorem offsetBytes_toNat : storageBackendOffsetBytes.toNat = STORAGE.offset := rfl
@[simp] theorem sizeBytes_toNat : storageBackendSizeBytes.toNat = STORAGE.length := rfl

/-- The check is exact on what it is given. -/
theorem boundsCheck_iff (byteOffset size : UInt32) :
    storageBackendBoundsCheck byteOffset size = true ↔ byteOffset.toNat + size.toNat ≤ STORAGE.length := by
  have hs := sizeBytes_toNat
  have hb : ¬byteOffset > storageBackendSizeBytes ↔ byteOffset.toNat ≤ STORAGE.length := by
    rw [UInt32.not_lt, UInt32.le_iff_toNat_le, hs]
  unfold storageBackendBoundsCheck
  by_cases h : byteOffset > storageBackendSizeBytes
  · have hgt := mt hb.2 (not_not.2 h)
    simp only [if_pos h]
    exact ⟨fun h' => (by cases h'), fun h' => absurd (show byteOffset.toNat ≤ STORAGE.length by omega) hgt⟩
  · have hle := hb.1 h
    have hsub : (storageBackendSizeBytes - byteOffset).toNat = STORAGE.length - byteOffset.toNat := by
      rw [UInt32.toNat_sub_of_le _ _ (UInt32.le_iff_toNat_le.2 (by rw [hs]; exact hle)), hs]
    have hlt : size > storageBackendSizeBytes - byteOffset ↔ STORAGE.length - byteOffset.toNat < size.toNat := by
      rw [gt_iff_lt, UInt32.lt_iff_toNat_lt, hsub]
    simp only [if_neg h]
    by_cases h' : size > storageBackendSizeBytes - byteOffset
    · have := hlt.1 h'
      rw [if_pos h']
      exact ⟨fun h => (by cases h), fun h => by omega⟩
    · have := mt hlt.2 h'
      rw [if_neg h']
      exact ⟨fun _ => by omega, fun _ => rfl⟩

/-! ## The write loop -/

/-- How many bytes of a write at `byteOffset` lie in its first `k` sectors. -/
def sectorBytes (byteOffset size k : Nat) : Nat :=
  min size (k * FLASH_SECTOR_SIZE - byteOffset % FLASH_SECTOR_SIZE)

/-- Changing the bytes of one sector in the buffer and writing it back. -/
theorem programSector_eq (m data : Mem) (byteOffset chunk pos : Nat)
    (hc : byteOffset % FLASH_SECTOR_SIZE + chunk ≤ FLASH_SECTOR_SIZE) :
    storageBackendProgramSector (STORAGE.offset + byteOffset / FLASH_SECTOR_SIZE * FLASH_SECTOR_SIZE)
        (memcpy (read m (STORAGE.offset + byteOffset / FLASH_SECTOR_SIZE * FLASH_SECTOR_SIZE) FLASH_SECTOR_SIZE)
          (byteOffset % FLASH_SECTOR_SIZE) (read data pos chunk)) m =
      patch m (STORAGE.offset + byteOffset) (fun i => data (pos + i)) chunk := by
  have hs : FLASH_SECTOR_SIZE = 4096 := rfl
  rw [hs] at hc ⊢
  generalize hbase : STORAGE.offset + byteOffset / 4096 * 4096 = base
  have hoff : STORAGE.offset + byteOffset = base + byteOffset % 4096 := by omega
  have hl : (memcpy (read m base 4096) (byteOffset % 4096) (read data pos chunk)).length = 4096 := by
    rw [memcpy_length _ _ _ (by simp only [read_length]; omega), read_length]
  funext i
  unfold storageBackendProgramSector
  rw [rewriteSector_all _ _ hl, hoff]
  unfold patch
  by_cases hi : base ≤ i ∧ i < base + 4096
  · rw [if_pos hi, memcpy_getD _ _ _ (by rw [read_length]; omega), read_length]
    by_cases hin : byteOffset % 4096 ≤ i - base ∧ i - base < byteOffset % 4096 + chunk
    · rw [if_pos hin, if_pos (by omega), read_getD _ _ _ _ (by omega)]
      exact congrArg data (by omega)
    · rw [if_neg hin, if_neg (by omega), read_getD _ _ _ _ (by omega)]
      exact congrArg m (by omega)
  · rw [if_neg hi, if_neg (by omega)]

/-- One round of the write loop. -/
theorem writeLoop_step (fault : Nat → Bool) (data : Mem)
    (n byteOffset pos : Nat) {size : Nat} (hsize : 0 < size) (m : Mem) {chunk : Nat}
    (hchunk : chunk = min (FLASH_SECTOR_SIZE - byteOffset % FLASH_SECTOR_SIZE) size) :
    storageWriteLoop fault data n byteOffset size pos m =
      if fault n then (false, m)
      else storageWriteLoop fault data (n + 1) (byteOffset + chunk) (size - chunk) (pos + chunk)
        (patch m (STORAGE.offset + byteOffset) (fun i => data (pos + i)) chunk) := by
  have hlt := Nat.mod_lt byteOffset (show 0 < FLASH_SECTOR_SIZE by decide)
  have hp := programSector_eq m data byteOffset chunk pos (by omega)
  rw [storageWriteLoop, if_neg (by omega)]
  simp only [offsetBytes_toNat, ← hchunk, hp]

theorem sectorBytes_zero (byteOffset size : Nat) : sectorBytes byteOffset size 0 = 0 := by
  simp [sectorBytes]

theorem sectorBytes_mono (byteOffset size : Nat) {j k : Nat} (h : j ≤ k) :
    sectorBytes byteOffset size j ≤ sectorBytes byteOffset size k := by
  have hs : FLASH_SECTOR_SIZE = 4096 := rfl
  unfold sectorBytes
  rw [hs]
  omega

theorem sectorBytes_succ (byteOffset size k : Nat) {chunk : Nat}
    (hchunk : chunk = min (FLASH_SECTOR_SIZE - byteOffset % FLASH_SECTOR_SIZE) size) :
    sectorBytes byteOffset size (k + 1) = chunk + sectorBytes (byteOffset + chunk) (size - chunk) k := by
  have hs : FLASH_SECTOR_SIZE = 4096 := rfl
  unfold sectorBytes
  rw [hs] at hchunk ⊢
  rcases Nat.le_total (4096 - byteOffset % 4096) size with h | h
  · have hmod : (byteOffset + chunk) % 4096 = 0 := by omega
    omega
  · have hrest : size - chunk = 0 := by omega
    omega

/-- The write loop stores all the data if no `flash_safe_execute` fails, and
else what lies in the sectors before. -/
theorem writeLoop_spec (fault : Nat → Bool) (data : Mem) (n byteOffset size pos : Nat) (m : Mem) :
    ((∀ k, sectorBytes byteOffset size k < size → fault (n + k) = false) →
        storageWriteLoop fault data n byteOffset size pos m =
          (true, patch m (STORAGE.offset + byteOffset) (fun i => data (pos + i)) size)) ∧
      ∀ k, sectorBytes byteOffset size k < size → fault (n + k) = true → (∀ j < k, fault (n + j) = false) →
        storageWriteLoop fault data n byteOffset size pos m =
          (false, patch m (STORAGE.offset + byteOffset) (fun i => data (pos + i))
            (sectorBytes byteOffset size k)) := by
  induction hz : size using Nat.strong_induction_on generalizing n byteOffset pos m size with
  | _ size' ih =>
    subst hz
    rcases Nat.eq_zero_or_pos size with rfl | hpos
    · refine ⟨fun _ => ?_, fun k hk => absurd hk (Nat.not_lt_zero _)⟩
      rw [storageWriteLoop, if_pos rfl, patch_zero]
    · obtain ⟨chunk, hchunk⟩ : ∃ c, c = min (FLASH_SECTOR_SIZE - byteOffset % FLASH_SECTOR_SIZE) size := ⟨_, rfl⟩
      have hlt := Nat.mod_lt byteOffset (show 0 < FLASH_SECTOR_SIZE by decide)
      obtain ⟨hok, hfail⟩ := ih (size - chunk) (by omega) (n + 1) (byteOffset + chunk) (size - chunk)
        (pos + chunk)
        (patch m (STORAGE.offset + byteOffset) (fun i => data (pos + i)) chunk) rfl
      have hjoin : ∀ b, patch (patch m (STORAGE.offset + byteOffset) (fun i => data (pos + i)) chunk)
          (STORAGE.offset + (byteOffset + chunk)) (fun i => data (pos + chunk + i)) b =
            patch m (STORAGE.offset + byteOffset) (fun i => data (pos + i)) (chunk + b) := fun b => by
        rw [← patch_patch, ← Nat.add_assoc]
        simp only [Nat.add_assoc]
      rw [writeLoop_step fault data n byteOffset pos hpos m hchunk]
      refine ⟨fun hclean => ?_, fun k hk hf hbefore => ?_⟩
      · rw [if_neg (by simpa using hclean 0 (by rw [sectorBytes_zero]; exact hpos)), hok ?_, hjoin]
        · congr 2
          omega
        · intro k hk
          rw [Nat.add_assoc, Nat.add_comm 1 k]
          refine hclean (k + 1) ?_
          rw [sectorBytes_succ _ _ _ hchunk]
          omega
      · rcases k with _ | k
        · rw [if_pos (by simpa using hf), sectorBytes_zero, patch_zero]
        · rw [sectorBytes_succ _ _ _ hchunk] at hk ⊢
          rw [if_neg (by simpa using hbefore 0 (Nat.succ_pos k)), hfail k (by omega) ?_ ?_, hjoin]
          · rwa [Nat.add_assoc, Nat.add_comm 1 k]
          · intro j hj
            rw [Nat.add_assoc, Nat.add_comm 1 j]
            exact hbefore (j + 1) (by omega)

end BLEBridge
