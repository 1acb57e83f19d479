import BLEBridge.Lib.Effects
import BLEBridge.Upload
import BLEBridge.StorageArray
/-!
# The writers of the flash while the application runs

Two parts of the application write to the flash, in any order and interleaved: the
OTA writer and the storage. Whatever is in the flash and whichever operations fail,
the first stays in the firmware copy and the metadata sector (`Call.run_ready`),
the second in the storage (`diskOps_within`).
-/
open Lib

namespace BLEBridge

/-- The operation stays in the region. -/
def Region.Keeps (r : Region) (o : FlashOp) : Prop := o.Within r.offset (r.offset + r.length)

/-- An operation of the OTA writer. -/
def OtaOp (o : FlashOp) : Prop := FIRMWARE_COPY.Keeps o ∨ UPDATE_METADATA.Keeps o

/-- What the state of the writer keeps whatever the flash does. While an upload is
going on well, the counters agree. -/
structure Ready (s : AppFirmwareUpdateState) : Prop where
  page_length : s.page.length = 256
  erased : s.erasedUpTo % 4096 = 0
  size : s.imageSize ≤ 917504
  counters : s.active = true → s.result = .ok → s.imageReceived = s.received - 4096 ∧
    s.imageReceived ≤ s.imageSize ∧
    s.pageFill ≤ s.imageReceived ∧ s.imageReceived % 256 = s.pageFill % 256

variable {fault : Nat → Bool} {w : Ota}

/-! ## Pages -/

theorem otaOp_erase {off : Nat} (hoff : off < 917504) (haligned : off % 4096 = 0) :
    OtaOp (.erase (copyStart + off) FLASH_SECTOR_SIZE) := by
  have hsector : FLASH_SECTOR_SIZE = 4096 := rfl
  have hstart : copyStart = 1048576 := rfl
  refine .inl ⟨?_, ?_⟩
  · rw [copy_offset]
    omega
  · rw [copy_offset, copy_length]
    omega

theorem otaOp_program {off : Nat} {data : Bytes} (h : off + data.length ≤ 917504) :
    OtaOp (.program (copyStart + off) data) := by
  have hstart : copyStart = 1048576 := rfl
  refine .inl ⟨?_, ?_⟩
  · rw [copy_offset]
    omega
  · rw [copy_offset, copy_length]
    omega

theorem eraseUpTo_goesOn {pageOffset : Nat} (hpage : pageOffset < 917504) (w : Ota)
    (herased : w.upd.erasedUpTo % 4096 = 0) :
    ∃ e, (eraseUpTo fault pageOffset w).2.upd = { w.upd with erasedUpTo := e } ∧ e % 4096 = 0 ∧
      w.flash.GoesOn OtaOp (eraseUpTo fault pageOffset w).2.flash := by
  have hsector : FLASH_SECTOR_SIZE = 4096 := rfl
  fun_induction eraseUpTo fault pageOffset w with
  | case1 w hle r hok ih =>
    obtain ⟨e, hupd, he, hgoes⟩ := ih (by dsimp only; omega)
    exact ⟨e, hupd, he, (goesOn_exec fault (otaOp_erase (by omega) herased) w.flash).trans hgoes⟩
  | case2 w hle r hfail =>
    exact ⟨w.upd.erasedUpTo, rfl, herased, goesOn_exec fault (otaOp_erase (by omega) herased) w.flash⟩
  | case3 w hgt => exact ⟨w.upd.erasedUpTo, rfl, herased, goesOn_refl _ _⟩

theorem flushPage_goesOn {pageOffset : Nat} (w : Ota) (hpage : pageOffset + w.upd.page.length ≤ 917504)
    (hlength : w.upd.page.length = 256) (herased : w.upd.erasedUpTo % 4096 = 0) :
    ∃ e, (flushPage fault pageOffset w).2.upd = { w.upd with erasedUpTo := e } ∧ e % 4096 = 0 ∧
      w.flash.GoesOn OtaOp (flushPage fault pageOffset w).2.flash := by
  obtain ⟨e, hupd, he, hgoes⟩ := @eraseUpTo_goesOn fault pageOffset (by omega) w herased
  unfold flushPage
  dsimp only
  split
  · refine ⟨e, hupd, he, hgoes.trans (goesOn_exec fault (otaOp_program ?_) _)⟩
    rw [hupd]
    exact hpage
  · exact ⟨e, hupd, he, hgoes⟩

/-! ## Image bytes -/

/-- Image bytes have been written, from the state `s` on. -/
structure Wrote (s : AppFirmwareUpdateState) (n : Nat) (d : Flash) (w : Ota) : Prop where
  same : SameUpload s w.upd
  page_length : w.upd.page.length = 256
  erased : w.upd.erasedUpTo % 4096 = 0
  counters : w.upd.result = .ok → w.upd.imageReceived = s.imageReceived + n ∧
    w.upd.imageReceived ≤ w.upd.imageSize ∧
    w.upd.pageFill ≤ w.upd.imageReceived ∧ w.upd.imageReceived % 256 = w.upd.pageFill % 256
  goes : d.GoesOn OtaOp w.flash

theorem takeChunk_counts {data : Bytes} {s : AppFirmwareUpdateState} (hpage : s.page.length = 256) :
    let c := min data.length (FLASH_PAGE_SIZE - s.pageFill)
    let s' := s.takeChunk (data.take c) chunk_le
    s'.page.length = 256 ∧ s'.imageReceived = s.imageReceived + c ∧ s'.pageFill = s.pageFill + c ∧
      (data.drop c).length = data.length - c := by
  intro c s'
  have hsize : FLASH_PAGE_SIZE = 256 := rfl
  have hc : (data.take c).length = c := by
    rw [List.length_take]
    omega
  have hfill := s.fill_le
  have hpage' : (memcpy s.page s.pageFill (data.take c)).length = 256 := by
    rw [memcpy_length _ _ _ (by omega), hpage]
  refine ⟨hpage', ?_, ?_, List.length_drop⟩
  · exact congrArg (s.imageReceived + ·) hc
  · exact congrArg (s.pageFill + ·) hc

theorem Wrote.after {s s' : AppFirmwareUpdateState} {n k : Nat} {d d' : Flash} {w : Ota} (h : Wrote s' k d' w)
    (hsame : SameUpload s s') (hgoes : d.GoesOn OtaOp d') (hn : s'.imageReceived + k = s.imageReceived + n) :
    Wrote s n d w := by
  refine ⟨hsame.trans h.same, h.page_length, h.erased, fun hok => ?_, hgoes.trans h.goes⟩
  rw [← hn]
  exact h.counters hok

/-- An upload that is no longer well. -/
theorem wrote_failed {s s' : AppFirmwareUpdateState}
    {n : Nat} {d d' : Flash} {result : AppFirmwareUpdateResult} (hne : result ≠ .ok) (hsame : SameUpload s s')
    (hpage : s'.page.length = 256) (herased : s'.erasedUpTo % 4096 = 0) (hgoes : d.GoesOn OtaOp d') :
    Wrote s n d ⟨appFirmwareUpdateFail result s', d'⟩ := by
  have hfields : SameUpload s (appFirmwareUpdateFail result s') ∧
    (appFirmwareUpdateFail result s').page.length = 256 ∧
      (appFirmwareUpdateFail result s').erasedUpTo % 4096 = 0 := by
    unfold appFirmwareUpdateFail
    split
    · exact ⟨hsame, hpage, herased⟩
    · exact ⟨⟨hsame.active, hsame.header_valid, hsame.content_len, hsame.received, hsame.image_size,
        hsame.header⟩, hpage, herased⟩
  refine ⟨hfields.1, hfields.2.1, hfields.2.2, fun hok => ?_, hgoes⟩
  rw [fail_result] at hok
  exact absurd hok hne

theorem writeImageData_wrote (data : Bytes) (w : Ota) (hpage : w.upd.page.length = 256)
    (herased : w.upd.erasedUpTo % 4096 = 0) (hsize : w.upd.imageSize ≤ 917504)
    (hle : w.upd.imageReceived ≤ w.upd.imageSize) (hfill : w.upd.pageFill ≤ w.upd.imageReceived)
    (hmod : w.upd.imageReceived % 256 = w.upd.pageFill % 256) :
    Wrote w.upd data.length w.flash (appFirmwareUpdateWriteImageData fault data w).2 := by
  have hpagesize : FLASH_PAGE_SIZE = 256 := rfl
  have hself (s : AppFirmwareUpdateState) : SameUpload s s := ⟨rfl, rfl, rfl, rfl, rfl, rfl⟩
  fun_induction appFirmwareUpdateWriteImageData fault data w with
  | case1 data w hnil =>
    refine ⟨hself _, hpage, herased, fun _ => ⟨?_, hle, hfill, hmod⟩, goesOn_refl _ _⟩
    rw [hnil]
    rfl
  | case2 data w hne chunk s hbig =>
    obtain ⟨hpage', -, -, -⟩ := @takeChunk_counts data w.upd hpage
    exact wrote_failed (by decide) ⟨rfl, rfl, rfl, rfl, rfl, rfl⟩ hpage' herased (goesOn_refl _ _)
  | case3 data w hne chunk s hbig hfull r hok ih =>
    obtain ⟨hpage', hreceived, hcount, hdrop⟩ : s.page.length = 256 ∧
      s.imageReceived = w.upd.imageReceived + chunk ∧
      s.pageFill = w.upd.pageFill + chunk ∧ (data.drop chunk).length = data.length - chunk :=
        takeChunk_counts hpage
    have hchunk : chunk ≤ data.length := min_le_left _ _
    have hfits : s.imageReceived ≤ w.upd.imageSize := not_lt.1 hbig
    obtain ⟨e, hupd, he, hgoes⟩ := @flushPage_goesOn fault (s.imageReceived - FLASH_PAGE_SIZE) ⟨s, w.flash⟩
      (by dsimp only; omega) hpage' herased
    have hupd' : r.2.upd = { s with erasedUpTo := e } := hupd
    have hrest := ih List.length_replicate (by rw [hupd']; exact he) (by rw [hupd']; exact hsize)
      (by rw [hupd']; exact hfits)
      (Nat.zero_le _) (by rw [hupd']; exact show s.imageReceived % 256 = 0 by omega)
    refine hrest.after ?_ hgoes ?_
    · rw [hupd']
      exact ⟨rfl, rfl, rfl, rfl, rfl, rfl⟩
    · rw [hupd', hdrop]
      exact show s.imageReceived + (data.length - chunk) = _ by omega
  | case4 data w hne chunk s hbig hfull r hfail =>
    obtain ⟨hpage', hreceived, hcount, -⟩ : s.page.length = 256 ∧ s.imageReceived = w.upd.imageReceived + chunk ∧
      s.pageFill = w.upd.pageFill + chunk ∧ (data.drop chunk).length = data.length - chunk :=
        takeChunk_counts hpage
    have hfits : s.imageReceived ≤ w.upd.imageSize := not_lt.1 hbig
    obtain ⟨e, hupd, he, hgoes⟩ := @flushPage_goesOn fault (s.imageReceived - FLASH_PAGE_SIZE) ⟨s, w.flash⟩
      (by dsimp only; omega) hpage' herased
    have hupd' : r.2.upd = { s with erasedUpTo := e } := hupd
    refine wrote_failed (by decide) ?_ ?_ ?_ hgoes
    · rw [hupd']
      exact ⟨rfl, rfl, rfl, rfl, rfl, rfl⟩
    · rw [hupd']
      exact hpage'
    · rw [hupd']
      exact he
  | case5 data w hne chunk s hbig hpart ih =>
    obtain ⟨hpage', hreceived, hcount, hdrop⟩ : s.page.length = 256 ∧
      s.imageReceived = w.upd.imageReceived + chunk ∧
      s.pageFill = w.upd.pageFill + chunk ∧ (data.drop chunk).length = data.length - chunk :=
        takeChunk_counts hpage
    have hchunk : chunk ≤ data.length := min_le_left _ _
    have hrest := ih hpage' herased hsize (not_lt.1 hbig) (show s.pageFill ≤ s.imageReceived by omega)
      (show s.imageReceived % 256 = s.pageFill % 256 by omega)
    refine hrest.after ⟨rfl, rfl, rfl, rfl, rfl, rfl⟩ (goesOn_refl _ _) ?_
    rw [hdrop]
    exact show s.imageReceived + (data.length - chunk) = _ by omega

/-! ## Calls -/

theorem fail_ready {s : AppFirmwareUpdateState} {result : AppFirmwareUpdateResult}
    (hpage : s.page.length = 256) (herased : s.erasedUpTo % 4096 = 0) (hsize : s.imageSize ≤ 917504)
    (hne : result ≠ .ok) : Ready (appFirmwareUpdateFail result s) := by
  unfold appFirmwareUpdateFail
  split
  · rename_i heq
    exact ⟨hpage, herased, hsize, fun _ hok => absurd (heq.symm.trans hok) hne⟩
  · exact ⟨hpage, herased, hsize, fun _ hok => absurd hok hne⟩

theorem Ready.inactive {s : AppFirmwareUpdateState} (hpage : s.page.length = 256)
    (herased : s.erasedUpTo % 4096 = 0) (hsize : s.imageSize ≤ 917504) (hactive : s.active = false) :
    Ready s :=
  ⟨hpage, herased, hsize, fun h => by rw [hactive] at h; cases h⟩

theorem ready_zero : Ready .zero := .inactive List.length_replicate rfl (Nat.zero_le _) rfl

theorem writeLoop_ready (data : Bytes) (w : Ota) (hactive : w.upd.active = true) (h : Ready w.upd) :
    Ready (writeLoop fault data w).upd ∧ w.flash.GoesOn OtaOp (writeLoop fault data w).flash := by
  have hsize : APP_FIRMWARE_UPDATE_HEADER_SIZE = 4096 := rfl
  fun_induction writeLoop fault data w with
  | case1 data w hloop hheader headerRemaining chunk s hwhole hvalid ih =>
    obtain ⟨himage, -, hfill, hmod⟩ := h.counters hactive hloop.2
    have hzero : w.upd.imageReceived = 0 := by omega
    refine ih hactive ⟨List.length_replicate, h.erased, ?_, fun _ _ => ⟨?_, ?_, hfill, hmod⟩⟩
    · exact ((appValid_iff _ _).1 hvalid).1.size_le
    · exact hzero.trans (Nat.sub_eq_zero_of_le (hwhole.trans hsize).le).symm
    · exact hzero.trans_le (Nat.zero_le _)
  | case2 data w hloop hheader headerRemaining chunk s hwhole hvalid =>
    exact ⟨fail_ready h.page_length h.erased h.size (by decide), goesOn_refl _ _⟩
  | case3 data w hloop hheader headerRemaining chunk s hwhole ih =>
    obtain ⟨himage, hle, hfill, hmod⟩ := h.counters hactive hloop.2
    refine ih hactive ⟨h.page_length, h.erased, h.size, fun _ _ => ⟨?_, hle, hfill, hmod⟩⟩
    have hshort : s.received ≤ 4096 := by
      have hreceived : s.received = w.upd.received + chunk := rfl
      omega
    have hzero : w.upd.imageReceived = 0 := by omega
    exact hzero.trans (Nat.sub_eq_zero_of_le hshort).symm
  | case4 data w hloop hheader s =>
    obtain ⟨himage, hle, hfill, hmod⟩ := h.counters hactive hloop.2
    have hwrote := @writeImageData_wrote fault data { w with upd := s } h.page_length h.erased h.size hle
      hfill hmod
    have hreceived : s.received = (w.upd.received + data.length) % 2 ^ 32 := rfl
    have himageSize := hwrote.same.image_size
    refine ⟨⟨hwrote.page_length, hwrote.erased, himageSize.symm ▸ h.size, fun _ hok => ?_⟩, hwrote.goes⟩
    obtain ⟨hcount, hle', hrest⟩ := hwrote.counters hok
    refine ⟨?_, hle', hrest⟩
    have hbound := h.size
    rw [hwrote.same.received, hcount]
    rw [hcount, himageSize] at hle'
    change w.upd.imageReceived + data.length ≤ w.upd.imageSize at hle'
    change w.upd.imageReceived + data.length = s.received - 4096
    rw [hreceived, Nat.mod_eq_of_lt (by omega)]
    omega
  | case5 data w hdone => exact ⟨h, goesOn_refl _ _⟩

theorem otaOp_header {off : Nat} {data : Bytes} (h : off + data.length ≤ 4096) :
    OtaOp (.program (metadataStart + off) data) := by
  have hstart : metadataStart = 126976 := rfl
  refine .inr ⟨?_, ?_⟩
  · rw [metadata_offset]
    omega
  · rw [metadata_offset, metadata_length]
    omega

theorem programHeader_goesOn (header : Bytes) {offs : List Nat} (hoffs : ∀ off ∈ offs, off + 256 ≤ 4096)
    (d : Flash) : d.GoesOn OtaOp (programHeader fault header offs d).2 := by
  induction offs generalizing d with
  | nil => exact goesOn_refl _ _
  | cons off offs ih =>
    have hop : OtaOp (.program (metadataStart + off) (slice header off FLASH_PAGE_SIZE)) := by
      refine otaOp_header ((Nat.add_le_add_left ?_ off).trans (hoffs off List.mem_cons_self))
      exact List.length_take_le _ _
    unfold programHeader
    dsimp only
    split
    · exact (goesOn_exec fault hop d).trans (ih (fun o ho => hoffs o (List.mem_cons_of_mem off ho)) _)
    · exact goesOn_exec fault hop d

theorem headerOffsets : ∀ off ∈ strided APP_FIRMWARE_UPDATE_HEADER_SIZE FLASH_PAGE_SIZE, off + 256 ≤ 4096 := by
  decide

/-- What is left of the invariant while the upload is being finished. -/
structure Finishing (d : Flash) (w : Ota) : Prop where
  page_length : w.upd.page.length = 256
  erased : w.upd.erasedUpTo % 4096 = 0
  size : w.upd.imageSize ≤ 917504
  goes : d.GoesOn OtaOp w.flash

theorem finishWrite_finishing (h : Ready w.upd) (hactive : w.upd.active = true) (hok : w.upd.result = .ok) :
    Finishing w.flash (appFirmwareUpdateFinishWrite fault w).2 := by
  obtain ⟨himage, hle, hfill, hmod⟩ := h.counters hactive hok
  have hsize := h.size
  have hpage := h.page_length
  have hpagefill : w.upd.pageFill ≤ 256 := w.upd.fill_le
  unfold appFirmwareUpdateFinishWrite
  dsimp only
  -- The last page, filled up.
  generalize hp : (if w.upd.pageFill > 0 then _ else (true, w) : Bool × Ota) = p
  have hflushed : Finishing w.flash p.2 := by
    rw [← hp]
    by_cases hpos : w.upd.pageFill > 0
    · rw [if_pos hpos]
      have hpadded : (memcpy w.upd.page w.upd.pageFill
          (List.replicate (FLASH_PAGE_SIZE - w.upd.pageFill) 0xff)).length = 256 := by
        rw [memcpy_length _ _ _
          (by rw [List.length_replicate, hpage]; exact (Nat.add_sub_of_le hpagefill).le), hpage]
      obtain ⟨e, hupd, he, hgoes⟩ :=
        @flushPage_goesOn fault (w.upd.imageReceived - w.upd.pageFill) { w with upd := { w.upd with
          page := memcpy w.upd.page w.upd.pageFill (List.replicate (FLASH_PAGE_SIZE - w.upd.pageFill) 0xff) } }
        (by dsimp only; omega) hpadded h.erased
      split
      · refine ⟨?_, ?_, ?_, hgoes⟩ <;> dsimp only <;> rw [hupd]
        · exact hpadded
        · exact he
        · exact hsize
      · refine ⟨?_, ?_, ?_, hgoes⟩ <;> rw [hupd]
        · exact hpadded
        · exact he
        · exact hsize
    · rw [if_neg hpos]
      exact ⟨hpage, h.erased, hsize, goesOn_refl _ _⟩
  clear hp
  have herase : OtaOp (.erase metadataStart FLASH_SECTOR_SIZE) := .inr ⟨le_refl _, le_refl _⟩
  have hmetadata := hflushed.goes.trans (goesOn_exec fault herase p.2.flash)
  split
  · split
    · exact ⟨hflushed.page_length, hflushed.erased, hflushed.size,
        hmetadata.trans (programHeader_goesOn _ headerOffsets _)⟩
    · exact ⟨hflushed.page_length, hflushed.erased, hflushed.size, hmetadata⟩
  · exact hflushed

theorem Call.run_ready (h : Ready w.upd) (c : Call) :
    Ready (c.run fault w).upd ∧ w.flash.GoesOn OtaOp (c.run fault w).flash := by
  cases c with
  | begin n =>
    unfold Call.run appFirmwareUpdateBegin
    dsimp only
    split
    · have hne : AppFirmwareUpdateResult.invalidSize ≠ .ok := by decide
      exact ⟨fail_ready ready_zero.page_length ready_zero.erased ready_zero.size hne, goesOn_refl _ _⟩
    · have hzero : AppFirmwareUpdateState.zero.imageReceived = AppFirmwareUpdateState.zero.received - 4096 := by
        decide
      exact ⟨⟨ready_zero.page_length, ready_zero.erased, ready_zero.size,
        fun _ _ => ⟨hzero, le_refl _, le_refl _, rfl⟩⟩, goesOn_refl _ _⟩
  | write data =>
    unfold Call.run appFirmwareUpdateWrite
    dsimp only
    split
    · exact ⟨h, goesOn_refl _ _⟩
    · rename_i hactive
      exact writeLoop_ready data w (by simpa using hactive) h
  | finish =>
    unfold Call.run appFirmwareUpdateFinish
    dsimp only
    by_cases hactive : w.upd.active = true
    · rw [if_neg (by rw [hactive]; decide)]
      dsimp only
      split_ifs with hok hincomplete hwritten
      · have hready := fail_ready h.page_length h.erased h.size
          (show AppFirmwareUpdateResult.incomplete ≠ .ok by decide)
        exact ⟨.inactive hready.page_length hready.erased hready.size rfl, goesOn_refl _ _⟩
      · have hwrote := @finishWrite_finishing fault w h hactive hok
        exact ⟨.inactive hwrote.page_length hwrote.erased hwrote.size rfl, hwrote.goes⟩
      · have hwrote := @finishWrite_finishing fault w h hactive hok
        have hready := fail_ready hwrote.page_length hwrote.erased hwrote.size
          (show AppFirmwareUpdateResult.flashError ≠ .ok by decide)
        exact ⟨.inactive hready.page_length hready.erased hready.size rfl, hwrote.goes⟩
      · exact ⟨.inactive h.page_length h.erased h.size rfl, goesOn_refl _ _⟩
    · rw [if_pos (by simpa using hactive)]
      exact ⟨h, goesOn_refl _ _⟩
  | abort r =>
    unfold Call.run appFirmwareUpdateAbort
    dsimp only
    have hfail : (if r = .ok then AppFirmwareUpdateResult.incomplete else r) ≠ .ok := by
      split
      · decide
      · assumption
    have hready := fail_ready h.page_length h.erased h.size hfail
    exact ⟨.inactive hready.page_length hready.erased hready.size rfl, goesOn_refl _ _⟩

/-! ## Writes of the storage -/

/-- The flash operations of `storageWriteLoop`. -/
def storageWriteOps (fault : Nat → Bool) (data : Mem) (n byteOffset size pos : Nat) (m : Mem) : List FlashOp :=
  if size = 0 then []
  else
    let sectorFlashOffset := storageBackendOffsetBytes.toNat + byteOffset / FLASH_SECTOR_SIZE * FLASH_SECTOR_SIZE
    let chunkSize := min (FLASH_SECTOR_SIZE - byteOffset % FLASH_SECTOR_SIZE) size
    let sectorBuffer := memcpy (read m sectorFlashOffset FLASH_SECTOR_SIZE) (byteOffset % FLASH_SECTOR_SIZE)
      (read data pos chunkSize)
    if fault n then []
    else rewriteSector sectorFlashOffset sectorBuffer ++
      storageWriteOps fault data (n + 1) (byteOffset + chunkSize) (size - chunkSize)
      (pos + chunkSize) (storageBackendProgramSector sectorFlashOffset sectorBuffer m)
termination_by size
decreasing_by
  have := Nat.mod_lt byteOffset (show 0 < FLASH_SECTOR_SIZE by decide)
  omega

/-- The flash operations of `storageBackendWrite`. -/
def storageBackendWriteOps (fault : Nat → Bool) (byteOffset size : UInt32) (data m : Mem) : List FlashOp :=
  if storageBackendBoundsCheck byteOffset size = false then []
  else storageWriteOps fault data 0 byteOffset.toNat size.toNat 0 m

theorem storageWriteOps_eq (fault : Nat → Bool) (data : Mem) (n byteOffset size pos : Nat) (m : Mem) :
    (storageWriteLoop fault data n byteOffset size pos m).2 = actAll
    (storageWriteOps fault data n byteOffset size pos m) m := by
  fun_induction storageWriteOps fault data n byteOffset size pos m with
  | case1 n byteOffset pos m =>
    rw [storageWriteLoop, if_pos rfl]
    rfl
  | case2 n byteOffset size pos m hsize hfault =>
    rw [storageWriteLoop, if_neg hsize]
    dsimp only
    rw [if_pos hfault]
    rfl
  | case3 n byteOffset size pos m hsize sectorFlashOffset chunkSize sectorBuffer hfault ih =>
    rw [storageWriteLoop, if_neg hsize]
    dsimp only
    rw [if_neg hfault, actAll_append]
    exact ih

theorem storageBackendWriteOps_eq (fault : Nat → Bool) (byteOffset size : UInt32) (data m : Mem) :
    (storageBackendWrite fault byteOffset size data m).2 = actAll
    (storageBackendWriteOps fault byteOffset size data m) m := by
  unfold storageBackendWrite storageBackendWriteOps
  split
  · rfl
  · exact storageWriteOps_eq fault data 0 _ _ 0 m

theorem storageWriteOps_keeps (fault : Nat → Bool)
    (data : Mem) (n byteOffset size pos : Nat) (m : Mem) (h : byteOffset + size ≤ STORAGE.length) :
    ∀ o ∈ storageWriteOps fault data n byteOffset size pos m, STORAGE.Keeps o := by
  have hsector : FLASH_SECTOR_SIZE = 4096 := rfl
  have hlength : STORAGE.length = 131072 := rfl
  fun_induction storageWriteOps fault data n byteOffset size pos m with
  | case1 => exact fun o ho => absurd ho List.not_mem_nil
  | case2 => exact fun o ho => absurd ho List.not_mem_nil
  | case3 n byteOffset size pos m hsize sectorFlashOffset chunkSize sectorBuffer hfault ih =>
    intro o ho
    rcases List.mem_append.1 ho with ho | ho
    · have hflash : sectorFlashOffset = STORAGE.offset + byteOffset / FLASH_SECTOR_SIZE * FLASH_SECTOR_SIZE := rfl
      rw [hsector] at hflash
      exact within_mono (rewriteSector_within _ _ o ho) (by omega) (by omega)
    · exact ih (by omega) o ho

theorem storageBackendWriteOps_keeps (fault : Nat → Bool) (byteOffset size : UInt32) (data m : Mem) :
    ∀ o ∈ storageBackendWriteOps fault byteOffset size data m, STORAGE.Keeps o := by
  unfold storageBackendWriteOps
  split
  · exact fun o ho => absurd ho List.not_mem_nil
  · rename_i hcheck
    exact storageWriteOps_keeps fault data 0 _ _ 0 m ((boundsCheck_iff _ _).1 (by simpa using hcheck))

/-- What a write does to the storage depends on nothing but the storage. -/
theorem writeLoop_content (fault : Nat → Bool) (data : Mem) (n byteOffset size pos : Nat) (m m' : Mem)
    (h : content m = content m') :
    (storageWriteLoop fault data n byteOffset size pos m).1 =
      (storageWriteLoop fault data n byteOffset size pos m').1 ∧
      content (storageWriteLoop fault data n byteOffset size pos m).2 =
        content (storageWriteLoop fault data n byteOffset size pos m').2 := by
  induction hz : size using Nat.strong_induction_on generalizing n byteOffset pos m m' size with
  | _ size' ih =>
    subst hz
    rcases Nat.eq_zero_or_pos size with rfl | hpos
    · rw [storageWriteLoop, storageWriteLoop, if_pos rfl, if_pos rfl]
      exact ⟨rfl, h⟩
    · have hlt := Nat.mod_lt byteOffset (show 0 < FLASH_SECTOR_SIZE by decide)
      rw [writeLoop_step fault data n byteOffset pos hpos m rfl,
        writeLoop_step fault data n byteOffset pos hpos m' rfl]
      split
      · exact ⟨rfl, h⟩
      · refine ih _ (by omega) _ _ _ _ _ _ ?_ rfl
        rw [content_patch, content_patch, h]

theorem storageBackendWrite_content (fault : Nat → Bool) (byteOffset size : UInt32) (data : Mem) {m m' : Mem}
    (h : content m = content m') :
    (storageBackendWrite fault byteOffset size data m).1 = (storageBackendWrite fault byteOffset size data m').1 ∧
      content (storageBackendWrite fault byteOffset size data m).2 =
        content (storageBackendWrite fault byteOffset size data m').2 := by
  unfold storageBackendWrite
  split
  · exact ⟨rfl, h⟩
  · exact writeLoop_content fault data 0 _ _ 0 m m' h

end BLEBridge
