import BLEBridge.Bootloader
import BLEBridge.Commit
/-!
# Uploads and the boots after them

A complete stream on working flash leaves exactly its image and its header
(`upload_one_shot`), which the next boot applies if the image is good
(`boot_after_upload`). A later upload that fails may spoil the staged image, but
not so that a boot would apply it (`later_upload_fails`).
-/
open Lib

namespace BLEBridge

variable {len : Nat} {s : Bytes} {w : Ota}

/-! ## Complete uploads -/

/-- Nothing goes wrong on the way to the end of a complete stream. -/
theorem tracks_ok {d : Flash} {t : Bytes} (h : Tracks noFault d len s w) (hc : Complete len (s ++ t)) :
    w.upd.result = .ok := by
  cases h with
  | header h => exact h.result
  | staging h => exact h.result
  | rejected hs hv => exact absurd ((accepted_append t hs).1 hc.1) hv
  | tooLarge _ hs =>
    have := hc.2
    rw [List.length_append] at this
    omega
  | flashError _ _ _ hf =>
    have hok := (runPlan_ok noFault (stagedPlan len s) d).2 fun _ _ => rfl
    rw [hf] at hok
    cases hok

theorem write_ok (pre post : List Bytes) (p : Bytes) (w : Ota) (hc : Complete len (pre ++ p :: post).flatten) :
    (appFirmwareUpdateWrite noFault p (uploadWrites noFault len pre w)).1 = .ok := by
  have ht := tracks_uploadWrites noFault len pre (inRange_of_accepted hc.1) w
  rw [appFirmwareUpdateWrite, if_neg (by rw [ht.active]; decide)]
  rw [List.flatten_append, List.flatten_cons, ← List.append_assoc] at hc
  exact tracks_ok (tracks_write p ht) hc

theorem complete_of_valid {header image : Bytes} (hh : header.length = 4096)
    (hv : appFirmwareUpdateManifestIsValid header (4096 + image.length) = true) :
    Complete (4096 + image.length) (header ++ image) ∧ imageSizeOf (header ++ image) = image.length := by
  have hs : 4096 ≤ header.length := hh.ge
  have hsize : 4096 + image.length = 4096 + imageSizeOf header := ((appValid_iff _ _).1 hv).2
  refine ⟨⟨⟨?_, ?_⟩, ?_⟩, ?_⟩
  · rw [List.length_append]; omega
  · rw [← hh, List.take_left]
    exact hh ▸ hv
  · rw [List.length_append, hh]
  · rw [imageSizeOf_append image hs]; omega

/-- **However the stream is cut, the writer does what one write would.** -/
theorem upload_one_shot (header image : Bytes) (pieces : List Bytes) (w : Ota) (hh : header.length = 4096)
    (hv : appFirmwareUpdateManifestIsValid header (4096 + (manifestOf header).imageSize) = true)
    (hi : image.length = (manifestOf header).imageSize) (hp : pieces.flatten = header ++ image) :
    let len := 4096 + (manifestOf header).imageSize
    let m := (upload noFault len pieces .finishes w).flash.mem
    (appFirmwareUpdateBegin len w).1 = .ok ∧
      (∀ pre p post, pieces = pre ++ p :: post →
        (appFirmwareUpdateWrite noFault p (uploadWrites noFault len pre w)).1 = .ok) ∧
      (appFirmwareUpdateFinish noFault (uploadWrites noFault len pieces w)).1 = .ok ∧
      firmwareCopy m image.length = image ∧
      (∀ i, image.length ≤ i → i < 256 * ((image.length + 255) / 256) → m (FIRMWARE_COPY.offset + i) = 0xff) ∧
      metadataSector m = header := by
  intro len m
  have hlen : len = 4096 + image.length := by rw [hi]
  obtain ⟨hc, hsz⟩ := complete_of_valid hh (hi ▸ hv)
  rw [← hlen, ← hp] at hc
  rw [← hp] at hsz
  have hok := uploadResult_noFault hc w
  obtain ⟨-, hcom⟩ := upload_ok hok
  have hdrop : pieces.flatten.drop 4096 = image := by rw [hp, ← hh, List.drop_left]
  obtain ⟨hbegin, -⟩ : _ ∧ Tracks noFault w.flash len [] _ := begin_inRange (inRange_of_accepted hc.1) w
  refine ⟨hbegin,
    fun pre p post he => write_ok pre post p w (he ▸ hc), hok, ?_, fun i hi hi' => ?_, ?_⟩
  · rw [← hsz, ← hdrop]
    exact hcom.firmwareCopy hc
  · have := hcom.image i (by rwa [hsz])
    rwa [hdrop, List.getD_eq_default _ _ hi] at this
  · rw [hcom.whole hc.1.1, hp, ← hh, List.take_left]

theorem upload_one_shot_vectorsOnly :
    let m := (upload noFault 4104 [headerFor vectorsOnly, vectorsOnly] .finishes
      ⟨.zero, .start fun _ => 0⟩).flash.mem
    firmwareCopy m 8 = vectorsOnly ∧ metadataSector m = headerFor vectorsOnly := by
  have hm := manifestOf_headerFor (show vectorsOnly.length < 2 ^ 32 by decide)
  have hsz : 4096 + (manifestOf (headerFor vectorsOnly)).imageSize = 4104 := by rw [hm]; rfl
  have h := upload_one_shot (headerFor vectorsOnly) vectorsOnly [headerFor vectorsOnly, vectorsOnly]
    ⟨.zero, .start fun _ => 0⟩ (headerFor_length _)
      ((appValid_iff _ _).2 ⟨headerFor_ok (by decide) (by decide), rfl⟩)
    (by rw [hm]) flatten_vectorsOnly
  simp only [hsz] at h
  exact ⟨h.2.2.2.1, h.2.2.2.2.2⟩

/-! ## The boot after an upload -/

/-- The image passes the bootloader's checks. -/
def ImageGood (manifest : FirmwareUpdateManifest) (image : Bytes) : Prop :=
  bootloaderCrc32 image = manifest.imageCrc32 ∧ 8 ≤ manifest.imageSize ∧
    bootloaderAppVectorIsValid (le32 image 0) (le32 image 4) APP_IMAGE_BASE manifest.imageSize = true

theorem le32_take (b : Bytes) {n off : Nat} (h : off + 4 ≤ n) : le32 (b.take n) off = le32 b off := by
  simp only [le32]
  simp (disch := omega) only [getD_take]

/-- The boot after a successful upload sees the uploaded image. -/
theorem applicable_iff_good {m : Mem} (hcom : Committing s 16 m) (hc : Complete len s) :
    Applicable m ↔ ImageGood (manifestOf s) (s.drop 4096) := by
  have hman := hcom.manifestOf_eq hc.1.1 (by omega)
  have hvalid := (hcom.valid_iff hc).2 (by omega)
  have himg := hcom.firmwareCopy hc
  have hle : (manifestOf s).imageSize ≤ APP_IMAGE_SIZE := imageSizeOf_le hc.1
  have hvec : 8 ≤ (manifestOf s).imageSize → ∀ off, off + 4 ≤ 8 →
      le32 (firmwareCopy m 8) off = le32 (s.drop 4096) off :=
    fun h8 off ho => by
      rw [← himg, ← le32_take (firmwareCopy m (imageSizeOf s)) ho, firmwareCopy, firmwareCopy,
        read_take _ _ (imageSizeOf s) _ h8]
  have hstaged := stagedValid_iff m (manifestOf s)
  rw [show (manifestOf s).imageSize = imageSizeOf s from rfl, himg] at hstaged
  constructor
  · rintro ⟨-, h⟩
    rw [hman, hstaged] at h
    obtain ⟨⟨h8, -⟩, hv, hcrc⟩ := h
    rw [hvec h8 0 (by omega), hvec h8 4 (by omega)] at hv
    exact ⟨hcrc, h8, hv⟩
  · rintro ⟨hcrc, h8, hv⟩
    refine ⟨hvalid, ?_⟩
    rw [hman, hstaged, hvec h8 0 (by omega), hvec h8 4 (by omega)]
    exact ⟨⟨h8, hle⟩, hv, hcrc⟩

/-- **The uploader and the bootloader agree.** They accept the same headers; and
the boot after a successful upload copies the image exactly when it is good,
and otherwise changes nothing and goes on to the application. -/
theorem uploader_bootloader_agree :
    (∀ header contentLen, appFirmwareUpdateManifestIsValid header contentLen = true ↔
      bootloaderManifestIsValid header = true ∧ contentLen = 4096 + (manifestOf header).imageSize) ∧
    ∀ fault len pieces w, uploadResult fault len pieces w = .ok →
      let m := (upload fault len pieces .finishes w).flash.mem
      let manifest := manifestOf pieces.flatten
      let image := pieces.flatten.drop 4096
      ((bootloaderMain m).2.log ≠ [] ↔ ImageGood manifest image) ∧
        (ImageGood manifest image → activeFirmware (bootloaderMain m).2.mem manifest.imageSize = image) ∧
        (¬ImageGood manifest image → (bootloaderMain m).2 = .start m ∧ ReachesJump m) := by
  refine ⟨fun header n => by rw [appValid_iff, bootValid_iff], fun fault len pieces w hok => ?_⟩
  intro m manifest image
  obtain ⟨hc, hcom⟩ := upload_ok hok
  have happ : Applicable m ↔ ImageGood manifest image := applicable_iff_good hcom hc
  by_cases h : Applicable m
  · have hpend : pendingSize m = manifest.imageSize := by
      rw [pendingSize, hcom.manifestOf_eq hc.1.1 (by omega)]
    have hne : applyPlan m ≠ [] := by simp [applyPlan]
    rw [main_applicable h, ← happ]
    refine ⟨⟨fun _ => h, fun _ hnil => hne (List.map_eq_nil_iff.1 hnil)⟩, fun _ => ?_, fun hn => absurd h hn⟩
    have hcopied : activeFirmware (actAll (applyPlan m) m) manifest.imageSize =
        firmwareCopy m manifest.imageSize := by
      rw [applyPlan, actAll_append, ← hpend,
        ← copied_eq m (n := pendingSectors m) (by simp only [pendingSectors]; omega)]
      have hwithin : ∀ o ∈ [FlashOp.erase UPDATE_METADATA.offset 4096],
          o.Within UPDATE_METADATA.offset FLASH.offset := by
        simp [FlashOp.Within]
      exact read_actAll_outside hwithin _ (.inr le_rfl)
    exact hcopied.trans (hcom.firmwareCopy hc)
  · rw [main_not_applicable h, ← happ]
    exact ⟨⟨fun hne => absurd rfl hne, fun ha => absurd ha h⟩, fun ha => absurd ha h,
      fun _ => ⟨rfl, (reachesJump_iff m).2 h⟩⟩

theorem imageGood_vectorsOnly :
    ImageGood (manifestOf [headerFor vectorsOnly, vectorsOnly].flatten)
      ([headerFor vectorsOnly, vectorsOnly].flatten.drop 4096) := by
  have hman : manifestOf [headerFor vectorsOnly, vectorsOnly].flatten = manifestOf (headerFor vectorsOnly) := by
    refine manifestOf_congr ?_
    rw [flatten_vectorsOnly, List.take_append_of_le_length (by rw [headerFor_length]; omega)]
  have hdrop : [headerFor vectorsOnly, vectorsOnly].flatten.drop 4096 = vectorsOnly := by
    rw [flatten_vectorsOnly, ← headerFor_length vectorsOnly, List.drop_left]
  rw [hman, hdrop, manifestOf_headerFor (by decide)]
  exact ⟨rfl, by decide, by decide⟩

theorem uploader_bootloader_agree_vectorsOnly :
    let m := (upload noFault 4104 [headerFor vectorsOnly, vectorsOnly] .finishes
      ⟨.zero, .start fun _ => 0⟩).flash.mem
    (bootloaderMain m).2.log ≠ [] :=
  (uploader_bootloader_agree.2 noFault 4104 _ _
    (uploadResult_noFault complete_vectorsOnly ⟨.zero, .start fun _ => 0⟩)).1.2
    imageGood_vectorsOnly

/-! ## Later uploads -/

/-- A boot applies nothing but an image with the manifest's CRC. -/
theorem boot_or_crc (m : Mem) : ((bootloaderMain m).2 = .start m ∧ ReachesJump m) ∨
    bootloaderCrc32 (firmwareCopy m (pendingSize m)) = (manifestOf (metadataSector m)).imageCrc32 := by
  by_cases h : Applicable m
  · exact .inr (stagedCrc h)
  · exact .inl ⟨by rw [main_not_applicable h], (reachesJump_iff m).2 h⟩

/-- **A failed upload after a successful one**, torn commits aside, leaves the
earlier update as it was, or no valid manifest; or, having written to the
firmware copy, the earlier manifest over an image that a boot applies only if
its CRC is the manifest's. -/
theorem later_upload_fails (fault : Nat → Bool) (len₁ len₂ : Nat) (pieces₁ pieces₂ : List Bytes)
    (fin : UploadEnd) (w : Ota) (h₁ : uploadResult fault len₁ pieces₁ w = .ok) :
    let w₁ := upload fault len₁ pieces₁ .finishes w
    let w₂ := upload fault len₂ pieces₂ fin w₁
    let m₂ := w₂.flash.mem
    let header := pieces₁.flatten.take 4096
    let image := pieces₁.flatten.drop 4096
    (fin = .finishes → uploadResult fault len₂ pieces₂ w₁ ≠ .ok ∧
        ¬CommitTorn fault w₁.flash.log.length len₂ pieces₂.flatten) →
      (metadataSector m₂ = header ∧ firmwareCopy m₂ image.length = image) ∨
      bootloaderManifestIsValid (metadataSector m₂) = false ∨
      (Accepted len₂ pieces₂.flatten ∧ w₂.flash.log ≠ w₁.flash.log ∧ metadataSector m₂ = header ∧
        (((bootloaderMain m₂).2 = .start m₂ ∧ ReachesJump m₂) ∨
          bootloaderCrc32 (firmwareCopy m₂ image.length) = (manifestOf header).imageCrc32)) := by
  intro w₁ w₂ m₂ header image hfails
  obtain ⟨hc₁, hcom₁⟩ := upload_ok h₁
  have hmeta : metadataSector w₁.flash.mem = header := hcom₁.whole hc₁.1.1
  have hlen : image.length = imageSizeOf pieces₁.flatten := by
    rw [← hc₁.image_length, uploadImage_complete hc₁]
  have hcopy : firmwareCopy w₁.flash.mem image.length = image := hlen ▸ hcom₁.firmwareCopy hc₁
  rcases upload_end fault len₂ pieces₂ fin w₁ with ⟨os, hin, hmem, hwrote, -⟩ | ⟨rfl, hc₂, t, -, hclean, -, hcom₂⟩
  · have hmeta₂ : metadataSector m₂ = header := by rw [show m₂ = _ from hmem, metadata_unchanged hin, hmeta]
    by_cases hos : os = []
    · left
      rw [hos] at hmem
      exact ⟨hmeta₂, by rw [show m₂ = _ from hmem]; exact hcopy⟩
    · obtain ⟨hacc, hlog⟩ := hwrote hos
      refine .inr (.inr ⟨hacc, hlog, hmeta₂, ?_⟩)
      have hboot := boot_or_crc m₂
      have hpend : pendingSize m₂ = image.length := by
        rw [pendingSize, hmeta₂, hlen, imageSizeOf_take]
      rwa [hpend, hmeta₂] at hboot
  · obtain ⟨hfailed, hnot⟩ := hfails rfl
    obtain rfl := not_torn_commit hc₂ hclean hnot hfailed
    refine .inr (.inl ?_)
    rw [Bool.eq_false_iff, ne_eq, hcom₂.valid_iff hc₂]
    decide

/-! An upload that stops after one page of another image. -/

/-- The state after the first upload. -/
def firstUpload : Ota := upload noFault 4104 [headerFor vectorsOnly, vectorsOnly] .finishes
  ⟨.zero, .start fun _ => 0xff⟩

def otherImage : Bytes := List.replicate 256 0x11

/-- The state after the second one. -/
def stoppedUpload : Ota := upload noFault 4352 [headerFor otherImage, otherImage] .stops firstUpload

theorem stoppedUpload_mem : stoppedUpload.flash.mem =
    actAll (stage copyStart otherImage 1) firstUpload.flash.mem := by
  have hlen₂ : otherImage.length = 256 := List.length_replicate
  have hflat : [headerFor otherImage, otherImage].flatten = headerFor otherImage ++ otherImage := by
    rw [List.flatten_cons, List.flatten_singleton]
  have hc₂ : Complete 4352 [headerFor otherImage, otherImage].flatten := by
    have := complete_headerFor (show 0 < otherImage.length by omega) (by omega)
    rwa [hlen₂, ← hflat] at this
  have himg : uploadImage [headerFor otherImage, otherImage].flatten = otherImage := by
    rw [uploadImage_complete hc₂, hflat, ← headerFor_length otherImage, List.drop_left]
  have hplan : stagedPlan 4352 [headerFor otherImage, otherImage].flatten = stage copyStart otherImage 1 := by
    rw [stagedPlan, if_pos hc₂.1, himg, hlen₂]
  simp only [stoppedUpload, upload_flash, uploadPlan, hplan]
  rw [runPlan_clean ((runPlan_ok _ _ _).2 fun _ _ => rfl)]

/-- The earlier manifest is still valid, over a damaged image. -/
theorem stoppedUpload_damages : ¬((metadataSector stoppedUpload.flash.mem = headerFor vectorsOnly ∧
      firmwareCopy stoppedUpload.flash.mem vectorsOnly.length = vectorsOnly) ∨
    bootloaderManifestIsValid (metadataSector stoppedUpload.flash.mem) = false) := by
  obtain ⟨hc₁, hcom₁⟩ := upload_ok (uploadResult_noFault complete_vectorsOnly ⟨.zero, .start fun _ => 0xff⟩)
  have hlen₂ : otherImage.length = 256 := List.length_replicate
  have hfirst : otherImage.getD 0 0xff = 0x11 := rfl
  rw [stoppedUpload_mem]
  generalize otherImage = image₂ at hlen₂ hfirst
  rintro (⟨-, h⟩ | h)
  · have h0 : actAll (stage copyStart image₂ 1) firstUpload.flash.mem FIRMWARE_COPY.offset =
      vectorsOnly.getD 0 0 := by
      rw [← h, firmwareCopy, read_getD _ _ _ _ (by decide)]
      rfl
    rw [stage_mem, copyStart, if_pos (by omega), Nat.sub_self, hfirst] at h0
    exact absurd h0 (by decide)
  · rw [metadata_unchanged (stage_inCopy _ (by omega)), Bool.eq_false_iff] at h
    exact h ((hcom₁.valid_iff hc₁).2 (by omega))

/-- The third case of the three. -/
theorem later_upload_fails_stops :
    ¬((metadataSector stoppedUpload.flash.mem = headerFor vectorsOnly ∧
      firmwareCopy stoppedUpload.flash.mem 8 = vectorsOnly) ∨
      bootloaderManifestIsValid (metadataSector stoppedUpload.flash.mem) = false) ∧
    ((metadataSector stoppedUpload.flash.mem = headerFor vectorsOnly ∧
      firmwareCopy stoppedUpload.flash.mem 8 = vectorsOnly) ∨
      bootloaderManifestIsValid (metadataSector stoppedUpload.flash.mem) = false ∨
      (Accepted 4352 [headerFor otherImage, otherImage].flatten ∧
        stoppedUpload.flash.log ≠ firstUpload.flash.log ∧
        metadataSector stoppedUpload.flash.mem = headerFor vectorsOnly ∧
        (((bootloaderMain stoppedUpload.flash.mem).2 = .start stoppedUpload.flash.mem ∧
          ReachesJump stoppedUpload.flash.mem) ∨
          bootloaderCrc32 (firmwareCopy stoppedUpload.flash.mem 8) =
            (manifestOf (headerFor vectorsOnly)).imageCrc32))) := by
  have hok := uploadResult_noFault complete_vectorsOnly ⟨.zero, .start fun _ => 0xff⟩
  have h := later_upload_fails noFault 4104 4352 _ [headerFor otherImage, otherImage] .stops _ hok fun hend => by
    cases hend
  have hdrop : [headerFor vectorsOnly, vectorsOnly].flatten.drop 4096 = vectorsOnly := by
    rw [flatten_vectorsOnly, ← headerFor_length vectorsOnly, List.drop_left]
  have htake : [headerFor vectorsOnly, vectorsOnly].flatten.take 4096 = headerFor vectorsOnly := by
    rw [flatten_vectorsOnly, ← headerFor_length vectorsOnly, List.take_left]
  simp only [hdrop, htake] at h
  exact ⟨stoppedUpload_damages, h⟩

/-- An upload that stops after one page of another image leaves the earlier
manifest valid over a damaged image. -/
theorem later_upload_damages_image :
    let w₁ := upload noFault 4104 [headerFor vectorsOnly, vectorsOnly] .finishes ⟨.zero, .start fun _ => 0xff⟩
    let image₂ := List.replicate 256 0x11
    let m₂ := (upload noFault 4352 [headerFor image₂, image₂] .stops w₁).flash.mem
    uploadResult noFault 4104 [headerFor vectorsOnly, vectorsOnly] ⟨.zero, .start fun _ => 0xff⟩ = .ok ∧
      bootloaderCrc32 vectorsOnly = (manifestOf (headerFor vectorsOnly)).imageCrc32 ∧
      ¬((metadataSector m₂ = headerFor vectorsOnly ∧ firmwareCopy m₂ vectorsOnly.length = vectorsOnly) ∨
        bootloaderManifestIsValid (metadataSector m₂) = false) := by
  intro w₁ image₂ m₂
  exact ⟨uploadResult_noFault complete_vectorsOnly ⟨.zero, .start fun _ => 0xff⟩,
    by rw [manifestOf_headerFor (by decide)],
    stoppedUpload_damages⟩

end BLEBridge
