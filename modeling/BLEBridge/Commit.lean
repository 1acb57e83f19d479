import BLEBridge.UploadRun
/-!
# Committing an upload

The metadata sector is written last. Every point of an upload's plan either
lies before it, in the firmware copy (`uploadPlan_take`), or is `Committing`: the
whole image is in place and the first pages of the header stand in an erased
metadata sector. From its first page on the manifest is valid.
-/
open Lib

namespace BLEBridge

/-- The number of flash operations that an image of `n` bytes takes: a program
for each page and an erase for each sector. -/
def imageOps (n : Nat) : Nat := (n + 255) / 256 + (n + 4095) / 4096

/-- The operation changes nothing outside the firmware copy. -/
def InCopy (o : FlashOp) : Prop := o.Within FIRMWARE_COPY.offset (FIRMWARE_COPY.offset + FIRMWARE_COPY.length)

/-- The flash once the image of the stream `s` is in place and `t` pages of its
header have been programmed into the erased metadata sector. -/
structure Committing (s : Bytes) (t : Nat) (m : Mem) : Prop where
  metadata : ∀ i < 4096, m (UPDATE_METADATA.offset + i) = if i < 256 * t then s.getD i 0 else 0xff
  image : ∀ i < 256 * ((imageSizeOf s + 255) / 256), m (FIRMWARE_COPY.offset + i) = (s.drop 4096).getD i 0xff

variable {len : Nat} {s : Bytes} {m : Mem} {t : Nat}

/-! ## Where the operations of a plan lie -/

theorem imagePlan_length (img : Bytes) : (imagePlan img).length = imageOps img.length := by
  rw [imagePlan, stage_length, imageOps]
  omega

theorem fullPlan_length (s : Bytes) : (fullPlan s).length = imageOps (uploadImage s).length + 17 := by
  rw [fullPlan, List.length_append, imagePlan_length, rewriteSector_length]

theorem stage_inCopy (img : Bytes) {n : Nat} (h : n ≤ 3584) : ∀ o ∈ stage copyStart img n, InCopy o := fun o ho =>
  within_mono (stage_within _ _ _ o ho) le_rfl (by simp only [copyStart, copy_length]; omega)

theorem uploadImage_length_le (h : Accepted len s) : (uploadImage s).length ≤ 917504 := by
  have := imageSizeOf_le h
  rw [uploadImage_length]
  omega

theorem stagedPlan_inCopy (len : Nat) (s : Bytes) : ∀ o ∈ stagedPlan len s, InCopy o := by
  intro o ho
  by_cases h : Accepted len s
  · have := uploadImage_length_le h
    rw [stagedPlan, if_pos h] at ho
    exact stage_inCopy _ (by omega) o ho
  · rw [stagedPlan_short h] at ho
    cases ho

theorem imagePlan_inCopy (h : Accepted len s) : ∀ o ∈ imagePlan (uploadImage s), InCopy o := by
  have := uploadImage_length_le h
  exact stage_inCopy _ (by omega)

theorem Complete.image_length (h : Complete len s) : (uploadImage s).length = imageSizeOf s := by
  have h1 := ((accepted_iff _ _).1 h.1).2.2
  have h2 := h.2
  rw [uploadImage_length]
  omega

theorem uploadPlan_finishes (hc : Complete len s) : uploadPlan len s .finishes = fullPlan s := if_pos hc

/-- A point of an upload's plan: some of the image's operations, or all of them
and some of the metadata sector's. -/
theorem uploadPlan_take (len : Nat) (s : Bytes) (fin : UploadEnd) (j : Nat)
    (hj : j ≤ (uploadPlan len s fin).length) :
    ((∀ o ∈ (uploadPlan len s fin).take j, InCopy o) ∧
        (fin = .finishes → Complete len s → j ≤ imageOps (imageSizeOf s))) ∨
      fin = .finishes ∧ Complete len s ∧ ∃ t ≤ 16, j = imageOps (imageSizeOf s) + t + 1 := by
  have hstaged : uploadPlan len s fin = stagedPlan len s → ∀ o ∈ (uploadPlan len s fin).take j, InCopy o :=
    fun h o ho =>
    stagedPlan_inCopy len s o (h ▸ List.mem_of_mem_take ho)
  cases fin with
  | stops | aborts r => exact .inl ⟨hstaged rfl, fun h => by cases h⟩
  | finishes =>
    by_cases hc : Complete len s
    · have hlen := imagePlan_length (uploadImage s)
      rw [hc.image_length] at hlen
      rw [uploadPlan_finishes hc] at hj ⊢
      rw [fullPlan_length, hc.image_length] at hj
      by_cases hle : j ≤ imageOps (imageSizeOf s)
      · refine .inl ⟨fun o ho => ?_, fun _ _ => hle⟩
        rw [fullPlan, List.take_append_of_le_length (by omega)] at ho
        exact imagePlan_inCopy hc.1 o (List.mem_of_mem_take ho)
      · exact .inr ⟨rfl, hc, j - imageOps (imageSizeOf s) - 1, by omega, by omega⟩
    · exact .inl ⟨hstaged (if_neg hc), fun _ h => absurd h hc⟩

/-! ## What the metadata sector holds -/

theorem metadata_unchanged {os : List FlashOp} (h : ∀ o ∈ os, InCopy o) (m : Mem) :
    metadataSector (actAll os m) = metadataSector m :=
  read_actAll_outside h _ (.inl (by decide))

theorem stream_getD (s : Bytes) {i : Nat} (hi : i < 4096) : (s.take 4096).getD i 0 = s.getD i 0 :=
  getD_take s 4096 i hi

/-- The points of the plan at which the metadata sector is being written. -/
theorem committing_of_take (hc : Complete len s) (ht : t ≤ 16) (m : Mem) :
    Committing s t (actAll ((fullPlan s).take (imageOps (imageSizeOf s) + t + 1)) m) := by
  have hsz := imageSizeOf_le hc.1
  have hs := hc.1.1
  have hlen := imagePlan_length (uploadImage s)
  have himg := uploadImage_complete hc
  have hl := hc.image_length
  rw [hl] at hlen
  have hsplit : (fullPlan s).take (imageOps (imageSizeOf s) + t + 1) =
      imagePlan (uploadImage s) ++ (rewriteSector metadataStart (s.take 4096)).take (t + 1) := by
    rw [fullPlan, List.take_append, List.take_of_length_le (by omega), hlen, Nat.add_assoc,
      Nat.add_sub_cancel_left]
  have hmem := fun i => rewriteSector_take metadataStart (s.take 4096) (by simp; omega) t ht
    (actAll (imagePlan (uploadImage s)) m) i
  rw [hsplit]
  refine ⟨fun i hi => ?_, fun i hi => ?_⟩ <;> rw [actAll_append, hmem]
  · rw [metadataStart, if_pos (by omega), Nat.add_sub_cancel_left, stream_getD s hi]
    by_cases hit : i < 256 * t
    · rw [if_pos hit, if_pos (by omega)]
    · rw [if_neg hit, if_neg (by omega)]
  · have hout : ¬(metadataStart ≤ FIRMWARE_COPY.offset + i ∧
      FIRMWARE_COPY.offset + i < metadataStart + 4096) := by
      simp only [metadataStart, metadata_offset, copy_offset]; omega
    rw [if_neg hout, imagePlan, stage_mem, copyStart, if_pos (by rw [hl]; omega), Nat.add_sub_cancel_left, himg]

theorem Committing.sector_getD (h : Committing s t m) {i : Nat} (hi : i < 4096) :
    (metadataSector m).getD i 0 = if i < 256 * t then s.getD i 0 else 0xff := by
  rw [metadataSector, read_getD _ _ _ _ (show i < FLASH_SECTOR_SIZE from hi)]
  exact h.metadata i hi

/-- The erased sector is no manifest. -/
theorem Committing.not_ok (h : Committing s 0 m) : ¬ManifestOk (metadataSector m) :=
  not_manifestOk_erased fun i hi => by rw [h.sector_getD (by omega), if_neg (by omega)]

/-- One page of the header is a whole manifest. -/
theorem Committing.manifest (h : Committing s t m) (hs : 4096 ≤ s.length) (ht : 1 ≤ t) :
    (metadataSector m).take 64 = s.take 64 := by
  apply List.ext_getElem
  · simp [metadataSector, FLASH_SECTOR_SIZE]; omega
  · intro i hi hi'
    simp only [List.length_take] at hi hi'
    rw [List.getElem_take, List.getElem_take, ← getD_of_lt _ _ 0, ← getD_of_lt _ _ 0, h.sector_getD (by omega),
      if_pos (by omega)]

theorem Committing.manifestOf_eq (h : Committing s t m) (hs : 4096 ≤ s.length) (ht : 1 ≤ t) :
    manifestOf (metadataSector m) = manifestOf s := manifestOf_congr (h.manifest hs ht)

theorem Committing.ok (h : Committing s t m) (hc : Complete len s) (ht : 1 ≤ t) :
    ManifestOk (metadataSector m) := by
  obtain ⟨hs, hok, -⟩ := (accepted_iff _ _).1 hc.1
  refine (manifestOk_congr ?_).1 hok
  rw [h.manifest hs ht, List.take_take, min_eq_left (by decide)]

theorem Committing.valid_iff (h : Committing s t m) (hc : Complete len s) :
    bootloaderManifestIsValid (metadataSector m) = true ↔ 1 ≤ t := by
  rw [bootValid_iff]
  constructor
  · intro hok
    by_contra ht
    obtain rfl : t = 0 := by omega
    exact h.not_ok hok
  · exact h.ok hc

theorem Committing.whole (h : Committing s 16 m) (hs : 4096 ≤ s.length) : metadataSector m = s.take 4096 :=
  read_eq_of_getD (by simp [FLASH_SECTOR_SIZE]; omega) 0 fun i hi => by
    have hi' : i < 4096 := hi
    rw [h.metadata i hi', if_pos (by omega), stream_getD s hi']

theorem Committing.firmwareCopy (h : Committing s t m) (hc : Complete len s) :
    BLEBridge.firmwareCopy m (imageSizeOf s) = s.drop 4096 := by
  have hl := hc.image_length
  rw [uploadImage_complete hc] at hl
  exact read_eq_of_getD hl 0xff fun i hi => h.image i (by omega)

/-! ## The whole upload -/

theorem pageProgram_mem (hc : Complete len s) {i : Nat} (hi : i < imageSizeOf s) (t : Nat) :
    FlashOp.program (copyStart + 256 * (i / 256)) (pageOf (uploadImage s) (i / 256)) ∈
      (fullPlan s).take (imageOps (imageSizeOf s) + t + 1) := by
  have hlen := imagePlan_length (uploadImage s)
  rw [hc.image_length] at hlen
  rw [fullPlan, List.take_append, List.take_of_length_le (by omega), imagePlan, hc.image_length]
  exact List.mem_append_left _ (program_mem_stage copyStart (uploadImage s) (by omega))

/-- How an upload leaves the flash: only the firmware copy has been written,
or the metadata sector as well, up to a page that failed or its end. -/
theorem upload_end (fault : Nat → Bool) (len : Nat) (pieces : List Bytes) (fin : UploadEnd) (w : Ota) :
    let s := pieces.flatten
    let n := w.flash.log.length
    let w' := upload fault len pieces fin w
    (∃ os, (∀ o ∈ os, InCopy o) ∧ w'.flash.mem = actAll os w.flash.mem ∧
      (os ≠ [] → Accepted len s ∧ w'.flash.log ≠ w.flash.log) ∧
        (fin = .finishes → Complete len s → ¬Clean fault n (imageOps (imageSizeOf s) + 1))) ∨
      fin = .finishes ∧ Complete len s ∧ ∃ t ≤ 16, Clean fault n (imageOps (imageSizeOf s) + t + 1) ∧
        (t < 16 → fault (n + (imageOps (imageSizeOf s) + t + 1)) = true) ∧ Committing s t w'.flash.mem := by
  intro s n w'
  have hw : w'.flash = (runPlan fault (uploadPlan len s fin) w.flash).2 := upload_flash fault len pieces fin w
  obtain ⟨j, hj, hclean, hfail, hpre, hmem⟩ := runPlan_point fault (uploadPlan len s fin) w.flash
  rw [hw]
  rcases uploadPlan_take len s fin j hj with ⟨hin, hle⟩ | ⟨rfl, hc, t, ht, rfl⟩
  · refine .inl ⟨_, hin, hmem, fun hos => ⟨?_, fun hlog => hos ?_⟩, fun hfin hc hcl => ?_⟩
    · by_contra hacc
      have hnil : uploadPlan len s fin = [] := by
        cases fin with
        | stops | aborts r => exact stagedPlan_short hacc
        | finishes => rw [uploadPlan, if_neg fun hc => hacc hc.1, stagedPlan_short hacc]
      rw [hnil] at hos
      exact hos List.take_nil
    · rw [runPlan_log, List.append_right_eq_self] at hlog
      rw [hlog, List.prefix_nil, List.map_eq_nil_iff] at hpre
      exact hpre
    · subst hfin
      have hle := hle rfl hc
      rw [uploadPlan_finishes hc, fullPlan_length, hc.image_length] at hfail
      have := hfail (by omega)
      rw [hcl j (by omega)] at this
      cases this
  · rw [uploadPlan_finishes hc] at hmem hfail ⊢
    rw [fullPlan_length, hc.image_length] at hfail
    exact .inr ⟨rfl, hc, t, ht, hclean, fun h => hfail (by omega), hmem ▸ committing_of_take hc ht _⟩

theorem uploadResult_ok_iff_clean (fault : Nat → Bool) (len : Nat) (pieces : List Bytes) (w : Ota) :
    uploadResult fault len pieces w = .ok ↔ Complete len pieces.flatten ∧
      Clean fault w.flash.log.length (imageOps (imageSizeOf pieces.flatten) + 17) := by
  rw [uploadResult_ok_iff, runPlan_ok, fullPlan_length]
  exact and_congr_right fun hc => by rw [hc.image_length]

/-- A successful upload leaves the image and the whole header. -/
theorem upload_ok {fault : Nat → Bool} {pieces : List Bytes} {w : Ota}
    (h : uploadResult fault len pieces w = .ok) :
    Complete len pieces.flatten ∧
      Committing pieces.flatten 16 (upload fault len pieces .finishes w).flash.mem := by
  obtain ⟨hc, hclean⟩ := (uploadResult_ok_iff_clean fault len pieces w).1 h
  rcases upload_end fault len pieces .finishes w with ⟨-, -, -, -, hno⟩ | ⟨-, -, t, ht, -, hfail, hcom⟩
  · exact absurd (clean_mono hclean (by omega)) (hno rfl hc)
  · obtain rfl : t = 16 := by
      by_contra hne
      have := hfail (by omega)
      rw [hclean _ (by omega)] at this
      cases this
    exact ⟨hc, hcom⟩

/-- Flash that does everything it is asked to. -/
def noFault : Nat → Bool := fun _ => false

theorem uploadResult_noFault {pieces : List Bytes} (h : Complete len pieces.flatten) (w : Ota) :
    uploadResult noFault len pieces w = .ok :=
  (uploadResult_ok_iff_clean _ _ _ _).2 ⟨h, fun _ _ => rfl⟩

/-! ## Valid only when complete -/

/-- **The metadata is committed last.** Starting from flash without a valid
manifest, cut one upload after any number of operations, whatever failed before:
if the metadata sector is valid then, the firmware copy holds exactly the
stream's image, and every byte of it was programmed. -/
theorem manifest_committed_last (fault : Nat → Bool) (len : Nat) (pieces : List Bytes) (fin : UploadEnd)
    (u : AppFirmwareUpdateState) (m₀ : Mem) (h₀ : bootloaderManifestIsValid (metadataSector m₀) = false)
    (k : Nat) :
    let log := (upload fault len pieces fin ⟨u, Device.start m₀⟩).flash.log.take k
    let m := replay log m₀
    let n := (manifestOf (metadataSector m)).imageSize
    bootloaderManifestIsValid (metadataSector m) = true →
      BLEBridge.firmwareCopy m n = pieces.flatten.drop 4096 ∧
        ∀ i < n, ∃ off data, (FlashOp.program off data, true) ∈ log ∧
          off ≤ FIRMWARE_COPY.offset + i ∧ FIRMWARE_COPY.offset + i < off + data.length := by
  intro log m n hvalid
  obtain ⟨s, hs⟩ : ∃ s, s = pieces.flatten := ⟨_, rfl⟩
  have hlog : log = (performed fault 0 (uploadPlan len s fin)).take k := by
    simp only [log, upload_flash, runPlan_log, ← hs]
    rfl
  obtain ⟨j, hj, -, hpre, hreplay⟩ := replay_performed fault 0 (uploadPlan len s fin) k
  rw [← hlog] at hpre hreplay
  have hm : m = actAll ((uploadPlan len s fin).take j) m₀ := hreplay m₀
  rcases uploadPlan_take len s fin j hj with ⟨hin, -⟩ | ⟨rfl, hc, t, ht, rfl⟩
  · rw [hm, metadata_unchanged hin, h₀] at hvalid
    cases hvalid
  · have hcom := committing_of_take hc ht m₀
    have hplan := uploadPlan_finishes hc
    rw [← hplan, ← hm] at hcom
    have ht1 := (hcom.valid_iff hc).1 hvalid
    have hn : n = imageSizeOf s := by simp only [n, hcom.manifestOf_eq hc.1.1 ht1, imageSizeOf]
    rw [hn, ← hs]
    refine ⟨hcom.firmwareCopy hc, fun i hi => ?_⟩
    -- the page that byte `i` lies in
    refine ⟨copyStart + 256 * (i / 256), pageOf (uploadImage s) (i / 256),
      hpre.subset (List.mem_map.2 ⟨_, hplan ▸ pageProgram_mem hc hi t, rfl⟩), ?_, ?_⟩
    · simp only [copyStart]; omega
    · simp only [copyStart, pageOf_length]; omega

theorem erased_rejected : bootloaderManifestIsValid (metadataSector fun _ => 0xff) = false := by
  rw [Bool.eq_false_iff, ne_eq, bootValid_iff]
  exact not_manifestOk_erased fun i hi =>
    read_getD _ _ _ _ (by have hs : FLASH_SECTOR_SIZE = 4096 := rfl; omega) _

theorem flatten_vectorsOnly : [headerFor vectorsOnly, vectorsOnly].flatten = headerFor vectorsOnly ++
    vectorsOnly := by
  simp

theorem complete_vectorsOnly : Complete 4104 [headerFor vectorsOnly, vectorsOnly].flatten := by
  rw [flatten_vectorsOnly]
  exact complete_headerFor  (by decide) (by decide)

theorem imageSizeOf_vectorsOnly : imageSizeOf [headerFor vectorsOnly, vectorsOnly].flatten = 8 := by
  rw [flatten_vectorsOnly]
  exact imageSizeOf_headerFor  (by decide)

theorem manifest_committed_last_vectorsOnly :
    let log := (upload noFault 4104 [headerFor vectorsOnly, vectorsOnly] .finishes
      ⟨.zero, .start fun _ => 0xff⟩).flash.log
    let m := replay (log.take log.length) fun _ => 0xff
    let n := (manifestOf (metadataSector m)).imageSize
    BLEBridge.firmwareCopy m n = vectorsOnly ∧
      ∀ i < n, ∃ off data, (FlashOp.program off data, true) ∈ log.take log.length ∧
        off ≤ FIRMWARE_COPY.offset + i ∧ FIRMWARE_COPY.offset + i < off + data.length := by
  intro log m n
  obtain ⟨hc, hcom⟩ := upload_ok (uploadResult_noFault complete_vectorsOnly ⟨.zero, .start fun _ => 0xff⟩)
  have hm : m = (upload noFault 4104 [headerFor vectorsOnly, vectorsOnly] .finishes
      ⟨.zero, .start fun _ => 0xff⟩).flash.mem := by
    simp only [m, log, List.take_length, upload_flash, runPlan_start]
  have hlast := manifest_committed_last noFault 4104 [headerFor vectorsOnly, vectorsOnly] .finishes .zero
    (fun _ => 0xff)
    erased_rejected log.length (by rw [← hm] at hcom; exact (hcom.valid_iff hc).2 (by decide))
  have hdrop : (headerFor vectorsOnly ++ vectorsOnly).drop 4096 = vectorsOnly := by
    rw [← headerFor_length vectorsOnly, List.drop_left]
  rw [flatten_vectorsOnly, hdrop] at hlast
  exact hlast

/-! ## Reported failures -/

/-- After `n` earlier flash operations, a complete upload erases the metadata
sector and programs its first page, and then one of the other fifteen fails. -/
def CommitTorn (fault : Nat → Bool) (n len : Nat) (s : Bytes) : Prop :=
  Complete len s ∧ Clean fault n (imageOps (imageSizeOf s) + 2) ∧
    ¬Clean fault (n + (imageOps (imageSizeOf s) + 2)) 15

theorem torn_commit {fault : Nat → Bool} {pieces : List Bytes} {w : Ota}
    (h : CommitTorn fault w.flash.log.length len pieces.flatten) :
    uploadResult fault len pieces w ≠ .ok ∧
      bootloaderManifestIsValid (metadataSector (upload fault len pieces .finishes w).flash.mem) = true := by
  obtain ⟨hc, h2, h15⟩ := h
  refine ⟨fun hok => h15 ?_, ?_⟩
  · have hall := ((uploadResult_ok_iff_clean fault len pieces w).1 hok).2
    exact ((clean_add fault _ (imageOps (imageSizeOf pieces.flatten) + 2) 15).1 hall).2
  · rcases upload_end fault len pieces .finishes w with ⟨-, -, -, -, hno⟩ | ⟨-, -, t, -, -, hfail, hcom⟩
    · exact absurd (clean_mono h2 (by omega)) (hno rfl hc)
    · refine (hcom.valid_iff hc).2 ?_
      by_contra ht
      have := hfail (by omega)
      rw [h2 _ (by omega)] at this
      cases this

/-- A commit that fails otherwise has not got as far as the first page. -/
theorem not_torn_commit {fault : Nat → Bool} {pieces : List Bytes}
    {w : Ota} {t : Nat} (hc : Complete len pieces.flatten)
    (hclean : Clean fault w.flash.log.length (imageOps (imageSizeOf pieces.flatten) + t + 1))
    (hnot : ¬CommitTorn fault w.flash.log.length len pieces.flatten)
    (hfailed : uploadResult fault len pieces w ≠ .ok) : t = 0 := by
  by_contra ht
  refine hnot ⟨hc, clean_mono hclean (by omega), fun h15 => hfailed ?_⟩
  exact (uploadResult_ok_iff_clean fault len pieces w).2 ⟨hc,
    (clean_add fault _ (imageOps (imageSizeOf pieces.flatten) + 2) 15).2 ⟨clean_mono hclean (by omega), h15⟩⟩

/-- **A reported failure leaves nothing pending, except in a torn commit.** -/
theorem failure_means_rejected_iff (fault : Nat → Bool) (len : Nat) (pieces : List Bytes) (w : Ota)
    (h₀ : bootloaderManifestIsValid (metadataSector w.flash.mem) = false) :
    (uploadResult fault len pieces w ≠ .ok →
        bootloaderManifestIsValid (metadataSector (upload fault len pieces .finishes w).flash.mem) = false) ↔
      ¬CommitTorn fault w.flash.log.length len pieces.flatten := by
  constructor
  · intro h htorn
    obtain ⟨hfailed, hvalid⟩ := torn_commit htorn
    rw [h hfailed] at hvalid
    cases hvalid
  · intro hnot hfailed
    rcases upload_end fault len pieces .finishes w with ⟨os, hin, hmem, -, -⟩ | ⟨-, hc, t, -, hclean, -, hcom⟩
    · rw [hmem, metadata_unchanged hin, h₀]
    · obtain rfl := not_torn_commit hc hclean hnot hfailed
      rw [Bool.eq_false_iff, ne_eq, hcom.valid_iff hc]
      decide

/-- When the erase of the metadata sector fails, nothing is pending. -/
theorem failure_means_rejected_erase :
    bootloaderManifestIsValid (metadataSector (upload (· == 2) 4104 [headerFor vectorsOnly, vectorsOnly] .finishes
      ⟨.zero, .start fun _ => 0xff⟩).flash.mem) = false := by
  have hbad : ∀ k, ¬Clean (· == 2) 0 (k + 4) := fun k h => absurd (h 2 (by omega)) (by decide)
  refine (failure_means_rejected_iff (· == 2) 4104 [headerFor vectorsOnly, vectorsOnly]
    ⟨.zero, .start fun _ => 0xff⟩
    erased_rejected).2 (fun htorn => ?_) (fun hok => ?_)
  · have h2 := htorn.2.1
    rw [imageSizeOf_vectorsOnly] at h2
    exact hbad 0 h2
  · have hall := ((uploadResult_ok_iff_clean _ _ _ _).1 hok).2
    rw [imageSizeOf_vectorsOnly] at hall
    exact hbad 15 hall

/-- When the second page of the header fails, `finish` says so, and the
manifest is valid all the same. -/
theorem torn_commit_vectorsOnly :
    let w : Ota := ⟨.zero, .start fun _ => 0xff⟩
    bootloaderManifestIsValid (metadataSector w.flash.mem) = false ∧
      uploadResult (· == 4) 4104 [headerFor vectorsOnly, vectorsOnly] w ≠ .ok ∧
      bootloaderManifestIsValid (metadataSector
        (upload (· == 4) 4104 [headerFor vectorsOnly, vectorsOnly] .finishes w).flash.mem) = true := by
  intro w
  refine ⟨erased_rejected, torn_commit ⟨complete_vectorsOnly, ?_, ?_⟩⟩ <;> rw [imageSizeOf_vectorsOnly]
  · intro i hi
    have hi' : i < 4 := hi
    have h0 : w.flash.log.length = 0 := rfl
    rw [h0]
    exact beq_false_of_ne (by omega)
  · exact fun h => absurd (h 0 (by decide)) (by decide)

end BLEBridge
