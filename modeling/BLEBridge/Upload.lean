import BLEBridge.FirmwareUpdate
/-!
# An upload carries out its plan

What the writer asks of the flash depends only on the bytes it has been given,
not on how they were cut: it carries out `stagedPlan` of the stream so far, and
`finish` on a complete stream the rest of `fullPlan`, up to the first operation
that fails. `Tracks` is the invariant that says so, with the counters and
buffers that make it go through; `tracks_write` and `finish_spec` keep it.
-/
open Lib

namespace BLEBridge

/-! ## The plan of a stream -/

/-- The stream has a whole header, and it is accepted for an upload of `len` bytes. -/
def Accepted (len : Nat) (s : Bytes) : Prop :=
  4096 ≤ s.length ∧ appFirmwareUpdateManifestIsValid (s.take 4096) len = true

instance (len : Nat) (s : Bytes) : Decidable (Accepted len s) := inferInstanceAs (Decidable (_ ∧ _))

/-- The size the stream's header announces. -/
def imageSizeOf (s : Bytes) : Nat := (manifestOf s).imageSize

/-- The image bytes so far, without any past the announced size. -/
def uploadImage (s : Bytes) : Bytes := (s.drop 4096).take (imageSizeOf s)

/-- The stream is one accepted header and exactly its image. -/
def Complete (len : Nat) (s : Bytes) : Prop := Accepted len s ∧ s.length = len

instance (len : Nat) (s : Bytes) : Decidable (Complete len s) := inferInstanceAs (Decidable (_ ∧ _))

/-- The operations for the whole pages of the stream so far. -/
def stagedPlan (len : Nat) (s : Bytes) : List FlashOp :=
  if Accepted len s then stage copyStart (uploadImage s) ((uploadImage s).length / 256) else []

/-- The operations that stage a whole image. -/
def imagePlan (img : Bytes) : List FlashOp := stage copyStart img ((img.length + 255) / 256)

/-- The operations of a complete upload: the image, then the metadata sector. -/
def fullPlan (s : Bytes) : List FlashOp := imagePlan (uploadImage s) ++ rewriteSector metadataStart (s.take 4096)

theorem imageSizeOf_take (s : Bytes) : (manifestOf (s.take 4096)).imageSize = imageSizeOf s :=
  congrArg _ (manifestOf_congr (by simp [List.take_take]))

theorem accepted_iff (len : Nat) (s : Bytes) :
    Accepted len s ↔ 4096 ≤ s.length ∧ ManifestOk (s.take 4096) ∧ len = 4096 + imageSizeOf s := by
  rw [Accepted, appValid_iff, imageSizeOf_take]

theorem accepted_append {len : Nat} {s : Bytes} (data : Bytes) (hs : 4096 ≤ s.length) :
    Accepted len (s ++ data) ↔ Accepted len s := by
  simp only [Accepted, List.length_append, List.take_append_of_le_length hs]
  constructor <;> rintro ⟨-, h⟩ <;> exact ⟨by omega, h⟩

theorem imageSizeOf_append {s : Bytes} (data : Bytes) (hs : 4096 ≤ s.length) :
    imageSizeOf (s ++ data) = imageSizeOf s := by
  rw [← imageSizeOf_take, List.take_append_of_le_length hs, imageSizeOf_take]

theorem imageSizeOf_le {len : Nat} {s : Bytes} (h : Accepted len s) : imageSizeOf s ≤ 917504 := by
  obtain ⟨-, hm, -⟩ := (accepted_iff _ _).1 h
  exact imageSizeOf_take s ▸ hm.size_le

theorem uploadImage_length (s : Bytes) : (uploadImage s).length = min (imageSizeOf s) (s.length - 4096) := by
  simp [uploadImage]

theorem uploadImage_of_room {s : Bytes} (h : s.length ≤ 4096 + imageSizeOf s) : uploadImage s = s.drop 4096 :=
  List.take_of_length_le (by simp; omega)

theorem uploadImage_complete {len : Nat} {s : Bytes} (h : Complete len s) : uploadImage s = s.drop 4096 :=
  uploadImage_of_room (by rw [h.2, ((accepted_iff _ _).1 h.1).2.2])

theorem uploadImage_append {s : Bytes} (data : Bytes) (hs : 4096 ≤ s.length) :
    uploadImage (s ++ data) = (s.drop 4096 ++ data).take (imageSizeOf s) := by
  rw [uploadImage, imageSizeOf_append data hs, List.drop_append_of_le_length hs]

theorem stage_of_initial {img img' : Bytes} (h : img <+: img') {n : Nat} (hn : 256 * n ≤ img.length) :
    stage copyStart img' n = stage copyStart img n := by
  obtain ⟨t, rfl⟩ := h
  exact stage_congr _ fun i hi => by simp [List.getD, List.getElem?_append_left (show i < img.length by omega)]

/-- Staging more of an image starts with staging less of it. -/
theorem stage_mono {img img' : Bytes} (h : img <+: img') {n n' : Nat} (hn : 256 * n ≤ img.length) (hnn : n ≤ n') :
    ∃ os, stage copyStart img' n' = stage copyStart img n ++ os := by
  obtain ⟨k, rfl⟩ := Nat.exists_eq_add_of_le hnn
  obtain ⟨os, hos⟩ := stage_add copyStart img' n k
  exact ⟨os, by rw [hos, stage_of_initial h hn]⟩

theorem uploadImage_mono {s : Bytes} (data : Bytes) (hs : 4096 ≤ s.length) :
    uploadImage s <+: uploadImage (s ++ data) := by
  rw [uploadImage_append data hs, uploadImage]
  exact List.IsPrefix.take (List.prefix_append _ _) _

/-- A longer stream plans the same operations first. -/
theorem stagedPlan_append (len : Nat) {s : Bytes} (data : Bytes) (hs : 4096 ≤ s.length) :
    ∃ os, stagedPlan len (s ++ data) = stagedPlan len s ++ os := by
  simp only [stagedPlan, accepted_append data hs]
  split
  · exact stage_mono (uploadImage_mono data hs) (by omega)
      (Nat.div_le_div_right (uploadImage_mono data hs).length_le)
  · exact ⟨[], rfl⟩

/-- Finishing plans the whole image, whose whole pages come first. -/
theorem fullPlan_eq {len : Nat} {s : Bytes} (h : Accepted len s) : ∃ os, fullPlan s = stagedPlan len s ++ os := by
  obtain ⟨os, hos⟩ := stage_mono (List.prefix_refl (uploadImage s)) (n := (uploadImage s).length / 256)
    (by omega) (show (uploadImage s).length / 256 ≤ ((uploadImage s).length + 255) / 256 by omega)
  exact ⟨os ++ rewriteSector metadataStart (s.take 4096), by
    rw [fullPlan, imagePlan, stagedPlan, if_pos h, hos, List.append_assoc]⟩

/-! ## A stream for every image -/

theorem imageSizeOf_headerFor {img : Bytes} (h : img.length < 2 ^ 32) :
    imageSizeOf (headerFor img ++ img) = img.length := by
  have hs : 4096 ≤ (headerFor img).length := by rw [headerFor_length]
  rw [imageSizeOf_append img hs, imageSizeOf, manifestOf_headerFor h]

/-- Every image of a legal size makes a complete upload. -/
theorem complete_headerFor {img : Bytes} (h0 : 0 < img.length) (h : img.length ≤ 917504) :
    Complete (4096 + img.length) (headerFor img ++ img) := by
  have hl := headerFor_length img
  refine ⟨(accepted_iff _ _).2 ⟨?_, ?_, ?_⟩, ?_⟩
  · rw [List.length_append]; omega
  · rw [← hl, List.take_left]
    exact headerFor_ok h0 h
  · rw [imageSizeOf_headerFor (by omega)]
  · rw [List.length_append, hl]

/-! ## The page buffer -/

theorem pageOf_eq {img : Bytes} {q : Nat} (h1 : 256 * q ≤ img.length) (h2 : img.length ≤ 256 * (q + 1)) :
    pageOf img q = img.drop (256 * q) ++ List.replicate (256 * (q + 1) - img.length) 0xff := by
  apply List.ext_getElem
  · simp; omega
  · intro i hi hi'
    rw [← getD_of_lt _ _ 0 hi, pageOf_getD _ _ _ (by simpa using hi), List.getElem_append]
    split
    · rename_i h
      rw [List.length_drop] at h
      rw [getD_of_lt _ _ _ (by omega), List.getElem_drop]
    · rename_i h
      rw [List.length_drop] at h
      rw [List.getD_eq_default _ _ (by omega), List.getElem_replicate]

/-- Counters and page buffer after the image bytes `img`. -/
structure Filling (img : Bytes) (s : AppFirmwareUpdateState) : Prop where
  image_received : s.imageReceived = img.length
  page_fill : s.pageFill = img.length % 256
  erased : s.erasedUpTo = 4096 * ((img.length / 256 + 15) / 16)
  page_length : s.page.length = 256
  page : s.page.take s.pageFill = img.drop (256 * (img.length / 256))

theorem Filling.empty {s : AppFirmwareUpdateState} (h1 : s.imageReceived = 0) (h2 : s.pageFill = 0)
    (h3 : s.erasedUpTo = 0) (h4 : s.page.length = 256) : Filling [] s :=
  ⟨h1, h2, h3, h4, by rw [h2]; rfl⟩

/-- The page buffer with a chunk added holds the image's last page so far. -/
theorem Filling.takeChunk {img chunk : Bytes} {s : AppFirmwareUpdateState} (h : Filling img s)
    (hc : s.pageFill + chunk.length ≤ FLASH_PAGE_SIZE) :
    (s.takeChunk chunk hc).page.take (s.pageFill + chunk.length) = (img ++ chunk).drop
    (256 * (img.length / 256)) := by
  have hfill := h.page_fill
  have := h.page_length
  change (memcpy _ _ _).take _ = _
  rw [memcpy_take _ _ _ (by omega), h.page, List.drop_append_of_le_length (by omega)]

theorem Filling.takeChunk_length {img chunk : Bytes} {s : AppFirmwareUpdateState} (h : Filling img s)
    (hc : s.pageFill + chunk.length ≤ FLASH_PAGE_SIZE) : (s.takeChunk chunk hc).page.length = 256 := by
  have := h.page_length
  simp only [FLASH_PAGE_SIZE] at hc
  change (memcpy _ _ _).length = _
  rw [memcpy_length _ _ _ (by omega), this]

/-- A chunk that does not fill the page. -/
theorem Filling.partial {img chunk : Bytes} {s : AppFirmwareUpdateState} (h : Filling img s)
    (hc : s.pageFill + chunk.length ≤ FLASH_PAGE_SIZE) (hne : s.pageFill + chunk.length ≠ FLASH_PAGE_SIZE) :
    Filling (img ++ chunk) (s.takeChunk chunk hc) := by
  have hfill := h.page_fill
  simp only [FLASH_PAGE_SIZE] at hne hc
  have hq : (img ++ chunk).length / 256 = img.length / 256 := by simp; omega
  refine ⟨?_, ?_, ?_, h.takeChunk_length hc, ?_⟩
  · simp [AppFirmwareUpdateState.takeChunk, h.image_received]
  · simp only [AppFirmwareUpdateState.takeChunk, List.length_append]; omega
  · rw [hq]; exact h.erased
  · rw [hq]; exact h.takeChunk hc

/-- A chunk that fills the page: the buffer holds that page of the image. -/
theorem Filling.full {img chunk : Bytes} {s : AppFirmwareUpdateState} (h : Filling img s)
    (hc : s.pageFill + chunk.length ≤ FLASH_PAGE_SIZE) (he : s.pageFill + chunk.length = FLASH_PAGE_SIZE) :
    (s.takeChunk chunk hc).page = pageOf (img ++ chunk) (img.length / 256) := by
  have hfill := h.page_fill
  have hl := h.takeChunk_length hc
  simp only [FLASH_PAGE_SIZE] at he hc
  have hlen : (img ++ chunk).length = 256 * (img.length / 256 + 1) := by simp; omega
  rw [pageOf_eq (by omega) (by omega), ← h.takeChunk hc, hlen, Nat.sub_self, List.replicate_zero, List.append_nil,
    List.take_of_length_le (by omega)]

/-! ## Writing image bytes -/

section
variable (fault : Nat → Bool)

/-- The erase loop before page `q`: at a sector's first page one erase, else none. -/
theorem eraseUpTo_spec (q : Nat) (w : Ota) (h : w.upd.erasedUpTo = 4096 * ((q + 15) / 16)) :
    ∃ e, let P := runPlan fault (if q % 16 = 0 then [.erase (copyStart + 256 * q) 4096] else []) w.flash
      eraseUpTo fault (256 * q) w = (P.1, ⟨{ w.upd with erasedUpTo := e }, P.2⟩) ∧
        (P.1 = true → e = 4096 * ((q + 1 + 15) / 16)) := by
  by_cases h16 : q % 16 = 0
  · have heq : w.upd.erasedUpTo = 256 * q := by omega
    rw [if_pos h16, runPlan_singleton, eraseUpTo, if_pos (by omega)]
    simp only [appFirmwareUpdateFlashEraseSector, FLASH_SECTOR_SIZE, heq]
    by_cases hx : (w.flash.exec fault (.erase (copyStart + 256 * q) 4096)).1 = true
    · refine ⟨256 * q + 4096, ?_, fun _ => by omega⟩
      rw [if_pos hx, eraseUpTo, if_neg (by simp only; omega), hx]
    · exact ⟨w.upd.erasedUpTo, by rw [if_neg hx, Bool.eq_false_iff.2 hx], fun h' => absurd h' hx⟩
  · refine ⟨w.upd.erasedUpTo, ?_, fun _ => by omega⟩
    rw [if_neg h16, eraseUpTo, if_neg (by omega)]
    rfl

/-- Flushing page `q` of an image stages that page. -/
theorem flushPage_spec (img : Bytes) (q : Nat) (w : Ota) (h : w.upd.erasedUpTo = 4096 * ((q + 15) / 16))
    (hp : w.upd.page = pageOf img q) :
    ∃ e, let P := runPlan fault (stagePage copyStart img q) w.flash
      flushPage fault (256 * q) w = (P.1, ⟨{ w.upd with erasedUpTo := e }, P.2⟩) ∧
        (P.1 = true → e = 4096 * ((q + 1 + 15) / 16)) := by
  obtain ⟨e, he, hee⟩ := eraseUpTo_spec fault q w h
  refine ⟨e, ?_⟩
  simp only at he hee ⊢
  rw [stagePage, flushPage, he]
  by_cases hx : (runPlan fault (if q % 16 = 0 then [.erase (copyStart + 256 * q) 4096] else []) w.flash).1 = true
  · rw [runPlan_append_of_ok hx, runPlan_singleton, if_pos hx]
    simp only [appFirmwareUpdateFlashProgramPage, hp]
    exact ⟨trivial, fun _ => hee hx⟩
  · rw [runPlan_append_of_fail (by simpa using hx), if_neg hx]
    exact ⟨rfl, fun h' => absurd h' hx⟩

/-- The fields that writing image bytes leaves alone. -/
structure SameUpload (s s' : AppFirmwareUpdateState) : Prop where
  active : s'.active = s.active
  header_valid : s'.headerValid = s.headerValid
  content_len : s'.contentLen = s.contentLen
  received : s'.received = s.received
  image_size : s'.imageSize = s.imageSize
  header : s'.header = s.header

theorem SameUpload.trans {s s' s'' : AppFirmwareUpdateState} (h : SameUpload s s') (h' : SameUpload s' s'') :
    SameUpload s s'' :=
  ⟨h'.1.trans h.1, h'.2.trans h.2, h'.3.trans h.3, h'.4.trans h.4, h'.5.trans h.5, h'.6.trans h.6⟩

theorem fail_of_ok {r : AppFirmwareUpdateResult} {s : AppFirmwareUpdateState} (h : s.result = .ok)
    (hr : r ≠ .ok) : appFirmwareUpdateFail r s = { s with result := r } := by
  rw [appFirmwareUpdateFail, if_neg (by rw [h]; exact hr.symm)]

/-- The upload has been given the image bytes `img`, starting from `s` and `d`:
their whole pages are staged, until an operation fails or the image outgrows
its announced size. -/
structure ImageWritten (d : Flash) (img : Bytes) (s : AppFirmwareUpdateState) (w : Ota) : Prop where
  same : SameUpload s w.upd
  flash : w.flash =
    (runPlan fault (stage copyStart (img.take s.imageSize) ((img.take s.imageSize).length / 256)) d).2
  going :
    (runPlan fault (stage copyStart (img.take s.imageSize) ((img.take s.imageSize).length / 256)) d).1 = true →
    img.length ≤ s.imageSize → w.upd.result = .ok ∧ Filling img w.upd
  too_large : (runPlan fault (stage copyStart (img.take s.imageSize) ((img.take s.imageSize).length / 256))
    d).1 = true →
    s.imageSize < img.length → w.upd.result = .imageTooLarge
  failed : (runPlan fault (stage copyStart (img.take s.imageSize) ((img.take s.imageSize).length / 256))
    d).1 = false →
    w.upd.result = .flashError

variable {fault} {d : Flash}

theorem ImageWritten.of_same {img : Bytes} {s s' : AppFirmwareUpdateState} {w : Ota}
    (h : ImageWritten fault d img s' w) (hs : SameUpload s s') : ImageWritten fault d img s w := by
  obtain ⟨h1, h2, h3, h4, h5⟩ := h
  have hsz := hs.image_size
  exact ⟨hs.trans h1, hsz ▸ h2, hsz ▸ h3, hsz ▸ h4, hsz ▸ h5⟩

/-- No operation has failed, and the image fits. -/
theorem imageWritten_going {img : Bytes} {w : Ota} (hF : Filling img w.upd) (hsz : img.length ≤ w.upd.imageSize)
    (hok : w.upd.result = .ok) (hd : runPlan fault (stage copyStart img (img.length / 256)) d = (true, w.flash)) :
    ImageWritten fault d img w.upd w := by
  have ht : img.take w.upd.imageSize = img := List.take_of_length_le hsz
  exact ⟨⟨rfl, rfl, rfl, rfl, rfl, rfl⟩, by rw [ht, hd], fun _ _ => ⟨hok, hF⟩, fun _ h => absurd h (by omega),
    fun h => by rw [ht, hd] at h; cases h⟩

/-- A chunk takes the image past its size before it fills a page. -/
theorem imageWritten_tooLarge {img img' : Bytes} {s : AppFirmwareUpdateState} {fl : Flash}
    (hpre : img <+: img') (hsz : img.length ≤ s.imageSize) (hlt : s.imageSize < 256 * (img.length / 256 + 1))
    (hbig : s.imageSize < img'.length) (hok : s.result = .ok)
    (hd : runPlan fault (stage copyStart img (img.length / 256)) d = (true, fl)) :
    ImageWritten fault d img' s ⟨appFirmwareUpdateFail .imageTooLarge s, fl⟩ := by
  have hlen : (img'.take s.imageSize).length = s.imageSize := by simp; omega
  have hP : runPlan fault (stage copyStart (img'.take s.imageSize) ((img'.take s.imageSize).length / 256)) d =
      (true, fl) := by
    rw [hlen, show s.imageSize / 256 = img.length / 256 by omega,
      stage_of_initial (List.prefix_take_iff.2 ⟨hpre, hsz⟩) (by omega), hd]
  rw [fail_of_ok hok (by decide)]
  exact ⟨⟨rfl, rfl, rfl, rfl, rfl, rfl⟩, by rw [hP], fun _ h => absurd h (by omega), fun _ _ => rfl,
    fun h => by rw [hP] at h; cases h⟩

/-- A page could not be staged. -/
theorem imageWritten_failed {img img' : Bytes} {q e : Nat} {s : AppFirmwareUpdateState} {fl : Flash}
    (hpre : img <+: img') (hlen : img.length = 256 * (q + 1)) (hsz : img.length ≤ s.imageSize)
    (hok : s.result = .ok) (hd : runPlan fault (stage copyStart img (q + 1)) d = (false, fl)) :
    ImageWritten fault d img' s ⟨appFirmwareUpdateFail .flashError { s with erasedUpTo := e }, fl⟩ := by
  have hp : img <+: img'.take s.imageSize := List.prefix_take_iff.2 ⟨hpre, hsz⟩
  have hle := hp.length_le
  obtain ⟨os, hos⟩ := stage_mono hp (show 256 * (q + 1) ≤ _ by omega)
    (show q + 1 ≤ (img'.take s.imageSize).length / 256 by omega)
  have hP : runPlan fault (stage copyStart (img'.take s.imageSize) ((img'.take s.imageSize).length / 256)) d =
      (false, fl) := by
    rw [hos, runPlan_append_of_fail (by rw [hd]), hd]
  have hf := fail_of_ok (r := .flashError) (s := { s with erasedUpTo := e }) hok (by decide)
  have hno : (runPlan fault (stage copyStart (img'.take s.imageSize) ((img'.take s.imageSize).length / 256))
      d).1 ≠ true := by
    rw [hP]; exact Bool.false_ne_true
  rw [hf]
  exact ⟨⟨rfl, rfl, rfl, rfl, rfl, rfl⟩, by rw [hP], fun h => absurd h hno, fun h => absurd h hno, fun _ => rfl⟩

theorem filling_emptyPage {img : Bytes} {q e : Nat}
    {s : AppFirmwareUpdateState} (hlen : img.length = 256 * (q + 1)) (hrec : s.imageReceived = img.length)
    (he : e = 4096 * ((q + 1 + 15) / 16)) :
    Filling img ({ s with erasedUpTo := e } : AppFirmwareUpdateState).emptyPage := by
  refine ⟨hrec, ?_, ?_, List.length_replicate, ?_⟩
  · simp only [AppFirmwareUpdateState.emptyPage]; omega
  · simp only [AppFirmwareUpdateState.emptyPage, he]; congr 2; omega
  · simp only [AppFirmwareUpdateState.emptyPage, List.take_zero]
    rw [List.drop_eq_nil_of_le (by omega)]

/-- One turn of the loop, with its chunk named. -/
theorem writeImageData_eq {data : Bytes} {w : Ota} (hdata : data.length ≠ 0) (c : Nat)
    (hchunk : min data.length (FLASH_PAGE_SIZE - w.upd.pageFill) = c)
    (hc : w.upd.pageFill + (data.take c).length ≤ FLASH_PAGE_SIZE) :
    appFirmwareUpdateWriteImageData fault data w =
      let s := w.upd.takeChunk (data.take c) hc
      if s.imageReceived > s.imageSize then (false, ⟨appFirmwareUpdateFail .imageTooLarge s, w.flash⟩)
      else if s.pageFill = FLASH_PAGE_SIZE then
        let r := flushPage fault (s.imageReceived - FLASH_PAGE_SIZE) ⟨s, w.flash⟩
        if r.1 then appFirmwareUpdateWriteImageData fault (data.drop c) ⟨r.2.upd.emptyPage, r.2.flash⟩
        else (false, ⟨appFirmwareUpdateFail .flashError r.2.upd, r.2.flash⟩)
      else appFirmwareUpdateWriteImageData fault (data.drop c) ⟨s, w.flash⟩ := by
  subst hchunk
  rw [appFirmwareUpdateWriteImageData, if_neg hdata]

theorem writeImageData_spec (data img : Bytes) (w : Ota) (hF : Filling img w.upd)
    (hsz : img.length ≤ w.upd.imageSize) (hok : w.upd.result = .ok)
    (hd : runPlan fault (stage copyStart img (img.length / 256)) d = (true, w.flash)) :
    ImageWritten fault d (img ++ data) w.upd (appFirmwareUpdateWriteImageData fault data w).2 := by
  induction hn : data.length using Nat.strong_induction_on generalizing data img w with
  | _ n ih =>
    by_cases hdata : data.length = 0
    · rw [appFirmwareUpdateWriteImageData, if_pos hdata, List.eq_nil_of_length_eq_zero hdata, List.append_nil]
      exact imageWritten_going hF hsz hok hd
    have hfill := hF.page_fill
    obtain ⟨c, hchunk⟩ : ∃ c, min data.length (FLASH_PAGE_SIZE - w.upd.pageFill) = c := ⟨_, rfl⟩
    have hc : w.upd.pageFill + (data.take c).length ≤ FLASH_PAGE_SIZE := hchunk ▸ chunk_le
    rw [writeImageData_eq hdata c hchunk hc]
    simp only [FLASH_PAGE_SIZE] at hchunk
    have hclen : (data.take c).length = c := by simp; omega
    have hsplit : img ++ data = (img ++ data.take c) ++ data.drop c := by
      rw [List.append_assoc, List.take_append_drop]
    have hl1 : (img ++ data.take c).length = img.length + c := by rw [List.length_append, hclen]
    have hrec : (w.upd.takeChunk (data.take c) hc).imageReceived = (img ++ data.take c).length := by
      simp only [AppFirmwareUpdateState.takeChunk, hF.image_received, List.length_append]
    have hpf : (w.upd.takeChunk (data.take c) hc).pageFill = w.upd.pageFill + c := by
      simp only [AppFirmwareUpdateState.takeChunk, hclen]
    have hsame : SameUpload w.upd (w.upd.takeChunk (data.take c) hc) := ⟨rfl, rfl, rfl, rfl, rfl, rfl⟩
    have hok' : (w.upd.takeChunk (data.take c) hc).result = .ok := hok
    simp only
    by_cases hbig : (w.upd.takeChunk (data.take c) hc).imageReceived >
      (w.upd.takeChunk (data.take c) hc).imageSize
    · rw [if_pos hbig]
      rw [hrec, hsame.image_size] at hbig
      refine ImageWritten.of_same ?_ hsame
      exact imageWritten_tooLarge (List.prefix_append _ _) hsz (by rw [hsame.image_size]; omega)
        (by rw [hsame.image_size, hsplit, List.length_append]; omega) hok' hd
    rw [if_neg hbig]
    rw [hrec, hsame.image_size] at hbig
    by_cases hpage : (w.upd.takeChunk (data.take c) hc).pageFill = FLASH_PAGE_SIZE
    · -- the chunk fills the page: page `q` of the image is flushed
      rw [if_pos hpage]
      have hpage' := hF.full hc (by rw [hclen, ← hpf]; exact hpage)
      rw [hpf] at hpage
      simp only [FLASH_PAGE_SIZE] at hpage
      have hq : (img ++ data.take c).length = 256 * (img.length / 256 + 1) := by omega
      have hplan : runPlan fault (stage copyStart (img ++ data.take c) (img.length / 256 + 1)) d =
          runPlan fault (stagePage copyStart (img ++ data.take c) (img.length / 256)) w.flash := by
        rw [stage_succ, stage_of_initial (List.prefix_append _ _) (by omega),
          runPlan_append_of_ok (by rw [hd]), hd]
      rw [hrec, show (img ++ data.take c).length - FLASH_PAGE_SIZE = 256 * (img.length / 256) by
        simp only [FLASH_PAGE_SIZE]; omega]
      obtain ⟨e, he, hee⟩ := flushPage_spec fault (img ++ data.take c) (img.length / 256)
        ⟨w.upd.takeChunk (data.take c) hc, w.flash⟩ hF.erased hpage'
      simp only [← hplan] at he hee
      rw [he]
      by_cases hx : (runPlan fault (stage copyStart (img ++ data.take c) (img.length / 256 + 1)) d).1 = true
      · rw [if_pos hx, hsplit]
        have hF' := filling_emptyPage hq hrec (hee hx)
        have hsame' : SameUpload w.upd
            ({ w.upd.takeChunk (data.take c) hc with erasedUpTo := e } : AppFirmwareUpdateState).emptyPage :=
          ⟨rfl, rfl, rfl, rfl, rfl, rfl⟩
        refine ImageWritten.of_same ?_ hsame'
        refine ih (data.drop c).length (by rw [List.length_drop]; omega) _ _ ⟨_, _⟩ hF' (not_lt.1 hbig) hok ?_ rfl
        rw [hq, Nat.mul_div_cancel_left _ (by omega), ← hx]
      · rw [if_neg hx, hsplit]
        refine ImageWritten.of_same ?_ hsame
        refine imageWritten_failed (List.prefix_append _ _) hq (not_lt.1 hbig) hok' ?_
        rw [← Bool.eq_false_iff.2 hx]
    · rw [if_neg hpage]
      have hF' := hF.partial hc (by rw [hclen, ← hpf]; exact hpage)
      rw [hpf] at hpage
      simp only [FLASH_PAGE_SIZE] at hpage
      rw [hsplit]
      refine ImageWritten.of_same ?_ hsame
      refine ih (data.drop c).length (by rw [List.length_drop]; omega) _ _ ⟨_, w.flash⟩ hF' (not_lt.1 hbig)
        hok ?_ rfl
      rw [show (img ++ data.take c).length / 256 = img.length / 256 by omega,
        stage_of_initial (List.prefix_append _ _) (by omega), hd]

end

end BLEBridge
