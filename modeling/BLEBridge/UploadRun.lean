import BLEBridge.Upload
/-!
# Runs of one upload

`Tracks` relates the stream given so far to the writer's state and flash, in
four phases. Every `write` keeps it, whatever the piece; `finish_spec` says what
the end of a stream comes to.
-/
open Lib

namespace BLEBridge

/-! ## The invariant -/

/-- Still inside the header. -/
structure HeaderPhase (len : Nat) (s : Bytes) (u : AppFirmwareUpdateState) : Prop where
  short : s.length < 4096
  active : u.active = true
  result : u.result = .ok
  header_valid : u.headerValid = false
  content_len : u.contentLen = len
  received : u.received = s.length
  image_received : u.imageReceived = 0
  page_fill : u.pageFill = 0
  erased : u.erasedUpTo = 0
  header_length : u.header.length = 4096
  header : u.header.take s.length = s

/-- The header was accepted and nothing has gone wrong. -/
structure StagingPhase (len : Nat) (s : Bytes) (u : AppFirmwareUpdateState) : Prop where
  accepted : Accepted len s
  room : s.length ≤ len
  active : u.active = true
  result : u.result = .ok
  header_valid : u.headerValid = true
  content_len : u.contentLen = len
  received : u.received = s.length
  image_size : u.imageSize = imageSizeOf s
  header : u.header = s.take 4096
  filling : Filling (s.drop 4096) u

/-- The writer, begun for `len` bytes on the flash `d`, after the stream `s`. -/
inductive Tracks (fault : Nat → Bool) (d : Flash) (len : Nat) (s : Bytes) (w : Ota) : Prop
  | header (h : HeaderPhase len s w.upd) (hf : w.flash = d)
  | rejected (hs : 4096 ≤ s.length) (hv : ¬Accepted len s) (ha : w.upd.active = true)
      (hr : w.upd.result = .invalidHeader) (hf : w.flash = d)
  | staging (h : StagingPhase len s w.upd) (hf : runPlan fault (stagedPlan len s) d = (true, w.flash))
  | tooLarge (hv : Accepted len s) (hs : len < s.length) (ha : w.upd.active = true)
      (hr : w.upd.result = .imageTooLarge) (hf : runPlan fault (stagedPlan len s) d = (true, w.flash))
  | flashError (hv : Accepted len s) (ha : w.upd.active = true) (hr : w.upd.result = .flashError)
      (hf : runPlan fault (stagedPlan len s) d = (false, w.flash))

section
variable {fault : Nat → Bool} {d : Flash} {len : Nat} {s : Bytes} {w : Ota}

theorem Tracks.active (h : Tracks fault d len s w) : w.upd.active = true := by
  cases h with
  | header h => exact h.active
  | staging h => exact h.active
  | rejected _ _ ha | tooLarge _ _ ha | flashError _ ha => exact ha

theorem stagedPlan_short (h : ¬Accepted len s) : stagedPlan len s = [] := if_neg h

theorem not_accepted_of_short (h : s.length < 4096) : ¬Accepted len s := fun h' => by have := h'.1; omega

/-- The flash holds what the plan of the stream has put there. -/
theorem Tracks.flash (h : Tracks fault d len s w) : w.flash = (runPlan fault (stagedPlan len s) d).2 := by
  cases h with
  | header h hf => rw [stagedPlan_short (not_accepted_of_short h.short), hf]; rfl
  | rejected _ hv _ _ hf => rw [stagedPlan_short hv, hf]; rfl
  | staging _ hf | tooLarge _ _ _ _ hf | flashError _ _ _ hf => rw [hf]

/-! ## Writes -/

theorem writeLoop_nil (w : Ota) : writeLoop fault [] w = w := by
  rw [writeLoop, if_neg (by simp)]

/-- After a failure the rest of the stream is dropped. -/
theorem writeLoop_stopped (data : Bytes) (h : w.upd.result ≠ .ok) : writeLoop fault data w = w := by
  rw [writeLoop, if_neg (fun hc => h hc.2)]

theorem tracks_image (data : Bytes) (h : StagingPhase len s w.upd)
    (hf : runPlan fault (stagedPlan len s) d = (true, w.flash)) :
    Tracks fault d len (s ++ data) (writeLoop fault data w) := by
  by_cases hdata : data.length = 0
  · rw [List.eq_nil_of_length_eq_zero hdata, List.append_nil, writeLoop_nil]
    exact .staging h hf
  obtain ⟨hs, -, hlen⟩ := (accepted_iff _ _).1 h.accepted
  have hacc : Accepted len (s ++ data) := (accepted_append data hs).2 h.accepted
  have hsz := imageSizeOf_le h.accepted
  have hroom := h.room
  have hplan : stagedPlan len s = stage copyStart (s.drop 4096) ((s.drop 4096).length / 256) := by
    rw [stagedPlan, if_pos h.accepted, uploadImage_of_room (by omega)]
  have hplan' : stagedPlan len (s ++ data) =
      stage copyStart ((s.drop 4096 ++ data).take (imageSizeOf s))
        (((s.drop 4096 ++ data).take (imageSizeOf s)).length / 256) := by
    rw [stagedPlan, if_pos hacc, uploadImage_append data hs]
  have hrec := h.received
  rw [writeLoop, if_pos ⟨by omega, h.result⟩,
    if_neg (by simp only [APP_FIRMWARE_UPDATE_HEADER_SIZE, FLASH_SECTOR_SIZE]; omega)]
  simp only
  obtain ⟨u, hu⟩ : ∃ u : AppFirmwareUpdateState,
    u = { w.upd with received := (w.upd.received + data.length) % 2 ^ 32 } := ⟨_, rfl⟩
  have hF : Filling (s.drop 4096) u := hu ▸ ⟨h.filling.1, h.filling.2, h.filling.3, h.filling.4, h.filling.5⟩
  have husz : u.imageSize = imageSizeOf s := hu ▸ h.image_size
  have hw := writeImageData_spec data (s.drop 4096) ⟨u, w.flash⟩ hF (by simp only [husz, List.length_drop]; omega)
    (hu ▸ h.result) (hplan ▸ hf)
  rw [← hu]
  obtain ⟨hsame, hfl, hgo, hbig, hfail⟩ := hw
  simp only [husz, ← hplan'] at hfl hgo hbig hfail
  have hact : (appFirmwareUpdateWriteImageData fault data ⟨u, w.flash⟩).2.upd.active = true :=
    hsame.active.trans (hu ▸ h.active)
  have hl : (s ++ data).length = s.length + data.length := List.length_append
  have hl' : (s.drop 4096 ++ data).length = s.length - 4096 + data.length := by simp
  cases hP : (runPlan fault (stagedPlan len (s ++ data)) d).1 with
  | false => exact .flashError hacc hact (hfail hP) (Prod.ext hP hfl.symm)
  | true =>
    by_cases hfit : (s ++ data).length ≤ len
    · obtain ⟨hok, hF'⟩ := hgo hP (by omega)
      refine .staging ⟨hacc, hfit, hact, hok, hsame.header_valid.trans (hu ▸ h.header_valid),
        hsame.content_len.trans (hu ▸ h.content_len), ?_, hsame.image_size.trans ?_, hsame.header.trans ?_, ?_⟩
        (Prod.ext hP hfl.symm)
      · rw [hsame.received, hu]
        simp only [hrec]
        omega
      · rw [imageSizeOf_append data hs]; exact husz
      · rw [List.take_append_of_le_length hs]; exact hu ▸ h.header
      · rw [List.drop_append_of_le_length hs]; exact hF'
    · exact .tooLarge hacc (by omega) hact (hbig hP (by omega)) (Prod.ext hP hfl.symm)

theorem tracks_header (data : Bytes) (h : HeaderPhase len s w.upd) (hf : w.flash = d) :
    Tracks fault d len (s ++ data) (writeLoop fault data w) := by
  by_cases hdata : data.length = 0
  · rw [List.eq_nil_of_length_eq_zero hdata, List.append_nil, writeLoop_nil]
    exact .header h hf
  have hshort := h.short
  have hrec := h.received
  have hhl := h.header_length
  have hhdr : APP_FIRMWARE_UPDATE_HEADER_SIZE = 4096 := rfl
  rw [writeLoop, if_pos ⟨by omega, h.result⟩, if_pos (by rw [hhdr]; omega)]
  simp only
  generalize hc : min data.length (APP_FIRMWARE_UPDATE_HEADER_SIZE - w.upd.received) = c
  rw [hhdr, hrec] at hc
  rw [hrec]
  have hcl : (data.take c).length = c := by simp; omega
  have hmem : (memcpy w.upd.header s.length (data.take c)).take (s.length + c) = s ++ data.take c := by
    have := memcpy_take w.upd.header (data.take c) w.upd.received (by omega)
    rwa [hcl, hrec, h.header] at this
  have hml : (memcpy w.upd.header s.length (data.take c)).length = 4096 := by
    rw [memcpy_length _ _ _ (by omega), hhl]
  have hsplit : s ++ data = (s ++ data.take c) ++ data.drop c := by
    rw [List.append_assoc, List.take_append_drop]
  have hl1 : (s ++ data.take c).length = s.length + c := by rw [List.length_append, hcl]
  by_cases hfull : s.length + c = APP_FIRMWARE_UPDATE_HEADER_SIZE
  · -- the header is complete: it is checked, and the rest of the piece is image
    rw [if_pos hfull]
    rw [hhdr] at hfull
    have hheader : memcpy w.upd.header s.length (data.take c) = (s ++ data.take c).take 4096 := by
      rw [List.take_of_length_le (hl1.trans (by omega)).le, ← hmem,
        List.take_of_length_le (hml.trans (by omega)).le]
    by_cases hv : appFirmwareUpdateManifestIsValid (memcpy w.upd.header s.length (data.take c))
      w.upd.contentLen = true
    · rw [if_pos hv, hsplit]
      have hacc : Accepted len (s ++ data.take c) := ⟨by omega, by rw [← hheader, ← h.content_len]; exact hv⟩
      have hlen := ((accepted_iff _ _).1 hacc).2.2
      have hdrop : (s ++ data.take c).drop 4096 = [] := List.drop_eq_nil_of_le (by omega)
      refine tracks_image (data.drop c) (w := ⟨_, _⟩)
        ⟨hacc, by omega, h.active, h.result, rfl, h.content_len, ?_, ?_, ?_, ?_⟩ ?_
      · simp only; omega
      · simp only [hheader]; exact imageSizeOf_take _
      · exact hheader
      · rw [hdrop]
        exact .empty h.image_received h.page_fill h.erased List.length_replicate
      · rw [stagedPlan, if_pos hacc, uploadImage_of_room (by omega), hdrop]
        simp [hf]
    · rw [if_neg hv, hsplit]
      have hnacc : ¬Accepted len (s ++ data.take c) := fun hacc =>
        hv (by rw [hheader, h.content_len]; exact hacc.2)
      refine .rejected (by rw [List.length_append]; omega)
        (fun hacc => hnacc ((accepted_append _ (by omega)).1 hacc)) ?_ ?_ hf
      · rw [fail_active]; exact h.active
      · rw [fail_result]
  · -- the whole piece went into the header
    rw [if_neg hfull]
    rw [hhdr] at hfull
    have hce : c = data.length := by omega
    rw [List.drop_eq_nil_of_le (by omega), writeLoop_nil]
    have htake : data.take c = data := List.take_of_length_le (by omega)
    rw [htake] at hmem hml hl1 ⊢
    refine .header ⟨by omega, h.active, h.result, h.header_valid, h.content_len, ?_, h.image_received,
      h.page_fill, h.erased, hml, ?_⟩ hf
    · simp only [hl1]
    · rw [hl1]; exact hmem

/-- Every write keeps the invariant, for any piece. -/
theorem tracks_write (data : Bytes) (h : Tracks fault d len s w) :
    Tracks fault d len (s ++ data) (writeLoop fault data w) := by
  cases h with
  | header h hf => exact tracks_header data h hf
  | staging h hf => exact tracks_image data h hf
  | rejected hs hv ha hr hf =>
    rw [writeLoop_stopped data (by rw [hr]; decide)]
    exact .rejected (by rw [List.length_append]; omega) (fun h => hv ((accepted_append data hs).1 h)) ha hr hf
  | tooLarge hv hs ha hr hf =>
    rw [writeLoop_stopped data (by rw [hr]; decide)]
    refine .tooLarge ((accepted_append data hv.1).2 hv) (by rw [List.length_append]; omega) ha hr ?_
    -- no whole page is left to stage past the announced size
    obtain ⟨hs', -, hlen⟩ := (accepted_iff _ _).1 hv
    have himg : uploadImage (s ++ data) = uploadImage s := by
      rw [uploadImage_append data hs', uploadImage, List.take_append_of_le_length (by simp; omega)]
    rw [← hf]
    simp only [stagedPlan, accepted_append data hs', himg]
  | flashError hv ha hr hf =>
    rw [writeLoop_stopped data (by rw [hr]; decide)]
    refine .flashError ((accepted_append data hv.1).2 hv) ha hr ?_
    obtain ⟨os, hos⟩ := stagedPlan_append len data hv.1
    rw [hos, runPlan_append_of_fail (by rw [hf]), hf]

/-! ## From `begin` to the last write -/

/-- The sizes `begin` lets through. -/
def InRange (len : Nat) : Prop := 4096 ≤ len ∧ len ≤ 4096 + 917504

theorem begin_inRange (h : InRange len) (w : Ota) :
    (appFirmwareUpdateBegin len w).1 = .ok ∧ Tracks fault w.flash len [] (appFirmwareUpdateBegin len w).2 := by
  obtain ⟨h1, h2⟩ := h
  have hhdr : APP_FIRMWARE_UPDATE_HEADER_SIZE = 4096 := rfl
  have hmax : appFirmwareUpdateImageMaxSize = 917504 := rfl
  rw [appFirmwareUpdateBegin, if_neg (by rw [hhdr, hmax]; omega)]
  exact ⟨rfl, .header ⟨by simp, rfl, rfl, rfl, rfl, rfl, rfl, rfl, rfl, List.length_replicate, rfl⟩ rfl⟩

theorem begin_outOfRange (h : ¬InRange len) (w : Ota) :
    (appFirmwareUpdateBegin len w).2.upd.active = false ∧ (appFirmwareUpdateBegin len w).2.flash = w.flash := by
  have hhdr : APP_FIRMWARE_UPDATE_HEADER_SIZE = 4096 := rfl
  have hmax : appFirmwareUpdateImageMaxSize = 917504 := rfl
  rw [appFirmwareUpdateBegin, if_pos (by rw [hhdr, hmax]; unfold InRange at h; omega)]
  exact ⟨by rw [fail_active]; rfl, rfl⟩

theorem inRange_of_accepted (h : Accepted len s) : InRange len := by
  have := imageSizeOf_le h
  have := ((accepted_iff _ _).1 h).2.2
  exact ⟨by omega, by omega⟩

theorem tracks_writeAll (pieces : List Bytes) (h : Tracks fault d len s w) :
    Tracks fault d len (s ++ pieces.flatten) (writeAll fault pieces w) := by
  induction pieces generalizing s w with
  | nil => simpa [writeAll] using h
  | cons data pieces ih =>
    rw [List.flatten_cons, ← List.append_assoc]
    have hw : (appFirmwareUpdateWrite fault data w).2 = writeLoop fault data w := by
      rw [appFirmwareUpdateWrite, if_neg (by rw [h.active]; decide)]
    have := ih (tracks_write data h)
    rwa [← hw] at this

/-- Without an upload nothing is written. -/
theorem writeAll_inactive (pieces : List Bytes) (h : w.upd.active = false) : writeAll fault pieces w = w := by
  induction pieces with
  | nil => rfl
  | cons data pieces ih =>
    rw [writeAll, List.foldl_cons, appFirmwareUpdateWrite, if_pos h]
    exact ih

/-! ## Finishing -/

theorem programHeader_eq (header : Bytes) (offs : List Nat) (d : Flash) :
    programHeader fault header offs d =
      runPlan fault (offs.map fun off =>
        .program (metadataStart + off) (slice header off FLASH_PAGE_SIZE)) d := by
  induction offs generalizing d with
  | nil => rfl
  | cons off offs ih => simp only [programHeader, List.map_cons, runPlan, ih]; rfl

theorem rewriteMetadata_eq (header : Bytes) :
    rewriteSector metadataStart header = .erase metadataStart FLASH_SECTOR_SIZE ::
      (strided APP_FIRMWARE_UPDATE_HEADER_SIZE FLASH_PAGE_SIZE).map fun off =>
        .program (metadataStart + off) (slice header off FLASH_PAGE_SIZE) := by
  rw [strided, List.map_map]
  rfl

/-- The last page, if it is not full, is padded and flushed like the others. -/
theorem lastPage_spec (h : StagingPhase len s w.upd) (hc : s.length = len)
    (hf : runPlan fault (stagedPlan len s) d = (true, w.flash)) (hpos : w.upd.pageFill > 0) :
    ∃ e, flushPage fault (w.upd.imageReceived - w.upd.pageFill) { w with upd := { w.upd with
        page := memcpy w.upd.page w.upd.pageFill (List.replicate (FLASH_PAGE_SIZE - w.upd.pageFill) 0xff) } } =
      ((runPlan fault (imagePlan (uploadImage s)) d).1, ⟨{ w.upd with
        page := memcpy w.upd.page w.upd.pageFill (List.replicate (FLASH_PAGE_SIZE - w.upd.pageFill) 0xff)
        erasedUpTo := e }, (runPlan fault (imagePlan (uploadImage s)) d).2⟩) := by
  have himg := uploadImage_complete ⟨h.accepted, hc⟩
  have hF := h.filling
  rw [← himg] at hF
  have hplan : stagedPlan len s = stage copyStart (uploadImage s) ((uploadImage s).length / 256) :=
    if_pos h.accepted
  generalize uploadImage s = img at hF hplan ⊢
  have hfill := hF.page_fill
  have hpl := hF.page_length
  have hq : img.length = 256 * (img.length / 256) + w.upd.pageFill := by omega
  have hpage : memcpy w.upd.page w.upd.pageFill (List.replicate (FLASH_PAGE_SIZE - w.upd.pageFill) 0xff) =
      pageOf img (img.length / 256) := by
    have hrl : (List.replicate (FLASH_PAGE_SIZE - w.upd.pageFill) (0xff : UInt8)).length = 256 - w.upd.pageFill :=
      List.length_replicate
    have hm := memcpy_take w.upd.page (List.replicate (FLASH_PAGE_SIZE - w.upd.pageFill) 0xff) w.upd.pageFill
      (by omega)
    have hml := memcpy_length w.upd.page (List.replicate (FLASH_PAGE_SIZE - w.upd.pageFill) 0xff)
      w.upd.pageFill (by omega)
    rw [List.take_of_length_le (by omega), hF.page] at hm
    rw [hm, pageOf_eq (by omega) (by omega),
      show 256 * (img.length / 256 + 1) - img.length = 256 - w.upd.pageFill by omega]
    rfl
  obtain ⟨e, he, -⟩ := flushPage_spec fault img (img.length / 256) { w with upd := { w.upd with
    page := memcpy w.upd.page w.upd.pageFill (List.replicate (FLASH_PAGE_SIZE - w.upd.pageFill) 0xff) } }
      hF.erased hpage
  refine ⟨e, ?_⟩
  rw [hF.image_received, show img.length - w.upd.pageFill = 256 * (img.length / 256) by omega, he, imagePlan,
    show (img.length + 255) / 256 = img.length / 256 + 1 by omega, stage_succ, ← hplan,
    runPlan_append_of_ok (by rw [hf]), hf]

theorem finishWrite_spec (h : StagingPhase len s w.upd) (hc : s.length = len)
    (hf : runPlan fault (stagedPlan len s) d = (true, w.flash)) :
    ((appFirmwareUpdateFinishWrite fault w).1, (appFirmwareUpdateFinishWrite fault w).2.flash) =
        runPlan fault (fullPlan s) d ∧
      (appFirmwareUpdateFinishWrite fault w).2.upd.result = .ok := by
  have himg := uploadImage_complete ⟨h.accepted, hc⟩
  have hF := h.filling
  -- first the image: either its last page is still to be flushed, or all of it is staged
  have hfirst : ∃ p : Bool × Ota, p.1 = (runPlan fault (imagePlan (uploadImage s)) d).1 ∧
      p.2.flash = (runPlan fault (imagePlan (uploadImage s)) d).2 ∧ p.2.upd.header = s.take 4096 ∧
      p.2.upd.result = .ok ∧ appFirmwareUpdateFinishWrite fault w =
        if p.1 then
          let e := appFirmwareUpdateFlashEraseSector fault metadataStart p.2.flash
          if e.1 then
            let r := programHeader fault p.2.upd.header
              (strided APP_FIRMWARE_UPDATE_HEADER_SIZE FLASH_PAGE_SIZE) e.2
            (r.1, ⟨p.2.upd, r.2⟩)
          else (false, ⟨p.2.upd, e.2⟩)
        else p := by
    by_cases hpos : w.upd.pageFill > 0
    · obtain ⟨e, he⟩ := lastPage_spec h hc hf hpos
      refine ⟨_, ?_, ?_, ?_, ?_, rfl⟩ <;> simp only [if_pos hpos, he] <;> split
      · rename_i hx; exact hx.symm
      · rfl
      · rfl
      · rfl
      · exact h.header
      · exact h.header
      · exact h.result
      · exact h.result
    · have hplan : imagePlan (uploadImage s) = stagedPlan len s := by
        have := hF.page_fill
        rw [← himg] at this
        rw [imagePlan, stagedPlan, if_pos h.accepted,
          show ((uploadImage s).length + 255) / 256 = (uploadImage s).length / 256 by omega]
      refine ⟨_, ?_, ?_, ?_, ?_, rfl⟩ <;> simp only [if_neg hpos, hplan, hf]
      · exact h.header
      · exact h.result
  obtain ⟨p, h1, h2, h3, h4, heq⟩ := hfirst
  rw [heq, fullPlan]
  by_cases hok : (runPlan fault (imagePlan (uploadImage s)) d).1 = true
  · rw [runPlan_append_of_ok hok, h1, if_pos hok, h2, h3, rewriteMetadata_eq]
    simp only [programHeader_eq, appFirmwareUpdateFlashEraseSector, runPlan]
    split
    · exact ⟨rfl, h4⟩
    · rename_i hx
      exact ⟨Prod.ext (Bool.eq_false_iff.2 hx).symm rfl, h4⟩
  · rw [runPlan_append_of_fail (by simpa using hok), h1, if_neg hok]
    exact ⟨Prod.ext h1 h2, h4⟩

/-- Finishing a complete upload carries out its whole plan, and says whether
that worked. -/
theorem finish_complete (h : Tracks fault d len s w) (hc : Complete len s) :
    (appFirmwareUpdateFinish fault w).2.flash = (runPlan fault (fullPlan s) d).2 ∧
      (appFirmwareUpdateFinish fault w).1 = if (runPlan fault (fullPlan s) d).1 then .ok else .flashError := by
  rw [appFirmwareUpdateFinish, if_neg (by rw [h.active]; decide)]
  cases h with
  | header h' => exact absurd hc.1 (not_accepted_of_short h'.short)
  | rejected _ hv => exact absurd hc.1 hv
  | tooLarge _ hs => have := hc.2; omega
  | flashError hv ha hr hf =>
    obtain ⟨os, hos⟩ := fullPlan_eq hv
    rw [hos, runPlan_append_of_fail (by rw [hf]), hf, if_neg (by rw [hr]; decide)]
    exact ⟨rfl, hr⟩
  | staging h' hf =>
    obtain ⟨he, hres⟩ := finishWrite_spec h' hc.2 hf
    have hlen := ((accepted_iff _ _).1 hc.1).2.2
    have hc2 := hc.2
    have hrec := h'.filling.image_received
    rw [List.length_drop] at hrec
    rw [if_pos h'.result, if_neg]
    · have h1 := congrArg Prod.fst he
      have h2 := congrArg Prod.snd he
      simp only at h1 h2
      simp only [← h1, ← h2]
      cases hx : (appFirmwareUpdateFinishWrite fault w).1 with
      | true => exact ⟨by simp, by simpa using hres⟩
      | false => exact ⟨by simp, by simp⟩
    · simp only [h'.header_valid, h'.received, h'.content_len, h'.image_size, not_or, not_not]
      exact ⟨by decide, hc2, by omega⟩

/-- Finishing anything else fails, and asks nothing more of the flash. -/
theorem finish_incomplete (h : Tracks fault d len s w) (hc : ¬Complete len s) :
    (appFirmwareUpdateFinish fault w).2.flash = (runPlan fault (stagedPlan len s) d).2 ∧
      (appFirmwareUpdateFinish fault w).1 ≠ .ok := by
  have hfl := h.flash
  rw [appFirmwareUpdateFinish, if_neg (by rw [h.active]; decide)]
  cases h with
  | header h' =>
    rw [if_pos h'.result, if_pos (.inl h'.header_valid)]
    exact ⟨hfl, by simp⟩
  | rejected _ _ _ hr | tooLarge _ _ _ hr | flashError _ _ hr =>
    rw [if_neg (by rw [hr]; decide)]
    exact ⟨hfl, by simp [hr]⟩
  | staging h' =>
    rw [if_pos h'.result, if_pos (.inr (.inl (by
      rw [h'.received, h'.content_len]; exact fun he => hc ⟨h'.accepted, he⟩)))]
    exact ⟨hfl, by simp⟩

theorem finish_inactive (h : w.upd.active = false) : appFirmwareUpdateFinish fault w = (.notActive, w) := by
  rw [appFirmwareUpdateFinish, if_pos h]

end

/-! ## One upload -/

/-- How an upload ends: the client goes away, or one of the closing calls. -/
inductive UploadEnd where
  | stops
  | finishes
  | aborts (result : AppFirmwareUpdateResult)

section
variable (fault : Nat → Bool) (len : Nat) (pieces : List Bytes)

/-- `begin`, then the pieces. -/
def uploadWrites (w : Ota) : Ota := writeAll fault pieces (appFirmwareUpdateBegin len w).2

/-- One upload. -/
def upload (fin : UploadEnd) (w : Ota) : Ota :=
  match fin with
  | .stops => uploadWrites fault len pieces w
  | .finishes => (appFirmwareUpdateFinish fault (uploadWrites fault len pieces w)).2
  | .aborts r => appFirmwareUpdateAbort r (uploadWrites fault len pieces w)

/-- What `finish` says at the end of an upload. -/
def uploadResult (w : Ota) : AppFirmwareUpdateResult :=
  (appFirmwareUpdateFinish fault (uploadWrites fault len pieces w)).1

/-- The operations an upload asks for. -/
def uploadPlan (s : Bytes) : UploadEnd → List FlashOp
  | .finishes => if Complete len s then fullPlan s else stagedPlan len s
  | _ => stagedPlan len s

theorem tracks_uploadWrites (h : InRange len) (w : Ota) :
    Tracks fault w.flash len pieces.flatten (uploadWrites fault len pieces w) :=
  tracks_writeAll pieces (begin_inRange h w).2

/-- An upload that `begin` refused leaves everything as it was. -/
theorem uploadWrites_outOfRange (h : ¬InRange len) (w : Ota) :
    (uploadWrites fault len pieces w).upd.active = false ∧ (uploadWrites fault len pieces w).flash = w.flash ∧
      ∀ s, ¬Accepted len s := by
  obtain ⟨h1, h2⟩ := begin_outOfRange h w
  rw [uploadWrites, writeAll_inactive pieces h1]
  exact ⟨h1, h2, fun s ha => h (inRange_of_accepted ha)⟩

theorem uploadWrites_flash (w : Ota) :
    (uploadWrites fault len pieces w).flash = (runPlan fault (stagedPlan len pieces.flatten) w.flash).2 := by
  by_cases h : InRange len
  · exact (tracks_uploadWrites fault len pieces h w).flash
  · obtain ⟨-, h2, h3⟩ := uploadWrites_outOfRange fault len pieces h w
    rw [h2, stagedPlan_short (h3 _)]
    rfl

/-- **An upload carries out its plan**, however the stream was cut, up to the
first operation that fails. -/
theorem upload_flash (fin : UploadEnd) (w : Ota) :
    (upload fault len pieces fin w).flash = (runPlan fault (uploadPlan len pieces.flatten fin) w.flash).2 := by
  cases fin with
  | stops => exact uploadWrites_flash fault len pieces w
  | aborts r => exact uploadWrites_flash fault len pieces w
  | finishes =>
    by_cases h : InRange len
    · have ht := tracks_uploadWrites fault len pieces h w
      by_cases hc : Complete len pieces.flatten
      · rw [uploadPlan, if_pos hc]; exact (finish_complete ht hc).1
      · rw [uploadPlan, if_neg hc]; exact (finish_incomplete ht hc).1
    · obtain ⟨h1, h2, h3⟩ := uploadWrites_outOfRange fault len pieces h w
      rw [uploadPlan, if_neg fun hc => h3 _ hc.1, stagedPlan_short (h3 _), upload, finish_inactive h1, h2]
      rfl

/-- `finish` reports success exactly when a complete upload's plan went through. -/
theorem uploadResult_ok_iff (w : Ota) :
    uploadResult fault len pieces w = .ok ↔
      Complete len pieces.flatten ∧ (runPlan fault (fullPlan pieces.flatten) w.flash).1 = true := by
  by_cases h : InRange len
  · have ht := tracks_uploadWrites fault len pieces h w
    by_cases hc : Complete len pieces.flatten
    · rw [uploadResult, (finish_complete ht hc).2]
      cases (runPlan fault (fullPlan pieces.flatten) w.flash).1 <;> simp [hc]
    · simp only [hc, false_and, iff_false]
      exact (finish_incomplete ht hc).2
  · obtain ⟨h1, -, h3⟩ := uploadWrites_outOfRange fault len pieces h w
    have hc : ¬Complete len pieces.flatten := fun hc => h3 _ hc.1
    simp [uploadResult, finish_inactive h1, hc]

end

end BLEBridge
