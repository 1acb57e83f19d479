import BLEBridge.AppWeb
import BLEBridge.Lib.Runs
import BLEBridge.UploadRun
/-!
# One file over many requests

The OTA page sends a file in chunks of 4096 bytes, one POST each. Between two
exchanges no request is open, and an upload that is still active has been given
the chunks since its first one, each whole and in its place.
-/
open Lib

namespace BLEBridge

/-! ## Chunks -/

/-- The exchange carries the chunk at `offset` of a file of `total` bytes. -/
structure IsChunk (total offset : Nat) (e : Exchange) : Prop where
  query_offset : queryOffset e.uri = some offset
  query_total : queryTotal e.uri = some total
  lt : offset < total
  content_len : e.contentLen = (min (total - offset) APP_WEB_OTA_CHUNK_SIZE : Nat)
  whole : e.body.length = min (total - offset) APP_WEB_OTA_CHUNK_SIZE

/-- The first chunks of a file, in order. -/
def Chunks (total : Nat) (es : List Exchange) : Prop :=
  ∀ (i : Nat) (h : i < es.length), IsChunk total (APP_WEB_OTA_CHUNK_SIZE * i) es[i]

def bodies (es : List Exchange) : Bytes := es.flatMap Exchange.body

theorem bodies_concat (es : List Exchange) (e : Exchange) : bodies (es ++ [e]) = bodies es ++ e.body := by
  unfold bodies
  rw [List.flatMap_append, List.flatMap_singleton]

theorem Chunks.concat {total : Nat} {es : List Exchange} {e : Exchange} (h : Chunks total es)
    (he : IsChunk total (APP_WEB_OTA_CHUNK_SIZE * es.length) e) : Chunks total (es ++ [e]) := by
  intro i hi
  rw [List.length_append, List.length_singleton] at hi
  rcases Nat.lt_succ_iff_lt_or_eq.1 hi with hlt | rfl
  · rw [List.getElem_append_left hlt]
    exact h i hlt
  · rw [List.getElem_concat_length rfl]
    exact he

theorem Chunks.of_concat {total : Nat} {es : List Exchange} {e : Exchange} (h : Chunks total (es ++ [e])) :
    Chunks total es ∧ IsChunk total (APP_WEB_OTA_CHUNK_SIZE * es.length) e := by
  constructor
  · intro i hi
    have := h i (by rw [List.length_append]; omega)
    rwa [List.getElem_append_left hi] at this
  · have := h es.length (by rw [List.length_append, List.length_singleton]; omega)
    rwa [List.getElem_concat_length rfl] at this

/-- Chunks make up the file from its start. -/
theorem Chunks.length {total : Nat} {es : List Exchange} (h : Chunks total es) :
    (bodies es).length = min (APP_WEB_OTA_CHUNK_SIZE * es.length) total := by
  induction es using List.reverseRecOn with
  | nil =>
    unfold bodies
    rw [List.flatMap_nil, List.length_nil, List.length_nil, Nat.mul_zero, Nat.zero_min]
  | append_singleton es e ih =>
    obtain ⟨hes, he⟩ := h.of_concat
    have hlt := he.lt
    have hwhole := he.whole
    rw [bodies_concat, List.length_append, ih hes, hwhole, List.length_append, List.length_singleton]
    unfold APP_WEB_OTA_CHUNK_SIZE at *
    omega

/-! ## The data of a request -/

theorem strided_slices (data : Bytes) :
    ∀ n, ((List.range n).map fun k => slice data (256 * k) 256).flatten = data.take (256 * n) := by
  intro n
  induction n with
  | zero => rfl
  | succ n ih =>
    rw [List.range_succ, List.map_append, List.flatten_append, ih, List.map_singleton, List.flatten_singleton,
      Nat.mul_succ]
    unfold slice
    exact List.take_add.symm

theorem bufferParts_flatten (data : Bytes) : (bufferParts data).flatten = data := by
  unfold bufferParts strided
  rw [List.map_map]
  refine (strided_slices data _).trans ?_
  exact List.take_of_length_le (by omega)

/-- No upload is left, and no request open. -/
structure Failed (s : AppWeb) : Prop where
  valid : s.request.valid = false
  active : s.ota.upd.active = false

theorem requestFail_failed (result : AppFirmwareUpdateResult) (s : AppWeb) :
    Failed (appWebUpdateRequestFail result s) := by
  unfold appWebUpdateRequestFail appWebSetSaveStatus
  dsimp only
  split_ifs with hactive
  · exact ⟨rfl, rfl⟩
  · exact ⟨rfl, Bool.eq_false_of_not_eq_true hactive⟩

/-- A request for the chunk at the end of `prior` of which the bytes `got` have
come, with the calls on the writer since `start`. -/
structure Receiving (fault : Nat → Bool) (total : Nat) (prior got : Bytes) (size : Nat) (start : List Call)
    (s : AppWeb) : Prop where
  request : s.request = ⟨true, prior.length, size, got.length⟩
  tracks : ∃ d, Tracks fault d total (prior ++ got) s.ota
  result : s.ota.upd.result = .ok
  calls : ∃ pieces : List Bytes, s.calls = start ++ pieces.map Call.write ∧ pieces.flatten = got

section
variable {fault : Nat → Bool} {d : Flash} {total size : Nat} {prior got : Bytes} {start : List Call} {s : AppWeb}

/-- The writer fails at some point of the stream. -/
def Refused (fault : Nat → Bool) (total : Nat) (stream : Bytes) : Prop :=
  ∃ (d : Flash) (taken : Bytes) (w : Ota), taken <+: stream ∧ Tracks fault d total taken w ∧ w.upd.result ≠ .ok

theorem Refused.append {stream : Bytes} (h : Refused fault total stream) (rest : Bytes) :
    Refused fault total (stream ++ rest) := by
  obtain ⟨d, taken, w, htaken, htracks, hr⟩ := h
  exact ⟨d, taken, w, htaken.trans (List.prefix_append _ _), htracks, hr⟩

/-- While nothing has gone wrong the counters are those of the stream. -/
theorem Tracks.counted {stream : Bytes} {w : Ota} (h : Tracks fault d total stream w) (hr : w.upd.result = .ok) :
    w.upd.received = stream.length ∧ w.upd.contentLen = total := by
  cases h with
  | header h => exact ⟨h.received, h.content_len⟩
  | staging h => exact ⟨h.received, h.content_len⟩
  | rejected _ _ _ hr' | tooLarge _ _ _ hr' | flashError _ _ hr' =>
    rw [hr] at hr'
    cases hr'

theorem Receiving.active (h : Receiving fault total prior got size start s) : s.ota.upd.active = true := by
  obtain ⟨d, htracks⟩ := h.tracks
  exact htracks.active

/-- Each part of the data goes to the writer, unless that refuses it. -/
theorem Receiving.receiveLoop (h : Receiving fault total prior got size start s) :
    ∀ (parts : List Bytes), got.length + parts.flatten.length < 2 ^ 32 →
      Failed (receiveLoop fault parts s) ∧ Refused fault total (prior ++ (got ++ parts.flatten)) ∨
        Receiving fault total prior (got ++ parts.flatten) size start (receiveLoop fault parts s) := by
  intro parts
  induction parts generalizing s got with
  | nil =>
    intro _
    rw [List.flatten_nil, List.append_nil]
    exact .inr h
  | cons data rest ih =>
    intro hlen
    rw [List.flatten_cons, List.length_append] at hlen
    obtain ⟨d, htracks⟩ := h.tracks
    obtain ⟨pieces, hcalls, hpieces⟩ := h.calls
    have hwrite : appFirmwareUpdateWrite fault data s.ota =
        ((writeLoop fault data s.ota).upd.result, writeLoop fault data s.ota) := by
      unfold appFirmwareUpdateWrite
      rw [if_neg (by rw [h.active]; decide)]
    have hgo : ¬(s.request.valid = false ∨ s.ota.upd.active = false) := by
      rw [h.request, h.active]
      rintro (hv | ha)
      · cases hv
      · cases ha
    have hnext : Tracks fault d total (prior ++ (got ++ data)) (writeLoop fault data s.ota) := by
      rw [← List.append_assoc]
      exact tracks_write data htracks
    unfold BLEBridge.receiveLoop
    rw [if_neg hgo, hwrite, List.flatten_cons, ← List.append_assoc got]
    dsimp only
    split_ifs with hresult
    · refine .inl ⟨requestFail_failed _ _, d, _, _, ?_, hnext, hresult⟩
      exact (List.prefix_append_right_inj prior).2 (List.prefix_append _ _)
    · apply ih
      · refine ⟨?_, ⟨d, hnext⟩, not_not.1 hresult, pieces ++ [data], ?_, ?_⟩
        · rw [h.request, List.length_append]
          dsimp only
          rw [Nat.mod_eq_of_lt (by omega)]
        · dsimp only
          rw [hcalls, List.map_append, List.append_assoc]
          rfl
        · rw [List.flatten_append, List.flatten_singleton, hpieces]
      · rw [List.length_append]
        omega

theorem Failed.receiveLoop (h : Failed s) (parts : List Bytes) : receiveLoop fault parts s = s := by
  cases parts with
  | nil => rfl
  | cons data rest => exact if_pos (.inl h.valid)

theorem Failed.receiveAll (h : Failed s) (pieces : List Bytes) :
    pieces.foldl (fun s data => httpdPostReceiveData fault data s) s = s := by
  induction pieces with
  | nil => rfl
  | cons data rest ih =>
    rw [List.foldl_cons]
    unfold httpdPostReceiveData
    rw [h.receiveLoop]
    exact ih

/-- The data callbacks of a request, however its body is split. -/
theorem Receiving.receiveAll (h : Receiving fault total prior got size start s) :
    ∀ (pieces : List Bytes), got.length + pieces.flatten.length < 2 ^ 32 →
      Failed (pieces.foldl (fun s data => httpdPostReceiveData fault data s) s) ∧
        Refused fault total (prior ++ (got ++ pieces.flatten)) ∨
        Receiving fault total prior (got ++ pieces.flatten) size start
          (pieces.foldl (fun s data => httpdPostReceiveData fault data s) s) := by
  intro pieces
  induction pieces generalizing s got with
  | nil =>
    intro _
    rw [List.flatten_nil, List.append_nil]
    exact .inr h
  | cons data rest ih =>
    intro hlen
    rw [List.flatten_cons, List.length_append] at hlen
    have hpiece := h.receiveLoop (bufferParts data)
    rw [bufferParts_flatten] at hpiece
    rw [List.foldl_cons, List.flatten_cons, ← List.append_assoc got]
    unfold httpdPostReceiveData at *
    rcases hpiece (by omega) with ⟨hf, hrefused⟩ | hr
    · have hrest := @Failed.receiveAll fault _ hf rest
      unfold httpdPostReceiveData at hrest
      rw [hrest, ← List.append_assoc prior]
      exact .inl ⟨hf, hrefused.append _⟩
    · apply ih hr
      rw [List.length_append]
      omega

end

/-! ## The begin of a request -/

/-- What `httpd_post_begin` does for the update URI. -/
inductive Begun (e : Exchange) (s s' : AppWeb) : Prop where
  | failed (h : Failed s')
  | first {total : Nat} (hoffset : queryOffset e.uri = some 0) (htotal : queryTotal e.uri = some total)
      (hlt : 0 < total)
    (hlen : e.contentLen = (min total APP_WEB_OTA_CHUNK_SIZE : Nat)) (hrange : InRange total)
    (hrequest : s'.request = ⟨true, 0, min total APP_WEB_OTA_CHUNK_SIZE, 0⟩)
      (hota : s'.ota = (appFirmwareUpdateBegin total s.ota).2)
    (hcalls : s'.calls = s.calls ++ [.begin total])
  | next {offset total : Nat} (hoffset : queryOffset e.uri = some offset)
      (htotal : queryTotal e.uri = some total) (hlt : offset < total)
    (hlen : e.contentLen = (min (total - offset) APP_WEB_OTA_CHUNK_SIZE : Nat)) (hpos : offset ≠ 0)
    (hactive : s.ota.upd.active = true) (hsame : total = s.ota.upd.contentLen)
      (hreceived : offset = s.ota.upd.received)
    (hrequest : s'.request = ⟨true, offset, min (total - offset) APP_WEB_OTA_CHUNK_SIZE, 0⟩)
      (hota : s'.ota = s.ota)
    (hcalls : s'.calls = s.calls)

theorem begin_outOfRange_result {len : Nat} (h : ¬InRange len) (w : Ota) :
    (appFirmwareUpdateBegin len w).1 ≠ .ok := by
  have hhdr : APP_FIRMWARE_UPDATE_HEADER_SIZE = 4096 := rfl
  have hmax : appFirmwareUpdateImageMaxSize = 917504 := rfl
  unfold InRange at h
  unfold appFirmwareUpdateBegin
  rw [if_pos (by rw [hhdr, hmax]; omega)]
  dsimp only
  rw [fail_result]
  decide

theorem begin_inRange_result {len : Nat} (h : InRange len) (w : Ota) :
    (appFirmwareUpdateBegin len w).2.upd.result = .ok := by
  have hhdr : APP_FIRMWARE_UPDATE_HEADER_SIZE = 4096 := rfl
  have hmax : appFirmwareUpdateImageMaxSize = 917504 := rfl
  unfold InRange at h
  unfold appFirmwareUpdateBegin
  rw [if_neg (by rw [hhdr, hmax]; omega)]
  rfl

theorem httpdPostBegin_cases (e : Exchange) (s : AppWeb) : Begun e s (httpdPostBegin e.uri e.contentLen s).2 := by
  unfold httpdPostBegin
  dsimp only
  rw [if_neg (by rw [e.path]; decide)]
  cases hoffset : queryOffset e.uri with
  | none => exact .failed (requestFail_failed _ _)
  | some offset =>
    cases htotal : queryTotal e.uri with
    | none => exact .failed (requestFail_failed _ _)
    | some total =>
      dsimp only
      split_ifs with hbounds hlen hzero hbegin hstale
      · exact .failed (requestFail_failed _ _)
      · exact .failed (requestFail_failed _ _)
      · have hrange : ¬InRange total := fun h => hbegin (@begin_inRange (fun _ => false) total h s.ota).1
        exact .failed ⟨rfl, (begin_outOfRange hrange s.ota).1⟩
      · have hrange : InRange total := by
          by_contra h
          exact hbegin (begin_outOfRange_result h s.ota)
        push Not at hbounds hlen
        subst hzero
        rw [Nat.sub_zero] at hlen
        exact .first hoffset htotal hbounds.2 (by omega) hrange (by rw [← hlen]; rfl) rfl rfl
      · exact .failed (requestFail_failed _ _)
      · push Not at hbounds hlen hstale
        have hactive : s.ota.upd.active = true := Bool.eq_true_of_not_eq_false hstale.1
        exact .next hoffset htotal hbounds.2 (by omega) hzero hactive hstale.2.1 hstale.2.2
          (by rw [← hlen]) rfl rfl

/-! ## Whole exchanges -/

section
variable {fault : Nat → Bool} {s : AppWeb}

/-- The calls on the writer since `begin` are writes of these bytes. -/
def Written (total : Nat) (stream : Bytes) (calls : List Call) : Prop :=
  ∃ (before : List Call) (pieces : List Bytes), calls = before ++ .begin total :: pieces.map Call.write ∧
    pieces.flatten = stream

theorem Written.more {total : Nat} {prior got : Bytes} {start : List Call}
    (h : Written total prior start) (pieces : List Bytes) (hgot : pieces.flatten = got) :
    Written total (prior ++ got) (start ++ pieces.map Call.write) := by
  obtain ⟨before, earlier, rfl, hprior⟩ := h
  refine ⟨before, earlier ++ pieces, ?_, ?_⟩
  · rw [List.map_append, List.append_assoc, List.cons_append]
  · rw [List.flatten_append, hprior, hgot]

/-- An upload has been given `chunks`, the last of the exchanges `es`. -/
structure Uploading (fault : Nat → Bool) (es : List Exchange) (s : AppWeb) (total : Nat)
    (chunks : List Exchange) : Prop where
  last : chunks <:+ es
  in_order : Chunks total chunks
  nonempty : chunks ≠ []
  range : InRange total
  short : (bodies chunks).length < total
  tracks : ∃ d, Tracks fault d total (bodies chunks) s.ota
  result : s.ota.upd.result = .ok
  written : Written total (bodies chunks) s.calls

/-- Between two exchanges. -/
structure Between (fault : Nat → Bool) (es : List Exchange) (s : AppWeb) : Prop where
  valid : s.request.valid = false
  uploading : s.ota.upd.active = true → ∃ total chunks, Uploading fault es s total chunks

theorem Uploading.counted {es : List Exchange} {total : Nat} {chunks : List Exchange}
    (h : Uploading fault es s total chunks) :
    s.ota.upd.received = (bodies chunks).length ∧ s.ota.upd.contentLen = total := by
  obtain ⟨d, htracks⟩ := h.tracks
  exact htracks.counted h.result

/-- The chunks so far are whole, so the next one starts at the bytes received. -/
theorem Uploading.length {es : List Exchange} {total : Nat} {chunks : List Exchange}
    (h : Uploading fault es s total chunks) :
    (bodies chunks).length = APP_WEB_OTA_CHUNK_SIZE * chunks.length := by
  have hlen := h.in_order.length
  have hshort := h.short
  omega

/-- A request that fits what the writer has so far. -/
structure Fits (s : AppWeb) (e : Exchange) (total offset : Nat) : Prop where
  chunk : IsChunk total offset e
  place : offset = 0 ∨ offset = s.ota.upd.received ∧ total = s.ota.upd.contentLen

/-- What an exchange comes to: no upload, an upload with one more chunk, or the
end of one, with its result. -/
inductive Exchanged (fault : Nat → Bool) (es : List Exchange) (s : AppWeb) (e : Exchange) :
    Option AppFirmwareUpdateResult × AppWeb → Prop where
  | failed {s' : AppWeb} (h : Failed s') : Exchanged fault es s e (none, s')
  | taken {s' : AppWeb} {total offset : Nat} {chunks : List Exchange} (hfits : Fits s e total offset)
      (hvalid : s'.request.valid = false)
    (h : Uploading fault (es ++ [e]) s' total chunks) : Exchanged fault es s e (none, s')
  | completed {s' : AppWeb} {total offset : Nat} {chunks : List Exchange} {result : AppFirmwareUpdateResult}
      (hfits : Fits s e total offset)
    (h : Failed s') (hlast : chunks <:+ es ++ [e]) (hchunks : Chunks total chunks) (hnonempty : chunks ≠ [])
    (hlen : (bodies chunks).length = total)
      (hwritten : ∃ calls, s'.calls = calls ++ [.finish] ∧ Written total (bodies chunks) calls) :
    Exchanged fault es s e (some result, s')

/-- A request that was let in, for the chunk after `chunks`. -/
structure Asked (es : List Exchange) (s : AppWeb) (e : Exchange) (total : Nat) (chunks : List Exchange) :
    Prop where
  query_offset : queryOffset e.uri = some (bodies chunks).length
  query_total : queryTotal e.uri = some total
  lt : (bodies chunks).length < total
  content_len : e.contentLen = (min (total - (bodies chunks).length) APP_WEB_OTA_CHUNK_SIZE : Nat)
  place : (bodies chunks).length = 0 ∨ (bodies chunks).length = s.ota.upd.received ∧ total = s.ota.upd.contentLen
  last : chunks <:+ es
  in_order : Chunks total chunks
  aligned : (bodies chunks).length = APP_WEB_OTA_CHUNK_SIZE * chunks.length
  range : InRange total

section
variable {es : List Exchange} {e : Exchange} {s0 : AppWeb} {total : Nat} {chunks : List Exchange}

theorem Asked.isChunk (h : Asked es s0 e total chunks)
    (hwhole : e.body.length = min (total - (bodies chunks).length) APP_WEB_OTA_CHUNK_SIZE) :
    IsChunk total (bodies chunks).length e := ⟨h.query_offset, h.query_total, h.lt, h.content_len, hwhole⟩

theorem Asked.concat (h : Asked es s0 e total chunks)
    (hwhole : e.body.length = min (total - (bodies chunks).length) APP_WEB_OTA_CHUNK_SIZE) :
    Chunks total (chunks ++ [e]) := by
  have hchunk := h.isChunk hwhole
  rw [h.aligned] at hchunk
  exact h.in_order.concat hchunk

theorem Asked.suffix (h : Asked es s0 e total chunks) : chunks ++ [e] <:+ es ++ [e] := by
  obtain ⟨before, rfl⟩ := h.last
  exact ⟨before, (List.append_assoc _ _ _).symm⟩

theorem finish_not_active (w : Ota) : (appFirmwareUpdateFinish fault w).2.upd.active = false := by
  unfold appFirmwareUpdateFinish
  by_cases h : w.upd.active = false
  · rw [if_pos h]
    exact h
  · rw [if_neg h]

/-- The end of a request, whose body came whole or not. -/
theorem Receiving.finished {start : List Call}
    (h : Receiving fault total (bodies chunks) e.body
      (min (total - (bodies chunks).length) APP_WEB_OTA_CHUNK_SIZE) start s)
    (hasked : Asked es s0 e total chunks) (hstart : Written total (bodies chunks) start) :
    Exchanged fault es s0 e (httpdPostFinished fault s) := by
  obtain ⟨d, htracks⟩ := h.tracks
  obtain ⟨hreceived, hlen⟩ := htracks.counted h.result
  obtain ⟨pieces, hcalls, hpieces⟩ := h.calls
  have hrange := hasked.range
  unfold InRange at hrange
  have hwritten := hstart.more pieces hpieces
  rw [← hcalls, ← bodies_concat] at hwritten
  rw [← bodies_concat] at htracks hreceived
  have hbodies : (bodies (chunks ++ [e])).length = (bodies chunks).length + e.body.length := by
    rw [bodies_concat, List.length_append]
  unfold httpdPostFinished
  rw [h.request]
  dsimp only
  rw [if_neg (by decide)]
  split_ifs with hshort hcomplete
  · exact .failed (requestFail_failed _ _)
  · -- the last chunk: `finish` ends the upload, whatever its result
    push Not at hshort
    have hwhole := hshort.1
    refine .completed ⟨hasked.isChunk hwhole, hasked.place⟩ ⟨rfl, finish_not_active _⟩ hasked.suffix
      (hasked.concat hwhole) ?_ ?_ ⟨_, rfl, hwritten⟩
    · exact List.append_ne_nil_of_right_ne_nil _ (List.cons_ne_nil _ _)
    · rw [← hreceived, hcomplete.2, hlen]
  · push Not at hshort hcomplete
    have hwhole := hshort.1
    have hne : (bodies (chunks ++ [e])).length ≠ total := by
      rw [← hreceived, ← hlen]
      exact hcomplete h.active
    refine .taken ⟨hasked.isChunk hwhole, hasked.place⟩ rfl
      ⟨hasked.suffix, hasked.concat hwhole, ?_, hasked.range, ?_, ⟨d, htracks⟩, h.result, hwritten⟩
    · exact List.append_ne_nil_of_right_ne_nil _ (List.cons_ne_nil _ _)
    · have hlt := hasked.lt
      omega

/-- A request that was let in, to its end. -/
theorem Asked.exchanged {start : List Call} (hasked : Asked es s0 e total chunks)
    (hstart : Written total (bodies chunks) start)
    (h : Receiving fault total (bodies chunks) []
      (min (total - (bodies chunks).length) APP_WEB_OTA_CHUNK_SIZE) start s) :
    Exchanged fault es s0 e
      (httpdPostFinished fault (e.pieces.foldl (fun s data => httpdPostReceiveData fault data s) s)) := by
  have hbody : e.pieces.flatten.length < 2 ^ 32 := by
    have hle := e.body_le
    rw [hasked.content_len] at hle
    unfold APP_WEB_OTA_CHUNK_SIZE at hle
    omega
  rcases h.receiveAll e.pieces (by rw [List.length_nil]; omega) with ⟨hfailed, -⟩ | hreceiving
  · have hnone : httpdPostFinished fault (e.pieces.foldl (fun s data => httpdPostReceiveData fault data s) s) =
        (none, e.pieces.foldl (fun s data => httpdPostReceiveData fault data s) s) := if_pos hfailed.valid
    rw [hnone]
    exact .failed hfailed
  · exact hreceiving.finished hasked hstart

theorem Failed.exchanged (h : Failed s) : Exchanged fault es s0 e
    (httpdPostFinished fault (e.pieces.foldl (fun s data => httpdPostReceiveData fault data s) s)) := by
  have hnone : httpdPostFinished fault s = (none, s) := if_pos h.valid
  rw [h.receiveAll, hnone]
  exact .failed h

/-- A request that is let in is for the chunk after those the upload has. -/
theorem begin_asked (e : Exchange)
    (hup : queryOffset e.uri ≠ some 0 → s.ota.upd.active = true →
      ∃ total chunks, Uploading fault es s total chunks) :
    Failed (httpdPostBegin e.uri e.contentLen s).2 ∨ ∃ total chunks start, Asked es s e total chunks ∧
      Written total (bodies chunks) start ∧ Receiving fault total (bodies chunks) []
        (min (total - (bodies chunks).length) APP_WEB_OTA_CHUNK_SIZE) start
        (httpdPostBegin e.uri e.contentLen s).2 := by
  have hbegun := httpdPostBegin_cases e s
  generalize (httpdPostBegin e.uri e.contentLen s).2 = s' at hbegun ⊢
  cases hbegun with
  | failed h => exact .inl h
  | @first total hoffset htotal hlt hlen hrange hrequest hota hcalls =>
    have hasked : Asked es s e total [] :=
      ⟨hoffset, htotal, hlt, hlen, .inl rfl, List.nil_suffix, fun i hi => absurd hi (Nat.not_lt_zero i),
        rfl, hrange⟩
    obtain ⟨hok, htracks⟩ := @begin_inRange fault total hrange s.ota
    refine .inr ⟨total, [], s'.calls, hasked, ⟨s.calls, [], hcalls, rfl⟩, hrequest, ⟨_, hota ▸ htracks⟩, ?_,
      [], (List.append_nil _).symm, rfl⟩
    rw [hota]
    exact begin_inRange_result hrange s.ota
  | @next offset total hoffset htotal hlt hlen hpos hactive hsame hreceived hrequest hota hcalls =>
    have hne : queryOffset e.uri ≠ some 0 := by
      rw [hoffset]
      exact fun h => hpos (Option.some.inj h)
    obtain ⟨total', chunks, hup⟩ := hup hne hactive
    obtain ⟨hreceived', hlen'⟩ := hup.counted
    obtain ⟨d, htracks⟩ := hup.tracks
    have htotal' : total' = total := hlen'.symm.trans hsame.symm
    have hoffset' : offset = (bodies chunks).length := hreceived.trans hreceived'
    subst htotal' hoffset'
    have hasked : Asked es s e total' chunks :=
      ⟨hoffset, htotal, hlt, hlen, .inr ⟨hreceived, hsame⟩, hup.last, hup.in_order, hup.length, hup.range⟩
    refine .inr ⟨total', chunks, s.calls, hasked, hup.written, hrequest, ⟨d, ?_⟩, ?_, [], ?_, rfl⟩
    · rw [List.append_nil, hota]
      exact htracks
    · rw [hota]
      exact hup.result
    · rw [hcalls]
      exact (List.append_nil _).symm

/-- Every exchange comes to one of the three. -/
theorem Between.exchange (h : Between fault es s) (e : Exchange) :
    Exchanged fault es s e (runExchange fault e s) := by
  unfold runExchange
  dsimp only
  rcases @begin_asked fault s es e fun _ =>
    h.uploading with hfailed | ⟨total, chunks, start, hasked, hstart, hreceiving⟩
  · exact hfailed.exchanged
  · exact hasked.exchanged hstart hreceiving

theorem Exchanged.between {r : Option AppFirmwareUpdateResult × AppWeb} (h : Exchanged fault es s e r) :
    Between fault (es ++ [e]) r.2 := by
  cases h with
  | failed h => exact ⟨h.valid, fun ha => absurd (ha.symm.trans h.active) (by decide)⟩
  | taken hfits hvalid h => exact ⟨hvalid, fun _ => ⟨_, _, h⟩⟩
  | completed hfits h => exact ⟨h.valid, fun ha => absurd (ha.symm.trans h.active) (by decide)⟩

end

end

/-! ## Sequences of exchanges -/

/-- The exchanges one after the other, from the start of the program. -/
def runExchanges (fault : Nat → Bool) (flash : Flash) (es : List Exchange) : AppWeb :=
  run (fun s e => (runExchange fault e s).2) (.init flash) es

theorem runExchanges_between (fault : Nat → Bool) (flash : Flash) (es : List Exchange) :
    Between fault es (runExchanges fault flash es) := by
  induction es using List.reverseRecOn with
  | nil => exact ⟨rfl, fun h => (by cases h)⟩
  | append_singleton es e ih =>
    unfold runExchanges at ih ⊢
    rw [run_concat]
    exact (ih.exchange e).between

/-- An exchange the upload does not go on with. -/
inductive Defective (s : AppWeb) (e : Exchange) : Prop where
  | noOffset (h : queryOffset e.uri = none)
  | noTotal (h : queryTotal e.uri = none)
  | wrongOffset {offset : Nat} (hoffset : queryOffset e.uri = some offset) (hpos : offset ≠ 0)
      (h : offset ≠ s.ota.upd.received)
  | wrongTotal {offset total : Nat} (hoffset : queryOffset e.uri = some offset) (hpos : offset ≠ 0)
      (htotal : queryTotal e.uri = some total)
    (h : total ≠ s.ota.upd.contentLen)
  | wrongLength {offset total : Nat} (hoffset : queryOffset e.uri = some offset)
      (htotal : queryTotal e.uri = some total)
    (h : total ≤ offset ∨ e.contentLen ≠ (min (total - offset) APP_WEB_OTA_CHUNK_SIZE : Nat))
  | shortBody (h : (e.body.length : Int) < e.contentLen)

theorem Fits.not_defective {s : AppWeb} {e : Exchange} {total offset : Nat} (h : Fits s e total offset) :
    ¬Defective s e := by
  obtain ⟨⟨hoffset, htotal, hlt, hlen, hwhole⟩, hplace⟩ := h
  intro hd
  cases hd with
  | noOffset h => rw [hoffset] at h; cases h
  | noTotal h => rw [htotal] at h; cases h
  | wrongOffset ho hpos h =>
    rw [hoffset] at ho
    cases ho
    exact hplace.elim hpos fun hp => h hp.1
  | wrongTotal ho hpos ht h =>
    rw [hoffset] at ho
    rw [htotal] at ht
    cases ho
    cases ht
    exact hplace.elim hpos fun hp => h hp.2
  | wrongLength ho ht h =>
    rw [hoffset] at ho
    rw [htotal] at ht
    cases ho
    cases ht
    rcases h with h | h
    · omega
    · exact h hlen
  | shortBody h =>
    rw [hlen, hwhole] at h
    exact absurd h (lt_irrefl _)

/-- Without an upload no chunk but a first one is accepted. -/
theorem not_accepted_of_inactive {fault : Nat → Bool} {s : AppWeb}
    (h : s.ota.upd.active = false) {e : Exchange} (hoffset : queryOffset e.uri ≠ some 0) :
    Failed (httpdPostBegin e.uri e.contentLen s).2 ∧ Failed (runExchange fault e s).2 := by
  have hbegun := httpdPostBegin_cases e s
  have hfailed : Failed (httpdPostBegin e.uri e.contentLen s).2 := by
    cases hbegun with
    | failed h => exact h
    | first h => exact absurd h hoffset
    | next _ _ _ _ _ hactive =>
      rw [h] at hactive
      cases hactive
  refine ⟨hfailed, ?_⟩
  unfold runExchange
  dsimp only
  rw [hfailed.receiveAll]
  unfold httpdPostFinished
  rw [if_pos hfailed.valid]
  exact hfailed

theorem inactive_stays {fault : Nat → Bool} (later : List Exchange) : ∀ {s : AppWeb}, s.ota.upd.active = false →
    (∀ e ∈ later, queryOffset e.uri ≠ some 0) →
      EveryStep (fun s e => (runExchange fault e s).2)
        (fun s e => (httpdPostBegin e.uri e.contentLen s).2.request.valid = false ∧
          (runExchange fault e s).2.ota.upd.active = false) s later := by
  induction later with
  | nil => exact fun _ _ => trivial
  | cons e later ih =>
    intro s hactive hoffset
    obtain ⟨hbegin, hend⟩ := @not_accepted_of_inactive fault s hactive e (hoffset e List.mem_cons_self)
    exact ⟨⟨hbegin.valid, hend.active⟩, ih hend.active fun e he => hoffset e (List.mem_cons_of_mem _ he)⟩

theorem ota_one_file (fault : Nat → Bool) (flash : Flash) (es : List Exchange) :
    let s := runExchanges fault flash es
    (∀ e, (runExchange fault e s).1 = some .ok → ∃ total chunks, chunks <:+ es ++ [e] ∧ chunks ≠ [] ∧
      Chunks total chunks ∧
      (bodies chunks).length = total ∧
      ∃ calls, (runExchange fault e s).2.calls = calls ++ [.finish] ∧ Written total (bodies chunks) calls) ∧
    (∀ e, Defective s e → (runExchange fault e s).2.ota.upd.active = false) ∧
    (s.ota.upd.active = false → ∀ later : List Exchange, (∀ e ∈ later, queryOffset e.uri ≠ some 0) →
      EveryStep (fun s e => (runExchange fault e s).2)
        (fun s e => (httpdPostBegin e.uri e.contentLen s).2.request.valid = false ∧
          (runExchange fault e s).2.ota.upd.active = false) s later) := by
  intro s
  have hbetween : Between fault es s := runExchanges_between fault flash es
  refine ⟨fun e hreport => ?_, fun e hdefective => ?_, ?_⟩
  · have hex := hbetween.exchange e
    generalize runExchange fault e s = r at hex hreport ⊢
    cases hex with
    | failed h => cases hreport
    | taken hfits hvalid h => cases hreport
    | completed hfits h hlast hchunks hnonempty hlen hwritten =>
      exact ⟨_, _, hlast, hnonempty, hchunks, hlen, hwritten⟩
  · have hex := hbetween.exchange e
    generalize runExchange fault e s = r at hex ⊢
    cases hex with
    | failed h => exact h.active
    | taken hfits hvalid h => exact absurd hdefective hfits.not_defective
    | completed hfits h => exact h.active
  · exact fun hactive later => inactive_stays later hactive

end BLEBridge
