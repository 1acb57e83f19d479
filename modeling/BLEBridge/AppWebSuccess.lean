import BLEBridge.AppWebUpload
import BLEBridge.Commit
/-!
# Uploads that succeed

A complete file sent in order, over flash that does everything it is asked to:
every request is let in, every byte is taken, and the last exchange ends the
upload with success.
-/
open Lib

namespace BLEBridge

/-! ## The chunk after those sent -/

/-- Chunks at the end of chunks are all of them: the first one is at 0. -/
theorem Chunks.eq_of_suffix {total : Nat} {chunks es : List Exchange} (h : Chunks total chunks)
    (hes : Chunks total es) (hlast : chunks <:+ es) (hne : chunks ≠ []) : chunks = es := by
  obtain ⟨before, rfl⟩ := hlast
  have hpos : 0 < chunks.length := List.length_pos_of_ne_nil hne
  have h0 := (h 0 hpos).query_offset
  have h0' := (hes before.length (by rw [List.length_append]; omega)).query_offset
  rw [List.getElem_append_right (le_refl _)] at h0'
  simp only [Nat.sub_self] at h0'
  rw [h0] at h0'
  have hzero : APP_WEB_OTA_CHUNK_SIZE * 0 = APP_WEB_OTA_CHUNK_SIZE * before.length := Option.some.inj h0'
  have hnil : before.length = 0 := by
    unfold APP_WEB_OTA_CHUNK_SIZE at hzero
    omega
  rw [List.eq_nil_of_length_eq_zero hnil, List.nil_append]

theorem Chunks.at {total : Nat} {done later : List Exchange} {e : Exchange}
    (h : Chunks total (done ++ e :: later)) :
    Chunks total (done ++ [e]) ∧ IsChunk total (APP_WEB_OTA_CHUNK_SIZE * done.length) e := by
  rw [List.append_cons] at h
  have hsofar : Chunks total (done ++ [e]) := by
    intro i hi
    have := h i (by rw [List.length_append]; omega)
    rwa [List.getElem_append_left hi] at this
  exact ⟨hsofar, hsofar.of_concat.2⟩

/-- A chunk with more to come does not end the file. -/
theorem Chunks.lt_of_more {total : Nat} {done later : List Exchange} {e : Exchange}
    (h : Chunks total (done ++ e :: later)) (hmore : later ≠ []) :
    APP_WEB_OTA_CHUNK_SIZE * done.length + APP_WEB_OTA_CHUNK_SIZE < total := by
  cases later with
  | nil => exact absurd rfl hmore
  | cons e' later =>
    rw [List.append_cons] at h
    have hlt := h.at.2.lt
    rw [List.length_append, List.length_singleton] at hlt
    omega

section
variable {fault : Nat → Bool} {total : Nat} {done later : List Exchange} {e : Exchange} {s : AppWeb}

/-- The upload goes on with all the chunks so far, or not at all. -/
theorem Exchanged.uploading {base : AppWeb} {r : Option AppFirmwareUpdateResult × AppWeb}
    (h : Exchanged fault done base e r) (hchunks : Chunks total (done ++ [e]))
    (hactive : r.2.ota.upd.active = true) : Uploading fault (done ++ [e]) r.2 total (done ++ [e]) := by
  cases h with
  | failed h =>
    rw [h.active] at hactive
    cases hactive
  | completed hfits h =>
    rw [h.active] at hactive
    cases hactive
  | @taken s' total' offset chunks hfits hvalid h =>
    have htotal : total' = total := by
      have := hfits.chunk.query_total
      rw [hchunks.of_concat.2.query_total] at this
      exact (Option.some.inj this).symm
    subst htotal
    rw [h.in_order.eq_of_suffix hchunks h.last h.nonempty] at h
    exact h

/-- The request for the next chunk, let in or not. -/
theorem Chunks.asked (hchunks : Chunks total (done ++ e :: later))
    (hup : done ≠ [] → s.ota.upd.active = true → Uploading fault done s total done) :
    Failed (httpdPostBegin e.uri e.contentLen s).2 ∨ ∃ start, Asked done s e total done ∧
      Written total (bodies done) start ∧
      Receiving fault total (bodies done) [] (min (total - (bodies done).length) APP_WEB_OTA_CHUNK_SIZE) start
        (httpdPostBegin e.uri e.contentLen s).2 := by
  have hchunk := hchunks.at.2
  have hgo : queryOffset e.uri ≠ some 0 → s.ota.upd.active = true →
      ∃ total chunks, Uploading fault done s total chunks := by
    intro hne hactive
    refine ⟨total, done, hup ?_ hactive⟩
    rintro rfl
    exact hne hchunk.query_offset
  rcases begin_asked e hgo with hfailed | ⟨total', chunks, start, hasked, hstart, hreceiving⟩
  · exact .inl hfailed
  · have htotal : total' = total := Option.some.inj (hasked.query_total.symm.trans hchunk.query_total)
    have hlength : chunks.length = done.length := by
      have := Option.some.inj (hasked.query_offset.symm.trans hchunk.query_offset)
      rw [hasked.aligned] at this
      unfold APP_WEB_OTA_CHUNK_SIZE at this
      omega
    have hall : chunks = done := hasked.last.eq_of_length hlength
    subst htotal hall
    exact .inr ⟨start, hasked, hstart, hreceiving⟩

/-- The end of a chunk that is not the last one changes nothing but the status
and the request. -/
theorem Receiving.finished_more {size : Nat} {prior got : Bytes} {start : List Call}
    (h : Receiving fault total prior got size start s) (hwhole : got.length = size)
    (hmore : prior.length + size < total) (hrange : InRange total) :
    (httpdPostFinished fault s).2.ota = s.ota ∧ (httpdPostFinished fault s).2.calls = s.calls := by
  obtain ⟨d, htracks⟩ := h.tracks
  obtain ⟨hreceived, hlen⟩ := htracks.counted h.result
  rw [List.length_append] at hreceived
  unfold InRange at hrange
  unfold httpdPostFinished
  rw [h.request]
  dsimp only
  rw [if_neg (by decide)]
  split_ifs with hshort hcomplete
  · rcases hshort with hs | hs
    · exact absurd hwhole hs
    · rw [hreceived, hwhole, Nat.mod_eq_of_lt (by omega)] at hs
      exact absurd rfl hs
  · have := hcomplete.2
    omega
  · exact ⟨rfl, rfl⟩

end

/-! ## Nothing is refused -/

section
variable {total : Nat} {done later : List Exchange} {e : Exchange} {s : AppWeb}

/-- The writer takes every part of a complete file. -/
theorem Complete.not_refused {whole stream : Bytes} (hc : Complete total whole) (h : stream <+: whole) :
    ¬Refused noFault total stream := by
  rintro ⟨d, taken, w, htaken, htracks, hr⟩
  obtain ⟨rest, rfl⟩ := htaken.trans h
  have hlen := hc.2
  rw [List.length_append] at hlen
  cases htracks with
  | header h => exact hr h.result
  | staging h => exact hr h.result
  | rejected hs hv => exact hv ((accepted_append rest hs).1 hc.1)
  | tooLarge hv hs => omega
  | flashError hv ha hr' hf =>
    have hclean := (runPlan_ok noFault (stagedPlan total taken) d).2 fun _ _ => rfl
    rw [hf] at hclean
    cases hclean

/-- A request for the chunk at the start of a file, or after the bytes received. -/
theorem begin_valid {offset : Nat} (h : IsChunk total offset e) (hrange : InRange total)
    (hplace : offset ≠ 0 → s.ota.upd.active = true ∧ total = s.ota.upd.contentLen ∧ offset = s.ota.upd.received) :
    (httpdPostBegin e.uri e.contentLen s).2.request.valid = true := by
  have hlt := h.lt
  have hlen := h.content_len
  unfold httpdPostBegin
  dsimp only
  rw [if_neg (by rw [e.path]; decide), h.query_offset, h.query_total]
  dsimp only
  rw [if_neg (by omega), if_neg (by omega)]
  by_cases hzero : offset = 0
  · have hok := (@begin_inRange noFault total hrange s.ota).1
    rw [if_pos hzero, if_neg (not_not.2 hok)]
    rfl
  · obtain ⟨hactive, hsame, hreceived⟩ := hplace hzero
    rw [if_neg hzero, if_neg]
    rintro (ha | ht | ho)
    · rw [hactive] at ha
      cases ha
    · exact ht hsame
    · exact ho hreceived

theorem bodies_start (done later : List Exchange) (e : Exchange) :
    bodies done ++ e.body <+: bodies (done ++ e :: later) := by
  have hsplit : bodies (done ++ e :: later) = bodies (done ++ [e]) ++ bodies later := by
    rw [List.append_cons]
    exact List.flatMap_append
  rw [hsplit, bodies_concat]
  exact List.prefix_append _ _

/-- The body of the next chunk arrives. -/
theorem Chunks.received (hchunks : Chunks total (done ++ e :: later))
    (hc : Complete total (bodies (done ++ e :: later)))
    (hup : done ≠ [] → Uploading noFault done s total done) :
    ∃ start, Asked done s e total done ∧ Written total (bodies done) start ∧
      Receiving noFault total (bodies done) e.body
        (min (total - (bodies done).length) APP_WEB_OTA_CHUNK_SIZE) start
        (e.pieces.foldl (fun s data => httpdPostReceiveData noFault data s)
          (httpdPostBegin e.uri e.contentLen s).2) := by
  have hchunk := hchunks.at.2
  have hvalid : (httpdPostBegin e.uri e.contentLen s).2.request.valid = true := by
    refine begin_valid hchunk (inRange_of_accepted hc.1) fun hpos => ?_
    have hup := hup (by rintro rfl; exact hpos rfl)
    obtain ⟨hreceived, hlen⟩ := hup.counted
    obtain ⟨d, htracks⟩ := hup.tracks
    exact ⟨htracks.active, hlen.symm, hup.length.symm.trans hreceived.symm⟩
  rcases hchunks.asked fun hne _ => hup hne with hfailed | ⟨start, hasked, hstart, hreceiving⟩
  · rw [hfailed.valid] at hvalid
    cases hvalid
  · refine ⟨start, hasked, hstart, ?_⟩
    have hwhole : e.body.length ≤ APP_WEB_OTA_CHUNK_SIZE := hchunk.whole.trans_le (min_le_right _ _)
    unfold APP_WEB_OTA_CHUNK_SIZE Exchange.body at hwhole
    rcases hreceiving.receiveAll e.pieces (by rw [List.length_nil]; omega) with ⟨-, hrefused⟩ | hreceived
    · exact absurd hrefused (hc.not_refused (bodies_start done later e))
    · exact hreceived

/-- Before the last exchange the upload has been given every chunk sent. -/
theorem uploading_chunks (s : AppWeb) (hchunks : Chunks total (done ++ e :: later))
    (hc : Complete total (bodies (done ++ e :: later))) :
    done ≠ [] → Uploading noFault done (run (fun s e => (runExchange noFault e s).2) s done) total done := by
  induction done using List.reverseRecOn generalizing e later with
  | nil => exact fun hne => absurd rfl hne
  | append_singleton done e' ih =>
    intro _
    rw [List.append_assoc] at hchunks hc
    have hup := ih hchunks hc
    rw [run_concat]
    obtain ⟨start, hasked, hstart, hreceiving⟩ := hchunks.received hc hup
    have hlt := hchunks.lt_of_more (List.cons_ne_nil _ _)
    have hwhole := hchunks.at.2.whole
    rw [← hasked.aligned] at hlt hwhole
    apply (hreceiving.finished hasked hstart).uploading hchunks.at.1
    rw [(hreceiving.finished_more hwhole (by omega) hasked.range).1]
    exact hreceiving.active

/-- The end of the last chunk. -/
theorem Receiving.finished_last {size : Nat} {prior got : Bytes}
    {start : List Call} (h : Receiving noFault total prior got size start s) (hwhole : got.length = size)
    (hc : Complete total (prior ++ got)) :
    (httpdPostFinished noFault s).1 = some .ok ∧ (httpdPostFinished noFault s).2.ota.upd.active = false ∧
      (httpdPostFinished noFault s).2.ota.upd.result = .ok := by
  obtain ⟨d, htracks⟩ := h.tracks
  obtain ⟨hreceived, hlen⟩ := htracks.counted h.result
  have hrange := inRange_of_accepted hc.1
  have hsize := hc.2
  rw [List.length_append] at hreceived hsize
  unfold InRange at hrange
  have hok : (appFirmwareUpdateFinish noFault s.ota).1 = .ok := by
    rw [(finish_complete htracks hc).2, if_pos]
    exact (runPlan_ok noFault _ d).2 fun _ _ => rfl
  have hsame : (appFirmwareUpdateFinish noFault s.ota).2.upd.result =
      (appFirmwareUpdateFinish noFault s.ota).1 := by
    unfold appFirmwareUpdateFinish
    rw [if_neg (by rw [h.active]; decide)]
  unfold httpdPostFinished
  rw [h.request]
  dsimp only
  rw [if_neg (by decide), if_neg, if_pos ⟨h.active, by omega⟩]
  · exact ⟨congrArg some hok, finish_not_active _, hsame.trans hok⟩
  · rintro (hs | hs)
    · exact hs hwhole
    · rw [hreceived, hwhole, Nat.mod_eq_of_lt (by omega)] at hs
      exact hs rfl

/-- **A complete file is taken.** The last exchange reports success. -/
theorem upload_succeeds (s : AppWeb) (hchunks : Chunks total (done ++ [e]))
    (hc : Complete total (bodies (done ++ [e]))) :
    let r := runExchange noFault e (run (fun s e => (runExchange noFault e s).2) s done)
    r.1 = some .ok ∧ r.2.ota.upd.active = false ∧ r.2.ota.upd.result = .ok := by
  obtain ⟨start, hasked, hstart, hreceiving⟩ := hchunks.received hc (uploading_chunks s hchunks hc)
  have hwhole := hchunks.at.2.whole
  rw [← hasked.aligned] at hwhole
  rw [bodies_concat] at hc
  exact hreceiving.finished_last hwhole hc

end

end BLEBridge
