import BLEBridge.AppWebForeign
import BLEBridge.AppWebSuccess
import BLEBridge.Update
import BLEBridge.PowerLoss
import BLEBridge.StorageArray
/-!
# From an upload to the firmware that runs

An exchange that reports success has completed a file, whose image is then staged
and whose header is in the metadata sector (`exchange_committed`). Whatever is
written to the storage meanwhile and wherever the boots after it are cut, the next
application is that image, if it is good, and else the one before.
-/
open Lib

namespace BLEBridge

variable {fault : Nat → Bool} {total : Nat} {m m' : Mem}

/-! ## The report of success -/

/-- A finished upload that reports success has carried out its plan. -/
theorem finish_committed {d : Flash} {stream : Bytes} {w : Ota} (h : Tracks fault d total stream w)
    (hok : (appFirmwareUpdateFinish fault w).1 = .ok) :
    Complete total stream ∧ Committing stream 16 (appFirmwareUpdateFinish fault w).2.flash.mem := by
  by_cases hc : Complete total stream
  · obtain ⟨hflash, hresult⟩ := finish_complete h hc
    have hclean : (runPlan fault (fullPlan stream) d).1 = true := by
      by_contra hfailed
      rw [hresult, if_neg hfailed] at hok
      cases hok
    have hcommitting := committing_of_take hc (le_refl 16) d.mem
    have hlength := fullPlan_length stream
    rw [hc.image_length] at hlength
    rw [List.take_of_length_le hlength.le] at hcommitting
    rw [hflash, runPlan_clean hclean]
    exact ⟨hc, hcommitting⟩
  · exact absurd hok (finish_incomplete h hc).2

theorem Receiving.finished_ok {prior got : Bytes} {size : Nat} {start : List Call} {s : AppWeb}
    (h : Receiving fault total prior got size start s) (hok : (httpdPostFinished fault s).1 = some .ok) :
    got.length = size ∧ Complete total (prior ++ got) ∧
      Committing (prior ++ got) 16 (httpdPostFinished fault s).2.ota.flash.mem := by
  obtain ⟨d, htracks⟩ := h.tracks
  unfold httpdPostFinished at hok ⊢
  rw [h.request] at hok ⊢
  dsimp only at hok ⊢
  rw [if_neg (by decide)] at hok ⊢
  split_ifs at hok ⊢ with hshort hcomplete
  · push Not at hshort
    obtain ⟨hc, hcommitting⟩ := finish_committed htracks (Option.some.inj hok)
    exact ⟨hshort.1, hc, hcommitting⟩

/-- A report of success is for a file whose chunks came in order, the last ones
before the report. -/
theorem exchange_committed {es : List Exchange} {s : AppWeb} {e : Exchange} (h : Between fault es s)
    (hok : (runExchange fault e s).1 = some .ok) :
    ∃ total chunks, chunks <:+ es ++ [e] ∧ Chunks total chunks ∧ Complete total (bodies chunks) ∧
      Committing (bodies chunks) 16 (runExchange fault e s).2.ota.flash.mem := by
  unfold runExchange at hok ⊢
  dsimp only at hok ⊢
  have hnone {s' : AppWeb} (hfailed : Failed s') (hok : (httpdPostFinished fault s').1 = some .ok) : False := by
    have hreport : httpdPostFinished fault s' = (none, s') := if_pos hfailed.valid
    rw [hreport] at hok
    cases hok
  rcases @begin_asked fault s es e fun _ =>
    h.uploading with hfailed | ⟨total, chunks, start, hasked, hstart, hreceiving⟩
  · rw [hfailed.receiveAll] at hok
    exact (hnone hfailed hok).elim
  · have hbody : e.pieces.flatten.length < 2 ^ 32 := by
      have hle := e.body_le
      rw [hasked.content_len] at hle
      unfold APP_WEB_OTA_CHUNK_SIZE at hle
      omega
    rcases hreceiving.receiveAll e.pieces (by rw [List.length_nil]; omega) with ⟨hfailed, -⟩ | hreceiving
    · exact (hnone hfailed hok).elim
    · rw [List.nil_append] at hreceiving
      obtain ⟨hwhole, hc, hcommitting⟩ := hreceiving.finished_ok hok
      refine ⟨total, chunks ++ [e], hasked.suffix, hasked.concat hwhole, ?_⟩
      rw [bodies_concat]
      exact ⟨hc, hcommitting⟩

/-! ## The boots after it -/

/-- Writes of the storage do not touch what is staged. -/
theorem Committing.outside {stream : Bytes} (h : Committing stream 16 m) (hc : Complete total stream)
    (hout : OutsideUnchanged m m') : Committing stream 16 m' := by
  have hsize := imageSizeOf_le hc.1
  refine ⟨fun i hi => ?_, fun i hi => ?_⟩
  · rw [← h.metadata i hi]
    refine hout _ (.inl ?_)
    rw [metadata_offset, storage_offset]
    omega
  · rw [← h.image i hi]
    refine hout _ (.inl ?_)
    rw [copy_offset, storage_offset]
    omega

/-- The boots from this flash start the image, wherever they are cut. -/
structure StartsImage (image : Bytes) (m : Mem) : Prop where
  jumps : ∀ m', Boots m m' → ReachesJump m' →
    activeFirmware m' image.length = image ∧ (bootloaderMain m').1 = .app (le32 image 0) (le32 image 4)
  first : (bootloaderMain m).1 = .reboot
  second : (bootloaderMain (bootloaderMain m).2.mem).1 = .app (le32 image 0) (le32 image 4)

theorem startsImage {stream : Bytes} (h : Committing stream 16 m) (hc : Complete total stream)
    (hgood : ImageGood (manifestOf stream) (stream.drop 4096)) : StartsImage (stream.drop 4096) m := by
  have ha : Applicable m := (applicable_iff_good h hc).2 hgood
  have hlength : (stream.drop 4096).length = imageSizeOf stream := by
    rw [← hc.image_length, uploadImage_complete hc]
  have hcopy : firmwareCopy m (stream.drop 4096).length = stream.drop 4096 := hlength ▸ h.firmwareCopy hc
  have hpending : pendingSize m = (stream.drop 4096).length := by
    rw [hlength, pendingSize, h.manifestOf_eq hc.1.1 (by decide)]
    rfl
  have hvector (off : Nat) (hoff : off + 4 ≤ 8) : le32 (firmwareCopy m 8) off = le32 (stream.drop 4096) off := by
    have h8 : 8 ≤ (stream.drop 4096).length := hlength ▸ hgood.2.1
    rw [← le32_take (stream.drop 4096) hoff, ← hcopy, firmwareCopy, firmwareCopy, read_take _ _ _ _ h8]
  have hjump {m' : Mem} (happlied : Applied m m') : activeFirmware m' (stream.drop 4096).length =
    stream.drop 4096 ∧
      (bootloaderMain m').1 = .app (le32 (stream.drop 4096) 0) (le32 (stream.drop 4096) 4) := by
    constructor
    · rw [happlied.activeFirmware (hpending ▸ pendingSize_le_sectors m)]
      exact hcopy
    · rw [happlied.jumps ha, ← hvector 0 (by decide), ← hvector 4 (by decide)]
  have hself : Pending m m := fun _ _ => rfl
  refine ⟨fun m' hboots hreaches => ?_, ?_, ?_⟩
  · rcases boots_applicable ha hboots with hpend | happlied
    · exact absurd (hpend.applicable ha).1 ((reachesJump_iff m').1 hreaches)
    · exact hjump happlied
  · rw [main_applicable ha]
  · rw [main_applicable ha]
    exact (hjump (hself.finish ha)).2

/-- **From an upload to the firmware that runs.** A report of success is for a file
whose chunks came in order. Whatever is written to the storage afterwards, the boots
that follow start its image if it is good, wherever they are cut; and else they
change nothing. Over flash that works, a complete file sent in order is reported. -/
theorem ota_end_to_end :
    (∀ fault flash es e, (runExchange fault e (runExchanges fault flash es)).1 = some .ok →
      ∃ total chunks, chunks <:+ es ++ [e] ∧ Chunks total chunks ∧ Complete total (bodies chunks) ∧
        ∀ m, OutsideUnchanged (runExchange fault e (runExchanges fault flash es)).2.ota.flash.mem m →
          (ImageGood (manifestOf (bodies chunks)) ((bodies chunks).drop 4096) →
            StartsImage ((bodies chunks).drop 4096) m) ∧
          (¬ImageGood (manifestOf (bodies chunks)) ((bodies chunks).drop 4096) → ∀ m', Boots m m' → m' = m)) ∧
    ∀ s done e total, Chunks total (done ++ [e]) → Complete total (bodies (done ++ [e])) →
      (runExchange noFault e (run (fun s e => (runExchange noFault e s).2) s done)).1 = some .ok := by
  refine ⟨fun fault flash es e hok => ?_, fun s done e total hchunks hc => (upload_succeeds s hchunks hc).1⟩
  obtain ⟨total, chunks, hlast, hchunks, hc, hcommitting⟩ :=
    exchange_committed (runExchanges_between fault flash es) hok
  refine ⟨total, chunks, hlast, hchunks, hc, fun m hout => ?_⟩
  have hstaged := hcommitting.outside hc hout
  refine ⟨startsImage hstaged hc, fun hbad m' hboots => boots_not_applicable ?_ hboots⟩
  rwa [applicable_iff_good hstaged hc]

/-- A file whose last two chunks are these two has no others. -/
theorem twoChunks_whole {total : Nat} {chunks : List Exchange} (hlast : chunks <:+ [firstChunk, secondChunk])
    (hchunks : Chunks total chunks) (hc : Complete total (bodies chunks)) :
    chunks = [firstChunk, secondChunk] := by
  rcases List.suffix_cons_iff.1 hlast with h | h
  · exact h
  exfalso
  rcases List.suffix_cons_iff.1 h with rfl | hnil
  · have hoffset : queryOffset secondChunk.uri = some 4096 := by decide +kernel
    have hzero := (hchunks 0 Nat.one_pos).query_offset
    rw [List.getElem_cons_zero, hoffset] at hzero
    exact absurd (Option.some.inj hzero) (by decide)
  · obtain rfl := List.suffix_nil.1 hnil
    have hlong : 4096 ≤ (bodies []).length := hc.1.1
    exact absurd hlong (by decide)

theorem ota_end_to_end_vectorsOnly :
    StartsImage vectorsOnly (runExchange noFault secondChunk
      (runExchanges noFault (.start fun _ => 0xff) [firstChunk])).2.ota.flash.mem := by
  have hok := ota_end_to_end.2 (.init (.start fun _ => 0xff)) [firstChunk] secondChunk 4104 twoChunks
    complete_twoChunks
  obtain ⟨total, chunks, hlast, hchunks, hc, hboots⟩ :=
    ota_end_to_end.1 noFault (.start fun _ => 0xff) [firstChunk] secondChunk hok
  obtain rfl := twoChunks_whole hlast hchunks hc
  have hflat : bodies [firstChunk, secondChunk] = [headerFor vectorsOnly, vectorsOnly].flatten := by
    rw [bodies_twoChunks, flatten_vectorsOnly]
  have hdrop : (bodies [firstChunk, secondChunk]).drop 4096 = vectorsOnly := by
    rw [bodies_twoChunks, ← headerFor_length vectorsOnly, List.drop_left]
  have hstarts := (hboots _ fun _ _ => rfl).1 (by rw [hflat]; exact imageGood_vectorsOnly)
  rwa [hdrop] at hstarts

end BLEBridge
