import BLEBridge.AppWebSuccess
/-!
# Foreign requests during an upload

`httpd_post_begin` clears the request record before it looks at the URI, so a
POST for another URI also ends the request it comes in. That is harmless between
two exchanges, and when the exchange has got its whole body and is not the last
one of the file. Anywhere else the upload is lost.
-/
open Lib

namespace BLEBridge

/-! ## Callbacks -/

/-- The begin of a POST for another URI. -/
def PostCallback.foreign : PostCallback → Bool
  | .begin uri _ => !appWebUriPathEquals uri APP_WEB_OTA_URI
  | _ => false

def Exchange.callbacks (e : Exchange) : List PostCallback :=
  .begin e.uri e.contentLen :: (e.pieces.map PostCallback.data ++ [.finished])

def clientCallbacks (es : List Exchange) : List PostCallback := es.flatMap Exchange.callbacks

/-- A foreign request does no harm here. -/
def Harmless (s : AppWeb) : Prop :=
  s.request.valid = false ∨ s.request.received = s.request.size ∧ s.ota.upd.received < s.ota.upd.contentLen

/-! ## What the callbacks depend on -/

/-- The same writer, with the same calls made on it. -/
structure SameWriter (s s' : AppWeb) : Prop where
  ota : s.ota = s'.ota
  calls : s.calls = s'.calls

/-- The same writer and request, and the same status unless a request is open. -/
structure SameRequest (s s' : AppWeb) : Prop extends SameWriter s s' where
  request : s.request = s'.request
  status : s'.request.valid = true ∨ s.saveStatus = s'.saveStatus

section
variable {fault : Nat → Bool} {s s' : AppWeb}

theorem foreign_begin {uri : Bytes} {contentLen : Int}
    (h : (PostCallback.begin uri contentLen).foreign = true) (s : AppWeb) :
    s.callback fault (.begin uri contentLen) = { s with request := .zero } := by
  have hpath : appWebUriPathEquals uri APP_WEB_OTA_URI = false := by simpa [PostCallback.foreign] using h
  unfold AppWeb.callback httpdPostBegin
  dsimp only
  rw [if_pos hpath]

theorem requestFail_same (h : SameWriter s s') (hrequest : s.request = s'.request)
    (result : AppFirmwareUpdateResult) :
    SameRequest (appWebUpdateRequestFail result s) (appWebUpdateRequestFail result s') := by
  obtain ⟨request, status, ota, calls⟩ := s
  obtain ⟨request', status', ota', calls'⟩ := s'
  obtain ⟨rfl, rfl⟩ := h
  cases hrequest
  unfold appWebUpdateRequestFail appWebSetSaveStatus
  dsimp only
  split_ifs
  · exact ⟨⟨rfl, rfl⟩, rfl, .inr rfl⟩
  · exact ⟨⟨rfl, rfl⟩, rfl, .inr rfl⟩

/-- The begin of a request does not depend on the request before. -/
theorem begin_same (h : SameWriter s s') (e : Exchange) :
    SameRequest (httpdPostBegin e.uri e.contentLen s).2 (httpdPostBegin e.uri e.contentLen s').2 := by
  obtain ⟨request, status, ota, calls⟩ := s
  obtain ⟨request', status', ota', calls'⟩ := s'
  obtain ⟨rfl, rfl⟩ := h
  have hfail (result : AppFirmwareUpdateResult) :=
    @requestFail_same ⟨.zero, status, ota, calls⟩ ⟨.zero, status', ota, calls⟩
    ⟨rfl, rfl⟩ rfl result
  unfold httpdPostBegin
  dsimp only
  rw [if_neg (by rw [e.path]; decide), if_neg (by rw [e.path]; decide)]
  cases queryOffset e.uri with
  | none => exact hfail _
  | some offset =>
    cases queryTotal e.uri with
    | none => exact hfail _
    | some total =>
      dsimp only
      split_ifs
      · exact hfail _
      · exact hfail _
      · exact ⟨⟨rfl, rfl⟩, rfl, .inr rfl⟩
      · exact ⟨⟨rfl, rfl⟩, rfl, .inr rfl⟩
      · exact hfail _
      · exact ⟨⟨rfl, rfl⟩, rfl, .inl rfl⟩

theorem receiveLoop_same (h : SameRequest s s') (parts : List Bytes) :
    SameRequest (receiveLoop fault parts s) (receiveLoop fault parts s') := by
  induction parts generalizing s s' with
  | nil => exact h
  | cons data rest ih =>
    obtain ⟨request, status, ota, calls⟩ := s
    obtain ⟨request', status', ota', calls'⟩ := s'
    obtain ⟨⟨rfl, rfl⟩, hrequest, hstatus⟩ := h
    cases hrequest
    unfold receiveLoop
    dsimp only at hstatus ⊢
    split_ifs with hstop hfail
    · exact ⟨⟨rfl, rfl⟩, rfl, hstatus⟩
    · exact requestFail_same ⟨rfl, rfl⟩ rfl _
    · exact ih ⟨⟨rfl, rfl⟩, rfl, hstatus⟩

theorem finished_same (h : SameRequest s s') :
    SameWriter (httpdPostFinished fault s).2 (httpdPostFinished fault s').2 ∧
      (httpdPostFinished fault s).2.saveStatus = (httpdPostFinished fault s').2.saveStatus := by
  obtain ⟨request, status, ota, calls⟩ := s
  obtain ⟨request', status', ota', calls'⟩ := s'
  obtain ⟨⟨rfl, rfl⟩, hrequest, hstatus⟩ := h
  cases hrequest
  unfold httpdPostFinished
  dsimp only at hstatus ⊢
  split_ifs with hvalid
  · refine ⟨⟨rfl, rfl⟩, hstatus.resolve_left ?_⟩
    rw [hvalid]
    decide
  · have hfail := @requestFail_same ⟨request, status, ota, calls⟩ ⟨request, status', ota, calls⟩ ⟨rfl, rfl⟩
      rfl .incomplete
    refine ⟨hfail.toSameWriter, hfail.status.resolve_left ?_⟩
    rw [(requestFail_failed _ _).valid]
    decide
  · exact ⟨⟨rfl, rfl⟩, rfl⟩
  · exact ⟨⟨rfl, rfl⟩, rfl⟩

/-- Without an open request neither data nor the end of the request does
anything. -/
theorem data_invalid (h : s.request.valid = false) (data : Bytes) : httpdPostReceiveData fault data s = s := by
  unfold httpdPostReceiveData
  cases bufferParts data with
  | nil => rfl
  | cons part rest => exact if_pos (.inl h)

theorem finished_invalid (h : s.request.valid = false) : (httpdPostFinished fault s).2 = s := by
  unfold httpdPostFinished
  rw [if_pos h]

theorem finished_valid (s : AppWeb) : (httpdPostFinished fault s).2.request.valid = false := by
  unfold httpdPostFinished
  split_ifs with hvalid
  · exact hvalid
  · exact (requestFail_failed _ _).valid
  · rfl
  · rfl

theorem runExchange_valid (s : AppWeb) (e : Exchange) : (runExchange fault e s).2.request.valid = false :=
  finished_valid _

end

/-! ## Both runs -/

/-- A run with foreign requests, in state `s`, beside the run without, in state
`s'`, with the client's callbacks still to come. -/
inductive Sim (fault : Nat → Bool) (total : Nat) (all : List Exchange) :
    List PostCallback → AppWeb → AppWeb → Prop where
  | between {done later : List Exchange} {s s' : AppWeb} (hall : all = done ++ later) (h : SameWriter s s')
    (hvalid : s.request.valid = false) (hstatus : later = [] → s.saveStatus = s'.saveStatus)
    (hup : done ≠ [] → s'.ota.upd.active = true → Uploading fault done s' total done) :
    Sim fault total all (clientCallbacks later) s s'
  | failed {done later : List Exchange} {e : Exchange} {left : List Bytes} {s s' : AppWeb}
      (hall : all = done ++ e :: later)
    (h : SameWriter s s') (hvalid : s.request.valid = false) (hstatus : s.saveStatus = s'.saveStatus)
      (hfailed : Failed s') :
    Sim fault total all (left.map PostCallback.data ++ .finished :: clientCallbacks later) s s'
  | receiving {done later : List Exchange} {e : Exchange} {got : Bytes} {left : List Bytes}
      {start : List Call} {base s s' : AppWeb}
    (hall : all = done ++ e :: later) (h : SameRequest s s') (hasked : Asked done base e total done)
    (hstart : Written total (bodies done) start) (hbody : got ++ left.flatten = e.body)
    (hr : Receiving fault total (bodies done) got (min (total - (bodies done).length) APP_WEB_OTA_CHUNK_SIZE)
      start s') :
    Sim fault total all (left.map PostCallback.data ++ .finished :: clientCallbacks later) s s'
  | skipped {done later : List Exchange} {e : Exchange} {left : List Bytes} {start : List Call}
      {base s s' : AppWeb}
    (hall : all = done ++ e :: later) (h : SameWriter s s') (hvalid : s.request.valid = false)
      (hasked : Asked done base e total done)
    (hstart : Written total (bodies done) start) (hmore : later ≠ []) (hleft : left.flatten = [])
    (hr : Receiving fault total (bodies done) e.body
      (min (total - (bodies done).length) APP_WEB_OTA_CHUNK_SIZE) start s') :
    Sim fault total all (left.map PostCallback.data ++ .finished :: clientCallbacks later) s s'

theorem clientCallbacks_cons (e : Exchange) (later : List Exchange) : clientCallbacks (e :: later) =
    .begin e.uri e.contentLen :: (e.pieces.map PostCallback.data ++ .finished :: clientCallbacks later) := by
  unfold clientCallbacks
  rw [List.flatMap_cons]
  unfold Exchange.callbacks
  rw [List.cons_append, List.append_assoc]
  rfl

theorem run_callbacks (fault : Nat → Bool) (s : AppWeb) (e : Exchange) :
    run (AppWeb.callback fault) s e.callbacks = (runExchange fault e s).2 := by
  unfold Exchange.callbacks run
  rw [List.foldl_cons, List.foldl_append, List.foldl_map]
  rfl

theorem run_clientCallbacks (fault : Nat → Bool) (s : AppWeb) (es : List Exchange) :
    run (AppWeb.callback fault) s (clientCallbacks es) = run (fun s e => (runExchange fault e s).2) s es := by
  induction es generalizing s with
  | nil => rfl
  | cons e later ih =>
    unfold clientCallbacks at ih ⊢
    rw [List.flatMap_cons, run_append, run_callbacks, ih]
    rfl

theorem Exchange.not_foreign (e : Exchange) : ∀ c ∈ e.callbacks, c.foreign = false := by
  intro c hc
  unfold Exchange.callbacks at hc
  rcases List.mem_cons.1 hc with rfl | hc
  · exact congrArg not e.path
  · rcases List.mem_append.1 hc with hdata | hfinished
    · obtain ⟨data, -, rfl⟩ := List.mem_map.1 hdata
      rfl
    · rw [List.mem_singleton.1 hfinished]
      rfl

section
variable {fault : Nat → Bool} {total : Nat} {all : List Exchange}

variable (hchunks : Chunks total all) (hlen : (bodies all).length = total)
include hchunks

/-- A harmless foreign request. -/
theorem Sim.foreign {rest : List PostCallback} {s s' : AppWeb} (hlen : (bodies all).length = total)
    (h : Sim fault total all rest s s') (hharmless : Harmless s) :
    Sim fault total all rest { s with request := .zero } s' := by
  cases h with
  | between hall h hvalid hstatus hup => exact .between hall ⟨h.ota, h.calls⟩ rfl hstatus hup
  | failed hall h hvalid hstatus hfailed => exact .failed hall ⟨h.ota, h.calls⟩ rfl hstatus hfailed
  | skipped hall h hvalid hasked hstart hmore hleft hr =>
    exact .skipped hall ⟨h.ota, h.calls⟩ rfl hasked hstart hmore hleft hr
  | @receiving done later e got left start base s s' hall h hasked hstart hbody hr =>
    have hrequest := h.request.trans hr.request
    obtain ⟨hwhole, hmore⟩ : got.length = min (total - (bodies done).length) APP_WEB_OTA_CHUNK_SIZE ∧
        s.ota.upd.received < s.ota.upd.contentLen := by
      rcases hharmless with hv | ⟨hreceived, hlt⟩
      · rw [hrequest] at hv
        cases hv
      · rw [hrequest] at hreceived
        exact ⟨hreceived, hlt⟩
    obtain ⟨d, htracks⟩ := hr.tracks
    obtain ⟨hreceived, hcontent⟩ := htracks.counted hr.result
    rw [h.ota, hreceived, hcontent, List.length_append] at hmore
    have hbodylen : e.body.length = min (total - (bodies done).length) APP_WEB_OTA_CHUNK_SIZE := by
      rw [hall] at hchunks
      rw [hasked.aligned]
      exact hchunks.at.2.whole
    have hsum := congrArg List.length hbody
    rw [List.length_append] at hsum
    have hleft : left.flatten = [] := List.eq_nil_of_length_eq_zero (by omega)
    have hgot : got = e.body := by
      rw [← hbody, hleft, List.append_nil]
    subst hgot
    refine .skipped hall ⟨h.ota, h.calls⟩ rfl hasked hstart ?_ hleft hr
    rintro rfl
    rw [hall, bodies_concat, List.length_append] at hlen
    omega

/-- The client begins its next request. -/
theorem Sim.begin {done later : List Exchange} {e : Exchange}
    {s s' : AppWeb} (hall : all = done ++ e :: later) (h : SameWriter s s')
    (hup : done ≠ [] → s'.ota.upd.active = true → Uploading fault done s' total done) :
    Sim fault total all (e.pieces.map PostCallback.data ++ .finished :: clientCallbacks later)
      (httpdPostBegin e.uri e.contentLen s).2 (httpdPostBegin e.uri e.contentLen s').2 := by
  have hsame := begin_same h e
  rw [hall] at hchunks
  rcases hchunks.asked hup with hfailed | ⟨start, hasked, hstart, hreceiving⟩
  · refine .failed hall hsame.toSameWriter ?_ (hsame.status.resolve_left ?_) hfailed
    · exact (congrArg AppWebUpdateRequest.valid hsame.request).trans hfailed.valid
    · rw [hfailed.valid]
      decide
  · exact .receiving hall hsame hasked hstart rfl hreceiving

theorem Sim.client {rest : List PostCallback} {c : PostCallback} {s s' : AppWeb} {callbacks : List PostCallback}
    (h : Sim fault total all callbacks s s') (hcallbacks : callbacks = c :: rest) :
    Sim fault total all rest (s.callback fault c) (s'.callback fault c) := by
  cases h with
  | @between done later s s' hall h hvalid hstatus hup =>
    cases later with
    | nil => cases hcallbacks
    | cons e later =>
      rw [clientCallbacks_cons] at hcallbacks
      obtain ⟨rfl, rfl⟩ := List.cons.inj hcallbacks
      exact Sim.begin hchunks hall h hup
  | @failed done later e left s s' hall h hvalid hstatus hfailed =>
    -- Neither run takes the bytes of a failed request.
    cases left with
    | nil =>
      obtain ⟨rfl, rfl⟩ := List.cons.inj hcallbacks
      unfold AppWeb.callback
      dsimp only
      rw [finished_invalid hvalid, finished_invalid hfailed.valid]
      refine .between (hall.trans (List.append_cons _ _ _)) h hvalid (fun _ => hstatus) fun _ hactive => ?_
      rw [hfailed.active] at hactive
      cases hactive
    | cons piece left =>
      obtain ⟨rfl, rfl⟩ := List.cons.inj hcallbacks
      unfold AppWeb.callback
      dsimp only
      rw [data_invalid hvalid, data_invalid hfailed.valid]
      exact .failed hall h hvalid hstatus hfailed
  | @receiving done later e got left start base s s' hall h hasked hstart hbody hr =>
    cases left with
    | nil =>
      obtain ⟨rfl, rfl⟩ := List.cons.inj hcallbacks
      rw [List.flatten_nil, List.append_nil] at hbody
      subst hbody
      obtain ⟨hsame, hstatus⟩ := @finished_same fault s s' h
      refine .between (hall.trans (List.append_cons _ _ _)) hsame (finished_valid s) (fun _ => hstatus) fun _
        hactive => ?_
      rw [hall] at hchunks
      exact (hr.finished hasked hstart).uploading hchunks.at.1 hactive
    | cons piece left =>
      obtain ⟨rfl, rfl⟩ := List.cons.inj hcallbacks
      have hsame := @receiveLoop_same fault s s' h (bufferParts piece)
      -- A chunk is short enough for the count of received bytes.
      have hbound : got.length + piece.length < 2 ^ 32 := by
        have hwhole : e.body.length ≤ APP_WEB_OTA_CHUNK_SIZE := by
          rw [hall] at hchunks
          exact hchunks.at.2.whole.trans_le (min_le_right _ _)
        have hsum := congrArg List.length hbody
        rw [List.flatten_cons, List.length_append, List.length_append] at hsum
        unfold APP_WEB_OTA_CHUNK_SIZE at hwhole
        omega
      have hpiece := hr.receiveLoop (bufferParts piece)
      rw [bufferParts_flatten] at hpiece
      rcases hpiece hbound with ⟨hfailed, -⟩ | hreceiving
      · refine .failed hall hsame.toSameWriter ?_ (hsame.status.resolve_left ?_) hfailed
        · exact (congrArg AppWebUpdateRequest.valid hsame.request).trans hfailed.valid
        · rw [hfailed.valid]
          decide
      · refine .receiving hall hsame hasked hstart ?_ hreceiving
        rw [← hbody, List.flatten_cons, List.append_assoc]
  | @skipped done later e left start base s s' hall h hvalid hasked hstart hmore hleft hr =>
    cases left with
    | nil =>
      obtain ⟨rfl, rfl⟩ := List.cons.inj hcallbacks
      unfold AppWeb.callback
      dsimp only
      rw [finished_invalid hvalid]
      rw [hall] at hchunks
      have hlt := hchunks.lt_of_more hmore
      have hwhole := hchunks.at.2.whole
      rw [← hasked.aligned] at hlt hwhole
      obtain ⟨hota, hcalls⟩ := hr.finished_more hwhole (by omega) hasked.range
      refine .between (hall.trans (List.append_cons _ _ _)) ⟨h.ota.trans hota.symm, h.calls.trans hcalls.symm⟩
        hvalid (fun hnil => absurd hnil hmore)
        fun _ hactive => ?_
      exact (hr.finished hasked hstart).uploading hchunks.at.1 hactive
    | cons piece left =>
      obtain ⟨rfl, rfl⟩ := List.cons.inj hcallbacks
      rw [List.flatten_cons, List.append_eq_nil_iff] at hleft
      obtain ⟨rfl, hleft⟩ := hleft
      exact .skipped hall h hvalid hasked hstart hmore hleft hr

omit hchunks in
theorem Sim.done {s s' : AppWeb} (h : Sim fault total all [] s s') :
    SameWriter s s' ∧ s.saveStatus = s'.saveStatus := by
  generalize hnil : ([] : List PostCallback) = rest at h
  cases h with
  | @between done later s s' hall h hvalid hstatus hup =>
    refine ⟨h, hstatus ?_⟩
    cases later with
    | nil => rfl
    | cons e later =>
      rw [clientCallbacks_cons] at hnil
      cases hnil
  | failed | receiving | skipped =>
    exact absurd hnil (List.append_ne_nil_of_right_ne_nil _ (List.cons_ne_nil _ _)).symm

end

/-! ## Lost uploads -/

/-- The upload cannot be finished any more: it has been given less than the next
chunk needs, or was aborted. -/
def Lost (s : AppWeb) (later : List Exchange) (chunks : Nat) : Prop :=
  s.ota.upd.active = true ∧ (later ≠ [] → s.ota.upd.received < APP_WEB_OTA_CHUNK_SIZE * chunks) ∨
    s.ota.upd.active = false ∧ s.ota.upd.result = .invalidOffset

/-- A run after a harmful foreign request, with the client's callbacks still to
come. -/
inductive Losing (all : List Exchange) : List PostCallback → AppWeb → Prop where
  | between {done later : List Exchange} {s : AppWeb} (hall : all = done ++ later) (hne : done ≠ [])
      (h : Lost s later done.length) :
    Losing all (clientCallbacks later) s
  | inside {done later : List Exchange} {e : Exchange} {left : List Bytes} {s : AppWeb}
      (hall : all = done ++ e :: later)
    (hvalid : s.request.valid = false) (h : Lost s later (done.length + 1)) :
    Losing all (left.map PostCallback.data ++ .finished :: clientCallbacks later) s

section
variable {fault : Nat → Bool} {total : Nat} {all : List Exchange}

/-- A chunk that is not the next one ends the upload. -/
theorem begin_stale {e : Exchange} {offset : Nat} {s : AppWeb} (h : IsChunk total offset e) (hpos : offset ≠ 0)
    (hstale : s.ota.upd.active = false ∨ s.ota.upd.received ≠ offset) :
    (httpdPostBegin e.uri e.contentLen s).2 = appWebUpdateRequestFail .invalidOffset
    { s with request := .zero } := by
  have hlt := h.lt
  have hlen := h.content_len
  unfold httpdPostBegin
  dsimp only
  rw [if_neg (by rw [e.path]; decide), h.query_offset, h.query_total]
  dsimp only
  rw [if_neg (by omega), if_neg (by omega), if_neg hpos, if_pos]
  exact hstale.imp id fun h => .inr h.symm

theorem requestFail_result {s : AppWeb} (h : s.ota.upd.active = true ∨ s.ota.upd.result = .invalidOffset) :
    (appWebUpdateRequestFail .invalidOffset s).ota.upd.result = .invalidOffset := by
  unfold appWebUpdateRequestFail appWebSetSaveStatus
  dsimp only
  split_ifs with hactive
  · exact fail_result .invalidOffset s.ota.upd
  · exact h.resolve_left hactive

theorem Losing.foreign {rest : List PostCallback} {s : AppWeb} (h : Losing all rest s) :
    Losing all rest { s with request := .zero } := by
  cases h with
  | between hall hne h => exact .between hall hne h
  | inside hall hvalid h => exact .inside hall rfl h

theorem Losing.client (hchunks : Chunks total all) {rest callbacks : List PostCallback} {c : PostCallback}
    {s : AppWeb} (h : Losing all callbacks s) (hcallbacks : callbacks = c :: rest) :
    Losing all rest (s.callback fault c) := by
  cases h with
  | @between done later s hall hne h =>
    cases later with
    | nil => cases hcallbacks
    | cons e later =>
      rw [clientCallbacks_cons] at hcallbacks
      obtain ⟨rfl, rfl⟩ := List.cons.inj hcallbacks
      rw [hall] at hchunks
      have hpos : APP_WEB_OTA_CHUNK_SIZE * done.length ≠ 0 := by
        have := List.length_pos_of_ne_nil hne
        unfold APP_WEB_OTA_CHUNK_SIZE
        omega
      have hstale : s.ota.upd.active = false ∨ s.ota.upd.received ≠ APP_WEB_OTA_CHUNK_SIZE * done.length :=
        h.elim (fun hl => .inr (Nat.ne_of_lt (hl.2 (List.cons_ne_nil _ _)))) fun hl => .inl hl.1
      have hbegin : s.callback fault (.begin e.uri e.contentLen) =
          appWebUpdateRequestFail .invalidOffset { s with request := .zero } :=
        begin_stale hchunks.at.2 hpos hstale
      have hfailed := requestFail_failed .invalidOffset { s with request := .zero }
      rw [hbegin]
      exact .inside hall hfailed.valid (.inr ⟨hfailed.active, requestFail_result (h.imp And.left And.right)⟩)
  | @inside done later e left s hall hvalid h =>
    cases left with
    | nil =>
      obtain ⟨rfl, rfl⟩ := List.cons.inj hcallbacks
      unfold AppWeb.callback
      dsimp only
      rw [finished_invalid hvalid]
      refine .between (hall.trans (List.append_cons _ _ _))
        (List.append_ne_nil_of_right_ne_nil _ (List.cons_ne_nil _ _)) ?_
      rw [List.length_append, List.length_singleton]
      exact h
    | cons piece left =>
      obtain ⟨rfl, rfl⟩ := List.cons.inj hcallbacks
      unfold AppWeb.callback
      dsimp only
      rw [data_invalid hvalid]
      exact .inside hall hvalid h

theorem Losing.done {s : AppWeb} (h : Losing all [] s) :
    s.ota.upd.active = true ∨ s.ota.upd.result = .invalidOffset := by
  generalize hnil : ([] : List PostCallback) = rest at h
  cases h with
  | between hall hne h => exact h.imp And.left And.right
  | inside => exact absurd hnil (List.append_ne_nil_of_right_ne_nil _ (List.cons_ne_nil _ _)).symm

/-- A foreign request that is not harmless loses the upload. -/
theorem Sim.losing (hchunks : Chunks total all)
    {rest : List PostCallback} {s s' : AppWeb} (h : Sim fault total all rest s s') (hharmful : ¬Harmless s) :
    Losing all rest { s with request := .zero } := by
  have hvalid : s.request.valid ≠ false := fun hv => hharmful (.inl hv)
  cases h with
  | between hall h hv => exact absurd hv hvalid
  | failed hall h hv => exact absurd hv hvalid
  | skipped hall h hv => exact absurd hv hvalid
  | @receiving done later e got left start base s s' hall h hasked hstart hbody hr =>
    have hrequest := h.request.trans hr.request
    obtain ⟨d, htracks⟩ := hr.tracks
    obtain ⟨hreceived, hcontent⟩ := htracks.counted hr.result
    rw [List.length_append, hasked.aligned] at hreceived
    refine .inside hall rfl (.inl ⟨?_, fun hmore => ?_⟩)
    · show s.ota.upd.active = true
      rw [h.ota]
      exact hr.active
    · show s.ota.upd.received < _
      rw [hall] at hchunks
      have hlt := hchunks.lt_of_more hmore
      have hwhole := hchunks.at.2.whole
      have hsum := congrArg List.length hbody
      rw [List.length_append] at hsum
      rw [h.ota, hreceived]
      by_contra hfull
      -- the whole body has come, so the request was harmless
      apply hharmful
      right
      rw [hrequest, h.ota, hreceived, hcontent, hasked.aligned]
      dsimp only
      unfold APP_WEB_OTA_CHUNK_SIZE at *
      omega

/-! ## The upload among foreign requests -/

/-- The callbacks of the client. -/
def clientPart (callbacks : List PostCallback) : List PostCallback := callbacks.filter fun c => !c.foreign

theorem clientPart_cons (c : PostCallback) (callbacks : List PostCallback) :
    clientPart (c :: callbacks) = if c.foreign then clientPart callbacks else c :: clientPart callbacks := by
  unfold clientPart
  rw [List.filter_cons]
  cases c.foreign <;> rfl

/-- A foreign request between the client's callbacks. -/
theorem clientPart_insert {c : PostCallback} (h : c.foreign = true) (before after : List PostCallback) :
    clientPart (before ++ c :: after) = clientPart (before ++ after) := by
  unfold clientPart
  rw [List.filter_append, List.filter_cons, if_neg (by rw [h]; decide), List.filter_append]

theorem clientPart_clientCallbacks (es : List Exchange) :
    clientPart (clientCallbacks es) = clientCallbacks es := by
  apply List.filter_eq_self.2
  intro c hc
  obtain ⟨e, -, hc⟩ := List.mem_flatMap.1 hc
  rw [e.not_foreign c hc]
  rfl

theorem Losing.run (hchunks : Chunks total all) (callbacks : List PostCallback) {s : AppWeb}
    (h : Losing all (clientPart callbacks) s) :
    Losing all [] (run (AppWeb.callback fault) s callbacks) := by
  induction callbacks generalizing s with
  | nil => exact h
  | cons c callbacks ih =>
    rw [clientPart_cons] at h
    cases hforeign : c.foreign with
    | false =>
      rw [hforeign] at h
      exact ih (h.client hchunks rfl)
    | true =>
      rw [hforeign] at h
      cases c with
      | begin uri contentLen =>
        apply ih
        rw [foreign_begin hforeign]
        exact h.foreign
      | data | finished => cases hforeign

/-- Either all foreign requests are harmless, and both runs end alike, or the
upload is lost. -/
theorem Sim.run (hchunks : Chunks total all) (hlen : (bodies all).length = total)
    (callbacks : List PostCallback) {s s' : AppWeb} (h : Sim fault total all (clientPart callbacks) s s') :
    EveryStep (AppWeb.callback fault) (fun s c => c.foreign = true → Harmless s) s callbacks ∧
        Sim fault total all [] (run (AppWeb.callback fault) s callbacks)
          (run (AppWeb.callback fault) s' (clientPart callbacks)) ∨
      ¬EveryStep (AppWeb.callback fault) (fun s c => c.foreign = true → Harmless s) s callbacks ∧
        Losing all [] (run (AppWeb.callback fault) s callbacks) := by
  induction callbacks generalizing s s' with
  | nil => exact .inl ⟨trivial, h⟩
  | cons c callbacks ih =>
    rw [clientPart_cons] at h ⊢
    cases hforeign : c.foreign with
    | false =>
      rw [hforeign] at h
      have hnot : c.foreign = true → Harmless s := fun hf => by
        rw [hforeign] at hf
        cases hf
      rcases ih (h.client hchunks rfl) with ⟨hall, hsim⟩ | ⟨hall, hlost⟩
      · exact .inl ⟨⟨hnot, hall⟩, hsim⟩
      · exact .inr ⟨fun hevery => hall hevery.2, hlost⟩
    | true =>
      rw [hforeign] at h
      cases c with
      | data | finished => cases hforeign
      | begin uri contentLen =>
        have hbegin := @foreign_begin fault uri contentLen hforeign s
        by_cases hharmless : Harmless s
        · have hnext := h.foreign hchunks hlen hharmless
          rw [← hbegin] at hnext
          rcases ih hnext with ⟨hall, hsim⟩ | ⟨hall, hlost⟩
          · exact .inl ⟨⟨fun _ => hharmless, hall⟩, hsim⟩
          · exact .inr ⟨fun hevery => hall hevery.2, hlost⟩
        · have hnext := h.losing hchunks hharmless
          rw [← hbegin] at hnext
          exact .inr ⟨fun hevery => hharmless (hevery.1 hforeign), hnext.run hchunks callbacks⟩

/-- **Foreign requests during an upload.** As long as each is harmless, the upload
ends as it does without them; an upload that succeeds alone does not otherwise. -/
theorem foreign_posts (fault : Nat → Bool) (s : AppWeb) (hs : s.request.valid = false) (total : Nat)
    (es : List Exchange) (hchunks : Chunks total es) (hlen : (bodies es).length = total)
    (callbacks : List PostCallback) (hclient : clientPart callbacks = clientCallbacks es) :
    let alone := run (AppWeb.callback fault) s (clientCallbacks es)
    let mixed := run (AppWeb.callback fault) s callbacks
    let harmless := EveryStep (AppWeb.callback fault) (fun s c => c.foreign = true → Harmless s) s callbacks
    (harmless → mixed.ota = alone.ota ∧ mixed.saveStatus = alone.saveStatus) ∧
      (alone.ota.upd.active = false → alone.ota.upd.result = .ok → mixed.ota = alone.ota → harmless) := by
  intro alone mixed harmless
  have hstart : Sim fault total es (clientPart callbacks) s s := by
    rw [hclient]
    exact .between (List.nil_append _).symm ⟨rfl, rfl⟩ hs (fun _ => rfl) fun hne => absurd rfl hne
  have hrun := hstart.run hchunks hlen callbacks
  rw [hclient] at hrun
  constructor
  · intro hharmless
    rcases hrun with ⟨-, hsim⟩ | ⟨hnot, -⟩
    · obtain ⟨hsame, hstatus⟩ := hsim.done
      exact ⟨hsame.ota, hstatus⟩
    · exact absurd hharmless hnot
  · intro hactive hok hsame
    rcases hrun with ⟨hharmless, -⟩ | ⟨-, hlosing⟩
    · exact hharmless
    · have hlost : mixed.ota.upd.active = true ∨ mixed.ota.upd.result = .invalidOffset := hlosing.done
      rw [hsame, hactive, hok] at hlost
      rcases hlost with h | h <;> cases h

end

/-! ## A file of two chunks -/

/-- The requests for the smallest file that boots. -/
def firstChunk : Exchange where
  uri := ascii "/update?offset=0&total=4104"
  contentLen := 4096
  pieces := [headerFor vectorsOnly]
  path := by decide +kernel
  body_le := by
    rw [List.flatten_singleton, headerFor_length]
    decide

def secondChunk : Exchange where
  uri := ascii "/update?offset=4096&total=4104"
  contentLen := 8
  pieces := [vectorsOnly]
  path := by decide +kernel
  body_le := by decide

/-- A POST for another page. -/
def indexPost : PostCallback := .begin (ascii "/index.html") 0

theorem indexPost_foreign : indexPost.foreign = true := by decide +kernel

theorem clientCallbacks_pair (e e' : Exchange) : clientCallbacks [e, e'] = e.callbacks ++ e'.callbacks := by
  unfold clientCallbacks
  rw [List.flatMap_cons, List.flatMap_singleton]

theorem twoChunks : Chunks 4104 [firstChunk, secondChunk] := by
  have hnone : Chunks 4104 [] := fun i hi => absurd hi (Nat.not_lt_zero i)
  have hfirst : IsChunk 4104 0 firstChunk := by
    refine ⟨by decide +kernel, by decide +kernel, by decide, rfl, ?_⟩
    unfold Exchange.body firstChunk
    rw [List.flatten_singleton, headerFor_length]
    rfl
  have hsecond : IsChunk 4104 4096 secondChunk := ⟨by decide +kernel, by decide +kernel, by decide, rfl, rfl⟩
  exact (hnone.concat hfirst).concat hsecond

theorem bodies_twoChunks : bodies [firstChunk, secondChunk] = headerFor vectorsOnly ++ vectorsOnly := by
  have hfirst : firstChunk.body = headerFor vectorsOnly := List.flatten_singleton
  unfold bodies
  rw [List.flatMap_cons, hfirst, List.flatMap_singleton]
  rfl

theorem complete_twoChunks : Complete 4104 (bodies [firstChunk, secondChunk]) := by
  rw [bodies_twoChunks]
  exact complete_headerFor (by decide) (by decide)

theorem foreign_posts_betweenChunks :
    let s := AppWeb.init (.start fun _ => 0xff)
    (run (AppWeb.callback noFault) s (firstChunk.callbacks ++ indexPost :: secondChunk.callbacks)).ota =
      (run (AppWeb.callback noFault) s (clientCallbacks [firstChunk, secondChunk])).ota := by
  intro s
  have hclient : clientPart (firstChunk.callbacks ++ indexPost :: secondChunk.callbacks) =
      clientCallbacks [firstChunk, secondChunk] := by
    rw [clientPart_insert indexPost_foreign, ← clientCallbacks_pair]
    exact clientPart_clientCallbacks _
  have hposts := foreign_posts noFault s rfl 4104 [firstChunk, secondChunk] twoChunks complete_twoChunks.2
    (firstChunk.callbacks ++ indexPost :: secondChunk.callbacks) hclient
  refine (hposts.1 ?_).1
  have hown (e : Exchange) (s : AppWeb) :
      EveryStep (AppWeb.callback noFault) (fun s c => c.foreign = true → Harmless s) s e.callbacks :=
    .of_forall fun c hc s hforeign => by
      rw [e.not_foreign c hc] at hforeign
      cases hforeign
  rw [everyStep_append, run_callbacks]
  exact ⟨hown firstChunk s, fun _ => .inl (runExchange_valid s firstChunk), hown secondChunk _⟩

/-- A POST for another page that comes while the first chunk is on its way: the
second chunk is out of place then, and nothing is written. -/
theorem lost_to_indexPost :
    let s := AppWeb.init (.start fun _ => 0xff)
    let callbacks := .begin firstChunk.uri firstChunk.contentLen :: indexPost ::
      (.data (headerFor vectorsOnly) :: .finished :: secondChunk.callbacks)
    let alone := run (AppWeb.callback noFault) s (clientCallbacks [firstChunk, secondChunk])
    let mixed := run (AppWeb.callback noFault) s callbacks
    Chunks 4104 [firstChunk, secondChunk] ∧ Complete 4104 (bodies [firstChunk, secondChunk]) ∧
      clientPart callbacks = clientCallbacks [firstChunk, secondChunk] ∧ alone.ota.upd.result = .ok ∧
      mixed.ota.upd.result = .invalidOffset ∧ mixed.ota.flash.log = [] := by
  intro s callbacks alone mixed
  have halone : alone =
      (runExchange noFault secondChunk (run (fun s e => (runExchange noFault e s).2) s [firstChunk])).2 := by
    unfold alone
    rw [run_clientCallbacks]
    exact @run_concat _ _ (fun s e => (runExchange noFault e s).2) s [firstChunk] secondChunk
  have hsucceeds := @upload_succeeds 4104 [firstChunk] secondChunk s twoChunks complete_twoChunks
  -- the request is gone, so the first chunk does nothing
  let lost : AppWeb := { (httpdPostBegin firstChunk.uri firstChunk.contentLen s).2 with request := .zero }
  have hskip : mixed = run (AppWeb.callback noFault) lost secondChunk.callbacks := by
    have hdata : lost.callback noFault (.data (headerFor vectorsOnly)) = lost := data_invalid rfl _
    have hfinished : lost.callback noFault .finished = lost := finished_invalid rfl
    have hbegin : (s.callback noFault (.begin firstChunk.uri firstChunk.contentLen)).callback noFault
        indexPost = lost :=
      foreign_begin indexPost_foreign _
    unfold mixed callbacks run
    rw [List.foldl_cons, List.foldl_cons, List.foldl_cons, List.foldl_cons, hbegin, hdata, hfinished]
  have hmixed : (run (AppWeb.callback noFault) lost secondChunk.callbacks).ota.upd.result = .invalidOffset ∧
      (run (AppWeb.callback noFault) lost secondChunk.callbacks).ota.flash.log.length = 0 := by decide +kernel
  rw [hskip]
  refine ⟨twoChunks, complete_twoChunks, ?_, ?_, hmixed.1, List.eq_nil_of_length_eq_zero hmixed.2⟩
  · have hinsert : clientPart callbacks = clientPart (firstChunk.callbacks ++ secondChunk.callbacks) :=
      clientPart_insert indexPost_foreign [.begin firstChunk.uri firstChunk.contentLen] _
    rw [hinsert, ← clientCallbacks_pair]
    exact clientPart_clientCallbacks _
  · rw [halone]
    exact hsucceeds.2.2

end BLEBridge
