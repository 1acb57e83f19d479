import BLEBridge.AppNarodmon
import BLEBridge.Lib.Runs
/-!
# A payload that is reported as sent

A send from its start through any events of its connection. The chunks written are
always the first `sentOffset` bytes of the payload, so when the success is recorded
all of it has been written. Whether all of it has been acknowledged as well depends
on the callback that finds everything queued (`send_ok_delivered`).
-/
open Lib

namespace BLEBridge

/-- What can happen after a send has been started. -/
inductive NarodmonEvent where
  | dnsFound (ipaddr : Option IpAddr) (tcpNew : Bool) (connect : ErrT)
  | connected (err : ErrT) (r : TcpResults)
  | sent (len : UInt16) (r : TcpResults)
  | recv (err : ErrT)
  | tcpPoll
  | error (err : ErrT)
  | poll (nowMs : UInt32)

def NarodmonEvent.exec (n : AppNarodmon) : NarodmonEvent → AppNarodmon
  | .dnsFound ipaddr tcpNew connect => appNarodmonDnsFoundCb ipaddr tcpNew connect n
  | .connected err r => appNarodmonConnectedCb err r n
  | .sent len r => appNarodmonSentCb len r n
  | .recv err => appNarodmonRecvCb err n
  | .tcpPoll => appNarodmonPollCb n
  | .error err => appNarodmonErrCb err n
  | .poll nowMs => appNarodmonPoll nowMs n

/-- A send with its payload and the number of bytes acknowledged. -/
structure NarodmonSend where
  app : AppNarodmon
  payload : Bytes
  acked : Nat

/-- What the calls of `app_narodmon_start_send` return. -/
structure StartResults where
  nowMs : UInt32
  dns : ErrT
  tcpNew : Bool
  connect : ErrT

/-- A send started when none is under way. -/
def NarodmonSend.start (payload : Bytes) (r : StartResults) (pendingLog : AppNarodmonPendingLog)
    (log : List Bytes) : NarodmonSend where
  app := (appNarodmonStartSend (some payload) r.nowMs r.dns r.tcpNew r.connect ⟨.zero, pendingLog, [], log, []⟩).2
  payload := payload
  acked := 0

/-- The number of bytes given to `tcp_write`. -/
def NarodmonSend.queued (t : NarodmonSend) : Nat := t.app.writes.flatten.length

def NarodmonEvent.acked : NarodmonEvent → Nat
  | .sent len _ => len.toNat
  | _ => 0

def NarodmonSend.step (t : NarodmonSend) (e : NarodmonEvent) : NarodmonSend where
  app := e.exec t.app
  payload := t.payload
  acked := t.acked + e.acked

/-- The answer comes to a query, the other callbacks to a connection, and only
bytes that have been written are acknowledged. -/
def Legal (t : NarodmonSend) : NarodmonEvent → Prop
  | .dnsFound _ _ _ => t.app.state.busy = true → t.app.state.dnsPending = true
  | .sent len _ => t.app.state.pcb = true ∧ 0 < len.toNat ∧ t.acked + len.toNat ≤ t.queued
  | .connected _ _ | .recv _ | .tcpPoll | .error _ => t.app.state.pcb = true
  | .poll _ => True

/-- Once the success is recorded, the payload has been written and acknowledged. -/
def Delivered (t : NarodmonSend) : Prop :=
  .sendOk ∈ t.app.recorded → t.app.writes.flatten = t.payload ∧ t.acked = t.payload.length

instance (t : NarodmonSend) : Decidable (Delivered t) := inferInstanceAs (Decidable (_ → _))

/-- A callback that comes when the whole payload is queued acknowledges all that is
outstanding. -/
def AcksAll (t : NarodmonSend) : NarodmonEvent → Prop
  | .sent len _ => t.queued = t.payload.length → t.acked + len.toNat = t.queued
  | _ => True

/-! ## A send under way -/

/-- While a send is under way, what has been written is what has been sent off. -/
structure NarodmonSending (payload : Bytes) (n : AppNarodmon) : Prop where
  busy : n.state.busy = true
  buffer : n.state.payload = payload
  length : n.state.payloadLen.toNat = payload.length
  offset : n.state.sentOffset.toNat ≤ payload.length
  writes : n.writes.flatten = payload.take n.state.sentOffset.toNat
  fresh : .sendOk ∉ n.recorded

/-- A send that has ended without a success. -/
structure Ended (n : AppNarodmon) : Prop where
  state : n.state = .zero
  fresh : .sendOk ∉ n.recorded

variable {payload : Bytes} {n : AppNarodmon}

theorem ended_of_deferLog {event : AppNarodmonLogEvent}
    (he : event ≠ .sendOk) (error : ErrT) (payloadLen : UInt16) (h : .sendOk ∉ n.recorded) :
    Ended (appNarodmonResetState (appNarodmonDeferLog event error payloadLen n)) := by
  refine ⟨rfl, ?_⟩
  intro hm
  rcases List.mem_append.1 hm with hm | hm
  · exact h hm
  · exact he (List.mem_singleton.1 hm).symm

/-- The offset shows whether the whole payload is queued. -/
theorem NarodmonSending.queued_iff (h : NarodmonSending payload n) :
    n.writes.flatten.length = payload.length ↔ n.state.sentOffset ≥ n.state.payloadLen := by
  rw [h.writes, List.length_take, min_eq_left h.offset, ge_iff_le, UInt16.le_iff_toNat_le, h.length]
  exact ⟨fun heq => heq.ge, fun hle => le_antisymm h.offset hle⟩

/-- A chunk continues what has been written. -/
theorem NarodmonSending.sendNextChunk (h : NarodmonSending payload n) (r : TcpResults) :
    .sendOk ∉ (appNarodmonSendNextChunk r n).2.recorded ∧
      ((appNarodmonSendNextChunk r n).1 = ERR_OK → NarodmonSending payload (appNarodmonSendNextChunk r n).2) := by
  unfold appNarodmonSendNextChunk
  have hremaining : (n.state.payloadLen - n.state.sentOffset).toNat = payload.length -
      n.state.sentOffset.toNat := by
    rw [UInt16.toNat_sub_of_le _ _ (UInt16.le_iff_toNat_le.2 (h.length ▸ h.offset)), h.length]
  have hlt : payload.length < 2 ^ 16 := h.length ▸ n.state.payloadLen.toNat_lt
  have hsent := h.offset
  generalize n.state.payloadLen - n.state.sentOffset = remaining at hremaining
  split
  · exact ⟨h.fresh, fun _ => h⟩
  dsimp only
  split
  · exact ⟨h.fresh, fun _ => h⟩
  generalize hc : (if UInt16.ofNat r.sndbuf < remaining then UInt16.ofNat r.sndbuf else remaining) = chunkLen
  have hchunk : chunkLen.toNat ≤ remaining.toNat := by
    rw [← hc]
    split
    · rename_i hs
      exact (UInt16.lt_iff_toNat_lt.1 hs).le
    · exact le_rfl
  split
  · exact ⟨h.fresh, fun _ => h⟩
  split
  · rename_i herr
    exact ⟨h.fresh, fun hok => absurd hok herr⟩
  · have hoffset : (n.state.sentOffset + chunkLen).toNat = n.state.sentOffset.toNat + chunkLen.toNat :=
      (UInt16.toNat_add _ _).trans (Nat.mod_eq_of_lt (by omega))
    refine ⟨h.fresh, fun _ => ⟨h.busy, h.buffer, h.length, ?_, ?_, h.fresh⟩⟩
    · dsimp only
      omega
    · dsimp only
      rw [List.flatten_append, h.writes, h.buffer, hoffset, List.take_add, List.flatten_singleton]

/-- Under way, or over without a success. -/
def PendingSend (payload : Bytes) (n : AppNarodmon) : Prop := NarodmonSending payload n ∨ Ended n

theorem PendingSend.fresh (h : PendingSend payload n) : .sendOk ∉ n.recorded := by
  rcases h with h | h
  · exact h.fresh
  · exact h.fresh

theorem NarodmonSending.sendOrFinish (h : NarodmonSending payload n) (r : TcpResults) :
    PendingSend payload (sendOrFinish r n) := by
  obtain ⟨hfresh, hsending⟩ := h.sendNextChunk r
  unfold BLEBridge.sendOrFinish
  dsimp only
  split
  · exact .inr (ended_of_deferLog (by decide) _ 0 hfresh)
  · rename_i herr
    exact .inl (hsending (not_not.1 herr))

theorem NarodmonSending.startConnect (h : NarodmonSending payload n) (tcpNew : Bool) (connect : ErrT) :
    PendingSend payload (appNarodmonStartConnect tcpNew connect n).2 := by
  unfold appNarodmonStartConnect
  split
  · exact .inr (ended_of_deferLog (by decide) _ 0 h.fresh)
  dsimp only
  split
  · have hended := ended_of_deferLog (by decide : AppNarodmonLogEvent.connectError ≠ .sendOk) connect 0 h.fresh
    exact .inr (ended_of_deferLog (n := { appNarodmonDeferLog .connectError connect 0 n with state := .zero })
      (by decide) ERR_ABRT 0 hended.fresh)
  · exact .inl ⟨h.busy, h.buffer, h.length, h.offset, h.writes, h.fresh⟩

/-- The log is flushed without an effect on the send. -/
theorem flushLog_eq (n : AppNarodmon) : (appNarodmonFlushLog n).state = n.state ∧
    (appNarodmonFlushLog n).recorded = n.recorded ∧
    (appNarodmonFlushLog n).writes = n.writes := by
  unfold appNarodmonFlushLog
  split <;> exact ⟨rfl, rfl, rfl⟩

theorem NarodmonSending.of_eq {n' : AppNarodmon} (h : NarodmonSending payload n) (hs : n'.state = n.state)
    (hr : n'.recorded = n.recorded) (hw : n'.writes = n.writes) : NarodmonSending payload n' :=
  ⟨hs ▸ h.busy, hs ▸ h.buffer, hs ▸ h.length, hs ▸ h.offset, hs ▸ hw ▸ h.writes, hr ▸ h.fresh⟩

theorem NarodmonSending.poll (h : NarodmonSending payload n) (nowMs : UInt32) :
    PendingSend payload (appNarodmonPoll nowMs n) := by
  obtain ⟨hs, hr, hw⟩ := flushLog_eq n
  have h' := h.of_eq hs hr hw
  unfold appNarodmonPoll
  dsimp only
  rw [h'.busy]
  split
  · exact .inl h'
  split
  · split
    · exact .inr (ended_of_deferLog (by decide) ERR_ABRT 0 h'.fresh)
    · exact .inr ⟨rfl, h'.fresh⟩
  · exact .inl h'

/-! ## The steps of a send -/

/-- A send is under way or over, and a recorded success is the end of a send that
had queued everything. -/
inductive DeliveryInv (t : NarodmonSend) : Prop
  | pending (h : PendingSend t.payload t.app)
  | reported (hstate : t.app.state = .zero) (hwrites : t.app.writes.flatten = t.payload)
      (hok : .sendOk ∈ t.app.recorded)

theorem start_pending (payload : Bytes) (hlen : payload.length < 2 ^ 16)
    (r : StartResults) (pendingLog : AppNarodmonPendingLog) (log : List Bytes) :
    PendingSend payload (NarodmonSend.start payload r pendingLog log).app := by
  have hidle : Ended ⟨.zero, pendingLog, [], log, []⟩ := ⟨rfl, List.not_mem_nil⟩
  unfold NarodmonSend.start appNarodmonStartSend
  dsimp only
  rw [show AppNarodmonState.zero.busy = false from rfl, if_neg Bool.false_ne_true]
  split
  · exact .inr ⟨rfl, hidle.fresh⟩
  · have hsending (log : List Bytes) : NarodmonSending payload ⟨{ AppNarodmonState.zero with
        busy := true, payload := payload, payloadLen := UInt16.ofNat payload.length, sentOffset := 0,
        deadlineMs := r.nowMs + APP_NARODMON_TIMEOUT_MS }, pendingLog, [], log, []⟩ :=
      ⟨rfl, rfl, UInt16.toNat_ofNat_of_lt' hlen, Nat.zero_le _, rfl, List.not_mem_nil⟩
    split
    · exact (hsending _).startConnect r.tcpNew r.connect
    split
    · have h := hsending (log ++ [ascii "Narodmon payload build started"] ++
        [ascii "Narodmon send started: " ++ decimal (UInt16.ofNat payload.length).toNat ++ ascii " bytes"])
      exact .inl ⟨rfl, rfl, h.length, h.offset, h.writes, h.fresh⟩
    · exact .inr ⟨rfl, hidle.fresh⟩

/-- Nothing happens to a send that is over. -/
theorem step_idle {t : NarodmonSend} (h : t.app.state = .zero) {e : NarodmonEvent} (hlegal : Legal t e) :
    (t.step e).app.state = .zero ∧ (t.step e).app.writes = t.app.writes ∧
    (t.step e).app.recorded = t.app.recorded ∧
      (t.step e).acked = t.acked ∧ AcksAll t e := by
  have hpcb : ¬t.app.state.pcb = true := by
    rw [h]
    exact Bool.false_ne_true
  have hbusy : t.app.state.busy = false := by rw [h]; rfl
  cases e with
  | connected | recv | tcpPoll | error => exact absurd hlegal hpcb
  | sent => exact absurd hlegal.1 hpcb
  | dnsFound ipaddr tcpNew connect =>
    have hskip : (t.step (.dnsFound ipaddr tcpNew connect)).app = t.app := by
      dsimp only [NarodmonSend.step, NarodmonEvent.exec]
      unfold appNarodmonDnsFoundCb
      rw [hbusy]
      rfl
    rw [hskip]
    exact ⟨h, rfl, rfl, rfl, trivial⟩
  | poll nowMs =>
    obtain ⟨hs, hr, hw⟩ := flushLog_eq t.app
    have hflush : (t.step (.poll nowMs)).app = appNarodmonFlushLog t.app := by
      dsimp only [NarodmonSend.step, NarodmonEvent.exec]
      unfold appNarodmonPoll
      dsimp only
      rw [hs, hbusy]
      rfl
    rw [hflush]
    exact ⟨hs.trans h, hw, hr, rfl, trivial⟩

/-- The callback of a connection that has queued everything is the one that
records the success. -/
theorem step_sending {t : NarodmonSend} (h : NarodmonSending t.payload t.app) (e : NarodmonEvent) :
    PendingSend t.payload (t.step e).app ∧ AcksAll t e ∨
      ∃ len r, e = .sent len r ∧ t.queued = t.payload.length ∧ (t.step e).app.state = .zero ∧
        (t.step e).app.writes.flatten = t.payload ∧ .sendOk ∈ (t.step e).app.recorded := by
  cases e with
  | tcpPoll => exact .inl ⟨.inl h, trivial⟩
  | error err => exact .inl ⟨.inr (ended_of_deferLog (by decide) err 0 h.fresh), trivial⟩
  | poll nowMs => exact .inl ⟨h.poll nowMs, trivial⟩
  | recv err =>
    refine .inl ⟨?_, trivial⟩
    dsimp only [NarodmonSend.step, NarodmonEvent.exec]
    unfold appNarodmonRecvCb
    split
    · exact .inr (ended_of_deferLog (by decide) err 0 h.fresh)
    · exact .inl h
  | connected err r =>
    refine .inl ⟨?_, trivial⟩
    have hconnected : NarodmonSending t.payload { t.app with state := { t.app.state with connected := true } } :=
      ⟨h.busy, h.buffer, h.length, h.offset, h.writes, h.fresh⟩
    dsimp only [NarodmonSend.step, NarodmonEvent.exec]
    unfold appNarodmonConnectedCb
    split
    · exact .inr (ended_of_deferLog (by decide) err 0 h.fresh)
    · exact hconnected.sendOrFinish r
  | dnsFound ipaddr tcpNew connect =>
    refine .inl ⟨?_, trivial⟩
    have hanswered : NarodmonSending t.payload { t.app with state := { t.app.state with dnsPending := false } } :=
      ⟨h.busy, h.buffer, h.length, h.offset, h.writes, h.fresh⟩
    dsimp only [NarodmonSend.step, NarodmonEvent.exec]
    unfold appNarodmonDnsFoundCb
    rw [h.busy, Bool.not_true, if_neg Bool.false_ne_true]
    cases ipaddr with
    | none => exact .inr (ended_of_deferLog (by decide) 0 0 h.fresh)
    | some ipaddr => exact hanswered.startConnect tcpNew connect
  | sent len r =>
    dsimp only [NarodmonSend.step, NarodmonEvent.exec]
    unfold appNarodmonSentCb
    split
    · rename_i hall
      refine .inr ⟨len, r, rfl, h.queued_iff.2 hall, rfl, ?_, List.mem_append_right _ (List.mem_singleton.2 rfl)⟩
      have hge : t.payload.length ≤ t.app.state.sentOffset.toNat := h.length ▸ UInt16.le_iff_toNat_le.1 hall
      exact h.writes.trans (List.take_of_length_le hge)
    · rename_i hmore
      exact .inl ⟨h.sendOrFinish r, fun hall => absurd (h.queued_iff.1 hall) hmore⟩

theorem step_inv {t : NarodmonSend} (h : DeliveryInv t) {e : NarodmonEvent} (hlegal : Legal t e) :
    DeliveryInv (t.step e) := by
  rcases h with (h | h) | ⟨hstate, hwrites, hok⟩
  · rcases step_sending h e with ⟨hp, -⟩ | ⟨len, r, -, -, hstate, hwrites, hok⟩
    · exact .pending hp
    · exact .reported hstate hwrites hok
  · obtain ⟨hstate, -, hrecorded, -, -⟩ := step_idle h.state hlegal
    exact .pending (.inr ⟨hstate, hrecorded ▸ h.fresh⟩)
  · obtain ⟨hstate', hwrites', hrecorded, -, -⟩ := step_idle hstate hlegal
    exact .reported hstate' (hwrites' ▸ hwrites) (hrecorded ▸ hok)

/-- One event keeps the report true just when it meets the condition. -/
theorem step_delivered {t : NarodmonSend} (h : DeliveryInv t) {e : NarodmonEvent} (hlegal : Legal t e)
    (hd : Delivered t) : AcksAll t e ↔ Delivered (t.step e) := by
  have hidle (hstate : t.app.state = .zero) : AcksAll t e ↔ Delivered (t.step e) := by
    obtain ⟨-, hwrites, hrecorded, hacked, hall⟩ := step_idle hstate hlegal
    refine iff_of_true hall ?_
    unfold Delivered
    rw [hwrites, hrecorded, hacked]
    exact hd
  rcases h with (h | h) | ⟨hstate, -, -⟩
  · rcases step_sending h e with ⟨hp, hall⟩ | ⟨len, r, rfl, hqueued, -, hwrites, hok⟩
    · exact iff_of_true hall fun hok => absurd hok hp.fresh
    · exact ⟨fun hall _ => ⟨hwrites, (hall hqueued).trans hqueued⟩, fun hdel _ => (hdel hok).2.trans hqueued.symm⟩
  · exact hidle h.state
  · exact hidle hstate

/-- In every state of a run a recorded success means that the payload has been
written and acknowledged, just if every callback that comes when everything is
queued acknowledges all of the rest. -/
theorem send_ok_delivered (payload : Bytes) (hlen : payload.length ≤ APP_NARODMON_PAYLOAD_MAX_LEN)
    (r : StartResults) (pendingLog : AppNarodmonPendingLog) (log : List Bytes) (events : List NarodmonEvent)
    (hlegal : EveryStep NarodmonSend.step Legal (.start payload r pendingLog log) events) :
    EveryStep NarodmonSend.step AcksAll (.start payload r pendingLog log) events ↔
      ∀ k, Delivered (run NarodmonSend.step (.start payload r pendingLog log) (events.take k)) := by
  have hstart := start_pending payload (hlen.trans_lt (by decide)) r pendingLog log
  exact everyStep_iff hlegal (.pending hstart) (fun t e h => step_inv h) (fun t e h => step_delivered h)
    fun hok =>
    absurd hok hstart.fresh

/-- A payload acknowledged in two parts, the second after everything was queued. -/
theorem send_ok_delivered_parts :
    let payload := ascii "#BLEB28CDC1000102\n#UPTIME#5\n#TEMP000007#21.50\n#SIGNAL000007#1\n##"
    let start := NarodmonSend.start payload ⟨0, ERR_OK, true, ERR_OK⟩ ⟨.none, 0, 0⟩ []
    let events : List NarodmonEvent :=
      [.connected ERR_OK ⟨40, ERR_OK, ERR_OK⟩, .sent 40 ⟨5840, ERR_OK, ERR_OK⟩, .sent 24 ⟨5840, ERR_OK, ERR_OK⟩]
    EveryStep NarodmonSend.step AcksAll start events ∧
      (∀ k, Delivered (run NarodmonSend.step start (events.take k))) ∧
      .sendOk ∈ (run NarodmonSend.step start events).app.recorded := by
  intro payload start events
  have hacks : EveryStep NarodmonSend.step AcksAll start events :=
    ⟨trivial, fun hqueued => absurd hqueued (by decide +kernel), fun _ => by decide +kernel, trivial⟩
  refine ⟨hacks, (send_ok_delivered payload (by decide +kernel) _ _ _ events ?_).1 hacks, by decide +kernel⟩
  exact ⟨rfl, ⟨by decide +kernel, by decide +kernel, by decide +kernel⟩,
    ⟨by decide +kernel, by decide +kernel, by decide +kernel⟩, trivial⟩

/-- The whole payload is queued at once, and the first byte of it acknowledged. -/
theorem send_ok_unacknowledged :
    let payload := ascii "#BLEB28CDC1000102\n#UPTIME#5\n#TEMP000007#21.50\n#SIGNAL000007#1\n##"
    let start := NarodmonSend.start payload ⟨0, ERR_OK, true, ERR_OK⟩ ⟨.none, 0, 0⟩ []
    let events : List NarodmonEvent := [.connected ERR_OK ⟨5840, ERR_OK, ERR_OK⟩, .sent 1 ⟨5840, ERR_OK, ERR_OK⟩]
    EveryStep NarodmonSend.step Legal start events ∧ ¬Delivered (run NarodmonSend.step start events) :=
  ⟨⟨rfl, ⟨by decide +kernel, by decide +kernel, by decide +kernel⟩, trivial⟩, by decide +kernel⟩

end BLEBridge
