import BLEBridge.MqttRun
/-!
# Publishing

A snapshot is sent sample by sample, each once the one before is acknowledged.
`SendInv` ties the flags the callbacks set to what is outstanding at lwIP: the
pending flag is up while a publish is outstanding or its result has not been
looked at, and every disconnect clears both (`snapshot_published_in_order`).
-/
open Lib

namespace BLEBridge

variable {V : Type}

/-- A publish is the next sample of the snapshot: all samples before it were
accepted once each, in order, and acknowledged, and none is outstanding. -/
def PublishOk (l : Lwip V) : MqttCall V → Prop
  | .publish sampleIndex sampleCount sample _ _ _ =>
    0 < sampleCount ∧ sampleIndex < sampleCount ∧ l.snapshot.length = sampleCount ∧
      l.snapshot[sampleIndex]? = some sample ∧
      l.outstanding = false ∧ l.accepted = List.range sampleIndex ∧ l.acknowledged = sampleIndex
  | _ => True

/-- Every sample of the snapshot was acknowledged. -/
def AllAcknowledged (l : Lwip V) : Prop := l.snapshot ≠ [] ∧ l.acknowledged = l.snapshot.length

/-- A snapshot is being sent: its samples up to the current one have been
accepted, and those before it acknowledged. -/
structure Sending (s : AppMqtt V) (l : Lwip V) : Prop where
  connected : s.state = .connected
  index : s.sampleIndex < s.sampleCount
  count : l.snapshot.length = s.sampleCount
  samples : ∀ i < s.sampleCount, l.snapshot[i]? = some (s.samples i)
  accepted : l.accepted = List.range (s.sampleIndex + if s.publishPending then 1 else 0)
  acknowledged : l.acknowledged = s.sampleIndex + if s.publishDone ∧ s.publishResult = ERR_OK then 1 else 0

structure SendInv (s : AppMqtt V) (l : Lwip V) : Prop where
  client : s.state = .resolving ∨ s.state = .connecting ∨ s.state = .connected → s.client = true
  registered : l.registered = true → s.client = true
  changed : s.connectionChanged = true → s.client = true
  outstanding : l.outstanding = true ↔ s.publishPending = true ∧ s.publishDone = false
  done : s.publishDone = true → s.publishPending = true
  pending : s.publishPending = true → s.sampleCount ≠ 0
  sending : s.sampleCount ≠ 0 → Sending s l

/-- Nothing is being sent. -/
structure Idle (s : AppMqtt V) (l : Lwip V) : Prop where
  outstanding : l.outstanding = false
  pending : s.publishPending = false
  done : s.publishDone = false
  count : s.sampleCount = 0

theorem SendInv.of_idle {s : AppMqtt V} {l : Lwip V} (h : Idle s l)
    (hclient : s.state = .resolving ∨ s.state = .connecting ∨ s.state = .connected → s.client = true)
    (hreg : l.registered = true → s.client = true) (hchg : s.connectionChanged = true → s.client = true) :
    SendInv s l where
  client := hclient
  registered := hreg
  changed := hchg
  outstanding := by
    rw [h.outstanding, h.pending]
    exact ⟨fun h => (by cases h), fun h => (by cases h.1)⟩
  done hd := by
    rw [h.done] at hd
    cases hd
  pending hp := by
    rw [h.pending] at hp
    cases hp
  sending hc := absurd h.count hc

variable {s : AppMqtt V} {l : Lwip V}

theorem SendInv.idle (h : SendInv s l) (hc : s.sampleCount = 0) : Idle s l := by
  have hp : s.publishPending = false := Bool.eq_false_iff.2 fun hp => h.pending hp hc
  have hd : s.publishDone = false := Bool.eq_false_iff.2 fun hd => Bool.false_ne_true (hp.symm.trans (h.done hd))
  refine ⟨Bool.eq_false_iff.2 fun ho => ?_, hp, hd, hc⟩
  exact Bool.false_ne_true (hp.symm.trans (h.outstanding.1 ho).1)

/-- Only a connected client is sending. -/
theorem SendInv.idle_of_state (h : SendInv s l) (hs : s.state ≠ .connected) : Idle s l :=
  h.idle (by_contra fun hc => hs (h.sending hc).connected)

theorem sendInv_init [Zero V] : SendInv (.zero : AppMqtt V) .init :=
  .of_idle ⟨rfl, rfl, rfl, rfl⟩ (by rintro (h | h | h) <;> cases h) (fun h => (by cases h)) fun h => (by cases h)

/-- The part of the state the invariant is about, apart from the connection. -/
def sendView (s : AppMqtt V) : Bool × Bool × ErrT × (Nat → MeasurementSample V) × Nat × Nat :=
  (s.publishPending, s.publishDone, s.publishResult, s.samples, s.sampleCount, s.sampleIndex)

def Lwip.sendView (l : Lwip V) : Bool × List (MeasurementSample V) × List Nat × Nat :=
  (l.outstanding, l.snapshot, l.accepted, l.acknowledged)

theorem Sending.frame (h : Sending s l) {s' : AppMqtt V} {l' : Lwip V} (hs : sendView s' = sendView s)
    (hl : l'.sendView = l.sendView) (hc : s'.state = .connected) : Sending s' l' := by
  simp only [sendView, Lwip.sendView, Prod.mk.injEq] at hs hl
  obtain ⟨hp, hd, hr, hsam, hcnt, hidx⟩ := hs
  obtain ⟨-, hsnap, hacc, hack⟩ := hl
  refine ⟨hc, ?_, ?_, ?_, ?_, ?_⟩
  · rw [hidx, hcnt]
    exact h.index
  · rw [hsnap, hcnt]
    exact h.count
  · rw [hsnap, hsam, hcnt]
    exact h.samples
  · rw [hacc, hidx, hp]
    exact h.accepted
  · rw [hack, hidx, hd, hr]
    exact h.acknowledged

/-- What only concerns the connection keeps the invariant. -/
theorem SendInv.frame (h : SendInv s l) {s' : AppMqtt V} {l' : Lwip V} (hs : sendView s' = sendView s)
    (hl : l'.sendView = l.sendView) (hstate : s.sampleCount ≠ 0 → s'.state = .connected)
    (hclient : s'.state = .resolving ∨ s'.state = .connecting ∨ s'.state = .connected → s'.client = true)
    (hreg : l'.registered = true → s'.client = true) (hchg : s'.connectionChanged = true → s'.client = true) :
    SendInv s' l' := by
  have hs' := hs
  have hl' := hl
  simp only [sendView, Lwip.sendView, Prod.mk.injEq] at hs' hl'
  obtain ⟨hp, hd, -, -, hcnt, -⟩ := hs'
  refine ⟨hclient, hreg, hchg, ?_, ?_, ?_, fun hc => ?_⟩
  · rw [hl'.1, hp, hd]
    exact h.outstanding
  · rw [hp, hd]
    exact h.done
  · rw [hp, hcnt]
    exact h.pending
  · rw [hcnt] at hc
    exact (h.sending hc).frame hs hl (hstate hc)

/-! ## The events other than a poll -/

theorem sendInv_applyConfig (h : SendInv s l) (config : AppMqttConfig) :
    SendInv (appMqttApplyConfig config s) l := by
  unfold appMqttApplyConfig
  split
  · exact h.frame rfl rfl (fun hc => (h.sending hc).connected) h.client h.registered h.changed
  · exact h

theorem sendInv_dnsFound (h : SendInv s l) (address : Option IpAddr) (generation : Nat)
    (answers : List (Nat × IpAddr)) :
    SendInv (dnsFound address generation s) { l with answers := answers } := by
  unfold dnsFound
  split
  · exact h.frame rfl rfl (fun hc => (h.sending hc).connected) h.client h.registered h.changed
  · exact h.frame rfl rfl (fun hc => (h.sending hc).connected) h.client h.registered h.changed

theorem sendInv_connection (h : SendInv s l) (hr : l.registered = true) (result : ErrT) :
    SendInv (connectionCallback result s) l :=
  h.frame rfl rfl (fun hc => (h.sending hc).connected) h.client h.registered fun _ => h.registered hr

theorem sendInv_published (h : SendInv s l) (ho : l.outstanding = true) (result : ErrT) :
    SendInv (publishCallback result s) { l with
      outstanding := false
      acknowledged := if result = ERR_OK then l.acknowledged + 1 else l.acknowledged } := by
  obtain ⟨hp, hd⟩ := h.outstanding.1 ho
  have hs := h.sending (h.pending hp)
  have hack := hs.acknowledged
  rw [hd, if_neg fun h => (by cases h.1)] at hack
  refine ⟨h.client, h.registered, h.changed, ?_, fun _ => hp, h.pending, fun _ => ?_⟩
  · exact ⟨fun h => (by cases h), fun h => (by cases h.2)⟩
  · refine ⟨hs.connected, hs.index, hs.count, hs.samples, hs.accepted, ?_⟩
    unfold publishCallback
    dsimp only
    by_cases hok : result = ERR_OK
    · rw [if_pos hok, if_pos ⟨rfl, hok⟩, hack]
    · rw [if_neg hok, if_neg fun h => hok h.2, hack]

/-! ## The stages of a poll -/

/-- `last_send_seconds` is as it was before the poll, or was reset with the
configuration, or every sample had been acknowledged. -/
def LastSendOk (w : MqttWorld V) (lastSendSeconds : UInt32) : Prop :=
  lastSendSeconds = w.app.lastSendSeconds ∨ (w.app.configChanged = true ∧ lastSendSeconds = 0) ∨
    AllAcknowledged w.lwip

/-- Between two stages of a poll that began in `w`. -/
structure Poll (w : MqttWorld V) (s : AppMqtt V) (l : Lwip V) : Prop where
  inv : SendInv s l
  last : LastSendOk w s.lastSendSeconds
  same : s.publishDone = true → l.snapshot = w.lwip.snapshot ∧ l.acknowledged = w.lwip.acknowledged

/-- The publish callback's result has been dealt with. -/
structure Answered (w : MqttWorld V) (s : AppMqtt V) (l : Lwip V) : Prop extends Poll w s l where
  connected : s.state = .connected
  done : s.publishDone = false

abbrev MeetsPublish (w : MqttWorld V) (l : Lwip V) (Next : AppMqtt V → Lwip V → Prop)
    (r : MqttOutcome V) : Prop :=
  r.Meets Lwip.observe PublishOk Next (Poll w) l

theorem disconnectCalls_publishOk (s : AppMqtt V) (l : Lwip V) :
    EveryStep Lwip.observe PublishOk l (disconnectCalls s) := by
  unfold disconnectCalls
  split
  · exact ⟨trivial, trivial⟩
  · trivial

/-- A disconnect leaves nothing outstanding: without a client nothing was. -/
theorem disconnectCalls_outstanding (h : SendInv s l) :
    (run Lwip.observe l (disconnectCalls s)).outstanding = false := by
  unfold disconnectCalls
  split
  · rfl
  · rename_i hc
    refine Bool.eq_false_iff.2 fun ho => hc ?_
    have hs := h.sending (h.pending (h.outstanding.1 ho).1)
    exact h.client (.inr (.inr hs.connected))

theorem disconnectCalls_registered (s : AppMqtt V) (l : Lwip V) :
    (run Lwip.observe l (disconnectCalls s)).registered = l.registered := by
  unfold disconnectCalls
  split
  · rfl
  · rfl

variable {w : MqttWorld V}

theorem Poll.disconnect (h : SendInv s l) {s' : AppMqtt V} (hv : sendView s' = sendView (disconnected s))
    (hstate : s'.state = .waiting ∨ s'.state = .disabled) (hclient : s'.client = s.client)
    (hchg : s'.connectionChanged = false) (hlast : LastSendOk w s'.lastSendSeconds) :
    Poll w s' (run Lwip.observe l (disconnectCalls s)) := by
  simp only [sendView, disconnected, Prod.mk.injEq] at hv
  obtain ⟨hp, hd, -, -, hcnt, -⟩ := hv
  refine ⟨.of_idle ⟨disconnectCalls_outstanding h, hp, hd, hcnt⟩ ?_ ?_ ?_, hlast, fun hdone => ?_⟩
  · rintro (hs | hs | hs) <;> rcases hstate with h | h <;> rw [h] at hs <;> cases hs
  · rw [disconnectCalls_registered, hclient]
    exact h.registered
  · intro h
    rw [hchg] at h
    cases h
  · rw [hd] at hdone
    cases hdone

theorem retryLater_publish (h : SendInv s l) (hlast : LastSendOk w s.lastSendSeconds)
    (nowMs : UInt32) (message : String) (code : ErrT) {Next : AppMqtt V → Lwip V → Prop} :
    MeetsPublish w l Next (retryLater nowMs message code s) := by
  unfold retryLater
  refine Outcome.meets_after (disconnectCalls_publishOk s l) (Outcome.meets_return ?_)
  exact Poll.disconnect h (by unfold sendView disconnected; rfl) (.inl rfl) rfl rfl hlast

theorem Poll.retryLater (h : Poll w s l) (nowMs : UInt32) (message : String) (code : ErrT)
    {Next : AppMqtt V → Lwip V → Prop} : MeetsPublish w l Next (retryLater nowMs message code s) :=
  retryLater_publish h.inv h.last nowMs message code

theorem pollConfig_publish (h : SendInv w.app w.lwip) (env : PollEnv V) :
    MeetsPublish w w.lwip (Poll w) (pollConfig env w.app) := by
  unfold pollConfig
  split
  · rename_i hc
    refine Outcome.meets_after (disconnectCalls_publishOk _ _) (Outcome.meets_next ?_)
    refine Poll.disconnect h (by unfold sendView disconnected; rfl) ?_ rfl rfl (.inr (.inl ⟨hc, rfl⟩))
    dsimp only
    split
    · exact .inr rfl
    · split
      · exact .inl rfl
      · exact .inr rfl
  · exact Outcome.meets_next ⟨h, .inl rfl, fun _ => ⟨rfl, rfl⟩⟩

theorem pollDisabled_publish (h : Poll w s l) : MeetsPublish w l (Poll w) (pollDisabled s) := by
  unfold pollDisabled
  split
  · exact Outcome.meets_return h
  · exact Outcome.meets_next h

theorem pollConnection_publish (h : Poll w s l) (env : PollEnv V) :
    MeetsPublish w l (Poll w) (pollConnection env s) := by
  unfold pollConnection
  split
  · rename_i hc
    have hinv : SendInv { s with connectionChanged := false } l :=
      h.inv.frame rfl rfl (fun hc => (h.inv.sending hc).connected) h.inv.client h.inv.registered fun h =>
        (by cases h)
    dsimp only
    split
    · exact retryLater_publish hinv h.last _ _ _
    · refine Outcome.meets_next ⟨?_, h.last, h.same⟩
      exact h.inv.frame (by unfold sendView; rfl) rfl (fun _ => rfl) (fun _ => h.inv.changed hc)
        h.inv.registered fun h => (by cases h)
  · exact Outcome.meets_next h

/-- While the connection is being made nothing is being sent. -/
theorem Poll.idle_of_state (h : Poll w s l) (hs : s.state ≠ .connected) {s' : AppMqtt V} {l' : Lwip V}
    (hv : sendView s' = sendView s) (hl : l'.sendView = l.sendView)
    (hlast : s'.lastSendSeconds = s.lastSendSeconds) (hclient : s'.client = true) : Poll w s' l' := by
  have hidle := h.inv.idle_of_state hs
  simp only [sendView, Lwip.sendView, Prod.mk.injEq] at hv hl
  obtain ⟨hp, hd, -, -, hcnt, -⟩ := hv
  refine ⟨.of_idle ⟨?_, ?_, ?_, ?_⟩ (fun _ => hclient) (fun _ => hclient) fun _ => hclient, hlast ▸ h.last, ?_⟩
  · rw [hl.1, hidle.outstanding]
  · rw [hp, hidle.pending]
  · rw [hd, hidle.done]
  · rw [hcnt, hidle.count]
  · intro hdone
    rw [hd, hidle.done] at hdone
    cases hdone

/-- An allocated client is kept. -/
theorem Poll.newClient (h : Poll w s l) (client : Bool) : Poll w { s with client := s.client || client } l := by
  refine ⟨h.inv.frame rfl rfl (fun hc => (h.inv.sending hc).connected) ?_ ?_ ?_, h.last, h.same⟩
  · intro hs
    exact Bool.or_eq_true_iff.2 (.inl (h.inv.client hs))
  · intro hr
    exact Bool.or_eq_true_iff.2 (.inl (h.inv.registered hr))
  · intro hc
    exact Bool.or_eq_true_iff.2 (.inl (h.inv.changed hc))

theorem resolve_publish (h : Poll w s l) (hs : s.state ≠ .connected) (hclient : s.client = true)
    (env : PollEnv V) : MeetsPublish w l (Poll w) (resolve env s) := by
  unfold resolve
  refine Outcome.meets_after ⟨trivial, trivial⟩ ?_
  split
  · exact Outcome.meets_next (h.idle_of_state hs (by unfold sendView; rfl) rfl rfl hclient)
  · split
    · apply Poll.retryLater
      exact h.idle_of_state hs (by unfold sendView; rfl) rfl rfl hclient
    · exact Outcome.meets_next (h.idle_of_state hs (by unfold sendView; rfl) rfl rfl hclient)

theorem pollWaiting_publish (h : Poll w s l) (env : PollEnv V) :
    MeetsPublish w l (Poll w) (pollWaiting env s) := by
  unfold pollWaiting
  split
  · rename_i hs
    have hne : s.state ≠ .connected := fun h => (by rw [hs] at h; cases h)
    split
    · exact Outcome.meets_return h
    · dsimp only
      split
      · exact (h.newClient env.clientNew).retryLater _ _ _
      · rename_i hclient
        rw [Bool.not_eq_false] at hclient
        split
        · exact (h.newClient env.clientNew).retryLater _ _ _
        · apply resolve_publish
          · exact h.idle_of_state hne (by unfold sendView; rfl) rfl rfl hclient
          · exact hne
          · exact hclient
  · exact Outcome.meets_next h

theorem pollResolved_publish (h : Poll w s l) (env : PollEnv V) :
    MeetsPublish w l (Poll w) (pollResolved env s) := by
  unfold pollResolved
  split
  · rename_i hs
    have hne : s.state ≠ .connected := fun h => (by rw [hs.1] at h; cases h)
    have hclient := h.inv.client (.inl hs.1)
    dsimp only
    split
    · apply Poll.retryLater
      exact h.idle_of_state hne (by unfold sendView; rfl) rfl rfl hclient
    · refine Outcome.meets_after ⟨trivial, trivial⟩ ?_
      split
      · apply Poll.retryLater
        exact h.idle_of_state hne (by unfold sendView; rfl) rfl rfl hclient
      · exact Outcome.meets_next (h.idle_of_state hne (by unfold sendView; rfl) rfl rfl hclient)
  · exact Outcome.meets_next h

/-- After this stage the client is connected. -/
theorem pollTimeout_publish (h : Poll w s l) (env : PollEnv V) :
    MeetsPublish w l (fun s l => Poll w s l ∧ s.state = .connected) (pollTimeout env s) := by
  unfold pollTimeout
  split
  · split
    · exact h.retryLater _ _ _
    · exact Outcome.meets_return h
  · split
    · exact Outcome.meets_return h
    · rename_i hs
      exact Outcome.meets_next ⟨h, not_not.1 hs⟩

/-- An acknowledged publish moves on to the next sample, or ends the snapshot. -/
theorem pollPublished_publish (h : Poll w s l) (hs : s.state = .connected) (env : PollEnv V) :
    MeetsPublish w l (Answered w) (pollPublished env s) := by
  unfold pollPublished
  split
  · rename_i hd
    have hp := h.inv.done hd
    have hsend := h.inv.sending (h.inv.pending hp)
    have ho : l.outstanding = false :=
      Bool.eq_false_iff.2 fun ho => Bool.false_ne_true ((h.inv.outstanding.1 ho).2.symm.trans hd)
    have hclient := h.inv.client (.inr (.inr hs))
    have hacc := hsend.accepted
    have hack := hsend.acknowledged
    rw [hp, if_pos rfl] at hacc
    dsimp only
    split
    · rename_i hfail
      -- the snapshot is abandoned
      have hdisc : MeetsPublish w l (Answered w) (retryLater env.nowMs "Publish failed" s.publishResult s) :=
        h.retryLater _ _ _
      exact hdisc
    · rename_i hok
      rw [if_pos ⟨hd, not_not.1 hok⟩] at hack
      split
      · rename_i hend
        refine Outcome.meets_next
          ⟨⟨.of_idle ⟨ho, rfl, rfl, rfl⟩ (fun _ => hclient) h.inv.registered h.inv.changed, .inr (.inr ?_),
          fun h => (by cases h)⟩, hs, rfl⟩
        obtain ⟨hsnap, hacks⟩ := h.same hd
        unfold AllAcknowledged
        rw [← hsnap, ← hacks, hack, hsend.count]
        refine ⟨fun hnil => h.inv.pending hp ?_, hend⟩
        rw [← hsend.count, hnil, List.length_nil]
      · rename_i hmore
        have hlt : s.sampleIndex + 1 < s.sampleCount := by
          have := hsend.index
          omega
        refine Outcome.meets_next ⟨⟨⟨fun _ => hclient, h.inv.registered, h.inv.changed, ?_, fun h => (by cases h),
          fun h => (by cases h), fun _ => ⟨hs, hlt, hsend.count, hsend.samples, ?_, ?_⟩⟩,
            h.last, fun h => (by cases h)⟩,
            hs, rfl⟩
        · rw [ho]
          exact ⟨fun h => (by cases h), fun h => (by cases h.1)⟩
        · dsimp only
          rw [hacc, if_neg Bool.false_ne_true]
        · dsimp only
          rw [hack, if_neg fun h => Bool.false_ne_true h.1]
  · rename_i hd
    exact Outcome.meets_next ⟨h, hs, Bool.eq_false_iff.2 hd⟩

/-- A new snapshot is taken only when nothing is being sent. -/
theorem pollSnapshot_publish [Zero V] [Add V] [Div V] [NatCast V] (h : Answered w s l) (env : PollEnv V) :
    MeetsPublish w l (fun s l => Answered w s l ∧ s.sampleCount ≠ 0) (pollSnapshot env s) := by
  unfold pollSnapshot
  generalize (measurementStoreSnapshot MEASUREMENT_STORE_VIEW_SIZE env.nowMs env.store).1 = samples
  split
  · rename_i hc
    split
    · exact Outcome.meets_return h.toPoll
    · have hidle := h.inv.idle hc
      have hclient := h.inv.client (.inr (.inr h.connected))
      refine Outcome.meets_after ⟨trivial, trivial⟩ ?_
      have hsend : samples.length ≠ 0 → Sending { s with
          samples := fun i => samples.getD i (s.samples i)
          sampleCount := samples.length
          sampleIndex := 0
          nextSendMs := env.nowMs + s.mqttConfig.intervalSeconds * 1000
          deadlineMs := env.nowMs + MQTT_PUBLISH_TIMEOUT_MS } (l.observe (.snapshot samples)) := by
        intro hne
        refine ⟨h.connected, Nat.pos_of_ne_zero hne, rfl, fun i hi => ?_, ?_, ?_⟩
        · dsimp only [Lwip.observe]
          rw [List.getD_eq_getElem _ _ hi, List.getElem?_eq_getElem hi]
        · dsimp only
          rw [hidle.pending]
          rfl
        · dsimp only
          rw [hidle.done]
          rfl
      have hpoll : Poll w { s with
          samples := fun i => samples.getD i (s.samples i)
          sampleCount := samples.length
          sampleIndex := 0
          nextSendMs := env.nowMs + s.mqttConfig.intervalSeconds * 1000
          deadlineMs := env.nowMs + MQTT_PUBLISH_TIMEOUT_MS } (l.observe (.snapshot samples)) := by
        refine ⟨⟨fun _ => hclient, h.inv.registered, h.inv.changed, h.inv.outstanding, h.inv.done,
          fun hp => ?_, hsend⟩, h.last,
          fun hd => ?_⟩
        · exact absurd (hidle.pending.symm.trans hp) Bool.false_ne_true
        · exact absurd (hidle.done.symm.trans hd) Bool.false_ne_true
      split
      · exact Outcome.meets_return hpoll
      · rename_i hne
        exact Outcome.meets_next ⟨⟨hpoll, h.connected, h.done⟩, hne⟩
  · rename_i hc
    exact Outcome.meets_next ⟨h, hc⟩

/-- The publish of the current sample. -/
theorem pollPublish_publish (h : Answered w s l) (hc : s.sampleCount ≠ 0) (env : PollEnv V) :
    MeetsPublish w l (Poll w) (pollPublish env s) := by
  have hs := h.inv.sending hc
  unfold pollPublish
  split
  · exact h.retryLater _ _ _
  · split
    · rename_i hp
      have ho : l.outstanding = false :=
        Bool.eq_false_iff.2 fun ho => Bool.false_ne_true (hp.symm.trans (h.inv.outstanding.1 ho).1)
      have hacc := hs.accepted
      have hack := hs.acknowledged
      rw [hp, if_neg Bool.false_ne_true, Nat.add_zero] at hacc
      rw [h.done, if_neg fun h => Bool.false_ne_true h.1, Nat.add_zero] at hack
      dsimp only
      cases (env.printValue (s.samples s.sampleIndex).value).filter fun value => value.length < 32 with
      | none => exact h.retryLater _ _ _
      | some value =>
        refine Outcome.meets_after
          ⟨⟨Nat.pos_of_ne_zero hc, hs.index, hs.count, hs.samples _ hs.index, ho, hacc, hack⟩, trivial⟩ ?_
        dsimp only [run, List.foldl, Lwip.observe]
        split
        · refine Outcome.meets_next
            ⟨⟨h.inv.client, h.inv.registered, h.inv.changed, ?_, fun _ => rfl, fun _ => hc, fun _ => ?_⟩,
            h.last, fun hd => absurd (h.done.symm.trans hd) Bool.false_ne_true⟩
          · exact ⟨fun _ => ⟨rfl, h.done⟩, fun _ => rfl⟩
          · refine ⟨hs.connected, hs.index, hs.count, hs.samples, ?_, hs.acknowledged⟩
            dsimp only
            rw [hacc, if_pos rfl, List.range_succ]
        · split
          · exact h.retryLater _ _ _
          · exact Outcome.meets_next h.toPoll
    · exact Outcome.meets_next h.toPoll

/-- A whole poll: every publish is the next sample, and what becomes of
`last_send_seconds`. -/
theorem poll_publish [Zero V] [Add V] [Div V] [NatCast V] (h : SendInv w.app w.lwip) (env : PollEnv V) :
    MeetsPublish w w.lwip (Poll w) (appMqttPoll env w.app) :=
  pollConfig_publish h env
    |>.andThen (fun _ _ h => pollDisabled_publish h)
    |>.andThen (fun _ _ h => pollConnection_publish h env)
    |>.andThen (fun _ _ h => pollWaiting_publish h env)
    |>.andThen (fun _ _ h => pollResolved_publish h env)
    |>.andThen (fun _ _ h => pollTimeout_publish h env)
    |>.andThen (fun _ _ h => pollPublished_publish h.1 h.2 env)
    |>.andThen (fun _ _ h => pollSnapshot_publish h env)
    |>.andThen (fun _ _ h => pollPublish_publish h.1 h.2 env)

/-! ## Runs -/

section
variable [Zero V] [Add V] [Div V] [NatCast V]

theorem poll_after (h : SendInv w.app w.lwip) (env : PollEnv V) :
    Poll w (w.step (.poll env)).app (w.step (.poll env)).lwip := by
  have hm := poll_publish h env
  cases hret : (appMqttPoll env w.app).returned with
  | true => exact hm.ret hret
  | false => exact hm.next hret

theorem sendInv_step (h : SendInv w.app w.lwip) (e : MqttEvent V) : SendInv (w.step e).app (w.step e).lwip := by
  cases e with
  | applyConfig config => exact sendInv_applyConfig h config
  | poll env => exact (poll_after h env).inv
  | dnsAnswer request address =>
    unfold MqttWorld.step
    dsimp only
    cases w.lwip.requests[request]? with
    | none => exact h
    | some r => exact sendInv_dnsFound h address r.2 _
  | connection result =>
    unfold MqttWorld.step
    dsimp only
    split
    · rename_i hr
      exact sendInv_connection h hr result
    · exact h
  | published result =>
    unfold MqttWorld.step
    dsimp only
    split
    · rename_i ho
      exact sendInv_published h ho result
    · exact h

/-- Each publish is the next sample of the snapshot. -/
def PublishStep (w : MqttWorld V) (e : MqttEvent V) : Prop := EveryStep Lwip.observe PublishOk w.lwip (w.calls e)

/-- `last_send_seconds` changes only when every sample was acknowledged. -/
def LastSendStep (w : MqttWorld V) (e : MqttEvent V) : Prop :=
  (w.step e).app.lastSendSeconds ≠ w.app.lastSendSeconds → AllAcknowledged w.lwip

/-- The same, apart from the reset at a change of the configuration. -/
def LastSendStepOrReset (w : MqttWorld V) (e : MqttEvent V) : Prop :=
  (w.step e).app.lastSendSeconds ≠ w.app.lastSendSeconds →
    AllAcknowledged w.lwip ∨ (w.app.configChanged = true ∧ (w.step e).app.lastSendSeconds = 0)

theorem lastSendStepOrReset (h : SendInv w.app w.lwip) (e : MqttEvent V) : LastSendStepOrReset w e := by
  intro hne
  cases e with
  | poll env =>
    rcases (poll_after h env).last with hl | hl | hl
    · exact absurd hl hne
    · exact .inr hl
    · exact .inl hl
  | applyConfig config =>
    refine absurd ?_ hne
    dsimp only [MqttWorld.step]
    unfold appMqttApplyConfig
    split <;> rfl
  | dnsAnswer request address =>
    refine absurd ?_ hne
    dsimp only [MqttWorld.step]
    cases w.lwip.requests[request]? with
    | none => rfl
    | some r =>
      dsimp only [dnsFound]
      split <;> rfl
  | connection result =>
    refine absurd ?_ hne
    dsimp only [MqttWorld.step]
    split <;> rfl
  | published result =>
    refine absurd ?_ hne
    dsimp only [MqttWorld.step]
    split <;> rfl

/-- In every run each snapshot is published sample by sample, and the time of the
last send changes only when it is complete or with the configuration. -/
theorem snapshot_published_in_order (events : List (MqttEvent V)) :
    EveryStep MqttWorld.step (fun w e => PublishStep w e ∧ LastSendStepOrReset w e) .init events := by
  refine (everyStep_true MqttWorld.step .init events).of_inv (I := fun w => SendInv w.app w.lwip) sendInv_init
    (fun w e h _ => sendInv_step h e) ?_
  intro w e h _
  refine ⟨?_, lastSendStepOrReset h e⟩
  cases e with
  | poll env => exact (poll_publish h env).calls
  | _ => trivial
end

/-! ## A reset in the middle of a snapshot -/

/-- Free slots do not count in the view. -/
theorem viewRebuild_first [Zero V] [Add V] [Div V] [NatCast V] {n : Nat}
    (hn : 0 < n) {table : MeasurementTable V n} (h : ∀ i : Fin n, i.val ≠ 0 → (table i).fieldType = .none) :
    measurementViewRebuild table = measurementViewRebuild fun _ : Fin 1 => table ⟨0, hn⟩ := by
  obtain ⟨n, rfl⟩ : ∃ m, n = m + 1 := ⟨n - 1, by omega⟩
  have hfold : ∀ (l : List (Fin n)) state, l.foldl (fun state i => viewCount state (table i.succ)) state =
      state := by
    intro l
    induction l with
    | nil => exact fun _ => rfl
    | cons i l ih =>
      intro state
      rw [List.foldl_cons, ih]
      exact if_pos (h i.succ (Nat.succ_ne_zero i))
  unfold measurementViewRebuild
  rw [List.finRange_succ, List.foldl_cons, List.foldl_map, hfold]
  rfl

def oneEntry : MeasurementEntry Nat := ⟨7, .temperature, 20, 5000⟩

/-- A store with one measurement. -/
def oneSample : MeasurementStore Nat :=
  { measurementStoreInit 0 with table := fun i => if i.val = 0 then oneEntry else ⟨0, .none, 0, 0⟩ }

theorem oneSample_snapshot {nowMs : UInt32} (h : ageMs nowMs 5000 ≤ 300000) :
    (measurementStoreSnapshot MEASUREMENT_STORE_VIEW_SIZE nowMs oneSample).1 = [⟨7, .temperature, 20⟩] := by
  have hprune : ∀ i, (measurementTablePrune oneSample.table nowMs oneSample.retentionMs).1 i =
      oneSample.table i := by
    intro i
    unfold measurementTablePrune oneSample
    dsimp only
    by_cases hi : i.val = 0
    · rw [if_pos hi, if_neg (by decide)]
      exact if_neg (UInt32.not_lt.2 h)
    · rw [if_neg hi, if_pos rfl]
  have hview : (measurementRevision nowMs oneSample).view = measurementViewRebuild fun _ : Fin 1 => oneEntry := by
    unfold measurementRevision
    dsimp only
    rw [funext hprune, viewRebuild_first (by decide) fun i hi => congrArg MeasurementEntry.fieldType (if_neg hi)]
    rfl
  unfold measurementStoreSnapshot
  dsimp only
  rw [hview]
  rfl

def sendEnv (nowMs : UInt32) : PollEnv Nat where
  nowMs := nowMs
  clientNew := true
  mac := some [0x28, 0xCD, 0xC1, 0, 0, 1]
  dns := ERR_OK
  dnsAddress := 1
  connect := ERR_OK
  store := oneSample
  printValue _ := some (ascii "20.000")
  publish := ERR_OK

def sendConfig (port : UInt16) : AppMqttConfig :=
  ⟨true, .copy _ (ascii "broker"), port, 60, .copy _ [], .copy _ []⟩

/-- A snapshot is sent; during the next one the configuration changes. -/
def resetRun : List (MqttEvent Nat) := [
  .applyConfig (sendConfig 1883), .poll (sendEnv 5000), .connection MQTT_CONNECT_ACCEPTED, .poll (sendEnv 5000),
  .published ERR_OK, .poll (sendEnv 6000), .poll (sendEnv 66000), .applyConfig (sendConfig 8883)]

theorem pollSnapshot_sendEnv {nowMs : UInt32} (h : ageMs nowMs 5000 ≤ 300000) :
    pollSnapshot (sendEnv nowMs) = fun s =>
    if s.sampleCount = 0 then
      if timeDue nowMs s.nextSendMs = false then .return s
      else .after [.snapshot [⟨7, .temperature, 20⟩]] (.next { s with
        samples := fun i => [⟨7, .temperature, 20⟩].getD i (s.samples i)
        sampleCount := 1
        sampleIndex := 0
        nextSendMs := nowMs + s.mqttConfig.intervalSeconds * 1000
        deadlineMs := nowMs + MQTT_PUBLISH_TIMEOUT_MS })
    else .next s := by
  funext s
  unfold pollSnapshot
  have hs : (measurementStoreSnapshot MEASUREMENT_STORE_VIEW_SIZE (sendEnv nowMs).nowMs (sendEnv nowMs).store).1 =
    [⟨7, .temperature, 20⟩] := oneSample_snapshot h
  generalize (measurementStoreSnapshot MEASUREMENT_STORE_VIEW_SIZE (sendEnv nowMs).nowMs
    (sendEnv nowMs).store).1 = samples at hs
  rw [hs]
  rfl

theorem resetRun_state : (run MqttWorld.step .init resetRun).app.lastSendSeconds = 6 ∧
    (run MqttWorld.step .init resetRun).lwip.acknowledged = 0 ∧
    (run MqttWorld.step .init resetRun).lwip.snapshot.length = 1 ∧
    ((run MqttWorld.step .init resetRun).step (.poll (sendEnv 67000))).app.lastSendSeconds = 0 := by
  unfold resetRun run
  simp only [List.foldl, MqttWorld.step, appMqttPoll,
    pollSnapshot_sendEnv (show ageMs 5000 5000 ≤ 300000 by decide),
    pollSnapshot_sendEnv (show ageMs 6000 5000 ≤ 300000 by decide),
    pollSnapshot_sendEnv (show ageMs 66000 5000 ≤ 300000 by decide),
    pollSnapshot_sendEnv (show ageMs 67000 5000 ≤ 300000 by decide)]
  decide +kernel

/-- The poll that finds the new configuration resets the time of the last send,
with a sample of the snapshot not acknowledged. -/
theorem reset_before_acknowledged :
    ¬EveryStep MqttWorld.step (fun w e => PublishStep w e ∧ LastSendStep w e) .init
    (resetRun ++ [.poll (sendEnv 67000)]) := by
  intro h
  obtain ⟨hlast, hack, hlen, hreset⟩ := resetRun_state
  have hstep := (everyStep_append.1 h).2.1.2
  have hall := (hstep (by rw [hreset, hlast]; decide)).2
  rw [hack, hlen] at hall
  cases hall

end BLEBridge
