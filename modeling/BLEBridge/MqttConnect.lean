import BLEBridge.MqttRun
/-!
# Connecting

A connect uses the address that answers the DNS request of the current attempt,
and the configuration that request was made for. `DnsInv` is what keeps this
across late answers and new configurations: an answer counts only in the
resolving state and for the current generation, and only the last request has
that (`connect_uses_current_config`).
-/
open Lib

namespace BLEBridge

variable {V : Type}

/-- A connect to the broker of `config`, with an address that answers the last
DNS request, which was for its host and has the current generation. -/
def ConnectOk (config : AppMqttConfig) (l : Lwip V) : MqttCall V → Prop
  | .connect generation address port _ clientUser clientPass _ =>
    config.enabled = true ∧ config.host.bytes ≠ [] ∧
      (∃ older, l.requests = older ++ [(config.host.bytes, generation)] ∧ (older.length, address) ∈ l.answers) ∧
      port = config.port ∧ clientUser = credential config.username ∧ clientPass = credential config.password
  | _ => True

/-- The attempt under way: the last request has the current generation, no other
has, and a valid answer is an answer to it. -/
def Resolving (s : AppMqtt V) (l : Lwip V) : Prop :=
  ∃ older host, l.requests = older ++ [(host, s.dnsGeneration)] ∧ (∀ r ∈ older, r.2 < s.dnsGeneration) ∧
    (s.configChanged = false → host = s.mqttConfig.host.bytes) ∧
    (s.dnsDone = true → s.dnsValid = true → (older.length, s.brokerAddress) ∈ l.answers)

structure DnsInv (s : AppMqtt V) (l : Lwip V) : Prop where
  known : ∀ r ∈ l.requests, r.2 ≤ s.dnsGeneration
  active : s.configChanged = false → s.state ≠ .disabled → s.mqttConfig.enabled = true ∧
    s.mqttConfig.host.bytes ≠ []
  resolving : s.state = .resolving → Resolving s l

theorem dnsInv_init [Zero V] : DnsInv (.zero : AppMqtt V) .init where
  known _ h := absurd h List.not_mem_nil
  active _ h := absurd rfl h
  resolving h := by cases h

/-! ## The events other than a poll -/

theorem dnsInv_applyConfig {s : AppMqtt V} {l : Lwip V} (h : DnsInv s l) (config : AppMqttConfig) :
    DnsInv (appMqttApplyConfig config s) l := by
  unfold appMqttApplyConfig
  split
  · refine ⟨h.known, fun hc => (by cases hc), fun hs => ?_⟩
    obtain ⟨older, host, hr, hold, -, hans⟩ := h.resolving hs
    exact ⟨older, host, hr, hold, fun hc => (by cases hc), hans⟩
  · exact h

theorem dnsInv_connection {s : AppMqtt V} {l : Lwip V} (h : DnsInv s l) (result : ErrT) :
    DnsInv (connectionCallback result s) l :=
  ⟨h.known, h.active, h.resolving⟩

theorem dnsInv_published {s : AppMqtt V} {l : Lwip V} (h : DnsInv s l) (result : ErrT) (outstanding : Bool)
    (acknowledged : Nat) :
    DnsInv (publishCallback result s) { l with outstanding := outstanding, acknowledged := acknowledged } :=
  ⟨h.known, h.active, h.resolving⟩

/-- A late answer is either to the current attempt or ignored. -/
theorem dnsInv_dnsFound {s : AppMqtt V} {l : Lwip V} (h : DnsInv s l) (hfew : s.dnsGeneration < 2 ^ 32)
    {request : Nat} {host : Bytes} {generation : Nat} (hr : l.requests[request]? = some (host, generation))
    (address : Option IpAddr) :
    DnsInv (dnsFound address generation s)
      { l with answers := l.answers ++ (address.map fun a => (request, a)).toList } := by
  have hgen := h.known _ (List.mem_of_getElem? hr)
  unfold dnsFound
  split
  · refine ⟨h.known, h.active, fun hs => ?_⟩
    obtain ⟨older, host', hr', hold, hh, hans⟩ := h.resolving hs
    exact ⟨older, host', hr', hold, hh, fun hd hv => List.mem_append_left _ (hans hd hv)⟩
  · rename_i hcur
    rw [not_or, not_not, not_not, Nat.mod_eq_of_lt hfew, Nat.mod_eq_of_lt (lt_of_le_of_lt hgen hfew)] at hcur
    refine ⟨h.known, h.active, fun hs => ?_⟩
    obtain ⟨older, host', hr', hold, hh, hans⟩ := h.resolving hs
    refine ⟨older, host', hr', hold, hh, fun _ hv => ?_⟩
    -- an older request has an older generation
    have hlast : request = older.length := by
      rw [hr'] at hr
      by_contra hne
      rcases Nat.lt_or_ge request older.length with hlt | hge
      · rw [List.getElem?_append_left hlt] at hr
        exact absurd hcur.2 (Nat.ne_of_lt (hold _ (List.mem_of_getElem? hr)))
      · rw [List.getElem?_append_right hge, List.getElem?_eq_none (by simp; omega)] at hr
        cases hr
    obtain ⟨a, rfl⟩ := Option.isSome_iff_exists.1 hv
    refine List.mem_append_right _ ?_
    rw [hlast]
    exact List.mem_singleton.2 rfl

/-! ## The stages of a poll -/

/-- A change of the configuration has been dealt with. -/
structure Settled (config : AppMqttConfig) (s : AppMqtt V) (l : Lwip V) : Prop where
  inv : DnsInv s l
  config : s.mqttConfig = config
  settled : s.configChanged = false

/-- The poll goes on: MQTT is not disabled. -/
structure Running (config : AppMqttConfig) (s : AppMqtt V) (l : Lwip V) : Prop extends Settled config s l where
  enabled : s.state ≠ .disabled

abbrev MeetsConnect (config : AppMqttConfig) (l : Lwip V) (Next : AppMqtt V → Lwip V → Prop)
    (r : MqttOutcome V) : Prop :=
  r.Meets Lwip.observe (ConnectOk config) Next (Settled config) l

theorem disconnectCalls_ok (config : AppMqttConfig) (s : AppMqtt V) (l : Lwip V) :
    EveryStep Lwip.observe (ConnectOk config) l (disconnectCalls s) := by
  unfold disconnectCalls
  split
  · exact ⟨trivial, trivial⟩
  · trivial

theorem disconnectCalls_frame (s : AppMqtt V) (l : Lwip V) :
    (run Lwip.observe l (disconnectCalls s)).requests = l.requests ∧
    (run Lwip.observe l (disconnectCalls s)).answers = l.answers := by
  unfold disconnectCalls
  split
  · exact ⟨rfl, rfl⟩
  · exact ⟨rfl, rfl⟩

variable {config : AppMqttConfig} {s : AppMqtt V} {l : Lwip V}

/-- Once disconnected no attempt is under way. -/
theorem DnsInv.disconnect (hk : ∀ r ∈ l.requests, r.2 ≤ s.dnsGeneration) {s' : AppMqtt V}
    (hg : s'.dnsGeneration = s.dnsGeneration + 1) (hs : s'.state ≠ .resolving)
    (ha : s'.configChanged = false → s'.state ≠ .disabled →
      s'.mqttConfig.enabled = true ∧ s'.mqttConfig.host.bytes ≠ []) :
    DnsInv s' (run Lwip.observe l (disconnectCalls s)) where
  known r hr := by
    rw [(disconnectCalls_frame s l).1] at hr
    rw [hg]
    exact (hk r hr).trans (Nat.le_succ _)
  active := ha
  resolving h := absurd h hs

theorem retryLater_meets (hk : ∀ r ∈ l.requests, r.2 ≤ s.dnsGeneration) (hc : s.mqttConfig = config)
    (hs : s.configChanged = false) (ha : config.enabled = true ∧ config.host.bytes ≠ [])
    (nowMs : UInt32) (message : String) (code : ErrT) {Next : AppMqtt V → Lwip V → Prop} :
    MeetsConnect config l Next (retryLater nowMs message code s) := by
  unfold retryLater
  refine Outcome.meets_after (disconnectCalls_ok config s l) (Outcome.meets_return ⟨?_, hc, hs⟩)
  refine DnsInv.disconnect hk rfl ?_ ?_
  · intro h
    cases h
  · intro _ _
    rw [← hc] at ha
    exact ha

theorem Running.configOk (h : Running config s l) : config.enabled = true ∧ config.host.bytes ≠ [] :=
  h.config ▸ h.inv.active h.settled h.enabled

theorem Running.retryLater (h : Running config s l) (nowMs : UInt32) (message : String) (code : ErrT)
    {Next : AppMqtt V → Lwip V → Prop} : MeetsConnect config l Next (retryLater nowMs message code s) :=
  retryLater_meets h.inv.known h.config h.settled h.configOk nowMs message code

/-- The part of the state the invariant is about. -/
def dnsView (s : AppMqtt V) : AppMqttConfig × Bool × AppMqttState × Nat × Bool × Bool × IpAddr :=
  (s.mqttConfig, s.configChanged, s.state, s.dnsGeneration, s.dnsDone, s.dnsValid, s.brokerAddress)

theorem DnsInv.frame (h : DnsInv s l) {s' : AppMqtt V} {l' : Lwip V} (hs : dnsView s' = dnsView s)
    (hr : l'.requests = l.requests) (ha : l'.answers = l.answers) : DnsInv s' l' := by
  simp only [dnsView, Prod.mk.injEq] at hs
  obtain ⟨hc, hch, hst, hg, hd, hv, hb⟩ := hs
  refine ⟨?_, ?_, ?_⟩
  · rw [hr, hg]
    exact h.known
  · rw [hc, hch, hst]
    exact h.active
  · unfold Resolving
    rw [hr, ha, hc, hch, hst, hg, hd, hv, hb]
    exact h.resolving

theorem Settled.frame (h : Settled config s l) {s' : AppMqtt V} {l' : Lwip V} (hs : dnsView s' = dnsView s)
    (hr : l'.requests = l.requests) (ha : l'.answers = l.answers) : Settled config s' l' where
  inv := h.inv.frame hs hr ha
  config := (congrArg Prod.fst hs).trans h.config
  settled := (congrArg (fun v => v.2.1) hs).trans h.settled

theorem Running.frame (h : Running config s l) {s' : AppMqtt V} {l' : Lwip V} (hs : dnsView s' = dnsView s)
    (hr : l'.requests = l.requests) (ha : l'.answers = l.answers) : Running config s' l' where
  toSettled := h.toSettled.frame hs hr ha
  enabled := (congrArg (fun v => v.2.2.1) hs).trans_ne h.enabled

theorem pollConfig_meets (h : DnsInv s l) (env : PollEnv V) :
    MeetsConnect s.mqttConfig l (Settled s.mqttConfig) (pollConfig env s) := by
  unfold pollConfig
  split
  · refine Outcome.meets_after (disconnectCalls_ok _ s l) (Outcome.meets_next ⟨?_, rfl, rfl⟩)
    refine DnsInv.disconnect h.known rfl ?_ ?_
    · dsimp only
      split
      · intro h
        cases h
      · split <;> intro h <;> cases h
    · dsimp only
      intro _ hne
      split at hne
      · exact absurd rfl hne
      · rename_i hvalid
        split at hne
        · rename_i henabled
          refine ⟨henabled, fun hhost => hvalid ?_⟩
          rw [Bool.and_eq_true, Bool.or_eq_true, decide_eq_true_eq]
          exact ⟨henabled, .inl hhost⟩
        · exact absurd rfl hne
  · rename_i hc
    exact Outcome.meets_next ⟨h, rfl, Bool.eq_false_iff.2 hc⟩

theorem pollDisabled_meets (h : Settled config s l) :
    MeetsConnect config l (Running config) (pollDisabled s) := by
  unfold pollDisabled
  split
  · exact Outcome.meets_return h
  · rename_i hs
    exact Outcome.meets_next ⟨h, hs⟩

theorem pollConnection_meets (h : Running config s l) (env : PollEnv V) :
    MeetsConnect config l (Running config) (pollConnection env s) := by
  unfold pollConnection
  split
  · dsimp only
    split
    · apply retryLater_meets
      exacts [h.inv.known, h.config, h.settled, h.configOk]
    · refine Outcome.meets_next ⟨⟨⟨h.inv.known, ?_, ?_⟩, h.config, h.settled⟩, ?_⟩
      · intro _ _
        exact h.inv.active h.settled h.enabled
      · intro h
        cases h
      · intro h
        cases h
  · exact Outcome.meets_next h

/-- The new request has a generation no older request has. -/
theorem resolve_meets (h : Running config s l) (env : PollEnv V) :
    MeetsConnect config l (Running config) (resolve env s) := by
  have hlt : ∀ r ∈ l.requests, r.2 < s.dnsGeneration + 1 := fun r hr => Nat.lt_succ_of_le (h.inv.known r hr)
  have hknown : ∀ r ∈ l.requests ++ [(s.mqttConfig.host.bytes, s.dnsGeneration + 1)],
      r.2 ≤ s.dnsGeneration + 1 := by
    intro r hr
    rcases List.mem_append.1 hr with hr | hr
    · exact (hlt r hr).le
    · rw [List.mem_singleton.1 hr]
  unfold resolve
  refine Outcome.meets_after ⟨trivial, trivial⟩ ?_
  split
  · rename_i hok
    refine Outcome.meets_next
      ⟨⟨⟨hknown, fun _ _ => h.inv.active h.settled h.enabled, fun _ => ?_⟩, h.config, h.settled⟩, ?_⟩
    · refine ⟨l.requests, _, rfl, hlt, fun _ => rfl, fun _ _ => ?_⟩
      dsimp only [run, List.foldl, Lwip.observe]
      rw [if_pos hok]
      exact List.mem_append_right _ (List.mem_singleton.2 rfl)
    · intro h
      cases h
  · split
    · apply retryLater_meets
      exacts [hknown, h.config, h.settled, h.configOk]
    · refine Outcome.meets_next
        ⟨⟨⟨hknown, fun _ _ => h.inv.active h.settled h.enabled, fun _ => ?_⟩, h.config, h.settled⟩, ?_⟩
      · exact ⟨l.requests, _, rfl, hlt, fun _ => rfl, fun hd => (by cases hd)⟩
      · intro h
        cases h

theorem pollWaiting_meets (h : Running config s l) (env : PollEnv V) :
    MeetsConnect config l (Running config) (pollWaiting env s) := by
  unfold pollWaiting
  split
  · rename_i hs
    have hnot : s.state ≠ .resolving := fun h => (by rw [hs] at h; cases h)
    split
    · exact Outcome.meets_return h.toSettled
    · dsimp only
      split
      · apply retryLater_meets
        exacts [h.inv.known, h.config, h.settled, h.configOk]
      · split
        · apply retryLater_meets
          exacts [h.inv.known, h.config, h.settled, h.configOk]
        · apply resolve_meets
          exact ⟨⟨⟨h.inv.known, h.inv.active, fun h => absurd h hnot⟩, h.config, h.settled⟩, h.enabled⟩
  · exact Outcome.meets_next h

/-- The connect, with the answer to the current attempt. -/
theorem pollResolved_meets (h : Running config s l) (env : PollEnv V) :
    MeetsConnect config l (Running config) (pollResolved env s) := by
  unfold pollResolved
  split
  · rename_i hd
    obtain ⟨older, host, hr, hold, hhost, hans⟩ := h.inv.resolving hd.1
    dsimp only
    split
    · apply retryLater_meets
      exacts [h.inv.known, h.config, h.settled, h.configOk]
    · rename_i hv
      refine Outcome.meets_after ⟨?_, trivial⟩ ?_
      · obtain ⟨hen, hne⟩ := h.configOk
        rw [hhost h.settled, h.config] at hr
        refine ⟨hen, hne, ⟨older, hr, hans hd.2 (Bool.not_eq_false _ ▸ hv)⟩, ?_, ?_, ?_⟩
        · rw [h.config]
        · rw [h.config]
        · rw [h.config]
      · split
        · apply retryLater_meets
          exacts [h.inv.known, h.config, h.settled, h.configOk]
        · refine Outcome.meets_next
            ⟨⟨⟨h.inv.known, fun _ _ => h.inv.active h.settled h.enabled, ?_⟩, h.config, h.settled⟩, ?_⟩
          · intro h
            cases h
          · intro h
            cases h
  · exact Outcome.meets_next h

theorem pollTimeout_meets (h : Running config s l) (env : PollEnv V) :
    MeetsConnect config l (Running config) (pollTimeout env s) := by
  unfold pollTimeout
  split
  · split
    · exact h.retryLater _ _ _
    · exact Outcome.meets_return h.toSettled
  · split
    · exact Outcome.meets_return h.toSettled
    · exact Outcome.meets_next h

theorem pollPublished_meets (h : Running config s l) (env : PollEnv V) :
    MeetsConnect config l (Running config) (pollPublished env s) := by
  unfold pollPublished
  split
  · dsimp only
    split
    · apply retryLater_meets
      exacts [h.inv.known, h.config, h.settled, h.configOk]
    · split
      · exact Outcome.meets_next (h.frame (by unfold dnsView; rfl) rfl rfl)
      · exact Outcome.meets_next (h.frame (by unfold dnsView; rfl) rfl rfl)
  · exact Outcome.meets_next h

theorem pollSnapshot_meets [Zero V] [Add V] [Div V] [NatCast V] (h : Running config s l) (env : PollEnv V) :
    MeetsConnect config l (Running config) (pollSnapshot env s) := by
  unfold pollSnapshot
  generalize (measurementStoreSnapshot MEASUREMENT_STORE_VIEW_SIZE env.nowMs env.store).1 = samples
  split
  · split
    · exact Outcome.meets_return h.toSettled
    · refine Outcome.meets_after ⟨trivial, trivial⟩ ?_
      split
      · exact Outcome.meets_return (h.toSettled.frame (by unfold dnsView; rfl) rfl rfl)
      · exact Outcome.meets_next (h.frame (by unfold dnsView; rfl) rfl rfl)
  · exact Outcome.meets_next h

theorem observe_publish_frame (l : Lwip V) (sampleIndex sampleCount : Nat)
    (sample : MeasurementSample V) (topic value : Bytes) (err : ErrT) :
    (l.observe (.publish sampleIndex sampleCount sample topic value err)).requests = l.requests ∧
      (l.observe (.publish sampleIndex sampleCount sample topic value err)).answers = l.answers := by
  unfold Lwip.observe
  dsimp only
  split
  · exact ⟨rfl, rfl⟩
  · exact ⟨rfl, rfl⟩

theorem pollPublish_meets (h : Running config s l) (env : PollEnv V) :
    MeetsConnect config l (Running config) (pollPublish env s) := by
  unfold pollPublish
  split
  · exact h.retryLater _ _ _
  · split
    · dsimp only
      cases (env.printValue (s.samples s.sampleIndex).value).filter fun value => value.length < 32 with
      | none => exact h.retryLater _ _ _
      | some value =>
        obtain ⟨hr, ha⟩ := observe_publish_frame l s.sampleIndex s.sampleCount (s.samples s.sampleIndex)
          (publishTopic s.bridgeMac (s.samples s.sampleIndex)) value env.publish
        refine Outcome.meets_after ⟨trivial, trivial⟩ ?_
        split
        · exact Outcome.meets_next (h.frame rfl hr ha)
        · split
          · exact (h.frame rfl hr ha).retryLater _ _ _
          · exact Outcome.meets_next (h.frame rfl hr ha)
    · exact Outcome.meets_next h

/-- A whole poll: every connect is to the broker of the configuration at hand. -/
theorem poll_meets [Zero V] [Add V] [Div V] [NatCast V] (h : DnsInv s l) (env : PollEnv V) :
    MeetsConnect s.mqttConfig l (Running s.mqttConfig) (appMqttPoll env s) :=
  pollConfig_meets h env
    |>.andThen (fun _ _ h => pollDisabled_meets h)
    |>.andThen (fun _ _ h => pollConnection_meets h env)
    |>.andThen (fun _ _ h => pollWaiting_meets h env)
    |>.andThen (fun _ _ h => pollResolved_meets h env)
    |>.andThen (fun _ _ h => pollTimeout_meets h env)
    |>.andThen (fun _ _ h => pollPublished_meets h env)
    |>.andThen (fun _ _ h => pollSnapshot_meets h env)
    |>.andThen (fun _ _ h => pollPublish_meets h env)

/-! ## Runs -/

section
variable [Zero V] [Add V] [Div V] [NatCast V]

theorem dnsInv_step {w : MqttWorld V} (h : DnsInv w.app w.lwip) (hfew : w.app.dnsGeneration < 2 ^ 32)
    (e : MqttEvent V) : DnsInv (w.step e).app (w.step e).lwip := by
  cases e with
  | applyConfig config => exact dnsInv_applyConfig h config
  | poll env =>
    have hm := poll_meets h env
    cases hret : (appMqttPoll env w.app).returned with
    | true => exact (hm.ret hret).inv
    | false => exact (hm.next hret).inv
  | dnsAnswer request address =>
    unfold MqttWorld.step
    dsimp only
    cases hr : w.lwip.requests[request]? with
    | none => exact h
    | some r => exact dnsInv_dnsFound h hfew hr address
  | connection result =>
    unfold MqttWorld.step
    dsimp only
    split
    · exact dnsInv_connection h result
    · exact h
  | published result =>
    unfold MqttWorld.step
    dsimp only
    split
    · exact dnsInv_published h result _ _
    · exact h

/-- In every run with fewer than 2³² generations, each connect is made with MQTT
enabled and a host, to an address that answers the DNS request of the current
attempt for the host of the configuration, with its port and credentials. -/
theorem connect_uses_current_config {events : List (MqttEvent V)}
    (hfew : EveryStep MqttWorld.step (fun w _ => w.app.dnsGeneration < 2 ^ 32) .init events) :
    EveryStep MqttWorld.step
      (fun w e => EveryStep Lwip.observe (ConnectOk w.app.mqttConfig) w.lwip (w.calls e)) .init events := by
  refine hfew.of_inv (I := fun w => DnsInv w.app w.lwip) dnsInv_init (fun w e h hf => dnsInv_step h hf e) ?_
  intro w e h _
  cases e with
  | poll env => exact (poll_meets h env).calls
  | _ => trivial
end

/-- A poll at time 0 whose DNS request is answered later. -/
def lateDnsEnv : PollEnv Nat where
  nowMs := 0
  clientNew := true
  mac := some [0x28, 0xCD, 0xC1, 0, 0, 1]
  dns := ERR_INPROGRESS
  dnsAddress := 0
  connect := ERR_OK
  store := measurementStoreInit 0
  printValue _ := some []
  publish := ERR_OK

/-- Two configurations, and the answer for the host of the first one after the
second has been asked for. -/
def lateDnsRun : List (MqttEvent Nat) := [
  .applyConfig ⟨true, .copy _ (ascii "first"), 1883, 60, .copy _ [], .copy _ []⟩, .poll lateDnsEnv,
  .applyConfig ⟨true, .copy _ (ascii "second"), 1883, 60, .copy _ [], .copy _ []⟩, .poll lateDnsEnv,
  .dnsAnswer 0 (some 1), .poll lateDnsEnv, .dnsAnswer 1 (some 2), .poll lateDnsEnv]

theorem connect_uses_current_config_lateDns :
    EveryStep MqttWorld.step
      (fun w e => EveryStep Lwip.observe (ConnectOk w.app.mqttConfig) w.lwip (w.calls e)) .init lateDnsRun :=
  connect_uses_current_config ⟨by decide, by decide, by decide, by decide, by decide, by decide, by decide,
    by decide, trivial⟩

end BLEBridge
