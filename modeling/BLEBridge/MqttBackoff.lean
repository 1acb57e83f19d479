import BLEBridge.AppMqtt
import BLEBridge.MeasurementRun
import BLEBridge.Lib.Backoff
/-!
# The back-off of MQTT

What a poll does for the connection is a list of moves (`pollMoves`), and a history
of moves with their true times says which of them are allowed: an attempt starts from
waiting only, and after the delay of the failures so far. `AfterPoll` ties the deadlines
in the state, which are 32-bit times, to the history; each stage of a poll makes allowed
moves only, and at its end no attempt is older than its timeout
(`mqtt_backoff`).
-/
open Lib

namespace BLEBridge

variable {V : Type}

/-! ## Moves -/

inductive MqttMove where
  | restart (enabled : Bool)
  | accept
  | attempt
  | connect
  | retry
  deriving DecidableEq

/-- The moves so far, at their true times: how many calls of `retry_later` since a
connection was accepted or the configuration changed, when the last one was since the
configuration changed, and when the current phase of an attempt was entered. -/
structure MqttHistory where
  phase : AppMqttState
  retries : Nat
  lastRetry : Option Nat
  entered : Nat
  deriving DecidableEq

/-- The delay that `retry_later` sets at the `k`-th failure. -/
def retryDelay (k : Nat) : Nat := backoffDelay MQTT_RETRY_MIN_MS.toNat MQTT_RETRY_MAX_MS.toNat k

theorem retryDelay_eq (k : Nat) : retryDelay k = min (5000 * 2 ^ (k - 1)) 60000 := rfl

theorem retryDelay_one : retryDelay 1 = MQTT_RETRY_MIN_MS.toNat := backoffDelay_one (by decide)

theorem retryDelay_pos (k : Nat) : 0 < retryDelay k := backoffDelay_pos (by decide) (by decide) k

theorem retryDelay_le (k : Nat) : retryDelay k ≤ 60000 := backoffDelay_le k

namespace MqttHistory

def init : MqttHistory := ⟨.disabled, 0, none, 0⟩

def exec (time : Nat) (h : MqttHistory) : MqttMove → MqttHistory
  | .restart enabled =>
    { h with phase := if enabled then .waiting else .disabled, retries := 0, lastRetry := none }
  | .accept => { h with phase := .connected, retries := 0 }
  | .attempt => { h with phase := .resolving, entered := time }
  | .connect => { h with phase := .connecting, entered := time }
  | .retry => { h with phase := .waiting, retries := h.retries + 1, lastRetry := some time }

/-- An attempt starts when no other is under way, and not before the delay since the
last call of `retry_later` is over; a connect belongs to an attempt. -/
def Allowed (time : Nat) (h : MqttHistory) : MqttMove → Prop
  | .attempt =>
    h.phase = .waiting ∧ ∀ r, h.lastRetry = some r → 1 ≤ h.retries ∧
      r + min (5000 * 2 ^ (h.retries - 1)) 60000 ≤ time
  | .connect => h.phase = .resolving
  | _ => True

/-- What allowed moves at one time can make of the phase of an attempt, other than a
new configuration: a new attempt would come too early after the end of this one. -/
inductive From (h : MqttHistory) (time : Nat) (l : MqttHistory) : Prop
  | same (hphase : l.phase = h.phase) (hentered : l.entered = h.entered)
  | connecting (hfrom : h.phase = .resolving) (hphase : l.phase = .connecting)
  | connected (hphase : l.phase = .connected)
  | retried (hphase : l.phase = .waiting) (hlast : l.lastRetry = some time)

variable {h l : MqttHistory} {time : Nat}

theorem From.step (hl : From h time l) (hbusy : h.phase = .resolving ∨ h.phase = .connecting)
    {move : MqttMove} (hmove : l.Allowed time move) (hno : ∀ enabled, move ≠ .restart enabled) :
    From h time (l.exec time move) := by
  cases move with
  | restart enabled => exact absurd rfl (hno enabled)
  | accept => exact .connected rfl
  | retry => exact .retried rfl rfl
  | attempt =>
    obtain ⟨hwaiting, hdelay⟩ := hmove
    cases hl with
    | same hphase =>
      rw [← hphase, hwaiting] at hbusy
      rcases hbusy with hb | hb <;> cases hb
    | connecting _ hphase => rw [hwaiting] at hphase; cases hphase
    | connected hphase => rw [hwaiting] at hphase; cases hphase
    | retried _ hlast =>
      have hpos := retryDelay_pos l.retries
      have hlate := (hdelay time hlast).2
      rw [retryDelay_eq] at hpos
      omega
  | connect =>
    have hresolving : l.phase = .resolving := hmove
    cases hl with
    | same hphase => exact .connecting (hphase.symm.trans hresolving) rfl
    | connecting _ hphase => rw [hresolving] at hphase; cases hphase
    | connected hphase => rw [hresolving] at hphase; cases hphase
    | retried hphase => rw [hresolving] at hphase; cases hphase

theorem From.run (hl : From h time l) (hbusy : h.phase = .resolving ∨ h.phase = .connecting)
    {moves : List MqttMove} (hmoves : EveryStep (exec time) (Allowed time) l moves)
    (hno : ∀ enabled, MqttMove.restart enabled ∉ moves) : From h time (Lib.run (exec time) l moves) := by
  induction moves generalizing l with
  | nil => exact hl
  | cons move moves ih =>
    have hmove : ∀ enabled, move ≠ .restart enabled := fun enabled he => hno enabled (he ▸ List.mem_cons_self)
    exact ih (hl.step hbusy hmoves.1 hmove) hmoves.2 fun enabled hm => hno enabled (List.mem_cons_of_mem _ hm)

/-- A phase of an attempt that lasts was entered when it was. -/
theorem entered_of_lasts (hbusy : h.phase = .resolving ∨ h.phase = .connecting)
    {moves : List MqttMove} (hmoves : EveryStep (exec time) (Allowed time) h moves)
    (hno : ∀ enabled, MqttMove.restart enabled ∉ moves)
    (hlasts : (Lib.run (exec time) h moves).phase = h.phase) :
    (Lib.run (exec time) h moves).entered = h.entered := by
  rw [← hlasts] at hbusy
  cases From.run (.same rfl rfl) (hlasts ▸ hbusy) hmoves hno with
  | same _ hentered => exact hentered
  | connecting hfrom hphase =>
    rw [hlasts, hfrom] at hphase
    cases hphase
  | connected hphase =>
    rw [hphase] at hbusy
    rcases hbusy with hb | hb <;> cases hb
  | retried hphase =>
    rw [hphase] at hbusy
    rcases hbusy with hb | hb <;> cases hb

end MqttHistory

/-! ## The moves of a poll -/

/-- An attempt is a DNS request, after which the state is resolving; a connect makes it
connecting. -/
def callMove : MqttCall V → Option MqttMove
  | .gethostbyname _ _ _ _ => some .attempt
  | .connect _ _ _ _ _ _ _ => some .connect
  | _ => none

/-- The settings with which MQTT is enabled. -/
def settingsValid (config : AppMqttConfig) : Bool :=
  config.enabled && !(config.host.bytes = [] || (config.password.bytes ≠ [] && config.username.bytes = []))

/-- The poll finds a connection accepted. -/
def AcceptsConnection (s : AppMqtt V) : Prop :=
  s.state ≠ .disabled ∧ s.connectionChanged = true ∧ s.connectionResult = MQTT_CONNECT_ACCEPTED

instance (s : AppMqtt V) : Decidable (AcceptsConnection s) := inferInstanceAs (Decidable (_ ∧ _))

/-- What a poll does before it waits: a new configuration, or the result of a connection. -/
def startMoves (s : AppMqtt V) : List MqttMove :=
  if s.configChanged then [.restart (settingsValid s.mqttConfig)] else if AcceptsConnection s then
    [.accept] else []

/-- A poll that calls `retry_later` ends with it: it waits and has a new generation. -/
def EndsInRetry (generation : Nat) (s : AppMqtt V) : Prop := s.state = .waiting ∧ s.dnsGeneration ≠ generation

instance (generation : Nat) (s : AppMqtt V) : Decidable (EndsInRetry generation s) :=
  inferInstanceAs (Decidable (_ ∧ _))

/-- The moves of a poll in `s` with the result `r`. -/
def pollMoves (s : AppMqtt V) (r : MqttOutcome V) : List MqttMove :=
  startMoves s ++ r.calls.filterMap callMove ++ if EndsInRetry s.dnsGeneration r.state then [.retry] else []

/-! ## Deadlines -/

/-- `target` is not long over, and at most a minute ahead. -/
def Near (time target : Nat) : Prop := time < target + 2 ^ 30 ∧ target ≤ time + 60000

theorem timeDue_iff {time target : Nat} (h : Near time target) :
    timeDue (nowAt time) (nowAt target) = true ↔ target ≤ time := by
  obtain ⟨hn, ht⟩ := h
  rw [timeDue, decide_eq_true_eq]
  exact wrapped_due_iff (by omega) (by omega)

theorem nowAt_add (time : Nat) (d : UInt32) : nowAt time + d = nowAt (time + d.toNat) := by
  unfold nowAt
  rw [UInt32.ofNat_add, UInt32.ofNat_toNat]

/-- What the state and the history agree on at any point of a poll that starts with
`generation`. -/
structure Agrees (generation : Nat) (s : AppMqtt V) (l : MqttHistory) : Prop where
  phase : l.phase = s.state
  delay : s.retryMs.toNat = retryDelay (l.retries + 1)
  newer : generation ≤ s.dnsGeneration

/-- Waiting has an end, which is now or the end of the last delay. -/
inductive Waits (time generation : Nat) (s : AppMqtt V) (l : MqttHistory) : Prop
  | restarted (hlast : l.lastRetry = none) (hnext : s.nextConnectMs = nowAt time)
  | retried (r : Nat) (hlast : l.lastRetry = some r) (hretries : 1 ≤ l.retries) (hr : r ≤ time)
      (hnext : s.nextConnectMs = nowAt (r + retryDelay l.retries)) (hnear : Near time (r + retryDelay l.retries))
      (hsame : s.dnsGeneration = generation)

/-- The phase of an attempt has an end. -/
structure Expires (time : Nat) (s : AppMqtt V) (l : MqttHistory) : Prop where
  deadline : s.deadlineMs = nowAt (l.entered + 15000)
  entered : l.entered ≤ time
  near : Near time (l.entered + 15000)

theorem Expires.entered_now {time : Nat} {s : AppMqtt V} {l : MqttHistory}
    (hdeadline : s.deadlineMs = nowAt time + MQTT_CONNECT_TIMEOUT_MS) (hentered : l.entered = time) :
    Expires time s l where
  deadline := by
    rw [hdeadline, nowAt_add, hentered]
    rfl
  entered := hentered.le
  near := ⟨by omega, by omega⟩

/-- During a poll at `time`. -/
structure DuringPoll (time generation : Nat) (s : AppMqtt V) (l : MqttHistory) :
    Prop extends Agrees generation s l where
  waits : s.state = .waiting → Waits time generation s l
  expires : s.state = .resolving ∨ s.state = .connecting → Expires time s l

/-- After a poll at `last`: nothing is overdue. -/
structure AfterPoll (last : Option Nat) (s : AppMqtt V) (h : MqttHistory) : Prop where
  phase : h.phase = s.state
  delay : s.retryMs.toNat = retryDelay (h.retries + 1)
  waits : s.state = .waiting → ∃ time r, last = some time ∧ h.lastRetry = some r ∧ 1 ≤ h.retries ∧
    s.nextConnectMs = nowAt (r + retryDelay h.retries) ∧ r ≤ time ∧ time < r + retryDelay h.retries
  expires : s.state = .resolving ∨ s.state = .connecting → ∃ time, last = some time ∧
    s.deadlineMs = nowAt (h.entered + 15000) ∧ h.entered ≤ time ∧ time < h.entered + 15000

/-- The next poll comes soon enough. -/
theorem AfterPoll.during {last : Option Nat} {s : AppMqtt V} {h : MqttHistory}
    (hafter : AfterPoll last s h) {time : Nat} (htime : ∀ t, last = some t → t ≤ time ∧ time < t + 2 ^ 30) :
    DuringPoll time s.dnsGeneration s h where
  phase := hafter.phase
  delay := hafter.delay
  newer := le_refl _
  waits hs := by
    obtain ⟨t, r, hlast, hr, hretries, hnext, hle, hlt⟩ := hafter.waits hs
    obtain ⟨ht, htlt⟩ := htime t hlast
    have hdelay := retryDelay_le h.retries
    exact .retried r hr hretries (hle.trans ht) hnext ⟨by omega, by omega⟩ rfl
  expires hs := by
    obtain ⟨t, hlast, hdeadline, hle, hlt⟩ := hafter.expires hs
    obtain ⟨ht, htlt⟩ := htime t hlast
    exact ⟨hdeadline, hle.trans ht, by omega, by omega⟩

/-! ## The end of a poll -/

/-- The history when the poll has returned. -/
def MqttHistory.finish (generation time : Nat) (s : AppMqtt V) (l : MqttHistory) : MqttHistory :=
  if EndsInRetry generation s then l.exec time .retry else l

/-- The poll has returned: `retry_later` was called if it looks so. -/
structure PollEnded (time generation : Nat) (s : AppMqtt V) (l : MqttHistory) : Prop where
  after : AfterPoll (some time) s (l.finish generation time s)
  retried : EndsInRetry generation s → ∃ message code s₀, generation ≤ s₀.dnsGeneration ∧
    s = (retryLater (nowAt time) message code s₀).state

variable {time generation : Nat} {s : AppMqtt V} {l : MqttHistory}

/-- A poll that returns in another way, with nothing overdue. -/
theorem PollEnded.of_agrees (h : Agrees generation s l) (hno : ¬ EndsInRetry generation s)
    (hwaits : s.state = .waiting → ∃ r, l.lastRetry = some r ∧ 1 ≤ l.retries ∧
      s.nextConnectMs = nowAt (r + retryDelay l.retries) ∧ r ≤ time ∧ time < r + retryDelay l.retries)
    (hexpires : s.state = .resolving ∨ s.state = .connecting →
      s.deadlineMs = nowAt (l.entered + 15000) ∧ l.entered ≤ time ∧ time < l.entered + 15000) : PollEnded time
        generation s l where
  after := by
    rw [MqttHistory.finish, if_neg hno]
    refine ⟨h.phase, h.delay, fun hs => ?_, fun hs => ⟨time, rfl, hexpires hs⟩⟩
    obtain ⟨r, hr⟩ := hwaits hs
    exact ⟨time, r, rfl, hr⟩
  retried h := absurd h hno

/-- Disabled or connected, nothing is waited for. -/
theorem PollEnded.of_settled (h : Agrees generation s l) (hs : s.state = .disabled ∨ s.state = .connected) :
    PollEnded time generation s l := by
  have hwaiting : s.state ≠ .waiting := by rcases hs with hs | hs <;> rw [hs] <;> intro h0 <;> cases h0
  refine .of_agrees h (fun h0 => hwaiting h0.1) (fun h0 => absurd h0 hwaiting) fun h0 => ?_
  rcases hs with hs | hs <;> rw [hs] at h0 <;> rcases h0 with h0 | h0 <;> cases h0

/-- The delay of the next failure. -/
theorem nextDelay_toNat {retryMs : UInt32} {k : Nat} (h : retryMs.toNat = retryDelay (k + 1)) :
    (if retryMs < MQTT_RETRY_MAX_MS then
      (if retryMs * 2 > MQTT_RETRY_MAX_MS then MQTT_RETRY_MAX_MS else retryMs * 2) else retryMs).toNat =
        retryDelay (k + 2) := by
  have hle := retryDelay_le (k + 1)
  have hnext : retryDelay (k + 2) = min (retryDelay (k + 1) * 2) 60000 := backoffDelay_succ k
  have hmax : MQTT_RETRY_MAX_MS.toNat = 60000 := rfl
  have hdouble : (retryMs * 2).toNat = retryMs.toNat * 2 := by
    rw [UInt32.toNat_mul]
    exact Nat.mod_eq_of_lt (by rw [h]; exact lt_of_le_of_lt (Nat.mul_le_mul_right 2 hle) (by decide))
  rw [hnext, ← h]
  rw [← h] at hle
  split
  · split
    · rename_i hgt
      rw [gt_iff_lt, UInt32.lt_iff_toNat_lt, hdouble] at hgt
      omega
    · rename_i hgt
      rw [gt_iff_lt, UInt32.lt_iff_toNat_lt, hdouble] at hgt
      omega
  · rename_i hge
    rw [UInt32.lt_iff_toNat_lt] at hge
    omega

/-! ## The stages of a poll -/

/-- The moves that the calls of a poll make. -/
abbrev MeetsBackoff (time generation : Nat) (l : MqttHistory) (Next : AppMqtt V → MqttHistory → Prop)
    (r : MqttOutcome V) : Prop :=
  r.Meets (fun l call => (callMove call).elim l (MqttHistory.exec time l))
    (fun l call => ∀ move, callMove call = some move → l.Allowed time move)
    Next (PollEnded time generation) l

/-- Disconnecting is not a move. -/
theorem meets_disconnect {Next : AppMqtt V → MqttHistory → Prop} {r : MqttOutcome V}
    (h : MeetsBackoff time generation l Next r) :
    MeetsBackoff time generation l Next (.after (disconnectCalls s) r) := by
  unfold disconnectCalls
  split
  · exact Outcome.meets_after ⟨fun _ hmove => (by cases hmove), trivial⟩ h
  · exact Outcome.meets_after trivial h

theorem retryLater_backoff (h : Agrees generation s l) {Next : AppMqtt V → MqttHistory → Prop}
    (message : String) (code : ErrT) :
    MeetsBackoff time generation l Next (retryLater (nowAt time) message code s) := by
  have hnewer := h.newer
  have hends : EndsInRetry generation (retryLater (nowAt time) message code s).state :=
    ⟨rfl, Nat.ne_of_gt (Nat.lt_succ_of_le hnewer)⟩
  have hafter : AfterPoll (some time) (retryLater (nowAt time) message code s).state (l.exec time .retry) := by
    refine ⟨rfl, nextDelay_toNat h.delay, fun _ => ?_, fun hs => ?_⟩
    · have hpos := retryDelay_pos (l.retries + 1)
      refine ⟨time, time, rfl, rfl, Nat.le_add_left 1 _, ?_, le_refl time, Nat.lt_add_of_pos_right hpos⟩
      exact (nowAt_add time s.retryMs).trans (congrArg (fun d => nowAt (time + d)) h.delay)
    · rcases hs with hs | hs <;> cases hs
  have hfinish : l.finish generation time (retryLater (nowAt time) message code s).state =
      l.exec time .retry := if_pos hends
  rw [← hfinish] at hafter
  exact meets_disconnect (Outcome.meets_return ⟨hafter, fun _ => ⟨message, code, s, hnewer, rfl⟩⟩)

/-- What the moves at the start of a poll make of the state that `pollConfig` leaves. -/
inductive Started (time generation : Nat) (s : AppMqtt V) (l : MqttHistory) : Prop
  | accepted (haccepts : AcceptsConnection s) (hphase : l.phase = .connected) (hretries : l.retries = 0)
      (hnewer : generation ≤ s.dnsGeneration)
  | going (hno : ¬ AcceptsConnection s) (h : DuringPoll time generation s l)

theorem pollConfig_state (config : AppMqttConfig) :
    (if (config.enabled && (config.host.bytes = [] ||
      (config.password.bytes ≠ [] && config.username.bytes = []))) = true then AppMqttState.disabled
      else if config.enabled = true then .waiting else .disabled) =
    if settingsValid config then .waiting else .disabled := by
  unfold settingsValid
  cases config.enabled with
  | false => rfl
  | true =>
    rw [Bool.true_and, Bool.true_and]
    cases config.host.bytes = [] || (config.password.bytes ≠ [] && config.username.bytes = []) <;> rfl

theorem pollConfig_backoff (h : DuringPoll time s.dnsGeneration s l) {env : PollEnv V}
    (hnow : env.nowMs = nowAt time) :
    MeetsBackoff time s.dnsGeneration (run (MqttHistory.exec time) l (startMoves s))
      (Started time s.dnsGeneration) (pollConfig env s) := by
  unfold pollConfig startMoves
  by_cases hc : s.configChanged = true
  · rw [if_pos hc, if_pos hc]
    refine meets_disconnect (Outcome.meets_next (.going (fun h0 => Bool.false_ne_true h0.2.1) ?_))
    have hstate := pollConfig_state s.mqttConfig
    refine ⟨⟨?_, ?_, Nat.le_succ _⟩, fun _ => ?_, fun hs => ?_⟩
    · exact hstate.symm
    · exact retryDelay_one.symm
    · exact .restarted rfl hnow
    · dsimp only at hs
      rw [hstate] at hs
      split at hs <;> rcases hs with hs | hs <;> cases hs
  · rw [if_neg hc, if_neg hc]
    refine Outcome.meets_next ?_
    split
    · rename_i haccepts
      exact .accepted haccepts rfl rfl (le_refl _)
    · rename_i hno
      exact .going hno h

/-- A poll that goes on is not disabled. -/
theorem pollDisabled_backoff (h : Started time generation s l) :
    MeetsBackoff time generation l (fun s l => Started time generation s l ∧ s.state ≠ .disabled)
      (pollDisabled s) := by
  unfold pollDisabled
  split
  · rename_i hs
    cases h with
    | accepted haccepts => exact absurd hs haccepts.1
    | going _ h => exact Outcome.meets_return (.of_settled h.toAgrees (.inl hs))
  · rename_i hs
    exact Outcome.meets_next ⟨h, hs⟩

theorem pollConnection_backoff (h : Started time generation s l) (hs : s.state ≠ .disabled) {env : PollEnv V}
    (hnow : env.nowMs = nowAt time) :
    MeetsBackoff time generation l (DuringPoll time generation) (pollConnection env s) := by
  unfold pollConnection
  rw [hnow]
  cases h with
  | accepted haccepts hphase hretries hnewer =>
    rw [if_pos haccepts.2.1]
    dsimp only
    rw [if_neg (not_not.2 haccepts.2.2)]
    refine Outcome.meets_next ⟨⟨hphase, ?_, hnewer⟩, fun h0 => (by cases h0), fun h0 => ?_⟩
    · rw [hretries]
      exact retryDelay_one.symm
    · rcases h0 with h0 | h0 <;> cases h0
  | going hno h =>
    split
    · rename_i hchanged
      dsimp only
      split
      · exact retryLater_backoff (s := { s with connectionChanged := false }) ⟨h.phase, h.delay, h.newer⟩ _ _
      · rename_i haccepted
        exact absurd ⟨hs, hchanged, not_not.1 haccepted⟩ hno
    · exact Outcome.meets_next h

/-- The request starts an attempt. -/
theorem resolve_backoff (h : Agrees generation s l) (hallowed : l.Allowed time .attempt) {env : PollEnv V}
    (hnow : env.nowMs = nowAt time) :
    MeetsBackoff time generation l (fun s l => DuringPoll time generation s l ∧ s.state ≠ .waiting)
      (resolve env s) := by
  have hnewer : generation ≤ s.dnsGeneration + 1 := h.newer.trans (Nat.le_succ _)
  have hexpires (s' : AppMqtt V) (hdeadline : s'.deadlineMs = nowAt time + MQTT_CONNECT_TIMEOUT_MS) :
      Expires time s' (l.exec time .attempt) := .entered_now hdeadline rfl
  unfold resolve
  rw [hnow]
  refine Outcome.meets_after ⟨fun move hmove => ?_, trivial⟩ ?_
  · obtain rfl := Option.some.inj hmove
    exact hallowed
  · split
    · refine Outcome.meets_next ⟨⟨⟨rfl, h.delay, hnewer⟩, fun h0 => (by cases h0), fun _ => hexpires _ rfl⟩,
        fun h0 => by cases h0⟩
    · split
      · apply retryLater_backoff
        exact ⟨rfl, h.delay, hnewer⟩
      · refine Outcome.meets_next ⟨⟨⟨rfl, h.delay, hnewer⟩, fun h0 => (by cases h0), fun _ => hexpires _ rfl⟩,
          fun h0 => by cases h0⟩

/-- An attempt starts once the delay is over. -/
theorem pollWaiting_backoff (h : DuringPoll time generation s l) {env : PollEnv V}
    (hnow : env.nowMs = nowAt time) :
    MeetsBackoff time generation l (fun s l => DuringPoll time generation s l ∧ s.state ≠ .waiting)
      (pollWaiting env s) := by
  unfold pollWaiting
  split
  · rename_i hs
    have hbusy : ¬ (s.state = .resolving ∨ s.state = .connecting) := by rw [hs]; rintro (h0 | h0) <;> cases h0
    rw [hnow]
    split
    · rename_i hdue
      cases h.waits hs with
      | restarted hlast hnext =>
        -- After a restart the attempt is due at once.
        rw [hnext, (timeDue_iff ⟨by omega, by omega⟩).2 (le_refl time)] at hdue
        cases hdue
      | retried r hlast hretries hr hnext hnear hsame =>
        refine Outcome.meets_return (.of_agrees h.toAgrees (fun h0 => h0.2 hsame) (fun _ => ?_) fun h0 =>
          absurd h0 hbusy)
        have hearly : ¬ r + retryDelay l.retries ≤ time := by
          rw [hnext, Bool.eq_false_iff] at hdue
          exact fun hle => hdue ((timeDue_iff hnear).2 hle)
        exact ⟨r, hlast, hretries, hnext, hr, not_le.1 hearly⟩
    · rename_i hdue
      rw [Bool.not_eq_false] at hdue
      have hallowed : l.Allowed time .attempt := by
        refine ⟨h.phase.trans hs, fun r hr => ?_⟩
        cases h.waits hs with
        | restarted hlast =>
          rw [hlast] at hr
          cases hr
        | retried r' hlast hretries _ hnext hnear =>
          obtain rfl := Option.some.inj (hlast.symm.trans hr)
          rw [hnext] at hdue
          exact ⟨hretries, (timeDue_iff hnear).1 hdue⟩
      dsimp only
      split
      · apply retryLater_backoff
        exact ⟨h.phase, h.delay, h.newer⟩
      · split
        · apply retryLater_backoff
          exact ⟨h.phase, h.delay, h.newer⟩
        · apply resolve_backoff
          exacts [⟨h.phase, h.delay, h.newer⟩, hallowed, hnow]
  · rename_i hs
    exact Outcome.meets_next ⟨h, hs⟩

/-- The connect is made with a new timeout. -/
theorem pollResolved_backoff (h : DuringPoll time generation s l) (hs : s.state ≠ .waiting) {env : PollEnv V}
    (hnow : env.nowMs = nowAt time) :
    MeetsBackoff time generation l (fun s l => DuringPoll time generation s l ∧ s.state ≠ .waiting)
      (pollResolved env s) := by
  unfold pollResolved
  rw [hnow]
  split
  · rename_i hresolving
    dsimp only
    split
    · apply retryLater_backoff
      exact ⟨h.phase, h.delay, h.newer⟩
    · refine Outcome.meets_after ⟨fun move hmove => ?_, trivial⟩ ?_
      · obtain rfl := Option.some.inj hmove
        exact h.phase.trans hresolving.1
      · split
        · apply retryLater_backoff
          exact ⟨rfl, h.delay, h.newer⟩
        · have hexpires (s' : AppMqtt V) (hdeadline : s'.deadlineMs = nowAt time + MQTT_CONNECT_TIMEOUT_MS) :
              Expires time s' (l.exec time .connect) := .entered_now hdeadline rfl
          refine Outcome.meets_next ⟨⟨⟨rfl, h.delay, h.newer⟩, fun h0 => (by cases h0),
            fun _ => hexpires _ rfl⟩, fun h0 => (by cases h0)⟩
  · exact Outcome.meets_next ⟨h, hs⟩

/-- No phase of an attempt is left that has lasted too long. -/
theorem pollTimeout_backoff (h : DuringPoll time generation s l) (hs : s.state ≠ .waiting) {env : PollEnv V}
    (hnow : env.nowMs = nowAt time) :
    MeetsBackoff time generation l (fun s l => Agrees generation s l ∧ s.state = .connected)
      (pollTimeout env s) := by
  have hno : ¬ EndsInRetry generation s := fun h0 => hs h0.1
  unfold pollTimeout
  rw [hnow]
  split
  · rename_i hbusy
    obtain ⟨hdeadline, hentered, hnear⟩ := h.expires hbusy
    split
    · exact retryLater_backoff h.toAgrees _ _
    · rename_i hdue
      rw [hdeadline, timeDue_iff hnear, not_le] at hdue
      exact Outcome.meets_return (.of_agrees h.toAgrees hno (fun h0 => absurd h0 hs) fun _ =>
        ⟨hdeadline, hentered, hdue⟩)
  · rename_i hidle
    split
    · exact Outcome.meets_return (.of_agrees h.toAgrees hno (fun h0 => absurd h0 hs) fun h0 => absurd h0 hidle)
    · rename_i hconnected
      exact Outcome.meets_next ⟨h.toAgrees, not_not.1 hconnected⟩

/-! While connected there is nothing to wait for, and a failure has its delay. -/

theorem pollPublished_backoff (h : Agrees generation s l) (hs : s.state = .connected) {env : PollEnv V}
    (hnow : env.nowMs = nowAt time) :
    MeetsBackoff time generation l (fun s l => Agrees generation s l ∧ s.state = .connected)
      (pollPublished env s) := by
  unfold pollPublished
  rw [hnow]
  split
  · dsimp only
    split
    · apply retryLater_backoff
      exact ⟨h.phase, h.delay, h.newer⟩
    · split
      · exact Outcome.meets_next ⟨⟨h.phase, h.delay, h.newer⟩, hs⟩
      · exact Outcome.meets_next ⟨⟨h.phase, h.delay, h.newer⟩, hs⟩
  · exact Outcome.meets_next ⟨h, hs⟩

theorem pollPublish_backoff (h : Agrees generation s l) (hs : s.state = .connected) {env : PollEnv V}
    (hnow : env.nowMs = nowAt time) :
    MeetsBackoff time generation l (fun s l => Agrees generation s l ∧ s.state = .connected)
      (pollPublish env s) := by
  unfold pollPublish
  rw [hnow]
  split
  · exact retryLater_backoff h _ _
  split
  · dsimp only
    split
    · exact retryLater_backoff h _ _
    · refine Outcome.meets_after ⟨fun _ hmove => (by cases hmove), trivial⟩ ?_
      split
      · exact Outcome.meets_next ⟨⟨h.phase, h.delay, h.newer⟩, hs⟩
      · split
        · exact retryLater_backoff h _ _
        · exact Outcome.meets_next ⟨h, hs⟩
  · exact Outcome.meets_next ⟨h, hs⟩

theorem startMoves_allowed (time : Nat) (s : AppMqtt V) (l : MqttHistory) :
    EveryStep (MqttHistory.exec time) (MqttHistory.Allowed time) l (startMoves s) := by
  unfold startMoves
  split
  · exact ⟨trivial, trivial⟩
  · split
    · exact ⟨trivial, trivial⟩
    · trivial

section
variable [Zero V] [Add V] [Div V] [NatCast V]

theorem pollSnapshot_backoff (h : Agrees generation s l) (hs : s.state = .connected) {env : PollEnv V}
    (hnow : env.nowMs = nowAt time) :
    MeetsBackoff time generation l (fun s l => Agrees generation s l ∧ s.state = .connected)
      (pollSnapshot env s) := by
  unfold pollSnapshot
  generalize (measurementStoreSnapshot MEASUREMENT_STORE_VIEW_SIZE env.nowMs env.store).1 = samples
  rw [hnow]
  split
  · split
    · exact Outcome.meets_return (.of_settled h (.inr hs))
    · refine Outcome.meets_after ⟨fun _ hmove => (by cases hmove), trivial⟩ ?_
      split
      · refine Outcome.meets_return (.of_settled ?_ (.inr hs))
        exact ⟨h.phase, h.delay, h.newer⟩
      · exact Outcome.meets_next ⟨⟨h.phase, h.delay, h.newer⟩, hs⟩
  · exact Outcome.meets_next ⟨h, hs⟩

/-- A whole poll. -/
theorem poll_meets_backoff (h : DuringPoll time s.dnsGeneration s l) {env : PollEnv V}
    (hnow : env.nowMs = nowAt time) :
    MeetsBackoff time s.dnsGeneration (run (MqttHistory.exec time) l (startMoves s))
      (fun s' l => Agrees s.dnsGeneration s' l ∧ s'.state = .connected) (appMqttPoll env s) :=
  pollConfig_backoff h hnow
    |>.andThen (fun _ _ h => pollDisabled_backoff h)
    |>.andThen (fun _ _ h => pollConnection_backoff h.1 h.2 hnow)
    |>.andThen (fun _ _ h => pollWaiting_backoff h hnow)
    |>.andThen (fun _ _ h => pollResolved_backoff h.1 h.2 hnow)
    |>.andThen (fun _ _ h => pollTimeout_backoff h.1 h.2 hnow)
    |>.andThen (fun _ _ h => pollPublished_backoff h.1 h.2 hnow)
    |>.andThen (fun _ _ h => pollSnapshot_backoff h.1 h.2 hnow)
    |>.andThen (fun _ _ h => pollPublish_backoff h.1 h.2 hnow)

/-- What a poll does: allowed moves only, after which nothing is overdue. -/
theorem poll_backoff (h : DuringPoll time s.dnsGeneration s l) {env : PollEnv V} (hnow : env.nowMs = nowAt time) :
    EveryStep (MqttHistory.exec time) (MqttHistory.Allowed time) l (pollMoves s (appMqttPoll env s)) ∧
      AfterPoll (some time) (appMqttPoll env s).state
        (run (MqttHistory.exec time) l (pollMoves s (appMqttPoll env s))) ∧
      (EndsInRetry s.dnsGeneration (appMqttPoll env s).state →
        ∃ message code s₀, s.dnsGeneration ≤ s₀.dnsGeneration ∧
        (appMqttPoll env s).state = (retryLater (nowAt time) message code s₀).state) := by
  have hm := poll_meets_backoff h hnow
  generalize appMqttPoll env s = r at hm ⊢
  have hended : PollEnded time s.dnsGeneration r.state
      (run (fun l call => (callMove call).elim l (MqttHistory.exec time l))
        (run (MqttHistory.exec time) l (startMoves s)) r.calls) := by
    cases hret : r.returned with
    | true => exact hm.ret hret
    | false =>
      obtain ⟨hagrees, hconnected⟩ := hm.next hret
      exact .of_settled hagrees (.inr hconnected)
  have hrun : run (MqttHistory.exec time) l (pollMoves s r) = MqttHistory.finish s.dnsGeneration time r.state
      (run (fun l call => (callMove call).elim l (MqttHistory.exec time l))
        (run (MqttHistory.exec time) l (startMoves s)) r.calls) := by
    rw [pollMoves, run_append, run_append, run_filterMap, MqttHistory.finish]
    split
    · rfl
    · rfl
  refine ⟨?_, ?_, hended.retried⟩
  · unfold pollMoves
    refine everyStep_append.2 ⟨everyStep_append.2 ⟨startMoves_allowed time s l, everyStep_filterMap hm.calls⟩, ?_⟩
    split
    · exact ⟨trivial, trivial⟩
    · trivial
  · rw [hrun]
    exact hended.after

end

theorem restart_not_mem (hc : s.configChanged = false) (r : MqttOutcome V) (enabled : Bool) :
    MqttMove.restart enabled ∉ pollMoves s r := by
  have hstart : MqttMove.restart enabled ∉ startMoves s := by
    unfold startMoves
    rw [hc, if_neg Bool.false_ne_true]
    split <;> simp
  have hcalls : MqttMove.restart enabled ∉ r.calls.filterMap callMove := by
    intro hmem
    obtain ⟨call, -, hmove⟩ := List.mem_filterMap.1 hmem
    cases call <;> cases hmove
  have hend : MqttMove.restart enabled ∉ if EndsInRetry s.dnsGeneration r.state then [MqttMove.retry]
      else [] := by
    split <;> simp
  unfold pollMoves
  rw [List.mem_append, List.mem_append]
  rintro ((hmem | hmem) | hmem)
  · exact hstart hmem
  · exact hcalls hmem
  · exact hend hmem

/-! ## Runs -/

/-- What can happen: a poll at a true time, a new configuration, and any callback. -/
inductive TimedEvent (V : Type) where
  | poll (time : Nat) (env : PollEnv V)
  | applyConfig (config : AppMqttConfig)
  | dnsFound (address : Option IpAddr) (arg : Nat)
  | connection (result : ErrT)
  | published (result : ErrT)

/-- The module, the true time of the last poll, and the moves so far. -/
structure MqttTrace (V : Type) where
  app : AppMqtt V
  clock : Option Nat
  history : MqttHistory

namespace MqttTrace

def init [Zero V] : MqttTrace V := ⟨.zero, none, .init⟩

theorem afterPoll_init [Zero V] :
    AfterPoll (init : MqttTrace V).clock (init : MqttTrace V).app (init : MqttTrace V).history where
  phase := rfl
  delay := retryDelay_one.symm
  waits h := by cases h
  expires h := by rcases h with h | h <;> cases h

variable [Zero V] [Add V] [Div V] [NatCast V]

/-- The poll gets the true time modulo 2³². -/
def pollAt (w : MqttTrace V) (time : Nat) (env : PollEnv V) : MqttOutcome V :=
  appMqttPoll { env with nowMs := nowAt time } w.app

def step (w : MqttTrace V) : TimedEvent V → MqttTrace V
  | .poll time env => {
      app := (w.pollAt time env).state
      clock := some time
      history := run (MqttHistory.exec time) w.history (pollMoves w.app (w.pollAt time env)) }
  | .applyConfig config => { w with app := appMqttApplyConfig config w.app }
  | .dnsFound address arg => { w with app := dnsFound address arg w.app }
  | .connection result => { w with app := connectionCallback result w.app }
  | .published result => { w with app := publishCallback result w.app }

/-- Polls come in the order of time, less than 2³⁰ ms apart. -/
def Timely (w : MqttTrace V) : TimedEvent V → Prop
  | .poll time _ => ∀ t, w.clock = some t → t ≤ time ∧ time < t + 2 ^ 30
  | _ => True

/-- The back-off law at a poll: its moves are allowed; it makes the move `retry` when it
ends with `retry_later`; and it leaves the phase of an attempt that was entered 15 seconds
ago, unless the configuration changed. -/
structure PollKeeps (w : MqttTrace V) (time : Nat) (env : PollEnv V) : Prop where
  allowed : EveryStep (MqttHistory.exec time) (MqttHistory.Allowed time) w.history
    (pollMoves w.app (w.pollAt time env))
  retries : EndsInRetry w.app.dnsGeneration (w.pollAt time env).state ↔ ∃ message code s₀,
    w.app.dnsGeneration ≤ s₀.dnsGeneration ∧
      (w.pollAt time env).state = (retryLater (nowAt time) message code s₀).state
  left : w.app.configChanged = false → w.app.state = .resolving ∨ w.app.state = .connecting →
    w.history.entered + 15000 ≤ time →
    (w.pollAt time env).state.state ≠ w.app.state

/-- The history has the phase of the state, and the law holds at a poll. -/
def KeepsBackoff (w : MqttTrace V) (event : TimedEvent V) : Prop :=
  w.history.phase = w.app.state ∧ ∀ time env, event = .poll time env → w.PollKeeps time env

theorem afterPoll_step {w : MqttTrace V} (h : AfterPoll w.clock w.app w.history) {event : TimedEvent V}
    (ht : w.Timely event) : AfterPoll (w.step event).clock (w.step event).app (w.step event).history := by
  cases event with
  | poll time env => exact (poll_backoff (h.during ht) rfl).2.1
  | applyConfig config =>
    dsimp only [step]
    unfold appMqttApplyConfig
    split
    · exact ⟨h.phase, h.delay, h.waits, h.expires⟩
    · exact h
  | dnsFound address arg =>
    dsimp only [step]
    unfold BLEBridge.dnsFound
    split
    · exact h
    · exact ⟨h.phase, h.delay, h.waits, h.expires⟩
  | connection result => exact ⟨h.phase, h.delay, h.waits, h.expires⟩
  | published result => exact ⟨h.phase, h.delay, h.waits, h.expires⟩

theorem keeps_of_afterPoll {w : MqttTrace V} (h : AfterPoll w.clock w.app w.history) {event : TimedEvent V}
    (ht : w.Timely event) : w.KeepsBackoff event := by
  refine ⟨h.phase, fun time env hevent => ?_⟩
  subst hevent
  obtain ⟨hallowed, hafter, hretried⟩ :=
    @poll_backoff V time w.app w.history _ _ _ _ (h.during ht) { env with nowMs := nowAt time } rfl
  refine ⟨hallowed, ⟨hretried, ?_⟩, fun hc hbusy hlate hsame => ?_⟩
  · rintro ⟨message, code, s₀, hnewer, hstate⟩
    rw [hstate]
    exact ⟨rfl, Nat.ne_of_gt (Nat.lt_succ_of_le hnewer)⟩
  · -- the phase would have been entered when it was, and be overdue
    rw [← h.phase] at hbusy
    have hphase : (w.step (.poll time env)).history.phase = w.history.phase :=
      hafter.phase.trans (hsame.trans h.phase.symm)
    have hentered : (w.step (.poll time env)).history.entered = w.history.entered :=
      MqttHistory.entered_of_lasts hbusy hallowed (restart_not_mem hc _) hphase
    have hstate : (w.pollAt time env).state.state = .resolving ∨
        (w.pollAt time env).state.state = .connecting := by
      rw [hsame, ← h.phase]
      exact hbusy
    obtain ⟨t, hlast, -, -, hlt⟩ := hafter.expires hstate
    obtain rfl := Option.some.inj hlast
    have hearly : time < (w.step (.poll time env)).history.entered + 15000 := hlt
    omega

/-- **The back-off of MQTT**: in every run of polls at true times and of any callbacks, an
attempt starts only while none is under way, and no earlier than the delay of the
failures so far after the last one; and no phase of an attempt outlasts a poll that
comes 15 seconds after it was entered. -/
theorem mqtt_backoff (events : List (TimedEvent V)) (ht : EveryStep step Timely init events) :
    EveryStep step KeepsBackoff init events :=
  ht.of_inv (I := fun w => AfterPoll w.clock w.app w.history) afterPoll_init (fun _ _ h hw => afterPoll_step h hw)
    fun _ _ h hw => keeps_of_afterPoll h hw

/-- The name of the broker is never resolved. -/
def unreachableEnv : PollEnv Nat where
  nowMs := 0
  clientNew := true
  mac := some [2, 0, 0, 0, 0, 1]
  dns := ERR_INPROGRESS
  dnsAddress := 0
  connect := ERR_OK
  store := measurementStoreInit 0
  printValue _ := none
  publish := ERR_OK

/-- The first attempt fails after the counter has wrapped, and there is one retry. -/
def unreachableRun : List (TimedEvent Nat) :=
  [.applyConfig ⟨true, .copy _ (ascii "broker"), 1883, 60, .copy _ [], .copy _ []⟩,
    .poll (2 ^ 32 - 9000) unreachableEnv,
    .poll (2 ^ 32 + 6000) unreachableEnv, .poll (2 ^ 32 + 10999) unreachableEnv,
    .poll (2 ^ 32 + 11000) unreachableEnv]

theorem mqtt_backoff_unreachable : EveryStep step KeepsBackoff init unreachableRun ∧
    (run step init unreachableRun).history = ⟨.resolving, 1, some (2 ^ 32 + 6000), 2 ^ 32 + 11000⟩ := by
  refine ⟨mqtt_backoff unreachableRun ⟨trivial, fun t h => ?_, fun t h => ?_, fun t h => ?_, fun t h => ?_,
    trivial⟩, by decide +kernel⟩
  · cases h
  · cases h
    decide
  · cases h
    decide
  · cases h
    decide

end MqttTrace

end BLEBridge
