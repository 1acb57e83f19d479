import BLEBridge.Lib.EarlyReturn
import BLEBridge.Lib.Fixed
import BLEBridge.MeasurementStore
/-!
# MQTT

`app_mqtt.c`: the poll and the callbacks that record results for it. What lwIP
and the WiFi chip answer during a poll is its environment; the calls a poll
makes on them are part of its result.
-/
open Lib

namespace BLEBridge

def MQTT_CONNECT_TIMEOUT_MS : UInt32 := 15000
def MQTT_PUBLISH_TIMEOUT_MS : UInt32 := 35000
def MQTT_RETRY_MIN_MS : UInt32 := 5000
def MQTT_RETRY_MAX_MS : UInt32 := 60000

/-- `err_t` and `mqtt_connection_status_t` of lwIP. -/
abbrev ErrT := Int

def ERR_OK : ErrT := 0
def ERR_MEM : ErrT := -1
def ERR_TIMEOUT : ErrT := -3
def ERR_INPROGRESS : ErrT := -5
def ERR_VAL : ErrT := -6
def ERR_IF : ErrT := -12
def MQTT_CONNECT_ACCEPTED : ErrT := 0

/-- `ip_addr_t`, an IPv4 address. -/
abbrev IpAddr := UInt32

/-- `app_mqtt_state_t` -/
inductive AppMqttState where
  | disabled | waiting | resolving | connecting | connected
  deriving DecidableEq, Repr

/-- A call on lwIP, with its arguments and result, or the taking of a snapshot.
`generation` is what `dns_gethostbyname` passes on to its callback, and for a
connect the value of `dns_generation`; `sample` is what a publish was made of. -/
inductive MqttCall (V : Type) where
  | disconnect
  | gethostbyname (host : Bytes) (generation : Nat) (err : ErrT) (address : IpAddr)
  | connect (generation : Nat) (address : IpAddr) (port : UInt16) (clientId : Bytes)
      (clientUser clientPass : Option Bytes)
      (err : ErrT)
  | snapshot (samples : List (MeasurementSample V))
  | publish (sampleIndex sampleCount : Nat) (sample : MeasurementSample V) (topic value : Bytes) (err : ErrT)

/-- The static variables of the module. `dnsGeneration` counts without bound; the
code keeps it in 32 bits. -/
structure AppMqtt (V : Type) where
  mqttConfig : AppMqttConfig
  configChanged : Bool
  client : Bool
  state : AppMqttState
  clientId : CString 24
  bridgeMac : CString 13
  lastError : CString 64
  lastSendSeconds : UInt32
  deadlineMs : UInt32
  nextConnectMs : UInt32
  nextSendMs : UInt32
  retryMs : UInt32
  dnsGeneration : Nat
  brokerAddress : IpAddr
  dnsDone : Bool
  dnsValid : Bool
  connectionChanged : Bool
  connectionResult : ErrT
  publishPending : Bool
  publishDone : Bool
  publishResult : ErrT
  samples : Nat → MeasurementSample V
  sampleCount : Nat
  sampleIndex : Nat

/-- What the calls of one poll return: whether a client can be allocated, the MAC,
the results of `dns_gethostbyname`, `mqtt_client_connect` and `mqtt_publish`, the
measurement store, and how `snprintf` prints a value, `none` for an error. -/
structure PollEnv (V : Type) where
  nowMs : UInt32
  clientNew : Bool
  mac : Option Bytes
  dns : ErrT
  dnsAddress : IpAddr
  connect : ErrT
  store : MeasurementStore V
  printValue : V → Option Bytes
  publish : ErrT

/-- Static variables start at zero. -/
def AppMqtt.zero [Zero V] : AppMqtt V where
  mqttConfig := ⟨false, .copy _ [], 0, 0, .copy _ [], .copy _ []⟩
  configChanged := false
  client := false
  state := .disabled
  clientId := .copy _ []
  bridgeMac := .copy _ []
  lastError := .copy _ []
  lastSendSeconds := 0
  deadlineMs := 0
  nextConnectMs := 0
  nextSendMs := 0
  retryMs := MQTT_RETRY_MIN_MS
  dnsGeneration := 0
  brokerAddress := 0
  dnsDone := false
  dnsValid := false
  connectionChanged := false
  connectionResult := 0
  publishPending := false
  publishDone := false
  publishResult := 0
  samples _ := ⟨0, .none, 0⟩
  sampleCount := 0
  sampleIndex := 0

variable {V : Type}

abbrev MqttOutcome (V : Type) := Outcome (AppMqtt V) (MqttCall V)

def timeDue (nowMs targetMs : UInt32) : Bool := (nowMs - targetMs).toNat < 2 ^ 31

/-- `%02X` for each byte. -/
def upperHex (bytes : Bytes) : Bytes :=
  let digit (d : UInt8) : UInt8 := if d < 10 then 48 + d else 55 + d
  bytes.flatMap fun b => [digit (b / 16), digit (b % 16)]

/-- The state of `disconnect_client` afterwards. -/
def disconnected (s : AppMqtt V) : AppMqtt V := { s with
  dnsGeneration := s.dnsGeneration + 1
  dnsDone := false
  connectionChanged := false
  publishPending := false
  publishDone := false
  sampleCount := 0
  sampleIndex := 0 }

def disconnectCalls (s : AppMqtt V) : List (MqttCall V) := if s.client then [.disconnect] else []

/-- `retry_later`, after which the poll returns. -/
def retryLater (nowMs : UInt32) (message : String) (code : ErrT) (s : AppMqtt V) : MqttOutcome V :=
  let s' := disconnected s
  .after (disconnectCalls s) (.return { s' with
    lastError := .copy 64 (ascii message ++ ascii " (" ++ signedDecimal code ++ ascii ")")
    state := .waiting
    nextConnectMs := nowMs + s.retryMs
    retryMs := if s.retryMs < MQTT_RETRY_MAX_MS then
      (if s.retryMs * 2 > MQTT_RETRY_MAX_MS then MQTT_RETRY_MAX_MS else s.retryMs * 2) else s.retryMs })

/-! ## The callbacks -/

/-- `arg` is the generation that was passed with the request; both sides are
compared as 32-bit numbers. -/
def dnsFound (address : Option IpAddr) (arg : Nat) (s : AppMqtt V) : AppMqtt V :=
  if s.state ≠ .resolving ∨ arg % 2 ^ 32 ≠ s.dnsGeneration % 2 ^ 32 then s
  else { s with
    dnsValid := address.isSome
    brokerAddress := address.getD s.brokerAddress
    dnsDone := true }

def connectionCallback (result : ErrT) (s : AppMqtt V) : AppMqtt V :=
  { s with connectionResult := result, connectionChanged := true }

def publishCallback (result : ErrT) (s : AppMqtt V) : AppMqtt V :=
  { s with publishResult := result, publishDone := true }

def appMqttApplyConfig (config : AppMqttConfig) (s : AppMqtt V) : AppMqtt V :=
  if s.mqttConfig.enabled ≠ config.enabled ∨ s.mqttConfig.port ≠ config.port ∨
      s.mqttConfig.intervalSeconds ≠ config.intervalSeconds ∨ s.mqttConfig.host.bytes ≠ config.host.bytes ∨
      s.mqttConfig.username.bytes ≠ config.username.bytes ∨
        s.mqttConfig.password.bytes ≠ config.password.bytes then
    { s with mqttConfig := config, configChanged := true }
  else s

/-! ## The poll -/

/-- A change of the configuration: everything starts again. -/
def pollConfig (env : PollEnv V) (s : AppMqtt V) : MqttOutcome V :=
  if s.configChanged then
    let s' := disconnected s
    let invalid := s.mqttConfig.enabled && (s.mqttConfig.host.bytes = [] ||
      (s.mqttConfig.password.bytes ≠ [] && s.mqttConfig.username.bytes = []))
    .after (disconnectCalls s) (.next { s' with
      configChanged := false
      retryMs := MQTT_RETRY_MIN_MS
      nextConnectMs := env.nowMs
      lastSendSeconds := 0
      lastError := .copy 64 (if invalid then ascii "Invalid MQTT settings" else [])
      state := if invalid then .disabled else if s.mqttConfig.enabled then .waiting else .disabled })
  else .next s

def pollDisabled (s : AppMqtt V) : MqttOutcome V := if s.state = .disabled then .return s else .next s

/-- The result of the connection callback. -/
def pollConnection (env : PollEnv V) (s : AppMqtt V) : MqttOutcome V :=
  if s.connectionChanged then
    let s := { s with connectionChanged := false }
    if s.connectionResult ≠ MQTT_CONNECT_ACCEPTED then
      retryLater env.nowMs "Connection failed" s.connectionResult s
    else .next { s with state := .connected, nextSendMs := env.nowMs, retryMs := MQTT_RETRY_MIN_MS }
  else .next s

/-- The request for the broker's address. -/
def resolve (env : PollEnv V) (s : AppMqtt V) : MqttOutcome V :=
  let generation := s.dnsGeneration + 1
  let s := { s with
    state := .resolving
    deadlineMs := env.nowMs + MQTT_CONNECT_TIMEOUT_MS
    dnsDone := false
    dnsGeneration := generation }
  .after [.gethostbyname s.mqttConfig.host.bytes generation env.dns env.dnsAddress]
    (if env.dns = ERR_OK then .next { s with brokerAddress := env.dnsAddress, dnsValid := true, dnsDone := true }
    else if env.dns ≠ ERR_INPROGRESS then retryLater env.nowMs "DNS lookup failed" env.dns s
    else .next s)

def pollWaiting (env : PollEnv V) (s : AppMqtt V) : MqttOutcome V :=
  if s.state = .waiting then
    if timeDue env.nowMs s.nextConnectMs = false then .return s
    else
      let s := { s with client := s.client || env.clientNew }
      if s.client = false then retryLater env.nowMs "Client allocation failed" ERR_MEM s
      else match env.mac with
        | none => retryLater env.nowMs "MAC unavailable" ERR_IF s
        | some mac =>
          let bridgeMac := CString.copy 13 (upperHex mac)
          resolve env { s with bridgeMac := bridgeMac, clientId := .copy 24 (ascii "BLEB" ++ bridgeMac.bytes) }
  else .next s

/-- `text[0] != '\0' ? text : NULL` -/
def credential {cap : Nat} (text : CString cap) : Option Bytes :=
  if text.bytes ≠ [] then some text.bytes else none

def pollResolved (env : PollEnv V) (s : AppMqtt V) : MqttOutcome V :=
  if s.state = .resolving ∧ s.dnsDone then
    let s := { s with dnsDone := false }
    if s.dnsValid = false then retryLater env.nowMs "DNS lookup failed" ERR_VAL s
    else
      let clientUser := credential s.mqttConfig.username
      let clientPass := credential s.mqttConfig.password
      let s := { s with state := .connecting, deadlineMs := env.nowMs + MQTT_CONNECT_TIMEOUT_MS }
      .after [.connect s.dnsGeneration s.brokerAddress s.mqttConfig.port s.clientId.bytes clientUser
        clientPass env.connect]
        (if env.connect ≠ ERR_OK then retryLater env.nowMs "Connect failed" env.connect s else .next s)
  else .next s

/-- The poll goes on only when connected. -/
def pollTimeout (env : PollEnv V) (s : AppMqtt V) : MqttOutcome V :=
  if s.state = .resolving ∨ s.state = .connecting then
    if timeDue env.nowMs s.deadlineMs then retryLater env.nowMs "Connect timeout" ERR_TIMEOUT s else .return s
  else if s.state ≠ .connected then .return s
  else .next s

/-- The result of the publish callback. -/
def pollPublished (env : PollEnv V) (s : AppMqtt V) : MqttOutcome V :=
  if s.publishDone then
    let s := { s with publishDone := false, publishPending := false }
    if s.publishResult ≠ ERR_OK then retryLater env.nowMs "Publish failed" s.publishResult s
    else
      let s := { s with sampleIndex := s.sampleIndex + 1, deadlineMs := env.nowMs + MQTT_PUBLISH_TIMEOUT_MS }
      if s.sampleIndex = s.sampleCount then
        .next { s with lastSendSeconds := env.nowMs / 1000, lastError := .copy 64 [], sampleCount := 0 }
      else .next s
  else .next s

def pollSnapshot [Zero V] [Add V] [Div V] [NatCast V] (env : PollEnv V) (s : AppMqtt V) : MqttOutcome V :=
  if s.sampleCount = 0 then
    if timeDue env.nowMs s.nextSendMs = false then .return s
    else
      let samples := (measurementStoreSnapshot MEASUREMENT_STORE_VIEW_SIZE env.nowMs env.store).1
      let s := { s with
        samples := fun i => samples.getD i (s.samples i)
        sampleCount := samples.length
        sampleIndex := 0
        nextSendMs := env.nowMs + s.mqttConfig.intervalSeconds * 1000
        deadlineMs := env.nowMs + MQTT_PUBLISH_TIMEOUT_MS }
      .after [.snapshot samples] (if s.sampleCount = 0 then .return s else .next s)
  else .next s

/-- `snprintf(topic, 80, "blebridge/%s/%lu/%s", ...)` -/
def publishTopic (bridgeMac : CString 13) (sample : MeasurementSample V) : Bytes :=
  (CString.copy 80 (ascii "blebridge/" ++ bridgeMac.bytes ++ ascii "/" ++
    decimal sample.deviceId.toNat ++ ascii "/" ++
    measurementFieldName sample.fieldType)).bytes

def pollPublish (env : PollEnv V) (s : AppMqtt V) : MqttOutcome V :=
  if timeDue env.nowMs s.deadlineMs then retryLater env.nowMs "Publish timeout" ERR_TIMEOUT s
  else if s.publishPending = false then
    let sample := s.samples s.sampleIndex
    match (env.printValue sample.value).filter fun value => value.length < 32 with
    | none => retryLater env.nowMs "Value too long" ERR_VAL s
    | some value =>
      .after [.publish s.sampleIndex s.sampleCount sample (publishTopic s.bridgeMac sample) value env.publish]
        (if env.publish = ERR_OK then .next { s with publishPending := true }
        else if env.publish ≠ ERR_MEM then retryLater env.nowMs "Publish failed" env.publish s
        else .next s)
  else .next s

def appMqttPoll [Zero V] [Add V] [Div V] [NatCast V] (env : PollEnv V) (s : AppMqtt V) : MqttOutcome V :=
  pollConfig env s
    |>.andThen pollDisabled
    |>.andThen (pollConnection env)
    |>.andThen (pollWaiting env)
    |>.andThen (pollResolved env)
    |>.andThen (pollTimeout env)
    |>.andThen (pollPublished env)
    |>.andThen (pollSnapshot env)
    |>.andThen (pollPublish env)

end BLEBridge
