import BLEBridge.AppMqtt
/-!
# Runs of the MQTT client

The events the module sees, in any order: a new configuration, a poll with any
environment, and the callbacks of lwIP. What lwIP may call back is decided by
the calls made on it so far, which the run observes.
-/
open Lib

namespace BLEBridge

variable {V : Type}

/-- What the calls on lwIP amount to: the DNS requests in order with their
generations, the answers by the number of their request, whether a connection
callback is registered, whether an accepted publish is outstanding, and for the
snapshot being sent its samples, the indices of the accepted publishes and the
number of acknowledgements. -/
structure Lwip (V : Type) where
  requests : List (Bytes × Nat)
  answers : List (Nat × IpAddr)
  registered : Bool
  outstanding : Bool
  snapshot : List (MeasurementSample V)
  accepted : List Nat
  acknowledged : Nat

def Lwip.init : Lwip V := ⟨[], [], false, false, [], [], 0⟩

/-- No publish is answered after `mqtt_disconnect`, which abandons the snapshot. -/
def Lwip.observe (l : Lwip V) : MqttCall V → Lwip V
  | .disconnect => { l with outstanding := false, snapshot := [], accepted := [], acknowledged := 0 }
  | .gethostbyname host generation err address => { l with
      requests := l.requests ++ [(host, generation)]
      answers := if err = ERR_OK then l.answers ++ [(l.requests.length, address)] else l.answers }
  | .connect _ _ _ _ _ _ _ => { l with registered := true }
  | .snapshot samples => { l with snapshot := samples, accepted := [], acknowledged := 0 }
  | .publish sampleIndex _ _ _ _ err =>
    if err = ERR_OK then { l with outstanding := true, accepted := l.accepted ++ [sampleIndex] } else l

/-- What can happen. An answer to a DNS request is told by the number of the
request. -/
inductive MqttEvent (V : Type) where
  | applyConfig (config : AppMqttConfig)
  | poll (env : PollEnv V)
  | dnsAnswer (request : Nat) (address : Option IpAddr)
  | connection (result : ErrT)
  | published (result : ErrT)

structure MqttWorld (V : Type) where
  app : AppMqtt V
  lwip : Lwip V

section
variable [Zero V] [Add V] [Div V] [NatCast V]

def MqttWorld.init : MqttWorld V := ⟨.zero, .init⟩

/-- An answer comes only for a request that was made, a connection callback only
once one is registered, and a publish callback once for a publish that is
outstanding; else nothing happens. -/
def MqttWorld.step (w : MqttWorld V) : MqttEvent V → MqttWorld V
  | .applyConfig config => { w with app := appMqttApplyConfig config w.app }
  | .poll env => ⟨(appMqttPoll env w.app).state, run Lwip.observe w.lwip (appMqttPoll env w.app).calls⟩
  | .dnsAnswer request address =>
    match w.lwip.requests[request]? with
    | none => w
    | some (_, generation) => {
      app := dnsFound address generation w.app
      lwip := { w.lwip with answers := w.lwip.answers ++ (address.map fun a => (request, a)).toList } }
  | .connection result => if w.lwip.registered then { w with app := connectionCallback result w.app } else w
  | .published result =>
    if w.lwip.outstanding then {
      app := publishCallback result w.app
      lwip := { w.lwip with
        outstanding := false
        acknowledged := if result = ERR_OK then w.lwip.acknowledged + 1 else w.lwip.acknowledged } }
    else w

/-- The calls an event makes. -/
def MqttWorld.calls (w : MqttWorld V) : MqttEvent V → List (MqttCall V)
  | .poll env => (appMqttPoll env w.app).calls
  | _ => []
end

end BLEBridge
