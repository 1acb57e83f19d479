import BLEBridge.AppMqtt
import BLEBridge.NarodmonPayload
/-!
# Sending to narodmon

`app_narodmon.c`: the poll and the callbacks of lwIP that send the payload over
one connection. What lwIP returns is an argument; the log entries recorded and
the chunks given to `tcp_write` are kept beside the static variables.
-/
open Lib

namespace BLEBridge

def APP_NARODMON_TIMEOUT_MS : UInt32 := 10000

def ERR_ABRT : ErrT := -13
def ERR_CLSD : ErrT := -15

/-- `app_narodmon_log_event_t` -/
inductive AppNarodmonLogEvent where
  | none | dnsError | connectError | writeError | recvError | tcpError | sendOk
  deriving DecidableEq, Repr

/-- `app_narodmon_pending_log` -/
structure AppNarodmonPendingLog where
  event : AppNarodmonLogEvent
  error : ErrT
  payloadLen : UInt16

/-- `app_narodmon_state_t`. Of the pcb only whether there is one is kept; `payload`
is the text in the buffer. -/
structure AppNarodmonState where
  pcb : Bool
  busy : Bool
  dnsPending : Bool
  connected : Bool
  payload : Bytes
  payloadLen : UInt16
  sentOffset : UInt16
  deadlineMs : UInt32

def AppNarodmonState.zero : AppNarodmonState := ⟨false, false, false, false, [], 0, 0, 0⟩

/-- The static variables, the entries recorded in `app_narodmon_pending_log`, the
messages passed to `app_log` and the chunks given to `tcp_write`. -/
structure AppNarodmon where
  state : AppNarodmonState
  pendingLog : AppNarodmonPendingLog
  recorded : List AppNarodmonLogEvent
  log : List Bytes
  writes : List Bytes

/-- What `tcp_sndbuf`, `tcp_write` and `tcp_output` return. -/
structure TcpResults where
  sndbuf : Nat
  write : ErrT
  output : ErrT

def logMessage (message : Bytes) (n : AppNarodmon) : AppNarodmon := { n with log := n.log ++ [message] }

def appNarodmonDeferLog (event : AppNarodmonLogEvent) (error : ErrT) (payloadLen : UInt16) (n : AppNarodmon) :
    AppNarodmon :=
  { n with pendingLog := ⟨event, error, payloadLen⟩, recorded := n.recorded ++ [event] }

/-- The message of an entry. -/
def AppNarodmonPendingLog.message (p : AppNarodmonPendingLog) : Option Bytes :=
  match p.event with
  | .dnsError => some (ascii "Narodmon send failed: DNS lookup error")
  | .connectError => some (ascii "Narodmon send failed: connect error " ++ signedDecimal p.error)
  | .writeError => some (ascii "Narodmon send failed: tcp_write error " ++ signedDecimal p.error)
  | .recvError => some (ascii "Narodmon send failed: recv error " ++ signedDecimal p.error)
  | .tcpError => some (ascii "Narodmon send failed: tcp error " ++ signedDecimal p.error)
  | .sendOk => some (ascii "Narodmon send OK: " ++ decimal p.payloadLen.toNat ++ ascii " bytes")
  | .none => none

def appNarodmonFlushLog (n : AppNarodmon) : AppNarodmon :=
  let flushed := { n with pendingLog := { n.pendingLog with event := .none } }
  match n.pendingLog.message with
  | some message => logMessage message flushed
  | none => flushed

def appNarodmonResetState (n : AppNarodmon) : AppNarodmon := { n with state := .zero }

/-- The callbacks are taken off the pcb before it is closed, so closing it calls none. -/
def appNarodmonFinish (ok : Bool) (message : Option Bytes) (n : AppNarodmon) : AppNarodmon :=
  let n := if message.isSome && ok then appNarodmonDeferLog .sendOk 0 n.state.payloadLen n else n
  appNarodmonResetState n

def appNarodmonSendNextChunk (r : TcpResults) (n : AppNarodmon) : ErrT × AppNarodmon :=
  if !n.state.pcb then (ERR_CLSD, n)
  else
    let remaining := n.state.payloadLen - n.state.sentOffset
    if remaining = 0 then (ERR_OK, n)
    else
      let sndbuf := UInt16.ofNat r.sndbuf
      let chunkLen := if sndbuf < remaining then sndbuf else remaining
      if chunkLen = 0 then (ERR_OK, n)
      else
        let n := { n with writes :=
          n.writes ++ [(n.state.payload.drop n.state.sentOffset.toNat).take chunkLen.toNat] }
        if r.write ≠ ERR_OK then (r.write, n)
        else (r.output, { n with state := { n.state with sentOffset := n.state.sentOffset + chunkLen } })

/-- What `connected_cb` and `sent_cb` have in common. -/
def sendOrFinish (r : TcpResults) (n : AppNarodmon) : AppNarodmon :=
  let (err, n) := appNarodmonSendNextChunk r n
  if err ≠ ERR_OK then appNarodmonFinish false none (appNarodmonDeferLog .writeError err 0 n) else n

def appNarodmonConnectedCb (err : ErrT) (r : TcpResults) (n : AppNarodmon) : AppNarodmon :=
  if err ≠ ERR_OK then appNarodmonFinish false none (appNarodmonDeferLog .connectError err 0 n)
  else sendOrFinish r { n with state := { n.state with connected := true } }

/-- The number of bytes acknowledged is not looked at. -/
def appNarodmonSentCb (_len : UInt16) (r : TcpResults) (n : AppNarodmon) : AppNarodmon :=
  if n.state.sentOffset ≥ n.state.payloadLen then appNarodmonFinish true (some (ascii "Narodmon send OK")) n
  else sendOrFinish r n

def appNarodmonRecvCb (err : ErrT) (n : AppNarodmon) : AppNarodmon :=
  if err ≠ ERR_OK then appNarodmonFinish false none (appNarodmonDeferLog .recvError err 0 n) else n

def appNarodmonPollCb (n : AppNarodmon) : AppNarodmon := n

def appNarodmonErrCb (err : ErrT) (n : AppNarodmon) : AppNarodmon :=
  appNarodmonResetState (appNarodmonDeferLog .tcpError err 0 { n with state := { n.state with pcb := false } })

/-- `tcp_abort`, which calls the error callback of the pcb. -/
def tcpAbort (n : AppNarodmon) : AppNarodmon := appNarodmonErrCb ERR_ABRT n

/-- `tcpNew` and `connect` are what `tcp_new_ip_type` and `tcp_connect` return. -/
def appNarodmonStartConnect (tcpNew : Bool) (connect : ErrT) (n : AppNarodmon) : Bool × AppNarodmon :=
  if !tcpNew then (false, appNarodmonResetState (appNarodmonDeferLog .connectError ERR_MEM 0 n))
  else
    let n := { n with state := { n.state with pcb := true } }
    if connect ≠ ERR_OK then
      (false, appNarodmonResetState (tcpAbort (appNarodmonDeferLog .connectError connect 0 n)))
    else (true, n)

def appNarodmonDnsFoundCb (ipaddr : Option IpAddr) (tcpNew : Bool) (connect : ErrT) (n : AppNarodmon) :
    AppNarodmon :=
  if !n.state.busy then n
  else
    let n := { n with state := { n.state with dnsPending := false } }
    match ipaddr with
    | none => appNarodmonResetState (appNarodmonDeferLog .dnsError 0 0 n)
    | some _ => (appNarodmonStartConnect tcpNew connect n).2

/-- `built` is the payload, or `none` for a negative result; `dns` is what
`dns_gethostbyname` returns. -/
def appNarodmonStartSend (built : Option Bytes) (nowMs : UInt32) (dns : ErrT) (tcpNew : Bool) (connect : ErrT)
    (n : AppNarodmon) : Bool × AppNarodmon :=
  if n.state.busy then (false, n)
  else
    let n := logMessage (ascii "Narodmon payload build started") n
    match built with
    | none => (false, logMessage (ascii "Narodmon send skipped: unable to build payload") n)
    | some payload =>
      if payload.length = 0 then (false, logMessage (ascii "Narodmon send skipped: no measurements") n)
      else
        let n := { n with state := { n.state with
          busy := true
          payload := payload
          payloadLen := UInt16.ofNat payload.length
          sentOffset := 0
          deadlineMs := nowMs + APP_NARODMON_TIMEOUT_MS } }
        let n :=
          logMessage (ascii "Narodmon send started: " ++ decimal n.state.payloadLen.toNat ++ ascii " bytes") n
        if dns = ERR_OK then appNarodmonStartConnect tcpNew connect n
        else if dns = ERR_INPROGRESS then (true, { n with state := { n.state with dnsPending := true } })
        else (false, appNarodmonResetState
          (logMessage (ascii "Narodmon send failed: DNS lookup error " ++ signedDecimal dns) n))

def appNarodmonPoll (nowMs : UInt32) (n : AppNarodmon) : AppNarodmon :=
  let n := appNarodmonFlushLog n
  if !n.state.busy then n
  else if timeDue nowMs n.state.deadlineMs then
    let n := logMessage (ascii "Narodmon send failed: timeout") n
    appNarodmonResetState (if n.state.pcb then tcpAbort n else n)
  else n

end BLEBridge
