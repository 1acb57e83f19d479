import Mathlib.Data.List.FinRange
import BLEBridge.Lib.Tlv
/-!
# The DHCP server

`dhcpserver/dhcpserver.c`, which gives the clients of the access point their
addresses. A request is copied to `dhcp_msg` on the stack, changed in place and
sent back; what the stack holds beside it is an argument, as are the readings of
`cyw43_hal_ticks_ms`.
-/
open Lib

namespace BLEBridge

def DHCPDISCOVER : UInt8 := 1
def DHCPOFFER : UInt8 := 2
def DHCPREQUEST : UInt8 := 3
def DHCPACK : UInt8 := 5

def DHCP_OPT_SUBNET_MASK : UInt8 := 1
def DHCP_OPT_ROUTER : UInt8 := 3
def DHCP_OPT_DNS : UInt8 := 6
def DHCP_OPT_REQUESTED_IP : UInt8 := 50
def DHCP_OPT_IP_LEASE_TIME : UInt8 := 51
def DHCP_OPT_MSG_TYPE : UInt8 := 53
def DHCP_OPT_SERVER_ID : UInt8 := 54
def DHCP_OPT_END : UInt8 := 255

def DEFAULT_LEASE_TIME_S : UInt32 := 24 * 60 * 60

def MAC_LEN : Nat := 6
def DHCP_MIN_SIZE : Nat := 240 + 3
def DHCPS_BASE_IP : UInt8 := 16
def DHCPS_MAX_IP : Nat := 8

/-- The bytes of an address in memory. -/
abbrev Ip4 := Vector UInt8 4

abbrev Mac := Vector UInt8 MAC_LEN

def Mac.zero : Mac := .replicate MAC_LEN 0

structure DhcpServerLease where
  mac : Mac
  expiry : UInt16

/-- `dhcp_server_t`, without the socket. -/
structure DhcpServer where
  ip : Ip4
  nm : Ip4
  lease : Fin DHCPS_MAX_IP → DhcpServerLease

/-! ## `dhcp_msg_t` -/

def SIZEOF_DHCP_MSG : Nat := 548
def DHCP_MSG_OP : Nat := 0
def DHCP_MSG_YIADDR : Nat := 16
def DHCP_MSG_CHADDR : Nat := 28
def DHCP_MSG_OPTIONS : Nat := 236

/-- The first six bytes of `chaddr`. -/
def chaddr (m : Mem) : Mac := .ofFn fun i => m (DHCP_MSG_CHADDR + i)

/-- Where the option starts. The option after it is looked for at its length, also
for the padding that has none. -/
def optFind (m : Mem) (opt : Nat) (cmd : UInt8) : Option Nat := scanTlv m DHCP_OPT_END cmd (opt + 308) opt

/-- The message and where the next option is written. -/
structure OptWriter where
  msg : Mem
  opt : Nat

def optWriteN (cmd : UInt8) (data : Bytes) (w : OptWriter) : OptWriter :=
  ⟨put w.msg w.opt (cmd :: UInt8.ofNat data.length :: data), w.opt + 2 + data.length⟩

def optWriteU8 (cmd val : UInt8) (w : OptWriter) : OptWriter := ⟨put w.msg w.opt [cmd, 1, val], w.opt + 3⟩

def optWriteU32 (cmd : UInt8) (val : UInt32) (w : OptWriter) : OptWriter :=
  ⟨put w.msg w.opt [cmd, 4, (val >>> 24).toUInt8, (val >>> 16).toUInt8, (val >>> 8).toUInt8, val.toUInt8],
    w.opt + 6⟩

/-! ## The requests -/

/-- The difference is negative as an `int32_t`. -/
def DhcpServerLease.expired (l : DhcpServerLease) (nowMs : UInt32) : Bool :=
  let expiry := l.expiry.toUInt32 <<< 16 ||| 0xffff
  2 ^ 31 ≤ (expiry - nowMs).toNat

/-- The loop of `DHCPDISCOVER`, from a list of slots on: the slot that is offered,
and the leases, of which one that has run out may have lost its client. -/
def discoverLoop (mac : Mac) (ticks : Nat → UInt32) :
    List (Fin DHCPS_MAX_IP) → Option (Fin DHCPS_MAX_IP) → (Fin DHCPS_MAX_IP → DhcpServerLease) →
      Option (Fin DHCPS_MAX_IP) × (Fin DHCPS_MAX_IP → DhcpServerLease)
  | [], yi, lease => (yi, lease)
  | i :: is, yi, lease =>
    if (lease i).mac = mac then (some i, lease)
    else
      match yi with
      | some yi => discoverLoop mac ticks is (some yi) lease
      | none =>
        let yi := if (lease i).mac = Mac.zero then some i else none
        if (lease i).expired (ticks i) then
          discoverLoop mac ticks is (some i) (Function.update lease i { lease i with mac := Mac.zero })
        else discoverLoop mac ticks is yi lease

/-- The slot that `DHCPREQUEST` gives or leaves to the client, for the address in
the option at `o`. -/
def requestSlot (d : DhcpServer) (m : Mem) (o : Nat) : Option (Fin DHCPS_MAX_IP) :=
  if read m (o + 2) 3 ≠ d.ip.toList.take 3 then none
  else
    let yi := m (o + 5) - DHCPS_BASE_IP
    if h : yi.toNat < DHCPS_MAX_IP then
      let mac := (d.lease ⟨yi.toNat, h⟩).mac
      if mac = chaddr m ∨ mac = Mac.zero then some ⟨yi.toNat, h⟩ else none
    else none

def leaseExpiry (nowMs : UInt32) : UInt16 := ((nowMs + DEFAULT_LEASE_TIME_S * 1000) >>> 16).toUInt16

/-- The answer given to `dhcp_socket_sendto`. -/
def dhcpReply (d : DhcpServer) (m : Mem) (yi : Fin DHCPS_MAX_IP) (msgType : UInt8) : Bytes :=
  let m := put m (DHCP_MSG_YIADDR + 3) [DHCPS_BASE_IP + UInt8.ofNat yi]
  let w := optWriteU8 DHCP_OPT_MSG_TYPE msgType ⟨m, DHCP_MSG_OPTIONS + 4⟩
  let w := optWriteN DHCP_OPT_SERVER_ID d.ip.toList w
  let w := optWriteN DHCP_OPT_SUBNET_MASK d.nm.toList w
  let w := optWriteN DHCP_OPT_ROUTER d.ip.toList w
  let w := optWriteN DHCP_OPT_DNS d.ip.toList w
  let w := optWriteU32 DHCP_OPT_IP_LEASE_TIME DEFAULT_LEASE_TIME_S w
  read (put w.msg w.opt [DHCP_OPT_END]) 0 (w.opt + 1)

/-- `ticks i` is the clock as it is read at slot `i`, and `ticks 0` when a request is
granted. -/
def dhcpServerProcess (ticks : Nat → UInt32) (stack : Mem) (p : Bytes) (d : DhcpServer) :
    Option Bytes × DhcpServer :=
  if p.length < DHCP_MIN_SIZE then (none, d)
  else
    let m := put stack 0 (p.take SIZEOF_DHCP_MSG)
    let m := put m DHCP_MSG_OP [DHCPOFFER]
    let m := put m DHCP_MSG_YIADDR d.ip.toList
    let opt := DHCP_MSG_OPTIONS + 4
    match optFind m opt DHCP_OPT_MSG_TYPE with
    | none => (none, d)
    | some msgtype =>
      if m (msgtype + 2) = DHCPDISCOVER then
        let r := discoverLoop (chaddr m) ticks (List.finRange DHCPS_MAX_IP) none d.lease
        (r.1.map fun yi => dhcpReply d m yi DHCPOFFER, { d with lease := r.2 })
      else if m (msgtype + 2) = DHCPREQUEST then
        match (optFind m opt DHCP_OPT_REQUESTED_IP).bind (requestSlot d m) with
        | none => (none, d)
        | some yi =>
          let lease := Function.update d.lease yi ⟨chaddr m, leaseExpiry (ticks 0)⟩
          (some (dhcpReply d m yi DHCPACK), { d with lease := lease })
      else (none, d)

def dhcpServerInit (ip nm : Ip4) : DhcpServer := ⟨ip, nm, fun _ => ⟨Mac.zero, 0⟩⟩

end BLEBridge
