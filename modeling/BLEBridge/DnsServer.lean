import BLEBridge.DhcpServer
/-!
# The DNS server

`dnsserver/dnsserver.c`, which answers every question with the address of the
bridge. A query is copied to `dnsMsg` on the stack and its answer is written after
the question; a query that is cut short is answered too, with what the stack holds
where the question should stand (`dns_reply_parts`).
-/
open Lib

namespace BLEBridge

def MAX_DNS_MSG_SIZE : Nat := 300

/-! ## `dns_header_t` -/

def SIZEOF_DNS_HEADER : Nat := 12
def DNS_FLAGS : Nat := 2
def DNS_QUESTION_COUNT : Nat := 4
def DNS_ANSWER_RECORD_COUNT : Nat := 6
def DNS_AUTHORITY_RECORD_COUNT : Nat := 8
def DNS_ADDITIONAL_RECORD_COUNT : Nat := 10

/-- The number at `i`, the high byte first. -/
def lwipNtohs (m : Mem) (i : Nat) : UInt16 := UInt16.ofNat (256 * (m i).toNat + (m (i + 1)).toNat)

def lwipHtons (x : UInt16) : Bytes := [(x >>> 8).toUInt8, x.toUInt8]

/-! ## A query -/

/-- Where the name ends that starts at `ptr`. The last label may reach over the end
of the message. -/
def questionEnd (m : Mem) (stop ptr : Nat) : Option Nat :=
  if ptr < stop then
    if m ptr = 0 then some (ptr + 1)
    else if (m ptr).toNat > 63 then none
    else questionEnd m stop (ptr + 1 + (m ptr).toNat)
  else some ptr
termination_by stop - ptr

/-- The answer written at `ptr`, after the question, with where it ends. -/
def dnsAnswer (m : Mem) (ip : Ip4) (ptr : Nat) : Mem × Nat :=
  let m := put m ptr [0xc0, UInt8.ofNat SIZEOF_DNS_HEADER, 0, 1, 0, 1, 0, 0, 0, 60, 0, 4]
  let m := put m (ptr + 12) ip.toList
  let m := put m DNS_FLAGS (lwipHtons ((0x1 : UInt16) <<< 15 ||| (0x1 : UInt16) <<< 10 ||| (0x1 : UInt16) <<< 7))
  let m := put m DNS_QUESTION_COUNT (lwipHtons 1)
  let m := put m DNS_ANSWER_RECORD_COUNT (lwipHtons 1)
  let m := put m DNS_AUTHORITY_RECORD_COUNT [0, 0]
  let m := put m DNS_ADDITIONAL_RECORD_COUNT [0, 0]
  (m, ptr + 16)

/-- Where the type and the class of the question end, in a message that is answered. -/
def dnsQuestion (m : Mem) (msgLen : Nat) : Option Nat :=
  if msgLen < SIZEOF_DNS_HEADER then none
  else
    let flags := lwipNtohs m DNS_FLAGS
    let questionCount := lwipNtohs m DNS_QUESTION_COUNT
    if flags >>> 15 &&& 0x1 ≠ 0 then none
    else if flags >>> 11 &&& 0xf ≠ 0 then none
    else if questionCount < 1 then none
    else
      match questionEnd m msgLen SIZEOF_DNS_HEADER with
      | none => none
      | some ptr => if ptr - SIZEOF_DNS_HEADER > 255 then none else some (ptr + 4)

/-- The stack from `dns_msg` on when the reply is sent, with its length. -/
def dnsMsg (stack : Mem) (p : Bytes) (ip : Ip4) : Option (Mem × Nat) :=
  let m := put stack 0 (p.take MAX_DNS_MSG_SIZE)
  let msgLen := (p.take MAX_DNS_MSG_SIZE).length
  (dnsQuestion m msgLen).map (dnsAnswer m ip)

def dnsServerProcess (stack : Mem) (p : Bytes) (ip : Ip4) : Option Bytes :=
  (dnsMsg stack p ip).map fun r => read r.1 0 r.2

end BLEBridge
