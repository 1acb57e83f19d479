import BLEBridge.DhcpReply
import BLEBridge.Lib.Slots
/-!
# The messages of DHCP clients

A message as a client writes it: the header, options without padding between them,
and what may follow their end. The server does what the fields of the message say
(`dhcp_message_served`), whatever its stack holds.
-/
open Lib

namespace BLEBridge

/-- A message whose options stand whole in the part that is looked at. -/
structure DhcpMessage where
  header : Bytes
  options : List Tlv
  rest : Bytes
  type : UInt8
  requested : Option Ip4
  header_length : header.length = 240
  options_valid : ∀ t ∈ options, t.Valid DHCP_OPT_END
  options_fit : (tlvBytes options).length < 308
  type_option : (options.find? (·.tag = DHCP_OPT_MSG_TYPE)).map Tlv.value = some [type]
  requested_option : (options.find? (·.tag = DHCP_OPT_REQUESTED_IP)).map Tlv.value = requested.map Vector.toList

def DhcpMessage.bytes (msg : DhcpMessage) : Bytes :=
  msg.header ++ tlvBytes msg.options ++ DHCP_OPT_END :: msg.rest

/-- The hardware address of the client that sent the packet. -/
def packetClient (p : Bytes) : Mac := .ofFn fun i => p.getD (DHCP_MSG_CHADDR + i) 0

/-- The slot of an address. -/
def slotOf (d : DhcpServer) (address : Ip4) : Option (Fin DHCPS_MAX_IP) :=
  (List.finRange DHCPS_MAX_IP).find? fun yi => slotAddress d yi = address.toList

/-- The answer, made of the fields of the message. -/
def DhcpMessage.answer (msg : DhcpMessage) (d : DhcpServer) (yi : Fin DHCPS_MAX_IP) (msgType : UInt8) : Bytes :=
  [DHCPOFFER] ++ slice msg.header 1 15 ++ slotAddress d yi ++ slice msg.header 20 220 ++
    tlvBytes (replyOptions d msgType) ++ [DHCP_OPT_END]

/-- What the server is to do with the message. -/
def DhcpMessage.serve (msg : DhcpMessage) (ticks : Nat → UInt32) (d : DhcpServer) : Option Bytes × DhcpServer :=
  let client := packetClient msg.header
  if msg.type = DHCPDISCOVER then
    let r := discoverLoop client ticks (List.finRange DHCPS_MAX_IP) none d.lease
    (r.1.map fun yi => msg.answer d yi DHCPOFFER, { d with lease := r.2 })
  else if msg.type = DHCPREQUEST then
    match (msg.requested.bind (slotOf d)).filter fun yi => (d.lease yi).mac = client ∨
      (d.lease yi).mac = Mac.zero with
    | none => (none, d)
    | some yi =>
      (some (msg.answer d yi DHCPACK),
        { d with lease := Function.update d.lease yi ⟨client, leaseExpiry (ticks 0)⟩ })
  else (none, d)

/-! ## The message on the stack -/

/-- `dhcp_msg` when the options are looked at. -/
def dhcpMsg (stack : Mem) (p : Bytes) (d : DhcpServer) : Mem :=
  put (put (put stack 0 (p.take SIZEOF_DHCP_MSG)) DHCP_MSG_OP [DHCPOFFER]) DHCP_MSG_YIADDR d.ip.toList

variable {stack : Mem} {p : Bytes} {d : DhcpServer}

/-- The part of the packet that stands unchanged on the stack. -/
theorem dhcpMsg_byte {i : Nat} (hi : 1 ≤ i ∧ i < 16 ∨ 20 ≤ i) (hlen : i < p.length)
    (hsize : i < SIZEOF_DHCP_MSG) : dhcpMsg stack p d i = p.getD i 0 := by
  have htake : i < (p.take SIZEOF_DHCP_MSG).length := by
    rw [List.length_take]
    exact lt_min hsize hlen
  unfold dhcpMsg
  rw [put_outside, put_outside, ← Nat.zero_add i, put_inside htake, List.getElem_take, Nat.zero_add,
    getD_of_lt p i 0 hlen]
  · right
    exact show 0 + 1 ≤ i by omega
  · rw [ip4_length]
    exact show i < 16 ∨ 16 + 4 ≤ i by omega

theorem dhcpMsg_read {off n : Nat} (hoff : 1 ≤ off ∧ off + n ≤ 16 ∨ 20 ≤ off) (hlen : off + n ≤ p.length)
    (hsize : off + n ≤ SIZEOF_DHCP_MSG) : read (dhcpMsg stack p d) off n = slice p off n := by
  refine read_eq_of_getD (slice_length p off n hlen) 0 fun i hi => ?_
  rw [slice_getD p off n i hi]
  exact dhcpMsg_byte (by omega) (by omega) (by omega)

theorem dhcpMsg_op : read (dhcpMsg stack p d) 0 1 = [DHCPOFFER] := by
  unfold dhcpMsg
  rw [read_put_outside (.inl (by decide))]
  exact read_put_self _ _ _

theorem dhcpMsg_yiaddr (stack : Mem) (p : Bytes) (d : DhcpServer) :
    read (dhcpMsg stack p d) 16 4 = d.ip.toList := by
  have hself := read_put_self (put (put stack 0 (p.take SIZEOF_DHCP_MSG)) DHCP_MSG_OP [DHCPOFFER])
    DHCP_MSG_YIADDR d.ip.toList
  rw [ip4_length] at hself
  exact hself

theorem chaddr_eq (hlen : DHCP_MIN_SIZE ≤ p.length) : chaddr (dhcpMsg stack p d) = packetClient p := by
  have hmin : DHCP_MIN_SIZE = 243 := rfl
  have hmac : MAC_LEN = 6 := rfl
  have hoff : DHCP_MSG_CHADDR = 28 := rfl
  have hsize : SIZEOF_DHCP_MSG = 548 := rfl
  unfold chaddr packetClient
  congr 1
  funext i
  have hi := i.isLt
  exact dhcpMsg_byte (by omega) (by omega) (by omega)

theorem process_eq (ticks : Nat → UInt32) (hlen : DHCP_MIN_SIZE ≤ p.length) :
    dhcpServerProcess ticks stack p d =
      match optFind (dhcpMsg stack p d) 240 DHCP_OPT_MSG_TYPE with
      | none => (none, d)
      | some msgtype =>
        if dhcpMsg stack p d (msgtype + 2) = DHCPDISCOVER then
          let r := discoverLoop (packetClient p) ticks (List.finRange DHCPS_MAX_IP) none d.lease
          (r.1.map fun yi => dhcpReply d (dhcpMsg stack p d) yi DHCPOFFER, { d with lease := r.2 })
        else if dhcpMsg stack p d (msgtype + 2) = DHCPREQUEST then
          match (optFind (dhcpMsg stack p d) 240 DHCP_OPT_REQUESTED_IP).bind
            (requestSlot d (dhcpMsg stack p d)) with
          | none => (none, d)
          | some yi =>
            (some (dhcpReply d (dhcpMsg stack p d) yi DHCPACK),
              { d with lease := Function.update d.lease yi ⟨packetClient p, leaseExpiry (ticks 0)⟩ })
        else (none, d) := by
  unfold dhcpServerProcess
  rw [if_neg (Nat.not_lt.2 hlen), ← chaddr_eq hlen]
  rfl

/-- The answer to a packet, as the packet has it. -/
theorem dhcpReply_packet (hlen : DHCP_MIN_SIZE ≤ p.length) (yi : Fin DHCPS_MAX_IP) (msgType : UInt8) :
    dhcpReply d (dhcpMsg stack p d) yi msgType =
      [DHCPOFFER] ++ slice p 1 15 ++ slotAddress d yi ++ slice p 20 220 ++ tlvBytes
      (replyOptions d msgType) ++ [DHCP_OPT_END] := by
  have hmin : DHCP_MIN_SIZE = 243 := rfl
  have hsize : SIZEOF_DHCP_MSG = 548 := rfl
  have hfirst : read (dhcpMsg stack p d) 0 19 = [DHCPOFFER] ++ slice p 1 15 ++ d.ip.toList.take 3 := by
    rw [show (19 : Nat) = 1 + 15 + 3 from rfl, read_append, read_append, dhcpMsg_op,
      dhcpMsg_read (by omega) (by omega) (by omega)]
    congr 1
    rw [← dhcpMsg_yiaddr stack p d]
    exact (read_take _ 16 4 3 (by decide)).symm
  rw [dhcpReply_eq, hfirst, dhcpMsg_read (by omega) (by omega) (by omega)]
  unfold slotAddress
  simp only [List.append_assoc]

/-! ## The address that is asked for -/

theorem baseIp_add (yi : Fin DHCPS_MAX_IP) : (DHCPS_BASE_IP + UInt8.ofNat yi).toNat = 16 + yi := by
  have hlt : yi.val < 8 := yi.isLt
  rw [UInt8.toNat_add, UInt8.toNat_ofNat_of_lt' (show yi.val < UInt8.size from hlt.trans (by decide))]
  exact Nat.mod_eq_of_lt (show 16 + yi.val < 256 by omega)

theorem slotAddress_eq_iff {yi : Fin DHCPS_MAX_IP} {a : Ip4} :
    slotAddress d yi = a.toList ↔ a.toList.take 3 = d.ip.toList.take 3 ∧ a[3].toNat = 16 + yi := by
  have hsplit : a.toList = a.toList.take 3 ++ [a[3]] := by
    conv_lhs => rw [← List.take_append_drop 3 a.toList]
    congr 1
    rw [List.drop_eq_getElem_cons (by rw [ip4_length]; decide), List.drop_eq_nil_of_le (by rw [ip4_length])]
    rfl
  have hlength : (d.ip.toList.take 3).length = (a.toList.take 3).length := by
    rw [List.length_take, List.length_take, ip4_length, ip4_length]
  unfold slotAddress
  rw [hsplit]
  constructor
  · intro h
    obtain ⟨hip, hlast⟩ := List.append_inj h (by rw [hlength])
    rw [← hsplit, hip, ← List.singleton_inj.1 hlast, baseIp_add]
    exact ⟨rfl, rfl⟩
  · rintro ⟨hip, hlast⟩
    rw [← hsplit] at hip
    rw [hip, ← UInt8.toNat_inj.1 ((baseIp_add yi).trans hlast.symm)]

theorem slotAddress_injective {yi yi' : Fin DHCPS_MAX_IP} (h : slotAddress d yi = slotAddress d yi') :
    yi = yi' := by
  have hlast := List.singleton_inj.1 (List.append_inj h rfl).2
  have hnat := congrArg UInt8.toNat hlast
  rw [baseIp_add, baseIp_add] at hnat
  exact Fin.ext (by omega)

theorem slotOf_eq_some_iff {yi : Fin DHCPS_MAX_IP} {a : Ip4} :
    slotOf d a = some yi ↔ slotAddress d yi = a.toList := by
  unfold slotOf
  rw [find_finRange, decide_eq_true_iff]
  refine ⟨fun h => h.1, fun h => ⟨h, fun j hj => ?_⟩⟩
  rw [decide_eq_false_iff_not]
  intro hj'
  exact (ne_of_lt hj) (slotAddress_injective (hj'.trans h.symm))

/-- The code finds the slot of the address, and looks at who has it. -/
theorem requestSlot_eq {m : Mem} {o : Nat} {a : Ip4} (ho : read m (o + 2) 4 = a.toList) :
    requestSlot d m o = (slotOf d a).filter fun yi => (d.lease yi).mac = chaddr m ∨
      (d.lease yi).mac = Mac.zero := by
  have hthree : read m (o + 2) 3 = a.toList.take 3 := by
    rw [← ho, read_take m (o + 2) 4 3 (by decide)]
  have hlast : m (o + 5) = a[3] := by
    have hget := read_getElem? m (o + 2) (show 3 < 4 by decide)
    rw [ho] at hget
    have hthird : a.toList[3]? = some a[3] := by
      rw [List.getElem?_eq_getElem (by rw [ip4_length]; decide)]
      rfl
    exact (Option.some.inj (hthird.symm.trans hget)).symm
  unfold requestSlot
  rw [hthree, hlast]
  by_cases hip : a.toList.take 3 = d.ip.toList.take 3
  · rw [if_neg (not_not.2 hip)]
    dsimp only
    have hbase : DHCPS_BASE_IP.toNat = 16 := rfl
    have hmax : DHCPS_MAX_IP = 8 := rfl
    have hlt := a[3].toNat_lt
    have hsub : (a[3] - DHCPS_BASE_IP).toNat = (2 ^ 8 - 16 + a[3].toNat) % 2 ^ 8 := by rw [UInt8.toNat_sub, hbase]
    by_cases hyi : (a[3] - DHCPS_BASE_IP).toNat < DHCPS_MAX_IP
    · have hslot : slotOf d a = some ⟨_, hyi⟩ :=
        slotOf_eq_some_iff.2 (slotAddress_eq_iff.2 ⟨hip, by dsimp only; omega⟩)
      rw [dif_pos hyi, hslot]
      simp only [Option.filter_some, decide_eq_true_eq]
    · have hslot : slotOf d a = none := by
        rw [← Option.not_isSome_iff_eq_none, Option.isSome_iff_exists]
        rintro ⟨yi, h⟩
        have hnat := (slotAddress_eq_iff.1 (slotOf_eq_some_iff.1 h)).2
        have := yi.isLt
        omega
      rw [dif_neg hyi, hslot]
      rfl
  · have hslot : slotOf d a = none := by
      rw [← Option.not_isSome_iff_eq_none, Option.isSome_iff_exists]
      rintro ⟨yi, h⟩
      exact hip (slotAddress_eq_iff.1 (slotOf_eq_some_iff.1 h)).1
    rw [if_pos hip, hslot]
    rfl

/-! ## The message as it is read -/

namespace DhcpMessage
variable (msg : DhcpMessage)

theorem bytes_slice {off n : Nat} (h : off + n ≤ 240) : slice msg.bytes off n = slice msg.header off n := by
  unfold bytes
  rw [List.append_assoc]
  exact slice_append_left (by rw [msg.header_length]; exact h)

theorem bytes_options : slice msg.bytes 240 (tlvBytes msg.options).length = tlvBytes msg.options := by
  unfold bytes
  rw [List.append_assoc, slice_append_right msg.header_length.le, msg.header_length, slice_append_left (by omega)]
  unfold slice
  rw [List.drop_zero, List.take_length]

theorem bytes_length : msg.bytes.length = 240 + (tlvBytes msg.options).length + 1 + msg.rest.length := by
  unfold bytes
  rw [List.length_append, List.length_append, List.length_cons, msg.header_length]
  omega

theorem bytes_end : msg.bytes.getD (240 + (tlvBytes msg.options).length) 0 = DHCP_OPT_END := by
  have hlength : (msg.header ++ tlvBytes msg.options).length = 240 + (tlvBytes msg.options).length := by
    rw [List.length_append, msg.header_length]
  unfold bytes
  rw [List.getD_append_right _ _ _ _ hlength.le, hlength, Nat.sub_self]
  rfl

theorem found {tag : UInt8} {value : Bytes} (h : (msg.options.find? (·.tag = tag)).map Tlv.value = some value) :
    ∃ t, msg.options.find? (·.tag = tag) = some t ∧ t.value = value := Option.map_eq_some_iff.1 h

theorem min_size : DHCP_MIN_SIZE ≤ msg.bytes.length := by
  have hmin : DHCP_MIN_SIZE = 243 := rfl
  obtain ⟨t, ht, -⟩ := msg.found msg.type_option
  have hrecord : t.bytes.length ≤ (tlvBytes msg.options).length := by
    unfold tlvBytes
    rw [List.length_flatMap]
    exact List.single_le_sum (fun _ _ => Nat.zero_le _) _ (List.mem_map_of_mem (List.mem_of_find?_eq_some ht))
  have hlength := tlv_length t
  have hbytes := msg.bytes_length
  omega

/-- The server finds the options of the message. -/
theorem optFind_message (cmd : UInt8) :
    (msg.options.find? (·.tag = cmd) = none → optFind (dhcpMsg stack msg.bytes d) 240 cmd = none) ∧
      ∀ t, msg.options.find? (·.tag = cmd) = some t →
        ∃ k, optFind (dhcpMsg stack msg.bytes d) 240 cmd = some k ∧ FoundAt (dhcpMsg stack msg.bytes d) t k := by
  have hfit := msg.options_fit
  have hlength := msg.bytes_length
  have hsize : SIZEOF_DHCP_MSG = 548 := rfl
  have hread : read (dhcpMsg stack msg.bytes d) 240 (tlvBytes msg.options).length = tlvBytes msg.options := by
    rw [dhcpMsg_read (by omega) (by omega) (by omega)]
    exact msg.bytes_options
  have hend : dhcpMsg stack msg.bytes d (240 + (tlvBytes msg.options).length) = DHCP_OPT_END := by
    rw [dhcpMsg_byte (by omega) (by omega) (by omega)]
    exact msg.bytes_end
  have hlimit : 240 + (tlvBytes msg.options).length ≤ 240 + 308 := by omega
  obtain ⟨hnone, hsome⟩ := scanTlv_records cmd msg.options_valid hread hlimit fun _ => hend
  refine ⟨hnone, fun t ht => ?_⟩
  obtain ⟨k, hscan, hat, -, -⟩ := hsome t ht
  exact ⟨k, hscan, hat⟩

theorem reply_eq (yi : Fin DHCPS_MAX_IP) (msgType : UInt8) :
    dhcpReply d (dhcpMsg stack msg.bytes d) yi msgType = msg.answer d yi msgType := by
  rw [dhcpReply_packet msg.min_size, msg.bytes_slice (by decide), msg.bytes_slice (by decide)]
  rfl

theorem client_eq : packetClient msg.bytes = packetClient msg.header := by
  unfold packetClient
  congr 1
  funext i
  have hi : i.val < 6 := i.isLt
  have hslice := congrArg (fun s : Bytes => s.getD i 0) (msg.bytes_slice (show 28 + 6 ≤ 240 by decide))
  rwa [slice_getD _ _ _ _ hi, slice_getD _ _ _ _ hi] at hslice

end DhcpMessage

theorem message_served (ticks : Nat → UInt32) (stack : Mem) (msg : DhcpMessage) (d : DhcpServer) :
    dhcpServerProcess ticks stack msg.bytes d = msg.serve ticks d := by
  obtain ⟨t, htype, hvalue⟩ := msg.found msg.type_option
  obtain ⟨k, hfind, hat⟩ := (msg.optFind_message DHCP_OPT_MSG_TYPE).2 t htype
  have hmsgtype : dhcpMsg stack msg.bytes d (k + 2) = msg.type := by
    have hread := hat.value
    rw [hvalue] at hread
    exact List.singleton_inj.1 hread
  rw [process_eq ticks msg.min_size, hfind]
  dsimp only
  unfold DhcpMessage.serve
  rw [hmsgtype, msg.client_eq]
  simp only [msg.reply_eq]
  congr 2
  -- The address that is asked for.
  have hslot : (optFind (dhcpMsg stack msg.bytes d) 240 DHCP_OPT_REQUESTED_IP).bind
    (requestSlot d (dhcpMsg stack msg.bytes d)) =
      (msg.requested.bind (slotOf d)).filter fun yi =>
        (d.lease yi).mac = packetClient msg.header ∨ (d.lease yi).mac = Mac.zero := by
    cases hrequested : msg.requested with
    | none =>
      have hoption := msg.requested_option
      rw [hrequested, Option.map_none, Option.map_eq_none_iff] at hoption
      rw [(msg.optFind_message DHCP_OPT_REQUESTED_IP).1 hoption]
      rfl
    | some a =>
      have hoption := msg.requested_option
      rw [hrequested, Option.map_some] at hoption
      obtain ⟨t, ht, ha⟩ := msg.found hoption
      obtain ⟨o, ho, hat⟩ := (msg.optFind_message DHCP_OPT_REQUESTED_IP).2 t ht
      have hread := hat.value
      rw [ha, ip4_length] at hread
      rw [ho, Option.bind_some, Option.bind_some, requestSlot_eq hread, chaddr_eq msg.min_size, msg.client_eq]
  rw [hslot]

end BLEBridge
