import BLEBridge.DhcpServer
/-!
# What the DHCP server answers

Every answer is the request with the address it got, followed by the same options
(`dhcpReply_eq`), which a client finds by their tags (`datagramOption_reply`).
-/
open Lib

namespace BLEBridge

/-- The options of an answer. -/
def replyOptions (d : DhcpServer) (msgType : UInt8) : List Tlv :=
  [⟨DHCP_OPT_MSG_TYPE, [msgType]⟩, ⟨DHCP_OPT_SERVER_ID, d.ip.toList⟩, ⟨DHCP_OPT_SUBNET_MASK, d.nm.toList⟩,
    ⟨DHCP_OPT_ROUTER, d.ip.toList⟩, ⟨DHCP_OPT_DNS, d.ip.toList⟩, ⟨DHCP_OPT_IP_LEASE_TIME, [0, 1, 81, 128]⟩]

/-- The address of a slot. -/
def slotAddress (d : DhcpServer) (yi : Fin DHCPS_MAX_IP) : Bytes :=
  d.ip.toList.take 3 ++ [DHCPS_BASE_IP + UInt8.ofNat yi]

/-- The value of an option in a message, as its receiver reads it. -/
def datagramOption (r : Bytes) (cmd : UInt8) : Option Bytes :=
  (scanTlv (memOf r) DHCP_OPT_END cmd r.length (DHCP_MSG_OPTIONS + 4)).map fun o =>
    read (memOf r) (o + 2) (memOf r (o + 1)).toNat

/-- The message tells the client that it gets, or may have, the address. -/
structure DhcpAnswer (r : Bytes) (msgType : UInt8) (address : Bytes) (mac : Mac) : Prop where
  type : datagramOption r DHCP_OPT_MSG_TYPE = some [msgType]
  address : slice r DHCP_MSG_YIADDR 4 = address
  client : slice r DHCP_MSG_CHADDR MAC_LEN = mac.toList

variable {d : DhcpServer} {m : Mem} {yi : Fin DHCPS_MAX_IP} {msgType : UInt8}

/-! ## The options that are written -/

theorem optWriteN_read (cmd : UInt8) (data : Bytes) (w : OptWriter) :
    read (optWriteN cmd data w).msg 0 (optWriteN cmd data w).opt = read w.msg 0 w.opt ++
      Tlv.bytes ⟨cmd, data⟩ := by
  unfold optWriteN
  have hlength : (cmd :: UInt8.ofNat data.length :: data).length = 2 + data.length := by
    rw [List.length_cons, List.length_cons]
    omega
  have hself := read_put_self w.msg w.opt (cmd :: UInt8.ofNat data.length :: data)
  rw [hlength] at hself
  dsimp only
  rw [Nat.add_assoc, read_append, read_put_outside (.inl (Nat.zero_add _).le), Nat.zero_add, hself]
  rfl

theorem optWriteU8_eq (cmd val : UInt8) (w : OptWriter) : optWriteU8 cmd val w = optWriteN cmd [val] w := rfl

theorem optWriteU32_eq (cmd : UInt8) (val : UInt32) (w : OptWriter) : optWriteU32 cmd val w =
    optWriteN cmd [(val >>> 24).toUInt8, (val >>> 16).toUInt8, (val >>> 8).toUInt8, val.toUInt8] w := rfl

/-- The answer, byte by byte. -/
theorem dhcpReply_eq (d : DhcpServer) (m : Mem) (yi : Fin DHCPS_MAX_IP) (msgType : UInt8) :
    dhcpReply d m yi msgType =
      read m 0 19 ++ [DHCPS_BASE_IP + UInt8.ofNat yi] ++ read m 20 220 ++ tlvBytes (replyOptions d msgType) ++
        [DHCP_OPT_END] := by
  unfold dhcpReply
  dsimp only
  rw [read_append, read_put_outside (.inl (Nat.zero_add _).le), Nat.zero_add]
  have hend (m : Mem) (opt : Nat) : read (put m opt [DHCP_OPT_END]) opt 1 = [DHCP_OPT_END] := read_put_self _ _ _
  have hyiaddr : read (put m (DHCP_MSG_YIADDR + 3) [DHCPS_BASE_IP + UInt8.ofNat yi]) (DHCP_MSG_YIADDR + 3) 1 =
      [DHCPS_BASE_IP + UInt8.ofNat yi] := read_put_self _ _ _
  rw [hend, optWriteU32_eq, optWriteN_read, optWriteN_read, optWriteN_read, optWriteN_read, optWriteN_read,
    optWriteU8_eq, optWriteN_read]
  dsimp only
  have hheader : read (put m (DHCP_MSG_YIADDR + 3) [DHCPS_BASE_IP + UInt8.ofNat yi]) 0 (DHCP_MSG_OPTIONS + 4) =
      read m 0 19 ++ [DHCPS_BASE_IP + UInt8.ofNat yi] ++ read m 20 220 := by
    change read _ 0 (19 + 1 + 220) = _
    rw [read_append, read_append]
    change read _ 0 19 ++ read _ (DHCP_MSG_YIADDR + 3) 1 ++ read _ 20 220 = _
    rw [hyiaddr, read_put_outside (.inl (by decide)), read_put_outside (.inr (by exact Nat.le_refl 20))]
  rw [hheader]
  simp only [replyOptions, tlvBytes, List.flatMap_cons, List.flatMap_nil, List.append_assoc, List.append_nil]
  rfl

/-! ## What a client reads -/

theorem ip4_length (a : Ip4) : a.toList.length = 4 := a.size_toArray

theorem replyOptions_valid : ∀ t ∈ replyOptions d msgType, t.Valid DHCP_OPT_END := by
  have hlength (a : Ip4) : a.toList.length < 256 := by
    rw [ip4_length]
    decide
  unfold replyOptions
  simp only [List.forall_mem_cons]
  refine ⟨⟨?_, ?_⟩, ⟨?_, hlength _⟩, ⟨?_, hlength _⟩, ⟨?_, hlength _⟩, ⟨?_, hlength _⟩, ⟨?_, ?_⟩,
    fun _ h => absurd h List.not_mem_nil⟩
  · exact show DHCP_OPT_MSG_TYPE ≠ DHCP_OPT_END by decide
  · exact show 1 < 256 by decide
  · exact show DHCP_OPT_SERVER_ID ≠ DHCP_OPT_END by decide
  · exact show DHCP_OPT_SUBNET_MASK ≠ DHCP_OPT_END by decide
  · exact show DHCP_OPT_ROUTER ≠ DHCP_OPT_END by decide
  · exact show DHCP_OPT_DNS ≠ DHCP_OPT_END by decide
  · exact show DHCP_OPT_IP_LEASE_TIME ≠ DHCP_OPT_END by decide
  · exact show 4 < 256 by decide

theorem replyOptions_length (d : DhcpServer) (msgType : UInt8) :
    (tlvBytes (replyOptions d msgType)).length = 33 := by
  simp only [replyOptions, tlvBytes, List.flatMap_cons, List.flatMap_nil, List.length_append, tlv_length,
    ip4_length, List.length_cons,
    List.length_nil]

theorem dhcpReply_length (d : DhcpServer) (m : Mem) (yi : Fin DHCPS_MAX_IP) (msgType : UInt8) :
    (dhcpReply d m yi msgType).length = 274 := by
  rw [dhcpReply_eq]
  simp only [List.length_append, read_length, List.length_singleton, replyOptions_length]

/-- What stands in the header of an answer, apart from the last byte of the address. -/
theorem dhcpReply_slice {off n : Nat} (h : off + n ≤ 19 ∨ 20 ≤ off ∧ off + n ≤ 240) :
    slice (dhcpReply d m yi msgType) off n = read m off n := by
  apply List.ext_getElem?
  intro i
  unfold slice
  by_cases hi : i < n
  · rw [List.getElem?_take_of_lt hi, List.getElem?_drop, read_getElem? m off hi, dhcpReply_eq]
    simp only [List.append_assoc]
    rcases h with h | ⟨h20, h240⟩
    · rw [List.getElem?_append_left (by rw [read_length]; omega), read_getElem? m 0 (by omega), Nat.zero_add]
    · rw [List.getElem?_append_right (by rw [read_length]; omega), read_length,
        List.getElem?_append_right (by rw [List.length_singleton]; omega),
        List.length_singleton, List.getElem?_append_left (by rw [read_length]; omega),
        read_getElem? m 20 (by omega)]
      congr 2
      omega
  · rw [List.getElem?_eq_none (by rw [List.length_take]; omega),
      List.getElem?_eq_none (by rw [read_length]; omega)]

/-- The options of an answer stand after its header. -/
theorem dhcpReply_options : slice (dhcpReply d m yi msgType) 240 34 = tlvBytes (replyOptions d msgType) ++
    [DHCP_OPT_END] := by
  have hheader : (read m 0 19 ++ [DHCPS_BASE_IP + UInt8.ofNat yi] ++ read m 20 220).length = 240 := by
    rw [List.length_append, List.length_append, read_length, read_length, List.length_singleton]
  rw [dhcpReply_eq, List.append_assoc _ (tlvBytes _), slice_append_right hheader.le, hheader]
  exact List.take_of_length_le
    (by rw [List.drop_zero, List.length_append, replyOptions_length, List.length_singleton])

/-- A client finds each of the options. -/
theorem datagramOption_reply {t : Tlv} (ht : (replyOptions d msgType).find? (·.tag = t.tag) = some t) :
    datagramOption (dhcpReply d m yi msgType) t.tag = some t.value := by
  have hlength := dhcpReply_length d m yi msgType
  have hoptions := replyOptions_length d msgType
  have hall : read (memOf (dhcpReply d m yi msgType)) 240 34 = tlvBytes (replyOptions d msgType) ++
      [DHCP_OPT_END] :=
    (read_memOf (by rw [hlength])).trans dhcpReply_options
  have hread : read (memOf (dhcpReply d m yi msgType)) 240 (tlvBytes (replyOptions d msgType)).length =
      tlvBytes (replyOptions d msgType) := by
    have hfirst := read_of_read hall 0 33 (by decide)
    rw [hoptions]
    refine hfirst.trans ?_
    rw [List.drop_zero, List.take_left' hoptions]
  have hend : memOf (dhcpReply d m yi msgType) (240 + (tlvBytes (replyOptions d msgType)).length) =
      DHCP_OPT_END := by
    have hlast := read_getElem? (memOf (dhcpReply d m yi msgType)) 240 (show 33 < 34 by decide)
    rw [hall, List.getElem?_append_right hoptions.le, hoptions] at hlast
    rw [hoptions]
    exact (Option.some.inj hlast).symm
  have hlimit : 240 + (tlvBytes (replyOptions d msgType)).length ≤ (dhcpReply d m yi msgType).length := by omega
  obtain ⟨k, hscan, hat, -, -⟩ := (scanTlv_records t.tag replyOptions_valid hread hlimit fun _ => hend).2 t ht
  have hvalid := replyOptions_valid t (List.mem_of_find?_eq_some ht)
  change (scanTlv (memOf (dhcpReply d m yi msgType)) DHCP_OPT_END t.tag _ 240).map _ = _
  rw [hscan, Option.map_some, hat.length, UInt8.toNat_ofNat_of_lt' hvalid.2, hat.value]

theorem datagramOption_mem {t : Tlv} (ht : t ∈ replyOptions d msgType) :
    datagramOption (dhcpReply d m yi msgType) t.tag = some t.value := by
  apply datagramOption_reply
  simp only [replyOptions, List.mem_cons, List.not_mem_nil, or_false] at ht
  rcases ht with rfl | rfl | rfl | rfl | rfl | rfl <;> rfl

end BLEBridge
