import BLEBridge.DhcpMessage
import BLEBridge.Lib.Runs
/-!
# The leases of the DHCP server

A packet is served at true times, of which the code sees the low 32 bits. A lease
that was granted stands for a day, whatever packets come (`Held.serve`), so no
other client gets the address meanwhile and its own is granted it again. An
address that was offered is granted to the client unless another one takes it
first.
-/
open Lib

namespace BLEBridge

/-- A day, in milliseconds. -/
def leaseMs : Nat := 86400000

variable {d : DhcpServer} {mac : Mac} {ticks : Nat → UInt32}

/-! ## When a lease has run out -/

theorem expiry_toNat (e : UInt16) : (e.toUInt32 <<< 16 ||| 0xffff).toNat = e.toNat * 65536 + 65535 := by
  have hlt := e.toNat_lt
  have hor := Nat.shiftLeft_add_eq_or_of_lt (show 65535 < 2 ^ 16 by decide) e.toNat
  have h16 : (16 : UInt32).toNat % 32 = 16 := rfl
  have hff : (0xffff : UInt32).toNat = 65535 := rfl
  rw [UInt32.toNat_or, UInt32.toNat_shiftLeft, UInt16.toNat_toUInt32, h16, hff]
  rw [Nat.shiftLeft_eq] at hor ⊢
  rw [Nat.mod_eq_of_lt (by omega)]
  exact hor.symm

theorem leaseExpiry_toNat (t : Nat) : (leaseExpiry (UInt32.ofNat t)).toNat = (t + leaseMs) % 2 ^ 32 / 65536 := by
  have hlease : (DEFAULT_LEASE_TIME_S * 1000).toNat = leaseMs := rfl
  have h16 : (16 : UInt32).toNat % 32 = 16 := rfl
  unfold leaseExpiry
  rw [UInt32.toNat_toUInt16, UInt32.toNat_shiftRight, UInt32.toNat_add, UInt32.toNat_ofNat', hlease, h16,
    Nat.shiftRight_eq_div_pow]
  omega

/-- The expiry is kept in units of 65536 ms, rounded up when it is read. -/
theorem not_expired {l : DhcpServerLease} {t now : Nat} (hl : l.expiry = leaseExpiry (UInt32.ofNat t))
    (hle : t ≤ now) (hnow : now ≤ t + leaseMs) : l.expired (UInt32.ofNat now) = false := by
  have hlease : leaseMs = 86400000 := rfl
  unfold DhcpServerLease.expired
  dsimp only
  rw [decide_eq_false_iff_not, hl, UInt32.toNat_sub, expiry_toNat, leaseExpiry_toNat, UInt32.toNat_ofNat']
  omega

/-! ## What a discover does -/

/-- The client of a lease that has run out may have been forgotten. -/
def Released (ticks : Nat → UInt32) (lease lease' : Fin DHCPS_MAX_IP → DhcpServerLease) : Prop :=
  lease' = lease ∨ ∃ i, (lease i).expired (ticks i) = true ∧
    lease' = Function.update lease i { lease i with mac := Mac.zero }

/-- The address is another client's, for now. -/
def DhcpServerLease.Taken (l : DhcpServerLease) (mac : Mac) (nowMs : UInt32) : Prop :=
  l.mac ≠ mac ∧ l.mac ≠ Mac.zero ∧ l.expired nowMs = false

/-- The slots looked at, with the slot that is offered and the leases after it. -/
structure Discovered (mac : Mac) (ticks : Nat → UInt32) (lease : Fin DHCPS_MAX_IP → DhcpServerLease)
    (is : List (Fin DHCPS_MAX_IP)) (r : Option (Fin DHCPS_MAX_IP) × (Fin DHCPS_MAX_IP → DhcpServerLease)) :
    Prop where
  released : Released ticks lease r.2
  refused : r.1 = none ↔ ∀ i ∈ is, (lease i).Taken mac (ticks i)
  offered : ∀ i, r.1 = some i → (r.2 i).mac = mac ∨ (r.2 i).mac = Mac.zero
  own : (∃ i ∈ is, (lease i).mac = mac) → ∃ i, r.1 = some i ∧ (lease i).mac = mac ∧ r.2 i = lease i

/-- Once there is a slot to offer, only the client's own is better. -/
theorem discoverLoop_some (is : List (Fin DHCPS_MAX_IP)) (yi : Fin DHCPS_MAX_IP)
    (lease : Fin DHCPS_MAX_IP → DhcpServerLease) :
    discoverLoop mac ticks is (some yi) lease =
      ((is.find? fun i => (lease i).mac = mac).or (some yi), lease) := by
  induction is with
  | nil => rfl
  | cons i is ih =>
    unfold discoverLoop
    rw [List.find?_cons]
    by_cases hi : (lease i).mac = mac
    · rw [if_pos hi, decide_eq_true hi]
      rfl
    · rw [if_neg hi, decide_eq_false hi]
      exact ih

/-- What follows when the slot at hand is the first to offer. -/
theorem discovered_of_slot {lease lease' : Fin DHCPS_MAX_IP → DhcpServerLease} {i : Fin DHCPS_MAX_IP}
    {is : List (Fin DHCPS_MAX_IP)} (hreleased : Released ticks lease lease')
    (hother : ∀ j ∈ is, lease' j = lease j) (hfree : (lease' i).mac = Mac.zero) (hmac : (lease i).mac ≠ mac)
    (hopen : ¬(lease i).Taken mac (ticks i)) :
    Discovered mac ticks lease (i :: is) (discoverLoop mac ticks is (some i) lease') := by
  rw [discoverLoop_some]
  cases hfind : is.find? fun j => (lease' j).mac = mac with
  | none =>
    have hnone := List.find?_eq_none.1 hfind
    refine ⟨hreleased, ⟨fun h => (by cases h), fun h => absurd (h i List.mem_cons_self) hopen⟩, ?_, ?_⟩
    · intro j hj
      obtain rfl := Option.some.inj hj
      exact .inr hfree
    · rintro ⟨j, hj, hown⟩
      rcases List.mem_cons.1 hj with rfl | hj
      · exact absurd hown hmac
      · refine absurd (decide_eq_true ?_) (hnone j hj)
        rw [hother j hj]
        exact hown
  | some j =>
    have hown := List.find?_some hfind
    rw [decide_eq_true_eq] at hown
    have hj := List.mem_of_find?_eq_some hfind
    refine ⟨hreleased, ⟨fun h => (by cases h), fun h => absurd (h i List.mem_cons_self) hopen⟩, ?_, ?_⟩
    · intro k hk
      obtain rfl := Option.some.inj hk
      exact .inl hown
    · exact fun _ => ⟨j, rfl, hother j hj ▸ hown, hother j hj⟩

theorem discoverLoop_spec (is : List (Fin DHCPS_MAX_IP)) (hnodup : is.Nodup)
    (lease : Fin DHCPS_MAX_IP → DhcpServerLease) :
    Discovered mac ticks lease is (discoverLoop mac ticks is none lease) := by
  induction is with
  | nil =>
    refine ⟨.inl rfl, ⟨fun _ _ h => absurd h List.not_mem_nil, fun _ => rfl⟩, ?_,
      fun ⟨_, h, _⟩ => absurd h List.not_mem_nil⟩
    intro _ h
    cases h
  | cons i is ih =>
    obtain ⟨hi, hnodup⟩ := List.nodup_cons.1 hnodup
    have hne : ∀ j ∈ is, j ≠ i := fun j hj h => hi (h ▸ hj)
    unfold discoverLoop
    by_cases hmac : (lease i).mac = mac
    · rw [if_pos hmac]
      refine ⟨.inl rfl, ⟨fun h => (by cases h), fun h => absurd hmac (h i List.mem_cons_self).1⟩, ?_,
        fun _ => ⟨i, rfl, hmac, rfl⟩⟩
      intro j hj
      obtain rfl := Option.some.inj hj
      exact .inl hmac
    rw [if_neg hmac]
    dsimp only
    by_cases hexp : (lease i).expired (ticks i) = true
    · rw [if_pos hexp]
      refine discovered_of_slot (.inr ⟨i, hexp, rfl⟩) (fun j hj => Function.update_of_ne (hne j hj) _ _)
        ?_ hmac ?_
      · rw [Function.update_self]
      · exact fun h => absurd hexp (by rw [h.2.2]; decide)
    rw [if_neg hexp]
    by_cases hzero : (lease i).mac = Mac.zero
    · rw [if_pos hzero]
      exact discovered_of_slot (.inl rfl) (fun _ _ => rfl) hzero hmac fun h => h.2.1 hzero
    -- The slot is taken: the rest decides.
    rw [if_neg hzero]
    obtain ⟨hreleased, hrefused, hoffered, hown⟩ := ih hnodup
    refine ⟨hreleased, ?_, hoffered, ?_⟩
    · rw [hrefused, List.forall_mem_cons]
      exact ⟨fun h => ⟨⟨hmac, hzero, Bool.eq_false_of_not_eq_true hexp⟩, h⟩, fun h => h.2⟩
    · rintro ⟨j, hj, h⟩
      rcases List.mem_cons.1 hj with rfl | hj
      · exact absurd h hmac
      · exact hown ⟨j, hj, h⟩

/-! ## Packets -/

/-- A packet, with what the stack holds and the true times of the clock readings. -/
structure DhcpPacket where
  payload : Bytes
  stack : Mem
  ticks : Nat → Nat

def DhcpPacket.serve (p : DhcpPacket) (d : DhcpServer) : Option Bytes × DhcpServer :=
  dhcpServerProcess (fun i => UInt32.ofNat (p.ticks i)) p.stack p.payload d

/-- The server after the packets. -/
def served (ps : List DhcpPacket) (d : DhcpServer) : DhcpServer := run (fun d p => (p.serve d).2) d ps

/-- The clock does not run backwards. -/
def ClockForward (ps : List DhcpPacket) : Prop := ps.Pairwise fun p q => ∀ i j, p.ticks i ≤ q.ticks j

/-- The packet is answered so. -/
def DhcpPacket.Gets (p : DhcpPacket) (d : DhcpServer) (msgType : UInt8) (address : Bytes) (mac : Mac) : Prop :=
  ∃ r, (p.serve d).1 = some r ∧ DhcpAnswer r msgType address mac

/-- What a packet can do. -/
inductive Served (ticks : Nat → UInt32) (stack : Mem) (p : Bytes) (d : DhcpServer) :
    Option Bytes × DhcpServer → Prop where
  | ignored : Served ticks stack p d (none, d)
  | discover {r} (h : Discovered (packetClient p) ticks d.lease (List.finRange DHCPS_MAX_IP) r)
      (hlen : DHCP_MIN_SIZE ≤ p.length) :
    Served ticks stack p d (r.1.map fun yi => dhcpReply d (dhcpMsg stack p d) yi DHCPOFFER,
      { d with lease := r.2 })
  | request {yi} (h : (d.lease yi).mac = packetClient p ∨ (d.lease yi).mac = Mac.zero)
      (hlen : DHCP_MIN_SIZE ≤ p.length) :
    Served ticks stack p d (some (dhcpReply d (dhcpMsg stack p d) yi DHCPACK),
      { d with lease := Function.update d.lease yi ⟨packetClient p, leaseExpiry (ticks 0)⟩ })

theorem requestSlot_some {m : Mem} {o : Nat} {yi : Fin DHCPS_MAX_IP} (h : requestSlot d m o = some yi) :
    (d.lease yi).mac = chaddr m ∨ (d.lease yi).mac = Mac.zero := by
  unfold requestSlot at h
  dsimp only at h
  split at h
  · cases h
  split at h
  · split at h
    · rename_i hmac
      obtain rfl := Option.some.inj h
      exact hmac
    · cases h
  · cases h

theorem process_cases (ticks : Nat → UInt32) (stack : Mem) (p : Bytes) (d : DhcpServer) :
    Served ticks stack p d (dhcpServerProcess ticks stack p d) := by
  by_cases hlen : DHCP_MIN_SIZE ≤ p.length
  · rw [process_eq _ hlen]
    split
    · exact .ignored
    split_ifs
    · exact .discover (discoverLoop_spec _ (List.nodup_finRange _) _) hlen
    · split
      · exact .ignored
      · rename_i hslot
        obtain ⟨o, -, ho⟩ := Option.bind_eq_some_iff.1 hslot
        exact .request (chaddr_eq hlen ▸ requestSlot_some ho) hlen
    · exact .ignored
  · unfold dhcpServerProcess
    rw [if_pos (Nat.not_le.1 hlen)]
    exact .ignored

theorem DhcpPacket.serve_cases (p : DhcpPacket) (d : DhcpServer) :
    Served (fun i => UInt32.ofNat (p.ticks i)) p.stack p.payload d (p.serve d) := process_cases _ _ _ _

/-- What an answer says. -/
theorem answer_iff {p : DhcpPacket} (hlen : DHCP_MIN_SIZE ≤ p.payload.length) {yi : Fin DHCPS_MAX_IP}
    {msgType msgType' : UInt8} {address : Bytes} :
    DhcpAnswer (dhcpReply d (dhcpMsg p.stack p.payload d) yi msgType) msgType' address mac ↔
      msgType' = msgType ∧ address = slotAddress d yi ∧ mac = packetClient p.payload := by
  have hmin : DHCP_MIN_SIZE = 243 := rfl
  have hsize : SIZEOF_DHCP_MSG = 548 := rfl
  have htype : datagramOption (dhcpReply d (dhcpMsg p.stack p.payload d) yi msgType) DHCP_OPT_MSG_TYPE =
      some [msgType] :=
    @datagramOption_mem d (dhcpMsg p.stack p.payload d) yi msgType ⟨DHCP_OPT_MSG_TYPE, [msgType]⟩
      List.mem_cons_self
  have haddress : slice (dhcpReply d (dhcpMsg p.stack p.payload d) yi msgType) DHCP_MSG_YIADDR 4 =
      slotAddress d yi := by
    have hfirst : ([DHCPOFFER] ++ slice p.payload 1 15).length = 16 := by
      rw [List.length_append, slice_length _ _ _ (by omega)]
      rfl
    have hslot : (slotAddress d yi).length = 4 := by
      unfold slotAddress
      rw [List.length_append, List.length_take, ip4_length]
      rfl
    rw [dhcpReply_packet hlen]
    simp only [List.append_assoc]
    rw [← List.append_assoc [DHCPOFFER], slice_append_right (by rw [hfirst]; exact Nat.le_refl 16), hfirst,
      slice_append_left (by rw [hslot]; decide)]
    exact List.take_of_length_le hslot.le
  have hclient : slice (dhcpReply d (dhcpMsg p.stack p.payload d) yi msgType) DHCP_MSG_CHADDR MAC_LEN =
      (packetClient p.payload).toList := by
    rw [dhcpReply_slice (.inr (by decide)), ← @chaddr_eq p.stack p.payload d hlen]
    apply List.ext_getElem?
    intro i
    by_cases hi : i < MAC_LEN
    · rw [read_getElem? _ _ hi]
      unfold chaddr
      rw [List.getElem?_eq_getElem (by rw [Vector.length_toList]; exact hi), Vector.getElem_toList,
        Vector.getElem_ofFn]
    · rw [List.getElem?_eq_none (by rw [read_length]; omega),
        List.getElem?_eq_none (by rw [Vector.length_toList]; omega)]
  constructor
  · rintro ⟨h1, h2, h3⟩
    refine ⟨?_, h2.symm.trans haddress, ?_⟩
    · exact (List.singleton_inj.1 (Option.some.inj (htype.symm.trans h1))).symm
    · exact Vector.toList_inj.1 (h3.symm.trans hclient)
  · rintro ⟨rfl, rfl, rfl⟩
    exact ⟨htype, haddress, hclient⟩

/-! ## A lease that stands -/

/-- The slot is the client's, by a lease granted at `time` or renewed since, before
the packets to come. -/
structure Held (d : DhcpServer) (yi : Fin DHCPS_MAX_IP) (mac : Mac) (time : Nat) (later : List DhcpPacket) :
    Prop where
  mac : (d.lease yi).mac = mac
  expiry : ∃ renewed, time ≤ renewed ∧ (d.lease yi).expiry = leaseExpiry (UInt32.ofNat renewed) ∧
    ∀ p ∈ later, ∀ i, renewed ≤ p.ticks i

variable {yi : Fin DHCPS_MAX_IP} {time : Nat} {p : DhcpPacket} {ps : List DhcpPacket}

theorem serve_ip (p : DhcpPacket) (d : DhcpServer) : (p.serve d).2.ip = d.ip := by
  have hcases := p.serve_cases d
  generalize p.serve d = r at hcases
  cases hcases <;> rfl

theorem served_ip (ps : List DhcpPacket) (d : DhcpServer) : (served ps d).ip = d.ip := by
  induction ps generalizing d with
  | nil => rfl
  | cons p ps ih => exact (ih (p.serve d).2).trans (serve_ip p d)

theorem served_slotAddress (ps : List DhcpPacket) (p : DhcpPacket) (d : DhcpServer) (yi : Fin DHCPS_MAX_IP) :
    slotAddress (served ps (p.serve d).2) yi = slotAddress d yi := by
  unfold slotAddress
  rw [served_ip, serve_ip]

/-- A packet that leaves the slot alone. -/
theorem Held.of_same {d' : DhcpServer} (h : Held d yi mac time (p :: ps)) (hsame : d'.lease yi = d.lease yi) :
    Held d' yi mac time ps := by
  obtain ⟨hslot, renewed, htime, hexpiry, hlater⟩ := h
  rw [← hsame] at hslot hexpiry
  exact ⟨hslot, renewed, htime, hexpiry, fun q hq => hlater q (List.mem_cons_of_mem p hq)⟩

/-- Within a day no packet ends the lease. -/
theorem Held.serve (h : Held d yi mac time (p :: ps)) (hmac : mac ≠ Mac.zero) (hclock : ClockForward (p :: ps))
    (hday : ∀ i, p.ticks i ≤ time + leaseMs) : Held (p.serve d).2 yi mac time ps := by
  obtain ⟨hforward, -⟩ := List.pairwise_cons.1 hclock
  obtain ⟨renewed, htime, hexpiry, hlater⟩ := h.expiry
  have hcases := p.serve_cases d
  generalize p.serve d = r at hcases
  cases hcases with
  | ignored => exact h.of_same rfl
  | @discover r hdiscovered hlen =>
    refine h.of_same ?_
    rcases hdiscovered.released with heq | ⟨i, hexpired, heq⟩
    · exact congrFun heq yi
    · have hne : yi ≠ i := by
        rintro rfl
        have hfresh := not_expired hexpiry (hlater p List.mem_cons_self yi)
          ((hday yi).trans (Nat.add_le_add_right htime _))
        rw [hfresh] at hexpired
        cases hexpired
      exact (congrFun heq yi).trans (Function.update_of_ne hne _ _)
  | @request yi' hgrant hlen =>
    by_cases hyi : yi = yi'
    · -- Only the client itself can ask for the slot, and renews the lease.
      subst hyi
      rw [h.mac] at hgrant
      refine ⟨?_, p.ticks 0, htime.trans (hlater p List.mem_cons_self 0), ?_, fun q hq i => hforward q hq 0 i⟩
      · dsimp only
        rw [Function.update_self]
        exact (hgrant.resolve_right hmac).symm
      · dsimp only
        rw [Function.update_self]
    · exact h.of_same (Function.update_of_ne hyi _ _)

theorem Held.served {later : List DhcpPacket} (h : Held d yi mac time (ps ++ later)) (hmac : mac ≠ Mac.zero)
    (hclock : ClockForward (ps ++ later)) (hday : ∀ p ∈ ps, ∀ i, p.ticks i ≤ time + leaseMs) :
    Held (served ps d) yi mac time later := by
  induction ps generalizing d with
  | nil => exact h
  | cons p ps ih =>
    obtain ⟨-, hclock'⟩ := List.pairwise_cons.1 hclock
    exact ih (h.serve hmac hclock (hday p List.mem_cons_self)) hclock' fun q hq =>
      hday q (List.mem_cons_of_mem p hq)

/-- An address that is granted is held. -/
theorem held_of_ack {address : Bytes} (h : p.Gets d DHCPACK address mac) (hclock : ClockForward (p :: ps)) :
    ∃ yi, address = slotAddress d yi ∧ Held (p.serve d).2 yi mac (p.ticks 0) ps := by
  obtain ⟨r, hr, hanswer⟩ := h
  have hcases := p.serve_cases d
  generalize p.serve d = s at hcases hr
  cases hcases with
  | ignored => cases hr
  | discover h hlen =>
    obtain ⟨yi, -, rfl⟩ := Option.map_eq_some_iff.1 hr
    exact absurd ((answer_iff hlen).1 hanswer).1 (by decide)
  | @request yi hgrant hlen =>
    obtain rfl := Option.some.inj hr
    obtain ⟨-, haddress, rfl⟩ := (answer_iff hlen).1 hanswer
    refine ⟨yi, haddress, ?_, p.ticks 0, le_refl _, ?_, fun q hq i => (List.pairwise_cons.1 hclock).1 q hq 0 i⟩
    · dsimp only
      rw [Function.update_self]
    · dsimp only
      rw [Function.update_self]

/-- Nobody else is granted an address that is held. -/
theorem Held.no_other {mac' : Mac} (h : Held d yi mac time ps) (hmac : mac ≠ Mac.zero)
    (hgets : p.Gets d DHCPACK (slotAddress d yi) mac') : mac' = mac := by
  obtain ⟨r, hr, hanswer⟩ := hgets
  have hcases := p.serve_cases d
  generalize p.serve d = s at hcases hr
  cases hcases with
  | ignored => cases hr
  | discover h hlen =>
    obtain ⟨yi, -, rfl⟩ := Option.map_eq_some_iff.1 hr
    exact absurd ((answer_iff hlen).1 hanswer).1 (by decide)
  | @request yi' hgrant hlen =>
    obtain rfl := Option.some.inj hr
    obtain ⟨-, haddress, rfl⟩ := (answer_iff hlen).1 hanswer
    obtain rfl := slotAddress_injective haddress
    rw [h.mac] at hgrant
    exact (hgrant.resolve_right hmac).symm

/-! ## Messages -/

section
variable {q : DhcpPacket} {msg : DhcpMessage}

theorem serve_message (hq : q.payload = msg.bytes) (d : DhcpServer) :
    q.serve d = msg.serve (fun i => UInt32.ofNat (q.ticks i)) d := by
  unfold DhcpPacket.serve
  rw [hq]
  exact message_served _ _ _ _

theorem answer_message (hq : q.payload = msg.bytes) (yi : Fin DHCPS_MAX_IP) (msgType : UInt8) :
    DhcpAnswer (msg.answer d yi msgType) msgType (slotAddress d yi) (packetClient msg.header) := by
  have hlen : DHCP_MIN_SIZE ≤ q.payload.length := hq ▸ msg.min_size
  rw [← @DhcpMessage.reply_eq q.stack d msg, ← hq, ← msg.client_eq, ← hq]
  exact (answer_iff hlen).2 ⟨rfl, rfl, rfl⟩

/-- A request for a slot that is the client's or nobody's is granted. -/
theorem gets_ack {address : Ip4} (hq : q.payload = msg.bytes) (htype : msg.type = DHCPREQUEST)
    (hrequested : msg.requested = some address) (haddress : slotAddress d yi = address.toList)
    (hslot : (d.lease yi).mac = packetClient msg.header ∨ (d.lease yi).mac = Mac.zero) :
    q.Gets d DHCPACK address.toList (packetClient msg.header) := by
  refine ⟨msg.answer d yi DHCPACK, ?_, haddress ▸ answer_message hq yi DHCPACK⟩
  rw [serve_message hq]
  unfold DhcpMessage.serve
  rw [htype, if_neg (by decide), if_pos rfl, hrequested, Option.bind_some, slotOf_eq_some_iff.2 haddress,
    Option.filter_some,
    if_pos (decide_eq_true hslot)]

end

/-! ## A network, for the runs below -/

/-- A header as a client with this address sends it. -/
def clientHeader (mac : Mac) : Bytes :=
  [1, 1, 6, 0] ++ .replicate 24 0 ++ mac.toList ++ .replicate 202 0 ++ [99, 130, 83, 99]

theorem clientHeader_length (mac : Mac) : (clientHeader mac).length = 240 := by
  unfold clientHeader
  simp only [List.length_append, List.length_replicate, Vector.length_toList]
  rfl

/-- The discover of a client. -/
def discoverMessage (mac : Mac) : DhcpMessage where
  header := clientHeader mac
  options := [⟨DHCP_OPT_MSG_TYPE, [DHCPDISCOVER]⟩]
  rest := []
  type := DHCPDISCOVER
  requested := none
  header_length := clientHeader_length mac
  options_valid := List.forall_mem_singleton.2 ⟨by decide, by decide⟩
  options_fit := by decide
  type_option := rfl
  requested_option := rfl

/-- The request of a client for an address. -/
def requestMessage (mac : Mac) (address : Ip4) : DhcpMessage where
  header := clientHeader mac
  options := [⟨DHCP_OPT_MSG_TYPE, [DHCPREQUEST]⟩, ⟨DHCP_OPT_REQUESTED_IP, address.toList⟩]
  rest := []
  type := DHCPREQUEST
  requested := some address
  header_length := clientHeader_length mac
  options_valid := by
    refine List.forall_mem_cons.2 ⟨⟨by decide, by decide⟩,
      List.forall_mem_singleton.2 ⟨show DHCP_OPT_REQUESTED_IP ≠ DHCP_OPT_END by decide, ?_⟩⟩
    rw [ip4_length]
    decide
  options_fit := by
    simp only [tlvBytes, List.flatMap_cons, List.flatMap_nil, List.length_append, tlv_length, ip4_length,
      List.length_cons, List.length_nil]
    decide
  type_option := rfl
  requested_option := rfl

theorem packetClient_header (mac : Mac) : packetClient (clientHeader mac) = mac := by
  apply Vector.ext
  intro i hi
  have hmac : i < mac.toList.length := by
    rw [Vector.length_toList]
    exact hi
  have hclient : (clientHeader mac).getD (28 + i) 0 = mac.toList.getD i 0 := by
    unfold clientHeader
    rw [List.append_assoc, List.append_assoc, List.getD_append_right _ _ _ _ (show 28 ≤ 28 + i by omega)]
    change (mac.toList ++ _).getD (28 + i - 28) 0 = _
    rw [Nat.add_sub_cancel_left, List.getD_append _ _ _ _ hmac]
  unfold packetClient
  rw [Vector.getElem_ofFn]
  exact hclient.trans (getD_of_lt _ i 0 hmac)

/-- A message that is served at one time. -/
def DhcpMessage.at (msg : DhcpMessage) (time : Nat) : DhcpPacket := ⟨msg.bytes, fun _ => 77, fun _ => time⟩

theorem requestMessage_client (mac : Mac) (address : Ip4) :
    packetClient (requestMessage mac address).header = mac := packetClient_header mac

theorem requestMessage_gets {address : Ip4} (time : Nat) (haddress : slotAddress d yi = address.toList)
    (hslot : (d.lease yi).mac = mac ∨ (d.lease yi).mac = Mac.zero) :
    ((requestMessage mac address).at time).Gets d DHCPACK address.toList mac := by
  have h := @gets_ack d yi ((requestMessage mac address).at time) (requestMessage mac address) address
    rfl rfl rfl haddress
  rw [requestMessage_client] at h
  exact h hslot

def apServer : DhcpServer := dhcpServerInit ⟨#[192, 168, 4, 1], rfl⟩ ⟨#[255, 255, 255, 0], rfl⟩

def firstSlot : Fin DHCPS_MAX_IP := ⟨0, by decide⟩

def firstAddress : Ip4 := ⟨#[192, 168, 4, 16], rfl⟩

def macOf (i : UInt8) : Mac := .replicate MAC_LEN i

theorem firstAddress_eq : slotAddress apServer firstSlot = firstAddress.toList := rfl

/-- The first request for the address. -/
theorem gets_first : ((requestMessage (macOf 7) firstAddress).at 0).Gets apServer DHCPACK firstAddress.toList
    (macOf 7) :=
  requestMessage_gets 0 firstAddress_eq (.inr rfl)

theorem served_singleton (p : DhcpPacket) (d : DhcpServer) : served [p] d = (p.serve d).2 := rfl

theorem discoverMessage_client (mac : Mac) : packetClient (discoverMessage mac).header = mac :=
  packetClient_header mac

/-- A discover takes the address away the day after. -/
theorem lost_lease : ((served [(discoverMessage (macOf 8)).at 86500000]
    (((requestMessage (macOf 7) firstAddress).at 0).serve apServer).2).lease
    firstSlot).mac = Mac.zero := by
  rw [served_singleton, serve_message rfl, serve_message rfl]
  unfold DhcpMessage.serve
  rw [discoverMessage_client, requestMessage_client]
  rfl

/-- **Leases are exclusive.** When an address is granted to a client and, after any
packets, to another one, more than a day lies between. -/
theorem dhcp_leases_exclusive (d : DhcpServer) (p q : DhcpPacket) (between : List DhcpPacket)
    (address : Bytes) (mac mac' : Mac)
    (hclock : ClockForward (p :: (between ++ [q]))) (hmac : mac ≠ Mac.zero) (hne : mac' ≠ mac)
    (hp : p.Gets d DHCPACK address mac) (hq : q.Gets (served between (p.serve d).2) DHCPACK address mac') :
    ∀ i, p.ticks 0 + leaseMs < q.ticks i := by
  obtain ⟨yi, rfl, hheld⟩ := held_of_ack hp hclock
  obtain ⟨-, hclock'⟩ := List.pairwise_cons.1 hclock
  by_contra hday
  rw [not_forall] at hday
  obtain ⟨i, hi⟩ := hday
  have hbefore : ∀ p' ∈ between, ∀ j, p'.ticks j ≤ p.ticks 0 + leaseMs := by
    intro p' hp' j
    have horder := (List.pairwise_append.1 hclock').2.2 p' hp' q List.mem_cons_self j i
    omega
  have hlast := hheld.served hmac hclock' hbefore
  exact hne (hlast.no_other hmac ((served_slotAddress between p d yi).symm ▸ hq))

theorem dhcp_leases_exclusive_nextDay : 0 + leaseMs < 86500000 :=
  dhcp_leases_exclusive apServer ((requestMessage (macOf 7) firstAddress).at 0)
    ((requestMessage (macOf 8) firstAddress).at 86500000)
    [(discoverMessage (macOf 8)).at 86500000] firstAddress.toList (macOf 7) (macOf 8)
      (by simp [ClockForward, DhcpMessage.at])
    (by decide) (by decide) gets_first
    (requestMessage_gets 86500000 ((served_slotAddress _ _ _ _).trans firstAddress_eq) (.inr lost_lease)) 0

/-! ## An address that was offered -/

/-- The slot is the client's or nobody's. -/
def Open (d : DhcpServer) (yi : Fin DHCPS_MAX_IP) (mac : Mac) : Prop :=
  (d.lease yi).mac = mac ∨ (d.lease yi).mac = Mac.zero

/-- The packet does not give the address to another client. -/
def Leaves (address : Bytes) (mac : Mac) (d : DhcpServer) (p : DhcpPacket) : Prop :=
  ∀ mac', p.Gets d DHCPACK address mac' → mac' = mac

theorem Open.serve (h : Open d yi mac) (hleaves : Leaves (slotAddress d yi) mac d p) :
    Open (p.serve d).2 yi mac := by
  unfold Leaves DhcpPacket.Gets at hleaves
  have hcases := p.serve_cases d
  generalize p.serve d = r at hcases hleaves
  cases hcases with
  | ignored => exact h
  | @discover r hdiscovered hlen =>
    rcases hdiscovered.released with heq | ⟨i, -, heq⟩
    · unfold Open
      rw [heq]
      exact h
    · by_cases hi : yi = i
      · subst hi
        right
        dsimp only
        rw [heq, Function.update_self]
      · unfold Open
        dsimp only
        rw [heq, Function.update_of_ne hi]
        exact h
  | @request yi' hgrant hlen =>
    by_cases hyi : yi = yi'
    · subst hyi
      left
      dsimp only
      rw [Function.update_self]
      exact hleaves _ ⟨_, rfl, (answer_iff hlen).2 ⟨rfl, rfl, rfl⟩⟩
    · unfold Open
      dsimp only
      rw [Function.update_of_ne hyi]
      exact h

end BLEBridge
