import BLEBridge.DnsServer
import BLEBridge.DhcpReply
import BLEBridge.Lib.Text
/-!
# What the DNS server answers

A well-formed query gets its question back with the answer
(`dns_query_answered`). Of any other packet that is answered, and of the stack, the
reply shows what `dns_reply_parts` says.
-/
open Lib

namespace BLEBridge

/-- The flags and the counts of a reply. -/
def replyHeader : Bytes := [0x84, 0x80, 0, 1, 0, 1, 0, 0, 0, 0]

/-- The record that ends a reply: the name in the question, an address, for a minute. -/
def addressRecord (ip : Ip4) : Bytes := [0xc0, 12, 0, 1, 0, 1, 0, 0, 0, 60, 0, 4] ++ ip.toList

variable {m m' stack : Mem} {p : Bytes} {ip : Ip4} {stop ptr q : Nat}

/-! ## Where the question ends -/

/-- Only the message is read. -/
theorem questionEnd_congr (h : ∀ i < stop, m i = m' i) : questionEnd m stop ptr = questionEnd m' stop ptr := by
  fun_induction questionEnd m stop ptr with
  | case1 ptr hlt hzero => rw [questionEnd, if_pos hlt, ← h ptr hlt, if_pos hzero]
  | case2 ptr hlt hzero hlong => rw [questionEnd, if_pos hlt, ← h ptr hlt, if_neg hzero, if_pos hlong]
  | case3 ptr hlt hzero hlong ih =>
    rw [ih]
    conv_rhs => rw [questionEnd, if_pos hlt, ← h ptr hlt, if_neg hzero, if_neg hlong]
  | case4 ptr hge => rw [questionEnd, if_neg hge]

/-- The last label may reach over the end of the message. -/
theorem questionEnd_le (h : questionEnd m stop ptr = some q) (hptr : ptr ≤ stop + 63) :
    ptr ≤ q ∧ q ≤ stop + 63 := by
  fun_induction questionEnd m stop ptr with
  | case1 ptr hlt hzero =>
    obtain rfl := Option.some.inj h
    omega
  | case2 ptr hlt hzero hlong => cases h
  | case3 ptr hlt hzero hlong ih =>
    have hnext := ih h (by omega)
    omega
  | case4 ptr hge =>
    obtain rfl := Option.some.inj h
    exact ⟨le_refl _, hptr⟩

/-! ## The reply, byte by byte -/

theorem header_put (m : Mem) :
    put (put (put (put (put m 2 [0x84, 0x80]) 4 [0, 1]) 6 [0, 1]) 8 [0, 0]) 10 [0, 0] = put m 2 replyHeader := by
  have h4 : put (put m 2 [0x84, 0x80]) 4 [0, 1] = put m 2 [0x84, 0x80, 0, 1] := put_append m 2 _ _
  have h6 : put (put m 2 [0x84, 0x80, 0, 1]) 6 [0, 1] = put m 2 [0x84, 0x80, 0, 1, 0, 1] := put_append m 2 _ _
  have h8 : put (put m 2 [0x84, 0x80, 0, 1, 0, 1]) 8 [0, 0] = put m 2 [0x84, 0x80, 0, 1, 0, 1, 0, 0] :=
    put_append m 2 _ _
  rw [h4, h6, h8]
  exact put_append m 2 _ _

theorem dnsAnswer_eq (m : Mem) (ip : Ip4) (ptr : Nat) :
    dnsAnswer m ip ptr = (put (put m ptr (addressRecord ip)) 2 replyHeader, ptr + 16) := by
  unfold dnsAnswer addressRecord
  dsimp only
  rw [← put_append m ptr]
  exact congrArg (·, ptr + 16) (header_put _)

theorem dnsAnswer_read (hptr : 12 ≤ ptr) :
    read (dnsAnswer m ip ptr).1 0 (dnsAnswer m ip ptr).2 = read m 0 2 ++ replyHeader ++
      read m 12 (ptr - 12) ++ addressRecord ip := by
  have hrecord : (addressRecord ip).length = 16 := by
    unfold addressRecord
    rw [List.length_append, ip4_length]
    rfl
  have hheader : replyHeader.length = 10 := rfl
  have hself := read_put_self m ptr (addressRecord ip)
  have hflags := read_put_self (put m ptr (addressRecord ip)) 2 replyHeader
  rw [hrecord] at hself
  rw [dnsAnswer_eq]
  change read (put (put m ptr (addressRecord ip)) 2 replyHeader) 0 (ptr + 16) = _
  rw [show ptr + 16 = 2 + 10 + (ptr - 12) + 16 by omega, read_append, read_append, read_append, Nat.zero_add]
  rw [show 2 + 10 + (ptr - 12) = ptr by omega, read_put_outside (.inl (le_refl 2)),
    read_put_outside (.inl (by omega))]
  rw [show read _ 2 10 = replyHeader from hflags, read_put_outside (.inr (le_refl 12)),
    read_put_outside (.inl (by omega)),
    read_put_outside (.inr (by rw [hheader]; omega)), Nat.zero_add ptr, hself]

/-! ## What stands on the stack -/

theorem lwipNtohs_congr {i : Nat} (h : ∀ i < stop, m i = m' i) (hi : i + 1 < stop) :
    lwipNtohs m i = lwipNtohs m' i := by
  unfold lwipNtohs
  rw [h i (by omega), h (i + 1) hi]

/-- Only the message decides whether it is answered, and where its question ends. -/
theorem dnsQuestion_congr (h : ∀ i < stop, m i = m' i) : dnsQuestion m stop = dnsQuestion m' stop := by
  unfold dnsQuestion
  have hsize : SIZEOF_DNS_HEADER = 12 := rfl
  have hflags : DNS_FLAGS = 2 := rfl
  have hcount : DNS_QUESTION_COUNT = 4 := rfl
  by_cases hlen : stop < SIZEOF_DNS_HEADER
  · rw [if_pos hlen, if_pos hlen]
  · rw [if_neg hlen, if_neg hlen, lwipNtohs_congr h (by omega), lwipNtohs_congr h (by omega), questionEnd_congr h]

theorem dnsQuestion_le (h : dnsQuestion m stop = some ptr) :
    12 ≤ stop ∧ 16 ≤ ptr ∧ ptr ≤ 271 ∧ ptr ≤ stop + 67 := by
  unfold dnsQuestion at h
  have hsize : SIZEOF_DNS_HEADER = 12 := rfl
  split at h
  · cases h
  rename_i hlen
  dsimp only at h
  split_ifs at h
  split at h
  · cases h
  rename_i hend
  split_ifs at h
  obtain rfl := Option.some.inj h
  have hq := questionEnd_le hend (by omega)
  omega

/-- The message on the stack. -/
theorem stack_byte {i : Nat} (hi : i < (p.take MAX_DNS_MSG_SIZE).length) :
    put stack 0 (p.take MAX_DNS_MSG_SIZE) i = memOf p i := by
  have hinside := @put_inside stack 0 i _ hi
  rw [Nat.zero_add, List.getElem_take] at hinside
  rw [hinside]
  rw [List.length_take] at hi
  exact (getD_of_lt p i 0 (lt_of_lt_of_le hi (min_le_right _ _))).symm

/-- What is read after the message is the stack's. -/
theorem stack_read {off n : Nat} (h : off + n ≤ MAX_DNS_MSG_SIZE) (hoff : off ≤ p.length) :
    read (put stack 0 (p.take MAX_DNS_MSG_SIZE)) off n = slice p off n ++
      read stack p.length (off + n - p.length) := by
  have inside {k : Nat} (hk : off + k ≤ p.length) (hsize : off + k ≤ MAX_DNS_MSG_SIZE) :
      read (put stack 0 (p.take MAX_DNS_MSG_SIZE)) off k = slice p off k := by
    rw [← read_memOf hk, read_eq_iff]
    intro i hi
    exact stack_byte (by rw [List.length_take]; omega)
  rcases Nat.le_total (off + n) p.length with hle | hge
  · rw [inside hle h, Nat.sub_eq_zero_of_le hle]
    exact (List.append_nil _).symm
  · obtain ⟨k, rfl⟩ := Nat.exists_eq_add_of_le (show p.length - off ≤ n by omega)
    have hwhole : slice p off (p.length - off + k) = slice p off (p.length - off) := by
      unfold slice
      rw [List.take_of_length_le (by rw [List.length_drop]; omega),
        List.take_of_length_le (by rw [List.length_drop])]
    rw [read_append, inside (by omega) (by omega), hwhole,
      read_put_outside (.inr (by rw [List.length_take]; omega)),
      Nat.add_sub_of_le hoff, show off + (p.length - off + k) - p.length = k by omega]

/-- The reply: the packet's number, the question, or what the stack holds in its
place, and the answer. -/
theorem dnsServerProcess_eq (stack : Mem) (p : Bytes) (ip : Ip4) :
    dnsServerProcess stack p ip = (dnsQuestion (memOf p) (p.take MAX_DNS_MSG_SIZE).length).map fun ptr =>
      slice p 0 2 ++ replyHeader ++ slice p 12 (ptr - 12) ++ read stack p.length (ptr - p.length) ++
        addressRecord ip := by
  have hmax : MAX_DNS_MSG_SIZE = 300 := rfl
  unfold dnsServerProcess dnsMsg
  dsimp only
  rw [dnsQuestion_congr fun i => stack_byte, Option.map_map]
  cases hquestion : dnsQuestion (memOf p) (p.take MAX_DNS_MSG_SIZE).length with
  | none => rfl
  | some ptr =>
    obtain ⟨hlen, hptr, hbound, -⟩ := dnsQuestion_le hquestion
    rw [List.length_take] at hlen
    have hid := @stack_read stack p 0 2 (by omega) (Nat.zero_le _)
    rw [show 0 + 2 - p.length = 0 by omega] at hid
    have hread := @stack_read stack p 12 (ptr - 12) (by omega) (by omega)
    rw [Nat.add_sub_of_le (by omega)] at hread
    rw [Option.map_some, Option.map_some, Function.comp_apply, dnsAnswer_read (by omega), hid, hread]
    change some (slice p 0 2 ++ [] ++ _ ++ _ ++ _) = _
    rw [List.append_nil, List.append_assoc _ _ (read _ _ _)]

/-! ## Well-formed queries -/

def labelBytes (l : Bytes) : Bytes := UInt8.ofNat l.length :: l

def nameBytes (name : List Bytes) : Bytes := name.flatMap labelBytes ++ [0]

/-- A standard query, as a resolver sends it. -/
structure DnsQuery where
  id : UInt16
  flags : UInt16
  questionCount : UInt16
  otherCounts : Vector UInt8 6
  name : List Bytes
  /-- The type and the class. -/
  kind : Vector UInt8 4
  rest : Bytes
  standard : flags.toNat < 2 ^ 11
  asks : questionCount ≠ 0
  labels : ∀ l ∈ name, 0 < l.length ∧ l.length ≤ 63
  name_length : (nameBytes name).length ≤ 255

namespace DnsQuery
variable (query : DnsQuery)

def header : Bytes := lwipHtons query.id ++ lwipHtons query.flags ++ lwipHtons query.questionCount ++
  query.otherCounts.toList

def bytes : Bytes := query.header ++ nameBytes query.name ++ query.kind.toList ++ query.rest

/-- What a resolver gets. -/
def answer (ip : Ip4) : Bytes := lwipHtons query.id ++ replyHeader ++ nameBytes query.name ++
  query.kind.toList ++ addressRecord ip

theorem header_length : query.header.length = 12 := by
  unfold header
  rw [List.length_append, Vector.length_toList]
  rfl

theorem bytes_length : query.bytes.length = 12 + (nameBytes query.name).length + 4 + query.rest.length := by
  unfold bytes
  rw [List.length_append, List.length_append, List.length_append, query.header_length, Vector.length_toList]

end DnsQuery

theorem lwipNtohs_lwipHtons {x : UInt16} {i : Nat} (h : read m i 2 = lwipHtons x) : lwipNtohs m i = x := by
  have hx := x.toNat_lt
  obtain ⟨hhi, hlo⟩ := List.cons_eq_cons.1 (show m i :: [m (i + 1)] = (x >>> 8).toUInt8 :: [x.toUInt8] from h)
  have h8 : (8 : UInt16).toNat % 16 = 8 := rfl
  unfold lwipNtohs
  rw [hhi, List.singleton_inj.1 hlo, ← UInt16.toNat_inj, UInt16.toNat_ofNat', UInt16.toNat_toUInt8,
    UInt16.toNat_toUInt8,
    UInt16.toNat_shiftRight, h8, Nat.shiftRight_eq_div_pow]
  omega

theorem standard_flags {flags : UInt16} (h : flags.toNat < 2 ^ 11) :
    flags >>> 15 &&& 0x1 = 0 ∧ flags >>> 11 &&& 0xf = 0 := by
  have h15 : (15 : UInt16).toNat % 16 = 15 := rfl
  have h11 : (11 : UInt16).toNat % 16 = 11 := rfl
  constructor
  · rw [← UInt16.toNat_inj, UInt16.toNat_and, UInt16.toNat_shiftRight, h15, Nat.shiftRight_eq_div_pow,
      Nat.div_eq_of_lt (h.trans (by decide)),
      Nat.zero_and]
    rfl
  · rw [← UInt16.toNat_inj, UInt16.toNat_and, UInt16.toNat_shiftRight, h11, Nat.shiftRight_eq_div_pow,
      Nat.div_eq_of_lt h, Nat.zero_and]
    rfl

/-- The loop over the labels ends after the name. -/
theorem questionEnd_name {name : List Bytes} (hlabels : ∀ l ∈ name, 0 < l.length ∧ l.length ≤ 63)
    (hread : read m ptr (nameBytes name).length = nameBytes name) (hstop : ptr + (nameBytes name).length ≤ stop) :
    questionEnd m stop ptr = some (ptr + (nameBytes name).length) := by
  induction name generalizing ptr with
  | nil =>
    have hzero : m ptr = 0 := List.singleton_inj.1 hread
    rw [questionEnd, if_pos (show ptr < stop from hstop), if_pos hzero]
    rfl
  | cons l name ih =>
    obtain ⟨⟨hpos, hshort⟩, hlabels⟩ := List.forall_mem_cons.1 hlabels
    have hsplit : nameBytes (l :: name) = labelBytes l ++ nameBytes name := by
      unfold nameBytes
      rw [List.flatMap_cons, List.append_assoc]
    have hlabel : (labelBytes l).length = 1 + l.length := by
      unfold labelBytes
      rw [List.length_cons, Nat.add_comm]
    rw [hsplit, List.length_append] at hread hstop ⊢
    rw [read_append] at hread
    obtain ⟨hfirst, hrest⟩ := List.append_inj hread (read_length ..)
    have hbyte : m ptr = UInt8.ofNat l.length := by
      have hget := read_getElem? m ptr (show 0 < (labelBytes l).length by omega)
      rw [hfirst] at hget
      exact (Option.some.inj hget).symm
    have hlen : (m ptr).toNat = l.length := by
      rw [hbyte, UInt8.toNat_ofNat_of_lt' (lt_of_le_of_lt hshort (by decide))]
    have hne : m ptr ≠ 0 := by
      intro hzero
      rw [hzero] at hlen
      exact absurd hlen (Nat.ne_of_lt hpos)
    rw [questionEnd, if_pos (by omega), if_neg hne, if_neg (by omega), hlen, Nat.add_assoc, ← hlabel,
      ih hlabels hrest (by omega), Nat.add_assoc]

/-- The server reads the query as the resolver wrote it. -/
theorem dnsQuestion_query (query : DnsQuery) :
    dnsQuestion (memOf query.bytes) (query.bytes.take MAX_DNS_MSG_SIZE).length =
      some (12 + (nameBytes query.name).length + 4) := by
  have hname := query.name_length
  have hlength := query.bytes_length
  have hmax : MAX_DNS_MSG_SIZE = 300 := rfl
  have hsize : SIZEOF_DNS_HEADER = 12 := rfl
  have hmsg : (query.bytes.take MAX_DNS_MSG_SIZE).length = min 300 query.bytes.length := List.length_take
  have hflags : read (memOf query.bytes) DNS_FLAGS 2 = lwipHtons query.flags :=
    @read_memOf_part (lwipHtons query.id) (lwipHtons query.flags)
      (lwipHtons query.questionCount ++ query.otherCounts.toList ++ nameBytes query.name ++
        query.kind.toList ++ query.rest) query.bytes
        (by simp only [DnsQuery.bytes, DnsQuery.header, List.append_assoc])
  have hcount : read (memOf query.bytes) DNS_QUESTION_COUNT 2 = lwipHtons query.questionCount :=
    @read_memOf_part (lwipHtons query.id ++ lwipHtons query.flags) (lwipHtons query.questionCount)
      (query.otherCounts.toList ++ nameBytes query.name ++
        query.kind.toList ++ query.rest) query.bytes
        (by simp only [DnsQuery.bytes, DnsQuery.header, List.append_assoc])
  have hread : read (memOf query.bytes) SIZEOF_DNS_HEADER (nameBytes query.name).length =
      nameBytes query.name := by
    have hpart := read_memOf_part query.header (nameBytes query.name) (query.kind.toList ++ query.rest)
      (r := query.bytes)
      (by simp only [DnsQuery.bytes, List.append_assoc])
    rwa [query.header_length] at hpart
  have hlen : ¬(query.bytes.take MAX_DNS_MSG_SIZE).length < SIZEOF_DNS_HEADER := by omega
  obtain ⟨hqr, hopcode⟩ := standard_flags query.standard
  unfold dnsQuestion
  dsimp only
  rw [if_neg hlen, lwipNtohs_lwipHtons hflags, lwipNtohs_lwipHtons hcount, if_neg (not_not.2 hqr),
    if_neg (not_not.2 hopcode),
    if_neg ?_, questionEnd_name query.labels hread (by omega)]
  · dsimp only
    rw [if_neg (by omega)]
    rfl
  · intro hlt
    exact query.asks (UInt16.lt_one_iff.1 hlt)

/-- **Every standard query is answered.** Whatever the stack holds, a resolver gets its
question back with the address of the bridge. -/
theorem dns_query_answered (stack : Mem) (query : DnsQuery) (ip : Ip4) :
    dnsServerProcess stack query.bytes ip = some (query.answer ip) := by
  have hlength := query.bytes_length
  rw [dnsServerProcess_eq, dnsQuestion_query, Option.map_some]
  congr 1
  rw [show 12 + (nameBytes query.name).length + 4 - query.bytes.length = 0 by omega]
  have hid : slice query.bytes 0 2 = lwipHtons query.id := by
    unfold DnsQuery.bytes DnsQuery.header
    simp only [List.append_assoc]
    rw [slice_append_left (by exact Nat.le_refl 2)]
    rfl
  have hquestion : slice query.bytes 12 (12 + (nameBytes query.name).length + 4 - 12) =
      nameBytes query.name ++ query.kind.toList := by
    unfold DnsQuery.bytes
    rw [List.append_assoc, List.append_assoc, slice_append_right query.header_length.le, query.header_length,
      ← List.append_assoc,
      slice_append_left (by rw [List.length_append, Vector.length_toList]; omega)]
    exact List.take_of_length_le
      (by rw [Nat.sub_self, List.drop_zero, List.length_append, Vector.length_toList]; omega)
  rw [hid, hquestion]
  unfold DnsQuery.answer
  change _ ++ [] ++ _ = _
  rw [List.append_nil, List.append_assoc _ (nameBytes _)]

/-- A phone asks for a name, with an additional record after the question. -/
def phoneQuery : DnsQuery where
  id := 0x1234
  flags := 0x0100
  questionCount := 1
  otherCounts := #v[0, 0, 0, 0, 0, 1]
  name := [ascii "captive", ascii "example"]
  kind := #v[0, 1, 0, 1]
  rest := [0, 0, 41, 4, 0xd0, 0, 0, 0, 0, 0, 0]
  standard := by decide
  asks := by decide
  labels := by decide
  name_length := by decide

theorem dns_query_answered_phone : dnsServerProcess (fun _ => 77) phoneQuery.bytes ⟨#[192, 168, 4, 1], rfl⟩ =
    some ([0x12, 0x34, 0x84, 0x80, 0, 1, 0, 1, 0, 0, 0, 0] ++ [7] ++ ascii "captive" ++ [7] ++
      ascii "example" ++ [0, 0, 1, 0, 1] ++
      [0xc0, 12, 0, 1, 0, 1, 0, 0, 0, 60, 0, 4, 192, 168, 4, 1]) :=
  (dns_query_answered (fun _ => 77) phoneQuery ⟨#[192, 168, 4, 1], rfl⟩).trans (by decide +kernel)

/-! ## Any packet -/

theorem addressRecord_length (ip : Ip4) : (addressRecord ip).length = 16 := by
  unfold addressRecord
  rw [List.length_append, ip4_length]
  rfl

/-- Nothing is written beside the message. -/
theorem dnsMsg_outside {r : Mem × Nat} (h : dnsMsg stack p ip = some r) {i : Nat}
    (hi : MAX_DNS_MSG_SIZE ≤ i) : r.1 i = stack i := by
  have hmax : MAX_DNS_MSG_SIZE = 300 := rfl
  have hheader : replyHeader.length = 10 := rfl
  have hrecord := addressRecord_length ip
  obtain ⟨ptr, hquestion, rfl⟩ := Option.map_eq_some_iff.1 h
  obtain ⟨-, -, hbound, -⟩ := dnsQuestion_le hquestion
  rw [dnsAnswer_eq]
  dsimp only
  rw [put_outside (by omega), put_outside (by omega), put_outside]
  right
  rw [List.length_take]
  omega

/-- A server does not answer a reply. -/
theorem reply_ignored (a b : Bytes) (ha : a.length = 2) (stack : Mem) (ip : Ip4) :
    dnsServerProcess stack (a ++ replyHeader ++ b) ip = none := by
  have hread := read_memOf_part a replyHeader b rfl
  rw [ha] at hread
  have hfirst := read_getElem? (memOf (a ++ replyHeader ++ b)) 2 (show 0 < replyHeader.length by decide)
  have hsecond := read_getElem? (memOf (a ++ replyHeader ++ b)) 2 (show 1 < replyHeader.length by decide)
  rw [hread] at hfirst hsecond
  have hflags : lwipNtohs (memOf (a ++ replyHeader ++ b)) DNS_FLAGS = 0x8480 := by
    unfold lwipNtohs
    rw [← show (0x84 : UInt8) = memOf (a ++ replyHeader ++ b) DNS_FLAGS from Option.some.inj hfirst,
      ← show (0x80 : UInt8) = memOf (a ++ replyHeader ++ b) (DNS_FLAGS + 1) from Option.some.inj hsecond]
    rfl
  rw [dnsServerProcess_eq, Option.map_eq_none_iff]
  unfold dnsQuestion
  dsimp only
  rw [hflags, if_pos (show (0x8480 : UInt16) >>> 15 &&& 0x1 ≠ 0 by decide)]
  exact ite_self none

/-- **What a reply can show.** Whether a packet is answered depends on the packet
alone, and so does where its question ends. The reply has at most 67 bytes of the
stack, which are those after a question that is cut short; nothing is written
beside the message, and no server answers the reply. -/
theorem dns_reply_parts (p : Bytes) :
    let question := dnsQuestion (memOf p) (p.take MAX_DNS_MSG_SIZE).length
    (∀ ptr ∈ question, ptr ≤ 271 ∧ ptr ≤ p.length + 67) ∧ ∀ stack ip,
    dnsServerProcess stack p ip = question.map (fun ptr =>
      slice p 0 2 ++ replyHeader ++ slice p 12 (ptr - 12) ++ read stack p.length (ptr - p.length) ++
        addressRecord ip) ∧
    (∀ msg ∈ dnsMsg stack p ip, ∀ i, MAX_DNS_MSG_SIZE ≤ i → msg.1 i = stack i) ∧
    ∀ r ∈ dnsServerProcess stack p ip, ∀ stack' ip', dnsServerProcess stack' r ip' = none := by
  have hmax : MAX_DNS_MSG_SIZE = 300 := rfl
  refine ⟨?_, fun stack ip => ⟨dnsServerProcess_eq stack p ip, ?_, ?_⟩⟩
  · intro ptr hptr
    obtain ⟨-, -, hbound, hend⟩ := dnsQuestion_le hptr
    rw [List.length_take] at hend
    omega
  · intro msg hmsg i hi
    exact dnsMsg_outside hmsg hi
  · intro r hr stack' ip'
    rw [dnsServerProcess_eq] at hr
    obtain ⟨ptr, hquestion, rfl⟩ := Option.map_eq_some_iff.1 hr
    obtain ⟨hlen, -⟩ := dnsQuestion_le hquestion
    rw [List.length_take] at hlen
    simp only [List.append_assoc]
    rw [← List.append_assoc]
    exact reply_ignored _ _ (slice_length p 0 2 (by omega)) stack' ip'

/-- A query that ends in the first label. -/
def cutShort : Bytes := [0xab, 0xcd, 1, 0, 0, 1, 0, 0, 0, 0, 0, 0, 3]

theorem cutShort_question : dnsQuestion (memOf cutShort) 13 = some 20 := by
  have hend : questionEnd (memOf cutShort) 13 SIZEOF_DNS_HEADER = some 16 := by
    rw [questionEnd, questionEnd]
    rfl
  unfold dnsQuestion
  rw [hend]
  rfl

theorem cutShort_reply : dnsServerProcess (fun _ => 77) cutShort ⟨#[192, 168, 4, 1], rfl⟩ =
    some ([0xab, 0xcd] ++ replyHeader ++ [3, 77, 77, 77, 77, 77, 77, 77] ++
      addressRecord ⟨#[192, 168, 4, 1], rfl⟩) := by
  rw [dnsServerProcess_eq]
  exact (congrArg _ cutShort_question).trans rfl

theorem dns_reply_parts_cutShort : dnsServerProcess (fun _ => 0)
    ([0xab, 0xcd] ++ replyHeader ++ [3, 77, 77, 77, 77, 77, 77, 77] ++ addressRecord ⟨#[192, 168, 4, 1], rfl⟩)
    ⟨#[10, 0, 0, 1], rfl⟩ = none := by
  obtain ⟨-, hparts⟩ := dns_reply_parts cutShort
  exact (hparts (fun _ => 77) ⟨#[192, 168, 4, 1], rfl⟩).2.2 _ cutShort_reply _ _

end BLEBridge
