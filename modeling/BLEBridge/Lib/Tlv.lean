import BLEBridge.Lib.Datagram
/-!
# Records with a tag and a length

A list of records in memory, each a tag, the length of its value and the value,
up to a limit or a tag that ends the list. `scanTlv` looks for the first record
with a tag; over records that stand whole in memory it finds what is there, and
reads nothing else (`scanTlv_records`).
-/

namespace Lib

structure Tlv where
  tag : UInt8
  value : Bytes

def Tlv.bytes (t : Tlv) : Bytes := t.tag :: UInt8.ofNat t.value.length :: t.value

def tlvBytes (ts : List Tlv) : Bytes := ts.flatMap Tlv.bytes

/-- Where the first record with the tag starts, from the record at `i` on. -/
def scanTlv (m : Mem) (stop tag : UInt8) (limit i : Nat) : Option Nat :=
  if i < limit ∧ m i ≠ stop then
    if m i = tag then some i
    else scanTlv m stop tag limit (i + 2 + (m (i + 1)).toNat)
  else none
termination_by limit - i

/-- A record that can be written, in a list that the tag `stop` ends. -/
def Tlv.Valid (stop : UInt8) (t : Tlv) : Prop := t.tag ≠ stop ∧ t.value.length < 256

/-- The value of the first record with the tag stands at `k + 2`. -/
structure FoundAt (m : Mem) (t : Tlv) (k : Nat) : Prop where
  tag : m k = t.tag
  length : m (k + 1) = UInt8.ofNat t.value.length
  value : read m (k + 2) t.value.length = t.value

variable {m : Mem} {stop tag : UInt8} {limit i : Nat}

theorem tlv_length (t : Tlv) : t.bytes.length = 2 + t.value.length := by
  unfold Tlv.bytes
  rw [List.length_cons, List.length_cons]
  omega

theorem tlvBytes_cons (t : Tlv) (ts : List Tlv) : tlvBytes (t :: ts) = t.bytes ++ tlvBytes ts := List.flatMap_cons

theorem foundAt_of_read {t : Tlv} (h : read m i t.bytes.length = t.bytes) : FoundAt m t i := by
  have hlength := tlv_length t
  refine ⟨?_, ?_, ?_⟩
  · have hget := read_getElem? m i (show 0 < t.bytes.length by omega)
    rw [h] at hget
    exact (Option.some.inj hget).symm
  · have hget := read_getElem? m i (show 1 < t.bytes.length by omega)
    rw [h] at hget
    exact (Option.some.inj hget).symm
  · have hvalue := read_of_read h 2 t.value.length (by omega)
    rw [hvalue]
    exact List.take_length

/-- Over whole records, ended by `stop` or the limit, the scan finds the first one
with the tag. -/
theorem scanTlv_records (tag : UInt8) {ts : List Tlv} (hvalid : ∀ t ∈ ts, t.Valid stop)
    (hread : read m i (tlvBytes ts).length = tlvBytes ts) (hlimit : i + (tlvBytes ts).length ≤ limit)
    (hend : i + (tlvBytes ts).length < limit → m (i + (tlvBytes ts).length) = stop) :
    (ts.find? (·.tag = tag) = none → scanTlv m stop tag limit i = none) ∧
      ∀ t, ts.find? (·.tag = tag) = some t → ∃ k, scanTlv m stop tag limit i = some k ∧ FoundAt m t k ∧
        i ≤ k ∧ k + t.bytes.length ≤ i + (tlvBytes ts).length := by
  induction ts generalizing i with
  | nil =>
    refine ⟨fun _ => ?_, fun t h => by cases h⟩
    rw [scanTlv, if_neg]
    rintro ⟨hi, hne⟩
    exact hne (hend hi)
  | cons t ts ih =>
    have hlength := tlv_length t
    rw [tlvBytes_cons, List.length_append] at hread hlimit hend
    obtain ⟨htag, hvalue⟩ := hvalid t List.mem_cons_self
    have hfirst : read m i t.bytes.length = t.bytes := by
      rw [read_append] at hread
      exact (List.append_inj hread (read_length ..)).1
    have hrest : read m (i + t.bytes.length) (tlvBytes ts).length = tlvBytes ts := by
      rw [read_append] at hread
      exact (List.append_inj hread (read_length ..)).2
    have hfound := foundAt_of_read hfirst
    have hnext : i + 2 + (m (i + 1)).toNat = i + t.bytes.length := by
      rw [hfound.length, UInt8.toNat_ofNat_of_lt' hvalue, hlength]
      omega
    rw [scanTlv, if_pos ⟨by omega, by rw [hfound.tag]; exact htag⟩, hfound.tag, List.find?_cons]
    by_cases heq : t.tag = tag
    · rw [if_pos heq, decide_eq_true heq]
      dsimp only
      refine ⟨fun h => (by cases h), fun t' h => ?_⟩
      obtain rfl := Option.some.inj h
      refine ⟨i, rfl, hfound, le_refl i, ?_⟩
      rw [tlvBytes_cons, List.length_append]
      omega
    · rw [if_neg heq, decide_eq_false heq, hnext]
      dsimp only
      obtain ⟨hnone, hsome⟩ := ih (fun t' ht' => hvalid t' (List.mem_cons_of_mem t ht')) hrest (by omega)
        (by rw [Nat.add_assoc]; exact fun h => hend (by omega))
      refine ⟨hnone, fun t' h => ?_⟩
      obtain ⟨k, hscan, hat, hle, hk⟩ := hsome t' h
      refine ⟨k, hscan, hat, by omega, ?_⟩
      rw [tlvBytes_cons, List.length_append]
      omega

end Lib
