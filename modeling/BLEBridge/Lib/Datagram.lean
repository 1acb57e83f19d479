import BLEBridge.Lib.NorFlash
/-!
# Datagram buffers

A buffer is memory that still holds what was there before. A datagram is copied
to its start and changed in place, and then its first bytes are sent.
-/

namespace Lib

variable {m : Mem} {off i n : Nat} {data : Bytes}

/-- The bytes of `data` stored at `off`. -/
def put (m : Mem) (off : Nat) (data : Bytes) : Mem := patch m off (fun i => data.getD i 0) data.length

/-- A received datagram. -/
def memOf (r : Bytes) : Mem := fun i => r.getD i 0

theorem put_inside (h : i < data.length) : put m off data (off + i) = data[i] := by
  unfold put patch
  rw [if_pos (by omega), Nat.add_sub_cancel_left]
  exact getD_of_lt data i 0 h

theorem put_outside (h : i < off ∨ off + data.length ≤ i) : put m off data i = m i := if_neg (by omega)

/-- Two stores next to each other are one. -/
theorem put_append (m : Mem) (off : Nat) (a b : Bytes) :
    put (put m off a) (off + a.length) b = put m off (a ++ b) := by
  funext i
  by_cases hi : i < off ∨ off + (a ++ b).length ≤ i
  · rw [List.length_append] at hi
    rw [put_outside (by omega), put_outside (by omega), put_outside (by rw [List.length_append]; exact hi)]
  · obtain ⟨k, rfl⟩ := Nat.exists_eq_add_of_le (Nat.not_lt.1 fun h => hi (.inl h))
    have hk : k < (a ++ b).length := Nat.not_le.1 fun h => hi (.inr (Nat.add_le_add_left h off))
    rw [put_inside hk]
    rcases Nat.lt_or_ge k a.length with ha | ha
    · rw [put_outside (.inl (Nat.add_lt_add_left ha off)), put_inside ha, List.getElem_append_left ha]
    · obtain ⟨j, rfl⟩ := Nat.exists_eq_add_of_le ha
      have hj : j < b.length := by
        rw [List.length_append] at hk
        omega
      rw [← Nat.add_assoc, put_inside hj, List.getElem_append_right ha]
      simp

theorem read_put_self (m : Mem) (off : Nat) (data : Bytes) : read (put m off data) off data.length = data :=
  read_eq_of_getD rfl 0 fun i h => by rw [put_inside h, getD_of_lt data i 0 h]

theorem read_put_outside {pos : Nat} (h : pos + n ≤ off ∨ off + data.length ≤ pos) :
    read (put m off data) pos n = read m pos n := by
  rw [read_eq_iff]
  intro i hi
  exact put_outside (by omega)

theorem read_append (m : Mem) (off a b : Nat) : read m off (a + b) = read m off a ++ read m (off + a) b := by
  unfold read
  rw [List.range_add, List.map_append, List.map_map]
  simp only [Function.comp_def, Nat.add_assoc]

theorem read_getElem? (m : Mem) (off : Nat) (h : i < n) : (read m off n)[i]? = some (m (off + i)) := by
  unfold read
  rw [List.getElem?_map, List.getElem?_range h]
  rfl

/-- What is read from a part of what was read. -/
theorem read_of_read (h : read m off n = data) (pos k : Nat) (hle : pos + k ≤ n) :
    read m (off + pos) k = (data.drop pos).take k := by
  have hk : n = pos + (k + (n - (pos + k))) := by omega
  rw [← h, hk, read_append, List.drop_left' (read_length ..), read_append, List.take_left' (read_length ..)]

theorem read_memOf {r : Bytes} (h : off + n ≤ r.length) : read (memOf r) off n = slice r off n :=
  read_eq_of_getD (slice_length r off n h) 0 fun i hi => (slice_getD r off n i hi 0).symm

theorem slice_append_right {a b : Bytes} (h : a.length ≤ off) :
    slice (a ++ b) off n = slice b (off - a.length) n := by
  unfold slice
  rw [List.drop_append, List.drop_eq_nil_of_le h, List.nil_append]

theorem slice_append_left {a b : Bytes} (h : off + n ≤ a.length) : slice (a ++ b) off n = slice a off n := by
  unfold slice
  rw [List.drop_append_of_le_length (by omega), List.take_append_of_le_length (by rw [List.length_drop]; omega)]

/-- A part of a datagram. -/
theorem read_memOf_part (a b c : Bytes) {r : Bytes} (hr : r = a ++ b ++ c) :
    read (memOf r) a.length b.length = b := by
  have hle : a.length + b.length ≤ r.length := by
    rw [hr, List.length_append, List.length_append]
    exact Nat.le_add_right _ _
  rw [read_memOf hle, hr, List.append_assoc, slice_append_right (le_refl _), Nat.sub_self,
    slice_append_left (Nat.zero_add _).le]
  exact List.take_length

end Lib
