import Mathlib
/-!
# Byte strings
-/

namespace Lib

abbrev Bytes := List UInt8

/-- `n` bytes of `data` from index `off`. -/
def slice (data : Bytes) (off n : Nat) : Bytes := (data.drop off).take n

theorem getD_of_lt (data : Bytes) (i : Nat) (b : UInt8) (h : i < data.length) : data.getD i b = data[i] := by
  simp [List.getD, List.getElem?_eq_getElem h]

theorem slice_length (data : Bytes) (off n : Nat) (h : off + n ≤ data.length) :
    (slice data off n).length = n := by
  simp [slice]; omega

theorem slice_getD (data : Bytes) (off n j : Nat) (h : j < n) (b : UInt8) :
    (slice data off n).getD j b = data.getD (off + j) b := by
  simp [slice, List.getD, h]

/-! ## Copying into a buffer -/

/-- `memcpy(buf + off, data, ...)` and `memset(buf + off, ...)`. -/
def memcpy (buf : Bytes) (off : Nat) (data : Bytes) : Bytes :=
  buf.take off ++ data ++ buf.drop (off + data.length)

theorem memcpy_take (buf data : Bytes) (off : Nat) (h : off ≤ buf.length) :
    (memcpy buf off data).take (off + data.length) = buf.take off ++ data := by
  rw [memcpy, List.take_left']
  simp [h]

theorem memcpy_length (buf data : Bytes) (off : Nat) (h : off + data.length ≤ buf.length) :
    (memcpy buf off data).length = buf.length := by
  simp [memcpy]; omega

/-- The bytes that were copied are the data, the others are as before. -/
theorem memcpy_getD (buf data : Bytes) (off : Nat) (h : off ≤ buf.length) (i : Nat) (b : UInt8) :
    (memcpy buf off data).getD i b = if off ≤ i ∧ i < off + data.length then data.getD (i - off) b
    else buf.getD i b := by
  have hl : (buf.take off).length = off := by rw [List.length_take, min_eq_left h]
  unfold memcpy
  rcases Nat.lt_or_ge i off with hlt | hge
  · rw [if_neg (by omega), List.append_assoc, List.getD_append _ _ _ _ (by omega)]
    simp [List.getD, hlt]
  · by_cases hin : i < off + data.length
    · rw [if_pos ⟨hge, hin⟩, List.getD_append _ _ _ _ (by rw [List.length_append]; omega),
        List.getD_append_right _ _ _ _ (by omega), hl]
    · rw [if_neg (by omega), List.getD_append_right _ _ _ _ (by rw [List.length_append]; omega),
        List.length_append, hl]
      simp [List.getD, List.getElem?_drop]
      congr 2
      omega

end Lib
