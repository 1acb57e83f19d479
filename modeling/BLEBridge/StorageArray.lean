import BLEBridge.Storage
/-!
# The storage as an array of bytes

What the users of `storage_backend.c` see is an array of `STORAGE.length` bytes
that reads return and writes change (`storage_is_array`). A write that
`flash_safe_execute` stops has stored what lies in the sectors before.
-/
open Lib

namespace BLEBridge

/-- The bytes of the storage, from its start. -/
def content (m : Mem) : Mem := fun i => m (STORAGE.offset + i)

/-- Every read inside the storage returns the bytes of `array`. -/
def StorageHolds (m array : Mem) : Prop :=
  ∀ byteOffset size : UInt32, byteOffset.toNat + size.toNat ≤ STORAGE.length →
    storageBackendRead m byteOffset size = some (read array byteOffset.toNat size.toNat)

/-- The flash outside the storage is the same. -/
def OutsideUnchanged (m m' : Mem) : Prop := ∀ i, i < STORAGE.offset ∨ STORAGE.offset + STORAGE.length ≤ i →
  m' i = m i

theorem storageHolds_content (m : Mem) : StorageHolds m (content m) := by
  intro byteOffset size h
  unfold storageBackendRead
  rw [if_neg (by rw [(boundsCheck_iff byteOffset size).2 h]; decide), offsetBytes_toNat]
  apply congrArg some
  rw [read_eq_iff]
  intro i _
  unfold content
  rw [Nat.add_assoc]

theorem content_patch (m data : Mem) (start len : Nat) :
    content (patch m (STORAGE.offset + start) data len) = patch (content m) start data len := by
  funext i
  unfold content patch
  by_cases h : start ≤ i ∧ i < start + len
  · rw [if_pos h, if_pos (by omega), Nat.add_sub_add_left]
  · rw [if_neg h, if_neg (by omega)]

theorem outside_patch (m data : Mem) {start len : Nat} (h : start + len ≤ STORAGE.length) :
    OutsideUnchanged m (patch m (STORAGE.offset + start) data len) := by
  intro i hi
  unfold patch
  rw [if_neg (by omega)]

/-- After `start` the array holds the first `len` bytes of the data, and is as before elsewhere. -/
theorem storageHolds_patch (m data : Mem) (start len : Nat) :
    StorageHolds (patch m (STORAGE.offset + start) data len) (patch (content m) start data len) := by
  rw [← content_patch]
  exact storageHolds_content _

/-- The sectors before the one that fails end at a sector boundary. -/
theorem sectorBytes_boundary {byteOffset size k : Nat} (hk : sectorBytes byteOffset size k < size) :
    k = 0 ∨ (byteOffset + sectorBytes byteOffset size k) % FLASH_SECTOR_SIZE = 0 := by
  have hs : FLASH_SECTOR_SIZE = 4096 := rfl
  unfold sectorBytes at hk ⊢
  rw [hs] at hk ⊢
  rcases Nat.eq_zero_or_pos k with h | h
  · exact .inl h
  · right
    rw [Nat.min_eq_right (by omega)]
    omega

/-- A write inside the storage that nothing stops. -/
theorem storageBackendWrite_clean {fault : Nat → Bool} (m data : Mem) {byteOffset size : UInt32}
    (hin : byteOffset.toNat + size.toNat ≤ STORAGE.length)
    (hclean : ∀ k, sectorBytes byteOffset.toNat size.toNat k < size.toNat → fault k = false) :
    storageBackendWrite fault byteOffset size data m =
      (true, patch m (STORAGE.offset + byteOffset.toNat) data size.toNat) := by
  obtain ⟨hok, -⟩ := writeLoop_spec fault data 0 byteOffset.toNat size.toNat 0 m
  simp only [Nat.zero_add] at hok
  unfold storageBackendWrite
  rw [if_neg (by rw [(boundsCheck_iff byteOffset size).2 hin]; decide), hok hclean]

/-- **The storage is an array of bytes.** A write inside it changes exactly the
bytes it is given, or when the `k`-th sector fails those in the sectors before;
any other access is refused. -/
theorem storage_is_array (fault : Nat → Bool) (m data : Mem) (byteOffset size : UInt32) :
    let w := storageBackendWrite fault byteOffset size data m
    (byteOffset.toNat + size.toNat ≤ STORAGE.length →
      ((∀ k, sectorBytes byteOffset.toNat size.toNat k < size.toNat → fault k = false) →
        w.1 = true ∧ StorageHolds w.2 (patch (content m) byteOffset.toNat data size.toNat) ∧
          OutsideUnchanged m w.2) ∧
      ∀ k, sectorBytes byteOffset.toNat size.toNat k < size.toNat → fault k = true → (∀ j < k, fault j = false) →
        w.1 = false ∧ StorageHolds w.2
          (patch (content m) byteOffset.toNat data (sectorBytes byteOffset.toNat size.toNat k)) ∧
          OutsideUnchanged m w.2 ∧ (k = 0 ∨
            (byteOffset.toNat + sectorBytes byteOffset.toNat size.toNat k) % FLASH_SECTOR_SIZE = 0)) ∧
    (STORAGE.length < byteOffset.toNat + size.toNat → w = (false, m) ∧
      storageBackendRead m byteOffset size = none) := by
  intro w
  constructor
  · intro hin
    have hw : w = storageWriteLoop fault data 0 byteOffset.toNat size.toNat 0 m :=
      if_neg (by rw [(boundsCheck_iff byteOffset size).2 hin]; decide)
    obtain ⟨-, hfail⟩ := writeLoop_spec fault data 0 byteOffset.toNat size.toNat 0 m
    simp only [Nat.zero_add] at hfail
    constructor
    · intro hclean
      have hout := outside_patch m data hin
      have hholds := storageHolds_patch m data byteOffset.toNat size.toNat
      have hres : w = (true, patch m (STORAGE.offset + byteOffset.toNat) data size.toNat) :=
        storageBackendWrite_clean m data hin hclean
      simp only [hres]
      exact ⟨trivial, hholds, hout⟩
    · intro k hk hf hbefore
      have hle : byteOffset.toNat + sectorBytes byteOffset.toNat size.toNat k ≤ STORAGE.length := by omega
      have hout := outside_patch m data hle
      have hholds := storageHolds_patch m data byteOffset.toNat (sectorBytes byteOffset.toNat size.toNat k)
      have hres : w = (false, patch m (STORAGE.offset + byteOffset.toNat) data
          (sectorBytes byteOffset.toNat size.toNat k)) := by
        rw [hw, hfail k hk hf hbefore]
      simp only [hres]
      exact ⟨trivial, hholds, hout, sectorBytes_boundary hk⟩
  · intro hout
    have hcheck : storageBackendBoundsCheck byteOffset size = false := by
      rw [← Bool.not_eq_true, boundsCheck_iff]
      omega
    exact ⟨if_pos hcheck, if_pos hcheck⟩

end BLEBridge
