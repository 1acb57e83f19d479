import BLEBridge.Storage
/-!
# Block accesses

What a block access does, with its byte range computed without wrap-around. The
addresses are computed in 32 bits before the bounds check sees them, so the
check is on the range taken modulo 2³² (`block_access_iff`).
-/
open Lib

namespace BLEBridge

/-- A read of `len` bytes at `start` succeeds only inside the storage, and then
reads exactly these bytes. -/
def ReadsExactly (m : Mem) (start len : Nat) (ok : Bool) (buffer : Option Bytes) : Prop :=
  (ok = true → start + len ≤ STORAGE.length ∧ buffer = some (read m (STORAGE.offset + start) len)) ∧
    (ok = false → buffer = none)

/-- A write of `len` bytes at `start` succeeds only inside the storage, and then
changes exactly these bytes; otherwise it changes nothing. -/
def WritesExactly (m data : Mem) (start len : Nat) (ok : Bool) (m' : Mem) : Prop :=
  (ok = true → start + len ≤ STORAGE.length ∧ m' = patch m (STORAGE.offset + start) data len) ∧
    (ok = false → m' = m)

theorem writesExactly_true (m data : Mem) (start len : Nat) (m' : Mem) : WritesExactly m data start len true m' ↔
    start + len ≤ STORAGE.length ∧ m' = patch m (STORAGE.offset + start) data len :=
  ⟨fun h => h.1 rfl, fun h => ⟨fun _ => h, fun hf => (by cases hf)⟩⟩

theorem writesExactly_false (m data : Mem) (start len : Nat) (m' : Mem) :
    WritesExactly m data start len false m' ↔ m' = m :=
  ⟨fun h => h.2 rfl, fun h => ⟨fun hf => (by cases hf), fun _ => h⟩⟩

/-- Start and length fit in 32 bits. -/
def Fits32 (start len : Nat) : Prop := start < 2 ^ 32 ∧ len < 2 ^ 32

/-- The bounds check fails for the low 32 bits of start and length. -/
def Rejected (start len : Nat) : Prop := STORAGE.length < start % 2 ^ 32 + len % 2 ^ 32

/-- No `flash_safe_execute` of the write fails. -/
def FlashCompletes (fault : Nat → Bool) (start len : Nat) : Prop :=
  ∀ k, sectorBytes (start % 2 ^ 32) (len % 2 ^ 32) k < len % 2 ^ 32 → fault k = false

/-- When the first `flash_safe_execute` fails, the sectors before held the data
already. -/
def FailureHarmless (fault : Nat → Bool) (m data : Mem) (start len : Nat) : Prop :=
  ∀ k, sectorBytes (start % 2 ^ 32) (len % 2 ^ 32) k < len % 2 ^ 32 → fault k = true →
    (∀ j < k, fault j = false) →
    ∀ i < sectorBytes (start % 2 ^ 32) (len % 2 ^ 32) k, m (STORAGE.offset + start % 2 ^ 32 + i) = data i

section
variable {byteOffset size : UInt32} {start len : Nat} (hb : byteOffset.toNat = start % 2 ^ 32)
  (hs : size.toNat = len % 2 ^ 32)
include hb hs

theorem boundsCheck_false_iff : storageBackendBoundsCheck byteOffset size = false ↔ Rejected start len := by
  unfold Rejected
  rw [← Bool.not_eq_true, boundsCheck_iff, hb, hs, Nat.not_le]

/-- An access that passes the check is inside the storage if nothing wrapped. -/
theorem inside_iff_fits32 (hc : storageBackendBoundsCheck byteOffset size = true) :
    start + len ≤ STORAGE.length ↔ Fits32 start len := by
  have hl : STORAGE.length = 131072 := rfl
  have hin := (boundsCheck_iff byteOffset size).1 hc
  rw [hb, hs] at hin
  unfold Fits32
  constructor
  · intro h
    omega
  · rintro ⟨h1, h2⟩
    rwa [Nat.mod_eq_of_lt h1, Nat.mod_eq_of_lt h2] at hin

theorem read_exact_iff (m : Mem) :
    ReadsExactly m start len (storageBackendRead m byteOffset size).isSome
      (storageBackendRead m byteOffset size) ↔
        Fits32 start len ∨ Rejected start len := by
  unfold storageBackendRead
  cases hc : storageBackendBoundsCheck byteOffset size with
  | false =>
    have hr := (boundsCheck_false_iff hb hs).1 hc
    rw [if_pos rfl]
    exact ⟨fun _ => .inr hr, fun _ => ⟨fun h => (by cases h), fun _ => rfl⟩⟩
  | true =>
    have hr : ¬Rejected start len := fun h => by
      rw [(boundsCheck_false_iff hb hs).2 h] at hc
      cases hc
    rw [if_neg (by decide), offsetBytes_toNat, hb, hs, ← inside_iff_fits32 hb hs hc]
    constructor
    · intro h
      exact .inl (h.1 rfl).1
    · rintro (h | h)
      · obtain ⟨h1, h2⟩ := (inside_iff_fits32 hb hs hc).1 h
        rw [Nat.mod_eq_of_lt h1, Nat.mod_eq_of_lt h2]
        exact ⟨fun _ => ⟨h, rfl⟩, fun h => (by cases h)⟩
      · exact absurd h hr

theorem write_exact_iff (fault : Nat → Bool) (m data : Mem) :
    WritesExactly m data start len (storageBackendWrite fault byteOffset size data m).1
        (storageBackendWrite fault byteOffset size data m).2 ↔
      Rejected start len ∨ (FlashCompletes fault start len → Fits32 start len) ∧
        FailureHarmless fault m data start len := by
  unfold storageBackendWrite
  cases hc : storageBackendBoundsCheck byteOffset size with
  | false =>
    have hr := (boundsCheck_false_iff hb hs).1 hc
    rw [if_pos rfl]
    exact ⟨fun _ => .inl hr, fun _ => ⟨fun h => (by cases h), fun _ => rfl⟩⟩
  | true =>
    have hr : ¬Rejected start len := fun h => by
      rw [(boundsCheck_false_iff hb hs).2 h] at hc
      cases hc
    have hin := inside_iff_fits32 hb hs hc
    obtain ⟨hok, hfail⟩ := writeLoop_spec fault data 0 byteOffset.toNat size.toNat 0 m
    simp only [Nat.zero_add, hb, hs] at hok hfail
    rw [if_neg (by decide), hb, hs, or_iff_right hr]
    by_cases hcomplete : FlashCompletes fault start len
    · have hharmless : FailureHarmless fault m data start len := fun k hk hf => by
        rw [hcomplete k hk] at hf
        cases hf
      rw [hok hcomplete]
      dsimp only
      rw [writesExactly_true, hin]
      constructor
      · rintro ⟨h, -⟩
        exact ⟨fun _ => h, hharmless⟩
      · rintro ⟨h, -⟩
        have hfits := h hcomplete
        refine ⟨hfits, ?_⟩
        rw [Nat.mod_eq_of_lt hfits.1, Nat.mod_eq_of_lt hfits.2]
    · -- the first call that fails
      have hex : ∃ k, sectorBytes (start % 2 ^ 32) (len % 2 ^ 32) k < len % 2 ^ 32 ∧ fault k = true := by
        by_contra hno
        refine hcomplete fun k hk => ?_
        by_contra hf
        exact hno ⟨k, hk, by simpa using hf⟩
      obtain ⟨hk, hf⟩ := Nat.find_spec hex
      have hbefore : ∀ j < Nat.find hex, fault j = false := fun j hj => by
        by_contra hfj
        refine Nat.find_min hex hj ⟨?_, by simpa using hfj⟩
        exact lt_of_le_of_lt (sectorBytes_mono _ _ hj.le) hk
      rw [hfail _ hk hf hbefore]
      dsimp only
      rw [writesExactly_false, patch_eq_self_iff]
      constructor
      · intro h
        refine ⟨fun h' => absurd h' hcomplete, fun k hk' hf' hbefore' => ?_⟩
        have hsame : k = Nat.find hex := by
          rcases lt_trichotomy k (Nat.find hex) with hlt | heq | hgt
          · exact absurd ⟨hk', hf'⟩ (Nat.find_min hex hlt)
          · exact heq
          · rw [hbefore' _ hgt] at hf
            cases hf
        rw [hsame]
        exact h
      · rintro ⟨-, h⟩
        exact h _ hk hf hbefore

end

/-! ## The four entry points -/

theorem toInt32_ne {bufsize : UInt32} (h : bufsize.toNat ≤ STORAGE.length) : bufsize.toInt32 ≠ -1 := fun heq => by
  have hmax : bufsize = 0xFFFFFFFF := congrArg Int32.toUInt32 heq
  rw [hmax] at h
  exact absurd h (by decide)

theorem address_toNat (lba offset : UInt32) :
    (lba * STORAGE_BLOCK_SIZE + offset).toNat = (lba.toNat * 512 + offset.toNat) % 2 ^ 32 := by
  have hblock : STORAGE_BLOCK_SIZE.toNat = 512 := rfl
  rw [UInt32.toNat_add, UInt32.toNat_mul, hblock]
  omega

theorem blocks_toNat (n : UInt32) : (n * STORAGE_BLOCK_SIZE).toNat = n.toNat * 512 % 2 ^ 32 := by
  rw [UInt32.toNat_mul]
  rfl

/-- Whether a callback succeeded. -/
def MscReply.Ok (r : MscReply) : Bool := r.ret ≠ -1

theorem size_le_of_check {byteOffset size : UInt32} (h : storageBackendBoundsCheck byteOffset size = true) :
    size.toNat ≤ STORAGE.length :=
  (Nat.le_add_left _ _).trans ((boundsCheck_iff byteOffset size).1 h)

theorem read10_eq (m : Mem) (lba offset bufsize : UInt32) :
    (tudMscRead10Cb m lba offset bufsize).1.Ok =
      (storageBackendRead m (lba * STORAGE_BLOCK_SIZE + offset) bufsize).isSome ∧
      (tudMscRead10Cb m lba offset bufsize).2 = storageBackendRead m
      (lba * STORAGE_BLOCK_SIZE + offset) bufsize := by
  unfold tudMscRead10Cb
  dsimp only
  cases hr : storageBackendRead m (lba * STORAGE_BLOCK_SIZE + offset) bufsize with
  | none => exact ⟨rfl, rfl⟩
  | some data =>
    have hc : storageBackendBoundsCheck (lba * STORAGE_BLOCK_SIZE + offset) bufsize = true := by
      by_contra hc
      unfold storageBackendRead at hr
      rw [if_pos (by simpa using hc)] at hr
      cases hr
    exact ⟨decide_eq_true (toInt32_ne (size_le_of_check hc)), rfl⟩

theorem write10_eq (fault : Nat → Bool) (m data : Mem) (lba offset bufsize : UInt32) :
    (tudMscWrite10Cb fault m lba offset data bufsize).1.Ok =
        (storageBackendWrite fault (lba * STORAGE_BLOCK_SIZE + offset) bufsize data m).1 ∧
      (tudMscWrite10Cb fault m lba offset data bufsize).2 =
        (storageBackendWrite fault (lba * STORAGE_BLOCK_SIZE + offset) bufsize data m).2 := by
  refine ⟨?_, rfl⟩
  unfold tudMscWrite10Cb
  dsimp only
  cases hw : (storageBackendWrite fault (lba * STORAGE_BLOCK_SIZE + offset) bufsize data m).1 with
  | false => rfl
  | true =>
    have hc : storageBackendBoundsCheck (lba * STORAGE_BLOCK_SIZE + offset) bufsize = true := by
      by_contra hc
      unfold storageBackendWrite at hw
      rw [if_pos (by simpa using hc)] at hw
      cases hw
    exact decide_eq_true (toInt32_ne (size_le_of_check hc))

theorem diskRead_eq (m : Mem) (sector count : UInt32) :
    decide ((diskRead m 0 sector count).1 = .resOk) =
        (storageBackendRead m (sector * STORAGE_BLOCK_SIZE) (count * STORAGE_BLOCK_SIZE)).isSome ∧
      (diskRead m 0 sector count).2 = storageBackendRead m (sector * STORAGE_BLOCK_SIZE)
      (count * STORAGE_BLOCK_SIZE) := by
  unfold diskRead
  rw [if_neg (by decide)]
  cases storageBackendRead m (sector * STORAGE_BLOCK_SIZE) (count * STORAGE_BLOCK_SIZE) <;> exact ⟨rfl, rfl⟩

theorem diskWrite_eq (fault : Nat → Bool) (m data : Mem) (sector count : UInt32) :
    decide ((diskWrite fault m 0 data sector count).1 = .resOk) =
        (storageBackendWrite fault (sector * STORAGE_BLOCK_SIZE) (count * STORAGE_BLOCK_SIZE) data m).1 ∧
      (diskWrite fault m 0 data sector count).2 =
        (storageBackendWrite fault (sector * STORAGE_BLOCK_SIZE) (count * STORAGE_BLOCK_SIZE) data m).2 := by
  unfold diskWrite
  rw [if_neg (by decide)]
  have hresult : ∀ b : Bool, decide ((if b then DResult.resOk else .resError) = .resOk) = b := by decide
  exact ⟨hresult _, rfl⟩

/-- **When a block access is on exactly the range it names.** For the USB
callbacks and the block device of FatFs: when start and length do not wrap
around 2³², or the check rejects what is left of them. A write must moreover not
have changed anything when a later `flash_safe_execute` fails. -/
theorem block_access_iff (fault : Nat → Bool) (m data : Mem) (lba offset bufsize : UInt32) (pdrv : UInt8)
    (sector count : UInt32) :
    (ReadsExactly m (lba.toNat * 512 + offset.toNat) bufsize.toNat (tudMscRead10Cb m lba offset bufsize).1.Ok
        (tudMscRead10Cb m lba offset bufsize).2 ↔
      Fits32 (lba.toNat * 512 + offset.toNat) bufsize.toNat ∨
        Rejected (lba.toNat * 512 + offset.toNat) bufsize.toNat) ∧
    (WritesExactly m data (lba.toNat * 512 + offset.toNat) bufsize.toNat
        (tudMscWrite10Cb fault m lba offset data bufsize).1.Ok
        (tudMscWrite10Cb fault m lba offset data bufsize).2 ↔
      Rejected (lba.toNat * 512 + offset.toNat) bufsize.toNat ∨
        (FlashCompletes fault (lba.toNat * 512 + offset.toNat) bufsize.toNat →
          Fits32 (lba.toNat * 512 + offset.toNat) bufsize.toNat) ∧
        FailureHarmless fault m data (lba.toNat * 512 + offset.toNat) bufsize.toNat) ∧
    (ReadsExactly m (sector.toNat * 512) (count.toNat * 512) (decide ((diskRead m pdrv sector count).1 = .resOk))
        (diskRead m pdrv sector count).2 ↔
      pdrv ≠ 0 ∨ Fits32 (sector.toNat * 512) (count.toNat * 512) ∨
        Rejected (sector.toNat * 512) (count.toNat * 512)) ∧
    (WritesExactly m data (sector.toNat * 512) (count.toNat * 512)
        (decide ((diskWrite fault m pdrv data sector count).1 = .resOk))
        (diskWrite fault m pdrv data sector count).2 ↔
      pdrv ≠ 0 ∨ Rejected (sector.toNat * 512) (count.toNat * 512) ∨
        (FlashCompletes fault (sector.toNat * 512) (count.toNat * 512) →
          Fits32 (sector.toNat * 512) (count.toNat * 512)) ∧
        FailureHarmless fault m data (sector.toNat * 512) (count.toNat * 512)) := by
  have hbuf : bufsize.toNat = bufsize.toNat % 2 ^ 32 := (Nat.mod_eq_of_lt bufsize.toNat_lt).symm
  refine ⟨?_, ?_, ?_, ?_⟩
  · rw [(read10_eq m lba offset bufsize).1, (read10_eq m lba offset bufsize).2]
    exact read_exact_iff (address_toNat lba offset) hbuf m
  · rw [(write10_eq fault m data lba offset bufsize).1, (write10_eq fault m data lba offset bufsize).2]
    exact write_exact_iff (address_toNat lba offset) hbuf fault m data
  · by_cases hp : pdrv = 0
    · subst hp
      rw [(diskRead_eq m sector count).1, (diskRead_eq m sector count).2, or_iff_right (by decide)]
      exact read_exact_iff (blocks_toNat sector) (blocks_toNat count) m
    · unfold diskRead
      rw [if_pos hp]
      exact ⟨fun _ => .inl hp, fun _ => ⟨fun h => (by cases h), fun _ => rfl⟩⟩
  · by_cases hp : pdrv = 0
    · subst hp
      rw [(diskWrite_eq fault m data sector count).1, (diskWrite_eq fault m data sector count).2,
        or_iff_right (by decide)]
      exact write_exact_iff (blocks_toNat sector) (blocks_toNat count) fault m data
    · unfold diskWrite
      rw [if_pos hp]
      exact ⟨fun _ => .inl hp, fun _ => ⟨fun h => (by cases h), fun _ => rfl⟩⟩

/-- Block 2²³ is read as block 0. -/
theorem read10_wraps : (tudMscRead10Cb (fun _ => 0xff) 0x800000 0 512).1.Ok = true ∧
    ¬ReadsExactly (fun _ => 0xff) (0x800000 * 512) 512 (tudMscRead10Cb (fun _ => 0xff) 0x800000 0 512).1.Ok
      (tudMscRead10Cb (fun _ => 0xff) 0x800000 0 512).2 := by
  have hok : (tudMscRead10Cb (fun _ => 0xff) 0x800000 0 512).1.Ok = true := by
    rw [(read10_eq _ _ _ _).1]
    rfl
  exact ⟨hok, fun h => absurd (h.1 hok).1 (by decide)⟩

end BLEBridge
