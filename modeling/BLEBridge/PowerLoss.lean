import BLEBridge.Bootloader
/-!
# Power loss while an update is applied

`Boots m₀` are the memories that boots from `m₀` go through when the power can
be cut after any flash operation. If an update is applicable in `m₀` every one
of them is `Pending` (only sectors of the active firmware have changed, so the
next boot starts over) or `Applied`; otherwise nothing ever changes.
-/
open Lib

namespace BLEBridge

/-- The flash at any moment of a run of boots from `m₀`. -/
abbrev Boots : Mem → Mem → Prop := CutRuns fun m => (bootloaderMain m).2.log

/-- Only the sectors that the image is copied to have changed. -/
def Pending (m₀ m : Mem) : Prop :=
  ∀ i, i < FLASH.offset ∨ FLASH.offset + 4096 * pendingSectors m₀ ≤ i → m i = m₀ i

/-- The image has been copied and the metadata sector erased. -/
structure Applied (m₀ m : Mem) : Prop where
  active : ∀ i < 4096 * pendingSectors m₀, m (FLASH.offset + i) = m₀ (FIRMWARE_COPY.offset + i)
  metadata : ∀ i, UPDATE_METADATA.Has i → m i = 0xff
  outside : ∀ i, ¬UPDATE_METADATA.Has i → i < FLASH.offset ∨ FLASH.offset + 4096 * pendingSectors m₀ ≤ i →
    m i = m₀ i

variable {m₀ m : Mem}

theorem pendingSectors_le (h : Applicable m₀) : 4096 * pendingSectors m₀ ≤ 917504 := by
  have := pendingSize_le h
  simp only [pendingSectors]
  omega

theorem pendingSize_le_sectors (m : Mem) : pendingSize m ≤ 4096 * pendingSectors m := by
  simp only [pendingSectors]
  omega

/-! ## While the update is pending -/

theorem Pending.metadata (h : Pending m₀ m) : metadataSector m = metadataSector m₀ := by
  refine (read_eq_iff _ _ _ _ _).2 fun i hi => h _ (.inl ?_)
  have hs : FLASH_SECTOR_SIZE = 4096 := rfl
  simp only [metadata_offset, flash_offset]
  omega

theorem Pending.copy (h : Pending m₀ m) (ha : Applicable m₀) (n : Nat) :
    firmwareCopy m n = firmwareCopy m₀ n := by
  have := pendingSectors_le ha
  refine (read_eq_iff _ _ _ _ _).2 fun i hi => h _ (.inr ?_)
  simp only [copy_offset, flash_offset]
  omega

/-- So the next boot finds the same update. -/
theorem Pending.applicable (h : Pending m₀ m) (ha : Applicable m₀) :
    Applicable m ∧ pendingSize m = pendingSize m₀ := by
  refine ⟨⟨?_, ?_⟩, ?_⟩
  · rw [h.metadata]
    exact ha.manifest
  · rw [h.metadata, stagedValid_iff, h.copy ha, h.copy ha, ← stagedValid_iff]
    exact ha.staged
  · simp only [pendingSize, h.metadata]

theorem Pending.sectors (h : Pending m₀ m) (ha : Applicable m₀) : pendingSectors m = pendingSectors m₀ := by
  simp only [pendingSectors, (h.applicable ha).2]

/-- A boot that is cut before its last operation leaves the update pending. -/
theorem Pending.cut_early (h : Pending m₀ m) {os : List FlashOp}
    (hos : ∀ o ∈ os, o.Within FLASH.offset (FLASH.offset + 4096 * pendingSectors m₀)) :
    Pending m₀ (actAll os m) :=
  fun i hi => by rw [actAll_outside hos m hi, h i hi]

/-- The last operation completes it. -/
theorem Pending.finish (h : Pending m₀ m) (ha : Applicable m₀) : Applied m₀ (actAll (applyPlan m) m) := by
  have hle := pendingSectors_le ha
  have hmem : ∀ i, actAll (applyPlan m) m i =
      if UPDATE_METADATA.offset ≤ i ∧ i < UPDATE_METADATA.offset + 4096 then 0xff
      else if FLASH.offset ≤ i ∧ i < FLASH.offset + 4096 * pendingSectors m₀ then
        m (FIRMWARE_COPY.offset + (i - FLASH.offset))
      else m i := fun i => by
    rw [applyPlan, actAll_append, h.sectors ha, ← copySectors_mem FIRMWARE_COPY.offset FLASH.offset m _ m i,
      actAll_cons, actAll_nil, act_erase, erase]
  refine ⟨fun i hi => ?_, fun i hi => ?_, fun i hi hout => ?_⟩ <;> rw [hmem]
  · rw [if_neg (by simp only [metadata_offset, flash_offset]; omega), if_pos (by omega),
      show FLASH.offset + i - FLASH.offset = i by omega]
    exact h _ (.inr (by simp only [copy_offset, flash_offset]; omega))
  · exact if_pos hi
  · rw [if_neg (show ¬(UPDATE_METADATA.offset ≤ i ∧ i < UPDATE_METADATA.offset + 4096) from hi),
      if_neg (by omega)]
    exact h i hout

/-! ## Once it has been applied -/

theorem Applied.metadata_eq (h : Applied m₀ m) : metadataSector m = List.replicate 4096 0xff :=
  read_eq_of_getD List.length_replicate 0xff fun i hi => by
    rw [getD_of_lt _ _ _ (by rw [List.length_replicate]; exact hi), List.getElem_replicate]
    exact h.metadata _ ⟨Nat.le_add_right _ _, Nat.add_lt_add_left hi _⟩

theorem Applied.not_applicable (h : Applied m₀ m) : ¬Applicable m := by
  intro ha
  refine not_manifestOk_erased (fun i hi => ?_) ((bootValid_iff _).1 ha.manifest)
  rw [metadataSector, read_getD _ _ _ _ (by have hs : FLASH_SECTOR_SIZE = 4096 := rfl; omega)]
  exact h.metadata _ ⟨Nat.le_add_right _ _, by simp only [metadata_length]; omega⟩

theorem Applied.activeFirmware (h : Applied m₀ m) {n : Nat} (hn : n ≤ 4096 * pendingSectors m₀) :
    BLEBridge.activeFirmware m n = firmwareCopy m₀ n :=
  (read_eq_iff _ _ _ _ _).2 fun i hi => h.active i (by omega)

theorem Applied.copy (h : Applied m₀ m) (ha : Applicable m₀) (n : Nat) :
    firmwareCopy m n = firmwareCopy m₀ n := by
  have := pendingSectors_le ha
  refine (read_eq_iff _ _ _ _ _).2 fun i hi => h.outside _ (fun hm => ?_) (.inr ?_)
  · simp only [Region.Has, metadata_offset, metadata_length, copy_offset] at hm
    omega
  · simp only [copy_offset, flash_offset]
    omega

/-! ## Runs of boots -/

theorem powerCut_not_applicable (h : ¬Applicable m) (k : Nat) : powerCut k m = m := by
  rw [powerCut, main_not_applicable h]
  simp [Device.start]

/-- What one boot, cut anywhere, does to a pending update. -/
theorem Pending.powerCut (h : Pending m₀ m) (ha : Applicable m₀) (k : Nat) :
    Pending m₀ (powerCut k m) ∨ Applied m₀ (powerCut k m) := by
  rw [BLEBridge.powerCut, main_applicable (h.applicable ha).1, ← List.map_take, replay_done]
  by_cases hk : k < (applyPlan m).length
  · -- before the metadata sector is erased
    left
    rw [applyPlan, List.length_append, List.length_singleton] at hk
    rw [applyPlan, List.take_append_of_le_length (by omega)]
    refine h.cut_early fun o ho => ?_
    have := copySectors_within _ _ _ _ o (List.mem_of_mem_take ho)
    rwa [h.sectors ha] at this
  · right
    rw [List.take_of_length_le (by omega)]
    exact h.finish ha

theorem boots_powerCut (m : Mem) (k : Nat) : Boots m (BLEBridge.powerCut k m) := .cut k .start

theorem boots_applicable (ha : Applicable m₀) (h : Boots m₀ m) : Pending m₀ m ∨ Applied m₀ m := by
  refine h.inv (fun m => Pending m₀ m ∨ Applied m₀ m) (.inl fun _ _ => rfl) fun m k hm => ?_
  rcases hm with hm | hm
  · exact hm.powerCut ha k
  · right
    rw [← BLEBridge.powerCut, powerCut_not_applicable hm.not_applicable]
    exact hm

theorem boots_not_applicable (ha : ¬Applicable m₀) (h : Boots m₀ m) : m = m₀ := by
  refine h.inv (fun m => m = m₀) rfl fun m k hm => ?_
  subst hm
  exact powerCut_not_applicable ha k

/-- Once the update has been applied a boot ends in the application, by the
image's own vectors. -/
theorem Applied.jumps (h : Applied m₀ m) (ha : Applicable m₀) :
    bootloaderMain m = (.app (le32 (firmwareCopy m₀ 8) 0) (le32 (firmwareCopy m₀ 8) 4), Device.start m) := by
  have hsz := pendingSize_le_sectors m₀
  obtain ⟨⟨h8, hle⟩, hv, -⟩ := (stagedValid_iff _ _).1 ha.staged
  change 8 ≤ pendingSize m₀ at h8
  have hvec : xip m APP_IMAGE_BASE 8 = firmwareCopy m₀ 8 := h.activeFirmware (by omega)
  have hv' := appVector_mono hv hle
  rw [main_not_applicable h.not_applicable, bootloaderJumpToApp]
  simp only [hvec]
  rw [if_neg (by rw [hv']; decide)]

/-- **Applying an update survives power loss.** At any moment of any run of
boots: the staged copy is as it was, and so is the metadata sector until the
active firmware is the staged image; a boot that gets as far as the jump finds
the active firmware untouched or the whole image, rounded up to sectors; and
when an update was applicable, one boot that is not cut leaves it applied and
the next one starts it. -/
theorem apply_survives_power_loss (m₀ m : Mem) (h : Boots m₀ m) :
    ((∀ i, FIRMWARE_COPY.Has i → m i = m₀ i) ∧
      (metadataSector m = metadataSector m₀ ∨
        activeFirmware m (pendingSize m₀) = firmwareCopy m₀ (pendingSize m₀))) ∧
    (ReachesJump m → (∀ i, FLASH.Has i → m i = m₀ i) ∨
      activeFirmware m (4096 * pendingSectors m₀) = firmwareCopy m₀ (4096 * pendingSectors m₀)) ∧
    (Applicable m₀ →
      let m' := (bootloaderMain m).2.mem
      activeFirmware m' (pendingSize m₀) = firmwareCopy m₀ (pendingSize m₀) ∧
        metadataSector m' = List.replicate 4096 0xff ∧
        (bootloaderMain m').2.log = [] ∧
        (bootloaderMain m').1 = .app (le32 (firmwareCopy m₀ 8) 0) (le32 (firmwareCopy m₀ 8) 4)) := by
  by_cases ha : Applicable m₀
  · have hsz := pendingSize_le_sectors m₀
    have hcopy : ∀ i, FIRMWARE_COPY.Has i → ¬UPDATE_METADATA.Has i ∧
        (i < FLASH.offset ∨ FLASH.offset + 4096 * pendingSectors m₀ ≤ i) := fun i hi => by
      have := pendingSectors_le ha
      simp only [Region.Has, copy_offset, copy_length] at hi
      simp only [Region.Has, metadata_offset, metadata_length, flash_offset]
      omega
    have happlied : ∀ {m'}, Applied m₀ m' →
      activeFirmware m' (pendingSize m₀) = firmwareCopy m₀ (pendingSize m₀) ∧
        metadataSector m' = List.replicate 4096 0xff ∧ (bootloaderMain m').2.log = [] ∧
        (bootloaderMain m').1 = .app (le32 (firmwareCopy m₀ 8) 0) (le32 (firmwareCopy m₀ 8) 4) :=
          fun {m'} hm => by
      rw [hm.jumps ha]
      exact ⟨hm.activeFirmware hsz, hm.metadata_eq, rfl, rfl⟩
    rcases boots_applicable ha h with hm | hm
    · refine ⟨⟨fun i hi => hm i (hcopy i hi).2, .inl hm.metadata⟩, fun hj => ?_, fun _ => happlied ?_⟩
      · exact absurd (hm.applicable ha).1 ((reachesJump_iff m).1 hj)
      · rw [main_applicable (hm.applicable ha).1]
        exact hm.finish ha
    · refine ⟨⟨fun i hi => hm.outside i (hcopy i hi).1 (hcopy i hi).2, .inr (hm.activeFirmware hsz)⟩,
        fun _ => .inr (hm.activeFirmware le_rfl), fun _ => happlied ?_⟩
      rw [main_not_applicable hm.not_applicable]
      exact hm
  · obtain rfl := boots_not_applicable ha h
    exact ⟨⟨fun _ _ => rfl, .inl rfl⟩, fun _ => .inl fun _ _ => rfl, fun ha' => absurd ha' ha⟩

/-! ## A flash with an update -/

/-- A flash that holds an update, and nothing else. -/
def flashHolding (header image : Bytes) : Mem := fun i =>
  if UPDATE_METADATA.offset ≤ i ∧ i < UPDATE_METADATA.offset + 4096 then
    header.getD (i - UPDATE_METADATA.offset) 0xff
  else if FIRMWARE_COPY.offset ≤ i then image.getD (i - FIRMWARE_COPY.offset) 0xff
  else 0xff

theorem metadataSector_flashHolding {header : Bytes} (image : Bytes) (h : header.length = 4096) :
    metadataSector (flashHolding header image) = header :=
  read_eq_of_getD h 0xff fun i hi => by
    have hs : FLASH_SECTOR_SIZE = 4096 := rfl
    rw [flashHolding, if_pos (by omega), Nat.add_sub_cancel_left]

theorem firmwareCopy_flashHolding (header : Bytes) {image : Bytes} {n : Nat} (h : image.length = n) :
    firmwareCopy (flashHolding header image) n = image :=
  read_eq_of_getD h 0xff fun i _ => by
    rw [flashHolding, if_neg (by simp only [copy_offset, metadata_offset]; omega), if_pos (by omega),
      Nat.add_sub_cancel_left]

theorem vectorsOnly_applicable : Applicable (flashHolding (headerFor vectorsOnly) vectorsOnly) := by
  have hm := metadataSector_flashHolding vectorsOnly (headerFor_length vectorsOnly)
  have hc := firmwareCopy_flashHolding (headerFor vectorsOnly) (show vectorsOnly.length = 8 from rfl)
  refine ⟨?_, ?_⟩ <;> rw [hm]
  · exact (bootValid_iff _).2 (headerFor_ok (by decide) (by decide))
  · rw [stagedValid_iff, manifestOf_headerFor (by decide)]
    simp only [show vectorsOnly.length = 8 from rfl, hc]
    exact ⟨by decide, by decide, trivial⟩

theorem apply_survives_power_loss_vectorsOnly :
    let m := flashHolding (headerFor vectorsOnly) vectorsOnly
    let m' := (bootloaderMain (powerCut 5 m)).2.mem
    activeFirmware m' (pendingSize m) = firmwareCopy m (pendingSize m) ∧
      metadataSector m' = List.replicate 4096 0xff := by
  intro m m'
  obtain ⟨-, -, h⟩ := apply_survives_power_loss m (powerCut 5 m) (boots_powerCut m 5)
  obtain ⟨h1, h2, -⟩ := h vectorsOnly_applicable
  exact ⟨h1, h2⟩

end BLEBridge
