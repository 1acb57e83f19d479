import BLEBridge.FlashWriters
import BLEBridge.Confinement
import BLEBridge.PowerLoss
import BLEBridge.Update
import BLEBridge.Lib.Runs
import BLEBridge.Lib.Datagram
/-!
# The life of a bridge

The flash through any number of boots and of runs of the application, with the
power cut after any flash operation. A run makes calls on the OTA writer and writes
to the storage, in any order. The next boot always ends in an application: the one
that ran last or a whole image that was staged and passed the checks
(`firmware_lifetime`); and the storage is what its own writes make of it
(`storage_lifetime`).
-/
open Lib

namespace BLEBridge

/-! ## Runs of the application -/

/-- What writes to the flash: a call on the OTA writer, or a write of the storage. -/
inductive AppWrite where
  | call (c : Call)
  | disk (fault : Nat → Bool) (byteOffset size : UInt32) (data : Mem)

def AppWrite.run (fault : Nat → Bool) (w : Ota) : AppWrite → Ota
  | .call c => c.run fault w
  | .disk fault byteOffset size data => { w with
      flash := ⟨(storageBackendWrite fault byteOffset size data w.flash.mem).2,
        w.flash.log ++ (storageBackendWriteOps fault byteOffset size data w.flash.mem).map (·, true)⟩ }

def AppWrite.isDisk : AppWrite → Bool
  | .call _ => false
  | .disk .. => true

/-- A run of the application, on the flash `m`. -/
def appRun (fault : Nat → Bool) (m : Mem) (as : List AppWrite) : Ota :=
  run (AppWrite.run fault) ⟨.zero, .start m⟩ as

/-- The flash when the power is cut after the first `k` operations of the run. -/
def appRunCut (fault : Nat → Bool) (as : List AppWrite) (k : Nat) (m : Mem) : Mem :=
  replay ((appRun fault m as).flash.log.take k) m

/-- An operation of the application. -/
def AppOp (o : FlashOp) : Prop := OtaOp o ∨ STORAGE.Keeps o

variable {fault : Nat → Bool} {w : Ota} {m m₀ : Mem}

theorem AppWrite.run_ready (h : Ready w.upd) (a : AppWrite) :
    Ready (a.run fault w).upd ∧ w.flash.GoesOn (fun o => if a.isDisk then STORAGE.Keeps o else OtaOp o)
      (a.run fault w).flash := by
  cases a with
  | call c => exact Call.run_ready h c
  | disk f byteOffset size data =>
    refine ⟨h, ?_⟩
    unfold AppWrite.run
    dsimp only
    rw [storageBackendWriteOps_eq]
    exact goesOn_actAll (storageBackendWriteOps_keeps f byteOffset size data w.flash.mem) w.flash

/-- The operations of a run are those of the writers that it uses. -/
theorem appRun_goesOn {P : FlashOp → Prop} (as : List AppWrite)
    (hP : ∀ a ∈ as, ∀ o, (if a.isDisk then STORAGE.Keeps o else OtaOp o) → P o) :
    Ready (appRun fault m as).upd ∧ (Device.start m).GoesOn P (appRun fault m as).flash := by
  induction as using List.reverseRecOn with
  | nil => exact ⟨ready_zero, goesOn_refl _ _⟩
  | append_singleton as a ih =>
    obtain ⟨hready, hgoes⟩ := ih fun a' ha' => hP a' (List.mem_append_left _ ha')
    unfold appRun at hready hgoes ⊢
    rw [run_concat]
    obtain ⟨hready', hgoes'⟩ := @AppWrite.run_ready fault _ hready a
    exact ⟨hready', hgoes.trans (hgoes'.mono (hP a (List.mem_append_right _ (List.mem_singleton_self a))))⟩

/-- What is kept by operations elsewhere, is kept at any point of the run. -/
theorem appRunCut_keeps {P : FlashOp → Prop} (as : List AppWrite)
    (hP : ∀ a ∈ as, ∀ o, (if a.isDisk then STORAGE.Keeps o else OtaOp o) → P o) {i : Nat}
    (hi : ∀ o m, P o → act o m i = m i) (k : Nat) : appRunCut fault as k m i = m i := by
  obtain ⟨-, hlog⟩ := (@appRun_goesOn fault m P as hP).2.from_start
  exact replay_frame (· i) hi (fun e he => hlog e (List.mem_of_mem_take he)) m

theorem Region.Keeps.outside {r : Region} {o : FlashOp} (h : r.Keeps o) (m : Mem) {i : Nat} (hi : ¬r.Has i) :
    act o m i = m i := by
  unfold Region.Has at hi
  exact act_outside h m (by omega)

theorem otaOp_outside {o : FlashOp} (h : OtaOp o) (m : Mem) {i : Nat} (hcopy : ¬FIRMWARE_COPY.Has i)
    (hmetadata : ¬UPDATE_METADATA.Has i) :
    act o m i = m i := h.elim (fun h => h.outside m hcopy) fun h => h.outside m hmetadata

/-- A run of the application leaves the bootloader and the active firmware alone. -/
theorem appRunCut_firmware (fault : Nat → Bool) (as : List AppWrite) (k : Nat) (m : Mem) {i : Nat}
    (hi : BOOTLOADER.Has i ∨ FLASH.Has i) : appRunCut fault as k m i = m i := by
  refine appRunCut_keeps as (P := AppOp) ?_ ?_ k
  · intro a _ o ho
    split at ho
    · exact .inr ho
    · exact .inl ho
  · have hota : ¬FIRMWARE_COPY.Has i ∧ ¬UPDATE_METADATA.Has i := by
      rcases hi with hi | hi
      · exact region_apart (by simp) hi
      · exact region_apart (by simp) hi
    have hstorage : ¬STORAGE.Has i := by
      simp only [Region.Has, Region.offset, BOOTLOADER, FLASH, STORAGE, XIP_BASE] at hi ⊢
      omega
    rintro o m' (ho | ho)
    · exact otaOp_outside ho m' hota.1 hota.2
    · exact ho.outside m' hstorage

/-! ## Boots -/

/-- A boot writes to the metadata sector and the active firmware only. -/
theorem powerCut_outside (k : Nat) (m : Mem) {i : Nat}
    (hi : i < UPDATE_METADATA.offset ∨ FLASH.offset + FLASH.length ≤ i) : powerCut k m i = m i := by
  by_cases ha : Applicable m
  · have hle := pendingSectors_le ha
    unfold powerCut
    rw [main_applicable ha]
    refine replay_frame (P := FlashOp.Within UPDATE_METADATA.offset (FLASH.offset + FLASH.length)) (· i) ?_ ?_ m
    · exact fun o m' ho => act_outside ho m' hi
    · intro e he
      obtain ⟨o, ho, rfl⟩ := List.mem_map.1 (List.mem_of_mem_take he)
      rcases List.mem_append.1 ho with ho | ho
      · refine within_mono (copySectors_within _ _ _ _ o ho)
          (show UPDATE_METADATA.offset ≤ FLASH.offset by decide) ?_
        rw [flash_length]
        omega
      · obtain rfl := List.mem_singleton.1 ho
        exact ⟨le_refl _, by decide⟩
  · rw [powerCut_not_applicable ha]

/-! ## Lives -/

/-- The flash at any moment of a life: after boots and runs of the application, each
with the power cut somewhere. The application runs when a boot gets to the jump. -/
inductive Life (m₀ : Mem) : Mem → Prop
  | start : Life m₀ m₀
  | boot {m : Mem} (k : Nat) : Life m₀ m → Life m₀ (powerCut k m)
  | app {m : Mem} (fault : Nat → Bool) (as : List AppWrite) (k : Nat) :
      Life m₀ m → ReachesJump m → Life m₀ (appRunCut fault as k m)

/-- The bootloader's jump ends in the application. -/
def Bootable (m : Mem) : Prop := ∃ sp reset, bootloaderJumpToApp m APP_IMAGE_BASE = .app sp reset

/-- The active firmware is that of the start, or the image that the flash `m₁` of
the life had staged, which passed the checks. -/
def Provenance (m₀ m : Mem) : Prop := (∀ i, FLASH.Has i → m i = m₀ i) ∨
  ∃ m₁, Life m₀ m₁ ∧ Applicable m₁ ∧ activeFirmware m (4096 * pendingSectors m₁) =
    firmwareCopy m₁ (4096 * pendingSectors m₁)

/-- Between two boots the firmware is in order, or it is being replaced. -/
inductive Alive (m₀ m : Mem) : Prop where
  | settled (hboot : Bootable m) (hfirmware : Provenance m₀ m)
  | replacing {m₁ : Mem} (hlife : Life m₀ m₁) (ha : Applicable m₁) (hpending : Pending m₁ m)

theorem bootable_congr {m m' : Mem} (h : ∀ i, FLASH.Has i → m' i = m i) (hm : Bootable m) : Bootable m' := by
  have hvectors : xip m' APP_IMAGE_BASE 8 = xip m APP_IMAGE_BASE 8 := by
    rw [xip_image, xip_image]
    refine (read_eq_iff _ _ _ _ _).2 fun i hi => h _ ⟨Nat.le_add_right _ _, ?_⟩
    rw [flash_length]
    omega
  unfold Bootable bootloaderJumpToApp at hm ⊢
  rw [hvectors]
  exact hm

theorem provenance_congr {m m' : Mem} (h : ∀ i, FLASH.Has i → m' i = m i) (hm : Provenance m₀ m) :
    Provenance m₀ m' := by
  rcases hm with hm | ⟨m₁, hlife, ha, hfirmware⟩
  · exact .inl fun i hi => (h i hi).trans (hm i hi)
  · refine .inr ⟨m₁, hlife, ha,
      Eq.trans ((read_eq_iff _ _ _ _ _).2 fun i hi => h _ ⟨Nat.le_add_right _ _, ?_⟩) hfirmware⟩
    have := pendingSectors_le ha
    rw [flash_length]
    omega

theorem Applied.alive {m₁ : Mem} (h : Applied m₁ m) (hlife : Life m₀ m₁) (ha : Applicable m₁) : Alive m₀ m := by
  have hjump := h.jumps ha
  rw [main_not_applicable h.not_applicable] at hjump
  exact .settled ⟨_, _, congrArg Prod.fst hjump⟩ (.inr ⟨m₁, hlife, ha, h.activeFirmware (le_refl _)⟩)

/-- A cut boot goes on with the replacement, or completes it. -/
theorem Pending.alive {m₁ : Mem} (h : Pending m₁ m) (hlife : Life m₀ m₁) (ha : Applicable m₁) (k : Nat) :
    Alive m₀ (BLEBridge.powerCut k m) := by
  rcases h.powerCut ha k with hpending | happlied
  · exact .replacing hlife ha hpending
  · exact happlied.alive hlife ha

theorem Life.alive (h0 : Bootable m₀) (h : Life m₀ m) : Alive m₀ m := by
  induction h with
  | start => exact .settled h0 (.inl fun _ _ => rfl)
  | @boot m k hlife ih =>
    cases ih with
    | settled hboot hfirmware =>
      by_cases ha : Applicable m
      · have hself : Pending m m := fun _ _ => rfl
        exact hself.alive hlife ha k
      · rw [powerCut_not_applicable ha]
        exact .settled hboot hfirmware
    | replacing hlife₁ ha hpending => exact hpending.alive hlife₁ ha k
  | @app m fault as k hlife hjump ih =>
    cases ih with
    | settled hboot hfirmware =>
      have hsame : ∀ i, FLASH.Has i → appRunCut fault as k m i = m i :=
        fun i hi => appRunCut_firmware fault as k m (.inr hi)
      exact .settled (bootable_congr hsame hboot) (provenance_congr hsame hfirmware)
    | replacing hlife₁ ha hpending => exact absurd (hpending.applicable ha).1 ((reachesJump_iff m).1 hjump)

theorem Life.bootloader (h : Life m₀ m) {i : Nat} (hi : BOOTLOADER.Has i) : m i = m₀ i := by
  induction h with
  | start => rfl
  | boot k _ ih =>
    rw [powerCut_outside k _ (.inl hi.2), ih]
  | app fault as k _ _ ih => rw [appRunCut_firmware fault as k _ (.inl hi), ih]

/-- A boot of a flash that is alive starts an application, at once or after one reset. -/
theorem Alive.boots (h : Alive m₀ m) : ∃ sp reset, (bootloaderMain m).1 = .app sp reset ∨
    (bootloaderMain m).1 = .reboot ∧ (bootloaderMain (bootloaderMain m).2.mem).1 = .app sp reset := by
  have replaced {m₁ : Mem} (ha : Applicable m₁) (hpending : Pending m₁ m) : ∃ sp reset,
    (bootloaderMain m).1 = .reboot ∧
      (bootloaderMain (bootloaderMain m).2.mem).1 = .app sp reset := by
    rw [main_applicable (hpending.applicable ha).1]
    exact ⟨_, _, rfl, congrArg Prod.fst ((hpending.finish ha).jumps ha)⟩
  cases h with
  | settled hboot hfirmware =>
    by_cases ha : Applicable m
    · obtain ⟨sp, reset, h⟩ := replaced ha fun _ _ => rfl
      exact ⟨sp, reset, .inr h⟩
    · obtain ⟨sp, reset, h⟩ := hboot
      rw [main_not_applicable ha]
      exact ⟨sp, reset, .inl h⟩
  | replacing hlife ha hpending =>
    obtain ⟨sp, reset, h⟩ := replaced ha hpending
    exact ⟨sp, reset, .inr h⟩

/-- **The bridge always has a firmware to run.** At any moment of a life that begins
with a bootable flash: the bootloader is as it was; a boot starts an application, at
once or after one reset; where a boot gets to the jump, the firmware is that of the
start or a whole image that passed the checks; and the firmware that boots come to
after a run of the application is the one that ran, or the image that the run left
staged. -/
theorem firmware_lifetime (m₀ m : Mem) (h0 : Bootable m₀) (h : Life m₀ m) :
    (∀ i, BOOTLOADER.Has i → m i = m₀ i) ∧
    (∃ sp reset, (bootloaderMain m).1 = .app sp reset ∨
      (bootloaderMain m).1 = .reboot ∧ (bootloaderMain (bootloaderMain m).2.mem).1 = .app sp reset) ∧
    (ReachesJump m → Provenance m₀ m) ∧
    ∀ fault as k m', Boots (appRunCut fault as k m) m' → ReachesJump m' →
      (∀ i, FLASH.Has i → m' i = m i) ∨
        Applicable (appRunCut fault as k m) ∧
          activeFirmware m' (4096 * pendingSectors (appRunCut fault as k m)) =
            firmwareCopy (appRunCut fault as k m) (4096 * pendingSectors (appRunCut fault as k m)) := by
  refine ⟨fun i hi => h.bootloader hi, (h.alive h0).boots, fun hjump => ?_, fun fault as k m' hboots hjump => ?_⟩
  · cases h.alive h0 with
    | settled hboot hfirmware => exact hfirmware
    | replacing hlife ha hpending => exact absurd (hpending.applicable ha).1 ((reachesJump_iff m).1 hjump)
  · by_cases ha : Applicable (appRunCut fault as k m)
    · rcases boots_applicable ha hboots with hpending | happlied
      · exact absurd (hpending.applicable ha).1 ((reachesJump_iff m').1 hjump)
      · exact .inr ⟨ha, happlied.activeFirmware (le_refl _)⟩
    · obtain rfl := boots_not_applicable ha hboots
      exact .inl fun i hi => appRunCut_firmware fault as k m (.inr hi)

/-- A flash with a firmware and no update. -/
def flashWithFirmware : Mem := put (fun _ => 0xff) FLASH.offset vectorsOnly

theorem flashWithFirmware_bootable : Bootable flashWithFirmware := by
  have hvectors : xip flashWithFirmware APP_IMAGE_BASE 8 = vectorsOnly := read_put_self _ _ vectorsOnly
  unfold Bootable bootloaderJumpToApp
  rw [hvectors]
  exact ⟨_, _, if_neg (by decide)⟩

theorem flashWithFirmware_reachesJump : ReachesJump flashWithFirmware := by
  have hmetadata : metadataSector flashWithFirmware = metadataSector fun _ => 0xff :=
    read_put_outside (.inl (by decide))
  rw [reachesJump_iff]
  intro ha
  have hvalid := ha.manifest
  rw [hmetadata, erased_rejected] at hvalid
  cases hvalid

/-- A file is uploaded in two pieces. -/
def uploadRun (len : Nat) (header image : Bytes) : List AppWrite :=
  [.call (.begin len), .call (.write header), .call (.write image), .call .finish]

/-- The storage is written to, and then an update is uploaded. -/
def updateRun : List AppWrite := .disk noFault 512 3 (memOf [1, 2, 3]) ::
  uploadRun 4104 (headerFor vectorsOnly) vectorsOnly

theorem uploadRun_eq (a : AppWrite) (len : Nat) (header image : Bytes) :
    appRun fault m (a :: uploadRun len header image) =
      upload fault len [header, image] .finishes (a.run fault ⟨.zero, .start m⟩) := rfl

/-- The flash after it. -/
def updatedFlash : Mem := appRunCut noFault updateRun
  (appRun noFault flashWithFirmware updateRun).flash.log.length flashWithFirmware

theorem updatedFlash_eq : updatedFlash = (appRun noFault flashWithFirmware updateRun).flash.mem := by
  obtain ⟨-, hgoes⟩ := @appRun_goesOn noFault flashWithFirmware (fun _ => True) updateRun fun _ _ _ _ => trivial
  unfold updatedFlash appRunCut
  rw [List.take_length]
  exact hgoes.from_start.1

theorem updatedFlash_applicable : Applicable updatedFlash := by
  obtain ⟨hc, hcommitting⟩ := upload_ok (uploadResult_noFault complete_vectorsOnly
    (AppWrite.run noFault ⟨.zero, .start flashWithFirmware⟩ (.disk noFault 512 3 (memOf [1, 2, 3]))))
  have happlicable := (applicable_iff_good hcommitting hc).2 imageGood_vectorsOnly
  rw [updatedFlash_eq, updateRun, uploadRun_eq]
  exact happlicable

/-- A boot of it that is cut does no harm, and the boots come to start the update. -/
theorem firmware_lifetime_updated :
    (∃ sp reset, (bootloaderMain (powerCut 3 updatedFlash)).1 = .app sp reset ∨
      (bootloaderMain (powerCut 3 updatedFlash)).1 = .reboot ∧
        (bootloaderMain (bootloaderMain (powerCut 3 updatedFlash)).2.mem).1 = .app sp reset) ∧
    Applicable updatedFlash ∧ ∀ m', Boots updatedFlash m' → ReachesJump m' →
      (∀ i, FLASH.Has i → m' i = flashWithFirmware i) ∨
        Applicable updatedFlash ∧
          activeFirmware m' (4096 * pendingSectors updatedFlash) =
            firmwareCopy updatedFlash (4096 * pendingSectors updatedFlash) := by
  have hlife : Life flashWithFirmware updatedFlash :=
    .app noFault updateRun _ .start flashWithFirmware_reachesJump
  refine ⟨(firmware_lifetime flashWithFirmware _ flashWithFirmware_bootable (.boot 3 hlife)).2.1,
    updatedFlash_applicable, ?_⟩
  obtain ⟨-, -, -, hnext⟩ := firmware_lifetime flashWithFirmware _ flashWithFirmware_bootable .start
  have hrun := hnext noFault updateRun (appRun noFault flashWithFirmware updateRun).flash.log.length
  rw [← updatedFlash] at hrun
  exact hrun

/-! ## The storage -/

theorem content_eq_iff {m m' : Mem} : content m' = content m ↔
    ∀ i, m' (STORAGE.offset + i) = m (STORAGE.offset + i) := funext_iff

theorem otaOp_storage {o : FlashOp} (h : OtaOp o) (m : Mem) (i : Nat) :
    act o m (STORAGE.offset + i) = m (STORAGE.offset + i) := by
  have hcopy : ¬FIRMWARE_COPY.Has (STORAGE.offset + i) := by
    simp only [Region.Has, copy_offset, copy_length, storage_offset]
    omega
  have hmetadata : ¬UPDATE_METADATA.Has (STORAGE.offset + i) := by
    simp only [Region.Has, metadata_offset, metadata_length, storage_offset]
    omega
  exact otaOp_outside h m hcopy hmetadata

/-- Calls on the OTA writer can be left out. -/
theorem content_disk (fault : Nat → Bool) (as : List AppWrite) {w w' : Ota} (hready : Ready w.upd)
    (h : content w.flash.mem = content w'.flash.mem) :
    content (run (AppWrite.run fault) w as).flash.mem =
      content (run (AppWrite.run fault) w' (as.filter (·.isDisk))).flash.mem := by
  induction as generalizing w w' with
  | nil => exact h
  | cons a as ih =>
    have hready' := (@AppWrite.run_ready fault w hready a).1
    cases a with
    | call c =>
      rw [List.filter_cons_of_neg (by exact Bool.false_ne_true)]
      refine ih hready' (Eq.trans ?_ h)
      obtain ⟨es, heq, hes⟩ := (@Call.run_ready fault w hready c).2
      change content (c.run fault w).flash.mem = _
      rw [heq, content_eq_iff]
      exact fun i => replay_frame (· (STORAGE.offset + i)) (fun o m' ho => otaOp_storage ho m' i) hes _
    | disk f byteOffset size data =>
      rw [List.filter_cons_of_pos rfl]
      exact ih hready' (storageBackendWrite_content f byteOffset size data h).2

/-- **The storage is what its writes make of it.** A run of the application leaves
there what its writes of the storage alone would leave, wherever calls on the OTA
writer come between them; boots leave it alone; and writes of the storage change
nothing else, wherever the power is cut. -/
theorem storage_lifetime (m : Mem) :
    (∀ fault as, content (appRun fault m as).flash.mem =
      content (appRun fault m (as.filter (·.isDisk))).flash.mem) ∧
    (∀ fault as k, (∀ a ∈ as, a.isDisk = false) → content (appRunCut fault as k m) = content m) ∧
    (∀ k, content (powerCut k m) = content m) ∧
    ∀ fault as k, (∀ a ∈ as, a.isDisk = true) → ∀ i, ¬STORAGE.Has i → appRunCut fault as k m i = m i := by
  refine ⟨fun fault as => content_disk fault as ready_zero rfl, fun fault as k hcalls => ?_, fun k => ?_,
    fun fault as k hdisk i hi => ?_⟩
  · rw [content_eq_iff]
    refine fun i => appRunCut_keeps as (P := OtaOp) (fun a ha o ho => ?_) (fun o m' ho => otaOp_storage ho m' i) k
    rwa [hcalls a ha] at ho
  · rw [content_eq_iff]
    refine fun i => powerCut_outside k m (.inr ?_)
    rw [flash_offset, flash_length, storage_offset]
    omega
  · refine appRunCut_keeps as (P := STORAGE.Keeps) (fun a ha o ho => ?_) (fun o m' ho => ho.outside m' hi) k
    rwa [hdisk a ha] at ho

theorem diskRun_eq (f : Nat → Bool) (byteOffset size : UInt32) (data : Mem) :
    (appRun fault m [.disk f byteOffset size data]).flash.mem =
      (storageBackendWrite f byteOffset size data m).2 := rfl

/-- The upload leaves what was written to the storage before it. -/
theorem storage_lifetime_updated :
    content updatedFlash = patch (content flashWithFirmware) 512 (memOf [1, 2, 3]) 3 ∧
      content (powerCut 3 updatedFlash) = content updatedFlash := by
  obtain ⟨hdisk, -⟩ := storage_lifetime flashWithFirmware
  refine ⟨?_, (storage_lifetime updatedFlash).2.2.1 3⟩
  rw [updatedFlash_eq]
  refine (hdisk noFault updateRun).trans ?_
  have hfilter : updateRun.filter AppWrite.isDisk = [.disk noFault 512 3 (memOf [1, 2, 3])] := rfl
  rw [hfilter, diskRun_eq,
    @storageBackendWrite_clean noFault flashWithFirmware _ 512 3 (by decide) fun _ _ => rfl]
  rw [show (512 : UInt32).toNat = 512 from rfl, show (3 : UInt32).toNat = 3 from rfl, content_patch]

end BLEBridge
