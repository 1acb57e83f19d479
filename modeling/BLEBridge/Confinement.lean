import BLEBridge.Commit
/-!
# Where the writer writes

Whatever calls are made, in any order and with any bytes, and whichever flash
operations fail: each call carries out a plan (`Session.call`), and the log keeps
`Confined` operations only, each page programmed after an erase of its sector.
-/
open Lib

namespace BLEBridge

/-- An erase of one sector, or a program of one page, of the firmware copy or
the metadata sector. -/
def Confined : FlashOp → Prop
  | .erase off len => len = 4096 ∧ off % 4096 = 0 ∧
      (FIRMWARE_COPY.offset ≤ off ∧ off + 4096 ≤ FIRMWARE_COPY.offset + FIRMWARE_COPY.length ∨
        off = UPDATE_METADATA.offset)
  | .program off data => data.length = 256 ∧ off % 256 = 0 ∧
      (FIRMWARE_COPY.offset ≤ off ∧ off + 256 ≤ FIRMWARE_COPY.offset + FIRMWARE_COPY.length ∨
        UPDATE_METADATA.offset ≤ off ∧ off + 256 ≤ UPDATE_METADATA.offset + UPDATE_METADATA.length)

/-- What a log may hold. -/
structure GoodLog (log : List (FlashOp × Bool)) : Prop where
  confined : ∀ e ∈ log, Confined e.1
  erases_first : LogErasesFirst log

/-- What a plan may hold. -/
structure GoodPlan (os : List FlashOp) : Prop where
  confined : ∀ o ∈ os, Confined o
  erases_first : ErasesFirst os

variable {fault : Nat → Bool} {d : Flash} {len : Nat} {s : Bytes} {w : Ota}

theorem GoodLog.append {log : List (FlashOp × Bool)} {os : List FlashOp} (h : GoodLog log) (hos : GoodPlan os)
    (n : Nat) : GoodLog (log ++ performed fault n os) := by
  refine ⟨fun e he => ?_, logErasesFirst_append h.2 hos.2⟩
  rcases List.mem_append.1 he with he | he
  · exact h.1 e he
  · exact hos.1 _ (mem_performed he)

theorem GoodLog.runPlan {os : List FlashOp} (h : GoodLog d.log) (hos : GoodPlan os) :
    GoodLog (Lib.runPlan fault os d).2.log := by
  rw [runPlan_log]
  exact h.append hos _

/-! ## The plans -/

theorem goodPlan_stage (img : Bytes) {n : Nat} (h : n ≤ 3584) : GoodPlan (stage copyStart img n) := by
  refine ⟨fun o ho => ?_, stage_erasesFirst copyStart (by decide) img n⟩
  have hc : copyStart = 1048576 := rfl
  obtain ⟨p, hp, ⟨h16, rfl⟩ | rfl⟩ := mem_stage ho
  · refine ⟨rfl, by omega, .inl ?_⟩
    simp only [copy_offset, copy_length]
    omega
  · refine ⟨pageOf_length _ _, by omega, .inl ?_⟩
    simp only [copy_offset, copy_length]
    omega

theorem goodPlan_staged (len : Nat) (s : Bytes) : GoodPlan (stagedPlan len s) := by
  by_cases h : Accepted len s
  · have := uploadImage_length_le h
    rw [stagedPlan, if_pos h]
    exact goodPlan_stage _ (by omega)
  · rw [stagedPlan_short h]
    exact ⟨fun o ho => (by cases ho), erasesFirst_nil⟩

theorem confined_rewrite {header : Bytes} (h : header.length = 4096) :
    ∀ o ∈ rewriteSector metadataStart header, Confined o := by
  intro o ho
  have hm : metadataStart = 126976 := rfl
  rw [rewriteSector, List.mem_cons, List.mem_map] at ho
  rcases ho with rfl | ⟨k, hk, rfl⟩
  · exact ⟨rfl, by omega, .inr rfl⟩
  · have := List.mem_range.1 hk
    refine ⟨slice_length _ _ _ (by omega), by omega, .inr ?_⟩
    simp only [metadata_offset, metadata_length]
    omega

theorem goodPlan_full (h : Accepted len s) : GoodPlan (fullPlan s) := by
  have := uploadImage_length_le h
  have himg := goodPlan_stage (uploadImage s) (n := ((uploadImage s).length + 255) / 256) (by omega)
  have hhdr : (s.take 4096).length = 4096 := by
    have := h.1
    rw [List.length_take]
    omega
  refine ⟨fun o ho => ?_, erasesFirst_concat himg.2 (rewriteSector_erasesFirst metadataStart (by decide) _)⟩
  rcases List.mem_append.1 ho with ho | ho
  · exact himg.1 o ho
  · exact confined_rewrite hhdr o ho

/-! ## Calls -/

/-- The writer is idle, or part-way through an upload begun on a flash with a
good log. -/
structure Session (fault : Nat → Bool) (w : Ota) : Prop where
  log : GoodLog w.flash.log
  upload : w.upd.active = true → ∃ d len s, GoodLog d.log ∧ Tracks fault d len s w

/-- A call goes on with the flash by a plan; only `finish` leaves the firmware copy. -/
def Continues (fault : Nat → Bool) (w w' : Ota) (inCopy : Prop) : Prop :=
  ∃ os, (inCopy → ∀ o ∈ os, InCopy o) ∧ w'.flash = (runPlan fault os w.flash).2

theorem continues_same {w w' : Ota} (h : w'.flash = w.flash) (inCopy : Prop) : Continues fault w w' inCopy :=
  ⟨[], fun _ _ ho => (by cases ho), by rw [h]; rfl⟩

/-- A longer plan carried out from the same start goes on where the shorter one stopped. -/
theorem continues_append {w w' : Ota} {os os' : List FlashOp}
    {inCopy : Prop} (hw : w.flash = (runPlan fault os d).2) (hw' : w'.flash = (runPlan fault (os ++ os') d).2)
    (hin : inCopy → ∀ o ∈ os', InCopy o) : Continues fault w w' inCopy := by
  by_cases hok : (runPlan fault os d).1 = true
  · exact ⟨os', hin, by rw [hw', runPlan_append_of_ok hok, ← hw]⟩
  · exact continues_same (by rw [hw', runPlan_append_of_fail (by simpa using hok), hw]) _

theorem finish_active (w : Ota) : (appFirmwareUpdateFinish fault w).2.upd.active = false := by
  rw [appFirmwareUpdateFinish]
  split
  · assumption
  · rfl

/-- What any call does to a session. -/
theorem Session.call (h : Session fault w) (c : Call) :
    Session fault (c.run fault w) ∧ Continues fault w (c.run fault w) (c ≠ .finish) := by
  cases c with
  | begin n =>
    by_cases hr : InRange n
    -- A new upload starts with an empty plan on the flash as it is.
    · obtain ⟨-, ht⟩ : _ ∧ Tracks fault w.flash n [] _ := begin_inRange hr w
      have hfl : (appFirmwareUpdateBegin n w).2.flash = w.flash := by
        rw [ht.flash, stagedPlan_short (not_accepted_of_short (by simp))]
        rfl
      exact ⟨⟨by simpa only [Call.run, hfl] using h.log, fun _ => ⟨_, _, _, h.log, ht⟩⟩, continues_same hfl _⟩
    · obtain ⟨ha, hfl⟩ := begin_outOfRange hr w
      refine ⟨⟨by simpa only [Call.run, hfl] using h.log, fun hact => ?_⟩, continues_same hfl _⟩
      simp only [Call.run, ha] at hact
      cases hact
  | write data =>
    by_cases ha : w.upd.active = true
    · obtain ⟨d, len, s, hd, ht⟩ := h.upload ha
      have hw : (appFirmwareUpdateWrite fault data w).2 = writeLoop fault data w := by
        rw [appFirmwareUpdateWrite, if_neg (by rw [ha]; decide)]
      have ht' := tracks_write data ht
      simp only [Call.run, hw]
      refine ⟨⟨ht'.flash ▸ hd.runPlan (goodPlan_staged _ _), fun _ => ⟨d, len, _, hd, ht'⟩⟩, ?_⟩
      -- More bytes only extend the plan, so the flash continues from where it was.
      have hplan : ∃ os', stagedPlan len (s ++ data) = stagedPlan len s ++ os' := by
        by_cases hs : 4096 ≤ s.length
        · exact stagedPlan_append len data hs
        · exact ⟨_, by rw [stagedPlan_short (not_accepted_of_short (not_le.1 hs)), List.nil_append]⟩
      obtain ⟨os', hos'⟩ := hplan
      refine continues_append ht.flash (hos' ▸ ht'.flash) fun _ o ho => stagedPlan_inCopy len (s ++ data) o ?_
      rw [hos']
      exact List.mem_append_right _ ho
    · have hw : (appFirmwareUpdateWrite fault data w).2 = w := by
        rw [appFirmwareUpdateWrite, if_pos (by simpa using ha)]
      simp only [Call.run, hw]
      exact ⟨h, continues_same rfl _⟩
  | finish =>
    by_cases ha : w.upd.active = true
    · obtain ⟨d, len, s, hd, ht⟩ := h.upload ha
      have hidle : ∀ {P : Prop}, (appFirmwareUpdateFinish fault w).2.upd.active = true → P := fun hact => by
        rw [finish_active] at hact
        cases hact
      by_cases hc : Complete len s
      · have hfl := (finish_complete ht hc).1
        obtain ⟨os', hos'⟩ := fullPlan_eq hc.1
        refine ⟨⟨?_, hidle⟩, continues_append ht.flash (hos' ▸ hfl) fun hne => absurd rfl hne⟩
        rw [Call.run, hfl]
        exact hd.runPlan (goodPlan_full hc.1)
      · have hfl := (finish_incomplete ht hc).1
        refine ⟨⟨?_, hidle⟩, continues_same (hfl.trans ht.flash.symm) _⟩
        rw [Call.run, hfl]
        exact hd.runPlan (goodPlan_staged _ _)
    · have hw : appFirmwareUpdateFinish fault w = (.notActive, w) := finish_inactive (by simpa using ha)
      simp only [Call.run, hw]
      exact ⟨h, continues_same rfl _⟩
  | abort r => exact ⟨⟨h.log, fun hact => by cases hact⟩, continues_same rfl _⟩

theorem session_runCalls (calls : List Call) (h : Session fault w) : Session fault (runCalls fault calls w) := by
  induction calls generalizing w with
  | nil => exact h
  | cons c calls ih => exact ih (h.call c).1

/-! ## Confinement -/

theorem Confined.outside {o : FlashOp} (h : Confined o) (m : Mem) {i : Nat} (hc : ¬FIRMWARE_COPY.Has i)
    (hm : ¬UPDATE_METADATA.Has i) : act o m i = m i := by
  simp only [Region.Has, metadata_length, copy_length] at hc hm
  have hlen : FIRMWARE_COPY.length = 917504 := rfl
  have hlen' : UPDATE_METADATA.length = 4096 := rfl
  cases o with
  | erase off len =>
    obtain ⟨rfl, -, h⟩ := h
    exact if_neg (by omega)
  | program off data =>
    obtain ⟨hl, -, h⟩ := h
    exact if_neg (by omega)

theorem replay_confined {log : List (FlashOp × Bool)} (h : ∀ e ∈ log, Confined e.1) (m : Mem) {i : Nat}
    (hc : ¬FIRMWARE_COPY.Has i) (hm : ¬UPDATE_METADATA.Has i) : replay log m i = m i := by
  induction log generalizing m with
  | nil => rfl
  | cons e log ih =>
    rw [replay_cons, ih (fun e' he => h e' (List.mem_cons_of_mem _ he))]
    split
    · exact (h e List.mem_cons_self).outside m hc hm
    · rfl

/-- The other regions keep clear of the two that are written. -/
theorem region_apart {r : Region} (hr : r ∈ [BOOTLOADER, FLASH, STORAGE]) {i : Nat} (hi : r.Has i) :
    ¬FIRMWARE_COPY.Has i ∧ ¬UPDATE_METADATA.Has i := by
  simp only [List.mem_cons, List.not_mem_nil, or_false] at hr
  rcases hr with rfl | rfl | rfl <;>
    simp only [Region.Has, Region.offset, BOOTLOADER, FLASH, STORAGE, FIRMWARE_COPY, UPDATE_METADATA,
      XIP_BASE] at hi ⊢ <;>
    omega

theorem session_start (m : Mem) : Session fault ⟨.zero, .start m⟩ :=
  ⟨⟨fun e he => (by cases he), logErasesFirst_nil⟩, fun h => (by cases h)⟩

/-- The log accounts for all that has happened to the flash. -/
theorem log_replays {m : Mem} (calls : List Call) (hw : Session fault w)
    (h : replay w.flash.log m = w.flash.mem) :
    replay (runCalls fault calls w).flash.log m = (runCalls fault calls w).flash.mem := by
  induction calls generalizing w with
  | nil => exact h
  | cons c calls ih =>
    obtain ⟨hs, os, -, hos⟩ := hw.call c
    refine ih hs ?_
    rw [hos, runPlan_log, runPlan_mem, replay_append, h]

/-- **The writer stays in its regions.** From program start, after any calls:
every operation is an erase of a sector or a program of a page, in the firmware
copy or the metadata sector; the metadata sector is only touched inside
`finish`; no page is programmed twice without an erase of its sector in between;
and at every moment the bootloader, the active firmware and the storage are as
they were. -/
theorem ota_confined (fault : Nat → Bool) (calls : List Call) (m₀ : Mem) :
    let w := runCalls fault calls ⟨.zero, .start m₀⟩
    (∀ e ∈ w.flash.log, Confined e.1) ∧
      (∀ c : Call, ∃ log, (c.run fault w).flash.log = w.flash.log ++ log ∧
        (c ≠ .finish → ∀ e ∈ log, InCopy e.1)) ∧
      (∀ a b c off data data' ok ok', w.flash.log = a ++ (.program off data, ok) ::
        (b ++ (.program off data', ok') :: c) →
        (.erase (off / 4096 * 4096) 4096, true) ∈ b) ∧
      ∀ r ∈ [BOOTLOADER, FLASH, STORAGE], ∀ i, r.Has i →
        w.flash.mem i = m₀ i ∧ ∀ k, replay (w.flash.log.take k) m₀ i = m₀ i := by
  intro w
  have hs : Session fault w := session_runCalls calls (session_start m₀)
  have hmem : replay w.flash.log m₀ = w.flash.mem := log_replays calls (session_start m₀) rfl
  refine ⟨hs.log.confined, fun c => ?_, fun a b c off data data' ok ok' he => hs.log.erases_first.between he,
    fun r hr i hi => ?_⟩
  · obtain ⟨-, os, hin, hos⟩ := hs.call c
    refine ⟨performed fault w.flash.log.length os, ?_, fun hc e he => hin hc _ (mem_performed he)⟩
    rw [hos, runPlan_log]
  · obtain ⟨hc, hm⟩ := region_apart hr hi
    exact ⟨hmem ▸ replay_confined hs.log.confined m₀ hc hm,
      fun k => replay_confined (fun e he => hs.log.confined e (List.mem_of_mem_take he)) m₀ hc hm⟩

end BLEBridge
