import Mathlib.Data.Nat.Bitwise
import Mathlib.Tactic.IntervalCases
import BLEBridge.Lib.BitOrder
import BLEBridge.OneWireBus
/-!
# One pass of the search

A pass walks from the lowest bit of a ROM code to the highest, along the
previous code up to its last fork. It ends at the next device in the order of
`Before`.
-/
open Lib

namespace BLEBridge

/-! ## Bits and bytes -/

/-- `rom_byte_mask` on bit `k` of a ROM code. -/
def romMask (k : Nat) : UInt8 := (1 : UInt8) <<< UInt8.ofNat (k % 8)

theorem toNat_mask {j : Nat} (hj : j < 8) : ((1 : UInt8) <<< UInt8.ofNat j).toNat = 2 ^ j := by
  have h : 2 ^ j < 2 ^ 8 := Nat.pow_lt_pow_right (by omega) hj
  rw [UInt8.toNat_shiftLeft, UInt8.toNat_ofNat', Nat.mod_mod_of_dvd _ (by decide), Nat.mod_eq_of_lt hj]
  rw [UInt8.toNat_one, Nat.one_shiftLeft, Nat.mod_eq_of_lt h]

theorem and_mask (byte : UInt8) {j : Nat} (hj : j < 8) :
    decide (byte &&& ((1 : UInt8) <<< UInt8.ofNat j) ≠ 0) = byte.toNat.testBit j := by
  have h : byte &&& ((1 : UInt8) <<< UInt8.ofNat j) = 0 ↔ byte.toNat.testBit j = false := by
    rw [← UInt8.toNat_inj, UInt8.toNat_and, toNat_mask hj, Nat.and_two_pow]
    cases byte.toNat.testBit j <;> simp
  rw [Bool.eq_iff_iff]
  simp [h]

theorem testBit_or_mask (byte : UInt8) {i j : Nat} (hj : j < 8) :
    (byte ||| ((1 : UInt8) <<< UInt8.ofNat j)).toNat.testBit i = if i = j then true
    else byte.toNat.testBit i := by
  rw [UInt8.toNat_or, toNat_mask hj, Nat.testBit_or, Nat.testBit_two_pow]
  by_cases h : i = j
  · simp [h]
  · simp [h, Ne.symm h]

theorem testBit_and_not_mask (byte : UInt8) {i j : Nat} (hi : i < 8) (hj : j < 8) :
    (byte &&& ~~~((1 : UInt8) <<< UInt8.ofNat j)).toNat.testBit i = if i = j then false
    else byte.toNat.testBit i := by
  rw [UInt8.toNat_and, Nat.testBit_and, UInt8.toNat_not, toNat_mask hj]
  have h : 2 ^ j < 2 ^ 8 := Nat.pow_lt_pow_right (by omega) hj
  have hsub : UInt8.size - 1 - 2 ^ j = 2 ^ 8 - (2 ^ j + 1) := by
    unfold UInt8.size
    omega
  rw [hsub, Nat.testBit_two_pow_sub_succ h, Nat.testBit_two_pow]
  by_cases hij : i = j
  · simp [hij]
  · simp [hij, hi, Ne.symm hij]

/-- The mask moves up by one bit, and out of the byte after the last. -/
theorem romMask_shift (k : Nat) : romMask k <<< 1 = if k % 8 = 7 then 0 else romMask (k + 1) := by
  unfold romMask
  have hk : k % 8 < 8 := Nat.mod_lt k (by decide)
  have hs : (k + 1) % 8 = (k % 8 + 1) % 8 := Nat.add_mod k 1 8
  rw [hs]
  interval_cases k % 8 <;> rfl

theorem romMask_ne_zero (k : Nat) : romMask k ≠ 0 := by
  have hk : k % 8 < 8 := Nat.mod_lt k (by decide)
  unfold romMask
  interval_cases k % 8 <;> decide

/-- The code with bit `k` made `b`, as `onewire_search_next` does it. -/
def setRomBit (rom : Rom) (k : Nat) (b : Bool) : Rom :=
  Function.update rom (Fin.ofNat 8 (k / 8))
    (if b then rom (Fin.ofNat 8 (k / 8)) ||| romMask k else rom (Fin.ofNat 8 (k / 8)) &&& ~~~romMask k)

theorem romBit_setRomBit (rom : Rom) (b : Bool) {j k : Nat} (hj : j < 64) (hk : k < 64) :
    romBit (setRomBit rom k b) j = if j = k then b else romBit rom j := by
  have hj8 : j % 8 < 8 := Nat.mod_lt j (by decide)
  have hk8 : k % 8 < 8 := Nat.mod_lt k (by decide)
  unfold romBit setRomBit
  by_cases hbyte : j / 8 = k / 8
  · have heq : j = k ↔ j % 8 = k % 8 := by omega
    rw [hbyte, Function.update_self]
    cases b with
    | true => simp only [if_true, romMask, testBit_or_mask _ hk8, heq]
    | false => simp only [Bool.false_eq_true, if_false, romMask, testBit_and_not_mask _ hj8 hk8, heq]
  · have hne : Fin.ofNat 8 (j / 8) ≠ Fin.ofNat 8 (k / 8) := by
      intro h
      have := congrArg Fin.val h
      simp only [Fin.ofNat] at this
      omega
    have hjk : j ≠ k := by
      rintro rfl
      exact hbyte rfl
    rw [Function.update_of_ne hne, if_neg hjk]

theorem byte_ext {a b : UInt8} (h : ∀ i < 8, a.toNat.testBit i = b.toNat.testBit i) : a = b := by
  rw [← UInt8.toNat_inj]
  apply Nat.eq_of_testBit_eq
  intro i
  by_cases hi : i < 8
  · exact h i hi
  · have hpow : 2 ^ 8 ≤ 2 ^ i := Nat.pow_le_pow_right (by decide) (by omega)
    rw [Nat.testBit_lt_two_pow (lt_of_lt_of_le a.toNat_lt hpow),
      Nat.testBit_lt_two_pow (lt_of_lt_of_le b.toNat_lt hpow)]

/-- A code is its sixty-four bits. -/
theorem rom_ext {a b : Rom} (h : Agree romBit a b 64) : a = b := by
  funext i
  have hi : i.val < 8 := i.isLt
  apply byte_ext
  intro j hj
  have := h (8 * i.val + j) (by omega)
  unfold romBit at this
  rw [show (8 * i.val + j) / 8 = i.val by omega, show (8 * i.val + j) % 8 = j by omega] at this
  rwa [show Fin.ofNat 8 i.val = i from Fin.ext (Nat.mod_eq_of_lt hi)] at this

/-! ## One step -/

/-- The loop on bit `k`, its counter one ahead. -/
def searchAt (k : Nat) (rom : Rom) (lastZero : Nat) (bus : OneWireBus) : SearchLoop :=
  ⟨rom, k / 8, romMask k, k + 1, lastZero, bus⟩

/-- Whether devices with a zero and devices with a one are left. -/
def Conflict (active : Finset Rom) (k : Nat) : Prop :=
  (∃ d ∈ active, romBit d k = false) ∧ ∃ d ∈ active, romBit d k = true

/-- What a step does: it takes the direction all devices left share, or at a
conflict that of the previous pass before the last fork, the one at it and the
zero after it. -/
structure Stepped (lastDiscrepancy : Nat) (active : Finset Rom) (k : Nat) (rom : Rom) (lastZero : Nat)
    (direction : Bool) (lastZero' : Nat) : Prop where
  taken : ∃ d ∈ active, romBit d k = direction
  forced : ¬Conflict active k → ∀ d ∈ active, romBit d k = direction
  along : Conflict active k → k + 1 < lastDiscrepancy → direction = romBit rom k
  turn : Conflict active k → k + 1 = lastDiscrepancy → direction = true
  first : Conflict active k → lastDiscrepancy < k + 1 → direction = false
  zero : Conflict active k → direction = false → lastZero' = k + 1
  same : ¬(Conflict active k ∧ direction = false) → lastZero' = lastZero

theorem filter_eq_empty {active : Finset Rom} {k : Nat} {b : Bool} :
    (active.filter fun rom => romBit rom k = b) = ∅ ↔ ∀ d ∈ active, romBit d k = !b := by
  rw [Finset.filter_eq_empty_iff]
  cases b <;> simp

/-- Byte number and mask after a step. -/
theorem cursor_succ (k : Nat) : (if romMask k <<< 1 = 0 then k / 8 + 1 else k / 8) = (k + 1) / 8 ∧
    (if romMask k <<< 1 = 0 then (1 : UInt8) else romMask k <<< 1) = romMask (k + 1) := by
  rw [romMask_shift]
  by_cases h7 : k % 8 = 7
  · have hmod : (k + 1) % 8 = 0 := by omega
    rw [if_pos h7, if_pos rfl, if_pos rfl]
    refine ⟨by omega, ?_⟩
    unfold romMask
    rw [hmod]
    rfl
  · rw [if_neg h7, if_neg (romMask_ne_zero _), if_neg (romMask_ne_zero _)]
    exact ⟨by omega, rfl⟩

/-- A step whose two reads gave `idBit` and `cmpIdBit`. -/
theorem searchStep_of_reads (lastDiscrepancy : Nat) (devices active : Finset Rom) {k : Nat} (rom : Rom)
    (lastZero : Nat) {idBit cmpIdBit : Bool}
    (hid : decide ((active.filter fun rom => romBit rom k = false) = ∅) = idBit)
    (hcmp : decide ((active.filter fun rom => romBit rom k = true) = ∅) = cmpIdBit)
    (hboth : (idBit && cmpIdBit) = false) {direction : Bool}
    (hdir : direction = if idBit ≠ cmpIdBit then idBit
      else if k + 1 < lastDiscrepancy then romBit rom k else decide (k + 1 = lastDiscrepancy)) :
    searchStep lastDiscrepancy (searchAt k rom lastZero ⟨devices, active, .bit k⟩) =
      some (searchAt (k + 1) (setRomBit rom k direction)
        (if idBit = cmpIdBit ∧ direction = false then k + 1 else lastZero)
        ⟨devices, active.filter fun rom => romBit rom k = direction, .bit (k + 1)⟩) := by
  have hbit : decide (rom (Fin.ofNat 8 (k / 8)) &&& romMask k ≠ 0) = romBit rom k :=
    and_mask _ (Nat.mod_lt k (by decide))
  obtain ⟨hnum, hmask⟩ := cursor_succ k
  unfold searchStep searchAt
  simp only [onewireReadBit, hid, hcmp, hboth, Bool.false_eq_true, if_false, hbit, ← hdir, hnum, hmask,
    onewireWriteBit]
  rfl

theorem searchStep_at (lastDiscrepancy : Nat) (devices active : Finset Rom) (k : Nat) (rom : Rom) (lastZero : Nat)
    (hactive : active.Nonempty) :
    ∃ direction lastZero', Stepped lastDiscrepancy active k rom lastZero direction lastZero' ∧
      searchStep lastDiscrepancy (searchAt k rom lastZero ⟨devices, active, .bit k⟩) =
        some (searchAt (k + 1) (setRomBit rom k direction) lastZero'
          ⟨devices, active.filter fun rom => romBit rom k = direction, .bit (k + 1)⟩) := by
  obtain ⟨d, hd⟩ := hactive
  by_cases hones : ∀ d ∈ active, romBit d k = true
  -- Only ones: the line is low for the complement alone.
  · have hno : ¬Conflict active k := by
      rintro ⟨⟨z, hz, h0⟩, -⟩
      rw [hones z hz] at h0
      cases h0
    have hid : decide ((active.filter fun rom => romBit rom k = false) = ∅) = true :=
      decide_eq_true (filter_eq_empty.2 hones)
    have hcmp : decide ((active.filter fun rom => romBit rom k = true) = ∅) = false := by
      refine decide_eq_false fun h => ?_
      have := filter_eq_empty.1 h d hd
      rw [hones d hd] at this
      cases this
    refine ⟨true, lastZero, ⟨⟨d, hd, hones d hd⟩, fun _ => hones, ?_, ?_, ?_, ?_, fun _ => rfl⟩, ?_⟩
    iterate 4 exact fun h => absurd h hno
    exact searchStep_of_reads lastDiscrepancy devices active rom lastZero hid hcmp rfl rfl
  by_cases hzeros : ∀ d ∈ active, romBit d k = false
  -- Only zeros: the line is low for the bit alone.
  · have hno : ¬Conflict active k := by
      rintro ⟨-, z, hz, h1⟩
      rw [hzeros z hz] at h1
      cases h1
    have hid : decide ((active.filter fun rom => romBit rom k = false) = ∅) = false :=
      decide_eq_false fun h => hones (filter_eq_empty.1 h)
    have hcmp : decide ((active.filter fun rom => romBit rom k = true) = ∅) = true :=
      decide_eq_true (filter_eq_empty.2 hzeros)
    refine ⟨false, lastZero, ⟨⟨d, hd, hzeros d hd⟩, fun _ => hzeros, ?_, ?_, ?_, ?_, fun _ => rfl⟩, ?_⟩
    iterate 4 exact fun h => absurd h hno
    exact searchStep_of_reads lastDiscrepancy devices active rom lastZero hid hcmp rfl rfl
  -- Both: the last discrepancy decides.
  · have hc : Conflict active k := by
      push Not at hones hzeros
      obtain ⟨z, hz, h0⟩ := hones
      obtain ⟨o, ho, h1⟩ := hzeros
      exact ⟨⟨z, hz, Bool.eq_false_of_not_eq_true h0⟩, o, ho, Bool.eq_true_of_not_eq_false h1⟩
    have hid : decide ((active.filter fun rom => romBit rom k = false) = ∅) = false :=
      decide_eq_false fun h => hones (filter_eq_empty.1 h)
    have hcmp : decide ((active.filter fun rom => romBit rom k = true) = ∅) = false :=
      decide_eq_false fun h => hzeros (filter_eq_empty.1 h)
    refine ⟨_, _, ⟨?_, fun h => absurd hc h, fun _ h => ?_, fun _ h => ?_, fun _ h => ?_, fun _ h => ?_,
      fun h => ?_⟩,
      searchStep_of_reads lastDiscrepancy devices active rom lastZero hid hcmp rfl rfl⟩
    · generalize (if (false : Bool) ≠ false then false else _) = direction
      cases direction with
      | false => exact hc.1
      | true => exact hc.2
    · rw [if_neg (by decide), if_pos h]
    · rw [if_neg (by decide), if_neg (by omega), decide_eq_true h]
    · rw [if_neg (by decide), if_neg (by omega), decide_eq_false (by omega)]
    · rw [if_pos ⟨rfl, h⟩]
    · rw [if_neg fun h' => h ⟨hc, h'.2⟩]

/-! ## A whole pass -/

/-- A pass over `devices` that has set the first `k` bits of `rom`, starting from
the code `prev` of the previous pass. -/
structure Walk (devices : Finset Rom) (prev : Rom) (lastDiscrepancy k : Nat) (active : Finset Rom) (rom : Rom)
    (lastZero : Nat) : Prop where
  active_iff : ∀ d, d ∈ active ↔ d ∈ devices ∧ Agree romBit rom d k
  some_active : active.Nonempty
  keep : ∀ j, k ≤ j → j < 64 → romBit rom j = romBit prev j
  follow : ∀ j < k, j + 1 < lastDiscrepancy → romBit rom j = romBit prev j
  turn : ∀ j < k, lastDiscrepancy = j + 1 → romBit rom j = true
  first : ∀ j < k, lastDiscrepancy < j + 1 → romBit rom j = true → ∀ d ∈ devices, Agree romBit rom d j →
    romBit d j = true
  last_zero : IsLastFork romBit devices rom k lastZero

/-- The previous pass ended at a device, and its last fork was kept. The first
pass has none. -/
def Previous (devices : Finset Rom) (prev : Rom) (lastDiscrepancy : Nat) : Prop :=
  lastDiscrepancy = 0 ∨ prev ∈ devices ∧ IsLastFork romBit devices prev 64 lastDiscrepancy

theorem Walk.start {devices : Finset Rom} (hd : devices.Nonempty) (prev : Rom) (lastDiscrepancy : Nat) :
    Walk devices prev lastDiscrepancy 0 devices prev 0 where
  active_iff d := ⟨fun h => ⟨h, agree_zero prev d⟩, fun h => h.1⟩
  some_active := hd
  keep _ _ _ := rfl
  follow _ h := absurd h (Nat.not_lt_zero _)
  turn _ h := absurd h (Nat.not_lt_zero _)
  first _ h := absurd h (Nat.not_lt_zero _)
  last_zero := isLastFork_zero devices prev

/-- Before the turn the path is still that of the previous pass. -/
theorem Walk.agree_prev {devices : Finset Rom} {prev : Rom} {lastDiscrepancy k : Nat} {active : Finset Rom}
    {rom : Rom} {lastZero : Nat} (w : Walk devices prev lastDiscrepancy k active rom lastZero) {j : Nat}
    (hj : j ≤ k) (hl : j < lastDiscrepancy) : Agree romBit rom prev j := by
  intro i hi
  exact w.follow i (by omega) (by omega)

theorem agree_setRomBit (rom : Rom) (b : Bool) {j k : Nat} (hj : j ≤ k) (hk : k < 64) :
    Agree romBit (setRomBit rom k b) rom j := by
  intro i hi
  rw [romBit_setRomBit rom b (by omega) hk, if_neg (by omega)]

/-- Before the last fork of the previous pass a step follows that pass, and at it
it turns to the one. -/
theorem Walk.follow_turn {devices : Finset Rom} {prev : Rom} {lastDiscrepancy k : Nat} {active : Finset Rom}
    {rom : Rom} {lastZero : Nat} (w : Walk devices prev lastDiscrepancy k active rom lastZero) (hk : k < 64)
    (hp : Previous devices prev lastDiscrepancy) {direction : Bool} {lastZero' : Nat}
    (hs : Stepped lastDiscrepancy active k rom lastZero direction lastZero') :
    (k + 1 < lastDiscrepancy → direction = romBit prev k) ∧ (lastDiscrepancy = k + 1 → direction = true) := by
  by_cases hzero : lastDiscrepancy = 0
  · constructor <;> intro h <;> omega
  obtain ⟨hprev, hlast⟩ := hp.resolve_left hzero
  constructor
  · intro h
    by_cases hc : Conflict active k
    · exact (hs.along hc h).trans (w.keep k (le_refl k) hk)
    · have hactive : prev ∈ active := (w.active_iff prev).2 ⟨hprev, w.agree_prev (le_refl k) (by omega)⟩
      exact (hs.forced hc prev hactive).symm
  · intro h
    by_cases hc : Conflict active k
    · exact hs.turn hc h.symm
    · -- a device leaves the previous path to the one side here, and is still active
      obtain ⟨-, d, hd, hpd, h1⟩ := hlast.2.1 k h
      have hactive : d ∈ active := (w.active_iff d).2 ⟨hd, (w.agree_prev (le_refl k) (by omega)).trans hpd⟩
      exact (hs.forced hc d hactive).symm.trans h1

theorem Walk.step {devices : Finset Rom} {prev : Rom} {lastDiscrepancy k : Nat} {active : Finset Rom}
    {rom : Rom} {lastZero : Nat} (w : Walk devices prev lastDiscrepancy k active rom lastZero) (hk : k < 64)
    (hp : Previous devices prev lastDiscrepancy) {direction : Bool} {lastZero' : Nat}
    (hs : Stepped lastDiscrepancy active k rom lastZero direction lastZero') :
    Walk devices prev lastDiscrepancy (k + 1) (active.filter fun rom => romBit rom k = direction)
      (setRomBit rom k direction) lastZero' := by
  have hbit {j : Nat} (hj : j < 64) : romBit (setRomBit rom k direction) j = if j = k then direction
      else romBit rom j :=
    romBit_setRomBit rom direction hj hk
  have hnew : romBit (setRomBit rom k direction) k = direction := by
    rw [hbit hk, if_pos rfl]
  have hold {j : Nat} (hj : j ≤ k) : Agree romBit (setRomBit rom k direction) rom j :=
    agree_setRomBit rom direction hj hk
  obtain ⟨hfollow, hturn⟩ := w.follow_turn hk hp hs
  have hactive (d : Rom) (hd : d ∈ devices) (ha : Agree romBit (setRomBit rom k direction) d k) : d ∈ active :=
    (w.active_iff d).2 ⟨hd, (hold (le_refl k)).symm.trans ha⟩
  constructor
  · intro d
    rw [Finset.mem_filter, w.active_iff, agree_succ, hnew]
    constructor
    · rintro ⟨⟨hd, ha⟩, hdk⟩
      exact ⟨hd, (hold (le_refl k)).trans ha, hdk.symm⟩
    · rintro ⟨hd, ha, hdk⟩
      exact ⟨⟨hd, (hold (le_refl k)).symm.trans ha⟩, hdk.symm⟩
  · exact Finset.filter_nonempty_iff.2 hs.taken
  · intro j hj hj'
    rw [hbit hj', if_neg (by omega)]
    exact w.keep j (by omega) hj'
  · intro j hj hl
    rcases Nat.lt_succ_iff_lt_or_eq.1 hj with hj | rfl
    · rw [hbit (by omega), if_neg hj.ne]
      exact w.follow j hj hl
    · rw [hnew]
      exact hfollow hl
  · intro j hj hl
    rcases Nat.lt_succ_iff_lt_or_eq.1 hj with hj | rfl
    · rw [hbit (by omega), if_neg hj.ne]
      exact w.turn j hj hl
    · rw [hnew]
      exact hturn hl
  · intro j hj hl hj1 d hd ha
    rcases Nat.lt_succ_iff_lt_or_eq.1 hj with hj | rfl
    · rw [hbit (by omega), if_neg hj.ne] at hj1
      exact w.first j hj hl hj1 d hd ((hold hj.le).symm.trans ha)
    · rw [hnew] at hj1
      by_cases hc : Conflict active j
      · rw [hs.first hc hl] at hj1
        cases hj1
      · rw [← hj1]
        exact hs.forced hc d (hactive d hd ha)
  · by_cases hz : Conflict active k ∧ direction = false
    · obtain ⟨o, ho, h1⟩ := hz.1.2
      obtain ⟨hod, hoa⟩ := (w.active_iff o).1 ho
      rw [hs.zero hz.1 hz.2]
      exact IsLastFork.succ_of_fork ⟨hnew.trans hz.2, o, hod, (hold (le_refl k)).trans hoa, h1⟩
    · rw [hs.same hz]
      apply (w.last_zero.congr (hold (le_refl k)).symm).succ_of_not
      rintro ⟨h0, o, hod, hoa, h1⟩
      have h0 : direction = false := hnew.symm.trans h0
      -- a zero beside a device with a one was taken at a conflict
      obtain ⟨z, hz', hzd⟩ := hs.taken
      exact hz ⟨⟨⟨z, hz', hzd.trans h0⟩, o, hactive o hod hoa, h1⟩, h0⟩

/-- The loop, from bit `k` on, sets all the bits. -/
theorem searchLoop_at (lastDiscrepancy : Nat) (devices : Finset Rom) (prev : Rom)
    (hp : Previous devices prev lastDiscrepancy) :
    ∀ (fuel k : Nat) (active : Finset Rom) (rom : Rom) (lastZero : Nat), k < 64 → fuel = 64 - k →
      Walk devices prev lastDiscrepancy k active rom lastZero →
      ∃ active' rom' lastZero', Walk devices prev lastDiscrepancy 64 active' rom' lastZero' ∧
        searchLoop lastDiscrepancy fuel (searchAt k rom lastZero ⟨devices, active, .bit k⟩) =
          some (true, searchAt 64 rom' lastZero' ⟨devices, active', .bit 64⟩) := by
  intro fuel
  induction fuel with
  | zero =>
    intro k _ _ _ hk hf
    omega
  | succ fuel ih =>
    intro k active rom lastZero hk hf w
    obtain ⟨direction, lastZero', hs, hstep⟩ :=
      searchStep_at lastDiscrepancy devices active k rom lastZero w.some_active
    have w' := w.step hk hp hs
    unfold searchLoop
    rw [hstep]
    by_cases hlast : k + 1 = 64
    · rw [hlast] at w' ⊢
      exact ⟨_, _, _, w', rfl⟩
    · have hmore : (k + 1) / 8 < ONEWIRE_ROM_SIZE := by
        unfold ONEWIRE_ROM_SIZE
        omega
      obtain ⟨active', rom', last, hw, heq⟩ := ih (k + 1) _ _ _ (by omega) (by omega) w'
      exact ⟨active', rom', last, hw, (if_pos hmore).trans heq⟩

theorem writeByte_search (devices active : Finset Rom) :
    onewireWriteByte DS18B20_CMD_SEARCH_ROM ⟨devices, active, .command []⟩ = ⟨devices, active, .bit 0⟩ := by
  rfl

/-- What the search has still to find: all devices at first, and then those after
the code found last. -/
structure Searching (devices : Finset Rom) (s : SearchState) (rest : Finset Rom) : Prop where
  bus : s.bus.devices = devices
  rest_iff : s.lastDevice = false → ∀ d, d ∈ rest ↔ d ∈ devices ∧
    (s.lastDiscrepancy = 0 ∨ Before romBit 64 s.rom d)
  previous : Previous devices s.rom s.lastDiscrepancy
  done : s.lastDevice = true → rest = ∅

/-- A pass ends at a device that comes before all other devices still to be
found. -/
theorem pass_next {devices rest active : Finset Rom} {s : SearchState} (h : Searching devices s rest)
    (hlast : s.lastDevice = false) {rom : Rom} {lastZero : Nat}
    (w : Walk devices s.rom s.lastDiscrepancy 64 active rom lastZero) :
    rom ∈ rest ∧ ∀ d ∈ rest, d ≠ rom → Before romBit 64 rom d := by
  obtain ⟨d, hd⟩ := w.some_active
  obtain ⟨hdev, hagree⟩ := (w.active_iff d).1 hd
  rw [← rom_ext hagree] at hdev
  have hext : ∀ d ∈ devices, Agree romBit rom d 64 → rom = d := fun _ _ => rom_ext
  cases hz : s.lastDiscrepancy with
  | zero =>
    rw [h.rest_iff hlast, hz]
    refine ⟨⟨hdev, .inl rfl⟩, fun d hd hne => ?_⟩
    exact before_of_first (fun i hi => w.first i hi (by omega)) hext d ((h.rest_iff hlast d).1 hd).1 hne
  | succ j =>
    obtain ⟨hprev, hfork⟩ := h.previous.resolve_left (by omega)
    rw [hz] at hfork
    have hj : j < 64 := hfork.1
    obtain ⟨hbefore, hnext⟩ := before_of_turn hfork hj (w.agree_prev hj.le (by omega)) (w.turn j hj hz)
      (fun i hi hji => w.first i hi (by omega)) hext
    rw [h.rest_iff hlast]
    refine ⟨⟨hdev, .inr hbefore⟩, fun d hd hne => ?_⟩
    obtain ⟨hd, hdz⟩ := (h.rest_iff hlast d).1 hd
    exact hnext d hd (hdz.resolve_left (by omega)) hne

theorem searching_next {devices rest active : Finset Rom} {s : SearchState}
    (h : Searching devices s rest) (hlast : s.lastDevice = false) {rom : Rom} {lastZero : Nat}
    (w : Walk devices s.rom s.lastDiscrepancy 64 active rom lastZero) (phase : BusPhase) :
    Searching devices ⟨rom, lastZero, decide (lastZero = 0), ⟨devices, active, phase⟩⟩ (rest.erase rom) := by
  obtain ⟨hmem, hnext⟩ := pass_next h hlast w
  have hdev : rom ∈ devices := ((h.rest_iff hlast rom).1 hmem).1
  refine ⟨rfl, fun hmore d => ?_, .inr ⟨hdev, w.last_zero⟩, fun hdone => ?_⟩
  · have hmore : lastZero ≠ 0 := of_decide_eq_false hmore
    rw [Finset.mem_erase]
    constructor
    · rintro ⟨hne, hd⟩
      exact ⟨((h.rest_iff hlast d).1 hd).1, .inr (hnext d hd hne)⟩
    · rintro ⟨hd, hb⟩
      have hb := hb.resolve_left hmore
      have hne : d ≠ rom := by
        rintro rfl
        exact Before.irrefl d hb
      refine ⟨hne, (h.rest_iff hlast d).2 ⟨hd, ?_⟩⟩
      exact ((h.rest_iff hlast rom).1 hmem).2.imp id fun hprev => hprev.trans hb
  · have hdone : lastZero = 0 := of_decide_eq_true hdone
    rw [Finset.eq_empty_iff_forall_notMem]
    intro d hd
    obtain ⟨hne, hd⟩ := Finset.mem_erase.1 hd
    have hl := w.last_zero
    rw [hdone] at hl
    exact hl.not_before ((h.rest_iff hlast d).1 hd).1 (hnext d hd hne)

/-- With nothing left to find the search ends. -/
theorem searchNext_empty {devices : Finset Rom} {s : SearchState} (h : Searching devices s ∅) :
    ∃ s', onewireSearchNext s = some (false, s') := by
  unfold onewireSearchNext
  cases hlast : s.lastDevice with
  | true => exact ⟨s, if_pos rfl⟩
  | false =>
    have hnone (d : Rom) (hd : d ∈ devices) : ¬(s.lastDiscrepancy = 0 ∨ Before romBit 64 s.rom d) := fun hb =>
      Finset.notMem_empty d ((h.rest_iff hlast d).2 ⟨hd, hb⟩)
    have hempty : devices = ∅ := by
      rw [Finset.eq_empty_iff_forall_notMem]
      intro d hd
      cases hz : s.lastDiscrepancy with
      | zero => exact hnone d hd (.inl hz)
      | succ j =>
        have hfork := (h.previous.resolve_left (by omega)).2
        obtain ⟨h0, o, ho, ha, h1⟩ := hfork.2.1 j hz
        have hj : j < 64 := by
          have := hfork.1
          omega
        exact hnone o ho (.inr ⟨j, hj, ha, h0, h1⟩)
    simp [onewireReset, h.bus, hempty]

/-- Otherwise it goes on to the next device, accepted or not. -/
theorem searchNext_some {devices rest : Finset Rom} {s : SearchState} (h : Searching devices s rest)
    (hrest : rest.Nonempty) :
    ∃ s', onewireSearchNext s = some (romAccepted s'.rom, s') ∧ s'.rom ∈ rest ∧
      (∀ d ∈ rest, d ≠ s'.rom → Before romBit 64 s'.rom d) ∧ Searching devices s' (rest.erase s'.rom) := by
  obtain ⟨d, hd⟩ := hrest
  have hlast : s.lastDevice = false := by
    apply Bool.eq_false_of_not_eq_true
    intro hl
    rw [h.done hl] at hd
    exact Finset.notMem_empty d hd
  have hne : devices.Nonempty := ⟨d, ((h.rest_iff hlast d).1 hd).1⟩
  obtain ⟨active, rom, lastZero, w, heq⟩ :=
    searchLoop_at s.lastDiscrepancy devices s.rom h.previous 64 0 devices s.rom 0
    (by decide) rfl (Walk.start hne s.rom s.lastDiscrepancy)
  obtain ⟨hmem, hnext⟩ := pass_next h hlast w
  refine ⟨_, ?_, hmem, hnext, searching_next h hlast w (.bit 64)⟩
  have hreset : onewireReset s.bus = (true, ⟨devices, devices, .command []⟩) := by
    unfold onewireReset
    rw [h.bus, decide_eq_true hne.ne_empty]
  have hstart : searchAt 0 s.rom 0 ⟨devices, devices, .bit 0⟩ =
      ⟨s.rom, 0, 1, 1, 0, ⟨devices, devices, .bit 0⟩⟩ := rfl
  rw [hstart] at heq
  unfold onewireSearchNext
  simp only [hlast, hreset, Bool.false_eq_true, if_false, Bool.true_eq_false, writeByte_search, heq]
  rfl

end BLEBridge
