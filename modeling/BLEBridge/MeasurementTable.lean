import BLEBridge.MeasurementStore
/-!
# What an add does to the table

One lemma for each of the three ways a measurement leaves the table, pruning,
the series limit and a full table, and `addEffect`, which sums them up.
-/
open Lib

namespace BLEBridge

variable {V : Type} {n : Nat}

/-- A measurement that is no longer there. -/
def Freed (table table' : MeasurementTable V n) (i : Fin n) : Prop := (table i).InUse ∧ ¬(table' i).InUse

/-- `table'` is `table` with some measurements gone. -/
def Shrinks (table table' : MeasurementTable V n) : Prop := ∀ i, (table' i).InUse → table' i = table i

theorem Shrinks.refl (table : MeasurementTable V n) : Shrinks table table := fun _ _ => rfl

theorem Shrinks.inUse {table table' : MeasurementTable V n} (h : Shrinks table table') {i : Fin n}
    (hu : (table' i).InUse) :
    (table i).InUse := h i hu ▸ hu

theorem Shrinks.trans {table table' table'' : MeasurementTable V n} (h : Shrinks table table')
    (h' : Shrinks table' table'') :
    Shrinks table table'' := fun i hu => (h' i hu).trans (h i (h'.inUse hu))

/-- Where nothing is gone nothing has changed. -/
theorem Shrinks.eq_of_inUse {table table' : MeasurementTable V n} (h : Shrinks table table')
    (hu : ∀ i, (table' i).InUse) :
    table' = table := funext fun i => h i (hu i)

theorem free_not_inUse (e : MeasurementEntry V) : ¬e.free.InUse := fun h => h rfl

theorem ageMs_toNat {nowMs timestampMs : UInt32} (h : timestampMs.toNat ≤ nowMs.toNat) :
    (ageMs nowMs timestampMs).toNat = nowMs.toNat - timestampMs.toNat := by
  have h' : timestampMs ≤ nowMs := UInt32.le_iff_toNat_le.2 h
  unfold ageMs
  rw [if_pos h', UInt32.toNat_sub_of_le _ _ h']

/-! ## Pruning -/

theorem prune_inUse (table : MeasurementTable V n) (nowMs retentionMs : UInt32) (i : Fin n) :
    ((measurementTablePrune table nowMs retentionMs).1 i).InUse ↔
      (table i).InUse ∧ ageMs nowMs (table i).timestampMs ≤ retentionMs := by
  unfold measurementTablePrune
  dsimp only
  by_cases hf : (table i).fieldType = .none
  · rw [if_pos hf]
    exact ⟨fun h => absurd hf h, fun h => absurd hf h.1⟩
  · rw [if_neg hf]
    by_cases ha : ageMs nowMs (table i).timestampMs > retentionMs
    · rw [if_pos ha]
      exact ⟨fun h => absurd h (free_not_inUse _), fun h => absurd ha (UInt32.not_lt.2 h.2)⟩
    · rw [if_neg ha]
      exact ⟨fun h => ⟨h, UInt32.not_lt.1 ha⟩, fun h => h.1⟩

theorem prune_shrinks (table : MeasurementTable V n) (nowMs retentionMs : UInt32) :
    Shrinks table (measurementTablePrune table nowMs retentionMs).1 := by
  intro i hu
  have ha := ((prune_inUse table nowMs retentionMs i).1 hu)
  unfold measurementTablePrune
  dsimp only
  rw [if_neg ha.1, if_neg (UInt32.not_lt.2 ha.2)]

/-! ## The series limit -/

theorem freeSlot_shrinks (table : MeasurementTable V n) (i : Fin n) : Shrinks table (freeSlot table i) := by
  intro j hu
  unfold freeSlot at hu ⊢
  by_cases hj : j = i
  · subst hj
    rw [Function.update_self] at hu
    exact absurd hu (free_not_inUse _)
  · exact Function.update_of_ne hj _ _

theorem freeSlot_not_inUse (table : MeasurementTable V n) (i : Fin n) : ¬(freeSlot table i i).InUse := by
  unfold freeSlot
  rw [Function.update_self]
  exact free_not_inUse _

/-- What the limit of `cap` measurements leaves of a series: the youngest, and no
fewer than it must. -/
structure Limited (cap : Nat) (nowMs deviceId : UInt32) (fieldType : MeasurementField)
    (table table' : MeasurementTable V n) : Prop where
  shrinks : Shrinks table table'
  series : ∀ i, Freed table table' i → (table i).InSeries deviceId fieldType
  oldest : ∀ i, Freed table table' i → ∀ j, (table' j).InUse → (table' j).InSeries deviceId fieldType →
    (ageMs nowMs (table j).timestampMs).toNat ≤ (ageMs nowMs (table i).timestampMs).toNat
  tight : table' = table ∨ cap ≤ seriesCount table' deviceId fieldType + 1

variable {nowMs deviceId : UInt32} {fieldType : MeasurementField}

theorem Limited.refl (cap : Nat) (table : MeasurementTable V n) :
    Limited cap nowMs deviceId fieldType table table where
  shrinks := .refl table
  series _ h := absurd h.1 h.2
  oldest _ h := absurd h.1 h.2
  tight := .inl rfl

/-- One round of the loop before the others. -/
theorem Limited.step {cap : Nat} {table table' : MeasurementTable V n} {oldest : Fin n}
    (hc : cap ≤ seriesCount table deviceId fieldType)
    (ho : measurementFindOldest table nowMs deviceId fieldType true = some oldest)
    (h : Limited cap nowMs deviceId fieldType (freeSlot table oldest) table') :
    Limited cap nowMs deviceId fieldType table table' := by
  obtain ⟨⟨hu, hs⟩, hmax⟩ := findOldest_series ho
  have hfree := freeSlot_shrinks table oldest
  have hsame : ∀ i, i ≠ oldest → freeSlot table oldest i = table i := fun i hi => Function.update_of_ne hi _ _
  have hleft : ∀ j, (table' j).InUse → j ≠ oldest := by
    rintro j hj rfl
    exact freeSlot_not_inUse table j (h.shrinks.inUse hj)
  refine ⟨hfree.trans h.shrinks, ?_, ?_, ?_⟩
  · intro i hi
    by_cases he : i = oldest
    · rwa [he]
    · rw [← hsame i he]
      exact h.series i ⟨by rw [hsame i he]; exact hi.1, hi.2⟩
  · intro i hi j hj hjs
    by_cases he : i = oldest
    · have hjt := (hfree.trans h.shrinks) j hj
      rw [he]
      exact hmax j (hjt ▸ hj) (hjt ▸ hjs)
    · have := h.oldest i ⟨by rw [hsame i he]; exact hi.1, hi.2⟩ j hj hjs
      rwa [hsame i he, hsame j (hleft j hj)] at this
  · right
    rcases h.tight with h | h
    · rwa [h, seriesCount_freeSlot hu hs]
    · exact h

theorem enforceLoop_limited (maxCount : UInt16) (table : MeasurementTable V n) :
    Limited maxCount.toNat nowMs deviceId fieldType table
      (enforceLoop maxCount nowMs deviceId fieldType table) := by
  induction table using enforceLoop.induct maxCount nowMs deviceId fieldType with
  | case1 table hlt =>
    rw [enforceLoop, if_pos hlt]
    exact .refl _ _
  | case2 table hge hnone =>
    rw [enforceLoop, if_neg hge]
    split
    · exact .refl _ _
    · rename_i hsome
      rw [hnone] at hsome
      cases hsome
  | case3 table hge oldest hsome ih =>
    rw [enforceLoop, if_neg hge]
    split
    · exact .refl _ _
    · rename_i hsome'
      rw [hsome] at hsome'
      cases hsome'
      exact ih.step (not_lt.1 hge) hsome

/-- The loop stops only below the limit: as long as a series has a measurement,
it has an oldest one. -/
theorem enforceLoop_count {maxCount : UInt16} (hm : maxCount ≠ 0) (hf : fieldType ≠ .none)
    (table : MeasurementTable V n) :
    seriesCount (enforceLoop maxCount nowMs deviceId fieldType table) deviceId fieldType < maxCount.toNat := by
  induction table using enforceLoop.induct maxCount nowMs deviceId fieldType with
  | case1 table hlt =>
    rw [enforceLoop, if_pos hlt]
    exact hlt
  | case2 table hge hnone =>
    refine absurd (?_ : _ < _) hge
    have hzero : seriesCount table deviceId fieldType = 0 := by
      unfold seriesCount
      rw [List.countP_eq_zero]
      intro i _ hi
      have hs := of_decide_eq_true hi
      have hskip := findOldest_none hnone i
      rw [(skipped_series _ _ _).2 ⟨fun h => hf (hs.1.symm.trans h), hs⟩] at hskip
      cases hskip
    have : maxCount.toNat ≠ 0 := fun h => hm (UInt16.toNat_inj.1 h)
    omega
  | case3 table hge oldest hsome ih =>
    rw [enforceLoop, if_neg hge]
    split
    · rename_i hnone
      rw [hnone] at hsome
      cases hsome
    · rename_i hsome'
      rw [hsome] at hsome'
      cases hsome'
      exact ih

theorem enforce_limited (maxCount : UInt16) (table : MeasurementTable V n) :
    Limited maxCount.toNat nowMs deviceId fieldType table
      (measurementEnforceSeriesLimit maxCount nowMs deviceId fieldType table) := by
  unfold measurementEnforceSeriesLimit
  split
  · exact .refl _ _
  · exact enforceLoop_limited maxCount table

/-! ## A full table -/

theorem slotForAdd_some (table : MeasurementTable V n) (hn : 0 < n) (nowMs : UInt32) :
    ∃ k, slotForAdd nowMs table = some k := by
  unfold slotForAdd
  cases hf : measurementFindFreeSlot table with
  | some k => exact ⟨k, rfl⟩
  | none =>
    cases ho : measurementFindOldest table nowMs 0 .none false with
    | some k => exact ⟨k, rfl⟩
    | none =>
      have hskip := findOldest_none ho ⟨0, hn⟩
      rw [(skipped_all _ _ _).2 (findFree_none hf _)] at hskip
      cases hskip

/-- A slot is taken from a measurement only when none is free, and then it is the
oldest measurement of all. -/
theorem slotForAdd_inUse {table : MeasurementTable V n} {nowMs : UInt32} {k : Fin n}
    (h : slotForAdd nowMs table = some k) (hu : (table k).InUse) : (∀ j, (table j).InUse) ∧
      ∀ j, (ageMs nowMs (table j).timestampMs).toNat ≤ (ageMs nowMs (table k).timestampMs).toNat := by
  unfold slotForAdd at h
  cases hf : measurementFindFreeSlot table with
  | some i =>
    rw [hf] at h
    cases h
    exact absurd hu (findFree_some hf)
  | none =>
    rw [hf] at h
    exact ⟨findFree_none hf, fun j => (findOldest_all h).2 j (findFree_none hf j)⟩

/-! ## An add -/

section
variable (s : MeasurementStore V) (deviceId : UInt32) (fieldType : MeasurementField) (value : V) (nowMs : UInt32)

/-- The table after an add, which writes slot `k`. -/
def tableAfterAdd (k : Fin MEASUREMENT_STORE_TABLE_SIZE) : MeasurementTable V MEASUREMENT_STORE_TABLE_SIZE :=
  Function.update (tableForAdd deviceId fieldType nowMs s) k ⟨deviceId, fieldType, value, nowMs⟩

theorem add_eq {fieldType : MeasurementField} (hf : fieldType ≠ .none) :
    ∃ k, slotForAdd nowMs (tableForAdd deviceId fieldType nowMs s) = some k ∧
      measurementStoreAdd deviceId fieldType value nowMs s =
        (true, { s with table := tableAfterAdd s deviceId fieldType value nowMs k }) := by
  obtain ⟨k, hk⟩ := slotForAdd_some (tableForAdd deviceId fieldType nowMs s) (by decide) nowMs
  refine ⟨k, hk, ?_⟩
  unfold measurementStoreAdd
  rw [if_neg hf]
  dsimp only
  rw [hk]
  rfl
end

/-- A measurement of `s` that is gone after an add wrote slot `k`. -/
def RemovedByAdd (table table' : MeasurementTable V n) (k i : Fin n) : Prop :=
  (table i).InUse ∧ (i = k ∨ ¬(table' i).InUse)

/-- A measurement of `s` that an add left in place. -/
def KeptByAdd (table table' : MeasurementTable V n) (k j : Fin n) : Prop :=
  (table j).InUse ∧ j ≠ k ∧ (table' j).InUse

instance (table table' : MeasurementTable V n) (k j : Fin n) : Decidable (KeptByAdd table table' k j) :=
  inferInstanceAs (Decidable (_ ∧ _))

/-- Why the measurement in slot `i` is gone: it was too old, or its series was at
its limit and nothing older than it is left there, or the table was full and it
was the oldest of all. -/
inductive RemovalReason (retentionMs : UInt32) (maxCount : UInt16) (nowMs deviceId : UInt32)
    (fieldType : MeasurementField) (table table' : MeasurementTable V n) (k i : Fin n) : Prop
  | stale (h : retentionMs.toNat < nowMs.toNat - (table i).timestampMs.toNat)
  | limit (hm : maxCount ≠ 0) (hs : (table i).InSeries deviceId fieldType)
      (hcount : maxCount.toNat ≤
        (Finset.univ.filter fun j => KeptByAdd table table' k j ∧ (table j).InSeries deviceId fieldType).card + 1)
      (holdest : ∀ j, KeptByAdd table table' k j → (table j).InSeries deviceId fieldType →
        (table i).timestampMs.toNat ≤ (table j).timestampMs.toNat)
  | full (hall : ∀ j, (table j).InUse) (holdest : ∀ j, (table i).timestampMs.toNat ≤ (table j).timestampMs.toNat)
      (honly : ∀ j, j ≠ i → table' j = table j)

section
variable {table limited : MeasurementTable V n} {retentionMs : UInt32} {maxCount : UInt16} {k : Fin n}
    {e : MeasurementEntry V}
  (hclock : ∀ i, (table i).InUse → (table i).timestampMs.toNat ≤ nowMs.toNat)
  (hl : limited = measurementEnforceSeriesLimit maxCount nowMs deviceId fieldType
    (measurementTablePrune table nowMs retentionMs).1)
  (hk : slotForAdd nowMs limited = some k) (hf : fieldType ≠ .none)

theorem update_inUse {i : Fin n} (hi : i ≠ k) : Function.update limited k e i = limited i :=
  Function.update_of_ne hi _ _

include hl in
theorem limited_shrinks : Shrinks table limited :=
  (prune_shrinks table nowMs retentionMs).trans (hl ▸ (enforce_limited maxCount _).shrinks)

include hl in
theorem kept_of_limited {j : Fin n} (hj : j ≠ k) (hu : (limited j).InUse) :
    KeptByAdd table (Function.update limited k e) k j :=
  ⟨(limited_shrinks hl).inUse hu, hj, by rwa [update_inUse hj]⟩

include hclock hl hk hf in
/-- Every measurement an add removes has its reason. -/
theorem removal_reason {i : Fin n} (hi : RemovedByAdd table (Function.update limited k e) k i) :
    RemovalReason retentionMs maxCount nowMs deviceId fieldType table (Function.update limited k e) k i := by
  have hshrinks := limited_shrinks hl
  by_cases hp : ((measurementTablePrune table nowMs retentionMs).1 i).InUse
  · by_cases hu : (limited i).InUse
    · -- nothing was freed for it, so its slot was taken
      have hik : i = k := by
        by_contra hne
        rcases hi.2 with h | h
        · exact hne h
        · rw [update_inUse hne] at h
          exact h hu
      subst hik
      obtain ⟨hall, hmax⟩ := slotForAdd_inUse hk hu
      have heq := hshrinks.eq_of_inUse hall
      rw [heq] at hall hmax
      refine .full hall ?_ ?_
      · intro j
        have hage := hmax j
        rw [ageMs_toNat (hclock j (hall j)), ageMs_toNat (hclock i (hall i))] at hage
        have hj := hclock j (hall j)
        have hi := hclock i (hall i)
        omega
      · intro j hj
        rw [update_inUse hj, heq]
    · -- the series limit freed it, so there was a free slot
      have hlim := @enforce_limited _ _ nowMs deviceId fieldType maxCount
        (measurementTablePrune table nowMs retentionMs).1
      rw [← hl] at hlim
      have hkfree : ¬(limited k).InUse := fun h => hu ((slotForAdd_inUse hk h).1 i)
      have hpi := prune_shrinks table nowMs retentionMs i hp
      refine .limit ?_ ?_ ?_ ?_
      · rintro rfl
        rw [hl, measurementEnforceSeriesLimit, if_pos rfl] at hu
        exact hu hp
      · rw [← hpi]
        exact hlim.series i ⟨hp, hu⟩
      · have htight := hlim.tight.resolve_left fun h => hu (h ▸ hp)
        rw [seriesCount_eq_card] at htight
        refine htight.trans (Nat.add_le_add_right (Finset.card_le_card ?_) 1)
        intro j hj
        have hjs := (Finset.mem_filter.1 hj).2
        have hju : (limited j).InUse := fun h => hf (hjs.1.symm.trans h)
        rw [Finset.mem_filter, ← hshrinks j hju]
        exact ⟨Finset.mem_univ j, kept_of_limited hl (fun h => hkfree (h ▸ hju)) hju, hjs⟩
      · intro j hj hjs
        have hju : (limited j).InUse := by
          have := hj.2.2
          rwa [update_inUse hj.2.1] at this
        have hage := hlim.oldest i ⟨hp, hu⟩ j hju (by rwa [hshrinks j hju])
        have hpj := prune_shrinks table nowMs retentionMs j (hlim.shrinks.inUse hju)
        rw [hpi, hpj, ageMs_toNat (hclock j hj.1), ageMs_toNat (hclock i hi.1)] at hage
        have hj := hclock j hj.1
        have hi := hclock i hi.1
        omega
  · refine .stale ?_
    rw [prune_inUse, not_and] at hp
    have ha := UInt32.lt_iff_toNat_lt.1 (UInt32.not_le.1 (hp hi.1))
    rwa [ageMs_toNat (hclock i hi.1)] at ha

include hclock hl in
/-- What an add leaves in place is within the retention. -/
theorem kept_fresh {j : Fin n} (hj : KeptByAdd table (Function.update limited k e) k j) :
    nowMs.toNat - (table j).timestampMs.toNat ≤ retentionMs.toNat := by
  have hu := hj.2.2
  rw [update_inUse hj.2.1, hl] at hu
  have ha := ((prune_inUse _ _ _ _).1 ((enforce_limited maxCount _).shrinks.inUse hu)).2
  rwa [UInt32.le_iff_toNat_le, ageMs_toNat (hclock j hj.1)] at ha

include hl hf in
/-- With a limit, the series of an add holds at most so many measurements. -/
theorem seriesCount_after_add (hm : maxCount ≠ 0) :
    seriesCount (Function.update limited k e) deviceId fieldType ≤ maxCount.toNat := by
  have hlt : seriesCount limited deviceId fieldType < maxCount.toNat := by
    rw [hl, measurementEnforceSeriesLimit, if_neg hm]
    exact enforceLoop_count hm hf _
  rw [seriesCount_eq_card] at hlt ⊢
  refine (Finset.card_le_card (t :=
    insert k (Finset.univ.filter fun i => (limited i).InSeries deviceId fieldType)) ?_).trans
    ((Finset.card_insert_le _ _).trans hlt)
  intro j hj
  rw [Finset.mem_insert]
  by_cases hjk : j = k
  · exact .inl hjk
  · have hjs := (Finset.mem_filter.1 hj).2
    rw [update_inUse hjk] at hjs
    exact .inr (Finset.mem_filter.2 ⟨Finset.mem_univ j, hjs⟩)
end

end BLEBridge
