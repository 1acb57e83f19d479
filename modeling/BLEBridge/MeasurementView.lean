import Mathlib.Algebra.BigOperators.Group.Finset.Basic
import Mathlib.Algebra.BigOperators.Fin
import BLEBridge.Lib.Slots
import BLEBridge.MeasurementStore
/-!
# What the view counts

`measurement_view_rebuild` gives a slot to each series in the order the table
has them, and adds each measurement to the slot of its series. The values are
taken as exact.
-/
open Lib

namespace BLEBridge

variable {V : Type} {n : Nat}

def MeasurementViewEntry.series (e : MeasurementViewEntry V) : UInt32 × MeasurementField :=
  (e.deviceId, e.fieldType)

/-- The measurements of the table, in its order. -/
def samples (table : MeasurementTable V n) : List (MeasurementEntry V) :=
  ((List.finRange n).map table).filter fun e => e.InUse

/-- The series of the table, in the order they first occur in it. -/
def tableSeries (table : MeasurementTable V n) : List (UInt32 × MeasurementField) :=
  distinct ((samples table).map MeasurementEntry.series)

/-- `measurement_store_table_used` -/
def measurementStoreTableUsed (table : MeasurementTable V n) : Nat :=
  (List.finRange n).countP fun i => (table i).InUse

def ofSeries (es : List (MeasurementEntry V)) (k : UInt32 × MeasurementField) : List (MeasurementEntry V) :=
  es.filter fun e => e.series = k

theorem ofSeries_concat (es : List (MeasurementEntry V)) (e : MeasurementEntry V)
    (k : UInt32 × MeasurementField) :
    ofSeries (es ++ [e]) k = if e.series = k then ofSeries es k ++ [e] else ofSeries es k := by
  unfold ofSeries
  rw [List.filter_append]
  split
  · rename_i h
    simp [h]
  · rename_i h
    simp [h]

theorem samples_inUse (table : MeasurementTable V n) : ∀ e ∈ samples table, e.InUse := by
  intro e he
  exact of_decide_eq_true (List.mem_filter.1 he).2

theorem length_samples (table : MeasurementTable V n) :
    (samples table).length = measurementStoreTableUsed table := by
  unfold samples measurementStoreTableUsed
  rw [← List.countP_eq_length_filter, List.countP_map]
  rfl

theorem length_ofSeries_le (table : MeasurementTable V n) (k : UInt32 × MeasurementField) :
    (ofSeries (samples table) k).length ≤ n := by
  refine (List.length_filter_le _ _).trans ((List.length_filter_le _ _).trans ?_)
  rw [List.length_map, List.length_finRange]

theorem ofSeries_pos {es : List (MeasurementEntry V)} {k : UInt32 × MeasurementField}
    (h : k ∈ es.map MeasurementEntry.series) : 0 < (ofSeries es k).length := by
  obtain ⟨e, he, hek⟩ := List.mem_map.1 h
  exact List.length_pos_of_mem (List.mem_filter.2 ⟨he, decide_eq_true hek⟩)

section
variable [AddCommMonoid V]

/-- The view while the table is read: a slot for each of the series so far. -/
def viewOf (keys : List (UInt32 × MeasurementField)) : MeasurementView V := fun j =>
  match keys[j.val]? with
  | none => .zero
  | some (deviceId, fieldType) => ⟨true, deviceId, fieldType, 0, 0⟩

def accumulatorsOf (keys : List (UInt32 × MeasurementField)) (es : List (MeasurementEntry V)) :
    Fin MEASUREMENT_STORE_VIEW_SIZE → MeasurementAccumulator V := fun j =>
  match keys[j.val]? with
  | none => ⟨0, 0⟩
  | some k => ⟨((ofSeries es k).map MeasurementEntry.value).sum, UInt32.ofNat (ofSeries es k).length⟩

variable {keys : List (UInt32 × MeasurementField)} {j : Fin MEASUREMENT_STORE_VIEW_SIZE}
    {k : UInt32 × MeasurementField}

theorem viewOf_some (h : keys[j.val]? = some k) :
    (viewOf keys j : MeasurementViewEntry V) = ⟨true, k.1, k.2, 0, 0⟩ := by
  unfold viewOf
  rw [h]

theorem viewOf_none (h : keys[j.val]? = none) : (viewOf keys j : MeasurementViewEntry V) = .zero := by
  unfold viewOf
  rw [h]

theorem viewOf_inUse (keys : List (UInt32 × MeasurementField)) (j : Fin MEASUREMENT_STORE_VIEW_SIZE) :
    (viewOf keys j : MeasurementViewEntry V).inUse = true ↔ j.val < keys.length := by
  cases h : keys[j.val]? with
  | none =>
    rw [viewOf_none h]
    rw [List.getElem?_eq_none_iff] at h
    exact ⟨fun hf => absurd hf Bool.false_ne_true, fun hl => absurd hl (by omega)⟩
  | some k =>
    rw [viewOf_some h]
    exact ⟨fun _ => (List.getElem?_eq_some_iff.1 h).1, fun _ => rfl⟩

theorem viewOf_match (e : MeasurementEntry V) (j : Fin MEASUREMENT_STORE_VIEW_SIZE) :
    ((viewOf keys j : MeasurementViewEntry V).inUse && (viewOf keys j : MeasurementViewEntry V).fieldType =
      e.fieldType &&
      (viewOf keys j : MeasurementViewEntry V).deviceId = e.deviceId) = true ↔ keys[j.val]? = some e.series := by
  cases h : keys[j.val]? with
  | none => simp [viewOf_none h, MeasurementViewEntry.zero]
  | some k =>
    rw [viewOf_some h]
    simp [MeasurementEntry.series, Prod.ext_iff, and_comm]

theorem accumulatorsOf_other {es : List (MeasurementEntry V)} {e : MeasurementEntry V}
    (h : keys[j.val]? ≠ some e.series) : accumulatorsOf keys (es ++ [e]) j = accumulatorsOf keys es j := by
  unfold accumulatorsOf
  cases hk : keys[j.val]? with
  | none => rfl
  | some k =>
    rw [hk] at h
    dsimp only
    rw [ofSeries_concat, if_neg fun he => h (congrArg some he.symm)]

theorem accumulatorsOf_same {es : List (MeasurementEntry V)} {e : MeasurementEntry V}
    (h : keys[j.val]? = some e.series) : accumulatorsOf keys (es ++ [e]) j =
      ⟨(accumulatorsOf keys es j).sumValue + e.value, (accumulatorsOf keys es j).sampleCount + 1⟩ := by
  unfold accumulatorsOf
  rw [h]
  dsimp only
  rw [ofSeries_concat, if_pos rfl, List.map_append, List.sum_append, List.length_append, UInt32.ofNat_add]
  simp

/-! ## One measurement -/

theorem viewSlot_key {e : MeasurementEntry V} (hn : keys.Nodup) (h : keys[j.val]? = some e.series) :
    viewSlot (viewOf keys) e = some j := by
  unfold viewSlot
  dsimp only
  rw [find_key (viewOf_match e) hn h]

theorem viewOf_free (keys : List (UInt32 × MeasurementField)) (j : Fin MEASUREMENT_STORE_VIEW_SIZE) :
    (!(viewOf keys j : MeasurementViewEntry V).inUse) = true ↔ keys.length ≤ j.val := by
  rw [Bool.not_eq_true', ← Bool.not_eq_true, viewOf_inUse, Nat.not_lt]

theorem viewSlot_free {e : MeasurementEntry V} (h : e.series ∉ keys) (hj : j.val = keys.length) :
    viewSlot (viewOf keys) e = some j := by
  unfold viewSlot
  dsimp only
  rw [find_key_none (viewOf_match e) h]
  exact find_free (viewOf_free keys) hj

theorem viewSlot_full {e : MeasurementEntry V} (h : e.series ∉ keys)
    (hfull : MEASUREMENT_STORE_VIEW_SIZE ≤ keys.length) : viewSlot (viewOf keys) e = none := by
  unfold viewSlot
  dsimp only
  rw [find_key_none (viewOf_match e) h]
  exact find_free_none (viewOf_free keys) hfull

theorem viewOf_concat (keys : List (UInt32 × MeasurementField)) (k : UInt32 × MeasurementField)
    (hj : j.val = keys.length) : (viewOf (keys ++ [k]) : MeasurementView V) =
      Function.update (viewOf keys) j ⟨true, k.1, k.2, 0, 0⟩ := by
  funext i
  by_cases hi : i = j
  · subst hi
    rw [Function.update_self, viewOf_some]
    rw [hj, List.getElem?_concat_length]
  · rw [Function.update_of_ne hi]
    unfold viewOf
    rw [getElem?_concat_ne fun h => hi (Fin.ext (h.trans hj.symm))]

/-- A key no measurement has adds nothing. -/
theorem accumulatorsOf_concat {es : List (MeasurementEntry V)} (keys : List (UInt32 × MeasurementField))
    (hk : k ∉ es.map MeasurementEntry.series) : accumulatorsOf (keys ++ [k]) es = accumulatorsOf keys es := by
  funext i
  unfold accumulatorsOf
  by_cases hi : i.val = keys.length
  · rw [hi, List.getElem?_concat_length, List.getElem?_eq_none_iff.2 le_rfl]
    have hes : ofSeries es k = [] := by
      unfold ofSeries
      rw [List.filter_eq_nil_iff]
      intro e he hek
      rw [decide_eq_true_eq] at hek
      exact hk (hek ▸ List.mem_map_of_mem he)
    dsimp only
    rw [hes]
    rfl
  · rw [getElem?_concat_ne hi]

/-- The accumulator of the measurement's series takes it, the others do not. -/
theorem accumulatorsOf_update {e : MeasurementEntry V} (es : List (MeasurementEntry V)) (hn : keys.Nodup)
    (h : keys[j.val]? = some e.series) : Function.update (accumulatorsOf keys es) j
      ⟨(accumulatorsOf keys es j).sumValue + e.value, (accumulatorsOf keys es j).sampleCount + 1⟩ =
        accumulatorsOf keys (es ++ [e]) := by
  funext i
  by_cases hi : i = j
  · subst hi
    rw [Function.update_self, accumulatorsOf_same h]
  · rw [Function.update_of_ne hi, accumulatorsOf_other]
    intro he
    obtain ⟨hil, hie⟩ := List.getElem?_eq_some_iff.1 he
    obtain ⟨hjl, hje⟩ := List.getElem?_eq_some_iff.1 h
    exact hi (Fin.ext ((hn.getElem_inj_iff).1 (hie.trans hje.symm)))

/-- A measurement counts in the slot of its series, the next free one if it is new. -/
theorem viewCount_spec {e : MeasurementEntry V} {es : List (MeasurementEntry V)} (he : e.InUse)
    (hkeys : keys = firstDistinct MEASUREMENT_STORE_VIEW_SIZE (es.map MeasurementEntry.series)) :
    viewCount (viewOf keys, accumulatorsOf keys es) e =
      (viewOf (firstDistinct MEASUREMENT_STORE_VIEW_SIZE ((es ++ [e]).map MeasurementEntry.series)),
        accumulatorsOf (firstDistinct MEASUREMENT_STORE_VIEW_SIZE ((es ++ [e]).map MeasurementEntry.series))
          (es ++ [e])) := by
  have hn : keys.Nodup := hkeys ▸ nodup_firstDistinct _ _
  have hle : keys.length ≤ MEASUREMENT_STORE_VIEW_SIZE := hkeys ▸ length_firstDistinct_le _ _
  rw [List.map_append, List.map_singleton, firstDistinct_concat, ← hkeys]
  unfold viewCount
  dsimp only
  rw [if_neg he]
  by_cases hk : e.series ∈ keys
  · obtain ⟨i, hi⟩ := List.mem_iff_getElem?.1 hk
    have hlt : i < MEASUREMENT_STORE_VIEW_SIZE := (List.getElem?_eq_some_iff.1 hi).1.trans_le hle
    rw [if_pos (.inl hk), viewSlot_key (j := ⟨i, hlt⟩) hn hi]
    dsimp only
    rw [if_pos ((viewOf_inUse _ _).2 (List.getElem?_eq_some_iff.1 hi).1),
      accumulatorsOf_update (j := ⟨i, hlt⟩) es hn hi]
  · by_cases hfull : MEASUREMENT_STORE_VIEW_SIZE ≤ keys.length
    · rw [if_pos (.inr hfull), viewSlot_full hk hfull]
      dsimp only
      -- no slot is the one of this series, so no sum changes
      congr 1
      funext i
      rw [accumulatorsOf_other fun hi => hk (List.mem_of_getElem? hi)]
    · have hlt := Nat.not_le.1 hfull
      have hnew := not_mem_of_not_mem_firstDistinct (hkeys ▸ hk) (hkeys ▸ hlt)
      rw [if_neg (not_or.2 ⟨hk, hfull⟩), viewSlot_free (j := ⟨_, hlt⟩) hk rfl]
      dsimp only
      have hfree : (viewOf keys ⟨_, hlt⟩ : MeasurementViewEntry V) = .zero :=
        viewOf_none (List.getElem?_eq_none_iff.2 le_rfl)
      have hn' : (keys ++ [e.series]).Nodup := List.nodup_append.2 ⟨hn, List.nodup_singleton _, by
        rintro a ha b hb rfl
        exact hk (List.mem_singleton.1 hb ▸ ha)⟩
      have hzero : (MeasurementViewEntry.zero : MeasurementViewEntry V).inUse ≠ true := Bool.false_ne_true
      rw [hfree, if_neg hzero, ← accumulatorsOf_concat keys hnew,
        accumulatorsOf_update (j := ⟨_, hlt⟩) es hn' List.getElem?_concat_length,
        viewOf_concat (j := ⟨_, hlt⟩) _ _ rfl]
      rfl

/-! ## The whole table -/

theorem viewFold_eq (es : List (MeasurementEntry V)) (hes : ∀ e ∈ es, e.InUse) :
    es.foldl viewCount (fun _ => .zero, fun _ => ⟨0, 0⟩) =
      (viewOf (firstDistinct MEASUREMENT_STORE_VIEW_SIZE (es.map MeasurementEntry.series)),
        accumulatorsOf (firstDistinct MEASUREMENT_STORE_VIEW_SIZE (es.map MeasurementEntry.series)) es) := by
  induction es using List.reverseRecOn with
  | nil => rfl
  | append_singleton es e ih =>
    rw [List.foldl_append, ih fun e' he' => hes e' (List.mem_append_left _ he')]
    exact viewCount_spec (hes e (List.mem_append_right _ (List.mem_singleton_self e))) rfl

/-- The loop passes over the slots that are free. -/
theorem viewCount_free (state : MeasurementView V × (Fin MEASUREMENT_STORE_VIEW_SIZE → MeasurementAccumulator V))
    {e : MeasurementEntry V} (he : ¬e.InUse) : viewCount state e = state := by
  unfold viewCount
  exact if_pos (not_not.1 he)

theorem viewLoop_eq (table : MeasurementTable V n) :
    (List.finRange n).foldl (fun state i => viewCount state (table i)) (fun _ => .zero, fun _ => ⟨0, 0⟩) =
      (samples table).foldl viewCount (fun _ => .zero, fun _ => ⟨0, 0⟩) := by
  unfold samples
  rw [List.foldl_filter, List.foldl_map]
  congr 1
  funext state i
  by_cases h : (table i).InUse
  · rw [if_pos (decide_eq_true h)]
  · rw [if_neg (by rw [decide_eq_true_eq]; exact h), viewCount_free state h]

section
variable [Div V] [NatCast V]

theorem viewRebuild_none {table : MeasurementTable V n}
    (h : (firstDistinct MEASUREMENT_STORE_VIEW_SIZE
      ((samples table).map MeasurementEntry.series))[j.val]? = none) :
    measurementViewRebuild table j = .zero := by
  unfold measurementViewRebuild
  rw [viewLoop_eq, viewFold_eq _ (samples_inUse table)]
  dsimp only
  rw [viewOf_none h]
  rfl

theorem viewRebuild_some {table : MeasurementTable V n} (hn : n < 65536)
    (h : (firstDistinct MEASUREMENT_STORE_VIEW_SIZE
      ((samples table).map MeasurementEntry.series))[j.val]? = some k) :
    measurementViewRebuild table j =
      ⟨true, k.1, k.2, ((ofSeries (samples table) k).map MeasurementEntry.value).sum /
        ((ofSeries (samples table) k).length : V), UInt16.ofNat (ofSeries (samples table) k).length⟩ := by
  have hpos := ofSeries_pos (mem_of_mem_firstDistinct (List.mem_of_getElem? h))
  have hle := length_ofSeries_le table k
  unfold measurementViewRebuild
  rw [viewLoop_eq, viewFold_eq _ (samples_inUse table)]
  dsimp only
  rw [viewOf_some h]
  unfold accumulatorsOf
  rw [h]
  dsimp only
  have hc : (UInt32.ofNat (ofSeries (samples table) k).length).toNat = (ofSeries (samples table) k).length :=
    UInt32.toNat_ofNat_of_lt (hle.trans_lt (hn.trans (by decide)))
  have hne : UInt32.ofNat (ofSeries (samples table) k).length ≠ 0 := by
    intro h0
    rw [h0] at hc
    exact absurd hc.symm hpos.ne'
  rw [if_neg (by simp [hne]), hc]
  simp

theorem series_of_inUse {table : MeasurementTable V n} (hn : n < 65536)
    (h : (measurementViewRebuild table j).inUse = true) :
    (firstDistinct MEASUREMENT_STORE_VIEW_SIZE ((samples table).map MeasurementEntry.series))[j.val]? =
      some (measurementViewRebuild table j).series := by
  cases hk : (firstDistinct MEASUREMENT_STORE_VIEW_SIZE
    ((samples table).map MeasurementEntry.series))[j.val]? with
  | none => exact absurd h (by rw [viewRebuild_none hk]; exact Bool.false_ne_true)
  | some k =>
    rw [viewRebuild_some hn hk]
    rfl

theorem viewRebuild_inUse {table : MeasurementTable V n} (hn : n < 65536) (j : Fin MEASUREMENT_STORE_VIEW_SIZE) :
    (measurementViewRebuild table j).inUse = true ↔ j.val < min MEASUREMENT_STORE_VIEW_SIZE
    (tableSeries table).length := by
  unfold tableSeries
  rw [← List.length_take]
  constructor
  · intro h
    exact (List.getElem?_eq_some_iff.1 (series_of_inUse hn h)).1
  · intro h
    rw [viewRebuild_some hn (List.getElem?_eq_getElem h)]

/-- Two slots in use have different series. -/
theorem viewRebuild_inj {table : MeasurementTable V n} (hn : n < 65536) {i j : Fin MEASUREMENT_STORE_VIEW_SIZE}
    (hi : (measurementViewRebuild table i).inUse = true) (hj : (measurementViewRebuild table j).inUse = true)
    (h : (measurementViewRebuild table i).series = (measurementViewRebuild table j).series) : i = j := by
  obtain ⟨hil, hie⟩ := List.getElem?_eq_some_iff.1 (series_of_inUse hn hi)
  obtain ⟨hjl, hje⟩ := List.getElem?_eq_some_iff.1 (series_of_inUse hn hj)
  rw [← h] at hje
  exact Fin.ext ((nodup_firstDistinct _ _).getElem_inj_iff.1 (hie.trans hje.symm))

theorem viewRebuild_count {table : MeasurementTable V n} (hn : n < 65536)
    (h : (measurementViewRebuild table j).inUse = true) :
    (measurementViewRebuild table j).sampleCount.toNat =
        (ofSeries (samples table) (measurementViewRebuild table j).series).length ∧
      (measurementViewRebuild table j).averageValue =
        ((ofSeries (samples table) (measurementViewRebuild table j).series).map MeasurementEntry.value).sum /
          ((ofSeries (samples table) (measurementViewRebuild table j).series).length : V) := by
  have hle := length_ofSeries_le table (measurementViewRebuild table j).series
  have he := viewRebuild_some hn (series_of_inUse hn h)
  constructor
  · rw [congrArg MeasurementViewEntry.sampleCount he]
    exact UInt16.toNat_ofNat_of_lt (hle.trans_lt hn)
  · exact congrArg MeasurementViewEntry.averageValue he

/-- While there is a slot for each series, every measurement is counted. -/
theorem viewRebuild_total {table : MeasurementTable V n} (hn : n < 65536)
    (h : (tableSeries table).length ≤ MEASUREMENT_STORE_VIEW_SIZE) :
    ∑ j with (measurementViewRebuild table j).inUse = true, (measurementViewRebuild table j).sampleCount.toNat =
      measurementStoreTableUsed table := by
  have hkeys : firstDistinct MEASUREMENT_STORE_VIEW_SIZE ((samples table).map MeasurementEntry.series) =
      tableSeries table :=
    List.take_of_length_le h
  calc
    _ = ∑ k ∈ ((samples table).map MeasurementEntry.series).toFinset, (ofSeries (samples table) k).length := by
      refine Finset.sum_nbij (fun j => (measurementViewRebuild table j).series) ?_ ?_ ?_ ?_
      · intro j hj
        rw [List.mem_toFinset]
        exact mem_of_mem_firstDistinct (List.mem_of_getElem? (series_of_inUse hn (Finset.mem_filter.1 hj).2))
      · intro i hi j hj hij
        exact viewRebuild_inj hn (Finset.mem_filter.1 hi).2 (Finset.mem_filter.1 hj).2 hij
      · intro k hk
        have hmem : k ∈ tableSeries table := mem_distinct.2 (List.mem_toFinset.1 hk)
        obtain ⟨i, hi⟩ := List.mem_iff_getElem?.1 hmem
        have hlt : i < MEASUREMENT_STORE_VIEW_SIZE := (List.getElem?_eq_some_iff.1 hi).1.trans_le h
        have hs := viewRebuild_some (j := ⟨i, hlt⟩) hn (by rw [hkeys]; exact hi)
        refine ⟨⟨i, hlt⟩, ?_, ?_⟩
        · rw [Finset.mem_coe, Finset.mem_filter, hs]
          exact ⟨Finset.mem_univ _, rfl⟩
        · dsimp only
          rw [hs]
          rfl
      · intro j hj
        exact (viewRebuild_count hn (Finset.mem_filter.1 hj).2).1
    _ = (samples table).length := sum_length_filter MeasurementEntry.series _
    _ = measurementStoreTableUsed table := length_samples table

/-- **Aggregation is exact.** The view has one entry for each of the first series
of the table, and it counts and averages the measurements of that series. -/
theorem aggregation_exact (table : MeasurementTable V MEASUREMENT_STORE_TABLE_SIZE) :
    let view := measurementViewRebuild table
    (∀ j, (view j).inUse = true ↔ j.val < min MEASUREMENT_STORE_VIEW_SIZE (tableSeries table).length) ∧
      (∀ j, (view j).inUse = true → (tableSeries table)[j.val]? = some (view j).series ∧
        (view j).sampleCount.toNat = (ofSeries (samples table) (view j).series).length ∧
        (view j).averageValue = ((ofSeries (samples table) (view j).series).map MeasurementEntry.value).sum /
          ((ofSeries (samples table) (view j).series).length : V)) ∧
      (∀ i j, (view i).inUse = true → (view j).inUse = true → (view i).series = (view j).series → i = j) ∧
      (∀ i j, (view i).inUse = true → (view j).inUse = true → ∀ e ∈ ofSeries (samples table) (view i).series,
        e ∈ ofSeries (samples table) (view j).series → i = j) ∧
      ((tableSeries table).length ≤ MEASUREMENT_STORE_VIEW_SIZE →
        ∑ j with (view j).inUse = true, (view j).sampleCount.toNat = measurementStoreTableUsed table) := by
  have hn : MEASUREMENT_STORE_TABLE_SIZE < 65536 := by decide
  dsimp only
  refine ⟨fun j => viewRebuild_inUse hn j, fun j h => ⟨?_, viewRebuild_count hn h⟩,
    fun _ _ => viewRebuild_inj hn, fun i j hi hj e hei hej => ?_, viewRebuild_total hn⟩
  · have hs := series_of_inUse hn h
    unfold firstDistinct at hs
    rwa [List.getElem?_take_of_lt j.isLt] at hs
  · -- the series of `e` is that of both slots
    have hei' := of_decide_eq_true (List.mem_filter.1 hei).2
    have hej' := of_decide_eq_true (List.mem_filter.1 hej).2
    exact viewRebuild_inj hn hi hj (hei'.symm.trans hej')
end
end

end BLEBridge
