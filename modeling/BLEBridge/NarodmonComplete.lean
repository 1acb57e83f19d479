import Mathlib.Algebra.Order.BigOperators.Group.List
import BLEBridge.MeasurementRun
import BLEBridge.MeasurementView
import BLEBridge.NarodmonLoops
/-!
# The narodmon payload is complete

With values in the ranges of their fields every line is short, and the store holds
no more samples than its table has slots, so everything fits the buffer. Averages
are exact.
-/
open Lib

namespace BLEBridge

/-! ## The ranges of the values -/

/-- The least value of a field. -/
def fieldLow : MeasurementField → ℚ
  | .temperature => -32768 / 100
  | .oneWireTemperature => -2048
  | _ => 0

/-- The largest value of a field. -/
def fieldHigh : MeasurementField → ℚ
  | .battery => 255
  | .temperature => 32767 / 100
  | .humidity => 65535 / 100
  | .oneWireTemperature => 2047 + 15 / 16
  | .none => 0

/-- A value a decoder can produce for the field. -/
def Decodable (fieldType : MeasurementField) (value : ℚ) : Prop :=
  fieldLow fieldType ≤ value ∧ value ≤ fieldHigh fieldType

theorem average_decodable {f : MeasurementField} {values : List ℚ} (hne : values ≠ [])
    (h : ∀ v ∈ values, Decodable f v) : Decodable f (values.sum / (values.length : ℚ)) := by
  have hpos : (0 : ℚ) < values.length := by exact_mod_cast List.length_pos_of_ne_nil hne
  have hlo := List.card_nsmul_le_sum values (fieldLow f) fun v hv => (h v hv).1
  have hhi := List.sum_le_card_nsmul values (fieldHigh f) fun v hv => (h v hv).2
  rw [nsmul_eq_mul] at hlo hhi
  constructor
  · rw [le_div_iff₀ hpos, mul_comm]
    exact hlo
  · rw [div_le_iff₀ hpos, mul_comm]
    exact hhi

/-! ## The lengths of the lines -/

theorem length_display (deviceId : UInt32) : (padded 6 (measurementDeviceIdToDisplay deviceId)).length = 6 :=
  length_padded (by decide) (Nat.mod_lt _ (by decide))

theorem length_metricLine (p : Bytes) (e : MeasurementViewEntry ℚ) :
    (metricLine fixedText p e).length = 9 + p.length + (fixedText 2 e.averageValue).length := by
  unfold metricLine
  simp only [List.length_append, length_display, ascii_length]
  have h1 : "#".toList.length = 1 := rfl
  have h2 : "\n".toList.length = 1 := rfl
  omega

/-- How long a value of a field is at most when it is printed. -/
def valueLength : MeasurementField → Nat
  | .temperature => 7
  | .oneWireTemperature => 8
  | _ => 6

theorem length_value_le {f : MeasurementField} {v : ℚ} (hf : f ≠ .none) (h : Decodable f v) :
    (fixedText 2 v).length ≤ valueLength f := by
  obtain ⟨hlo, hhi⟩ := h
  cases f with
  | none => exact absurd rfl hf
  | battery =>
    dsimp only [fieldLow, fieldHigh] at hlo hhi
    exact (length_fixedText_le 255 3 (by decide) (by decide) (by push_cast; linarith)
      (by push_cast; linarith)).2 hlo
  | humidity =>
    dsimp only [fieldLow, fieldHigh] at hlo hhi
    exact (length_fixedText_le 656 3 (by decide) (by decide) (by push_cast; linarith)
      (by push_cast; linarith)).2 hlo
  | temperature =>
    dsimp only [fieldLow, fieldHigh] at hlo hhi
    exact (length_fixedText_le 328 3 (by decide) (by decide) (by push_cast; linarith) (by push_cast; linarith)).1
  | oneWireTemperature =>
    dsimp only [fieldLow, fieldHigh] at hlo hhi
    exact (length_fixedText_le 2048 4 (by decide) (by decide) (by push_cast; linarith) (by push_cast; linarith)).1

/-- No line of a metric is longer than 21 bytes. -/
theorem length_entryLine_le {e : MeasurementViewEntry ℚ} (h : Decodable e.fieldType e.averageValue) :
    (entryLine fixedText e).length ≤ 21 := by
  by_cases hf : e.fieldType = .none
  · unfold entryLine
    rw [hf]
    exact Nat.zero_le _
  · obtain ⟨p, hp, hline⟩ := entryLine_eq fixedText hf
    have hv := length_value_le hf h
    have hsum : p.length + valueLength e.fieldType ≤ 12 := by
      cases hfield : e.fieldType with
      | none => exact absurd hfield hf
      | battery | humidity | temperature | oneWireTemperature =>
        rw [hfield] at hp
        rw [← Option.some.inj hp, ascii_length]
        decide
    rw [hline, length_metricLine]
    omega

theorem length_uptimeLine_le (uptimeSeconds : UInt32) : (uptimeLine uptimeSeconds).length ≤ 19 := by
  have h := decimal_length_le (k := 10) (by decide) (uptimeSeconds.toNat_lt.trans (by decide))
  unfold uptimeLine
  rw [List.length_append, List.length_append, ascii_length, ascii_length]
  have h1 : "#UPTIME#".toList.length = 8 := rfl
  have h2 : "\n".toList.length = 1 := rfl
  omega

/-- A count of a thousand samples costs two digits more than one of ten. -/
theorem length_count_le {m : Nat} (h : m < 65536) : (decimal m).length ≤ 2 + m / 100 := by
  by_cases h1 : m < 10 ^ 2
  · have := decimal_length_le (by decide) h1
    omega
  by_cases h2 : m < 10 ^ 3
  · have := decimal_length_le (by decide) h2
    omega
  · have := decimal_length_le (k := 5) (by decide) (h.trans (by decide))
    omega

theorem length_signalLine_le (e : NarodmonSignalEntry) :
    (signalLine e.deviceId e.maxSamples).length ≤ 17 + e.maxSamples.toNat / 100 := by
  have h := length_count_le e.maxSamples.toNat_lt
  unfold signalLine
  simp only [List.length_append, length_display, ascii_length]
  have h1 : "#SIGNAL".toList.length = 7 := rfl
  have h2 : "#".toList.length = 1 := rfl
  have h3 : "\n".toList.length = 1 := rfl
  omega

/-- The lines of all devices: 17 bytes each, and one for each hundred samples. -/
theorem length_signalLines_le (entries : List NarodmonSignalEntry) :
    (entries.flatMap fun e => signalLine e.deviceId e.maxSamples).length ≤
      17 * entries.length + (entries.map fun e => e.maxSamples.toNat).sum / 100 := by
  induction entries with
  | nil => exact Nat.zero_le _
  | cons e entries ih =>
    have h := length_signalLine_le e
    rw [List.flatMap_cons, List.length_append, List.map_cons, List.sum_cons, List.length_cons]
    omega

/-! ## The samples of the devices -/

variable {V : Type}

theorem maxSamples_le_sum (es : List (MeasurementViewEntry V)) (d : UInt32) :
    maxSamples es d ≤ ((es.filter fun e => e.deviceId = d).map fun e => e.sampleCount.toNat).sum := by
  unfold maxSamples
  generalize (es.filter fun e => e.deviceId = d).map (fun e => e.sampleCount.toNat) = counts
  have h (counts : List Nat) (m : Nat) : counts.foldl max m ≤ m + counts.sum := by
    induction counts generalizing m with
    | nil => exact Nat.le_add_right _ _
    | cons c counts ih =>
      have := ih (max m c)
      rw [List.foldl_cons, List.sum_cons]
      omega
  simpa using h counts 0

/-- Each device's count is of other samples than that of the others. -/
theorem sum_maxSamples_le (es : List (MeasurementViewEntry V)) :
    ((narodmonDevices es).map (maxSamples es)).sum ≤ (es.map fun e => e.sampleCount.toNat).sum := by
  have hn : (narodmonDevices es).Nodup := nodup_firstDistinct _ _
  calc
    _ ≤ ((narodmonDevices es).map fun d =>
      ((es.filter fun e => e.deviceId = d).map fun e => e.sampleCount.toNat).sum).sum :=
      List.sum_le_sum fun d _ => maxSamples_le_sum es d
    _ ≤ _ := sum_fibers_le MeasurementViewEntry.deviceId _ es hn

/-! ## The view of a table -/

/-- The entry of a series of the table. -/
def viewEntry (table : MeasurementTable ℚ MEASUREMENT_STORE_TABLE_SIZE) (k : UInt32 × MeasurementField) :
    MeasurementViewEntry ℚ :=
  ⟨true, k.1, k.2, ((ofSeries (samples table) k).map MeasurementEntry.value).sum /
    ((ofSeries (samples table) k).length : ℚ),
    UInt16.ofNat (ofSeries (samples table) k).length⟩

def viewSeries (table : MeasurementTable ℚ MEASUREMENT_STORE_TABLE_SIZE) : List (UInt32 × MeasurementField) :=
  firstDistinct MEASUREMENT_STORE_VIEW_SIZE ((samples table).map MeasurementEntry.series)

theorem usedView_rebuild (table : MeasurementTable ℚ MEASUREMENT_STORE_TABLE_SIZE) :
    usedView (measurementViewRebuild table) = (viewSeries table).map (viewEntry table) := by
  have hview : measurementViewRebuild table = fun j =>
      ((viewSeries table).map (viewEntry table))[j.val]?.getD .zero := by
    funext j
    rw [List.getElem?_map]
    cases h : (viewSeries table)[j.val]? with
    | none => exact viewRebuild_none h
    | some k => exact viewRebuild_some (by decide) h
  have hle : ((viewSeries table).map (viewEntry table)).length ≤ MEASUREMENT_STORE_VIEW_SIZE := by
    rw [List.length_map]
    exact length_firstDistinct_le _ _
  have hmap := map_finRange_getD (MeasurementViewEntry.zero : MeasurementViewEntry ℚ) hle
  unfold usedView
  rw [hview, hmap, List.filter_append, List.filter_eq_self.2, List.filter_eq_nil_iff.2, List.append_nil]
  · intro e he
    rw [List.eq_of_mem_replicate he]
    exact Bool.false_ne_true
  · intro e he
    obtain ⟨k, -, rfl⟩ := List.mem_map.1 he
    rfl

/-- Every measurement of the table has a value of its field. -/
def DecodableTable (table : MeasurementTable ℚ MEASUREMENT_STORE_TABLE_SIZE) : Prop :=
  ∀ i, (table i).InUse → Decodable (table i).fieldType (table i).value

variable {table : MeasurementTable ℚ MEASUREMENT_STORE_TABLE_SIZE}

theorem mem_samples {e : MeasurementEntry ℚ} (he : e ∈ samples table) : e.InUse ∧ ∃ i, table i = e := by
  obtain ⟨hm, hu⟩ := List.mem_filter.1 he
  obtain ⟨i, -, hi⟩ := List.mem_map.1 hm
  exact ⟨of_decide_eq_true hu, i, hi⟩

theorem toNat_count (k : UInt32 × MeasurementField) :
    (UInt16.ofNat (ofSeries (samples table) k).length).toNat = (ofSeries (samples table) k).length :=
  UInt16.toNat_ofNat_of_lt' ((length_ofSeries_le table k).trans_lt (by decide))

theorem viewEntry_counted {k : UInt32 × MeasurementField} (hk : k ∈ viewSeries table) :
    Counted (viewEntry table k) := by
  have hmem := mem_of_mem_firstDistinct hk
  refine ⟨rfl, ?_, fun h0 => ?_⟩
  · obtain ⟨e, he, rfl⟩ := List.mem_map.1 hmem
    exact (mem_samples he).1
  · have hpos := ofSeries_pos hmem
    have hcount := congrArg UInt16.toNat h0
    dsimp only [viewEntry] at hcount
    rw [toNat_count] at hcount
    exact absurd hcount hpos.ne'

theorem viewEntry_decodable (h : DecodableTable table) {k : UInt32 × MeasurementField}
    (hk : k ∈ viewSeries table) :
    Decodable (viewEntry table k).fieldType (viewEntry table k).averageValue := by
  have hpos := ofSeries_pos (mem_of_mem_firstDistinct hk)
  have hne : (ofSeries (samples table) k).map MeasurementEntry.value ≠ [] := by
    rw [ne_eq, List.map_eq_nil_iff]
    exact List.ne_nil_of_length_pos hpos
  have havg := average_decodable (f := k.2) hne fun v hv => by
    obtain ⟨e, he, rfl⟩ := List.mem_map.1 hv
    obtain ⟨hmem, hs⟩ := List.mem_filter.1 he
    obtain ⟨hu, i, rfl⟩ := mem_samples hmem
    have hfield : (table i).fieldType = k.2 := congrArg Prod.snd (of_decide_eq_true hs)
    exact hfield ▸ h i hu
  rwa [List.length_map] at havg

/-- The view counts no more samples than the table has slots. -/
theorem sum_counts_le (table : MeasurementTable ℚ MEASUREMENT_STORE_TABLE_SIZE) :
    ((usedView (measurementViewRebuild table)).map fun e => e.sampleCount.toNat).sum ≤
      MEASUREMENT_STORE_TABLE_SIZE := by
  have hn : (viewSeries table).Nodup := nodup_firstDistinct _ _
  have hcounts : (usedView (measurementViewRebuild table)).map (fun e => e.sampleCount.toNat) =
      (viewSeries table).map fun k => (((samples table).filter fun e => e.series = k).map fun _ => 1).sum := by
    rw [usedView_rebuild, List.map_map]
    refine List.map_congr_left fun k _ => ?_
    rw [List.map_const', List.sum_replicate, smul_eq_mul, Nat.mul_one]
    exact toNat_count k
  have hsamples : (samples table).length ≤ MEASUREMENT_STORE_TABLE_SIZE := by
    refine (List.length_filter_le _ _).trans ?_
    rw [List.length_map, List.length_finRange]
  rw [hcounts]
  refine (sum_fibers_le MeasurementEntry.series (fun _ => 1) (samples table) hn).trans ?_
  rw [List.map_const', List.sum_replicate, smul_eq_mul, Nat.mul_one]
  exact hsamples

/-! ## The text -/

/-- The header, the uptime, the metrics, the signals and the trailer. -/
def narodmonText (mac : Vector UInt8 6) (uptimeSeconds : UInt32) (es : List (MeasurementViewEntry ℚ)) : Bytes :=
  headerLine (ascii "BLEB" ++ hexText mac.toList) ++
    (uptimeLine uptimeSeconds ++ (exported es).flatMap (entryLine fixedText) ++
      (narodmonDevices es).flatMap fun d => signalLine d (UInt16.ofNat (maxSamples es d))) ++ ascii "##"

/-- What every view in use meets. -/
structure Bounded (es : List (MeasurementViewEntry ℚ)) : Prop where
  counted : ∀ e ∈ es, Counted e
  lines : ∀ e ∈ es, (entryLine fixedText e).length ≤ 21
  length : es.length ≤ MEASUREMENT_STORE_VIEW_SIZE
  samples : (es.map fun e => e.sampleCount.toNat).sum ≤ MEASUREMENT_STORE_TABLE_SIZE

theorem signals_flatMap (es : List (MeasurementViewEntry ℚ)) :
    ((narodmonDevices es).map (signalOf es)).flatMap (fun e => signalLine e.deviceId e.maxSamples) =
      (narodmonDevices es).flatMap fun d => signalLine d (UInt16.ofNat (maxSamples es d)) := by
  rw [List.flatMap_map]
  rfl

theorem length_metrics_le {es : List (MeasurementViewEntry ℚ)} (h : Bounded es) (uptimeSeconds : UInt32) :
    (uptimeLine uptimeSeconds ++ (exported es).flatMap (entryLine fixedText)).length ≤ 3169 := by
  have hlines := length_flatMap_le (f := entryLine fixedText) (l := exported es) fun e he =>
    h.lines e (List.mem_of_mem_filter he)
  have hle := Nat.mul_le_mul_right 21 ((exported_length_le es).trans h.length)
  have hsize : MEASUREMENT_STORE_VIEW_SIZE * 21 = 3150 := by decide
  have hup := length_uptimeLine_le uptimeSeconds
  rw [List.length_append]
  omega

theorem length_signals_le {es : List (MeasurementViewEntry ℚ)} (h : Bounded es) :
    ((narodmonDevices es).flatMap fun d => signalLine d (UInt16.ofNat (maxSamples es d))).length ≤ 887 := by
  have hl := length_signalLines_le ((narodmonDevices es).map (signalOf es))
  have hd : (narodmonDevices es).length ≤ 51 := length_firstDistinct_le NARODMON_MAX_DEVICES _
  have hsum : ((narodmonDevices es).map (signalOf es)).map (fun e => e.maxSamples.toNat) =
      (narodmonDevices es).map (maxSamples es) := by
    rw [List.map_map]
    exact List.map_congr_left fun d _ => UInt16.toNat_ofNat_of_lt' (maxSamples_lt es d)
  have hsamples : ((narodmonDevices es).map (maxSamples es)).sum ≤ 2048 := (sum_maxSamples_le es).trans h.samples
  rw [signals_flatMap, hsum, List.length_map] at hl
  omega

/-- The lines of the measurement store fit what the header leaves. -/
theorem buildMetrics_eq {view : MeasurementView ℚ}
    (h : Bounded (usedView view)) {insertLen : Nat} (hroom : 4056 < insertLen) (uptimeSeconds : UInt32) :
    measurementStoreBuildNarodmonPayload fixedText view insertLen uptimeSeconds =
      if usedView view = [] then []
      else uptimeLine uptimeSeconds ++ (exported (usedView view)).flatMap (entryLine fixedText) ++
        (narodmonDevices (usedView view)).flatMap fun d => signalLine d
        (UInt16.ofNat (maxSamples (usedView view) d)) := by
  have hup := length_uptimeLine_le uptimeSeconds
  have hmetrics := length_metrics_le h uptimeSeconds
  have hsignals := length_signals_le h
  have hinit : (⟨uptimeLine uptimeSeconds, fun _ => ⟨false, 0, 0⟩, 0, false⟩ : NarodmonMetrics) =
      metricsAfter fixedText (uptimeLine uptimeSeconds) [] := by
    unfold metricsAfter
    rw [show exported ([] : List (MeasurementViewEntry ℚ)) = [] from rfl, List.flatMap_nil, List.append_nil]
    rfl
  have hview : ∀ e ∈ (List.finRange MEASUREMENT_STORE_VIEW_SIZE).map view, e.inUse = true →
      Counted e ∧ (entryLine fixedText e).length ≤ 21 := fun e he hu =>
    have hmem : e ∈ usedView view := List.mem_filter.2 ⟨he, hu⟩
    ⟨h.counted e hmem, h.lines e hmem⟩
  have hloop : narodmonMetricLoop fixedText insertLen ((List.finRange MEASUREMENT_STORE_VIEW_SIZE).map view)
      (metricsAfter fixedText (uptimeLine uptimeSeconds) []) =
        metricsAfter fixedText (uptimeLine uptimeSeconds) ([] ++ usedView view) := metricLoop_eq _ [] hview
    (fun e he => absurd he List.not_mem_nil) (by
      rw [List.length_nil, List.length_map, List.length_finRange]
      have hsize : (0 + MEASUREMENT_STORE_VIEW_SIZE) * 21 = 3150 := by decide
      omega)
  unfold measurementStoreBuildNarodmonPayload
  rw [appendLine_fits (by rw [List.length_nil]; omega)]
  dsimp only
  rw [List.nil_append, hinit, hloop, List.nil_append]
  change (if !(metricsAfter fixedText (uptimeLine uptimeSeconds) (usedView view)).hasSensorMetrics then [] else
    narodmonSignalLoop insertLen ((List.finRange MEASUREMENT_STORE_VIEW_SIZE).map
      (signalsOf (narodmonDevices (usedView view)) (usedView view)))
      (uptimeLine uptimeSeconds ++ (exported (usedView view)).flatMap (entryLine fixedText))) = _
  by_cases hempty : usedView view = []
  · rw [if_pos hempty, hempty]
    rfl
  · have hmetric : (metricsAfter fixedText (uptimeLine uptimeSeconds) (usedView view)).hasSensorMetrics = true :=
      congrArg (!·) (List.isEmpty_eq_false_iff.2 hempty)
    have hdevices : (narodmonDevices (usedView view)).length ≤ MEASUREMENT_STORE_VIEW_SIZE :=
      (length_firstDistinct_le _ _).trans (by decide)
    rw [hmetric, Bool.not_true, if_neg Bool.false_ne_true, if_neg hempty, signalLoop_eq,
      used_signalsOf hdevices, signals_flatMap]
    rw [used_signalsOf hdevices, signals_flatMap]
    omega

/-! ## Reachable stores -/

/-- Measurements are added with values of their fields. -/
def StoreOp.Decodable : StoreOp ℚ → Prop
  | .add _ fieldType value _ => fieldType ≠ .none → BLEBridge.Decodable fieldType value
  | _ => True

/-- The table has values of its fields, and so had the table the view was made of. -/
structure DecodedStore (s : MeasurementStore ℚ) : Prop where
  table : DecodableTable s.table
  view : ∃ table, DecodableTable table ∧ s.view = measurementViewRebuild table

theorem DecodableTable.of_shrinks {table table' : MeasurementTable ℚ MEASUREMENT_STORE_TABLE_SIZE}
    (h : DecodableTable table) (hs : Shrinks table table') : DecodableTable table' := fun i hu => by
  rw [hs i hu]
  exact h i (hs.inUse hu)

theorem decodedStore_init (nowMs : UInt32) : DecodedStore (measurementStoreInit nowMs) := by
  have hempty : samples (measurementStoreInit (V := ℚ) nowMs).table = [] := by
    rw [samples, List.filter_eq_nil_iff]
    intro e he
    obtain ⟨i, -, rfl⟩ := List.mem_map.1 he
    exact fun h => of_decide_eq_true h rfl
  have htable : DecodableTable (measurementStoreInit (V := ℚ) nowMs).table := fun i hu => absurd rfl hu
  refine ⟨htable, _, htable, ?_⟩
  funext j
  refine (viewRebuild_none ?_).symm
  rw [hempty]
  rfl

theorem revision_view (nowMs : UInt32) (s : MeasurementStore ℚ) :
    (measurementRevision nowMs s).view = measurementViewRebuild (measurementRevision nowMs s).table := by
  unfold measurementRevision
  dsimp only

/-- The view is written by a revision only. -/
theorem exec_view (s : MeasurementStore ℚ) (op : StoreOp ℚ) :
    (∃ time, Revises s op time) ∨ (op.exec s).view = s.view := by
  cases table_cases s op with
  | revised time h => exact .inl ⟨time, h⟩
  | added deviceId fieldType value time k hop hf hslot hs hok hexec =>
    rw [hexec]
    exact .inr rfl
  | same ht hslot =>
    cases op with
    | configure => exact .inr rfl
    | snapshot capacity time => exact .inl ⟨time, .snapshot capacity time⟩
    | periodic time =>
      cases hd : revisionDue (nowAt time) s with
      | true => exact .inl ⟨time, .periodic time hd⟩
      | false =>
        refine .inr ?_
        dsimp only [StoreOp.exec]
        unfold measurementStorePeriodic
        rw [hd, if_neg Bool.false_ne_true]
    | add deviceId fieldType value time =>
      refine .inr ?_
      by_cases hf : fieldType = .none
      · dsimp only [StoreOp.exec]
        unfold measurementStoreAdd
        rw [if_pos hf]
      · obtain ⟨k, -, hadd⟩ := add_eq s deviceId value (nowAt time) hf
        exact congrArg (fun r => r.2.view) hadd

theorem DecodableTable.step {s : MeasurementStore ℚ} (h : DecodableTable s.table) {op : StoreOp ℚ}
    (hop : op.Decodable) : DecodableTable (op.exec s).table := by
  cases table_cases s op with
  | same ht hslot =>
    rw [ht]
    exact h
  | revised time hr =>
    rw [hr.exec_eq.1, revision_table]
    exact h.of_shrinks (prune_shrinks _ _ _)
  | added deviceId fieldType value time k hadd hf hslot hs hok hexec =>
    subst hadd
    rw [hexec]
    intro i hu
    dsimp only at hu ⊢
    unfold tableAfterAdd at hu ⊢
    by_cases hi : i = k
    · rw [hi, Function.update_self]
      exact hop hf
    · rw [update_inUse hi] at hu ⊢
      exact h.of_shrinks (limited_shrinks rfl) i hu

/-- One call of the store. -/
theorem DecodedStore.step {s : MeasurementStore ℚ} (h : DecodedStore s) {op : StoreOp ℚ} (hop : op.Decodable) :
    DecodedStore (op.exec s) := by
  have htable := h.table.step hop
  refine ⟨htable, ?_⟩
  rcases exec_view s op with ⟨time, hr⟩ | hv
  · refine ⟨_, htable, ?_⟩
    rw [hr.exec_eq.1, revision_view]
  · rw [hv]
    exact h.view

/-- The view of a store all of whose values were decoded. -/
theorem DecodedStore.bounded {s : MeasurementStore ℚ} (h : DecodedStore s) : Bounded (usedView s.view) := by
  obtain ⟨table, htable, hview⟩ := h.view
  rw [hview]
  have hmem : ∀ e ∈ usedView (measurementViewRebuild table), ∃ k ∈ viewSeries table, viewEntry table k = e :=
    fun e he => by
    rw [usedView_rebuild] at he
    exact List.mem_map.1 he
  refine ⟨fun e he => ?_, fun e he => ?_, ?_, sum_counts_le table⟩
  · obtain ⟨k, hk, rfl⟩ := hmem e he
    exact viewEntry_counted hk
  · obtain ⟨k, hk, rfl⟩ := hmem e he
    exact length_entryLine_le (viewEntry_decodable htable hk)
  · rw [usedView_rebuild, List.length_map]
    exact length_firstDistinct_le _ _

/-! ## The payload -/

theorem length_narodmonId (mac : Vector UInt8 6) : (ascii "BLEB" ++ hexText mac.toList).length = 16 := by
  rw [List.length_append, length_hexText, ascii_length, Vector.length_toList]
  rfl

theorem length_headerLine (mac : Vector UInt8 6) :
    (headerLine (ascii "BLEB" ++ hexText mac.toList)).length = 18 := by
  unfold headerLine
  rw [List.length_append, List.length_append, length_narodmonId]
  rfl

theorem writeHeader_eq (mac : Vector UInt8 6) {payloadSize : Nat} (h : 18 < payloadSize) :
    appNarodmonWriteHeader (some mac) payloadSize = some (headerLine (ascii "BLEB" ++ hexText mac.toList)) := by
  have hid : appNarodmonGetDeviceId (some mac) APP_NARODMON_DEVICE_ID_LEN =
      some (ascii "BLEB" ++ hexText mac.toList) := by
    unfold appNarodmonGetDeviceId
    dsimp only
    rw [length_narodmonId]
    rfl
  unfold appNarodmonWriteHeader
  rw [hid]
  exact appendLine_fits (by rw [List.length_nil, length_headerLine, Nat.zero_add]; exact h)

theorem length_narodmonText {es : List (MeasurementViewEntry ℚ)} (h : Bounded es) (mac : Vector UInt8 6)
    (uptimeSeconds : UInt32) :
    (narodmonText mac uptimeSeconds es).length < APP_NARODMON_PAYLOAD_MAX_LEN := by
  have hmetrics := length_metrics_le h uptimeSeconds
  have hsignals := length_signals_le h
  have hsize : APP_NARODMON_PAYLOAD_MAX_LEN = 4096 := rfl
  have htrailer : (ascii "##").length = 2 := rfl
  unfold narodmonText
  simp only [List.length_append, length_headerLine, htrailer] at hmetrics ⊢
  omega

theorem not_zero_flatMap {E : Type} {f : E → Bytes} {l : List E} (h : ∀ e ∈ l, 0 ∉ f e) : 0 ∉ l.flatMap f :=
  fun hm => by
  obtain ⟨e, he, h0⟩ := List.mem_flatMap.1 hm
  exact h e he h0

theorem not_zero_entryLine (e : MeasurementViewEntry ℚ) : 0 ∉ entryLine fixedText e := by
  unfold entryLine
  cases e.fieldType with
  | none => exact List.not_mem_nil
  | battery | temperature | humidity | oneWireTemperature =>
    dsimp only [metricPrefix]
    unfold metricLine
    simp only [List.mem_append, not_or]
    refine ⟨⟨⟨⟨⟨?_, ?_⟩, not_zero_padded _ _⟩, ?_⟩, not_zero_fixedText _ _⟩, ?_⟩ <;> decide

theorem not_zero_narodmonText (mac : Vector UInt8 6) (uptimeSeconds : UInt32)
    (es : List (MeasurementViewEntry ℚ)) : 0 ∉ narodmonText mac uptimeSeconds es := by
  have hheader : 0 ∉ headerLine (ascii "BLEB" ++ hexText mac.toList) := by
    unfold headerLine
    simp only [List.mem_append, not_or]
    refine ⟨⟨?_, ?_, not_zero_hexText _⟩, ?_⟩ <;> decide
  have huptime : 0 ∉ uptimeLine uptimeSeconds := by
    unfold uptimeLine
    simp only [List.mem_append, not_or]
    refine ⟨⟨?_, not_zero_decimal _⟩, ?_⟩ <;> decide
  have hsignal (d : UInt32) (n : UInt16) : 0 ∉ signalLine d n := by
    unfold signalLine
    simp only [List.mem_append, not_or]
    refine ⟨⟨⟨⟨?_, not_zero_padded _ _⟩, ?_⟩, not_zero_decimal _⟩, ?_⟩ <;> decide
  unfold narodmonText
  simp only [List.mem_append, not_or]
  exact ⟨⟨hheader, ⟨huptime, not_zero_flatMap fun e _ => not_zero_entryLine e⟩,
    not_zero_flatMap fun d _ => hsignal d _⟩, by decide⟩

theorem uptimeLine_ne_nil (uptimeSeconds : UInt32) : uptimeLine uptimeSeconds ≠ [] := by
  unfold uptimeLine
  exact List.append_ne_nil_of_right_ne_nil _ (by decide)

theorem buildPayload_eq {view : MeasurementView ℚ} (h : Bounded (usedView view)) (mac : Vector UInt8 6)
    (nowMs : UInt32) :
    appNarodmonBuildPayload fixedText (some mac) APP_NARODMON_PAYLOAD_MAX_LEN nowMs view =
      some (if usedView view = [] then [] else narodmonText mac ((nowMs + 500) / 1000) (usedView view)) := by
  have hfits := length_narodmonText h mac ((nowMs + 500) / 1000)
  unfold appNarodmonBuildPayload
  rw [if_neg (by decide), writeHeader_eq mac (by decide)]
  dsimp only
  rw [length_headerLine, buildMetrics_eq h (by decide)]
  by_cases hempty : usedView view = []
  · rw [if_pos hempty, if_pos rfl, if_pos hempty]
  · have htext : uptimeLine ((nowMs + 500) / 1000) ++ (exported (usedView view)).flatMap (entryLine fixedText) ++
        ((narodmonDevices (usedView view)).flatMap fun d =>
          signalLine d (UInt16.ofNat (maxSamples (usedView view) d))) ≠ [] := by
      rw [List.append_assoc]
      exact List.append_ne_nil_of_left_ne_nil (uptimeLine_ne_nil _) _
    rw [if_neg hempty, if_neg hempty, if_neg htext, if_neg]
    · rfl
    · unfold narodmonText at hfits
      rw [List.length_append] at hfits
      have htrailer : (ascii "##").length = 2 := rfl
      omega

/-- Whatever calls have been made on the store, the payload is whole: nothing when
no series has a sample, else the text with all its lines, which fits the buffer
with its terminator. -/
theorem narodmon_payload_complete (time : Nat) (ops : List (StoreOp ℚ)) (hops : ∀ op ∈ ops, op.Decodable)
    (mac : Vector UInt8 6) (nowMs : UInt32) :
    let view := (run StoreOp.exec (measurementStoreInit (nowAt time)) ops).view
    appNarodmonBuildPayload fixedText (some mac) APP_NARODMON_PAYLOAD_MAX_LEN nowMs view =
        some (if usedView view = [] then [] else narodmonText mac ((nowMs + 500) / 1000) (usedView view)) ∧
      (narodmonText mac ((nowMs + 500) / 1000) (usedView view)).length < APP_NARODMON_PAYLOAD_MAX_LEN ∧
      0 ∉ narodmonText mac ((nowMs + 500) / 1000) (usedView view) ∧
      ∀ e ∈ usedView view, ∃ p, metricPrefix e.fieldType = some p ∧
        entryLine fixedText e = metricLine fixedText p e := by
  have hdecoded : DecodedStore (run StoreOp.exec (measurementStoreInit (nowAt time)) ops) :=
    EveryStep.inv (EveryStep.of_forall fun op hop _ => hops op hop) (decodedStore_init _) fun s op h hop =>
      h.step hop
  have h := hdecoded.bounded
  dsimp only
  exact ⟨buildPayload_eq h mac nowMs, length_narodmonText h mac _, not_zero_narodmonText mac _ _, fun e he =>
    entryLine_eq fixedText (h.counted e he).field⟩

/-- The payload after a temperature has been added and the store revised. -/
theorem narodmon_payload_complete_reading :
    let mac : Vector UInt8 6 := #v[0x28, 0xCD, 0xC1, 0x00, 0x01, 0x02]
    let ops : List (StoreOp ℚ) := [.add 7 .temperature (2150 / 100) 10, .periodic 2000]
    let view := (run StoreOp.exec (measurementStoreInit (nowAt 0)) ops).view
    appNarodmonBuildPayload fixedText (some mac) APP_NARODMON_PAYLOAD_MAX_LEN 5000 view =
        some (if usedView view = [] then [] else narodmonText mac ((5000 + 500) / 1000) (usedView view)) ∧
      (narodmonText mac ((5000 + 500) / 1000) (usedView view)).length < APP_NARODMON_PAYLOAD_MAX_LEN ∧
      0 ∉ narodmonText mac ((5000 + 500) / 1000) (usedView view) ∧
      ∀ e ∈ usedView view, ∃ p, metricPrefix e.fieldType = some p ∧
        entryLine fixedText e = metricLine fixedText p e :=
  narodmon_payload_complete 0 [.add 7 .temperature (2150 / 100) 10, .periodic 2000] (by
    intro op hop
    rcases List.mem_cons.1 hop with rfl | hop
    · exact fun _ => ⟨by norm_num [fieldLow], by norm_num [fieldHigh]⟩
    · rw [List.mem_singleton.1 hop]
      trivial) _ _

end BLEBridge
