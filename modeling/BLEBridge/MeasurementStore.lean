import Mathlib.Algebra.Notation.Defs
import Mathlib.Data.Nat.Cast.Defs
import Mathlib.Data.Fintype.Basic
import BLEBridge.Config
import BLEBridge.Lib.Retain
/-!
# The measurement store

`measurement_store.c`: a table of single measurements, pruned by age and by
number, and the view of averages over each series that is rebuilt from it. A
series is a device id with a field type. The value type `V` is `float` in the
source.
-/
open Lib

namespace BLEBridge

def MEASUREMENT_STORE_TABLE_SIZE : Nat := 2048
def MEASUREMENT_STORE_VIEW_SIZE : Nat := 150
def MEASUREMENT_STORE_RETENTION_DEFAULT_MS : UInt32 := APP_CONFIG_MEASUREMENT_RETENTION_DEFAULT_SECONDS * 1000
def MEASUREMENT_STORE_REVISION_INTERVAL_MS : UInt32 := 1000

/-- `measurement_field_t`. -/
inductive MeasurementField where
  | none | battery | temperature | humidity | oneWireTemperature
  deriving DecidableEq, Repr

def measurementFieldName : MeasurementField → Bytes
  | .battery => ascii "battery"
  | .temperature => ascii "temperature"
  | .oneWireTemperature => ascii "1wire_temperature"
  | .humidity => ascii "humidity"
  | .none => ascii "unknown"

/-- `measurement_entry_t`; a free slot has field type `none`. -/
structure MeasurementEntry (V : Type) where
  deviceId : UInt32
  fieldType : MeasurementField
  value : V
  timestampMs : UInt32

/-- `measurement_view_entry_t` -/
structure MeasurementViewEntry (V : Type) where
  inUse : Bool
  deviceId : UInt32
  fieldType : MeasurementField
  averageValue : V
  sampleCount : UInt16

/-- `measurement_accumulator_t` -/
structure MeasurementAccumulator (V : Type) where
  sumValue : V
  sampleCount : UInt32

/-- `measurement_sample_t` -/
structure MeasurementSample (V : Type) where
  deviceId : UInt32
  fieldType : MeasurementField
  value : V

/-- The table functions are stated for any number `n` of slots. -/
abbrev MeasurementTable (V : Type) (n : Nat) := Fin n → MeasurementEntry V
abbrev MeasurementView (V : Type) := Fin MEASUREMENT_STORE_VIEW_SIZE → MeasurementViewEntry V

/-- The static variables of the module. -/
structure MeasurementStore (V : Type) where
  table : MeasurementTable V MEASUREMENT_STORE_TABLE_SIZE
  view : MeasurementView V
  retentionMs : UInt32
  maxCount : UInt16
  lastRevisionMs : UInt32

variable {V : Type} {n : Nat}

def MeasurementEntry.InUse (e : MeasurementEntry V) : Prop := e.fieldType ≠ .none

instance (e : MeasurementEntry V) : Decidable e.InUse := inferInstanceAs (Decidable (_ ≠ _))

/-- The assignment that frees a slot: only the field type changes. -/
def MeasurementEntry.free (e : MeasurementEntry V) : MeasurementEntry V := { e with fieldType := .none }

def MeasurementEntry.InSeries (e : MeasurementEntry V) (deviceId : UInt32)
    (fieldType : MeasurementField) : Prop :=
  e.fieldType = fieldType ∧ e.deviceId = deviceId

instance (e : MeasurementEntry V) (deviceId : UInt32) (fieldType : MeasurementField) :
    Decidable (e.InSeries deviceId fieldType) := inferInstanceAs (Decidable (_ ∧ _))

def MeasurementEntry.series (e : MeasurementEntry V) : UInt32 × MeasurementField := (e.deviceId, e.fieldType)

/-- The age as the module computes it: 0 for a measurement from the future. -/
def ageMs (nowMs timestampMs : UInt32) : UInt32 := if nowMs ≥ timestampMs then nowMs - timestampMs else 0

def freeSlot (table : MeasurementTable V n) (i : Fin n) : MeasurementTable V n :=
  Function.update table i (table i).free

/-! ## The table -/

/-- The table after the loop and the number of free slots in it. -/
def measurementTablePrune (table : MeasurementTable V n) (nowMs retentionMs : UInt32) :
    MeasurementTable V n × Nat :=
  let pruned : MeasurementTable V n := fun i =>
    let entry := table i
    if entry.fieldType = .none then entry
    else if ageMs nowMs entry.timestampMs > retentionMs then entry.free
    else entry
  (pruned, (List.finRange n).countP fun i => (pruned i).fieldType = .none)

/-- The entries the loop of `measurement_find_oldest` passes over. -/
def skipped (deviceId : UInt32) (fieldType : MeasurementField) (filterSeries : Bool)
    (entry : MeasurementEntry V) : Bool :=
  entry.fieldType = .none || (filterSeries && (entry.deviceId ≠ deviceId || entry.fieldType ≠ fieldType))

/-- The loop variable is `oldest_index` with `oldest_age_ms`. -/
def measurementFindOldest (table : MeasurementTable V n) (nowMs deviceId : UInt32) (fieldType : MeasurementField)
    (filterSeries : Bool) : Option (Fin n) :=
  ((List.finRange n).foldl (fun oldest i =>
    if skipped deviceId fieldType filterSeries (table i) then oldest
    else scanStep (fun i => (ageMs nowMs (table i).timestampMs).toNat) oldest i) none).map Prod.fst

def measurementFindFreeSlot (table : MeasurementTable V n) : Option (Fin n) :=
  (List.finRange n).find? fun i => (table i).fieldType = .none

/-- The count of `measurement_enforce_series_limit`, at most 2048 in 16 bits. -/
def seriesCount (table : MeasurementTable V n) (deviceId : UInt32) (fieldType : MeasurementField) : Nat :=
  (List.finRange n).countP fun i => (table i).InSeries deviceId fieldType

/-! ## What the scans find -/

theorem findOldest_eq_argmax (table : MeasurementTable V n)
    (nowMs deviceId : UInt32) (fieldType : MeasurementField) (filterSeries : Bool) :
    measurementFindOldest table nowMs deviceId fieldType filterSeries =
      ((List.finRange n).filter fun i =>
        !skipped deviceId fieldType filterSeries (table i)).argmax fun i =>
          (ageMs nowMs (table i).timestampMs).toNat := by
  unfold measurementFindOldest
  rw [foldl_skip (fun i => skipped deviceId fieldType filterSeries (table i)), scan_eq_argmax]

theorem skipped_series (deviceId : UInt32) (fieldType : MeasurementField) (entry : MeasurementEntry V) :
    skipped deviceId fieldType true entry = false ↔ entry.InUse ∧ entry.InSeries deviceId fieldType := by
  unfold skipped MeasurementEntry.InUse MeasurementEntry.InSeries
  simp only [Bool.true_and, Bool.or_eq_false_iff, decide_eq_false_iff_not, not_not]
  exact ⟨fun ⟨hu, hd, hf⟩ => ⟨hu, hf, hd⟩, fun ⟨hu, hf, hd⟩ => ⟨hu, hd, hf⟩⟩

theorem skipped_all (deviceId : UInt32) (fieldType : MeasurementField) (entry : MeasurementEntry V) :
    skipped deviceId fieldType false entry = false ↔ entry.InUse := by
  unfold skipped MeasurementEntry.InUse
  simp only [Bool.false_and, Bool.or_false, decide_eq_false_iff_not]

theorem findOldest_some {table : MeasurementTable V n} {nowMs deviceId : UInt32}
    {fieldType : MeasurementField} {filterSeries : Bool} {i : Fin n}
    (h : measurementFindOldest table nowMs deviceId fieldType filterSeries = some i) :
    skipped deviceId fieldType filterSeries (table i) = false ∧
      ∀ j, skipped deviceId fieldType filterSeries (table j) = false →
      (ageMs nowMs (table j).timestampMs).toNat ≤ (ageMs nowMs (table i).timestampMs).toNat := by
  rw [findOldest_eq_argmax] at h
  constructor
  · have hi := List.mem_filter.1 (List.argmax_mem h)
    rw [Bool.not_eq_true'] at hi
    exact hi.2
  · intro j hj
    refine List.le_of_mem_argmax (f := fun i => (ageMs nowMs (table i).timestampMs).toNat) ?_ h
    refine List.mem_filter.2 ⟨List.mem_finRange j, ?_⟩
    rw [Bool.not_eq_true']
    exact hj

theorem findOldest_series {table : MeasurementTable V n} {nowMs deviceId : UInt32} {fieldType : MeasurementField}
    {i : Fin n} (h : measurementFindOldest table nowMs deviceId fieldType true = some i) :
    ((table i).InUse ∧ (table i).InSeries deviceId fieldType) ∧
      ∀ j, (table j).InUse → (table j).InSeries deviceId fieldType →
        (ageMs nowMs (table j).timestampMs).toNat ≤ (ageMs nowMs (table i).timestampMs).toNat := by
  obtain ⟨hi, holdest⟩ := findOldest_some h
  exact ⟨(skipped_series _ _ _).1 hi, fun j hu hs => holdest j ((skipped_series _ _ _).2 ⟨hu, hs⟩)⟩

theorem findOldest_all {table : MeasurementTable V n} {nowMs deviceId : UInt32} {fieldType : MeasurementField}
    {i : Fin n} (h : measurementFindOldest table nowMs deviceId fieldType false = some i) :
    (table i).InUse ∧ ∀ j, (table j).InUse →
    (ageMs nowMs (table j).timestampMs).toNat ≤ (ageMs nowMs (table i).timestampMs).toNat := by
  obtain ⟨hi, holdest⟩ := findOldest_some h
  exact ⟨(skipped_all _ _ _).1 hi, fun j hu => holdest j ((skipped_all _ _ _).2 hu)⟩

theorem findOldest_none {table : MeasurementTable V n} {nowMs deviceId : UInt32}
    {fieldType : MeasurementField} {filterSeries : Bool}
    (h : measurementFindOldest table nowMs deviceId fieldType filterSeries = none) (i : Fin n) :
    skipped deviceId fieldType filterSeries (table i) = true := by
  rw [findOldest_eq_argmax, List.argmax_eq_none, List.filter_eq_nil_iff] at h
  have hi := h i (List.mem_finRange i)
  rwa [Bool.not_eq_true', Bool.not_eq_false] at hi

theorem findFree_some {table : MeasurementTable V n} {i : Fin n} (h : measurementFindFreeSlot table = some i) :
    ¬(table i).InUse := by
  have hi := List.find?_some h
  rw [decide_eq_true_eq] at hi
  exact not_not.2 hi

theorem findFree_none {table : MeasurementTable V n} (h : measurementFindFreeSlot table = none) (i : Fin n) :
    (table i).InUse := by
  have hi := List.find?_eq_none.1 h i (List.mem_finRange i)
  rwa [decide_eq_true_eq] at hi

theorem seriesCount_eq_card (table : MeasurementTable V n) (deviceId : UInt32) (fieldType : MeasurementField) :
    seriesCount table deviceId fieldType =
      (Finset.univ.filter fun i => (table i).InSeries deviceId fieldType).card := by
  unfold seriesCount
  rw [List.countP_eq_length_filter]
  rfl

theorem seriesCount_freeSlot {table : MeasurementTable V n} {deviceId : UInt32} {fieldType : MeasurementField}
    {i : Fin n} (hu : (table i).InUse) (hs : (table i).InSeries deviceId fieldType) :
    seriesCount (freeSlot table i) deviceId fieldType + 1 = seriesCount table deviceId fieldType := by
  have he : (Finset.univ.filter fun j => (freeSlot table i j).InSeries deviceId fieldType) =
      (Finset.univ.filter fun j => (table j).InSeries deviceId fieldType).erase i := by
    ext j
    rw [Finset.mem_erase, Finset.mem_filter, Finset.mem_filter]
    unfold freeSlot
    by_cases hj : j = i
    · subst hj
      rw [Function.update_self]
      exact ⟨fun h => absurd (hs.1.trans h.2.1.symm) hu, fun h => absurd rfl h.1⟩
    · rw [Function.update_of_ne hj]
      exact ⟨fun h => ⟨hj, h⟩, fun h => h.2⟩
  rw [seriesCount_eq_card, seriesCount_eq_card, he]
  exact Finset.card_erase_add_one (Finset.mem_filter.2 ⟨Finset.mem_univ i, hs⟩)

/-- The loop of `measurement_enforce_series_limit`: it frees the oldest entry of
the series until fewer than `maxCount` are left. -/
def enforceLoop (maxCount : UInt16) (nowMs deviceId : UInt32) (fieldType : MeasurementField)
    (table : MeasurementTable V n) : MeasurementTable V n :=
  if seriesCount table deviceId fieldType < maxCount.toNat then table
  else
    match _h : measurementFindOldest table nowMs deviceId fieldType true with
    | none => table
    | some oldest => enforceLoop maxCount nowMs deviceId fieldType (freeSlot table oldest)
termination_by seriesCount table deviceId fieldType
decreasing_by
  have hi := (findOldest_series _h).1
  exact Nat.lt_of_succ_le (seriesCount_freeSlot hi.1 hi.2).le

def measurementEnforceSeriesLimit (maxCount : UInt16) (nowMs deviceId : UInt32) (fieldType : MeasurementField)
    (table : MeasurementTable V n) : MeasurementTable V n :=
  if maxCount = 0 then table else enforceLoop maxCount nowMs deviceId fieldType table

/-! ## The view -/

section
variable [Zero V] [Add V] [Div V] [NatCast V]

def MeasurementViewEntry.zero : MeasurementViewEntry V := ⟨false, 0, .none, 0, 0⟩

/-- The slot of the view a measurement is counted in: the one of its series, else
the first that is not in use. -/
def viewSlot (view : MeasurementView V) (measurement : MeasurementEntry V) :
    Option (Fin MEASUREMENT_STORE_VIEW_SIZE) :=
  let slots := List.finRange MEASUREMENT_STORE_VIEW_SIZE
  match slots.find? fun j =>
    (view j).inUse && (view j).fieldType = measurement.fieldType && (view j).deviceId = measurement.deviceId with
  | some slot => some slot
  | none => slots.find? fun j => !(view j).inUse

/-- The first loop of `measurement_view_rebuild`, for one measurement. -/
def viewCount (state : MeasurementView V × (Fin MEASUREMENT_STORE_VIEW_SIZE → MeasurementAccumulator V))
    (measurement : MeasurementEntry V) :
    MeasurementView V × (Fin MEASUREMENT_STORE_VIEW_SIZE → MeasurementAccumulator V) :=
  let (view, accumulators) := state
  if measurement.fieldType = .none then state
  else match viewSlot view measurement with
    | none => state
    | some slot =>
      let view := if (view slot).inUse then view else Function.update view slot
        { view slot with inUse := true, deviceId := measurement.deviceId, fieldType := measurement.fieldType }
      let accumulator := accumulators slot
      (view, Function.update accumulators slot
        ⟨accumulator.sumValue + measurement.value, accumulator.sampleCount + 1⟩)

def measurementViewRebuild (table : MeasurementTable V n) : MeasurementView V :=
  let (view, accumulators) := (List.finRange n).foldl (fun state i => viewCount state (table i))
    (fun _ => .zero, fun _ => ⟨0, 0⟩)
  fun i =>
    if !(view i).inUse || (accumulators i).sampleCount = 0 then { view i with inUse := false }
    else { view i with
      sampleCount := (accumulators i).sampleCount.toUInt16
      averageValue := (accumulators i).sumValue / ((accumulators i).sampleCount.toNat : V) }

/-! ## The operations -/

def measurementRevision (nowMs : UInt32) (s : MeasurementStore V) : MeasurementStore V :=
  let table := (measurementTablePrune s.table nowMs s.retentionMs).1
  { s with table := table, view := measurementViewRebuild table, lastRevisionMs := nowMs }

def measurementStoreInit (nowMs : UInt32) : MeasurementStore V where
  table _ := ⟨0, .none, 0, 0⟩
  view _ := .zero
  retentionMs := MEASUREMENT_STORE_RETENTION_DEFAULT_MS
  maxCount := APP_CONFIG_MEASUREMENT_MAX_COUNT_DEFAULT
  lastRevisionMs := nowMs

def measurementStoreConfigure (retentionSeconds : UInt32) (maxMeasurementsPerSeries : UInt16)
    (s : MeasurementStore V) : MeasurementStore V :=
  let retentionSeconds := if retentionSeconds < APP_CONFIG_MEASUREMENT_RETENTION_MIN_SECONDS then
    APP_CONFIG_MEASUREMENT_RETENTION_MIN_SECONDS else retentionSeconds
  let retentionSeconds := if retentionSeconds > APP_CONFIG_MEASUREMENT_RETENTION_MAX_SECONDS then
    APP_CONFIG_MEASUREMENT_RETENTION_MAX_SECONDS else retentionSeconds
  let maxMeasurementsPerSeries := if maxMeasurementsPerSeries > APP_CONFIG_MEASUREMENT_MAX_COUNT_MAX then
    APP_CONFIG_MEASUREMENT_MAX_COUNT_MAX else maxMeasurementsPerSeries
  { s with retentionMs := retentionSeconds * 1000, maxCount := maxMeasurementsPerSeries }

def revisionDue (nowMs : UInt32) (s : MeasurementStore V) : Bool :=
  nowMs - s.lastRevisionMs ≥ MEASUREMENT_STORE_REVISION_INTERVAL_MS

def measurementStorePeriodic (nowMs : UInt32) (s : MeasurementStore V) : MeasurementStore V :=
  if revisionDue nowMs s then measurementRevision nowMs s else s

/-- The samples written and the store; the count returned is their number. -/
def measurementStoreSnapshot (capacity : Nat) (nowMs : UInt32) (s : MeasurementStore V) :
    List (MeasurementSample V) × MeasurementStore V :=
  let s := measurementRevision nowMs s
  let used := ((List.finRange MEASUREMENT_STORE_VIEW_SIZE).filter fun i => (s.view i).inUse).take capacity
  (used.map fun i => ⟨(s.view i).deviceId, (s.view i).fieldType, (s.view i).averageValue⟩, s)
end

/-- The table of `measurement_store_add` once old measurements are gone. -/
def tableForAdd (deviceId : UInt32) (fieldType : MeasurementField) (timestampMs : UInt32)
    (s : MeasurementStore V) : MeasurementTable V MEASUREMENT_STORE_TABLE_SIZE :=
  measurementEnforceSeriesLimit s.maxCount timestampMs deviceId fieldType
    (measurementTablePrune s.table timestampMs s.retentionMs).1

/-- `free_index`: a free slot, else the oldest one, which is freed for it. -/
def slotForAdd (timestampMs : UInt32) (table : MeasurementTable V n) : Option (Fin n) :=
  match measurementFindFreeSlot table with
  | some freeIndex => some freeIndex
  | none => measurementFindOldest table timestampMs 0 .none false

def measurementStoreAdd (deviceId : UInt32) (fieldType : MeasurementField) (value : V) (timestampMs : UInt32)
    (s : MeasurementStore V) : Bool × MeasurementStore V :=
  if fieldType = .none then (false, s)
  else
    let table := tableForAdd deviceId fieldType timestampMs s
    match slotForAdd timestampMs table with
    | none => (false, { s with table := table })
    | some freeIndex =>
      (true, { s with table := Function.update table freeIndex ⟨deviceId, fieldType, value, timestampMs⟩ })

end BLEBridge
