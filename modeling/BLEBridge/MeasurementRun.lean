import BLEBridge.Lib.Runs
import BLEBridge.MeasurementTable
/-!
# Runs of the measurement store

The calls on the store with the true times they are made at, of which the code
sees the low 32 bits. A run also remembers what the code does not: the time of
the last call, when the measurement in each slot was recorded, and the
measurements that are gone.
-/
open Lib

namespace BLEBridge

variable {V : Type}

/-- A call on the store, with the true time in milliseconds since boot. -/
inductive StoreOp (V : Type) where
  | configure (retentionSeconds : UInt32) (maxMeasurementsPerSeries : UInt16)
  | add (deviceId : UInt32) (fieldType : MeasurementField) (value : V) (time : Nat)
  | periodic (time : Nat)
  | snapshot (capacity time : Nat)

/-- The millisecond counter as the code reads it. -/
def nowAt (time : Nat) : UInt32 := UInt32.ofNat time

theorem nowAt_toNat (time : Nat) : (nowAt time).toNat = time % 2 ^ 32 := UInt32.toNat_ofNat'

/-- The time of a call, or that of the call before it. -/
def StoreOp.timeAfter (clock : Nat) : StoreOp V → Nat
  | .configure _ _ => clock
  | .add _ _ _ time | .periodic time | .snapshot _ time => time

/-- The slot a call writes. -/
def StoreOp.slot (s : MeasurementStore V) : StoreOp V → Option (Fin MEASUREMENT_STORE_TABLE_SIZE)
  | .add deviceId fieldType _ time =>
    if fieldType = .none then none else slotForAdd (nowAt time) (tableForAdd deviceId fieldType (nowAt time) s)
  | _ => none

section
variable [Zero V] [Add V] [Div V] [NatCast V]

def StoreOp.exec (s : MeasurementStore V) : StoreOp V → MeasurementStore V
  | .configure retentionSeconds maxMeasurementsPerSeries =>
    measurementStoreConfigure retentionSeconds maxMeasurementsPerSeries s
  | .add deviceId fieldType value time => (measurementStoreAdd deviceId fieldType value (nowAt time) s).2
  | .periodic time => measurementStorePeriodic (nowAt time) s
  | .snapshot capacity time => (measurementStoreSnapshot capacity (nowAt time) s).2

/-- The store with the history of its run. -/
structure StoreTrace (V : Type) where
  store : MeasurementStore V
  clock : Nat
  recorded : Fin MEASUREMENT_STORE_TABLE_SIZE → Nat
  dropped : List (MeasurementEntry V)

def StoreTrace.init (time : Nat) : StoreTrace V := ⟨measurementStoreInit (nowAt time), time, fun _ => 0, []⟩

/-- The slots whose measurement a call removes: the ones it writes over or frees. -/
def removedSlots (s : MeasurementStore V) (op : StoreOp V) : List (Fin MEASUREMENT_STORE_TABLE_SIZE) :=
  (List.finRange MEASUREMENT_STORE_TABLE_SIZE).filter fun i =>
    (s.table i).InUse ∧ (some i = op.slot s ∨ ¬((op.exec s).table i).InUse)

def StoreTrace.step (t : StoreTrace V) (op : StoreOp V) : StoreTrace V where
  store := op.exec t.store
  clock := op.timeAfter t.clock
  recorded i := if some i = op.slot t.store then op.timeAfter t.clock else t.recorded i
  dropped := t.dropped ++ (removedSlots t.store op).map t.store.table

/-- The times of a run do not decrease. -/
def OnTime (t : StoreTrace V) (op : StoreOp V) : Prop := t.clock ≤ op.timeAfter t.clock

/-! ## What each call does to the table -/

theorem revision_table (nowMs : UInt32) (s : MeasurementStore V) :
    (measurementRevision nowMs s).table = (measurementTablePrune s.table nowMs s.retentionMs).1 := rfl

/-- The calls that prune the table only: a snapshot, and a periodic call when a
revision is due. -/
inductive Revises (s : MeasurementStore V) : StoreOp V → Nat → Prop
  | periodic (time : Nat) (h : revisionDue (nowAt time) s = true) : Revises s (.periodic time) time
  | snapshot (capacity time : Nat) : Revises s (.snapshot capacity time) time

theorem Revises.exec_eq {s : MeasurementStore V} {op : StoreOp V} {time : Nat} (h : Revises s op time) :
    op.exec s = measurementRevision (nowAt time) s ∧ op.slot s = none ∧ ∀ clock, op.timeAfter clock = time := by
  cases h with
  | periodic _ h => exact ⟨if_pos h, rfl, fun _ => rfl⟩
  | snapshot capacity _ => exact ⟨rfl, rfl, fun _ => rfl⟩

/-- A call leaves the table as it is, or revises it, or adds a measurement. -/
inductive TableCase (s : MeasurementStore V) (op : StoreOp V) : Prop
  | same (ht : (op.exec s).table = s.table) (hslot : op.slot s = none)
  | revised (time : Nat) (h : Revises s op time)
  | added (deviceId : UInt32) (fieldType : MeasurementField) (value : V) (time : Nat)
      (k : Fin MEASUREMENT_STORE_TABLE_SIZE) (hop : op = .add deviceId fieldType value time)
        (hf : fieldType ≠ .none)
      (hslot : slotForAdd (nowAt time) (tableForAdd deviceId fieldType (nowAt time) s) = some k)
      (hs : op.slot s = some k)
      (hok : (measurementStoreAdd deviceId fieldType value (nowAt time) s).1 = true)
      (hexec : op.exec s = { s with table := tableAfterAdd s deviceId fieldType value (nowAt time) k })

theorem table_cases (s : MeasurementStore V) (op : StoreOp V) : TableCase s op := by
  cases op with
  | configure retentionSeconds maxMeasurementsPerSeries => exact .same rfl rfl
  | add deviceId fieldType value time =>
    by_cases hf : fieldType = .none
    · refine .same ?_ (if_pos hf)
      dsimp only [StoreOp.exec]
      unfold measurementStoreAdd
      rw [if_pos hf]
    · obtain ⟨k, hk, hadd⟩ := add_eq s deviceId value (nowAt time) hf
      exact .added deviceId fieldType value time k rfl hf hk ((if_neg hf).trans hk) (congrArg Prod.fst hadd)
        (congrArg Prod.snd hadd)
  | periodic time =>
    cases hd : revisionDue (nowAt time) s with
    | true => exact .revised time (.periodic time hd)
    | false =>
      refine .same ?_ rfl
      dsimp only [StoreOp.exec]
      unfold measurementStorePeriodic
      rw [hd, if_neg (by decide)]
  | snapshot capacity time => exact .revised time (.snapshot capacity time)

/-- A measurement stored after a call was written by it or was there before. -/
theorem step_inUse (t : StoreTrace V) (op : StoreOp V) {i : Fin MEASUREMENT_STORE_TABLE_SIZE}
    (hu : ((t.step op).store.table i).InUse) :
    (some i = op.slot t.store ∧ ((t.step op).store.table i).timestampMs = nowAt (op.timeAfter t.clock)) ∨
      (some i ≠ op.slot t.store ∧ (t.step op).store.table i = t.store.table i) := by
  cases table_cases t.store op with
  | same ht hslot =>
    refine .inr ⟨?_, congrFun ht i⟩
    rw [hslot]
    exact Option.some_ne_none i
  | revised time h =>
    obtain ⟨he, hslot, -⟩ := h.exec_eq
    have htab : (t.step op).store.table = _ := congrArg MeasurementStore.table he
    rw [htab, revision_table] at hu ⊢
    rw [hslot]
    exact .inr ⟨Option.some_ne_none i, prune_shrinks _ _ _ i hu⟩
  | added deviceId fieldType value time k hop hf hslot hs hok hexec =>
    have htab : (t.step op).store.table = tableAfterAdd t.store deviceId fieldType value (nowAt time) k :=
      congrArg MeasurementStore.table hexec
    rw [htab] at hu ⊢
    rw [hs, hop]
    unfold tableAfterAdd at hu ⊢
    by_cases hi : i = k
    · rw [hi, Function.update_self]
      exact .inl ⟨rfl, rfl⟩
    · rw [update_inUse hi] at hu ⊢
      exact .inr ⟨fun h => hi (Option.some.inj h), limited_shrinks rfl i hu⟩
end

end BLEBridge
