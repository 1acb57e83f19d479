import BLEBridge.MeasurementRun
/-!
# Retention

Ages are computed from the low 32 bits of the time, and a measurement that looks
newer than now has age 0. So pruning removes every measurement that is too old
as long as no such measurement is hidden by a wrap of the counter
(`retention_kept`); `stale_after_wrap` is a run where one is.
-/
open Lib

namespace BLEBridge

variable {V : Type}

/-- Every measurement stored was recorded no longer ago than the retention. -/
def WithinRetention (t : StoreTrace V) (time : Nat) : Prop :=
  ∀ i, (t.store.table i).InUse → time - t.recorded i ≤ t.store.retentionMs.toNat

/-- No measurement that is too old at `time` looks young in 32 bits. -/
def NoneHidden (t : StoreTrace V) (time : Nat) : Prop :=
  ∀ i, (t.store.table i).InUse → t.store.retentionMs.toNat < time - t.recorded i →
    t.recorded i % 2 ^ 32 + t.store.retentionMs.toNat < time % 2 ^ 32

section
variable [Zero V] [Add V] [Div V] [NatCast V]

/-- The condition on a step: at a revision or an add no stored measurement is
hidden. An add of no field, which does nothing, must find none too old. -/
def ClockTells (t : StoreTrace V) : StoreOp V → Prop
  | .configure _ _ => True
  | .add _ fieldType _ time => if fieldType = .none then WithinRetention t time else NoneHidden t time
  | .periodic time => revisionDue (nowAt time) t.store = true → NoneHidden t time
  | .snapshot _ time => NoneHidden t time

/-- After an add or a revision, every measurement stored is within the
retention. -/
def RetentionStep (t : StoreTrace V) (op : StoreOp V) : Prop :=
  ∀ time, (Revises t.store op time ∨ ∃ deviceId fieldType value, op = .add deviceId fieldType value time) →
    WithinRetention (t.step op) time

end

/-- The code knows when a measurement was recorded, in 32 bits. -/
def Stamped (t : StoreTrace V) : Prop := ∀ i, (t.store.table i).InUse →
  (t.store.table i).timestampMs = nowAt (t.recorded i)

theorem prune_keeps_iff {t : StoreTrace V} (ht : Stamped t) {time : Nat} {i : Fin MEASUREMENT_STORE_TABLE_SIZE}
    (hi : (t.store.table i).InUse) :
    ((measurementTablePrune t.store.table (nowAt time) t.store.retentionMs).1 i).InUse ↔
      time % 2 ^ 32 ≤ t.recorded i % 2 ^ 32 + t.store.retentionMs.toNat := by
  rw [prune_inUse, ht i hi, UInt32.le_iff_toNat_le, and_iff_right hi]
  by_cases h : (nowAt (t.recorded i)).toNat ≤ (nowAt time).toNat
  · rw [ageMs_toNat h]
    rw [nowAt_toNat, nowAt_toNat] at h ⊢
    omega
  · have hz : ageMs (nowAt time) (nowAt (t.recorded i)) = 0 :=
      if_neg fun hle => h (UInt32.le_iff_toNat_le.1 hle)
    rw [hz]
    rw [nowAt_toNat, nowAt_toNat] at h
    exact ⟨fun _ => by omega, fun _ => Nat.zero_le _⟩

/-- Nothing was recorded in the future. -/
def RecordedBefore (t : StoreTrace V) : Prop := ∀ i, (t.store.table i).InUse → t.recorded i ≤ t.clock

theorem noneHidden_of_lt {t : StoreTrace V} (hr : RecordedBefore t) {time : Nat} (hc : t.clock ≤ time)
    (ht : time < 2 ^ 32) : NoneHidden t time := by
  intro i hi hold
  have := hr i hi
  rw [Nat.mod_eq_of_lt ht, Nat.mod_eq_of_lt (by omega)]
  omega

theorem stamped_init [Zero V] (time : Nat) : Stamped (StoreTrace.init time : StoreTrace V) :=
  fun _ hu => absurd rfl hu

section
variable [Zero V] [Add V] [Div V] [NatCast V]

theorem stamped_step {t : StoreTrace V} (ht : Stamped t) (op : StoreOp V) : Stamped (t.step op) := by
  intro i hu
  rcases step_inUse t op hu with ⟨hi, hts⟩ | ⟨hi, he⟩
  · rw [hts]
    exact congrArg nowAt (if_pos hi).symm
  · rw [he] at hu ⊢
    rw [ht i hu]
    exact congrArg nowAt (if_neg hi).symm

/-- At a revision the condition is exactly what is needed. -/
theorem revision_within_iff {t : StoreTrace V} (ht : Stamped t) {op : StoreOp V} {time : Nat}
    (h : Revises t.store op time) : WithinRetention (t.step op) time ↔ NoneHidden t time := by
  obtain ⟨he, hslot, htime⟩ := h.exec_eq
  have hrec : (t.step op).recorded = t.recorded := by
    funext i
    exact if_neg (hslot ▸ Option.some_ne_none i)
  have hret : (t.step op).store.retentionMs = (measurementRevision (nowAt time) t.store).retentionMs :=
    congrArg MeasurementStore.retentionMs he
  have htab : (t.step op).store.table =
      (measurementTablePrune t.store.table (nowAt time) t.store.retentionMs).1 :=
    congrArg MeasurementStore.table he
  unfold WithinRetention NoneHidden
  rw [hrec, hret, htab]
  unfold measurementRevision
  constructor
  · intro hw i hi hold
    by_contra hlow
    exact absurd (hw i ((prune_keeps_iff ht hi).2 (not_lt.1 hlow))) (not_le.2 hold)
  · intro hn i hi
    have hi' := (prune_shrinks _ _ _).inUse hi
    by_contra hold
    exact absurd ((prune_keeps_iff ht hi').1 hi) (not_le.2 (hn i hi' (not_le.1 hold)))

/-- Without a hidden measurement an add leaves none that is too old. -/
theorem add_within {t : StoreTrace V} (ht : Stamped t) {deviceId : UInt32} {fieldType : MeasurementField}
    {value : V} {time : Nat} (hf : fieldType ≠ .none) (hn : NoneHidden t time) :
    WithinRetention (t.step (.add deviceId fieldType value time)) time := by
  obtain ⟨k, hk, hadd⟩ := add_eq t.store deviceId value (nowAt time) hf
  have hslot : StoreOp.slot t.store (.add deviceId fieldType value time) = some k := (if_neg hf).trans hk
  have hstore : (t.step (.add deviceId fieldType value time)).store = _ := congrArg Prod.snd hadd
  intro i hu
  rw [hstore] at hu ⊢
  unfold StoreTrace.step
  dsimp only [StoreOp.timeAfter] at hu ⊢
  rw [hslot]
  by_cases hi : i = k
  · rw [hi, if_pos rfl, Nat.sub_self]
    exact Nat.zero_le _
  · rw [if_neg fun h => hi (Option.some.inj h)]
    unfold tableAfterAdd at hu
    rw [update_inUse hi] at hu
    have hp := (enforce_limited _ _).shrinks.inUse hu
    have hi' := (prune_shrinks _ _ _).inUse hp
    by_contra hold
    exact absurd ((prune_keeps_iff ht hi').1 hp) (not_le.2 (hn i hi' (not_le.1 hold)))

/-- The measurement an add stores, with the time of the add. -/
theorem add_recorded (t : StoreTrace V) (deviceId : UInt32)
    {fieldType : MeasurementField} (value : V) (time : Nat) (hf : fieldType ≠ .none) :
    ∃ k, ((t.step (.add deviceId fieldType value time)).store.table k).InUse ∧
      (t.step (.add deviceId fieldType value time)).recorded k = time ∧
      (t.step (.add deviceId fieldType value time)).store.retentionMs = t.store.retentionMs := by
  obtain ⟨k, hk, hadd⟩ := add_eq t.store deviceId value (nowAt time) hf
  have hstore : (t.step (.add deviceId fieldType value time)).store = _ := congrArg Prod.snd hadd
  refine ⟨k, ?_, if_pos ((if_neg hf).trans hk).symm, ?_⟩
  · rw [hstore]
    unfold tableAfterAdd
    dsimp only
    rw [Function.update_self]
    exact hf
  · rw [hstore]

/-- An add of no field changes nothing. -/
theorem add_none_within {t : StoreTrace V} {deviceId : UInt32} {value : V} {time : Nat}
    (h : WithinRetention t time) : WithinRetention (t.step (.add deviceId .none value time)) time := by
  intro i hu
  exact h i hu

theorem retentionStep_of_clockTells {t : StoreTrace V} (ht : Stamped t) {op : StoreOp V} (hc : ClockTells t op) :
    RetentionStep t op := by
  rintro time (h | ⟨deviceId, fieldType, value, rfl⟩)
  · refine (revision_within_iff ht h).2 ?_
    cases h with
    | periodic _ hd => exact hc hd
    | snapshot capacity _ => exact hc
  · dsimp only [ClockTells] at hc
    by_cases hf : fieldType = .none
    · subst hf
      exact add_none_within hc
    · rw [if_neg hf] at hc
      exact add_within ht hf hc

/-- In every run in which no stored measurement is hidden by a wrap of the
counter, every add and every revision leaves only measurements within the
retention; and a revision does so only then. -/
theorem retention_kept (time : Nat) (ops : List (StoreOp V)) :
    (EveryStep StoreTrace.step ClockTells (.init time) ops →
      EveryStep StoreTrace.step RetentionStep (.init time) ops) ∧
      EveryStep StoreTrace.step (fun t op => ∀ time, Revises t.store op time →
        (WithinRetention (t.step op) time ↔ NoneHidden t time)) (.init time) ops := by
  constructor
  · intro h
    exact h.of_inv (stamped_init time) (fun t op ht _ => stamped_step ht op) fun t op ht hc =>
      retentionStep_of_clockTells ht hc
  · refine (everyStep_true StoreTrace.step (.init time) ops).of_inv (stamped_init time)
      (fun t op ht _ => stamped_step ht op) ?_
    intro t op ht _ time h
    exact revision_within_iff ht h

/-! ## Before the first wrap -/

theorem recordedBefore_step {t : StoreTrace V} (hr : RecordedBefore t) {op : StoreOp V} (ho : OnTime t op) :
    RecordedBefore (t.step op) := by
  intro i hu
  rcases step_inUse t op hu with ⟨hi, -⟩ | ⟨hi, he⟩
  · exact (if_pos hi).le
  · rw [he] at hu
    exact (if_neg hi).le.trans ((hr i hu).trans ho)

/-- In the first 49.7 days nothing is hidden. -/
theorem retention_before_wrap (time : Nat) (ops : List (StoreOp V))
    (h : EveryStep StoreTrace.step (fun t op => OnTime t op ∧ op.timeAfter t.clock < 2 ^ 32 ∧
      ∀ deviceId value time, op ≠ .add deviceId .none value time) (.init time) ops) :
    EveryStep StoreTrace.step RetentionStep (.init time) ops := by
  refine h.of_inv (I := fun t => Stamped t ∧ RecordedBefore t) ⟨stamped_init time, fun _ hu => absurd rfl hu⟩
    (fun t op ht hop => ⟨stamped_step ht.1 op, recordedBefore_step ht.2 hop.1⟩) ?_
  rintro t op ⟨ht, hr⟩ ⟨ho, hlt, hne⟩
  refine retentionStep_of_clockTells ht ?_
  cases op with
  | configure retentionSeconds maxMeasurementsPerSeries => trivial
  | add deviceId fieldType value time =>
    dsimp only [ClockTells]
    rw [if_neg (by rintro rfl; exact hne deviceId value time rfl)]
    exact noneHidden_of_lt hr ho hlt
  | periodic time => exact fun _ => noneHidden_of_lt hr ho hlt
  | snapshot capacity time => exact noneHidden_of_lt hr ho hlt
end

/-! ## After a wrap -/

/-- A measurement of the last millisecond before the wrap and a snapshot five
minutes later, when it is older than the retention of five minutes. -/
def wrapRun : List (StoreOp Nat) := [.add 1 .temperature 20 (2 ^ 32 - 1), .snapshot 10 (2 ^ 32 + 300001)]

/-- The snapshot keeps it. -/
theorem stale_after_wrap : EveryStep StoreTrace.step OnTime (.init 0) wrapRun ∧
    ¬EveryStep StoreTrace.step RetentionStep (.init 0) wrapRun := by
  refine ⟨⟨Nat.zero_le _, ?_, trivial⟩, ?_⟩
  · show 2 ^ 32 - 1 ≤ 2 ^ 32 + 300001
    norm_num
  · rintro ⟨-, hstep, -⟩
    have hrev : Revises (StoreTrace.step (.init 0) (.add 1 .temperature (20 : Nat) (2 ^ 32 - 1))).store
        (.snapshot 10 (2 ^ 32 + 300001)) (2 ^ 32 + 300001) := .snapshot _ _
    have hnone := (revision_within_iff (stamped_step (stamped_init 0) _) hrev).1 (hstep _ (.inl hrev))
    obtain ⟨k, hu, hrec, hret⟩ :=
      add_recorded (.init 0) 1 (20 : Nat) (2 ^ 32 - 1) (show MeasurementField.temperature ≠ .none by decide)
    have hret' : (StoreTrace.step (.init 0)
        (.add 1 .temperature (20 : Nat) (2 ^ 32 - 1))).store.retentionMs.toNat = 300000 := by
      rw [hret]
      rfl
    have hhidden := hnone k hu
    rw [hrec, hret'] at hhidden
    exact absurd (hhidden (by norm_num)) (by norm_num)

end BLEBridge
