import BLEBridge.MeasurementRun
/-!
# Eviction

Until the counter wraps, an add always succeeds and removes a measurement only
for one of three reasons (`RemovalReason`). Each of them spares what is newer in
the same series, so no measurement that is gone is newer than one of its series
that is still stored. Retention and limit are those of the last `configure`
(`eviction_law`).
-/
open Lib

namespace BLEBridge

variable {V : Type}

def MeasurementEntry.time (e : MeasurementEntry V) : Nat := e.timestampMs.toNat

/-- The measurements in the table. -/
def StoreTrace.stored (t : StoreTrace V) : Set (MeasurementEntry V) :=
  {e | ∃ i, (t.store.table i).InUse ∧ t.store.table i = e}

theorem nowAt_of_lt {time : Nat} (h : time < 2 ^ 32) : (nowAt time).toNat = time := by
  rw [nowAt_toNat, Nat.mod_eq_of_lt h]

theorem mem_stored {t : StoreTrace V} {i : Fin MEASUREMENT_STORE_TABLE_SIZE} {e : MeasurementEntry V}
    (h : t.store.table i = e) (hu : e.InUse) : e ∈ t.stored := ⟨i, h ▸ hu, h⟩

section
variable [Zero V] [Add V] [Div V] [NatCast V]

/-- Times do not decrease and have not wrapped. -/
def InTime (t : StoreTrace V) (op : StoreOp V) : Prop := OnTime t op ∧ op.timeAfter t.clock < 2 ^ 32

/-- The eviction law for an add at `time` that writes slot `k`. -/
structure AddLaw (t t' : StoreTrace V) (deviceId : UInt32) (fieldType : MeasurementField) (value : V) (time : Nat)
    (k : Fin MEASUREMENT_STORE_TABLE_SIZE) : Prop where
  returns : (measurementStoreAdd deviceId fieldType value (nowAt time) t.store).1 = true
  stored : t'.store.table k = ⟨deviceId, fieldType, value, nowAt time⟩
  capped : t.store.maxCount ≠ 0 → seriesCount t'.store.table deviceId fieldType ≤ t.store.maxCount.toNat
  removed : ∀ i, RemovedByAdd t.store.table t'.store.table k i →
    RemovalReason t.store.retentionMs t.store.maxCount (nowAt time) deviceId fieldType t.store.table
      t'.store.table k i

/-- Each add of a measurement keeps the eviction law. -/
def EvictionStep (t : StoreTrace V) (op : StoreOp V) : Prop :=
  ∀ deviceId fieldType value time, op = .add deviceId fieldType value time → fieldType ≠ .none →
    ∃ k, op.slot t.store = some k ∧ AddLaw t (t.step op) deviceId fieldType value time k

/-- What holds between calls: nothing stored or gone is from the future, and
what is gone is not newer than what is left of its series. -/
structure Ordered (t : StoreTrace V) : Prop where
  clock_lt : t.clock < 2 ^ 32
  stored : ∀ i, (t.store.table i).InUse → (t.store.table i).time ≤ t.clock
  gone : ∀ d ∈ t.dropped, d.time ≤ t.clock
  newest : KeepsNewest MeasurementEntry.series MeasurementEntry.time {d | d ∈ t.dropped} t.stored

omit [Add V] [Div V] [NatCast V] in
theorem ordered_init {time : Nat} (ht : time < 2 ^ 32) : Ordered (.init time : StoreTrace V) where
  clock_lt := ht
  stored _ hu := absurd rfl hu
  gone _ hd := absurd hd (List.not_mem_nil)
  newest _ hd := absurd hd (List.not_mem_nil)

theorem mem_removedSlots {s : MeasurementStore V} {op : StoreOp V} {i : Fin MEASUREMENT_STORE_TABLE_SIZE} :
    i ∈ removedSlots s op ↔ (s.table i).InUse ∧ (some i = op.slot s ∨ ¬((op.exec s).table i).InUse) := by
  unfold removedSlots
  rw [List.mem_filter, decide_eq_true_eq]
  exact and_iff_right (List.mem_finRange i)

theorem mem_dropped {t : StoreTrace V} {op : StoreOp V} {i : Fin MEASUREMENT_STORE_TABLE_SIZE}
    (hi : i ∈ removedSlots t.store op) : t.store.table i ∈ (t.step op).dropped :=
  List.mem_append_right _ (List.mem_map_of_mem hi)

omit [Zero V] [Add V] [Div V] [NatCast V] in
/-- Seen from the time of the next call, nothing stored is from the future. -/
theorem Ordered.clock {t : StoreTrace V} (ht : Ordered t) {op : StoreOp V}
    (hop : InTime t op) (i : Fin MEASUREMENT_STORE_TABLE_SIZE) (hi : (t.store.table i).InUse) :
    (t.store.table i).timestampMs.toNat ≤ (nowAt (op.timeAfter t.clock)).toNat := by
  rw [nowAt_of_lt hop.2]
  exact (ht.stored i hi).trans hop.1

theorem addLaw {t : StoreTrace V} (ht : Ordered t) {deviceId : UInt32} {fieldType : MeasurementField}
    {value : V} {time : Nat}
    (htime : InTime t (.add deviceId fieldType value time)) {k : Fin MEASUREMENT_STORE_TABLE_SIZE}
    (hf : fieldType ≠ .none)
    (hslot : slotForAdd (nowAt time) (tableForAdd deviceId fieldType (nowAt time) t.store) = some k)
    (hok : (measurementStoreAdd deviceId fieldType value (nowAt time) t.store).1 = true)
    (htable : (t.step (.add deviceId fieldType value time)).store.table =
      tableAfterAdd t.store deviceId fieldType value (nowAt time) k) :
    AddLaw t (t.step (.add deviceId fieldType value time)) deviceId fieldType value time k := by
  refine ⟨hok, ?_, ?_, ?_⟩
  · rw [htable]
    exact Function.update_self _ _ _
  · intro hm
    rw [htable]
    exact seriesCount_after_add rfl hf hm
  · intro i hi
    rw [htable] at hi ⊢
    exact removal_reason (ht.clock htime) rfl hslot hf hi

/-- A call removes no measurement that is newer than one of its series it
leaves. -/
theorem removed_older {t : StoreTrace V} (ht : Ordered t) {op : StoreOp V}
    (hop : InTime t op) {i j : Fin MEASUREMENT_STORE_TABLE_SIZE} (hi : i ∈ removedSlots t.store op)
    (hj : ((t.step op).store.table j).InUse) (hw : some j ≠ op.slot t.store)
    (hs : (t.store.table i).series = (t.store.table j).series) :
    (t.store.table i).time ≤ (t.store.table j).time := by
  obtain ⟨hiu, hi⟩ := mem_removedSlots.1 hi
  cases table_cases t.store op with
  | same htab hslot =>
    rw [hslot, htab] at hi
    rcases hi with h | h
    · cases h
    · exact absurd hiu h
  | revised time h =>
    obtain ⟨he, hslot, htime⟩ := h.exec_eq
    have htab : (t.step op).store.table = _ := congrArg MeasurementStore.table he
    have hclock := ht.clock hop
    rw [htime] at hclock
    rw [htab, revision_table, prune_inUse] at hj
    have hi' := hi.resolve_left (hslot ▸ Option.some_ne_none i)
    rw [he, revision_table, prune_inUse, not_and, UInt32.not_le] at hi'
    -- What expires is older than what does not.
    have hage := (UInt32.le_iff_toNat_le.1 hj.2).trans_lt (UInt32.lt_iff_toNat_lt.1 (hi' hiu))
    rw [ageMs_toNat (hclock i hiu), ageMs_toNat (hclock j hj.1)] at hage
    unfold MeasurementEntry.time
    omega
  | added deviceId fieldType value time k hop' hf hslot hs' hok hexec =>
    have htable : (t.step op).store.table = tableAfterAdd t.store deviceId fieldType value (nowAt time) k :=
      congrArg MeasurementStore.table hexec
    subst hop'
    have hlaw := addLaw ht hop hf hslot hok htable
    have hjk : j ≠ k := fun h => hw (h ▸ hs'.symm)
    have hkept : KeptByAdd t.store.table (t.step (.add deviceId fieldType value time)).store.table k j := by
      refine ⟨?_, hjk, hj⟩
      rw [htable, tableAfterAdd, update_inUse hjk] at hj
      exact (limited_shrinks rfl).inUse hj
    have hremoved : RemovedByAdd t.store.table (t.step (.add deviceId fieldType value time)).store.table k i := by
      rw [hs'] at hi
      exact ⟨hiu, hi.imp_left Option.some.inj⟩
    cases hlaw.removed i hremoved with
    | stale h =>
      rw [htable] at hkept
      have hfresh := kept_fresh (ht.clock hop) rfl hkept
      have hclock := ht.clock hop j hkept.1
      dsimp only [StoreOp.timeAfter] at hfresh hclock
      unfold MeasurementEntry.time
      omega
    | limit _ hser _ holdest =>
      have hf' := (congrArg Prod.snd hs).symm.trans hser.1
      have hd' := (congrArg Prod.fst hs).symm.trans hser.2
      exact holdest j hkept ⟨hf', hd'⟩
    | full _ holdest _ => exact holdest j

theorem ordered_step {t : StoreTrace V} (ht : Ordered t) {op : StoreOp V} (hop : InTime t op) :
    Ordered (t.step op) := by
  have hgone : ∀ d ∈ (t.step op).dropped, d.time ≤ t.clock := by
    intro d hd
    rcases List.mem_append.1 hd with hd | hd
    · exact ht.gone d hd
    · obtain ⟨i, hi, rfl⟩ := List.mem_map.1 hd
      exact ht.stored i (mem_removedSlots.1 hi).1
  refine ⟨hop.2, ?_, fun d hd => (hgone d hd).trans hop.1, ?_⟩
  · intro i hu
    rcases step_inUse t op hu with ⟨-, hts⟩ | ⟨-, he⟩
    · unfold MeasurementEntry.time
      rw [hts, nowAt_of_lt hop.2]
      exact le_rfl
    · rw [he] at hu ⊢
      exact (ht.stored i hu).trans hop.1
  · have hsplit : {d | d ∈ (t.step op).dropped} =
        {d | d ∈ t.dropped} ∪ {d | d ∈ (removedSlots t.store op).map t.store.table} := by
      ext d
      exact List.mem_append
    rw [hsplit]
    refine ht.newest.step ?_
    rintro e ⟨j, hj, rfl⟩
    rcases step_inUse t op hj with ⟨-, hts⟩ | ⟨hw, he⟩
    · -- the new measurement is the latest of all
      left
      intro d hd
      rw [← hsplit] at hd
      unfold MeasurementEntry.time
      rw [hts, nowAt_of_lt hop.2]
      exact (hgone d hd).trans hop.1
    · right
      refine ⟨⟨j, he ▸ hj, he.symm⟩, ?_⟩
      intro d hd hs
      obtain ⟨i, hi, rfl⟩ := List.mem_map.1 hd
      rw [he] at hs ⊢
      exact removed_older ht hop hi hj hw hs

theorem evictionStep {t : StoreTrace V} (ht : Ordered t) {op : StoreOp V} (hop : InTime t op) :
    EvictionStep t op := by
  rintro deviceId fieldType value time rfl hf
  obtain ⟨k, hk, hadd⟩ := add_eq t.store deviceId value (nowAt time) hf
  exact ⟨k, (if_neg hf).trans hk, addLaw ht hop hf hk (congrArg Prod.fst hadd)
    (congrArg (fun r => MeasurementStore.table (Prod.snd r)) hadd)⟩

/-! ## The limits in force -/

/-- The retention in milliseconds and the limit of a series that a call sets. -/
def StoreOp.limits : StoreOp V → Option (Nat × Nat)
  | .configure retentionSeconds maxMeasurementsPerSeries =>
    some (1000 * max 5 (min 600 retentionSeconds.toNat), min 1000 maxMeasurementsPerSeries.toNat)
  | _ => none

/-- Those of the last call that sets them; at first 300 seconds and no limit. -/
def limitsInForce (ops : List (StoreOp V)) : Nat × Nat :=
  ((ops.filterMap StoreOp.limits).getLast?).getD (300000, 0)

/-- The ones the store works with. -/
def StoreTrace.limits (t : StoreTrace V) : Nat × Nat := (t.store.retentionMs.toNat, t.store.maxCount.toNat)

theorem clampedRetention (retentionSeconds : UInt32) :
    let atLeast := if retentionSeconds < 5 then 5 else retentionSeconds
    ((if atLeast > 600 then 600 else atLeast) * 1000).toNat = 1000 * max 5 (min 600 retentionSeconds.toNat) := by
  by_cases hlow : retentionSeconds < 5
  · have h : retentionSeconds.toNat < 5 := UInt32.lt_iff_toNat_lt.1 hlow
    simp only [if_pos hlow]
    rw [max_eq_left ((min_le_right _ _).trans h.le)]
    rfl
  · have hlow' : 5 ≤ retentionSeconds.toNat := UInt32.le_iff_toNat_le.1 (UInt32.not_lt.1 hlow)
    simp only [if_neg hlow]
    by_cases hhigh : retentionSeconds > 600
    · have h : 600 < retentionSeconds.toNat := UInt32.lt_iff_toNat_lt.1 hhigh
      rw [if_pos hhigh, min_eq_left h.le]
      rfl
    · have h : retentionSeconds.toNat ≤ 600 := UInt32.le_iff_toNat_le.1 (UInt32.not_lt.1 hhigh)
      rw [if_neg hhigh, min_eq_right h, max_eq_right hlow', UInt32.toNat_mul, mul_comm]
      refine Nat.mod_eq_of_lt ?_
      change 1000 * retentionSeconds.toNat < 2 ^ 32
      omega

theorem clampedCount (maxMeasurementsPerSeries : UInt16) :
    (if maxMeasurementsPerSeries > 1000 then 1000 else maxMeasurementsPerSeries).toNat =
      min 1000 maxMeasurementsPerSeries.toNat := by
  by_cases h : maxMeasurementsPerSeries > 1000
  · have h' : 1000 < maxMeasurementsPerSeries.toNat := UInt16.lt_iff_toNat_lt.1 h
    rw [if_pos h, min_eq_left h'.le]
    rfl
  · have h' : maxMeasurementsPerSeries.toNat ≤ 1000 := UInt16.le_iff_toNat_le.1 (UInt16.not_lt.1 h)
    rw [if_neg h, min_eq_right h']

omit [Zero V] [Add V] [Div V] [NatCast V] in
theorem configure_limits (retentionSeconds : UInt32) (maxMeasurementsPerSeries : UInt16)
    (s : MeasurementStore V) :
    let s' := measurementStoreConfigure retentionSeconds maxMeasurementsPerSeries s
    s'.retentionMs.toNat = 1000 * max 5 (min 600 retentionSeconds.toNat) ∧
      s'.maxCount.toNat = min 1000 maxMeasurementsPerSeries.toNat :=
  ⟨clampedRetention retentionSeconds, clampedCount maxMeasurementsPerSeries⟩

/-- Only `configure` changes them. -/
theorem exec_limits (op : StoreOp V) (s : MeasurementStore V) :
    ((op.exec s).retentionMs.toNat, (op.exec s).maxCount.toNat) =
      op.limits.getD (s.retentionMs.toNat, s.maxCount.toNat) := by
  cases op with
  | configure retentionSeconds maxMeasurementsPerSeries =>
    obtain ⟨hretention, hcount⟩ := configure_limits retentionSeconds maxMeasurementsPerSeries s
    exact Prod.ext hretention hcount
  | add deviceId fieldType value time =>
    dsimp only [StoreOp.exec, StoreOp.limits, Option.getD]
    unfold measurementStoreAdd
    split
    · rfl
    · dsimp only
      split <;> rfl
  | periodic time =>
    dsimp only [StoreOp.exec, StoreOp.limits, Option.getD]
    unfold measurementStorePeriodic
    split <;> rfl
  | snapshot capacity time => rfl

theorem run_limits (time : Nat) (ops : List (StoreOp V)) :
    (run StoreTrace.step (.init time) ops).limits = limitsInForce ops := by
  induction ops using List.reverseRecOn with
  | nil => rfl
  | append_singleton ops op ih =>
    rw [run_concat, limitsInForce, List.filterMap_append]
    refine (exec_limits op _).trans ?_
    cases hop : op.limits with
    | none =>
      rw [List.filterMap_cons_none hop, List.filterMap_nil, List.append_nil]
      exact ih
    | some limits =>
      rw [List.filterMap_cons_some hop, List.filterMap_nil, List.getLast?_concat]
      rfl

/-- The eviction law holds at each add of a run whose clock has not wrapped, with
the limits that the calls before have set, and after it no measurement that is
gone is newer than a stored one of its series. -/
theorem eviction_law {time : Nat} {ops : List (StoreOp V)} (ht : time < 2 ^ 32)
    (hops : EveryStep StoreTrace.step InTime (.init time) ops) :
    EveryStep StoreTrace.step EvictionStep (.init time) ops ∧
      (∀ k, (run StoreTrace.step (.init time) (ops.take k)).limits = limitsInForce (ops.take k)) ∧
      KeepsNewest MeasurementEntry.series MeasurementEntry.time
        {d | d ∈ (run StoreTrace.step (.init time) ops).dropped} (run StoreTrace.step (.init time) ops).stored :=
  ⟨hops.of_inv (ordered_init ht) (fun _ _ ht hop => ordered_step ht hop) fun _ _ ht hop => evictionStep ht hop,
    fun k => run_limits time (ops.take k),
    (hops.inv (ordered_init ht) fun _ _ ht hop => ordered_step ht hop).newest⟩

/-! ## A limit of one -/

/-- Two measurements of one series with a limit of one. -/
def twoAdds : List (StoreOp Nat) := [.configure 60 1, .add 7 .humidity 40 10, .add 7 .humidity 41 20]

theorem twoAdds_inTime : EveryStep StoreTrace.step InTime (.init 0) twoAdds :=
  ⟨⟨Nat.le_refl 0, Nat.two_pow_pos 32⟩, ⟨Nat.zero_le 10, (by norm_num : 10 < 2 ^ 32)⟩,
    ⟨(by norm_num : 10 ≤ 20), (by norm_num : 20 < 2 ^ 32)⟩, trivial⟩

omit [Zero V] [Add V] [Div V] [NatCast V] in
/-- With a limit of one only the new measurement is left of its series. -/
theorem AddLaw.only {t t' : StoreTrace V} {deviceId : UInt32} {fieldType : MeasurementField} {value : V}
    {time : Nat} {k i : Fin MEASUREMENT_STORE_TABLE_SIZE} (h : AddLaw t t' deviceId fieldType value time k)
    (hlimit : t.limits.2 = 1) (hi : (t'.store.table i).InSeries deviceId fieldType) : i = k := by
  have hlimit : t.store.maxCount.toNat = 1 := hlimit
  have hcount := h.capped fun h0 => absurd (h0 ▸ hlimit) (by decide)
  rw [hlimit, seriesCount_eq_card, Finset.card_le_one] at hcount
  refine hcount i (Finset.mem_filter.2 ⟨Finset.mem_univ i, hi⟩) k (Finset.mem_filter.2 ⟨Finset.mem_univ k, ?_⟩)
  rw [h.stored]
  exact ⟨rfl, rfl⟩

/-- The ones it had before are gone. -/
theorem AddLaw.replaces {t : StoreTrace V} {deviceId : UInt32}
    {fieldType : MeasurementField} {value : V} {time : Nat} {k i : Fin MEASUREMENT_STORE_TABLE_SIZE}
    (h : AddLaw t (t.step (.add deviceId fieldType value time)) deviceId fieldType value time k)
    (hslot : (StoreOp.add deviceId fieldType value time).slot t.store = some k) (hlimit : t.limits.2 = 1)
    (hu : (t.store.table i).InUse) (hi : (t.store.table i).InSeries deviceId fieldType) :
    t.store.table i ∈ (t.step (.add deviceId fieldType value time)).dropped := by
  refine mem_dropped (mem_removedSlots.2 ⟨hu, ?_⟩)
  by_cases hik : i = k
  · exact .inl (hik ▸ hslot.symm)
  · refine .inr fun hleft => hik (h.only hlimit ?_)
    have hkept := (step_inUse t _ hleft).resolve_left fun h' => hik (Option.some.inj (h'.1.trans hslot))
    rw [hkept.2]
    exact hi

/-- The second measurement takes the place of the first. -/
theorem eviction_law_twoAdds :
    let t := run StoreTrace.step (.init 0) twoAdds
    EveryStep StoreTrace.step EvictionStep (.init 0) twoAdds ∧ t.limits = (60000, 1) ∧
      KeepsNewest MeasurementEntry.series MeasurementEntry.time {d | d ∈ t.dropped} t.stored ∧
      ⟨7, .humidity, 40, 10⟩ ∈ t.dropped ∧ ⟨7, .humidity, 41, 20⟩ ∈ t.stored := by
  obtain ⟨hsteps, hlimits, hnewest⟩ := eviction_law (Nat.two_pow_pos 32) twoAdds_inTime
  refine ⟨hsteps, hlimits 3, hnewest, ?_⟩
  obtain ⟨-, hfirst, hsecond, -⟩ := hsteps
  obtain ⟨i, -, hfirst⟩ := hfirst 7 .humidity 40 10 rfl (by decide)
  obtain ⟨j, hslot, hsecond⟩ := hsecond 7 .humidity 41 20 rfl (by decide)
  have hbefore := hfirst.stored
  have hrun : run StoreTrace.step (.init 0) twoAdds =
      ((StoreTrace.step (.init 0) (.configure 60 1)).step (.add 7 .humidity 40 10)).step
        (.add 7 .humidity 41 20) := rfl
  rw [hrun]
  refine ⟨?_, mem_stored hsecond.stored MeasurementField.noConfusion⟩
  have hgone := hsecond.replaces (i := i) hslot (congrArg Prod.snd (hlimits 2))
  rw [hbefore] at hgone
  exact hgone MeasurementField.noConfusion ⟨rfl, rfl⟩
end

end BLEBridge
