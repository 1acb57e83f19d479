import BLEBridge.Lib.Slots
import BLEBridge.NarodmonPayload
/-!
# What the loops of the narodmon payload write

The state of the first loop is a function of the entries it has passed
(`metricsAfter`), as long as there is room for every line. The second loop then
writes a line for each device.
-/
open Lib

namespace BLEBridge

variable {V : Type}

/-- The entries of the view in use, in its order. -/
def usedView (view : MeasurementView V) : List (MeasurementViewEntry V) :=
  ((List.finRange MEASUREMENT_STORE_VIEW_SIZE).map view).filter (·.inUse)

/-- The devices of the entries, in their order; no more than the payload has room for. -/
def narodmonDevices (entries : List (MeasurementViewEntry V)) : List UInt32 :=
  firstDistinct NARODMON_MAX_DEVICES (entries.map MeasurementViewEntry.deviceId)

/-- The entries of these devices. -/
def exported (entries : List (MeasurementViewEntry V)) : List (MeasurementViewEntry V) :=
  entries.filter fun e => e.deviceId ∈ narodmonDevices entries

/-- The largest sample count of a device. -/
def maxSamples (entries : List (MeasurementViewEntry V)) (deviceId : UInt32) : Nat :=
  ((entries.filter fun e => e.deviceId = deviceId).map fun e => e.sampleCount.toNat).foldl max 0

def entryLine (fixed : Nat → V → Bytes) (e : MeasurementViewEntry V) : Bytes :=
  match metricPrefix e.fieldType with
  | none => []
  | some metricPrefix => metricLine fixed metricPrefix e

/-- An entry that the view holds when it is in use. -/
structure Counted (e : MeasurementViewEntry V) : Prop where
  inUse : e.inUse = true
  field : e.fieldType ≠ .none
  count : e.sampleCount ≠ 0

theorem maxSamples_concat (es : List (MeasurementViewEntry V)) (e : MeasurementViewEntry V) (d : UInt32) :
    maxSamples (es ++ [e]) d = if e.deviceId = d then max (maxSamples es d) e.sampleCount.toNat
      else maxSamples es d := by
  unfold maxSamples
  rw [List.filter_append]
  split
  · rename_i h
    simp [h]
  · rename_i h
    simp [h]

theorem maxSamples_zero {es : List (MeasurementViewEntry V)} {d : UInt32}
    (h : d ∉ es.map MeasurementViewEntry.deviceId) : maxSamples es d = 0 := by
  unfold maxSamples
  rw [List.filter_eq_nil_iff.2]
  · rfl
  · intro e he hd
    exact h (of_decide_eq_true hd ▸ List.mem_map_of_mem he)

theorem maxSamples_lt (es : List (MeasurementViewEntry V)) (d : UInt32) : maxSamples es d < 65536 := by
  induction es using List.reverseRecOn with
  | nil => exact Nat.zero_lt_succ _
  | append_singleton es e ih =>
    have := e.sampleCount.toNat_lt
    rw [maxSamples_concat]
    split
    · omega
    · exact ih

theorem le_maxSamples {es : List (MeasurementViewEntry V)} {e : MeasurementViewEntry V} (he : e ∈ es) :
    e.sampleCount.toNat ≤ maxSamples es e.deviceId := by
  induction es using List.reverseRecOn with
  | nil => exact absurd he List.not_mem_nil
  | append_singleton es e' ih =>
    rw [maxSamples_concat]
    rcases List.mem_append.1 he with h | h
    · have := ih h
      split
      · omega
      · exact this
    · rw [List.mem_singleton.1 h, if_pos rfl]
      exact le_max_right _ _

/-! ## The signal entries -/

/-- The entry of a device. -/
def signalOf (es : List (MeasurementViewEntry V)) (d : UInt32) : NarodmonSignalEntry :=
  ⟨true, d, UInt16.ofNat (maxSamples es d)⟩

/-- The signal entries when these devices have been met. -/
def signalsOf (devices : List UInt32) (es : List (MeasurementViewEntry V)) : NarodmonSignals := fun j =>
  (devices.map (signalOf es))[j.val]?.getD ⟨false, 0, 0⟩

variable {devices : List UInt32} {es : List (MeasurementViewEntry V)} {d : UInt32}
    {j : Fin MEASUREMENT_STORE_VIEW_SIZE}

theorem signalsOf_some (h : devices[j.val]? = some d) : signalsOf devices es j = signalOf es d := by
  unfold signalsOf
  rw [List.getElem?_map, h]
  rfl

theorem signalsOf_none (h : devices[j.val]? = none) : signalsOf devices es j = ⟨false, 0, 0⟩ := by
  unfold signalsOf
  rw [List.getElem?_map, h]
  rfl

theorem signalsOf_match (j : Fin MEASUREMENT_STORE_VIEW_SIZE) :
    ((signalsOf devices es j).inUse && (signalsOf devices es j).deviceId = d) = true ↔
      devices[j.val]? = some d := by
  cases h : devices[j.val]? with
  | none => simp [signalsOf_none h]
  | some d' => simp [signalsOf_some h, signalOf]

theorem signalsOf_free (j : Fin MEASUREMENT_STORE_VIEW_SIZE) :
    (!(signalsOf devices es j).inUse) = true ↔ devices.length ≤ j.val := by
  cases h : devices[j.val]? with
  | none => exact iff_of_true (by rw [signalsOf_none h]; rfl) (List.getElem?_eq_none_iff.1 h)
  | some d' =>
    have hlt := (List.getElem?_eq_some_iff.1 h).1
    exact iff_of_false (by rw [signalsOf_some h]; exact Bool.false_ne_true) (by omega)

theorem signalsOf_concat (hnew : d ∉ es.map MeasurementViewEntry.deviceId) (hj : j.val = devices.length) :
    Function.update (signalsOf devices es) j ⟨true, d, 0⟩ = signalsOf (devices ++ [d]) es := by
  funext i
  by_cases hi : i = j
  · rw [hi, Function.update_self, signalsOf_some (by rw [hj, List.getElem?_concat_length])]
    unfold signalOf
    rw [maxSamples_zero hnew]
    rfl
  · rw [Function.update_of_ne hi]
    unfold signalsOf
    rw [List.getElem?_map, List.getElem?_map, getElem?_concat_ne fun h => hi (Fin.ext (h.trans hj.symm))]

/-- The entry of the device takes the larger count, the others stay. -/
theorem signalsOf_update {e : MeasurementViewEntry V} (hn : devices.Nodup)
    (h : devices[j.val]? = some e.deviceId) :
    (if e.sampleCount > (signalsOf devices es j).maxSamples then
      Function.update (signalsOf devices es) j { signalsOf devices es j with maxSamples := e.sampleCount }
      else signalsOf devices es) = signalsOf devices (es ++ [e]) := by
  have hlt := maxSamples_lt es e.deviceId
  have hof : (UInt16.ofNat (maxSamples es e.deviceId)).toNat = maxSamples es e.deviceId :=
    UInt16.toNat_ofNat_of_lt' hlt
  have hat : signalsOf devices (es ++ [e]) j =
      ⟨true, e.deviceId, UInt16.ofNat (max (maxSamples es e.deviceId) e.sampleCount.toNat)⟩ := by
    rw [signalsOf_some h]
    unfold signalOf
    rw [maxSamples_concat, if_pos rfl]
  have hother : ∀ i, i ≠ j → signalsOf devices (es ++ [e]) i = signalsOf devices es i := by
    intro i hi
    cases hd : devices[i.val]? with
    | none => rw [signalsOf_none hd, signalsOf_none hd]
    | some d =>
      rw [signalsOf_some hd, signalsOf_some hd]
      unfold signalOf
      rw [maxSamples_concat, if_neg]
      rintro rfl
      obtain ⟨hil, hie⟩ := List.getElem?_eq_some_iff.1 hd
      obtain ⟨hjl, hje⟩ := List.getElem?_eq_some_iff.1 h
      exact hi (Fin.ext (hn.getElem_inj_iff.1 (hie.trans hje.symm)))
  have hmax : (signalsOf devices es j).maxSamples = UInt16.ofNat (maxSamples es e.deviceId) := by
    rw [signalsOf_some h]
    rfl
  rw [hmax]
  funext i
  by_cases hi : i = j
  · rw [hi, hat]
    split
    · rename_i hgt
      rw [gt_iff_lt, UInt16.lt_iff_toNat_lt, hof] at hgt
      rw [Function.update_self, signalsOf_some h, max_eq_right hgt.le, UInt16.ofNat_toNat]
      rfl
    · rename_i hle
      rw [gt_iff_lt, UInt16.lt_iff_toNat_lt, hof] at hle
      rw [signalsOf_some h, max_eq_left (by omega)]
      rfl
  · rw [hother i hi]
    split
    · exact Function.update_of_ne hi _ _
    · rfl

theorem signalsOf_other {e : MeasurementViewEntry V} (h : e.deviceId ∉ devices) :
    signalsOf devices (es ++ [e]) = signalsOf devices es := by
  unfold signalsOf
  have hmap : devices.map (signalOf (es ++ [e])) = devices.map (signalOf es) := by
    refine List.map_congr_left fun d hd => ?_
    unfold signalOf
    rw [maxSamples_concat, if_neg]
    rintro rfl
    exact h hd
  rw [hmap]

theorem findOrAdd_known (hn : devices.Nodup) (h : devices[j.val]? = some d) (count : Nat) :
    narodmonFindOrAddSignalEntry (signalsOf devices es) count d = (some j, signalsOf devices es) := by
  unfold narodmonFindOrAddSignalEntry
  dsimp only
  rw [find_key signalsOf_match hn h]

theorem findOrAdd_full (h : d ∉ devices) (hl : devices.length < MEASUREMENT_STORE_VIEW_SIZE) {count : Nat}
    (hc : count ≥ NARODMON_MAX_DEVICES) :
    narodmonFindOrAddSignalEntry (signalsOf devices es) count d = (none, signalsOf devices es) := by
  unfold narodmonFindOrAddSignalEntry
  dsimp only
  rw [find_key_none signalsOf_match h, find_free (i := ⟨_, hl⟩) signalsOf_free rfl]
  dsimp only
  rw [if_pos hc]

theorem findOrAdd_new (h : d ∉ devices) (hnew : d ∉ es.map MeasurementViewEntry.deviceId)
    (hj : j.val = devices.length) {count : Nat} (hc : count < NARODMON_MAX_DEVICES) :
    narodmonFindOrAddSignalEntry (signalsOf devices es) count d = (some j, signalsOf (devices ++ [d]) es) := by
  unfold narodmonFindOrAddSignalEntry
  dsimp only
  rw [find_key_none signalsOf_match h, find_free signalsOf_free hj]
  dsimp only
  rw [if_neg (not_le.2 hc), signalsOf_concat hnew hj]

/-! ## The loop over the view -/

theorem narodmonDevices_concat (es : List (MeasurementViewEntry V)) (e : MeasurementViewEntry V) :
    narodmonDevices (es ++ [e]) = if e.deviceId ∈ narodmonDevices es ∨
      NARODMON_MAX_DEVICES ≤ (narodmonDevices es).length then
      narodmonDevices es else narodmonDevices es ++ [e.deviceId] := by
  unfold narodmonDevices
  rw [List.map_append, List.map_singleton, firstDistinct_concat]

theorem exported_concat (es : List (MeasurementViewEntry V)) (e : MeasurementViewEntry V) :
    exported (es ++ [e]) = if e.deviceId ∈ narodmonDevices (es ++ [e]) then exported es ++ [e]
      else exported es := by
  have hsame : es.filter (fun e' => e'.deviceId ∈ narodmonDevices (es ++ [e])) = exported es := by
    refine List.filter_congr fun e' he' => decide_eq_decide.2 ?_
    rw [narodmonDevices_concat]
    split
    · rfl
    · rename_i h
      push Not at h
      have hnew := not_mem_of_not_mem_firstDistinct h.1 h.2
      rw [List.mem_append, List.mem_singleton]
      exact or_iff_left fun heq => hnew (heq ▸ List.mem_map_of_mem he')
  rw [exported, List.filter_append, hsame]
  split
  · rename_i h
    simp [h]
  · rename_i h
    simp [h]

/-- The variables of the loop after these entries. -/
def metricsAfter (fixed : Nat → V → Bytes) (text : Bytes) (es : List (MeasurementViewEntry V)) :
    NarodmonMetrics where
  text := text ++ (exported es).flatMap (entryLine fixed)
  signals := signalsOf (narodmonDevices es) es
  exportedSignalDevices := (narodmonDevices es).length
  hasSensorMetrics := !es.isEmpty

theorem appendLine_fits {insertLen : Nat} {text line : Bytes} (h : text.length + line.length < insertLen) :
    appendLine insertLen text line = some (text ++ line) := if_neg (by omega)

theorem exported_length_le (es : List (MeasurementViewEntry V)) : (exported es).length ≤ es.length :=
  List.length_filter_le _ _

theorem length_flatMap_le {E : Type} {f : E → Bytes} {l : List E} {k : Nat} (h : ∀ e ∈ l, (f e).length ≤ k) :
    (l.flatMap f).length ≤ l.length * k := by
  induction l with
  | nil => exact Nat.zero_le _
  | cons e l ih =>
    have h1 := h e List.mem_cons_self
    have h2 := ih fun e' he' => h e' (List.mem_cons_of_mem _ he')
    rw [List.flatMap_cons, List.length_append, List.length_cons, Nat.add_mul, Nat.one_mul]
    omega

/-- The variables after an entry whose line was written. -/
theorem metricsAfter_concat {fixed : Nat → V → Bytes} {text : Bytes} {e : MeasurementViewEntry V}
    (hmem : e.deviceId ∈ narodmonDevices (es ++ [e])) :
    metricsAfter fixed text (es ++ [e]) = ⟨(metricsAfter fixed text es).text ++ entryLine fixed e,
      signalsOf (narodmonDevices (es ++ [e])) (es ++ [e]), (narodmonDevices (es ++ [e])).length, true⟩ := by
  unfold metricsAfter
  rw [exported_concat, if_pos hmem, List.flatMap_append, List.flatMap_singleton, ← List.append_assoc]
  simp

theorem entryLine_eq (fixed : Nat → V → Bytes) {e : MeasurementViewEntry V} (he : e.fieldType ≠ .none) :
    ∃ p, metricPrefix e.fieldType = some p ∧ entryLine fixed e = metricLine fixed p e := by
  unfold entryLine
  cases hf : e.fieldType with
  | none => exact absurd hf he
  | battery | temperature | humidity | oneWireTemperature => exact ⟨_, rfl, rfl⟩

/-- The line of an entry with a place among the devices is written. -/
theorem metricStep_write {fixed : Nat → V → Bytes} {insertLen : Nat} {text : Bytes} {e : MeasurementViewEntry V}
    {signals : NarodmonSignals} (he : Counted e)
    (hroom : (metricsAfter fixed text es).text.length + (entryLine fixed e).length < insertLen)
    (hfind : narodmonFindOrAddSignalEntry (metricsAfter fixed text es).signals
      (metricsAfter fixed text es).exportedSignalDevices e.deviceId = (some j, signals))
    (hsignals : signals = signalsOf devices es) (hn : devices.Nodup) (hj : devices[j.val]? = some e.deviceId)
    (hdevices : narodmonDevices (es ++ [e]) = devices)
    (hcount : (if (signals j).maxSamples = 0 then (metricsAfter fixed text es).exportedSignalDevices + 1
      else (metricsAfter fixed text es).exportedSignalDevices) = devices.length)
    (view : List (MeasurementViewEntry V)) :
    narodmonMetricLoop fixed insertLen (e :: view) (metricsAfter fixed text es) =
      narodmonMetricLoop fixed insertLen view (metricsAfter fixed text (es ++ [e])) := by
  obtain ⟨p, hp, hline⟩ := entryLine_eq fixed he.field
  have hmem : e.deviceId ∈ narodmonDevices (es ++ [e]) := hdevices ▸ List.mem_of_getElem? hj
  rw [metricsAfter_concat hmem, narodmonMetricLoop, he.inUse, Bool.not_true, if_neg Bool.false_ne_true, hfind]
  dsimp only
  rw [hp]
  dsimp only
  rw [← hline, appendLine_fits hroom]
  dsimp only
  rw [hcount, hsignals, signalsOf_update hn hj, hdevices]

/-- One entry, when there is room for its line. -/
theorem metricStep {fixed : Nat → V → Bytes} {insertLen : Nat}
    {text : Bytes} {e : MeasurementViewEntry V} (he : Counted e) (hes : ∀ e' ∈ es, e'.sampleCount ≠ 0)
    (hroom : (metricsAfter fixed text es).text.length + (entryLine fixed e).length < insertLen)
    (view : List (MeasurementViewEntry V)) :
    narodmonMetricLoop fixed insertLen (e :: view) (metricsAfter fixed text es) =
      narodmonMetricLoop fixed insertLen view (metricsAfter fixed text (es ++ [e])) := by
  have hn : (narodmonDevices es).Nodup := nodup_firstDistinct _ _
  have hle : (narodmonDevices es).length ≤ NARODMON_MAX_DEVICES := length_firstDistinct_le _ _
  have hlt : (narodmonDevices es).length < MEASUREMENT_STORE_VIEW_SIZE := hle.trans_lt (by decide)
  have hconcat := narodmonDevices_concat es e
  by_cases hd : e.deviceId ∈ narodmonDevices es
  · -- a device met before: it has a count already
    rw [if_pos (.inl hd)] at hconcat
    obtain ⟨i, hi⟩ := List.mem_iff_getElem?.1 hd
    have hil := (List.getElem?_eq_some_iff.1 hi).1
    refine metricStep_write (j := ⟨i, hil.trans hlt⟩) he hroom (findOrAdd_known hn hi _) rfl hn hi hconcat ?_ view
    rw [if_neg]
    · rfl
    · rw [signalsOf_some hi]
      obtain ⟨e', he', hd'⟩ := List.mem_map.1 (mem_of_mem_firstDistinct hd)
      have hpos : e'.sampleCount.toNat ≠ 0 := fun h0 => hes e' he' (UInt16.toNat_inj.1 h0)
      have hmax := le_maxSamples he'
      rw [hd'] at hmax
      intro h0
      have hof := congrArg UInt16.toNat h0
      have hback : (UInt16.ofNat (maxSamples es e.deviceId)).toNat = maxSamples es e.deviceId :=
        UInt16.toNat_ofNat_of_lt' (maxSamples_lt es _)
      unfold signalOf at hof
      rw [hback] at hof
      exact hpos (Nat.le_zero.1 (hmax.trans hof.le))
  · by_cases hfull : NARODMON_MAX_DEVICES ≤ (narodmonDevices es).length
    · -- no place for another device
      rw [if_pos (.inr hfull)] at hconcat
      have hafter : metricsAfter fixed text (es ++ [e]) = metricsAfter fixed text es := by
        have hne : es ≠ [] := by
          rintro rfl
          exact absurd (show NARODMON_MAX_DEVICES ≤ 0 from hfull) (by decide)
        have hany : (es ++ [e]).isEmpty = es.isEmpty := by
          rw [List.isEmpty_eq_false_iff.2 hne,
            List.isEmpty_eq_false_iff.2 (List.append_ne_nil_of_left_ne_nil hne _)]
        unfold metricsAfter
        rw [exported_concat, hconcat, if_neg hd, signalsOf_other hd, hany]
      have hfind : narodmonFindOrAddSignalEntry (signalsOf (narodmonDevices es) es)
        (narodmonDevices es).length e.deviceId =
          (none, signalsOf (narodmonDevices es) es) := findOrAdd_full hd hlt hfull
      rw [hafter, narodmonMetricLoop, he.inUse, Bool.not_true, if_neg Bool.false_ne_true]
      unfold metricsAfter
      dsimp only
      rw [hfind]
    · have hlt' := Nat.not_le.1 hfull
      have hnew := not_mem_of_not_mem_firstDistinct hd hlt'
      rw [if_neg (not_or.2 ⟨hd, hfull⟩)] at hconcat
      have hn' : (narodmonDevices es ++ [e.deviceId]).Nodup := hconcat ▸ nodup_firstDistinct _ _
      refine metricStep_write (j := ⟨_, hlt⟩) he hroom (findOrAdd_new hd hnew rfl hlt') rfl hn'
        List.getElem?_concat_length hconcat ?_ view
      rw [signalsOf_some (j := ⟨_, hlt⟩) List.getElem?_concat_length]
      unfold signalOf
      rw [maxSamples_zero hnew, List.length_append]
      exact if_pos rfl

/-- The loop, when there is room for the lines of all entries. -/
theorem metricLoop_eq {fixed : Nat → V → Bytes} {insertLen k : Nat} {text : Bytes}
    (view es : List (MeasurementViewEntry V))
    (hview : ∀ e ∈ view, e.inUse = true → Counted e ∧ (entryLine fixed e).length ≤ k)
    (hes : ∀ e ∈ es, e.sampleCount ≠ 0 ∧ (entryLine fixed e).length ≤ k)
    (hroom : text.length + (es.length + view.length) * k < insertLen) :
    narodmonMetricLoop fixed insertLen view (metricsAfter fixed text es) =
      metricsAfter fixed text (es ++ view.filter (·.inUse)) := by
  induction view generalizing es with
  | nil => rw [List.filter_nil, List.append_nil]; rfl
  | cons e view ih =>
    have hview' : ∀ e' ∈ view, e'.inUse = true → Counted e' ∧ (entryLine fixed e').length ≤ k := fun e' h =>
      hview e' (List.mem_cons_of_mem _ h)
    rw [List.length_cons] at hroom
    by_cases hu : e.inUse = true
    · obtain ⟨hcounted, hline⟩ := hview e List.mem_cons_self hu
      have hlines : ((exported es).flatMap (entryLine fixed)).length ≤ es.length * k :=
        (length_flatMap_le fun e' he' => (hes e' (List.mem_of_mem_filter he')).2).trans
          (Nat.mul_le_mul_right k (exported_length_le es))
      have hsplit : (es.length + (view.length + 1)) * k = es.length * k + k + view.length * k := by
        rw [← Nat.add_assoc, Nat.add_right_comm, Nat.add_mul, Nat.add_mul, Nat.one_mul]
      have htext : (metricsAfter fixed text es).text.length = text.length +
          ((exported es).flatMap (entryLine fixed)).length :=
        List.length_append
      rw [metricStep hcounted (fun e' he' => (hes e' he').1) (by omega), ih (es ++ [e]) hview' ?_ ?_,
        List.filter_cons_of_pos hu, List.append_assoc, List.singleton_append]
      · intro e' he'
        rcases List.mem_append.1 he' with h | h
        · exact hes e' h
        · rw [List.mem_singleton.1 h]
          exact ⟨hcounted.count, hline⟩
      · rw [List.length_append, List.length_singleton, Nat.add_assoc, Nat.add_comm 1]
        exact hroom
    · have hskip : narodmonMetricLoop fixed insertLen (e :: view) (metricsAfter fixed text es) =
          narodmonMetricLoop fixed insertLen view (metricsAfter fixed text es) := by
        rw [narodmonMetricLoop, Bool.eq_false_iff.2 hu]
        rfl
      rw [hskip, ih es hview' hes ?_, List.filter_cons_of_neg hu]
      have := Nat.mul_le_mul_right k (show es.length + view.length ≤ es.length + (view.length + 1) by omega)
      omega

/-! ## The loop over the signal entries -/

theorem signalLoop_eq {insertLen : Nat} (entries : List NarodmonSignalEntry) (text : Bytes)
    (hroom : text.length + ((entries.filter NarodmonSignalEntry.inUse).flatMap fun e =>
      signalLine e.deviceId e.maxSamples).length < insertLen) :
    narodmonSignalLoop insertLen entries text =
      text ++ (entries.filter NarodmonSignalEntry.inUse).flatMap fun e => signalLine e.deviceId e.maxSamples := by
  induction entries generalizing text with
  | nil => rw [List.filter_nil, List.flatMap_nil, List.append_nil]; rfl
  | cons e entries ih =>
    by_cases hu : e.inUse = true
    · rw [List.filter_cons_of_pos hu, List.flatMap_cons, List.length_append] at hroom
      rw [narodmonSignalLoop, hu, Bool.not_true, if_neg Bool.false_ne_true, appendLine_fits (by omega)]
      dsimp only
      rw [ih _ (by rw [List.length_append]; omega), List.filter_cons_of_pos hu, List.flatMap_cons,
        List.append_assoc]
    · rw [List.filter_cons_of_neg hu] at hroom ⊢
      rw [narodmonSignalLoop, Bool.eq_false_iff.2 hu]
      exact ih text hroom

/-- The signal entries in use are those of the devices. -/
theorem used_signalsOf (hl : devices.length ≤ MEASUREMENT_STORE_VIEW_SIZE) (es : List (MeasurementViewEntry V)) :
    ((List.finRange MEASUREMENT_STORE_VIEW_SIZE).map (signalsOf devices es)).filter
    NarodmonSignalEntry.inUse = devices.map (signalOf es) := by
  have hmap : (List.finRange MEASUREMENT_STORE_VIEW_SIZE).map (signalsOf devices es) =
    devices.map (signalOf es) ++
      List.replicate (MEASUREMENT_STORE_VIEW_SIZE - (devices.map (signalOf es)).length) ⟨false, 0, 0⟩ :=
    map_finRange_getD _ (by rwa [List.length_map])
  rw [hmap, List.filter_append, List.filter_eq_self.2, List.filter_eq_nil_iff.2, List.append_nil]
  · intro e he
    rw [List.eq_of_mem_replicate he]
    exact Bool.false_ne_true
  · intro e he
    obtain ⟨d, -, rfl⟩ := List.mem_map.1 he
    rfl

end BLEBridge
