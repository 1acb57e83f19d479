import BLEBridge.BleDeviceTable
import BLEBridge.Bthome
import BLEBridge.MeasurementTable
/-!
# What a BTHome advertisement means

The readings of a payload, defined on its bytes from the left to the right
(`bthomeReference`), and that the parser stores exactly these.
-/
open Lib

namespace BLEBridge

/-! ## The meaning of a payload -/

/-- A structure of the payload. -/
structure AdStructure where
  type : UInt8
  data : Bytes
  deriving DecidableEq

/-- The longest well-formed start of a payload: each structure is its length, its
type and its data. -/
def adStructures : Bytes → List AdStructure
  | len :: type :: rest =>
    if len = 0 ∨ rest.length + 1 < len.toNat then []
    else ⟨type, rest.take (len.toNat - 1)⟩ :: adStructures (rest.drop (len.toNat - 1))
  | _ => []
termination_by payload => payload.length
decreasing_by simp only [List.length_cons, List.length_drop]; omega

/-- Service data with UUID 0xFCD2. -/
def AdStructure.isBthome (s : AdStructure) : Bool := s.type = 0x16 && s.data.take 2 = [0xD2, 0xFC]

section
variable {V : Type} [NatCast V] [IntCast V] [Div V]

/-- The readings up to the first unknown or truncated object. -/
def bthomeReadings : Bytes → List (MeasurementField × V)
  | 0x00 :: _ :: rest => bthomeReadings rest
  | 0x01 :: b :: rest => (.battery, batteryValue b) :: bthomeReadings rest
  | 0x02 :: lo :: hi :: rest => (.temperature, temperatureValue (littleEndian16 lo hi)) :: bthomeReadings rest
  | 0x03 :: lo :: hi :: rest => (.humidity, humidityValue (littleEndian16 lo hi)) :: bthomeReadings rest
  | _ => []

/-- The objects of BTHome data of version 2 that is not encrypted. -/
def bthomeObjects (data : Bytes) : Bytes :=
  match data.drop 2 with
  | info :: objects => if info &&& 0xE0 = 0x40 ∧ info &&& 0x01 = 0 then objects else []
  | [] => []

def bthomeReference (payload : Bytes) : List (MeasurementField × V) :=
  match (adStructures payload).find? AdStructure.isBthome with
  | none => []
  | some s => bthomeReadings (bthomeObjects s.data)
end

/-! ## Windows of the payload -/

/-- The bytes from `start` to before `stop`. -/
def window (data : Bytes) (start stop : Nat) : Bytes := (data.drop start).take (stop - start)

theorem window_nil (data : Bytes) {start stop : Nat} (h : stop ≤ start) : window data start stop = [] := by
  unfold window
  rw [Nat.sub_eq_zero_of_le h, List.take_zero]

theorem length_window_lt (data : Bytes) (start stop k : Nat) (h : stop < start + k) (hk : 0 < k) :
    (window data start stop).length < k := by
  unfold window
  rw [List.length_take]
  omega

theorem window_cons (data : Bytes) (start stop : Nat) (h : start < stop) (hs : stop ≤ data.length) :
    ∃ b, data[start]? = some b ∧ window data start stop = b :: window data (start + 1) stop := by
  have hlt : start < data.length := by omega
  refine ⟨data[start], List.getElem?_eq_getElem hlt, ?_⟩
  unfold window
  rw [List.drop_eq_getElem_cons hlt, show stop - start = stop - (start + 1) + 1 by omega, List.take_succ_cons]

theorem window_read16 (data : Bytes) (start stop : Nat) (h : start + 2 ≤ stop) (hs : stop ≤ data.length) :
    ∃ lo hi, littleEndianRead16 data start = some (littleEndian16 lo hi) ∧
      window data start stop = lo :: hi :: window data (start + 2) stop := by
  obtain ⟨lo, hlo, hw⟩ := window_cons data start stop (by omega) hs
  obtain ⟨hi, hhi, hw'⟩ := window_cons data (start + 1) stop (by omega) hs
  refine ⟨lo, hi, ?_, by rw [hw, hw']⟩
  unfold littleEndianRead16
  rw [hlo, hhi]
  rfl

/-! ## Storing -/

section
variable {V : Type} (fixed : Nat → V → Bytes)

/-- What handing a reading to the store leaves. -/
def storeReading (timestampMs : UInt32) (p : BleParse V) (r : MeasurementField × V) : BleParse V :=
  (bleBthomeStoreMeasurement fixed r.1 r.2 timestampMs p).2

theorem storeMeasurement_eq {fieldType : MeasurementField} (hf : fieldType ≠ .none) (value : V)
    (timestampMs : UInt32) (p : BleParse V) : bleBthomeStoreMeasurement fixed fieldType value timestampMs p =
      (true, storeReading fixed timestampMs p (fieldType, value)) := by
  refine Prod.ext ?_ rfl
  unfold bleBthomeStoreMeasurement
  dsimp only
  cases p.context.allowMeasurements with
  | false => rfl
  | true =>
    obtain ⟨k, -, hadd⟩ := add_eq p.store
      (bleMeasurementAppendString fixed p.entry fieldType value).deviceId value timestampMs hf
    rw [Bool.not_true, if_neg Bool.false_ne_true, hadd]
    rfl

theorem append_deviceId (entry : BleDeviceEntry) (fieldType : MeasurementField) (value : V) :
    (bleMeasurementAppendString fixed entry fieldType value).deviceId = entry.deviceId := by
  have h (label text : Bytes) : (bleDeviceAppendBthomeValue entry label text).deviceId = entry.deviceId := by
    unfold bleDeviceAppendBthomeValue
    dsimp only
    split
    · rfl
    · rfl
  unfold bleMeasurementAppendString
  cases fieldType with
  | battery | temperature | humidity => exact h _ _
  | none | oneWireTemperature => rfl

/-- The readings go to the store in order if they may, and only then. -/
structure Handed (timestampMs : UInt32) (readings : List (MeasurementField × V)) (p p' : BleParse V) : Prop where
  parsedAny : p'.context.parsedAny = (p.context.parsedAny || !readings.isEmpty)
  allowed : p'.context.allowMeasurements = p.context.allowMeasurements
  deviceId : p'.entry.deviceId = p.entry.deviceId
  store : p'.store = if p.context.allowMeasurements then readings.foldl (fun store r =>
    (measurementStoreAdd p.entry.deviceId r.1 r.2 timestampMs store).2) p.store else p.store

theorem storeReading_handed (timestampMs : UInt32) (p : BleParse V) (r : MeasurementField × V)
    (hr : r.1 ≠ .none) : Handed timestampMs [r] p (storeReading fixed timestampMs p r) := by
  have hid := append_deviceId fixed p.entry r.1 r.2
  unfold storeReading bleBthomeStoreMeasurement
  dsimp only
  cases ha : p.context.allowMeasurements with
  | false => exact ⟨by simp, ha.symm, hid, by simp [ha]⟩
  | true =>
    obtain ⟨k, -, hadd⟩ := add_eq p.store p.entry.deviceId r.2 timestampMs hr
    rw [hid, Bool.not_true, if_neg Bool.false_ne_true, hadd]
    exact ⟨by simp, ha.symm, hid, by simp [ha, hadd]⟩

theorem storeAll_handed (timestampMs : UInt32) (readings : List (MeasurementField × V))
    (hr : ∀ r ∈ readings, r.1 ≠ .none) (p : BleParse V) :
    Handed timestampMs readings p (readings.foldl (storeReading fixed timestampMs) p) := by
  induction readings generalizing p with
  | nil => exact ⟨by simp, rfl, rfl, by simp⟩
  | cons r readings ih =>
    have h1 := storeReading_handed fixed timestampMs p r (hr r List.mem_cons_self)
    have h2 := ih (fun r' h => hr r' (List.mem_cons_of_mem _ h)) (storeReading fixed timestampMs p r)
    rw [List.foldl_cons]
    refine ⟨?_, h2.allowed.trans h1.allowed, h2.deviceId.trans h1.deviceId, ?_⟩
    · rw [h2.parsedAny, h1.parsedAny]
      simp
    · rw [h2.store, h1.allowed, h1.deviceId, h1.store]
      split
      · rfl
      · rfl
end

/-! ## The loops -/

section
variable {V : Type} [NatCast V] [IntCast V] [Div V] (fixed : Nat → V → Bytes) {timestampMs : UInt32}

theorem bthomeReadings_field (objects : Bytes) :
    ∀ r ∈ (bthomeReadings objects : List (MeasurementField × V)), r.1 ≠ .none := by
  fun_induction bthomeReadings (V := V) objects with
  | case1 _ rest ih => exact ih
  | case2 b rest ih | case3 lo hi rest ih | case4 lo hi rest ih =>
    intro r hr
    rcases List.mem_cons.1 hr with rfl | hr
    · exact MeasurementField.noConfusion
    · exact ih r hr
  | case5 => exact fun r hr => absurd hr List.not_mem_nil

theorem bthomeReadings_unknown {objectId : UInt8}
    (h0 : objectId ≠ 0) (h1 : objectId ≠ 1) (h2 : objectId ≠ 2) (h3 : objectId ≠ 3) (rest : Bytes) :
    (bthomeReadings (objectId :: rest) : List (MeasurementField × V)) = [] := by
  unfold bthomeReadings
  split
  · rename_i h; exact absurd (List.cons.inj h).1 h0
  · rename_i h; exact absurd (List.cons.inj h).1 h1
  · rename_i h; exact absurd (List.cons.inj h).1 h2
  · rename_i h; exact absurd (List.cons.inj h).1 h3
  · rfl

/-- A 16-bit object needs two bytes. -/
theorem bthomeReadings_short {objectId : UInt8} (h : objectId = 2 ∨ objectId = 3) {rest : Bytes}
    (hl : rest.length < 2) : (bthomeReadings (objectId :: rest) : List (MeasurementField × V)) = [] := by
  rcases h with rfl | rfl
  · match rest, hl with
    | [], _ => rfl
    | [_], _ => rfl
  · match rest, hl with
    | [], _ => rfl
    | [_], _ => rfl

/-- The loop hands over the readings of the bytes that are left. -/
theorem bthomeLoop_eq {data : Bytes} {base : Nat} {fieldDataLen : UInt8}
    (hfit : base + fieldDataLen.toNat ≤ data.length) (offset : Nat) (p : BleParse V) :
    let after := (bthomeReadings (window data (base + offset) (base + fieldDataLen.toNat))).foldl
      (storeReading fixed timestampMs) p
    bthomeLoop fixed data base fieldDataLen timestampMs offset p = some (after.context.parsedAny, after) := by
  have hbyte := fieldDataLen.toNat_lt
  induction hk : fieldDataLen.toNat - offset using Nat.strong_induction_on generalizing offset p with
  | _ k ih =>
    -- what is left after an object that ends before `next`
    have hnext : ∀ next, offset < next → next ≤ fieldDataLen.toNat →
      ∀ p, bthomeLoop fixed data base fieldDataLen timestampMs (next % 256) p =
        some (((bthomeReadings (window data (base + next) (base + fieldDataLen.toNat))).foldl
          (storeReading fixed timestampMs) p).context.parsedAny,
          (bthomeReadings (window data (base + next) (base + fieldDataLen.toNat))).foldl
            (storeReading fixed timestampMs) p) := by
      intro next h1 h2 p
      rw [Nat.mod_eq_of_lt (by omega)]
      exact ih (fieldDataLen.toNat - next) (by omega) next p rfl
    rw [bthomeLoop]
    by_cases h : offset < fieldDataLen.toNat
    · obtain ⟨objectId, hget, hwin⟩ :=
        window_cons data (base + offset) (base + fieldDataLen.toNat) (by omega) hfit
      rw [dif_pos h, hget, hwin, Nat.mod_eq_of_lt (show offset + 1 < 256 by omega)]
      simp only [Option.bind_eq_bind, Option.bind_some]
      by_cases h0 : objectId = 0
      · subst h0
        rw [if_pos rfl]
        by_cases hshort : offset + 1 + 1 > fieldDataLen.toNat
        · rw [if_pos hshort, window_nil data (by omega)]
          rfl
        · obtain ⟨b, -, hb⟩ := window_cons data (base + (offset + 1)) (base + fieldDataLen.toNat) (by omega) hfit
          rw [if_neg hshort, hnext _ (by omega) (by omega), Nat.add_assoc base, hb]
          rfl
      by_cases h1 : objectId = 1
      · subst h1
        rw [if_neg h0, if_pos rfl]
        by_cases hshort : offset + 1 + 1 > fieldDataLen.toNat
        · rw [if_pos hshort, window_nil data (by omega)]
          rfl
        · obtain ⟨b, hget, hb⟩ :=
            window_cons data (base + (offset + 1)) (base + fieldDataLen.toNat) (by omega) hfit
          rw [if_neg hshort, hget, Option.bind_some, storeMeasurement_eq fixed (by decide),
            Nat.add_assoc base, hb]
          exact hnext _ (by omega) (by omega) _
      by_cases h2 : objectId = 2
      · subst h2
        rw [if_neg h0, if_neg h1, if_pos rfl]
        by_cases hshort : offset + 1 + 2 > fieldDataLen.toNat
        · rw [if_pos hshort, bthomeReadings_short (by decide) (length_window_lt data _ _ 2 (by omega) (by omega))]
          rfl
        · obtain ⟨lo, hi, hget, hb⟩ :=
            window_read16 data (base + (offset + 1)) (base + fieldDataLen.toNat) (by omega) hfit
          rw [if_neg hshort, hget, Option.bind_some, storeMeasurement_eq fixed (by decide),
            Nat.add_assoc base, hb]
          exact hnext _ (by omega) (by omega) _
      by_cases h3 : objectId = 3
      · subst h3
        rw [if_neg h0, if_neg h1, if_neg h2, if_pos rfl]
        by_cases hshort : offset + 1 + 2 > fieldDataLen.toNat
        · rw [if_pos hshort, bthomeReadings_short (by decide) (length_window_lt data _ _ 2 (by omega) (by omega))]
          rfl
        · obtain ⟨lo, hi, hget, hb⟩ :=
            window_read16 data (base + (offset + 1)) (base + fieldDataLen.toNat) (by omega) hfit
          rw [if_neg hshort, hget, Option.bind_some, storeMeasurement_eq fixed (by decide),
            Nat.add_assoc base, hb]
          exact hnext _ (by omega) (by omega) _
      · rw [if_neg h0, if_neg h1, if_neg h2, if_neg h3, bthomeReadings_unknown h0 h1 h2 h3]
        rfl
    · rw [dif_neg h, window_nil data (by omega)]
      rfl

/-- The parser hands over the readings of the data, and says whether there is one. -/
theorem parseBthomeV2_eq {data : Bytes} {base : Nat} {fieldDataLen : UInt8}
    (hfit : base + fieldDataLen.toNat ≤ data.length) {p : BleParse V} (hany : p.context.parsedAny = false)
    (htext : p.entry.bthomeData = .copy _ []) :
    let after := (bthomeReadings (bthomeObjects (window data base (base + fieldDataLen.toNat)))).foldl
      (storeReading fixed timestampMs) p
    bleParseBthomeV2 fixed data base fieldDataLen timestampMs p = some (after.context.parsedAny, after) := by
  intro after
  unfold bleParseBthomeV2
  by_cases hlen : fieldDataLen < 3
  · have hdrop : (window data base (base + fieldDataLen.toNat)).drop 2 = [] := by
      have hl : fieldDataLen.toNat < 3 := UInt8.lt_iff_toNat_lt.1 hlen
      have := length_window_lt data base (base + fieldDataLen.toNat) 3 (by omega) (by omega)
      exact List.drop_eq_nil_of_le (by omega)
    have hafter : after = p := by
      unfold after bthomeObjects
      rw [hdrop]
      rfl
    rw [if_pos hlen, hafter, hany]
  · have hl : 3 ≤ fieldDataLen.toNat := UInt8.le_iff_toNat_le.1 (UInt8.not_lt.1 hlen)
    obtain ⟨b0, -, hw0⟩ := window_cons data base (base + fieldDataLen.toNat) (by omega) hfit
    obtain ⟨b1, -, hw1⟩ := window_cons data (base + 1) (base + fieldDataLen.toNat) (by omega) hfit
    obtain ⟨info, hinfo, hw2⟩ := window_cons data (base + 2) (base + fieldDataLen.toNat) (by omega) hfit
    have hobjects : bthomeObjects (window data base (base + fieldDataLen.toNat)) =
        if info &&& 0xE0 = 0x40 ∧ info &&& 0x01 = 0 then window data (base + 3) (base + fieldDataLen.toNat)
          else [] := by
      unfold bthomeObjects
      rw [hw0, hw1, hw2]
      rfl
    unfold after
    rw [if_neg hlen, hinfo, hobjects]
    simp only [Option.bind_eq_bind, Option.bind_some]
    by_cases hv : info &&& 0xE0 = 0x40
    · rw [if_neg (not_not.2 hv)]
      by_cases he : info &&& 0x01 = 0
      · have hp : { p with entry := { p.entry with bthomeData := .copy _ [] } } = p := by rw [← htext]
        rw [if_neg (not_not.2 he), if_pos ⟨hv, he⟩, hp]
        exact bthomeLoop_eq fixed hfit 3 p
      · rw [if_pos he, if_neg fun h => he h.2, ← hany]
        rfl
    · rw [if_pos hv, if_neg fun h => hv h.1, ← hany]
      rfl

theorem littleEndian16_eq_iff (lo hi : UInt8) : littleEndian16 lo hi = 0xFCD2 ↔ lo = 0xD2 ∧ hi = 0xFC := by
  have hlo := lo.toNat_lt
  have hhi := hi.toNat_lt
  unfold littleEndian16
  rw [← UInt16.toNat_inj, ← UInt8.toNat_inj, ← UInt8.toNat_inj,
    UInt16.toNat_ofNat_of_lt' (by simp [UInt16.size]; omega)]
  simp
  omega

/-- The structure a well-formed field is. -/
theorem adStructures_cons {payload : Bytes} {fieldLen fieldType : UInt8}
    {rest : Bytes} (hp : payload = fieldLen :: fieldType :: rest) (h0 : fieldLen ≠ 0)
    (hfit : fieldLen.toNat ≤ rest.length + 1) :
    adStructures payload = ⟨fieldType, rest.take (fieldLen.toNat - 1)⟩ ::
      adStructures (rest.drop (fieldLen.toNat - 1)) := by
  rw [hp, adStructures, if_neg]
  rintro (h | h)
  · exact h0 h
  · omega

theorem adStructures_stop {fieldLen : UInt8} {rest : Bytes} (h : fieldLen = 0 ∨ rest.length < fieldLen.toNat) :
    adStructures (fieldLen :: rest) = [] := by
  cases rest with
  | nil => rw [adStructures]; simp
  | cons fieldType rest =>
    rw [adStructures, if_pos]
    rwa [List.length_cons] at h

/-- What the parser returns when the structures left of the payload are these. -/
def bthomeResult (address : BdAddr) (timestampMs : UInt32) (p : BleParse V) (structures : List AdStructure) :
    Bool × BleParse V :=
  match structures.find? AdStructure.isBthome with
  | none => (false, p)
  | some s =>
    let after := (bthomeReadings (bthomeObjects s.data)).foldl (storeReading fixed timestampMs)
      { p with entry := { p.entry with deviceId := bleAddressToDeviceId address } }
    (after.context.parsedAny, after)

theorem isBthome_iff (fieldType : UInt8) (fieldData : Bytes) :
    AdStructure.isBthome ⟨fieldType, fieldData⟩ = true ↔
      fieldType = 0x16 ∧ ∃ rest, fieldData = 0xD2 :: 0xFC :: rest := by
  unfold AdStructure.isBthome
  rw [Bool.and_eq_true, decide_eq_true_eq, decide_eq_true_eq]
  refine and_congr Iff.rfl ?_
  match fieldData with
  | [] => simp
  | [_] => simp
  | lo :: hi :: rest => simp

theorem hasBthomeUuid_eq {data : Bytes} {base : Nat} {fieldDataLen : UInt8} (fieldType : UInt8)
    (hfit : base + fieldDataLen.toNat ≤ data.length) : hasBthomeUuid data base fieldType fieldDataLen =
      some (AdStructure.isBthome ⟨fieldType, window data base (base + fieldDataLen.toNat)⟩) := by
  unfold hasBthomeUuid
  by_cases h2 : fieldDataLen ≥ 2
  · have hl : 2 ≤ fieldDataLen.toNat := UInt8.le_iff_toNat_le.1 h2
    obtain ⟨lo, hi, hread, hwin⟩ := window_read16 data base (base + fieldDataLen.toNat) (by omega) hfit
    rw [hread, hwin, Option.map_some, ← apply_ite some]
    refine congrArg some (Bool.eq_iff_iff.2 ?_)
    rw [isBthome_iff]
    by_cases ht : fieldType = BLUETOOTH_DATA_TYPE_SERVICE_DATA
    · rw [if_pos ⟨ht, h2⟩, decide_eq_true_eq, littleEndian16_eq_iff]
      exact ⟨fun ⟨h, h'⟩ => ⟨ht, _, by rw [h, h']⟩,
        fun ⟨_, rest, h⟩ => ⟨(List.cons.inj h).1, (List.cons.inj (List.cons.inj h).2).1⟩⟩
    · rw [if_neg fun h => ht h.1]
      exact ⟨fun h => absurd h Bool.false_ne_true, fun h => absurd h.1 ht⟩
  · rw [if_neg fun h => h2 h.2]
    refine congrArg some (Eq.symm (Bool.eq_false_iff.2 fun h => ?_))
    obtain ⟨-, rest, hw⟩ := (isBthome_iff _ _).1 h
    have hl : fieldDataLen.toNat < 2 := UInt8.lt_iff_toNat_lt.1 (UInt8.not_le.1 h2)
    have := length_window_lt data base (base + fieldDataLen.toNat) 2 (by omega) (by omega)
    rw [hw] at this
    simp at this

/-- The loop behaves as the search for the first BTHome structure. -/
theorem advertisingLoop_eq {address : BdAddr} {data : Bytes} {length : UInt8}
    (hlen : data.length = length.toNat) (offset : Nat) {p : BleParse V} (hany : p.context.parsedAny = false)
    (htext : p.entry.bthomeData = .copy _ []) :
    advertisingLoop fixed address data length timestampMs offset p =
      some (bthomeResult fixed address timestampMs p (adStructures (data.drop offset))) := by
  have hbyte := length.toNat_lt
  induction hk : length.toNat - offset using Nat.strong_induction_on generalizing offset with
  | _ k ih =>
    rw [advertisingLoop]
    by_cases h : offset < length.toNat
    · have hlt : offset < data.length := by omega
      rw [dif_pos h, List.getElem?_eq_getElem hlt, List.drop_eq_getElem_cons hlt]
      generalize data[offset] = fieldLen
      simp only [Option.bind_eq_bind, Option.bind_some]
      by_cases h0 : fieldLen = 0
      · rw [if_pos h0, adStructures_stop (.inl h0)]
        rfl
      by_cases hover : offset + 1 + fieldLen.toNat > length.toNat
      · rw [if_neg h0, dif_pos hover, adStructures_stop (.inr (by rw [List.length_drop]; omega))]
        rfl
      have hpos : 0 < fieldLen.toNat := Nat.pos_of_ne_zero fun he => h0 (UInt8.toNat_inj.1 he)
      have hdataLen : (fieldLen - 1).toNat = fieldLen.toNat - 1 :=
        UInt8.toNat_sub_of_le _ _ (UInt8.le_iff_toNat_le.2 hpos)
      have hlt1 : offset + 1 < data.length := by omega
      rw [if_neg h0, dif_neg hover, List.getElem?_eq_getElem hlt1, List.drop_eq_getElem_cons hlt1]
      generalize data[offset + 1] = fieldType
      rw [adStructures_cons rfl h0 (by rw [List.length_drop]; omega), List.drop_drop,
        show offset + 1 + 1 + (fieldLen.toNat - 1) = offset + fieldLen.toNat + 1 by omega]
      have hwindow : (data.drop (offset + 1 + 1)).take (fieldLen.toNat - 1) =
          window data (offset + 2) (offset + 2 + (fieldLen - 1).toNat) := by
        unfold window
        rw [hdataLen, Nat.add_sub_cancel_left]
      rw [hwindow]
      simp only [Option.bind_some]
      have hfit : offset + 2 + (fieldLen - 1).toNat ≤ data.length := by omega
      rw [hasBthomeUuid_eq fieldType hfit, Option.bind_some]
      unfold bthomeResult
      cases hb : AdStructure.isBthome
        ⟨fieldType, window data (offset + 2) (offset + 2 + (fieldLen - 1).toNat)⟩ with
      | true =>
        rw [if_pos rfl, List.find?_cons_of_pos hb]
        exact parseBthomeV2_eq fixed hfit hany htext
      | false =>
        rw [if_neg Bool.false_ne_true, List.find?_cons_of_neg (by rw [hb]; exact Bool.false_ne_true)]
        -- the offset does not wrap: the field ends in the payload
        rw [Nat.mod_eq_of_lt (by omega)]
        exact ih (length.toNat - (offset + fieldLen.toNat + 1)) (by omega) (offset + fieldLen.toNat + 1) rfl
    · rw [dif_neg h, List.drop_eq_nil_of_le (by omega), adStructures]
      · rfl
      · simp

theorem parse_eq (allowedMacs : List (CString APP_CONFIG_ALLOWED_MAC_LEN))
    (entry : BleDeviceEntry) (address : BdAddr) {data : Bytes} (h : data.length ≤ 255) (timestampMs : UInt32)
    (store : MeasurementStore V) :
    ∃ entry', bleParseBthomeAdvertisingData fixed allowedMacs entry address data (UInt8.ofNat data.length)
      timestampMs store =
        some (!(bthomeReference data : List (MeasurementField × V)).isEmpty, entry',
        if macText address ∈ allowedMacs then (bthomeReference data).foldl (fun store r =>
          (measurementStoreAdd (bleAddressToDeviceId address) r.1 r.2 timestampMs store).2) store
          else store) := by
  have hlen : data.length = (UInt8.ofNat data.length).toNat :=
    (UInt8.toNat_ofNat_of_lt' (Nat.lt_succ_of_le h)).symm
  unfold bleParseBthomeAdvertisingData
  dsimp only
  rw [advertisingLoop_eq fixed hlen 0 rfl rfl, List.drop_zero]
  unfold bthomeResult bthomeReference
  cases hfind : (adStructures data).find? AdStructure.isBthome with
  | none => exact ⟨_, congrArg some (Prod.ext rfl (Prod.ext rfl (ite_self store).symm))⟩
  | some s =>
    have hall := storeAll_handed fixed timestampMs _ (bthomeReadings_field (V := V) (bthomeObjects s.data))
      ⟨⟨false, false, bleMacIsAllowed allowedMacs address⟩,
        { entry with bthomeData := .copy _ [], deviceId := bleAddressToDeviceId address }, store⟩
    refine ⟨_, congrArg some (Prod.ext hall.parsedAny (Prod.ext rfl (hall.store.trans ?_)))⟩
    exact if_congr (isAllowed_iff allowedMacs address) rfl rfl
end

/-! ## Encoding -/

/-- What a sensor sends: packet ids and readings. -/
inductive BthomeItem where
  | packetId (id : UInt8)
  | battery (percent : UInt8)
  | temperature (hundredths : Int16)
  | humidity (hundredths : UInt16)

def bytes16 (x : UInt16) : Bytes := [x.toUInt8, (x >>> 8).toUInt8]

def BthomeItem.encode : BthomeItem → Bytes
  | .packetId id => [0x00, id]
  | .battery percent => [0x01, percent]
  | .temperature hundredths => 0x02 :: bytes16 hundredths.toUInt16
  | .humidity hundredths => 0x03 :: bytes16 hundredths

def AdStructure.encode (s : AdStructure) : Bytes := UInt8.ofNat (s.data.length + 1) :: s.type :: s.data

/-- The structure a sensor sends its items in. -/
def bthomeStructure (info : UInt8) (items : List BthomeItem) : AdStructure :=
  ⟨0x16, 0xD2 :: 0xFC :: info :: items.flatMap BthomeItem.encode⟩

theorem littleEndian16_bytes (x : UInt16) : littleEndian16 x.toUInt8 (x >>> 8).toUInt8 = x := by
  have hx := x.toNat_lt
  unfold littleEndian16
  rw [← UInt16.toNat_inj, UInt16.toNat_ofNat', UInt16.toNat_toUInt8, UInt16.toNat_toUInt8,
    UInt16.toNat_shiftRight]
  simp [Nat.shiftRight_eq_div_pow]
  omega

section
variable {V : Type} [NatCast V] [IntCast V] [Div V]

def BthomeItem.reading : BthomeItem → Option (MeasurementField × V)
  | .packetId _ => none
  | .battery percent => some (.battery, (percent.toNat : V))
  | .temperature hundredths => some (.temperature, (hundredths.toInt : V) / ((100 : Nat) : V))
  | .humidity hundredths => some (.humidity, (hundredths.toNat : V) / ((100 : Nat) : V))

theorem readings_encode (items : List BthomeItem) :
    (bthomeReadings (items.flatMap BthomeItem.encode) : List (MeasurementField × V)) =
      items.filterMap BthomeItem.reading := by
  induction items with
  | nil => rfl
  | cons item items ih =>
    rw [List.flatMap_cons]
    cases item with
    | packetId id => exact ih
    | battery percent => exact congrArg _ ih
    | temperature hundredths =>
      have hread : temperatureValue
        (littleEndian16 hundredths.toUInt16.toUInt8 (hundredths.toUInt16 >>> 8).toUInt8) =
          (hundredths.toInt : V) / ((100 : Nat) : V) := by
        rw [littleEndian16_bytes]
        rfl
      exact congr (congrArg List.cons (congrArg (Prod.mk MeasurementField.temperature) hread)) ih
    | humidity hundredths =>
      have hread : humidityValue (littleEndian16 hundredths.toUInt8 (hundredths >>> 8).toUInt8) =
          (hundredths.toNat : V) / ((100 : Nat) : V) := by
        rw [littleEndian16_bytes]
        rfl
      exact congr (congrArg List.cons (congrArg (Prod.mk MeasurementField.humidity) hread)) ih
end

theorem adStructures_encode (s : AdStructure) (h : s.data.length < 255) (rest : Bytes) :
    adStructures (s.encode ++ rest) = s :: adStructures rest := by
  have hlen : (UInt8.ofNat (s.data.length + 1)).toNat = s.data.length + 1 :=
    UInt8.toNat_ofNat_of_lt' (Nat.succ_lt_succ h)
  have hshape : s.encode ++ rest = UInt8.ofNat (s.data.length + 1) :: s.type :: (s.data ++ rest) := rfl
  rw [adStructures_cons hshape]
  · rw [hlen, Nat.add_sub_cancel, List.take_left, List.drop_left]
  · intro h0
    rw [h0] at hlen
    simp at hlen
  · rw [hlen, List.length_append]
    omega

theorem find_encode {others : List AdStructure}
    {s : AdStructure} {rest : Bytes} (ho : ∀ o ∈ others, o.isBthome = false) (hs : s.isBthome = true)
    (hl : (others.flatMap AdStructure.encode ++ (s.encode ++ rest)).length ≤ 255) :
    (adStructures (others.flatMap AdStructure.encode ++ (s.encode ++ rest))).find? AdStructure.isBthome =
      some s := by
  induction others with
  | nil =>
    have hlen : s.data.length < 255 := by
      simp [AdStructure.encode] at hl
      omega
    rw [List.flatMap_nil, List.nil_append, adStructures_encode s hlen, List.find?_cons_of_pos hs]
  | cons o others ih =>
    rw [List.flatMap_cons, List.append_assoc, List.length_append] at hl
    have hlen : o.data.length < 255 := by
      simp only [AdStructure.encode, List.length_cons] at hl
      omega
    rw [List.flatMap_cons, List.append_assoc, adStructures_encode o hlen,
      List.find?_cons_of_neg (by rw [ho o List.mem_cons_self]; exact Bool.false_ne_true)]
    exact ih (fun o' h => ho o' (List.mem_cons_of_mem _ h)) (by omega)

section
variable {V : Type} [NatCast V] [IntCast V] [Div V]

theorem reference_encode {others : List AdStructure} {info : UInt8} (items : List BthomeItem) {rest : Bytes}
    (ho : ∀ o ∈ others, o.isBthome = false) (hv : info &&& 0xE0 = 0x40) (he : info &&& 0x01 = 0)
    (hl : (others.flatMap AdStructure.encode ++ ((bthomeStructure info items).encode ++ rest)).length ≤ 255) :
    (bthomeReference (others.flatMap AdStructure.encode ++ ((bthomeStructure info items).encode ++ rest)) :
      List (MeasurementField × V)) = items.filterMap BthomeItem.reading := by
  have hobjects : bthomeObjects (bthomeStructure info items).data = items.flatMap BthomeItem.encode :=
    if_pos ⟨hv, he⟩
  unfold bthomeReference
  rw [find_encode ho rfl hl]
  dsimp only
  rw [hobjects, readings_encode]

/-- **BTHome decoding.** The parser reads inside the payload, hands the readings of
the reference to the store of an allowed sensor, and says whether there is one; the
reference reads back what a sensor encodes. -/
theorem bthome_decoding (fixed : Nat → V → Bytes) (allowedMacs : List (CString APP_CONFIG_ALLOWED_MAC_LEN))
    (entry : BleDeviceEntry) (address : BdAddr) (data : Bytes) (h : data.length ≤ 255) (timestampMs : UInt32)
    (store : MeasurementStore V) :
    (∃ entry', bleParseBthomeAdvertisingData fixed allowedMacs entry address data (UInt8.ofNat data.length)
      timestampMs store =
        some (!(bthomeReference data : List (MeasurementField × V)).isEmpty, entry',
        if macText address ∈ allowedMacs then (bthomeReference data).foldl (fun store r =>
          (measurementStoreAdd (bleAddressToDeviceId address) r.1 r.2 timestampMs store).2) store else store)) ∧
      ∀ (others : List AdStructure) (info : UInt8) (items : List BthomeItem) (rest : Bytes),
        (∀ o ∈ others, o.isBthome = false) → info &&& 0xE0 = 0x40 → info &&& 0x01 = 0 →
        data = others.flatMap AdStructure.encode ++ ((bthomeStructure info items).encode ++ rest) →
          (bthomeReference data : List (MeasurementField × V)) = items.filterMap BthomeItem.reading := by
  refine ⟨parse_eq fixed allowedMacs entry address h timestampMs store, ?_⟩
  rintro others info items rest ho hv he rfl
  exact reference_encode items ho hv he h

end

/-- A battery reading behind flags and a packet id. -/
theorem bthome_decoding_battery :
    let data : Bytes := [2, 1, 6, 8, 0x16, 0xD2, 0xFC, 0x40, 0, 7, 1, 90]
    (∃ entry', bleParseBthomeAdvertisingData (fun _ _ => []) [macText #v[0xA4, 0xC1, 0x38, 0, 0, 1]] .zero
      #v[0xA4, 0xC1, 0x38, 0, 0, 1] data 12 5000 (measurementStoreInit 0 : MeasurementStore Rat) =
        some (!(bthomeReference data : List (MeasurementField × Rat)).isEmpty, entry',
        if macText #v[0xA4, 0xC1, 0x38, 0, 0, 1] ∈ [macText #v[0xA4, 0xC1, 0x38, 0, 0, 1]] then
          (bthomeReference data).foldl
            (fun store r => (measurementStoreAdd (bleAddressToDeviceId #v[0xA4, 0xC1, 0x38, 0, 0, 1])
              r.1 r.2 5000 store).2) (measurementStoreInit 0)
        else measurementStoreInit 0)) ∧
      (bthomeReference data : List (MeasurementField × Rat)) =
        [BthomeItem.packetId 7, .battery 90].filterMap BthomeItem.reading :=
  let h := bthome_decoding (fun _ _ => []) [macText #v[0xA4, 0xC1, 0x38, 0, 0, 1]] .zero
    #v[0xA4, 0xC1, 0x38, 0, 0, 1]
    [2, 1, 6, 8, 0x16, 0xD2, 0xFC, 0x40, 0, 7, 1, 90] (by decide) 5000
      (measurementStoreInit 0 : MeasurementStore Rat)
  ⟨h.1, h.2 [⟨1, [6]⟩] 0x40 [.packetId 7, .battery 90] [] (by decide) rfl rfl rfl⟩

end BLEBridge
