import BLEBridge.BleScanner
import BLEBridge.Canonical
import BLEBridge.Lib.Runs
import BLEBridge.Lib.Slots
/-!
# The integrity of the BLE device table

Every operation writes slots one at a time, so one lemma about a written slot
(`Integrity.write`) carries the integrity through reports and new allow lists;
the compaction keeps some of the entries (`periodic_table`).
-/
open Lib

namespace BLEBridge

variable {n : Nat} {macs : List (CString APP_CONFIG_ALLOWED_MAC_LEN)} {table : BleDeviceTable n}

/-! ## Addresses -/

/-- The normalized MAC of an address. -/
def macText (address : BdAddr) : CString APP_CONFIG_ALLOWED_MAC_LEN := .copy _ (hexText address.toList)

theorem length_macText (address : BdAddr) : (hexText address.toList).length = 12 := by
  rw [length_hexText, Vector.length_toList]

theorem macText_bytes (address : BdAddr) : (macText address).bytes = hexText address.toList :=
  copy_bytes (not_zero_hexText _) (by rw [length_macText]; decide)

theorem normalizedMac_eq (address : BdAddr) : bleAddressToNormalizedMac address = some (macText address) :=
  if_pos (length_macText address)

theorem macText_injective : Function.Injective macText := by
  intro a b h
  have hb := congrArg CString.bytes h
  rw [macText_bytes, macText_bytes] at hb
  exact Vector.toList_inj.1 (hexText_injective hb)

theorem isAllowed_iff (macs : List (CString APP_CONFIG_ALLOWED_MAC_LEN)) (address : BdAddr) :
    bleMacIsAllowed macs address = true ↔ macText address ∈ macs := by
  unfold bleMacIsAllowed
  rw [normalizedMac_eq]
  simp

theorem macToAddress_macText (address : BdAddr) :
    bleNormalizedMacToAddress (macText address).bytes = some address := by
  have h := scanHexBytes_hexText address.toList []
  rw [Vector.length_toList, List.append_nil] at h
  unfold bleNormalizedMacToAddress
  rw [macText_bytes, h]
  obtain ⟨⟨l⟩, hl⟩ := address
  match l, hl with
  | [_, _, _, _, _, _], _ => rfl

theorem canonical_macText (address : BdAddr) : CanonicalMac (macText address).bytes := by
  rw [macText_bytes]
  exact ⟨length_macText address, hexUpper_hexText⟩

/-- A canonical MAC is that of an address. -/
theorem exists_macText {mac : CString APP_CONFIG_ALLOWED_MAC_LEN} (h : CanonicalMac mac.bytes) :
    ∃ address, mac = macText address := by
  obtain ⟨bytes, hl, ht⟩ := exists_hexText (n := 6) h.length h.digits
  refine ⟨⟨bytes.toArray, hl⟩, CString.ext ?_⟩
  rw [macText_bytes, ht]
  rfl

/-! ## The integrity of the table -/

/-- What makes an entry another device. -/
def BleDeviceEntry.device (e : BleDeviceEntry) : BdAddr × UInt8 := (e.address, e.addressType)

theorem isDevice_iff (e : BleDeviceEntry) (address : BdAddr) (addressType : UInt8) :
    e.isDevice address addressType = true ↔ e.inUse = true ∧ e.device = (address, addressType) := by
  unfold BleDeviceEntry.isDevice BleDeviceEntry.device
  simp [and_comm]

/-- What an entry in use says of its address. -/
structure BleDeviceEntry.Sound (macs : List (CString APP_CONFIG_ALLOWED_MAC_LEN)) (e : BleDeviceEntry) :
    Prop where
  deviceId : e.deviceId = bleAddressToDeviceId e.address
  selected : e.selected = true ↔ macText e.address ∈ macs

structure Integrity (macs : List (CString APP_CONFIG_ALLOWED_MAC_LEN)) (table : BleDeviceTable n) : Prop where
  distinct : ∀ i j, (table i).inUse = true → (table j).inUse = true → (table i).device = (table j).device → i = j
  sound : ∀ i, (table i).inUse = true → (table i).Sound macs

/-- An entry is written where no other slot is for its device. -/
theorem Integrity.write (h : Integrity macs table) {k : Fin n} {e : BleDeviceEntry}
    (he : e.Sound macs) (hnew : ∀ i, i ≠ k → (table i).inUse = true → (table i).device ≠ e.device) :
    Integrity macs (Function.update table k e) where
  distinct i j hi hj hd := by
    by_cases hik : i = k
    · by_cases hjk : j = k
      · rw [hik, hjk]
      · rw [hik, Function.update_self, Function.update_of_ne hjk] at hd
        rw [Function.update_of_ne hjk] at hj
        exact absurd hd.symm (hnew j hjk hj)
    · rw [Function.update_of_ne hik] at hi hd
      by_cases hjk : j = k
      · rw [hjk, Function.update_self] at hd
        exact absurd hd (hnew i hik hi)
      · rw [Function.update_of_ne hjk] at hj hd
        exact h.distinct i j hi hj hd
  sound i hi := by
    by_cases hik : i = k
    · rw [hik, Function.update_self]
      exact he
    · rw [Function.update_of_ne hik] at hi ⊢
      exact h.sound i hi

/-! ## Reports -/

theorem freeIndex_some {k : Fin n} (h : bleFreeIndex table = some k) : (table k).inUse = false := by
  simpa using (find_finRange.1 h).1

theorem freeIndex_none : bleFreeIndex table = none ↔ ∀ i, (table i).inUse = true := by
  unfold bleFreeIndex
  rw [find_finRange_none]
  simp

/-- One step of the scan keeps the less of the two. -/
theorem oldestStep_le (hu : ∀ i, (table i).inUse = true) (oldest i : Fin n) :
    let k := if (table i).inUse && (table i).lastSeenMs < (table oldest).lastSeenMs then i else oldest
    (table k).lastSeenMs ≤ (table oldest).lastSeenMs ∧ (table k).lastSeenMs ≤ (table i).lastSeenMs := by
  intro k
  by_cases hlt : (table i).lastSeenMs < (table oldest).lastSeenMs
  · have hk : k = i := if_pos (by rw [hu i]; exact decide_eq_true hlt)
    rw [hk]
    exact ⟨UInt32.le_of_lt hlt, UInt32.le_refl _⟩
  · have hk : k = oldest := if_neg (by rw [hu i]; exact fun h => hlt (of_decide_eq_true h))
    rw [hk]
    exact ⟨UInt32.le_refl _, UInt32.not_lt.1 hlt⟩

/-- The scan over the slots of `l` keeps the least. -/
theorem oldestScan_le (hu : ∀ i, (table i).inUse = true) (l : List (Fin n)) (oldest : Fin n) :
    let k := l.foldl (fun oldest i =>
      if (table i).inUse && (table i).lastSeenMs < (table oldest).lastSeenMs then i else oldest) oldest
    (table k).lastSeenMs ≤ (table oldest).lastSeenMs ∧ ∀ i ∈ l, (table k).lastSeenMs ≤ (table i).lastSeenMs := by
  induction l generalizing oldest with
  | nil => exact ⟨UInt32.le_refl _, fun _ h => absurd h List.not_mem_nil⟩
  | cons i l ih =>
    intro k
    obtain ⟨hk, hl⟩ := ih (if (table i).inUse && (table i).lastSeenMs < (table oldest).lastSeenMs then i
      else oldest)
    obtain ⟨holdest, hi⟩ := oldestStep_le hu oldest i
    refine ⟨UInt32.le_trans hk holdest, fun j hj => ?_⟩
    rcases List.mem_cons.1 hj with rfl | hj
    · exact UInt32.le_trans hk hi
    · exact hl j hj

theorem oldestIndex_le [NeZero n] (hu : ∀ i, (table i).inUse = true) (i : Fin n) :
    (table (bleOldestIndex table)).lastSeenMs ≤ (table i).lastSeenMs :=
  (oldestScan_le hu _ _).2 i (List.mem_finRange i)

/-- The slot a report of a new device takes. -/
def slotForDevice [NeZero n] (table : BleDeviceTable n) : Fin n :=
  (bleFreeIndex table).getD (bleOldestIndex table)

/-- It is free, or all slots are in use and it is the one not heard for longest. -/
theorem slotForDevice_spec [NeZero n] (table : BleDeviceTable n) :
    (table (slotForDevice table)).inUse = false ∨
      (∀ i, (table i).inUse = true) ∧ ∀ i, (table (slotForDevice table)).lastSeenMs ≤ (table i).lastSeenMs := by
  unfold slotForDevice
  cases h : bleFreeIndex table with
  | some k => exact .inl (freeIndex_some h)
  | none => exact .inr ⟨freeIndex_none.1 h, oldestIndex_le (freeIndex_none.1 h)⟩

section
variable [NeZero n] {address : BdAddr} {addressType : UInt8} {rssi : Int8} {lastSeenMs : UInt32}

/-- A report writes the entry of its device: the slot that has it, else one for a
new device. -/
theorem update_eq (macs : List (CString APP_CONFIG_ALLOWED_MAC_LEN)) (address : BdAddr) (addressType : UInt8)
    (rssi : Int8) (lastSeenMs : UInt32) (table : BleDeviceTable n) :
    ∃ k e, bleDeviceTableUpdate macs address addressType rssi lastSeenMs table = Function.update table k e ∧
      e.inUse = true ∧ e.device = (address, addressType) ∧ e.Sound macs ∧
      ((table k).isDevice address addressType = true ∨
        (∀ i, (table i).isDevice address addressType = false) ∧ k = slotForDevice table) := by
  unfold bleDeviceTableUpdate
  cases hfind : bleDeviceTableFind table address addressType with
  | some i =>
    have hi := (find_finRange.1 hfind).1
    obtain ⟨hu, hd⟩ := (isDevice_iff _ _ _).1 hi
    have ha : (table i).address = address := congrArg Prod.fst hd
    refine ⟨i, _, rfl, hu, hd, ⟨?_, ?_⟩, .inl hi⟩
    · dsimp only
      rw [ha]
    · dsimp only
      rw [ha]
      exact isAllowed_iff macs address
  | none => exact ⟨_, _, rfl, rfl, rfl, ⟨rfl, isAllowed_iff macs address⟩, .inr ⟨find_finRange_none.1 hfind, rfl⟩⟩

theorem update_integrity (h : Integrity macs table) :
    Integrity macs (bleDeviceTableUpdate macs address addressType rssi lastSeenMs table) := by
  obtain ⟨k, e, heq, -, hd, hs, hk⟩ := update_eq macs address addressType rssi lastSeenMs table
  rw [heq]
  refine h.write hs fun i hik hi hdi => ?_
  rw [hd] at hdi
  rcases hk with hk | ⟨hnone, -⟩
  · obtain ⟨hku, hkd⟩ := (isDevice_iff _ _ _).1 hk
    exact hik (h.distinct i k hi hku (hdi.trans hkd.symm))
  · exact Bool.false_ne_true ((hnone i).symm.trans ((isDevice_iff _ _ _).2 ⟨hi, hdi⟩))
end

/-! ## Allow lists -/

theorem findByMac_some {address : BdAddr} {i : Fin n}
    (h : bleDeviceTableFindByMacString table (macText address) = some i) :
    (table i).inUse = true ∧ (table i).address = address := by
  have hi := (find_finRange.1 h).1
  rw [normalizedMac_eq] at hi
  simp only [Bool.and_eq_true, decide_eq_true_eq, Option.some.injEq] at hi
  exact ⟨hi.1, macText_injective hi.2⟩

theorem findByMac_none {address : BdAddr} (h : bleDeviceTableFindByMacString table (macText address) = none)
    (i : Fin n) (hi : (table i).inUse = true) : (table i).address ≠ address := by
  rintro rfl
  have hf := find_finRange_none.1 h i
  rw [normalizedMac_eq, hi] at hf
  simp at hf

/-- What tracking a MAC does: it has an entry, or gets a free slot, or finds none. -/
inductive Tracked (table : BleDeviceTable n) (address : BdAddr) : BleDeviceTable n → Prop
  | there (i : Fin n) (hu : (table i).inUse = true) (ha : (table i).address = address) :
    Tracked table address (Function.update table i { table i with selected := true })
  | placed (hnew : ∀ i, (table i).inUse = true → (table i).address ≠ address) (slot : Fin n)
      (hf : (table slot).inUse = false) :
    Tracked table address (Function.update table slot (placeholder (macText address)))
  | full (hnew : ∀ i, (table i).inUse = true → (table i).address ≠ address) (hu : ∀ i, (table i).inUse = true) :
    Tracked table address table

theorem trackMac_cases (table : BleDeviceTable n) (address : BdAddr) :
    Tracked table address (trackMac table (macText address)) := by
  unfold trackMac
  cases hfind : bleDeviceTableFindByMacString table (macText address) with
  | some i =>
    obtain ⟨hu, ha⟩ := findByMac_some hfind
    exact .there i hu ha
  | none =>
    dsimp only
    cases hfree : bleFreeIndex table with
    | some slot => exact .placed (findByMac_none hfind) slot (freeIndex_some hfree)
    | none => exact .full (findByMac_none hfind) (freeIndex_none.1 hfree)

theorem placeholder_address (address : BdAddr) : (placeholder (macText address)).address = address := by
  unfold placeholder
  rw [macToAddress_macText]
  rfl

theorem placeholder_sound {address : BdAddr} (h : macText address ∈ macs) :
    (placeholder (macText address)).Sound macs where
  deviceId := rfl
  selected := by
    rw [placeholder_address]
    exact iff_of_true rfl h

theorem trackMac_integrity {address : BdAddr} (h : Integrity macs table) (ha : macText address ∈ macs) :
    Integrity macs (trackMac table (macText address)) := by
  have hc := trackMac_cases table address
  generalize trackMac table (macText address) = table' at hc
  cases hc with
  | there i hu hia =>
    refine h.write ⟨(h.sound i hu).deviceId, iff_of_true rfl (by rw [hia]; exact ha)⟩ fun j hj hju hd => ?_
    exact hj (h.distinct j i hju hu hd)
  | placed hnew slot hf =>
    refine h.write (placeholder_sound ha) fun j _ hju hd => ?_
    exact hnew j hju ((congrArg Prod.fst hd).trans (placeholder_address address))
  | full _ _ => exact h

theorem trackLoop_integrity {listed : List (CString APP_CONFIG_ALLOWED_MAC_LEN)} (h : Integrity macs table)
    (hl : ∀ mac ∈ listed, CanonicalMac mac.bytes ∧ mac ∈ macs) :
    Integrity macs (listed.foldl trackMac table) := by
  induction listed generalizing table with
  | nil => exact h
  | cons mac listed ih =>
    obtain ⟨hcanon, hmem⟩ := hl mac List.mem_cons_self
    obtain ⟨address, rfl⟩ := exists_macText hcanon
    exact ih (trackMac_integrity h hmem) fun m hm => hl m (List.mem_cons_of_mem _ hm)

theorem selectAllowed_inUse (i : Fin n) : (selectAllowed macs table i).inUse = (table i).inUse := by
  unfold selectAllowed
  split
  · rfl
  · rfl

theorem selectAllowed_device (i : Fin n) : (selectAllowed macs table i).device = (table i).device := by
  unfold selectAllowed
  split
  · rfl
  · rfl

theorem selectAllowed_integrity {macs' : List (CString APP_CONFIG_ALLOWED_MAC_LEN)} (h : Integrity macs table) :
    Integrity macs' (selectAllowed macs' table) where
  distinct i j hi hj hd := by
    rw [selectAllowed_inUse] at hi hj
    rw [selectAllowed_device, selectAllowed_device] at hd
    exact h.distinct i j hi hj hd
  sound i hi := by
    rw [selectAllowed_inUse] at hi
    unfold selectAllowed
    rw [if_pos hi]
    exact ⟨(h.sound i hi).deviceId, isAllowed_iff _ _⟩

/-! ## Compaction -/

/-- What the compaction keeps of the entries in use. -/
def BleDeviceEntry.stays (nowMs : UInt32) (e : BleDeviceEntry) : Bool :=
  e.selected || nowMs.toNat ≤ e.lastSeenMs.toNat + 60000

/-- The entries in use, in the order of the table. -/
def usedEntries (table : BleDeviceTable n) : List BleDeviceEntry := ((List.finRange n).map table).filter (·.inUse)

theorem age_le (nowMs lastSeenMs : UInt32) :
    ((if nowMs ≥ lastSeenMs then nowMs - lastSeenMs else 0) ≤ BLE_DEVICE_EXPIRY_MS) ↔
      nowMs.toNat ≤ lastSeenMs.toNat + 60000 := by
  have hexp : BLE_DEVICE_EXPIRY_MS.toNat = 60000 := rfl
  rw [UInt32.le_iff_toNat_le, hexp]
  by_cases h : lastSeenMs ≤ nowMs
  · rw [if_pos h, UInt32.toNat_sub_of_le _ _ h]
    omega
  · rw [if_neg h]
    rw [UInt32.le_iff_toNat_le] at h
    simp
    omega

theorem compactStep_eq (nowMs : UInt32) (state : BleDeviceTable n × Nat) (i : Fin n) :
    compactStep nowMs state i = compactRound (fun e => e.inUse && e.stays nowMs) state i := by
  unfold compactStep compactRound BleDeviceEntry.stays
  dsimp only
  by_cases hu : (state.1 i).inUse = true
  · simp only [hu, age_le, Bool.not_true, Bool.false_eq_true, if_false, Bool.true_and]
  · simp [hu]

theorem periodic_table (nowMs : UInt32) (table : BleDeviceTable n) :
    bleTablePeriodic nowMs table = fun j => ((usedEntries table).filter (·.stays nowMs))[j.val]?.getD .zero := by
  have hkept : ((List.finRange n).map table).filter (fun e => e.inUse && e.stays nowMs) =
      (usedEntries table).filter (·.stays nowMs) := by
    unfold usedEntries
    rw [List.filter_filter]
    exact List.filter_congr fun e _ => Bool.and_comm _ _
  have hloop : (List.finRange n).foldl (compactStep nowMs) (table, 0) = _ :=
    (congrArg (fun f => (List.finRange n).foldl f (table, 0))
      (funext fun s => funext fun i => compactStep_eq nowMs s i)).trans
      (compact_eq _ table)
  unfold bleTablePeriodic
  rw [hloop, hkept]
  funext j
  dsimp only
  split
  · rename_i hle
    rw [List.getElem?_eq_none_iff.2 hle]
    rfl
  · rename_i hlt
    rw [List.getElem?_eq_getElem (by omega)]
    rfl

theorem length_usedEntries_le (table : BleDeviceTable n) : (usedEntries table).length ≤ n := by
  refine (List.length_filter_le _ _).trans ?_
  rw [List.length_map, List.length_finRange]

/-- The compaction keeps the selected and the recent entries, in order and as they are. -/
theorem periodic_used (nowMs : UInt32) (table : BleDeviceTable n) :
    usedEntries (bleTablePeriodic nowMs table) = (usedEntries table).filter (·.stays nowMs) := by
  have hlen := (List.length_filter_le (·.stays nowMs) _).trans (length_usedEntries_le table)
  have hall : ∀ e ∈ (usedEntries table).filter (·.stays nowMs), e.inUse = true := fun e he =>
    (List.mem_filter.1 (List.mem_filter.1 he).1).2
  rw [periodic_table]
  generalize (usedEntries table).filter (·.stays nowMs) = kept at hlen hall
  unfold usedEntries
  rw [map_finRange_getD _ hlen, List.filter_append, List.filter_eq_self.2 hall, List.filter_eq_nil_iff.2,
    List.append_nil]
  intro e he
  rw [List.eq_of_mem_replicate he]
  exact Bool.false_ne_true

theorem distinct_iff (table : BleDeviceTable n) : ((usedEntries table).map BleDeviceEntry.device).Nodup ↔
    ∀ i j, (table i).inUse = true → (table j).inUse = true → (table i).device = (table j).device → i = j :=
  nodup_keys_iff _ table _

theorem mem_usedEntries {e : BleDeviceEntry} : e ∈ usedEntries table ↔ ∃ i, table i = e ∧ e.inUse = true := by
  unfold usedEntries
  rw [List.mem_filter, List.mem_map]
  constructor
  · rintro ⟨⟨i, -, hi⟩, hu⟩
    exact ⟨i, hi, hu⟩
  · rintro ⟨i, hi, hu⟩
    exact ⟨⟨i, List.mem_finRange i, hi⟩, hu⟩

theorem periodic_integrity (nowMs : UInt32) (h : Integrity macs table) :
    Integrity macs (bleTablePeriodic nowMs table) where
  distinct := by
    rw [← distinct_iff, periodic_used]
    exact ((distinct_iff table).2 h.distinct).sublist (List.filter_sublist.map _)
  sound i hi := by
    have hmem : bleTablePeriodic nowMs table i ∈ usedEntries (bleTablePeriodic nowMs table) :=
      mem_usedEntries.2 ⟨i, rfl, hi⟩
    rw [periodic_used] at hmem
    obtain ⟨j, hj, hu⟩ := mem_usedEntries.1 (List.mem_filter.1 hmem).1
    rw [← hj] at hu ⊢
    exact h.sound j hu

/-! ## Runs -/

/-- The calls that write the table. -/
inductive BleOp where
  | applyConfig (config : Option AppConfig)
  | update (address : BdAddr) (addressType : UInt8) (rssi : Int8) (lastSeenMs : UInt32)
  | periodic (nowMs : UInt32)

def BleOp.exec (s : BleScanner) : BleOp → BleScanner
  | .applyConfig config => bleScannerApplyConfig config s
  | .update address addressType rssi lastSeenMs =>
    { s with table := bleDeviceTableUpdate s.allowedMacs address addressType rssi lastSeenMs s.table }
  | .periodic nowMs => bleScannerPeriodic nowMs s

/-- The MACs of the configuration are canonical. -/
def CanonicalList (config : Option AppConfig) : Prop :=
  ∀ c, config = some c → ∀ mac ∈ c.allowedMacs, CanonicalMac mac.bytes

def BleOp.Canonical : BleOp → Prop
  | .applyConfig config => CanonicalList config
  | _ => True

/-- The allow list that a configuration sets. -/
def listOf (config : Option AppConfig) : List (CString APP_CONFIG_ALLOWED_MAC_LEN) :=
  match config with
  | none => []
  | some c => c.allowedMacs.take APP_CONFIG_ALLOWED_MAC_MAX_COUNT

theorem applyConfig_eq (config : Option AppConfig) (s : BleScanner) : bleScannerApplyConfig config s =
    ⟨(listOf config).foldl trackMac (selectAllowed (listOf config) s.table), listOf config⟩ := by
  cases config with
  | none => rfl
  | some c =>
    have hcopy : (c.allowedMacs.take APP_CONFIG_ALLOWED_MAC_MAX_COUNT).map
        (fun mac => CString.copy APP_CONFIG_ALLOWED_MAC_LEN mac.bytes) =
          c.allowedMacs.take APP_CONFIG_ALLOWED_MAC_MAX_COUNT := by
      conv_rhs => rw [← List.map_id (c.allowedMacs.take APP_CONFIG_ALLOWED_MAC_MAX_COUNT)]
      exact List.map_congr_left fun mac _ => copy_self mac
    unfold bleScannerApplyConfig
    dsimp only
    rw [hcopy]
    rfl

theorem canonical_listOf {config : Option AppConfig} (h : CanonicalList config) :
    ∀ mac ∈ listOf config, CanonicalMac mac.bytes := by
  cases config with
  | none => exact fun mac hm => absurd hm List.not_mem_nil
  | some c => exact fun mac hm => h c rfl mac (List.mem_of_mem_take hm)

theorem exec_integrity {s : BleScanner} {op : BleOp} (h : Integrity s.allowedMacs s.table) (hop : op.Canonical) :
    Integrity (op.exec s).allowedMacs (op.exec s).table := by
  cases op with
  | applyConfig config =>
    dsimp only [BleOp.exec]
    rw [applyConfig_eq]
    exact trackLoop_integrity (selectAllowed_integrity h) fun mac hm => ⟨canonical_listOf hop mac hm, hm⟩
  | update address addressType rssi lastSeenMs =>
    dsimp only [BleOp.exec]
    exact update_integrity h
  | periodic nowMs =>
    dsimp only [BleOp.exec, bleScannerPeriodic]
    exact periodic_integrity nowMs h

theorem init_integrity : Integrity bleScannerInit.allowedMacs bleScannerInit.table where
  distinct _ _ hi := absurd hi Bool.false_ne_true
  sound _ hi := absurd hi Bool.false_ne_true

/-- One slot is written, with the entry of the device that was heard. Another
device loses its slot only when all are in use and it was heard longest ago. -/
def UpdatesOne (table table' : BleDeviceTable n) (address : BdAddr) (addressType : UInt8) : Prop :=
  ∃ k, (∀ i, i ≠ k → table' i = table i) ∧ (table' k).isDevice address addressType = true ∧
    ((table k).inUse = true → (table k).device ≠ (address, addressType) →
      (∀ i, (table i).inUse = true) ∧ ∀ i, (table k).lastSeenMs ≤ (table i).lastSeenMs)

theorem update_updatesOne [NeZero n] (macs : List (CString APP_CONFIG_ALLOWED_MAC_LEN)) (address : BdAddr)
    (addressType : UInt8) (rssi : Int8) (lastSeenMs : UInt32) (table : BleDeviceTable n) :
    UpdatesOne table (bleDeviceTableUpdate macs address addressType rssi lastSeenMs table) address
      addressType := by
  obtain ⟨k, e, heq, hu, hd, -, hk⟩ := update_eq macs address addressType rssi lastSeenMs table
  rw [heq]
  refine ⟨k, fun i hi => Function.update_of_ne hi _ _, ?_, fun hku hkd => ?_⟩
  · rw [Function.update_self]
    exact (isDevice_iff _ _ _).2 ⟨hu, hd⟩
  · rcases hk with hk | ⟨-, rfl⟩
    · exact absurd ((isDevice_iff _ _ _).1 hk).2 hkd
    · rcases slotForDevice_spec table with hf | hfull
      · exact absurd (hf.symm.trans hku) Bool.false_ne_true
      · exact hfull

/-- The allow list of the last call that sets one. -/
def currentList (ops : List BleOp) : List (CString APP_CONFIG_ALLOWED_MAC_LEN) :=
  ((ops.filterMap fun op => match op with
    | .applyConfig config => some (listOf config)
    | _ => none).getLast?).getD []

theorem run_allowedMacs (ops : List BleOp) :
    (run BleOp.exec bleScannerInit ops).allowedMacs = currentList ops := by
  induction ops using List.reverseRecOn with
  | nil => rfl
  | append_singleton ops op ih =>
    rw [run_concat, currentList, List.filterMap_append]
    cases op with
    | applyConfig config =>
      rw [BleOp.exec, applyConfig_eq]
      simp
    | update | periodic =>
      simp only [BleOp.exec, bleScannerPeriodic, ih]
      simp [currentList]

/-- **The BLE device table is sound in every run.** -/
theorem device_table_integrity (ops : List BleOp) (h : ∀ op ∈ ops, op.Canonical) :
    let s := run BleOp.exec bleScannerInit ops
    s.allowedMacs = currentList ops ∧ Integrity (currentList ops) s.table ∧
      (∀ address addressType rssi lastSeenMs, UpdatesOne s.table
        (bleDeviceTableUpdate s.allowedMacs address addressType rssi lastSeenMs s.table) address addressType) ∧
      ∀ nowMs, usedEntries (bleScannerPeriodic nowMs s).table = (usedEntries s.table).filter (·.stays nowMs) := by
  have hsteps : EveryStep BleOp.exec (fun _ op => op.Canonical) bleScannerInit ops :=
    .of_forall fun op hop _ => h op hop
  have hi := hsteps.inv (I := fun s => Integrity s.allowedMacs s.table) init_integrity fun s op hs hop =>
    exec_integrity hs hop
  have hlist := run_allowedMacs ops
  dsimp only [bleScannerPeriodic]
  exact ⟨hlist, hlist ▸ hi, fun _ _ _ _ => update_updatesOne _ _ _ _ _ _, fun nowMs => periodic_used nowMs _⟩

/-- A sensor. -/
def sensorAddress : BdAddr := #v[0xA4, 0xC1, 0x38, 0, 0, 1]

/-- The sensor is put on the allow list after it and another device were heard. -/
def sensorOps : List BleOp := [.update sensorAddress 0 (-60) 400, .update #v[1, 2, 3, 4, 5, 6] 1 (-70) 500,
  .applyConfig (some { appConfigDefaults with allowedMacs := [macText sensorAddress] }), .periodic 70000]

/-- Only the sensor is still in the table, and it is selected. -/
theorem device_table_integrity_two :
    let s := run BleOp.exec bleScannerInit sensorOps
    s.allowedMacs = [macText sensorAddress] ∧ Integrity [macText sensorAddress] s.table ∧
      (s.table 0).inUse = true ∧ (s.table 0).address = sensorAddress ∧ (s.table 0).selected = true ∧
        (s.table 1).inUse = false := by
  have hcanonical : ∀ op ∈ sensorOps, op.Canonical := by
    intro op hop
    simp only [sensorOps, List.mem_cons, List.not_mem_nil, or_false] at hop
    rcases hop with rfl | rfl | rfl | rfl
    · trivial
    · trivial
    · intro c hc mac hm
      rw [← Option.some.inj hc, List.mem_singleton] at hm
      rw [hm]
      exact canonical_macText _
    · trivial
  have h := device_table_integrity sensorOps hcanonical
  have hlist : currentList sensorOps = [macText sensorAddress] := rfl
  dsimp only at h ⊢
  rw [hlist] at h
  obtain ⟨hallowed, hintegrity, -⟩ := h
  have hused : ((run BleOp.exec bleScannerInit sensorOps).table 0).inUse = true := by decide +kernel
  have haddress : ((run BleOp.exec bleScannerInit sensorOps).table 0).address = sensorAddress := by decide +kernel
  refine ⟨hallowed, hintegrity, hused, haddress, ?_, by decide +kernel⟩
  rw [(hintegrity.sound 0 hused).2, haddress]
  decide +kernel

end BLEBridge
