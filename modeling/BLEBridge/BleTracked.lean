import BLEBridge.BleDeviceTable
import BLEBridge.BthomeDecoding
/-!
# Tracked devices

`ble_scanner_apply_config` gives every MAC of the allow list an entry, and the
compaction spares these. Counting the entries of a MAC tells what each call does
to them: a report loses or doubles one when its address type is not that of the
entry, or when it takes the slot of a selected entry.
-/
open Lib

namespace BLEBridge

variable {n : Nat} {macs : List (CString APP_CONFIG_ALLOWED_MAC_LEN)} {table : BleDeviceTable n}

/-! ## The entries of a MAC -/

def BleDeviceEntry.lists (mac : CString APP_CONFIG_ALLOWED_MAC_LEN) (e : BleDeviceEntry) : Bool :=
  e.inUse && macText e.address = mac

/-- How many entries in use have the address. -/
def listings (table : BleDeviceTable n) (mac : CString APP_CONFIG_ALLOWED_MAC_LEN) : Nat :=
  slotCount (BleDeviceEntry.lists mac) table

def freeSlots (table : BleDeviceTable n) : Nat := slotCount (fun e => !e.inUse) table

/-- Each MAC is the address of exactly one entry in use, and that is selected. -/
def ListedOnce (macs : List (CString APP_CONFIG_ALLOWED_MAC_LEN)) (table : BleDeviceTable n) : Prop :=
  ∀ mac ∈ macs, ∃ i, ((table i).inUse = true ∧ macText (table i).address = mac ∧ (table i).selected = true) ∧
    ∀ j, (table j).inUse = true → macText (table j).address = mac → j = i

theorem lists_iff (mac : CString APP_CONFIG_ALLOWED_MAC_LEN) (e : BleDeviceEntry) :
    e.lists mac = true ↔ e.inUse = true ∧ macText e.address = mac := by
  unfold BleDeviceEntry.lists
  rw [Bool.and_eq_true, decide_eq_true_eq]

/-- An entry with an address on the list is selected, so it is enough to count. -/
theorem listedOnce_iff (h : Integrity macs table) :
    ListedOnce macs table ↔ ∀ mac ∈ macs, listings table mac = 1 := by
  refine forall₂_congr fun mac hmac => ?_
  unfold listings
  rw [slotCount_eq_one]
  refine exists_congr fun i => ?_
  rw [lists_iff]
  constructor
  · rintro ⟨⟨hu, ha, -⟩, huniq⟩
    exact ⟨⟨hu, ha⟩, fun j hj => huniq j ((lists_iff _ _).1 hj).1 ((lists_iff _ _).1 hj).2⟩
  · rintro ⟨⟨hu, ha⟩, huniq⟩
    exact ⟨⟨hu, ha, (h.sound i hu).selected.2 (ha ▸ hmac)⟩, fun j hj hja => huniq j ((lists_iff _ _).2 ⟨hj, hja⟩)⟩

theorem listings_update (table : BleDeviceTable n) (k : Fin n) (e : BleDeviceEntry)
    (mac : CString APP_CONFIG_ALLOWED_MAC_LEN) :
    listings (Function.update table k e) mac + ((table k).lists mac).toNat = listings table mac +
      (e.lists mac).toNat :=
  slotCount_update (BleDeviceEntry.lists mac) table k e

theorem bool_eq_of_toNat {b c : Bool} (h : b.toNat = c.toNat) : b = c := by
  cases b <;> cases c <;> simp_all

/-- Only what an entry lists counts. -/
theorem listings_update_same {k : Fin n} {e : BleDeviceEntry} (he : ∀ mac, e.lists mac = (table k).lists mac) :
    listings (Function.update table k e) = listings table := by
  funext mac
  have h := listings_update table k e mac
  rw [he mac] at h
  exact Nat.add_right_cancel h

theorem lists_congr {e e' : BleDeviceEntry} (hu : e.inUse = e'.inUse) (ha : e.address = e'.address)
    (mac : CString APP_CONFIG_ALLOWED_MAC_LEN) : e.lists mac = e'.lists mac := by
  unfold BleDeviceEntry.lists
  rw [hu, ha]

/-! ## Reports -/

/-- A report keeps the list: it is of a device in the table, or the entry it takes
the place of may go, and is that of the same address if this one is listed. -/
def ReportFits [NeZero n] (macs : List (CString APP_CONFIG_ALLOWED_MAC_LEN)) (table : BleDeviceTable n)
    (address : BdAddr) (addressType : UInt8) : Prop :=
  (∃ i, (table i).isDevice address addressType = true) ∨
    ((table (slotForDevice table)).inUse = true → (table (slotForDevice table)).selected = true →
      (table (slotForDevice table)).address = address) ∧
    (macText address ∈ macs → (table (slotForDevice table)).inUse = true ∧
      (table (slotForDevice table)).address = address)

theorem update_listings [NeZero n] (h : Integrity macs table) (hp : ∀ mac ∈ macs, listings table mac = 1)
    (address : BdAddr) (addressType : UInt8) (rssi : Int8) (lastSeenMs : UInt32) :
    (∀ mac ∈ macs, listings (bleDeviceTableUpdate macs address addressType rssi lastSeenMs table) mac = 1) ↔
      ReportFits macs table address addressType := by
  obtain ⟨k, e, heq, hu, hd, -, hk⟩ := update_eq macs address addressType rssi lastSeenMs table
  have ha : e.address = address := congrArg Prod.fst hd
  rw [heq]
  rcases hk with hk | ⟨hnone, rfl⟩
  · obtain ⟨hku, hkd⟩ := (isDevice_iff _ _ _).1 hk
    have hka : (table k).address = address := congrArg Prod.fst hkd
    rw [listings_update_same (lists_congr (hu.trans hku.symm) (ha.trans hka.symm))]
    exact iff_of_true hp (.inl ⟨k, hk⟩)
  · -- a new entry: no count may change, so it lists what the entry before it did
    have hcount : (∀ mac ∈ macs, listings (Function.update table (slotForDevice table) e) mac = 1) ↔
        ∀ mac ∈ macs, e.lists mac = (table (slotForDevice table)).lists mac := by
      refine forall₂_congr fun mac hmac => ?_
      have hupd := listings_update table (slotForDevice table) e mac
      rw [hp mac hmac] at hupd
      exact ⟨fun h => bool_eq_of_toNat (by omega), fun h => by rw [h] at hupd; omega⟩
    rw [hcount]
    generalize hold : table (slotForDevice table) = old
    have hsound : old.inUse = true → (old.selected = true ↔ macText old.address ∈ macs) := fun hu =>
      hold ▸ (h.sound _ (hold ▸ hu)).selected
    unfold ReportFits
    rw [hold]
    constructor
    · intro hsame
      refine .inr ⟨fun hou hos => ?_, fun hmem => ?_⟩
      · have hl := hsame _ ((hsound hou).1 hos)
        rw [(lists_iff _ old).2 ⟨hou, rfl⟩, lists_iff, ha] at hl
        exact (macText_injective hl.2).symm
      · have hl := hsame _ hmem
        rw [(lists_iff _ e).2 ⟨hu, by rw [ha]⟩, eq_comm, lists_iff] at hl
        exact ⟨hl.1, macText_injective hl.2⟩
    · rintro (⟨i, hi⟩ | ⟨hev, hin⟩) mac hmac
      · rw [hnone i] at hi
        cases hi
      · rw [Bool.eq_iff_iff, lists_iff, lists_iff, ha]
        constructor
        · rintro ⟨-, rfl⟩
          obtain ⟨hou, hoa⟩ := hin hmac
          exact ⟨hou, by rw [hoa]⟩
        · rintro ⟨hou, rfl⟩
          exact ⟨hu, by rw [hev hou ((hsound hou).2 hmac)]⟩

/-! ## Compaction -/

theorem listings_eq_countP (table : BleDeviceTable n) (mac : CString APP_CONFIG_ALLOWED_MAC_LEN) :
    listings table mac = (usedEntries table).countP fun e => macText e.address = mac := by
  unfold listings usedEntries
  rw [slotCount_eq_countP, List.countP_filter]
  refine List.countP_congr fun e _ => ?_
  rw [lists_iff, Bool.and_eq_true, decide_eq_true_eq, and_comm]

theorem periodic_listings (h : Integrity macs table) (nowMs : UInt32) :
    ∀ mac ∈ macs, listings (bleTablePeriodic nowMs table) mac = listings table mac := by
  intro mac hmac
  rw [listings_eq_countP, listings_eq_countP, periodic_used, List.countP_filter]
  refine List.countP_congr fun e he => ?_
  obtain ⟨i, rfl, hu⟩ := mem_usedEntries.1 he
  rw [Bool.and_eq_true, decide_eq_true_eq]
  constructor
  · exact fun h => h.1
  · rintro rfl
    refine ⟨rfl, ?_⟩
    unfold BleDeviceEntry.stays
    rw [(h.sound i hu).selected.2 hmac, Bool.true_or]

/-! ## Allow lists -/

/-- A new list fits: none of its MACs has two entries, and there is a free slot for
each that has none. -/
def ConfigFits (macs : List (CString APP_CONFIG_ALLOWED_MAC_LEN)) (table : BleDeviceTable n) : Prop :=
  (∀ mac ∈ macs, listings table mac ≤ 1) ∧ (macs.countP fun mac => listings table mac = 0) ≤ freeSlots table

theorem freeSlots_update (table : BleDeviceTable n) (k : Fin n) (e : BleDeviceEntry) :
    freeSlots (Function.update table k e) + (!(table k).inUse).toNat = freeSlots table + (!e.inUse).toNat :=
  slotCount_update (fun e : BleDeviceEntry => !e.inUse) table k e

theorem listings_eq_zero {address : BdAddr} (h : ∀ i, (table i).inUse = true → (table i).address ≠ address) :
    listings table (macText address) = 0 := by
  refine slotCount_eq_zero.2 fun i => ?_
  rw [← Bool.not_eq_true, lists_iff]
  exact fun ⟨hu, ha⟩ => h i hu (macText_injective ha)

/-- The counts after a MAC is tracked. -/
inductive Counts (table table' : BleDeviceTable n) (mac : CString APP_CONFIG_ALLOWED_MAC_LEN) : Prop
  | there (h : listings table mac ≠ 0) (hl : listings table' = listings table)
      (hf : freeSlots table' = freeSlots table)
  | placed (h : listings table mac = 0) (h' : listings table' mac = 1)
      (hl : ∀ m, m ≠ mac → listings table' m = listings table m)
    (hf : freeSlots table' + 1 = freeSlots table)
  | full (h : listings table mac = 0) (hf : freeSlots table = 0) (ht : table' = table)

theorem trackMac_counts (table : BleDeviceTable n) (address : BdAddr) :
    Counts table (trackMac table (macText address)) (macText address) := by
  have hc := trackMac_cases table address
  generalize trackMac table (macText address) = table' at hc
  cases hc with
  | there i hu ha =>
    refine .there (fun h0 => ?_) (listings_update_same (lists_congr rfl rfl)) ?_
    · have hi := slotCount_eq_zero.1 h0 i
      rw [(lists_iff _ _).2 ⟨hu, by rw [ha]⟩] at hi
      cases hi
    · exact Nat.add_right_cancel (freeSlots_update table i _)
  | placed hnew slot hf =>
    have hplace (m : CString APP_CONFIG_ALLOWED_MAC_LEN) :=
      listings_update table slot (placeholder (macText address)) m
    have hslot (m : CString APP_CONFIG_ALLOWED_MAC_LEN) : (table slot).lists m = false := by
      unfold BleDeviceEntry.lists
      rw [hf, Bool.false_and]
    have hlist (m : CString APP_CONFIG_ALLOWED_MAC_LEN) :
        (placeholder (macText address)).lists m = true ↔ macText address = m := by
      rw [lists_iff, placeholder_address]
      exact ⟨fun h => h.2, fun h => ⟨rfl, h⟩⟩
    refine .placed (listings_eq_zero hnew) ?_ (fun m hm => ?_) ?_
    · have h := hplace (macText address)
      rw [hslot, (hlist _).2 rfl, listings_eq_zero hnew] at h
      exact h
    · have h := hplace m
      rw [hslot, Bool.eq_false_iff.2 fun hl => hm ((hlist m).1 hl).symm] at h
      exact h
    · have h := freeSlots_update table slot (placeholder (macText address))
      rw [hf] at h
      exact h
  | full hnew hu => exact .full (listings_eq_zero hnew) (slotCount_eq_zero.2 fun i => by rw [hu i]; rfl) rfl

theorem trackLoop_other {listed : List (CString APP_CONFIG_ALLOWED_MAC_LEN)}
    (hl : ∀ m ∈ listed, CanonicalMac m.bytes) {mac : CString APP_CONFIG_ALLOWED_MAC_LEN} (hm : mac ∉ listed)
    (table : BleDeviceTable n) : listings (listed.foldl trackMac table) mac = listings table mac := by
  induction listed generalizing table with
  | nil => rfl
  | cons m listed ih =>
    obtain ⟨address, rfl⟩ := exists_macText (hl m List.mem_cons_self)
    rw [List.foldl_cons, ih (fun m' h => hl m' (List.mem_cons_of_mem _ h)) fun h => hm (List.mem_cons_of_mem _ h)]
    cases trackMac_counts table address with
    | there _ hlist _ => rw [hlist]
    | placed _ _ hlist _ => exact hlist mac fun h => hm (h ▸ List.mem_cons_self)
    | full _ _ ht => rw [ht]

/-- The loop gives every MAC one entry just when the list fits. -/
theorem trackLoop_listings {listed : List (CString APP_CONFIG_ALLOWED_MAC_LEN)}
    (hl : ∀ m ∈ listed, CanonicalMac m.bytes) (hn : listed.Nodup) (table : BleDeviceTable n) :
    (∀ mac ∈ listed, listings (listed.foldl trackMac table) mac = 1) ↔ ConfigFits listed table := by
  unfold ConfigFits
  induction listed generalizing table with
  | nil => simp
  | cons m listed ih =>
    obtain ⟨address, rfl⟩ := exists_macText (hl m List.mem_cons_self)
    obtain ⟨hnot, hn'⟩ := List.nodup_cons.1 hn
    have hl' : ∀ m ∈ listed, CanonicalMac m.bytes := fun m' h => hl m' (List.mem_cons_of_mem _ h)
    have hfirst := trackLoop_other hl' hnot (trackMac table (macText address))
    have hother : ∀ m' ∈ listed, m' ≠ macText address := fun m' h he => hnot (he ▸ h)
    rw [List.foldl_cons, List.forall_mem_cons, List.forall_mem_cons, hfirst, ih hl' hn', List.countP_cons]
    cases trackMac_counts table address with
    | there h hlist hf =>
      rw [hlist, hf, if_neg (by simpa using h)]
      constructor
      · rintro ⟨h1, hall, hc⟩
        exact ⟨⟨h1.le, hall⟩, hc⟩
      · rintro ⟨⟨h1, hall⟩, hc⟩
        exact ⟨by omega, hall, hc⟩
    | placed h h' hlist hf =>
      have hcount : (listed.countP fun m' => listings (trackMac table (macText address)) m' = 0) =
          listed.countP fun m' => listings table m' = 0 :=
        List.countP_congr fun m' hm' => by rw [hlist m' (hother m' hm')]
      have hle : (∀ m' ∈ listed, listings (trackMac table (macText address)) m' ≤ 1) ↔
          ∀ m' ∈ listed, listings table m' ≤ 1 :=
        forall₂_congr fun m' hm' => by rw [hlist m' (hother m' hm')]
      rw [hcount, hle, h', h, if_pos (decide_eq_true rfl)]
      constructor
      · rintro ⟨-, hall, hc⟩
        exact ⟨⟨by omega, hall⟩, by omega⟩
      · rintro ⟨⟨-, hall⟩, hc⟩
        exact ⟨rfl, hall, by omega⟩
    | full h hf ht =>
      rw [ht, h, hf, if_pos (decide_eq_true rfl)]
      exact iff_of_false (fun hall => absurd hall.1 (by decide)) fun hall => absurd hall.2 (by omega)

theorem selectAllowed_listings (macs : List (CString APP_CONFIG_ALLOWED_MAC_LEN)) (table : BleDeviceTable n) :
    listings (selectAllowed macs table) = listings table ∧
      freeSlots (selectAllowed macs table) = freeSlots table := by
  have ha (i : Fin n) : (selectAllowed macs table i).address = (table i).address :=
    congrArg Prod.fst (selectAllowed_device i)
  constructor
  · funext mac
    unfold listings slotCount
    exact Finset.sum_congr rfl fun i _ => by rw [lists_congr (selectAllowed_inUse i) (ha i)]
  · unfold freeSlots slotCount
    refine Finset.sum_congr rfl fun i _ => ?_
    dsimp only
    rw [selectAllowed_inUse i]

/-! ## Runs -/

inductive ScannerOp where
  | applyConfig (config : Option AppConfig)
  | report (r : AdvertisingReport) (nowMs : UInt32)
  | periodic (nowMs : UInt32)

/-- An allow list that a configuration can hold: at most 128 canonical MACs, all different. -/
structure AllowList (config : Option AppConfig) : Prop where
  canonical : CanonicalList config
  nodup : ∀ c, config = some c → c.allowedMacs.Nodup
  length : ∀ c, config = some c → c.allowedMacs.length ≤ APP_CONFIG_ALLOWED_MAC_MAX_COUNT

def ScannerOp.Allowed : ScannerOp → Prop
  | .applyConfig config => AllowList config
  | _ => True

section
variable {V : Type} [NatCast V] [IntCast V] [Div V] (fixed : Nat → V → Bytes)

/-- No report reads outside its data (`bthome_decoding`). -/
def ScannerOp.exec (s : BleState V) : ScannerOp → BleState V
  | .applyConfig config => { s with scanner := bleScannerApplyConfig config s.scanner }
  | .report r nowMs => (blePacketHandler fixed r nowMs s).getD s
  | .periodic nowMs => { s with scanner := bleScannerPeriodic nowMs s.scanner }

/-- The condition on a call in a state that the list is kept under. -/
def ScannerOp.Fits (s : BleState V) : ScannerOp → Prop
  | .applyConfig config => ConfigFits (listOf config) s.scanner.table
  | .report r _ => (bthomeReference r.data : List (MeasurementField × V)) ≠ [] →
    ReportFits s.scanner.allowedMacs s.scanner.table r.address r.addressType
  | .periodic _ => True

/-- The text an entry is shown with is not part of what lists it. -/
theorem writeText_keeps (table : BleDeviceTable n) (i : Fin n) (text : CString BLE_DEVICE_BTHOME_DATA_MAX_LEN) :
    listings (Function.update table i { table i with bthomeData := text }) = listings table ∧
      (Integrity macs table → Integrity macs (Function.update table i { table i with bthomeData := text })) := by
  refine ⟨listings_update_same (lists_congr rfl rfl), fun h => ⟨fun j k hj hk hd => ?_, fun j hj => ?_⟩⟩
  · have hsame (l : Fin n) : (Function.update table i { table i with bthomeData := text } l).inUse =
      (table l).inUse ∧
        (Function.update table i { table i with bthomeData := text } l).device = (table l).device := by
      by_cases hl : l = i
      · rw [hl, Function.update_self]
        exact ⟨rfl, rfl⟩
      · rw [Function.update_of_ne hl]
        exact ⟨rfl, rfl⟩
    rw [(hsame j).1] at hj
    rw [(hsame k).1] at hk
    rw [(hsame j).2, (hsame k).2] at hd
    exact h.distinct j k hj hk hd
  · by_cases hji : j = i
    · rw [hji, Function.update_self] at hj ⊢
      exact ⟨(h.sound i hj).deviceId, (h.sound i hj).selected⟩
    · rw [Function.update_of_ne hji] at hj ⊢
      exact h.sound j hj

/-- A report with a reading updates the table, and any other leaves it. -/
inductive Reported (r : AdvertisingReport) (nowMs : UInt32) (s s' : BleState V) : Prop
  | nothing (h : (bthomeReference r.data : List (MeasurementField × V)) = []) (hs : s'.scanner = s.scanner)
  | updated (h : (bthomeReference r.data : List (MeasurementField × V)) ≠ [])
      (hm : s'.scanner.allowedMacs = s.scanner.allowedMacs)
    (hl : listings s'.scanner.table =
      listings (bleDeviceTableUpdate s.scanner.allowedMacs r.address r.addressType r.rssi nowMs s.scanner.table))
    (hi : Integrity s.scanner.allowedMacs s.scanner.table → Integrity s.scanner.allowedMacs s'.scanner.table)

theorem report_exec (r : AdvertisingReport) (nowMs : UInt32) (s : BleState V) :
    Reported r nowMs s (ScannerOp.exec fixed s (.report r nowMs)) := by
  obtain ⟨scratch, hparse⟩ := parse_eq fixed s.scanner.allowedMacs .zero r.address (Nat.le_of_lt_succ r.fits)
    nowMs s.store
  dsimp only [ScannerOp.exec]
  unfold blePacketHandler
  rw [hparse]
  simp only [Option.bind_eq_bind, Option.bind_some, Option.pure_def]
  by_cases hnone : (bthomeReference r.data : List (MeasurementField × V)) = []
  · rw [hnone]
    exact .nothing hnone rfl
  · rw [Bool.not_not, List.isEmpty_eq_false_iff.2 hnone, if_neg Bool.false_ne_true]
    have hint (h : Integrity s.scanner.allowedMacs s.scanner.table) : Integrity s.scanner.allowedMacs
        (bleDeviceTableUpdate s.scanner.allowedMacs r.address r.addressType r.rssi nowMs s.scanner.table) :=
          update_integrity h
    cases hfind : bleDeviceTableFind
      (bleDeviceTableUpdate s.scanner.allowedMacs r.address r.addressType r.rssi nowMs
        s.scanner.table) r.address r.addressType with
    | none => exact .updated hnone rfl rfl hint
    | some i =>
      obtain ⟨hl, hi⟩ := @writeText_keeps _ s.scanner.allowedMacs
        (bleDeviceTableUpdate s.scanner.allowedMacs r.address r.addressType
          r.rssi nowMs s.scanner.table) i (.copy _ (CString.bytes (BleDeviceEntry.bthomeData scratch)))
      exact .updated hnone rfl hl fun h => hi (hint h)

/-! ## The run -/

/-- The state after `ble_scanner_init`. -/
def bleStateInit (store : MeasurementStore V) : BleState V := ⟨bleScannerInit, store⟩

theorem listOf_nodup {config : Option AppConfig} (h : AllowList config) : (listOf config).Nodup := by
  cases config with
  | none => exact List.nodup_nil
  | some c => exact (h.nodup c rfl).sublist (List.take_sublist _ _)

theorem scannerOp_integrity {s : BleState V} {op : ScannerOp}
    (h : Integrity s.scanner.allowedMacs s.scanner.table) (hop : op.Allowed) :
    Integrity (op.exec fixed s).scanner.allowedMacs (op.exec fixed s).scanner.table := by
  cases op with
  | applyConfig config => exact @exec_integrity _ (.applyConfig config) h hop.canonical
  | periodic nowMs => exact @exec_integrity _ (.periodic nowMs) h trivial
  | report r nowMs =>
    cases report_exec fixed r nowMs s with
    | nothing _ hs => rwa [hs]
    | updated _ hm _ hi =>
      rw [hm]
      exact hi h

/-- A call keeps the list just when it fits. -/
theorem fits_iff {s : BleState V} {op : ScannerOp} (h : Integrity s.scanner.allowedMacs s.scanner.table)
    (hop : op.Allowed) (hp : ListedOnce s.scanner.allowedMacs s.scanner.table) :
    op.Fits s ↔ ListedOnce (op.exec fixed s).scanner.allowedMacs (op.exec fixed s).scanner.table := by
  rw [listedOnce_iff (scannerOp_integrity fixed h hop)]
  rw [listedOnce_iff h] at hp
  cases op with
  | applyConfig config =>
    dsimp only [ScannerOp.exec, ScannerOp.Fits]
    rw [applyConfig_eq]
    dsimp only
    rw [trackLoop_listings (canonical_listOf hop.canonical) (listOf_nodup hop)]
    unfold ConfigFits
    rw [(selectAllowed_listings _ _).1, (selectAllowed_listings _ _).2]
  | report r nowMs =>
    dsimp only [ScannerOp.Fits]
    cases report_exec fixed r nowMs s with
    | nothing hnone hs =>
      rw [hs]
      exact iff_of_true (fun hne => absurd hnone hne) hp
    | updated hne hm hl _ =>
      rw [hm, hl, update_listings h hp]
      exact ⟨fun h => h hne, fun h _ => h⟩
  | periodic nowMs =>
    dsimp only [ScannerOp.exec, ScannerOp.Fits, bleScannerPeriodic]
    exact iff_of_true trivial fun mac hmac => (periodic_listings h nowMs mac hmac).trans (hp mac hmac)

/-- **Tracked devices stay listed exactly once** in the runs whose calls all fit, and
in no other. -/
theorem tracked_once (store : MeasurementStore V) (ops : List ScannerOp) (h : ∀ op ∈ ops, op.Allowed) :
    EveryStep (ScannerOp.exec fixed) (fun s op => op.Fits s) (bleStateInit store) ops ↔
      ∀ k, ListedOnce (run (ScannerOp.exec fixed) (bleStateInit store) (ops.take k)).scanner.allowedMacs
        (run (ScannerOp.exec fixed) (bleStateInit store) (ops.take k)).scanner.table := by
  have hok : EveryStep (ScannerOp.exec fixed) (fun _ op => op.Allowed) (bleStateInit store) ops :=
    .of_forall fun op hop _ => h op hop
  refine everyStep_iff (I := fun s => Integrity s.scanner.allowedMacs s.scanner.table)
    (P := fun s => ListedOnce s.scanner.allowedMacs s.scanner.table) hok init_integrity
    (fun s op hs hop => scannerOp_integrity fixed hs hop) (fun s op hs hop hp => fits_iff fixed hs hop hp) ?_
  exact fun mac hmac => absurd hmac List.not_mem_nil
end

/-! ## A sensor with a random address -/

/-- The sensor is on the allow list. -/
def sensorConfig : AppConfig := { appConfigDefaults with allowedMacs := [macText sensorAddress] }

/-- It sends its battery level from a random address (type 1). -/
def sensorReport : AdvertisingReport :=
  ⟨sensorAddress, 1, -60, (bthomeStructure 0x40 [.battery 90]).encode, by decide⟩

theorem sensorConfig_allowed : (ScannerOp.applyConfig (some sensorConfig)).Allowed where
  canonical c hc mac hm := by
    rw [← Option.some.inj hc] at hm
    rw [List.mem_singleton.1 hm]
    exact canonical_macText _
  nodup c hc := by
    rw [← Option.some.inj hc]
    exact List.nodup_singleton _
  length c hc := by
    rw [← Option.some.inj hc]
    decide

/-- The placeholder has address type 0, so the report gets an entry of its own. -/
theorem random_address_listed_twice :
    (∀ op ∈ [ScannerOp.applyConfig (some sensorConfig), .report sensorReport 5000], op.Allowed) ∧
      ¬ListedOnce
        (run (ScannerOp.exec (V := Rat) fun _ _ => []) (bleStateInit (measurementStoreInit 0))
          [.applyConfig (some sensorConfig), .report sensorReport 5000]).scanner.allowedMacs
        (run (ScannerOp.exec (V := Rat) fun _ _ => []) (bleStateInit (measurementStoreInit 0))
          [.applyConfig (some sensorConfig), .report sensorReport 5000]).scanner.table := by
  refine ⟨?_, fun hlisted => ?_⟩
  · intro op hop
    simp only [List.mem_cons, List.not_mem_nil, or_false] at hop
    rcases hop with rfl | rfl
    · exact sensorConfig_allowed
    · trivial
  · let s := ScannerOp.exec (V := Rat) (fun _ _ => []) (bleStateInit (measurementStoreInit 0))
      (.applyConfig (some sensorConfig))
    have hi : Integrity s.scanner.allowedMacs s.scanner.table :=
      scannerOp_integrity _ init_integrity sensorConfig_allowed
    have hi' := @scannerOp_integrity Rat _ _ _ (fun _ _ => []) s (.report sensorReport 5000) hi trivial
    have hcount := (listedOnce_iff hi').1 hlisted (macText sensorAddress)
    have hread : (bthomeReference sensorReport.data : List (MeasurementField × Rat)) ≠ [] := by
      have h := @reference_encode Rat _ _ _ [] 0x40 [.battery 90] [] (fun o ho => absurd ho List.not_mem_nil)
        rfl rfl (by decide)
      rw [List.append_nil] at h
      exact ne_of_eq_of_ne h (List.cons_ne_nil _ _)
    cases report_exec (V := Rat) (fun _ _ => []) sensorReport 5000 s with
    | nothing h _ => exact hread h
    | updated _ hm hl _ =>
      rw [hm, hl] at hcount
      have htwo : listings (bleDeviceTableUpdate [macText sensorAddress] sensorAddress 1 (-60) 5000
          (bleScannerApplyConfig (some sensorConfig) bleScannerInit).table) (macText sensorAddress) = 2 :=
            by decide +kernel
      have hmacs : s.scanner.allowedMacs = [macText sensorAddress] := by
        dsimp only [s, ScannerOp.exec]
        rw [applyConfig_eq]
        rfl
      rw [hmacs] at hcount
      exact absurd ((hcount (List.mem_singleton_self _)).symm.trans htwo) (by decide)

/-- From its public address the report is of the entry that holds the place. -/
def publicOps : List ScannerOp :=
  [.applyConfig (some sensorConfig), .report { sensorReport with addressType := 0 } 5000, .periodic 70000]

theorem publicOps_fit : EveryStep (ScannerOp.exec (V := Rat) fun _ _ => []) (fun s op => op.Fits s)
    (bleStateInit (measurementStoreInit 0)) publicOps := by
  refine ⟨⟨?_, ?_⟩, fun _ => .inl ⟨0, ?_⟩, trivial, trivial⟩
  · decide +kernel
  · decide +kernel
  · decide +kernel

def publicRun : BleState Rat :=
  run (ScannerOp.exec fun _ _ => []) (bleStateInit (measurementStoreInit 0)) publicOps

theorem tracked_once_public : ListedOnce publicRun.scanner.allowedMacs publicRun.scanner.table ∧
    publicRun.scanner.allowedMacs = [macText sensorAddress] := by
  refine ⟨(tracked_once (fun _ _ => []) (measurementStoreInit 0) publicOps ?_).1 publicOps_fit 3, ?_⟩
  · intro op hop
    simp only [publicOps, List.mem_cons, List.not_mem_nil, or_false] at hop
    rcases hop with rfl | rfl | rfl
    · exact sensorConfig_allowed
    · trivial
    · trivial
  · decide +kernel

end BLEBridge
