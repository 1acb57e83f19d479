import BLEBridge.Lib.Bytes
import BLEBridge.Lib.Runs
import BLEBridge.Lib.SlotMap
/-!
# The tags of the Bluetooth stack

The store in RAM of `app_btstack_cyw43.c`: sixteen entries that the Bluetooth
stack reads, writes and deletes by their tags. To its callers it is a map of at
most sixteen tags to at most 128 bytes each (`tlv_bounded_map`).
-/
open Lib

namespace BLEBridge

def APP_BTSTACK_TLV_ENTRY_COUNT : Nat := 16
def APP_BTSTACK_TLV_VALUE_SIZE : Nat := 128

/-- `app_btstack_tlv_entry_t` -/
structure AppBtstackTlvEntry where
  used : Bool
  tag : UInt32
  size : UInt16
  value : Fin APP_BTSTACK_TLV_VALUE_SIZE → UInt8

/-- What `memset` leaves. -/
def AppBtstackTlvEntry.zero : AppBtstackTlvEntry := ⟨false, 0, 0, fun _ => 0⟩

abbrev AppBtstackTlv : Type := Fin APP_BTSTACK_TLV_ENTRY_COUNT → AppBtstackTlvEntry

/-- `data` and `data_size`: the bytes at the pointer, if there is one. -/
structure TlvData where
  data : Option Bytes
  dataSize : UInt32
  readable : ∀ bytes, data = some bytes → dataSize.toNat ≤ bytes.length

/-- The bytes that are copied. -/
def TlvData.bytes (d : TlvData) : Bytes := (d.data.getD []).take d.dataSize.toNat

/-- `buffer` and `buffer_size`: the bytes at the pointer, if there is one. -/
structure TlvBuffer where
  buffer : Option Bytes
  bufferSize : UInt32
  writable : ∀ bytes, buffer = some bytes → bufferSize.toNat ≤ bytes.length

/-- `memcpy(value, data, size)` -/
def copyValue (value : Fin APP_BTSTACK_TLV_VALUE_SIZE → UInt8) (data : Bytes) :
    Fin APP_BTSTACK_TLV_VALUE_SIZE → UInt8 :=
  fun j => data.getD j (value j)

def AppBtstackTlvEntry.isFor (entry : AppBtstackTlvEntry) (tag : UInt32) : Bool := entry.used && entry.tag = tag

/-- The size it returns, and the buffer after it. -/
def appBtstackTlvGet (entries : AppBtstackTlv) (tag : UInt32) (b : TlvBuffer) : Nat × Option Bytes :=
  match (List.finRange APP_BTSTACK_TLV_ENTRY_COUNT).find? fun i => (entries i).isFor tag with
  | none => (0, b.buffer)
  | some i =>
    let size := (entries i).size.toNat
    if b.bufferSize > 0 then
      let copySize := if size < b.bufferSize.toNat then size else b.bufferSize.toNat
      (size, b.buffer.map fun buffer => memcpy buffer 0 ((List.ofFn (entries i).value).take copySize))
    else (size, b.buffer)

/-- The loop of `app_btstack_tlv_store`, with `free_entry` so far. -/
def tlvStoreLoop (entries : AppBtstackTlv) (tag : UInt32) :
    List (Fin APP_BTSTACK_TLV_ENTRY_COUNT) → Option (Fin APP_BTSTACK_TLV_ENTRY_COUNT) →
      Option (Fin APP_BTSTACK_TLV_ENTRY_COUNT)
  | [], freeEntry => freeEntry
  | i :: rest, freeEntry =>
    if (entries i).isFor tag then some i
    else tlvStoreLoop entries tag rest (if (entries i).used = false ∧ freeEntry = none then some i else freeEntry)

/-- What it returns, and the entries after it. -/
def appBtstackTlvStore (entries : AppBtstackTlv) (tag : UInt32) (d : TlvData) : Nat × AppBtstackTlv :=
  if d.dataSize.toNat > APP_BTSTACK_TLV_VALUE_SIZE ∨ d.dataSize > 0 ∧ d.data = none then (1, entries)
  else
    match tlvStoreLoop entries tag (List.finRange APP_BTSTACK_TLV_ENTRY_COUNT) none with
    | none => (1, entries)
    | some i =>
      let value := if d.dataSize > 0 then copyValue (entries i).value d.bytes else (entries i).value
      (0, Function.update entries i ⟨true, tag, d.dataSize.toUInt16, value⟩)

def appBtstackTlvDelete (entries : AppBtstackTlv) (tag : UInt32) : AppBtstackTlv :=
  match (List.finRange APP_BTSTACK_TLV_ENTRY_COUNT).find? fun i => (entries i).isFor tag with
  | none => entries
  | some i => Function.update entries i .zero

/-- After `btstack_cyw43_init`. -/
def AppBtstackTlv.zero : AppBtstackTlv := fun _ => .zero

/-! ## The map it stands for -/

/-- At most sixteen tags, each with its bytes. -/
abbrev TlvMap : Type := Finmap fun _ : UInt32 => Bytes

/-- The bytes at the pointer after `value` was read into them. -/
def TlvBuffer.filled (b : TlvBuffer) (value : Bytes) : Option Bytes :=
  b.buffer.map fun buffer => memcpy buffer 0 (value.take b.bufferSize.toNat)

inductive TlvCall where
  | get (tag : UInt32) (b : TlvBuffer)
  | store (tag : UInt32) (d : TlvData)
  | delete (tag : UInt32)

def TlvCall.tag : TlvCall → UInt32
  | .get tag _ => tag
  | .store tag _ => tag
  | .delete tag => tag

/-- What a call returns, with the buffer it may have filled. -/
def TlvCall.run (call : TlvCall) (entries : AppBtstackTlv) : (Nat × Option Bytes) × AppBtstackTlv :=
  match call with
  | .get tag b => (appBtstackTlvGet entries tag b, entries)
  | .store tag d => (((appBtstackTlvStore entries tag d).1, none), (appBtstackTlvStore entries tag d).2)
  | .delete tag => ((0, none), appBtstackTlvDelete entries tag)

/-- When a store is refused. -/
def TlvData.RefusedBy (d : TlvData) (tag : UInt32) (m : TlvMap) : Prop :=
  128 < d.dataSize.toNat ∨ (0 < d.dataSize.toNat ∧ d.data = none) ∨ (tag ∉ m ∧ m.keys.card = 16)

instance (d : TlvData) (tag : UInt32) (m : TlvMap) : Decidable (d.RefusedBy tag m) :=
  inferInstanceAs (Decidable (_ ∨ _ ∨ _))

/-- What a call should return and do to the map. -/
def TlvCall.apply (call : TlvCall) (m : TlvMap) : (Nat × Option Bytes) × TlvMap :=
  match call with
  | .get tag b =>
    match m.lookup tag with
    | none => ((0, b.buffer), m)
    | some value => ((value.length, b.filled value), m)
  | .store tag d => if d.RefusedBy tag m then ((1, none), m) else ((0, none), m.insert tag d.bytes)
  | .delete tag => ((0, none), m.erase tag)

/-! ## The entries as slots -/

def AppBtstackTlvEntry.content (entry : AppBtstackTlvEntry) : Bytes :=
  (List.ofFn entry.value).take entry.size.toNat

def AppBtstackTlvEntry.slot (entry : AppBtstackTlvEntry) : Option (UInt32 × Bytes) :=
  if entry.used then some (entry.tag, entry.content) else none

def AppBtstackTlv.slots (entries : AppBtstackTlv) : SlotMap APP_BTSTACK_TLV_ENTRY_COUNT UInt32 Bytes :=
  fun i => (entries i).slot

variable {entries : AppBtstackTlv} {tag : UInt32} {m : TlvMap}

theorem slots_update (i : Fin APP_BTSTACK_TLV_ENTRY_COUNT) (entry : AppBtstackTlvEntry) :
    AppBtstackTlv.slots (Function.update entries i entry) = Function.update entries.slots i entry.slot := by
  funext j
  unfold AppBtstackTlv.slots
  rw [Function.update_apply, Function.update_apply]
  split <;> rfl

theorem slot_isFor (entry : AppBtstackTlvEntry) (tag : UInt32) :
    entry.isFor tag = entry.slot.any fun e => e.1 = tag := by
  unfold AppBtstackTlvEntry.isFor AppBtstackTlvEntry.slot
  cases entry.used <;> rfl

theorem slot_free (entry : AppBtstackTlvEntry) : decide (entry.used = false) = entry.slot.isNone := by
  unfold AppBtstackTlvEntry.slot
  cases entry.used <;> rfl

/-- The entry that `app_btstack_tlv_get` and `app_btstack_tlv_delete` find. -/
theorem find_isFor (entries : AppBtstackTlv) (tag : UInt32) :
    ((List.finRange APP_BTSTACK_TLV_ENTRY_COUNT).find? fun i => (entries i).isFor tag) =
      entries.slots.slotOf tag := by
  unfold SlotMap.slotOf
  congr 1
  funext i
  exact slot_isFor (entries i) tag

theorem storeLoop_eq (entries : AppBtstackTlv) (tag : UInt32) (is : List (Fin APP_BTSTACK_TLV_ENTRY_COUNT))
    (freeEntry : Option (Fin APP_BTSTACK_TLV_ENTRY_COUNT)) : tlvStoreLoop entries tag is freeEntry =
      (is.find? fun i => (entries i).isFor tag).or
      (freeEntry.or (is.find? fun i => (entries i).used = false)) := by
  induction is generalizing freeEntry with
  | nil => simp [tlvStoreLoop]
  | cons i is ih =>
    unfold tlvStoreLoop
    by_cases hfor : (entries i).isFor tag = true
    · simp only [List.find?_cons, hfor, if_true, Option.some_or]
    · rw [if_neg hfor, ih, List.find?_cons, Bool.eq_false_iff.2 hfor]
      congr 1
      cases hused : (entries i).used
      · cases freeEntry <;> simp [hused]
      · simp [hused]

/-- The store takes the tag's own entry, even after a free one. -/
theorem storeLoop_slot (entries : AppBtstackTlv) (tag : UInt32) :
    tlvStoreLoop entries tag (List.finRange APP_BTSTACK_TLV_ENTRY_COUNT) none =
      (entries.slots.slotOf tag).or entries.slots.freeSlot := by
  have hfree : ((List.finRange APP_BTSTACK_TLV_ENTRY_COUNT).find? fun i => (entries i).used = false) =
      entries.slots.freeSlot := by
    unfold SlotMap.freeSlot
    congr 1
    funext i
    exact slot_free (entries i)
  rw [storeLoop_eq, find_isFor, hfree, Option.none_or]

/-! ## Values -/

theorem copyValue_take {value : Fin APP_BTSTACK_TLV_VALUE_SIZE → UInt8} {data : Bytes}
    (h : data.length ≤ APP_BTSTACK_TLV_VALUE_SIZE) :
    (List.ofFn (copyValue value data)).take data.length = data := by
  apply List.ext_getElem
  · rw [List.length_take, List.length_ofFn]
    omega
  · intro j hj hj'
    rw [List.getElem_take, List.getElem_ofFn]
    exact List.getD_eq_getElem _ _ hj'

theorem TlvData.bytes_length {d : TlvData} (h : ¬(0 < d.dataSize.toNat ∧ d.data = none)) :
    d.bytes.length = d.dataSize.toNat := by
  unfold TlvData.bytes
  cases hdata : d.data with
  | none =>
    have hzero : d.dataSize.toNat = 0 := by
      by_contra hpos
      exact h ⟨Nat.pos_of_ne_zero hpos, hdata⟩
    rw [hzero]
    rfl
  | some bytes => exact List.length_take_of_le (d.readable bytes hdata)

theorem slot_some {entry : AppBtstackTlvEntry} {value : Bytes} (h : entry.slot = some (tag, value)) :
    value = entry.content := by
  unfold AppBtstackTlvEntry.slot at h
  split at h
  · exact (congrArg Prod.snd (Option.some.inj h)).symm
  · cases h

/-- Only as many bytes are copied as the buffer takes and the entry has. -/
theorem TlvBuffer.filled_content (b : TlvBuffer) (entry : AppBtstackTlvEntry) : b.filled entry.content =
    if b.bufferSize > 0 then
      b.buffer.map fun buffer => memcpy buffer 0 ((List.ofFn entry.value).take
        (if entry.size.toNat < b.bufferSize.toNat then entry.size.toNat else b.bufferSize.toNat))
    else b.buffer := by
  unfold TlvBuffer.filled AppBtstackTlvEntry.content
  split
  · rw [List.take_take, Nat.min_def]
    congr 2
    funext buffer
    congr 2
    split <;> split <;> omega
  · rename_i hsize
    have hzero : b.bufferSize.toNat = 0 :=
      Nat.eq_zero_of_not_pos fun hpos => hsize (UInt32.lt_iff_toNat_lt.2 hpos)
    rw [hzero]
    exact Option.map_id'

/-- An entry as a store leaves it. -/
theorem stored_slot (tag : UInt32) {d : TlvData} (hsize : d.dataSize.toNat ≤ APP_BTSTACK_TLV_VALUE_SIZE)
    (hdata : ¬(0 < d.dataSize.toNat ∧ d.data = none)) (value : Fin APP_BTSTACK_TLV_VALUE_SIZE → UInt8) :
    AppBtstackTlvEntry.slot ⟨true, tag, d.dataSize.toUInt16, if d.dataSize > 0 then copyValue value d.bytes
      else value⟩ =
        some (tag, d.bytes) := by
  have hlength := TlvData.bytes_length hdata
  have htoNat : d.dataSize.toUInt16.toNat = d.dataSize.toNat := by
    rw [UInt32.toNat_toUInt16, Nat.mod_eq_of_lt (lt_of_le_of_lt hsize (by decide))]
  unfold AppBtstackTlvEntry.slot AppBtstackTlvEntry.content
  rw [if_pos rfl]
  dsimp only
  rw [htoNat, ← hlength]
  split
  · rw [copyValue_take (hlength ▸ hsize)]
  · rename_i hpos
    have hzero : d.bytes.length = 0 := by
      rw [hlength]
      exact Nat.eq_zero_of_not_pos fun h => hpos (UInt32.lt_iff_toNat_lt.2 h)
    rw [hzero, List.take_zero, List.length_eq_zero_iff.1 hzero]

/-! ## One call -/

/-- The entries hold the map, and no size is too large. -/
structure Stores (entries : AppBtstackTlv) (m : TlvMap) : Prop where
  holds : entries.slots.Holds m
  size_le : ∀ i, (entries i).size.toNat ≤ APP_BTSTACK_TLV_VALUE_SIZE

namespace Stores

theorem zero : Stores AppBtstackTlv.zero ∅ := ⟨.empty, fun _ => Nat.zero_le _⟩

theorem content_length (h : Stores entries m) (i : Fin APP_BTSTACK_TLV_ENTRY_COUNT) :
    (entries i).content.length = (entries i).size.toNat := by
  unfold AppBtstackTlvEntry.content
  rw [List.length_take_of_le]
  rw [List.length_ofFn]
  exact h.size_le i

theorem write (h : Stores entries m) {i : Fin APP_BTSTACK_TLV_ENTRY_COUNT}
    {entry : AppBtstackTlvEntry} {m' : TlvMap} (hsize : entry.size.toNat ≤ APP_BTSTACK_TLV_VALUE_SIZE)
    (hholds : SlotMap.Holds (Function.update entries.slots i entry.slot) m') :
    Stores (Function.update entries i entry) m' where
  holds := by
    rw [slots_update]
    exact hholds
  size_le j := by
    rw [Function.update_apply]
    split
    · exact hsize
    · exact h.size_le j

theorem get_spec (h : Stores entries m) (tag : UInt32) (b : TlvBuffer) :
    appBtstackTlvGet entries tag b = ((TlvCall.get tag b).apply m).1 := by
  unfold appBtstackTlvGet TlvCall.apply
  dsimp only
  rw [find_isFor, h.holds.lookup]
  unfold SlotMap.lookup
  cases hslot : entries.slots.slotOf tag with
  | none => rfl
  | some i =>
    obtain ⟨value, hvalue⟩ := SlotMap.slotOf_some hslot
    have hcontent : value = (entries i).content := slot_some hvalue
    rw [Option.bind_some, hvalue, Option.map_some]
    dsimp only
    rw [hcontent, h.content_length, b.filled_content]
    split <;> rfl

theorem store_spec (h : Stores entries m) (tag : UInt32) (d : TlvData) :
    (appBtstackTlvStore entries tag d).1 = ((TlvCall.store tag d).apply m).1.1 ∧
      (d.RefusedBy tag m → (appBtstackTlvStore entries tag d).2 = entries) ∧
      Stores (appBtstackTlvStore entries tag d).2 ((TlvCall.store tag d).apply m).2 := by
  unfold appBtstackTlvStore TlvCall.apply
  dsimp only
  by_cases hdata : d.dataSize.toNat > APP_BTSTACK_TLV_VALUE_SIZE ∨ d.dataSize > 0 ∧ d.data = none
  · have hrefused : d.RefusedBy tag m := by
      rcases hdata with hsize | ⟨hpos, hnone⟩
      · exact .inl hsize
      · exact .inr (.inl ⟨UInt32.lt_iff_toNat_lt.1 hpos, hnone⟩)
    rw [if_pos hdata, if_pos hrefused]
    exact ⟨rfl, fun _ => rfl, h⟩
  · rw [if_neg hdata, storeLoop_slot]
    rw [not_or] at hdata
    cases hslot : (entries.slots.slotOf tag).or entries.slots.freeSlot with
    | none =>
      have hrefused : d.RefusedBy tag m := .inr (.inr (h.holds.no_slot_iff.1 hslot))
      rw [if_pos hrefused]
      exact ⟨rfl, fun _ => rfl, h⟩
    | some i =>
      have hsize : d.dataSize.toNat ≤ APP_BTSTACK_TLV_VALUE_SIZE := Nat.not_lt.1 hdata.1
      have hpresent : ¬(0 < d.dataSize.toNat ∧ d.data = none) :=
        fun h => hdata.2 ⟨UInt32.lt_iff_toNat_lt.2 h.1, h.2⟩
      -- Past the checks and with a slot, none of the reasons to refuse is left.
      have haccepted : ¬d.RefusedBy tag m := by
        rintro (hlarge | hmissing | hfull)
        · exact hdata.1 hlarge
        · exact hpresent hmissing
        · rw [h.holds.no_slot_iff.2 hfull] at hslot
          cases hslot
      rw [if_neg haccepted]
      refine ⟨rfl, fun hrefused => absurd hrefused haccepted, ?_⟩
      refine h.write ?_ ?_
      · rw [UInt32.toNat_toUInt16]
        exact (Nat.mod_le _ _).trans hsize
      · rw [stored_slot tag hsize hpresent (entries i).value]
        exact h.holds.put (.of_slot h.holds.distinct hslot) d.bytes

theorem delete_spec (h : Stores entries m) (tag : UInt32) :
    Stores (appBtstackTlvDelete entries tag) (m.erase tag) := by
  unfold appBtstackTlvDelete
  rw [find_isFor]
  cases hslot : entries.slots.slotOf tag with
  | none => exact ⟨h.holds.erase_absent hslot, h.size_le⟩
  | some i =>
    obtain ⟨value, hvalue⟩ := SlotMap.slotOf_some hslot
    exact h.write (Nat.zero_le _) (h.holds.clear hvalue)

/-- A call returns what it should and does to the map what it should. -/
theorem call_spec (h : Stores entries m) (call : TlvCall) :
    (call.run entries).1 = (call.apply m).1 ∧ Stores (call.run entries).2 (call.apply m).2 := by
  cases call with
  | get tag b =>
    refine ⟨h.get_spec tag b, ?_⟩
    have hsame : ((TlvCall.get tag b).apply m).2 = m := by
      unfold TlvCall.apply
      dsimp only
      split <;> rfl
    rw [hsame]
    exact h
  | store tag d =>
    obtain ⟨hresult, -, hstores⟩ := h.store_spec tag d
    refine ⟨Prod.ext hresult ?_, hstores⟩
    unfold TlvCall.apply
    dsimp only
    split <;> rfl
  | delete tag => exact ⟨rfl, h.delete_spec tag⟩

theorem calls_spec (h : Stores entries m) (calls : List TlvCall) :
    (results TlvCall.run calls entries).1 = (results TlvCall.apply calls m).1 ∧
      Stores (results TlvCall.run calls entries).2 (results TlvCall.apply calls m).2 :=
  results_simulates Stores (fun call _ _ hcall => hcall.call_spec call) calls h

theorem distinct (h : Stores entries m) {i j : Fin APP_BTSTACK_TLV_ENTRY_COUNT} (hi : (entries i).used = true)
    (hj : (entries j).used = true) (htag : (entries i).tag = (entries j).tag) : i = j := by
  have hslot : ∀ k, (entries k).used = true → entries.slots k = some ((entries k).tag, (entries k).content) :=
    fun k hk => if_pos hk
  exact h.holds.distinct i j _ _ _ (hslot i hi) (htag ▸ hslot j hj)

theorem no_room_iff (h : Stores entries m) (tag : UInt32) :
    (tag ∉ m ∧ m.keys.card = 16) ↔ ∀ i, (entries i).used = true ∧ (entries i).tag ≠ tag := by
  have hslot : ∀ i, entries.slots i = if (entries i).used then some ((entries i).tag, (entries i).content)
      else none := fun _ => rfl
  rw [h.holds.mem_iff, show (16 : Nat) = APP_BTSTACK_TLV_ENTRY_COUNT from rfl, h.holds.full_iff]
  constructor
  · rintro ⟨habsent, hfull⟩ i
    have hused : (entries i).used = true := by
      by_contra hfree
      exact hfull i (by rw [hslot, if_neg hfree])
    refine ⟨hused, fun htag => habsent ⟨i, (entries i).content, ?_⟩⟩
    rw [hslot, if_pos hused, htag]
  · intro hall
    constructor
    · rintro ⟨i, value, hi⟩
      rw [hslot, if_pos (hall i).1] at hi
      exact (hall i).2 (congrArg Prod.fst (Option.some.inj hi))
    · intro i hi
      rw [hslot, if_pos (hall i).1] at hi
      cases hi

end Stores

theorem apply_refused {d : TlvData} (h : d.RefusedBy tag m) :
    (TlvCall.store tag d).apply m = ((1, none), m) := if_pos h

theorem apply_accepted {d : TlvData} (h : ¬d.RefusedBy tag m) :
    (TlvCall.store tag d).apply m = ((0, none), m.insert tag d.bytes) := if_neg h

theorem Stores.refused_iff (h : Stores entries m) (tag : UInt32) (d : TlvData) :
    (appBtstackTlvStore entries tag d).1 = 1 ↔ d.RefusedBy tag m := by
  rw [(h.store_spec tag d).1]
  by_cases hr : d.RefusedBy tag m
  · rw [apply_refused hr]
    exact ⟨fun _ => hr, fun _ => rfl⟩
  · rw [apply_accepted hr]
    exact ⟨fun h0 => absurd h0 Nat.zero_ne_one, fun h0 => absurd h0 hr⟩

/-! ## One tag among the others -/

/-- The call may change the value of the tag. -/
def TlvCall.Writes (call : TlvCall) (tag : UInt32) : Prop :=
  match call with
  | .get _ _ => False
  | .store tag' _ => tag' = tag
  | .delete tag' => tag' = tag

theorem apply_lookup {call : TlvCall} (h : ¬call.Writes tag) (m : TlvMap) :
    (call.apply m).2.lookup tag = m.lookup tag := by
  cases call with
  | get tag' b =>
    unfold TlvCall.apply
    dsimp only
    split <;> rfl
  | store tag' d =>
    unfold TlvCall.apply
    dsimp only
    split
    · rfl
    · exact Finmap.lookup_insert_of_ne _ fun he => h he.symm
  | delete tag' => exact Finmap.lookup_erase_ne fun he => h he.symm

theorem applyAll_lookup {calls : List TlvCall} (h : ∀ call ∈ calls, ¬call.Writes tag) (m : TlvMap) :
    (results TlvCall.apply calls m).2.lookup tag = m.lookup tag := by
  induction calls generalizing m with
  | nil => rfl
  | cons call calls ih =>
    obtain ⟨hcall, hcalls⟩ := List.forall_mem_cons.1 h
    exact (ih hcalls _).trans (apply_lookup hcall m)

theorem not_writes_of_ne {call : TlvCall} (h : call.tag ≠ tag) : ¬call.Writes tag := by
  cases call with
  | get tag' b => exact id
  | store tag' d => exact h
  | delete tag' => exact h

/-- What a get returns depends only on the value of its tag. -/
theorem Stores.get_congr {entries' : AppBtstackTlv} {m' : TlvMap}
    (h : Stores entries m) (h' : Stores entries' m') (heq : m'.lookup tag = m.lookup tag) (b : TlvBuffer) :
    appBtstackTlvGet entries' tag b = appBtstackTlvGet entries tag b := by
  rw [h.get_spec, h'.get_spec]
  unfold TlvCall.apply
  dsimp only
  rw [heq]
  cases m.lookup tag <;> rfl

theorem Stores.get_stored (h : Stores entries m) {value : Bytes} (hvalue : m.lookup tag = some value)
    (b : TlvBuffer) : appBtstackTlvGet entries tag b = (value.length, b.filled value) := by
  rw [h.get_spec]
  unfold TlvCall.apply
  dsimp only
  rw [hvalue]

/-- **The tag store is a bounded map.** After any calls on the zeroed table, what
they returned is what the map returns, and no tag is used twice. A store is refused
just when the data is too long or missing, or the tag is absent and every entry is
used, and then it changes nothing. Otherwise, until the next store or delete of the
tag, a get returns the size of the data and copies it to the buffer. A call on
another tag does not change that. -/
theorem tlv_bounded_map (calls : List TlvCall) :
    let entries := (results TlvCall.run calls AppBtstackTlv.zero).2
    (results TlvCall.run calls AppBtstackTlv.zero).1 = (results TlvCall.apply calls ∅).1 ∧
      (results TlvCall.apply calls ∅).2.keys.card ≤ 16 ∧
      (∀ i j, (entries i).used = true → (entries j).used = true → (entries i).tag = (entries j).tag → i = j) ∧
      (∀ tag d, ((appBtstackTlvStore entries tag d).1 = 1 ↔
          128 < d.dataSize.toNat ∨ (0 < d.dataSize.toNat ∧ d.data = none) ∨ ∀ i, (entries i).used = true ∧
            (entries i).tag ≠ tag) ∧
        ((appBtstackTlvStore entries tag d).1 = 1 → (appBtstackTlvStore entries tag d).2 = entries)) ∧
      (∀ tag d, (appBtstackTlvStore entries tag d).1 ≠ 1 →
        ∀ later : List TlvCall, (∀ call ∈ later, ¬call.Writes tag) →
        ∀ b, appBtstackTlvGet (results TlvCall.run later (appBtstackTlvStore entries tag d).2).2 tag b =
          (d.dataSize.toNat, b.filled d.bytes)) ∧
      ∀ call tag, TlvCall.tag call ≠ tag →
        ∀ b, appBtstackTlvGet (call.run entries).2 tag b = appBtstackTlvGet entries tag b := by
  intro entries
  obtain ⟨hresults, h⟩ := Stores.zero.calls_spec calls
  refine ⟨hresults, h.holds.card_le, ?_, ?_, ?_, ?_⟩
  · intro i j hi hj htag
    exact h.distinct hi hj htag
  · intro tag d
    constructor
    · rw [h.refused_iff, TlvData.RefusedBy, h.no_room_iff]
    · intro hone
      exact (h.store_spec tag d).2.1 ((h.refused_iff tag d).1 hone)
  · intro tag d hzero later hlater b
    have haccepted := (h.refused_iff tag d).not.1 hzero
    have hstored := (h.store_spec tag d).2.2
    rw [apply_accepted haccepted] at hstored
    have hvalue := applyAll_lookup hlater ((results TlvCall.apply calls ∅).2.insert tag d.bytes)
    rw [Finmap.lookup_insert] at hvalue
    rw [(hstored.calls_spec later).2.get_stored hvalue,
      TlvData.bytes_length fun hmissing => haccepted (.inr (.inl hmissing))]
  · intro call tag htag b
    exact h.get_congr (h.call_spec call).2 (apply_lookup (not_writes_of_ne htag) _) b

/-- The first three bytes of a longer buffer are stored. -/
def threeBytes : TlvData := ⟨some [1, 2, 3, 4], 3, fun bytes h => by cases h; decide⟩

/-- Two bytes to read into. -/
def twoBytes : TlvBuffer := ⟨some [0, 0], 2, fun bytes h => by cases h; decide⟩

def tlvCalls : List TlvCall := [.store 7 threeBytes, .get 7 twoBytes, .get 9 twoBytes, .delete 7, .get 7 twoBytes]

/-- A get fills its two bytes and returns that there were three. -/
theorem tlv_bounded_map_calls :
    (results TlvCall.run tlvCalls AppBtstackTlv.zero).1 =
        [(0, none), (3, some [1, 2]), (0, some [0, 0]), (0, none), (0, some [0, 0])] ∧
      appBtstackTlvGet (appBtstackTlvStore (results TlvCall.run tlvCalls AppBtstackTlv.zero).2 7 threeBytes).2
        7 twoBytes =
          (3, some [1, 2]) := by
  obtain ⟨hresults, -, -, -, hget, -⟩ := tlv_bounded_map tlvCalls
  constructor
  · rw [hresults]
    decide +kernel
  · exact hget 7 threeBytes (by decide +kernel) [] (fun _ h => absurd h List.not_mem_nil) twoBytes

end BLEBridge
