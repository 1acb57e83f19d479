import BLEBridge.BleDeviceTable
import BLEBridge.Lib.InPlace
import BLEBridge.ValidConfig
/-!
# MAC texts and addresses

`app_config_normalize_mac` as it works on memory, where the text may stand in the
buffer it writes to. It accepts `MacText`s only and writes their digits; a printed
address scans to itself and an accepted text to an address that prints as its digits,
so the allow list decides by addresses (`mac_texts_are_addresses`).
-/
open Lib

namespace BLEBridge

/-- The loop of `app_config_normalize_mac`, from `input` on: whether the text is
accepted, and the memory afterwards; `none` where it would read or write what it
may not. -/
def normalizeMacMem (mem : Bytes) (stop input normalizedMac written : Nat) : Option (Bool × Bytes) :=
  match _h : load mem stop input with
  | none => none
  | some ch =>
    if ch = 0 then
      if written ≠ APP_CONFIG_ALLOWED_MAC_LEN - 1 then some (false, mem)
      else (store mem (normalizedMac + written) 0).map fun mem => (true, mem)
    else if ch = 58 ∨ ch = 45 ∨ ch = 32 then normalizeMacMem mem stop (input + 1) normalizedMac written
    else if isxdigit ch = false ∨ written ≥ APP_CONFIG_ALLOWED_MAC_LEN - 1 then some (false, mem)
    else
      match store mem (normalizedMac + written) (toupper ch) with
      | none => none
      | some mem => normalizeMacMem mem stop (input + 1) normalizedMac (written + 1)
termination_by stop - input
decreasing_by
  all_goals
    have hlt : input < stop := load_lt (by assumption)
    omega

def appConfigNormalizeMacAt (mem : Bytes) (stop normalizedMac normalizedMacSize input : Nat) :
    Option (Bool × Bytes) :=
  if normalizedMacSize < APP_CONFIG_ALLOWED_MAC_LEN then some (false, mem)
    else normalizeMacMem mem stop input normalizedMac 0

/-! ## The loop in memory -/

theorem normalizeMacMem_of_load {mem : Bytes} {stop input : Nat}
    {ch : UInt8} (hload : load mem stop input = some ch) (normalizedMac written : Nat) :
    normalizeMacMem mem stop input normalizedMac written =
      if ch = 0 then
        if written ≠ APP_CONFIG_ALLOWED_MAC_LEN - 1 then some (false, mem)
        else (store mem (normalizedMac + written) 0).map fun mem => (true, mem)
      else if ch = 58 ∨ ch = 45 ∨ ch = 32 then normalizeMacMem mem stop (input + 1) normalizedMac written
      else if isxdigit ch = false ∨ written ≥ APP_CONFIG_ALLOWED_MAC_LEN - 1 then some (false, mem)
      else (store mem (normalizedMac + written) (toupper ch)).bind fun mem =>
        normalizeMacMem mem stop (input + 1) normalizedMac (written + 1) := by
  rw [normalizeMacMem]
  split
  · rename_i hnone
    rw [hload] at hnone
    cases hnone
  rename_i ch' hload'
  obtain rfl : ch = ch' := Option.some.inj (hload.symm.trans hload')
  refine ite_congr rfl (fun _ => rfl) fun _ => ite_congr rfl (fun _ => rfl) fun _ =>
    ite_congr rfl (fun _ => rfl) fun _ => ?_
  cases store mem (normalizedMac + written) (toupper ch) <;> rfl

/-- What the loop leaves at `dst`: the digits and a terminator if it accepts, and
nothing is written outside the buffer. -/
structure MacWritten (first : Bytes) (dst : Nat) (r : Option Bytes) (mem : Bytes) : Prop where
  accepted : ∀ out, r = some out → Copied first dst mem out
  length : mem.length = first.length
  frame : ∀ i, i < dst ∨ dst + APP_CONFIG_ALLOWED_MAC_LEN ≤ i → mem[i]? = first[i]?

variable {first mem out s : Bytes} {dst stop src : Nat}

theorem MacWritten.of_rejected (h : Copying first dst stop mem out src s) (hout : out.length ≤ 12) :
    MacWritten first dst none mem where
  accepted _ hnone := by cases hnone
  length := h.length
  frame i hi := by
    have h13 : APP_CONFIG_ALLOWED_MAC_LEN = 13 := rfl
    exact h.frame i (by omega)

theorem MacWritten.of_accepted (h : Copied first dst mem out) (hout : out.length = 12) :
    MacWritten first dst (some out) mem where
  accepted _ hsome := Option.some.inj hsome ▸ h
  length := h.length
  frame i hi := by
    have h13 : APP_CONFIG_ALLOWED_MAC_LEN = 13 := rfl
    exact h.frame i (by omega)

/-- In memory the loop does what it does on the text: it reads every byte before it
is overwritten. -/
theorem normalizeMacMem_spec (h : Copying first dst stop mem out src s) (h0 : 0 ∉ s)
    (hroom : dst + 12 < first.length) (hout : out.length ≤ 12) :
    ∃ mem', normalizeMacMem mem stop src dst out.length = some ((normalizeMacLoop out s).isSome, mem') ∧
      MacWritten first dst (normalizeMacLoop out s) mem' := by
  have h12 : APP_CONFIG_ALLOWED_MAC_LEN - 1 = 12 := rfl
  induction s generalizing mem out src with
  | nil =>
    rw [normalizeMacMem_of_load h.load_nil, if_pos rfl, normalizeMacLoop]
    by_cases hlen : out.length ≠ APP_CONFIG_ALLOWED_MAC_LEN - 1
    · rw [if_pos hlen, if_pos hlen]
      exact ⟨mem, rfl, .of_rejected h hout⟩
    · have hstored := h.finish (by omega)
      rw [if_neg hlen, if_neg hlen, h.store_eq (by omega)]
      exact ⟨_, rfl, .of_accepted hstored (by omega)⟩
  | cons ch s ih =>
    rw [List.mem_cons, not_or] at h0
    rw [normalizeMacMem_of_load h.load_cons, if_neg (Ne.symm h0.1), normalizeMacLoop]
    by_cases hsep : ch = 58 ∨ ch = 45 ∨ ch = 32
    · rw [if_pos hsep, if_pos hsep]
      exact ih h.skip h0.2 hout
    rw [if_neg hsep, if_neg hsep]
    by_cases hstop : isxdigit ch = false ∨ out.length ≥ APP_CONFIG_ALLOWED_MAC_LEN - 1
    · rw [if_pos hstop, if_pos hstop]
      exact ⟨mem, rfl, .of_rejected h hout⟩
    · rw [if_neg hstop, if_neg hstop, h.store_eq (by omega), Option.bind_some]
      rw [not_or] at hstop
      have hnext := ih (h.step (by omega) (toupper ch)) h0.2
        (by rw [List.length_append, List.length_singleton]; omega)
      rw [List.length_append, List.length_singleton] at hnext
      exact hnext

theorem normalizeMacLoop_isSome {s : Bytes} : (normalizeMacLoop [] s).isSome = true ↔ MacText s := by
  rw [Option.isSome_iff_exists]
  exact ⟨fun ⟨_, h⟩ => (normalizeMac_iff.1 h).1, fun h => ⟨_, normalizeMac_iff.2 ⟨h, rfl⟩⟩⟩

/-- The function accepts the texts of an address, and writes its digits to the buffer. -/
theorem normalizeMacAt_spec {rest : Bytes} (h0 : 0 ∉ s) (hs : first.drop src = s ++ 0 :: rest)
    (happart : dst ≤ src ∨ src + s.length < dst) {size : Nat} (hroom : dst + size ≤ first.length) :
    ∃ accepted mem, appConfigNormalizeMacAt first (src + s.length + 1) dst size src = some (accepted, mem) ∧
      (accepted = true ↔ APP_CONFIG_ALLOWED_MAC_LEN ≤ size ∧ MacText s) ∧
      (accepted = true → Copied first dst mem (macDigits s)) ∧
      mem.length = first.length ∧ ∀ i, i < dst ∨ dst + size ≤ i → mem[i]? = first[i]? := by
  have h13 : APP_CONFIG_ALLOWED_MAC_LEN = 13 := rfl
  unfold appConfigNormalizeMacAt
  split
  · rename_i hsmall
    refine ⟨false, first, rfl, ?_, ?_, rfl, fun _ _ => rfl⟩
    · exact iff_of_false Bool.false_ne_true fun h => absurd h.1 (not_le.2 hsmall)
    · intro hfalse
      cases hfalse
  · rename_i hlarge
    obtain ⟨mem, hmem, hw⟩ := normalizeMacMem_spec (Copying.start (getElem?_of_drop hs) happart) h0 (by omega)
      (Nat.zero_le _)
    refine ⟨_, mem, hmem, ?_, fun haccepted => ?_, hw.length, fun i hi => hw.frame i (by omega)⟩
    · exact normalizeMacLoop_isSome.trans (and_iff_right (not_lt.1 hlarge)).symm
    · exact hw.accepted _ (normalizeMac_iff.2 ⟨normalizeMacLoop_isSome.1 haccepted, rfl⟩)

/-! ## Addresses -/

theorem normalizeMac_some {input : Bytes} {mac : CString APP_CONFIG_ALLOWED_MAC_LEN}
    (h : appConfigNormalizeMac APP_CONFIG_ALLOWED_MAC_LEN input = some mac) :
    MacText input ∧ mac.bytes = macDigits input := by
  have hcanonical := normalizeMac_spec h
  rw [appConfigNormalizeMac, if_neg (lt_irrefl _)] at h
  obtain ⟨out, hout, rfl⟩ := Option.map_eq_some_iff.1 h
  obtain ⟨htext, rfl⟩ := normalizeMac_iff.1 hout
  have hc := canonical_macDigits htext
  exact ⟨htext, copy_bytes (fun h0 => absurd (hc.plain.printable 0 h0) (by decide)) hc.length.le⟩

/-- A MAC spells one address. -/
theorem macToAddress_iff {mac : CString APP_CONFIG_ALLOWED_MAC_LEN} (h : CanonicalMac mac.bytes)
    {address : BdAddr} : bleNormalizedMacToAddress mac.bytes = some address ↔ mac = macText address := by
  obtain ⟨address', rfl⟩ := exists_macText h
  rw [macToAddress_macText, Option.some.injEq]
  exact macText_injective.eq_iff.symm

/-- `text` spells `address` once it is normalized, as `mac`. -/
def Spells (text : Bytes) (mac : CString APP_CONFIG_ALLOWED_MAC_LEN) (address : BdAddr) : Prop :=
  appConfigNormalizeMac APP_CONFIG_ALLOWED_MAC_LEN text = some mac ∧
    bleNormalizedMacToAddress mac.bytes = some address

theorem spells_macText (address : BdAddr) : Spells (macText address).bytes (macText address) address :=
  ⟨normalizeMac_canonical (canonical_macText address), macToAddress_macText address⟩

theorem Spells.eq_macText {text : Bytes} {mac : CString APP_CONFIG_ALLOWED_MAC_LEN} {address : BdAddr}
    (h : Spells text mac address) :
    mac = macText address := (macToAddress_iff (normalizeMac_spec h.1)).1 h.2

theorem isAllowed_iff_spells (macs : List (CString APP_CONFIG_ALLOWED_MAC_LEN)) (address : BdAddr) :
    bleMacIsAllowed macs address = true ↔ ∃ text mac, Spells text mac address ∧ mac ∈ macs := by
  rw [isAllowed_iff]
  constructor
  · intro h
    exact ⟨_, _, spells_macText address, h⟩
  · rintro ⟨text, mac, hspells, hmem⟩
    rw [← hspells.eq_macText]
    exact hmem

/-- On a list of canonical MACs these are the texts themselves. -/
theorem isAllowed_iff_listed {macs : List (CString APP_CONFIG_ALLOWED_MAC_LEN)}
    (h : ∀ mac ∈ macs, CanonicalMac mac.bytes) (address : BdAddr) :
    bleMacIsAllowed macs address = true ↔ ∃ text ∈ macs, ∃ mac, Spells text.bytes mac address := by
  rw [isAllowed_iff]
  constructor
  · intro hmem
    exact ⟨_, hmem, _, spells_macText address⟩
  · rintro ⟨text, hmem, mac, hspells⟩
    have hsame := hspells.1
    rw [normalizeMac_canonical (h text hmem)] at hsame
    obtain rfl := Option.some.inj hsame
    rw [← hspells.eq_macText]
    exact hmem

/-- **MAC texts are addresses**: any text in memory, also in the buffer that is written,
is accepted if it is one of digits and separators with the digits of an address, and
replaced by these digits; printing and scanning undo each other on addresses and on the
texts that are accepted; so an address is allowed if a text that spells it is listed. -/
theorem mac_texts_are_addresses {first text rest : Bytes} {src dst size : Nat} (h0 : 0 ∉ text)
    (htext : first.drop src = text ++ 0 :: rest) (happart : dst ≤ src ∨ src + text.length < dst)
    (hroom : dst + size ≤ first.length) :
    (∃ accepted mem, appConfigNormalizeMacAt first (src + text.length + 1) dst size src = some (accepted, mem) ∧
      (accepted = true ↔ APP_CONFIG_ALLOWED_MAC_LEN ≤ size ∧ MacText text) ∧
      (accepted = true → Copied first dst mem (macDigits text)) ∧
      mem.length = first.length ∧ ∀ i, i < dst ∨ dst + size ≤ i → mem[i]? = first[i]?) ∧
    (∀ mac, appConfigNormalizeMac APP_CONFIG_ALLOWED_MAC_LEN text = some mac ↔ MacText text ∧
      mac.bytes = macDigits text) ∧
    (∀ address, (bleAddressToNormalizedMac address).bind (fun mac => bleNormalizedMacToAddress mac.bytes) =
      some address) ∧
    (∀ mac, appConfigNormalizeMac APP_CONFIG_ALLOWED_MAC_LEN text = some mac →
      (bleNormalizedMacToAddress mac.bytes).bind bleAddressToNormalizedMac = some mac) ∧
    (∀ macs address, bleMacIsAllowed macs address = true ↔ ∃ text mac, Spells text mac address ∧ mac ∈ macs) ∧
    ∀ config scanner, CanonicalList config → ∀ address,
      let macs := (bleScannerApplyConfig config scanner).allowedMacs
      macs = listOf config ∧
        (bleMacIsAllowed macs address = true ↔ ∃ text ∈ macs, ∃ mac, Spells text.bytes mac address) := by
  refine ⟨normalizeMacAt_spec h0 htext happart hroom,
    fun mac => ⟨normalizeMac_some, fun ⟨hmac, hbytes⟩ => ?_⟩, fun address => ?_,
    fun mac hmac => ?_, isAllowed_iff_spells, fun config scanner hcanonical address => ?_⟩
  · rw [appConfigNormalizeMac, if_neg (lt_irrefl _), normalizeMac_iff.2 ⟨hmac, hbytes⟩, Option.map_some,
      copy_self]
  · rw [normalizedMac_eq, Option.bind_some, macToAddress_macText]
  · obtain ⟨address, rfl⟩ := exists_macText (normalizeMac_spec hmac)
    rw [macToAddress_macText, Option.bind_some, normalizedMac_eq]
  · rw [applyConfig_eq]
    exact ⟨rfl, isAllowed_iff_listed (canonical_listOf hcanonical) address⟩

/-- In place, with separators in odd places. -/
theorem mac_texts_are_addresses_in_place :
    ∃ mem, appConfigNormalizeMacAt (ascii ":a4c1-38 0::00F0e" ++ [0]) 18 0 13 0 = some (true, mem) ∧
      Copied (ascii ":a4c1-38 0::00F0e" ++ [0]) 0 mem (ascii "A4C138000F0E") := by
  have htext : MacText (ascii ":a4c1-38 0::00F0e") := ⟨by decide +kernel, by decide +kernel⟩
  have hdigits : macDigits (ascii ":a4c1-38 0::00F0e") = ascii "A4C138000F0E" := by decide +kernel
  obtain ⟨⟨accepted, mem, hmem, haccepted, hcopied, -⟩, -⟩ :=
    @mac_texts_are_addresses (ascii ":a4c1-38 0::00F0e" ++ [0]) (ascii ":a4c1-38 0::00F0e") [] 0 0 13
      (by decide) rfl
      (.inl (le_refl 0)) (by decide)
  obtain rfl := haccepted.2 ⟨le_refl 13, htext⟩
  rw [hdigits] at hcopied
  exact ⟨mem, hmem, hcopied rfl⟩

end BLEBridge
