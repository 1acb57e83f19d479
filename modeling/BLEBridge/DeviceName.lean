import BLEBridge.Config
/-!
# Device names

What `app_config_copy_device_name` leaves is a sequence of whole characters
(`NameText`), and so is what trimming leaves of one. Copying such a text changes
nothing, which makes a stored name a fixed point of both.
-/
open Lib

namespace BLEBridge

/-- Whole characters, none of them a control character. -/
inductive NameText : Bytes → Prop
  | nil : NameText []
  | cons (ch : UInt8) (len : Nat) (tail rest : Bytes) (hctl : ¬(ch < 0x20 ∨ ch = 0x7F))
      (hlen : charLen ch = some len)
      (htail : tail.length = len - 1) (hcont : ∀ b ∈ tail, b &&& 0xC0 = 0x80) (hrest : NameText rest) :
      NameText (ch :: (tail ++ rest))

theorem continues_iff (tail : Bytes) (n : Nat) :
    continues tail n = true ↔ n ≤ tail.length ∧ ∀ b ∈ tail.take n, b &&& 0xC0 = 0x80 := by
  unfold continues
  rw [List.all_eq_true]
  constructor
  · intro h
    have hle : n ≤ tail.length := by
      by_contra hlt
      -- the terminator is no continuation byte
      have hend := h tail.length (List.mem_range.2 (by omega))
      rw [List.getD_eq_default _ _ le_rfl] at hend
      exact absurd hend (by decide)
    refine ⟨hle, fun b hb => ?_⟩
    obtain ⟨i, hi, rfl⟩ := List.mem_take_iff_getElem.1 hb
    have hi' := h i (List.mem_range.2 (by omega))
    rw [List.getD_eq_getElem _ _ (by omega)] at hi'
    exact of_decide_eq_true hi'
  · rintro ⟨hle, h⟩ i hi
    have hi' := List.mem_range.1 hi
    rw [List.getD_eq_getElem _ _ (by omega)]
    exact decide_eq_true (h _ (List.mem_take_iff_getElem.2 ⟨i, by omega, rfl⟩))

theorem charLen_pos {ch : UInt8} {len : Nat} (h : charLen ch = some len) : 1 ≤ len := by
  unfold charLen at h
  split at h
  · rw [← Option.some.inj h]
  split at h
  · rw [← Option.some.inj h]; decide
  split at h
  · rw [← Option.some.inj h]; decide
  split at h
  · rw [← Option.some.inj h]; decide
  · cases h

/-- The loop writes whole characters, as many as fit and no more than it reads. -/
theorem copyNameLoop_text (maxBytes : Nat) (written cursor : Bytes) (hw : written.length ≤ maxBytes) :
    ∃ out, copyNameLoop maxBytes written cursor = written ++ out ∧ NameText out ∧ out.length ≤ cursor.length ∧
      written.length + out.length ≤ maxBytes := by
  have hstop {w c : Bytes} (hw : w.length ≤ maxBytes) (h : copyNameLoop maxBytes w c = w) :
      ∃ out, copyNameLoop maxBytes w c = w ++ out ∧ NameText out ∧ out.length ≤ c.length ∧
        w.length + out.length ≤ maxBytes :=
    ⟨[], by rw [h, List.append_nil], .nil, Nat.zero_le _, hw⟩
  induction written, cursor using copyNameLoop.induct maxBytes with
  | case1 written => exact hstop hw (by rw [copyNameLoop])
  | case2 written ch rest hfull => exact hstop hw (by rw [copyNameLoop, if_pos hfull])
  | case3 written ch rest hfull hctl ih =>
    obtain ⟨out, ho, ht, hc, hl⟩ := ih hw
    exact ⟨out, by rw [copyNameLoop, if_neg hfull, if_pos hctl, ho], ht, Nat.le_succ_of_le hc, hl⟩
  | case4 written ch rest hfull hctl hlen ih =>
    obtain ⟨out, ho, ht, hc, hl⟩ := ih hw
    refine ⟨out, ?_, ht, Nat.le_succ_of_le hc, hl⟩
    rw [copyNameLoop, if_neg hfull, if_neg hctl, hlen, ← ho]
  | case5 written ch rest hfull hctl len hlen hmax =>
    refine hstop hw ?_
    rw [copyNameLoop, if_neg hfull, if_neg hctl, hlen]
    exact if_pos hmax
  | case6 written ch rest hfull hctl len hlen hmax hcont ih =>
    obtain ⟨out, ho, ht, hc, hl⟩ := ih hw
    refine ⟨out, ?_, ht, Nat.le_succ_of_le hc, hl⟩
    rw [copyNameLoop, if_neg hfull, if_neg hctl, hlen, ← ho]
    dsimp only
    rw [if_neg hmax, if_pos hcont]
  | case7 written ch rest hfull hctl len hlen hmax hcont ih =>
    -- a whole character
    obtain ⟨hle, htail⟩ := (continues_iff rest (len - 1)).1 (by simpa using hcont)
    have hlen1 := charLen_pos hlen
    have hlength : (rest.take (len - 1)).length = len - 1 := List.length_take_of_le hle
    obtain ⟨out, ho, ht, hc, hl⟩ := ih (by rw [List.length_append, List.length_cons, hlength]; omega)
    rw [List.length_append, List.length_cons] at hl
    rw [List.length_drop] at hc
    refine ⟨ch :: (rest.take (len - 1) ++ out), ?_, .cons ch len _ out hctl hlen hlength htail ht, ?_, ?_⟩
    · rw [copyNameLoop, if_neg hfull, if_neg hctl, hlen]
      dsimp only
      rw [if_neg hmax, if_neg hcont, ho, List.append_assoc, List.cons_append]
    · rw [List.length_cons, List.length_cons, List.length_append]
      omega
    · rw [List.length_cons, List.length_append]
      omega

/-- The loop copies whole characters that fit. -/
theorem copyNameLoop_self {maxBytes : Nat} {s : Bytes} (h : NameText s) {written : Bytes}
    (hl : written.length + s.length ≤ maxBytes) : copyNameLoop maxBytes written s = written ++ s := by
  induction h generalizing written with
  | nil => rw [copyNameLoop, List.append_nil]
  | cons ch len tail rest hctl hlen htail hcont hrest ih =>
    have hlen1 := charLen_pos hlen
    rw [List.length_cons, List.length_append] at hl
    have htake : (tail ++ rest).take (len - 1) = tail := htail ▸ List.take_left
    have hdrop : (tail ++ rest).drop (len - 1) = rest := htail ▸ List.drop_left
    have hcontinues : continues (tail ++ rest) (len - 1) = true :=
      (continues_iff _ _).2 ⟨by rw [List.length_append]; omega, htake.symm ▸ hcont⟩
    rw [copyNameLoop, if_neg (by omega), if_neg hctl, hlen]
    dsimp only
    rw [if_neg (by omega), hcontinues, if_neg Bool.true_eq_false_eq_False.elim, htake, hdrop,
      ih (by rw [List.length_append, List.length_cons]; omega), List.append_assoc, List.cons_append]

/-! ## Bytes of a name -/

theorem continuation_ge {b : UInt8} (h : b &&& 0xC0 = 0x80) : 0x80 ≤ b := by
  have hand : (b &&& 0xC0).toNat ≤ b.toNat := by
    rw [UInt8.toNat_and]
    exact Nat.and_le_left
  rw [h] at hand
  exact UInt8.le_iff_toNat_le.2 hand

theorem not_isspace_of_ge {b : UInt8} (h : 0x80 ≤ b) : isspace b = false := by
  simp only [isspace, decide_eq_false_iff_not]
  simp only [UInt8.le_iff_toNat_le, ← UInt8.toNat_inj] at h ⊢
  simp at h ⊢
  omega

theorem NameText.no_control {s : Bytes} (h : NameText s) : ∀ b ∈ s, ¬(b < 0x20 ∨ b = 0x7F) := by
  induction h with
  | nil => simp
  | cons ch len tail rest hctl hlen htail hcont hrest ih =>
    intro b hb
    rcases List.mem_cons.1 hb with rfl | hb
    · exact hctl
    rcases List.mem_append.1 hb with hb | hb
    · have hge := continuation_ge (hcont b hb)
      rintro (hlt | rfl)
      · exact absurd (UInt8.lt_of_lt_of_le hlt (show 0x20 ≤ 0x80 by decide)) (UInt8.not_lt.2 hge)
      · exact absurd hge (by decide)
    · exact ih b hb

/-- A space is the only white space in a name, and a character of its own. -/
theorem charLen_space {ch : UInt8} (hctl : ¬(ch < 0x20 ∨ ch = 0x7F)) (hspace : isspace ch = true) :
    charLen ch = some 1 := by
  rcases of_decide_eq_true hspace with rfl | ⟨-, h13⟩
  · decide
  · exact absurd (.inl (UInt8.lt_of_le_of_lt h13 (by decide))) hctl

theorem NameText.trimLeft {s : Bytes} (h : NameText s) : NameText (trimLeft s) := by
  induction h with
  | nil => exact .nil
  | cons ch len tail rest hctl hlen htail hcont hrest ih =>
    cases hspace : isspace ch with
    | false =>
      have hstay : Lib.trimLeft (ch :: (tail ++ rest)) = ch :: (tail ++ rest) :=
        List.dropWhile_cons_of_neg (by simp [hspace])
      rw [hstay]
      exact .cons ch len tail rest hctl hlen htail hcont hrest
    | true =>
      obtain rfl : len = 1 := Option.some.inj (hlen.symm.trans (charLen_space hctl hspace))
      obtain rfl : tail = [] := List.length_eq_zero_iff.1 htail
      have hstep : Lib.trimLeft (ch :: ([] ++ rest)) = Lib.trimLeft rest := List.dropWhile_cons_of_pos hspace
      rw [hstep]
      exact ih

theorem trimRight_continuation {tail : Bytes} (h : ∀ b ∈ tail, b &&& 0xC0 = 0x80) (rest : Bytes) :
    trimRight (tail ++ rest) = tail ++ trimRight rest := by
  induction tail with
  | nil => rfl
  | cons b tail ih =>
    have hb := not_isspace_of_ge (continuation_ge (h b List.mem_cons_self))
    rw [List.cons_append, trimRight_cons_eq, if_neg (by simp [hb]),
      ih fun c hc => h c (List.mem_cons_of_mem _ hc),
      List.cons_append]

theorem NameText.trimRight {s : Bytes} (h : NameText s) : NameText (trimRight s) := by
  induction h with
  | nil => exact .nil
  | cons ch len tail rest hctl hlen htail hcont hrest ih =>
    rw [trimRight_cons_eq, trimRight_continuation hcont]
    split
    · exact .nil
    · exact .cons ch len tail _ hctl hlen htail hcont ih

/-! ## Stored names -/

theorem trim_bytes {cap : Nat} (text : CString cap) :
    (appConfigTrim text).bytes = trimRight (trimLeft text.bytes) := by
  have hs := trim_sublist text.bytes
  exact copy_bytes (fun h => text.noNul (hs.subset h)) (hs.length_le.trans text.fits)

/-- A name as it is stored: whole characters, not too long, not empty, and without
white space around them. -/
structure StoredName (name : Bytes) : Prop where
  text : NameText name
  length : 1 ≤ name.length ∧ name.length ≤ APP_CONFIG_DEVICE_NAME_MAX_BYTES
  no_control : ∀ b ∈ name, ¬(b < 0x20 ∨ b = 0x7F)
  trimmed : Trimmed name

theorem copyDeviceName_bytes (dstSize : Nat) (src : Bytes) :
    (appConfigCopyDeviceName dstSize src).bytes = copyNameLoop
    (min (dstSize - 1) APP_CONFIG_DEVICE_NAME_MAX_BYTES) [] src := by
  obtain ⟨out, ho, ht, -, hl⟩ :=
    copyNameLoop_text (min (dstSize - 1) APP_CONFIG_DEVICE_NAME_MAX_BYTES) [] src (Nat.zero_le _)
  have h0 : (0 : UInt8) ∉ out := fun hm => ht.no_control 0 hm (.inl (by decide))
  rw [List.length_nil, Nat.zero_add] at hl
  unfold appConfigCopyDeviceName
  rw [ho, List.nil_append, copy_bytes h0 (hl.trans (min_le_left _ _))]

theorem copyDeviceName_text (dstSize : Nat) (src : Bytes) :
    NameText (appConfigCopyDeviceName dstSize src).bytes ∧
      (appConfigCopyDeviceName dstSize src).bytes.length ≤ src.length := by
  obtain ⟨out, ho, ht, hc, -⟩ :=
    copyNameLoop_text (min (dstSize - 1) APP_CONFIG_DEVICE_NAME_MAX_BYTES) [] src (Nat.zero_le _)
  rw [copyDeviceName_bytes, ho, List.nil_append]
  exact ⟨ht, hc⟩

/-- Copying a text of whole characters changes nothing. -/
theorem copyDeviceName_self {name : CString APP_CONFIG_DEVICE_NAME_LEN} (h : NameText name.bytes) :
    appConfigCopyDeviceName APP_CONFIG_DEVICE_NAME_LEN name.bytes = name := by
  have hroom : ([] : Bytes).length + name.bytes.length ≤
      min (APP_CONFIG_DEVICE_NAME_LEN - 1) APP_CONFIG_DEVICE_NAME_MAX_BYTES := by
    rw [List.length_nil, Nat.zero_add]
    exact le_min name.fits name.fits
  unfold appConfigCopyDeviceName
  rw [copyNameLoop_self h hroom, List.nil_append, copy_self]

/-- What is stored for any text that leaves something. -/
theorem storedName_of_copy {src : Bytes}
    (hne : (appConfigTrim (appConfigCopyDeviceName APP_CONFIG_DEVICE_NAME_LEN src)).bytes ≠ []) :
    StoredName (appConfigTrim (appConfigCopyDeviceName APP_CONFIG_DEVICE_NAME_LEN src)).bytes := by
  have htext : NameText (appConfigTrim (appConfigCopyDeviceName APP_CONFIG_DEVICE_NAME_LEN src)).bytes := by
    rw [trim_bytes]
    exact (copyDeviceName_text _ src).1.trimLeft.trimRight
  refine ⟨htext, ⟨List.length_pos_of_ne_nil hne, CString.fits _⟩, htext.no_control, ?_⟩
  rw [trim_bytes]
  exact trimmed_trim _

theorem StoredName.normalize {name : CString APP_CONFIG_DEVICE_NAME_LEN} (h : StoredName name.bytes) :
    appConfigTrim (appConfigCopyDeviceName APP_CONFIG_DEVICE_NAME_LEN name.bytes) = name := by
  rw [copyDeviceName_self h.text]
  exact CString.ext ((trim_bytes name).trans h.trimmed.trim)

end BLEBridge
