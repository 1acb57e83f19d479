import BLEBridge.DeviceName
import BLEBridge.Lib.InPlace
/-!
# Copying a name in memory

`app_config_copy_device_name` as it works on memory, where `dst` may be `src`. It
writes what the loop over the text writes (`copyNameMem_loop`), and of a UTF-8 text
that is as much as fits, without the control characters.
-/
open Lib

namespace BLEBridge

/-- Whether `n` continuation bytes stand from `cursor[i]` on. -/
def continuesMem (mem : Bytes) (stop cursor i : Nat) : Nat → Option Bool
  | 0 => some true
  | n + 1 =>
    match load mem stop (cursor + i) with
    | none => none
    | some b => if b &&& 0xC0 ≠ 0x80 then some false else continuesMem mem stop cursor (i + 1) n

/-- `dst[written++] = (char)cursor[i]`, for `n` bytes. -/
def copyCharMem (mem : Bytes) (stop cursor dst written : Nat) : Nat → Option Bytes
  | 0 => some mem
  | n + 1 =>
    match load mem stop cursor with
    | none => none
    | some b =>
      match store mem (dst + written) b with
      | none => none
      | some mem => copyCharMem mem stop (cursor + 1) dst (written + 1) n

/-- The loop of `app_config_copy_device_name` and the terminator; `none` where it would
read or write what it may not. -/
def copyNameMem (mem : Bytes) (stop cursor dst written maxBytes : Nat) : Option Bytes :=
  match _h : load mem stop cursor with
  | none => none
  | some ch =>
    if ch = 0 ∨ written ≥ maxBytes then store mem (dst + written) 0
    else if ch < 0x20 ∨ ch = 0x7F then copyNameMem mem stop (cursor + 1) dst written maxBytes
    else
      match _hlen : charLen ch with
      | none => copyNameMem mem stop (cursor + 1) dst written maxBytes
      | some len =>
        if written + len > maxBytes then store mem (dst + written) 0
        else
          match continuesMem mem stop cursor 1 (len - 1) with
          | none => none
          | some false => copyNameMem mem stop (cursor + 1) dst written maxBytes
          | some true =>
            match copyCharMem mem stop cursor dst written len with
            | none => none
            | some mem => copyNameMem mem stop (cursor + len) dst (written + len) maxBytes
termination_by stop - cursor
decreasing_by
  all_goals
    have hlt : cursor < stop := load_lt (by assumption)
    first
      | omega
      | have hpos := charLen_pos (by assumption)
        omega

/-- `app_config_copy_device_name(dst, dst_size, src)`; reading may go up to `stop`. -/
def appConfigCopyDeviceNameAt (mem : Bytes) (stop dst dstSize src : Nat) : Option Bytes :=
  if dstSize = 0 then some mem
  else copyNameMem mem stop src dst 0 (min (dstSize - 1) APP_CONFIG_DEVICE_NAME_MAX_BYTES)

/-! ## The loop in memory -/

section
variable {first mem out s : Bytes} {dst stop cursor maxBytes : Nat} {ch : UInt8}

theorem getElem?_terminated {s : Bytes} {i : Nat} (hi : i ≤ s.length) : (s ++ [0])[i]? = some (s.getD i 0) := by
  rcases Nat.lt_or_eq_of_le hi with hlt | rfl
  · rw [List.getElem?_append_left hlt, List.getD_eq_getElem _ _ hlt, List.getElem?_eq_getElem hlt]
  · rw [List.getElem?_concat_length, List.getD_eq_default _ _ le_rfl]

/-- The check stops at the terminator. -/
theorem continuesMem_eq (h : Copying first dst stop mem out cursor (ch :: s)) {i : Nat} (hi : i ≤ s.length)
    (n : Nat) :
    continuesMem mem stop cursor (i + 1) n =
      some ((List.range n).all fun j => s.getD (i + j) 0 &&& 0xC0 = 0x80) := by
  induction n generalizing i with
  | zero => rfl
  | succ n ih =>
    have hall : ((List.range (n + 1)).all fun j => s.getD (i + j) 0 &&& 0xC0 = 0x80) =
        (decide (s.getD i 0 &&& 0xC0 = 0x80) && (List.range n).all fun j => s.getD (i + 1 + j) 0 &&& 0xC0 =
          0x80) := by
      rw [List.range_succ_eq_map, List.all_cons, List.all_map]
      congr 2
      funext j
      rw [Function.comp_apply, Nat.add_assoc, Nat.succ_eq_one_add]
    rw [continuesMem, h.load_cons_succ hi, getElem?_terminated hi, hall]
    dsimp only
    by_cases hb : s.getD i 0 &&& 0xC0 = 0x80
    · have hlt : i < s.length := by
        by_contra hge
        rw [List.getD_eq_default _ _ (not_lt.1 hge)] at hb
        exact absurd hb (by decide)
      rw [if_neg (not_not.2 hb), ih hlt, decide_eq_true hb, Bool.true_and]
    · rw [if_pos hb, decide_eq_false hb, Bool.false_and]

theorem copyCharMem_eq {t : Bytes} (h : Copying first dst stop mem out cursor (t ++ s))
    (hroom : dst + out.length + t.length ≤ first.length) :
    ∃ mem', copyCharMem mem stop cursor dst out.length t.length = some mem' ∧
      Copying first dst stop mem' (out ++ t) (cursor + t.length) s := by
  induction t generalizing mem out cursor with
  | nil => exact ⟨mem, rfl, by rw [List.append_nil]; exact h⟩
  | cons b t ih =>
    rw [List.length_cons] at hroom
    have hstep := h.step (by omega) b
    obtain ⟨mem', hcopy, hcopying⟩ := ih hstep (by rw [List.length_append, List.length_singleton]; omega)
    refine ⟨mem', ?_, ?_⟩
    · rw [List.length_cons, copyCharMem, h.load_cons]
      dsimp only
      rw [h.store_eq (by omega)]
      rwa [List.length_append, List.length_singleton] at hcopy
    · rwa [List.append_assoc, Nat.add_assoc, Nat.add_comm 1] at hcopying

/-- The continuation bytes in memory are those of the text. -/
theorem continuesMem_continues (h : Copying first dst stop mem out cursor (ch :: s)) (n : Nat) :
    continuesMem mem stop cursor 1 n = some (continues s n) := by
  rw [continuesMem_eq h (Nat.zero_le _), continues]
  simp only [Nat.zero_add]

theorem copyNameMem_of_load {written : Nat} (h : load mem stop cursor = some ch) :
    copyNameMem mem stop cursor dst written maxBytes =
      if ch = 0 ∨ written ≥ maxBytes then store mem (dst + written) 0
      else if ch < 0x20 ∨ ch = 0x7F then copyNameMem mem stop (cursor + 1) dst written maxBytes
      else
        match charLen ch with
        | none => copyNameMem mem stop (cursor + 1) dst written maxBytes
        | some len =>
          if written + len > maxBytes then store mem (dst + written) 0
          else
            match continuesMem mem stop cursor 1 (len - 1) with
            | none => none
            | some false => copyNameMem mem stop (cursor + 1) dst written maxBytes
            | some true =>
              match copyCharMem mem stop cursor dst written len with
              | none => none
              | some mem => copyNameMem mem stop (cursor + len) dst (written + len) maxBytes := by
  rw [copyNameMem]
  split
  · rename_i hnone
    rw [h] at hnone
    cases hnone
  · rename_i b hb
    rw [h] at hb
    cases hb
    split
    · rfl
    split
    · rfl
    split
    · rename_i hnone
      rw [hnone]
    · rename_i len hlen
      rw [hlen]

/-- What the loop over the text writes stands in memory in the end. -/
theorem copyNameMem_loop (hroom : dst + maxBytes < first.length) (s : Bytes) (h0 : 0 ∉ s)
    (h : Copying first dst stop mem out cursor s) (hout : out.length ≤ maxBytes) :
    ∃ mem', copyNameMem mem stop cursor dst out.length maxBytes = some mem' ∧
      Copied first dst mem' (copyNameLoop maxBytes out s) := by
  have hend {mem out s : Bytes} {cursor : Nat} (h : Copying first dst stop mem out cursor s)
    (hout : out.length ≤ maxBytes) :
      ∃ mem', store mem (dst + out.length) 0 = some mem' ∧ Copied first dst mem' out :=
    ⟨_, h.store_eq (by omega) 0, h.finish (by omega)⟩
  have hch (ch : UInt8) (rest : Bytes) (h0 : 0 ∉ ch :: rest) : ch ≠ 0 := fun hz => h0 (hz ▸ List.mem_cons_self)
  induction out, s using copyNameLoop.induct maxBytes generalizing mem cursor with
  | case1 out =>
    rw [copyNameMem_of_load h.load_nil, if_pos (.inl rfl), copyNameLoop]
    exact hend h hout
  | case2 out ch rest hfull =>
    rw [copyNameMem_of_load h.load_cons, if_pos (.inr hfull), copyNameLoop, if_pos hfull]
    exact hend h hout
  | case3 out ch rest hfull hctl ih =>
    rw [copyNameMem_of_load h.load_cons, if_neg (not_or.2 ⟨hch ch rest h0, hfull⟩), if_pos hctl, copyNameLoop,
      if_neg hfull, if_pos hctl]
    exact ih (fun hm => h0 (List.mem_cons_of_mem _ hm)) h.skip hout
  | case4 out ch rest hfull hctl hlen ih =>
    rw [copyNameMem_of_load h.load_cons, if_neg (not_or.2 ⟨hch ch rest h0, hfull⟩), if_neg hctl, copyNameLoop,
      if_neg hfull, if_neg hctl, hlen]
    exact ih (fun hm => h0 (List.mem_cons_of_mem _ hm)) h.skip hout
  | case5 out ch rest hfull hctl len hlen hmax =>
    rw [copyNameMem_of_load h.load_cons, if_neg (not_or.2 ⟨hch ch rest h0, hfull⟩), if_neg hctl, copyNameLoop,
      if_neg hfull, if_neg hctl, hlen]
    dsimp only
    rw [if_pos hmax, if_pos hmax]
    exact hend h hout
  | case6 out ch rest hfull hctl len hlen hmax hcont ih =>
    have hcheck : continuesMem mem stop cursor 1 (len - 1) = some false :=
      hcont ▸ continuesMem_continues h (len - 1)
    rw [copyNameMem_of_load h.load_cons, if_neg (not_or.2 ⟨hch ch rest h0, hfull⟩), if_neg hctl, copyNameLoop,
      if_neg hfull, if_neg hctl, hlen]
    dsimp only
    rw [if_neg hmax, if_neg hmax, hcheck, if_pos hcont]
    exact ih (fun hm => h0 (List.mem_cons_of_mem _ hm)) h.skip hout
  | case7 out ch rest hfull hctl len hlen hmax hcont ih =>
    -- a whole character
    have hcont : continues rest (len - 1) = true := by simpa using hcont
    have hcheck : continuesMem mem stop cursor 1 (len - 1) = some true :=
      hcont ▸ continuesMem_continues h (len - 1)
    have hpos := charLen_pos hlen
    have hle := ((continues_iff rest (len - 1)).1 hcont).1
    have hchar : (ch :: rest.take (len - 1)).length = len := by
      rw [List.length_cons, List.length_take_of_le hle]
      omega
    have hsplit : ch :: rest = (ch :: rest.take (len - 1)) ++ rest.drop (len - 1) := by
      rw [List.cons_append, List.take_append_drop]
    obtain ⟨mem', hcopy, hcopying⟩ := copyCharMem_eq (hsplit ▸ h) (by rw [hchar]; omega)
    rw [hchar] at hcopy hcopying
    obtain ⟨mem'', hloop, hcopied⟩ :=
      ih (fun hm => h0 (List.mem_cons_of_mem _ (List.mem_of_mem_drop hm))) hcopying
      (by rw [List.length_append, hchar]; omega)
    rw [List.length_append, hchar] at hloop
    refine ⟨mem'', ?_, ?_⟩
    · rw [copyNameMem_of_load h.load_cons, if_neg (not_or.2 ⟨hch ch rest h0, hfull⟩), if_neg hctl, hlen]
      dsimp only
      rw [if_neg hmax, hcheck]
      dsimp only
      rw [hcopy]
      exact hloop
    · rw [copyNameLoop, if_neg hfull, if_neg hctl, hlen]
      dsimp only
      rwa [if_neg hmax, if_neg (by rw [hcont]; exact Bool.true_eq_false_eq_False.elim)]

end

/-! ## Names in UTF-8 -/

/-- Not a control character. -/
def printable (b : UInt8) : Bool := ¬(b < 0x20 ∨ b = 0x7F)

/-- The text of these characters. -/
def utf8 (chars : List Char) : Bytes := chars.flatMap String.utf8EncodeChar

/-- The longest prefix of `s` in whole characters that has at most `n` bytes. -/
structure LongestPrefix (n : Nat) (s p : Bytes) : Prop where
  isPrefix : p <+: s
  text : NameText p
  length : p.length ≤ n
  longest : ∀ q, q <+: s → NameText q → q.length ≤ n → q <+: p

theorem continuation_ofNat {n : Nat} (h : n < 64) : UInt8.ofNat (n + 128) &&& 0xC0 = 0x80 := by
  revert n
  decide +kernel

theorem charLen_ofNat : ∀ n < 256, charLen (UInt8.ofNat n) =
    if n < 128 then some 1 else if n < 194 then none else if n < 224 then some 2 else if n < 240 then some 3
    else if n < 245 then some 4 else none := by
  decide +kernel

theorem not_ascii_ofNat {n : Nat} (h : 128 ≤ n) (h' : n < 256) : ¬ UInt8.ofNat n < 0x80 := by
  revert n
  decide +kernel

/-- A character in UTF-8 is one as the loop sees it. -/
theorem utf8_char (c : Char) : ∃ ch tail, String.utf8EncodeChar c = ch :: tail ∧
    charLen ch = some (tail.length + 1) ∧
    (∀ b ∈ tail, b &&& 0xC0 = 0x80) ∧ (ch < 0x80 → tail = []) := by
  have hmax : c.val.toNat ≤ 0x10FFFF := by
    have hvalid := c.valid
    unfold UInt32.isValidChar Nat.isValidChar at hvalid
    omega
  unfold String.utf8EncodeChar
  generalize c.val.toNat = v at hmax
  dsimp only
  split
  · rename_i h1
    refine ⟨_, _, rfl, ?_, fun b hb => (List.not_mem_nil hb).elim, fun _ => rfl⟩
    rw [charLen_ofNat _ (by omega), if_pos (by omega)]
    rfl
  split
  · rename_i h1 h2
    refine ⟨_, _, rfl, ?_, ?_, fun hlt => absurd hlt (not_ascii_ofNat (by omega) (by omega))⟩
    · rw [charLen_ofNat _ (by omega), if_neg (by omega), if_neg (by omega), if_pos (by omega)]
      rfl
    · simp only [List.forall_mem_cons]
      exact ⟨continuation_ofNat (Nat.mod_lt _ (by decide)), fun b hb => (List.not_mem_nil hb).elim⟩
  split
  · rename_i h1 h2 h3
    refine ⟨_, _, rfl, ?_, ?_, fun hlt => absurd hlt (not_ascii_ofNat (by omega) (by omega))⟩
    · rw [charLen_ofNat _ (by omega), if_neg (by omega), if_neg (by omega), if_neg (by omega), if_pos (by omega)]
      rfl
    · simp only [List.forall_mem_cons]
      exact ⟨continuation_ofNat (Nat.mod_lt _ (by decide)), continuation_ofNat (Nat.mod_lt _ (by decide)),
        fun b hb => (List.not_mem_nil hb).elim⟩
  · rename_i h1 h2 h3
    refine ⟨_, _, rfl, ?_, ?_, fun hlt => absurd hlt (not_ascii_ofNat (by omega) (by omega))⟩
    · rw [charLen_ofNat _ (by omega), if_neg (by omega), if_neg (by omega), if_neg (by omega),
        if_neg (by omega), if_pos (by omega)]
      rfl
    · simp only [List.forall_mem_cons]
      exact ⟨continuation_ofNat (Nat.mod_lt _ (by decide)), continuation_ofNat (Nat.mod_lt _ (by decide)),
        continuation_ofNat (Nat.mod_lt _ (by decide)), fun b hb => (List.not_mem_nil hb).elim⟩

theorem printable_continuation {b : UInt8} (h : b &&& 0xC0 = 0x80) : printable b = true := by
  have hge := continuation_ge h
  refine decide_eq_true ?_
  rintro (hlt | rfl)
  · exact absurd (UInt8.lt_of_lt_of_le hlt (show 0x20 ≤ 0x80 by decide)) (UInt8.not_lt.2 hge)
  · exact absurd hge (by decide)

theorem printable_of_not {ch : UInt8} (h : ¬(ch < 0x20 ∨ ch = 0x7F)) : printable ch = true := decide_eq_true h

/-- A control character has no more bytes. -/
theorem lt_of_control {ch : UInt8} (h : ch < 0x20 ∨ ch = 0x7F) : ch < 0x80 := by
  rcases h with hlt | rfl
  · exact UInt8.lt_trans hlt (by decide)
  · decide

theorem filter_control {ch : UInt8} (h : ch < 0x20 ∨ ch = 0x7F) (s : Bytes) :
    (ch :: s).filter printable = s.filter printable :=
  List.filter_cons_of_neg (by simp [printable, h])

theorem filter_char {ch : UInt8} {tail : Bytes} (hctl : ¬(ch < 0x20 ∨ ch = 0x7F))
    (hcont : ∀ b ∈ tail, b &&& 0xC0 = 0x80) (s : Bytes) :
    (ch :: (tail ++ s)).filter printable = ch :: (tail ++ s.filter printable) := by
  rw [List.filter_cons_of_pos (printable_of_not hctl), List.filter_append,
    List.filter_eq_self.2 fun b hb => printable_continuation (hcont b hb)]

theorem utf8_cons (c : Char) (chars : List Char) :
    utf8 (c :: chars) = String.utf8EncodeChar c ++ utf8 chars := rfl

/-- What follows whole characters is whole characters. -/
theorem NameText.of_append {p t : Bytes} (hp : NameText p) (h : NameText (p ++ t)) : NameText t := by
  induction hp with
  | nil => exact h
  | cons ch len tail rest hctl hlen htail hcont hrest ih =>
    rw [List.cons_append, List.append_assoc] at h
    generalize hs : ch :: (tail ++ (rest ++ t)) = s at h
    cases h with
    | nil => cases hs
    | cons ch' len' tail' rest' hctl' hlen' htail' hcont' hrest' =>
      injection hs with hch hs
      rw [← hch, hlen] at hlen'
      obtain rfl := Option.some.inj hlen'
      obtain ⟨-, hs⟩ := List.append_inj hs (htail.trans htail'.symm)
      exact ih (hs ▸ hrest')

/-- Of a UTF-8 text the loop copies the whole characters that fit. -/
theorem copyNameLoop_utf8 {maxBytes : Nat} {written : Bytes} (chars : List Char)
    (hw : written.length ≤ maxBytes) :
    ∃ out rest, (utf8 chars).filter printable = out ++ rest ∧
      copyNameLoop maxBytes written (utf8 chars) = written ++ out ∧
      ∀ t, t <+: rest → NameText t → t ≠ [] → maxBytes < written.length + out.length + t.length := by
  induction chars generalizing written with
  | nil =>
    refine ⟨[], [], rfl, ?_, fun t ht _ hne => absurd (List.prefix_nil.1 ht) hne⟩
    change copyNameLoop maxBytes written [] = _
    rw [copyNameLoop, List.append_nil]
  | cons c chars ih =>
    obtain ⟨ch, tail, hchar, hlen, hcont, hascii⟩ := utf8_char c
    rw [utf8_cons, hchar, List.cons_append]
    by_cases hfull : written.length ≥ maxBytes
    -- No room for a byte.
    · refine ⟨[], _, rfl, ?_, fun t _ _ hne => ?_⟩
      · rw [copyNameLoop, if_pos hfull, List.append_nil]
      · have hpos := List.length_pos_of_ne_nil hne
        rw [List.length_nil]
        omega
    by_cases hctl : ch < 0x20 ∨ ch = 0x7F
    -- A control character is skipped.
    · obtain ⟨out, rest, hfilter, hloop, hmax⟩ := ih hw
      rw [hascii (lt_of_control hctl), List.nil_append]
      refine ⟨out, rest, ?_, ?_, hmax⟩
      · rw [filter_control hctl, hfilter]
      · rw [copyNameLoop, if_neg hfull, if_pos hctl, hloop]
    rw [copyNameLoop, if_neg hfull, if_neg hctl, hlen, filter_char hctl hcont]
    dsimp only
    by_cases hmax : written.length + (tail.length + 1) > maxBytes
    -- The next character does not fit, and every longer text starts with it.
    · rw [if_pos hmax]
      refine ⟨[], _, rfl, (List.append_nil _).symm, fun t ht htext hne => ?_⟩
      cases htext with
      | nil => exact absurd rfl hne
      | cons ch' len' tail' rest' hctl' hlen' htail' hcont' hrest' =>
        obtain ⟨hch, -⟩ := List.cons_prefix_cons.1 ht
        rw [hch, hlen] at hlen'
        rw [List.length_cons, List.length_append, htail', ← Option.some.inj hlen', List.length_nil]
        omega
    · have htake : (tail ++ utf8 chars).take (tail.length + 1 - 1) = tail := List.take_left
      have hdrop : (tail ++ utf8 chars).drop (tail.length + 1 - 1) = utf8 chars := List.drop_left
      have hcontinues : continues (tail ++ utf8 chars) (tail.length + 1 - 1) = true :=
        (continues_iff _ _).2 ⟨by rw [List.length_append]; omega, htake.symm ▸ hcont⟩
      rw [if_neg hmax, hcontinues, if_neg Bool.true_eq_false_eq_False.elim, htake, hdrop]
      have hlength : (written ++ ch :: tail).length = written.length + (tail.length + 1) := by
        rw [List.length_append, List.length_cons]
      obtain ⟨out, rest, hfilter', hloop, hlonger⟩ := ih (hlength.le.trans (not_lt.1 hmax))
      refine ⟨ch :: (tail ++ out), rest, ?_, ?_, fun t ht htext hne => ?_⟩
      · rw [hfilter', List.cons_append, List.append_assoc]
      · rw [hloop, List.append_assoc, List.cons_append]
      · have hlt := hlonger t ht htext hne
        rw [hlength] at hlt
        rw [List.length_cons, List.length_append]
        omega

theorem nameText_utf8 (chars : List Char) : NameText ((utf8 chars).filter printable) := by
  induction chars with
  | nil => exact .nil
  | cons c chars ih =>
    obtain ⟨ch, tail, hchar, hlen, hcont, hascii⟩ := utf8_char c
    rw [utf8_cons, hchar, List.cons_append]
    by_cases hctl : ch < 0x20 ∨ ch = 0x7F
    · rw [hascii (lt_of_control hctl), List.nil_append, filter_control hctl]
      exact ih
    · rw [filter_char hctl hcont]
      exact .cons ch _ tail _ hctl hlen (Nat.add_sub_cancel ..).symm hcont ih

/-! ## The name that is copied -/

theorem copyDeviceName_length (dstSize : Nat) (src : Bytes) :
    (appConfigCopyDeviceName dstSize src).bytes.length ≤ min (dstSize - 1) APP_CONFIG_DEVICE_NAME_MAX_BYTES := by
  obtain ⟨out, ho, -, -, hl⟩ :=
    copyNameLoop_text (min (dstSize - 1) APP_CONFIG_DEVICE_NAME_MAX_BYTES) [] src (Nat.zero_le _)
  rw [copyDeviceName_bytes, ho, List.nil_append]
  rwa [List.length_nil, Nat.zero_add] at hl

theorem copyDeviceName_idem (dstSize : Nat) (src : Bytes) :
    (appConfigCopyDeviceName dstSize (appConfigCopyDeviceName dstSize src).bytes).bytes =
      (appConfigCopyDeviceName dstSize src).bytes := by
  have hlen := copyDeviceName_length dstSize src
  rw [copyDeviceName_bytes dstSize (appConfigCopyDeviceName dstSize src).bytes]
  exact copyNameLoop_self (copyDeviceName_text dstSize src).1 (by rwa [List.length_nil, Nat.zero_add])

theorem copyDeviceName_utf8 (dstSize : Nat) (chars : List Char) :
    LongestPrefix (min (dstSize - 1) APP_CONFIG_DEVICE_NAME_MAX_BYTES) ((utf8 chars).filter printable)
      (appConfigCopyDeviceName dstSize (utf8 chars)).bytes := by
  have htext := (copyDeviceName_text dstSize (utf8 chars)).1
  have hlen := copyDeviceName_length dstSize (utf8 chars)
  have hempty : ([] : Bytes).length ≤ min (dstSize - 1) APP_CONFIG_DEVICE_NAME_MAX_BYTES := Nat.zero_le _
  obtain ⟨out, rest, hfilter, hloop, hmax⟩ := copyNameLoop_utf8 chars hempty
  rw [copyDeviceName_bytes, hloop, List.nil_append] at htext hlen ⊢
  refine ⟨hfilter ▸ List.prefix_append _ _, htext, hlen, fun q hq hqtext hqlen => ?_⟩
  rw [hfilter] at hq
  rcases List.prefix_or_prefix_of_prefix hq (List.prefix_append out rest) with h | ⟨t, rfl⟩
  · exact h
  -- a longer one does not fit
  by_cases hne : t = []
  · rw [hne, List.append_nil]
  have hlt := hmax t ((List.prefix_append_right_inj out).1 hq) (htext.of_append hqtext) hne
  rw [List.length_append] at hqlen
  rw [List.length_nil] at hlt
  omega

/-- What `app_config_copy_device_name` writes, in place or into another buffer: whole
characters, no more than fit; of a UTF-8 text the longest part without control
characters. -/
theorem copy_device_name_spec {mem src rest : Bytes} {dst n a : Nat}
    (hn : 1 ≤ n) (h0 : 0 ∉ src) (hsrc : mem.drop a = src ++ 0 :: rest) (hdst : dst + n ≤ mem.length)
    (hplace : dst = a ∨ dst + n ≤ a ∨ a + src.length < dst) :
    ∃ mem' out, appConfigCopyDeviceNameAt mem (a + src.length + 1) dst n a = some mem' ∧ Copied mem dst mem' out ∧
      out = (appConfigCopyDeviceName n src).bytes ∧ NameText out ∧ out.length ≤ min (n - 1) 64 ∧
      (appConfigCopyDeviceName n out).bytes = out ∧
      ∀ chars, src = utf8 chars → LongestPrefix (min (n - 1) 64) (src.filter printable) out ∧
        ((∀ b ∈ src, printable b = true) → src.length ≤ min (n - 1) 64 → out = src) := by
  have hroom : dst + min (n - 1) APP_CONFIG_DEVICE_NAME_MAX_BYTES < mem.length := by omega
  have hcopying := Copying.start (getElem?_of_drop hsrc) (show dst ≤ a ∨ a + src.length < dst by omega)
  obtain ⟨mem', hloop, hcopied⟩ := copyNameMem_loop hroom src h0 hcopying (Nat.zero_le _)
  rw [← copyDeviceName_bytes] at hcopied
  refine ⟨mem', _, ?_, hcopied, rfl, (copyDeviceName_text n src).1, copyDeviceName_length n src,
    copyDeviceName_idem n src, ?_⟩
  · rw [appConfigCopyDeviceNameAt, if_neg (by omega)]
    exact hloop
  · rintro chars rfl
    have hlongest := copyDeviceName_utf8 n chars
    refine ⟨hlongest, fun hprintable hfits => ?_⟩
    have hself : (utf8 chars).filter printable = utf8 chars := List.filter_eq_self.2 hprintable
    have hall := hlongest.longest (utf8 chars) (by rw [hself]) (hself ▸ nameText_utf8 chars) hfits
    have hpart := hlongest.isPrefix
    rw [hself] at hpart
    exact hpart.eq_of_length (le_antisymm hpart.length_le hall.length_le)

/-- "Küche" with a tab in it. -/
def tabbedName : Bytes := [0x4B, 0xC3, 0xBC, 9, 0x63, 0x68, 0x65]

/-- In place in a buffer of eight bytes. -/
theorem copy_device_name_spec_tabbed :
    ∃ mem', appConfigCopyDeviceNameAt (tabbedName ++ 0 :: [1, 2]) 8 0 8 0 = some mem' ∧
    Copied (tabbedName ++ 0 :: [1, 2]) 0 mem' (appConfigCopyDeviceName 8 tabbedName).bytes := by
  have hsrc : (tabbedName ++ 0 :: [1, 2]).drop 0 = tabbedName ++ 0 :: [1, 2] := rfl
  obtain ⟨mem', out, hmem, hcopied, rfl, -⟩ :=
    copy_device_name_spec (show 1 ≤ 8 by decide) (by decide) hsrc (by decide) (.inl rfl)
  exact ⟨mem', hmem, hcopied⟩

end BLEBridge
