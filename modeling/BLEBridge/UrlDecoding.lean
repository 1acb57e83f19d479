import BLEBridge.AppWebCgi
import BLEBridge.Lib.InPlace
/-!
# Decoding in place

`app_text_url_decode` as it works on memory, with one pointer that reads and one that
writes. It turns every encoding of a text into the text (`urlDecode_encoding`), and
every text at all into what `Decodes` says, without reading or writing past its
terminator.
-/
open Lib

namespace BLEBridge

/-- The escape at `src`, where a `%` was read: `none` when there is none. -/
def escapeAt (mem : Bytes) (stop src : Nat) : Option (Option UInt8) :=
  match load mem stop (src + 1) with
  | none => none
  | some a =>
    if a = 0 then some none
    else
      match load mem stop (src + 2) with
      | none => none
      | some b =>
        if b = 0 then some none
        else
          match appTextHexValue a, appTextHexValue b with
          | some hi, some lo => some (some (hi <<< 4 ||| lo))
          | _, _ => some none

/-- The loop of `app_text_url_decode`, from these two pointers on; `none` where it
would read or write what it may not. -/
def urlDecodeMem (mem : Bytes) (stop src dst : Nat) : Option Bytes :=
  match _h : load mem stop src with
  | none => none
  | some ch =>
    if ch = 0 then store mem dst 0
    else if ch = 43 then
      match store mem dst 32 with
      | none => none
      | some mem => urlDecodeMem mem stop (src + 1) (dst + 1)
    else
      match (if ch = 37 then escapeAt mem stop src else some none) with
      | none => none
      | some (some value) =>
        match store mem dst value with
        | none => none
        | some mem => urlDecodeMem mem stop (src + 3) (dst + 1)
      | some none =>
        match store mem dst ch with
        | none => none
        | some mem => urlDecodeMem mem stop (src + 1) (dst + 1)
termination_by stop - src
decreasing_by
  all_goals
    have hlt : src < stop := load_lt (by assumption)
    omega

/-! ## What decoding is -/

/-- `text` read from left to right: a plus sign is a space, a percent sign with two
hexadecimal digits after it is a byte, and anything else stands for itself. -/
inductive Decodes : Bytes → Bytes → Prop
  | nil : Decodes [] []
  | plus {text s : Bytes} (h : Decodes text s) : Decodes (43 :: text) (32 :: s)
  | escape {a b hi lo : UInt8} {text s : Bytes} (ha : appTextHexValue a = some hi)
      (hb : appTextHexValue b = some lo)
      (h : Decodes text s) : Decodes (37 :: a :: b :: text) ((hi <<< 4 ||| lo) :: s)
  | literal {ch : UInt8} {text s : Bytes} (hplus : ch ≠ 43)
      (hescape : ch = 37 → ∀ a b rest, text = a :: b :: rest → appTextHexValue a = none ∨
        appTextHexValue b = none)
      (h : Decodes text s) : Decodes (ch :: text) (ch :: s)

/-- Every text decodes to one. -/
theorem decodes_unique {text s t : Bytes} (hs : Decodes text s) (ht : Decodes text t) : s = t := by
  induction hs generalizing t with
  | nil => cases ht; rfl
  | plus h ih =>
    cases ht with
    | plus h' => rw [ih h']
    | literal hplus => exact absurd rfl hplus
  | escape ha hb h ih =>
    cases ht with
    | escape ha' hb' h' =>
      rw [ha] at ha'
      rw [hb] at hb'
      rw [Option.some.inj ha', Option.some.inj hb', ih h']
    | literal _ hescape =>
      rcases hescape rfl _ _ _ rfl with h0 | h0
      · rw [ha] at h0; cases h0
      · rw [hb] at h0; cases h0
  | literal hplus hescape h ih =>
    cases ht with
    | plus => exact absurd rfl hplus
    | escape ha hb =>
      rcases hescape rfl _ _ _ rfl with h0 | h0
      · rw [ha] at h0; cases h0
      · rw [hb] at h0; cases h0
    | literal _ _ h' => rw [ih h']

theorem urlDecodeLoop_decodes (text : Bytes) : Decodes text (urlDecodeLoop text) := by
  induction text using urlDecodeLoop.induct with
  | case1 => exact .nil
  | case2 src ih =>
    rw [urlDecodeLoop]
    exact .plus ih
  | case3 a b src hi lo hlo hhi ih =>
    have heq : urlDecodeLoop (37 :: a :: b :: src) = (hi <<< 4 ||| lo) :: urlDecodeLoop src := by
      rw [urlDecodeLoop, hhi, hlo]
    rw [heq]
    exact .escape hhi hlo ih
  | case4 a b src hno ih =>
    -- two characters, but not two digits
    have heq : urlDecodeLoop (37 :: a :: b :: src) = 37 :: urlDecodeLoop (a :: b :: src) := by
      rw [urlDecodeLoop]
      split
      · exact absurd ‹_› fun hlo => hno _ _ ‹_› hlo
      · rfl
    rw [heq]
    refine .literal (by decide) (fun _ a' b' rest hrest => ?_) ih
    injection hrest with ha hrest
    injection hrest with hb hrest
    subst ha hb
    cases ha : appTextHexValue a with
    | none => exact .inl rfl
    | some hi =>
      cases hb : appTextHexValue b with
      | none => exact .inr rfl
      | some lo => exact absurd hb (hno hi lo ha)
  | case5 ch src hplus hshort ih =>
    rw [urlDecodeLoop.eq_4 ch src hplus hshort]
    exact .literal hplus (fun h37 a b rest hrest => absurd hrest (hshort a b rest h37)) ih

/-! ## The loop in memory -/

/-- What stands after a percent sign, as the loop reads it. -/
theorem escapeAt_short {first mem out text : Bytes} {dst stop src : Nat} {ch : UInt8}
    (h : Copying first dst stop mem out src (ch :: text)) (h0 : 0 ∉ text)
    (hno : ∀ a b rest, text = a :: b :: rest → appTextHexValue a = none ∨ appTextHexValue b = none) :
    escapeAt mem stop src = some none := by
  unfold escapeAt
  cases text with
  | nil => rw [h.load_cons_succ (i := 0) (le_refl 0)]; rfl
  | cons a text =>
    have ha : a ≠ 0 := fun ha => h0 (ha ▸ List.mem_cons_self)
    rw [h.load_cons_succ (i := 0) (Nat.zero_le _)]
    dsimp only [List.cons_append, List.getElem?_cons_zero]
    rw [if_neg ha, h.load_cons_succ (i := 1) (Nat.succ_le_succ (Nat.zero_le _))]
    cases text with
    | nil => rfl
    | cons b text =>
      have hb : b ≠ 0 := fun hb => h0 (hb ▸ List.mem_cons_of_mem _ List.mem_cons_self)
      dsimp only [List.cons_append, List.getElem?_cons_succ, List.getElem?_cons_zero]
      rw [if_neg hb]
      rcases hno a b text rfl with hnone | hnone
      · rw [hnone]
      · rw [hnone]
        cases appTextHexValue a <;> rfl

theorem escapeAt_escape {first mem out text : Bytes} {dst stop src : Nat} {ch a b hi lo : UInt8}
    (h : Copying first dst stop mem out src (ch :: a :: b :: text)) (ha : appTextHexValue a = some hi)
    (hb : appTextHexValue b = some lo) : escapeAt mem stop src = some (some (hi <<< 4 ||| lo)) := by
  have ha0 : a ≠ 0 := fun h0 => by rw [h0] at ha; cases ha
  have hb0 : b ≠ 0 := fun h0 => by rw [h0] at hb; cases hb
  unfold escapeAt
  rw [h.load_cons_succ (i := 0) (Nat.zero_le _)]
  dsimp only [List.cons_append, List.getElem?_cons_zero]
  rw [if_neg ha0, h.load_cons_succ (i := 1) (Nat.succ_le_succ (Nat.zero_le _))]
  dsimp only [List.cons_append, List.getElem?_cons_succ, List.getElem?_cons_zero]
  rw [if_neg hb0, ha, hb]

theorem Decodes.length_le {text s : Bytes} (h : Decodes text s) : s.length ≤ text.length := by
  induction h with
  | nil => exact Nat.le_refl 0
  | plus h ih => exact Nat.succ_le_succ ih
  | escape ha hb h ih =>
    simp only [List.length_cons]
    omega
  | literal hplus hescape h ih => exact Nat.succ_le_succ ih

theorem urlDecodeMem_of_load {mem : Bytes} {stop src : Nat} {ch : UInt8} (hload : load mem stop src = some ch)
    (hne : ch ≠ 0) (dst : Nat) :
    urlDecodeMem mem stop src dst =
      if ch = 43 then (store mem dst 32).bind fun mem => urlDecodeMem mem stop (src + 1) (dst + 1)
      else (if ch = 37 then escapeAt mem stop src else some none).bind fun
        | some value => (store mem dst value).bind fun mem => urlDecodeMem mem stop (src + 3) (dst + 1)
        | none => (store mem dst ch).bind fun mem => urlDecodeMem mem stop (src + 1) (dst + 1) := by
  rw [urlDecodeMem]
  split
  · rename_i hnone
    rw [hload] at hnone
    cases hnone
  rename_i ch' hload'
  obtain rfl : ch = ch' := Option.some.inj (hload.symm.trans hload')
  rw [if_neg hne]
  refine ite_congr rfl (fun _ => ?_) fun _ => ?_
  · cases store mem dst 32 <;> rfl
  · rcases (if ch = 37 then escapeAt mem stop src else some none) with _ | _ | value
    · rfl
    · dsimp only [Option.bind_some]
      cases store mem dst ch <;> rfl
    · dsimp only [Option.bind_some]
      cases store mem dst value <;> rfl

/-- The loop writes what the rest of the text decodes to. -/
theorem urlDecodeMem_decodes {first text s : Bytes} {dst stop : Nat} (hs : Decodes text s) :
    ∀ {mem out : Bytes} {src : Nat}, Copying first dst stop mem out src text → 0 ∉ text →
      dst + out.length + s.length < first.length →
      ∃ mem', urlDecodeMem mem stop src (dst + out.length) = some mem' ∧ Copied first dst mem' (out ++ s) := by
  -- one byte is written, and the rest is as the induction says
  have hnext {mem out s : Bytes} {n : Nat} {c : UInt8} (hroom : dst + out.length + (c :: s).length < first.length)
      (ih : dst + (out ++ [c]).length + s.length < first.length →
        ∃ mem', urlDecodeMem (mem.set (dst + out.length) c) stop n (dst + (out ++ [c]).length) = some mem' ∧
          Copied first dst mem' ((out ++ [c]) ++ s)) :
      ∃ mem', urlDecodeMem (mem.set (dst + out.length) c) stop n (dst + out.length + 1) = some mem' ∧
        Copied first dst mem' (out ++ c :: s) := by
    rw [List.length_cons] at hroom
    obtain ⟨mem', hmem, hw⟩ := ih (by rw [List.length_append, List.length_singleton]; omega)
    rw [List.length_append, List.length_singleton, ← Nat.add_assoc] at hmem
    rw [List.append_assoc, List.singleton_append] at hw
    exact ⟨mem', hmem, hw⟩
  induction hs with
  | nil =>
    intro mem out src h _ hroom
    refine ⟨mem.set (dst + out.length) 0, ?_, ?_⟩
    · rw [urlDecodeMem]
      split
      · rename_i hnone
        rw [h.load_nil] at hnone
        cases hnone
      · rename_i ch hload
        rw [h.load_nil] at hload
        rw [← Option.some.inj hload, if_pos rfl, h.store_eq hroom]
    · rw [List.append_nil]
      exact h.finish hroom
  | plus hs ih =>
    intro mem out src h h0 hroom
    rw [List.mem_cons, not_or] at h0
    rw [urlDecodeMem_of_load h.load_cons (by decide), if_pos rfl, h.store_eq (by omega)]
    exact hnext hroom (ih (h.step (by omega) 32) h0.2)
  | escape ha hb hs ih =>
    intro mem out src h h0 hroom
    simp only [List.mem_cons, not_or] at h0
    rw [urlDecodeMem_of_load h.load_cons (by decide), if_neg (by decide), if_pos rfl, escapeAt_escape h ha hb,
      Option.bind_some]
    dsimp only
    rw [h.store_eq (by omega)]
    exact hnext hroom (ih (h.step (by omega) _).skip.skip h0.2.2.2)
  | @literal ch text s hplus hescape hs ih =>
    intro mem out src h h0 hroom
    rw [List.mem_cons, not_or] at h0
    have hnone : (if ch = 37 then escapeAt mem stop src else some none) = some none := by
      split
      · rename_i h37
        exact escapeAt_short h h0.2 (hescape h37)
      · rfl
    rw [urlDecodeMem_of_load h.load_cons (Ne.symm h0.1), if_neg hplus, hnone, Option.bind_some]
    dsimp only
    rw [h.store_eq (by omega)]
    exact hnext hroom (ih (h.step (by omega) ch) h0.2)

/-! ## Encodings -/

/-- The encodings of a text: each byte as itself, unless it is a percent or plus sign,
or as two hexadecimal digits, and a space also as a plus sign. -/
inductive Encodes : Bytes → Bytes → Prop
  | nil : Encodes [] []
  | itself {b : UInt8} {e s : Bytes} (hpercent : b ≠ 37) (hplus : b ≠ 43) (h : Encodes e s) :
      Encodes (b :: e) (b :: s)
  | plus {e s : Bytes} (h : Encodes e s) : Encodes (43 :: e) (32 :: s)
  | escaped {a b c : UInt8} {e s : Bytes} (ha : isxdigit a = true) (hb : isxdigit b = true)
      (hvalue : digitsValue 16 [a, b] = c.toNat)
      (h : Encodes e s) : Encodes (37 :: a :: b :: e) (c :: s)

/-- The value of a digit, as the code computes it. -/
theorem hexValue_digit {a : UInt8} (h : isxdigit a = true) :
    ∃ d, appTextHexValue a = some d ∧ d < 16 ∧ digitsValue 16 [a] = d.toNat := by
  have hall : ∀ a : UInt8, isxdigit a = true →
      (appTextHexValue a).any (fun d => d < 16 && digitsValue 16 [a] = d.toNat) = true := by
    decide +kernel
  obtain ⟨d, hd, hp⟩ := (Option.any_eq_true _ _).1 (hall a h)
  rw [Bool.and_eq_true, decide_eq_true_eq, decide_eq_true_eq] at hp
  exact ⟨d, hd, hp⟩

theorem hexPair_toNat {hi lo : UInt8} (hhi : hi < 16) (hlo : lo < 16) :
    (hi <<< 4 ||| lo).toNat = 16 * hi.toNat + lo.toNat := by
  have hall : ∀ hi lo : Fin 16, (UInt8.ofNat hi.val <<< 4 ||| UInt8.ofNat lo.val).toNat = 16 * hi.val +
      lo.val := by
    decide +kernel
  have h := hall ⟨hi.toNat, UInt8.lt_iff_toNat_lt.1 hhi⟩ ⟨lo.toNat, UInt8.lt_iff_toNat_lt.1 hlo⟩
  simpa only [UInt8.ofNat_toNat] using h

theorem hexPair_value {a b c hi lo : UInt8} (ha : appTextHexValue a = some hi)
    (hb : appTextHexValue b = some lo) (hxa : isxdigit a = true) (hxb : isxdigit b = true)
    (hvalue : digitsValue 16 [a, b] = c.toNat) : (hi <<< 4 ||| lo) = c := by
  obtain ⟨d, hd, hd16, hda⟩ := hexValue_digit hxa
  obtain ⟨e, he, he16, heb⟩ := hexValue_digit hxb
  rw [ha] at hd
  rw [hb] at he
  cases hd
  cases he
  have hpair : digitsValue 16 [a, b] = 16 * digitsValue 16 [a] + digitsValue 16 [b] := by
    simp only [digitsValue, List.foldl_cons, List.foldl_nil]
    omega
  apply UInt8.toNat_inj.1
  rw [hexPair_toNat hd16 he16, ← hvalue, hpair, hda, heb]

theorem Encodes.decodes_append {e s text t : Bytes} (h : Encodes e s) (ht : Decodes text t) :
    Decodes (e ++ text) (s ++ t) := by
  induction h with
  | nil => exact ht
  | itself hpercent hplus h ih => exact .literal hplus (fun h37 => absurd h37 hpercent) ih
  | plus h ih => exact .plus ih
  | escaped ha hb hvalue h ih =>
    obtain ⟨hi, hhi, -⟩ := hexValue_digit ha
    obtain ⟨lo, hlo, -⟩ := hexValue_digit hb
    rw [← hexPair_value hhi hlo ha hb hvalue]
    exact .escape hhi hlo ih

/-- An encoding decodes to its text. -/
theorem Encodes.decodes {e s : Bytes} (h : Encodes e s) : Decodes e s := by
  have happend := h.decodes_append .nil
  rwa [List.append_nil, List.append_nil] at happend

/-- An encoding of a text without a NUL has none. -/
theorem Encodes.noNul {e s : Bytes} (h : Encodes e s) (h0 : 0 ∉ s) : 0 ∉ e := by
  induction h with
  | nil => exact h0
  | itself hpercent hplus h ih =>
    rw [List.mem_cons, not_or] at h0 ⊢
    exact ⟨h0.1, ih h0.2⟩
  | plus h ih =>
    rw [List.mem_cons, not_or] at h0 ⊢
    exact ⟨by decide, ih h0.2⟩
  | escaped ha hb hvalue h ih =>
    simp only [List.mem_cons, not_or] at h0 ⊢
    exact ⟨by decide, fun h => absurd (h ▸ ha) (by decide), fun h => absurd (h ▸ hb) (by decide), ih h0.2⟩

/-! ## The function -/

/-- `app_text_url_decode`; `none` for `NULL`. -/
def appTextUrlDecodeAt (mem : Bytes) (stop : Nat) (text : Option Nat) : Option Bytes :=
  match text with
  | none => some mem
  | some text => urlDecodeMem mem stop text text

/-- The buffer after decoding in it: what it decodes to and a terminator, within the
string that was there. -/
theorem urlDecodeAt_decodes {text s : Bytes} (hs : Decodes text s) (h0 : 0 ∉ text) (front rest : Bytes) :
    ∃ mem', appTextUrlDecodeAt (front ++ text ++ 0 :: rest) (front.length + text.length + 1)
      (some front.length) = some mem' ∧
      Copied (front ++ text ++ 0 :: rest) front.length mem' s := by
  have hdrop : (front ++ text ++ 0 :: rest).drop front.length = text ++ 0 :: rest := by
    rw [List.append_assoc, List.drop_left]
  have hcopy := Copying.start (getElem?_of_drop hdrop) (.inl (le_refl _))
  have hlen := hs.length_le
  obtain ⟨mem', hmem, hw⟩ := urlDecodeMem_decodes hs hcopy h0 (by
    simp only [List.length_append, List.length_cons, List.length_nil]
    omega)
  exact ⟨mem', hmem, hw⟩

/-- **Decoding undoes encoding**, in the buffer that holds the encoding. And any text
is decoded in place, within the string that was there, to the one text that it
decodes to; decoding it from a separate copy gives the same. -/
theorem url_decode_in_place :
    (∀ s e, 0 ∉ s → Encodes e s → ∀ front rest, ∃ mem',
      appTextUrlDecodeAt (front ++ e ++ 0 :: rest) (front.length + e.length + 1) (some front.length) = some mem' ∧
        cstr (mem'.drop front.length) = s) ∧
    ∀ text, 0 ∉ text → ∃ s, Decodes text s ∧ s.length ≤ text.length ∧
      (∀ front rest, ∃ mem',
        appTextUrlDecodeAt (front ++ text ++ 0 :: rest) (front.length + text.length + 1) (some front.length) =
          some mem' ∧
          cstr (mem'.drop front.length) = cstr s ∧
          mem'.take front.length = front ∧ mem'.drop (front.length + text.length + 1) = rest) ∧
      ∀ mem src dst rest, mem.drop src = text ++ 0 :: rest → (dst + s.length < src ∨ src + text.length < dst) →
        dst + s.length < mem.length →
        ∃ mem', urlDecodeMem mem (src + text.length + 1) src dst = some mem' ∧ cstr (mem'.drop dst) = cstr s := by
  refine ⟨fun s e h0 he front rest => ?_, fun text h0 => ?_⟩
  · obtain ⟨mem', hmem, hw⟩ := urlDecodeAt_decodes he.decodes (he.noNul h0) front rest
    exact ⟨mem', hmem, by rw [hw.cstr_eq, cstr_of_noNul h0]⟩
  · have hs := urlDecodeLoop_decodes text
    refine ⟨urlDecodeLoop text, hs, hs.length_le, fun front rest => ?_,
      fun mem src dst rest hdrop happart hroom => ?_⟩
    · obtain ⟨mem', hmem, hw⟩ := urlDecodeAt_decodes hs h0 front rest
      have hdrop : (front ++ text ++ 0 :: rest).drop front.length = text ++ 0 :: rest := by
        rw [List.append_assoc, List.drop_left]
      obtain ⟨hrest, hfront⟩ := hw.drop_text hdrop hs.length_le
      rw [List.append_assoc, List.take_left] at hfront
      exact ⟨mem', hmem, hw.cstr_eq, hfront, hrest⟩
    · have hcopy := Copying.start (getElem?_of_drop hdrop) (show dst ≤ src ∨ src + text.length < dst by omega)
      obtain ⟨mem', hmem, hw⟩ := urlDecodeMem_decodes hs hcopy h0 hroom
      exact ⟨mem', hmem, hw.cstr_eq⟩

theorem url_decode_in_place_cafe : ∃ mem', appTextUrlDecodeAt (ascii "C%61f%c3%A9" ++ [0]) 12 (some 0) =
    some mem' ∧
    cstr mem' = ascii "Caf" ++ [0xC3, 0xA9] := by
  have he : Encodes (ascii "C%61f%c3%A9") (ascii "Caf" ++ [0xC3, 0xA9]) :=
    .itself (by decide) (by decide) (.escaped (by decide) (by decide) (by decide) (.itself (by decide) (by decide)
      (.escaped (by decide) (by decide) (by decide) (.escaped (by decide) (by decide) (by decide) .nil))))
  exact url_decode_in_place.1 _ _ (by decide) he [] []

end BLEBridge
