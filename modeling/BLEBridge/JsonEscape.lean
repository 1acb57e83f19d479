import BLEBridge.Lib.Json
/-!
# Escaping into a buffer

`app_text_json_escape`. A quote or backslash takes two bytes; when one byte is left
before the terminator, it is written there without its backslash.
-/
open Lib

namespace BLEBridge

/-- The loop of `app_text_json_escape` over what is left of the text before its
terminator, with the bytes written so far. -/
def jsonEscapeLoop (dstSize : Nat) (written : Bytes) : Bytes → Bytes
  | [] => written
  | ch :: src =>
    if written.length + 1 ≥ dstSize then written
    else if (ch = 92 ∨ ch = 34) ∧ written.length + 2 < dstSize then
      jsonEscapeLoop dstSize (written ++ [92, ch]) src
    else if ch ≥ 0x20 then jsonEscapeLoop dstSize (written ++ [ch]) src
    else jsonEscapeLoop dstSize written src

/-- What is written before the terminator. -/
def appTextJsonEscape (dstSize : Nat) (src : Bytes) : Bytes := jsonEscapeLoop dstSize [] src

variable {dstSize : Nat} {written src : Bytes}

theorem special_iff (ch : UInt8) : (ch = 92 ∨ ch = 34) ↔ Json.special ch = true := by
  rw [Json.special, decide_eq_true_eq, or_comm]

/-- One byte of the text, with room for what it takes. -/
theorem jsonEscapeLoop_step (ch : UInt8) (h : written.length + (Json.escapeByte ch).length < dstSize)
    (hroom : written.length + 1 < dstSize) :
    jsonEscapeLoop dstSize written (ch :: src) = jsonEscapeLoop dstSize (written ++ Json.escapeByte ch) src := by
  rw [jsonEscapeLoop, if_neg (by omega)]
  cases hs : Json.special ch with
  | true =>
    rw [Json.escapeByte_special hs] at h ⊢
    rw [if_pos ⟨(special_iff ch).2 hs, h⟩]
  | false =>
    have hplain : ¬ (ch = 92 ∨ ch = 34) :=
      fun h0 => absurd ((special_iff ch).1 h0) (by rw [hs]; exact Bool.false_ne_true)
    rw [if_neg fun h0 => hplain h0.1]
    by_cases hc : ch < 0x20
    · rw [if_neg (UInt8.not_le.2 hc), Json.escapeByte_control hc, List.append_nil]
    · rw [if_pos (UInt8.not_lt.1 hc), Json.escapeByte_plain hc hs]

/-- What fits with room for a byte more is escaped, whatever follows. -/
theorem jsonEscapeLoop_append (pre rest : Bytes) (h : written.length + (Json.escape pre).length + 1 < dstSize) :
    jsonEscapeLoop dstSize written (pre ++ rest) = jsonEscapeLoop dstSize (written ++ Json.escape pre) rest := by
  induction pre generalizing written with
  | nil =>
    change jsonEscapeLoop dstSize written rest = jsonEscapeLoop dstSize (written ++ []) rest
    rw [List.append_nil]
  | cons ch pre ih =>
    rw [Json.escape_cons, List.length_append] at h
    rw [List.cons_append, jsonEscapeLoop_step ch (by omega) (by omega),
      ih (by rw [List.length_append]; omega), List.append_assoc]
    rfl

/-- A quote or backslash with one byte left for it. -/
def CutEscape (dstSize : Nat) (src : Bytes) : Prop :=
  ∃ pre ch rest, src = pre ++ ch :: rest ∧ Json.special ch = true ∧ Json.escapedLength pre + 2 = dstSize

theorem jsonEscape_cut (h : CutEscape dstSize src) : Json.unescape (appTextJsonEscape dstSize src) = none := by
  obtain ⟨pre, ch, rest, rfl, hs, hlen⟩ := h
  rw [← Json.length_escape] at hlen
  have hloop : appTextJsonEscape dstSize (pre ++ ch :: rest) = Json.escape pre ++ [ch] := by
    unfold appTextJsonEscape
    rw [jsonEscapeLoop_append pre _ (by rw [List.length_nil]; omega), List.nil_append, jsonEscapeLoop,
      if_neg (by omega),
      if_neg (fun h0 => absurd h0.2 (by omega)), if_pos (UInt8.not_lt.1 (Json.not_control_of_special hs))]
    -- the buffer is full now, whatever is left of the text
    cases rest with
    | nil => rfl
    | cons c rest => rw [jsonEscapeLoop, if_pos (by rw [List.length_append, List.length_singleton]; omega)]
  rw [hloop, Json.unescape_escape_append, Json.unescape_cut hs]
  rfl

/-- Otherwise the text is escaped as far as the buffer goes. -/
theorem jsonEscapeLoop_spec (hw : written.length < dstSize)
    (h : ∀ pre ch rest, src = pre ++ ch :: rest → Json.special ch = true →
      written.length + (Json.escape pre).length + 2 ≠ dstSize) :
    ∃ pre rest, src = pre ++ rest ∧ jsonEscapeLoop dstSize written src = written ++ Json.escape pre ∧
      written.length + (Json.escape pre).length < dstSize ∧
      (rest = [] ∨ written.length + (Json.escape pre).length + 1 = dstSize) := by
  induction src generalizing written with
  | nil => exact ⟨[], [], rfl, (List.append_nil _).symm, hw, .inl rfl⟩
  | cons ch src ih =>
    by_cases hfull : written.length + 1 ≥ dstSize
    · refine ⟨[], ch :: src, rfl, ?_, hw, .inr ?_⟩
      · rw [jsonEscapeLoop, if_pos hfull]
        exact (List.append_nil _).symm
      · exact Nat.le_antisymm hw hfull
    have hfits : written.length + (Json.escapeByte ch).length < dstSize := by
      by_cases hs : Json.special ch = true
      · have hne := h [] ch src rfl hs
        rw [Json.escapeByte_special hs]
        simp only [Json.escape, List.flatMap_nil, List.length_nil, List.length_cons] at hne ⊢
        omega
      · have hle : (Json.escapeByte ch).length ≤ 1 := by
          unfold Json.escapeByte
          rw [if_neg hs]
          split <;> simp
        omega
    have hnext : (written ++ Json.escapeByte ch).length < dstSize := by rwa [List.length_append]
    obtain ⟨pre, rest, rfl, hloop, hlen, hrest⟩ := ih hnext
      fun pre c rest hsrc hs hlen => h (ch :: pre) c rest (by rw [hsrc]; rfl) hs (by
        rw [List.length_append] at hlen
        rwa [Json.escape_cons, List.length_append, ← Nat.add_assoc])
    rw [List.length_append] at hlen hrest
    refine ⟨ch :: pre, rest, rfl, ?_, ?_, ?_⟩
    · rw [jsonEscapeLoop_step ch hfits (by omega), hloop, List.append_assoc, Json.escape_cons]
    · rwa [Json.escape_cons, List.length_append, ← Nat.add_assoc]
    · rwa [Json.escape_cons, List.length_append, ← Nat.add_assoc]

/-- A text that a cut escape does not end is escaped as far as the buffer goes. -/
theorem jsonEscape_spec (hsize : 0 < dstSize) (h : ¬ CutEscape dstSize src) :
    ∃ pre rest, src = pre ++ rest ∧ appTextJsonEscape dstSize src = Json.escape pre ∧
      (Json.escape pre).length < dstSize ∧
      (rest = [] ∨ (Json.escape pre).length + 1 = dstSize) := by
  have hstart : ([] : Bytes).length < dstSize := hsize
  obtain ⟨pre, rest, hsrc, hloop, hlen, hrest⟩ :=
    jsonEscapeLoop_spec hstart fun pre ch rest (hsrc : src = pre ++ ch :: rest) hs hlen => by
    rw [List.length_nil, Nat.zero_add, Json.length_escape] at hlen
    exact h ⟨pre, ch, rest, hsrc, hs, hlen⟩
  rw [List.length_nil, Nat.zero_add] at hlen hrest
  exact ⟨pre, rest, hsrc, hloop, hlen, hrest⟩

theorem not_cutEscape (h : 2 * src.length < dstSize) : ¬ CutEscape dstSize src := by
  rintro ⟨pre, ch, rest, rfl, hs, hlen⟩
  have hle := Json.escapedLength_le pre
  rw [List.length_append, List.length_cons] at h
  omega

/-- With two bytes of room for each byte, all of the text is escaped. -/
theorem jsonEscape_roomy (h : 2 * src.length < dstSize) : appTextJsonEscape dstSize src = Json.escape src := by
  obtain ⟨pre, rest, rfl, hescape, hlen, hrest⟩ := jsonEscape_spec (by omega) (not_cutEscape h)
  have hle := Json.escapedLength_le pre
  rw [← Json.length_escape] at hle
  have hnil : rest = [] := by
    rcases hrest with hnil | hfull
    · exact hnil
    · rw [List.length_append] at h
      exact List.length_eq_zero_iff.1 (by omega)
  rw [hescape, hnil, List.append_nil]

/-! ## What is written -/

/-- A string body that fits, and stands for a prefix of the text without its control
characters; for all of it, if there is room. -/
structure JsonSafe (dstSize : Nat) (src body : Bytes) : Prop where
  fits : body.length < dstSize
  noNul : 0 ∉ body
  denotes : ∃ s, Json.unescape body = some s ∧ s <+: Json.kept src ∧
    (2 * src.length < dstSize → s = Json.kept src)

/-- The text written is a safe string body exactly if no escape is cut. -/
theorem json_escape_safe_iff (dstSize : Nat) (src : Bytes) (hsize : 0 < dstSize) :
    JsonSafe dstSize src (appTextJsonEscape dstSize src) ↔ ¬ CutEscape dstSize src := by
  constructor
  · rintro ⟨-, -, s, hs, -⟩ hcut
    rw [jsonEscape_cut hcut] at hs
    cases hs
  · intro hcut
    obtain ⟨pre, rest, hsrc, hescape, hlen, -⟩ := jsonEscape_spec hsize hcut
    refine ⟨hescape ▸ hlen, ?_, Json.kept pre, ?_, ?_, fun hroom => ?_⟩
    · rw [hescape]
      exact Json.zero_not_mem_escape pre
    · rw [hescape, Json.unescape_escape]
    · rw [hsrc, Json.kept_append]
      exact List.prefix_append _ _
    · have hall := jsonEscape_roomy hroom
      rw [hescape] at hall
      have hkept := Json.unescape_escape pre
      rw [hall, Json.unescape_escape] at hkept
      exact (Option.some.inj hkept).symm

/-- A name of a few characters, one of them a quote, in the buffer that the page has for it. -/
theorem json_escape_safe_quote : 0 < 130 ∧
    (JsonSafe 130 (ascii "12\" bar") (appTextJsonEscape 130 (ascii "12\" bar")) ↔
      ¬ CutEscape 130 (ascii "12\" bar")) := ⟨by decide, json_escape_safe_iff 130 (ascii "12\" bar") (by decide)⟩

/-- A quote that meets the last byte of the buffer. -/
theorem json_escape_cut : ¬ JsonSafe 4 (ascii "ab\"") (appTextJsonEscape 4 (ascii "ab\"")) := by
  rintro ⟨-, -, s, hs, -⟩
  have hnone : Json.unescape (appTextJsonEscape 4 (ascii "ab\"")) = none := by decide +kernel
  rw [hnone] at hs
  cases hs

end BLEBridge
