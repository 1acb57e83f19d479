import Mathlib.Data.List.Induction
import BLEBridge.Lib.Text
/-!
# Bytes in hexadecimal

`%02X` and `%2x`: the text of a list of bytes, two upper-case digits each, and
reading it back.
-/
namespace Lib

def hexDigit (d : Nat) : UInt8 := UInt8.ofNat (if d < 10 then 48 + d else 55 + d)

/-- `%02X` -/
def hex2 (b : UInt8) : Bytes := [hexDigit (b.toNat / 16), hexDigit (b.toNat % 16)]

def hexText (bytes : Bytes) : Bytes := bytes.flatMap hex2

/-- `sscanf(s, "%2x", &value)`: the value and the rest of the text, without the
sign and the `0x` that it would also take. -/
def scanHex2 (s : Bytes) : Option (Nat × Bytes) :=
  let ds := ((trimLeft s).take 2).takeWhile isxdigit
  if ds = [] then none else some (digitsValue 16 ds, (trimLeft s).drop ds.length)

/-- `n` conversions in a row. -/
def scanHexBytes : Nat → Bytes → Option Bytes
  | 0, _ => some []
  | n + 1, s => do
    let (value, rest) ← scanHex2 s
    let bytes ← scanHexBytes n rest
    return UInt8.ofNat value :: bytes

/-- An upper-case hexadecimal digit. -/
def HexUpper (b : UInt8) : Prop := isxdigit b = true ∧ toupper b = b

theorem hexUpper_hexDigit {d : Nat} (h : d < 16) : HexUpper (hexDigit d) := by
  unfold HexUpper
  interval_cases d <;> exact ⟨rfl, rfl⟩

theorem value_hexDigit {d : Nat} (h : d < 16) :
    (if isdigit (hexDigit d) then (hexDigit d).toNat - 48 else (toupper (hexDigit d)).toNat - 55) = d := by
  interval_cases d <;> rfl

theorem not_isspace_hexDigit {d : Nat} (h : d < 16) : isspace (hexDigit d) = false := by
  interval_cases d <;> rfl

theorem exists_hexDigit {b : UInt8} (h : HexUpper b) : ∃ d < 16, b = hexDigit d := by
  obtain ⟨hx, hu⟩ := h
  have hb : b.toNat < 256 := b.toNat_lt
  unfold isxdigit isdigit at hx
  simp only [decide_eq_true_eq, UInt8.le_iff_toNat_le, UInt8.reduceToNat] at hx
  rcases hx with hx | hx | hx
  · refine ⟨b.toNat - 48, by omega, ?_⟩
    unfold hexDigit
    rw [if_pos (by omega), Nat.add_sub_cancel' hx.1, UInt8.ofNat_toNat]
  · refine ⟨b.toNat - 55, by omega, ?_⟩
    unfold hexDigit
    rw [if_neg (by omega), Nat.add_sub_cancel' (by omega), UInt8.ofNat_toNat]
  · -- a lower-case digit is not its own upper case
    unfold toupper at hu
    rw [if_pos ⟨UInt8.le_iff_toNat_le.2 hx.1, UInt8.le_iff_toNat_le.2 (by simp; omega)⟩] at hu
    have := congrArg UInt8.toNat hu
    rw [UInt8.toNat_sub_of_le _ _ (UInt8.le_iff_toNat_le.2 (by simp; omega))] at this
    simp at this
    omega

theorem trimLeft_hexDigit {d : Nat} (h : d < 16) (s : Bytes) : trimLeft (hexDigit d :: s) = hexDigit d :: s := by
  rw [trimLeft_eq_self_iff]
  rintro b ⟨⟩
  exact not_isspace_hexDigit h

theorem scanHex2_hex2 (b : UInt8) (s : Bytes) : scanHex2 (hex2 b ++ s) = some (b.toNat, s) := by
  have hb : b.toNat < 256 := b.toNat_lt
  have h1 : b.toNat / 16 < 16 := by omega
  have h2 : b.toNat % 16 < 16 := by omega
  have hds : [hexDigit (b.toNat / 16), hexDigit (b.toNat % 16)].takeWhile isxdigit =
      [hexDigit (b.toNat / 16), hexDigit (b.toNat % 16)] := by
    rw [List.takeWhile_cons_of_pos (hexUpper_hexDigit h1).1, List.takeWhile_cons_of_pos (hexUpper_hexDigit h2).1,
      List.takeWhile_nil]
  have hvalue : digitsValue 16 [hexDigit (b.toNat / 16), hexDigit (b.toNat % 16)] = b.toNat := by
    unfold digitsValue
    rw [List.foldl_cons, List.foldl_cons, List.foldl_nil, value_hexDigit h1, value_hexDigit h2]
    omega
  unfold scanHex2 hex2
  rw [List.cons_append, trimLeft_hexDigit h1]
  dsimp only [List.cons_append, List.nil_append, List.take]
  rw [hds, if_neg (List.cons_ne_nil _ _), hvalue]
  rfl

/-- What was printed is read back. -/
theorem scanHexBytes_hexText (bytes s : Bytes) : scanHexBytes bytes.length (hexText bytes ++ s) = some bytes := by
  induction bytes generalizing s with
  | nil => rfl
  | cons b bytes ih =>
    unfold hexText at ih ⊢
    rw [List.flatMap_cons, List.append_assoc, List.length_cons, scanHexBytes, scanHex2_hex2]
    simp only [Option.bind_eq_bind, Option.bind_some, ih, Option.pure_def, UInt8.ofNat_toNat]

theorem length_hexText (bytes : Bytes) : (hexText bytes).length = 2 * bytes.length := by
  induction bytes with
  | nil => rfl
  | cons b bytes ih =>
    unfold hexText at ih ⊢
    rw [List.flatMap_cons, List.length_append, ih, List.length_cons]
    unfold hex2
    rw [List.length_cons, List.length_singleton]
    omega

theorem hexUpper_hexText {bytes : Bytes} : ∀ b ∈ hexText bytes, HexUpper b := by
  intro b hb
  obtain ⟨c, -, hb⟩ := List.mem_flatMap.1 hb
  have hc : c.toNat < 256 := c.toNat_lt
  unfold hex2 at hb
  rcases List.mem_cons.1 hb with rfl | hb
  · exact hexUpper_hexDigit (by omega)
  · rw [List.mem_singleton.1 hb]
    exact hexUpper_hexDigit (by omega)

theorem not_zero_hexText (bytes : Bytes) : 0 ∉ hexText bytes :=
  fun h => absurd (hexUpper_hexText 0 h).1 (by decide)

theorem hexText_injective : Function.Injective hexText := by
  intro a b h
  have hl : a.length = b.length := by
    have := congrArg List.length h
    rw [length_hexText, length_hexText] at this
    omega
  have ha := scanHexBytes_hexText a []
  rw [h, hl, scanHexBytes_hexText] at ha
  exact (Option.some.inj ha).symm

/-- A text of `2 * n` upper-case digits is that of `n` bytes. -/
theorem exists_hexText {n : Nat} {s : Bytes} (hl : s.length = 2 * n) (h : ∀ b ∈ s, HexUpper b) :
    ∃ bytes : Bytes, bytes.length = n ∧ s = hexText bytes := by
  induction n generalizing s with
  | zero => exact ⟨[], rfl, List.eq_nil_of_length_eq_zero hl⟩
  | succ n ih =>
    match s, hl, h with
    | c1 :: c2 :: s, hl, h =>
      obtain ⟨d1, hd1, rfl⟩ := exists_hexDigit (h c1 List.mem_cons_self)
      obtain ⟨d2, hd2, rfl⟩ := exists_hexDigit (h c2 (List.mem_cons_of_mem _ List.mem_cons_self))
      rw [List.length_cons, List.length_cons] at hl
      obtain ⟨bytes, hlen, rfl⟩ := ih (s := s) (by omega) fun b hb =>
        h b (List.mem_cons_of_mem _ (List.mem_cons_of_mem _ hb))
      refine ⟨UInt8.ofNat (16 * d1 + d2) :: bytes, congrArg Nat.succ hlen, ?_⟩
      have hn : (UInt8.ofNat (16 * d1 + d2)).toNat = 16 * d1 + d2 :=
        UInt8.toNat_ofNat_of_lt' (show 16 * d1 + d2 < 256 by omega)
      unfold hexText
      rw [List.flatMap_cons]
      unfold hex2
      rw [hn, Nat.mul_add_div (by omega), Nat.mul_add_mod, Nat.div_eq_of_lt hd2, Nat.mod_eq_of_lt hd2]
      rfl

end Lib
