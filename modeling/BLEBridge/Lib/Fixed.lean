import Mathlib.Algebra.Order.Field.Rat
import Mathlib.Data.Rat.Defs
import Mathlib.Tactic.Linarith
import BLEBridge.Lib.Text
/-!
# Padded and fixed-point numbers

`%0*lu`, `%d`, and `%.*f` of an exact value: rounded to the nearest, a tie to the even
digit, with the sign kept.
-/
namespace Lib

/-- `%0*lu` -/
def padded (width n : Nat) : Bytes := List.replicate (width - (decimal n).length) 48 ++ decimal n

/-- `%d` -/
def signedDecimal (i : Int) : Bytes := (if i < 0 then ascii "-" else []) ++ decimal i.natAbs

/-- `num / den` rounded to the nearest, a tie to the even. -/
def roundHalfEven (num den : Nat) : Nat :=
  if 2 * (num % den) < den ∨ 2 * (num % den) = den ∧ num / den % 2 = 0 then num / den else num / den + 1

/-- `%.*f` -/
def fixedText (digits : Nat) (q : ℚ) : Bytes :=
  let scaled := roundHalfEven (q.num.natAbs * 10 ^ digits) q.den
  (if q < 0 then [45] else []) ++ decimal (scaled / 10 ^ digits) ++
    if digits = 0 then [] else 46 :: padded digits (scaled % 10 ^ digits)

theorem length_padded {width n : Nat} (hw : 0 < width) (h : n < 10 ^ width) :
    (padded width n).length = width := by
  have := decimal_length_le hw h
  unfold padded
  rw [List.length_append, List.length_replicate]
  omega

theorem not_zero_decimal (n : Nat) : 0 ∉ decimal n := fun h => absurd (isdigit_decimal n 0 h) (by decide)

theorem not_zero_padded (width n : Nat) : 0 ∉ padded width n := by
  unfold padded
  rw [List.mem_append]
  rintro (h | h)
  · exact absurd (List.eq_of_mem_replicate h) (by decide)
  · exact not_zero_decimal n h

theorem not_zero_fixedText (digits : Nat) (q : ℚ) : 0 ∉ fixedText digits q := by
  unfold fixedText
  dsimp only
  rw [List.mem_append, List.mem_append]
  rintro ((h | h) | h)
  · split at h
    · exact absurd (List.mem_singleton.1 h) (by decide)
    · exact List.not_mem_nil h
  · exact not_zero_decimal _ h
  · split at h
    · exact List.not_mem_nil h
    · rcases List.mem_cons.1 h with h | h
      · exact absurd h (by decide)
      · exact not_zero_padded _ _ h

/-- Rounding stays below a bound that is a whole number. -/
theorem roundHalfEven_le {num den bound : Nat} (hd : 0 < den) (h : num ≤ bound * den) :
    roundHalfEven num den ≤ bound := by
  have hq : num / den ≤ bound := Nat.div_le_of_le_mul (by rwa [Nat.mul_comm])
  unfold roundHalfEven
  split
  · exact hq
  · rename_i hup
    rcases hq.lt_or_eq with hlt | heq
    · exact hlt
    · -- nothing is left to round up
      have hmod := Nat.div_add_mod num den
      rw [heq, Nat.mul_comm] at hmod
      have h0 : num % den = 0 := by omega
      exact absurd (.inl (by rw [h0]; exact hd)) hup

/-- The length of a value printed with two digits. -/
theorem length_fixedText_le {q : ℚ} (bound k : Nat) (hk : 0 < k) (hb : bound < 10 ^ k)
    (hlo : -(bound : ℚ) ≤ q) (hhi : q ≤ bound) :
    (fixedText 2 q).length ≤ k + 4 ∧ (0 ≤ q → (fixedText 2 q).length ≤ k + 3) := by
  have habs : q.num.natAbs ≤ bound * q.den := by
    have h : |q| ≤ bound := abs_le.2 ⟨hlo, hhi⟩
    rw [Rat.abs_def, Rat.divInt_eq_div, div_le_iff₀ (by exact_mod_cast q.den_pos)] at h
    exact_mod_cast h
  have hscaled : roundHalfEven (q.num.natAbs * 10 ^ 2) q.den ≤ bound * 10 ^ 2 :=
    roundHalfEven_le q.den_pos (by rw [Nat.mul_right_comm]; exact Nat.mul_le_mul_right _ habs)
  have hint : (decimal (roundHalfEven (q.num.natAbs * 10 ^ 2) q.den / 10 ^ 2)).length ≤ k :=
    decimal_length_le hk ((Nat.div_le_of_le_mul (hscaled.trans (Nat.mul_comm _ _).le)).trans_lt hb)
  have hfrac : (padded 2 (roundHalfEven (q.num.natAbs * 10 ^ 2) q.den % 10 ^ 2)).length = 2 :=
    length_padded (by decide) (Nat.mod_lt _ (by decide))
  unfold fixedText
  dsimp only
  rw [if_neg (by decide : (2 : Nat) ≠ 0), List.length_append, List.length_append, List.length_cons, hfrac]
  constructor
  · split
    · rw [List.length_singleton]
      omega
    · rw [List.length_nil]
      omega
  · intro h0
    rw [if_neg (not_lt.2 h0), List.length_nil]
    omega

end Lib
