import Mathlib.Data.Nat.Basic
import Mathlib.Tactic.Ring
/-!
# Back-off

Delays that double with every failure up to a limit, and the times at which they end,
read from a counter of milliseconds that wraps.
-/
namespace Lib

/-! ## Delays -/

/-- The delay after the `k`-th failure in a row. -/
def backoffDelay (first limit k : Nat) : Nat := min (first * 2 ^ (k - 1)) limit

variable {first limit : Nat}

theorem backoffDelay_le (k : Nat) : backoffDelay first limit k ≤ limit := min_le_right _ _

theorem backoffDelay_one (h : first ≤ limit) : backoffDelay first limit 1 = first := by
  rw [backoffDelay, Nat.sub_self, pow_zero, Nat.mul_one, min_eq_left h]

theorem backoffDelay_succ (k : Nat) :
    backoffDelay first limit (k + 2) = min (backoffDelay first limit (k + 1) * 2) limit := by
  have hpow : first * 2 ^ (k + 1) = first * 2 ^ k * 2 := by rw [pow_succ, Nat.mul_assoc]
  rw [backoffDelay, backoffDelay, Nat.add_sub_cancel, Nat.succ_sub_one, hpow]
  omega

theorem backoffDelay_pos (hfirst : 0 < first) (hlimit : 0 < limit) (k : Nat) : 0 < backoffDelay first limit k :=
  lt_min (Nat.mul_pos hfirst (Nat.two_pow_pos _)) hlimit

/-! ## The counter -/

/-- The sign of the difference tells which of two times is the later one, as long as they
are less than half a turn of the counter apart. -/
theorem wrapped_due_iff {now target : Nat} (hn : now < target + 2 ^ 31) (ht : target ≤ now + 2 ^ 31) :
    (UInt32.ofNat now - UInt32.ofNat target).toNat < 2 ^ 31 ↔ target ≤ now := by
  rw [UInt32.toNat_sub, UInt32.toNat_ofNat', UInt32.toNat_ofNat']
  omega

end Lib
