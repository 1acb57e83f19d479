import Mathlib.Data.Finset.Basic
import Mathlib.Order.Basic
/-!
# Codes ordered by their bits

Codes of `n` bits, ordered by their first differing bit, and the forks of the
tree of a set of codes: where a code has a zero and another code of the set that
agrees with it so far has a one. The last fork of a code leads to its successor.
-/
namespace Lib

variable {α : Type} (bit : α → Nat → Bool)

/-- The same first `k` bits. -/
def Agree (a b : α) (k : Nat) : Prop := ∀ i < k, bit a i = bit b i

/-- `a` comes before `b`: it has a zero where they first differ. -/
def Before (n : Nat) (a b : α) : Prop := ∃ k < n, Agree bit a b k ∧ bit a k = false ∧ bit b k = true

/-- Another code leaves the path of `a` to the one side at depth `k`. -/
def Fork (D : Finset α) (a : α) (k : Nat) : Prop :=
  bit a k = false ∧ ∃ d ∈ D, Agree bit a d k ∧ bit d k = true

/-- `z` is one more than the depth of the last fork before `k`, or 0 if there is
none. -/
def IsLastFork (D : Finset α) (a : α) (k z : Nat) : Prop :=
  z ≤ k ∧ (∀ i, z = i + 1 → Fork bit D a i) ∧ ∀ i < k, z ≤ i → ¬Fork bit D a i

variable {bit} {a b c : α} {k n : Nat} {D : Finset α}

theorem Agree.symm (h : Agree bit a b k) : Agree bit b a k := fun i hi => (h i hi).symm

theorem Agree.trans (h : Agree bit a b k) (h' : Agree bit b c k) : Agree bit a c k :=
  fun i hi => (h i hi).trans (h' i hi)

theorem Agree.mono (h : Agree bit a b k) {j : Nat} (hj : j ≤ k) : Agree bit a b j :=
  fun i hi => h i (lt_of_lt_of_le hi hj)

theorem agree_zero (a b : α) : Agree bit a b 0 := fun _ h => absurd h (Nat.not_lt_zero _)

theorem agree_succ : Agree bit a b (k + 1) ↔ Agree bit a b k ∧ bit a k = bit b k := by
  constructor
  · intro h
    exact ⟨h.mono (Nat.le_succ k), h k (Nat.lt_succ_self k)⟩
  · rintro ⟨h, hk⟩ i hi
    rcases Nat.lt_succ_iff_lt_or_eq.1 hi with hi | rfl
    · exact h i hi
    · exact hk

/-- Codes that do not agree differ first at some bit. -/
theorem exists_first_difference (h : ¬Agree bit a b n) : ∃ k < n, Agree bit a b k ∧ bit a k ≠ bit b k := by
  induction n with
  | zero => exact absurd (agree_zero a b) h
  | succ n ih =>
    by_cases hn : Agree bit a b n
    · exact ⟨n, Nat.lt_succ_self n, hn, fun he => h (agree_succ.2 ⟨hn, he⟩)⟩
    · obtain ⟨k, hk, hd⟩ := ih hn
      exact ⟨k, Nat.lt_succ_of_lt hk, hd⟩

theorem Before.irrefl (a : α) : ¬Before bit n a a := by
  rintro ⟨k, -, -, h0, h1⟩
  rw [h0] at h1
  cases h1

theorem Before.trans (h : Before bit n a b) (h' : Before bit n b c) : Before bit n a c := by
  obtain ⟨j, hj, haj, ha, hb⟩ := h
  obtain ⟨k, hk, hbk, hb', hc⟩ := h'
  rcases Nat.lt_trichotomy j k with hlt | rfl | hlt
  · exact ⟨j, hj, haj.trans (hbk.mono hlt.le), ha, (hbk j hlt).symm.trans hb⟩
  · rw [hb] at hb'
    cases hb'
  · exact ⟨k, hk, (haj.mono hlt.le).trans hbk, (haj k hlt).trans hb', hc⟩

theorem Before.asymm (h : Before bit n a b) : ¬Before bit n b a := fun h' => Before.irrefl a (h.trans h')

theorem before_or_before (h : ¬Agree bit a b n) : Before bit n a b ∨ Before bit n b a := by
  obtain ⟨k, hk, hd, hne⟩ := exists_first_difference h
  cases ha : bit a k with
  | false =>
    have hb : bit b k = true := Bool.eq_true_of_not_eq_false fun hb => hne (ha.trans hb.symm)
    exact .inl ⟨k, hk, hd, ha, hb⟩
  | true =>
    have hb : bit b k = false := Bool.eq_false_of_not_eq_true fun hb => hne (ha.trans hb.symm)
    exact .inr ⟨k, hk, hd.symm, hb, ha⟩

/-- A fork is about the bits up to its depth only. -/
theorem fork_congr (h : Agree bit a b (k + 1)) : Fork bit D a k ↔ Fork bit D b k := by
  obtain ⟨hk, he⟩ := agree_succ.1 h
  unfold Fork
  rw [he]
  exact and_congr_right fun _ => exists_congr fun d => and_congr_right fun _ => and_congr_left fun _ =>
    ⟨fun hd => hk.symm.trans hd, fun hd => hk.trans hd⟩

theorem IsLastFork.congr {z : Nat} (h : IsLastFork bit D a k z) (hab : Agree bit a b k) :
    IsLastFork bit D b k z := by
  obtain ⟨hz, hfork, hno⟩ := h
  refine ⟨hz, fun i hi => ?_, fun i hi hzi hf => ?_⟩
  · exact (fork_congr (hab.mono (by omega))).1 (hfork i hi)
  · exact hno i hi hzi ((fork_congr (hab.mono hi)).2 hf)

theorem isLastFork_zero (D : Finset α) (a : α) : IsLastFork bit D a 0 0 :=
  ⟨le_refl 0, fun _ h => (by cases h), fun _ h => absurd h (Nat.not_lt_zero _)⟩

theorem IsLastFork.succ_of_fork (hf : Fork bit D a k) : IsLastFork bit D a (k + 1) (k + 1) := by
  refine ⟨le_refl _, fun i hi => ?_, fun i hi hki => absurd hi (not_lt.2 hki)⟩
  rw [← Nat.succ.inj hi]
  exact hf

theorem IsLastFork.succ_of_not {z : Nat} (h : IsLastFork bit D a k z) (hf : ¬Fork bit D a k) :
    IsLastFork bit D a (k + 1) z := by
  obtain ⟨hz, hfork, hno⟩ := h
  refine ⟨Nat.le_succ_of_le hz, hfork, fun i hi hzi => ?_⟩
  rcases Nat.lt_succ_iff_lt_or_eq.1 hi with hi | rfl
  · exact hno i hi hzi
  · exact hf

/-- Without a fork nothing comes after. -/
theorem IsLastFork.not_before (h : IsLastFork bit D a n 0) (hb : b ∈ D) : ¬Before bit n a b := by
  rintro ⟨k, hk, hab, h0, h1⟩
  exact h.2.2 k hk (Nat.zero_le k) ⟨h0, b, hb, hab, h1⟩

/-- The code a walk ends at that took the one at the last fork of `a` and then a
zero wherever it could is the first one after `a`. -/
theorem before_of_turn {j : Nat} (hlast : IsLastFork bit D a n (j + 1)) (hj : j < n)
    (hfollow : Agree bit c a j) (hturn : bit c j = true)
    (hfirst : ∀ i < n, j < i → bit c i = true → ∀ d ∈ D, Agree bit c d i → bit d i = true)
    (hext : ∀ d ∈ D, Agree bit c d n → c = d) :
    Before bit n a c ∧ ∀ d ∈ D, Before bit n a d → d ≠ c → Before bit n c d := by
  have ha : bit a j = false := (hlast.2.1 j rfl).1
  refine ⟨⟨j, hj, hfollow.symm, ha, hturn⟩, ?_⟩
  rintro d hd ⟨k, hk, had, hak, hdk⟩ hne
  obtain ⟨i, hi, hcd, hdiff⟩ := exists_first_difference fun h => hne (hext d hd h).symm
  have hkj : k ≤ j := by
    by_contra hlt
    exact hlast.2.2 k hk (by omega) ⟨hak, d, hd, had, hdk⟩
  rcases Nat.lt_trichotomy i j with hij | rfl | hij
  · -- the first difference from `d` is that of `a`
    have hki : k = i := by
      rcases Nat.lt_trichotomy k i with h | h | h
      · have := (hcd k h).symm.trans (hfollow k (by omega))
        rw [hdk, hak] at this
        cases this
      · exact h
      · exact absurd ((hfollow i hij).trans (had i h)) hdiff
    subst hki
    exact ⟨k, hk, hcd, (hfollow k hij).trans hak, hdk⟩
  · have hdi : bit d i = false := Bool.eq_false_of_not_eq_true fun h => hdiff (hturn.trans h.symm)
    rcases Nat.lt_or_eq_of_le hkj with h | rfl
    · have := (hcd k h).symm.trans (hfollow k h)
      rw [hdk, hak] at this
      cases this
    · rw [hdk] at hdi
      cases hdi
  · have hci : bit c i = false := by
      by_contra h
      have hci := Bool.eq_true_of_not_eq_false h
      exact hdiff (hci.trans (hfirst i hi hij hci d hd hcd).symm)
    exact ⟨i, hi, hcd, hci, Bool.eq_true_of_not_eq_false fun h => hdiff (hci.trans h.symm)⟩

/-- A walk that took a zero wherever it could ends at the first code of all. -/
theorem before_of_first (hfirst : ∀ i < n, bit c i = true → ∀ d ∈ D, Agree bit c d i → bit d i = true)
    (hext : ∀ d ∈ D, Agree bit c d n → c = d) : ∀ d ∈ D, d ≠ c → Before bit n c d := by
  intro d hd hne
  obtain ⟨i, hi, hcd, hdiff⟩ := exists_first_difference fun h => hne (hext d hd h).symm
  have hci : bit c i = false := by
    by_contra h
    have hci := Bool.eq_true_of_not_eq_false h
    exact hdiff (hci.trans (hfirst i hi hci d hd hcd).symm)
  exact ⟨i, hi, hcd, hci, Bool.eq_true_of_not_eq_false fun h => hdiff (hci.trans h.symm)⟩

/-- What a sorted list yields up to the first element that fails `p`. -/
theorem mem_takeWhile_iff {r : α → α → Prop} (hasymm : ∀ {a b}, r a b → ¬r b a) {p : α → Bool}
    {x : α} {l : List α} (hl : l.Pairwise r) :
    x ∈ l.takeWhile p ↔ x ∈ l ∧ p x = true ∧ ∀ y ∈ l, r y x → p y = true := by
  induction l with
  | nil => simp
  | cons a l ih =>
    obtain ⟨ha, hl⟩ := List.pairwise_cons.1 hl
    have hself : ¬r a a := fun h => hasymm h h
    cases hpa : p a with
    | false =>
      rw [List.takeWhile_cons_of_neg (by rw [hpa]; decide)]
      refine ⟨fun h => absurd h List.not_mem_nil, ?_⟩
      rintro ⟨hx, hpx, hall⟩
      rcases List.mem_cons.1 hx with rfl | hx
      · rw [hpa] at hpx
        cases hpx
      · have := hall a List.mem_cons_self (ha x hx)
        rw [hpa] at this
        cases this
    | true =>
      rw [List.takeWhile_cons_of_pos hpa, List.mem_cons, List.mem_cons, ih hl]
      constructor
      · rintro (rfl | ⟨hx, hpx, hall⟩)
        · refine ⟨.inl rfl, hpa, fun y hy hyx => ?_⟩
          rcases List.mem_cons.1 hy with rfl | hy
          · exact hpa
          · exact absurd (ha y hy) (hasymm hyx)
        · refine ⟨.inr hx, hpx, fun y hy hyx => ?_⟩
          rcases List.mem_cons.1 hy with rfl | hy
          · exact hpa
          · exact hall y hy hyx
      · rintro ⟨rfl | hx, hpx, hall⟩
        · exact .inl rfl
        · exact .inr ⟨hx, hpx, fun y hy => hall y (List.mem_cons_of_mem a hy)⟩

end Lib
