import Mathlib.Algebra.BigOperators.Fin
import Mathlib.Data.List.FinRange
import Mathlib.Data.List.Induction
import Mathlib.Data.List.Nodup
/-!
# Slots filled from the front

A table whose slots are given to keys in the order the keys come: the slot of a
key is found by a scan, and a new key takes the first slot that is free. After a
list of keys the table of `m` slots holds `firstDistinct m` of it.
-/
namespace Lib

variable {K : Type*} {m : Nat}

section
variable [DecidableEq K]

/-- The different keys of a list, in the order they first occur. -/
def distinct (l : List K) : List K := l.eraseDups

def firstDistinct (m : Nat) (l : List K) : List K := (distinct l).take m

theorem mem_distinct {l : List K} {k : K} : k ∈ distinct l ↔ k ∈ l := List.mem_eraseDups

theorem distinct_concat (l : List K) (k : K) :
    distinct (l ++ [k]) = if k ∈ l then distinct l else distinct l ++ [k] := by
  unfold distinct
  rw [List.eraseDups_append]
  by_cases h : k ∈ l
  · rw [if_pos h]
    simp [List.removeAll, h]
  · rw [if_neg h]
    simp [List.removeAll, h, List.eraseDups_cons]

theorem nodup_distinct (l : List K) : (distinct l).Nodup := by
  induction l using List.reverseRecOn with
  | nil => exact List.nodup_nil
  | append_singleton l k ih =>
    rw [distinct_concat]
    split
    · exact ih
    · rename_i h
      rw [List.nodup_append]
      refine ⟨ih, List.nodup_singleton k, ?_⟩
      rintro a ha b hb rfl
      rw [List.mem_singleton] at hb
      subst hb
      exact h (mem_distinct.1 ha)

theorem nodup_firstDistinct (m : Nat) (l : List K) : (firstDistinct m l).Nodup :=
  (nodup_distinct l).sublist (List.take_sublist m _)

theorem length_firstDistinct_le (m : Nat) (l : List K) : (firstDistinct m l).length ≤ m := List.length_take_le m _

theorem mem_of_mem_firstDistinct {l : List K} {k : K} (h : k ∈ firstDistinct m l) : k ∈ l :=
  mem_distinct.1 (List.mem_of_mem_take h)

/-- While there is room every key is kept. -/
theorem not_mem_of_not_mem_firstDistinct {l : List K} {k : K} (h : k ∉ firstDistinct m l)
    (hl : (firstDistinct m l).length < m) : k ∉ l := by
  intro hk
  unfold firstDistinct at h hl
  rw [List.length_take] at hl
  rw [List.take_of_length_le (by omega)] at h
  exact h (mem_distinct.2 hk)

/-- One more key: it is there, or there is no room for it, or it comes last. -/
theorem firstDistinct_concat (m : Nat) (l : List K) (k : K) :
    firstDistinct m (l ++ [k]) = if k ∈ firstDistinct m l ∨ m ≤ (firstDistinct m l).length then firstDistinct m l
      else firstDistinct m l ++ [k] := by
  unfold firstDistinct
  rw [distinct_concat]
  by_cases hk : k ∈ l
  · rw [if_pos hk]
    split
    · rfl
    · rename_i h
      push Not at h
      exact absurd hk (not_mem_of_not_mem_firstDistinct h.1 h.2)
  · rw [if_neg hk]
    have hmem : k ∉ (distinct l).take m := fun h => hk (mem_distinct.1 (List.mem_of_mem_take h))
    rw [List.length_take]
    by_cases hm : m ≤ (distinct l).length
    · rw [if_pos (.inr (by omega)), List.take_append_of_le_length hm]
    · rw [if_neg (by rintro (h | h); exacts [hmem h, by omega]), List.take_of_length_le (by simp; omega),
        List.take_of_length_le (by omega)]

/-- Every element is counted for its own key. -/
theorem sum_length_filter {E : Type*} (key : E → K) (es : List E) :
    ∑ k ∈ (es.map key).toFinset, (es.filter fun e => key e = k).length = es.length := by
  have h := List.sum_toFinset_count_eq_length (es.map key)
  rw [List.length_map] at h
  rw [← h]
  refine Finset.sum_congr rfl fun k _ => ?_
  rw [← List.countP_eq_length_filter, List.count, List.countP_map]
  rfl
end

theorem sum_map_ite_le [DecidableEq K] {D : List K} (hD : D.Nodup) (k : K) (w : Nat) :
    (D.map fun d => if k = d then w else 0).sum ≤ w := by
  induction D with
  | nil => exact Nat.zero_le w
  | cons d D ih =>
    obtain ⟨hd, hD⟩ := List.nodup_cons.1 hD
    rw [List.map_cons, List.sum_cons]
    by_cases hk : k = d
    · subst hk
      -- no other key is `k`
      have hrest : (D.map fun d => if k = d then w else 0) = D.map fun _ => 0 :=
        List.map_congr_left fun d' hd' => if_neg fun he => hd (by rwa [he])
      rw [if_pos rfl, hrest]
      simp
    · rw [if_neg hk, Nat.zero_add]
      exact ih hD

/-- The weights of the elements of different keys are no more than all weights. -/
theorem sum_fibers_le {E : Type*} [DecidableEq K] (key : E → K) (weight : E → Nat) (es : List E) {D : List K}
    (hD : D.Nodup) :
    (D.map fun d => ((es.filter fun e => key e = d).map weight).sum).sum ≤ (es.map weight).sum := by
  induction es with
  | nil => simp
  | cons e es ih =>
    have hsplit : (D.map fun d => (((e :: es).filter fun e => key e = d).map weight).sum) =
        D.map fun d => (if key e = d then weight e else 0) + ((es.filter fun e => key e = d).map weight).sum := by
      refine List.map_congr_left fun d _ => ?_
      by_cases hk : key e = d
      · simp [hk]
      · simp [hk]
    rw [hsplit, List.sum_map_add, List.map_cons, List.sum_cons]
    exact Nat.add_le_add (sum_map_ite_le hD (key e) (weight e)) ih

theorem getElem?_concat_ne {l : List K} {k : K} {i : Nat} (h : i ≠ l.length) : (l ++ [k])[i]? = l[i]? := by
  rcases Nat.lt_or_gt_of_ne h with h | h
  · exact List.getElem?_append_left h
  · rw [List.getElem?_eq_none_iff.2 (by simp; omega), List.getElem?_eq_none_iff.2 h.le]

/-! ## What a scan finds -/

theorem find_finRange {p : Fin m → Bool} {i : Fin m} :
    (List.finRange m).find? p = some i ↔ p i = true ∧ ∀ j < i, p j = false := by
  rw [List.find?_eq_some_iff_getElem]
  constructor
  · rintro ⟨hp, k, hk, he, hlt⟩
    rw [List.getElem_finRange] at he
    refine ⟨hp, fun j hj => ?_⟩
    have hjk : j.val < k := by
      rw [← he] at hj
      exact hj
    have := hlt j.val hjk
    rw [List.getElem_finRange] at this
    simpa using this
  · rintro ⟨hp, hlt⟩
    refine ⟨hp, i.val, by rw [List.length_finRange]; exact i.isLt, by rw [List.getElem_finRange]; rfl,
      fun j hj => ?_⟩
    rw [List.getElem_finRange, hlt _ hj]
    rfl

theorem find_finRange_none {p : Fin m → Bool} : (List.finRange m).find? p = none ↔ ∀ i, p i = false := by
  rw [List.find?_eq_none]
  exact ⟨fun h i => by simpa using h i (List.mem_finRange i), fun h i _ => by simp [h i]⟩

variable {keys : List K} {p : Fin m → Bool} {k : K}

/-- The slot of a key is where it stands among the keys. -/
theorem find_key (hp : ∀ j : Fin m, p j = true ↔ keys[j.val]? = some k) (hn : keys.Nodup) {i : Fin m}
    (h : keys[i.val]? = some k) : (List.finRange m).find? p = some i := by
  rw [find_finRange]
  refine ⟨(hp i).2 h, fun j hj => ?_⟩
  rw [← Bool.not_eq_true, hp]
  intro hj'
  obtain ⟨hil, hie⟩ := List.getElem?_eq_some_iff.1 h
  obtain ⟨hjl, hje⟩ := List.getElem?_eq_some_iff.1 hj'
  have hij : j.val = i.val := hn.getElem_inj_iff.1 (hje.trans hie.symm)
  omega

theorem find_key_none (hp : ∀ j : Fin m, p j = true ↔ keys[j.val]? = some k) (h : k ∉ keys) :
    (List.finRange m).find? p = none := by
  rw [find_finRange_none]
  intro j
  rw [← Bool.not_eq_true, hp]
  exact fun hj => h (List.mem_of_getElem? hj)

/-- The first free slot comes after the keys. -/
theorem find_free (hp : ∀ j : Fin m, p j = true ↔ keys.length ≤ j.val) {i : Fin m} (hi : i.val = keys.length) :
    (List.finRange m).find? p = some i := by
  rw [find_finRange]
  refine ⟨(hp i).2 hi.ge, fun j hj => ?_⟩
  rw [← Bool.not_eq_true, hp]
  omega

theorem find_free_none (hp : ∀ j : Fin m, p j = true ↔ keys.length ≤ j.val) (h : m ≤ keys.length) :
    (List.finRange m).find? p = none := by
  rw [find_finRange_none]
  intro j
  rw [← Bool.not_eq_true, hp]
  omega

/-! ## Compacting in place -/

section
variable {α : Type*} (keep : α → Bool)

/-- One round: an element that is kept moves to the next place, which is not after it. -/
def compactRound (state : (Fin m → α) × Nat) (i : Fin m) : (Fin m → α) × Nat :=
  if keep (state.1 i) then
    (if state.2 ≠ i.val then fun j => if j.val = state.2 then state.1 i else state.1 j else state.1, state.2 + 1)
  else state

/-- The places below what is kept hold it, the others are as they were. -/
theorem compact_take (table : Fin m → α) {k : Nat} (hk : k ≤ m) :
    ((List.finRange m).take k).foldl (compactRound keep) (table, 0) =
      (fun j => ((((List.finRange m).take k).map table).filter keep)[j.val]?.getD (table j),
        ((((List.finRange m).take k).map table).filter keep).length) := by
  induction k with
  | zero => rfl
  | succ k ih =>
    have hlt : k < m := hk
    have htake : (List.finRange m).take (k + 1) = (List.finRange m).take k ++ [⟨k, hlt⟩] := by
      rw [List.take_add_one, List.getElem?_eq_getElem (by rw [List.length_finRange]; exact hlt),
        List.getElem_finRange]
      rfl
    rw [htake, List.foldl_append, ih hlt.le, List.map_append, List.filter_append]
    have hlen : ((((List.finRange m).take k).map table).filter keep).length ≤ k := by
      refine (List.length_filter_le _ _).trans ?_
      rw [List.length_map]
      exact List.length_take_le _ _
    generalize (((List.finRange m).take k).map table).filter keep = kept at hlen
    -- the place of `k` is not below the kept ones, so it still has what it had
    have hat : kept[k]?.getD (table ⟨k, hlt⟩) = table ⟨k, hlt⟩ := by
      rw [List.getElem?_eq_none_iff.2 hlen]
      rfl
    simp only [List.foldl_cons, List.foldl_nil, compactRound, List.map_cons, List.map_nil, hat]
    cases hkeep : keep (table ⟨k, hlt⟩) with
    | false => simp [hkeep]
    | true =>
      rw [if_pos rfl, List.filter_cons_of_pos hkeep, List.filter_nil, List.length_append, List.length_singleton]
      refine Prod.ext ?_ rfl
      funext j
      dsimp only
      by_cases hj : j.val = kept.length
      · rw [hj, List.getElem?_concat_length, Option.getD_some]
        split
        · exact if_pos hj
        · rename_i hne
          rw [not_not] at hne
          dsimp only
          rw [hj, List.getElem?_eq_none_iff.2 le_rfl]
          exact congrArg table (Fin.ext (hj.trans hne))
      · rw [getElem?_concat_ne hj]
        split
        · exact if_neg hj
        · rfl

theorem compact_eq (table : Fin m → α) :
    (List.finRange m).foldl (compactRound keep) (table, 0) =
      (fun j => (((List.finRange m).map table).filter keep)[j.val]?.getD (table j),
        (((List.finRange m).map table).filter keep).length) := by
  have h := compact_take keep table le_rfl
  rwa [List.take_of_length_le (by rw [List.length_finRange])] at h

/-- A table that starts with the elements of a list. -/
theorem map_finRange_getD {l : List α} (z : α) (h : l.length ≤ m) :
    (List.finRange m).map (fun j => l[j.val]?.getD z) = l ++ List.replicate (m - l.length) z := by
  apply List.ext_getElem
  · simp; omega
  · intro i h1 h2
    rw [List.getElem_map, List.getElem_finRange]
    dsimp only [Fin.cast]
    by_cases hi : i < l.length
    · rw [List.getElem?_eq_getElem hi, List.getElem_append_left hi]
      rfl
    · rw [List.getElem?_eq_none_iff.2 (by omega), List.getElem_append_right (by omega), List.getElem_replicate]
      rfl

/-- The keys of the elements in use are different when no two slots have one. -/
theorem nodup_keys_iff (table : Fin m → α) (key : α → K) :
    ((((List.finRange m).map table).filter keep).map key).Nodup ↔
      ∀ i j, keep (table i) = true → keep (table j) = true → key (table i) = key (table j) → i = j := by
  rw [List.filter_map, List.map_map, List.nodup_map_iff_inj_on ((List.nodup_finRange m).filter _)]
  constructor
  · intro h i j hi hj hk
    exact h i (List.mem_filter.2 ⟨List.mem_finRange i, hi⟩) j (List.mem_filter.2 ⟨List.mem_finRange j, hj⟩) hk
  · intro h i hi j hj hk
    exact h i j (List.mem_filter.1 hi).2 (List.mem_filter.1 hj).2 hk
end

/-! ## Counting slots -/

section
variable {α : Type*}

/-- The number of slots whose element meets a test. -/
def slotCount (test : α → Bool) (table : Fin m → α) : Nat := ∑ i, (test (table i)).toNat

theorem slotCount_update (test : α → Bool) (table : Fin m → α) (k : Fin m) (x : α) :
    slotCount test (Function.update table k x) + (test (table k)).toNat = slotCount test table +
      (test x).toNat := by
  unfold slotCount
  have hrest : ∑ i ∈ Finset.univ.erase k, (test (Function.update table k x i)).toNat =
      ∑ i ∈ Finset.univ.erase k, (test (table i)).toNat := by
    refine Finset.sum_congr rfl fun i hi => ?_
    rw [Function.update_of_ne (Finset.ne_of_mem_erase hi)]
  rw [← Finset.add_sum_erase _ _ (Finset.mem_univ k), ← Finset.add_sum_erase _ (fun i => (test (table i)).toNat)
    (Finset.mem_univ k), hrest, Function.update_self]
  omega

theorem slotCount_eq_countP (test : α → Bool) (table : Fin m → α) :
    slotCount test table = ((List.finRange m).map table).countP test := by
  unfold slotCount
  rw [Fin.sum_univ_def]
  induction List.finRange m with
  | nil => rfl
  | cons i l ih =>
    rw [List.map_cons, List.map_cons, List.sum_cons, List.countP_cons, ih, Nat.add_comm]
    cases test (table i) with
    | false => rfl
    | true => rfl

theorem slotCount_eq_card (test : α → Bool) (table : Fin m → α) :
    slotCount test table = (Finset.univ.filter fun i => test (table i) = true).card := by
  unfold slotCount
  rw [Finset.card_filter]
  refine Finset.sum_congr rfl fun i _ => ?_
  cases test (table i) with
  | false => rfl
  | true => rfl

theorem slotCount_eq_zero {table : Fin m → α} {test : α → Bool} :
    slotCount test table = 0 ↔ ∀ i, test (table i) = false := by
  rw [slotCount_eq_card, Finset.card_eq_zero, Finset.filter_eq_empty_iff]
  simp

theorem slotCount_eq_one {table : Fin m → α} {test : α → Bool} :
    slotCount test table = 1 ↔ ∃ i, test (table i) = true ∧ ∀ j, test (table j) = true → j = i := by
  rw [slotCount_eq_card, Finset.card_eq_one]
  constructor
  · rintro ⟨i, hi⟩
    have hmem : ∀ j, test (table j) = true ↔ j = i := by
      intro j
      simpa using Finset.ext_iff.1 hi j
    exact ⟨i, (hmem i).2 rfl, fun j hj => (hmem j).1 hj⟩
  · rintro ⟨i, hi, hu⟩
    refine ⟨i, Finset.ext fun j => ?_⟩
    rw [Finset.mem_filter, Finset.mem_singleton]
    exact ⟨fun h => hu j h.2, fun h => ⟨Finset.mem_univ j, h ▸ hi⟩⟩
end

end Lib
