import Mathlib.Logic.Function.Basic
import Mathlib.Tactic.SplitIfs
/-!
# Ring buffers

A first-in first-out queue in `n` slots with a read and a write index; one slot
stays free, so that equal indices mean empty. `items` is the queue it stands for.
-/
namespace Lib

structure Ring (α : Type) (n : Nat) where
  entries : Fin n → α
  readIndex : Fin n
  writeIndex : Fin n

variable {α : Type} {n : Nat}

namespace Ring

def next (i : Fin n) : Fin n := ⟨(i + 1) % n, Nat.mod_lt _ i.pos⟩

def tryAdd (r : Ring α n) (x : α) : Option (Ring α n) :=
  if next r.writeIndex = r.readIndex then none
  else some { r with entries := Function.update r.entries r.writeIndex x, writeIndex := next r.writeIndex }

def tryRemove (r : Ring α n) : Option (α × Ring α n) :=
  if r.readIndex = r.writeIndex then none
  else some (r.entries r.readIndex, { r with readIndex := next r.readIndex })

/-- The number of entries in use. -/
def count (r : Ring α n) : Nat := (r.writeIndex + n - r.readIndex) % n

/-- The slot of the `k`-th entry. -/
def slot (r : Ring α n) (k : Nat) : Fin n := ⟨(r.readIndex + k) % n, Nat.mod_lt _ r.readIndex.pos⟩

def items (r : Ring α n) : List α := (List.range r.count).map fun k => r.entries (r.slot k)

theorem items_length (r : Ring α n) : r.items.length = r.count := by
  unfold items
  rw [List.length_map, List.length_range]

/-- Remainders of what is less than two rounds. -/
theorem mod_round {a : Nat} (h : a < 2 * n) : a % n = if a < n then a else a - n := by
  split_ifs with ha
  · exact Nat.mod_eq_of_lt ha
  · rw [Nat.mod_eq_sub_mod (Nat.le_of_not_lt ha)]
    exact Nat.mod_eq_of_lt (by omega)

theorem count_eq (r : Ring α n) : r.count =
    if (r.readIndex : Nat) ≤ r.writeIndex then (r.writeIndex : Nat) - r.readIndex
      else r.writeIndex + n - r.readIndex := by
  have hr := r.readIndex.isLt
  have hw := r.writeIndex.isLt
  unfold count
  rw [mod_round (by omega)]
  split_ifs <;> omega

theorem next_val (i : Fin n) : (next i : Nat) = if (i : Nat) + 1 < n then (i : Nat) + 1 else 0 := by
  have hi := i.isLt
  have hm := mod_round (show (i : Nat) + 1 < 2 * n by omega)
  refine hm.trans ?_
  split_ifs <;> omega

theorem slot_val (r : Ring α n) {k : Nat} (hk : k ≤ n) :
    (r.slot k : Nat) = if (r.readIndex : Nat) + k < n then (r.readIndex : Nat) + k else r.readIndex + k - n := by
  have hr := r.readIndex.isLt
  unfold slot
  exact mod_round (by omega)

theorem count_lt (r : Ring α n) : r.count < n := Nat.mod_lt _ r.readIndex.pos

/-- The next entry goes to the slot after the last one. -/
theorem slot_count (r : Ring α n) : r.slot r.count = r.writeIndex := by
  have hr := r.readIndex.isLt
  have hw := r.writeIndex.isLt
  apply Fin.ext
  rw [slot_val r (Nat.le_of_lt r.count_lt), count_eq]
  split_ifs <;> omega

theorem slot_ne {r : Ring α n} {k : Nat} (hk : k < r.count) : r.slot k ≠ r.writeIndex := by
  have hr := r.readIndex.isLt
  have hw := r.writeIndex.isLt
  have hc := r.count_lt
  rw [count_eq] at hk hc
  intro he
  have hv := congrArg Fin.val he
  rw [slot_val r (by omega)] at hv
  split_ifs at hk hv hc <;> omega

theorem count_add {r : Ring α n} (h : next r.writeIndex ≠ r.readIndex) (entries : Fin n → α) :
    (Ring.mk entries r.readIndex (next r.writeIndex)).count = r.count + 1 := by
  have hr := r.readIndex.isLt
  have hw := r.writeIndex.isLt
  have hne : (next r.writeIndex : Nat) ≠ r.readIndex := fun he => h (Fin.ext he)
  rw [count_eq, count_eq]
  dsimp only
  rw [next_val] at hne ⊢
  split_ifs at hne ⊢ <;> omega

/-- A full ring refuses, and no other does. -/
theorem tryAdd_none_iff (r : Ring α n) (x : α) : r.tryAdd x = none ↔ r.items.length + 1 = n := by
  have hr := r.readIndex.isLt
  have hw := r.writeIndex.isLt
  have hiff : next r.writeIndex = r.readIndex ↔ r.count + 1 = n := by
    rw [Fin.ext_iff, next_val, count_eq]
    split_ifs <;> omega
  unfold tryAdd
  rw [items_length, ← hiff]
  split_ifs with h
  · exact ⟨fun _ => h, fun _ => rfl⟩
  · exact ⟨fun hn => (by cases hn), fun hn => absurd hn h⟩

/-- Writing to the free slot changes no entry. -/
theorem items_write (r : Ring α n) (x : α) :
    (Ring.mk (Function.update r.entries r.writeIndex x) r.readIndex r.writeIndex).items = r.items := by
  unfold items
  apply List.map_congr_left
  intro k hk
  exact Function.update_of_ne (slot_ne (List.mem_range.1 hk)) _ _

/-- What is added comes last. -/
theorem items_of_tryAdd {r r' : Ring α n} {x : α} (h : r.tryAdd x = some r') : r'.items = r.items ++ [x] := by
  unfold tryAdd at h
  split_ifs at h with hfull
  cases h
  unfold items
  rw [count_add hfull, List.range_succ, List.map_append]
  congr 1
  · exact r.items_write x
  · have hslot : (Ring.mk (Function.update r.entries r.writeIndex x) r.readIndex (next r.writeIndex)).slot
      r.count = r.writeIndex :=
      slot_count r
    rw [List.map_singleton, hslot]
    dsimp only
    rw [Function.update_self]

theorem tryRemove_none_iff (r : Ring α n) : r.tryRemove = none ↔ r.items = [] := by
  have hr := r.readIndex.isLt
  have hw := r.writeIndex.isLt
  have hiff : r.readIndex = r.writeIndex ↔ r.count = 0 := by
    rw [Fin.ext_iff, count_eq]
    split_ifs <;> omega
  unfold tryRemove
  rw [← List.length_eq_zero_iff, items_length, ← hiff]
  split_ifs with h
  · exact ⟨fun _ => h, fun _ => rfl⟩
  · exact ⟨fun hn => (by cases hn), fun hn => absurd hn h⟩

/-- What is removed came first. -/
theorem items_of_tryRemove {r r' : Ring α n} {x : α} (h : r.tryRemove = some (x, r')) :
    r.items = x :: r'.items := by
  have hr := r.readIndex.isLt
  have hw := r.writeIndex.isLt
  unfold tryRemove at h
  split_ifs at h with hne
  cases h
  have hne' : (r.readIndex : Nat) ≠ r.writeIndex := fun he => hne (Fin.ext he)
  have hcount : r.count = (Ring.mk r.entries (next r.readIndex) r.writeIndex).count + 1 := by
    rw [count_eq, count_eq]
    dsimp only
    rw [next_val]
    split_ifs <;> omega
  unfold items
  rw [hcount, List.range_succ_eq_map, List.map_cons, List.map_map]
  congr 1
  · congr 1
    apply Fin.ext
    rw [slot_val r (Nat.zero_le n), if_pos (by omega)]
    rfl
  · apply List.map_congr_left
    intro k hk
    have hk' := List.mem_range.1 hk
    have hlt := (Ring.mk r.entries (next r.readIndex) r.writeIndex).count_lt
    unfold Function.comp
    dsimp only
    congr 1
    apply Fin.ext
    rw [slot_val _ (by omega), slot_val _ (by omega)]
    dsimp only
    rw [next_val]
    split_ifs <;> omega

theorem tryAdd_of_empty {r : Ring α n} (h : r.items = []) (hn : 1 < n) (x : α) :
    ∃ r', r.tryAdd x = some r' ∧ r'.items = [x] := by
  have hsome : r.tryAdd x ≠ none := by
    intro hnone
    have := (tryAdd_none_iff r x).1 hnone
    rw [h] at this
    exact absurd this (Nat.ne_of_lt hn)
  obtain ⟨r', hr'⟩ := Option.ne_none_iff_exists'.1 hsome
  refine ⟨r', hr', ?_⟩
  rw [items_of_tryAdd hr', h]
  rfl

theorem tryRemove_of_singleton {r : Ring α n} {x : α} (h : r.items = [x]) :
    ∃ r', r.tryRemove = some (x, r') ∧ r'.items = [] := by
  have hsome : r.tryRemove ≠ none := by
    intro hnone
    rw [(tryRemove_none_iff r).1 hnone] at h
    cases h
  obtain ⟨⟨y, r'⟩, hr'⟩ := Option.ne_none_iff_exists'.1 hsome
  have hitems := items_of_tryRemove hr'
  rw [h] at hitems
  obtain ⟨rfl, hnil⟩ := List.cons.inj hitems
  exact ⟨r', hr', hnil.symm⟩

end Ring

end Lib
