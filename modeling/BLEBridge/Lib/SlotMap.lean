import Mathlib.Data.Finmap
import BLEBridge.Lib.Slots
/-!
# Maps in a table of slots

A table whose slots are free or hold a key and its value. While no key has two
slots, the table is a finite map of at most as many keys as there are slots:
writing a key into its own slot, or else a free one, inserts it, and clearing its
slot erases it, whichever slots were freed before.
-/
namespace Lib

variable {n : Nat} {K V : Type}

abbrev SlotMap (n : Nat) (K V : Type) : Type := Fin n → Option (K × V)

namespace SlotMap

/-- No key has two slots. -/
def Distinct (t : SlotMap n K V) : Prop := ∀ i j k v v', t i = some (k, v) → t j = some (k, v') → i = j

/-- The first free slot. -/
def freeSlot (t : SlotMap n K V) : Option (Fin n) := (List.finRange n).find? fun i => (t i).isNone

variable {t : SlotMap n K V} {i : Fin n} {k k' : K} {v : V}

theorem freeSlot_some (h : t.freeSlot = some i) : t i = none := Option.isNone_iff_eq_none.1 (find_finRange.1 h).1

theorem freeSlot_none : t.freeSlot = none ↔ ∀ i, t i ≠ none := by
  unfold freeSlot
  rw [find_finRange_none]
  refine forall_congr' fun i => ?_
  rw [Option.isNone_eq_false_iff, Option.isSome_iff_ne_none]

/-- A slot for a key: no other slot is for it, and the slot is for no other key. -/
structure For (t : SlotMap n K V) (i : Fin n) (k : K) : Prop where
  only : ∀ j v, t j = some (k, v) → j = i
  own : ∀ k' v, t i = some (k', v) → k' = k

theorem For.of_used (h : t.Distinct) (hi : t i = some (k, v)) : t.For i k where
  only j v' hj := h j i k v' v hj hi
  own k' v' hk := by
    rw [hi] at hk
    exact (congrArg Prod.fst (Option.some.inj hk)).symm

/-- The slot is written, or cleared. -/
def write (t : SlotMap n K V) (i : Fin n) (k : K) (e : Option V) : SlotMap n K V :=
  Function.update t i (e.map fun v => (k, v))

/-- What a key has after its slot was written. -/
theorem write_some (hi : t.For i k) {e : Option V} {j : Fin n} {u : V} :
    t.write i k e j = some (k', u) ↔ (k' = k ∧ j = i ∧ e = some u) ∨ (k' ≠ k ∧ t j = some (k', u)) := by
  unfold write
  rw [Function.update_apply]
  by_cases hj : j = i
  · subst hj
    rw [if_pos rfl, Option.map_eq_some_iff]
    constructor
    · rintro ⟨v, rfl, hv⟩
      obtain ⟨rfl, rfl⟩ := Prod.mk.inj hv
      exact .inl ⟨rfl, rfl, rfl⟩
    · rintro (⟨rfl, -, rfl⟩ | ⟨hk, hslot⟩)
      · exact ⟨u, rfl, rfl⟩
      · exact absurd (hi.own k' u hslot) hk
  · rw [if_neg hj]
    constructor
    · intro hslot
      refine .inr ⟨?_, hslot⟩
      rintro rfl
      exact hj (hi.only j u hslot)
    · rintro (⟨-, heq, -⟩ | ⟨-, hslot⟩)
      · exact absurd heq hj
      · exact hslot

theorem Distinct.write (h : t.Distinct) (hi : t.For i k) (e : Option V) : (t.write i k e).Distinct := by
  intro a b c u u' ha hb
  rw [write_some hi] at ha hb
  rcases ha with ⟨hk, rfl, -⟩ | ⟨hk, ha⟩
  · rcases hb with ⟨-, rfl, -⟩ | ⟨hk', -⟩
    · rfl
    · exact absurd hk hk'
  · rcases hb with ⟨hk', -, -⟩ | ⟨-, hb⟩
    · exact absurd hk' hk
    · exact h a b c u u' ha hb

variable [DecidableEq K]

/-- The first slot of a key. -/
def slotOf (t : SlotMap n K V) (k : K) : Option (Fin n) :=
  (List.finRange n).find? fun i => (t i).any fun e => e.1 = k

def lookup (t : SlotMap n K V) (k : K) : Option V := (t.slotOf k).bind fun i => (t i).map Prod.snd

theorem slotOf_some (h : t.slotOf k = some i) : ∃ v, t i = some (k, v) := by
  have hany := (find_finRange.1 h).1
  rw [Option.any_eq_true_iff_get] at hany
  obtain ⟨hsome, hkey⟩ := hany
  refine ⟨((t i).get hsome).2, ?_⟩
  rw [← of_decide_eq_true hkey]
  exact (Option.some_get hsome).symm

theorem slotOf_none : t.slotOf k = none ↔ ∀ i v, t i ≠ some (k, v) := by
  unfold slotOf
  rw [find_finRange_none]
  constructor
  · intro h i v hi
    have := h i
    rw [hi] at this
    simp at this
  · intro h i
    cases hi : t i with
    | none => rfl
    | some e =>
      have hne : e.1 ≠ k := fun he => h i e.2 (by rw [hi, ← he])
      simpa using hne

/-- With no key in two slots, each is found where it is. -/
theorem lookup_some (h : t.Distinct) : t.lookup k = some v ↔ ∃ i, t i = some (k, v) := by
  unfold lookup
  constructor
  · intro hv
    obtain ⟨i, hi, hv⟩ := Option.bind_eq_some_iff.1 hv
    obtain ⟨v', hv'⟩ := slotOf_some hi
    rw [hv'] at hv
    exact ⟨i, by rw [hv', ← Option.some.inj hv]⟩
  · rintro ⟨i, hi⟩
    cases hslot : t.slotOf k with
    | none => exact absurd hi (slotOf_none.1 hslot i v)
    | some j =>
      obtain ⟨v', hv'⟩ := slotOf_some hslot
      obtain rfl := h i j k v v' hi hv'
      rw [Option.bind_some, hi]
      rfl

theorem lookup_none : t.lookup k = none ↔ t.slotOf k = none := by
  unfold lookup
  cases hslot : t.slotOf k with
  | none => simp
  | some i =>
    obtain ⟨v, hv⟩ := slotOf_some hslot
    simp [hv]

/-! ## Writing a slot -/

/-- The slot of a key, or else the first free one. -/
theorem For.of_slot (h : t.Distinct) (hi : (t.slotOf k).or t.freeSlot = some i) : t.For i k := by
  cases hslot : t.slotOf k with
  | some j =>
    rw [hslot, Option.some_or] at hi
    obtain rfl := Option.some.inj hi
    obtain ⟨v, hv⟩ := slotOf_some hslot
    exact .of_used h hv
  | none =>
    rw [hslot, Option.none_or] at hi
    refine ⟨fun j v hj => absurd hj (slotOf_none.1 hslot j v), fun k' v hk' => ?_⟩
    rw [freeSlot_some hi] at hk'
    cases hk'

theorem lookup_write (h : t.Distinct) (hi : t.For i k) (e : Option V) (k' : K) :
    (t.write i k e).lookup k' = if k' = k then e else t.lookup k' := by
  apply Option.ext
  intro u
  rw [lookup_some (h.write hi e)]
  simp only [write_some hi]
  split
  · rename_i hk
    constructor
    · rintro ⟨j, ⟨-, -, he⟩ | ⟨hne, -⟩⟩
      · exact he
      · exact absurd hk hne
    · intro he
      exact ⟨i, .inl ⟨hk, rfl, he⟩⟩
  · rename_i hk
    rw [lookup_some h]
    constructor
    · rintro ⟨j, ⟨heq, -, -⟩ | ⟨-, hj⟩⟩
      · exact absurd heq hk
      · exact ⟨j, hj⟩
    · rintro ⟨j, hj⟩
      exact ⟨j, .inr ⟨hk, hj⟩⟩

/-! ## The map -/

/-- The table holds the map. -/
structure Holds (t : SlotMap n K V) (m : Finmap fun _ : K => V) : Prop where
  distinct : t.Distinct
  lookup : ∀ k, m.lookup k = t.lookup k

variable {m : Finmap fun _ : K => V}

theorem Holds.mem_iff (h : t.Holds m) : k ∈ m ↔ ∃ i v, t i = some (k, v) := by
  rw [Finmap.mem_iff]
  constructor
  · rintro ⟨v, hv⟩
    rw [h.lookup, lookup_some h.distinct] at hv
    obtain ⟨i, hi⟩ := hv
    exact ⟨i, v, hi⟩
  · rintro ⟨i, v, hi⟩
    exact ⟨v, by rw [h.lookup, lookup_some h.distinct]; exact ⟨i, hi⟩⟩

theorem Holds.empty : Holds (fun _ => none : SlotMap n K V) ∅ where
  distinct _ _ _ _ _ hi _ := by cases hi
  lookup k := by
    rw [Finmap.lookup_empty, eq_comm, lookup_none, slotOf_none]
    intro i v hi
    cases hi

theorem Holds.put (h : t.Holds m) (hi : t.For i k) (v : V) : Holds (t.write i k (some v)) (m.insert k v) where
  distinct := h.distinct.write hi (some v)
  lookup k' := by
    rw [lookup_write h.distinct hi]
    by_cases hk : k' = k
    · subst hk
      rw [if_pos rfl, Finmap.lookup_insert]
    · rw [if_neg hk, Finmap.lookup_insert_of_ne _ hk, h.lookup]

theorem Holds.clear (h : t.Holds m) (hi : t i = some (k, v)) : Holds (t.write i k none) (m.erase k) where
  distinct := h.distinct.write (.of_used h.distinct hi) none
  lookup k' := by
    rw [lookup_write h.distinct (.of_used h.distinct hi)]
    by_cases hk : k' = k
    · subst hk
      rw [if_pos rfl, Finmap.lookup_erase]
    · rw [if_neg hk, Finmap.lookup_erase_ne hk, h.lookup]

/-- Without a slot there is nothing to erase. -/
theorem Holds.erase_absent (h : t.Holds m) (hslot : t.slotOf k = none) : t.Holds (m.erase k) where
  distinct := h.distinct
  lookup k' := by
    by_cases hk : k' = k
    · subst hk
      rw [Finmap.lookup_erase, eq_comm, lookup_none]
      exact hslot
    · rw [Finmap.lookup_erase_ne hk, h.lookup]

/-- Every slot in use is for a key of its own. -/
theorem Holds.card_keys (h : t.Holds m) : m.keys.card = (Finset.univ.filter fun i => (t i).isSome).card := by
  symm
  refine Finset.card_bij (fun i hi => ((t i).get (Finset.mem_filter.1 hi).2).1) ?_ ?_ ?_
  · intro i hi
    rw [Finmap.mem_keys, h.mem_iff]
    exact ⟨i, _, (Option.some_get _).symm⟩
  · intro i hi j hj hkey
    obtain ⟨⟨k, v⟩, hv⟩ := Option.isSome_iff_exists.1 (Finset.mem_filter.1 hi).2
    obtain ⟨⟨k', v'⟩, hv'⟩ := Option.isSome_iff_exists.1 (Finset.mem_filter.1 hj).2
    simp only [hv, hv', Option.get_some] at hkey
    subst hkey
    exact h.distinct i j k v v' hv hv'
  · intro k hk
    rw [Finmap.mem_keys, h.mem_iff] at hk
    obtain ⟨i, v, hi⟩ := hk
    refine ⟨i, Finset.mem_filter.2 ⟨Finset.mem_univ i, by rw [hi]; rfl⟩, ?_⟩
    simp only [hi, Option.get_some]

theorem Holds.card_le (h : t.Holds m) : m.keys.card ≤ n := by
  rw [h.card_keys]
  exact (Finset.card_filter_le _ _).trans (Finset.card_fin n).le

/-- The map is full when no slot is free. -/
theorem Holds.full_iff (h : t.Holds m) : m.keys.card = n ↔ ∀ i, t i ≠ none := by
  rw [h.card_keys]
  constructor
  · intro hcard i hi
    have huniv := Finset.eq_univ_of_card _ (hcard.trans (Fintype.card_fin n).symm)
    have hused := (Finset.mem_filter.1 (huniv ▸ Finset.mem_univ i)).2
    rw [hi] at hused
    cases hused
  · intro hall
    rw [Finset.filter_true_of_mem fun i _ => Option.isSome_iff_ne_none.2 (hall i), Finset.card_fin]

/-- There is a slot to write unless the key is absent and the map is full. -/
theorem Holds.no_slot_iff (h : t.Holds m) : (t.slotOf k).or t.freeSlot = none ↔ k ∉ m ∧ m.keys.card = n := by
  rw [Option.or_eq_none_iff, h.full_iff, freeSlot_none, slotOf_none, h.mem_iff]
  constructor
  · rintro ⟨hkey, hfull⟩
    refine ⟨?_, hfull⟩
    rintro ⟨i, v, hi⟩
    exact hkey i v hi
  · rintro ⟨hkey, hfull⟩
    exact ⟨fun i v hi => hkey ⟨i, v, hi⟩, hfull⟩

end SlotMap

end Lib
