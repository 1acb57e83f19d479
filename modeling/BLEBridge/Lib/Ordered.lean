import Mathlib.Data.List.Nodup
import BLEBridge.Lib.Text
/-!
# Ordered sets and maps

A list without duplicates as a set, and a list of pairs with different keys as a map,
in the order in which the members came; and the index arithmetic by which a program
keeps them in an array.
-/
namespace Lib

/-! ## In an array -/

section
variable {α K : Type} [DecidableEq K] {key : α → K} {l : List α} {k : K}

theorem findIdx_lt_iff : l.findIdx (key · = k) < l.length ↔ k ∈ l.map key := by
  rw [List.findIdx_lt_length]
  simp only [decide_eq_true_eq, List.mem_map]

/-- Shifting what follows the first element with a key removes that key. -/
theorem eraseIdx_findIdx (h : (l.map key).Nodup) : l.eraseIdx (l.findIdx (key · = k)) = l.filter (key · ≠ k) := by
  induction l with
  | nil => rfl
  | cons x l ih =>
    rw [List.map_cons, List.nodup_cons] at h
    rw [List.findIdx_cons]
    by_cases hx : key x = k
    · have hothers : ∀ y ∈ l, key y ≠ k := fun y hy hyk => h.1 (hx.trans hyk.symm ▸ List.mem_map_of_mem hy)
      rw [decide_eq_true hx, cond_true, List.eraseIdx_cons_zero, List.filter_cons_of_neg (by simpa using hx),
        List.filter_eq_self.2 fun y hy => by simpa using hothers y hy]
    · rw [decide_eq_false hx, cond_false, List.eraseIdx_cons_succ,
        List.filter_cons_of_pos (by simpa using hx), ih h.2]

/-- Overwriting the first element with a key changes no other. -/
theorem set_findIdx (h : (l.map key).Nodup) (x : α) :
    l.set (l.findIdx (key · = k)) x = l.map fun y => if key y = k then x else y := by
  induction l with
  | nil => rfl
  | cons y l ih =>
    rw [List.map_cons, List.nodup_cons] at h
    rw [List.findIdx_cons, List.map_cons]
    by_cases hy : key y = k
    · have hothers : ∀ z ∈ l, (if key z = k then x else z) = z := by
        intro z hz
        have hzk : key z ≠ k := fun hzk => h.1 (hy.trans hzk.symm ▸ List.mem_map_of_mem hz)
        rw [if_neg hzk]
      rw [decide_eq_true hy, cond_true, List.set_cons_zero, if_pos hy, List.map_congr_left hothers, List.map_id']
    · rw [decide_eq_false hy, cond_false, List.set_cons_succ, if_neg hy, ih h.2]

/-- Overwriting what has a key by something with that key keeps all keys. -/
theorem map_overwrite (key : α → K) (l : List α) {x : α} (hx : key x = k) :
    (l.map fun y => if key y = k then x else y).map key = l.map key := by
  rw [List.map_map]
  refine List.map_congr_left fun y _ => ?_
  rw [Function.comp_apply]
  split
  · rename_i hy
    exact hx.trans hy.symm
  · rfl

end

/-! ## Sets -/

/-- A set in the order in which its members came. -/
structure OrderedSet (α : Type) where
  members : List α
  nodup : members.Nodup

theorem nodup_concat {α : Type} {l : List α} (h : l.Nodup) {x : α} (hx : x ∉ l) : (l ++ [x]).Nodup := by
  rw [← List.concat_eq_append]
  exact h.concat hx

namespace OrderedSet
variable {α : Type} [DecidableEq α]

/-- A new member comes last. -/
def insert (s : OrderedSet α) (x : α) : OrderedSet α :=
  if h : x ∈ s.members then s else ⟨s.members ++ [x], nodup_concat s.nodup h⟩

def erase (s : OrderedSet α) (x : α) : OrderedSet α := ⟨s.members.filter (· ≠ x), s.nodup.filter _⟩

theorem members_insert (s : OrderedSet α) (x : α) :
    (s.insert x).members = if x ∈ s.members then s.members else s.members ++ [x] := by
  unfold insert
  split <;> rfl

theorem mem_insert (s : OrderedSet α) (x y : α) : y ∈ (s.insert x).members ↔ y = x ∨ y ∈ s.members := by
  rw [members_insert]
  split
  · rename_i h
    exact ⟨.inr, fun hy => hy.elim (fun hyx => hyx ▸ h) id⟩
  · rw [List.mem_append, List.mem_singleton, or_comm]

theorem mem_erase (s : OrderedSet α) (x y : α) : y ∈ (s.erase x).members ↔ y ∈ s.members ∧ y ≠ x := by
  simp [erase]

end OrderedSet

/-! ## Maps -/

/-- A map whose keys stand in the order in which they came. -/
structure OrderedMap (K V : Type) where
  entries : List (K × V)
  nodup : (entries.map Prod.fst).Nodup

namespace OrderedMap
variable {K V : Type} [DecidableEq K]

def keys (m : OrderedMap K V) : List K := m.entries.map Prod.fst

def lookup (m : OrderedMap K V) (k : K) : Option V := (m.entries.find? (·.1 = k)).map Prod.snd

/-- The value of a key is overwritten; a new key comes last. -/
def insert (m : OrderedMap K V) (k : K) (v : V) : OrderedMap K V :=
  if h : k ∈ m.keys then ⟨m.entries.map fun e => if e.1 = k then (k, v)
    else e, by rw [map_overwrite Prod.fst m.entries (x := (k, v)) rfl]; exact m.nodup⟩
  else ⟨m.entries ++ [(k, v)], by rw [List.map_append]; exact nodup_concat m.nodup h⟩

def erase (m : OrderedMap K V) (k : K) : OrderedMap K V :=
  ⟨m.entries.filter (·.1 ≠ k), m.nodup.sublist ((List.filter_sublist).map _)⟩

theorem entries_insert (m : OrderedMap K V) (k : K) (v : V) :
    (m.insert k v).entries = if k ∈ m.keys then m.entries.map (fun e => if e.1 = k then (k, v) else e)
    else m.entries ++ [(k, v)] := by
  unfold insert
  split <;> rfl

theorem lookup_eq_some_iff (m : OrderedMap K V) {k : K} {v : V} : m.lookup k = some v ↔ (k, v) ∈ m.entries := by
  unfold lookup
  rw [Option.map_eq_some_iff]
  constructor
  · rintro ⟨⟨k', v'⟩, hfind, rfl⟩
    have hkey := List.find?_some hfind
    obtain rfl : k' = k := of_decide_eq_true hkey
    exact List.mem_of_find?_eq_some hfind
  · intro hmem
    cases hfind : m.entries.find? (·.1 = k) with
    | none => exact absurd (decide_eq_true rfl) (List.find?_eq_none.1 hfind (k, v) hmem)
    | some e =>
      have hkey := List.find?_some hfind
      have heq : e = (k, v) :=
        List.inj_on_of_nodup_map m.nodup (List.mem_of_find?_eq_some hfind) hmem (of_decide_eq_true hkey)
      exact ⟨e, rfl, congrArg Prod.snd heq⟩

theorem mem_insert (m : OrderedMap K V) (k : K) (v : V) (e : K × V) :
    e ∈ (m.insert k v).entries ↔ e = (k, v) ∨ e ∈ m.entries ∧ e.1 ≠ k := by
  rw [entries_insert]
  split
  · rename_i hk
    rw [List.mem_map]
    constructor
    · rintro ⟨e', he', rfl⟩
      by_cases hek : e'.1 = k
      · rw [if_pos hek]
        exact .inl rfl
      · rw [if_neg hek]
        exact .inr ⟨he', hek⟩
    · rintro (rfl | ⟨he, hek⟩)
      · obtain ⟨e', he', hek⟩ := List.mem_map.1 hk
        exact ⟨e', he', if_pos hek⟩
      · exact ⟨e, he, if_neg hek⟩
  · rename_i hk
    rw [List.mem_append, List.mem_singleton, or_comm]
    refine or_congr_right ⟨fun he => ⟨he, fun hek => hk (hek ▸ List.mem_map_of_mem he)⟩, And.left⟩

/-- Only the value of the key changes. -/
theorem lookup_insert (m : OrderedMap K V) (k : K) (v : V) (j : K) :
    (m.insert k v).lookup j = if j = k then some v else m.lookup j := by
  refine Option.ext fun w => ?_
  rw [lookup_eq_some_iff, mem_insert]
  by_cases hj : j = k
  · rw [if_pos hj, hj, Prod.mk.injEq]
    simp [eq_comm]
  · rw [if_neg hj, lookup_eq_some_iff, Prod.mk.injEq]
    simp [hj]

theorem lookup_erase (m : OrderedMap K V) (k j : K) :
    (m.erase k).lookup j = if j = k then none else m.lookup j := by
  refine Option.ext fun w => ?_
  rw [lookup_eq_some_iff, erase, List.mem_filter]
  by_cases hj : j = k
  · rw [if_pos hj, hj]
    simp
  · rw [if_neg hj, lookup_eq_some_iff]
    simp [hj]

end OrderedMap

end Lib
