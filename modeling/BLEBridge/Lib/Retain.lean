import Mathlib.Data.List.MinMax
import Mathlib.Data.Set.Insert
/-!
# Keeping the newest

A scan that remembers the best index so far and its score, and what it means for
a store of timed elements in several series to have dropped only old ones.
-/
namespace Lib

variable {ι α : Type*}

/-- One step of a scan for the first index with the largest score: the best
index so far comes with its score. -/
def scanStep [LT α] [DecidableLT α] (score : ι → α) (best : Option (ι × α)) (i : ι) : Option (ι × α) :=
  match best with
  | none => some (i, score i)
  | some (_, s) => if s < score i then some (i, score i) else best

theorem foldl_scanStep [Preorder α] [DecidableLT α] (score : ι → α) (l : List ι) (best : Option ι) :
    l.foldl (scanStep score) (best.map fun i => (i, score i)) =
      (l.foldl (List.argAux fun b c => score c < score b) best).map fun i => (i, score i) := by
  induction l generalizing best with
  | nil => rfl
  | cons i l ih =>
    rw [List.foldl_cons, List.foldl_cons, ← ih]
    congr 1
    cases best with
    | none => rfl
    | some b =>
      unfold List.argAux scanStep
      dsimp only [Option.map_some]
      split_ifs <;> rfl

/-- The scan finds what `List.argmax` finds. -/
theorem scan_eq_argmax [Preorder α] [DecidableLT α] (score : ι → α) (l : List ι) :
    (l.foldl (scanStep score) none).map Prod.fst = l.argmax score := by
  have h := foldl_scanStep score l none
  rw [Option.map_none] at h
  rw [h, Option.map_map, List.argmax]
  exact Option.map_id'

/-- Skipping an index is leaving it out of the list. -/
theorem foldl_skip {β : Type*} (skip : ι → Bool) (f : β → ι → β) (l : List ι) (b : β) :
    l.foldl (fun b i => if skip i then b else f b i) b = (l.filter fun i => !skip i).foldl f b := by
  rw [List.foldl_filter]
  congr 1
  funext b i
  cases skip i <;> rfl

section
variable {E S T : Type*} [Preorder T] (series : E → S) (time : E → T)

/-- Within each series nothing that was dropped is newer than what is kept. -/
def KeepsNewest (dropped kept : Set E) : Prop :=
  ∀ d ∈ dropped, ∀ e ∈ kept, series d = series e → time d ≤ time e

variable {series time} {dropped kept : Set E}

/-- One step of a store: it may drop elements of `more`, and keep `kept'`, each
of which is at least as late as everything dropped, or was kept before and is
not older than anything dropped from its series now. -/
theorem KeepsNewest.step (h : KeepsNewest series time dropped kept) {more kept' : Set E}
    (hk : ∀ e ∈ kept', (∀ d ∈ dropped ∪ more, time d ≤ time e) ∨
      e ∈ kept ∧ ∀ d ∈ more, series d = series e → time d ≤ time e) :
    KeepsNewest series time (dropped ∪ more) kept' := by
  intro d hd e he hs
  rcases hk e he with hnew | ⟨hold, hmore⟩
  · exact hnew d hd
  · rcases hd with hd | hd
    · exact h d hd e hold hs
    · exact hmore d hd hs
end

end Lib
