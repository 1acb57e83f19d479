/-!
# Runs

A system that takes a step for each action of a list, and properties of every
step of such a run. What a step may not do is a condition on its state and
action.
-/
namespace Lib

variable {S A : Type} (step : S → A → S)

def run (s : S) (as : List A) : S := as.foldl step s

/-- `P` holds of each step of the run, with the state it is taken in. -/
def EveryStep (P : S → A → Prop) : S → List A → Prop
  | _, [] => True
  | s, a :: as => P s a ∧ EveryStep P (step s a) as

variable {step} {P Q : S → A → Prop} {I : S → Prop} {s : S} {as bs : List A}

theorem run_append : run step s (as ++ bs) = run step (run step s as) bs := List.foldl_append

theorem run_concat (a : A) : run step s (as ++ [a]) = step (run step s as) a := by
  rw [run_append]
  rfl

theorem everyStep_append :
    EveryStep step P s (as ++ bs) ↔ EveryStep step P s as ∧ EveryStep step P (run step s as) bs := by
  induction as generalizing s with
  | nil => exact ⟨fun h => ⟨trivial, h⟩, fun h => h.2⟩
  | cons a as ih =>
    rw [List.cons_append, EveryStep, EveryStep, ih, and_assoc]
    rfl

/-- What holds of an action in every state. -/
theorem EveryStep.of_forall (h : ∀ a ∈ as, ∀ s, P s a) : EveryStep step P s as := by
  induction as generalizing s with
  | nil => trivial
  | cons a as ih => exact ⟨h a List.mem_cons_self s, ih fun a' ha' => h a' (List.mem_cons_of_mem a ha')⟩

theorem everyStep_true (step : S → A → S) (s : S) (as : List A) : EveryStep step (fun _ _ => True) s as :=
  .of_forall fun _ _ _ => trivial

/-- What each step keeps holds at the end of the run. -/
theorem EveryStep.inv (h : EveryStep step P s as) (h0 : I s) (hs : ∀ s a, I s → P s a → I (step s a)) :
    I (run step s as) := by
  induction as generalizing s with
  | nil => exact h0
  | cons a as ih => exact ih h.2 (hs s a h0 h.1)

/-- What follows from the invariant at a step holds of each step of the run. -/
theorem EveryStep.of_inv (h : EveryStep step P s as) (h0 : I s) (hs : ∀ s a, I s → P s a → I (step s a))
    (hq : ∀ s a, I s → P s a → Q s a) : EveryStep step Q s as := by
  induction as generalizing s with
  | nil => trivial
  | cons a as ih => exact ⟨hq s a h0 h.1, ih h.2 (hs s a h0 h.1)⟩

/-- Only the actions that `f` gives an action of `step` count. -/
theorem run_filterMap {B : Type} (f : B → Option A) (bs : List B) :
    run step s (bs.filterMap f) = run (fun s b => (f b).elim s (step s)) s bs := by
  induction bs generalizing s with
  | nil => rfl
  | cons b bs ih =>
    rw [List.filterMap_cons]
    cases hb : f b with
    | none => simpa [run, hb] using ih
    | some a => simpa [run, hb] using ih

theorem everyStep_filterMap {B : Type} {f : B → Option A} {bs : List B}
    (h : EveryStep (fun s b => (f b).elim s (step s)) (fun s b => ∀ a, f b = some a → P s a) s bs) :
    EveryStep step P s (bs.filterMap f) := by
  induction bs generalizing s with
  | nil => trivial
  | cons b bs ih =>
    obtain ⟨hb, hrest⟩ := h
    have hrest := ih hrest
    rw [List.filterMap_cons]
    cases hf : f b with
    | none =>
      dsimp only at hrest
      rw [hf] at hrest
      exact hrest
    | some a =>
      dsimp only at hrest
      rw [hf] at hrest
      exact ⟨hb a hf, hrest⟩

/-- When a step reaches a state with `P` just if it meets the condition, the runs
whose steps meet it are those with `P` in every state. -/
theorem everyStep_iff {P : S → Prop} {Q Ok : S → A → Prop} (hok : EveryStep step Ok s as) (h0 : I s)
    (hs : ∀ s a, I s → Ok s a → I (step s a)) (h : ∀ s a, I s → Ok s a → P s → (Q s a ↔ P (step s a)))
    (hp : P s) : EveryStep step Q s as ↔ ∀ k, P (run step s (as.take k)) := by
  induction as generalizing s with
  | nil =>
    refine ⟨fun _ k => ?_, fun _ => trivial⟩
    rw [List.take_nil]
    exact hp
  | cons a as ih =>
    have hstep := h s a h0 hok.1 hp
    constructor
    · rintro ⟨hq, hrest⟩ k
      cases k with
      | zero => exact hp
      | succ k => exact (ih hok.2 (hs s a h0 hok.1) (hstep.1 hq)).1 hrest k
    · intro hall
      have hp' : P (step s a) := hall 1
      exact ⟨hstep.2 hp', (ih hok.2 (hs s a h0 hok.1) hp').2 fun k => hall (k + 1)⟩

/-! ## Calls that return something -/

variable {R T : Type}

/-- The results of calls one after the other, and the state after them. -/
def results (step : A → S → R × S) : List A → S → List R × S
  | [], s => ([], s)
  | a :: as, s =>
    let r := step a s
    let later := results step as r.2
    (r.1 :: later.1, later.2)

/-- Calls that return the same and keep the states related do so one after the
other. -/
theorem results_simulates (Rel : S → T → Prop) {step : A → S → R × S} {step' : A → T → R × T}
    (hstep : ∀ a s t, Rel s t → (step a s).1 = (step' a t).1 ∧ Rel (step a s).2 (step' a t).2) (as : List A)
    {s : S} {t : T} (h : Rel s t) :
    (results step as s).1 = (results step' as t).1 ∧ Rel (results step as s).2 (results step' as t).2 := by
  induction as generalizing s t with
  | nil => exact ⟨rfl, h⟩
  | cons a as ih =>
    obtain ⟨hresult, hrel⟩ := hstep a s t h
    obtain ⟨hlater, hend⟩ := ih hrel
    refine ⟨?_, hend⟩
    unfold results
    dsimp only
    rw [hresult, hlater]

end Lib
