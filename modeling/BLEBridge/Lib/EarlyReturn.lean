import BLEBridge.Lib.Runs
/-!
# Stages with an early return

A function that runs through stages, each of which may return for the whole
function, and makes calls on the way. A stage is described by what it takes from
what held before to what holds after, for a state and for what an observer makes
of the calls; a rule for each construct gives the description of the whole.
-/
namespace Lib

/-- What a stage leaves: the state, the calls it made, and whether the function
has returned. -/
structure Outcome (S O : Type) where
  state : S
  calls : List O
  returned : Bool

variable {S O G : Type}

def Outcome.next (s : S) : Outcome S O := ⟨s, [], false⟩

def Outcome.return (s : S) : Outcome S O := ⟨s, [], true⟩

/-- The next stage, unless the function has returned. -/
def Outcome.andThen (r : Outcome S O) (stage : S → Outcome S O) : Outcome S O :=
  if r.returned then r else
    let r' := stage r.state
    ⟨r'.state, r.calls ++ r'.calls, r'.returned⟩

/-- Calls made before what follows. -/
def Outcome.after (calls : List O) (r : Outcome S O) : Outcome S O := ⟨r.state, calls ++ r.calls, r.returned⟩

/-- Every call is fine for the observer, and at the end `Next` holds, or `Ret` if
the function has returned. -/
structure Outcome.Meets (observe : G → O → G) (ok : G → O → Prop) (Next Ret : S → G → Prop) (g : G)
    (r : Outcome S O) : Prop where
  calls : EveryStep observe ok g r.calls
  next : r.returned = false → Next r.state (run observe g r.calls)
  ret : r.returned = true → Ret r.state (run observe g r.calls)

variable {observe : G → O → G} {ok : G → O → Prop} {Next Ret Next' : S → G → Prop} {g : G} {s : S}

theorem Outcome.meets_next (h : Next s g) : (Outcome.next s : Outcome S O).Meets observe ok Next Ret g where
  calls := trivial
  next _ := h
  ret h := by cases h

theorem Outcome.meets_return (h : Ret s g) : (Outcome.return s : Outcome S O).Meets observe ok Next Ret g where
  calls := trivial
  next h := by cases h
  ret _ := h

theorem Outcome.meets_after {calls : List O} {r : Outcome S O} (hc : EveryStep observe ok g calls)
    (hr : r.Meets observe ok Next Ret (run observe g calls)) : (r.after calls).Meets observe ok Next Ret g where
  calls := everyStep_append.2 ⟨hc, hr.calls⟩
  next h := by
    unfold Outcome.after
    rw [run_append]
    exact hr.next h
  ret h := by
    unfold Outcome.after
    rw [run_append]
    exact hr.ret h

theorem Outcome.Meets.andThen {r : Outcome S O} {stage : S → Outcome S O}
    (hr : r.Meets observe ok Next' Ret g) (hs : ∀ s g, Next' s g → (stage s).Meets observe ok Next Ret g) :
    (r.andThen stage).Meets observe ok Next Ret g := by
  unfold Outcome.andThen
  cases hret : r.returned with
  | true =>
    rw [if_pos rfl]
    exact ⟨hr.calls, fun h => (by rw [hret] at h; cases h), hr.ret⟩
  | false =>
    rw [if_neg (by decide)]
    exact meets_after hr.calls (hs _ _ (hr.next hret))

/-- What every stage keeps of the state. -/
theorem Outcome.andThen_keeps {P : S → Prop} {r : Outcome S O} {stage : S → Outcome S O} (hr : P r.state)
    (hs : ∀ s, P s → P (stage s).state) : P (r.andThen stage).state := by
  unfold Outcome.andThen
  split
  · exact hr
  · exact hs _ hr

end Lib
