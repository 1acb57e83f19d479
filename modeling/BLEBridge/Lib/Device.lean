import Mathlib
/-!
# Devices that log their operations

A device is a memory and the list of the operations asked of it, oldest first,
each with whether it was carried out. Which operations fail is a parameter:
`fault n` says that the `n`-th operation of the device's life does nothing and
reports failure. Cutting the power after `k` operations leaves the memory that
replaying the first `k` log entries gives.

A *plan* is a list of operations to be carried out until one fails.
`runPlan_eq` says what a plan leaves in memory and log, and `replay_performed`
that every point of its run is a point of the plan itself.
-/

namespace Lib

/-- What an operation does to the memory when it is carried out. -/
class Acts (O : Type) (M : outParam Type) where
  act : O → M → M

export Acts (act)

structure Device (M O : Type) where
  mem : M
  log : List (O × Bool)

variable {M O : Type}

/-- A device with memory `m` that has done nothing yet. -/
def Device.start (m : M) : Device M O := ⟨m, []⟩

variable [Acts O M]

/-- Ask the device for one operation. -/
def Device.exec (fault : Nat → Bool) (o : O) (d : Device M O) : Bool × Device M O :=
  if fault d.log.length then (false, ⟨d.mem, d.log ++ [(o, false)]⟩)
  else (true, ⟨act o d.mem, d.log ++ [(o, true)]⟩)

/-- Carry out one operation that cannot fail. -/
def Device.perform (o : O) (d : Device M O) : Device M O := ⟨act o d.mem, d.log ++ [(o, true)]⟩

/-- The memory after a list of operations, all carried out. -/
def actAll (os : List O) (m : M) : M := os.foldl (fun m o => act o m) m

/-- The memory after a list of logged operations. -/
def replay (log : List (O × Bool)) (m : M) : M :=
  log.foldl (fun m e => if e.2 then act e.1 m else m) m

/-- Operations in order until one fails. -/
def runPlan (fault : Nat → Bool) : List O → Device M O → Bool × Device M O
  | [], d => (true, d)
  | o :: os, d => if (d.exec fault o).1 then runPlan fault os (d.exec fault o).2 else d.exec fault o

/-- The log entries a plan makes on a device that has already done `n` operations. -/
def performed (fault : Nat → Bool) : Nat → List O → List (O × Bool)
  | _, [] => []
  | n, o :: os => if fault n then [(o, false)] else (o, true) :: performed fault (n + 1) os

/-- The memories that runs of a program go through when the power can be cut
after any operation: from memory `m` it logs `log m`, and the next run starts
from what the cut left. A cut after the last operation is a whole run. -/
inductive CutRuns (log : M → List (O × Bool)) (m₀ : M) : M → Prop
  | start : CutRuns log m₀ m₀
  | cut {m : M} (k : Nat) : CutRuns log m₀ m → CutRuns log m₀ (replay ((log m).take k) m)

/-- No operation of a plan of length `len` fails, started as the `n`-th operation. -/
def Clean (fault : Nat → Bool) (n len : Nat) : Prop := ∀ i < len, fault (n + i) = false

/-! ## Replaying -/

@[simp] theorem actAll_nil (m : M) : actAll ([] : List O) m = m := rfl

@[simp] theorem actAll_cons (o : O) (os : List O) (m : M) : actAll (o :: os) m = actAll os (act o m) := rfl

theorem actAll_append (os os' : List O) (m : M) : actAll (os ++ os') m = actAll os' (actAll os m) := by
  simp [actAll, List.foldl_append]

@[simp] theorem replay_nil (m : M) : replay ([] : List (O × Bool)) m = m := rfl

@[simp] theorem replay_cons (e : O × Bool) (l : List (O × Bool)) (m : M) :
    replay (e :: l) m = replay l (if e.2 then act e.1 m else m) := rfl

theorem replay_append (l l' : List (O × Bool)) (m : M) : replay (l ++ l') m = replay l' (replay l m) := by
  simp [replay, List.foldl_append]

theorem replay_done (os : List O) (m : M) : replay (os.map (·, true)) m = actAll os m := by
  induction os generalizing m with
  | nil => rfl
  | cons o os ih => simp [ih]

theorem foldl_perform (os : List O) (d : Device M O) :
    os.foldl (fun d o => d.perform o) d = ⟨actAll os d.mem, d.log ++ os.map (·, true)⟩ := by
  induction os generalizing d with
  | nil => simp
  | cons o os ih =>
    rw [List.foldl_cons, ih]
    simp [Device.perform]

/-- An invariant that every cut run keeps. -/
theorem CutRuns.inv {log : M → List (O × Bool)} {m₀ : M} (I : M → Prop) (h0 : I m₀)
    (hs : ∀ m k, I m → I (replay ((log m).take k) m)) {m : M} (h : CutRuns log m₀ m) : I m := by
  induction h with
  | start => exact h0
  | cut k _ ih => exact hs _ k ih

/-! ## Plans -/

theorem clean_zero (fault : Nat → Bool) (n : Nat) : Clean fault n 0 := fun _ h => absurd h (Nat.not_lt_zero _)

theorem clean_succ (fault : Nat → Bool) (n len : Nat) :
    Clean fault n (len + 1) ↔ fault n = false ∧ Clean fault (n + 1) len := by
  constructor
  · intro h
    refine ⟨h 0 (Nat.succ_pos _), fun i hi => ?_⟩
    have := h (i + 1) (by omega)
    rwa [show n + 1 + i = n + (i + 1) by omega]
  · rintro ⟨h0, h⟩ i hi
    rcases i with _ | i
    · exact h0
    · have := h i (by omega)
      rwa [show n + (i + 1) = n + 1 + i by omega]

theorem clean_mono {fault : Nat → Bool} {n len len' : Nat} (h : Clean fault n len) (hl : len' ≤ len) :
    Clean fault n len' := fun i hi => h i (by omega)

theorem clean_add (fault : Nat → Bool) (n a b : Nat) :
    Clean fault n (a + b) ↔ Clean fault n a ∧ Clean fault (n + a) b := by
  constructor
  · intro h
    refine ⟨clean_mono h (by omega), fun i hi => ?_⟩
    have := h (a + i) (by omega)
    rwa [show n + a + i = n + (a + i) by omega]
  · rintro ⟨ha, hb⟩ i hi
    by_cases hia : i < a
    · exact ha i hia
    · have := hb (i - a) (by omega)
      rwa [show n + a + (i - a) = n + i by omega] at this

/-- What running a plan does: it succeeds exactly when no operation fails, and
logs what it performed. -/
theorem runPlan_eq (fault : Nat → Bool) (os : List O) (d : Device M O) :
    ((runPlan fault os d).1 = true ↔ Clean fault d.log.length os.length) ∧
      (runPlan fault os d).2 =
        ⟨replay (performed fault d.log.length os) d.mem, d.log ++ performed fault d.log.length os⟩ := by
  induction os generalizing d with
  | nil => simp [runPlan, performed, clean_zero]
  | cons o os ih =>
    by_cases hf : fault d.log.length = true
    · simp [runPlan, performed, Device.exec, hf, clean_succ]
    · have hf' : fault d.log.length = false := by simpa using hf
      obtain ⟨h1, h2⟩ := ih ⟨act o d.mem, d.log ++ [(o, true)]⟩
      simp only [List.length_append, List.length_singleton] at h1 h2
      simp only [runPlan, performed, Device.exec, hf', Bool.false_eq_true, if_false, if_true,
        List.length_cons, clean_succ, true_and, h1, h2]
      simp

theorem runPlan_ok (fault : Nat → Bool) (os : List O) (d : Device M O) :
    (runPlan fault os d).1 = true ↔ Clean fault d.log.length os.length := (runPlan_eq fault os d).1

theorem runPlan_mem (fault : Nat → Bool) (os : List O) (d : Device M O) :
    (runPlan fault os d).2.mem = replay (performed fault d.log.length os) d.mem := by
  rw [(runPlan_eq fault os d).2]

theorem runPlan_log (fault : Nat → Bool) (os : List O) (d : Device M O) :
    (runPlan fault os d).2.log = d.log ++ performed fault d.log.length os := by
  rw [(runPlan_eq fault os d).2]

@[simp] theorem runPlan_nil (fault : Nat → Bool) (d : Device M O) : runPlan fault [] d = (true, d) := rfl

theorem runPlan_singleton (fault : Nat → Bool) (o : O) (d : Device M O) :
    runPlan fault [o] d = d.exec fault o := by
  by_cases h : fault d.log.length = true <;> simp [runPlan, Device.exec, h]

theorem runPlan_append (fault : Nat → Bool) (os os' : List O) (d : Device M O) :
    runPlan fault (os ++ os') d =
      if (runPlan fault os d).1 then runPlan fault os' (runPlan fault os d).2 else runPlan fault os d := by
  induction os generalizing d with
  | nil => simp [runPlan]
  | cons o os ih =>
    simp only [List.cons_append, runPlan]
    by_cases h : (d.exec fault o).1 = true
    · simp only [h, if_true, ih]
    · simp [h]

theorem runPlan_append_of_ok {fault : Nat → Bool}
    {os : List O} {d : Device M O} (h : (runPlan fault os d).1 = true) (os' : List O) :
    runPlan fault (os ++ os') d = runPlan fault os' (runPlan fault os d).2 := by
  rw [runPlan_append, if_pos h]

theorem runPlan_append_of_fail {fault : Nat → Bool}
    {os : List O} {d : Device M O} (h : (runPlan fault os d).1 = false) (os' : List O) :
    runPlan fault (os ++ os') d = runPlan fault os d := by
  rw [runPlan_append, if_neg (by simp [h])]

/-- A plan's entries: all of it carried out, or all before the first operation
that fails and that one refused. -/
theorem performed_cases (fault : Nat → Bool) (n : Nat) (os : List O) :
    (Clean fault n os.length ∧ performed fault n os = os.map (·, true)) ∨
      ∃ j o, os[j]? = some o ∧ Clean fault n j ∧ fault (n + j) = true ∧
        performed fault n os = (os.take j).map (·, true) ++ [(o, false)] := by
  induction os generalizing n with
  | nil => exact .inl ⟨clean_zero _ _, rfl⟩
  | cons o os ih =>
    by_cases hf : fault n = true
    · exact .inr ⟨0, o, rfl, clean_zero _ _, hf, by simp [performed, hf]⟩
    · have hf' : fault n = false := by simpa using hf
      rcases ih (n + 1) with ⟨hc, he⟩ | ⟨j, o', hj, hc, hfj, he⟩
      · exact .inl ⟨(clean_succ _ _ _).2 ⟨hf', hc⟩, by simp [performed, hf', he]⟩
      · refine .inr ⟨j + 1, o', by simpa using hj, (clean_succ _ _ _).2 ⟨hf', hc⟩, ?_,
          by simp [performed, hf', he]⟩
        rwa [show n + (j + 1) = n + 1 + j by omega]

theorem performed_of_clean {fault : Nat → Bool} {n : Nat} {os : List O} (h : Clean fault n os.length) :
    performed fault n os = os.map (·, true) := by
  rcases performed_cases fault n os with ⟨-, he⟩ | ⟨j, o, hj, -, hf, -⟩
  · exact he
  · have hlt : j < os.length := (List.getElem?_eq_some_iff.1 hj).1
    rw [h j hlt] at hf
    cases hf

/-- Where a plan's run ends: after its first `j` operations, and at the end of
the plan or at an operation that fails. -/
theorem runPlan_point (fault : Nat → Bool) (os : List O) (d : Device M O) :
    ∃ j ≤ os.length, Clean fault d.log.length j ∧ (j < os.length → fault (d.log.length + j) = true) ∧
      (os.take j).map (·, true) <+: performed fault d.log.length os ∧
      (runPlan fault os d).2.mem = actAll (os.take j) d.mem := by
  rw [runPlan_mem]
  rcases performed_cases fault d.log.length os with ⟨hc, he⟩ | ⟨j, o, hj, hc, hf, he⟩ <;> rw [he]
  · refine ⟨os.length, le_rfl, hc, fun h => absurd h (lt_irrefl _), ?_, ?_⟩ <;> rw [List.take_length]
    exact replay_done _ _
  · have hlt : j < os.length := (List.getElem?_eq_some_iff.1 hj).1
    refine ⟨j, hlt.le, hc, fun _ => hf, List.prefix_append _ _, ?_⟩
    rw [replay_append, replay_done]
    simp

/-- The log of a device replays to its memory. -/
theorem runPlan_start (fault : Nat → Bool) (os : List O) (m : M) :
    replay (runPlan fault os (Device.start m)).2.log m = (runPlan fault os (Device.start m)).2.mem := by
  rw [runPlan_log, runPlan_mem]
  rfl

theorem mem_performed {fault : Nat → Bool} {n : Nat} {os : List O} {e : O × Bool} (h : e ∈ performed fault n os) :
    e.1 ∈ os := by
  rcases performed_cases fault n os with ⟨-, he⟩ | ⟨j, o, hj, -, -, he⟩ <;> rw [he] at h
  · obtain ⟨o, ho, rfl⟩ := List.mem_map.1 h
    exact ho
  · rcases List.mem_append.1 h with h | h
    · obtain ⟨o, ho, rfl⟩ := List.mem_map.1 h
      exact List.mem_of_mem_take ho
    · rw [List.mem_singleton] at h
      subst h
      exact List.mem_of_getElem? hj

/-- Everything before an entry of a plan's run is carried out. -/
theorem performed_split {fault : Nat → Bool} {n : Nat} {os : List O} {a b : List (O × Bool)} {e : O × Bool}
    (h : performed fault n os = a ++ e :: b) : ∃ a' b', os = a' ++ e.1 :: b' ∧ a = a'.map (·, true) := by
  induction os generalizing n a with
  | nil => simp [performed] at h
  | cons o os ih =>
    rw [performed] at h
    rcases a with _ | ⟨x, a⟩
    · refine ⟨[], os, ?_, rfl⟩
      split at h <;> (simp only [List.nil_append, List.cons.injEq] at h; rw [← h.1]; rfl)
    · split at h
      · simp at h
      · simp only [List.cons_append, List.cons.injEq] at h
        obtain ⟨a', b', rfl, rfl⟩ := ih h.2
        exact ⟨o :: a', b', rfl, by rw [← h.1]; rfl⟩

/-- A point of a plan's run is a point of the plan: the first `k` log entries
carry out the plan's first `j` operations, and nothing else. -/
theorem replay_performed (fault : Nat → Bool) (n : Nat) (os : List O) (k : Nat) :
    ∃ j ≤ os.length, Clean fault n j ∧ (os.take j).map (·, true) <+: (performed fault n os).take k ∧
      ∀ m : M, replay ((performed fault n os).take k) m = actAll (os.take j) m := by
  rcases performed_cases fault n os with ⟨hc, he⟩ | ⟨j, o, hj, hc, -, he⟩ <;> rw [he]
  · have ht : os.take (min k os.length) = os.take k := List.take_eq_take_min.symm
    refine ⟨min k os.length, by omega, clean_mono hc (by omega), ?_, fun m => ?_⟩ <;> rw [ht, ← List.map_take]
    exact replay_done _ m
  · have hlt : j < os.length := (List.getElem?_eq_some_iff.1 hj).1
    have hlen : ((os.take j).map (·, true)).length = j := by simp; omega
    by_cases hk : k ≤ j
    · refine ⟨k, by omega, clean_mono hc hk, ?_, fun m => ?_⟩ <;>
        rw [List.take_append_of_le_length (by omega), ← List.map_take, List.take_take, min_eq_left hk]
      exact replay_done _ m
    · have hall : ((os.take j).map (·, true) ++ [(o, false)]).take k = (os.take j).map (·, true) ++
        [(o, false)] :=
        List.take_of_length_le (by rw [List.length_append, hlen, List.length_singleton]; omega)
      refine ⟨j, by omega, hc, ?_, fun m => ?_⟩ <;> rw [hall]
      · exact List.prefix_append _ _
      · rw [replay_append, replay_done]; simp

/-- A plan run without failures leaves what its operations do. -/
theorem runPlan_clean {fault : Nat → Bool} {os : List O} {d : Device M O} (h : (runPlan fault os d).1 = true) :
    (runPlan fault os d).2 = ⟨actAll os d.mem, d.log ++ os.map (·, true)⟩ := by
  rw [(runPlan_eq fault os d).2, performed_of_clean ((runPlan_ok fault os d).1 h), replay_done]

end Lib
