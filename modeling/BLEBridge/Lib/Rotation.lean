/-!
# Keeping the newest parts

A history is a list of parts. Of it two generations are kept: parts are appended
to the newer one, and a rotation drops the older one. What is kept can be read
back in pieces of any size.
-/
namespace Lib

variable {α S C : Type}

/-- `older` and `newer` hold the last parts of a history. Where parts have been lost,
the newest one is kept and what is kept is longer than `limit`. -/
def Generations (limit : Nat) (parts : List (List α)) (older newer : List α) : Prop :=
  ∃ lost middle last, parts = lost ++ middle ++ last ∧ older = middle.flatten ∧ newer = last.flatten ∧
    (lost = [] ∨ last ≠ [] ∧ limit < (older ++ newer).length)

variable {limit : Nat} {parts : List (List α)} {older newer : List α}

theorem Generations.init (limit : Nat) (older newer : List α) : Generations limit [older, newer] older newer :=
  ⟨[], [older], [newer], rfl, by simp, by simp, .inl rfl⟩

theorem Generations.append (h : Generations limit parts older newer) (part : List α) :
    Generations limit (parts ++ [part]) older (newer ++ part) := by
  obtain ⟨lost, middle, last, hp, ho, hn, hlost⟩ := h
  refine ⟨lost, middle, last ++ [part], ?_, ho, ?_, hlost.imp_right ?_⟩
  · rw [hp, List.append_assoc _ last]
  · rw [List.flatten_append, List.flatten_singleton, hn]
  · rintro ⟨-, hlimit⟩
    refine ⟨List.append_ne_nil_of_right_ne_nil last (List.cons_ne_nil part []), ?_⟩
    rw [← List.append_assoc, List.length_append]
    omega

/-- A part that does not fit starts a new generation. -/
theorem Generations.rotate (h : Generations limit parts older newer) {part : List α}
    (hfull : limit < newer.length + part.length) : Generations limit (parts ++ [part]) newer part := by
  obtain ⟨lost, middle, last, hp, -, hn, -⟩ := h
  refine ⟨lost ++ middle, last, [part], ?_, hn, List.flatten_singleton.symm, .inr ⟨List.cons_ne_nil part [], ?_⟩⟩
  · rw [hp]
  · rwa [List.length_append]

/-- What is kept begins with some part and leaves out none after it. -/
theorem Generations.suffix (h : Generations limit parts older newer) :
    ∃ k, (k = 0 ∨ k < parts.length ∧ limit < (older ++ newer).length) ∧
      older ++ newer = (parts.drop k).flatten := by
  obtain ⟨lost, middle, last, hp, ho, hn, hlost⟩ := h
  refine ⟨lost.length, ?_, ?_⟩
  · rcases hlost with rfl | ⟨hlast, hlimit⟩
    · exact .inl rfl
    · have hpos := List.length_pos_iff.2 hlast
      refine .inr ⟨?_, hlimit⟩
      rw [hp, List.length_append, List.length_append]
      omega
  · rw [hp, List.append_assoc, List.drop_left, List.flatten_append, ho, hn]

/-! ## Reading back in pieces -/

/-- Read with these arguments until the end: what was read, and whether the end
was met. -/
def readAll (read : S → C → Option (List α) × S) : S → List C → List α × Bool
  | _, [] => ([], false)
  | s, c :: cs =>
    match (read s c).1 with
    | none => ([], true)
    | some piece => (piece ++ (readAll read (read s c).2 cs).1, (readAll read (read s c).2 cs).2)

/-- One read: the end, or a piece of what remains. -/
def ReadStep (read : S → C → Option (List α) × S) (remaining : S → List α) (s : S) (c : C) : Prop :=
  ((read s c).1 = none ∧ remaining s = []) ∨
    ∃ piece, (read s c).1 = some piece ∧ piece ≠ [] ∧ remaining s = piece ++ remaining (read s c).2

variable {read : S → C → Option (List α) × S} {remaining : S → List α} {Ok : S → Prop} {P : C → Prop}

/-- At the end everything has been read, and it is met after at most as many reads
as there is to read, and one. -/
theorem readAll_spec (hread : ∀ s c, Ok s → P c → ReadStep read remaining s c)
    (hok : ∀ s c, Ok s → P c → Ok (read s c).2) {s : S} (hs : Ok s) {cs : List C} (hcs : ∀ c ∈ cs, P c) :
    ((readAll read s cs).2 = true → (readAll read s cs).1 = remaining s) ∧
      ((remaining s).length < cs.length → (readAll read s cs).2 = true) := by
  induction cs generalizing s with
  | nil => exact ⟨fun h => absurd h Bool.false_ne_true, fun h => absurd h (Nat.not_lt_zero _)⟩
  | cons c cs ih =>
    have hc := hcs c List.mem_cons_self
    have ih := ih (hok s c hs hc) fun c' hc' => hcs c' (List.mem_cons_of_mem _ hc')
    rcases hread s c hs hc with ⟨hr, hnil⟩ | ⟨piece, hr, hne, hrem⟩
    · have hend : readAll read s (c :: cs) = ([], true) := by
        rw [readAll, hr]
      rw [hend]
      exact ⟨fun _ => hnil.symm, fun _ => rfl⟩
    · have hmore : readAll read s (c :: cs) =
        (piece ++ (readAll read (read s c).2 cs).1, (readAll read (read s c).2 cs).2) := by
        rw [readAll, hr]
      rw [hmore, hrem]
      refine ⟨fun hend => congrArg (piece ++ ·) (ih.1 hend), fun hlt => ih.2 ?_⟩
      have hpos := List.length_pos_iff.2 hne
      rw [List.length_append, List.length_cons] at hlt
      omega

end Lib
