import BLEBridge.Lib.NorFlash
/-!
# What a part of a program does to a device

`Device.GoesOn P` says that a device has gone on with operations of the kind `P`,
carried out or not. Parts of a program compose by `GoesOn.trans`; what such
operations leave alone, the device has kept, also after a power cut
(`replay_frame`).
-/

namespace Lib

variable {M O : Type} [Acts O M] {P Q : O → Prop} {d d' d'' : Device M O}

/-- The device went on with operations of one kind. -/
def Device.GoesOn (P : O → Prop) (d d' : Device M O) : Prop :=
  ∃ es : List (O × Bool), d' = ⟨replay es d.mem, d.log ++ es⟩ ∧ ∀ e ∈ es, P e.1

theorem goesOn_refl (P : O → Prop) (d : Device M O) : d.GoesOn P d :=
  ⟨[], by rw [replay_nil, List.append_nil], fun _ he => absurd he List.not_mem_nil⟩

theorem Device.GoesOn.trans (h : d.GoesOn P d') (h' : d'.GoesOn P d'') : d.GoesOn P d'' := by
  obtain ⟨es, rfl, hes⟩ := h
  obtain ⟨es', rfl, hes'⟩ := h'
  refine ⟨es ++ es', ?_, fun e he => (List.mem_append.1 he).elim (hes e) (hes' e)⟩
  rw [replay_append, List.append_assoc]

theorem Device.GoesOn.mono (h : d.GoesOn P d') (hPQ : ∀ o, P o → Q o) : d.GoesOn Q d' := by
  obtain ⟨es, hd, hes⟩ := h
  exact ⟨es, hd, fun e he => hPQ _ (hes e he)⟩

theorem goesOn_exec (fault : Nat → Bool) {o : O} (ho : P o) (d : Device M O) : d.GoesOn P (d.exec fault o).2 := by
  unfold Device.exec
  split
  · exact ⟨[(o, false)], rfl, List.forall_mem_singleton.2 ho⟩
  · exact ⟨[(o, true)], rfl, List.forall_mem_singleton.2 ho⟩

theorem goesOn_actAll {os : List O} (hos : ∀ o ∈ os, P o) (d : Device M O) :
    d.GoesOn P ⟨actAll os d.mem, d.log ++ os.map (·, true)⟩ := by
  refine ⟨os.map (·, true), by rw [replay_done], fun e he => ?_⟩
  obtain ⟨o, ho, rfl⟩ := List.mem_map.1 he
  exact hos o ho

/-- The log of a device that was started accounts for all that it has done. -/
theorem Device.GoesOn.from_start {m : M} (h : (Device.start m).GoesOn P d) :
    replay d.log m = d.mem ∧ ∀ e ∈ d.log, P e.1 := by
  obtain ⟨es, rfl, hes⟩ := h
  exact ⟨rfl, hes⟩

/-- A view of the memory that none of the operations changes. -/
theorem replay_frame {V : Type} (view : M → V) (hP : ∀ o m, P o → view (act o m) = view m) {log : List (O × Bool)}
    (h : ∀ e ∈ log, P e.1) (m : M) : view (replay log m) = view m := by
  induction log generalizing m with
  | nil => rfl
  | cons e log ih =>
    rw [replay_cons, ih fun e' he => h e' (List.mem_cons_of_mem e he)]
    split
    · exact hP _ _ (h e List.mem_cons_self)
    · rfl

end Lib
