import BLEBridge.Lib.NorFlash
/-!
# Writing an image page by page

`stage` writes an image from its first page on and erases each sector when its
first page comes up, so nothing ahead of the image is touched. `EraseFirst` is
the discipline a log keeps when every program of a page comes after an erase of
its sector, with no program of that page since.
-/

namespace Lib

/-- Page `p` of the image, filled up with `0xff` past its end. -/
def pageOf (img : Bytes) (p : Nat) : Bytes := (List.range 256).map fun j => img.getD (256 * p + j) 0xff

/-- The operations for page `p` of an image that starts at `base`. -/
def stagePage (base : Nat) (img : Bytes) (p : Nat) : List FlashOp :=
  (if p % 16 = 0 then [.erase (base + 256 * p) 4096] else []) ++ [.program (base + 256 * p) (pageOf img p)]

/-- Write the first `n` pages of the image. -/
def stage (base : Nat) (img : Bytes) (n : Nat) : List FlashOp := (List.range n).flatMap (stagePage base img)

@[simp] theorem pageOf_length (img : Bytes) (p : Nat) : (pageOf img p).length = 256 := by simp [pageOf]

theorem pageOf_getD (img : Bytes) (p j : Nat) (h : j < 256) (b : UInt8) :
    (pageOf img p).getD j b = img.getD (256 * p + j) 0xff := by
  rw [getD_of_lt _ _ _ (by simpa using h)]
  simp [pageOf]

@[simp] theorem stage_zero (base : Nat) (img : Bytes) : stage base img 0 = [] := rfl

theorem stage_succ (base : Nat) (img : Bytes) (n : Nat) :
    stage base img (n + 1) = stage base img n ++ stagePage base img n := by
  simp [stage, List.range_succ]

theorem stage_add (base : Nat) (img : Bytes) (n k : Nat) :
    ∃ os, stage base img (n + k) = stage base img n ++ os := by
  induction k with
  | zero => exact ⟨[], by simp⟩
  | succ k ih =>
    obtain ⟨os, h⟩ := ih
    exact ⟨os ++ stagePage base img (n + k), by rw [← Nat.add_assoc, stage_succ, h, List.append_assoc]⟩

/-- The first `n` pages only depend on the first `256 * n` bytes. -/
theorem stage_congr (base : Nat) {img img' : Bytes} {n : Nat}
    (h : ∀ i < 256 * n, img.getD i 0xff = img'.getD i 0xff) : stage base img n = stage base img' n := by
  induction n with
  | zero => rfl
  | succ n ih =>
    have hp : pageOf img n = pageOf img' n :=
      List.map_congr_left fun j hj => h _ (by have := List.mem_range.1 hj; omega)
    rw [stage_succ, stage_succ, ih (fun i hi => h i (by omega)), stagePage, stagePage, hp]

theorem mem_stagePage {base : Nat} {img : Bytes} {p : Nat} {o : FlashOp} (h : o ∈ stagePage base img p) :
    (p % 16 = 0 ∧ o = .erase (base + 256 * p) 4096) ∨ o = .program (base + 256 * p) (pageOf img p) := by
  unfold stagePage at h
  split at h
  · rename_i hp
    rcases List.mem_append.1 h with h | h
    · exact .inl ⟨hp, by simpa using h⟩
    · exact .inr (by simpa using h)
  · exact .inr (by simpa using h)

theorem mem_stage {base : Nat} {img : Bytes} {n : Nat} {o : FlashOp} (h : o ∈ stage base img n) :
    ∃ p < n, (p % 16 = 0 ∧ o = .erase (base + 256 * p) 4096) ∨ o = .program (base + 256 * p) (pageOf img p) := by
  obtain ⟨p, hp, ho⟩ := List.mem_flatMap.1 h
  exact ⟨p, List.mem_range.1 hp, mem_stagePage ho⟩

theorem program_mem_stage (base : Nat) (img : Bytes) {n p : Nat} (h : p < n) :
    .program (base + 256 * p) (pageOf img p) ∈ stage base img n :=
  List.mem_flatMap.2 ⟨p, List.mem_range.2 h, by simp [stagePage]⟩

theorem erase_mem_stage (base : Nat) (img : Bytes) {n p : Nat} (h : p < n) (hp : p % 16 = 0) :
    .erase (base + 256 * p) 4096 ∈ stage base img n :=
  List.mem_flatMap.2 ⟨p, List.mem_range.2 h, by simp [stagePage, hp]⟩

/-- Staging stays within the sectors that its pages lie in. -/
theorem stage_within (base : Nat) (img : Bytes) (n : Nat) :
    ∀ o ∈ stage base img n, o.Within base (base + 4096 * ((n + 15) / 16)) := by
  intro o ho
  obtain ⟨p, hp, ⟨h16, rfl⟩ | rfl⟩ := mem_stage ho
  · exact ⟨by omega, by omega⟩
  · exact ⟨by omega, by rw [pageOf_length]; omega⟩

theorem stage_length (base : Nat) (img : Bytes) (n : Nat) : (stage base img n).length = n + (n + 15) / 16 := by
  induction n with
  | zero => rfl
  | succ n ih =>
    rw [stage_succ, List.length_append, ih, stagePage]
    split <;> simp <;> omega

/-- The memory after staging `n` pages: the image, then `0xff` to the end of
the last sector reached, then what was there before. -/
theorem stage_mem (base : Nat) (img : Bytes) (n : Nat) (m : Mem) (i : Nat) :
    actAll (stage base img n) m i =
      if base ≤ i ∧ i < base + 256 * n then img.getD (i - base) 0xff
      else if base ≤ i ∧ i < base + 4096 * ((n + 15) / 16) then 0xff else m i := by
  induction n with
  | zero =>
    rw [if_neg (by omega), if_neg (by omega)]
    rfl
  | succ n ih =>
    have hprog : ∀ m' : Mem, program m' (base + 256 * n) (pageOf img n) i =
        if base + 256 * n ≤ i ∧ i < base + 256 * n + 256 then m' i &&& img.getD (i - base) 0xff else m' i := by
      intro m'
      rw [program, pageOf_length]
      by_cases h : base + 256 * n ≤ i ∧ i < base + 256 * n + 256
      · rw [if_pos h, if_pos h, pageOf_getD _ _ _ (by omega),
          show 256 * n + (i - (base + 256 * n)) = i - base by omega]
      · rw [if_neg h, if_neg h]
    rw [stage_succ, actAll_append, stagePage]
    by_cases h16 : n % 16 = 0
    · rw [if_pos h16, List.singleton_append, actAll_cons, actAll_cons, actAll_nil]
      change program (erase _ _ _) _ _ i = _
      rw [hprog, erase, ih]
      by_cases h1 : base + 256 * n ≤ i ∧ i < base + 256 * n + 256
      · rw [if_pos h1, if_pos (by omega), if_pos (by omega), ff_and]
      · rw [if_neg h1]
        by_cases h2 : base + 256 * n ≤ i ∧ i < base + 256 * n + 4096
        · rw [if_pos h2, if_neg (by omega), if_pos (by omega)]
        · rw [if_neg h2]
          by_cases h3 : base ≤ i ∧ i < base + 256 * n
          · rw [if_pos h3, if_pos (by omega)]
          · rw [if_neg h3, if_neg (by omega), if_neg (by omega), if_neg (by omega)]
    · rw [if_neg h16, List.nil_append, actAll_cons, actAll_nil]
      change program _ _ _ i = _
      rw [hprog, ih]
      by_cases h1 : base + 256 * n ≤ i ∧ i < base + 256 * n + 256
      · rw [if_pos h1, if_neg (by omega), if_pos (by omega), if_pos (by omega), ff_and]
      · rw [if_neg h1]
        by_cases h3 : base ≤ i ∧ i < base + 256 * n
        · rw [if_pos h3, if_pos (by omega)]
        · rw [if_neg h3, if_neg (show ¬(base ≤ i ∧ i < base + 256 * (n + 1)) by omega),
            show (n + 1 + 15) / 16 = (n + 15) / 16 by omega]

/-! ## Erase before program -/

/-- The sector of the page at `off` has been erased in `os`, and that page has
not been programmed since. -/
def Armed (os : List FlashOp) (off : Nat) : Prop :=
  ∃ a b, os = a ++ .erase (off / 4096 * 4096) 4096 :: b ∧ ∀ o ∈ b, ∀ data, o ≠ .program off data

/-- Every program in the plan finds its page armed. -/
def ErasesFirst (os : List FlashOp) : Prop :=
  ∀ a off data b, os = a ++ .program off data :: b → Armed a off

theorem erasesFirst_nil : ErasesFirst [] := by
  intro a off data b h
  simp at h

theorem armed_of_mem {os : List FlashOp} {off : Nat} (h : .erase (off / 4096 * 4096) 4096 ∈ os)
    (hn : ∀ o ∈ os, ∀ data, o ≠ .program off data) : Armed os off := by
  obtain ⟨a, b, rfl⟩ := List.append_of_mem h
  exact ⟨a, b, rfl, fun o ho => hn o (by simp [ho])⟩

theorem armed_append {os : List FlashOp} {off : Nat} (os' : List FlashOp) (h : Armed os off) :
    Armed (os' ++ os) off := by
  obtain ⟨a, b, rfl, hb⟩ := h
  exact ⟨os' ++ a, b, by simp, hb⟩

theorem erasesFirst_append {os os' : List FlashOp} (h : ErasesFirst os)
    (h' : ∀ a off data b, os' = a ++ .program off data :: b → Armed (os ++ a) off) : ErasesFirst (os ++ os') := by
  intro a off data b he
  rcases List.append_eq_append_iff.1 he with ⟨c, rfl, hc⟩ | ⟨c, hc, hc'⟩
  · exact h' c off data b hc
  · rcases c with _ | ⟨o, c⟩
    · simp only [List.append_nil, List.nil_append] at hc hc'
      subst hc
      simpa using h' [] off data b hc'.symm
    · simp only [List.cons_append, List.cons.injEq] at hc'
      obtain ⟨rfl, -⟩ := hc'
      exact h a off data c hc

theorem erasesFirst_snoc {os : List FlashOp} {off : Nat} {data : Bytes} (h : ErasesFirst os) (ha : Armed os off) :
    ErasesFirst (os ++ [.program off data]) := by
  refine erasesFirst_append h fun a off' data' b he => ?_
  rcases a with _ | ⟨o, a⟩
  · simp only [List.nil_append, List.cons.injEq, FlashOp.program.injEq] at he
    obtain ⟨⟨rfl, -⟩, -⟩ := he
    simpa using ha
  · simp at he

theorem erasesFirst_erase {os : List FlashOp} {off len : Nat} (h : ErasesFirst os) :
    ErasesFirst (os ++ [.erase off len]) := by
  refine erasesFirst_append h fun a off' data' b he => ?_
  rcases a with _ | ⟨o, a⟩ <;> simp at he

theorem stage_erasesFirst (base : Nat) (hb : base % 4096 = 0) (img : Bytes) (n : Nat) :
    ErasesFirst (stage base img n) := by
  induction n with
  | zero => exact erasesFirst_nil
  | succ n ih =>
    -- the sector of page `n` starts at page `n / 16 * 16`, which has come up already
    have hsec : (base + 256 * n) / 4096 * 4096 = base + 256 * (n / 16 * 16) := by omega
    have hnew : ∀ o ∈ stage base img n, ∀ data, o ≠ .program (base + 256 * n) data := by
      rintro o ho data rfl
      obtain ⟨p, hp, ⟨-, h⟩ | h⟩ := mem_stage ho
      · cases h
      · simp only [FlashOp.program.injEq] at h; omega
    rw [stage_succ, stagePage]
    by_cases h16 : n % 16 = 0
    · rw [if_pos h16, ← List.append_assoc]
      refine erasesFirst_snoc (erasesFirst_erase ih) (armed_append _ (armed_of_mem ?_ ?_))
      · rw [hsec, show n / 16 * 16 = n by omega]; simp
      · simp
    · rw [if_neg h16, List.nil_append]
      refine erasesFirst_snoc ih (armed_of_mem ?_ hnew)
      rw [hsec]
      exact erase_mem_stage base img (by omega) (by omega)

theorem rewriteSector_erasesFirst (off : Nat) (ho : off % 4096 = 0) (data : Bytes) :
    ErasesFirst (rewriteSector off data) := by
  have key : ∀ n ≤ 16, ErasesFirst (.erase off 4096 :: (List.range n).map fun k =>
      FlashOp.program (off + 256 * k) (slice data (256 * k) 256)) := by
    intro n hn
    induction n with
    | zero => exact erasesFirst_erase erasesFirst_nil
    | succ n ih =>
      rw [List.range_succ, List.map_append, List.map_singleton, ← List.cons_append]
      refine erasesFirst_snoc (ih (by omega)) (armed_of_mem ?_ ?_)
      · rw [show (off + 256 * n) / 4096 * 4096 = off by omega]; simp
      · rintro o hmem data' rfl
        simp only [List.mem_cons, reduceCtorEq, List.mem_map, List.mem_range, FlashOp.program.injEq,
          false_or] at hmem
        obtain ⟨k, hk, h, -⟩ := hmem
        omega
  exact key 16 le_rfl

theorem erasesFirst_concat {os os' : List FlashOp} (h : ErasesFirst os) (h' : ErasesFirst os') :
    ErasesFirst (os ++ os') :=
  erasesFirst_append h fun a off data b he => armed_append os (h' a off data b he)

/-! ## Erase before program, in a log -/

/-- `Armed` in a log: the erase was carried out, and no program of the page has
been asked for since. -/
def ArmedLog (log : List (FlashOp × Bool)) (off : Nat) : Prop :=
  ∃ a b, log = a ++ (.erase (off / 4096 * 4096) 4096, true) :: b ∧ ∀ e ∈ b, ∀ data, e.1 ≠ .program off data

/-- Every program in the log, carried out or not, found its page armed. -/
def LogErasesFirst (log : List (FlashOp × Bool)) : Prop :=
  ∀ a off data ok b, log = a ++ (.program off data, ok) :: b → ArmedLog a off

theorem logErasesFirst_nil : LogErasesFirst [] := by
  intro a off data ok b h
  simp at h

/-- Running a plan keeps the discipline. -/
theorem logErasesFirst_append {fault : Nat → Bool} {n : Nat} {log : List (FlashOp × Bool)} {os : List FlashOp}
    (h : LogErasesFirst log) (hos : ErasesFirst os) : LogErasesFirst (log ++ performed fault n os) := by
  intro a off data ok b he
  have hnew : ∀ c b, performed fault n os = c ++ (.program off data, ok) :: b → ArmedLog (log ++ c) off :=
    fun c b hc => by
    obtain ⟨c', b', hos', rfl⟩ := performed_split hc
    obtain ⟨x, y, rfl, hy⟩ := hos c' off data b' hos'
    refine ⟨log ++ x.map (·, true), y.map (·, true), by simp, fun e he => ?_⟩
    obtain ⟨o, ho, rfl⟩ := List.mem_map.1 he
    exact hy o ho
  rcases List.append_eq_append_iff.1 he with ⟨c, rfl, hc⟩ | ⟨c, hc, hc'⟩
  · exact hnew c b hc
  · rcases c with _ | ⟨e, c⟩
    · simp only [List.append_nil, List.nil_append] at hc hc'
      subst hc
      simpa using hnew [] b hc'.symm
    · simp only [List.cons_append, List.cons.injEq] at hc'
      obtain ⟨rfl, -⟩ := hc'
      exact h a off data ok c hc

/-- Between two programs of a page its sector is erased. -/
theorem LogErasesFirst.between {log a b c : List (FlashOp × Bool)}
    {off : Nat} {data data' : Bytes} {ok ok' : Bool} (h : LogErasesFirst log)
    (he : log = a ++ (.program off data, ok) :: (b ++ (.program off data', ok') :: c)) :
    (.erase (off / 4096 * 4096) 4096, true) ∈ b := by
  obtain ⟨x, y, hxy, hy⟩ := h (a ++ (.program off data, ok) :: b) off data' ok' c (by rw [he]; simp)
  rcases List.append_eq_append_iff.1 hxy with ⟨z, rfl, hz⟩ | ⟨z, hz, hz'⟩
  · rcases z with _ | ⟨e, z⟩
    · simp at hz
    · simp only [List.cons_append, List.cons.injEq] at hz
      rw [hz.2]
      simp
  · -- then the first program would come after the last erase
    rcases z with _ | ⟨e, z⟩
    · simp at hz'
    · simp only [List.cons_append, List.cons.injEq] at hz'
      exact absurd rfl (hy (.program off data, ok) (by rw [hz'.2]; simp) data)

end Lib
