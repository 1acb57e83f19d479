import BLEBridge.Lib.Bytes
import BLEBridge.Lib.Device
/-!
# Serial NOR flash

Flash with 256-byte pages and 4 KiB sectors, as a memory of bytes. Erasing sets
bytes to `0xff`, programming can only clear bits: it ands the new byte into the
old one. `rewriteSector` is the plan that erases a sector and programs all its
pages; `rewriteSector_take` gives the memory at every point of it.
-/

namespace Lib

/-- The contents of the flash, by offset from its start. -/
abbrev Mem := Nat → UInt8

def FLASH_PAGE_SIZE : Nat := 256
def FLASH_SECTOR_SIZE : Nat := 4096

/-- `n` bytes from offset `off`. -/
def read (m : Mem) (off n : Nat) : Bytes := (List.range n).map fun i => m (off + i)

def erase (m : Mem) (off len : Nat) : Mem := fun i => if off ≤ i ∧ i < off + len then 0xff else m i

def program (m : Mem) (off : Nat) (data : Bytes) : Mem := fun i =>
  if off ≤ i ∧ i < off + data.length then m i &&& data.getD (i - off) 0 else m i

/-- `len` bytes of `data`, a memory of its own, stored at `off`. -/
def patch (m : Mem) (off : Nat) (data : Mem) (len : Nat) : Mem := fun i =>
  if off ≤ i ∧ i < off + len then data (i - off) else m i

inductive FlashOp where
  | erase (off len : Nat)
  | program (off : Nat) (data : Bytes)
  deriving DecidableEq, Repr

def FlashOp.act (o : FlashOp) (m : Mem) : Mem :=
  match o with
  | .erase off len => Lib.erase m off len
  | .program off data => Lib.program m off data

instance : Acts FlashOp Mem := ⟨FlashOp.act⟩

abbrev Flash := Device Mem FlashOp

/-- The operation can change only bytes from `lo` up to `hi`. -/
def FlashOp.Within (lo hi : Nat) : FlashOp → Prop
  | .erase off len => lo ≤ off ∧ off + len ≤ hi
  | .program off data => lo ≤ off ∧ off + data.length ≤ hi

/-- The values of `x` in `for (x = 0; x < stop; x += step)`. -/
def strided (stop step : Nat) : List Nat := (List.range ((stop + step - 1) / step)).map (step * ·)

/-! ## Bytes -/

theorem ff_and (b : UInt8) : 0xff &&& b = b := by
  apply UInt8.toBitVec_inj.1
  rw [UInt8.toBitVec_and]
  exact BitVec.allOnes_and

@[simp] theorem read_length (m : Mem) (off n : Nat) : (read m off n).length = n := by simp [read]

theorem read_getD (m : Mem) (off n j : Nat) (h : j < n) (b : UInt8) : (read m off n).getD j b = m (off + j) := by
  rw [getD_of_lt _ _ _ (by simpa using h)]
  simp [read]

theorem read_eq_iff (m m' : Mem) (off off' n : Nat) :
    read m off n = read m' off' n ↔ ∀ i < n, m (off + i) = m' (off' + i) := by
  simp [read, List.map_inj_left]

theorem read_eq_of_getD {m : Mem} {off n : Nat} {data : Bytes} (hl : data.length = n) (b : UInt8)
    (h : ∀ i < n, m (off + i) = data.getD i b) : read m off n = data := by
  apply List.ext_getElem (by simp [hl])
  intro i h1 h2
  have := h i (by simpa using h1)
  rw [getD_of_lt _ _ _ h2] at this
  simpa [read] using this

theorem read_take (m : Mem) (off n k : Nat) (h : k ≤ n) : (read m off n).take k = read m off k := by
  simp [read, ← List.map_take, List.take_range, min_eq_left h]

theorem patch_zero (m : Mem) (off : Nat) (data : Mem) : patch m off data 0 = m := by
  funext i
  exact if_neg (by omega)

/-- Storing one piece after the other. -/
theorem patch_patch (m : Mem) (off : Nat) (data : Mem) (a b : Nat) :
    patch (patch m off data a) (off + a) (fun i => data (a + i)) b = patch m off data (a + b) := by
  funext i
  unfold patch
  by_cases h : off + a ≤ i ∧ i < off + a + b
  · rw [if_pos h, if_pos (by omega)]
    exact congrArg data (show a + (i - (off + a)) = i - off by omega)
  · rw [if_neg h]
    by_cases h' : off ≤ i ∧ i < off + a
    · rw [if_pos h', if_pos (by omega)]
    · rw [if_neg h', if_neg (by omega)]

theorem patch_eq_self_iff (m : Mem) (off : Nat) (data : Mem) (len : Nat) :
    patch m off data len = m ↔ ∀ i < len, m (off + i) = data i := by
  constructor
  · intro h i hi
    have hp := congrFun h (off + i)
    unfold patch at hp
    rw [if_pos (by omega), Nat.add_sub_cancel_left] at hp
    exact hp.symm
  · intro h
    funext i
    unfold patch
    split
    · rename_i hi
      obtain ⟨j, rfl⟩ := Nat.exists_eq_add_of_le hi.1
      rw [h j (by omega), Nat.add_sub_cancel_left]
    · rfl

/-! ## What an operation changes -/

@[simp] theorem act_erase (off len : Nat) (m : Mem) : act (FlashOp.erase off len) m = erase m off len := rfl

@[simp] theorem act_program (off : Nat) (data : Bytes) (m : Mem) :
    act (FlashOp.program off data) m = program m off data := rfl

theorem act_outside {o : FlashOp} {lo hi : Nat} (h : o.Within lo hi) (m : Mem) {i : Nat} (hi' : i < lo ∨ hi ≤ i) :
    act o m i = m i := by
  cases o with
  | erase off len =>
    obtain ⟨h1, h2⟩ := h
    exact if_neg (by omega)
  | program off data =>
    obtain ⟨h1, h2⟩ := h
    exact if_neg (by omega)

/-- Operations within a range leave every byte outside it alone. -/
theorem actAll_outside {os : List FlashOp} {lo hi : Nat} (h : ∀ o ∈ os, o.Within lo hi) (m : Mem) {i : Nat}
    (hi' : i < lo ∨ hi ≤ i) : actAll os m i = m i := by
  induction os generalizing m with
  | nil => rfl
  | cons o os ih =>
    rw [actAll_cons, ih (fun o' ho => h o' (by simp [ho])), act_outside (h o (by simp)) m hi']

theorem read_actAll_outside {os : List FlashOp} {lo hi : Nat} (h : ∀ o ∈ os, o.Within lo hi) (m : Mem)
    {off n : Nat} (hr : off + n ≤ lo ∨ hi ≤ off) : read (actAll os m) off n = read m off n :=
  (read_eq_iff _ _ _ _ _).2 fun i hi' => actAll_outside h m (by omega)

theorem within_mono {o : FlashOp} {lo hi lo' hi' : Nat} (h : o.Within lo hi) (h1 : lo' ≤ lo) (h2 : hi ≤ hi') :
    o.Within lo' hi' := by
  cases o <;> simp only [FlashOp.Within] at h ⊢ <;> omega

/-! ## Rewriting a sector -/

/-- Erase the sector at `off`, then program its sixteen pages from `data`. -/
def rewriteSector (off : Nat) (data : Bytes) : List FlashOp :=
  .erase off 4096 :: (List.range 16).map fun k => .program (off + 256 * k) (slice data (256 * k) 256)

@[simp] theorem rewriteSector_length (off : Nat) (data : Bytes) : (rewriteSector off data).length = 17 := by
  simp [rewriteSector]

theorem rewriteSector_within (off : Nat) (data : Bytes) :
    ∀ o ∈ rewriteSector off data, o.Within off (off + 4096) := by
  intro o ho
  simp only [rewriteSector, List.mem_cons, List.mem_map, List.mem_range] at ho
  rcases ho with rfl | ⟨k, hk, rfl⟩
  · exact ⟨le_refl _, le_refl _⟩
  · have : (slice data (256 * k) 256).length ≤ 256 := by simp [slice]
    exact ⟨by omega, by omega⟩

theorem programPages (off : Nat) (data : Bytes) (hd : data.length = 4096) (n : Nat) (hn : n ≤ 16) (m : Mem)
    (i : Nat) :
    actAll ((List.range n).map fun k => FlashOp.program (off + 256 * k) (slice data (256 * k) 256)) m i =
      if off ≤ i ∧ i < off + 256 * n then m i &&& data.getD (i - off) 0 else m i := by
  induction n with
  | zero => simp
  | succ n ih =>
    rw [List.range_succ, List.map_append, actAll_append, List.map_singleton, actAll_cons, actAll_nil]
    change program _ _ _ i = _
    have hl := slice_length data (256 * n) 256 (by omega)
    rw [program, hl, ih (by omega)]
    by_cases h : off + 256 * n ≤ i ∧ i < off + 256 * n + 256
    · rw [if_pos h, if_neg (by omega), if_pos (by omega), slice_getD _ _ _ _ (by omega),
        show 256 * n + (i - (off + 256 * n)) = i - off by omega]
    · rw [if_neg h]
      by_cases h' : off ≤ i ∧ i < off + 256 * n
      · rw [if_pos h', if_pos (by omega)]
      · rw [if_neg h', if_neg (by omega)]

/-- The memory part-way through a rewrite: nothing yet, or an erased sector
whose first `j` pages have been programmed. -/
theorem rewriteSector_take (off : Nat) (data : Bytes) (hd : data.length = 4096) (j : Nat) (hj : j ≤ 16)
    (m : Mem) (i : Nat) :
    actAll ((rewriteSector off data).take (j + 1)) m i =
      if off ≤ i ∧ i < off + 4096 then (if i < off + 256 * j then data.getD (i - off) 0 else 0xff) else m i := by
  rw [rewriteSector, List.take_succ_cons, ← List.map_take, List.take_range, min_eq_left hj, actAll_cons,
    programPages off data hd j hj]
  change (if _ then erase m off 4096 i &&& _ else erase m off 4096 i) = _
  by_cases h : off ≤ i ∧ i < off + 4096
  · rw [erase, if_pos h, if_pos h]
    by_cases h' : i < off + 256 * j
    · rw [if_pos ⟨h.1, h'⟩, if_pos h', ff_and]
    · rw [if_neg (by omega), if_neg h']
  · rw [erase, if_neg h, if_neg h, if_neg (by omega)]

theorem rewriteSector_all (off : Nat) (data : Bytes) (hd : data.length = 4096) (m : Mem) (i : Nat) :
    actAll (rewriteSector off data) m i =
      if off ≤ i ∧ i < off + 4096 then data.getD (i - off) 0 else m i := by
  have h := rewriteSector_take off data hd 16 le_rfl m i
  rw [List.take_of_length_le (by simp)] at h
  rw [h]
  by_cases hi : off ≤ i ∧ i < off + 4096
  · rw [if_pos hi, if_pos hi, if_pos (by omega)]
  · rw [if_neg hi, if_neg hi]

/-! ## Copying sectors -/

/-- Rewrite `n` sectors at `dst` with the bytes that `m` has at `src`. -/
def copySectors (src dst : Nat) (m : Mem) (n : Nat) : List FlashOp :=
  (List.range n).flatMap fun i => rewriteSector (dst + 4096 * i) (read m (src + 4096 * i) 4096)

theorem copySectors_succ (src dst : Nat) (m : Mem) (n : Nat) :
    copySectors src dst m (n + 1) =
      copySectors src dst m n ++ rewriteSector (dst + 4096 * n) (read m (src + 4096 * n) 4096) := by
  simp [copySectors, List.range_succ]

theorem copySectors_within (src dst : Nat) (m : Mem) (n : Nat) :
    ∀ o ∈ copySectors src dst m n, o.Within dst (dst + 4096 * n) := by
  intro o ho
  obtain ⟨i, hi, ho⟩ := List.mem_flatMap.1 ho
  have := List.mem_range.1 hi
  exact within_mono (rewriteSector_within _ _ o ho) (by omega) (by omega)

theorem copySectors_mem (src dst : Nat) (m : Mem) (n : Nat) (m' : Mem) (i : Nat) :
    actAll (copySectors src dst m n) m' i =
      if dst ≤ i ∧ i < dst + 4096 * n then m (src + (i - dst)) else m' i := by
  induction n with
  | zero => rw [if_neg (by omega)]; rfl
  | succ n ih =>
    rw [copySectors_succ, actAll_append, rewriteSector_all _ _ (read_length _ _ _), ih]
    by_cases h : dst + 4096 * n ≤ i ∧ i < dst + 4096 * n + 4096
    · rw [if_pos h, if_pos (by omega), read_getD _ _ _ _ (by omega)]
      congr 1
      omega
    · rw [if_neg h]
      by_cases h' : dst ≤ i ∧ i < dst + 4096 * n
      · rw [if_pos h', if_pos (by omega)]
      · rw [if_neg h', if_neg (by omega)]

end Lib
