import BLEBridge.Lib.Crc
/-!
# Burst errors

A register whose polynomial has its top bit set loses nothing in a step, and a
step is linear. So two strings with different bits only within as many
consecutive positions as the register is wide leave different registers.
-/

namespace Lib

variable {w : Nat} {poly crc a b : BitVec w}

/-! ## One step of the register -/

theorem crcBit_eq (poly crc : BitVec w) : crcBit poly crc = if crc.getLsbD 0 then crc >>> 1 ^^^ poly
    else crc >>> 1 := by
  have hone : crc &&& 1#w = if crc.getLsbD 0 then 1#w else 0#w := by
    rw [BitVec.and_one_eq_setWidth_ofBool_getLsbD]
    cases crc.getLsbD 0
    · simp
    · exact BitVec.eq_of_toNat_eq (by simp)
  change crc >>> 1 ^^^ (poly &&& (0#w - (crc &&& 1#w))) = _
  rw [hone]
  cases crc.getLsbD 0
  · simp
  · simp [BitVec.neg_one_eq_allOnes]

theorem crcBit_xor (poly a b : BitVec w) : crcBit poly (a ^^^ b) = crcBit poly a ^^^ crcBit poly b := by
  rw [crcBit_eq, crcBit_eq, crcBit_eq, BitVec.getLsbD_xor, BitVec.ushiftRight_xor_distrib]
  cases a.getLsbD 0 <;> cases b.getLsbD 0
  · rfl
  · exact BitVec.xor_assoc ..
  · change a >>> 1 ^^^ b >>> 1 ^^^ poly = a >>> 1 ^^^ poly ^^^ b >>> 1
    ac_rfl
  · change a >>> 1 ^^^ b >>> 1 = (a >>> 1 ^^^ poly) ^^^ (b >>> 1 ^^^ poly)
    rw [BitVec.xor_comm (b >>> 1), BitVec.xor_assoc, ← BitVec.xor_assoc poly, BitVec.xor_self, BitVec.zero_xor]

@[simp] theorem crcBit_zero (poly : BitVec w) : crcBit poly 0#w = 0#w := by
  simp [crcBit_eq]

/-- The bit that falls out can be read off the top bit. -/
theorem crcBit_ne_zero (hpoly : poly.msb = true) (hcrc : crc ≠ 0#w) : crcBit poly crc ≠ 0#w := by
  intro h
  rw [crcBit_eq] at h
  split at h
  · have hmsb := congrArg BitVec.msb h
    rw [BitVec.msb_xor, hpoly] at hmsb
    simp [BitVec.msb_ushiftRight] at hmsb
  · rename_i hlow
    apply hcrc
    apply BitVec.eq_of_getLsbD_eq
    intro i hi
    cases i with
    | zero => simpa using hlow
    | succ i =>
      have hbit := congrArg (fun x => BitVec.getLsbD x i) h
      simpa [Nat.add_comm] using hbit

/-! ## Feeding bits -/

/-- A bit as a word. -/
def bitWord (w : Nat) (bit : Bool) : BitVec w := if bit then 1#w else 0#w

theorem bitWord_xor (x y : Bool) : bitWord w (x ^^ y) = bitWord w x ^^^ bitWord w y := by
  cases x <;> cases y <;> simp [bitWord]

/-- Feed one bit. -/
def crcFeed (poly crc : BitVec w) (bit : Bool) : BitVec w := crcBit poly (crc ^^^ bitWord w bit)

@[simp] theorem crcFeed_false (poly crc : BitVec w) : crcFeed poly crc false = crcBit poly crc := by
  simp [crcFeed, bitWord]

theorem crcFeed_xor (poly a b : BitVec w) (x y : Bool) :
    crcFeed poly (a ^^^ b) (x ^^ y) = crcFeed poly a x ^^^ crcFeed poly b y := by
  unfold crcFeed
  rw [← crcBit_xor, bitWord_xor]
  congr 1
  ac_rfl

@[simp] theorem bitWord_shift (bit : Bool) : bitWord w bit >>> 1 = 0#w := by
  apply BitVec.eq_of_getLsbD_eq
  intro i _
  cases bit <;> simp [bitWord, BitVec.getLsbD_one]

theorem bitWord_low (x : BitVec w) : (bitWord w (x.getLsbD 0)).getLsbD 0 = x.getLsbD 0 := by
  cases hx : x.getLsbD 0
  · simp [bitWord]
  · have hw : 0 < w := BitVec.lt_of_getLsbD hx
    simp [bitWord, hw]

/-- A word that was added to the register is fed from its lowest bit on, what is
left of it stays added. -/
theorem crcBit_word (poly crc x : BitVec w) :
    crcBit poly (crc ^^^ x) = crcFeed poly crc (x.getLsbD 0) ^^^ x >>> 1 := by
  unfold crcFeed
  rw [crcBit_eq, crcBit_eq, BitVec.getLsbD_xor, BitVec.getLsbD_xor, bitWord_low, BitVec.ushiftRight_xor_distrib,
    BitVec.ushiftRight_xor_distrib, bitWord_shift, BitVec.xor_zero]
  split
  · ac_rfl
  · rfl

/-- Feed bits, the first one first. -/
def crcFeeds (poly crc : BitVec w) (bits : List Bool) : BitVec w := bits.foldl (crcFeed poly) crc

theorem crcFeeds_append (poly crc : BitVec w) (xs ys : List Bool) :
    crcFeeds poly crc (xs ++ ys) = crcFeeds poly (crcFeeds poly crc xs) ys := List.foldl_append

/-- `n` steps feed the lowest `n` bits of a word that was added. -/
theorem crcBits_word (poly crc x : BitVec w) (n : Nat) :
    (crcBit poly)^[n] (crc ^^^ x) = crcFeeds poly crc ((List.range n).map x.getLsbD) ^^^ x >>> n := by
  induction n with
  | zero => simp [crcFeeds]
  | succ n ih =>
    rw [Function.iterate_succ_apply', ih, crcBit_word, List.range_succ, List.map_append, crcFeeds_append]
    simp [crcFeeds, BitVec.shiftRight_add]

/-- A register that is not zero stays so while zeros are fed. -/
theorem crcFeeds_zeros (hpoly : poly.msb = true) (bits : List Bool) (hbits : ∀ bit ∈ bits, bit = false) :
    crcFeeds poly crc bits = 0#w ↔ crc = 0#w := by
  induction bits generalizing crc with
  | nil => rfl
  | cons bit bits ih =>
    have hbit : bit = false := hbits bit (List.mem_cons_self ..)
    subst hbit
    change crcFeeds poly (crcFeed poly crc false) bits = 0#w ↔ _
    rw [ih fun b hb => hbits b (List.mem_cons_of_mem _ hb), crcFeed_false]
    constructor
    · intro h
      by_contra hcrc
      exact crcBit_ne_zero hpoly hcrc h
    · rintro rfl
      exact crcBit_zero poly

/-- Feeding the differences gives the difference. -/
theorem crcFeeds_xor (poly a b : BitVec w) (xs ys : List Bool) (h : xs.length = ys.length) :
    crcFeeds poly (a ^^^ b) (List.zipWith xor xs ys) = crcFeeds poly a xs ^^^ crcFeeds poly b ys := by
  induction xs generalizing ys a b with
  | nil =>
    cases List.length_eq_zero_iff.1 h.symm
    rfl
  | cons x xs ih =>
    cases ys with
    | nil => cases h
    | cons y ys =>
      have htail := ih (crcFeed poly a x) (crcFeed poly b y) ys (Nat.succ.inj h)
      rw [← crcFeed_xor] at htail
      exact htail

/-! ## One burst -/

theorem crcBits_ne_zero (hpoly : poly.msb = true) (n : Nat) (hcrc : crc ≠ 0#w) : (crcBit poly)^[n] crc ≠ 0#w := by
  induction n with
  | zero => exact hcrc
  | succ n ih =>
    rw [Function.iterate_succ_apply']
    exact crcBit_ne_zero hpoly ih

/-- No more bits than the register is wide, one of them a one, leave their mark
on it. -/
theorem crcFeeds_ne_zero (hpoly : poly.msb = true) {bits : List Bool} (hlength : bits.length ≤ w)
    (hone : true ∈ bits) : crcFeeds poly 0#w bits ≠ 0#w := by
  -- The word of the bits, which that many steps feed whole.
  let x : BitVec w := (BitVec.ofBoolListLE bits).setWidth w
  have hx : ∀ i, x.getLsbD i = bits.getD i false := by
    intro i
    by_cases hi : i < w
    · simp [x, hi]
    · rw [BitVec.getLsbD_of_ge _ _ (by omega), List.getD_eq_default _ _ (by omega)]
  have hbits : (List.range bits.length).map x.getLsbD = bits := by
    apply List.ext_getElem (by simp)
    intro i hi hi'
    simp [hx, hi']
  have hleft : x >>> bits.length = 0#w := by
    apply BitVec.eq_of_getLsbD_eq
    intro i _
    rw [BitVec.getLsbD_ushiftRight, hx, List.getD_eq_default _ _ (by omega), BitVec.getLsbD_zero]
  have hne : x ≠ 0#w := by
    intro h0
    obtain ⟨i, hi, hbit⟩ := List.getElem_of_mem hone
    have := hx i
    rw [h0, BitVec.getLsbD_zero, List.getD_eq_getElem _ _ hi, hbit] at this
    cases this
  have h := crcBits_word poly 0#w x bits.length
  rw [hbits, hleft, BitVec.xor_zero, BitVec.zero_xor] at h
  rw [← h]
  exact crcBits_ne_zero hpoly _ hne

/-- Before the burst the register stays zero, after it stays not zero. -/
theorem crcFeeds_window (hpoly : poly.msb = true) {bits : List Bool}
    {p : Nat} (hwindow : ∀ i, bits[i]? = some true → p ≤ i ∧ i < p + w) (hone : true ∈ bits) :
    crcFeeds poly 0#w bits ≠ 0#w := by
  have hbefore : ∀ bit ∈ bits.take p, bit = false := by
    intro bit hbit
    obtain ⟨i, hi⟩ := List.mem_iff_getElem?.1 hbit
    rw [List.getElem?_take] at hi
    cases bit
    · rfl
    · split at hi
      · have := hwindow i hi
        omega
      · cases hi
  have hafter : ∀ bit ∈ bits.drop (p + w), bit = false := by
    intro bit hbit
    obtain ⟨i, hi⟩ := List.mem_iff_getElem?.1 hbit
    rw [List.getElem?_drop] at hi
    cases bit
    · rfl
    · have := hwindow _ hi
      omega
  have hin : true ∈ (bits.drop p).take w := by
    obtain ⟨i, hi⟩ := List.mem_iff_getElem?.1 hone
    obtain ⟨hp, hw⟩ := hwindow i hi
    apply List.mem_iff_getElem?.2
    refine ⟨i - p, ?_⟩
    rw [List.getElem?_take_of_lt (by omega), List.getElem?_drop, Nat.add_sub_cancel' hp]
    exact hi
  have hsplit : bits = bits.take p ++ ((bits.drop p).take w ++ bits.drop (p + w)) := by
    rw [← List.drop_drop, List.take_append_drop, List.take_append_drop]
  -- Zeros keep the register zero before the burst and nonzero after it.
  intro h0
  rw [hsplit, crcFeeds_append, (crcFeeds_zeros hpoly _ hbefore).2 rfl, crcFeeds_append,
    crcFeeds_zeros hpoly _ hafter] at h0
  exact crcFeeds_ne_zero hpoly (List.length_take_le ..) hin h0

theorem differ_of_xor {xs ys : List Bool} {i : Nat} (h : (List.zipWith xor xs ys)[i]? = some true) :
    xs[i]? ≠ ys[i]? := by
  intro heq
  rw [List.getElem?_zipWith, heq] at h
  cases hy : ys[i]? with
  | none => simp [hy] at h
  | some y => simp [hy] at h

theorem exists_xor {xs ys : List Bool} (hlength : xs.length = ys.length) (h : xs ≠ ys) :
    true ∈ List.zipWith xor xs ys := by
  induction xs generalizing ys with
  | nil => exact absurd (List.length_eq_zero_iff.1 hlength.symm).symm h
  | cons x xs ih =>
    cases ys with
    | nil => cases hlength
    | cons y ys =>
      rw [List.zipWith_cons_cons, List.mem_cons]
      by_cases hxy : x = y
      · subst hxy
        exact .inr (ih (Nat.succ.inj hlength) fun heq => h (heq ▸ rfl))
      · left
        cases x <;> cases y <;> simp at hxy ⊢

/-! ## Byte strings -/

/-- The bits of a byte, the lowest first. -/
def byteBits (b : UInt8) : List Bool := (List.range 8).map b.toBitVec.getLsbD

/-- The bits of a byte string, those of each byte from the lowest. -/
def bits (data : Bytes) : List Bool := data.flatMap byteBits

/-- Two strings of one length that differ, but only within `n` consecutive bits. -/
structure Burst (n : Nat) (data data' : Bytes) : Prop where
  length : data.length = data'.length
  differ : data ≠ data'
  within : ∃ p, ∀ i, (bits data)[i]? ≠ (bits data')[i]? → p ≤ i ∧ i < p + n

@[simp] theorem byteBits_length (b : UInt8) : (byteBits b).length = 8 := rfl

@[simp] theorem bits_cons (b : UInt8) (data : Bytes) : bits (b :: data) = byteBits b ++ bits data := rfl

theorem bits_length (data : Bytes) : (bits data).length = 8 * data.length := by
  induction data with
  | nil => rfl
  | cons b data ih =>
    rw [bits_cons, List.length_append, ih, byteBits_length, List.length_cons]
    omega

theorem byteBits_injective {b b' : UInt8} (h : byteBits b = byteBits b') : b = b' := by
  apply UInt8.toBitVec_inj.1
  apply BitVec.eq_of_getLsbD_eq
  intro i hi
  have := List.map_inj_left.1 h i (List.mem_range.2 hi)
  exact this

theorem bits_injective {data data' : Bytes} (h : bits data = bits data') : data = data' := by
  induction data generalizing data' with
  | nil =>
    have hl := bits_length data'
    rw [← h] at hl
    exact (List.length_eq_zero_iff.1 (by simpa [bits] using hl.symm)).symm
  | cons b data ih =>
    cases data' with
    | nil => cases h
    | cons b' data' =>
      obtain ⟨hb, hdata⟩ := List.append_inj h rfl
      rw [byteBits_injective hb, ih hdata]

theorem crcByte_bits (hw : 8 ≤ w) (poly crc : BitVec w) (b : UInt8) :
    crcByte poly crc b = crcFeeds poly crc (byteBits b) := by
  have hbits : (List.range 8).map (b.toBitVec.setWidth w).getLsbD = byteBits b := by
    apply List.map_congr_left
    intro i hi
    have := List.mem_range.1 hi
    rw [BitVec.getLsbD_setWidth, decide_eq_true (by omega), Bool.true_and]
  have hleft : b.toBitVec.setWidth w >>> 8 = 0#w := by
    apply BitVec.eq_of_getLsbD_eq
    intro i _
    simp
  rw [crcByte, crcBits_word, hbits, hleft, BitVec.xor_zero]

theorem crcUpdate_bits (hw : 8 ≤ w) (poly crc : BitVec w) (data : Bytes) :
    crcUpdate poly crc data = crcFeeds poly crc (bits data) := by
  induction data generalizing crc with
  | nil => rfl
  | cons b data ih =>
    rw [bits_cons, crcFeeds_append, ← crcByte_bits hw]
    exact ih _

theorem crcUpdate_append (poly crc : BitVec w) (data data' : Bytes) :
    crcUpdate poly crc (data ++ data') = crcUpdate poly (crcUpdate poly crc data) data' := List.foldl_append

/-- Feeding the pieces of a string is feeding the string. -/
theorem crcUpdate_flatten (poly crc : BitVec w) (pieces : List Bytes) :
    crcUpdate poly crc pieces.flatten = pieces.foldl (crcUpdate poly) crc := by
  induction pieces generalizing crc with
  | nil => rfl
  | cons piece pieces ih =>
    rw [List.flatten_cons, crcUpdate_append, ih]
    rfl

/-- **No burst as wide as the register goes unnoticed.** -/
theorem crcUpdate_burst (hw : 8 ≤ w) (hpoly : poly.msb = true) {data data' : Bytes} (h : Burst w data data') :
    crcUpdate poly crc data ≠ crcUpdate poly crc data' := by
  obtain ⟨hlength, hdiffer, p, hwithin⟩ := h
  have hbits : (bits data).length = (bits data').length := by rw [bits_length, bits_length, hlength]
  intro heq
  rw [crcUpdate_bits hw, crcUpdate_bits hw] at heq
  have hxor := crcFeeds_xor poly crc crc _ _ hbits
  rw [heq, BitVec.xor_self, BitVec.xor_self] at hxor
  refine crcFeeds_window hpoly (p := p) ?_ ?_ hxor
  · intro i hi
    exact hwithin i (differ_of_xor hi)
  · apply exists_xor hbits
    intro h
    exact hdiffer (bits_injective h)

end Lib
