import BLEBridge.Lib.Bytes
/-!
# C text

Character classes of the C locale, trimming, text buffers of a fixed size, and
numbers in decimal. A `CString cap` is what a `char[cap]` holds as a string:
it ends before the first NUL and leaves room for one.
-/

namespace Lib

/-- The bytes of an ASCII literal. -/
def ascii (s : String) : Bytes := s.toList.map fun c => UInt8.ofNat c.toNat

def isspace (b : UInt8) : Bool := b = 32 ∨ 9 ≤ b ∧ b ≤ 13

def isdigit (b : UInt8) : Bool := 48 ≤ b ∧ b ≤ 57

def isxdigit (b : UInt8) : Bool := isdigit b ∨ 65 ≤ b ∧ b ≤ 70 ∨ 97 ≤ b ∧ b ≤ 102

def toupper (b : UInt8) : UInt8 := if 97 ≤ b ∧ b ≤ 122 then b - 32 else b

/-- The string that a byte array holds. -/
def cstr (b : Bytes) : Bytes := b.takeWhile (· ≠ 0)

def trimLeft (s : Bytes) : Bytes := s.dropWhile isspace

def trimRight (s : Bytes) : Bytes := s.rdropWhile isspace

/-- No white space at either end. -/
structure Trimmed (s : Bytes) : Prop where
  left : trimLeft s = s
  right : trimRight s = s

/-- A text without control characters, and without white space at either end. -/
structure PlainText (s : Bytes) : Prop where
  trimmed : Trimmed s
  printable : ∀ b ∈ s, 0x20 ≤ b

/-- A text without line breaks. -/
def OneLine (s : Bytes) : Prop := 10 ∉ s ∧ 13 ∉ s

/-- A string in a buffer of `cap` bytes. -/
@[ext] structure CString (cap : Nat) where
  bytes : Bytes
  noNul : 0 ∉ bytes
  fits : bytes.length ≤ cap - 1
  deriving DecidableEq

theorem zero_not_mem_cstr (b : Bytes) : 0 ∉ cstr b := fun h => by simpa using List.mem_takeWhile_imp h

/-- `snprintf(buffer, cap, "%s", s)`: cut to the buffer. -/
def CString.copy (cap : Nat) (s : Bytes) : CString cap where
  bytes := (cstr s).take (cap - 1)
  noNul h := zero_not_mem_cstr s (List.mem_of_mem_take h)
  fits := by rw [List.length_take]; exact min_le_left _ _

/-- `%u` -/
def decimal (n : Nat) : Bytes :=
  if n = 0 then [48] else ((Nat.digits 10 n).map fun d => UInt8.ofNat (48 + d)).reverse

/-- The number that a string of digits denotes. -/
def digitsValue (base : Nat) (s : Bytes) : Nat :=
  s.foldl (fun n b => base * n + if isdigit b then b.toNat - 48 else (toupper b).toNat - 55) 0

/-- The rest after white space, and whether there is a minus sign before it. -/
def signed (s : Bytes) : Bool × Bytes :=
  match trimLeft s with
  | 45 :: r => (true, r)
  | 43 :: r => (false, r)
  | r => (false, r)

/-- `strtol(s, &end, 10)` with 32-bit `long`; `none` when `end == s`. -/
def strtol10 (s : Bytes) : Option Int :=
  let ds := (signed s).2.takeWhile isdigit
  if ds = [] then none
  else if (signed s).1 then some (max (-(digitsValue 10 ds : Int)) (-(2 ^ 31)))
  else some (min (digitsValue 10 ds : Int) (2 ^ 31 - 1))

/-- `strtoul(s, NULL, 0)` with 32-bit `unsigned long`. -/
def strtoul0 (s : Bytes) : Nat :=
  let n := match (signed s).2 with
    | 48 :: 120 :: r | 48 :: 88 :: r => digitsValue 16 (r.takeWhile isxdigit)
    | 48 :: r => digitsValue 8 (r.takeWhile fun b => 48 ≤ b ∧ b ≤ 55)
    | r => digitsValue 10 (r.takeWhile isdigit)
  if n ≥ 2 ^ 32 then 2 ^ 32 - 1 else if (signed s).1 then (2 ^ 32 - n) % 2 ^ 32 else n

/-- `strtoul(s, NULL, 10)` with 32-bit `unsigned long`. -/
def strtoulDec (s : Bytes) : Nat :=
  let n := digitsValue 10 ((signed s).2.takeWhile isdigit)
  if n ≥ 2 ^ 32 then 2 ^ 32 - 1 else if (signed s).1 then (2 ^ 32 - n) % 2 ^ 32 else n

@[simp] theorem ascii_length (s : String) : (ascii s).length = s.toList.length := List.length_map _

/-- `rw` applies this to a literal, whose bytes then need no decoding. -/
theorem ascii_ofList (l : List Char) : ascii (String.ofList l) = l.map fun c => UInt8.ofNat c.toNat := by
  rw [ascii, String.toList_ofList]

/-! ## Trimming -/

theorem trimLeft_eq_self_iff (s : Bytes) : trimLeft s = s ↔ ∀ b, s.head? = some b → isspace b = false := by
  cases s with
  | nil => simp [trimLeft]
  | cons b s =>
    simp only [trimLeft, List.dropWhile_eq_self_iff, List.getElem_cons_zero, List.head?_cons, Option.some.injEq,
      Bool.not_eq_true]
    exact ⟨fun h c hc => hc ▸ h (Nat.succ_pos _), fun h _ => h b rfl⟩

theorem trimRight_eq_self_iff (s : Bytes) : trimRight s = s ↔ ∀ b, s.getLast? = some b → isspace b = false := by
  rw [trimRight, List.rdropWhile_eq_self_iff]
  constructor
  · intro h b hb
    obtain ⟨hne, rfl⟩ := List.mem_getLast?_eq_getLast hb
    simpa using h hne
  · intro h hne
    simpa using h _ (List.getLast?_eq_some_getLast hne)

theorem trimRight_length_le (s : Bytes) : (trimRight s).length ≤ s.length :=
  (List.rdropWhile_prefix _ _).length_le

theorem Trimmed.trim {s : Bytes} (h : Trimmed s) : trimRight (trimLeft s) = s := by rw [h.left, h.right]

/-- A text that trimming leaves alone is trimmed. -/
theorem trimmed_of_trim {s : Bytes} (h : trimRight (trimLeft s) = s) : Trimmed s := by
  have h1 := trimRight_length_le (trimLeft s)
  have hl : trimLeft s = s :=
    (List.dropWhile_suffix isspace).eq_of_length_le (by rw [h] at h1; exact h1)
  exact ⟨hl, by rwa [hl] at h⟩

theorem trim_sublist (s : Bytes) : List.Sublist (trimRight (trimLeft s)) s :=
  (List.rdropWhile_prefix _ _).sublist.trans (List.dropWhile_suffix _).sublist

theorem trimLeft_append {s : Bytes} (h : trimLeft s = s) (hne : s ≠ []) (t : Bytes) :
    trimLeft (s ++ t) = s ++ t := by
  rw [trimLeft_eq_self_iff] at h ⊢
  obtain ⟨b, s, rfl⟩ := List.exists_cons_of_ne_nil hne
  exact h

theorem trimRight_append {t : Bytes} (h : trimRight t = t) (hne : t ≠ []) (s : Bytes) :
    trimRight (s ++ t) = s ++ t := by
  rw [trimRight_eq_self_iff] at h ⊢
  rwa [List.getLast?_append_of_ne_nil _ hne]

theorem trimRight_concat (s : Bytes) (b : UInt8) : trimRight (s ++ [b]) = if isspace b then trimRight s
    else s ++ [b] := by
  unfold trimRight
  rw [List.rdropWhile_concat]

theorem trimRight_cons_eq (b : UInt8) (s : Bytes) :
    trimRight (b :: s) = if trimRight s = [] ∧ isspace b = true then [] else b :: trimRight s := by
  induction s using List.reverseRecOn with
  | nil =>
    have h := trimRight_concat [] b
    rw [List.nil_append] at h
    rw [h]
    cases isspace b <;> rfl
  | append_singleton s c ih =>
    rw [← List.cons_append, trimRight_concat, trimRight_concat]
    cases isspace c with
    | true => exact ih
    | false => simp

/-- The two ends can be trimmed in either order. -/
theorem trimLeft_trimRight (s : Bytes) : trimLeft (trimRight s) = trimRight (trimLeft s) := by
  induction s with
  | nil => rfl
  | cons b s ih =>
    have hleft : trimLeft (b :: s) = if isspace b then trimLeft s else b :: s := by
      unfold trimLeft
      rw [List.dropWhile_cons]
    rw [hleft, trimRight_cons_eq]
    cases hb : isspace b with
    | false =>
      simp [trimRight_cons_eq, hb, trimLeft]
    | true =>
      rw [if_pos rfl, ← ih]
      split
      · rename_i h
        rw [h.1]
      · unfold trimLeft
        rw [List.dropWhile_cons, if_pos hb]

theorem trimRight_idem (s : Bytes) : trimRight (trimRight s) = trimRight s := by
  unfold trimRight
  exact List.rdropWhile_idempotent isspace s

theorem trimLeft_idem (s : Bytes) : trimLeft (trimLeft s) = trimLeft s := by
  unfold trimLeft
  exact List.dropWhile_idempotent isspace s

theorem trimmed_trim (s : Bytes) : Trimmed (trimRight (trimLeft s)) := by
  constructor
  · rw [trimLeft_trimRight, trimLeft_idem]
  · exact trimRight_idem _

theorem trim_trimRight (s : Bytes) : trimRight (trimLeft (trimRight s)) = trimRight (trimLeft s) := by
  rw [← trimLeft_trimRight, trimRight_idem, trimLeft_trimRight]

/-- What comes before a byte that is no white space stays. -/
theorem trimRight_append_cons {b : UInt8} (hb : isspace b = false) (s t : Bytes) :
    trimRight (s ++ b :: t) = s ++ b :: trimRight t := by
  induction s with
  | nil =>
    rw [List.nil_append, trimRight_cons_eq, if_neg fun h => Bool.false_ne_true (hb.symm.trans h.2)]
    rfl
  | cons c s ih =>
    rw [List.cons_append, trimRight_cons_eq, ih, if_neg fun h => by simp at h]
    rfl

/-! ## Buffers -/

theorem cstr_of_noNul {s : Bytes} (h : 0 ∉ s) : cstr s = s :=
  List.takeWhile_eq_self_iff.2 fun b hb => by simpa using fun h0 : b = 0 => h (h0 ▸ hb)

theorem copy_bytes {cap : Nat} {s : Bytes} (h : 0 ∉ s) (hl : s.length ≤ cap - 1) :
    (CString.copy cap s).bytes = s := by
  simp only [CString.copy, cstr_of_noNul h, List.take_of_length_le hl]

theorem copy_sublist (cap : Nat) (s : Bytes) : List.Sublist (CString.copy cap s).bytes s :=
  (List.take_sublist _ _).trans (List.takeWhile_sublist _)

theorem OneLine.of_subset {s t : Bytes} (h : OneLine t) (hs : s ⊆ t) : OneLine s :=
  ⟨fun h10 => h.1 (hs h10), fun h13 => h.2 (hs h13)⟩

theorem copy_self {cap : Nat} (s : CString cap) : CString.copy cap s.bytes = s :=
  CString.ext (copy_bytes s.noNul s.fits)

/-! ## Decimal numbers -/

theorem decimal_of_lt {n : Nat} (h : n < 10) : decimal n = [UInt8.ofNat (48 + n)] := by
  interval_cases n <;> rfl

theorem decimal_of_ge {n : Nat} (h : 10 ≤ n) : decimal n = decimal (n / 10) ++ [UInt8.ofNat (48 + n % 10)] := by
  rw [decimal, decimal, if_neg (by omega), if_neg (by omega), Nat.digits_def' (by omega) (by omega),
    List.map_cons,
    List.reverse_cons]

/-- The digits of a number, by its recursion. -/
theorem decimal_induction {P : Nat → Prop} (h0 : ∀ n < 10, P n) (hs : ∀ n, 10 ≤ n → P (n / 10) → P n)
    (n : Nat) : P n := by
  induction n using Nat.strong_induction_on with
  | _ n ih =>
    by_cases h : n < 10
    · exact h0 n h
    · exact hs n (by omega) (ih _ (by omega))

theorem isdigit_ofNat {d : Nat} (h : d < 10) : isdigit (UInt8.ofNat (48 + d)) = true := by
  interval_cases d <;> rfl

theorem isdigit_decimal (n : Nat) : ∀ b ∈ decimal n, isdigit b = true := by
  induction n using decimal_induction with
  | h0 n h =>
    rw [decimal_of_lt h]
    simp only [List.mem_singleton, forall_eq]
    exact isdigit_ofNat h
  | hs n h ih =>
    rw [decimal_of_ge h]
    intro b hb
    rcases List.mem_append.1 hb with hb | hb
    · exact ih b hb
    · rw [List.mem_singleton.1 hb]
      exact isdigit_ofNat (Nat.mod_lt _ (by omega))

theorem decimal_ne_nil (n : Nat) : decimal n ≠ [] := by
  by_cases h : n < 10
  · rw [decimal_of_lt h]; simp
  · rw [decimal_of_ge (by omega)]; simp

theorem digitsValue_append (base : Nat) (s : Bytes) (b : UInt8) (h : isdigit b = true) :
    digitsValue base (s ++ [b]) = base * digitsValue base s + (b.toNat - 48) := by
  rw [digitsValue, List.foldl_append, List.foldl_cons, List.foldl_nil, if_pos h, digitsValue]

theorem toNat_digit {d : Nat} (h : d < 10) : (UInt8.ofNat (48 + d)).toNat - 48 = d := by
  interval_cases d <;> rfl

/-- Reading back what was printed. -/
theorem digitsValue_decimal (n : Nat) : digitsValue 10 (decimal n) = n := by
  induction n using decimal_induction with
  | h0 n h =>
    rw [decimal_of_lt h, ← List.nil_append [UInt8.ofNat (48 + n)], digitsValue_append _ _ _ (isdigit_ofNat h),
      toNat_digit h]
    simp [digitsValue]
  | hs n h ih =>
    have hd : n % 10 < 10 := Nat.mod_lt _ (by omega)
    rw [decimal_of_ge h, digitsValue_append _ _ _ (isdigit_ofNat hd), ih, toNat_digit hd]
    omega

theorem decimal_injective : Function.Injective decimal := fun a b h => by
  rw [← digitsValue_decimal a, h, digitsValue_decimal]

theorem decimal_length_le {n k : Nat} (hk : 0 < k) (h : n < 10 ^ k) : (decimal n).length ≤ k := by
  induction k generalizing n with
  | zero => omega
  | succ k ih =>
    by_cases hn : n < 10
    · rw [decimal_of_lt hn]; simp
    · rw [decimal_of_ge (by omega), List.length_append, List.length_singleton]
      have hk' : 0 < k := by
        by_contra hk0
        obtain rfl : k = 0 := by omega
        omega
      have := ih hk' (show n / 10 < 10 ^ k from (Nat.div_lt_iff_lt_mul (by omega)).2 (by rwa [← pow_succ]))
      omega

theorem not_isspace_of_isdigit {b : UInt8} (h : isdigit b = true) : isspace b = false := by
  simp only [isdigit, isspace, decide_eq_true_eq, decide_eq_false_iff_not] at h ⊢
  simp only [UInt8.le_iff_toNat_le, ← UInt8.toNat_inj] at h ⊢
  simp at h ⊢
  omega

theorem trimmed_of_digits {s : Bytes} (h : ∀ b ∈ s, isdigit b = true) : Trimmed s :=
  ⟨(trimLeft_eq_self_iff s).2 fun b hb => not_isspace_of_isdigit (h b (List.mem_of_mem_head? hb)),
    (trimRight_eq_self_iff s).2 fun b hb => not_isspace_of_isdigit (h b (List.mem_of_mem_getLast? hb))⟩

theorem signed_of_digits {s : Bytes} (h : ∀ b ∈ s, isdigit b = true) : signed s = (false, s) := by
  rw [signed, (trimmed_of_digits h).left]
  split
  · exact absurd (h 45 List.mem_cons_self) (by decide)
  · exact absurd (h 43 List.mem_cons_self) (by decide)
  · rfl

theorem takeWhile_digits {s : Bytes} (h : ∀ b ∈ s, isdigit b = true) : s.takeWhile isdigit = s :=
  List.takeWhile_eq_self_iff.2 h

theorem strtol10_decimal {n : Nat} (h : n < 2 ^ 31) : strtol10 (decimal n) = some (n : Int) := by
  have hd := isdigit_decimal n
  rw [strtol10, signed_of_digits hd]
  simp only [takeWhile_digits hd, decimal_ne_nil, if_false, Bool.false_eq_true, digitsValue_decimal]
  rw [min_eq_left (by omega)]

/-- A number of more than one digit does not start with a zero. -/
theorem decimal_head (n : Nat) : decimal n = [48] ∨ ∃ b r, decimal n = b :: r ∧ b ≠ 48 := by
  induction n using decimal_induction with
  | h0 n h =>
    interval_cases n
    · exact .inl rfl
    all_goals exact .inr ⟨_, _, rfl, by decide⟩
  | hs n h ih =>
    rw [decimal_of_ge h]
    rcases ih with ih | ⟨b, r, ih, hb⟩
    · have := congrArg (digitsValue 10) ih
      rw [digitsValue_decimal] at this
      have h0 : n / 10 = 0 := this
      omega
    · exact .inr ⟨b, r ++ [UInt8.ofNat (48 + n % 10)], by rw [ih, List.cons_append], hb⟩

theorem strtoul0_decimal {n : Nat} (h : n < 2 ^ 32) : strtoul0 (decimal n) = n := by
  have hd := isdigit_decimal n
  have hv := digitsValue_decimal n
  rw [strtoul0, signed_of_digits hd]
  rcases decimal_head n with h0 | ⟨b, r, hbr, hb⟩
  · rw [h0] at hv ⊢
    exact hv
  · rw [hbr] at hd hv ⊢
    simp only
    split
    · rename_i he; simp only [List.cons.injEq] at he; exact absurd he.1 hb
    · rename_i he; simp only [List.cons.injEq] at he; exact absurd he.1 hb
    · rename_i he; simp only [List.cons.injEq] at he; exact absurd he.1 hb
    · rw [takeWhile_digits hd, hv, if_neg (by omega)]
      rfl

end Lib
