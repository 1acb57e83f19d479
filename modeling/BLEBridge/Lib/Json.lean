import BLEBridge.Lib.Fixed
/-!
# JSON at byte level

Texts without white space between the tokens, whose strings have only escapes of two
characters: what stands for a string and what it stands for, numbers, and the value
that a whole text denotes.
-/
namespace Lib.Json

/-! ## Strings -/

/-- A byte that stands in a string only behind a backslash. -/
def special (b : UInt8) : Bool := b = 34 ∨ b = 92

/-- What a backslash and `c` stand for. -/
def escaped (c : UInt8) : Option UInt8 :=
  if c = 34 ∨ c = 92 ∨ c = 47 then some c
  else if c = 98 then some 8
  else if c = 102 then some 12
  else if c = 110 then some 10
  else if c = 114 then some 13
  else if c = 116 then some 9
  else none

/-- The text for which the body of a string stands; `none` if it is not one. -/
def unescape : Bytes → Option Bytes
  | [] => some []
  | b :: body =>
    if b < 0x20 ∨ b = 34 then none
    else if b = 92 then
      match body with
      | [] => none
      | c :: rest => do return (← escaped c) :: (← unescape rest)
    else (unescape body).map (b :: ·)

/-- A text without its control characters. -/
def kept (s : Bytes) : Bytes := s.filter (0x20 ≤ ·)

def escapeByte (b : UInt8) : Bytes := if b < 0x20 then [] else if special b then [92, b] else [b]

/-- The body that stands for `kept s`. -/
def escape (s : Bytes) : Bytes := s.flatMap escapeByte

def escapedLength (s : Bytes) : Nat := (kept s).length + s.countP special

theorem escape_cons (b : UInt8) (s : Bytes) : escape (b :: s) = escapeByte b ++ escape s := rfl

theorem escapeByte_control {b : UInt8} (h : b < 0x20) : escapeByte b = [] := if_pos h

theorem not_control_of_special : ∀ {b : UInt8}, special b = true → ¬ b < 0x20 := by
  unfold special
  decide +kernel

theorem escapeByte_special {b : UInt8} (h : special b = true) : escapeByte b = [92, b] := by
  rw [escapeByte, if_neg (not_control_of_special h), if_pos h]

theorem escapeByte_plain {b : UInt8} (hc : ¬ b < 0x20) (hs : special b = false) : escapeByte b = [b] := by
  rw [escapeByte, if_neg hc, hs]
  rfl

theorem escaped_special : ∀ {b : UInt8}, special b = true → escaped b = some b := by
  unfold special escaped
  decide +kernel

theorem kept_control {b : UInt8} (h : b < 0x20) (s : Bytes) : kept (b :: s) = kept s :=
  List.filter_cons_of_neg (by simpa using h)

theorem kept_cons {b : UInt8} (h : ¬ b < 0x20) (s : Bytes) : kept (b :: s) = b :: kept s :=
  List.filter_cons_of_pos (by simpa using h)

theorem kept_append (s t : Bytes) : kept (s ++ t) = kept s ++ kept t := List.filter_append s t

theorem kept_self {s : Bytes} (h : ∀ b ∈ s, 0x20 ≤ b) : kept s = s := List.filter_eq_self.2 fun b hb => by
  simpa using h b hb

/-- A byte that is neither special nor a control character stands for itself. -/
theorem unescape_plain {b : UInt8} (hc : ¬ b < 0x20) (hs : special b = false) (body : Bytes) :
    unescape (b :: body) = (unescape body).map (b :: ·) := by
  simp only [special, Bool.decide_or, Bool.or_eq_false_iff, decide_eq_false_iff_not] at hs
  cases body with
  | nil => simp [unescape, hc, hs]
  | cons c body => rw [unescape, if_neg (not_or.2 ⟨hc, hs.1⟩), if_neg hs.2]

theorem unescape_special {b : UInt8} (h : special b = true) (body : Bytes) :
    unescape (92 :: b :: body) = (unescape body).map (b :: ·) := by
  rw [unescape, if_neg (by decide), if_pos rfl]
  rw [escaped_special h]
  cases unescape body <;> rfl

/-- A quote that is not escaped, or a backslash with nothing after it. -/
theorem unescape_cut : ∀ {b : UInt8}, special b = true → unescape [b] = none := by
  unfold special
  decide +kernel

theorem unescape_escape_append (s body : Bytes) :
    unescape (escape s ++ body) = (unescape body).map (kept s ++ ·) := by
  induction s with
  | nil =>
    change unescape body = (unescape body).map id
    rw [Option.map_id_fun, id]
  | cons b s ih =>
    rw [escape_cons, List.append_assoc]
    by_cases hc : b < 0x20
    · rw [escapeByte_control hc, kept_control hc, List.nil_append, ih]
    rw [kept_cons hc]
    have hmap : (unescape (escape s ++ body)).map (b :: ·) = (unescape body).map (b :: kept s ++ ·) := by
      rw [ih, Option.map_map]
      rfl
    rw [← hmap]
    cases hs : special b with
    | true =>
      rw [escapeByte_special hs]
      exact unescape_special hs _
    | false =>
      rw [escapeByte_plain hc hs]
      exact unescape_plain hc hs _

theorem unescape_escape (s : Bytes) : unescape (escape s) = some (kept s) := by
  have happend := unescape_escape_append s []
  rw [List.append_nil] at happend
  rw [happend]
  simp [unescape]

theorem escape_self {s : Bytes} (h : ∀ b ∈ s, 0x20 ≤ b ∧ special b = false) : escape s = s := by
  induction s with
  | nil => rfl
  | cons b s ih =>
    obtain ⟨hc, hs⟩ := h b List.mem_cons_self
    rw [escape_cons, escapeByte_plain (UInt8.not_lt.2 hc) hs, ih fun c hcs => h c (List.mem_cons_of_mem _ hcs)]
    rfl

/-- A text that needs no escapes stands for itself. -/
theorem unescape_self {s : Bytes} (h : ∀ b ∈ s, 0x20 ≤ b ∧ special b = false) : unescape s = some s := by
  have hself := unescape_escape s
  rwa [escape_self h, kept_self fun b hb => (h b hb).1] at hself

theorem zero_not_mem_escape (s : Bytes) : 0 ∉ escape s := by
  intro h
  obtain ⟨b, -, hb⟩ := List.mem_flatMap.1 h
  unfold escapeByte at hb
  split at hb
  · exact List.not_mem_nil hb
  rename_i hc
  split at hb
  · rcases List.mem_cons.1 hb with h0 | h0
    · cases h0
    · exact hc (List.mem_singleton.1 h0 ▸ by decide)
  · exact hc (List.mem_singleton.1 hb ▸ by decide)

/-- Hexadecimal digits need no escapes. -/
theorem plain_of_isxdigit : ∀ b : UInt8, isxdigit b = true → 0x20 ≤ b ∧ special b = false := by
  unfold special
  decide +kernel

theorem plain_of_isdigit : ∀ b : UInt8, isdigit b = true → 0x20 ≤ b ∧ special b = false := by
  unfold special
  decide +kernel

theorem length_escape (s : Bytes) : (escape s).length = escapedLength s := by
  induction s with
  | nil => rfl
  | cons b s ih =>
    unfold escapedLength at ih ⊢
    rw [escape_cons, List.length_append, ih, List.countP_cons]
    by_cases hc : b < 0x20
    · have hs : ¬ special b = true := fun hs => not_control_of_special hs hc
      rw [escapeByte_control hc, kept_control hc, if_neg hs, List.length_nil]
      omega
    rw [kept_cons hc, List.length_cons]
    cases hs : special b with
    | true =>
      rw [escapeByte_special hs, if_pos rfl]
      simp only [List.length_cons, List.length_nil]
      omega
    | false =>
      rw [escapeByte_plain hc hs, if_neg Bool.false_ne_true]
      simp only [List.length_cons, List.length_nil]
      omega

theorem escapedLength_le (s : Bytes) : escapedLength s ≤ 2 * s.length := by
  have hkept : (kept s).length ≤ s.length := List.length_filter_le _ _
  have hspecial : s.countP special ≤ s.length := List.countP_le_length
  unfold escapedLength
  omega

/-! ## Numbers -/

/-- The digits of a whole number, without a zero in front. -/
structure WholeDigits (s : Bytes) : Prop where
  ne_nil : s ≠ []
  digits : ∀ b ∈ s, isdigit b = true
  leading : s.head? = some 48 → s = [48]

/-- A number without an exponent. -/
inductive IsNumber : Bytes → Prop
  | whole {s : Bytes} (h : WholeDigits s) : IsNumber s
  | fraction {s ds : Bytes} (h : WholeDigits s) (hne : ds ≠ []) (hds : ∀ b ∈ ds, isdigit b = true) :
      IsNumber (s ++ 46 :: ds)
  | negative {s : Bytes} (h : WholeDigits s) : IsNumber (45 :: s)
  | negativeFraction {s ds : Bytes} (h : WholeDigits s) (hne : ds ≠ []) (hds : ∀ b ∈ ds, isdigit b = true) :
      IsNumber (45 :: s ++ 46 :: ds)

theorem wholeDigits_decimal (n : Nat) : WholeDigits (decimal n) where
  ne_nil := decimal_ne_nil n
  digits := isdigit_decimal n
  leading h := by
    rcases decimal_head n with h0 | ⟨b, r, hbr, hb⟩
    · exact h0
    · rw [hbr, List.head?_cons] at h
      exact absurd (Option.some.inj h) hb

theorem isdigit_padded (width n : Nat) : ∀ b ∈ padded width n, isdigit b = true := by
  intro b hb
  rcases List.mem_append.1 hb with h | h
  · rw [List.eq_of_mem_replicate h]
    decide
  · exact isdigit_decimal n b h

theorem isNumber_decimal (n : Nat) : IsNumber (decimal n) := .whole (wholeDigits_decimal n)

theorem isNumber_signedDecimal (i : Int) : IsNumber (signedDecimal i) := by
  unfold signedDecimal
  split
  · exact .negative (wholeDigits_decimal _)
  · exact isNumber_decimal _

theorem isNumber_fixedText (digits : Nat) (q : ℚ) : IsNumber (fixedText digits q) := by
  have hne (width n : Nat) : padded width n ≠ [] := fun h => decimal_ne_nil n (List.append_eq_nil_iff.1 h).2
  unfold fixedText
  dsimp only
  generalize roundHalfEven (q.num.natAbs * 10 ^ digits) q.den = scaled
  have hint := wholeDigits_decimal (scaled / 10 ^ digits)
  have hfrac := isdigit_padded digits (scaled % 10 ^ digits)
  by_cases hneg : q < 0
  · rw [if_pos hneg]
    by_cases h0 : digits = 0
    · rw [if_pos h0, List.append_nil]
      exact .negative hint
    · rw [if_neg h0]
      exact .negativeFraction hint (hne _ _) hfrac
  · rw [if_neg hneg]
    by_cases h0 : digits = 0
    · rw [if_pos h0, List.append_nil]
      exact .whole hint
    · rw [if_neg h0]
      exact .fraction hint (hne _ _) hfrac

/-! ## Values -/

inductive Value where
  | bool (b : Bool)
  | number (text : Bytes)
  | string (s : Bytes)
  | array (items : List Value)
  | object (members : List (Bytes × Value))

/-- Texts with commas between them. -/
def joined (texts : List Bytes) : Bytes := List.intercalate [44] texts

def quoted (body : Bytes) : Bytes := 34 :: body ++ [34]

def boolText (b : Bool) : Bytes := if b then ascii "true" else ascii "false"

/-- A member of an object, by its key, the text of its value and the value. -/
structure Member where
  key : Bytes
  text : Bytes
  value : Value

/-- A string member by its body and by the text that it stands for. -/
def Member.string (key body s : Bytes) : Member := ⟨key, quoted body, .string s⟩

def Member.number (key text : Bytes) : Member := ⟨key, text, .number text⟩

def Member.bool (key : Bytes) (b : Bool) : Member := ⟨key, boolText b, .bool b⟩

def objectText (members : List Member) : Bytes :=
  123 :: joined (members.map fun m => quoted m.key ++ 58 :: m.text) ++ [125]

/-- `text` is a JSON text that denotes `value`. -/
inductive Denotes : Bytes → Value → Prop
  | bool (b : Bool) : Denotes (boolText b) (.bool b)
  | number {text : Bytes} (h : IsNumber text) : Denotes text (.number text)
  | string {body s : Bytes} (h : unescape body = some s) : Denotes (quoted body) (.string s)
  | array {items : List (Bytes × Value)} (h : ∀ i ∈ items, Denotes i.1 i.2) :
      Denotes (91 :: joined (items.map Prod.fst) ++ [93]) (.array (items.map Prod.snd))
  | object {members : List Member} (hkeys : ∀ m ∈ members, unescape m.key = some m.key)
      (h : ∀ m ∈ members, Denotes m.text m.value) :
      Denotes (objectText members) (.object (members.map fun m => (m.key, m.value)))

attribute [simp] joined quoted boolText Member.string Member.number Member.bool objectText

/-- A member whose key stands for itself, and whose text denotes its value. -/
structure Member.Sound (m : Member) : Prop where
  key : unescape m.key = some m.key
  text : Denotes m.text m.value

theorem Member.Sound.ofString {key body s : Bytes} (hkey : unescape key = some key) (h : unescape body = some s) :
    (Member.string key body s).Sound := ⟨hkey, .string h⟩

theorem Member.Sound.ofNumber {key text : Bytes} (hkey : unescape key = some key) (h : IsNumber text) :
    (Member.number key text).Sound := ⟨hkey, .number h⟩

theorem Member.Sound.ofBool {key : Bytes} (hkey : unescape key = some key) (b : Bool) :
    (Member.bool key b).Sound := ⟨hkey, .bool b⟩

/-- The value of an object with these members. -/
def objectValue (members : List Member) : Value := .object (members.map fun m => (m.key, m.value))

theorem denotes_objectText {members : List Member} (h : ∀ m ∈ members, m.Sound) :
    Denotes (objectText members) (objectValue members) :=
  .object (fun m hm => (h m hm).key) fun m hm => (h m hm).text

/-- Texts in brackets, with commas between them. -/
theorem denotes_joined {I : Type} {text : I → Bytes} {value : I → Value} {items : List I}
    (h : ∀ i ∈ items, Denotes (text i) (value i)) :
    Denotes (91 :: joined (items.map text) ++ [93]) (.array (items.map value)) := by
  have hpairs : ∀ p ∈ items.map fun i => (text i, value i), Denotes p.1 p.2 := by
    intro p hp
    obtain ⟨i, hi, rfl⟩ := List.mem_map.1 hp
    exact h i hi
  have harray := Denotes.array hpairs
  rw [List.map_map, List.map_map] at harray
  exact harray

theorem joined_concat {texts : List Bytes} (h : texts ≠ []) (text : Bytes) :
    joined (texts ++ [text]) = joined texts ++ 44 :: text := by
  induction texts with
  | nil => exact absurd rfl h
  | cons t texts ih =>
    cases texts with
    | nil => simp [joined]
    | cons u texts =>
      have hrest := ih (List.cons_ne_nil u texts)
      simp only [joined, List.cons_append, List.intercalate_cons_cons] at hrest ⊢
      rw [hrest]
      simp only [List.append_assoc]

theorem length_joined_le {texts : List Bytes} {k : Nat} (h : ∀ t ∈ texts, t.length < k) :
    (joined texts).length ≤ texts.length * k := by
  induction texts with
  | nil => exact Nat.zero_le _
  | cons t texts ih =>
    have ht := h t List.mem_cons_self
    have hrest := ih fun u hu => h u (List.mem_cons_of_mem _ hu)
    rw [List.length_cons, Nat.succ_mul]
    cases texts with
    | nil =>
      simp only [joined, List.intercalate_singleton]
      omega
    | cons u texts =>
      simp only [joined, List.intercalate_cons_cons, List.length_append, List.length_singleton] at hrest ⊢
      omega

theorem length_objectText_le {members : List Member} {k : Nat}
    (h : ∀ m ∈ members, m.key.length + m.text.length + 3 < k) :
    (objectText members).length ≤ members.length * k + 2 := by
  have hjoined := @length_joined_le (members.map fun m => quoted m.key ++ 58 :: m.text) k
  rw [List.length_map] at hjoined
  rw [objectText, List.length_append, List.length_cons, List.length_singleton]
  refine Nat.succ_le_succ (Nat.succ_le_succ (hjoined fun t ht => ?_))
  obtain ⟨m, hm, rfl⟩ := List.mem_map.1 ht
  have hlen := h m hm
  simp only [quoted, List.length_append, List.length_cons, List.length_nil]
  omega

end Lib.Json
