import BLEBridge.AppWeb
/-!
# Numbers in a query

`app_web_query_u32` character by character, with a `strtoul` that reads on past
the item: it returns what `appWebQueryU32` does. The check of the range never
fails for a 32-bit `unsigned long`, and neither white space nor a sign stops
`strtoul`, so some values that are no number below 2^32 are taken.
-/
open Lib

namespace BLEBridge

def UINT32_MAX : Nat := 2 ^ 32 - 1

/-- `strtoul(s, &end, 10)` with 32-bit `unsigned long`: the number and what
`end` points at. -/
def strtoul (s : Bytes) : Nat × Bytes :=
  let digits := (signed s).2.takeWhile isdigit
  if digits = [] then (0, s) else (strtoulDec s, (signed s).2.drop digits.length)

/-- The loop of `app_web_query_u32`. -/
def appWebQueryLoop (name query : Bytes) : Option Nat :=
  if query = [] then none
  else
    let itemLen := (query.takeWhile (· ≠ 38)).length
    if itemLen > name.length ∧ query.take name.length = name ∧ query.getD name.length 0 = 61 then
      let start := query.drop (name.length + 1)
      let (parsed, rest) := strtoul start
      if rest.length = start.length ∨ rest.length ≠ query.length - itemLen ∨ parsed > UINT32_MAX then none
      else some parsed
    else
      match _hnext : query.drop itemLen with
      | [] => none
      | _ :: next => appWebQueryLoop name next
termination_by query.length
decreasing_by
  have hlength := congrArg List.length _hnext
  rw [List.length_drop, List.length_cons] at hlength
  omega

/-- `app_web_query_u32`, from the question mark on. -/
def appWebQuery (uri name : Bytes) : Option Nat :=
  match uri.dropWhile (· ≠ 63) with
  | [] => none
  | _ :: query => appWebQueryLoop name query

/-! ## What `strtoul` takes -/

/-- What follows a value in a query. -/
def ItemEnd (next : Bytes) : Prop := next = [] ∨ ∃ rest, next = 38 :: rest

variable {next : Bytes}

theorem ItemEnd.trimLeft (h : ItemEnd next) (value : Bytes) :
    trimLeft (value ++ next) = trimLeft value ++ next := by
  have hnext : Lib.trimLeft next = next := by
    obtain rfl | ⟨rest, rfl⟩ := h
    · rfl
    · exact List.dropWhile_cons_of_neg (by decide)
  unfold Lib.trimLeft at hnext ⊢
  rw [List.dropWhile_append]
  split
  · rename_i hempty
    rw [hnext, List.isEmpty_iff.1 hempty, List.nil_append]
  · rfl

theorem ItemEnd.takeWhile (h : ItemEnd next) (value : Bytes) :
    (value ++ next).takeWhile isdigit = value.takeWhile isdigit := by
  have hnext : next.takeWhile isdigit = [] := by
    obtain rfl | ⟨rest, rfl⟩ := h
    · rfl
    · exact List.takeWhile_cons_of_neg (by decide)
  induction value with
  | nil => exact hnext
  | cons b value ih => rw [List.cons_append, List.takeWhile_cons, List.takeWhile_cons, ih]

/-- Only the first character after white space can be a sign. -/
theorem signed_cons {s rest : Bytes} {b : UInt8} (h : trimLeft s = b :: rest) :
    signed s = if b = 45 then (true, rest) else if b = 43 then (false, rest) else (false, b :: rest) := by
  unfold signed
  rw [h]
  by_cases hminus : b = 45
  · subst hminus
    rfl
  · by_cases hplus : b = 43
    · subst hplus
      rfl
    · simp [hminus, hplus]

theorem ItemEnd.signed (h : ItemEnd next) (value : Bytes) :
    signed (value ++ next) = ((signed value).1, (signed value).2 ++ next) := by
  cases hvalue : Lib.trimLeft value with
  | nil =>
    unfold Lib.signed
    rw [h.trimLeft, hvalue]
    obtain rfl | ⟨rest, rfl⟩ := h
    · rfl
    · rfl
  | cons b rest =>
    have hnext : Lib.trimLeft (value ++ next) = b :: (rest ++ next) := by
      rw [h.trimLeft, hvalue, List.cons_append]
    rw [signed_cons hvalue, signed_cons hnext]
    split
    · rfl
    · split <;> rfl

theorem strtoul_item (h : ItemEnd next) (value : Bytes) :
    strtoul (value ++ next) =
      if (signed value).2.takeWhile isdigit = [] then (0, value ++ next)
      else (strtoulDec value, (signed value).2.drop ((signed value).2.takeWhile isdigit).length ++ next) := by
  have hdec : strtoulDec (value ++ next) = strtoulDec value := by
    unfold strtoulDec
    rw [h.signed, h.takeWhile]
  unfold strtoul
  rw [h.signed]
  dsimp only
  rw [h.takeWhile, hdec, List.drop_append_of_le_length (List.takeWhile_prefix _).length_le]

theorem strtoulDec_le (s : Bytes) : strtoulDec s ≤ UINT32_MAX := by
  unfold strtoulDec UINT32_MAX
  dsimp only
  split
  · exact le_rfl
  · split <;> omega

theorem signed_length_le (s : Bytes) : (signed s).2.length ≤ s.length := by
  have hle : (trimLeft s).length ≤ s.length := (List.dropWhile_suffix isspace).length_le
  unfold signed
  split
  · rename_i heq
    rw [heq, List.length_cons] at hle
    exact (Nat.le_succ _).trans hle
  · rename_i heq
    rw [heq, List.length_cons] at hle
    exact (Nat.le_succ _).trans hle
  · exact hle

/-- The test on `end` asks for digits up to the end of the item. The test on the
range asks for nothing. -/
theorem parsed_item (h : ItemEnd next) (value : Bytes) :
    (if (strtoul (value ++ next)).2.length = (value ++ next).length ∨
      (strtoul (value ++ next)).2.length ≠ next.length ∨
        (strtoul (value ++ next)).1 > UINT32_MAX then none else some (strtoul (value ++ next)).1) =
          strtoul10 value := by
  have hrest : (signed value).2.takeWhile isdigit = (signed value).2 ↔ (signed value).2.all isdigit = true := by
    rw [List.takeWhile_eq_self_iff, List.all_eq_true]
  have hlength := signed_length_le value
  have hinit := List.takeWhile_prefix (l := (signed value).2) isdigit
  rw [strtoul_item h]
  unfold strtoul10
  generalize hdigits : (signed value).2.takeWhile isdigit = digits at hrest hinit
  by_cases hnil : digits = []
  -- No digits: `end` is the start of the value.
  · rw [if_pos hnil, if_pos (.inl rfl), if_pos]
    by_cases hempty : (signed value).2 = []
    · exact .inl hempty
    · refine .inr fun hall => hempty ?_
      rw [← hrest.2 hall, hnil]
  · have hpos : 0 < digits.length := List.length_pos_of_ne_nil hnil
    have hle := hinit.length_le
    rw [if_neg hnil]
    dsimp only
    rw [List.length_append, List.length_append, List.length_drop]
    -- Only a value of nothing but digits is read up to the end of the item.
    by_cases hall : (signed value).2.all isdigit = true
    · have heq := hrest.2 hall
      have hmax := strtoulDec_le value
      have hsome : ¬((signed value).2 = [] ∨ ¬(signed value).2.all isdigit = true) :=
        not_or.2 ⟨fun hempty => hnil (heq.trans hempty), not_not.2 hall⟩
      rw [if_neg (by rw [heq]; rw [heq] at hpos; omega), if_neg hsome]
      unfold strtoulDec
      rw [hdigits, heq]
    · have hlt : digits.length < (signed value).2.length := by
        refine lt_of_le_of_ne hle fun heq => hall (hrest.1 (hinit.eq_of_length heq))
      rw [if_pos (.inr (.inl (by omega))), if_pos (.inr hall)]

/-! ## Item by item -/

/-- Up to where an item ends, the test on the name looks at the item only. -/
theorem named_item (name item next : Bytes) :
    (item.length > name.length ∧ (item ++ next).take name.length = name ∧
      (item ++ next).getD name.length 0 = 61) ↔
        (name ++ [61]).isPrefixOf item = true := by
  rw [List.isPrefixOf_iff_prefix]
  constructor
  · rintro ⟨hlength, htake, hequals⟩
    rw [List.take_append_of_le_length hlength.le] at htake
    rw [List.getD_append _ _ _ _ hlength, List.getD_eq_getElem _ _ hlength] at hequals
    refine ⟨item.drop (name.length + 1), ?_⟩
    calc name ++ [61] ++ item.drop (name.length + 1)
        = item.take name.length ++ item[name.length] :: item.drop (name.length + 1) := by
          rw [htake, hequals, List.append_assoc, List.singleton_append]
      _ = item := by rw [← List.drop_eq_getElem_cons hlength, List.take_append_drop]
  · rintro ⟨value, rfl⟩
    refine ⟨?_, ?_, ?_⟩
    · simp
    · simp
    · simp [List.getD]

theorem takeWhile_item {item next : Bytes} (hno : 38 ∉ item) (hend : ItemEnd next) :
    (item ++ next).takeWhile (· ≠ 38) = item := by
  have hall : ∀ b ∈ item, decide (b ≠ 38) = true := fun b hb => decide_eq_true fun heq => hno (heq ▸ hb)
  rw [List.takeWhile_append_of_pos hall]
  obtain rfl | ⟨rest, rfl⟩ := hend
  · exact List.append_nil _
  · rw [List.takeWhile_cons_of_neg (by decide), List.append_nil]

/-- The first item of a query and what follows it. -/
theorem exists_item (query : Bytes) : ∃ item next, query = item ++ next ∧ 38 ∉ item ∧ ItemEnd next := by
  refine ⟨query.takeWhile (· ≠ 38), query.dropWhile (· ≠ 38), List.takeWhile_append_dropWhile.symm, ?_, ?_⟩
  · intro hmem
    simpa using List.mem_takeWhile_imp hmem
  · cases hnext : query.dropWhile (· ≠ 38) with
    | nil => exact .inl rfl
    | cons b rest =>
      have hb := List.head_dropWhile_not (· ≠ (38 : UInt8)) (l := query)
        (by rw [hnext]; exact List.cons_ne_nil _ _)
      simp only [hnext, List.head_cons] at hb
      exact .inr ⟨rest, by simpa using hb⟩

theorem queryLoop_named {name item next : Bytes} (hno : 38 ∉ item) (hend : ItemEnd next)
    (hnamed : (name ++ [61]).isPrefixOf item = true) :
    appWebQueryLoop name (item ++ next) = strtoul10 (item.drop (name.length + 1)) := by
  have htest := (named_item name item next).2 hnamed
  have hne : item ++ next ≠ [] := by
    intro h0
    rw [(List.append_eq_nil_iff.1 h0).1] at htest
    exact absurd htest.1 (Nat.not_lt_zero _)
  have hitem : (item ++ next).takeWhile (· ≠ 38) = item := takeWhile_item hno hend
  have hstart : (item ++ next).drop (name.length + 1) = item.drop (name.length + 1) ++ next :=
    List.drop_append_of_le_length htest.1
  have hleft : (item ++ next).length - item.length = next.length := by
    rw [List.length_append]
    omega
  rw [appWebQueryLoop, if_neg hne, hitem, if_pos htest]
  dsimp only
  rw [hstart, hleft]
  exact parsed_item hend _

theorem queryLoop_other {name item next : Bytes} (hno : 38 ∉ item) (hend : ItemEnd next)
    (hnamed : (name ++ [61]).isPrefixOf item = false) :
    appWebQueryLoop name (item ++ next) = if next = [] then none else appWebQueryLoop name next.tail := by
  have htest := (named_item name item next).not.2 (by rw [hnamed]; exact Bool.false_ne_true)
  have hitem : (item ++ next).takeWhile (· ≠ 38) = item := takeWhile_item hno hend
  have hnext : (item ++ next).drop item.length = next := List.drop_left
  by_cases hne : item ++ next = []
  · rw [appWebQueryLoop, if_pos hne, if_pos (List.append_eq_nil_iff.1 hne).2]
  · rw [appWebQueryLoop, if_neg hne, hitem, if_neg htest, hnext]
    obtain rfl | ⟨rest, rfl⟩ := hend
    · rfl
    · rfl

theorem queryLoop_eq (name query : Bytes) : appWebQueryLoop name query =
    ((query.splitOn 38).find? fun item => (name ++ [61]).isPrefixOf item).bind fun item => strtoul10
    (item.drop (name.length + 1)) := by
  induction hn : query.length using Nat.strong_induction_on generalizing query with
  | _ n ih =>
    obtain ⟨item, next, rfl, hno, hend⟩ := exists_item query
    cases hnamed : (name ++ [61]).isPrefixOf item with
    | true =>
      rw [queryLoop_named hno hend hnamed]
      obtain rfl | ⟨rest, rfl⟩ := hend
      · rw [List.append_nil, List.splitOn_eq_singleton hno, List.find?_cons_of_pos hnamed, Option.bind_some]
      · rw [List.splitOn_append_cons_self_of_not_mem hno, List.find?_cons_of_pos hnamed, Option.bind_some]
    | false =>
      rw [queryLoop_other hno hend hnamed]
      obtain rfl | ⟨rest, rfl⟩ := hend
      · rw [List.append_nil, List.splitOn_eq_singleton hno,
          List.find?_cons_of_neg (by rw [hnamed]; exact Bool.false_ne_true)]
        rfl
      · rw [List.splitOn_append_cons_self_of_not_mem hno,
          List.find?_cons_of_neg (by rw [hnamed]; exact Bool.false_ne_true)]
        refine ih rest.length ?_ rest rfl
        rw [← hn, List.length_append, List.length_cons]
        omega

/-! ## Exact numbers -/

/-- The items of a query: what stands between the question mark and the `&`. -/
def queryItems (uri : Bytes) : List Bytes :=
  match uri.dropWhile (· ≠ 63) with
  | [] => []
  | _ :: query => query.splitOn 38

/-- What stands after the equals sign of the first item of that name. -/
def queryValue (uri name : Bytes) : Option Bytes :=
  ((queryItems uri).find? fun item => (name ++ [61]).isPrefixOf item).map fun item => item.drop (name.length + 1)

/-- A number below 2^32 in decimal digits. -/
def exactNumber (value : Bytes) : Option Nat :=
  if value ≠ [] ∧ (∀ b ∈ value, isdigit b = true) ∧ digitsValue 10 value < 2 ^ 32 then
    some (digitsValue 10 value) else none

/-- Digits that `strtoul` takes, after white space and a sign. -/
structure SignedDigits (value spaces sign digits : Bytes) : Prop where
  eq : value = spaces ++ (sign ++ digits)
  spaces : ∀ b ∈ spaces, isspace b = true
  sign : sign = [] ∨ sign = [43] ∨ sign = [45]
  digits_ne : digits ≠ []
  digits : ∀ b ∈ digits, isdigit b = true

/-- White space or a sign before the digits, or digits of a number that is too
large. -/
def Loose (value : Bytes) : Prop :=
  ∃ spaces sign digits, SignedDigits value spaces sign digits ∧
    (spaces ≠ [] ∨ sign ≠ [] ∨ 2 ^ 32 ≤ digitsValue 10 digits)

theorem query_value (uri name : Bytes) : appWebQueryU32 uri name = (queryValue uri name).bind strtoul10 := by
  unfold appWebQueryU32 queryValue queryItems
  cases uri.dropWhile (· ≠ 63) with
  | nil => rfl
  | cons b query =>
    cases hfind : (query.splitOn 38).find? fun item => (name ++ [61]).isPrefixOf item with
    | none => simp only [hfind, Option.map_none, Option.bind_none]
    | some item => simp only [hfind, Option.map_some, Option.bind_some]

/-- Both forms of `app_web_query_u32` are one function. -/
theorem query_eq (uri name : Bytes) : appWebQuery uri name = appWebQueryU32 uri name := by
  rw [query_value]
  unfold appWebQuery queryValue queryItems
  cases uri.dropWhile (· ≠ 63) with
  | nil => rfl
  | cons b query =>
    change appWebQueryLoop name query = _
    rw [queryLoop_eq, Option.bind_map]
    rfl

section
variable {value spaces sign digits : Bytes}

theorem SignedDigits.signed (h : SignedDigits value spaces sign digits) :
    signed value = (decide (sign = [45]), digits) := by
  have hspaces : trimLeft value = sign ++ digits := by
    have hstop : trimLeft (sign ++ digits) = sign ++ digits := by
      obtain rfl | rfl | rfl := h.sign
      · exact (trimmed_of_digits h.digits).left
      · exact List.dropWhile_cons_of_neg (by decide)
      · exact List.dropWhile_cons_of_neg (by decide)
    rw [h.eq, trimLeft, List.dropWhile_append_of_pos h.spaces]
    exact hstop
  unfold Lib.signed
  rw [hspaces]
  obtain rfl | rfl | rfl := h.sign
  · have hdigits := signed_of_digits h.digits
    unfold Lib.signed at hdigits
    rw [(trimmed_of_digits h.digits).left] at hdigits
    exact hdigits
  · rfl
  · rfl

end

/-- What `strtoul` takes whole. -/
theorem strtoul10_isSome {value : Bytes} {n : Nat} (h : strtoul10 value = some n) :
    ∃ spaces sign digits, SignedDigits value spaces sign digits := by
  have hdigits : (signed value).2 ≠ [] ∧ (signed value).2.all isdigit = true := by
    unfold strtoul10 at h
    dsimp only at h
    split at h
    · cases h
    · rename_i hsome
      rw [not_or, not_not] at hsome
      exact hsome
  obtain ⟨sign, hsign, heq⟩ : ∃ sign, (sign = [] ∨ sign = [43] ∨ sign = [45]) ∧
      trimLeft value = sign ++ (signed value).2 := by
    unfold signed
    split
    · exact ⟨[45], .inr (.inr rfl), ‹_›⟩
    · exact ⟨[43], .inr (.inl rfl), ‹_›⟩
    · exact ⟨[], .inl rfl, rfl⟩
  refine ⟨value.takeWhile isspace, sign, (signed value).2, ?_, fun b hb => List.mem_takeWhile_imp hb, hsign,
    hdigits.1, ?_⟩
  · rw [← heq]
    exact List.takeWhile_append_dropWhile.symm
  · exact List.all_eq_true.1 hdigits.2

theorem strtoul10_signedDigits {value spaces sign digits : Bytes} (h : SignedDigits value spaces sign digits) :
    strtoul10 value = some (if digitsValue 10 digits ≥ 2 ^ 32 then 2 ^ 32 - 1
      else if sign = [45] then (2 ^ 32 - digitsValue 10 digits) % 2 ^ 32 else digitsValue 10 digits) := by
  have hsome : ¬(digits = [] ∨ ¬digits.all isdigit = true) :=
    not_or.2 ⟨h.digits_ne, not_not.2 (List.all_eq_true.2 h.digits)⟩
  unfold strtoul10
  rw [h.signed]
  dsimp only
  rw [if_neg hsome]
  simp only [decide_eq_true_eq]

/-- A value of digits only has no white space and no sign before them. -/
theorem SignedDigits.plain {value spaces sign digits : Bytes} (h : SignedDigits value spaces sign digits)
    (hall : ∀ b ∈ value, isdigit b = true) : spaces = [] ∧ sign = [] := by
  constructor
  · rw [List.eq_nil_iff_forall_not_mem]
    intro b hb
    have hdigit := hall b (h.eq ▸ List.mem_append_left _ hb)
    exact absurd (h.spaces b hb) (by rw [not_isspace_of_isdigit hdigit]; exact Bool.false_ne_true)
  · have hsign : ∀ b ∈ sign, isdigit b = true :=
      fun b hb => hall b (h.eq ▸ List.mem_append_right _ (List.mem_append_left _ hb))
    obtain rfl | rfl | rfl := h.sign
    · rfl
    · exact absurd (hsign 43 (List.mem_singleton_self _)) (by decide)
    · exact absurd (hsign 45 (List.mem_singleton_self _)) (by decide)

theorem exactNumber_some {value : Bytes} {n : Nat} (h : exactNumber value = some n) :
    value ≠ [] ∧ (∀ b ∈ value, isdigit b = true) ∧ digitsValue 10 value < 2 ^ 32 := by
  unfold exactNumber at h
  split at h
  · assumption
  · cases h

/-- `strtoul` is exact on all values but the loose ones. -/
theorem strtoul10_exact_iff (value : Bytes) : strtoul10 value = exactNumber value ↔ ¬Loose value := by
  constructor
  · rintro heq ⟨spaces, sign, digits, h, hloose⟩
    rw [strtoul10_signedDigits h] at heq
    -- an exact number is nothing but its digits
    obtain ⟨-, hall, hlt⟩ := exactNumber_some heq.symm
    obtain ⟨hspaces, hsign⟩ := h.plain hall
    have hvalue : value = digits := by rw [h.eq, hspaces, hsign]; rfl
    rcases hloose with hne | hne | hlarge
    · exact hne hspaces
    · exact hne hsign
    · exact absurd (hvalue ▸ hlt) (Nat.not_lt.2 hlarge)
  · intro hnot
    cases hvalue : strtoul10 value with
    | none =>
      unfold exactNumber
      rw [if_neg]
      rintro ⟨hne, hall, -⟩
      have h : SignedDigits value [] [] value := ⟨rfl, by simp, .inl rfl, hne, hall⟩
      rw [strtoul10_signedDigits h] at hvalue
      cases hvalue
    | some n =>
      obtain ⟨spaces, sign, digits, h⟩ := strtoul10_isSome hvalue
      have hplain : spaces = [] ∧ sign = [] ∧ digitsValue 10 digits < 2 ^ 32 := by
        refine ⟨?_, ?_, ?_⟩
        · by_contra hspaces
          exact hnot ⟨spaces, sign, digits, h, .inl hspaces⟩
        · by_contra hsign
          exact hnot ⟨spaces, sign, digits, h, .inr (.inl hsign)⟩
        · by_contra hlarge
          exact hnot ⟨spaces, sign, digits, h, .inr (.inr (Nat.not_lt.1 hlarge))⟩
      obtain ⟨rfl, rfl, hlt⟩ := hplain
      obtain rfl : value = digits := h.eq
      rw [← hvalue, strtoul10_signedDigits h, if_neg (Nat.not_le.2 hlt), if_neg (List.cons_ne_nil _ _).symm]
      unfold exactNumber
      rw [if_pos ⟨h.digits_ne, h.digits, hlt⟩]

/-- **When a query's number is exact**: when the first item of the name, if there is
one, has no value that only `strtoul` takes for a number. -/
theorem query_exact_iff (uri name : Bytes) :
    appWebQuery uri name = (queryValue uri name).bind exactNumber ↔
      ∀ value, queryValue uri name = some value → ¬Loose value := by
  rw [query_eq, query_value]
  cases queryValue uri name with
  | none => simp
  | some value =>
    rw [Option.bind_some, Option.bind_some, strtoul10_exact_iff]
    constructor
    · intro hnot value' heq
      exact Option.some.inj heq ▸ hnot
    · intro h
      exact h value rfl

/-- A total size of 2^32 is taken for 2^32 - 1, and an offset of -1 too. -/
theorem query_not_exact :
    (appWebQuery (ascii "/update?offset=0&total=4294967296") (ascii "total") = some 4294967295 ∧
        (queryValue (ascii "/update?offset=0&total=4294967296") (ascii "total")).bind exactNumber = none) ∧
      appWebQuery (ascii "/update?offset=-1&total=8") (ascii "offset") = some 4294967295 ∧
        (queryValue (ascii "/update?offset=-1&total=8") (ascii "offset")).bind exactNumber = none := by
  rw [query_eq, query_eq]
  decide +kernel

end BLEBridge
