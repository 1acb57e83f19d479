import BLEBridge.Lib.Text
/-!
# INI documents

A document as the list of its lines, and what looking up a key in a section of
it means: the value of the first pair with that key inside a section of that
name. `lookup_numbered` is for keys that carry a number, `key1`, `key2`, and so
on.
-/

namespace Lib

/-- A line of an INI document. -/
inductive IniItem where
  | comment (text : Bytes)
  | header (name : Bytes)
  | pair (key value : Bytes)

/-- The text of a line. -/
def IniItem.line : IniItem → Bytes
  | .comment text => text
  | .header name => 91 :: (name ++ [93])
  | .pair key value => key ++ 61 :: value

/-- A key that reads back as itself. -/
structure PlainKey (key : Bytes) : Prop where
  ne_nil : key ≠ []
  trimmed : Trimmed key
  no_equals : 61 ∉ key
  head : ∀ b, key.head? = some b → b ≠ 59 ∧ b ≠ 35 ∧ b ≠ 91

/-- A line that reads back as itself. -/
def IniItem.Plain : IniItem → Prop
  | .comment text => ∀ b, (trimRight (trimLeft text)).head? = some b → b = 59 ∨ b = 35
  | .header name => Trimmed name ∧ 93 ∉ name
  | .pair key value => PlainKey key ∧ Trimmed value

/-- A line as it is read back: a value without the white space around it. -/
def IniItem.read : IniItem → IniItem
  | .pair k v => .pair k (trimRight (trimLeft v))
  | item => item

/-- Any line of a file: blank, with a semicolon or hash in front, with a bracket that is not
closed, or without an equals sign, it is a comment. -/
def IniItem.ofLine (line : Bytes) : IniItem :=
  match trimRight (trimLeft line) with
  | [] => .comment line
  | ch :: after =>
    if ch = 59 ∨ ch = 35 then .comment line
    else if ch = 91 then
      if 93 ∈ after then .header (trimRight (trimLeft (after.takeWhile (· ≠ 93)))) else .comment line
    else if 61 ∈ ch :: after then
      .pair (trimRight ((ch :: after).takeWhile (· ≠ 61)))
        (trimRight (trimLeft ((ch :: after).dropWhile (· ≠ 61)).tail))
    else .comment line

/-- The lines of a file; carriage returns are dropped. -/
def fileLines (content : Bytes) : List Bytes := (content.filter (· ≠ 13)).splitOn 10

/-- Text of lines, each ended by a newline. -/
def unlines (ls : List Bytes) : Bytes := ls.flatMap (· ++ [10])

/-- The text of a document. -/
def render (items : List IniItem) : Bytes := unlines (items.map IniItem.line)

theorem unlines_append (a b : List Bytes) : unlines (a ++ b) = unlines a ++ unlines b := List.flatMap_append

theorem render_append (a b : List IniItem) : render (a ++ b) = render a ++ render b := by
  rw [render, List.map_append, unlines_append]
  rfl

theorem render_cons (item : IniItem) (items : List IniItem) :
    render (item :: items) = item.line ++ 10 :: render items := by
  rw [render, List.map_cons, unlines, List.flatMap_cons, List.append_assoc]
  rfl

theorem render_flatMap {α : Type} (xs : List α) (f : α → List IniItem) :
    render (xs.flatMap f) = (xs.map fun x => render (f x)).flatten := by
  induction xs with
  | nil => rfl
  | cons x xs ih => rw [List.flatMap_cons, render_append, ih, List.map_cons, List.flatten_cons]

section
variable (sect key : Bytes)

/-- The value of `key`, starting inside `sect` or not. -/
def lookup : Bool → List IniItem → Option Bytes
  | _, [] => none
  | m, .comment _ :: items => lookup m items
  | _, .header name :: items => lookup (name = sect) items
  | m, .pair k v :: items => if m ∧ k = key then some v else lookup m items

/-- Whether the end of the lines is inside `sect`. -/
def inSection : Bool → List IniItem → Bool
  | m, [] => m
  | m, .comment _ :: items => inSection m items
  | _, .header name :: items => inSection (name = sect) items
  | m, .pair _ _ :: items => inSection m items

/-- The last header, which is the section of what comes next. -/
def currentSection (items : List IniItem) : Option Bytes :=
  (items.filterMap fun
    | .header name => some name
    | _ => none).getLast?

/-- The value of line `i`, if it is a pair with this key in this section. -/
def valueAt (items : List IniItem) (i : Nat) : Option Bytes :=
  match items[i]? with
  | some (.pair k v) => if currentSection (items.take i) = some sect ∧ k = key then some v else none
  | _ => none

/-- The value of the first such line. -/
def firstValue (items : List IniItem) : Option Bytes :=
  ((List.range items.length).filterMap (valueAt sect key items)).head?

variable {sect key}

theorem lookup_append (m : Bool) (a b : List IniItem) :
    lookup sect key m (a ++ b) = (lookup sect key m a).or (lookup sect key (inSection sect m a) b) := by
  induction a generalizing m with
  | nil => rfl
  | cons item a ih =>
    cases item with
    | comment t => exact ih m
    | header n => exact ih _
    | pair k v =>
      simp only [List.cons_append, lookup, inSection]
      split
      · rfl
      · exact ih m

theorem inSection_append (m : Bool) (a b : List IniItem) :
    inSection sect m (a ++ b) = inSection sect (inSection sect m a) b := by
  induction a generalizing m with
  | nil => rfl
  | cons item a ih =>
    cases item with
    | comment t => exact ih m
    | header n => exact ih _
    | pair k v => exact ih m

theorem currentSection_concat (items : List IniItem) (item : IniItem) :
    currentSection (items ++ [item]) = match item with
      | .header name => some name
      | _ => currentSection items := by
  unfold currentSection
  rw [List.filterMap_append]
  cases item with
  | comment t => rw [List.filterMap_cons_none rfl, List.filterMap_nil, List.append_nil]
  | header n =>
    change (List.filterMap _ items ++ [n]).getLast? = some n
    exact List.getLast?_concat
  | pair k v => rw [List.filterMap_cons_none rfl, List.filterMap_nil, List.append_nil]

theorem inSection_eq (items : List IniItem) :
    inSection sect false items = decide (currentSection items = some sect) := by
  induction items using List.reverseRecOn with
  | nil => rfl
  | append_singleton items item ih =>
    rw [inSection_append, ih, currentSection_concat]
    cases item with
    | comment t => rfl
    | header n => simp only [inSection, Option.some.injEq]
    | pair k v => rfl

theorem valueAt_concat {items : List IniItem} {i : Nat} (h : i < items.length) (item : IniItem) :
    valueAt sect key (items ++ [item]) i = valueAt sect key items i := by
  unfold valueAt
  rw [List.getElem?_append_left h, List.take_append_of_le_length h.le]

theorem valueAt_length (items : List IniItem) (item : IniItem) :
    valueAt sect key (items ++ [item]) items.length = lookup sect key (inSection sect false items) [item] := by
  unfold valueAt
  rw [List.getElem?_concat_length, List.take_left, inSection_eq]
  cases item with
  | comment t => rfl
  | header n => rfl
  | pair k v => simp only [lookup, decide_eq_true_eq]

theorem firstValue_concat (items : List IniItem) (item : IniItem) :
    firstValue sect key (items ++ [item]) =
      (firstValue sect key items).or (lookup sect key (inSection sect false items) [item]) := by
  have hfront : (List.range items.length).filterMap (valueAt sect key (items ++ [item])) =
      (List.range items.length).filterMap (valueAt sect key items) :=
    List.filterMap_congr fun i hi => valueAt_concat (List.mem_range.1 hi) item
  unfold firstValue
  rw [List.length_append, List.length_singleton, List.range_succ, List.filterMap_append, hfront,
    List.head?_append, ← valueAt_length]
  congr 1
  rw [List.filterMap_cons]
  cases valueAt sect key (items ++ [item]) items.length <;> rfl

/-- Looking up line by line finds the first value of the key in the section. -/
theorem lookup_eq_firstValue (items : List IniItem) :
    lookup sect key false items = firstValue sect key items := by
  induction items using List.reverseRecOn with
  | nil => rfl
  | append_singleton items item ih => rw [lookup_append, ih, firstValue_concat]

theorem lookup_read (m : Bool) (items : List IniItem) :
    lookup sect key m (items.map IniItem.read) = (lookup sect key m items).map fun v =>
      trimRight (trimLeft v) := by
  induction items generalizing m with
  | nil => rfl
  | cons item items ih =>
    cases item with
    | comment text => exact ih m
    | header name => exact ih _
    | pair k v =>
      simp only [List.map_cons, IniItem.read, lookup]
      split
      · rfl
      · exact ih m

/-- No header among the lines. -/
def NoHeader (items : List IniItem) : Prop := ∀ item ∈ items, ∀ name, item ≠ .header name

theorem inSection_noHeader {items : List IniItem} (h : NoHeader items) (m : Bool) :
    inSection sect m items = m := by
  induction items with
  | nil => rfl
  | cons item items ih =>
    have ih := ih fun i hi => h i (List.mem_cons_of_mem _ hi)
    cases item with
    | comment t => exact ih
    | header n => exact absurd rfl (h _ List.mem_cons_self n)
    | pair k v => exact ih

/-- Outside the section nothing is found before the next header. -/
theorem lookup_noHeader {items : List IniItem} (h : NoHeader items) : lookup sect key false items = none := by
  induction items with
  | nil => rfl
  | cons item items ih =>
    have ih := ih fun i hi => h i (List.mem_cons_of_mem _ hi)
    cases item with
    | comment t => exact ih
    | header n => exact absurd rfl (h _ List.mem_cons_self n)
    | pair k v => simpa only [lookup, Bool.false_eq_true, false_and, if_false] using ih

variable {α : Type}

theorem noHeader_append {a b : List IniItem} (ha : NoHeader a) (hb : NoHeader b) : NoHeader (a ++ b) :=
  fun item hi =>
  (List.mem_append.1 hi).elim (ha item) (hb item)

theorem noHeader_flatMap {xs : List α} {f : α → List IniItem} (h : ∀ x, NoHeader (f x)) :
    NoHeader (xs.flatMap f) := by
  intro item hi
  obtain ⟨x, -, hx⟩ := List.mem_flatMap.1 hi
  exact h x item hx

/-- The value of the `k`-th of numbered groups of lines. -/
theorem lookup_numbered {f : α × Nat → List IniItem} {value : α → Bytes} {k : Nat} (hf : ∀ p, NoHeader (f p))
    (h : ∀ x i, lookup sect key true (f (x, i)) = if i = k then some (value x) else none) (xs : List α)
    (n : Nat) :
    lookup sect key true ((xs.zipIdx n).flatMap f) = if n ≤ k then (xs[k - n]?).map value else none := by
  induction xs generalizing n with
  | nil => simp [lookup]
  | cons x xs ih =>
    rw [List.zipIdx_cons, List.flatMap_cons, lookup_append, h, inSection_noHeader (hf _), ih]
    rcases lt_trichotomy n k with hlt | rfl | hgt
    · rw [if_neg (by omega), if_pos (by omega), if_pos (by omega), Option.none_or,
        show k - n = k - (n + 1) + 1 by omega, List.getElem?_cons_succ]
    · simp
    · rw [if_neg (by omega), if_neg (by omega), if_neg (by omega), Option.none_or]

/-- Neither a header nor a key that starts with `p`. -/
def IniItem.avoids (p : Bytes) : IniItem → Bool
  | .comment _ => true
  | .header _ => false
  | .pair k _ => k.take p.length ≠ p

theorem ne_numbered {p k : Bytes} (h : k.take p.length ≠ p) (d : Bytes) : k ≠ p ++ d := fun hk => by
  rw [hk, List.take_left] at h
  exact h rfl

theorem lookup_avoids {p : Bytes} {items : List IniItem} (h : items.all (IniItem.avoids p) = true) (d : Bytes)
    (m : Bool) : lookup sect (p ++ d) m items = none := by
  induction items with
  | nil => rfl
  | cons item items ih =>
    rw [List.all_cons, Bool.and_eq_true] at h
    cases item with
    | comment t => exact ih h.2
    | header n => cases h.1
    | pair k v => rw [lookup, if_neg fun hc => ne_numbered (of_decide_eq_true h.1) d hc.2, ih h.2]

/-- Reading numbered entries one after the other gives the list of them. -/
theorem foldl_range_take {σ : Type} {l : List α} {step : σ → Nat → σ} (state : List α → σ)
    (hnone : ∀ n, l[n]? = none → ∀ s, step s n = s)
    (hsome : ∀ n x, l[n]? = some x → step (state (l.take n)) n = state (l.take (n + 1))) (n : Nat) :
    (List.range n).foldl step (state []) = state (l.take n) := by
  induction n with
  | zero => rfl
  | succ n ih =>
    rw [List.range_succ, List.foldl_append, ih, List.foldl_cons, List.foldl_nil]
    cases hx : l[n]? with
    | none =>
      rw [hnone n hx, List.take_add_one, hx, Option.toList_none, List.append_nil]
    | some x => exact hsome n x hx

/-! ## Sections -/

/-- A section: its name, and the lines under its header. -/
structure IniSection where
  name : Bytes
  body : List IniItem

def IniSection.items (s : IniSection) : List IniItem := .header s.name :: s.body

/-- Nothing is found where no section has the name. -/
theorem lookup_no_section {sections : List IniSection} (hb : ∀ s ∈ sections, NoHeader s.body)
    (hn : sect ∉ sections.map IniSection.name) (m : Bool) :
    lookup sect key m (sections.flatMap IniSection.items) = none := by
  induction sections generalizing m with
  | nil => rfl
  | cons t rest ih =>
    simp only [List.map_cons, List.mem_cons, not_or] at hn
    rw [List.flatMap_cons, IniSection.items, List.cons_append, lookup, decide_eq_false (Ne.symm hn.1),
      lookup_append,
      lookup_noHeader (hb t List.mem_cons_self), inSection_noHeader (hb t List.mem_cons_self), Option.none_or]
    exact ih (fun s hs => hb s (List.mem_cons_of_mem _ hs)) hn.2 false

/-- With one section of each name, a key is looked up under its section. -/
theorem lookup_sections {sections : List IniSection} (hb : ∀ s ∈ sections, NoHeader s.body)
    (hn : (sections.map IniSection.name).Nodup) {s : IniSection} (hs : s ∈ sections) (m : Bool) :
    lookup s.name key m (sections.flatMap IniSection.items) = lookup s.name key true s.body := by
  induction sections generalizing m with
  | nil => cases hs
  | cons t rest ih =>
    have hb' : ∀ s ∈ rest, NoHeader s.body := fun s hs => hb s (List.mem_cons_of_mem _ hs)
    simp only [List.map_cons, List.nodup_cons] at hn
    rw [List.flatMap_cons, IniSection.items, List.cons_append, lookup, lookup_append,
      inSection_noHeader (hb t List.mem_cons_self)]
    rcases List.mem_cons.1 hs with rfl | hs
    · rw [decide_eq_true rfl, lookup_no_section hb' hn.1, Option.or_none]
    · have hname : t.name ≠ s.name := fun he => hn.1 (he ▸ List.mem_map_of_mem hs)
      rw [decide_eq_false hname, lookup_noHeader (hb t List.mem_cons_self), Option.none_or]
      exact ih hb' hn.2 hs false

end

end Lib
