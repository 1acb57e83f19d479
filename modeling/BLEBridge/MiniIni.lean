import BLEBridge.Lib.Ini
/-!
# The INI reader

`minIni.c`, which opens and rescans the whole file for every key. `fault` says
which calls of `f_read` fail. `iniGet_items` says what it returns for a document
whose lines read back as themselves.
-/
open Lib

namespace BLEBridge

/-- An open file: the bytes still to be read, and the number of reads so far. -/
structure Fil where
  rest : Bytes
  reads : Nat

def SIZEOF_LINE : Nat := 320
def SIZEOF_CURRENT_SECTION : Nat := 64

section
variable (fault : Nat → Bool)

/-- The loop of `read_line`, with room for `room` more bytes. -/
def readLoop (room : Nat) (rest : Bytes) (reads : Nat) : Bytes × Fil :=
  match rest with
  | [] => ([], ⟨[], if room = 0 then reads else reads + 1⟩)
  | ch :: rest' =>
    if room = 0 then ([], ⟨ch :: rest', reads⟩)
    else if fault reads then ([], ⟨ch :: rest', reads + 1⟩)
    else if ch = 13 then readLoop room rest' (reads + 1)
    else if ch = 10 then ([], ⟨rest', reads + 1⟩)
    else
      let r := readLoop (room - 1) rest' (reads + 1)
      (ch :: r.1, r.2)

/-- Whether there was a line, the line, and the file after it. -/
def readLine (bufferSize : Nat) (file : Fil) : Bool × Bytes × Fil :=
  let r := readLoop fault (bufferSize - 1) file.rest file.reads
  (r.1.length > 0 ∨ r.2.rest ≠ [], r)

/-- What `ini_gets` does with a line: go on, or stop with the value. -/
inductive IniStep where
  | next (sectionMatch : Bool)
  | found (text : Bytes)

variable (sect key : Bytes)

/-- The body of the loop of `ini_gets`, once a line has been read. -/
def iniLine (sectionMatch : Bool) (line : Bytes) : IniStep :=
  match trimRight (trimLeft (cstr line)) with
  | [] => .next sectionMatch
  | ch :: after =>
    if ch = 59 ∨ ch = 35 then .next sectionMatch
    else if ch = 91 then
      if 93 ∉ after then .next sectionMatch
      else
        let name := trimLeft (after.takeWhile (· ≠ 93))
        let currentSection := trimRight (name.take (SIZEOF_CURRENT_SECTION - 1))
        .next (currentSection = sect)
    else if sectionMatch = false then .next sectionMatch
    else if 61 ∉ ch :: after then .next sectionMatch
    else if trimRight ((ch :: after).takeWhile (· ≠ 61)) ≠ key then .next sectionMatch
    else .found (trimRight (trimLeft ((ch :: after).dropWhile (· ≠ 61)).tail))

/-- The loop of `ini_gets`: the value, or `none` at the end of the file. It runs
out of fuel if it does not end in time. -/
def iniLoop : Nat → Bool → Fil → Option (Option Bytes)
  | 0, _, _ => none
  | fuel + 1, sectionMatch, file =>
    let r := readLine fault SIZEOF_LINE file
    if r.1 then
      match iniLine sect key sectionMatch r.2.1 with
      | .next sectionMatch => iniLoop fuel sectionMatch r.2.2
      | .found text => some (some text)
    else some none

/-- The buffer that `ini_gets` fills, whose length it returns; without room in the
buffer it returns at once. `file` is `none` when it cannot be opened. -/
def iniGets (fuel : Nat) (defValue : Bytes) (bufferSize : Nat) (file : Option Bytes) :
    Option (CString bufferSize) :=
  if bufferSize = 0 then some (.copy bufferSize [])
  else
    match file with
    | none => some (.copy bufferSize defValue)
    | some content =>
      (iniLoop fault sect key fuel (sect = []) ⟨content, 0⟩).map fun value =>
        .copy bufferSize (value.getD defValue)

end

/-- Reads that all succeed. -/
def readsOk : Nat → Bool := fun _ => false

/-- `ini_gets` when all reads succeed. -/
def iniGet (sect key defValue : Bytes) (bufferSize : Nat) (file : Option Bytes) : CString bufferSize :=
  (iniGets readsOk sect key ((file.getD []).length + 1) defValue bufferSize file).getD (.copy bufferSize defValue)

def iniGetl (sect key : Bytes) (defValue : Int) (file : Option Bytes) : Int :=
  let value := iniGet sect key [] 32 file
  if value.bytes = [] then defValue else (strtol10 value.bytes).getD defValue

/-! ## Reading ends -/

/-- A read that succeeds makes progress. -/
theorem readLoop_progress {room : Nat} (hr : 0 < room) {rest : Bytes} (hne : rest ≠ []) (reads : Nat) :
    (readLoop readsOk room rest reads).2.rest.length < rest.length := by
  induction rest generalizing room reads with
  | nil => exact absurd rfl hne
  | cons ch rest ih =>
    have hle : ∀ room reads, (readLoop readsOk room rest reads).2.rest.length ≤ rest.length :=
      fun room reads => by
      by_cases h0 : rest = []
      · subst h0; simp [readLoop]
      · by_cases hr0 : room = 0
        · obtain ⟨b, r, rfl⟩ := List.exists_cons_of_ne_nil h0
          simp [readLoop, hr0]
        · exact (ih (by omega) h0 reads).le
    simp only [readLoop, readsOk, List.length_cons]
    rw [if_neg (by omega), if_neg (by decide)]
    split
    · exact Nat.lt_succ_of_le (hle _ _)
    · split
      · exact Nat.lt_succ_self _
      · exact Nat.lt_succ_of_le (hle _ _)

/-- Nothing fits into an empty buffer. -/
theorem copy_of_zero {cap : Nat} (h : cap = 0) (s t : Bytes) : CString.copy cap s = .copy cap t := by
  subst h
  exact CString.ext rfl

theorem iniGets_eq {fault : Nat → Bool} {sect key content : Bytes} {fuel : Nat} {value : Option Bytes}
    (h : iniLoop fault sect key fuel (sect = []) ⟨content, 0⟩ = some value) (defValue : Bytes)
    (bufferSize : Nat) :
    iniGets fault sect key fuel defValue bufferSize (some content) =
      some (.copy bufferSize (value.getD defValue)) := by
  unfold iniGets
  split
  · rename_i hzero
    rw [copy_of_zero hzero []]
  · simp only [h, Option.map_some]

theorem iniGet_eq (sect key defValue : Bytes)
    (bufferSize : Nat) (content : Bytes) {value : Option Bytes} {fuel : Nat} (hf : fuel = content.length + 1)
    (h : iniLoop readsOk sect key fuel (sect = []) ⟨content, 0⟩ = some value) :
    iniGet sect key defValue bufferSize (some content) = .copy bufferSize (value.getD defValue) := by
  subst hf
  simp only [iniGet, Option.getD_some, iniGets_eq h]

/-! ## What is read has no line breaks -/

theorem readLoop_oneLine (fault : Nat → Bool) (room : Nat) (rest : Bytes) (reads : Nat) :
    OneLine (readLoop fault room rest reads).1 := by
  have hnil : OneLine [] := ⟨by simp, by simp⟩
  induction rest generalizing room reads with
  | nil => exact hnil
  | cons ch rest ih =>
    rw [readLoop]
    split
    · exact hnil
    split
    · exact hnil
    split
    · exact ih _ _
    rename_i h13
    split
    · exact hnil
    · rename_i h10
      obtain ⟨hr10, hr13⟩ := ih (room - 1) (reads + 1)
      constructor
      · simp only [List.mem_cons, not_or]
        exact ⟨Ne.symm h10, hr10⟩
      · simp only [List.mem_cons, not_or]
        exact ⟨Ne.symm h13, hr13⟩

/-- The key and the value are parts of a line. -/
theorem iniLine_found {sect key line text : Bytes} {m : Bool} (h : iniLine sect key m line = .found text) :
    ∃ s, List.Sublist s line ∧ key = trimRight (s.takeWhile (· ≠ 61)) ∧
      text = trimRight (trimLeft (s.dropWhile (· ≠ 61)).tail) := by
  have htrim : List.Sublist (trimRight (trimLeft (cstr line))) line :=
    (trim_sublist _).trans (List.takeWhile_sublist _)
  unfold iniLine at h
  split at h
  · cases h
  rename_i ch after heq
  rw [heq] at htrim
  split at h
  · cases h
  split at h
  · split at h <;> cases h
  split at h
  · cases h
  split at h
  · cases h
  split at h
  · cases h
  · rename_i hkey
    cases h
    exact ⟨ch :: after, htrim, (not_not.1 hkey).symm, rfl⟩

theorem iniLine_found_sublist {sect key line text : Bytes} {m : Bool}
    (h : iniLine sect key m line = .found text) : List.Sublist text line := by
  obtain ⟨s, hs, -, rfl⟩ := iniLine_found h
  exact (trim_sublist _).trans ((List.tail_sublist _).trans ((List.dropWhile_sublist _).trans hs))

theorem iniLoop_oneLine {fault : Nat → Bool} {sect key : Bytes} {fuel : Nat} {m : Bool} {file : Fil}
    {text : Bytes} (h : iniLoop fault sect key fuel m file = some (some text)) : OneLine text := by
  induction fuel generalizing m file with
  | zero => cases h
  | succ fuel ih =>
    rw [iniLoop] at h
    split at h
    · split at h
      · exact ih h
      · rename_i hline
        cases h
        exact (readLoop_oneLine fault _ file.rest file.reads).of_subset (iniLine_found_sublist hline).subset
    · cases h

theorem iniGet_oneLine (sect key : Bytes) {defValue : Bytes} (hd : OneLine defValue) (cap : Nat)
    (file : Option Bytes) : OneLine (iniGet sect key defValue cap file).bytes := by
  have hdef : OneLine (CString.copy cap defValue).bytes := hd.of_subset (copy_sublist cap defValue).subset
  unfold iniGet iniGets
  split
  · exact ⟨fun h => absurd ((copy_sublist cap []).subset h) List.not_mem_nil,
      fun h => absurd ((copy_sublist cap []).subset h) List.not_mem_nil⟩
  cases file with
  | none => exact hdef
  | some content =>
    dsimp only
    cases hloop : iniLoop readsOk sect key ((some content).getD []).length.succ (sect = []) ⟨content, 0⟩ with
    | none => exact hdef
    | some value =>
      cases value with
      | none => exact hdef
      | some text => exact (iniLoop_oneLine hloop).of_subset (copy_sublist cap text).subset

/-! ## Lines that read back as themselves -/

/-- What a line must be for `read_line` and `ini_gets` to take it as it is. -/
structure CleanItem (item : IniItem) : Prop where
  plain : item.Plain
  short : item.line.length < SIZEOF_LINE - 1
  no_nul : 0 ∉ item.line
  no_newline : 10 ∉ item.line
  no_return : 13 ∉ item.line
  name_short : ∀ name, item = .header name → name.length ≤ SIZEOF_CURRENT_SECTION - 1

theorem readLoop_line {l : Bytes} {room : Nat} (hl : l.length < room) (h10 : 10 ∉ l) (h13 : 13 ∉ l)
    (rest : Bytes) (reads : Nat) :
    readLoop readsOk room (l ++ 10 :: rest) reads = (l, ⟨rest, reads + l.length + 1⟩) := by
  induction l generalizing room reads with
  | nil =>
    rw [List.length_nil] at hl
    simp only [List.nil_append, readLoop, readsOk, List.length_nil]
    rw [if_neg (by omega), if_neg (by decide), if_neg (by decide), if_pos trivial]
  | cons b l ih =>
    simp only [List.mem_cons, not_or] at h10 h13
    rw [List.length_cons] at hl
    simp only [List.cons_append, readLoop, readsOk, List.length_cons]
    rw [if_neg (by omega), if_neg (by decide), if_neg (Ne.symm h13.1), if_neg (Ne.symm h10.1)]
    have ih := ih (show l.length < room - 1 by omega) h10.2 h13.2 (reads + 1)
    rw [ih, show reads + 1 + l.length + 1 = reads + (l.length + 1) + 1 by omega]

theorem takeWhile_ne {b : UInt8} {s : Bytes} (h : b ∉ s) (t : Bytes) : (s ++ b :: t).takeWhile (· ≠ b) = s := by
  rw [List.takeWhile_append_of_pos (fun c hc => by simpa using fun hcb : c = b => h (hcb ▸ hc))]
  simp

theorem dropWhile_ne {b : UInt8} {s : Bytes} (h : b ∉ s) (t : Bytes) :
    (s ++ b :: t).dropWhile (· ≠ b) = b :: t := by
  rw [List.dropWhile_append_of_pos (fun c hc => by simpa using fun hcb : c = b => h (hcb ▸ hc))]
  simp

/-- Of a line with a key, the value is taken without the white space around it. -/
theorem iniLine_pair (sect key : Bytes) (m : Bool) {k v : Bytes} (hk : PlainKey k) (h0 : 0 ∉ k ++ 61 :: v) :
    iniLine sect key m (k ++ 61 :: v) = if m ∧ k = key then .found (trimRight (trimLeft v)) else .next m := by
  have htrim : trimRight (trimLeft (k ++ 61 :: v)) = k ++ 61 :: trimRight v := by
    rw [trimLeft_append hk.trimmed.left hk.ne_nil, trimRight_append_cons (by decide)]
  rw [iniLine, cstr_of_noNul h0, htrim]
  obtain ⟨b, k', rfl⟩ := List.exists_cons_of_ne_nil hk.ne_nil
  obtain ⟨h59, h35, h91⟩ := hk.head b rfl
  have htw := takeWhile_ne hk.no_equals (trimRight v)
  have hdw := dropWhile_ne hk.no_equals (trimRight v)
  rw [List.cons_append] at htw hdw
  rw [List.cons_append]
  simp only [htw, hdw, List.tail_cons]
  rw [if_neg (not_or.2 ⟨h59, h35⟩), if_neg h91]
  cases m with
  | false => rfl
  | true =>
    rw [if_neg (by decide), if_neg (by simp), hk.trimmed.right]
    by_cases hkey : b :: k' = key
    · rw [if_neg (not_not.2 hkey), if_pos ⟨rfl, hkey⟩, trim_trimRight]
    · rw [if_pos hkey, if_neg fun hc => hkey hc.2]

/-- What `ini_gets` makes of each kind of line. -/
theorem iniLine_item (sect key : Bytes) (m : Bool) {item : IniItem} (h : CleanItem item) :
    iniLine sect key m item.line = match item with
      | .comment _ => .next m
      | .header name => .next (name = sect)
      | .pair k v => if m ∧ k = key then .found v else .next m := by
  cases item with
  | comment text =>
    have hp : ∀ b, (trimRight (trimLeft text)).head? = some b → b = 59 ∨ b = 35 := h.plain
    rw [iniLine, cstr_of_noNul h.no_nul]
    simp only [IniItem.line]
    split
    · rfl
    · rename_i ch after he
      rw [if_pos (hp ch (by rw [he]; rfl))]
  | header name =>
    obtain ⟨ht, h93⟩ : Trimmed name ∧ 93 ∉ name := h.plain
    have htrim : trimRight (trimLeft (91 :: (name ++ [93]))) = 91 :: (name ++ [93]) := by
      have h1 : trimLeft (91 :: (name ++ [93])) = 91 :: (name ++ [93]) :=
        (trimLeft_eq_self_iff _).2 fun b hb => by
          simp only [List.head?_cons, Option.some.injEq] at hb
          exact hb ▸ (by decide)
      rw [h1]
      exact trimRight_append (t := [93]) rfl (List.cons_ne_nil _ _) (91 :: name)
    rw [iniLine, cstr_of_noNul h.no_nul]
    simp only [IniItem.line, htrim]
    rw [if_neg (by decide), if_pos trivial, if_neg (by simp)]
    simp only [takeWhile_ne h93 [], ht.left, List.take_of_length_le (h.name_short name rfl), ht.right]
  | pair k v =>
    obtain ⟨hk, hv⟩ : PlainKey k ∧ Trimmed v := h.plain
    simp only [IniItem.line]
    rw [iniLine_pair sect key m hk h.no_nul, hv.trim]

/-! ## Lines that read back as others -/

/-- What a line must be for `ini_gets` to take it as `item.read`. -/
structure ReadsBack (item : IniItem) : Prop where
  read : CleanItem item.read
  short : item.line.length < SIZEOF_LINE - 1
  no_nul : 0 ∉ item.line
  no_newline : 10 ∉ item.line
  no_return : 13 ∉ item.line

theorem CleanItem.read_eq {item : IniItem} (h : CleanItem item) : item.read = item := by
  cases item with
  | comment | header => rfl
  | pair k v =>
    obtain ⟨-, hv⟩ : PlainKey k ∧ Trimmed v := h.plain
    exact congrArg (IniItem.pair k) hv.trim

theorem CleanItem.readsBack {item : IniItem} (h : CleanItem item) : ReadsBack item :=
  ⟨h.read_eq.symm ▸ h, h.short, h.no_nul, h.no_newline, h.no_return⟩

theorem iniLine_read (sect key : Bytes) (m : Bool) {item : IniItem} (h : ReadsBack item) :
    iniLine sect key m item.line = iniLine sect key m item.read.line := by
  cases item with
  | comment | header => rfl
  | pair k v =>
    obtain ⟨hk, hv⟩ : PlainKey k ∧ Trimmed (trimRight (trimLeft v)) := h.read.plain
    have hread : iniLine sect key m (IniItem.pair k (trimRight (trimLeft v))).line = _ :=
      iniLine_pair sect key m hk h.read.no_nul
    exact (iniLine_pair sect key m hk h.no_nul).trans (hread.trans (by rw [hv.trim])).symm

theorem items_length_le (items : List IniItem) : items.length ≤ (render items).length := by
  induction items with
  | nil => exact Nat.zero_le _
  | cons item items ih =>
    rw [render_cons, List.length_append, List.length_cons, List.length_cons]
    omega

theorem iniLoop_items (sect key : Bytes) {items : List IniItem} (h : ∀ item ∈ items, ReadsBack item) {fuel : Nat}
    (hf : items.length < fuel) (m : Bool) (reads : Nat) :
    iniLoop readsOk sect key fuel m ⟨render items, reads⟩ =
      some (lookup sect key m (items.map IniItem.read)) := by
  induction items generalizing fuel m reads with
  | nil =>
    obtain ⟨fuel, rfl⟩ := Nat.exists_eq_add_of_lt hf
    simp [iniLoop, readLine, readLoop, render, unlines, lookup]
  | cons item items ih =>
    obtain ⟨fuel, rfl⟩ : ∃ f, fuel = f + 1 := ⟨fuel - 1, by omega⟩
    rw [List.length_cons] at hf
    have hi := h item List.mem_cons_self
    have hrest : ∀ m reads, iniLoop readsOk sect key fuel m ⟨render items, reads⟩ =
        some (lookup sect key m (items.map IniItem.read)) :=
          ih (fun i hi => h i (List.mem_cons_of_mem _ hi)) (by omega)
    have hread := readLoop_line hi.short hi.no_newline hi.no_return (render items) reads
    simp only [iniLoop, readLine, render_cons, hread, iniLine_read sect key m hi,
      iniLine_item sect key m hi.read, List.map_cons]
    by_cases hline : item.line.length > 0 ∨ render items ≠ []
    · rw [if_pos (decide_eq_true hline)]
      cases item with
      | comment text => exact hrest _ _
      | header name => exact hrest _ _
      | pair k v =>
        simp only [IniItem.read, lookup]
        by_cases hkey : m = true ∧ k = key
        · rw [if_pos hkey, if_pos hkey]
        · rw [if_neg hkey, if_neg hkey]
          exact hrest _ _
    · -- an empty last line
      rw [if_neg (by simpa using hline)]
      rw [not_or, not_not] at hline
      obtain rfl : items = [] := by
        rcases items with _ | ⟨i, items⟩
        · rfl
        · simp [render_cons] at hline
      cases item with
      | comment text => rfl
      | header name => simp [IniItem.line] at hline
      | pair k v => simp [IniItem.line] at hline

/-- **What `ini_gets` returns** for a document whose lines read back. -/
theorem iniGet_items (sect key defValue : Bytes) (bufferSize : Nat) {items : List IniItem} (hs : sect ≠ [])
    (h : ∀ item ∈ items, ReadsBack item) :
    iniGet sect key defValue bufferSize (some (render items)) =
      .copy bufferSize (((lookup sect key false items).map fun v => trimRight (trimLeft v)).getD defValue) := by
  refine iniGet_eq sect key defValue bufferSize _ rfl ?_
  rw [decide_eq_false hs, iniLoop_items sect key h (Nat.lt_succ_of_le (items_length_le items)) false 0,
    lookup_read]

end BLEBridge
