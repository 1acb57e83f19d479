import BLEBridge.MiniIni
/-!
# Looking up in any file

`ini_gets` against the grammar of INI files, in which every line is a header, a pair
or a comment (`IniItem.ofLine`): it returns the first value of the key in the section,
for all lines that fit its buffers.
-/
open Lib

namespace BLEBridge

variable {sect key : Bytes}

/-! ## Lines -/

/-- Cutting a text in the white space at its end. -/
theorem trimRight_take {s : Bytes} {n : Nat} (h : (trimRight s).length ≤ n) :
    trimRight (s.take n) = trimRight s := by
  induction s using List.reverseRecOn with
  | nil => rw [List.take_nil]
  | append_singleton s c ih =>
    rcases Nat.lt_or_ge s.length n with hlt | hle
    · rw [List.take_of_length_le (by rw [List.length_append]; exact hlt)]
    rw [List.take_append_of_le_length hle]
    rw [trimRight_concat] at h ⊢
    split at h
    · rename_i hc
      rw [if_pos hc]
      exact ih h
    · rw [List.length_append, List.length_singleton] at h
      omega

/-- What `ini_gets` makes of any line. -/
theorem iniLine_ofLine {line : Bytes} (h0 : 0 ∉ line)
    (hname : ∀ name, IniItem.ofLine line = .header name → name.length ≤ SIZEOF_CURRENT_SECTION - 1) (m : Bool) :
    iniLine sect key m line = match IniItem.ofLine line with
      | .comment _ => .next m
      | .header name => .next (name = sect)
      | .pair k v => if m ∧ k = key then .found v else .next m := by
  unfold iniLine
  unfold IniItem.ofLine at hname ⊢
  rw [cstr_of_noNul h0]
  generalize trimRight (trimLeft line) = text at hname ⊢
  cases text with
  | nil => rfl
  | cons ch after =>
    dsimp only at hname ⊢
    by_cases hmark : ch = 59 ∨ ch = 35
    · rw [if_pos hmark, if_pos hmark]
    rw [if_neg hmark] at hname
    rw [if_neg hmark, if_neg hmark]
    by_cases hhead : ch = 91
    · rw [if_pos hhead] at hname
      rw [if_pos hhead, if_pos hhead]
      by_cases hclosed : 93 ∈ after
      · rw [if_pos hclosed] at hname
        rw [if_neg (not_not.2 hclosed), if_pos hclosed]
        dsimp only
        rw [trimRight_take (hname _ rfl)]
      · rw [if_pos hclosed, if_neg hclosed]
    rw [if_neg hhead, if_neg hhead]
    by_cases heq : 61 ∈ ch :: after
    · rw [if_pos heq, if_neg (not_not.2 heq)]
      dsimp only
      cases m with
      | false => rfl
      | true =>
        rw [if_neg (by decide)]
        by_cases hkey : trimRight ((ch :: after).takeWhile (· ≠ 61)) = key
        · rw [if_neg (not_not.2 hkey), if_pos ⟨rfl, hkey⟩]
        · rw [if_pos hkey, if_neg fun h => hkey h.2]
    · rw [if_neg heq]
      dsimp only
      split <;> rfl

/-! ## The file -/

theorem fileLines_nil : fileLines [] = [[]] := rfl

theorem fileLines_return (rest : Bytes) : fileLines (13 :: rest) = fileLines rest := by
  unfold fileLines
  rw [List.filter_cons_of_neg (by decide)]

theorem fileLines_newline (rest : Bytes) : fileLines (10 :: rest) = [] :: fileLines rest := by
  unfold fileLines
  rw [List.filter_cons_of_pos (by decide), List.splitOn_cons_eq_if_modifyHead, if_pos (by decide)]

theorem fileLines_cons {ch : UInt8} (h13 : ch ≠ 13) (h10 : ch ≠ 10) (rest : Bytes) :
    fileLines (ch :: rest) = (fileLines rest).modifyHead (ch :: ·) := by
  unfold fileLines
  rw [List.filter_cons_of_pos (by simpa using h13), List.splitOn_cons_eq_if_modifyHead,
    if_neg (by simpa using h10)]

/-- The lines that are not empty. -/
def textLines (content : Bytes) : List Bytes := (fileLines content).filter (· ≠ [])

/-- `read_line` takes the first line that fits; where it fills the buffer, an empty
one is left. -/
theorem readLoop_firstLine {room : Nat} {rest first : Bytes} {later : List Bytes}
    (h : fileLines rest = first :: later) (hroom : first.length ≤ room) (reads : Nat) :
    (readLoop readsOk room rest reads).1 = first ∧ textLines
    (readLoop readsOk room rest reads).2.rest = later.filter (· ≠ []) := by
  induction rest generalizing room first later reads with
  | nil =>
    rw [fileLines_nil] at h
    cases h
    exact ⟨rfl, rfl⟩
  | cons ch rest ih =>
    rw [readLoop]
    by_cases h0 : room = 0
    · rw [if_pos h0]
      obtain rfl : first = [] := List.length_eq_zero_iff.1 (by omega)
      refine ⟨rfl, ?_⟩
      change textLines (ch :: rest) = _
      rw [textLines, h, List.filter_cons_of_neg (by simp)]
    have hok : ¬ readsOk reads = true := Bool.false_ne_true
    rw [if_neg h0, if_neg hok]
    by_cases h13 : ch = 13
    · rw [if_pos h13]
      rw [h13, fileLines_return] at h
      exact ih h hroom _
    rw [if_neg h13]
    by_cases h10 : ch = 10
    · rw [if_pos h10]
      rw [h10, fileLines_newline] at h
      cases h
      exact ⟨rfl, rfl⟩
    rw [if_neg h10]
    rw [fileLines_cons h13 h10] at h
    obtain ⟨first', later', hrest⟩ := List.exists_cons_of_ne_nil (List.splitOn_ne_nil 10 (rest.filter (· ≠ 13)))
    change fileLines rest = first' :: later' at hrest
    rw [hrest, List.modifyHead_cons] at h
    cases h
    rw [List.length_cons] at hroom
    obtain ⟨h1, h2⟩ := ih hrest (Nat.le_sub_one_of_lt hroom) (reads + 1)
    exact ⟨congrArg (ch :: ·) h1, h2⟩

/-- An empty line is a comment. -/
theorem lookup_textLines (m : Bool) (lines : List Bytes) :
    lookup sect key m ((lines.filter (· ≠ [])).map IniItem.ofLine) =
      lookup sect key m (lines.map IniItem.ofLine) := by
  induction lines generalizing m with
  | nil => rfl
  | cons line lines ih =>
    by_cases hnil : line = []
    · rw [List.filter_cons_of_neg (by simpa using hnil), ih, hnil]
      rfl
    · rw [List.filter_cons_of_pos (by simpa using hnil), List.map_cons, List.map_cons]
      cases IniItem.ofLine line with
      | comment text => exact ih m
      | header name => exact ih _
      | pair k v =>
        simp only [lookup]
        rw [ih]

/-- A line that `read_line` can hold, and the name in it, if it is a header. -/
structure LineFits (line : Bytes) : Prop where
  noNul : 0 ∉ line
  length : line.length ≤ SIZEOF_LINE - 1
  name : ∀ name, IniItem.ofLine line = .header name → name.length ≤ SIZEOF_CURRENT_SECTION - 1

theorem lineFits_nil : LineFits [] := ⟨List.not_mem_nil, Nat.zero_le _, fun name h => by cases h⟩

theorem textLines_cons {content first : Bytes} {later : List Bytes} (h : fileLines content = first :: later) :
    textLines content = (if first = [] then [] else [first]) ++ later.filter (· ≠ []) := by
  rw [textLines, h, List.filter_cons]
  by_cases hnil : first = [] <;> simp [hnil]

theorem lineFits_first {content first : Bytes} {later : List Bytes}
    (h : ∀ line ∈ textLines content, LineFits line) (hlines : fileLines content = first :: later) :
    LineFits first := by
  by_cases hnil : first = []
  · rw [hnil]
    exact lineFits_nil
  · refine h first ?_
    rw [textLines_cons hlines, if_neg hnil]
    exact List.mem_append_left _ (List.mem_singleton_self _)

theorem iniLoop_lines {fuel : Nat} {file : Fil} (h : ∀ line ∈ textLines file.rest, LineFits line)
    (hfuel : file.rest.length < fuel) (m : Bool) :
    iniLoop readsOk sect key fuel m file =
      some (lookup sect key m ((fileLines file.rest).map IniItem.ofLine)) := by
  induction fuel generalizing file m with
  | zero => omega
  | succ fuel ih =>
    obtain ⟨first, later, hlines⟩ :=
      List.exists_cons_of_ne_nil (List.splitOn_ne_nil 10 (file.rest.filter (· ≠ 13)))
    change fileLines file.rest = first :: later at hlines
    have htext := textLines_cons hlines
    have hfirst := lineFits_first h hlines
    obtain ⟨hread, hrest⟩ := readLoop_firstLine hlines hfirst.length file.reads
    simp only [iniLoop, readLine, hread]
    generalize hafter : (readLoop readsOk (SIZEOF_LINE - 1) file.rest file.reads).2 = after at hrest ⊢
    rw [hlines, List.map_cons]
    -- the rest of the file, which has the later lines
    have hnext (m : Bool) (hne : file.rest ≠ []) :
        iniLoop readsOk sect key fuel m after = some (lookup sect key m (later.map IniItem.ofLine)) := by
      have hshort : after.rest.length < file.rest.length := by
        rw [← hafter]
        exact readLoop_progress (by decide) hne file.reads
      rw [ih (fun line hline => h line (by rw [htext, ← hrest]; exact List.mem_append_right _ hline)) (by omega),
        ← lookup_textLines, ← lookup_textLines m later]
      change some (lookup sect key m ((textLines after.rest).map _)) = _
      rw [hrest]
    split
    · rename_i hline
      have hne : file.rest ≠ [] := by
        intro hnil
        rw [hnil, fileLines_nil] at hlines
        rw [hnil, readLoop] at hafter
        cases hlines
        rw [← hafter] at hline
        simp at hline
      rw [iniLine_ofLine hfirst.noNul hfirst.name]
      cases IniItem.ofLine first with
      | comment text => exact hnext m hne
      | header name => exact hnext _ hne
      | pair k v =>
        simp only [lookup]
        by_cases hkey : m = true ∧ k = key
        · rw [if_pos hkey, if_pos hkey]
        · rw [if_neg hkey, if_neg hkey]
          exact hnext m hne
    · -- an empty line at the end of the file
      rename_i hline
      simp only [decide_eq_true_eq, not_or, not_not, gt_iff_lt, List.length_pos_iff] at hline
      obtain ⟨hnil, hend⟩ := hline
      have hlater : later.filter (· ≠ []) = [] := by
        rw [← hrest, hend]
        rfl
      change some none = some (lookup sect key m (.ofLine first :: later.map IniItem.ofLine))
      rw [hnil]
      change some none = some (lookup sect key m (later.map IniItem.ofLine))
      rw [← lookup_textLines, hlater]
      rfl

/-! ## The value -/

theorem mem_fileLines {content line : Bytes} (hline : line ∈ fileLines content) {b : UInt8} (hb : b ∈ line) :
    b ∈ content := by
  induction content generalizing line with
  | nil =>
    rw [fileLines_nil, List.mem_singleton] at hline
    rwa [hline] at hb
  | cons ch rest ih =>
    by_cases h13 : ch = 13
    · rw [h13, fileLines_return] at hline
      exact List.mem_cons_of_mem _ (ih hline hb)
    by_cases h10 : ch = 10
    · rw [h10, fileLines_newline] at hline
      rcases List.mem_cons.1 hline with hnil | hline
      · rw [hnil] at hb
        cases hb
      · exact List.mem_cons_of_mem _ (ih hline hb)
    obtain ⟨first, later, hrest⟩ := List.exists_cons_of_ne_nil (List.splitOn_ne_nil 10 (rest.filter (· ≠ 13)))
    change fileLines rest = first :: later at hrest
    rw [fileLines_cons h13 h10, hrest, List.modifyHead_cons] at hline
    rcases List.mem_cons.1 hline with hfirst | hline
    · rw [hfirst] at hb
      rcases List.mem_cons.1 hb with rfl | hb
      · exact List.mem_cons_self
      · exact List.mem_cons_of_mem _ (ih (hrest ▸ List.mem_cons_self) hb)
    · exact List.mem_cons_of_mem _ (ih (hrest ▸ List.mem_cons_of_mem _ hline) hb)

theorem ofLine_value {line k v : Bytes} (h : IniItem.ofLine line = .pair k v) : List.Sublist v line := by
  have htrim := trim_sublist line
  unfold IniItem.ofLine at h
  split at h
  · cases h
  rename_i ch after heq
  rw [heq] at htrim
  split at h
  · cases h
  split at h
  · split at h <;> cases h
  split at h
  · cases h
    exact (trim_sublist _).trans ((List.tail_sublist _).trans ((List.dropWhile_sublist _).trans htrim))
  · cases h

/-- A value stands in a line. -/
theorem firstValue_sublist {lines : List Bytes} {value : Bytes}
    (h : firstValue sect key (lines.map IniItem.ofLine) = some value) :
    ∃ line ∈ lines, List.Sublist value line := by
  obtain ⟨i, -, hi⟩ := List.mem_filterMap.1 (List.mem_of_head? h)
  unfold valueAt at hi
  split at hi
  · rename_i k v hitem
    rw [List.getElem?_map] at hitem
    obtain ⟨line, hline, hpair⟩ := Option.map_eq_some_iff.1 hitem
    split at hi
    · cases hi
      exact ⟨line, List.mem_of_getElem? hline, ofLine_value hpair⟩
    · cases hi
  · cases hi

/-- `(int)strlen(buffer)`, which `ini_gets` returns. -/
def iniGetsLength {bufferSize : Nat} (buffer : CString bufferSize) : Int :=
  (Int32.ofNat buffer.bytes.length).toInt

def sectionNameLength (item : IniItem) : Nat :=
  match item with
  | .header name => name.length
  | _ => 0

/-- **What `ini_gets` returns** for any file whose lines fit: the first value of the key
in the section, or else the default, cut to the buffer, and the length of that. -/
theorem ini_gets_grammar {content sect : Bytes} (key : Bytes) {defValue : Bytes}
    {bufferSize fuel : Nat} (h0 : 0 ∉ content) (hlines : ∀ line ∈ fileLines content, line.length ≤ 319)
    (hnames : ∀ line ∈ fileLines content, sectionNameLength (IniItem.ofLine line) ≤ 63) (hsect : sect ≠ [])
    (hdef : 0 ∉ defValue) (hsize : bufferSize < 2 ^ 31) (hfuel : content.length < fuel) :
    ∃ buffer, iniGets readsOk sect key fuel defValue bufferSize (some content) = some buffer ∧
      buffer.bytes = ((firstValue sect key ((fileLines content).map IniItem.ofLine)).getD defValue).take
        (bufferSize - 1) ∧
      iniGetsLength buffer = buffer.bytes.length := by
  have hfits : ∀ line ∈ textLines content, LineFits line := by
    intro line hline
    have hmem := List.mem_of_mem_filter hline
    refine ⟨fun hz => h0 (mem_fileLines hmem hz), hlines line hmem, fun name hheader => ?_⟩
    have hname := hnames line hmem
    rwa [hheader] at hname
  refine ⟨.copy bufferSize ((firstValue sect key ((fileLines content).map IniItem.ofLine)).getD defValue),
    ?_, ?_, ?_⟩
  · apply iniGets_eq
    rw [decide_eq_false hsect, iniLoop_lines hfits hfuel, lookup_eq_firstValue]
  · have hnoNul : 0 ∉ (firstValue sect key ((fileLines content).map IniItem.ofLine)).getD defValue := by
      cases hvalue : firstValue sect key ((fileLines content).map IniItem.ofLine) with
      | none => exact hdef
      | some value =>
        obtain ⟨line, hline, hsub⟩ := firstValue_sublist hvalue
        exact fun hz => h0 (mem_fileLines hline (hsub.subset hz))
    exact congrArg (List.take (bufferSize - 1)) (cstr_of_noNul hnoNul)
  · have hlen := (CString.copy bufferSize
      ((firstValue sect key ((fileLines content).map IniItem.ofLine)).getD defValue)).fits
    rw [iniGetsLength, Int32.toInt_ofNat_of_lt (by omega)]

/-- A section in two parts, a header that is not closed, and a last line without an end. -/
theorem ini_gets_grammar_parts : ∃ buffer, iniGets readsOk (ascii "mqtt") (ascii "host") 80 (ascii "none") 8
      (some (ascii "[mqtt]\r\nport=1\n[network]\nhost=a\n[mqtt\n# host=b\n[ mqtt ]\n host = broker.lan")) =
        some buffer ∧
    buffer.bytes = ((firstValue (ascii "mqtt") (ascii "host")
      ((fileLines
        (ascii "[mqtt]\r\nport=1\n[network]\nhost=a\n[mqtt\n# host=b\n[ mqtt ]\n host = broker.lan")).map
        IniItem.ofLine)).getD (ascii "none")).take 7 ∧
    iniGetsLength buffer = buffer.bytes.length :=
  ini_gets_grammar (ascii "host") (by decide +kernel) (by decide +kernel) (by decide +kernel)
    (by decide +kernel) (by decide +kernel)
    (by decide) (by decide +kernel)

end BLEBridge
