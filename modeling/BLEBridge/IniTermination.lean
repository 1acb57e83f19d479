import Mathlib.Data.Nat.Count
import BLEBridge.MiniIni
/-!
# When reading ends

`ini_gets` returns if the reads that succeed are enough for the whole file, or if the
lines that they deliver hold the value. If a read error stays before that,
`read_line` reports an empty line again and again, since the end of the file is not
reached.
-/
open Lib

namespace BLEBridge

/-- How many of the first `n` reads succeed. -/
def succeeded (fault : Nat → Bool) (n : Nat) : Nat := Nat.count (fun i => fault i = false) n

/-- At some time as many reads have succeeded as the file has bytes. -/
def EnoughReads (fault : Nat → Bool) (size : Nat) : Prop := ∃ n, size ≤ succeeded fault n

variable {fault : Nat → Bool} {sect key : Bytes}

theorem succeeded_succ (fault : Nat → Bool) (n : Nat) :
    succeeded fault (n + 1) = succeeded fault n + if fault n = false then 1 else 0 :=
  Nat.count_succ _ n

/-! ## One line -/

/-- Every read that succeeds takes a byte, as long as there are any. -/
structure TakesBytes (fault : Nat → Bool) (size reads : Nat) (file : Fil) : Prop where
  spent : ∃ n, file.rest.length + succeeded fault n = size + succeeded fault reads
  steady : file.rest ≠ [] → file.rest.length + succeeded fault file.reads = size + succeeded fault reads

theorem TakesBytes.of_eq {size reads : Nat} {file : Fil}
    (h : file.rest.length + succeeded fault file.reads = size + succeeded fault reads) :
    TakesBytes fault size reads file :=
  ⟨⟨_, h⟩, fun _ => h⟩

/-- The read that succeeds first takes one. -/
theorem TakesBytes.after {size reads : Nat} {file : Fil} (hok : fault reads = false)
    (h : TakesBytes fault size (reads + 1) file) : TakesBytes fault (size + 1) reads file := by
  have hsucc := succeeded_succ fault reads
  rw [if_pos hok] at hsucc
  obtain ⟨n, hn⟩ := h.spent
  refine ⟨⟨n, by omega⟩, fun hne => ?_⟩
  have hsteady := h.steady hne
  omega

theorem readLoop_takes (room : Nat) (rest : Bytes) (reads : Nat) :
    TakesBytes fault rest.length reads (readLoop fault room rest reads).2 := by
  induction rest generalizing room reads with
  | nil => exact ⟨⟨reads, rfl⟩, fun h => absurd rfl h⟩
  | cons ch rest ih =>
    rw [readLoop]
    by_cases hroom : room = 0
    · rw [if_pos hroom]
      exact .of_eq rfl
    rw [if_neg hroom]
    cases hfault : fault reads with
    | true =>
      refine .of_eq ?_
      have hsucc := succeeded_succ fault reads
      rw [hfault] at hsucc
      change (ch :: rest).length + succeeded fault (reads + 1) = _
      rw [hsucc]
      rfl
    | false =>
      rw [if_neg Bool.false_ne_true, List.length_cons]
      apply TakesBytes.after hfault
      split
      · exact ih room (reads + 1)
      split
      · exact .of_eq rfl
      · exact ih (room - 1) (reads + 1)

theorem readLoop_sublist (room : Nat) (rest : Bytes) (reads : Nat) :
    List.Sublist ((readLoop fault room rest reads).1 ++ (readLoop fault room rest reads).2.rest) rest := by
  induction rest generalizing room reads with
  | nil => exact List.Sublist.refl _
  | cons ch rest ih =>
    rw [readLoop]
    split
    · exact List.Sublist.refl _
    split
    · exact List.Sublist.refl _
    split
    · exact (ih _ _).cons _
    split
    · exact List.sublist_cons_self _ _
    · exact (ih _ _).cons_cons _

/-- A line takes a read at least. -/
theorem lt_readLoop_reads {room : Nat} (hroom : 0 < room) (rest : Bytes) (reads : Nat) :
    reads < (readLoop fault room rest reads).2.reads := by
  have hle (room : Nat) (rest : Bytes) (reads : Nat) : reads ≤ (readLoop fault room rest reads).2.reads := by
    induction rest generalizing room reads with
    | nil =>
      change reads ≤ if room = 0 then reads else reads + 1
      split <;> omega
    | cons ch rest ih =>
      rw [readLoop]
      split
      · exact le_refl _
      split
      · exact Nat.le_succ _
      split
      · exact (Nat.le_succ _).trans (ih _ _)
      split
      · exact Nat.le_succ _
      · exact (Nat.le_succ _).trans (ih _ _)
  cases rest with
  | nil =>
    rw [readLoop, if_neg (by omega)]
    exact Nat.lt_succ_self _
  | cons ch rest =>
    rw [readLoop, if_neg (by omega)]
    split
    · exact Nat.lt_succ_self _
    split
    · exact hle _ _ _
    split
    · exact Nat.lt_succ_self _
    · exact hle _ _ _

/-! ## All lines -/

/-- There is no line at the end of the file. -/
theorem readLine_true {file : Fil} (h : (readLine fault SIZEOF_LINE file).1 = true) : file.rest ≠ [] := by
  intro hnil
  rw [readLine, hnil, readLoop] at h
  simp at h

theorem readLine_takes (file : Fil) :
    TakesBytes fault file.rest.length file.reads (readLine fault SIZEOF_LINE file).2.2 :=
  readLoop_takes _ _ _

/-- With enough reads the loop ends. -/
theorem iniLoop_ends {fuel n : Nat} {file : Fil}
    (h : file.rest = [] ∨ file.rest.length + succeeded fault file.reads ≤ succeeded fault n)
    (hfuel : n - file.reads < fuel) (m : Bool) : (iniLoop fault sect key fuel m file).isSome = true := by
  induction fuel generalizing file m with
  | zero => omega
  | succ fuel ih =>
    simp only [iniLoop]
    split
    · rename_i hline
      have hne := readLine_true hline
      have hle := h.resolve_left hne
      -- something is left, so not all of the first `n` reads are done
      have hlt : file.reads < n := by
        by_contra hge
        have hmono : succeeded fault n ≤ succeeded fault file.reads := Nat.count_monotone _ (not_lt.1 hge)
        exact hne (List.length_eq_zero_iff.1 (by omega))
      have hreads : file.reads < (readLine fault SIZEOF_LINE file).2.2.reads :=
        lt_readLoop_reads (by decide) file.rest file.reads
      split
      · refine ih ?_ (by omega) _
        by_cases hnil : (readLine fault SIZEOF_LINE file).2.2.rest = []
        · exact .inl hnil
        · exact .inr (((readLine_takes file).steady hnil).trans_le hle)
      · rfl
    · rfl

/-- Without, a loop that looks for what is not in the file goes on forever. -/
theorem iniLoop_hangs {content : Bytes} {fuel : Nat}
    {file : Fil} (hfew : ∀ n, succeeded fault n < content.length)
    (hkey : ¬ List.Sublist key content) (hrest : List.Sublist file.rest content)
    (hsize : file.rest.length + succeeded fault file.reads = content.length) (m : Bool) :
    iniLoop fault sect key fuel m file = none := by
  induction fuel generalizing file m with
  | zero => rfl
  | succ fuel ih =>
    have htakes : TakesBytes fault file.rest.length file.reads (readLine fault SIZEOF_LINE file).2.2 :=
      readLine_takes file
    obtain ⟨n, hn⟩ := htakes.spent
    have hleft : (readLine fault SIZEOF_LINE file).2.2.rest ≠ [] := by
      intro hnil
      have hlt := hfew n
      rw [hnil, List.length_nil] at hn
      omega
    have hline : (readLine fault SIZEOF_LINE file).1 = true := decide_eq_true (.inr hleft)
    have hread : List.Sublist ((readLine fault SIZEOF_LINE file).2.1 ++
        (readLine fault SIZEOF_LINE file).2.2.rest) content :=
      (readLoop_sublist _ _ _).trans hrest
    simp only [iniLoop]
    rw [if_pos hline]
    split
    · exact ih ((List.sublist_append_right _ _).trans hread) (((readLine_takes file).steady hleft).trans hsize) _
    · rename_i text hfound
      obtain ⟨s, hs, rfl, -⟩ := iniLine_found hfound
      have hpart : List.Sublist (trimRight (s.takeWhile (· ≠ 61))) s :=
        (List.rdropWhile_prefix _ _).sublist.trans (List.takeWhile_sublist _)
      exact absurd (hpart.trans (hs.trans ((List.sublist_append_left _ _).trans hread))) hkey

/-! ## What the reads deliver -/

/-- What `n` reads deliver from the `i`th on. A read that fails ends the line, as a
line feed does. -/
def delivered (fault : Nat → Bool) : Nat → Nat → Bytes → Bytes
  | 0, _, _ => []
  | _ + 1, _, [] => []
  | n + 1, i, ch :: rest =>
    if fault i then 10 :: delivered fault n (i + 1) (ch :: rest) else ch :: delivered fault n (i + 1) rest

/-- The lines of a text that have an end, the first of which starts with `line`: a
line feed ends one, and so does the next byte when the buffer is full. -/
def endedLines (line : Bytes) : Bytes → List Bytes
  | [] => []
  | ch :: text =>
    let full := line.length = SIZEOF_LINE - 1
    let start := if full then [] else line
    let later :=
      if ch = 13 then endedLines start text
      else if ch = 10 then start :: endedLines [] text
      else endedLines (start ++ [ch]) text
    if full then line :: later else later

/-- Whether one of these lines holds the value. -/
def findsValue (sect key : Bytes) : Bool → List Bytes → Bool
  | _, [] => false
  | sectionMatch, line :: lines =>
    match iniLine sect key sectionMatch line with
    | .next sectionMatch => findsValue sect key sectionMatch lines
    | .found _ => true

/-- The reads get to the end of the file, or to the line with the value. -/
def ReadsSuffice (fault : Nat → Bool) (sect key content : Bytes) : Prop :=
  EnoughReads fault content.length ∨
    ∃ n, findsValue sect key (sect = []) (endedLines [] (delivered fault n 0 content)) = true

/-- The value is read before the disk fails, in the third line. -/
example : ReadsSuffice (17 ≤ ·) (ascii "network") (ascii "ssid") (ascii "[network]\nssid=x\nmode=ap\n") :=
  .inr ⟨17, by decide +kernel⟩

theorem delivered_prefix (n k i : Nat) (rest : Bytes) :
    delivered fault n i rest <+: delivered fault (n + k) i rest := by
  induction n generalizing i rest with
  | zero => exact List.nil_prefix
  | succ n ih =>
    rw [Nat.succ_add]
    cases rest with
    | nil => exact List.nil_prefix
    | cons ch rest =>
      simp only [delivered]
      split
      · exact List.prefix_cons_inj 10 |>.2 (ih _ _)
      · exact List.prefix_cons_inj ch |>.2 (ih _ _)

/-- A longer text has the same lines first. -/
theorem endedLines_init (line : Bytes) {s t : Bytes} (h : s <+: t) :
    endedLines line s <+: endedLines line t := by
  induction s generalizing line t with
  | nil => exact List.nil_prefix
  | cons ch s ih =>
    obtain ⟨tail, rfl⟩ := h
    have hlater (line : Bytes) : endedLines line s <+: endedLines line (s ++ tail) :=
      ih line (List.prefix_append s tail)
    rw [List.cons_append]
    simp only [endedLines]
    split <;> split
    · exact List.prefix_cons_inj line |>.2 (hlater _)
    · split
      · exact List.prefix_cons_inj line |>.2 (List.prefix_cons_inj [] |>.2 (hlater _))
      · exact List.prefix_cons_inj line |>.2 (hlater _)
    · exact hlater _
    · split
      · exact List.prefix_cons_inj line |>.2 (hlater _)
      · exact hlater _

theorem endedLines_full {line : Bytes} (h : line.length = SIZEOF_LINE - 1) (ch : UInt8) (text : Bytes) :
    endedLines line (ch :: text) = line :: endedLines [] (ch :: text) := by
  have hempty : ¬([] : Bytes).length = SIZEOF_LINE - 1 := by decide
  simp only [endedLines, if_pos h, if_neg hempty]

theorem endedLines_byte {line : Bytes} (h : line.length ≠ SIZEOF_LINE - 1) (ch : UInt8) (text : Bytes) :
    endedLines line (ch :: text) = if ch = 13 then endedLines line text
      else if ch = 10 then line :: endedLines [] text else endedLines (line ++ [ch]) text := by
  simp only [endedLines, if_neg h]

/-- A line that does not reach the end of the file is the next one that the reads
deliver. -/
theorem readLoop_delivers {room : Nat} {line : Bytes} (hroom : line.length + room = SIZEOF_LINE - 1)
    {rest : Bytes} {reads : Nat} (h : (readLoop fault room rest reads).2.rest ≠ []) : ∃ k, ∀ n, 0 < n →
      endedLines line (delivered fault (n + k) reads rest) = (line ++ (readLoop fault room rest reads).1) ::
        endedLines [] (delivered fault n (readLoop fault room rest reads).2.reads
          (readLoop fault room rest reads).2.rest) := by
  induction rest generalizing room reads line with
  | nil => exact absurd rfl h
  | cons ch rest ih =>
    rw [readLoop] at h ⊢
    by_cases hzero : room = 0
    · rw [if_pos hzero]
      refine ⟨0, fun n hn => ?_⟩
      obtain ⟨n, rfl⟩ := Nat.exists_eq_succ_of_ne_zero hn.ne'
      have hfull : line.length = SIZEOF_LINE - 1 := by omega
      rw [List.append_nil, Nat.add_zero]
      simp only [delivered]
      split <;> exact endedLines_full hfull _ _
    rw [if_neg hzero] at h ⊢
    have hspace : line.length ≠ SIZEOF_LINE - 1 := by omega
    cases hfault : fault reads with
    | true =>
      refine ⟨1, fun n _ => ?_⟩
      rw [if_pos rfl, List.append_nil]
      simp only [delivered, hfault, if_true]
      rw [endedLines_byte hspace, if_neg (by decide), if_pos rfl]
    | false =>
      rw [hfault, if_neg Bool.false_ne_true] at h
      rw [if_neg Bool.false_ne_true]
      have hnext (n k : Nat) : delivered fault (n + (k + 1)) reads (ch :: rest) = ch ::
          delivered fault (n + k) (reads + 1) rest := by
        rw [← Nat.add_assoc, delivered, hfault, if_neg Bool.false_ne_true]
      by_cases h13 : ch = 13
      · rw [if_pos h13] at h ⊢
        obtain ⟨k, hk⟩ := ih hroom h
        refine ⟨k + 1, fun n hn => ?_⟩
        rw [hnext, endedLines_byte hspace, if_pos h13, hk n hn]
      rw [if_neg h13] at h ⊢
      by_cases h10 : ch = 10
      · rw [if_pos h10]
        refine ⟨1, fun n _ => ?_⟩
        rw [hnext n 0, endedLines_byte hspace, if_neg h13, if_pos h10, List.append_nil]
        rfl
      · rw [if_neg h10] at h ⊢
        have hlonger : (line ++ [ch]).length + (room - 1) = SIZEOF_LINE - 1 := by
          rw [List.length_append, List.length_singleton]
          omega
        obtain ⟨k, hk⟩ := ih hlonger h
        refine ⟨k + 1, fun n hn => ?_⟩
        rw [hnext, endedLines_byte hspace, if_neg h13, if_neg h10, hk n hn, List.append_assoc]
        rfl

theorem readLine_delivers {file : Fil} (h : (readLine fault SIZEOF_LINE file).2.2.rest ≠ []) : ∃ k, ∀ n, 0 < n →
    endedLines [] (delivered fault (n + k) file.reads file.rest) = (readLine fault SIZEOF_LINE file).2.1 ::
      endedLines [] (delivered fault n (readLine fault SIZEOF_LINE file).2.2.reads
        (readLine fault SIZEOF_LINE file).2.2.rest) :=
  readLoop_delivers (Nat.zero_add _) h

theorem readLine_true_of_left {file : Fil} (h : (readLine fault SIZEOF_LINE file).2.2.rest ≠ []) :
    (readLine fault SIZEOF_LINE file).1 = true := decide_eq_true (.inr h)

/-! ## When the loop ends -/

theorem iniLoop_end {file : Fil} (h : file.rest = []) (m : Bool) :
    iniLoop fault sect key 1 m file = some none := by
  have hline : ¬(readLine fault SIZEOF_LINE file).1 = true := fun hline => readLine_true hline h
  simp only [iniLoop]
  exact if_neg hline

/-- The loop ends when the lines delivered hold the value. -/
theorem iniLoop_finds {lines : List Bytes} {n : Nat} {file : Fil} {m : Bool}
    (hlines : lines <+: endedLines [] (delivered fault n file.reads file.rest))
    (h : findsValue sect key m lines = true) :
    ∃ fuel, (iniLoop fault sect key fuel m file).isSome = true := by
  induction lines generalizing n file m with
  | nil => cases h
  | cons line lines ih =>
    by_cases hleft : (readLine fault SIZEOF_LINE file).2.2.rest = []
    · -- this is the last line, whatever it holds
      refine ⟨2, ?_⟩
      rw [iniLoop]
      split
      · split
        · rw [iniLoop_end hleft]
          rfl
        · rfl
      · rfl
    obtain ⟨k, hk⟩ := readLine_delivers hleft
    have hmore : delivered fault n file.reads file.rest <+: delivered fault (n + 1 + k) file.reads file.rest := by
      rw [Nat.add_assoc]
      exact delivered_prefix n (1 + k) _ _
    have hprefix := hlines.trans (endedLines_init [] hmore)
    rw [hk (n + 1) (Nat.succ_pos n)] at hprefix
    obtain ⟨rfl, hlater⟩ := List.cons_prefix_cons.1 hprefix
    rw [findsValue] at h
    cases hstep : iniLine sect key m (readLine fault SIZEOF_LINE file).2.1 with
    | found text =>
      refine ⟨1, ?_⟩
      simp only [iniLoop, readLine_true_of_left hleft, if_true, hstep]
      rfl
    | next m' =>
      rw [hstep] at h
      obtain ⟨fuel, hfuel⟩ := ih hlater h
      refine ⟨fuel + 1, ?_⟩
      simp only [iniLoop, readLine_true_of_left hleft, if_true, hstep]
      exact hfuel

/-- A loop that ends has read the whole file, or lines that hold the value. -/
theorem iniLoop_suffices {fuel : Nat} {file : Fil} {m : Bool}
    (h : (iniLoop fault sect key fuel m file).isSome = true) :
    (∃ n, file.rest.length + succeeded fault file.reads ≤ succeeded fault n) ∨
      ∃ n, findsValue sect key m (endedLines [] (delivered fault n file.reads file.rest)) = true := by
  induction fuel generalizing file m with
  | zero => cases h
  | succ fuel ih =>
    have htakes : TakesBytes fault file.rest.length file.reads (readLine fault SIZEOF_LINE file).2.2 :=
      readLine_takes file
    by_cases hleft : (readLine fault SIZEOF_LINE file).2.2.rest = []
    · obtain ⟨n, hn⟩ := htakes.spent
      rw [hleft, List.length_nil, Nat.zero_add] at hn
      exact .inl ⟨n, hn.ge⟩
    obtain ⟨k, hk⟩ := readLine_delivers hleft
    simp only [iniLoop, readLine_true_of_left hleft, if_true] at h
    cases hstep : iniLine sect key m (readLine fault SIZEOF_LINE file).2.1 with
    | found text =>
      refine .inr ⟨1 + k, ?_⟩
      rw [hk 1 Nat.one_pos, findsValue, hstep]
    | next m' =>
      rw [hstep] at h
      rcases ih h with ⟨n, hn⟩ | ⟨n, hn⟩
      · exact .inl ⟨n, (htakes.steady hleft).ge.trans hn⟩
      · have hpos : 0 < n := by
          rw [Nat.pos_iff_ne_zero]
          rintro rfl
          cases hn
        refine .inr ⟨n + k, ?_⟩
        rw [hk n hpos, findsValue, hstep]
        exact hn

/-- **When a lookup returns**: without room for the value, without the file, and else
exactly if the reads that succeed get to its end or to a line with the value. -/
theorem ini_gets_returns_iff (fault : Nat → Bool) (sect key defValue : Bytes) (bufferSize : Nat)
    (file : Option Bytes) :
    (∃ fuel, (iniGets fault sect key fuel defValue bufferSize file).isSome = true) ↔
      (0 < bufferSize → ∀ content, file = some content → ReadsSuffice fault sect key content) := by
  have hzero : succeeded fault 0 = 0 := Nat.count_zero _
  constructor
  · rintro ⟨fuel, hfuel⟩ hpos content rfl
    rw [iniGets, if_neg hpos.ne', Option.isSome_map] at hfuel
    exact iniLoop_suffices hfuel
  · intro h
    unfold iniGets
    split
    · exact ⟨0, rfl⟩
    rename_i hsize
    cases file with
    | none => exact ⟨0, rfl⟩
    | some content =>
      simp only [Option.isSome_map]
      rcases h (Nat.pos_of_ne_zero hsize) content rfl with ⟨n, hn⟩ | ⟨n, hn⟩
      · exact ⟨n + 1, iniLoop_ends (.inr (by rw [hzero]; exact hn)) (Nat.lt_succ_self _) _⟩
      · exact iniLoop_finds (List.prefix_refl _) hn

/-- A disk that fails from the sixth read on. -/
theorem ini_gets_hangs : ¬ ∃ fuel,
    (iniGets (fun i => 5 ≤ i) (ascii "network") (ascii "ssid") fuel (ascii "BLEBridge") 64
      (some (ascii "[network]\nmode=ap\n"))).isSome = true := by
  rintro ⟨fuel, hfuel⟩
  have hfive (n : Nat) : succeeded (fun i => 5 ≤ i) n ≤ 5 := by
    induction n with
    | zero => exact Nat.zero_le _
    | succ n ih =>
      rw [succeeded_succ]
      split
      · rename_i hlt
        have hle : succeeded (fun i => 5 ≤ i) n ≤ n := Nat.count_le _
        rw [decide_eq_false_iff_not] at hlt
        omega
      · exact ih
  have hfew : ∀ n, succeeded (fun i => 5 ≤ i) n < (ascii "[network]\nmode=ap\n").length := fun n =>
    (hfive n).trans_lt (by decide +kernel)
  have hhangs : iniLoop (fun i => 5 ≤ i) (ascii "network") (ascii "ssid") fuel (ascii "network" = [])
      ⟨ascii "[network]\nmode=ap\n", 0⟩ = none :=
    iniLoop_hangs hfew (by decide +kernel) (List.Sublist.refl _) rfl _
  rw [iniGets, if_neg (by decide), hhangs] at hfuel
  cases hfuel

end BLEBridge
